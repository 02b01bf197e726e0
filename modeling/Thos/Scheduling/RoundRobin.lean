import Thos.Data.Cyclic
import Thos.Scheduling.Exclusion

namespace Thos.Scheduling

open Data.Cyclic

/-! The order in which a single hart runs its processes. -/

variable {image : Image}

/-! `Process_find_next`. -/

def Process.Eligible {target : Target} (process : Process target) : Prop :=
  process.state = .runnable ∨ process.state = .ready

instance {target : Target} (process : Process target) :
    Decidable process.Eligible :=
  inferInstanceAs (Decidable (_ ∨ _))

def eligibleSlots (image : Image) (processes : Processes image.target) :
    Finset Nat :=
  (Finset.range image.processesMaximum).filter fun slot =>
    (processes slot).Eligible

theorem mem_eligibleSlots {processes : Processes image.target} {slot : Nat} :
    slot ∈ eligibleSlots image processes ↔
      slot < image.processesMaximum ∧ (processes slot).Eligible := by
  rw [eligibleSlots, Finset.mem_filter, Finset.mem_range]

/-- The loop of `Process_find_next`. No result is an access outside the table. -/
def processFindNextLoop (image : Image) (processes : Processes image.target) :
    Nat → UInt8 → Option (Option Nat)
  | 0, _ => some none
  | remaining + 1, id =>
      if id.toNat < image.processesMaximum then
        if (processes id.toNat).Eligible then some (some id.toNat)
        else processFindNextLoop image processes remaining (pidNext image id)
      else none

def processFindNext (image : Image) (processes : Processes image.target)
    (startId : UInt8) : Option (Option Nat) :=
  processFindNextLoop image processes image.processesMaximum startId

theorem pidNext_toNat (id : UInt8) :
    (pidNext image id).toNat = (id.toNat + 1) % image.processesMaximum := by
  have below := Nat.mod_lt (id.toNat + 1) image.processesMaximum_pos
  have few := image.processesMaximum_le
  exact Nat.mod_eq_of_lt (Nat.lt_of_lt_of_le below few)

theorem pidNext_lt (id : UInt8) :
    (pidNext image id).toNat < image.processesMaximum := by
  rw [pidNext_toNat]
  exact Nat.mod_lt _ image.processesMaximum_pos

theorem processFindNextLoop_eq (processes : Processes image.target)
    (remaining : Nat) {id : UInt8} (inside : id.toNat < image.processesMaximum) :
    processFindNextLoop image processes remaining id =
      some ((order image.processesMaximum id.toNat remaining).find?
        (· ∈ eligibleSlots image processes)) := by
  induction remaining generalizing id with
  | zero => rfl
  | succ remaining induction =>
      rw [processFindNextLoop, if_pos inside, order_succ, Nat.mod_eq_of_lt inside,
        List.find?_cons]
      by_cases eligible : (processes id.toNat).Eligible
      · rw [if_pos eligible]
        simp [mem_eligibleSlots, inside, eligible]
      · rw [if_neg eligible, induction (pidNext_lt id), pidNext_toNat, order_mod]
        simp [mem_eligibleSlots, eligible]

/-- The search stays inside the table, and finds the first eligible slot of the
round that starts at its argument. -/
theorem processFindNext_eq (processes : Processes image.target) {startId : UInt8}
    (inside : startId.toNat < image.processesMaximum) :
    processFindNext image processes startId =
      some (circuit image.processesMaximum (eligibleSlots image processes)
        startId.toNat).head? := by
  rw [processFindNext, processFindNextLoop_eq processes _ inside, circuit,
    List.head?_filter]

theorem processFindNext_eq_none_iff (processes : Processes image.target)
    {startId : UInt8} (inside : startId.toNat < image.processesMaximum) :
    processFindNext image processes startId = some none ↔
      ∀ slot < image.processesMaximum, ¬ (processes slot).Eligible := by
  rw [processFindNext_eq processes inside, Option.some.injEq, List.head?_eq_none_iff,
    List.eq_nil_iff_forall_not_mem]
  constructor
  · intro nothing slot bound eligible
    exact nothing slot
      (mem_circuit.mpr ⟨bound, mem_eligibleSlots.mpr ⟨bound, eligible⟩⟩)
  · intro nothing slot member
    obtain ⟨bound, member⟩ := mem_circuit.mp member
    exact nothing slot bound (mem_eligibleSlots.mp member).2

/-! The machine's steps of the search. -/

theorem scan_selects {Hart : Type} {hart : Hart} {here : HartState image.target}
    {processes : Processes image.target} {inTrap : Bool} {start id : UInt8}
    {numChecked : Nat} (more : numChecked < image.processesMaximum)
    (eligible : (processes id.toNat).Eligible) :
    kernelSwitch image hart here processes inTrap (.scan start id numChecked) =
      here.goto (.switching inTrap (.select id.toNat)) := by
  rw [kernelSwitch, if_pos more]
  exact if_pos eligible

theorem scan_skips {Hart : Type} {hart : Hart} {here : HartState image.target}
    {processes : Processes image.target} {inTrap : Bool} {start id : UInt8}
    {numChecked : Nat} (more : numChecked < image.processesMaximum)
    (skipped : ¬ (processes id.toNat).Eligible) :
    kernelSwitch image hart here processes inTrap (.scan start id numChecked) =
      here.goto (.switching inTrap
        (.scan start (pidNext image id) (numChecked + 1))) := by
  rw [kernelSwitch, if_pos more]
  exact if_neg skipped

section

variable {Hart : Type} [DecidableEq Hart] {hart : Hart}
  {state : State Hart image.target}
  {inTrap : Bool}

theorem step_kernelSwitch {point : SwitchPoint} {effect : Effect Hart image.target}
    {lock : Option Hart}
    (control : (state.harts hart).control = .switching inTrap point)
    (made : kernelSwitch image hart (state.harts hart) state.processes inTrap point =
      effect)
    (applied : effect.processesLock.apply hart state.processesLock = some lock)
    (keeps : effect.trapPrintLock = .keep) :
    step image state ⟨hart, .kernel false⟩ = some {
      harts := Function.update state.harts hart effect.hart
      processes := effect.processes state.processes
      processesLock := lock
      trapPrintLock := state.trapPrintLock
      trace := state.trace ++ effect.events } := by
  have kernel : Scheduling.effect image hart (state.harts hart) state.processes
      (.kernel false) = some effect := by
    rw [Scheduling.effect, kernelStep, control, ← made]
  rw [step, kernel]
  simp only [Option.bind_eq_bind, Option.bind_some, Effect.apply, applied, keeps]
  rfl

/-- Where a search leads that has begun at `start`. -/
def SwitchPoint.searched (start : UInt8) : Option Nat → SwitchPoint
  | some slot => .select slot
  | none => .retry start

theorem step_goto {point later : SwitchPoint}
    (control : (state.harts hart).control = .switching inTrap point)
    (goes : kernelSwitch image hart (state.harts hart) state.processes inTrap point =
      (state.harts hart).goto (.switching inTrap later)) :
    ∃ after, step image state ⟨hart, .kernel false⟩ = some after ∧
      after.processes = state.processes ∧
      (after.harts hart).control = .switching inTrap later := by
  refine ⟨_, step_kernelSwitch control goes rfl rfl, rfl, ?_⟩
  have here : Function.update state.harts hart
      { state.harts hart with control := .switching inTrap later } hart =
        { state.harts hart with control := .switching inTrap later } :=
    Function.update_self ..
  exact congrArg HartState.control here

theorem scan_executes {start id : UInt8} {numChecked remaining : Nat}
    (control : (state.harts hart).control = .switching inTrap
      (.scan start id numChecked))
    (left : numChecked + remaining = image.processesMaximum)
    (inside : id.toNat < image.processesMaximum) :
    ∃ found count after,
      processFindNextLoop image state.processes remaining id = some found ∧
      Data.Transition.execute (step image) state
        (List.replicate count ⟨hart, .kernel false⟩) = some after ∧
      after.processes = state.processes ∧
      (after.harts hart).control = .switching inTrap (.searched start found) := by
  induction remaining generalizing id numChecked state with
  | zero =>
      have checked : ¬ numChecked < image.processesMaximum := by omega
      obtain ⟨after, stepped, processes, arrived⟩ :=
        step_goto control (if_neg checked)
      refine ⟨none, 1, after, rfl, ?_, processes, arrived⟩
      rw [List.replicate_one, Data.Transition.execute, stepped]
      rfl
  | succ remaining induction =>
      have more : numChecked < image.processesMaximum := by omega
      rw [processFindNextLoop, if_pos inside]
      by_cases eligible : (state.processes id.toNat).Eligible
      · obtain ⟨after, stepped, processes, arrived⟩ :=
          step_goto control (scan_selects more eligible)
        refine ⟨some id.toNat, 1, after, if_pos eligible, ?_, processes, arrived⟩
        rw [List.replicate_one, Data.Transition.execute, stepped]
        rfl
      · obtain ⟨middle, stepped, processes, arrived⟩ :=
          step_goto control (scan_skips more eligible)
        obtain ⟨found, count, after, computed, executed, later, goes⟩ :=
          induction arrived (by omega) (pidNext_lt id)
        rw [processes] at computed later
        refine ⟨found, count + 1, after, ?_, ?_, later, goes⟩
        · rw [if_neg eligible]
          exact computed
        · rw [List.replicate_succ, Data.Transition.execute, stepped]
          exact executed

theorem processFindNext_executes {start : UInt8}
    (control : (state.harts hart).control = .switching inTrap (.scan start start 0))
    (inside : start.toNat < image.processesMaximum) :
    ∃ found count after,
      processFindNext image state.processes start = some found ∧
      Data.Transition.execute (step image) state
        (List.replicate count ⟨hart, .kernel false⟩) = some after ∧
      after.processes = state.processes ∧
      (after.harts hart).control = .switching inTrap (.searched start found) :=
  scan_executes control (Nat.zero_add _) inside

end

/-! What a trace says about selections. -/

def Event.disturbs {Hart : Type} {target : Target} : Event Hart target → Bool
  | .stored _ _ .unused => true
  | .stored _ _ .ready => true
  | _ => false

def Event.selected {Hart : Type} {target : Target} :
    Event Hart target → Option Nat
  | .stored _ slot .running => some slot
  | _ => none

def Steady {Hart : Type} {target : Target}
    (events : List (Event Hart target)) : Prop :=
  ∀ event ∈ events, event.disturbs = false

def selections {Hart : Type} {target : Target} (events : List (Event Hart target)) :
    List Nat :=
  events.filterMap Event.selected

/-! The round that is still to come, at each control point. -/

/-- The members are the running process, if there is one, and those that can be
switched on. -/
structure Table (image : Image) (members : Finset Nat)
    (processes : Processes image.target) (current : Option Nat) : Prop where
  bound : ∀ slot ∈ members, slot < image.processesMaximum
  id : ∀ slot ∈ members, (processes slot).id = UInt8.ofNat slot
  running : ∀ slot, current = some slot →
    slot ∈ members ∧ (processes slot).state = .running
  eligible : ∀ slot < image.processesMaximum, current ≠ some slot →
    ((processes slot).Eligible ↔ slot ∈ members)

def SameStates {target : Target} (processes others : Processes target) : Prop :=
  ∀ slot, (others slot).state = (processes slot).state ∧
    (others slot).id = (processes slot).id

section

variable {members : Finset Nat} {processes others : Processes image.target}
  {current : Option Nat} {slot : Nat}

theorem SameStates.update {process : Process image.target}
    (state : process.state = (processes slot).state)
    (id : process.id = (processes slot).id) :
    SameStates processes (Function.update processes slot process) := by
  intro other
  by_cases here : other = slot
  · rw [here, Function.update_self]
    exact ⟨state, id⟩
  · rw [Function.update_of_ne here]
    exact ⟨rfl, rfl⟩

theorem Table.congr (table : Table image members processes current)
    (same : SameStates processes others) :
    Table image members others current where
  bound := table.bound
  id slot member := (same slot).2.trans (table.id slot member)
  running slot here :=
    ⟨(table.running slot here).1, (same slot).1.trans (table.running slot here).2⟩
  eligible := by
    intro slot bound other
    rw [Process.Eligible, (same slot).1]
    exact table.eligible slot bound other

theorem Table.id_toNat (table : Table image members processes current)
    (member : slot ∈ members) : (processes slot).id.toNat = slot := by
  have bound := table.bound slot member
  have few := image.processesMaximum_le
  rw [table.id slot member]
  exact Nat.mod_eq_of_lt (Nat.lt_of_lt_of_le bound few)

theorem Table.stop (table : Table image members processes (some slot)) :
    Table image members (Function.update processes slot
      { processes slot with state := .runnable }) none where
  bound := table.bound
  id := by
    intro other member
    by_cases here : other = slot
    · rw [here, Function.update_self]
      exact table.id slot (table.running slot rfl).1
    · rw [Function.update_of_ne here]
      exact table.id other member
  running := by
    rintro other ⟨⟩
  eligible := by
    intro other bound _
    by_cases here : other = slot
    · rw [here, Function.update_self]
      exact ⟨fun _ => (table.running slot rfl).1, fun _ => .inl rfl⟩
    · rw [Function.update_of_ne here]
      exact table.eligible other bound fun same =>
        here (Option.some.inj same).symm

theorem Table.start (table : Table image members processes none)
    (member : slot ∈ members) :
    Table image members (Function.update processes slot
      { processes slot with state := .running }) (some slot) where
  bound := table.bound
  id := by
    intro other inside
    by_cases here : other = slot
    · rw [here, Function.update_self]
      exact table.id slot member
    · rw [Function.update_of_ne here]
      exact table.id other inside
  running := by
    rintro other ⟨⟩
    exact ⟨member, by rw [Function.update_self]⟩
  eligible := by
    intro other bound different
    have here : other ≠ slot := fun same => different (by rw [same])
    rw [Function.update_of_ne here]
    exact table.eligible other bound (by simp)

end

/-- The hart is in the process of a slot; the round starts after it. -/
def Resides (image : Image) (members : Finset Nat) (here : HartState image.target)
    (processes : Processes image.target) (upcoming : List Nat) : Prop :=
  ∃ slot, here.currentProcess = some slot ∧
    Table image members processes (some slot) ∧
    upcoming = circuit image.processesMaximum members (slot + 1)

structure Searches (image : Image) (members : Finset Nat)
    (processes : Processes image.target) (id : UInt8) (upcoming : List Nat) :
    Prop where
  table : Table image members processes none
  inside : id.toNat < image.processesMaximum
  upcoming : upcoming = circuit image.processesMaximum members id.toNat

/-- The hart has found a process, the first one of the round. -/
structure Finds (image : Image) (members : Finset Nat)
    (processes : Processes image.target) (slot : Nat) (upcoming : List Nat) :
    Prop where
  table : Table image members processes none
  member : slot ∈ members
  head : upcoming.head? = some slot
  next : upcoming.rotate 1 = circuit image.processesMaximum members (slot + 1)

def Going (image : Image) (members : Finset Nat) (here : HartState image.target)
    (processes : Processes image.target) (lock : Option Unit)
    (upcoming : List Nat) : Prop :=
  match here.control with
  | .boot => False
  | .creating _ .find => True
  | .creating _ (.wipe _) => True
  | .creating _ _ => False
  | .destroying _ .release => False
  | .destroying _ _ => True
  | .stopped _ _ => True
  | .switching _ (.clear start) =>
      Searches image members processes start upcoming ∧ lock = none
  | .switching _ (.acquire start) =>
      Searches image members processes start upcoming ∧ lock = none
  | .switching _ (.scan start id _) =>
      Searches image members processes start upcoming ∧
        Searches image members processes id upcoming ∧ lock = some ()
  | .switching _ (.retry start) =>
      Searches image members processes start upcoming ∧ lock = some ()
  | .switching _ (.select slot) =>
      Finds image members processes slot upcoming ∧ lock = some ()
  | .switching _ (.markRunning slot) =>
      Finds image members processes slot upcoming ∧
        here.currentProcess = some slot ∧ lock = some ()
  | .switching _ (.release _) =>
      Resides image members here processes upcoming ∧ lock = some ()
  | _ => Resides image members here processes upcoming ∧ lock = none

/-- The selections of a step, and the round after it. -/
inductive Advances : List Nat → List Nat → List Nat → Prop where
  | stays (upcoming : List Nat) : Advances [] upcoming upcoming
  | selects (slot : Nat) (upcoming : List Nat) : upcoming.head? = some slot →
      Advances [slot] upcoming (upcoming.rotate 1)

def Continues (members : Finset Nat) (processes : Processes image.target)
    (lock : Option Unit) (upcoming : List Nat) (effect : Effect Unit image.target) :
    Prop :=
  ∀ after, effect.processesLock.apply () lock = some after →
    Steady effect.events →
      ∃ next, Going image members effect.hart (effect.processes processes) after
        next ∧ Advances (selections effect.events) upcoming next

section

variable {members : Finset Nat} {here : HartState image.target}
  {processes : Processes image.target} {lock : Option Unit} {upcoming : List Nat}

theorem Resides.congr {next : HartState image.target}
    {others : Processes image.target}
    (resides : Resides image members here processes upcoming)
    (current : next.currentProcess = here.currentProcess)
    (same : SameStates processes others) :
    Resides image members next others upcoming := by
  obtain ⟨slot, here, table, circuit⟩ := resides
  exact ⟨slot, current.trans here, table.congr same, circuit⟩

theorem Resides.current (resides : Resides image members here processes upcoming) :
    ∃ slot, here.currentProcess = some slot := by
  obtain ⟨slot, here, _⟩ := resides
  exact ⟨slot, here⟩

theorem SameStates.refl (processes : Processes image.target) :
    SameStates processes processes := fun _ => ⟨rfl, rfl⟩

theorem Searches.scan {id : UInt8}
    (searches : Searches image members processes id upcoming)
    (skipped : ¬ (processes id.toNat).Eligible) :
    Searches image members processes (pidNext image id) upcoming where
  table := searches.table
  inside := pidNext_lt id
  upcoming := by
    have other : id.toNat % image.processesMaximum ∉ members := by
      rw [Nat.mod_eq_of_lt searches.inside,
        ← searches.table.eligible _ searches.inside (by simp)]
      exact skipped
    rw [searches.upcoming, pidNext_toNat, circuit_mod,
      circuit_of_not_mem image.processesMaximum_pos other]

theorem Searches.finds {id : UInt8}
    (searches : Searches image members processes id upcoming)
    (eligible : (processes id.toNat).Eligible) :
    Finds image members processes id.toNat upcoming := by
  have member : id.toNat ∈ members :=
    (searches.table.eligible _ searches.inside (by simp)).mp eligible
  have residue := Nat.mod_eq_of_lt searches.inside
  have taken : id.toNat % image.processesMaximum ∈ members := by
    rw [residue]
    exact member
  obtain ⟨head, next⟩ := circuit_of_mem image.processesMaximum_pos taken
  rw [← searches.upcoming] at head next
  exact ⟨searches.table, member, residue ▸ head, next.symm⟩

theorem kernelSwitch_continues (masked : here.Masked) {inTrap : Bool}
    {point : SwitchPoint} (control : here.control = .switching inTrap point)
    (going : Going image members here processes lock upcoming) :
    Continues members processes lock upcoming
      (kernelSwitch image () here processes inTrap point) := by
  unfold Going at going
  rw [control] at going
  intro after applied steady
  cases point with
  | enter =>
      obtain ⟨resides, unlocked⟩ := going
      obtain ⟨slot, current⟩ := resides.current
      simp only [kernelSwitch, current] at applied ⊢
      cases applied
      exact ⟨upcoming, And.intro (resides.congr rfl (.update rfl rfl)) unlocked,
        .stays _⟩
  | adjust =>
      obtain ⟨resides, unlocked⟩ := going
      obtain ⟨slot, current⟩ := resides.current
      simp only [kernelSwitch, current] at applied ⊢
      cases applied
      exact ⟨upcoming, And.intro (resides.congr rfl
        (.update (Process.adjust_state _) (Process.adjust_id _))) unlocked, .stays _⟩
  | markRunnable =>
      obtain ⟨⟨slot, current, table, next⟩, unlocked⟩ := going
      simp only [kernelSwitch, current] at applied ⊢
      cases applied
      have id := table.id_toNat (table.running slot rfl).1
      refine ⟨upcoming, And.intro ⟨table.stop, pidNext_lt _, ?_⟩ unlocked, .stays _⟩
      rw [pidNext_toNat, circuit_mod, id, next]
  | clear start =>
      cases applied
      exact ⟨upcoming, going, .stays _⟩
  | acquire start =>
      obtain ⟨searches, unlocked⟩ := going
      subst unlocked
      cases applied
      exact ⟨upcoming, And.intro searches (And.intro searches rfl), .stays _⟩
  | scan start id numChecked =>
      obtain ⟨first, searches, locked⟩ := going
      by_cases more : numChecked < image.processesMaximum
      · by_cases eligible : (processes id.toNat).Eligible
        · rw [scan_selects more eligible] at applied ⊢
          cases applied
          exact ⟨upcoming, And.intro (searches.finds eligible) locked, .stays _⟩
        · rw [scan_skips more eligible] at applied ⊢
          cases applied
          exact ⟨upcoming,
            And.intro first (And.intro (searches.scan eligible) locked),
            .stays _⟩
      · simp only [kernelSwitch, if_neg more] at applied ⊢
        cases applied
        exact ⟨upcoming, And.intro first locked, .stays _⟩
  | retry start =>
      obtain ⟨searches, locked⟩ := going
      cases applied
      simp only [kernelSwitch, Effect.withProcessesLock, Effect.ofHart]
      rw [masked.released_eq (by rw [control]; cases inTrap <;> rfl)]
      exact ⟨upcoming, And.intro searches rfl, .stays _⟩
  | select slot =>
      obtain ⟨finds, locked⟩ := going
      cases applied
      exact ⟨upcoming, And.intro finds (And.intro rfl locked), .stays _⟩
  | markRunning slot =>
      obtain ⟨finds, current, locked⟩ := going
      cases applied
      exact ⟨upcoming.rotate 1, And.intro
        ⟨slot, current, finds.table.start finds.member, finds.next⟩ locked,
        .selects slot upcoming finds.head⟩
  | release firstRun =>
      obtain ⟨resides, locked⟩ := going
      cases applied
      simp only [kernelSwitch, Effect.withProcessesLock, Effect.ofHart]
      rw [masked.released_eq (by rw [control]; cases inTrap <;> rfl)]
      exact ⟨upcoming, And.intro (resides.congr rfl (.refl _)) rfl, .stays _⟩
  | setReturn firstRun =>
      obtain ⟨resides, unlocked⟩ := going
      obtain ⟨slot, current⟩ := resides.current
      simp only [kernelSwitch, current] at applied ⊢
      cases applied
      exact ⟨upcoming, And.intro (resides.congr current.symm
        (.update (Process.return_state _ _) (Process.return_id _ _))) unlocked,
        .stays _⟩
  | setSatp =>
      obtain ⟨resides, unlocked⟩ := going
      obtain ⟨slot, current⟩ := resides.current
      simp only [kernelSwitch, current] at applied ⊢
      cases applied
      exact ⟨upcoming, And.intro (resides.congr rfl (.update rfl rfl)) unlocked,
        .stays _⟩
  | copyFrame =>
      obtain ⟨resides, unlocked⟩ := going
      obtain ⟨slot, current⟩ := resides.current
      simp only [kernelSwitch, current] at applied ⊢
      cases applied
      cases inTrap with
      | true =>
        exact ⟨upcoming,
          And.intro (resides.congr current.symm (.refl _)) unlocked, .stays _⟩
      | false =>
        exact ⟨upcoming,
          And.intro (resides.congr current.symm (.refl _)) unlocked, .stays _⟩

theorem Searches.congr {others : Processes image.target} {id : UInt8}
    (searches : Searches image members processes id upcoming)
    (same : SameStates processes others) :
    Searches image members others id upcoming :=
  ⟨searches.table.congr same, searches.inside, searches.upcoming⟩

theorem Finds.congr {others : Processes image.target} {slot : Nat}
    (finds : Finds image members processes slot upcoming)
    (same : SameStates processes others) :
    Finds image members others slot upcoming :=
  ⟨finds.table.congr same, finds.member, finds.head, finds.next⟩

theorem Going.congr {next : HartState image.target}
    {others : Processes image.target}
    (going : Going image members here processes lock upcoming)
    (control : next.control = here.control)
    (current : next.currentProcess = here.currentProcess)
    (same : SameStates processes others) :
    Going image members next others lock upcoming := by
  unfold Going at going ⊢
  rw [control]
  cases point : here.control with
  | boot =>
      rw [point] at going
      exact going
  | creating arguments create =>
      rw [point] at going
      cases create <;> exact going
  | destroying inTrap destroy =>
      rw [point] at going
      cases destroy <;> exact going
  | stopped inProcesses inTrap => trivial
  | switching inTrap switch =>
      rw [point] at going
      cases switch with
      | clear start => exact ⟨going.1.congr same, going.2⟩
      | acquire start => exact ⟨going.1.congr same, going.2⟩
      | scan start id numChecked =>
          exact ⟨going.1.congr same, going.2.1.congr same, going.2.2⟩
      | retry start => exact ⟨going.1.congr same, going.2⟩
      | select slot => exact ⟨going.1.congr same, going.2⟩
      | markRunning slot =>
          exact ⟨going.1.congr same, current.trans going.2.1, going.2.2⟩
      | _ => exact ⟨going.1.congr current same, going.2⟩
  | _ =>
      rw [point] at going
      exact ⟨going.1.congr current same, going.2⟩

theorem Continues.stays {effect : Effect Unit image.target}
    (keeps : effect.processesLock = .keep)
    (nothing : selections effect.events = [])
    (going : Going image members effect.hart (effect.processes processes) lock
      upcoming) : Continues members processes lock upcoming effect := by
  intro after applied _
  rw [keeps] at applied
  cases applied
  refine ⟨upcoming, going, ?_⟩
  rw [nothing]
  exact .stays upcoming

theorem Printed.continues {process : Option Nat} {character : UInt8}
    {control : Control image.target} {effect : Effect Unit image.target}
    (printed : Printed here processes process character control effect)
    (going : Going image members { here with control := control } processes lock
      upcoming) : Continues members processes lock upcoming effect := by
  cases printed with
  | process slot flushed buffer _ _ =>
      exact .stays rfl rfl (going.congr rfl rfl (.update rfl rfl))
  | hart buffer _ _ => exact .stays rfl rfl (going.congr rfl rfl (.refl _))
  | failed slot stop locking _ _ => exact .stays rfl rfl trivial

theorem destroy_continues {inTrap : Bool} {point : DestroyPoint}
    (control : here.control = .destroying inTrap point)
    (going : Going image members here processes lock upcoming) :
    Continues members processes lock upcoming
      (destroy () here processes inTrap point) := by
  intro after applied steady
  cases point with
  | acquire => exact ⟨upcoming, trivial, .stays _⟩
  | clear =>
      simp only [destroy]
      cases here.currentProcess with
      | none => exact ⟨upcoming, trivial, .stays _⟩
      | some slot => exact ⟨upcoming, trivial, .stays _⟩
  | wipeId slot => exact ⟨upcoming, trivial, .stays _⟩
  | wipeState slot =>
      have stored := steady (.stored () slot .unused) (List.mem_singleton_self _)
      contradiction
  | release =>
      unfold Going at going
      rw [control] at going
      contradiction

theorem create_continues {arguments : ProcessArguments image.target}
    {point : CreatePoint} (control : here.control = .creating arguments point)
    (going : Going image members here processes lock upcoming) :
    Continues members processes lock upcoming
      (create image () here processes arguments point) := by
  unfold Going at going
  rw [control] at going
  intro after applied steady
  cases point with
  | find =>
      simp only [create]
      cases findUnused image processes with
      | none => exact ⟨upcoming, trivial, .stays _⟩
      | some index => exact ⟨upcoming, trivial, .stays _⟩
  | wipe slot =>
      have stored := steady (.stored () slot .unused) (by simp [create])
      contradiction
  | _ => contradiction

theorem handleTrap_continues (masked : here.Masked) {cause : Cause} {claimed : Bool}
    (control : here.control = .handling cause)
    (going : Going image members here processes lock upcoming) :
    Continues members processes lock upcoming
      (handleTrap here processes cause claimed : Effect Unit image.target) := by
  unfold Going at going
  rw [control] at going
  obtain ⟨resides, unlocked⟩ := going
  have depth : here.control.depth = 1 := by rw [control]; rfl
  -- the trap's lock is released before `PANIC`
  have panics : ∀ {next : HartState image.target}, next.control = here.control →
      next.Masked → Continues members processes lock upcoming
        ((Effect.ofHart (next.released (.stopped false false))).withTrapPrintLock
          .release) := by
    intro next same masked
    rw [masked.released_eq (by rw [same]; exact depth)]
    exact .stays rfl rfl trivial
  unfold handleTrap
  split
  · split
    · exact panics rfl masked
    · exact .stays rfl rfl trivial
  · generalize (if cause = .ecallUMode then handleSyscall here.frame
      else (here.frame, .nothing)) = result
    obtain ⟨frame, syscall⟩ := result
    have masked := masked.withFrame frame
    have enters : Going image members
        { here.withFrame frame with control := .switching true .enter } processes
        lock upcoming := And.intro (resides.congr rfl (.refl _)) unlocked
    simp only
    split
    · exact panics rfl masked
    · cases syscall with
      | nothing => exact .stays rfl rfl enters
      | exit => exact .stays rfl rfl trivial
      | putchar character =>
          exact (putcharBuffer_printed masked processes _ character _).continues
            enters

theorem kernelStep_continues (masked : here.Masked) {claimed : Bool}
    {effect : Effect Unit image.target}
    (stepped : kernelStep image () here processes claimed = some effect)
    (going : Going image members here processes lock upcoming) :
    Continues members processes lock upcoming effect := by
  unfold kernelStep at stepped
  cases control : here.control with
  | boot =>
      rw [control] at stepped
      contradiction
  | running =>
      rw [control] at stepped
      contradiction
  | stopped inProcesses inTrap =>
      rw [control] at stepped
      contradiction
  | handling cause =>
      rw [control] at stepped
      cases stepped
      exact handleTrap_continues masked control going
  | destroying inTrap point =>
      rw [control] at stepped
      cases stepped
      exact destroy_continues control going
  | switching inTrap point =>
      rw [control] at stepped
      cases stepped
      exact kernelSwitch_continues masked control going
  | creating arguments point =>
      rw [control] at stepped
      cases stepped
      exact create_continues control going
  | leaving =>
      unfold Going at going
      rw [control] at stepped going
      cases stepped
      rw [masked.released_eq (by rw [control]; rfl)]
      exact .stays rfl rfl (And.intro (going.1.congr rfl (.refl _)) going.2)
  | returning =>
      unfold Going at going
      rw [control] at stepped going
      cases stepped
      refine .stays rfl ?_ (And.intro (going.1.congr rfl (.refl _)) going.2)
      cases here.currentProcess <;> rfl
  | _ =>
      unfold Going at going
      rw [control] at stepped going
      cases stepped
      exact .stays rfl rfl (And.intro (going.1.congr rfl (.refl _)) going.2)

theorem processStep_continues (masked : here.Masked) {choice : Choice image.target}
    {effect : Effect Unit image.target}
    (stepped : ProcessStep image here processes choice effect)
    (going : Going image members here processes lock upcoming) :
    Continues members processes lock upcoming effect := by
  cases stepped with
  | execute registers pc control =>
      unfold Going at going
      rw [control] at going
      exact .stays rfl rfl (And.intro (going.1.congr rfl (.refl _)) going.2)
  | trap cause takes =>
      unfold Going at going
      rw [Control.eq_running (masked.takes_isRunning takes)] at going
      refine .stays rfl ?_ (And.intro (going.1.congr rfl (.refl _)) going.2)
      rw [HartState.trap]
      cases here.currentProcess <;> rfl
  | putchar character kernelMode notStopped =>
      exact (putcharBuffer_printed masked processes none character _).continues going
  | create arguments page idle =>
      intro after applied _
      exact ⟨upcoming, trivial, .stays _⟩
  | exit control kernelMode => exact .stays rfl rfl trivial
  | jump control =>
      unfold Going at going
      rw [control] at going
      contradiction

theorem effect_continues (masked : here.Masked) {choice : Choice image.target}
    {effect : Effect Unit image.target}
    (stepped : Scheduling.effect image () here processes choice = some effect)
    (going : Going image members here processes lock upcoming) :
    Continues members processes lock upcoming effect := by
  cases effect_inv stepped with
  | inl kernel =>
      obtain ⟨claimed, _, stepped⟩ := kernel
      exact kernelStep_continues masked stepped going
  | inr process => exact processStep_continues masked process going

end

/-- A state of a single hart, with the round that is still to come. -/
structure Rotating (image : Image) (members : Finset Nat)
    (state : State Unit image.target) (upcoming : List Nat) : Prop where
  disabled : (state.harts ()).Disabled
  going : Going image members (state.harts ()) state.processes state.processesLock
    upcoming

section

variable {members : Finset Nat} {before after : State Unit image.target}
  {upcoming : List Nat}

theorem Rotating.step (rotating : Rotating image members before upcoming)
    {action : Action Unit image.target} {events : List (Event Unit image.target)}
    (stepped : Scheduling.step image before action = some after)
    (trace : after.trace = before.trace ++ events)
    (steady : Steady events) :
    ∃ next, Rotating image members after next ∧
      Advances (selections events) upcoming next := by
  obtain ⟨effect, made, applied⟩ := Option.bind_eq_some_iff.mp stepped
  obtain ⟨lock, -, harts, processes, emitted⟩ := Effect.apply_eq_some applied
  have here : after.harts () = effect.hart := by
    rw [harts]
    exact Function.update_self ..
  have same : events = effect.events :=
    List.append_cancel_left (trace.symm.trans emitted)
  rw [same] at steady ⊢
  cases rotating.disabled with
  | inl stopped =>
      rw [effect_stopped stopped] at made
      contradiction
  | inr masked =>
      obtain ⟨next, going, advances⟩ :=
        effect_continues masked made rotating.going _ lock steady
      refine ⟨next, ⟨?_, ?_⟩, advances⟩
      · rw [here]
        exact effect_disabled masked made
      · rw [here, processes]
        exact going

theorem run_trace {actions : List (Action Unit image.target)}
    (run : (machine Unit image).Run before actions after) :
    ∃ events, after.trace = before.trace ++ events := by
  induction run with
  | refl => exact ⟨[], (List.append_nil _).symm⟩
  | snoc run stepped induction =>
      obtain ⟨events, trace⟩ := induction
      obtain ⟨effect, _, applied⟩ := Option.bind_eq_some_iff.mp stepped
      obtain ⟨-, -, -, -, emitted⟩ := Effect.apply_eq_some applied
      exact ⟨events ++ effect.events, by rw [emitted, trace, List.append_assoc]⟩

/-- In a run that creates and destroys no process, the selections are the terms
of the round in order, and the round has turned by as many places. -/
theorem Rotating.run (rotating : Rotating image members before upcoming)
    {actions : List (Action Unit image.target)}
    {events : List (Event Unit image.target)}
    (run : (machine Unit image).Run before actions after)
    (trace : after.trace = before.trace ++ events)
    (steady : Steady events) :
    Rotating image members after (upcoming.rotate (selections events).length) ∧
      selections events = terms upcoming (selections events).length := by
  induction run generalizing events with
  | refl =>
      have nothing : events = [] :=
        List.append_cancel_left (trace.symm.trans (List.append_nil _).symm)
      subst nothing
      exact ⟨(List.rotate_zero upcoming).symm ▸ rotating, rfl⟩
  | snoc run stepped induction =>
      obtain ⟨earlier, middleTrace⟩ := run_trace run
      obtain ⟨effect, _, applied⟩ := Option.bind_eq_some_iff.mp stepped
      obtain ⟨-, -, -, -, emitted⟩ := Effect.apply_eq_some applied
      have split : events = earlier ++ effect.events := by
        apply List.append_cancel_left
        rw [← trace, emitted, middleTrace, List.append_assoc]
      subst split
      obtain ⟨first, last⟩ := List.forall_mem_append.mp steady
      obtain ⟨turned, selected⟩ := induction middleTrace first
      obtain ⟨next, rotating, advances⟩ := turned.step stepped emitted last
      have both : selections (earlier ++ effect.events) =
          selections earlier ++ selections effect.events :=
        List.filterMap_append
      rw [both]
      generalize selections effect.events = more at advances
      cases advances with
      | stays =>
          rw [List.append_nil]
          exact ⟨rotating, selected⟩
      | selects slot _ head =>
          rw [List.length_append, List.length_singleton, ← List.rotate_rotate,
            terms_succ, head, ← selected]
          exact ⟨rotating, rfl⟩

end

/-! A call of `kernel_switch` returns. -/

/-- Steps that are left, at most. -/
def SwitchPoint.rank (image : Image) : SwitchPoint → Nat
  | .retry _ => 0
  | .copyFrame => 1
  | .setSatp => 2
  | .setReturn _ => 3
  | .release _ => 4
  | .markRunning _ => 5
  | .select _ => 6
  | .scan _ _ numChecked => 7 + (image.processesMaximum - numChecked)
  | .acquire _ => 8 + image.processesMaximum
  | .clear _ => 9 + image.processesMaximum
  | .markRunnable => 10 + image.processesMaximum
  | .adjust => 11 + image.processesMaximum
  | .enter => 12 + image.processesMaximum

def SwitchPoint.pending : SwitchPoint → Nat
  | .copyFrame => 0
  | .setSatp => 0
  | .setReturn _ => 0
  | .release _ => 0
  | _ => 1

def SwitchPoint.Finding (image : Image) (members : Finset Nat) : SwitchPoint → Prop
  | .scan _ id numChecked => ∃ offset,
      numChecked + offset < image.processesMaximum ∧
        (id.toNat + offset) % image.processesMaximum ∈ members
  | .retry _ => False
  | _ => True

section

variable {members : Finset Nat} {before : State Unit image.target}
  {upcoming : List Nat}

theorem Rotating.kernelSwitch (rotating : Rotating image members before upcoming)
    {inTrap : Bool} {point : SwitchPoint} {effect : Effect Unit image.target}
    {lock : Option Unit}
    (control : (before.harts ()).control = .switching inTrap point)
    (made : Scheduling.kernelSwitch image () (before.harts ()) before.processes inTrap
      point = effect)
    (applied : effect.processesLock.apply () before.processesLock = some lock)
    (keeps : effect.trapPrintLock = .keep) (steady : Steady effect.events) :
    ∃ after next, Scheduling.step image before ⟨(), .kernel false⟩ = some after ∧
      after.trace = before.trace ++ effect.events ∧ after.harts () = effect.hart ∧
      Rotating image members after next := by
  have stepped := step_kernelSwitch control made applied keeps
  obtain ⟨next, turned, _⟩ := rotating.step stepped rfl steady
  have here : Function.update before.harts () effect.hart () = effect.hart :=
    Function.update_self ..
  exact ⟨_, next, stepped, rfl, here, turned⟩

structure Switches (image : Image) (members : Finset Nat)
    (before after : State Unit image.target) (inTrap : Bool) (point : SwitchPoint) :
    Prop where
  stepped : step image before ⟨(), .kernel false⟩ = some after
  rotating : ∃ next, Rotating image members after next
  events : ∃ events, after.trace = before.trace ++ events ∧ Steady events ∧
    ((∃ later, (after.harts ()).control = .switching inTrap later ∧
        later.Finding image members ∧ later.rank image < point.rank image ∧
        (selections events).length + later.pending = point.pending) ∨
      ((after.harts ()).control = afterSwitch inTrap ∧
        (selections events).length = point.pending))

structure Moves (effect : Effect Unit image.target) (lock : Option Unit)
    (control : Control image.target) (chosen : Nat) : Prop where
  control : effect.hart.control = control
  applied : ∃ after, effect.processesLock.apply () lock = some after
  keeps : effect.trapPrintLock = .keep
  steady : Steady effect.events
  chosen : (selections effect.events).length = chosen

theorem Rotating.switches (rotating : Rotating image members before upcoming)
    {inTrap : Bool} {point : SwitchPoint} (later : SwitchPoint) {chosen : Nat}
    (control : (before.harts ()).control = .switching inTrap point)
    (moves : Moves (Scheduling.kernelSwitch image () (before.harts ())
      before.processes inTrap point) before.processesLock (.switching inTrap later)
        chosen)
    (finding : later.Finding image members)
    (rank : later.rank image < point.rank image)
    (pending : chosen + later.pending = point.pending) :
    ∃ after, Switches image members before after inTrap point := by
  obtain ⟨lock, applied⟩ := moves.applied
  obtain ⟨after, next, stepped, trace, here, turned⟩ :=
    rotating.kernelSwitch control rfl applied moves.keeps moves.steady
  refine ⟨after, stepped, ⟨next, turned⟩, _, trace, moves.steady,
    .inl ⟨later, ?_, finding, rank, ?_⟩⟩
  · rw [here]
    exact moves.control
  · rw [moves.chosen]
    exact pending

theorem steady_accessed (slot : Nat) :
    Steady [(.accessed () slot : Event Unit image.target)] :=
  List.forall_mem_singleton.mpr rfl

theorem Rotating.switch_step (rotating : Rotating image members before upcoming)
    (inhabited : members.Nonempty) {inTrap : Bool} {point : SwitchPoint}
    (control : (before.harts ()).control = .switching inTrap point)
    (finding : point.Finding image members) :
    ∃ after, Switches image members before after inTrap point := by
  have going := rotating.going
  unfold Going at going
  rw [control] at going
  have masked : (before.harts ()).Masked := by
    cases rotating.disabled with
    | inl stopped =>
        rw [control] at stopped
        contradiction
    | inr masked => exact masked
  cases point with
  | enter =>
      obtain ⟨slot, current⟩ := going.1.current
      refine rotating.switches .adjust control ?_ trivial
        (Nat.add_lt_add_right (by decide) _) rfl
      simp only [Scheduling.kernelSwitch, current]
      exact ⟨rfl, ⟨_, rfl⟩, rfl, steady_accessed slot, rfl⟩
  | adjust =>
      obtain ⟨slot, current⟩ := going.1.current
      refine rotating.switches .markRunnable control ?_ trivial
        (Nat.add_lt_add_right (by decide) _) rfl
      simp only [Scheduling.kernelSwitch, current]
      exact ⟨rfl, ⟨_, rfl⟩, rfl, steady_accessed slot, rfl⟩
  | markRunnable =>
      obtain ⟨slot, current⟩ := going.1.current
      refine rotating.switches
        (.clear (pidNext image (before.processes slot).id)) control ?_ trivial
        (Nat.add_lt_add_right (by decide) _) rfl
      simp only [Scheduling.kernelSwitch, current]
      exact ⟨rfl, ⟨_, rfl⟩, rfl, by simp [Steady, Event.disturbs], rfl⟩
  | clear start =>
      exact rotating.switches (.acquire start) control
        ⟨rfl, ⟨_, rfl⟩, rfl, List.forall_mem_nil _, rfl⟩ trivial
        (Nat.add_lt_add_right (by decide) _) rfl
  | acquire start =>
      obtain ⟨slot, member⟩ := inhabited
      have bound := going.1.table.bound slot member
      obtain ⟨offset, small, reached⟩ :=
        exists_offset start.toNat bound member
      refine rotating.switches (.scan start start 0) control
        ⟨rfl, ⟨some (), ?_⟩, rfl, List.forall_mem_nil _, rfl⟩
        ⟨offset, by omega, reached⟩ (Nat.add_lt_add_right (by decide) _) rfl
      rw [going.2]
      rfl
  | scan start id numChecked =>
      obtain ⟨_, searches, _⟩ := going
      obtain ⟨offset, small, reached⟩ := finding
      have more : numChecked < image.processesMaximum := by omega
      by_cases eligible : (before.processes id.toNat).Eligible
      · refine rotating.switches (.select id.toNat) control ?_ trivial
          (Nat.lt_add_right _ (show 6 < 7 by decide)) rfl
        rw [scan_selects more eligible]
        exact ⟨rfl, ⟨_, rfl⟩, rfl, List.forall_mem_nil _, rfl⟩
      · have other : id.toNat ∉ members := by
          rw [← searches.table.eligible _ searches.inside (by simp)]
          exact eligible
        -- the member is not here, so it is closer to the next slot
        cases offset with
        | zero =>
            rw [Nat.add_zero, Nat.mod_eq_of_lt searches.inside] at reached
            contradiction
        | succ offset =>
            refine rotating.switches
              (.scan start (pidNext image id) (numChecked + 1)) control ?_
              ⟨offset, by omega, ?_⟩ ?_ rfl
            · rw [scan_skips more eligible]
              exact ⟨rfl, ⟨_, rfl⟩, rfl, List.forall_mem_nil _, rfl⟩
            · rw [pidNext_toNat, Nat.mod_add_mod, Nat.add_assoc, Nat.add_comm 1]
              exact reached
            · simp only [SwitchPoint.rank]
              omega
  | retry start => contradiction
  | select slot =>
      exact rotating.switches (.markRunning slot) control
        ⟨rfl, ⟨_, rfl⟩, rfl, List.forall_mem_nil _, rfl⟩ trivial
        (show 5 < 6 by decide) rfl
  | markRunning slot =>
      exact rotating.switches
        (.release (decide ((before.processes slot).state = .ready))) control
        ⟨rfl, ⟨_, rfl⟩, rfl, List.forall_mem_singleton.mpr rfl, rfl⟩ trivial
        (show 4 < 5 by decide) rfl
  | release firstRun =>
      refine rotating.switches (.setReturn firstRun) control ?_ trivial
        (show 3 < 4 by decide) rfl
      simp only [Scheduling.kernelSwitch, Effect.withProcessesLock, Effect.ofHart]
      rw [masked.released_eq (by rw [control]; cases inTrap <;> rfl)]
      exact ⟨rfl, ⟨_, rfl⟩, rfl, List.forall_mem_nil _, rfl⟩
  | setReturn firstRun =>
      obtain ⟨slot, current⟩ := going.1.current
      refine rotating.switches .setSatp control ?_ trivial (show 2 < 3 by decide) rfl
      simp only [Scheduling.kernelSwitch, current]
      exact ⟨rfl, ⟨_, rfl⟩, rfl, steady_accessed slot, rfl⟩
  | setSatp =>
      obtain ⟨slot, current⟩ := going.1.current
      refine rotating.switches .copyFrame control ?_ trivial
        (show 1 < 2 by decide) rfl
      simp only [Scheduling.kernelSwitch, current]
      exact ⟨rfl, ⟨_, rfl⟩, rfl, steady_accessed slot, rfl⟩
  | copyFrame =>
      obtain ⟨slot, current⟩ := going.1.current
      have moves : Moves (Scheduling.kernelSwitch image () (before.harts ())
          before.processes inTrap .copyFrame) before.processesLock
            (afterSwitch inTrap) 0 := by
        simp only [Scheduling.kernelSwitch, current]
        exact ⟨rfl, ⟨_, rfl⟩, rfl, by simp [Steady, Event.disturbs], rfl⟩
      obtain ⟨lock, applied⟩ := moves.applied
      obtain ⟨after, next, stepped, trace, here, turned⟩ :=
        rotating.kernelSwitch control rfl applied moves.keeps moves.steady
      exact ⟨after, stepped, ⟨next, turned⟩, _, trace, moves.steady,
        .inr ⟨here ▸ moves.control, moves.chosen⟩⟩

def kernelActions (target : Target) (count : Nat) : List (Action Unit target) :=
  List.replicate count ⟨(), .kernel false⟩

theorem Rotating.call (inhabited : members.Nonempty) {inTrap : Bool}
    {point : SwitchPoint} (rotating : Rotating image members before upcoming)
    (control : (before.harts ()).control = .switching inTrap point)
    (finding : point.Finding image members) :
    ∃ count after events,
      Data.Transition.execute (Scheduling.step image) before
        (kernelActions image.target count) = some after ∧
      (after.harts ()).control = afterSwitch inTrap ∧
      after.trace = before.trace ++ events ∧ Steady events ∧
      (selections events).length = point.pending := by
  induction bound : point.rank image using Nat.strongRecOn generalizing before point
    upcoming with
  | ind rank induction =>
      obtain ⟨middle, switches⟩ := rotating.switch_step inhabited control finding
      obtain ⟨next, turned⟩ := switches.rotating
      obtain ⟨events, trace, steady, goes⟩ := switches.events
      cases goes with
      | inl within =>
          obtain ⟨later, laterControl, laterFinding, less, pending⟩ := within
          rw [bound] at less
          obtain ⟨count, after, rest, executed, returned, restTrace, restSteady,
            chosen⟩ := induction _ less turned laterControl laterFinding rfl
          refine ⟨count + 1, after, events ++ rest, ?_, returned, ?_,
            List.forall_mem_append.mpr ⟨steady, restSteady⟩, ?_⟩
          · rw [kernelActions, List.replicate_succ, Data.Transition.execute,
              switches.stepped]
            exact executed
          · rw [restTrace, trace, List.append_assoc]
          · rw [selections, List.filterMap_append, List.length_append]
            exact (congrArg _ chosen).trans pending
      | inr returns =>
          refine ⟨1, middle, events, ?_, returns.1, trace, steady, returns.2⟩
          rw [kernelActions, List.replicate_one, Data.Transition.execute,
            switches.stepped]
          rfl

end

/-- A single hart runs the process of a slot, with traps as the kernel leaves
them, and every process that can be switched on has its slot for an id. -/
structure RunsAlone (image : Image) (state : State Unit image.target) (slot : Nat) :
    Prop where
  control : (state.harts ()).control = .running
  current : (state.harts ()).currentProcess = some slot
  bound : slot < image.processesMaximum
  running : (state.processes slot).state = .running
  id : ∀ other ∈ insert slot (eligibleSlots image state.processes),
    (state.processes other).id = UInt8.ofNat other
  masked : (state.harts ()).Masked
  unlocked : state.processesLock = none

theorem RunsAlone.rotating {state : State Unit image.target} {slot : Nat}
    (alone : RunsAlone image state slot) :
    Rotating image (insert slot (eligibleSlots image state.processes)) state
      (circuit image.processesMaximum
        (insert slot (eligibleSlots image state.processes)) (slot + 1)) where
  disabled := .inr alone.masked
  going := by
    unfold Going
    rw [alone.control]
    refine ⟨⟨slot, alone.current, ⟨?_, alone.id, ?_, ?_⟩, rfl⟩, alone.unlocked⟩
    · intro other member
      rcases Finset.mem_insert.mp member with rfl | eligible
      · exact alone.bound
      · exact (mem_eligibleSlots.mp eligible).1
    · rintro other ⟨⟩
      exact ⟨Finset.mem_insert_self .., alone.running⟩
    · intro other bound different
      have apart : other ≠ slot := fun same => different (by rw [same])
      rw [Finset.mem_insert, mem_eligibleSlots]
      exact ⟨fun eligible => .inr ⟨bound, eligible⟩,
        fun member => (member.resolve_left apart).2⟩

theorem RunsAlone.of_reachable {state : State Unit image.target} {slot : Nat}
    (reachable : (machine Unit image).Reachable state)
    (control : (state.harts ()).control = .running)
    (current : (state.harts ()).currentProcess = some slot) :
    RunsAlone image state slot := by
  have invariant := Invariant.of_reachable reachable
  have disabled := disabled_of_reachable reachable
  have exclusive := slots_owned_exclusively reachable
  have unlocked : state.processesLock = none := by
    cases lock : state.processesLock with
    | none => rfl
    | some hart =>
        have holds := (invariant.processesLock ()).mp lock
        rw [HartState.HoldsProcessesLock, control] at holds
        contradiction
  have running : (state.processes slot).state = .running := by
    rw [exclusive.running_iff]
    refine ⟨(), (invariant.owns () slot).mpr ?_⟩
    rw [HartState.owned, control]
    exact current
  refine ⟨control, current, ?_, running, ?_, ?_, unlocked⟩
  · exact (exclusive.id unlocked slot (by rw [running]; simp)).1
  · intro other member
    refine (exclusive.id unlocked other ?_).2
    rcases Finset.mem_insert.mp member with rfl | eligible
    · rw [running]
      simp
    · rcases (mem_eligibleSlots.mp eligible).2 with runnable | ready
      · rw [runnable]
        simp
      · rw [ready]
        simp
  · cases disabled () with
    | inl stopped =>
        rw [control] at stopped
        contradiction
    | inr masked => exact masked

/-- What a run that creates and destroys no process has chosen, and what the next
call of `kernel_switch` will choose. -/
structure RoundRobin (image : Image) (once : List Nat)
    (finish : State Unit image.target) (events : List (Event Unit image.target)) :
    Prop where
  terms : selections events = terms once (selections events).length
  between : ∀ (first second term : Nat), first < second →
    (selections events)[first]? = some term →
    (selections events)[second]? = some term →
    (∀ index, first < index → index < second →
      (selections events)[index]? ≠ some term) →
    ∀ other ∈ once, other ≠ term → ∃ index, (first < index ∧ index < second) ∧
      (selections events)[index]? = some other ∧
        ∀ index', first < index' ∧ index' < second →
          (selections events)[index']? = some other → index' = index
  call : ∀ inTrap, (finish.harts ()).control = .switching inTrap .enter →
    ∃ count after more slot,
      Data.Transition.execute (step image) finish
        (kernelActions image.target count) = some after ∧
      (after.harts ()).control = afterSwitch inTrap ∧
      after.trace = finish.trace ++ more ∧ selections more = [slot] ∧
      once[(selections events).length % once.length]? = some slot

theorem Rotating.roundRobin {members : Finset Nat}
    {start finish : State Unit image.target} {once : List Nat}
    {actions : List (Action Unit image.target)}
    {events : List (Event Unit image.target)} (distinct : once.Nodup)
    (inhabited : 0 < once.length) (some : members.Nonempty)
    (rotating : Rotating image members start once)
    (run : (machine Unit image).Run start actions finish)
    (trace : finish.trace = start.trace ++ events)
    (steady : Steady events) : RoundRobin image once finish events := by
  obtain ⟨turned, terms⟩ := rotating.run run trace steady
  refine ⟨terms, ?_, ?_⟩
  · intro first second term order atFirst atSecond next other member different
    rw [terms] at atFirst atSecond next ⊢
    exact terms_between inhabited distinct order atFirst atSecond next member
      different
  · intro inTrap control
    obtain ⟨count, after, more, executed, returned, moreTrace, moreSteady,
      chosen⟩ := turned.call some control trivial
    have extended := rotating.run (run.execute _ executed)
      (moreTrace.trans (by rw [trace, List.append_assoc]))
      (List.forall_mem_append.mpr ⟨steady, moreSteady⟩)
    obtain ⟨slot, single⟩ := List.length_eq_one_iff.mp chosen
    have both : selections (events ++ more) = selections events ++ [slot] := by
      rw [← single]
      exact List.filterMap_append
    have last := extended.2
    rw [both, List.length_append, List.length_singleton] at last
    refine ⟨count, after, more, slot, executed, returned, moreTrace, single, ?_⟩
    rw [← getElem?_terms inhabited (Nat.lt_succ_self _), ← last]
    simp

/-- The slots chosen one after the other are the members in increasing order
modulo `PROCESSES_MAXIMUM` after the running one, round after round; and the
search stays inside the table, and finds nothing only when nothing is there. -/
theorem round_robin {start : State Unit image.target} {slot : Nat}
    (alone : RunsAlone image start slot) :
    (∀ actions finish events, (machine Unit image).Run start actions finish →
      finish.trace = start.trace ++ events → Steady events →
        RoundRobin image (circuit image.processesMaximum
          (insert slot (eligibleSlots image start.processes)) (slot + 1)) finish
            events) ∧
      (∀ (processes : Processes image.target) (startId : UInt8),
        startId.toNat < image.processesMaximum →
          processFindNext image processes startId ≠ none ∧
            (processFindNext image processes startId = some none ↔
              ∀ other < image.processesMaximum, ¬ (processes other).Eligible)) := by
  have member : slot ∈ insert slot (eligibleSlots image start.processes) :=
    Finset.mem_insert_self ..
  have inhabited : 0 < (circuit image.processesMaximum
      (insert slot (eligibleSlots image start.processes)) (slot + 1)).length :=
    List.length_pos_of_mem (mem_circuit.mpr ⟨alone.bound, member⟩)
  constructor
  · intro actions finish events run trace steady
    exact alone.rotating.roundRobin nodup_circuit inhabited ⟨slot, member⟩ run trace
      steady
  · intro processes startId inside
    constructor
    · rw [processFindNext_eq processes inside]
      simp
    · exact processFindNext_eq_none_iff processes inside

theorem round_robin_sample : ∃ (start : State Unit smallImage.target) (slot : Nat),
    (∀ actions finish events, (machine Unit smallImage).Run start actions finish →
      finish.trace = start.trace ++ events → Steady events →
        RoundRobin smallImage (circuit smallImage.processesMaximum
          (insert slot (eligibleSlots smallImage start.processes)) (slot + 1)) finish
            events) ∧
      (∀ (processes : Processes smallImage.target) (startId : UInt8),
        startId.toNat < smallImage.processesMaximum →
          processFindNext smallImage processes startId ≠ none ∧
            (processFindNext smallImage processes startId = some none ↔
              ∀ other < smallImage.processesMaximum,
                ¬ (processes other).Eligible)) :=
  ⟨_, 0, round_robin (.of_reachable (Data.Transition.System.Reachable.of_execute
    (createSteps () true ++ createSteps () false ++ jumpSteps ())
      (.start (machine Unit smallImage) (smallBoot_booting Unit)) rfl) rfl rfl)⟩

end Thos.Scheduling
