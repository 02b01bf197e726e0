import Mathlib.Data.Fintype.Card
import Thos.Scheduling.Exclusion

namespace Thos.Scheduling

/-! The search loop of `kernel_switch` under the lock of `handle_trap`. -/

section

variable {target : Target}

/-- The hart is in the search loop and holds `trap_print_lock`. -/
def Control.searches : Control target → Bool
  | .switching inTrap (.acquire _) => inTrap
  | .switching inTrap (.scan _ _ _) => inTrap
  | .switching inTrap (.retry _) => inTrap
  | _ => false

def HartState.participates (here : HartState target) : Bool :=
  match here.control with
  | .boot => false
  | .creating _ _ => here.currentProcess.isSome
  | .stopped _ _ => false
  | _ => true

def HartState.entersSearch (here : HartState target) : Choice target → Bool
  | .kernel _ =>
      match here.control with
      | .switching inTrap .enter => inTrap && here.currentProcess.isNone
      | .switching inTrap (.clear _) => inTrap
      | _ => false
  | _ => false

def HartState.thins (here : HartState target) : Choice target → Bool
  | .kernel _ =>
      match here.control with
      | .destroying _ (.wipeState _) => true
      | _ => false
  | .jump => true
  | _ => false

end

variable {Hart : Type} {image : Image}

/-- A hart searches under `trap_print_lock` while no process is left to be found, and
every hart with a running process waits for that lock. -/
structure Deadlocked {target : Target} (state : State Hart target) : Prop where
  searching : ∃ hart, (state.harts hart).control.searches = true
  nothing : ∀ slot, (state.processes slot).state ≠ .ready ∧
    (state.processes slot).state ≠ .runnable
  waiting : ∀ hart slot, (state.harts hart).currentProcess = some slot →
    (state.processes slot).state = .running →
      ∃ cause, (state.harts hart).control = .trapped cause

section

variable {hart : Hart} {here : HartState image.target}
  {processes : Processes image.target}

/-- No hart joins the others and no process ends. -/
structure Effect.Balances (effect : Effect Hart image.target)
    (here : HartState image.target) (processes : Processes image.target) : Prop where
  participates : effect.hart.participates = true → here.participates = true
  live : ∀ slot written, effect.process = some (slot, written) →
    written.state = .unused → (processes slot).state = .unused

/-- Where a step enters the search loop, ends a process or makes a hart join. -/
inductive Effect.Schedules (effect : Effect Hart image.target)
    (here : HartState image.target) (processes : Processes image.target)
    (choice : Choice image.target) : Prop
  | balances : effect.Balances here processes →
      (effect.hart.control.searches = true → here.control.searches = true) →
      Schedules effect here processes choice
  | enters : here.entersSearch choice = true → effect.Balances here processes →
      Schedules effect here processes choice
  | ends (slot : Nat) : here.thins choice = true →
    effect.hart.control.searches = false →
      (effect.hart.participates = true → here.participates = true) →
      (∀ other written, effect.process = some (other, written) → other = slot) →
      Schedules effect here processes choice
  | joins : here.thins choice = true → effect.hart.control.searches = false →
      effect.process = none → Schedules effect here processes choice

theorem Effect.Balances.quiet {effect : Effect Hart image.target}
    (participates : here.participates = true) (process : effect.process = none) :
    effect.Balances here processes where
  participates _ := participates
  live slot written writes := by
    rw [process] at writes
    contradiction

theorem Effect.Balances.write {effect : Effect Hart image.target} {slot : Nat}
    {process : Process image.target} (participates : here.participates = true)
    (written : effect.process = some (slot, process))
    (live : process.state = .unused → (processes slot).state = .unused) :
    effect.Balances here processes where
  participates _ := participates
  live other write writes := by
    cases written.symm.trans writes
    exact live

theorem HartState.released_searches {next : Control image.target}
    (stays : next.searches = true → here.control.searches = true)
    (searches : (here.released next).control.searches = true) :
    here.control.searches = true := by
  unfold HartState.released at searches
  cases released : here.locking.postLockRelease with
  | ok locking =>
      rw [released] at searches
      exact stays searches
  | error stop =>
      rw [released] at searches
      contradiction

theorem kernelSwitch_schedules {inTrap : Bool} {point : SwitchPoint} (claimed : Bool)
    (control : here.control = .switching inTrap point) :
    (kernelSwitch image hart here processes inTrap point).Schedules here processes
      (.kernel claimed) := by
  have participates : here.participates = true := by
    rw [HartState.participates, control]
  cases point with
  | enter =>
      simp only [kernelSwitch]
      cases current : here.currentProcess with
      | none =>
          cases inTrap with
          | true =>
              refine .enters ?_ (.quiet participates rfl)
              rw [HartState.entersSearch, control, current]
              rfl
          | false => exact .balances (.quiet participates rfl) Bool.false_ne_true.elim
      | some slot =>
        exact .balances (.write participates rfl fun unused => unused)
          Bool.false_ne_true.elim
  | adjust =>
      simp only [kernelSwitch]
      cases here.currentProcess with
      | none => exact .balances (.quiet participates rfl) Bool.false_ne_true.elim
      | some slot =>
          refine .balances (.write participates rfl ?_) Bool.false_ne_true.elim
          rw [Process.adjust_state]
          exact fun unused => unused
  | markRunnable =>
      simp only [kernelSwitch]
      cases here.currentProcess with
      | none => exact .balances (.quiet participates rfl) Bool.false_ne_true.elim
      | some slot =>
        exact .balances (.write participates rfl (by simp)) Bool.false_ne_true.elim
  | clear startSearchId =>
      cases inTrap with
      | true =>
          refine .enters ?_ (.quiet participates rfl)
          rw [HartState.entersSearch, control]
      | false => exact .balances (.quiet participates rfl) Bool.false_ne_true.elim
  | acquire startSearchId =>
      refine .balances (.quiet participates rfl) ?_
      rw [control]
      exact fun searches => searches
  | scan startSearchId id numChecked =>
      simp only [kernelSwitch]
      split
      · split
        · exact .balances (.quiet participates rfl) Bool.false_ne_true.elim
        · refine .balances (.quiet participates rfl) ?_
          rw [control]
          exact fun searches => searches
      · refine .balances (.quiet participates rfl) ?_
        rw [control]
        exact fun searches => searches
  | retry startSearchId =>
      refine .balances (.quiet participates rfl) (HartState.released_searches ?_)
      rw [control]
      exact fun searches => searches
  | select slot => exact .balances (.quiet participates rfl) Bool.false_ne_true.elim
  | markRunning slot =>
    exact .balances (.write participates rfl (by simp)) Bool.false_ne_true.elim
  | release firstRun =>
      exact .balances (.quiet participates rfl)
        (HartState.released_searches Bool.false_ne_true.elim)
  | setReturn firstRun =>
      simp only [kernelSwitch]
      cases here.currentProcess with
      | none => exact .balances (.quiet participates rfl) Bool.false_ne_true.elim
      | some slot =>
          refine .balances (.write participates rfl ?_) Bool.false_ne_true.elim
          rw [Process.return_state]
          exact fun unused => unused
  | setSatp =>
      simp only [kernelSwitch]
      cases here.currentProcess with
      | none => exact .balances (.quiet participates rfl) Bool.false_ne_true.elim
      | some slot =>
        exact .balances (.write participates rfl fun unused => unused)
          Bool.false_ne_true.elim
  | copyFrame =>
      simp only [kernelSwitch]
      cases here.currentProcess with
      | none => exact .balances (.quiet participates rfl) Bool.false_ne_true.elim
      | some slot =>
          refine .balances (.quiet participates rfl) ?_
          cases inTrap <;> exact Bool.false_ne_true.elim

theorem destroy_schedules {inTrap : Bool} {point : DestroyPoint} (claimed : Bool)
    (control : here.control = .destroying inTrap point) :
    (destroy hart here processes inTrap point).Schedules here processes
      (.kernel claimed) := by
  have participates : here.participates = true := by
    rw [HartState.participates, control]
  cases point with
  | acquire => exact .balances (.quiet participates rfl) Bool.false_ne_true.elim
  | clear =>
      simp only [destroy]
      cases here.currentProcess with
      | none => exact .balances (.quiet participates rfl) Bool.false_ne_true.elim
      | some slot => exact .balances (.quiet participates rfl) Bool.false_ne_true.elim
  | wipeId slot =>
    exact .balances (.write participates rfl fun unused => unused)
      Bool.false_ne_true.elim
  | wipeState slot =>
      refine .ends slot ?_ rfl (fun _ => participates) ?_
      · rw [HartState.thins, control]
      · rintro other written ⟨⟩
        rfl
  | release =>
      exact .balances (.quiet participates rfl)
        (HartState.released_searches Bool.false_ne_true.elim)

theorem create_schedules {arguments : ProcessArguments image.target}
    {point : CreatePoint} (choice : Choice image.target)
    (control : here.control = .creating arguments point)
    (unused : ∀ slot, point = .wipe slot → (processes slot).state = .unused) :
    (create image hart here processes arguments point).Schedules here processes
      choice := by
  have participates : here.participates = here.currentProcess.isSome := by
    rw [HartState.participates, control]
  cases point with
  | find =>
      simp only [create]
      cases findUnused image processes with
      | none =>
        exact .balances ⟨Bool.false_ne_true.elim, by simp⟩ Bool.false_ne_true.elim
      | some index =>
        exact .balances ⟨fun same => participates.trans same, by simp⟩
          Bool.false_ne_true.elim
  | wipe slot =>
      refine .balances ⟨fun same => participates.trans same, ?_⟩
        Bool.false_ne_true.elim
      rintro other written ⟨⟩ _
      exact unused slot rfl
  | setId slot =>
      refine .balances ⟨fun same => participates.trans same, ?_⟩
        Bool.false_ne_true.elim
      rintro other written ⟨⟩ same
      exact same
  | fill slot =>
      refine .balances ⟨fun same => participates.trans same, ?_⟩
        Bool.false_ne_true.elim
      rintro other written ⟨⟩ same
      rwa [Process.fill_state] at same
  | markReady slot =>
      refine .balances ⟨fun same => participates.trans same, ?_⟩
        Bool.false_ne_true.elim
      rintro other written ⟨⟩ same
      contradiction
  | release =>
      refine .balances ⟨?_, by intros; contradiction⟩ (HartState.released_searches ?_)
      · intro joins
        rw [participates]
        cases current : here.currentProcess with
        | some slot => rfl
        | none =>
            simp only [create, current] at joins
            unfold HartState.released at joins
            cases released : here.locking.postLockRelease <;>
              rw [released] at joins <;>
              contradiction
      · split <;> exact Bool.false_ne_true.elim

theorem Printed.balances {process : Option Nat} {character : UInt8}
    {next : Control image.target} {effect : Effect Hart image.target}
    {before : HartState image.target}
    (printed : Printed here processes process character next effect)
    (participates : { here with control := next }.participates = true →
      before.participates = true) : effect.Balances before processes := by
  cases printed with
  | process slot flushed buffer _ _ =>
      refine ⟨participates, ?_⟩
      rintro other written ⟨⟩ same
      exact same
  | hart buffer _ _ => exact ⟨participates, by simp⟩
  | failed slot stop locking _ _ => exact ⟨Bool.false_ne_true.elim, by simp⟩

theorem Printed.searches {process : Option Nat} {character : UInt8}
    {next : Control image.target} {effect : Effect Hart image.target}
    (printed : Printed here processes process character next effect)
    (searches : effect.hart.control.searches = true) : next.searches = true := by
  cases printed with
  | process slot flushed buffer _ _ => exact searches
  | hart buffer _ _ => exact searches
  | failed slot stop locking _ _ => contradiction

theorem handleTrap_schedules (masked : here.Masked) {cause : Cause} (claimed : Bool)
    (control : here.control = .handling cause) :
    (handleTrap here processes cause claimed :
      Effect Hart image.target).Schedules here
      processes (.kernel claimed) := by
  have participates : here.participates = true := by
    rw [HartState.participates, control]
  unfold handleTrap
  split
  · split
    · exact .balances (.quiet participates rfl)
        (HartState.released_searches Bool.false_ne_true.elim)
    · exact .balances (.quiet participates rfl) Bool.false_ne_true.elim
  · generalize (if cause = .ecallUMode then handleSyscall here.frame
      else (here.frame, .nothing)) = result
    obtain ⟨frame, syscall⟩ := result
    simp only
    split
    · have stays :
        (Control.stopped false false : Control image.target).searches = true →
          (here.withFrame frame).control.searches = true := Bool.false_ne_true.elim
      exact .balances (.quiet participates rfl) fun searches =>
        @HartState.released_searches image (here.withFrame frame) _ stays searches
    · cases syscall with
      | nothing => exact .balances (.quiet participates rfl) Bool.false_ne_true.elim
      | exit => exact .balances (.quiet participates rfl) Bool.false_ne_true.elim
      | putchar character =>
          have printed : Printed (here.withFrame frame) processes _ character
              (.switching true .enter) (putcharBuffer (here.withFrame frame) processes
                here.currentProcess character (.switching true .enter) :
                  Effect Hart image.target) :=
            putcharBuffer_printed (masked.withFrame frame) processes _ character _
          exact .balances (printed.balances fun _ => participates)
            fun searches => absurd (printed.searches searches) Bool.false_ne_true.elim

theorem kernelStep_schedules (masked : here.Masked) {claimed : Bool}
    {effect : Effect Hart image.target}
    (unused : ∀ arguments slot, here.control = .creating arguments (.wipe slot) →
      (processes slot).state = .unused)
    (stepped : kernelStep image hart here processes claimed = some effect) :
    effect.Schedules here processes (.kernel claimed) := by
  unfold kernelStep at stepped
  cases control : here.control with
  | boot =>
      rw [control] at stepped
      contradiction
  | running =>
      rw [control] at stepped
      contradiction
  | stopped inProcesses inTrap =>
      rw [control] at stepped
      contradiction
  | handling cause =>
      rw [control] at stepped
      cases stepped
      exact handleTrap_schedules masked claimed control
  | destroying inTrap point =>
      rw [control] at stepped
      cases stepped
      exact destroy_schedules claimed control
  | switching inTrap point =>
      rw [control] at stepped
      cases stepped
      exact kernelSwitch_schedules claimed control
  | creating arguments point =>
      rw [control] at stepped
      cases stepped
      apply create_schedules (.kernel claimed) control
      rintro slot rfl
      exact unused arguments slot control
  | leaving =>
      have participates : here.participates = true := by
        rw [HartState.participates, control]
      rw [control] at stepped
      cases stepped
      exact .balances (.quiet participates rfl)
        (HartState.released_searches Bool.false_ne_true.elim)
  | _ =>
      have participates : here.participates = true := by
        rw [HartState.participates, control]
      rw [control] at stepped
      cases stepped
      exact .balances (.quiet participates rfl) Bool.false_ne_true.elim

theorem processStep_schedules (masked : here.Masked) {choice : Choice image.target}
    {effect : Effect Hart image.target}
    (current : here.control = .boot → here.currentProcess = none)
    (stepped : ProcessStep image here processes choice effect) :
    effect.Schedules here processes choice := by
  cases stepped with
  | execute registers pc control =>
      have participates : here.participates = true := by
        rw [HartState.participates, control]
      exact .balances (.quiet participates rfl) Bool.false_ne_true.elim
  | trap cause takes =>
      have participates : here.participates = true := by
        rw [HartState.participates, Control.eq_running (masked.takes_isRunning takes)]
      exact .balances (.quiet participates rfl) Bool.false_ne_true.elim
  | putchar character kernelMode going =>
      have printed : Printed here processes _ character here.control
          (putcharBuffer here processes none character here.control :
            Effect Hart image.target) :=
        putcharBuffer_printed masked processes none character here.control
      exact .balances (printed.balances fun same => same) printed.searches
  | create arguments page idle =>
      refine .balances ⟨fun joins => ?_, by simp⟩ Bool.false_ne_true.elim
      cases idle with
      | inl control =>
          change here.currentProcess.isSome = true at joins
          rw [current control] at joins
          contradiction
      | inr running => rw [HartState.participates, running.1]
  | exit control kernelMode =>
      have participates : here.participates = true := by
        rw [HartState.participates, control]
      exact .balances (.quiet participates rfl) Bool.false_ne_true.elim
  | jump control => exact .joins rfl rfl rfl

theorem effect_schedules {choice : Choice image.target}
    {effect : Effect Hart image.target} (masked : here.Masked)
    (unused : ∀ arguments slot, here.control = .creating arguments (.wipe slot) →
      (processes slot).state = .unused)
    (current : here.control = .boot → here.currentProcess = none)
    (made : Scheduling.effect image hart here processes choice = some effect) :
    effect.Schedules here processes choice := by
  cases effect_inv made with
  | inl kernel =>
      obtain ⟨claimed, same, stepped⟩ := kernel
      rw [same]
      exact kernelStep_schedules masked unused stepped
  | inr process => exact processStep_schedules masked current process

end

section

variable [Fintype Hart]

def State.participants {target : Target} (state : State Hart target) : Finset Hart :=
  {hart | (state.harts hart).participates = true}

def State.live (state : State Hart image.target) : Finset Nat :=
  {slot ∈ Finset.range image.processesMaximum |
    (state.processes slot).state ≠ .unused}

def State.Searching {target : Target} (state : State Hart target) : Prop :=
  ∃ hart, (state.harts hart).control.searches = true

/-- A hart enters the search loop under `trap_print_lock` only while there are at
least as many processes as harts that run or look for one, and while it is in there
a process ends, or a hart begins to look for one, only with one to spare. -/
def Plentiful (image : Image) (state : State Hart image.target)
    (action : Action Hart image.target) : Prop :=
  ((state.harts action.hart).entersSearch action.choice = true →
      state.participants.card ≤ state.live.card) ∧
    ((state.harts action.hart).thins action.choice = true → state.Searching →
      state.participants.card < state.live.card)

/-- While a hart searches, there are enough processes. -/
def Provided (image : Image) (state : State Hart image.target) : Prop :=
  state.Searching → state.participants.card ≤ state.live.card

theorem State.mem_participants {target : Target} {state : State Hart target}
    {hart : Hart} :
    hart ∈ state.participants ↔ (state.harts hart).participates = true := by
  simp [State.participants]

omit [Fintype Hart] in
theorem State.mem_live {state : State Hart image.target} {slot : Nat} :
    slot ∈ state.live ↔ slot < image.processesMaximum ∧
      (state.processes slot).state ≠ .unused := by
  simp [State.live]

omit [Fintype Hart] in
theorem HartState.participates_of_owned {here : HartState image.target} {slot : Nat}
    (owned : here.owned = some slot) (going : here.control.isStopped = false) :
    here.participates = true := by
  obtain ⟨control, currentProcess, _⟩ := here
  cases control with
  | boot => contradiction
  | stopped inProcesses inTrap => contradiction
  | creating arguments point =>
      have current : currentProcess = some slot := owned
      rw [HartState.participates, current]
      rfl
  | _ => rfl

omit [Fintype Hart] in
theorem HartState.owned_of_searches {here : HartState image.target}
    (searches : here.control.searches = true) :
    here.owned = none ∧ here.participates = true := by
  obtain ⟨control, currentProcess, _⟩ := here
  cases control with
  | switching inTrap point =>
      cases point <;> first
        | exact ⟨rfl, rfl⟩
        | contradiction
  | _ => contradiction

omit [Fintype Hart] in
/-- In a deadlock, every process is owned by a hart that participates. -/
theorem Deadlocked.owner {state : State Hart image.target}
    (deadlocked : Deadlocked state) (invariant : Invariant image state) {slot : Nat}
    (used : (state.processes slot).state ≠ .unused) :
    ∃ hart, (state.harts hart).owned = some slot ∧
      (state.harts hart).participates = true := by
  have running : (state.processes slot).state = .running := by
    have nothing := deadlocked.nothing slot
    cases state : (state.processes slot).state with
    | running => rfl
    | unused => exact absurd state used
    | ready => exact absurd state nothing.1
    | runnable => exact absurd state nothing.2
  have somebody : ∃ hart, (state.harts hart).owned = some slot := by
    by_contra nobody
    have free : Waiting image slot (state.cells slot) := by
      apply invariant.safe.free
      intro hart right
      cases right with
      | inl owned => exact nobody ⟨hart, owned⟩
      | inr chosen => exact (invariant.ok hart).chosen_not_running chosen running
    exact free.notRunning running
  obtain ⟨hart, owned⟩ := somebody
  refine ⟨hart, owned, HartState.participates_of_owned owned ?_⟩
  cases control : (state.harts hart).control with
  | stopped inProcesses inTrap =>
      rw [HartState.owned, control] at owned
      obtain ⟨cause, waits⟩ := deadlocked.waiting hart slot owned running
      rw [control] at waits
      contradiction
  | _ => rfl

/-- The searching hart has no process, so the others have too few for as many. -/
theorem Provided.not_deadlocked {state : State Hart image.target}
    (provided : Provided image state) (invariant : Invariant image state) :
    ¬Deadlocked state := by
  classical
  intro deadlocked
  obtain ⟨searcher, searches⟩ := deadlocked.searching
  have enough := provided deadlocked.searching
  obtain ⟨nothing, participates⟩ := HartState.owned_of_searches searches
  have member : searcher ∈ state.participants :=
    State.mem_participants.mpr participates
  have covered : state.live.card ≤ (state.participants.erase searcher).card := by
    apply Finset.card_le_card_of_surjOn fun hart => (state.harts hart).owned.getD 0
    intro slot isLive
    obtain ⟨hart, owned, takesPart⟩ :=
      deadlocked.owner invariant (State.mem_live.mp isLive).2
    have different : hart ≠ searcher := by
      rintro rfl
      rw [nothing] at owned
      contradiction
    refine ⟨hart, ?_, ?_⟩
    · exact Finset.mem_erase.mpr ⟨different, State.mem_participants.mpr takesPart⟩
    · dsimp only
      rw [owned]
      rfl
  have fewer := Finset.card_erase_lt_of_mem member
  omega

section

variable [DecidableEq Hart] {state after : State Hart image.target} {hart : Hart}
  {effect : Effect Hart image.target}

theorem Effect.participants_subset (applied : effect.apply hart state = some after) :
    after.participants ⊆ insert hart state.participants := by
  intro other member
  obtain ⟨-, -, harts, -, -⟩ := apply_eq_some applied
  by_cases same : other = hart
  · exact Finset.mem_insert.mpr (.inl same)
  · rw [State.mem_participants, harts, Function.update_of_ne same] at member
    exact Finset.mem_insert_of_mem (State.mem_participants.mpr member)

theorem Effect.participants_card_le (applied : effect.apply hart state = some after)
    (stays : effect.hart.participates = true →
      (state.harts hart).participates = true) :
    after.participants.card ≤ state.participants.card := by
  apply Finset.card_le_card
  intro other member
  obtain ⟨-, -, harts, -, -⟩ := apply_eq_some applied
  by_cases same : other = hart
  · rw [same, State.mem_participants, harts, Function.update_self] at member
    rw [same]
    exact State.mem_participants.mpr (stays member)
  · rw [State.mem_participants, harts, Function.update_of_ne same] at member
    exact State.mem_participants.mpr member

omit [Fintype Hart] in
theorem Effect.live_card_le (applied : effect.apply hart state = some after)
    (live : ∀ slot written, effect.process = some (slot, written) →
      written.state = .unused → (state.processes slot).state = .unused) :
    state.live.card ≤ after.live.card := by
  apply Finset.card_le_card
  intro slot member
  obtain ⟨-, -, -, processes, -⟩ := apply_eq_some applied
  obtain ⟨bound, used⟩ := State.mem_live.mp member
  refine State.mem_live.mpr ⟨bound, ?_⟩
  rw [processes]
  intro unused
  by_cases changed : effect.processes state.processes slot = state.processes slot
  · rw [changed] at unused
    exact used unused
  · exact used (live slot _ (Effect.written_of_changed changed) unused)

omit [Fintype Hart] in
theorem Effect.live_card_le_add_one (applied : effect.apply hart state = some after)
    {slot : Nat} (process : ∀ other written, effect.process = some (other, written) →
      other = slot) : state.live.card ≤ after.live.card + 1 := by
  have covered : state.live ⊆ insert slot after.live := by
    intro other member
    obtain ⟨-, -, -, processes, -⟩ := apply_eq_some applied
    by_cases same : other = slot
    · exact Finset.mem_insert.mpr (.inl same)
    · have kept : effect.processes state.processes other = state.processes other := by
        by_contra changed
        exact same (process other _ (Effect.written_of_changed changed))
      apply Finset.mem_insert_of_mem
      rw [State.mem_live] at member ⊢
      rw [processes, kept]
      exact member
  exact (Finset.card_le_card covered).trans (Finset.card_insert_le ..)

omit [Fintype Hart] in
theorem Effect.searching_before (applied : effect.apply hart state = some after)
    (stays : effect.hart.control.searches = true →
      (state.harts hart).control.searches = true)
    (searching : after.Searching) : state.Searching := by
  obtain ⟨-, -, harts, -, -⟩ := apply_eq_some applied
  obtain ⟨other, searches⟩ := searching
  rw [harts] at searches
  by_cases same : other = hart
  · rw [same, Function.update_self] at searches
    exact ⟨hart, stays searches⟩
  · rw [Function.update_of_ne same] at searches
    exact ⟨other, searches⟩

theorem Provided.apply {choice : Choice image.target}
    (provided : Provided image state)
    (plentiful : Plentiful image state ⟨hart, choice⟩)
    (schedules : effect.Schedules (state.harts hart) state.processes choice)
    (applied : effect.apply hart state = some after) : Provided image after := by
  intro searching
  cases schedules with
  | balances balances stays =>
      calc after.participants.card
          ≤ state.participants.card :=
            Effect.participants_card_le applied balances.participates
        _ ≤ state.live.card :=
          provided (Effect.searching_before applied stays searching)
        _ ≤ after.live.card := Effect.live_card_le applied balances.live
  | enters enters balances =>
      calc after.participants.card
          ≤ state.participants.card :=
            Effect.participants_card_le applied balances.participates
        _ ≤ state.live.card := plentiful.1 enters
        _ ≤ after.live.card := Effect.live_card_le applied balances.live
  | ends slot thins notSearching stays process =>
      have before : state.Searching := by
        apply Effect.searching_before applied _ searching
        rw [notSearching]
        exact Bool.false_ne_true.elim
      have fewer := Effect.participants_card_le applied stays
      have spare : state.participants.card < state.live.card :=
        plentiful.2 thins before
      have ended := Effect.live_card_le_add_one applied process
      omega
  | joins thins notSearching process =>
      have before : state.Searching := by
        apply Effect.searching_before applied _ searching
        rw [notSearching]
        exact Bool.false_ne_true.elim
      have more := (Finset.card_le_card (Effect.participants_subset applied)).trans
        (Finset.card_insert_le hart state.participants)
      have spare : state.participants.card < state.live.card :=
        plentiful.2 thins before
      have kept := Effect.live_card_le applied (by
        rw [process]
        simp)
      omega

theorem Provided.step (provided : Provided image state)
    {action : Action Hart image.target}
    (invariant : Invariant image state)
    (disabled : (state.harts action.hart).Disabled)
    (plentiful : Plentiful image state action)
    (stepped : Scheduling.step image state action = some after) :
      Provided image after := by
  obtain ⟨effect, made, applied⟩ := Option.bind_eq_some_iff.mp stepped
  refine provided.apply plentiful ?_ applied
  cases disabled with
  | inl stopped =>
      rw [effect_stopped stopped] at made
      contradiction
  | inr masked =>
      have ok := invariant.ok action.hart
      unfold HartState.Ok at ok
      refine effect_schedules masked ?_ ?_ made
      · intro arguments slot control
        rw [control] at ok
        exact ok.2.2.2
      · intro control
        rw [control] at ok
        exact ok

/-- For any number of harts and of processes, while there are enough processes for
the harts that look for one under `trap_print_lock`. -/
theorem never_deadlocked
    (reachable : ((machine Hart image).restrict (Plentiful image)).Reachable state) :
    ¬Deadlocked state := by
  have provided : Provided image state := by
    refine (reachable.invariant (fun state => (machine Hart image).Reachable state ∧
      Provided image state) ?_ ?_).2
    · intro start starts
      refine ⟨.start _ starts, ?_⟩
      rintro ⟨hart, searches⟩
      rw [(starts.harts hart).control] at searches
      contradiction
    · intro before action after holds stepped
      obtain ⟨reachable, provided⟩ := holds
      exact ⟨reachable.step stepped.2,
        provided.step (Invariant.of_reachable reachable)
        (disabled_of_reachable reachable action.hart) stepped.1 stepped.2⟩
  exact provided.not_deadlocked (Invariant.of_reachable reachable.of_restrict)

end

end

instance {Hart : Type} [Fintype Hart] {target : Target} (state : State Hart target) :
    Decidable state.Searching :=
  inferInstanceAs (Decidable (∃ hart, (state.harts hart).control.searches = true))

instance {Hart : Type} [Fintype Hart] {image : Image}
    (state : State Hart image.target)
    (action : Action Hart image.target) : Decidable (Plentiful image state action) :=
  inferInstanceAs (Decidable ((_ → _) ∧ (_ → _ → _)))

theorem never_deadlocked_sample :
    ∃ state : State Bool smallImage.target,
      (state.harts true).control = .switching true (.acquire 1) ∧
      (state.harts false).control = .running ∧ ¬Deadlocked state := by
  refine ⟨_, ?_, ?_, never_deadlocked (Data.Transition.System.Reachable.of_execute_guarded
    (createSteps true true ++ createSteps true true ++ jumpSteps true ++
      (⟨false, .jump⟩ :: kernelSteps false 12) ++
        ⟨true, .trap .supervisorTimer⟩ :: kernelSteps true 6)
    (.start _ (smallBoot_booting Bool)) rfl)⟩
  · rfl
  · rfl

/-- Two harts run a user process each; the first process exits, and its hart begins to
search, while the second one is interrupted. -/
def exitedAndInterrupted : List (Action Bool smallImage.target) :=
  createSteps true true ++ createSteps true true ++ jumpSteps true ++
    (⟨false, .jump⟩ :: kernelSteps false 12) ++
      (⟨true, .execute (fun _ => SyscallNumber.exit.value _) 0x1000000⟩ ::
        ⟨true, .trap .ecallUMode⟩ :: kernelSteps true 8) ++
          [⟨false, .trap .supervisorTimer⟩]

theorem exited_and_interrupted_deadlock :
    ∃ state : State Bool smallImage.target,
      (machine Bool smallImage).Reachable state ∧ Deadlocked state := by
  have run : ∃ state : State Bool smallImage.target,
      Data.Transition.execute (step smallImage) (smallBoot Bool)
        exitedAndInterrupted =
          some state ∧
        (state.harts true).control.searches = true ∧
        (state.harts true).currentProcess = none ∧
        (state.harts false).control = .trapped .supervisorTimer ∧
        (state.processes 0).state = .unused ∧ (state.processes 1).state = .running ∧
        state.processesLock = none :=
    ⟨_, rfl, rfl, rfl, rfl, rfl, rfl, rfl⟩
  obtain ⟨state, executed, searches, none, trapped, first, second, unlocked⟩ := run
  have reachable : (machine Bool smallImage).Reachable state :=
    .of_execute _ (.start _ (smallBoot_booting Bool)) executed
  refine ⟨state, reachable, ⟨true, searches⟩, ?_, ?_⟩
  · intro slot
    have bound := (slots_owned_exclusively reachable).id unlocked slot
    match slot with
    | 0 =>
        rw [first]
        exact ⟨by simp, by simp⟩
    | 1 =>
        rw [second]
        exact ⟨by simp, by simp⟩
    | slot + 2 =>
        by_cases used : (state.processes (slot + 2)).state = .unused
        · rw [used]
          exact ⟨by simp, by simp⟩
        · exact absurd (bound used).1 (Nat.not_lt_of_le (Nat.le_add_left 2 slot))
  · intro hart slot current _
    cases hart with
    | true =>
        rw [none] at current
        contradiction
    | false => exact ⟨_, trapped⟩

end Thos.Scheduling
