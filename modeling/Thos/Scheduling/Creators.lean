import Mathlib.Data.Fintype.Basic
import Thos.Scheduling.Exclusion

namespace Thos.Scheduling

open Data.Ownership

/-! Boot code that goes on to write to the frame of a process that
`Process_create` has returned. -/

inductive CreatorStep (target : Target) where
  | setA0 (value : Word target)
  | lowerSp (size : Word target)
  | loadStackData
  /-- A store to the data below the initial `sp`; no frame holds it. -/
  | storeStackData
  | setA0StackData

def CreatorStep.run {target : Target} (step : CreatorStep target)
    (frame : TrapFrame target) (stackData : Word target) :
    TrapFrame target × Word target :=
  match step with
  | .setA0 value => (frame.set .a0 value, stackData)
  | .lowerSp size => (frame.set .sp (frame.registers .sp - size), stackData)
  | .loadStackData => (frame, frame.registers .sp)
  | .storeStackData => (frame, stackData)
  | .setA0StackData => (frame.set .a0 stackData, stackData)

theorem CreatorStep.run_ra {target : Target} (step : CreatorStep target)
    (frame : TrapFrame target) (stackData : Word target) :
    (step.run frame stackData).1.registers .ra = frame.registers .ra := by
  cases step <;> rfl

/-- The frame that the steps give when nothing else changes it. -/
def CreatorStep.finish {target : Target} :
    List (CreatorStep target) → TrapFrame target → Word target → TrapFrame target
  | [], frame, _ => frame
  | step :: rest, frame, stackData =>
      finish rest (step.run frame stackData).1 (step.run frame stackData).2

structure Creator (target : Target) where
  /-- What `Process_create` returns, from its store of `PROCESS_READY` on. -/
  process : Option Nat
  steps : List (CreatorStep target)
  stackData : Word target

structure CreatorsState (Hart : Type) (target : Target) where
  machine : State Hart target
  creators : Hart → Creator target
  /-- What the creators' steps give the processes; no step reads it. -/
  assigned : Nat → Registers target

inductive CreatorsAction (Hart : Type) (target : Target) where
  | machine (action : Action Hart target)
  | create (hart : Hart) (arguments : ProcessArguments target)
      (steps : List (CreatorStep target))
  | write (hart : Hart)

section

variable {Hart : Type} {image : Image}

/-- A creator's write; the trace takes it for part of the creation, until the
process has run. -/
def State.rewrite (state : State Hart image.target) (slot : Nat)
    (frame : TrapFrame image.target) : State Hart image.target :=
  { state with
    processes := Function.update state.processes slot
      { state.processes slot with frame := frame }
    trace := state.trace ++
      match state.history.context slot with
      | some (.created arguments _) => [.created slot arguments frame]
      | _ => [] }

variable [DecidableEq Hart]

def CreatorsState.after (state : CreatorsState Hart image.target) (hart : Hart)
    (machine : State Hart image.target) : CreatorsState Hart image.target :=
  match (state.machine.harts hart).control with
  | .creating _ (.markReady slot) =>
      { machine := machine
        creators := Function.update state.creators hart
          { state.creators hart with process := some slot }
        assigned := Function.update state.assigned slot
          (CreatorStep.finish (state.creators hart).steps
            (state.machine.processes slot).frame
            (state.creators hart).stackData).registers }
  | _ => { state with machine := machine }

def creatorsStep (image : Image) (state : CreatorsState Hart image.target) :
    CreatorsAction Hart image.target → Option (CreatorsState Hart image.target)
  | .machine action =>
      match action.choice with
      | .create _ => none
      | .kernel _ => (step image state.machine action).map (state.after action.hart)
      | .jump =>
          if (state.creators action.hart).steps.isEmpty then
            (step image state.machine action).map ({ state with machine := · })
          else none
      | _ => (step image state.machine action).map ({ state with machine := · })
  | .create hart arguments steps =>
      -- Only boot code writes to what it creates.
      if (state.creators hart).steps.isEmpty &&
          (steps.isEmpty || !(state.machine.harts hart).control.isRunning) then
        (step image state.machine ⟨hart, .create arguments⟩).map fun machine =>
          { state with
            machine := machine
            creators := Function.update state.creators hart
              ⟨none, steps, 0⟩ }
      else none
  | .write hart =>
      match (state.machine.harts hart).control, (state.creators hart).process,
        (state.creators hart).steps with
      | .boot, some slot, step :: rest =>
          let (frame, stackData) := step.run (state.machine.processes slot).frame
            (state.creators hart).stackData
          some { state with
            machine := state.machine.rewrite slot frame
            creators := Function.update state.creators hart
              { state.creators hart with steps := rest, stackData := stackData } }
      | _, _, _ => none

end

/-- What a hart is in the middle of: switching on a process, or creating one. -/
inductive Engagement where
  | selected (slot : Nat)
  | creating

def Control.engagement {target : Target} : Control target → Option Engagement
  | .switching _ (.select slot) => some (.selected slot)
  | .switching _ (.markRunning slot) => some (.selected slot)
  | .creating _ .release => none
  | .creating _ _ => some .creating
  | _ => none

def Control.searched {target : Target} (processesMaximum : Nat) :
    Control target → Option Nat
  | .switching _ (.scan _ id numChecked) =>
      if numChecked < processesMaximum then some id.toNat else none
  | _ => none

def Event.isCreated {Hart : Type} {target : Target} : Event Hart target → Bool
  | .created _ _ _ => true
  | _ => false

section

variable {Hart : Type} {image : Image} {hart : Hart} {here : HartState image.target}
  {processes : Processes image.target}

theorem CreatorsState.after_of_ne [DecidableEq Hart]
    {state : CreatorsState Hart image.target} {machine : State Hart image.target}
    (notReady : ∀ arguments slot, (state.machine.harts hart).control ≠
      .creating arguments (.markReady slot)) :
    state.after hart machine = { state with machine := machine } := by
  unfold CreatorsState.after
  split
  · rename_i control
    exact absurd control (notReady _ _)
  · rfl

structure Effect.Steady (effect : Effect Hart image.target)
    (control : Control image.target) : Prop where
  keeps : ∀ engagement, effect.hart.control.engagement = some engagement →
    control.engagement = some engagement
  quiet : ∀ event ∈ effect.events, event.isCreated = false

inductive Effect.Engages (effect : Effect Hart image.target)
    (control : Control image.target) (processes : Processes image.target) : Prop
  | steady : effect.Steady control → Engages effect control processes
  | search (slot : Nat) : control.searched image.processesMaximum = some slot →
      effect.hart.control.engagement = some (.selected slot) → effect.events = [] →
      Engages effect control processes
  | create (hart : Hart) (arguments : ProcessArguments image.target) (slot : Nat) :
      control = .creating arguments (.markReady slot) →
      effect.hart.control.engagement = none →
      effect.events = [.stored hart slot .ready,
        .created slot arguments (processes slot).frame] →
      Engages effect control processes

theorem Effect.Steady.of_none {effect : Effect Hart image.target}
    {control : Control image.target} (free : effect.hart.control.engagement = none)
    (quiet : ∀ event ∈ effect.events, event.isCreated = false) :
    effect.Steady control where
  keeps engagement same := by
    rw [free] at same
    contradiction
  quiet := quiet

theorem Effect.Engages.of_none {effect : Effect Hart image.target}
    {control : Control image.target} (free : effect.hart.control.engagement = none)
    (quiet : ∀ event ∈ effect.events, event.isCreated = false) :
    effect.Engages control processes :=
  .steady (.of_none free quiet)

theorem HartState.released_engagement {next : Control image.target}
    (free : next.engagement = none) :
    (here.released next).control.engagement = none := by
  unfold HartState.released
  cases here.locking.postLockRelease with
  | ok locking => exact free
  | error stop => rfl

theorem kernelSwitch_engages (inTrap : Bool) (point : SwitchPoint) :
    (kernelSwitch image hart here processes inTrap point).Engages
      (.switching inTrap point) processes := by
  cases point with
  | enter =>
      simp only [kernelSwitch]
      cases here.currentProcess with
      | none => exact .of_none rfl (List.forall_mem_nil _)
      | some slot => exact .of_none rfl (by simp [Event.isCreated])
  | adjust =>
      simp only [kernelSwitch]
      cases here.currentProcess with
      | none => exact .of_none rfl (List.forall_mem_nil _)
      | some slot => exact .of_none rfl (by simp [Event.isCreated])
  | markRunnable =>
      simp only [kernelSwitch]
      cases here.currentProcess with
      | none => exact .of_none rfl (List.forall_mem_nil _)
      | some slot => exact .of_none rfl (by simp [Event.isCreated])
  | scan startSearchId id numChecked =>
      simp only [kernelSwitch]
      split
      · rename_i within
        split
        · exact .search id.toNat (if_pos within) rfl rfl
        · exact .of_none rfl (List.forall_mem_nil _)
      · exact .of_none rfl (List.forall_mem_nil _)
  | retry startSearchId =>
    exact .of_none (HartState.released_engagement rfl) (List.forall_mem_nil _)
  | select slot =>
      exact .steady ⟨fun _ same => same, List.forall_mem_nil _⟩
  | markRunning slot => exact .of_none rfl (by simp [kernelSwitch, Event.isCreated])
  | release firstRun =>
    exact .of_none (HartState.released_engagement rfl) (List.forall_mem_nil _)
  | setReturn firstRun =>
      simp only [kernelSwitch]
      cases here.currentProcess with
      | none => exact .of_none rfl (List.forall_mem_nil _)
      | some slot => exact .of_none rfl (by simp [Event.isCreated])
  | setSatp =>
      simp only [kernelSwitch]
      cases here.currentProcess with
      | none => exact .of_none rfl (List.forall_mem_nil _)
      | some slot => exact .of_none rfl (by simp [Event.isCreated])
  | copyFrame =>
      simp only [kernelSwitch]
      cases here.currentProcess with
      | none => exact .of_none rfl (List.forall_mem_nil _)
      | some slot =>
          refine .of_none ?_ (by simp [Event.isCreated])
          cases inTrap <;> rfl
  | _ => exact .of_none rfl (List.forall_mem_nil _)

theorem destroy_engages (inTrap : Bool) (point : DestroyPoint) :
    (destroy hart here processes inTrap point).Engages (.destroying inTrap point)
      processes := by
  cases point with
  | clear =>
      simp only [destroy]
      cases here.currentProcess with
      | none => exact .of_none rfl (List.forall_mem_nil _)
      | some slot => exact .of_none rfl (List.forall_mem_nil _)
  | wipeState slot => exact .of_none rfl (by simp [destroy, Event.isCreated])
  | release =>
    exact .of_none (HartState.released_engagement rfl) (List.forall_mem_nil _)
  | _ => exact .of_none rfl (List.forall_mem_nil _)

theorem create_engages (arguments : ProcessArguments image.target)
    (point : CreatePoint) :
    (create image hart here processes arguments point).Engages
      (.creating arguments point) processes := by
  cases point with
  | find =>
      simp only [create]
      cases findUnused image processes with
      | none => exact .of_none rfl (List.forall_mem_nil _)
      | some index => exact .steady ⟨fun _ same => same, List.forall_mem_nil _⟩
  | wipe slot => exact .steady ⟨fun _ same => same, by simp [create, Event.isCreated]⟩
  | setId slot => exact .steady ⟨fun _ same => same, List.forall_mem_nil _⟩
  | fill slot => exact .steady ⟨fun _ same => same, by simp [create, Event.isCreated]⟩
  | markReady slot => exact .create hart arguments slot rfl rfl rfl
  | release =>
      refine .of_none (HartState.released_engagement ?_) (List.forall_mem_nil _)
      split <;> rfl

theorem Printed.steady {process : Option Nat} {character : UInt8}
    {next control : Control image.target} {effect : Effect Hart image.target}
    (printed : Printed here processes process character next effect)
    (selected : ∀ engagement, next.engagement = some engagement →
      control.engagement = some engagement) :
    effect.Steady control := by
  cases printed with
  | process slot flushed buffer _ _ => exact ⟨selected, by simp [Event.isCreated]⟩
  | hart buffer _ _ => exact ⟨selected, List.forall_mem_nil _⟩
  | failed slot stop locking _ _ => exact .of_none rfl (List.forall_mem_nil _)

theorem handleTrap_engages (masked : here.Masked) (cause : Cause) (claimed : Bool) :
    (handleTrap here processes cause claimed : Effect Hart image.target).Engages
      (.handling cause) processes := by
  unfold handleTrap
  split
  · split
    · exact .of_none (HartState.released_engagement rfl) (List.forall_mem_nil _)
    · exact .of_none rfl (List.forall_mem_nil _)
  · generalize (if cause = .ecallUMode then handleSyscall here.frame
      else (here.frame, .nothing)) = result
    obtain ⟨frame, syscall⟩ := result
    simp only
    split
    · exact .of_none (HartState.released_engagement rfl) (List.forall_mem_nil _)
    · cases syscall with
      | nothing => exact .of_none rfl (List.forall_mem_nil _)
      | exit => exact .of_none rfl (List.forall_mem_nil _)
      | putchar character =>
          exact .steady ((putcharBuffer_printed (masked.withFrame frame) processes
            here.currentProcess character (.switching true .enter)).steady
              (by intros; contradiction))

theorem kernelStep_engages (masked : here.Masked) {claimed : Bool}
    {effect : Effect Hart image.target}
    (stepped : kernelStep image hart here processes claimed = some effect) :
    effect.Engages here.control processes := by
  unfold kernelStep at stepped
  cases control : here.control with
  | boot =>
      rw [control] at stepped
      contradiction
  | running =>
      rw [control] at stepped
      contradiction
  | stopped inProcesses inTrap =>
      rw [control] at stepped
      contradiction
  | trapped cause =>
      rw [control] at stepped
      cases stepped
      exact .of_none rfl (List.forall_mem_nil _)
  | handling cause =>
      rw [control] at stepped
      cases stepped
      exact handleTrap_engages masked cause claimed
  | destroying inTrap point =>
      rw [control] at stepped
      cases stepped
      exact destroy_engages inTrap point
  | switching inTrap point =>
      rw [control] at stepped
      cases stepped
      exact kernelSwitch_engages inTrap point
  | leaving =>
      rw [control] at stepped
      cases stepped
      exact .of_none (HartState.released_engagement rfl) (List.forall_mem_nil _)
  | restoring =>
      rw [control] at stepped
      cases stepped
      exact .of_none rfl (List.forall_mem_nil _)
  | returning =>
      rw [control] at stepped
      cases stepped
      exact .of_none rfl (by simp [Event.isCreated])
  | creating arguments point =>
      rw [control] at stepped
      cases stepped
      exact create_engages arguments point

theorem processStep_steady (masked : here.Masked) {choice : Choice image.target}
    {effect : Effect Hart image.target}
    (notCreate : ∀ arguments, choice ≠ .create arguments)
    (stepped : ProcessStep image here processes choice effect) :
    effect.Steady here.control := by
  cases stepped with
  | execute registers pc control => exact .of_none rfl (List.forall_mem_nil _)
  | trap cause takes => exact .of_none rfl (by simp [HartState.trap, Event.isCreated])
  | putchar character kernelMode going =>
      exact (putcharBuffer_printed masked processes none character _).steady
        fun _ same => same
  | create arguments page idle => exact absurd rfl (notCreate arguments)
  | exit control kernelMode => exact .of_none rfl (List.forall_mem_nil _)
  | jump control => exact .of_none rfl (List.forall_mem_nil _)

end

section

variable {Hart : Type} {image : Image} [DecidableEq Hart]

/-- The creator of the process in a slot has writes left. -/
def CreatorsState.Pending {target : Target} (state : CreatorsState Hart target)
    (creator : Hart) (slot : Nat) : Prop :=
  (state.creators creator).process = some slot ∧ (state.creators creator).steps ≠ []

def CreatorsAction.kernel {target : Target} : CreatorsAction Hart target → Option Hart
  | .machine ⟨hart, .kernel _⟩ => some hart
  | _ => none

/-- The search of `kernel_switch` comes on no process whose creator has writes
left. -/
def Undisturbed (image : Image) (state : CreatorsState Hart image.target)
    (action : CreatorsAction Hart image.target) : Prop :=
  ∀ hart ∈ action.kernel,
    ∀ slot ∈ (state.machine.harts hart).control.searched image.processesMaximum,
      ∀ creator, ¬state.Pending creator slot

structure CreatorsBooting (image : Image) (state : CreatorsState Hart image.target) :
    Prop where
  machine : Booting image state.machine
  creators : ∀ hart, (state.creators hart).process = none ∧
    (state.creators hart).steps = []

def creatorsMachine (Hart : Type) [DecidableEq Hart] (image : Image) :
    Data.Transition.System (CreatorsState Hart image.target)
      (CreatorsAction Hart image.target) :=
  .ofFunction (CreatorsBooting image) (creatorsStep image)

/-- Every process starts with the registers its creator gave it, and nobody has
switched on a process that its creator still writes to. -/
structure StartsAsCreated (state : CreatorsState Hart image.target) : Prop where
  entered : ∀ hart slot arguments frame,
    (state.machine.harts hart).control = .returning →
      (state.machine.harts hart).currentProcess = some slot →
        state.machine.history.context slot = some (.created arguments frame) →
          (state.machine.harts hart).registers .a0 = state.assigned slot .a0 ∧
            (state.machine.harts hart).registers .sp = state.assigned slot .sp
  unswitched : ∀ creator slot, state.Pending creator slot →
    (state.machine.processes slot).state = .ready

structure CreatorsInvariant (image : Image)
    (state : CreatorsState Hart image.target) :
    Prop where
  machine : Invariant image state.machine
  disabled : ∀ hart, (state.machine.harts hart).Disabled
  ready : ∀ creator slot, state.Pending creator slot →
    (state.machine.processes slot).state = .ready
  nobody : ∀ creator slot, state.Pending creator slot →
    ∀ hart, ¬(state.machine.harts hart).Right slot
  apart : ∀ first second slot, state.Pending first slot → state.Pending second slot →
    first = second
  pending : ∀ creator slot, state.Pending creator slot →
    (∃ arguments, state.machine.history.context slot =
        some (.created arguments (state.machine.processes slot).frame)) ∧
      (CreatorStep.finish (state.creators creator).steps
        (state.machine.processes slot).frame
        (state.creators creator).stackData).registers = state.assigned slot
  finished : ∀ slot arguments frame,
    state.machine.history.context slot = some (.created arguments frame) →
      (∀ creator, ¬state.Pending creator slot) → frame.registers = state.assigned slot
  creating : ∀ hart, (state.machine.harts hart).control.engagement = some .creating →
    (state.creators hart).process = none

omit [DecidableEq Hart] in
theorem History.foldl_created {history : History Hart image.target}
    {events : List (Event Hart image.target)}
    (quiet : ∀ event ∈ events, event.isCreated = false) {slot : Nat}
    {arguments : ProcessArguments image.target} {frame : TrapFrame image.target}
    (context : (events.foldl record history).context slot =
      some (.created arguments frame)) :
    history.context slot = some (.created arguments frame) := by
  induction events generalizing history with
  | nil => exact context
  | cons event events induction =>
      have later := induction (fun other member =>
        quiet other (List.mem_cons_of_mem _ member)) context
      have first := quiet event (List.mem_cons_self ..)
      cases event with
      | created index arguments frame => contradiction
      | trapped index trap =>
          dsimp only [record] at later
          by_cases same : slot = index
          · rw [same, Function.update_self] at later
            cases later
          · rwa [Function.update_of_ne same] at later
      | _ => exact later

omit [DecidableEq Hart] in
theorem HartState.Ok.chosen_engagement {cells : Cells image.target}
    {here : HartState image.target} {slot : Nat} (ok : here.Ok cells)
    (chosen : here.chosen = some slot) :
    here.control.engagement = some (.selected slot) ∨
      (cells slot).process.state = .unused := by
  obtain ⟨control, currentProcess, _⟩ := here
  cases control with
  | switching inTrap point =>
      cases point with
      | select index =>
          cases chosen
          exact .inl rfl
      | markRunning index =>
          cases chosen
          exact .inl rfl
      | _ => contradiction
  | creating arguments point =>
      have creates : Creates image cells arguments point := ok.2.2
      exact .inr (creates.unused rfl chosen)
  | _ => contradiction

omit [DecidableEq Hart] in
theorem HartState.chosen_of_engagement {here : HartState image.target} {slot : Nat}
    (selected : here.control.engagement = some (.selected slot)) :
    here.chosen = some slot := by
  obtain ⟨control, currentProcess, _⟩ := here
  cases control with
  | switching inTrap point =>
      cases point with
      | select index =>
          cases selected
          rfl
      | markRunning index =>
          cases selected
          rfl
      | _ => contradiction
  | creating arguments point => cases point <;> cases selected
  | _ => contradiction

theorem CreatorsInvariant.untouched {state : CreatorsState Hart image.target}
    (invariant : CreatorsInvariant image state) {creator hart : Hart} {slot : Nat}
    (pending : state.Pending creator slot) {effect : Effect Hart image.target}
    (legal : Legal image state.machine hart effect) {after : State Hart image.target}
    (applied : effect.apply hart state.machine = some after)
    (still : Invariant image after)
    (selects : effect.hart.control.engagement = some (.selected slot) →
      (state.machine.harts hart).control.engagement = some (.selected slot)) :
    (∀ other, ¬(after.harts other).Right slot) ∧
      after.cells slot = state.machine.cells slot := by
  have nobody := invariant.nobody creator slot pending
  obtain ⟨-, -, harts, processes, -⟩ := Effect.apply_eq_some applied
  have process : after.processes slot = state.machine.processes slot := by
    by_contra changed
    rw [processes] at changed
    have written := Effect.written_of_changed changed
    exact nobody hart (legal.writes slot _ written)
  have ready : (after.cells slot).process.state = .ready := by
    rw [← invariant.ready creator slot pending]
    exact congrArg Process.state process
  have here : after.harts hart = effect.hart := by
    rw [harts]
    exact Function.update_self ..
  have mine : ¬effect.hart.Right slot := by
    have ok := still.ok hart
    rw [here] at ok
    rintro (owned | chosen)
    · rw [ok.owned_running owned] at ready
      contradiction
    · cases ok.chosen_engagement chosen with
      | inl selected =>
          exact nobody hart (.inr (HartState.chosen_of_engagement (selects selected)))
      | inr unused =>
          rw [unused] at ready
          contradiction
  constructor
  · intro other
    by_cases same : other = hart
    · rw [same, here]
      exact mine
    · rw [harts, Function.update_of_ne same]
      exact nobody other
  · rw [Effect.cells_apply applied]
    exact legal.move.frame slot (nobody hart) mine

section

variable {state : State Hart image.target} {slot : Nat}
  {arguments : ProcessArguments image.target} {frame : TrapFrame image.target}
  (written : TrapFrame image.target)
  (context : state.history.context slot = some (.created arguments frame))

include context

omit [DecidableEq Hart]

theorem State.rewrite_history : (state.rewrite slot written).history =
    state.history.record (.created slot arguments written) := by
  rw [State.history, History.ofTrace, rewrite, context, List.foldl_append]
  rfl

theorem State.rewrite_cells_self : (state.rewrite slot written).cells slot =
    ⟨{ state.processes slot with frame := written },
      some (.created arguments written), some (.created written)⟩ := by
  rw [State.cells, State.rewrite_history written context]
  simp [State.rewrite, History.record]

theorem State.rewrite_cells_of_ne {other : Nat} (different : other ≠ slot) :
    (state.rewrite slot written).cells other = state.cells other := by
  rw [State.cells, State.cells, State.rewrite_history written context]
  simp [State.rewrite, History.record, different]

theorem State.rewrite_state (index : Nat) :
    ((state.rewrite slot written).processes index).state =
      (state.processes index).state := by
  by_cases same : index = slot
  · rw [same]
    exact congrArg (fun cell => cell.process.state)
      (State.rewrite_cells_self written context)
  · exact congrArg (fun cell => cell.process.state)
      (State.rewrite_cells_of_ne written context same)

end

omit [DecidableEq Hart] in
/-- A creator's write to a process that nobody has a right to yet. -/
theorem Invariant.rewrite {state : State Hart image.target} {slot : Nat}
    {arguments : ProcessArguments image.target} {frame : TrapFrame image.target}
    (invariant : Invariant image state)
    (nobody : ∀ hart, ¬(state.harts hart).Right slot)
    (ready : (state.processes slot).state = .ready)
    (context : state.history.context slot =
      some (.created arguments (state.processes slot).frame))
    (entry : frame.registers .ra = (state.processes slot).frame.registers .ra) :
    Invariant image (state.rewrite slot frame) := by
  have history := State.rewrite_history frame context
  have cell := State.rewrite_cells_self frame context
  have cells : ∀ other, other ≠ slot →
      (state.rewrite slot frame).cells other = state.cells other :=
    fun _ different => State.rewrite_cells_of_ne frame context different
  constructor
  · refine invariant.safe.poke nobody cells ?_
    have waiting : Waiting image slot (state.cells slot) :=
      invariant.safe.free slot nobody
    have used : (state.cells slot).process.state ≠ .unused := by
      rw [State.cells, ready]
      simp
    have resumable := waiting.resumable used
    rw [show decide ((state.cells slot).process.state = .ready) = true from
      decide_eq_true ready] at resumable
    cases resumable with
    | fresh created fresh =>
        have same := context.symm.trans fresh.context
        cases same
        rw [cell]
        constructor
        · exact waiting.notRunning
        · exact fun _ => waiting.bound used
        · exact fun _ => waiting.id used
        · exact fun _ => waiting.outputBuffer used
        · intro _
          rw [show decide (({ state.processes slot with frame := frame }
            : Process image.target).state = .ready) = true from decide_eq_true ready]
          exact .fresh arguments ⟨rfl, rfl, entry.trans fresh.entry, fresh.kernel⟩
  · exact invariant.processesLock
  · exact invariant.trapPrintLock
  · intro hart index
    rw [history]
    exact invariant.owns hart index
  · rw [State.rewrite, context]
    exact (Data.Trace.sound_append state.trace _).mpr
      ⟨invariant.sound, trivial, trivial⟩

section

variable {state next : CreatorsState Hart image.target} {hart : Hart}
  {creator : Creator image.target}
  (creators : next.creators = Function.update state.creators hart creator)

include creators

theorem CreatorsState.pending_self (slot : Nat) :
    next.Pending hart slot ↔ creator.process = some slot ∧ creator.steps ≠ [] := by
  rw [Pending, creators, Function.update_self]

theorem CreatorsState.pending_of_ne {other : Hart} (different : other ≠ hart)
    (slot : Nat) : next.Pending other slot ↔ state.Pending other slot := by
  rw [Pending, Pending, creators, Function.update_of_ne different]

end

structure Marked (state after : State Hart image.target) (hart : Hart)
    (arguments : ProcessArguments image.target) (slot : Nat) : Prop where
  harts : ∀ other, other ≠ hart → after.harts other = state.harts other
  control : (after.harts hart).control = .creating arguments .release
  process : after.processes slot = { state.processes slot with state := .ready }
  context : after.history.context = Function.update state.history.context slot
    (some (.created arguments (state.processes slot).frame))
  nobody : ∀ other, ¬(after.harts other).Right slot

theorem Marked.of_apply {state after : State Hart image.target}
    (invariant : Invariant image state) (still : Invariant image after) {hart : Hart}
    {arguments : ProcessArguments image.target} {slot : Nat}
    (right : (state.harts hart).Right slot)
    (applied : (create image hart (state.harts hart) state.processes arguments
      (.markReady slot)).apply hart state = some after) :
    Marked state after hart arguments slot := by
  obtain ⟨-, -, harts, processes, -⟩ := Effect.apply_eq_some applied
  have here : after.harts hart = (create image hart (state.harts hart)
      state.processes arguments (.markReady slot)).hart := by
    rw [harts]
    exact Function.update_self ..
  have control : (after.harts hart).control = .creating arguments .release := by
    rw [here]
    rfl
  have process : after.processes slot =
      { state.processes slot with state := .ready } := by
    rw [processes]
    exact Effect.processes_self rfl _
  refine ⟨?_, control, process, ?_, ?_⟩
  · intro other different
    rw [harts]
    exact Function.update_of_ne different ..
  · rw [Effect.history_apply applied]
    rfl
  · intro other
    by_cases isHart : other = hart
    · subst isHart
      rintro (owned | chosen)
      · have running := (still.ok other).owned_running owned
        rw [State.cells, process] at running
        contradiction
      · rw [HartState.chosen, control] at chosen
        contradiction
    · rw [harts, Function.update_of_ne isHart]
      intro otherRight
      exact isHart (invariant.safe.apart otherRight right)

namespace CreatorsInvariant

variable {state : CreatorsState Hart image.target}

theorem advance (invariant : CreatorsInvariant image state)
    {hart : Hart} {choice : Choice image.target} {after : State Hart image.target}
    {effect : Effect Hart image.target}
    (made : Scheduling.effect image hart (state.machine.harts hart)
      state.machine.processes choice = some effect)
    (applied : effect.apply hart state.machine = some after)
    (selects : ∀ creator slot, state.Pending creator slot →
      effect.hart.control.engagement = some (.selected slot) →
        (state.machine.harts hart).control.engagement = some (.selected slot))
    (contexts : ∀ slot arguments frame,
      (effect.history state.machine).context slot = some (.created arguments frame) →
        state.machine.history.context slot = some (.created arguments frame))
    {creator : Creator image.target}
    (mine : creator = state.creators hart ∨
      (state.creators hart).steps = [] ∧ creator.process = none)
    (creating : effect.hart.control.engagement = some .creating →
      creator.process = none) :
    CreatorsInvariant image { state with
      machine := after
      creators := Function.update state.creators hart creator } := by
  have legal := invariant.machine.legal (invariant.disabled hart) made
  have still := invariant.machine.apply legal applied
  have stepped : Scheduling.step image state.machine ⟨hart, choice⟩ = some after :=
    Option.bind_eq_some_iff.mpr ⟨effect, made, applied⟩
  obtain ⟨-, -, harts, -, -⟩ := Effect.apply_eq_some applied
  have same : ∀ other slot, state.Pending other slot →
      Function.update state.creators hart creator other = state.creators other := by
    intro other slot pending
    by_cases isHart : other = hart
    · rw [isHart, Function.update_self]
      cases mine with
      | inl equal => exact equal
      | inr replaced =>
          rw [isHart] at pending
          exact absurd replaced.1 pending.2
    · exact Function.update_of_ne isHart ..
  have pending : ∀ other slot, ({ state with
      machine := after
      creators := Function.update state.creators hart creator }).Pending other slot ↔
        state.Pending other slot := by
    intro other slot
    by_cases isHart : other = hart
    · subst isHart
      rw [CreatorsState.pending_self rfl]
      cases mine with
      | inl equal =>
          rw [equal]
          rfl
      | inr replaced =>
          constructor
          · intro now
            rw [replaced.2] at now
            exact absurd now.1 (by simp)
          · intro was
            exact absurd replaced.1 was.2
    · exact CreatorsState.pending_of_ne rfl isHart slot
  have untouched : ∀ creator slot, state.Pending creator slot →
      (∀ other, ¬(after.harts other).Right slot) ∧
        after.cells slot = state.machine.cells slot := fun creator slot pending =>
    invariant.untouched pending legal applied still (selects creator slot pending)
  have process : ∀ creator slot, state.Pending creator slot →
      after.processes slot = state.machine.processes slot :=
    fun creator slot pending =>
    congrArg Cell.process (untouched creator slot pending).2
  constructor
  · exact still
  · exact disabled_step invariant.disabled stepped
  · intro creator slot now
    have was := (pending creator slot).mp now
    exact (congrArg Process.state (process creator slot was)).trans
      (invariant.ready creator slot was)
  · intro creator slot now
    exact (untouched creator slot ((pending creator slot).mp now)).1
  · intro first second slot firstNow secondNow
    exact invariant.apart first second slot ((pending first slot).mp firstNow)
      ((pending second slot).mp secondNow)
  · intro creator slot now
    have was := (pending creator slot).mp now
    have context : after.history.context slot = state.machine.history.context slot :=
      congrArg Cell.context (untouched creator slot was).2
    have facts := invariant.pending creator slot was
    rw [← process creator slot was, ← context, ← same creator slot was] at facts
    exact facts
  · intro slot arguments frame context finished
    dsimp only at context
    rw [Effect.history_apply applied] at context
    refine invariant.finished slot arguments frame
      (contexts slot arguments frame context) ?_
    intro creator was
    exact finished creator ((pending creator slot).mpr was)
  · intro other engaged
    dsimp only at engaged ⊢
    rw [harts] at engaged
    by_cases isHart : other = hart
    · rw [isHart, Function.update_self] at engaged ⊢
      exact creating engaged
    · rw [Function.update_of_ne isHart] at engaged ⊢
      exact invariant.creating other engaged

theorem steadyStep (invariant : CreatorsInvariant image state)
    {hart : Hart} {choice : Choice image.target} {after : State Hart image.target}
    {effect : Effect Hart image.target}
    (made : Scheduling.effect image hart (state.machine.harts hart)
      state.machine.processes choice = some effect)
    (applied : effect.apply hart state.machine = some after)
    (steady : effect.Steady (state.machine.harts hart).control) :
    CreatorsInvariant image { state with machine := after } := by
  have advanced := invariant.advance made applied
    (fun _ slot _ selected => steady.keeps (.selected slot) selected)
    (fun _ _ _ => History.foldl_created steady.quiet) (.inl rfl)
    (fun engaged => invariant.creating hart (steady.keeps .creating engaged))
  rwa [Function.update_eq_self] at advanced

theorem searchStep (invariant : CreatorsInvariant image state)
    {hart : Hart} {choice : Choice image.target} {after : State Hart image.target}
    {effect : Effect Hart image.target}
    (made : Scheduling.effect image hart (state.machine.harts hart)
      state.machine.processes choice = some effect)
    (applied : effect.apply hart state.machine = some after) {slot : Nat}
    (undisturbed : ∀ creator, ¬state.Pending creator slot)
    (selects : effect.hart.control.engagement = some (.selected slot))
    (quiet : effect.events = []) :
    CreatorsInvariant image { state with machine := after } := by
  have contexts : ∀ index arguments frame,
      (effect.history state.machine).context index = some (.created arguments frame) →
        state.machine.history.context index = some (.created arguments frame) := by
    intro index arguments frame context
    rw [Effect.history, quiet] at context
    exact context
  have advanced := invariant.advance made applied ?_ contexts (.inl rfl) ?_
  · rwa [Function.update_eq_self] at advanced
  · intro creator index pending selected
    cases selects.symm.trans selected
    exact absurd pending (undisturbed creator)
  · intro engaged
    cases selects.symm.trans engaged

theorem createStep (invariant : CreatorsInvariant image state) {hart : Hart}
    {arguments : ProcessArguments image.target}
    {steps : List (CreatorStep image.target)}
    {stackData : Word image.target} {after : State Hart image.target}
    (written : (state.creators hart).steps = [])
    (stepped : Scheduling.step image state.machine ⟨hart, .create arguments⟩ =
      some after) :
    CreatorsInvariant image { state with
      machine := after
      creators := Function.update state.creators hart ⟨none, steps, stackData⟩ } := by
  obtain ⟨effect, made, applied⟩ := Option.bind_eq_some_iff.mp stepped
  have begins : effect.hart.control = .creating arguments .find ∧
    effect.events = [] := by
    cases effect_inv made with
    | inl kernel =>
        obtain ⟨_, same, _⟩ := kernel
        contradiction
    | inr process =>
        cases process with
        | create _ _ _ => exact ⟨rfl, rfl⟩
  refine invariant.advance made applied ?_ ?_ (.inr ⟨written, rfl⟩) (fun _ => rfl)
  · intro creator slot _ selected
    rw [begins.1] at selected
    cases selected
  · intro slot other frame context
    rw [Effect.history, begins.2] at context
    exact context

theorem markReady (invariant : CreatorsInvariant image state) {hart : Hart}
    {arguments : ProcessArguments image.target} {slot : Nat} {claimed : Bool}
    (control : (state.machine.harts hart).control =
      .creating arguments (.markReady slot))
    {after : State Hart image.target}
    (stepped : step image state.machine ⟨hart, .kernel claimed⟩ = some after) :
    CreatorsInvariant image (state.after hart after) := by
  have still := invariant.machine.step invariant.disabled stepped
  have disabled := disabled_step invariant.disabled stepped
  obtain ⟨effect, made, applied⟩ := Option.bind_eq_some_iff.mp stepped
  have legal := invariant.machine.legal (invariant.disabled hart) made
  have same : effect =
      create image hart (state.machine.harts hart) state.machine.processes
        arguments (.markReady slot) := by
    simp only [Scheduling.effect, kernelStep, control, Option.some.injEq] at made
    exact made.symm
  have right : (state.machine.harts hart).Right slot := by
    right
    rw [HartState.chosen, control]
  have elsewhere : ∀ creator index, state.Pending creator index → index ≠ slot := by
    rintro creator index pending rfl
    exact invariant.nobody creator index pending hart right
  have untouched : ∀ creator index, state.Pending creator index →
      (∀ other, ¬(after.harts other).Right index) ∧
        after.cells index = state.machine.cells index := by
    intro creator index pending
    refine invariant.untouched pending legal applied still ?_
    intro selected
    rw [same] at selected
    contradiction
  rw [same] at applied
  have marked := Marked.of_apply invariant.machine still right applied
  have next : state.after hart after =
      { machine := after
        creators := Function.update state.creators hart
          { state.creators hart with process := some slot }
        assigned := Function.update state.assigned slot
          (CreatorStep.finish (state.creators hart).steps
            (state.machine.processes slot).frame
            (state.creators hart).stackData).registers } := by
    rw [CreatorsState.after, control]
  have creators : (state.after hart after).creators = _ :=
    congrArg CreatorsState.creators next
  have mine : ∀ index, (state.after hart after).Pending hart index ↔
      slot = index ∧ (state.creators hart).steps ≠ [] := by
    intro index
    rw [CreatorsState.pending_self creators, Option.some.injEq]
  have others : ∀ {creator}, creator ≠ hart → ∀ index,
      ((state.after hart after).Pending creator index ↔
        state.Pending creator index) :=
    CreatorsState.pending_of_ne creators
  have ready : (after.processes slot).state = .ready :=
    congrArg Process.state marked.process
  rw [next] at mine others ⊢
  constructor
  · exact still
  · exact disabled
  · intro creator index pending
    by_cases isHart : creator = hart
    · subst isHart
      rw [← ((mine index).mp pending).1]
      exact ready
    · have before := (others isHart index).mp pending
      have cell := (untouched creator index before).2
      exact (congrArg (fun cell => cell.process.state) cell).trans
        (invariant.ready creator index before)
  · intro creator index pending
    by_cases isHart : creator = hart
    · subst isHart
      rw [← ((mine index).mp pending).1]
      exact marked.nobody
    · exact (untouched creator index ((others isHart index).mp pending)).1
  · intro first second index firstPending secondPending
    by_cases isFirst : first = hart
    · by_cases isSecond : second = hart
      · rw [isFirst, isSecond]
      · subst isFirst
        have before := (others isSecond index).mp secondPending
        exact absurd ((mine index).mp firstPending).1.symm
          (elsewhere second index before)
    · have before := (others isFirst index).mp firstPending
      by_cases isSecond : second = hart
      · subst isSecond
        exact absurd ((mine index).mp secondPending).1.symm
          (elsewhere first index before)
      · exact invariant.apart first second index before
          ((others isSecond index).mp secondPending)
  · intro creator index pending
    dsimp only
    rw [marked.context]
    by_cases isHart : creator = hart
    · subst isHart
      rw [← ((mine index).mp pending).1, Function.update_self, Function.update_self,
        Function.update_self, marked.process]
      exact ⟨⟨arguments, rfl⟩, rfl⟩
    · have before := (others isHart index).mp pending
      have different := elsewhere creator index before
      have process : after.processes index = state.machine.processes index :=
        congrArg Cell.process (untouched creator index before).2
      rw [Function.update_of_ne isHart, Function.update_of_ne different, process,
        Function.update_of_ne different]
      exact invariant.pending creator index before
  · intro index other frame isContext finished
    dsimp only at isContext ⊢
    rw [marked.context] at isContext
    by_cases isSlot : index = slot
    · subst isSlot
      rw [Function.update_self] at isContext ⊢
      cases isContext
      have done : (state.creators hart).steps = [] := by
        by_contra left
        exact finished hart ((mine index).mpr ⟨rfl, left⟩)
      rw [done]
      rfl
    · rw [Function.update_of_ne isSlot] at isContext ⊢
      refine invariant.finished index other frame isContext ?_
      intro creator pending
      have isHart : creator ≠ hart := by
        rintro rfl
        have none := invariant.creating creator (by rw [control]; rfl)
        rw [pending.1] at none
        contradiction
      exact finished creator ((others isHart index).mpr pending)
  · intro other creating
    dsimp only at creating ⊢
    have isHart : other ≠ hart := by
      rintro rfl
      rw [marked.control] at creating
      contradiction
    rw [marked.harts other isHart] at creating
    rw [Function.update_of_ne isHart]
    exact invariant.creating other creating

theorem write (invariant : CreatorsInvariant image state) {hart : Hart} {slot : Nat}
    {step : CreatorStep image.target} {rest : List (CreatorStep image.target)}
    (isProcess : (state.creators hart).process = some slot)
    (isSteps : (state.creators hart).steps = step :: rest)
    {frame : TrapFrame image.target} {stackData : Word image.target}
    (runs : step.run (state.machine.processes slot).frame
      (state.creators hart).stackData = (frame, stackData)) :
    CreatorsInvariant image { state with
      machine := state.machine.rewrite slot frame
      creators := Function.update state.creators hart
        { state.creators hart with steps := rest, stackData := stackData } } := by
  have pending : state.Pending hart slot := by
    refine ⟨isProcess, ?_⟩
    rw [isSteps]
    simp
  obtain ⟨⟨arguments, context⟩, assigned⟩ := invariant.pending hart slot pending
  rw [isSteps, CreatorStep.finish, runs] at assigned
  have nobody := invariant.nobody hart slot pending
  have ready := invariant.ready hart slot pending
  have entry : frame.registers .ra =
      (state.machine.processes slot).frame.registers .ra := by
    have same := step.run_ra (state.machine.processes slot).frame
      (state.creators hart).stackData
    rwa [runs] at same
  have others : ∀ index, index ≠ slot →
      (state.machine.rewrite slot frame).processes index =
        state.machine.processes index ∧
        (state.machine.rewrite slot frame).history.context index =
          state.machine.history.context index := by
    intro index different
    have cell := State.rewrite_cells_of_ne frame context different
    exact ⟨congrArg Cell.process cell, congrArg Cell.context cell⟩
  have cell := State.rewrite_cells_self frame context
  have process : (state.machine.rewrite slot frame).processes slot =
      { state.machine.processes slot with frame := frame } :=
    congrArg Cell.process cell
  have newContext : (state.machine.rewrite slot frame).history.context slot =
      some (.created arguments frame) := congrArg Cell.context cell
  have mine : ∀ index, ({ state with
      machine := state.machine.rewrite slot frame
      creators := Function.update state.creators hart
        { state.creators hart with steps := rest, stackData := stackData } }).Pending
          hart index ↔ slot = index ∧ rest ≠ [] := by
    intro index
    rw [CreatorsState.pending_self rfl, isProcess, Option.some.injEq]
  have before : ∀ creator index, ({ state with
      machine := state.machine.rewrite slot frame
      creators := Function.update state.creators hart
        { state.creators hart with steps := rest, stackData := stackData } }).Pending
          creator index → state.Pending creator index := by
    intro creator index now
    by_cases same : creator = hart
    · subst same
      rw [← ((mine index).mp now).1]
      exact pending
    · exact (CreatorsState.pending_of_ne rfl same index).mp now
  constructor
  · exact invariant.machine.rewrite nobody ready context entry
  · exact invariant.disabled
  · intro creator index now
    exact (State.rewrite_state frame context index).trans
      (invariant.ready creator index (before creator index now))
  · intro creator index now
    exact invariant.nobody creator index (before creator index now)
  · intro first second index firstNow secondNow
    exact invariant.apart first second index (before first index firstNow)
      (before second index secondNow)
  · intro creator index now
    have was := before creator index now
    dsimp only
    by_cases same : creator = hart
    · subst same
      cases isProcess.symm.trans was.1
      rw [Function.update_self, process, newContext]
      exact ⟨⟨arguments, rfl⟩, assigned⟩
    · have different : index ≠ slot := by
        rintro rfl
        exact same (invariant.apart creator hart index was pending)
      rw [Function.update_of_ne same, (others index different).1,
        (others index different).2]
      exact invariant.pending creator index was
  · intro index other written isContext finished
    by_cases same : index = slot
    · subst same
      cases newContext.symm.trans isContext
      have done : rest = [] := by
        by_contra left
        exact finished hart ((mine index).mpr ⟨rfl, left⟩)
      rw [done] at assigned
      exact assigned
    · rw [(others index same).2] at isContext
      refine invariant.finished index other written isContext ?_
      intro creator was
      have different : creator ≠ hart := by
        rintro rfl
        cases isProcess.symm.trans was.1
        exact same rfl
      exact finished creator
        ((CreatorsState.pending_of_ne rfl different index).mpr was)
  · intro other creating
    have none := invariant.creating other creating
    have different : other ≠ hart := by
      rintro rfl
      rw [isProcess] at none
      contradiction
    dsimp only
    rw [Function.update_of_ne different]
    exact none

theorem kernelStep (invariant : CreatorsInvariant image state) {hart : Hart}
    {claimed : Bool} {after : State Hart image.target}
    (undisturbed :
      ∀ slot ∈ (state.machine.harts hart).control.searched image.processesMaximum,
        ∀ creator, ¬state.Pending creator slot)
    (stepped : Scheduling.step image state.machine ⟨hart, .kernel claimed⟩ =
      some after) :
    CreatorsInvariant image (state.after hart after) := by
  obtain ⟨effect, made, applied⟩ := Option.bind_eq_some_iff.mp stepped
  have engages : effect.Engages (state.machine.harts hart).control
      state.machine.processes := by
    cases invariant.disabled hart with
    | inl stopped =>
        rw [effect_stopped stopped] at made
        contradiction
    | inr masked => exact kernelStep_engages masked made
  by_cases marks : ∃ arguments slot, (state.machine.harts hart).control =
      .creating arguments (.markReady slot)
  · obtain ⟨arguments, slot, control⟩ := marks
    exact invariant.markReady control stepped
  · have notReady : ∀ arguments slot, (state.machine.harts hart).control ≠
        .creating arguments (.markReady slot) := fun arguments slot control =>
      marks ⟨arguments, slot, control⟩
    rw [CreatorsState.after_of_ne notReady]
    cases engages with
    | steady steady => exact invariant.steadyStep made applied steady
    | search slot searched selects quiet =>
        exact invariant.searchStep made applied (undisturbed slot searched)
          selects quiet
    | create _ arguments slot control _ _ =>
      exact absurd control (notReady arguments slot)

theorem processStep (invariant : CreatorsInvariant image state) {hart : Hart}
    {choice : Choice image.target} {after : State Hart image.target}
    (stepped : Scheduling.step image state.machine ⟨hart, choice⟩ = some after)
    (notKernel : ∀ claimed, choice ≠ .kernel claimed)
    (notCreate : ∀ arguments, choice ≠ .create arguments) :
    CreatorsInvariant image { state with machine := after } := by
  obtain ⟨effect, made, applied⟩ := Option.bind_eq_some_iff.mp stepped
  refine invariant.steadyStep made applied ?_
  cases effect_inv made with
  | inl kernel =>
      obtain ⟨claimed, same, _⟩ := kernel
      exact absurd same (notKernel claimed)
  | inr process =>
      cases invariant.disabled hart with
      | inl stopped =>
          rw [effect_stopped stopped] at made
          contradiction
      | inr masked => exact processStep_steady masked notCreate process

theorem step (invariant : CreatorsInvariant image state)
    {action : CreatorsAction Hart image.target}
    {after : CreatorsState Hart image.target}
    (undisturbed : Undisturbed image state action)
    (stepped : creatorsStep image state action = some after) :
    CreatorsInvariant image after := by
  cases action with
  | machine action =>
      obtain ⟨hart, choice⟩ := action
      cases choice with
      | kernel claimed =>
          obtain ⟨machine, moved, same⟩ := Option.map_eq_some_iff.mp stepped
          rw [← same]
          exact invariant.kernelStep (undisturbed hart rfl) moved
      | create arguments => contradiction
      | jump =>
          obtain ⟨_, stepped⟩ := Option.ite_none_right_eq_some.mp stepped
          obtain ⟨machine, moved, same⟩ := Option.map_eq_some_iff.mp stepped
          rw [← same]
          exact invariant.processStep moved (by simp) (by simp)
      | _ =>
          obtain ⟨machine, moved, same⟩ := Option.map_eq_some_iff.mp stepped
          rw [← same]
          exact invariant.processStep moved (by simp) (by simp)
  | create hart arguments steps =>
      obtain ⟨allowed, stepped⟩ := Option.ite_none_right_eq_some.mp stepped
      obtain ⟨machine, moved, same⟩ := Option.map_eq_some_iff.mp stepped
      rw [← same]
      rw [Bool.and_eq_true, List.isEmpty_iff] at allowed
      exact invariant.createStep allowed.1 moved
  | write hart =>
      simp only [creatorsStep] at stepped
      split at stepped
      · rename_i slot step rest _ process steps
        cases stepped
        exact invariant.write process steps rfl
      · contradiction

omit [DecidableEq Hart] in
theorem start (booting : CreatorsBooting image state) :
    CreatorsInvariant image state := by
  have nothing : ∀ creator slot, ¬state.Pending creator slot :=
    fun creator slot pending =>
    pending.2 (booting.creators creator).2
  constructor
  · exact booting.machine.invariant
  · exact fun hart => .inr (booting.machine.harts hart).masked
  · exact fun creator slot pending => absurd pending (nothing creator slot)
  · exact fun creator slot pending => absurd pending (nothing creator slot)
  · exact fun first _ slot pending => absurd pending (nothing first slot)
  · exact fun creator slot pending => absurd pending (nothing creator slot)
  · intro slot arguments frame context
    rw [State.history, booting.machine.trace] at context
    contradiction
  · exact fun hart _ => (booting.creators hart).1

theorem of_reachable (reachable : ((creatorsMachine Hart image).restrict
    (Undisturbed image)).Reachable state) : CreatorsInvariant image state := by
  refine reachable.invariant (CreatorsInvariant image) ?_ ?_
  · intro start starts
    exact .start starts
  · intro before action after invariant stepped
    exact invariant.step stepped.1 stepped.2

omit [DecidableEq Hart] in
theorem startsAsCreated (invariant : CreatorsInvariant image state) :
    StartsAsCreated state := by
  refine ⟨?_, invariant.ready⟩
  intro hart slot arguments frame control current context
  have ok := invariant.machine.ok hart
  have owned : (state.machine.harts hart).owned = some slot := by
    rw [HartState.owned, control]
    exact current
  have finished : ∀ creator, ¬state.Pending creator slot := fun creator pending =>
    invariant.nobody creator slot pending hart (.inl owned)
  have assigned := invariant.finished slot arguments frame context finished
  unfold HartState.Ok at ok
  rw [control] at ok
  obtain ⟨⟨index, other, ⟨isCurrent, _⟩, isContext, resumption, _⟩, _⟩ := ok
  cases current.symm.trans isCurrent
  cases context.symm.trans isContext
  have registers := congrArg Prod.fst resumption
  dsimp only [Context.resumption] at registers
  rw [← assigned, ← registers]
  exact ⟨rfl, rfl⟩

end CreatorsInvariant

/-- For any number of harts, while no search comes on a process that is still written
to. -/
theorem starts_as_created {state : CreatorsState Hart image.target}
    (reachable : ((creatorsMachine Hart image).restrict (Undisturbed image)).Reachable
      state) : StartsAsCreated state :=
  (CreatorsInvariant.of_reachable reachable).startsAsCreated

end

instance {Hart : Type} {target : Target} (state : CreatorsState Hart target)
    (creator : Hart) (slot : Nat) : Decidable (state.Pending creator slot) :=
  inferInstanceAs (Decidable (_ ∧ _))

instance {Hart : Type} [Fintype Hart] {image : Image}
    (state : CreatorsState Hart image.target)
    (action : CreatorsAction Hart image.target) :
    Decidable (Undisturbed image state action) :=
  inferInstanceAs (Decidable (∀ hart ∈ action.kernel, ∀ slot ∈
    (state.machine.harts hart).control.searched image.processesMaximum,
      ∀ creator, ¬state.Pending creator slot))

def smallCreators (Hart : Type) : CreatorsState Hart smallImage.target :=
  ⟨smallBoot Hart, fun _ => ⟨none, [], 0⟩, fun _ _ => 0⟩

theorem smallCreators_booting (Hart : Type) :
    CreatorsBooting smallImage (smallCreators Hart) :=
  ⟨smallBoot_booting Hart, fun _ => ⟨rfl, rfl⟩⟩

def createWithA0 : List (CreatorsAction Bool smallImage.target) :=
  .create true (smallArguments false) [.setA0 7] :: (kernelSteps true 6).map .machine

def firstEntry : List (CreatorsAction Bool smallImage.target) :=
  (⟨false, .jump⟩ :: kernelSteps false 10).map .machine

theorem starts_as_created_sample :
    ∃ state : CreatorsState Bool smallImage.target,
      (state.machine.harts false).control = .returning ∧
        (state.machine.harts false).registers .a0 = 7 ∧ StartsAsCreated state :=
  ⟨_, rfl, rfl, starts_as_created
    (Data.Transition.System.Reachable.of_execute_guarded
      (createWithA0 ++ .write true :: firstEntry)
      (.start _ (smallCreators_booting Bool)) rfl)⟩

/-- The second hart is about to enter the process before its `a0` is written. -/
theorem entered_before_written :
    ∃ state : CreatorsState Bool smallImage.target,
      (creatorsMachine Bool smallImage).Reachable state ∧
        (state.machine.harts false).control = .returning ∧
        (state.machine.harts false).registers .a0 = 0 ∧ state.assigned 0 .a0 = 7 ∧
        state.Pending true 0 ∧ ¬StartsAsCreated state := by
  have run : ∃ state : CreatorsState Bool smallImage.target,
      Data.Transition.execute (creatorsStep smallImage) (smallCreators Bool)
          (createWithA0 ++ firstEntry) = some state ∧
        (state.machine.harts false).control = .returning ∧
        (state.machine.harts false).registers .a0 = 0 ∧ state.assigned 0 .a0 = 7 ∧
        state.Pending true 0 ∧ (state.machine.processes 0).state = .running :=
    ⟨_, rfl, rfl, rfl, rfl, ⟨rfl, by decide⟩, rfl⟩
  obtain ⟨state, executed, control, a0, assigned, pending, running⟩ := run
  refine ⟨state, .of_execute _ (.start _ (smallCreators_booting Bool)) executed,
    control, a0,
    assigned, pending, ?_⟩
  intro starts
  have ready := starts.unswitched true 0 pending
  rw [running] at ready
  contradiction

end Thos.Scheduling
