import Thos.Scheduling.Invariant

namespace Thos.Scheduling

open Data.Ownership
open Data.Trace

/-! The kinds of legal effects: those that touch no slot, and those that touch
one slot the hart has a right to. -/

variable {Hart : Type} {image : Image} {state : State Hart image.target}
  {hart : Hart} {effect : Effect Hart image.target} {slot : Nat}

theorem HartState.Ok.right_running {cells : Cells image.target}
    {here : HartState image.target} (ok : here.Ok cells) (right : here.Right slot) :
    Running image cells slot ∨ here.HoldsProcessesLock := by
  obtain ⟨control, currentProcess, _⟩ := here
  have runs : ∀ index, currentProcess = some index → Running image cells index →
      (currentProcess = some slot ∨ none = some slot) → Running image cells slot := by
    intro index current running right
    cases right with
    | inl same =>
        cases current.symm.trans same
        exact running
    | inr same => contradiction
  have nothing : ¬((none : Option Nat) = some slot ∨ none = some slot) := by simp
  cases control with
  | boot => exact absurd right nothing
  | running =>
      obtain ⟨index, ⟨current, running⟩, _⟩ := ok
      exact .inl (runs index current running right)
  | trapped cause =>
      obtain ⟨index, _, ⟨current, running⟩, _⟩ := ok
      exact .inl (runs index current running right)
  | handling cause =>
      obtain ⟨index, _, ⟨current, running⟩, _⟩ := ok
      exact .inl (runs index current running right)
  | destroying inTrap point =>
      cases point with
      | acquire =>
          obtain ⟨index, current, running⟩ := ok
          exact .inl (runs index current running right)
      | _ => exact .inr rfl
  | switching inTrap point =>
      cases point with
      | enter =>
          cases ok with
          | inl none =>
              cases none
              exact absurd right nothing
          | inr settled =>
              obtain ⟨index, _, ⟨current, running⟩, _⟩ := settled
              exact .inl (runs index current running right)
      | adjust =>
          obtain ⟨index, _, ⟨current, running⟩, _⟩ := ok
          exact .inl (runs index current running right)
      | markRunnable =>
          obtain ⟨index, _, ⟨current, running⟩, _⟩ := ok
          exact .inl (runs index current running right)
      | clear startSearchId => exact absurd right nothing
      | acquire startSearchId => exact absurd right nothing
      | setReturn firstRun =>
          obtain ⟨index, ⟨current, running⟩, _⟩ := ok
          exact .inl (runs index current running right)
      | setSatp =>
          obtain ⟨⟨index, _, ⟨current, running⟩, _⟩, _⟩ := ok
          exact .inl (runs index current running right)
      | copyFrame =>
          obtain ⟨⟨index, _, ⟨current, running⟩, _⟩, _⟩ := ok
          exact .inl (runs index current running right)
      | _ => exact .inr rfl
  | leaving =>
      obtain ⟨⟨index, _, ⟨current, running⟩, _⟩, _⟩ := ok
      exact .inl (runs index current running right)
  | restoring =>
      obtain ⟨⟨index, _, ⟨current, running⟩, _⟩, _⟩ := ok
      exact .inl (runs index current running right)
  | returning =>
      obtain ⟨⟨index, _, ⟨current, running⟩, _⟩, _⟩ := ok
      exact .inl (runs index current running right)
  | creating arguments point => exact .inr rfl
  | stopped inProcesses inTrap =>
      cases ok with
      | inl none =>
          cases none
          exact absurd right nothing
      | inr some =>
          obtain ⟨index, current, running⟩ := some
          exact .inl (runs index current running right)

namespace Invariant

variable (invariant : Invariant image state)

include invariant

theorem ok (hart : Hart) : (state.harts hart).Ok state.cells :=
  invariant.safe.ok hart

theorem accessible (right : (state.harts hart).Right slot) :
    Admits image state.history (.accessed hart slot) := by
  intro other owns
  exact invariant.safe.apart (.inl ((invariant.owns other slot).mp owns)) right

/-- Under `processes_lock`, nobody else has a right to a slot that does not
run. -/
theorem nobody (holds : (state.harts hart).HoldsProcessesLock)
    (mine : ¬(state.harts hart).Right slot)
    (idle : (state.processes slot).state ≠ .running) (other : Hart) :
    ¬(state.harts other).Right slot := by
  intro right
  cases (invariant.ok other).right_running right with
  | inl running => exact idle running.state
  | inr locked =>
      have first := (invariant.processesLock hart).mpr holds
      have second := (invariant.processesLock other).mpr locked
      rw [first] at second
      rw [Option.some.inj second] at mine
      exact mine right

theorem waiting (holds : (state.harts hart).HoldsProcessesLock)
    (mine : ¬(state.harts hart).Right slot)
    (idle : (state.processes slot).state ≠ .running) :
    Waiting image slot (state.cells slot) :=
  invariant.safe.free slot (invariant.nobody holds mine idle)

theorem owns_store (notMine : (state.harts hart).owned ≠ some slot)
    (process : ProcessState) (notRunning : process ≠ .running) (index : Nat) :
    (state.history.store hart slot process).owns hart index ↔
      (state.harts hart).owned = some index := by
  have owns := invariant.owns hart index
  simp only [History.store]
  split
  · exact owns
  · rw [owns]
    constructor
    · rintro (⟨same, _⟩ | ⟨_, owned⟩)
      · exact absurd same notRunning
      · exact owned
    · intro owned
      refine .inr ⟨?_, owned⟩
      rintro ⟨_, same⟩
      rw [same] at owned
      exact notMine owned

theorem owns_dropped (mine : (state.harts hart).owned = some slot)
    (process : ProcessState) (notRunning : process ≠ .running)
    (notReady : process ≠ .ready) (index : Nat) :
    (state.history.store hart slot process).owns hart index ↔
      (none : Option Nat) = some index := by
  have owns := invariant.owns hart index
  simp only [History.store]
  rw [if_neg notReady, owns, mine]
  constructor
  · rintro (⟨same, _⟩ | ⟨different, owned⟩)
    · exact absurd same notRunning
    · exact absurd ⟨trivial, (Option.some.inj owned).symm⟩ different
  · simp

theorem owns_taken (nothing : (state.harts hart).owned = none) (index : Nat) :
    (state.history.store hart slot .running).owns hart index ↔
      some slot = some index := by
  have owns := invariant.owns hart index
  simp only [History.store]
  rw [if_neg (by simp), owns, nothing, Option.some.injEq]
  constructor
  · rintro (⟨_, _, same⟩ | ⟨_, owned⟩)
    · exact same.symm
    · contradiction
  · intro same
    exact .inl ⟨trivial, trivial, same.symm⟩

end Invariant

structure Effect.Touches (effect : Effect Hart image.target) (hart : Hart)
    (slot : Nat) : Prop where
  process : ∀ other process, effect.process = some (other, process) → other = slot
  events : ∀ event ∈ effect.events, event.slot = slot
  mine : ∀ event ∈ effect.events, event.By hart

theorem Effect.Touches.cells_of_ne (touches : effect.Touches hart slot) {other : Nat}
    (different : other ≠ slot) : effect.cells state other = state.cells other := by
  have elsewhere : ∀ event ∈ effect.events, other ≠ event.slot := by
    intro event member same
    exact different (same.trans (touches.events event member))
  have process : effect.processes state.processes other = state.processes other := by
    cases used : effect.process with
    | none => rw [Effect.processes_none used]
    | some write =>
        obtain ⟨index, process⟩ := write
        rw [← touches.process index process used] at different
        exact Effect.processes_of_ne used _ different
  rw [Effect.cells, State.cells, process, Effect.history,
    History.foldl_context_of_ne elsewhere, History.foldl_saved_of_ne elsewhere]

theorem Effect.cells_process {process : Process image.target}
    (written : effect.process = some (slot, process)) :
    (effect.cells state slot).process = process :=
  Effect.processes_self written _

theorem Effect.cells_write {process : Process image.target}
    (written : effect.process = some (slot, process))
    (context : (effect.history state).context slot = state.history.context slot)
    (saved : (effect.history state).saved slot = state.history.saved slot) :
    effect.cells state slot = { state.cells slot with process := process } := by
  rw [Effect.cells, Effect.processes_self written, context, saved]
  rfl

theorem Effect.written_of_changed {processes : Processes image.target}
    (changed : effect.processes processes slot ≠ processes slot) :
    effect.process = some (slot, effect.processes processes slot) := by
  cases written : effect.process with
  | none =>
      rw [Effect.processes_none written] at changed
      exact absurd rfl changed
  | some write =>
      obtain ⟨index, process⟩ := write
      by_cases same : slot = index
      · subst same
        rw [Effect.processes_self written]
      · exact absurd (Effect.processes_of_ne written _ same) changed

theorem Running.write {cells others : Cells image.target}
    (running : Running image cells slot)
    (state : (others slot).process.state = (cells slot).process.state)
    (id : (others slot).process.id = (cells slot).process.id)
    (outputBuffer : (others slot).process.outputBuffer =
      (cells slot).process.outputBuffer) : Running image others slot where
  bound := running.bound
  state := state.trans running.state
  id := id.trans running.id
  outputBuffer := by
    rw [outputBuffer]
    exact running.outputBuffer

theorem Running.print {cells others : Cells image.target} {buffer : Kernel.Buffer}
    (running : Running image cells slot) (valid : buffer.Valid)
    (process : (others slot).process =
      { (cells slot).process with outputBuffer := buffer }) :
    Running image others slot := by
  refine ⟨running.bound, ?_, ?_, ?_⟩ <;> rw [process]
  · exact running.state
  · exact running.id
  · exact valid

structure Effect.Quiet (effect : Effect Hart image.target) : Prop where
  process : effect.process = none
  events : effect.events = []

theorem Effect.Quiet.history (quiet : effect.Quiet) :
    effect.history state = state.history := by
  rw [Effect.history, quiet.events]
  rfl

theorem Effect.Quiet.cells (quiet : effect.Quiet) :
    effect.cells state = state.cells := by
  funext slot
  rw [Effect.cells, State.cells, quiet.history, Effect.processes_none quiet.process]

structure Effect.Locks (effect : Effect Hart image.target)
    (here : HartState image.target) : Prop where
  processesLock : effect.processesLock.Legal here.control.holdsProcessesLock
    effect.hart.control.holdsProcessesLock
  trapPrintLock : effect.trapPrintLock.Legal here.control.holdsTrapPrintLock
    effect.hart.control.holdsTrapPrintLock

theorem Effect.Locks.of {here : HartState image.target}
    {control : Control image.target}
    (before : here.control = control)
    (processesLock : effect.processesLock.Legal control.holdsProcessesLock
      effect.hart.control.holdsProcessesLock)
    (trapPrintLock : effect.trapPrintLock.Legal control.holdsTrapPrintLock
      effect.hart.control.holdsTrapPrintLock) : effect.Locks here := by
  rw [← before] at processesLock trapPrintLock
  exact ⟨processesLock, trapPrintLock⟩

theorem HartState.right_congr {here next : HartState image.target}
    (owned : next.owned = here.owned) (chosen : next.chosen = here.chosen)
    (slot : Nat) : next.Right slot ↔ here.Right slot := by
  unfold Right
  rw [owned, chosen]

theorem HartState.right_unchosen {here next : HartState image.target}
    (owned : next.owned = here.owned) (notMine : here.owned ≠ some slot)
    (chosen : here.chosen = some slot) (nothing : next.chosen = none) (index : Nat) :
    next.Right index ↔ here.Right index ∧ index ≠ slot := by
  unfold Right
  rw [owned, chosen, nothing]
  constructor
  · rintro (same | same)
    · refine ⟨.inl same, ?_⟩
      intro equal
      rw [equal] at same
      exact notMine same
    · contradiction
  · rintro ⟨same | same, different⟩
    · exact .inl same
    · exact absurd (Option.some.inj same).symm different

theorem HartState.right_disowned {here next : HartState image.target}
    (owned : here.owned = some slot) (chosen : here.chosen = none)
    (disowned : next.owned = none) (nothing : next.chosen = none) (index : Nat) :
    next.Right index ↔ here.Right index ∧ index ≠ slot := by
  unfold Right
  rw [owned, chosen, disowned, nothing]
  constructor
  · rintro (same | same)
    · contradiction
    · contradiction
  · rintro ⟨same | same, different⟩
    · exact absurd (Option.some.inj same).symm different
    · contradiction

theorem Legal.quiet (invariant : Invariant image state) (quiet : effect.Quiet)
    (locks : effect.Locks (state.harts hart))
    (owned : effect.hart.owned = (state.harts hart).owned)
    (chosen : effect.hart.chosen = (state.harts hart).chosen)
    (ok : effect.hart.Ok state.cells) : Legal image state hart effect where
  move := by
    rw [quiet.cells]
    exact .keep (HartState.right_congr owned chosen) (fun _ _ => rfl) ok
  processesLock := locks.processesLock
  trapPrintLock := locks.trapPrintLock
  mine := by
    rw [quiet.events]
    simp
  writes := by
    rw [quiet.process]
    simp
  owns slot := by
    rw [quiet.history, owned]
    exact invariant.owns hart slot
  sound := by
    rw [quiet.events]
    trivial

/-- As `Legal.quiet`, with the rights and the assertion read off the control point. -/
theorem Legal.quietAt (invariant : Invariant image state)
    {control : Control image.target} (before : (state.harts hart).control = control)
    (quiet : effect.Quiet)
    (processesLock : effect.processesLock.Legal control.holdsProcessesLock
      effect.hart.control.holdsProcessesLock)
    (trapPrintLock : effect.trapPrintLock.Legal control.holdsTrapPrintLock
      effect.hart.control.holdsTrapPrintLock)
    (owned : effect.hart.owned = { state.harts hart with control := control }.owned)
    (chosen : effect.hart.chosen =
      { state.harts hart with control := control }.chosen)
    (ok : { state.harts hart with control := control }.Ok state.cells →
      effect.hart.Ok state.cells) : Legal image state hart effect := by
  subst before
  exact .quiet invariant quiet ⟨processesLock, trapPrintLock⟩ owned chosen
    (ok (invariant.ok hart))

theorem Legal.take (invariant : Invariant image state) (quiet : effect.Quiet)
    (locks : effect.Locks (state.harts hart))
    (owned : effect.hart.owned = (state.harts hart).owned)
    (nothing : (state.harts hart).chosen = none)
    (chosen : effect.hart.chosen = some slot)
    (nobody : ∀ other, ¬(state.harts other).Right slot)
    (ok : effect.hart.Ok state.cells) : Legal image state hart effect where
  move := by
    rw [quiet.cells]
    apply Move.take slot ?_ nobody ok
    intro other
    have same : some slot = some other ↔ other = slot := by
      rw [Option.some.injEq, eq_comm]
    change (_ ∨ _) ↔ (_ ∨ _) ∨ _
    rw [owned, nothing, chosen, same]
    simp
  processesLock := locks.processesLock
  trapPrintLock := locks.trapPrintLock
  mine := by
    rw [quiet.events]
    simp
  writes := by
    rw [quiet.process]
    simp
  owns index := by
    rw [quiet.history, owned]
    exact invariant.owns hart index
  sound := by
    rw [quiet.events]
    trivial

theorem Legal.keep (right : (state.harts hart).Right slot)
    (touches : effect.Touches hart slot)
    (locks : effect.Locks (state.harts hart))
    (rights : ∀ index, effect.hart.Right index ↔ (state.harts hart).Right index)
    (owns : ∀ index, (effect.history state).owns hart index ↔
      effect.hart.owned = some index)
    (sound : Sound History.record (Admits image) state.history effect.events)
    (ok : effect.hart.Ok (effect.cells state)) : Legal image state hart effect where
  move := by
    apply Move.keep rights ?_ ok
    intro index notHere
    apply touches.cells_of_ne
    intro same
    rw [same] at notHere
    exact notHere right
  processesLock := locks.processesLock
  trapPrintLock := locks.trapPrintLock
  mine := touches.mine
  writes index process written := by
    rw [touches.process index process written]
    exact right
  owns := owns
  sound := sound

theorem Legal.work (invariant : Invariant image state)
    (right : (state.harts hart).Right slot) (touches : effect.Touches hart slot)
    (quiet : ∀ event ∈ effect.events, ¬event.IsStore)
    (locks : effect.Locks (state.harts hart))
    (owned : effect.hart.owned = (state.harts hart).owned)
    (chosen : effect.hart.chosen = (state.harts hart).chosen)
    (sound : Sound History.record (Admits image) state.history effect.events)
    (ok : effect.hart.Ok (effect.cells state)) : Legal image state hart effect := by
  apply Legal.keep right touches locks (HartState.right_congr owned chosen) ?_
    sound ok
  intro index
  rw [Effect.history, History.foldl_owns_of_not_store quiet, owned]
  exact invariant.owns hart index

theorem Legal.give (right : (state.harts hart).Right slot)
    (touches : effect.Touches hart slot)
    (locks : effect.Locks (state.harts hart))
    (fewer : ∀ index, effect.hart.Right index ↔
      (state.harts hart).Right index ∧ index ≠ slot)
    (owns : ∀ index, (effect.history state).owns hart index ↔
      effect.hart.owned = some index)
    (sound : Sound History.record (Admits image) state.history effect.events)
    (free : Waiting image slot (effect.cells state slot))
    (ok : effect.hart.Ok (effect.cells state)) : Legal image state hart effect where
  move := by
    apply Move.give slot fewer ?_ free ok
    intro index notHere
    apply touches.cells_of_ne
    intro same
    rw [same] at notHere
    exact notHere right
  processesLock := locks.processesLock
  trapPrintLock := locks.trapPrintLock
  mine := touches.mine
  writes index process written := by
    rw [touches.process index process written]
    exact right
  owns := owns
  sound := sound

end Thos.Scheduling
