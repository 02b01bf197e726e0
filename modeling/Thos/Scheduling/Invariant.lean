import Thos.Scheduling.Discipline

namespace Thos.Scheduling

open Data.Ownership
open Data.Trace

/-! The invariant of the machine, and what a step has to meet to keep it. -/

variable {Hart : Type} {image : Image}

namespace Event

def slot {target : Target} : Event Hart target → Nat
  | stored _ slot _ => slot
  | accessed _ slot => slot
  | created slot _ _ => slot
  | trapped slot _ => slot
  | saved slot _ => slot
  | restored slot _ => slot
  | resumed slot _ _ => slot
  | printed slot _ _ => slot
  | wiped slot => slot

def By {target : Target} (hart : Hart) : Event Hart target → Prop
  | stored other _ _ => other = hart
  | accessed other _ => other = hart
  | _ => True

def IsStore {target : Target} : Event Hart target → Prop
  | stored _ _ _ => True
  | _ => False

end Event

namespace History

variable {target : Target} {history : History Hart target} {slot : Nat}

theorem record_context_of_ne {event : Event Hart target}
    (different : slot ≠ event.slot) :
    (history.record event).context slot = history.context slot := by
  cases event with
  | created index arguments frame => exact Function.update_of_ne different ..
  | trapped index trap => exact Function.update_of_ne different ..
  | _ => rfl

theorem record_saved_of_ne {event : Event Hart target}
    (different : slot ≠ event.slot) :
    (history.record event).saved slot = history.saved slot := by
  cases event with
  | created index arguments frame => exact Function.update_of_ne different ..
  | saved index frame => exact Function.update_of_ne different ..
  | _ => rfl

theorem record_owns_of_not_store {event : Event Hart target}
    (quiet : ¬event.IsStore) : (history.record event).owns = history.owns := by
  cases event with
  | stored hart index state => exact absurd trivial quiet
  | _ => rfl

theorem record_owns_of_ne {event : Event Hart target} {hart other : Hart}
    (mine : event.By hart) (different : other ≠ hart) :
    (history.record event).owns other slot ↔ history.owns other slot := by
  cases event with
  | stored storing index state =>
      have storing : storing = hart := mine
      subst storing
      simp [record, store, different]
  | _ => rfl

theorem foldl_context_of_ne {events : List (Event Hart target)}
    (different : ∀ event ∈ events, slot ≠ event.slot) :
    (events.foldl record history).context slot = history.context slot :=
  foldl_unchanged (fun before : History Hart target => before.context slot)
    fun event member _ => record_context_of_ne (different event member)

theorem foldl_saved_of_ne {events : List (Event Hart target)}
    (different : ∀ event ∈ events, slot ≠ event.slot) :
    (events.foldl record history).saved slot = history.saved slot :=
  foldl_unchanged (fun before : History Hart target => before.saved slot)
    fun event member _ => record_saved_of_ne (different event member)

theorem foldl_owns_of_not_store {events : List (Event Hart target)}
    (quiet : ∀ event ∈ events, ¬event.IsStore) :
    (events.foldl record history).owns = history.owns :=
  foldl_unchanged owns fun event member _ =>
    record_owns_of_not_store (quiet event member)

theorem foldl_owns_of_ne {events : List (Event Hart target)} {hart other : Hart}
    (mine : ∀ event ∈ events, event.By hart) (different : other ≠ hart) :
    (events.foldl record history).owns other slot ↔ history.owns other slot :=
  Iff.of_eq <|
    foldl_unchanged (fun before : History Hart target => before.owns other slot)
      fun event member _ => propext (record_owns_of_ne (mine event member) different)

end History

def State.history (state : State Hart image.target) : History Hart image.target :=
  History.ofTrace state.trace

def State.cells (state : State Hart image.target) : Cells image.target :=
  fun slot =>
    ⟨state.processes slot, state.history.context slot, state.history.saved slot⟩

structure Invariant (image : Image) (state : State Hart image.target) : Prop where
  safe : Safe (discipline image) state.harts state.cells
  processesLock : Guards HartState.HoldsProcessesLock state.harts state.processesLock
  trapPrintLock : Guards HartState.HoldsTrapPrintLock state.harts state.trapPrintLock
  owns : ∀ hart slot, state.history.owns hart slot ↔
    (state.harts hart).owned = some slot
  sound : Sound History.record (Admits image) History.start state.trace

namespace Effect

variable (effect : Effect Hart image.target) (state : State Hart image.target)

def history : History Hart image.target :=
  effect.events.foldl History.record state.history

def cells : Cells image.target :=
  fun slot =>
    ⟨effect.processes state.processes slot, (effect.history state).context slot,
    (effect.history state).saved slot⟩

end Effect

def LockUse.Legal (use : LockUse) (before after : Bool) : Prop :=
  match use with
  | .keep => after = before
  | .acquire => after = true
  | .release => before = true ∧ after = false

structure Legal (image : Image) (state : State Hart image.target) (hart : Hart)
    (effect : Effect Hart image.target) : Prop where
  move : Move (discipline image) state.harts state.cells (effect.cells state) hart
    effect.hart
  processesLock : effect.processesLock.Legal
    (state.harts hart).control.holdsProcessesLock
      effect.hart.control.holdsProcessesLock
  trapPrintLock : effect.trapPrintLock.Legal
    (state.harts hart).control.holdsTrapPrintLock
      effect.hart.control.holdsTrapPrintLock
  mine : ∀ event ∈ effect.events, event.By hart
  writes : ∀ slot process, effect.process = some (slot, process) →
    (state.harts hart).Right slot
  owns : ∀ slot, (effect.history state).owns hart slot ↔
    effect.hart.owned = some slot
  sound : Sound History.record (Admits image) state.history effect.events

theorem LockUse.Legal.guards [DecidableEq Hart] {use : LockUse}
    {holds : HartState image.target → Bool} {harts : Hart → HartState image.target}
    {hart : Hart} {next : HartState image.target} {lock after : Option Hart}
    (legal : use.Legal (holds (harts hart)) (holds next))
    (guards : Guards (fun here => holds here = true) harts lock)
    (applied : use.apply hart lock = some after) :
    Guards (fun here => holds here = true) (Function.update harts hart next)
      after := by
  cases use with
  | keep =>
      cases applied
      apply guards.keep
      have same : holds next = holds (harts hart) := legal
      rw [same]
  | acquire =>
      rw [LockUse.apply, Option.ite_none_right_eq_some] at applied
      obtain ⟨free, same⟩ := applied
      cases same
      rw [Option.isNone_iff_eq_none.mp free] at guards
      exact guards.acquire legal
  | release =>
      cases applied
      apply guards.release legal.1
      rw [Bool.not_eq_true]
      exact legal.2

theorem Effect.history_apply [DecidableEq Hart]
    {state after : State Hart image.target}
    {hart : Hart} {effect : Effect Hart image.target}
    (applied : effect.apply hart state = some after) :
    after.history = effect.history state := by
  obtain ⟨-, -, -, -, trace⟩ := apply_eq_some applied
  rw [State.history, History.ofTrace, trace, List.foldl_append]
  rfl

theorem Effect.cells_apply [DecidableEq Hart] {state after : State Hart image.target}
    {hart : Hart} {effect : Effect Hart image.target}
    (applied : effect.apply hart state = some after) :
    after.cells = effect.cells state := by
  obtain ⟨-, -, -, processes, -⟩ := apply_eq_some applied
  funext slot
  rw [State.cells, cells, processes, history_apply applied]

theorem Invariant.apply [DecidableEq Hart] {state after : State Hart image.target}
    {hart : Hart} {effect : Effect Hart image.target}
    (invariant : Invariant image state) (legal : Legal image state hart effect)
    (applied : effect.apply hart state = some after) : Invariant image after := by
  have history := Effect.history_apply applied
  obtain ⟨processesUsed, trapUsed, harts, -, trace⟩ :=
    Effect.apply_eq_some applied
  constructor
  · rw [harts, Effect.cells_apply applied]
    exact invariant.safe.move legal.move
  · rw [harts]
    exact legal.processesLock.guards invariant.processesLock processesUsed
  · rw [harts]
    exact legal.trapPrintLock.guards invariant.trapPrintLock trapUsed
  · intro other slot
    rw [history, harts]
    by_cases same : other = hart
    · rw [same, Function.update_self]
      exact legal.owns slot
    · rw [Function.update_of_ne same, ← invariant.owns other slot]
      exact History.foldl_owns_of_ne legal.mine same
  · rw [trace]
    exact (sound_append state.trace effect.events).mpr
      ⟨invariant.sound, legal.sound⟩

end Thos.Scheduling
