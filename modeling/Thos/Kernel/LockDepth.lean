import Mathlib.Algebra.Group.Nat.Defs
import Mathlib.Data.List.Nodup
import Thos.Kernel.Hart

namespace Thos.Kernel.Hart

open Data.Transition

/-! What the lock depth of a hart says about its locks and its enable bit. -/

variable {Hart Lock : Type}

/-- What interrupted code is in: no call, or the entry of one. -/
def Point.Interruptible : Point Lock → Prop
  | .between => True
  | .acquiring _ sieBefore => sieBefore = true
  | .currentProcess sieBefore => sieBefore = true
  | _ => False

namespace HartState

variable (here : HartState Lock)

/-- The lock that a call is counted for but is not held. -/
def pending : Nat :=
  match here.point with
  | .spinning _ => 1
  | .released => 1
  | _ => 0

def locks : Nat := here.held.length + here.pending

def AtPoint : Prop :=
  match here.point with
  | .between => True
  | .acquiring _ sieBefore => here.locking.sie = sieBefore
  | .disabled _ sieBefore wereInterruptsEnabled => here.locking.sie = false ∧
      wereInterruptsEnabled = sieBefore
  | .spinning _ => True
  | .releasing lock => lock ∈ here.held
  | .released => True
  | .restoring => here.locking.sie = false ∧
      here.locking.interruptsBeforeLocking = here.sieOutermost
  | .currentProcess sieBefore => here.locking.sie = sieBefore
  | .reading sieBefore enabledBefore => here.locking.sie = false ∧
      enabledBefore = sieBefore ∧ (sieBefore = true → here.held = [])
  | .panicked => False

structure Ok : Prop where
  lockDepth : here.locking.lockDepth.toNat = here.locks
  masked : 0 < here.locks → here.locking.sie = false
  saved : 0 < here.locks → here.locking.interruptsBeforeLocking = here.sieOutermost
  atPoint : here.AtPoint
  nodup : here.held.Nodup

variable {here : HartState Lock}

namespace Ok

variable (ok : here.Ok)

include ok

theorem lockDepth_eq_zero : here.locking.lockDepth = 0 ↔ here.locks = 0 := by
  rw [← ok.lockDepth, ← UInt32.toNat_inj]
  rfl

theorem interruptible (enabled : here.locking.sie = true) :
    here.locks = 0 ∧ here.point.Interruptible := by
  have none : here.locks = 0 := by
    by_contra some
    have masked := ok.masked (Nat.pos_of_ne_zero some)
    rw [enabled] at masked
    contradiction
  have atPoint := ok.atPoint
  unfold AtPoint at atPoint
  refine ⟨none, ?_⟩
  cases point : here.point with
  | between => trivial
  | acquiring lock sieBefore =>
      rw [point] at atPoint
      exact atPoint.symm.trans enabled
  | currentProcess sieBefore =>
      rw [point] at atPoint
      exact atPoint.symm.trans enabled
  | spinning lock => simp [locks, pending, point] at none
  | released => simp [locks, pending, point] at none
  | releasing lock =>
      rw [point] at atPoint
      rw [locks, Nat.add_eq_zero_iff, List.length_eq_zero_iff] at none
      rw [none.1] at atPoint
      exact absurd atPoint List.not_mem_nil
  | panicked =>
      rw [point] at atPoint
      exact atPoint.elim
  | disabled lock sieBefore wereInterruptsEnabled =>
      rw [point, enabled] at atPoint
      exact absurd atPoint.1 (by simp)
  | restoring =>
      rw [point, enabled] at atPoint
      exact absurd atPoint.1 (by simp)
  | reading sieBefore enabledBefore =>
      rw [point, enabled] at atPoint
      exact absurd atPoint.1 (by simp)

theorem move {next : HartState Lock} (locks : next.locks = here.locks)
    (lockDepth : next.locking.lockDepth = here.locking.lockDepth)
    (before : next.locking.interruptsBeforeLocking =
      here.locking.interruptsBeforeLocking)
    (outermost : next.sieOutermost = here.sieOutermost)
    (masked : 0 < here.locks → next.locking.sie = false)
    (atPoint : next.AtPoint) (nodup : next.held.Nodup) : next.Ok where
  lockDepth := by rw [lockDepth, locks, ok.lockDepth]
  masked := by
    rw [locks]
    exact masked
  saved := by
    rw [locks, before, outermost]
    exact ok.saved
  atPoint := atPoint
  nodup := nodup

theorem count {lock : Lock} {sieBefore wereInterruptsEnabled : Bool}
    (point : here.point = .disabled lock sieBefore wereInterruptsEnabled)
    (few : here.held.length + 1 < 2 ^ 32) :
    HartState.Ok { here with
      point := .spinning lock
      locking := here.locking.countLock wereInterruptsEnabled
      sieOutermost := if here.held = [] then sieBefore else here.sieOutermost } := by
  have pending : here.locks = here.held.length := by
    simp [locks, HartState.pending, point]
  have atPoint := ok.atPoint
  rw [AtPoint, point] at atPoint
  obtain ⟨masked, same⟩ := atPoint
  constructor
  · change (here.locking.lockDepth + 1).toNat = here.held.length + 1
    rw [UInt32.toNat_add, ok.lockDepth, pending]
    exact Nat.mod_eq_of_lt few
  · intro _
    exact masked
  · intro _
    have zero := ok.lockDepth_eq_zero
    rw [pending, List.length_eq_zero_iff] at zero
    by_cases nothing : here.held = []
    · simp [Locking.countLock, zero.mpr nothing, nothing, same]
    · have positive : 0 < here.locks := by
        rw [pending]
        exact List.length_pos_of_ne_nil nothing
      have nonzero : here.locking.lockDepth ≠ 0 := fun equal =>
        nothing (zero.mp equal)
      simp [Locking.countLock, nonzero, nothing, ok.saved positive]
  · trivial
  · exact ok.nodup

theorem discount (point : here.point = .released) :
    ∃ locking, here.locking.discountLock = .ok locking ∧
      HartState.Ok { here with point := .restoring, locking := locking } := by
  have pending : here.locks = here.held.length + 1 := by
    simp [locks, HartState.pending, point]
  have positive : 0 < here.locks := by
    rw [pending]
    exact Nat.succ_pos _
  have nonzero : here.locking.lockDepth ≠ 0 := by
    intro zero
    rw [ok.lockDepth_eq_zero.mp zero] at positive
    contradiction
  have masked := ok.masked positive
  have saved := ok.saved positive
  refine ⟨{ here.locking with lockDepth := here.locking.lockDepth - 1 },
    if_neg nonzero, ?_, fun _ => masked, fun _ => saved, ⟨masked, saved⟩, ok.nodup⟩
  have above : (1 : UInt32) ≤ here.locking.lockDepth := by
    rw [UInt32.le_iff_toNat_le, ok.lockDepth]
    exact positive
  change (here.locking.lockDepth - 1).toNat = here.held.length
  rw [UInt32.toNat_sub_of_le _ _ above, ok.lockDepth, pending]
  rfl

theorem restore (point : here.point = .restoring) :
    HartState.Ok { here with
      point := .between, locking := here.locking.restoreTraps } ∧
      (here.locking.restoreTraps.lockDepth = 0 →
        here.locking.restoreTraps.sie = here.sieOutermost) := by
  have pending : here.locks = here.held.length := by
    simp [locks, HartState.pending, point]
  have zero := ok.lockDepth_eq_zero
  have atPoint := ok.atPoint
  rw [AtPoint, point] at atPoint
  obtain ⟨masked, saved⟩ := atPoint
  have depth : here.locking.restoreTraps.lockDepth = here.locking.lockDepth := by
    unfold Locking.restoreTraps
    split <;> rfl
  have before : here.locking.restoreTraps.interruptsBeforeLocking =
      here.locking.interruptsBeforeLocking := by
    unfold Locking.restoreTraps
    split <;> rfl
  constructor
  · refine ok.move pending.symm depth before rfl ?_ trivial ok.nodup
    intro positive
    have nonzero : here.locking.lockDepth ≠ 0 := by
      intro equal
      rw [zero.mp equal] at positive
      contradiction
    simp [Locking.restoreTraps, nonzero, masked]
  · intro none
    rw [depth] at none
    rw [← saved]
    cases enabled : here.locking.interruptsBeforeLocking with
    | true => simp [Locking.restoreTraps, none, enabled, Locking.enableTrapsNow]
    | false => simp [Locking.restoreTraps, none, enabled, masked]

theorem read {sieBefore enabledBefore : Bool}
    (point : here.point = .reading sieBefore enabledBefore) :
    HartState.Ok { here with
      point := .between
      locking := if enabledBefore then here.locking.enableTrapsNow
        else here.locking } := by
  have pending : here.locks = here.held.length := by
    simp [locks, HartState.pending, point]
  have atPoint := ok.atPoint
  rw [AtPoint, point] at atPoint
  obtain ⟨masked, same, nothing⟩ := atPoint
  cases enabled : enabledBefore with
  | false => exact ok.move pending.symm rfl rfl rfl ok.masked trivial ok.nodup
  | true =>
      refine ok.move pending.symm rfl rfl rfl ?_ trivial ok.nodup
      intro positive
      rw [pending, nothing (same.symm.trans enabled)] at positive
      contradiction

theorem resume {resumed : Point Lock} (point : here.point = .between)
    (nothing : here.held = []) (interruptible : resumed.Interruptible) :
    HartState.Ok { here with
      point := resumed
      locking := here.locking.enableTrapsNow
      inHandler := false } := by
  have none : here.locks = 0 := by
    simp [locks, HartState.pending, point, nothing]
  refine ok.move ?_ rfl rfl rfl ?_ ?_ ok.nodup
  · rw [none]
    cases resumed with
    | between => simp [locks, HartState.pending, nothing]
    | acquiring lock sieBefore => simp [locks, HartState.pending, nothing]
    | currentProcess sieBefore => simp [locks, HartState.pending, nothing]
    | _ => exact interruptible.elim
  · intro positive
    rw [none] at positive
    contradiction
  · cases resumed with
    | between => trivial
    | acquiring lock sieBefore => exact interruptible.symm
    | currentProcess sieBefore => exact interruptible.symm
    | _ => exact interruptible.elim

end Ok

end HartState

structure Invariant (state : State Hart Lock) : Prop where
  ok : ∀ hart, (state.harts hart).Ok
  owner : ∀ hart lock, state.owner lock = some hart ↔
    lock ∈ (state.harts hart).held
  suspended : ∀ point ∈ state.suspended, point.Interruptible

section

variable {state after : State Hart Lock} {hart : Hart}

theorem Start.invariant (starts : Start state) : Invariant state := by
  constructor
  · intro hart
    obtain ⟨point, lockDepth, _, held⟩ := starts.harts hart
    have locks : (state.harts hart).locks = 0 := by
      simp [HartState.locks, HartState.pending, point, held]
    constructor
    · rw [lockDepth, locks]
      rfl
    · intro positive
      rw [locks] at positive
      contradiction
    · intro positive
      rw [locks] at positive
      contradiction
    · rw [HartState.AtPoint, point]
      trivial
    · rw [held]
      exact List.nodup_nil
  · intro hart lock
    rw [starts.owner, (starts.harts hart).2.2.2]
    simp
  · rw [starts.suspended]
    simp

variable [DecidableEq Hart]

@[simp] theorem setHart_self (state : State Hart Lock) (hart : Hart)
    (here : HartState Lock) : (state.setHart hart here).harts hart = here :=
  Function.update_self ..

theorem setHart_of_ne (state : State Hart Lock) {hart other : Hart}
    (here : HartState Lock) (different : other ≠ hart) :
    (state.setHart hart here).harts other = state.harts other :=
  Function.update_of_ne different ..

namespace Invariant

variable (invariant : Invariant state)

include invariant

omit [DecidableEq Hart] in
theorem withSuspended {points : List (Point Lock)}
    (interruptible : ∀ point ∈ points, point.Interruptible) :
    Invariant { state with suspended := points } :=
  ⟨invariant.ok, invariant.owner, interruptible⟩

theorem setHart {next : HartState Lock} (held : next.held = (state.harts hart).held)
    (ok : next.Ok) : Invariant (state.setHart hart next) := by
  constructor
  · intro other
    by_cases same : other = hart
    · rw [same, setHart_self]
      exact ok
    · rw [setHart_of_ne state next same]
      exact invariant.ok other
  · intro other lock
    by_cases same : other = hart
    · rw [same, setHart_self, held]
      exact invariant.owner hart lock
    · rw [setHart_of_ne state next same]
      exact invariant.owner other lock
  · exact invariant.suspended

variable [DecidableEq Lock]

theorem take {lock : Lock} (point : (state.harts hart).point = .spinning lock)
    (free : state.owner lock = none) :
    Invariant (State.setHart
      { state with owner := Function.update state.owner lock (some hart) } hart
      { state.harts hart with
        point := .between, held := lock :: (state.harts hart).held }) := by
  have notHeld : ∀ other, lock ∉ (state.harts other).held := by
    intro other member
    rw [← invariant.owner other lock, free] at member
    contradiction
  have ok := invariant.ok hart
  have positive : 0 < (state.harts hart).locks := by
    simp [HartState.locks, HartState.pending, point]
  have locks : (state.harts hart).locks = (state.harts hart).held.length + 1 := by
    simp [HartState.locks, HartState.pending, point]
  constructor
  · intro other
    by_cases same : other = hart
    · rw [same, setHart_self]
      exact ok.move locks.symm rfl rfl rfl ok.masked trivial
        (List.nodup_cons.mpr ⟨notHeld hart, ok.nodup⟩)
    · rw [setHart_of_ne _ _ same]
      exact invariant.ok other
  · intro other index
    change Function.update state.owner lock (some hart) index = some other ↔ _
    by_cases here : index = lock
    · rw [here, Function.update_self]
      by_cases same : other = hart
      · simp [same]
      · rw [setHart_of_ne _ _ same, Option.some.injEq]
        exact ⟨fun equal => absurd equal.symm same,
          fun member => absurd member (notHeld other)⟩
    · rw [Function.update_of_ne here, invariant.owner other index]
      by_cases same : other = hart
      · simp [same, here]
      · rw [setHart_of_ne _ _ same]
  · exact invariant.suspended

theorem free {lock : Lock} (point : (state.harts hart).point = .releasing lock) :
    Invariant (State.setHart
      { state with owner := Function.update state.owner lock none } hart
      { state.harts hart with
        point := .released, held := (state.harts hart).held.erase lock }) := by
  have ok := invariant.ok hart
  have member : lock ∈ (state.harts hart).held := by
    have atPoint := ok.atPoint
    rwa [HartState.AtPoint, point] at atPoint
  have owned := (invariant.owner hart lock).mpr member
  have locks : (state.harts hart).locks = (state.harts hart).held.length := by
    simp [HartState.locks, HartState.pending, point]
  constructor
  · intro other
    by_cases same : other = hart
    · rw [same, setHart_self]
      refine ok.move ?_ rfl rfl rfl ok.masked trivial (ok.nodup.erase lock)
      rw [locks]
      change ((state.harts hart).held.erase lock).length + 1 = _
      rw [List.length_erase_of_mem member]
      exact Nat.sub_add_cancel (List.length_pos_of_mem member)
    · rw [setHart_of_ne _ _ same]
      exact invariant.ok other
  · intro other index
    change Function.update state.owner lock none index = some other ↔ _
    by_cases here : index = lock
    · rw [here, Function.update_self]
      by_cases same : other = hart
      · simp [same, ok.nodup.not_mem_erase]
      · rw [setHart_of_ne _ _ same, ← invariant.owner other lock, owned]
        exact ⟨by simp, fun equal => absurd (Option.some.inj equal).symm same⟩
    · rw [Function.update_of_ne here, invariant.owner other index]
      by_cases same : other = hart
      · rw [same, setHart_self]
        exact (List.mem_erase_of_ne here).symm
      · rw [setHart_of_ne _ _ same]
  · exact invariant.suspended

end Invariant

variable [DecidableEq Lock]

def Point.isDisabled : Point Lock → Bool
  | .disabled _ _ _ => true
  | _ => false

def FewLocks (state : State Hart Lock) : Action Hart Lock → Prop
  | .advance hart => (state.harts hart).point.isDisabled = true →
      (state.harts hart).held.length + 1 < 2 ^ 32
  | _ => True

omit [DecidableEq Hart] [DecidableEq Lock] in
instance (state : State Hart Lock) (action : Action Hart Lock) :
    Decidable (FewLocks state action) :=
  match action with
  | .advance _ => inferInstanceAs (Decidable (_ → _))
  | .acquire _ _ => inferInstanceAs (Decidable True)
  | .release _ _ => inferInstanceAs (Decidable True)
  | .currentProcess _ => inferInstanceAs (Decidable True)
  | .interrupt _ => inferInstanceAs (Decidable True)
  | .sret _ _ => inferInstanceAs (Decidable True)

theorem Invariant.of_advance (invariant : Invariant state)
    (few : FewLocks state (.advance hart))
    (stepped : advance state hart = some after) : Invariant after := by
  have ok := invariant.ok hart
  have atPoint := ok.atPoint
  simp only [advance] at stepped
  unfold HartState.AtPoint at atPoint
  cases point : (state.harts hart).point with
  | between =>
      rw [point] at stepped
      contradiction
  | panicked =>
      rw [point] at stepped
      contradiction
  | acquiring lock sieBefore =>
      rw [point] at stepped atPoint
      cases stepped
      refine invariant.setHart rfl ?_
      refine ok.move ?_ rfl rfl rfl (fun _ => rfl) ⟨rfl, atPoint⟩ ok.nodup
      simp [HartState.locks, HartState.pending, point]
  | disabled lock sieBefore wereInterruptsEnabled =>
      rw [point] at stepped
      cases stepped
      refine invariant.setHart rfl ?_
      apply ok.count point
      apply few
      rw [point]
      rfl
  | spinning lock =>
      rw [point, Option.ite_none_right_eq_some] at stepped
      obtain ⟨free, same⟩ := stepped
      cases same
      exact invariant.take point free
  | releasing lock =>
      rw [point] at stepped
      cases stepped
      exact invariant.free point
  | released =>
      obtain ⟨locking, discounts, next⟩ := ok.discount point
      rw [point, discounts] at stepped
      cases stepped
      exact invariant.setHart rfl next
  | restoring =>
      rw [point] at stepped
      cases stepped
      exact invariant.setHart rfl (ok.restore point).1
  | currentProcess sieBefore =>
      rw [point] at stepped atPoint
      cases stepped
      refine invariant.setHart rfl ?_
      refine ok.move ?_ rfl rfl rfl (fun _ => rfl) ⟨rfl, atPoint, ?_⟩ ok.nodup
      · simp [HartState.locks, HartState.pending, point]
      · intro enabled
        have none := (ok.interruptible (atPoint.trans enabled)).1
        exact List.length_eq_zero_iff.mp (Nat.add_eq_zero_iff.mp none).1
  | reading sieBefore enabledBefore =>
      rw [point] at stepped
      cases stepped
      refine invariant.setHart rfl ?_
      exact ok.read point

theorem Invariant.of_step {action : Action Hart Lock} (invariant : Invariant state)
    (few : FewLocks state action) (stepped : step state action = some after) :
    Invariant after := by
  cases action with
  | advance hart => exact invariant.of_advance few stepped
  | acquire hart lock =>
      obtain ⟨point, same⟩ := Option.ite_none_right_eq_some.mp stepped
      cases same
      have ok := invariant.ok hart
      refine invariant.setHart rfl ?_
      refine ok.move ?_ rfl rfl rfl ok.masked rfl ok.nodup
      simp [HartState.locks, HartState.pending, point]
  | release hart lock =>
      obtain ⟨⟨point, member⟩, same⟩ := Option.ite_none_right_eq_some.mp stepped
      cases same
      have ok := invariant.ok hart
      refine invariant.setHart rfl ?_
      refine ok.move ?_ rfl rfl rfl ok.masked member ok.nodup
      simp [HartState.locks, HartState.pending, point]
  | currentProcess hart =>
      obtain ⟨point, same⟩ := Option.ite_none_right_eq_some.mp stepped
      cases same
      have ok := invariant.ok hart
      refine invariant.setHart rfl ?_
      refine ok.move ?_ rfl rfl rfl ok.masked rfl ok.nodup
      simp [HartState.locks, HartState.pending, point]
  | interrupt hart =>
      obtain ⟨enabled, same⟩ := Option.ite_none_right_eq_some.mp stepped
      cases same
      have ok := invariant.ok hart
      obtain ⟨none, interruptible⟩ := ok.interruptible enabled
      refine (invariant.withSuspended ?_).setHart ?_ ?_
      · intro point member
        cases List.mem_cons.mp member with
        | inl same =>
            rw [same]
            exact interruptible
        | inr earlier => exact invariant.suspended point earlier
      · rfl
      · refine ok.move ?_ rfl rfl rfl (fun _ => rfl) trivial ok.nodup
        rw [none]
        exact (Nat.add_eq_zero_iff.mp none).1
  | sret hart resumed =>
      obtain ⟨⟨_, point, nothing, known⟩, same⟩ :=
        Option.ite_none_right_eq_some.mp stepped
      cases same
      have ok := invariant.ok hart
      have interruptible : resumed.Interruptible := by
        cases known with
        | inl fresh =>
            rw [fresh]
            trivial
        | inr member => exact invariant.suspended resumed member
      refine (invariant.withSuspended ?_).setHart ?_ ?_
      · intro other member
        exact invariant.suspended other (List.mem_of_mem_erase member)
      · rfl
      · exact ok.resume point nothing interruptible

theorem Invariant.of_reachable
    (reachable : ((system Hart Lock).restrict FewLocks).Reachable state) :
    Invariant state := by
  refine reachable.invariant Invariant ?_ ?_
  · intro start starts
    exact starts.invariant
  · intro before action after invariant stepped
    exact invariant.of_step stepped.1 stepped.2

structure Disciplined (state : State Hart Lock) (hart : Hart) : Prop where
  held : ∀ lock, state.owner lock = some hart ↔ lock ∈ (state.harts hart).held
  nodup : (state.harts hart).held.Nodup
  between : (state.harts hart).point = .between →
    (state.harts hart).locking.lockDepth.toNat = (state.harts hart).held.length
  lockDepth : (state.harts hart).locking.lockDepth.toNat = (state.harts hart).locks
  masked : (state.harts hart).locking.lockDepth ≠ 0 →
    (state.harts hart).locking.sie = false
  noHandler : ∀ after, step state (.interrupt hart) = some after →
    (state.harts hart).locking.lockDepth = 0
  restores : ∀ after, (state.harts hart).point = .restoring →
    advance state hart = some after →
      (after.harts hart).locking.lockDepth = 0 →
        (after.harts hart).locking.sie = (state.harts hart).sieOutermost
  currentProcess : ∀ sieBefore enabledBefore after,
    (state.harts hart).point = .reading sieBefore enabledBefore →
      advance state hart = some after →
        (after.harts hart).locking.sie = sieBefore
  noPanic : (state.harts hart).point ≠ .panicked

theorem Invariant.disciplined (invariant : Invariant state) (hart : Hart) :
    Disciplined state hart := by
  have ok := invariant.ok hart
  have atPoint := ok.atPoint
  unfold HartState.AtPoint at atPoint
  refine ⟨invariant.owner hart, ok.nodup, ?_, ok.lockDepth, ?_, ?_, ?_, ?_, ?_⟩
  · intro point
    rw [ok.lockDepth]
    simp [HartState.locks, HartState.pending, point]
  · intro nonzero
    apply ok.masked
    apply Nat.pos_of_ne_zero
    intro none
    exact nonzero (ok.lockDepth_eq_zero.mpr none)
  · intro after stepped
    obtain ⟨enabled, _⟩ := Option.ite_none_right_eq_some.mp stepped
    exact ok.lockDepth_eq_zero.mpr (ok.interruptible enabled).1
  · intro after point stepped outermost
    simp only [advance, point] at stepped
    cases stepped
    rw [setHart_self] at outermost ⊢
    exact (ok.restore point).2 outermost
  · intro sieBefore enabledBefore after point stepped
    rw [point] at atPoint
    obtain ⟨masked, same, _⟩ := atPoint
    simp only [advance, point] at stepped
    cases stepped
    rw [setHart_self, ← same]
    cases enabledBefore with
    | true => rfl
    | false => exact masked
  · intro point
    rw [point] at atPoint
    exact atPoint

/-- A hart that never counts `2 ^ 32` locks, among any number of harts and of
locks. -/
theorem lock_depth_counts_locks
    (reachable : ((system Hart Lock).restrict FewLocks).Reachable state)
    (hart : Hart) : Disciplined state hart :=
  (Invariant.of_reachable reachable).disciplined hart

end

def idle (sie : Bool) : State Unit Nat :=
  ⟨fun _ => ⟨.between, ⟨sie, 0, false⟩, false, [], false⟩, fun _ => none, []⟩

theorem idle_start (sie : Bool) : Start (idle sie) :=
  ⟨fun _ => ⟨rfl, rfl, rfl, rfl⟩, fun _ => rfl, rfl⟩

/-- An acquire is interrupted at its entry; the handler takes and frees the same
lock, and asks for its current process. -/
def interruptedAcquire : List (Action Unit Nat) :=
  [.acquire () 0, .interrupt (), .acquire () 0, .advance (), .advance (),
    .advance (), .release () 0, .advance (), .advance (), .advance (),
    .currentProcess (), .advance (), .advance (),
    .sret () (.acquiring 0 true), .advance (), .advance (), .advance (),
    .release () 0, .advance (), .advance ()]

theorem lock_depth_counts_locks_sample :
    ∃ state : State Unit Nat, (state.harts ()).point = .restoring ∧
      (state.harts ()).sieOutermost = true ∧ Disciplined state () :=
  ⟨_, rfl, rfl, lock_depth_counts_locks
    (System.Reachable.of_execute_guarded interruptedAcquire
      (.start _ (idle_start true)) rfl) ()⟩

def nested (count : Nat) : State Unit Nat where
  harts := fun _ => ⟨.between, ⟨false, UInt32.ofNat count, false⟩, false,
    (List.range count).reverse, false⟩
  owner := fun lock => if lock < count then some () else none
  suspended := []

theorem nested_reachable (count : Nat) :
    (system Unit Nat).Reachable (nested count) := by
  induction count with
  | zero => exact .start _ (idle_start false)
  | succ count induction =>
      apply System.Reachable.of_execute
        [.acquire () count, .advance (), .advance (), .advance ()] induction
      simp only [execute, step, advance, nested, State.setHart, Function.update_self,
        Function.update_idem, if_true, Option.bind_some, Nat.lt_irrefl, if_false,
        Option.some.injEq, State.mk.injEq, and_true]
      constructor
      · funext hart
        simp [Locking.countLock, Locking.disableTrapsNow, List.range_succ]
        exact ite_self _
      · funext lock
        by_cases same : lock = count
        · simp [same]
        · have order : lock < count + 1 ↔ lock < count := by omega
          simp [same, order]

/-- The counter is back at 0 after `2 ^ 32` locks. -/
theorem lock_depth_wraps :
    ∃ state : State Unit Nat, (system Unit Nat).Reachable state ∧
      (state.harts ()).point = .between ∧
      (state.harts ()).held.length = 2 ^ 32 ∧
      (state.harts ()).locking.lockDepth = 0 := by
  refine ⟨nested (2 ^ 32), nested_reachable _, rfl, ?_, rfl⟩
  rw [nested, List.length_reverse, List.length_range]

end Thos.Kernel.Hart
