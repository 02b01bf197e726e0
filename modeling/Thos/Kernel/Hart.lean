import Thos.Data.Transition
import Thos.Kernel.Outcome

namespace Thos.Kernel

open Data.Transition

/-- The trap enable bit of a hart and its record of the locks it is under. -/
structure Locking where
  /-- `SSTATUS_TRAPS_NOW`. -/
  sie : Bool
  lockDepth : UInt32
  interruptsBeforeLocking : Bool
  deriving DecidableEq, Repr

namespace Locking

def disableTrapsNow (locking : Locking) : Bool × Locking :=
  (locking.sie, { locking with sie := false })

def enableTrapsNow (locking : Locking) : Locking := { locking with sie := true }

def countLock (locking : Locking) (wereInterruptsEnabled : Bool) : Locking :=
  { locking with
    interruptsBeforeLocking :=
      if locking.lockDepth = 0 then wereInterruptsEnabled
      else locking.interruptsBeforeLocking
    lockDepth := locking.lockDepth + 1 }

def preLockAcquire (locking : Locking) : Bool × Locking :=
  let (wereInterruptsEnabled, locking) := locking.disableTrapsNow
  (wereInterruptsEnabled, locking.countLock wereInterruptsEnabled)

def discountLock (locking : Locking) : Outcome Locking :=
  if locking.lockDepth = 0 then .error (.panic "post_lock_release lock_depth was 0")
  else .ok { locking with lockDepth := locking.lockDepth - 1 }

def restoreTraps (locking : Locking) : Locking :=
  if locking.lockDepth = 0 && locking.interruptsBeforeLocking then
    locking.enableTrapsNow
  else locking

def postLockRelease (locking : Locking) : Outcome Locking := do
  let locking ← locking.discountLock
  return locking.restoreTraps

theorem postLockRelease_of_lockDepth {locking : Locking} {depth : UInt32}
    (counted : locking.lockDepth = depth + 1) (nonzero : depth + 1 ≠ 0) :
    locking.postLockRelease =
      .ok { locking with lockDepth := depth }.restoreTraps := by
  have one : depth + 1 - 1 = depth := by
    rw [UInt32.add_sub_cancel]
  rw [postLockRelease, discountLock, counted, if_neg nonzero, one]
  rfl

theorem preLockAcquire_postLockRelease (locking : Locking)
    (nonzero : locking.lockDepth + 1 ≠ 0) :
    locking.preLockAcquire.2.postLockRelease = .ok { locking with
      sie := locking.sie && locking.lockDepth = 0
      interruptsBeforeLocking := if locking.lockDepth = 0 then locking.sie
        else locking.interruptsBeforeLocking } := by
  rw [postLockRelease_of_lockDepth rfl nonzero]
  obtain ⟨sie, lockDepth, before⟩ := locking
  by_cases outermost : lockDepth = 0
  · cases sie <;> simp [restoreTraps, enableTrapsNow, preLockAcquire, disableTrapsNow,
      countLock, outermost]
  · simp [restoreTraps, preLockAcquire, disableTrapsNow, countLock, outermost]

end Locking

namespace Hart

/-! Harts that lock, unlock and are interrupted between any two accesses to
their own state. -/

/-- Where a hart is. `sieBefore` is the enable bit at the entry of the call. -/
inductive Point (Lock : Type) where
  | between
  | acquiring (lock : Lock) (sieBefore : Bool)
  | disabled (lock : Lock) (sieBefore wereInterruptsEnabled : Bool)
  | spinning (lock : Lock)
  | releasing (lock : Lock)
  | released
  | restoring
  | currentProcess (sieBefore : Bool)
  | reading (sieBefore enabledBefore : Bool)
  | panicked
  deriving DecidableEq, Repr

/-- `sieOutermost` is the enable bit at the entry of the outermost acquire; no
step reads it. -/
structure HartState (Lock : Type) where
  point : Point Lock
  locking : Locking
  inHandler : Bool
  held : List Lock
  sieOutermost : Bool

structure State (Hart Lock : Type) where
  harts : Hart → HartState Lock
  owner : Lock → Option Hart
  /-- Where interrupts have stopped code that has not been gone back to. -/
  suspended : List (Point Lock)

inductive Action (Hart Lock : Type) where
  | acquire (hart : Hart) (lock : Lock)
  | release (hart : Hart) (lock : Lock)
  | currentProcess (hart : Hart)
  | advance (hart : Hart)
  | interrupt (hart : Hart)
  | sret (hart : Hart) (resumed : Point Lock)

section

variable {Hart Lock : Type} [DecidableEq Hart] [DecidableEq Lock]

def State.setHart (state : State Hart Lock) (hart : Hart) (here : HartState Lock) :
    State Hart Lock :=
  { state with harts := Function.update state.harts hart here }

/-- The next access of a call. A taken lock is waited for. -/
def advance (state : State Hart Lock) (hart : Hart) : Option (State Hart Lock) :=
  let here := state.harts hart
  match here.point with
  | .between => none
  | .acquiring lock sieBefore =>
      let (wereInterruptsEnabled, locking) := here.locking.disableTrapsNow
      some (state.setHart hart { here with
        point := .disabled lock sieBefore wereInterruptsEnabled
        locking := locking })
  | .disabled lock sieBefore wereInterruptsEnabled =>
      some (state.setHart hart { here with
        point := .spinning lock
        locking := here.locking.countLock wereInterruptsEnabled
        sieOutermost := if here.held = [] then sieBefore else here.sieOutermost })
  | .spinning lock =>
      if state.owner lock = none then
        some (State.setHart
          { state with owner := Function.update state.owner lock (some hart) } hart
          { here with point := .between, held := lock :: here.held })
      else none
  | .releasing lock =>
      some (State.setHart
        { state with owner := Function.update state.owner lock none } hart
        { here with point := .released, held := here.held.erase lock })
  | .released =>
      match here.locking.discountLock with
      | .ok locking =>
          some (state.setHart hart
            { here with point := .restoring, locking := locking })
      | .error _ => some (state.setHart hart { here with point := .panicked })
  | .restoring =>
      some (state.setHart hart
        { here with point := .between, locking := here.locking.restoreTraps })
  | .currentProcess sieBefore =>
      let (enabledBefore, locking) := here.locking.disableTrapsNow
      some (state.setHart hart { here with
        point := .reading sieBefore enabledBefore
        locking := locking })
  | .reading _ enabledBefore =>
      some (state.setHart hart { here with
        point := .between
        locking := if enabledBefore then here.locking.enableTrapsNow
          else here.locking })
  | .panicked => none

/-- A hart releases locks it holds. An interrupt is taken at any point while
the enable bit is set; its handler ends when it holds no lock, and `sret` goes
to interrupted code, of any hart, or to code that was in no call. -/
def step (state : State Hart Lock) :
    Action Hart Lock → Option (State Hart Lock)
  | .acquire hart lock =>
      let here := state.harts hart
      if here.point = .between then
        some (state.setHart hart
          { here with point := .acquiring lock here.locking.sie })
      else none
  | .release hart lock =>
      let here := state.harts hart
      if here.point = .between ∧ lock ∈ here.held then
        some (state.setHart hart { here with point := .releasing lock })
      else none
  | .currentProcess hart =>
      let here := state.harts hart
      if here.point = .between then
        some (state.setHart hart
          { here with point := .currentProcess here.locking.sie })
      else none
  | .advance hart => advance state hart
  | .interrupt hart =>
      let here := state.harts hart
      if here.locking.sie then
        some (State.setHart
          { state with suspended := here.point :: state.suspended } hart
          { here with
            point := .between
            locking := here.locking.disableTrapsNow.2
            inHandler := true })
      else none
  | .sret hart resumed =>
      let here := state.harts hart
      if here.inHandler ∧ here.point = .between ∧ here.held = [] ∧
          (resumed = .between ∨ resumed ∈ state.suspended) then
        some (State.setHart
          { state with suspended := state.suspended.erase resumed } hart
          { here with
            point := resumed
            locking := here.locking.enableTrapsNow
            inHandler := false })
      else none

structure Start (state : State Hart Lock) : Prop where
  harts : ∀ hart, (state.harts hart).point = .between ∧
    (state.harts hart).locking.lockDepth = 0 ∧
    (state.harts hart).inHandler = false ∧ (state.harts hart).held = []
  owner : ∀ lock, state.owner lock = none
  suspended : state.suspended = []

def system (Hart Lock : Type) [DecidableEq Hart] [DecidableEq Lock] :
    System (State Hart Lock) (Action Hart Lock) :=
  .ofFunction Start step

end

end Hart

end Thos.Kernel
