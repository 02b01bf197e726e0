import Thos.Data.Transition

namespace Thos.Kernel

open Data.Transition

/-- `hartOwner` is `none` for the value -1 stored on release. -/
structure SpinLock (Hart : Type) where
  locked : Nat
  hartOwner : Option Hart

namespace SpinLock

/-! `SpinLock_acquire` and `SpinLock_release` as atomic steps of one hart. -/

inductive Point where
  | outside
  | load
  | swap
  | test
  | storeOwner
  | inside
  | releasing
  deriving DecidableEq, Repr

/-- The locals of a hart.  `lastSwap` is a history variable: what the hart's
own `amoswap` returned most recently within the current `SpinLock_acquire`. -/
structure Local where
  point : Point
  formerValue : Nat
  lastSwap : Option Nat
  deriving DecidableEq, Repr

structure State (Hart : Type) where
  lock : SpinLock Hart
  harts : Hart → Local

/-- `formerValue` is uninitialised on entry, so its value is part of the
action that enters `SpinLock_acquire`. -/
inductive Action (Hart : Type) where
  | acquire (hart : Hart) (formerValue : Nat)
  | advance (hart : Hart)

variable {Hart : Type} [DecidableEq Hart]

def State.setLocal (state : State Hart) (hart : Hart) (locals : Local) :
    State Hart :=
  { state with harts := Function.update state.harts hart locals }

def step (state : State Hart) : Action Hart → Option (State Hart)
  | .acquire hart formerValue =>
      match (state.harts hart).point with
      | .outside => some (state.setLocal hart ⟨.load, formerValue, none⟩)
      | _ => none
  | .advance hart =>
      let locals := state.harts hart
      match locals.point with
      | .outside => none
      | .load =>
          -- `continue` inside the do-while goes to the loop test
          if state.lock.locked ≠ 0 then
            some (state.setLocal hart { locals with point := .test })
          else
            some (state.setLocal hart { locals with point := .swap })
      | .swap =>
          some (State.setLocal
            { state with lock := { state.lock with locked := 1 } } hart
            ⟨.test, state.lock.locked, some state.lock.locked⟩)
      | .test =>
          if locals.formerValue ≠ 0 then
            some (state.setLocal hart { locals with point := .load })
          else
            some (state.setLocal hart { locals with point := .storeOwner })
      | .storeOwner =>
          some (State.setLocal
            { state with lock := { state.lock with hartOwner := some hart } } hart
            { locals with point := .inside })
      | .inside =>
          some (State.setLocal
            { state with lock := { state.lock with hartOwner := none } } hart
            { locals with point := .releasing })
      | .releasing =>
          some (State.setLocal
            { state with lock := { state.lock with locked := 0 } } hart
            { locals with point := .outside })

def Start (state : State Hart) : Prop :=
  state.lock.locked = 0 ∧ ∀ hart, (state.harts hart).point = .outside

def system (Hart : Type) [DecidableEq Hart] : System (State Hart) (Action Hart) :=
  .ofFunction Start step

/-- Between the return of `SpinLock_acquire` and the `amoswap` of the next
`SpinLock_release`. -/
def Holds (state : State Hart) (hart : Hart) : Prop :=
  (state.harts hart).point = .inside ∨ (state.harts hart).point = .releasing

def MutualExclusion (state : State Hart) : Prop :=
  ∀ first second, Holds state first → Holds state second → first = second

/-- Every hart that is past its `SpinLock_acquire` saw its own `amoswap`
return 0. -/
def ReturnsAfterOwnSwap (state : State Hart) : Prop :=
  ∀ hart, Holds state hart → (state.harts hart).lastSwap = some 0

/-- The stale exit is not taken: a hart that finds the lock taken on its plain
load does not hold 0 in `formerValue`. -/
def NoStaleExit (state : State Hart) : Action Hart → Prop
  | .acquire _ _ => True
  | .advance hart =>
      (state.harts hart).point = .load → state.lock.locked ≠ 0 →
        (state.harts hart).formerValue ≠ 0

instance (state : State Hart) (action : Action Hart) :
    Decidable (NoStaleExit state action) :=
  match action with
  | .acquire _ _ => inferInstanceAs (Decidable True)
  | .advance _ => inferInstanceAs (Decidable (_ → _ → _))

def Local.Owns (locals : Local) : Prop :=
  (locals.point = .test ∧ locals.formerValue = 0) ∨
    locals.point = .storeOwner ∨ locals.point = .inside ∨
    locals.point = .releasing

inductive Change (before after : State Hart) (hart : Hart) : Prop where
  | keeps :
      after.lock.locked = before.lock.locked →
      ((after.harts hart).Owns → (before.harts hart).Owns ∧
        (after.harts hart).lastSwap = (before.harts hart).lastSwap) →
      Change before after hart
  | takes :
      before.lock.locked = 0 → after.lock.locked ≠ 0 →
      (after.harts hart).lastSwap = some 0 → Change before after hart
  | contends :
      before.lock.locked ≠ 0 → after.lock.locked ≠ 0 →
      ¬ (after.harts hart).Owns → Change before after hart
  | drops :
      (before.harts hart).Owns → ¬ (after.harts hart).Owns →
      Change before after hart

theorem step_change {before after : State Hart} {action : Action Hart}
    (meets : NoStaleExit before action)
    (stepped : step before action = some after) :
    ∃ hart, (∀ other, other ≠ hart →
        after.harts other = before.harts other) ∧
      Change before after hart := by
  cases action with
  | acquire hart formerValue =>
      refine ⟨hart, ?_⟩
      simp only [step] at stepped
      split at stepped
      · cases stepped
        refine ⟨fun other different => by simp [State.setLocal, different], ?_⟩
        exact .keeps rfl (by simp [State.setLocal, Local.Owns])
      · contradiction
  | advance hart =>
      refine ⟨hart, ?_⟩
      simp only [NoStaleExit] at meets
      simp only [step] at stepped
      cases point : (before.harts hart).point with
      | outside => simp [point] at stepped
      | load =>
          rw [point] at stepped
          by_cases taken : before.lock.locked ≠ 0
          · rw [if_pos taken] at stepped
            cases stepped
            refine ⟨fun other different => by simp [State.setLocal, different], ?_⟩
            exact .keeps rfl (by
              simp [State.setLocal, Local.Owns, meets point taken])
          · rw [if_neg taken] at stepped
            cases stepped
            refine ⟨fun other different => by simp [State.setLocal, different], ?_⟩
            exact .keeps rfl (by simp [State.setLocal, Local.Owns])
      | swap =>
          rw [point] at stepped
          cases stepped
          refine ⟨fun other different => by simp [State.setLocal, different], ?_⟩
          by_cases free : before.lock.locked = 0
          · exact .takes free (by simp [State.setLocal])
              (by simp [State.setLocal, free])
          · exact .contends free (by simp [State.setLocal])
              (by simp [State.setLocal, Local.Owns, free])
      | test =>
          rw [point] at stepped
          by_cases again : (before.harts hart).formerValue ≠ 0
          · rw [if_pos again] at stepped
            cases stepped
            refine ⟨fun other different => by simp [State.setLocal, different], ?_⟩
            exact .keeps rfl (by simp [State.setLocal, Local.Owns])
          · rw [if_neg again] at stepped
            cases stepped
            refine ⟨fun other different => by simp [State.setLocal, different], ?_⟩
            exact .keeps rfl (by
              simp [State.setLocal, Local.Owns, point, not_not.mp again])
      | storeOwner | inside =>
          rw [point] at stepped
          cases stepped
          refine ⟨fun other different => by simp [State.setLocal, different], ?_⟩
          exact .keeps rfl (by simp [State.setLocal, Local.Owns, point])
      | releasing =>
          rw [point] at stepped
          cases stepped
          refine ⟨fun other different => by simp [State.setLocal, different], ?_⟩
          exact .drops (by simp [Local.Owns, point])
            (by simp [State.setLocal, Local.Owns])

structure Invariant (state : State Hart) : Prop where
  exclusive : ∀ first second, (state.harts first).Owns →
    (state.harts second).Owns → first = second
  locked : ∀ hart, (state.harts hart).Owns → state.lock.locked ≠ 0
  won : ∀ hart, (state.harts hart).Owns →
    (state.harts hart).lastSwap = some 0

omit [DecidableEq Hart] in
theorem Invariant.start {state : State Hart} (starts : Start state) :
    Invariant state := by
  have none : ∀ hart, ¬ (state.harts hart).Owns := by
    intro hart
    simp [Local.Owns, starts.2 hart]
  exact ⟨fun first _ owns => absurd owns (none first),
    fun hart owns => absurd owns (none hart),
    fun hart owns => absurd owns (none hart)⟩

theorem Invariant.step {before after : State Hart} {action : Action Hart}
    (invariant : Invariant before) (meets : NoStaleExit before action)
    (stepped : step before action = some after) : Invariant after := by
  obtain ⟨hart, frame, change⟩ := step_change meets stepped
  have others : ∀ other, other ≠ hart → (after.harts other).Owns →
      (before.harts other).Owns := by
    intro other different owns
    rwa [frame other different] at owns
  cases change with
  | keeps sameWord kept =>
      have back : ∀ other, (after.harts other).Owns →
          (before.harts other).Owns := by
        intro other owns
        by_cases same : other = hart
        · subst same
          exact (kept owns).1
        · exact others other same owns
      refine ⟨fun first second ownsFirst ownsSecond =>
          invariant.exclusive first second (back first ownsFirst)
            (back second ownsSecond), ?_, ?_⟩
      · intro other owns
        rw [sameWord]
        exact invariant.locked other (back other owns)
      · intro other owns
        by_cases same : other = hart
        · subst same
          rw [(kept owns).2]
          exact invariant.won other (kept owns).1
        · rw [frame other same]
          exact invariant.won other (others other same owns)
  | takes free taken won =>
      have only : ∀ other, (after.harts other).Owns → other = hart := by
        intro other owns
        by_contra different
        exact invariant.locked other (others other different owns) free
      refine ⟨fun first second ownsFirst ownsSecond =>
          (only first ownsFirst).trans (only second ownsSecond).symm,
        fun _ _ => taken, ?_⟩
      intro other owns
      rw [only other owns]
      exact won
  | contends _ taken lost =>
      have elsewhere : ∀ other, (after.harts other).Owns → other ≠ hart := by
        rintro other owns rfl
        exact lost owns
      refine ⟨fun first second ownsFirst ownsSecond =>
          invariant.exclusive first second
            (others first (elsewhere first ownsFirst) ownsFirst)
            (others second (elsewhere second ownsSecond) ownsSecond),
        fun _ _ => taken, ?_⟩
      intro other owns
      rw [frame other (elsewhere other owns)]
      exact invariant.won other (others other (elsewhere other owns) owns)
  | drops owned released =>
      have nobody : ∀ other, ¬ (after.harts other).Owns := by
        intro other owns
        by_cases same : other = hart
        · subst same
          exact released owns
        · exact same (invariant.exclusive other hart
            (others other same owns) owned)
      exact ⟨fun first _ owns => absurd owns (nobody first),
        fun other owns => absurd owns (nobody other),
        fun other owns => absurd owns (nobody other)⟩

theorem Invariant.of_reachable {state : State Hart}
    (reachable : ((system Hart).restrict NoStaleExit).Reachable state) :
    Invariant state := by
  refine reachable.invariant Invariant ?_ ?_
  · intro start starts
    exact .start starts
  · intro before action after invariant stepped
    exact invariant.step stepped.1 stepped.2

omit [DecidableEq Hart] in
theorem Holds.owns {state : State Hart} {hart : Hart}
    (holds : Holds state hart) : (state.harts hart).Owns := by
  rcases holds with inside | releasing
  · exact .inr (.inr (.inl inside))
  · exact .inr (.inr (.inr releasing))

/-- Without the stale exit the lock is exclusive, for any number of harts. -/
theorem acquire_release_exclusive {state : State Hart}
    (reachable : ((system Hart).restrict NoStaleExit).Reachable state) :
    MutualExclusion state ∧ ReturnsAfterOwnSwap state := by
  have invariant := Invariant.of_reachable reachable
  exact ⟨fun first second holdsFirst holdsSecond =>
      invariant.exclusive first second holdsFirst.owns holdsSecond.owns,
    fun hart holds => invariant.won hart holds.owns⟩

def idle : State Bool :=
  ⟨⟨0, none⟩, fun _ => ⟨.outside, 0, none⟩⟩

theorem idle_start : Start idle := ⟨rfl, fun _ => rfl⟩

def acquireOnce (hart : Bool) (formerValue : Nat) : List (Action Bool) :=
  [.acquire hart formerValue, .advance hart, .advance hart, .advance hart,
    .advance hart]

theorem acquire_release_exclusive_second_holder :
    ∃ state : State Bool, (state.harts true).point = .outside ∧ Holds state false ∧
      MutualExclusion state ∧ ReturnsAfterOwnSwap state := by
  refine ⟨_, ?_, ?_, acquire_release_exclusive
    (System.Reachable.of_execute_guarded
      (acquireOnce true 0 ++ [.acquire false 7, .advance false, .advance false,
        .advance true, .advance true, .advance false, .advance false, .advance false,
        .advance false])
      (.start _ idle_start) rfl)⟩
  · rfl
  · exact .inl rfl

/-- The second hart's register happens to hold 0, it finds the lock taken on
its first load, and both harts are inside. -/
theorem stale_formerValue_enters :
    ∃ state : State Bool, (system Bool).Reachable state ∧
      ¬ MutualExclusion state ∧ ¬ ReturnsAfterOwnSwap state := by
  refine ⟨_, System.Reachable.of_execute
    (acquireOnce true 0 ++ [.acquire false 0, .advance false,
      .advance false, .advance false]) (.start _ idle_start) rfl, ?_, ?_⟩
  · intro exclusive
    have same : true = false := exclusive true false (.inl rfl) (.inl rfl)
    contradiction
  · intro returns
    have won := returns false (.inl rfl)
    contradiction

end SpinLock

end Thos.Kernel
