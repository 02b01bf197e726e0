import Mathlib.Logic.Function.Basic

namespace Data.Transition

/-! Labelled transition systems, their runs, and the invariant rule. -/

structure System (State Action : Type) where
  Start : State → Prop
  Step : State → Action → State → Prop

namespace System

variable {State Action : Type} (system : System State Action)

inductive Run (start : State) : List Action → State → Prop
  | refl : Run start [] start
  | snoc {actions : List Action} {middle finish : State} {action : Action} :
      Run start actions middle → system.Step middle action finish →
        Run start (actions ++ [action]) finish

def Reachable (state : State) : Prop :=
  ∃ start actions, system.Start start ∧ system.Run start actions state

theorem Reachable.start {state : State} (starts : system.Start state) :
    system.Reachable state :=
  ⟨state, [], starts, .refl⟩

theorem Reachable.step {system : System State Action}
    {before after : State} {action : Action}
    (reachable : system.Reachable before)
    (stepped : system.Step before action after) : system.Reachable after := by
  obtain ⟨start, actions, starts, run⟩ := reachable
  exact ⟨start, actions ++ [action], starts, run.snoc stepped⟩

/-- What holds at every start and survives every step holds in every
reachable state. -/
theorem Reachable.invariant {system : System State Action}
    (Holds : State → Prop)
    (initially : ∀ state, system.Start state → Holds state)
    (preserved : ∀ before action after, Holds before →
      system.Step before action after → Holds after)
    {state : State} (reachable : system.Reachable state) : Holds state := by
  obtain ⟨start, actions, starts, run⟩ := reachable
  induction run with
  | refl => exact initially start starts
  | snoc _ stepped holds => exact preserved _ _ _ holds stepped

def restrict (guard : State → Action → Prop) : System State Action where
  Start := system.Start
  Step before action after := guard before action ∧ system.Step before action after

theorem Reachable.of_restrict {system : System State Action}
    {guard : State → Action → Prop} {state : State}
    (reachable : (system.restrict guard).Reachable state) :
    system.Reachable state := by
  refine Reachable.invariant system.Reachable ?_ ?_ reachable
  · intro start starts
    exact .start system starts
  · intro before action after holds stepped
    exact holds.step stepped.2

def ofFunction (Start : State → Prop) (step : State → Action → Option State) :
    System State Action where
  Start := Start
  Step before action after := step before action = some after

end System

def execute {State Action : Type} (step : State → Action → Option State) :
    State → List Action → Option State
  | state, [] => some state
  | state, action :: rest => (step state action).bind (execute step · rest)

def guarded {State Action : Type} (guard : State → Action → Prop)
    [∀ state action, Decidable (guard state action)]
    (step : State → Action → Option State)
    (state : State) (action : Action) : Option State :=
  if guard state action then step state action else none

namespace System

variable {State Action : Type} {Start : State → Prop}
  {step : State → Action → Option State}

theorem Run.execute {start middle finish : State} {actions : List Action}
    (rest : List Action) (run : (ofFunction Start step).Run start actions middle)
    (executed : Transition.execute step middle rest = some finish) :
    (ofFunction Start step).Run start (actions ++ rest) finish := by
  induction rest generalizing actions middle with
  | nil =>
      cases executed
      rw [List.append_nil]
      exact run
  | cons action rest induction =>
      obtain ⟨next, stepped, executedRest⟩ := Option.bind_eq_some_iff.mp executed
      have extended := induction (run.snoc stepped) executedRest
      rw [List.append_assoc] at extended
      exact extended

theorem Reachable.of_execute {state final : State} (actions : List Action)
    (reachable : (ofFunction Start step).Reachable state)
    (executed : execute step state actions = some final) :
    (ofFunction Start step).Reachable final := by
  induction actions generalizing state with
  | nil =>
      cases executed
      exact reachable
  | cons action rest induction =>
      obtain ⟨next, stepped, executedRest⟩ := Option.bind_eq_some_iff.mp executed
      exact induction (reachable.step stepped) executedRest

/-- As `Reachable.of_execute`, for a run whose every step meets `guard`. -/
theorem Reachable.of_execute_guarded {guard : State → Action → Prop}
    [∀ state action, Decidable (guard state action)]
    {state final : State} (actions : List Action)
    (reachable : ((ofFunction Start step).restrict guard).Reachable state)
    (executed : execute (guarded guard step) state actions = some final) :
    ((ofFunction Start step).restrict guard).Reachable final := by
  induction actions generalizing state with
  | nil =>
      cases executed
      exact reachable
  | cons action rest induction =>
      obtain ⟨next, stepped, executedRest⟩ := Option.bind_eq_some_iff.mp executed
      rw [guarded, Option.ite_none_right_eq_some] at stepped
      exact induction (reachable.step stepped) executedRest

end System

end Data.Transition
