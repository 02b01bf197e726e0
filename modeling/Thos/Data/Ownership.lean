import Mathlib.Logic.Function.Basic

namespace Data.Ownership

/-! Agents with local states over shared cells. A local state has the right to
some of the cells, and what it says about the cells concerns those only. -/

variable {Agent Index Cell Local : Type}

structure Discipline (Index Cell Local : Type) where
  Right : Local → Index → Prop
  Ok : (Index → Cell) → Local → Prop
  Free : Index → Cell → Prop
  confined : ∀ {cells others : Index → Cell} {here : Local},
    (∀ index, Right here index → others index = cells index) →
      Ok cells here → Ok others here

/-- Every local state is right about its cells, no two agents have the right to
one cell, and the cells nobody has a right to are free. -/
structure Safe (discipline : Discipline Index Cell Local) (locals : Agent → Local)
    (cells : Index → Cell) : Prop where
  ok : ∀ agent, discipline.Ok cells (locals agent)
  apart : ∀ {first second index}, discipline.Right (locals first) index →
    discipline.Right (locals second) index → first = second
  free : ∀ index, (∀ agent, ¬discipline.Right (locals agent) index) →
    discipline.Free index (cells index)

/-- What one step of an agent has to respect: only its cells change, it gains
cells that nobody has, and it leaves the cells it drops free. -/
structure Move (discipline : Discipline Index Cell Local) (locals : Agent → Local)
    (cells others : Index → Cell) (agent : Agent) (next : Local) : Prop where
  frame : ∀ index, ¬discipline.Right (locals agent) index →
    ¬discipline.Right next index → others index = cells index
  gain : ∀ index, discipline.Right next index →
    ¬discipline.Right (locals agent) index →
      ∀ other, ¬discipline.Right (locals other) index
  drop : ∀ index, discipline.Right (locals agent) index →
    ¬discipline.Right next index → discipline.Free index (others index)
  ok : discipline.Ok others next

namespace Move

variable {discipline : Discipline Index Cell Local} {locals : Agent → Local}
  {cells others : Index → Cell} {agent : Agent} {next : Local}

theorem keep
    (same : ∀ index, discipline.Right next index ↔
      discipline.Right (locals agent) index)
    (frame : ∀ index, ¬discipline.Right (locals agent) index →
      others index = cells index)
    (ok : discipline.Ok others next) :
    Move discipline locals cells others agent next where
  frame index notHere _ := frame index notHere
  gain index gained had := absurd ((same index).mp gained) had
  drop index had lost := absurd ((same index).mpr had) lost
  ok := ok

theorem take (index : Index)
    (more : ∀ other, discipline.Right next other ↔
      discipline.Right (locals agent) other ∨ other = index)
    (nobody : ∀ other, ¬discipline.Right (locals other) index)
    (ok : discipline.Ok cells next) :
    Move discipline locals cells cells agent next where
  frame _ _ _ := rfl
  gain other gained had := by
    cases (more other).mp gained with
    | inl already => exact absurd already had
    | inr same =>
        rw [same]
        exact nobody
  drop other had lost := absurd ((more other).mpr (.inl had)) lost
  ok := ok

theorem give (index : Index)
    (fewer : ∀ other, discipline.Right next other ↔
      discipline.Right (locals agent) other ∧ other ≠ index)
    (frame : ∀ other, ¬discipline.Right (locals agent) other →
      others other = cells other)
    (free : discipline.Free index (others index))
    (ok : discipline.Ok others next) :
    Move discipline locals cells others agent next where
  frame other notHere _ := frame other notHere
  gain other gained had := absurd ((fewer other).mp gained).1 had
  drop other had lost := by
    have same : other = index := by
      by_contra different
      exact lost ((fewer other).mpr ⟨had, different⟩)
    rw [same]
    exact free
  ok := ok

end Move

/-- A step changes no cell that another agent has the right to. -/
theorem Move.elsewhere {discipline : Discipline Index Cell Local}
    {locals : Agent → Local} {cells others : Index → Cell} {agent other : Agent}
    {next : Local} {index : Index} (safe : Safe discipline locals cells)
    (move : Move discipline locals cells others agent next)
    (different : other ≠ agent)
    (right : discipline.Right (locals other) index) : others index = cells index := by
  have notHere : ¬discipline.Right (locals agent) index := by
    intro same
    exact different (safe.apart right same)
  apply move.frame index notHere
  intro gained
  exact move.gain index gained notHere other right

theorem Safe.move [DecidableEq Agent] {discipline : Discipline Index Cell Local}
    {locals : Agent → Local} {cells others : Index → Cell} {agent : Agent}
    {next : Local} (safe : Safe discipline locals cells)
    (move : Move discipline locals cells others agent next) :
    Safe discipline (Function.update locals agent next) others := by
  have mixed : ∀ {other index}, other ≠ agent → discipline.Right next index →
      ¬discipline.Right (locals other) index := by
    intro other index different gained right
    by_cases had : discipline.Right (locals agent) index
    · exact different (safe.apart right had)
    · exact move.gain index gained had other right
  constructor
  · intro other
    by_cases same : other = agent
    · rw [same, Function.update_self]
      exact move.ok
    · rw [Function.update_of_ne same]
      exact discipline.confined (fun index right => move.elsewhere safe same right)
        (safe.ok other)
  · intro first second index firstRight secondRight
    by_cases firstSame : first = agent
    · by_cases secondSame : second = agent
      · rw [firstSame, secondSame]
      · rw [firstSame, Function.update_self] at firstRight
        rw [Function.update_of_ne secondSame] at secondRight
        exact absurd secondRight (mixed secondSame firstRight)
    · rw [Function.update_of_ne firstSame] at firstRight
      by_cases secondSame : second = agent
      · rw [secondSame, Function.update_self] at secondRight
        exact absurd firstRight (mixed firstSame secondRight)
      · rw [Function.update_of_ne secondSame] at secondRight
        exact safe.apart firstRight secondRight
  · intro index nobody
    have notNext : ¬discipline.Right next index := by
      have here := nobody agent
      rwa [Function.update_self] at here
    by_cases had : discipline.Right (locals agent) index
    · exact move.drop index had notNext
    · rw [move.frame index had notNext]
      apply safe.free
      intro other
      by_cases same : other = agent
      · rw [same]
        exact had
      · have there := nobody other
        rwa [Function.update_of_ne same] at there

theorem Safe.poke {discipline : Discipline Index Cell Local} {locals : Agent → Local}
    {cells others : Index → Cell} {index : Index}
    (safe : Safe discipline locals cells)
    (nobody : ∀ agent, ¬discipline.Right (locals agent) index)
    (frame : ∀ other, other ≠ index → others other = cells other)
    (free : discipline.Free index (others index)) :
      Safe discipline locals others where
  ok agent := by
    refine discipline.confined ?_ (safe.ok agent)
    intro other right
    apply frame
    intro same
    rw [same] at right
    exact nobody agent right
  apart := safe.apart
  free other none := by
    by_cases same : other = index
    · rw [same]
      exact free
    · rw [frame other same]
      exact safe.free other none

/-- A lock is held by exactly the agents whose local state says so. -/
def Guards (holds : Local → Prop) (locals : Agent → Local) (lock : Option Agent) :
    Prop :=
  ∀ agent, lock = some agent ↔ holds (locals agent)

section

variable [DecidableEq Agent] {holds : Local → Prop} {locals : Agent → Local}
  {lock : Option Agent} {agent : Agent} {next : Local}

theorem Guards.keep (guards : Guards holds locals lock)
    (same : holds next ↔ holds (locals agent)) :
    Guards holds (Function.update locals agent next) lock := by
  intro other
  by_cases here : other = agent
  · rw [here, Function.update_self, same]
    exact guards agent
  · rw [Function.update_of_ne here]
    exact guards other

theorem Guards.acquire (guards : Guards holds locals none) (takes : holds next) :
    Guards holds (Function.update locals agent next) (some agent) := by
  intro other
  by_cases here : other = agent
  · rw [here, Function.update_self]
    exact ⟨fun _ => takes, fun _ => rfl⟩
  · rw [Function.update_of_ne here, ← guards other]
    constructor
    · intro equal
      exact absurd (Option.some.inj equal).symm here
    · simp

theorem Guards.release (guards : Guards holds locals lock)
    (held : holds (locals agent)) (drops : ¬holds next) :
    Guards holds (Function.update locals agent next) none := by
  intro other
  by_cases here : other = agent
  · rw [here, Function.update_self]
    exact ⟨by simp, fun holding => absurd holding drops⟩
  · rw [Function.update_of_ne here, ← guards other, (guards agent).mpr held]
    constructor
    · simp
    · intro equal
      exact absurd (Option.some.inj equal).symm here

end

end Data.Ownership
