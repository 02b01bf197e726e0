import Mathlib.Data.List.Basic

namespace Data.LabelledForest

/-! Ordered forests with labelled nodes: a first node, what hangs below it, and
its later siblings. -/

variable {Label Node : Type}

inductive Siblings (Label Node : Type) where
  | nil
  | cons (node : Node) (label : Label) (children next : Siblings Label Node)

namespace Siblings

/-- Every node with the labels from a root of the forest down to it, in document
order. -/
def preorder : Siblings Label Node → List (List Label × Node)
  | .nil => []
  | .cons node label children next =>
      ([label], node) ::
        (children.preorder.map fun entry => (label :: entry.1, entry.2)) ++
          next.preorder

variable [DecidableEq Label]

def first (forest : Siblings Label Node) (path : List Label) : Option Node :=
  (forest.preorder.find? fun entry => entry.1 = path).map Prod.snd

/-- The children of a node that matches come before its siblings. -/
def search : Siblings Label Node → List Label → Option Node
  | .nil, _ => none
  | .cons _ _ _ _, [] => none
  | .cons node label children next, name :: rest =>
      if label = name then
        if rest = [] then some node
        else (children.search rest).or (next.search (name :: rest))
      else next.search (name :: rest)

theorem first_empty (forest : Siblings Label Node) : forest.first [] = none := by
  induction forest with
  | nil => rfl
  | cons node label children next _ later =>
      simp only [first, Option.map_eq_none_iff, List.find?_eq_none] at later ⊢
      intro entry member
      rcases List.mem_append.mp member with here | there
      · rcases List.mem_cons.mp here with rfl | below
        · simp
        · obtain ⟨inner, _, rfl⟩ := List.mem_map.mp below
          simp
      · exact later entry there

theorem first_cons (node : Node) (label : Label) (children next : Siblings Label Node)
    (name : Label) (rest : List Label) :
    (cons node label children next).first (name :: rest) =
      if label = name then
        if rest = [] then some node
        else (children.first rest).or (next.first (name :: rest))
      else next.first (name :: rest) := by
  have below : (children.preorder.map fun entry =>
      (label :: entry.1, entry.2)).find? (fun entry => entry.1 = name :: rest) =
        if label = name then
          (children.preorder.find? fun entry => entry.1 = rest).map fun entry =>
            (label :: entry.1, entry.2)
        else none := by
    rw [List.find?_map]
    by_cases same : label = name
    · rw [if_pos same]
      congr 2
      funext entry
      simp [same]
    · rw [if_neg same, Option.map_eq_none_iff, List.find?_eq_none]
      simp [same]
  rw [first, preorder, List.find?_append, List.find?_cons, below]
  by_cases same : label = name
  · by_cases ends : rest = []
    · simp [same, ends]
    · have other : ¬[name] = name :: rest := by simp [Ne.symm ends]
      simp only [same, other, decide_false, ends, if_true, if_false, first]
      cases children.preorder.find? fun entry => entry.1 = rest with
      | none => rfl
      | some entry => rfl
  · simp [same, first]

theorem search_eq_first (forest : Siblings Label Node) (path : List Label) :
    forest.search path = forest.first path := by
  induction forest generalizing path with
  | nil => rfl
  | cons node label children next below later =>
      cases path with
      | nil => exact (first_empty _).symm
      | cons name rest => rw [search, first_cons, below, later]

example :
    (cons 0 'r' (cons 1 'a' nil (cons 2 'a' (cons 3 'b' nil nil) nil)) nil).first
      ['r', 'a', 'b'] = some 3 := by decide

/-- The result is the first node with these labels, if there is one. -/
structure IsFirst (forest : Siblings Label Node) (path : List Label)
    (result : Option Node) : Prop where
  found : ∀ node, result = some node ↔
    ∃ before after, forest.preorder = before ++ (path, node) :: after ∧
      ∀ entry ∈ before, entry.1 ≠ path
  missing : result = none ↔ ∀ entry ∈ forest.preorder, entry.1 ≠ path

theorem first_isFirst (forest : Siblings Label Node) (path : List Label) :
    forest.IsFirst path (forest.first path) where
  found node := by
    simp only [first, Option.map_eq_some_iff, List.find?_eq_some_iff_append,
      decide_eq_true_eq, Bool.not_eq_true', decide_eq_false_iff_not]
    constructor
    · rintro ⟨⟨labels, other⟩, ⟨rfl, before, after, split, earlier⟩, rfl⟩
      exact ⟨before, after, split, earlier⟩
    · rintro ⟨before, after, split, earlier⟩
      exact ⟨(path, node), ⟨rfl, before, after, split, earlier⟩, rfl⟩
  missing := by simp [first, List.find?_eq_none]

end Siblings

end Data.LabelledForest
