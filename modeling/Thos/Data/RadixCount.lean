import Mathlib.Data.Finset.Card
import Thos.Data.RadixForest

namespace Data.RadixForest

/-! How many nodes the paths of a forest need, and how many a walk lacks. -/

variable {Node Index : Type}

def missing (child : Node → Index → Option Node) : Node → List Index → Nat
  | _, [] => 0
  | node, index :: rest =>
      match child node index with
      | none => rest.length + 1
      | some next => missing child next rest

theorem missing_of_none {child : Node → Index → Option Node} {node : Node}
    {index : Index} (rest : List Index) (lost : child node index = none) :
    missing child node (index :: rest) = rest.length + 1 := by
  rw [missing, lost]

theorem missing_of_some {child : Node → Index → Option Node} {node next : Node}
    {index : Index} (rest : List Index) (linked : child node index = some next) :
    missing child node (index :: rest) = missing child next rest := by
  rw [missing, linked]

theorem missing_of_empty {child : Node → Index → Option Node} {node : Node}
    (empty : ∀ index, child node index = none) (path : List Index) :
    missing child node path = path.length := by
  cases path with
  | nil => rfl
  | cons index rest => exact missing_of_none rest (empty index)

theorem length_filter_inits (child : Node → Index → Option Node) (node : Node)
    (path : List Index) :
    (path.inits.filter fun front => (walk child node front).isNone).length =
      missing child node path := by
  induction path generalizing node with
  | nil => rfl
  | cons index rest induction =>
      rw [List.inits_cons, List.filter_cons_of_neg (by simp), List.filter_map,
        List.length_map]
      cases linked : child node index with
      | none =>
          rw [missing_of_none rest linked, List.filter_eq_self.mpr]
          · exact List.length_inits rest
          · intro front _
            simp [linked]
      | some next =>
          rw [missing_of_some rest linked, ← induction next]
          simp [Function.comp_def, linked]

theorem nodup_inits (path : List Index) : path.inits.Nodup := by
  induction path with
  | nil => exact List.nodup_singleton []
  | cons index rest induction =>
      rw [List.inits_cons, List.nodup_cons]
      exact ⟨by simp, induction.map (List.cons_injective)⟩

variable [DecidableEq Node] [DecidableEq Index]

def stations (root : Node) (path : List Index) : Finset (Node × List Index) :=
  (path.inits.map (root, ·)).toFinset

@[simp] theorem mem_stations {root other : Node} {path front : List Index} :
    (other, front) ∈ stations root path ↔ other = root ∧ front <+: path := by
  simp [stations, and_comm, eq_comm]

/-- A path adds to the places that are taken as many as its walk lacks. -/
theorem card_union_stations {child : Node → Index → Option Node} {root : Node}
    {path : List Index} {taken : Finset (Node × List Index)}
    (known : ∀ front, front <+: path →
      ((root, front) ∈ taken ↔ (walk child root front).isSome)) :
    (taken ∪ stations root path).card = taken.card + missing child root path := by
  have lost : stations root path \ taken =
      ((path.inits.filter fun front => (walk child root front).isNone).map
        (root, ·)).toFinset := by
    ext ⟨other, front⟩
    simp only [Finset.mem_sdiff, mem_stations, List.mem_toFinset, List.mem_map,
      List.mem_filter, List.mem_inits, Prod.mk.injEq]
    constructor
    · rintro ⟨⟨rfl, further⟩, free⟩
      rw [known front further, Option.not_isSome_iff_eq_none,
        ← Option.isNone_iff_eq_none] at free
      exact ⟨front, ⟨further, free⟩, rfl, rfl⟩
    · rintro ⟨_, ⟨further, free⟩, rfl, rfl⟩
      rw [known _ further, Option.not_isSome_iff_eq_none,
        ← Option.isNone_iff_eq_none]
      exact ⟨⟨rfl, further⟩, free⟩
  have distinct : ((path.inits.filter fun front =>
      (walk child root front).isNone).map (root, ·)).Nodup := by
    refine List.Nodup.map (Prod.mk_right_injective root) (List.Nodup.filter _ ?_)
    exact nodup_inits path
  rw [Finset.union_comm, ← Finset.sdiff_union_self_eq_union,
    Finset.card_union_of_disjoint Finset.sdiff_disjoint, lost,
    List.toFinset_card_of_nodup distinct, List.length_map, length_filter_inits,
    Nat.add_comm]

end Data.RadixForest
