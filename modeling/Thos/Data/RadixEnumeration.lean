import Mathlib.Algebra.Group.Nat.Defs
import Thos.Data.RadixForest

namespace Data.RadixForest

/-! The leaves below a node of a radix tree in the order of their numbers, whose
digits are the indices of the way down. -/

variable {Node Leaf : Type} {radix : Nat}

def digit (positive : 0 < radix) (number level : Nat) : Fin radix :=
  ⟨number / radix ^ level % radix, Nat.mod_lt _ positive⟩

def digits (positive : 0 < radix) (number : Nat) : Nat → List (Fin radix)
  | 0 => []
  | level + 1 => digit positive number (level + 1) :: digits positive number level

theorem div_pow_eq_concat {positive : 0 < radix} {number base level : Nat}
    {index : Fin radix} :
    number / radix ^ level = base * radix + index.val ↔
      number / radix ^ (level + 1) = base ∧
        digit positive number level = index := by
  have bound := index.isLt
  simp only [digit, Fin.ext_iff, Nat.pow_succ, ← Nat.div_div_eq_div_mul]
  generalize number / radix ^ level = upper
  constructor
  · rintro rfl
    rw [Nat.mul_comm, Nat.mul_add_div positive, Nat.div_eq_of_lt bound,
      Nat.mul_add_mod, Nat.mod_eq_of_lt bound]
    exact ⟨rfl, rfl⟩
  · rintro ⟨rfl, last⟩
    rw [← last, Nat.div_add_mod']

/-- The numbered leaves below `node`, which lies `level` links above the bottom
and is reached by the digits of `base`. -/
def enumerate (child : Node → Fin radix → Option Node)
    (leaf : Node → Fin radix → Option Leaf) : Nat → Node → Nat → List (Nat × Leaf)
  | 0, node, base => (List.finRange radix).flatMap fun index =>
      (leaf node index).elim [] fun value => [(base * radix + index.val, value)]
  | level + 1, node, base => (List.finRange radix).flatMap fun index =>
      (child node index).elim [] fun next =>
        enumerate child leaf level next (base * radix + index.val)

variable {child : Node → Fin radix → Option Node}
  {leaf : Node → Fin radix → Option Leaf} {level base number : Nat} {node : Node}
  {value : Leaf}

theorem mem_enumerate_zero {index : Fin radix} :
    (number, value) ∈ (leaf node index).elim [] (fun value =>
        [(base * radix + index.val, value)]) ↔
      number = base * radix + index.val ∧ leaf node index = some value := by
  cases leaf node index with
  | none => simp
  | some found => simp [eq_comm]

/-- The enumeration lists what the lookup finds. -/
theorem mem_enumerate (positive : 0 < radix) :
    (number, value) ∈ enumerate child leaf level node base ↔
      number / radix ^ (level + 1) = base ∧
        lookup child leaf node (digits positive number level)
          (digit positive number 0) = some value := by
  induction level generalizing node base with
  | zero =>
      have place : ∀ index : Fin radix, number = base * radix + index.val ↔
          number / radix ^ 1 = base ∧ digit positive number 0 = index := by
        intro index
        rw [← @div_pow_eq_concat _ positive, Nat.pow_zero, Nat.div_one]
      simp only [enumerate, List.mem_flatMap, List.mem_finRange, true_and,
        mem_enumerate_zero, place, lookup, digits, walk_nil, Option.bind_some]
      constructor
      · rintro ⟨index, ⟨above, rfl⟩, found⟩
        exact ⟨above, found⟩
      · rintro ⟨above, found⟩
        exact ⟨_, ⟨above, rfl⟩, found⟩
  | succ level induction =>
      have step : ∀ index, (number, value) ∈
            (child node index).elim [] (fun next =>
              enumerate child leaf level next (base * radix + index.val)) ↔
          (number / radix ^ (level + 1 + 1) = base ∧
            digit positive number (level + 1) = index) ∧
          lookup child leaf node (index :: digits positive number level)
            (digit positive number 0) = some value := by
        intro index
        rw [lookup, walk_cons]
        cases child node index with
        | none => simp
        | some next =>
            rw [Option.elim_some, induction,
              @div_pow_eq_concat _ positive, Option.bind_some,
              lookup]
      simp only [enumerate, List.mem_flatMap, List.mem_finRange, true_and, step,
        digits]
      constructor
      · rintro ⟨index, ⟨above, rfl⟩, found⟩
        exact ⟨above, found⟩
      · rintro ⟨above, found⟩
        exact ⟨_, ⟨above, rfl⟩, found⟩

theorem pairwise_lt_flatMap {blocks : Fin radix → List (Nat × Leaf)}
    (sorted : ∀ index, (blocks index).Pairwise fun first second =>
      first.1 < second.1)
    (extending : ∀ index, ∀ entry ∈ blocks index,
      entry.1 / radix ^ level = base * radix + index.val) :
    ((List.finRange radix).flatMap blocks).Pairwise fun first second =>
      first.1 < second.1 := by
  refine List.pairwise_flatMap.mpr ⟨fun index _ => sorted index, ?_⟩
  apply (List.pairwise_lt_finRange radix).imp
  intro firstIndex secondIndex less first firstMember second secondMember
  apply @Nat.lt_of_div_lt_div _ _ (radix ^ level)
  rw [extending firstIndex first firstMember,
    extending secondIndex second secondMember]
  exact Nat.add_lt_add_left less _

theorem enumerate_pairwise_lt (positive : 0 < radix) :
    (enumerate child leaf level node base).Pairwise fun first second =>
      first.1 < second.1 := by
  induction level generalizing node base with
  | zero =>
      apply @pairwise_lt_flatMap _ _ 0 base
      · intro index
        cases leaf node index with
        | none => exact .nil
        | some value => exact List.pairwise_singleton _ _
      · rintro index ⟨number, value⟩ member
        rw [Nat.pow_zero, Nat.div_one]
        exact (mem_enumerate_zero.mp member).1
  | succ level induction =>
      apply @pairwise_lt_flatMap _ _ (level + 1) base
      · intro index
        cases child node index with
        | none => exact .nil
        | some next => exact induction
      · rintro index ⟨number, value⟩ member
        cases linked : child node index with
        | none =>
            rw [linked] at member
            contradiction
        | some next =>
            rw [linked] at member
            exact ((mem_enumerate positive).mp member).1

end Data.RadixForest
