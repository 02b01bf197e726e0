import Mathlib.Data.List.Rotate
import Mathlib.Data.Finset.Basic
import Mathlib.Data.Nat.ModEq

namespace Data.Cyclic

/-! The members of a set of numbers in increasing order modulo a size, from any
start, round after round. -/

def order (size start count : Nat) : List Nat :=
  (List.range' start count).map (· % size)

def circuit (size : Nat) (members : Finset Nat) (start : Nat) : List Nat :=
  (order size start size).filter (· ∈ members)

/-- The first terms of a list repeated without end. -/
def terms {α : Type} (once : List α) (count : Nat) : List α :=
  (List.range count).filterMap fun index => once[index % once.length]?

section

variable {size : Nat} {members : Finset Nat} {start : Nat}

theorem order_succ (size start count : Nat) :
    order size start (count + 1) = start % size :: order size (start + 1) count := by
  rw [order, List.range'_succ, List.map_cons, ← order]

theorem order_mod (size start count : Nat) :
    order size (start % size) count = order size start count := by
  rw [order, order, List.range'_eq_map_range, List.range'_eq_map_range,
    List.map_map, List.map_map]
  congr 1
  funext offset
  simp

theorem circuit_step (members : Finset Nat) (start : Nat) (positive : 0 < size) :
    ∃ rest,
    circuit size members start =
        [start % size].filter (· ∈ members) ++ rest ∧
      circuit size members (start + 1) =
        rest ++ [start % size].filter (· ∈ members) := by
  obtain ⟨others, rfl⟩ := Nat.exists_eq_succ_of_ne_zero (Nat.ne_of_gt positive)
  refine ⟨(order (others + 1) (start + 1) others).filter (· ∈ members), ?_, ?_⟩
  · rw [circuit, order_succ, ← List.filter_append]
    rfl
  · have last : (start + 1 + others) % (others + 1) = start % (others + 1) := by
      rw [Nat.add_assoc, Nat.add_comm 1 others, Nat.add_mod_right]
    rw [circuit, order, List.range'_1_concat, List.map_append, List.filter_append,
      List.map_singleton, last]
    rfl

theorem circuit_of_not_mem (positive : 0 < size) (skipped : start % size ∉ members) :
    circuit size members (start + 1) = circuit size members start := by
  obtain ⟨rest, here, next⟩ := circuit_step members start positive
  rw [here, next]
  simp [skipped]

theorem circuit_of_mem (positive : 0 < size) (taken : start % size ∈ members) :
    (circuit size members start).head? = some (start % size) ∧
      circuit size members (start + 1) = (circuit size members start).rotate 1 := by
  obtain ⟨rest, here, next⟩ := circuit_step members start positive
  rw [here, next]
  simp [taken]

theorem circuit_mod : circuit size members (start % size) =
    circuit size members start := by
  rw [circuit, order_mod, ← circuit]

theorem circuit_perm : (circuit size members start).Perm
    ((List.range size).filter (· ∈ members)) := by
  induction start with
  | zero =>
      have same : order size 0 size = List.range size := by
        rw [order, ← List.range_eq_range']
        exact List.map_congr_left (fun slot bound =>
          Nat.mod_eq_of_lt (List.mem_range.mp bound)) |>.trans (List.map_id _)
      rw [circuit, same]
  | succ start induction =>
      rcases Nat.eq_zero_or_pos size with rfl | positive
      · exact .refl []
      · by_cases taken : start % size ∈ members
        · rw [(circuit_of_mem positive taken).2]
          exact (List.rotate_perm _ 1).trans induction
        · rw [circuit_of_not_mem positive taken]
          exact induction

theorem mem_circuit {slot : Nat} :
    slot ∈ circuit size members start ↔ slot < size ∧ slot ∈ members := by
  rw [circuit_perm.mem_iff]
  simp

theorem exists_offset (start : Nat) {slot : Nat} (bound : slot < size)
    (member : slot ∈ members) :
    ∃ offset < size, (start + offset) % size ∈ members := by
  have inside : slot ∈ order size start size :=
    List.mem_of_mem_filter (mem_circuit.mpr ⟨bound, member⟩)
  obtain ⟨place, placed, rfl⟩ := List.mem_map.mp inside
  obtain ⟨offset, small, rfl⟩ := List.mem_range'.mp placed
  rw [Nat.one_mul] at member
  exact ⟨offset, small, member⟩

theorem nodup_circuit : (circuit size members start).Nodup := by
  rw [circuit_perm.nodup_iff]
  exact List.nodup_range.filter _

end

section

variable {size first second : Nat}

theorem add_length_le_of_mod_eq (order : first < second)
    (same : first % size = second % size) : first + size ≤ second := by
  have divides := (Nat.modEq_iff_dvd' (Nat.le_of_lt order)).mp same
  have bound := Nat.le_of_dvd (Nat.sub_pos_of_lt order) divides
  omega

theorem eq_of_mod_eq (low : first < second + size) (high : second < first + size)
    (same : first % size = second % size) : first = second := by
  rcases Nat.lt_trichotomy first second with less | equal | greater
  · have bound := add_length_le_of_mod_eq less same
    omega
  · exact equal
  · have bound := add_length_le_of_mod_eq greater same.symm
    omega

theorem exists_between_mod_eq (first : Nat) {position : Nat}
    (inside : position < size)
    (elsewhere : first % size ≠ position) :
    ∃ index, (first < index ∧ index < first + size) ∧ index % size = position := by
  have split := Nat.div_add_mod first size
  have bound := Nat.mod_lt first (Nat.zero_lt_of_lt inside)
  rcases Nat.lt_or_gt_of_ne elsewhere with later | earlier
  · refine ⟨size * (first / size) + position, by omega, ?_⟩
    rw [Nat.mul_add_mod, Nat.mod_eq_of_lt inside]
  · refine ⟨size * (first / size + 1) + position, ?_, ?_⟩
    · rw [Nat.mul_succ]
      omega
    · rw [Nat.mul_add_mod, Nat.mod_eq_of_lt inside]

end

section

variable {α : Type} {once : List α} {count : Nat}

theorem terms_succ (once : List α) (count : Nat) :
    terms once (count + 1) =
      terms once count ++ (once.rotate count).head?.toList := by
  rw [terms, List.range_succ, List.filterMap_append, ← terms, List.filterMap_cons,
    List.filterMap_nil]
  cases once with
  | nil => simp
  | cons first rest =>
      rw [List.head?_eq_getElem?, List.getElem?_rotate (by simp), Nat.zero_add]
      cases (first :: rest)[count % (first :: rest).length]? <;> rfl

variable (inhabited : 0 < once.length)

include inhabited

theorem head?_rotate : (once.rotate count).head? = once[count % once.length]? := by
  rw [List.head?_eq_getElem?, List.getElem?_rotate inhabited, Nat.zero_add]

theorem length_terms : (terms once count).length = count := by
  induction count with
  | zero => rfl
  | succ count induction =>
      have bound := Nat.mod_lt count inhabited
      rw [terms_succ, head?_rotate inhabited, List.getElem?_eq_getElem bound,
        List.length_append, induction]
      rfl

theorem getElem?_terms {index : Nat} (bound : index < count) :
    (terms once count)[index]? = once[index % once.length]? := by
  induction count with
  | zero => contradiction
  | succ count induction =>
      rw [terms_succ]
      rcases Nat.lt_succ_iff_lt_or_eq.mp bound with earlier | rfl
      · rw [List.getElem?_append_left (by rwa [length_terms inhabited]),
          induction earlier]
      · rw [List.getElem?_append_right (by rw [length_terms inhabited]),
          length_terms inhabited, Nat.sub_self, head?_rotate inhabited]
        cases once[index % once.length]? <;> rfl

/-- Between two places of one term, with none between them, every other term
stands exactly once. -/
theorem terms_between (distinct : once.Nodup) {first second : Nat} {term : α}
    (order : first < second) (atFirst : (terms once count)[first]? = some term)
    (atSecond : (terms once count)[second]? = some term)
    (next : ∀ index, first < index → index < second →
      (terms once count)[index]? ≠ some term)
    {other : α} (member : other ∈ once) (different : other ≠ term) :
    ∃ index, (first < index ∧ index < second) ∧
      (terms once count)[index]? = some other ∧
        ∀ index', first < index' ∧ index' < second →
          (terms once count)[index']? = some other → index' = index := by
  have bound : second < count := by
    have length := @length_terms _ _ count inhabited
    rw [← length]
    exact (List.getElem?_eq_some_iff.mp atSecond).1
  -- equal terms stand a multiple of the length apart
  have residue : ∀ {index index' : Nat} {value : α}, index < count →
      index' < count → (terms once count)[index]? = some value →
        (terms once count)[index']? = some value →
          index % once.length = index' % once.length := by
    intro index index' value low high here there
    rw [getElem?_terms inhabited low] at here
    rw [getElem?_terms inhabited high] at there
    exact (List.getElem?_inj (Nat.mod_lt _ inhabited) distinct).mp
      (here.trans there.symm)
  have apart : second = first + once.length := by
    have low := add_length_le_of_mod_eq order
      (residue (by omega) bound atFirst atSecond)
    by_contra later
    apply next (first + once.length) (by omega) (by omega)
    rw [getElem?_terms inhabited (by omega), Nat.add_mod_right,
      ← getElem?_terms inhabited (by omega : first < count)]
    exact atFirst
  obtain ⟨position, inside, rfl⟩ := List.getElem_of_mem member
  have elsewhere : first % once.length ≠ position := by
    intro same
    rw [getElem?_terms inhabited (by omega), same,
      List.getElem?_eq_getElem inside] at atFirst
    exact different (Option.some.inj atFirst)
  obtain ⟨index, between, here⟩ :=
    exists_between_mod_eq first inside elsewhere
  have placed : (terms once count)[index]? = some once[position] := by
    rw [getElem?_terms inhabited (by omega), here, List.getElem?_eq_getElem inside]
  refine ⟨index, by omega, placed, ?_⟩
  intro index' between' placed'
  exact eq_of_mod_eq (by omega) (by omega)
    (residue (by omega) (by omega) placed' placed)

end

end Data.Cyclic
