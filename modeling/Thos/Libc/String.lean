import Thos.Common.Endian
import Thos.Kernel.Outcome

namespace Thos

/-! Strings in memory. -/

namespace ByteMemory

variable {memory : ByteMemory} {address : Nat}

/-- The string at an address, without the NUL that ends it. -/
structure Text (memory : ByteMemory) (address : Nat) (text : List UInt8) : Prop where
  held : memory.Holds address (text ++ [0])
  noNul : 0 ∉ text

theorem text_nil : memory.Text address [] ↔ memory address = 0 := by
  constructor
  · intro text
    exact text.held.1
  · intro zero
    exact ⟨⟨zero, trivial⟩, List.not_mem_nil⟩

theorem text_cons {byte : UInt8} {text : List UInt8} :
    memory.Text address (byte :: text) ↔
      (memory address = byte ∧ byte ≠ 0) ∧ memory.Text (address + 1) text := by
  constructor
  · intro whole
    have nonzero := List.ne_of_not_mem_cons whole.noNul
    have rest := List.not_mem_of_not_mem_cons whole.noNul
    exact ⟨⟨whole.held.1, nonzero.symm⟩, whole.held.2, rest⟩
  · rintro ⟨⟨first, nonzero⟩, rest⟩
    exact ⟨⟨first, rest.held⟩,
      List.not_mem_cons_of_ne_of_not_mem nonzero.symm rest.noNul⟩

theorem Text.unique {first second : List UInt8} (one : memory.Text address first)
    (two : memory.Text address second) : first = second := by
  induction first generalizing address second with
  | nil =>
      cases second with
      | nil => rfl
      | cons byte rest =>
          obtain ⟨⟨here, nonzero⟩, _⟩ := text_cons.mp two
          exact absurd (here.symm.trans (text_nil.mp one)) nonzero
  | cons byte rest induction =>
      obtain ⟨⟨here, nonzero⟩, tail⟩ := text_cons.mp one
      cases second with
      | nil => exact absurd (here.symm.trans (text_nil.mp two)) nonzero
      | cons other more =>
          obtain ⟨⟨there, _⟩, others⟩ := text_cons.mp two
          rw [induction tail others, ← here, there]

theorem text_takeWhile {address : Nat} {value : List UInt8}
    (held : memory.Holds address value) (ends : 0 ∈ value) :
    memory.Text address (value.takeWhile (· ≠ 0)) := by
  induction value generalizing address with
  | nil => exact absurd ends List.not_mem_nil
  | cons byte value induction =>
      rw [List.takeWhile_cons]
      by_cases zero : byte = 0
      · rw [if_neg (by simp [zero])]
        exact text_nil.mpr (held.1.trans zero)
      · rw [if_pos (by simp [zero])]
        refine text_cons.mpr ⟨⟨held.1, zero⟩, ?_⟩
        exact induction held.2 ((List.mem_cons.mp ends).resolve_left (Ne.symm zero))

theorem text_drop {address count : Nat} {text : List UInt8}
    (here : memory.Text address text) (inside : count ≤ text.length) :
    memory.Text (address + count) (text.drop count) := by
  induction count generalizing address text with
  | zero => exact here
  | succ count induction =>
      cases text with
      | nil => contradiction
      | cons byte text =>
          obtain ⟨_, rest⟩ := text_cons.mp here
          rw [List.drop_succ_cons, Nat.add_comm count, ← Nat.add_assoc]
          exact induction rest (Nat.le_of_succ_le_succ inside)

def Reads (memory : ByteMemory) (address : Nat) (text : List UInt8) : Prop :=
  0 ∉ text ∧ ∀ other, memory.Text address other → text = other

theorem exists_reads (memory : ByteMemory) (address : Nat) :
    ∃ text, memory.Reads address text := by
  by_cases ends : ∃ text, memory.Text address text
  · obtain ⟨text, here⟩ := ends
    exact ⟨text, here.noNul, fun other there => here.unique there⟩
  · refine ⟨[], List.not_mem_nil, fun other there => ?_⟩
    exact absurd ⟨other, there⟩ ends

end ByteMemory

end Thos

namespace Thos.Libc

open Thos.Kernel

/-! `string.c`. -/

/-- The loop of `strcmp`. A `char` is unsigned, and `diff` is one. -/
def strcmpLoop (memory : ByteMemory) : Nat → Nat → Nat → Outcome Int
  | 0, _, _ => throw .outOfFuel
  | rounds + 1, lhs, rhs =>
      let left := memory lhs
      let right := memory rhs
      if left = 0 ∧ right ≠ 0 then pure (-1)
      else if left ≠ 0 ∧ right = 0 then pure 1
      else if left = 0 ∧ right = 0 then pure 0
      else
        let diff := left - right
        if diff ≠ 0 then pure (diff.toNat : Int)
        else strcmpLoop memory rounds (lhs + 1) (rhs + 1)

def strcmp (memory : ByteMemory) (rounds lhs rhs : Nat) : Outcome Int :=
  if lhs = 0 ∧ rhs = 0 then pure 0
  else if lhs = 0 ∧ rhs ≠ 0 then pure 1
  else if lhs ≠ 0 ∧ rhs = 0 then pure (-1)
  else strcmpLoop memory rounds lhs rhs

def comparison : List UInt8 → List UInt8 → Int
  | [], [] => 0
  | [], _ :: _ => -1
  | _ :: _, [] => 1
  | left :: first, right :: second =>
      if left = right then comparison first second
      else ((left - right).toNat : Int)

section

variable {memory : ByteMemory} {rounds lhs rhs : Nat} {first second : List UInt8}

theorem diff_eq_zero_iff {left right : UInt8} : left - right = 0 ↔ left = right := by
  constructor
  · intro zero
    rw [← UInt8.sub_add_cancel left right, zero, UInt8.zero_add]
  · rintro rfl
    exact UInt8.sub_self left

theorem diff_toNat_pos {left right : UInt8} (apart : left ≠ right) :
    0 < (left - right).toNat := by
  apply Nat.pos_of_ne_zero
  intro zero
  exact apart (diff_eq_zero_iff.mp (UInt8.toNat_inj.mp zero))

theorem comparison_eq_zero_iff (first second : List UInt8) :
    comparison first second = 0 ↔ first = second := by
  induction first generalizing second with
  | nil => cases second <;> simp [comparison]
  | cons left first induction =>
      cases second with
      | nil => simp [comparison]
      | cons right second =>
          rw [comparison, List.cons.injEq]
          by_cases same : left = right
          · simp [same, induction]
          · have positive := diff_toNat_pos same
            rw [if_neg same]
            constructor
            · omega
            · intro equal
              exact absurd equal.1 same

def roundResult (left right : UInt8) : Option Int :=
  if left = right then if left = 0 then some 0 else none
  else if left = 0 then some (-1)
  else if right = 0 then some 1
  else some (left - right).toNat

theorem strcmpLoop_succ (memory : ByteMemory) (rounds lhs rhs : Nat) :
    strcmpLoop memory (rounds + 1) lhs rhs =
      (roundResult (memory lhs) (memory rhs)).elim
        (strcmpLoop memory rounds (lhs + 1) (rhs + 1)) pure := by
  rw [strcmpLoop, roundResult]
  by_cases same : memory lhs = memory rhs
  · by_cases ends : memory rhs = 0 <;> simp [same, ends]
  · have apart : memory lhs - memory rhs ≠ 0 := fun zero =>
      same (diff_eq_zero_iff.mp zero)
    by_cases leftEnds : memory lhs = 0
    · rw [leftEnds] at same
      simp [leftEnds, same, Ne.symm same]
    · by_cases rightEnds : memory rhs = 0 <;> simp [same, apart, leftEnds, rightEnds]

/-- A round decides the comparison of two texts, also of longer starts of them,
or it passes a byte that they share. -/
theorem round_cases (left : memory.Text lhs first) (right : memory.Text rhs second) :
    (roundResult (memory lhs) (memory rhs) = some (comparison first second) ∧
        ∀ count, comparison (first.take (count + 1)) (second.take (count + 1)) =
          comparison first second) ∨
      ∃ byte rest more, first = byte :: rest ∧ second = byte :: more ∧
        roundResult (memory lhs) (memory rhs) = none ∧
        memory.Text (lhs + 1) rest ∧ memory.Text (rhs + 1) more := by
  cases first with
  | nil =>
      have leftEnds := ByteMemory.text_nil.mp left
      cases second with
      | nil =>
          have rightEnds := ByteMemory.text_nil.mp right
          rw [leftEnds, rightEnds]
          exact .inl ⟨rfl, fun _ => rfl⟩
      | cons other more =>
          obtain ⟨⟨there, nonzero⟩, _⟩ := ByteMemory.text_cons.mp right
          rw [leftEnds, there, roundResult, if_neg nonzero.symm]
          exact .inl ⟨rfl, fun _ => rfl⟩
  | cons byte rest =>
      obtain ⟨⟨here, nonzero⟩, tail⟩ := ByteMemory.text_cons.mp left
      cases second with
      | nil =>
          have rightEnds := ByteMemory.text_nil.mp right
          rw [here, rightEnds, roundResult, if_neg nonzero, if_neg nonzero]
          exact .inl ⟨rfl, fun _ => rfl⟩
      | cons other more =>
          obtain ⟨⟨there, otherNonzero⟩, others⟩ := ByteMemory.text_cons.mp right
          rw [here, there, roundResult]
          by_cases same : byte = other
          · rw [if_pos same, if_neg nonzero, same]
            exact .inr ⟨other, rest, more, rfl, rfl, rfl, tail, others⟩
          · rw [if_neg same, if_neg nonzero, if_neg otherNonzero]
            refine .inl ⟨?_, fun count => ?_⟩
            · rw [comparison, if_neg same]
            · rw [List.take_succ_cons, List.take_succ_cons, comparison, comparison,
                if_neg same, if_neg same]

theorem strcmpLoop_eq (left : memory.Text lhs first)
    (right : memory.Text rhs second) (enough : first.length < rounds) :
    strcmpLoop memory rounds lhs rhs = .ok (comparison first second) := by
  induction rounds generalizing lhs rhs first second with
  | zero => contradiction
  | succ rounds induction =>
      rw [strcmpLoop_succ]
      rcases round_cases left right with
        ⟨decided, _⟩ | ⟨byte, rest, more, rfl, rfl, passed, tail, others⟩
      · rw [decided]
        rfl
      · rw [passed, Option.elim_none, comparison, if_pos rfl]
        exact induction tail others (Nat.lt_of_succ_lt_succ enough)

theorem strcmp_eq (left : memory.Text lhs first) (right : memory.Text rhs second)
    (leftAddress : lhs ≠ 0) (rightAddress : rhs ≠ 0)
    (enough : first.length < rounds) :
    strcmp memory rounds lhs rhs = .ok (comparison first second) := by
  simp only [strcmp, leftAddress, rightAddress, ne_eq, not_false_eq_true, and_true,
    and_false, if_false]
  exact strcmpLoop_eq left right enough

theorem strcmp_texts (left : memory.Text lhs first) (right : memory.Text rhs second)
    (leftAddress : lhs ≠ 0) (rightAddress : rhs ≠ 0)
    (enough : first.length < rounds) :
    ∃ result, strcmp memory rounds lhs rhs = .ok result ∧
      (result = 0 ↔ first = second) :=
  ⟨_, strcmp_eq left right leftAddress rightAddress enough,
    comparison_eq_zero_iff first second⟩

end

end Thos.Libc
