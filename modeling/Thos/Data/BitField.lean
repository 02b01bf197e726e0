import Mathlib.Algebra.BigOperators.Group.List.Basic
import Mathlib.Algebra.GroupWithZero.Nat

namespace Data.BitField

/-! Bit-fields of one word, the first of them in the lowest bits. -/

def pack : List Nat → List Nat → Nat
  | [], _ => 0
  | _ :: _, [] => 0
  | width :: widths, value :: values =>
      value % 2 ^ width + 2 ^ width * pack widths values

def unpack : List Nat → Nat → List Nat
  | [], _ => []
  | width :: widths, word => word % 2 ^ width :: unpack widths (word / 2 ^ width)

def Fits : List Nat → List Nat → Prop
  | [], [] => True
  | width :: widths, value :: values => value < 2 ^ width ∧ Fits widths values
  | _, _ => False

theorem unpack_pack {widths values : List Nat} (fits : Fits widths values) :
    unpack widths (pack widths values) = values := by
  induction widths generalizing values with
  | nil =>
      cases values with
      | nil => rfl
      | cons value values => exact fits.elim
  | cons width widths induction =>
      cases values with
      | nil => exact fits.elim
      | cons value values =>
          have positive := Nat.two_pow_pos width
          rw [pack, unpack, Nat.mod_eq_of_lt fits.1, Nat.add_mul_mod_self_left,
            Nat.mod_eq_of_lt fits.1, Nat.add_mul_div_left _ _ positive,
            Nat.div_eq_of_lt fits.1, Nat.zero_add, induction fits.2]

theorem pack_lt (widths values : List Nat) : pack widths values < 2 ^ widths.sum := by
  induction widths generalizing values with
  | nil => exact Nat.one_pos
  | cons width widths induction =>
      cases values with
      | nil => exact Nat.two_pow_pos _
      | cons value values =>
          have low := Nat.mod_lt value (Nat.two_pow_pos width)
          have high := induction values
          rw [pack, List.sum_cons, Nat.pow_add]
          calc value % 2 ^ width + 2 ^ width * pack widths values
              < 2 ^ width + 2 ^ width * pack widths values :=
                Nat.add_lt_add_right low _
            _ = 2 ^ width * (pack widths values + 1) := by
                rw [Nat.mul_add, Nat.mul_one, Nat.add_comm]
            _ ≤ 2 ^ width * 2 ^ widths.sum := Nat.mul_le_mul_left _ high

theorem pack_or {width bits : Nat} (widths values : List Nat) (value : Nat)
    (inside : bits < 2 ^ width) :
    pack (width :: widths) (value :: values) ||| bits =
      pack (width :: widths) ((value ||| bits) :: values) := by
  have low := Nat.mod_lt value (Nat.two_pow_pos width)
  have same : value % 2 ^ width ||| bits = (value ||| bits) % 2 ^ width := by
    rw [Nat.or_mod_two_pow, Nat.mod_eq_of_lt inside]
  rw [pack, pack, ← same, Nat.add_comm, Nat.add_comm (_ ||| bits),
    Nat.two_pow_add_eq_or_of_lt low, Nat.or_assoc,
    Nat.two_pow_add_eq_or_of_lt (Nat.or_lt_two_pow low inside)]

end Data.BitField
