import Mathlib.Data.Nat.Bitwise

namespace Thos

/-! The single bits of a device's register, and the atomic update of a word. -/

/-- `BIT_TO_INT`, for a shift less than the width of an `int`. -/
def bitToInt (bitNumber : Nat) : BitVec 32 := 1#32 <<< bitNumber

def bitGet (value : BitVec 32) (bitNumber : Nat) : Bool :=
  value &&& bitToInt bitNumber != 0#32

/-- `atomic_or_memory_word`: the former word, and the word it leaves. -/
def atomicOrMemoryWord (stored value : BitVec 32) : BitVec 32 × BitVec 32 :=
  (stored, stored ||| value)

theorem getLsbD_bitToInt {bitNumber index : Nat} (inside : index < 32) :
    (bitToInt bitNumber).getLsbD index = decide (index = bitNumber) := by
  rw [bitToInt, BitVec.getLsbD_shiftLeft, BitVec.getLsbD_one,
    decide_eq_true inside, decide_eq_true (by decide : 0 < 32)]
  by_cases below : index < bitNumber
  · have different : index ≠ bitNumber := Nat.ne_of_lt below
    simp [below, different]
  · have same : index - bitNumber = 0 ↔ index = bitNumber := by omega
    simp [below, same]

theorem bitGet_eq {value : BitVec 32} {bitNumber : Nat} (inside : bitNumber < 32) :
    bitGet value bitNumber = value.getLsbD bitNumber := by
  have masked : ∀ index < 32, (value &&& bitToInt bitNumber).getLsbD index =
      (value.getLsbD index && decide (index = bitNumber)) := by
    intro index bound
    rw [BitVec.getLsbD_and, getLsbD_bitToInt bound]
  cases bit : value.getLsbD bitNumber with
  | false =>
      rw [bitGet, bne_eq_false_iff_eq]
      apply BitVec.eq_of_getLsbD_eq
      intro index bound
      rw [masked index bound, BitVec.getLsbD_zero]
      by_cases same : index = bitNumber
      · rw [same, bit, Bool.false_and]
      · rw [decide_eq_false same, Bool.and_false]
  | true =>
      rw [bitGet, bne_iff_ne]
      intro zero
      have read := masked bitNumber inside
      rw [zero, BitVec.getLsbD_zero, bit, decide_eq_true rfl] at read
      exact absurd read (by decide)

end Thos
