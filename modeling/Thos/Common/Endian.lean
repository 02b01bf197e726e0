import Mathlib.Data.List.Basic
import Mathlib.Tactic.IntervalCases

namespace Thos

def swapEndianness32 (num : UInt32) : UInt32 :=
  ((num >>> 24) &&& (0xFF : UInt32)) ||| ((num >>> 8) &&& (0xFF00 : UInt32)) |||
    ((num <<< 8) &&& (0xFF0000 : UInt32)) |||
      ((num <<< 24) &&& (0xFF000000 : UInt32))

abbrev ByteMemory := Nat → UInt8

/-- A load of a `uint32_t`, little-endian as RISC-V is. -/
def ByteMemory.load32 (memory : ByteMemory) (address : Nat) : UInt32 :=
  (memory address).toUInt32 ||| ((memory (address + 1)).toUInt32 <<< 8) |||
    ((memory (address + 2)).toUInt32 <<< 16) |||
      ((memory (address + 3)).toUInt32 <<< 24)

/-- The bytes of a word, most significant first. -/
def bigEndian (value : UInt32) : List UInt8 :=
  [(value >>> 24).toUInt8, (value >>> 16).toUInt8, (value >>> 8).toUInt8,
    value.toUInt8]

@[simp] theorem length_bigEndian (value : UInt32) : (bigEndian value).length = 4 :=
  rfl

theorem mask_bits : ∀ index < 32,
    (0xFF#32).getLsbD index = decide (index / 8 = 0) ∧
    (0xFF00#32).getLsbD index = decide (index / 8 = 1) ∧
    (0xFF0000#32).getLsbD index = decide (index / 8 = 2) ∧
    (0xFF000000#32).getLsbD index = decide (index / 8 = 3) := by
  decide

def wordBit (value : UInt32) (octet offset : Nat) : Bool :=
  value.toBitVec.getLsbD (8 * octet + offset)

theorem eq_of_wordBits {first second : UInt32}
    (same : ∀ octet < 4, ∀ offset < 8,
      wordBit first octet offset = wordBit second octet offset) :
    first = second := by
  apply UInt32.eq_of_toBitVec_eq
  apply BitVec.eq_of_getLsbD_eq
  intro index bound
  have whole := same (index / 8) (by omega) (index % 8) (Nat.mod_lt _ (by decide))
  rw [wordBit, wordBit, Nat.div_add_mod] at whole
  exact whole

theorem wordBit_swap (value : UInt32) {octet offset : Nat}
    (inWord : octet < 4) (inByte : offset < 8) :
    wordBit (swapEndianness32 value) octet offset =
      wordBit value (3 - octet) offset := by
  have inside : 8 * octet + offset < 32 := by omega
  have inWidth : decide (8 * octet + offset < 32) = true := decide_eq_true inside
  have place : (8 * octet + offset) / 8 = octet := by omega
  obtain ⟨zero, one, two, three⟩ := mask_bits _ inside
  rw [place] at zero one two three
  simp only [wordBit, swapEndianness32, UInt32.toBitVec_or, UInt32.toBitVec_and,
    UInt32.toBitVec_shiftRight, UInt32.toBitVec_shiftLeft, UInt32.toBitVec_ofNat,
    BitVec.reduceMod, BitVec.shiftLeft_eq', BitVec.ushiftRight_eq',
    BitVec.reduceToNat, BitVec.getLsbD_or, BitVec.getLsbD_and,
    BitVec.getLsbD_ushiftRight, BitVec.getLsbD_shiftLeft, zero, one, two, three,
    inWidth, Bool.true_and]
  interval_cases octet
  · simp
  · simp [← Nat.add_assoc]
  · have shifted : 8 * 2 + offset - 8 = 8 * (3 - 2) + offset := by omega
    have below : ¬ 8 * 2 + offset < 8 := by omega
    simp [shifted, below]
  · have shifted : 8 * 3 + offset - 24 = 8 * (3 - 3) + offset := by omega
    have below : ¬ 8 * 3 + offset < 24 := by omega
    simp [shifted, below]

theorem swapEndianness32_swap (value : UInt32) :
    swapEndianness32 (swapEndianness32 value) = value := by
  apply eq_of_wordBits
  intro octet inWord offset inByte
  rw [wordBit_swap _ inWord inByte, wordBit_swap _ (by omega) inByte]
  congr 1
  omega

def ByteMemory.Holds (memory : ByteMemory) (address : Nat) : List UInt8 → Prop
  | [] => True
  | byte :: bytes => memory address = byte ∧ Holds memory (address + 1) bytes

namespace ByteMemory

variable {memory : ByteMemory}

instance decidableHolds (memory : ByteMemory) (address : Nat) :
    (bytes : List UInt8) → Decidable (memory.Holds address bytes)
  | [] => .isTrue trivial
  | _ :: bytes =>
      have := decidableHolds memory (address + 1) bytes
      inferInstanceAs (Decidable (_ ∧ _))

@[simp] theorem holds_nil (address : Nat) : memory.Holds address [] := trivial

@[simp] theorem holds_cons {address : Nat} {byte : UInt8} {bytes : List UInt8} :
    memory.Holds address (byte :: bytes) ↔
      memory address = byte ∧ memory.Holds (address + 1) bytes :=
  Iff.rfl

theorem holds_append {address : Nat} {first second : List UInt8} :
    memory.Holds address (first ++ second) ↔
      memory.Holds address first ∧ memory.Holds (address + first.length) second := by
  induction first generalizing address with
  | nil => simp
  | cons byte bytes induction =>
      rw [List.cons_append, holds_cons, holds_cons, induction, List.length_cons,
        and_assoc, Nat.add_assoc, Nat.add_comm 1]

theorem wordBit_load32 (memory : ByteMemory) (address : Nat) {octet offset : Nat}
    (inWord : octet < 4) (inByte : offset < 8) :
    wordBit (memory.load32 address) octet offset =
      (memory (address + octet)).toBitVec.getLsbD offset := by
  rw [wordBit]
  interval_cases octet <;>
    simp (disch := omega) [ByteMemory.load32, decide_eq_true, decide_eq_false,
      BitVec.getLsbD_of_ge]

theorem load32_of_holds {address : Nat} {value : UInt32}
    (holds : memory.Holds address (bigEndian value)) :
    memory.load32 address = swapEndianness32 value := by
  obtain ⟨first, second, third, fourth, _⟩ := holds
  apply eq_of_wordBits
  intro octet inWord offset inByte
  rw [wordBit_load32 memory address inWord inByte,
    wordBit_swap value inWord inByte, wordBit]
  interval_cases octet
  · rw [Nat.add_zero, first]
    simp [inByte]
  · rw [second]
    simp [inByte]
  · rw [third]
    simp [inByte]
  · rw [fourth]
    simp [inByte]

theorem swap_load32 {address : Nat} {value : UInt32}
    (holds : memory.Holds address (bigEndian value)) :
    swapEndianness32 (memory.load32 address) = value := by
  rw [load32_of_holds holds, swapEndianness32_swap]

theorem load32_eq_iff {address : Nat} {value : UInt32} (token : UInt32)
    (holds : memory.Holds address (bigEndian value)) :
    memory.load32 address = swapEndianness32 token ↔ value = token := by
  rw [load32_of_holds holds]
  constructor
  · intro equal
    rw [← swapEndianness32_swap value, equal, swapEndianness32_swap]
  · exact congrArg swapEndianness32

theorem holds_load32 (memory : ByteMemory) (address : Nat) :
    memory.Holds address
      (bigEndian (swapEndianness32 (memory.load32 address))) := by
  have byte : ∀ octet < 4, ∀ offset < 8,
      wordBit (swapEndianness32 (memory.load32 address)) (3 - octet) offset =
        (memory (address + octet)).toBitVec.getLsbD offset := by
    intro octet inWord offset inByte
    rw [wordBit_swap _ (by omega) inByte,
      ← wordBit_load32 memory address inWord inByte]
    congr 1
    omega
  generalize swapEndianness32 (memory.load32 address) = value at byte
  refine ⟨?_, ?_, ?_, ?_, trivial⟩
  all_goals
    apply UInt8.eq_of_toBitVec_eq
    apply BitVec.eq_of_getLsbD_eq
    intro offset inByte
  · have first := byte 0 (by decide) offset inByte
    rw [Nat.add_zero] at first
    rw [← first, wordBit]
    simp [inByte]
  · rw [← byte 1 (by decide) offset inByte, wordBit]
    simp [inByte]
  · rw [← byte 2 (by decide) offset inByte, wordBit]
    simp [inByte]
  · rw [← byte 3 (by decide) offset inByte, wordBit]
    simp [inByte]

def read (memory : ByteMemory) (address : Nat) : Nat → List UInt8
  | 0 => []
  | length + 1 => memory address :: memory.read (address + 1) length

@[simp] theorem length_read (memory : ByteMemory) (address length : Nat) :
    (memory.read address length).length = length := by
  induction length generalizing address with
  | zero => rfl
  | succ length induction => exact congrArg (· + 1) (induction (address + 1))

theorem holds_iff_read {address : Nat} {bytes : List UInt8} :
    memory.Holds address bytes ↔ memory.read address bytes.length = bytes := by
  induction bytes generalizing address with
  | nil => exact iff_of_true trivial rfl
  | cons byte bytes induction =>
      rw [holds_cons, List.length_cons, read, List.cons.injEq, induction]

theorem holds_read (memory : ByteMemory) (address length : Nat) :
    memory.Holds address (memory.read address length) :=
  holds_iff_read.mpr (by rw [length_read])

theorem Holds.eq_of_length {address : Nat} {first second : List UInt8}
    (one : memory.Holds address first) (two : memory.Holds address second)
    (same : first.length = second.length) : first = second := by
  rw [← holds_iff_read.mp one, same, holds_iff_read.mp two]

def ofBytes (address : Nat) (bytes : List UInt8) : ByteMemory :=
  fun pointer => bytes.getD (pointer - address) 0

theorem holds_ofBytes (address : Nat) (before bytes after : List UInt8) :
    (ofBytes address (before ++ (bytes ++ after))).Holds
      (address + before.length) bytes := by
  induction bytes generalizing before with
  | nil => exact holds_nil _
  | cons byte bytes induction =>
      constructor
      · simp [ofBytes]
      · have rest := induction (before ++ [byte])
        rw [List.length_append, List.length_singleton, ← Nat.add_assoc,
          List.append_assoc, List.singleton_append] at rest
        exact rest

theorem holds_ofBytes_self (address : Nat) (bytes : List UInt8) :
    (ofBytes address bytes).Holds address bytes := by
  have whole := holds_ofBytes address [] bytes []
  rw [List.append_nil, List.nil_append] at whole
  exact whole

end ByteMemory

end Thos
