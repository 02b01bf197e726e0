import Thos.Libc.String

namespace Thos.Libc

open Thos.Kernel

/-! The length of a string, with the addresses that are read for it. -/

structure Scan where
  count : Nat
  addresses : List Nat
  deriving DecidableEq, Repr

def strlenLoop (memory : ByteMemory) : Nat → Nat → Nat → Outcome Nat
  | 0, _, _ => throw .outOfFuel
  | rounds + 1, str, count =>
      if memory str ≠ 0 then strlenLoop memory rounds (str + 1) (count + 1)
      else pure count

def strlen (memory : ByteMemory) (rounds str : Nat) : Outcome Nat :=
  if str = 0 then pure 0 else strlenLoop memory rounds str 0

/-- The loop of `strnlen_s`. `*str` is tested before `strsz > 0`. -/
def strnlenSLoop (memory : ByteMemory) : Nat → Nat → Nat → Scan
  | 0, str, count => ⟨count, [str]⟩
  | strsz + 1, str, count =>
      if memory str ≠ 0 then
        let scan := strnlenSLoop memory strsz (str + 1) (count + 1)
        ⟨scan.count, str :: scan.addresses⟩
      else ⟨count, [str]⟩

def strnlenS (memory : ByteMemory) (str strsz : Nat) : Scan :=
  if str = 0 then ⟨0, []⟩ else strnlenSLoop memory strsz str 0

def Scan.Within (scan : Scan) (str strsz : Nat) : Prop :=
  ∀ address ∈ scan.addresses, str ≤ address ∧ address < str + strsz

variable {memory : ByteMemory} {str count : Nat} {array : List UInt8}

theorem strnlenSLoop_count (held : memory.Holds str array) :
    (strnlenSLoop memory array.length str count).count =
      count + array.idxOf 0 := by
  induction array generalizing str count with
  | nil => rfl
  | cons byte rest induction =>
      obtain ⟨here, others⟩ := held
      rw [List.length_cons, strnlenSLoop, here, List.idxOf_cons]
      cases stop : byte == 0 with
      | true =>
          have zero : byte = 0 := eq_of_beq stop
          rw [if_neg (not_not_intro zero)]
          rfl
      | false =>
          have nonzero : byte ≠ 0 := ne_of_beq_false stop
          have later : (strnlenSLoop memory rest.length (str + 1) (count + 1)).count =
              count + 1 + rest.idxOf 0 := induction others
          rw [if_pos nonzero]
          simp only [later, cond_false]
          omega

theorem mem_strnlenSLoop (held : memory.Holds str array) (address : Nat) :
    address ∈ (strnlenSLoop memory array.length str count).addresses ↔
      str ≤ address ∧ address ≤ str + array.idxOf 0 := by
  induction array generalizing str count with
  | nil =>
      simp only [List.length_nil, strnlenSLoop, List.mem_singleton, List.idxOf_nil]
      omega
  | cons byte rest induction =>
      obtain ⟨here, others⟩ := held
      rw [List.length_cons, strnlenSLoop, here, List.idxOf_cons]
      cases stop : byte == 0 with
      | true =>
          have zero : byte = 0 := eq_of_beq stop
          rw [if_neg (not_not_intro zero), List.mem_singleton, cond_true]
          omega
      | false =>
          have nonzero : byte ≠ 0 := ne_of_beq_false stop
          rw [if_pos nonzero, cond_false, List.mem_cons, induction others]
          omega

theorem strlenLoop_eq {rounds : Nat} (held : memory.Holds str array)
    (ends : 0 ∈ array) (enough : array.idxOf 0 < rounds) :
    strlenLoop memory rounds str count = .ok (count + array.idxOf 0) := by
  induction array generalizing str count rounds with
  | nil => contradiction
  | cons byte rest induction =>
      obtain ⟨here, others⟩ := held
      cases rounds with
      | zero => contradiction
      | succ rounds =>
          rw [strlenLoop, here]
          rw [List.idxOf_cons] at enough ⊢
          cases stop : byte == 0 with
          | true =>
              have zero : byte = 0 := eq_of_beq stop
              rw [if_neg (not_not_intro zero)]
              rfl
          | false =>
              have nonzero : byte ≠ 0 := ne_of_beq_false stop
              have further : 0 ∈ rest :=
                (List.mem_cons.mp ends).resolve_left nonzero.symm
              rw [stop, cond_false] at enough
              rw [if_pos nonzero, cond_false,
                induction others further (Nat.lt_of_succ_lt_succ enough)]
              congr 1
              omega

theorem strnlenS_count (held : memory.Holds str array) (somewhere : str ≠ 0) :
    (strnlenS memory str array.length).count = array.idxOf 0 := by
  rw [strnlenS, if_neg somewhere, strnlenSLoop_count held, Nat.zero_add]

theorem strnlenS_within_iff (held : memory.Holds str array) (somewhere : str ≠ 0) :
    (strnlenS memory str array.length).Within str array.length ↔ 0 ∈ array := by
  rw [strnlenS, if_neg somewhere, ← List.idxOf_lt_length_iff]
  constructor
  · intro within
    have last : str + array.idxOf 0 ∈
        (strnlenSLoop memory array.length str 0).addresses :=
      (mem_strnlenSLoop held _).mpr ⟨Nat.le_add_right .., Nat.le_refl _⟩
    have := within _ last
    omega
  · intro ends address member
    have := (mem_strnlenSLoop held address).mp member
    omega

theorem strlen_eq {rounds : Nat} (held : memory.Holds str array)
    (somewhere : str ≠ 0) (ends : 0 ∈ array) (enough : array.idxOf 0 < rounds) :
    strlen memory rounds str = .ok (array.idxOf 0) := by
  rw [strlen, if_neg somewhere, strlenLoop_eq held ends enough, Nat.zero_add]

/-- `strnlen_s` stays inside its array when the array holds a NUL, and only
then. The length is right in both cases. -/
theorem strnlenS_bounded_iff (held : memory.Holds str array)
    (somewhere : str ≠ 0) :
    ((strnlenS memory str array.length).Within str array.length ∧
      (strnlenS memory str array.length).count = array.idxOf 0 ∧
      (0 ∈ array → ∀ rounds, array.idxOf 0 < rounds →
        strlen memory rounds str =
          .ok (strnlenS memory str array.length).count)) ↔
      0 ∈ array := by
  rw [strnlenS_within_iff held somewhere, strnlenS_count held somewhere]
  constructor
  · intro bounded
    exact bounded.1
  · intro ends
    refine ⟨ends, rfl, ?_⟩
    intro _ rounds enough
    exact strlen_eq held somewhere ends enough

def oneLetter : ByteMemory := fun address => if address = 8 then 97 else 0

theorem strnlenS_bounded_iff_sample :
    (strnlenS oneLetter 8 2).Within 8 2 ∧ (strnlenS oneLetter 8 2).count = 1 ∧
      strlen oneLetter 2 8 = .ok 1 := by
  have held : oneLetter.Holds 8 [97, 0] := ⟨rfl, rfl, trivial⟩
  obtain ⟨within, count, same⟩ :=
    (strnlenS_bounded_iff held (by decide)).mpr (by decide)
  exact ⟨within, count, same (by decide) 2 (by decide)⟩

/-- One byte without a NUL: the byte after it is read too. -/
theorem strnlenS_reads_past :
    oneLetter.Holds 8 [97] ∧
      strnlenS oneLetter 8 1 = ⟨1, [8, 9]⟩ ∧
      ¬ (strnlenS oneLetter 8 1).Within 8 1 := by
  refine ⟨⟨rfl, trivial⟩, rfl, ?_⟩
  intro within
  have past := within 9 (by decide)
  omega

end Thos.Libc
