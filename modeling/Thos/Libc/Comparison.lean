import Thos.Libc.String

namespace Thos.Libc

open Thos.Kernel

/-! The order of strings.  A string is compared by its bytes, since a `char` is
unsigned. -/

def strncmpLoop (memory : ByteMemory) (lhs rhs : Nat) : Nat → Nat → Int
  | 0, _ => 0
  | rounds + 1, i =>
      let left := memory (lhs + i)
      let right := memory (rhs + i)
      if left = 0 ∧ right ≠ 0 then -1
      else if left ≠ 0 ∧ right = 0 then 1
      else if left = 0 ∧ right = 0 then 0
      else
        let diff := left - right
        if diff ≠ 0 then (diff.toNat : Int)
        else strncmpLoop memory lhs rhs rounds (i + 1)

def strncmp (memory : ByteMemory) (lhs rhs count : Nat) : Int :=
  if count = 0 then 0
  else if lhs = 0 ∧ rhs = 0 then 0
  else if lhs = 0 ∧ rhs ≠ 0 then 1
  else if lhs ≠ 0 ∧ rhs = 0 then -1
  else strncmpLoop memory lhs rhs count 0

/-- The sign of a result is the order of two texts. -/
structure Orders (result : Int) (first second : List UInt8) : Prop where
  equal : result = 0 ↔ first = second
  before : result < 0 ↔ first < second
  after : 0 < result ↔ second < first

theorem comparison_neg_iff (first second : List UInt8) :
    comparison first second < 0 ↔ first <+: second ∧ first ≠ second := by
  induction first generalizing second with
  | nil => cases second <;> simp [comparison]
  | cons left first induction =>
      cases second with
      | nil => simp [comparison]
      | cons right second =>
          rw [comparison, List.cons_prefix_cons]
          by_cases same : left = right
          · simp [same, induction]
          · rw [if_neg same]
            constructor
            · omega
            · intro further
              exact absurd further.1.1 same

theorem comparison_pos_iff (first second : List UInt8) :
    0 < comparison first second ↔ ¬ first <+: second := by
  have zero := comparison_eq_zero_iff first second
  have negative := comparison_neg_iff first second
  constructor
  · intro positive further
    by_cases same : first = second
    · have := zero.mpr same
      omega
    · have := negative.mpr ⟨further, same⟩
      omega
  · intro apart
    by_contra notPositive
    rcases Int.lt_or_eq_of_le (Int.not_lt.mp notPositive) with below | same
    · exact apart (negative.mp below).1
    · rw [zero.mp same] at apart
      exact apart List.prefix_rfl

theorem before_of_start {first second : List UInt8} (further : first <+: second)
    (apart : first ≠ second) : first < second := by
  obtain ⟨rest, rfl⟩ := further
  cases rest with
  | nil => simp at apart
  | cons byte rest =>
      have longer : first ++ [] < first ++ byte :: rest :=
        List.append_left_lt (List.nil_lt_cons byte rest)
      rwa [List.append_nil] at longer

/-- `diff` is a `char`, so a smaller byte of the left string counts as larger. -/
theorem comparison_orders_iff (first second : List UInt8) :
    Orders (comparison first second) first second ↔
      (first < second → first <+: second) := by
  constructor
  · intro orders precedes
    exact ((comparison_neg_iff first second).mp (orders.before.mpr precedes)).1
  · intro condition
    refine ⟨comparison_eq_zero_iff first second, ?_, ?_⟩
    · rw [comparison_neg_iff]
      constructor
      · intro further
        exact before_of_start further.1 further.2
      · intro precedes
        refine ⟨condition precedes, ?_⟩
        rintro rfl
        exact List.lt_irrefl first precedes
    · rw [comparison_pos_iff]
      constructor
      · intro apart
        have notBefore : ¬ first < second := fun precedes =>
          apart (condition precedes)
        by_contra notAfter
        have same := Std.Trichotomous.trichotomous (r := (· < ·)) first second
          notBefore notAfter
        rw [same] at apart
        exact apart List.prefix_rfl
      · intro after further
        by_cases same : first = second
        · rw [same] at after
          exact List.lt_irrefl second after
        · exact List.lt_asymm after (before_of_start further same)

variable {memory : ByteMemory} {lhs rhs : Nat} {first second : List UInt8}

theorem strncmpLoop_succ (memory : ByteMemory) (lhs rhs count i : Nat) :
    strncmpLoop memory lhs rhs (count + 1) i =
      (roundResult (memory (lhs + i)) (memory (rhs + i))).getD
        (strncmpLoop memory lhs rhs count (i + 1)) := by
  rw [strncmpLoop, roundResult]
  by_cases same : memory (lhs + i) = memory (rhs + i)
  · by_cases ends : memory (rhs + i) = 0 <;> simp [same, ends]
  · have apart : memory (lhs + i) - memory (rhs + i) ≠ 0 := fun zero =>
      same (diff_eq_zero_iff.mp zero)
    by_cases leftEnds : memory (lhs + i) = 0
    · rw [leftEnds] at same
      simp [leftEnds, same, Ne.symm same]
    · by_cases rightEnds : memory (rhs + i) = 0 <;>
        simp [same, apart, leftEnds, rightEnds]

theorem strncmpLoop_eq {count i : Nat} (left : memory.Text (lhs + i) first)
    (right : memory.Text (rhs + i) second) :
    strncmpLoop memory lhs rhs count i =
      comparison (first.take count) (second.take count) := by
  induction count generalizing i first second with
  | zero => rfl
  | succ count induction =>
      rw [strncmpLoop_succ]
      rcases round_cases left right with
        ⟨decided, starts⟩ | ⟨byte, rest, more, rfl, rfl, passed, tail, others⟩
      · rw [decided, Option.getD_some, starts count]
      · rw [passed, Option.getD_none, List.take_succ_cons, List.take_succ_cons,
          comparison, if_pos rfl]
        exact induction tail others

theorem strncmp_eq (left : memory.Text lhs first) (right : memory.Text rhs second)
    (leftAddress : lhs ≠ 0) (rightAddress : rhs ≠ 0) (count : Nat) :
    strncmp memory lhs rhs count =
      comparison (first.take count) (second.take count) := by
  rw [strncmp]
  split
  case isTrue empty =>
    rw [empty, List.take_zero, List.take_zero]
    rfl
  case isFalse some =>
    simp only [leftAddress, rightAddress, ne_eq, not_false_eq_true, and_true,
      and_false, if_false]
    exact strncmpLoop_eq left right

/-- The sign of `strcmp` and of `strncmp` is the order of the texts compared
unless the left one precedes the right one without being its start. -/
theorem strcmp_strncmp_order_iff (left : memory.Text lhs first)
    (right : memory.Text rhs second) (leftAddress : lhs ≠ 0)
    (rightAddress : rhs ≠ 0) :
    (∀ rounds, first.length < rounds →
      ∃ result, strcmp memory rounds lhs rhs = .ok result ∧
        (Orders result first second ↔ (first < second → first <+: second))) ∧
      ∀ count, Orders (strncmp memory lhs rhs count) (first.take count)
          (second.take count) ↔
        (first.take count < second.take count →
          first.take count <+: second.take count) := by
  constructor
  · intro rounds enough
    exact ⟨_, strcmp_eq left right leftAddress rightAddress enough,
      comparison_orders_iff first second⟩
  · intro count
    rw [strncmp_eq left right leftAddress rightAddress]
    exact comparison_orders_iff (first.take count) (second.take count)

def ByteMemory.twoLetters : ByteMemory := fun address =>
  if address = 8 then 97 else if address = 16 then 98 else 0

theorem ByteMemory.twoLetters_texts :
    twoLetters.Text 8 [97] ∧ twoLetters.Text 16 [98] :=
  ⟨⟨⟨rfl, rfl, trivial⟩, by decide⟩, ⟨⟨rfl, rfl, trivial⟩, by decide⟩⟩

theorem strcmp_strncmp_order_iff_sample :
    (∃ result, strcmp ByteMemory.twoLetters 2 16 8 = .ok result ∧
      Orders result [98] [97]) ∧
    Orders (strncmp ByteMemory.twoLetters 16 8 1) [98] [97] := by
  obtain ⟨compared, bounded⟩ := strcmp_strncmp_order_iff
    ByteMemory.twoLetters_texts.2 ByteMemory.twoLetters_texts.1 (by decide)
    (by decide)
  obtain ⟨result, returned, orders⟩ := compared 2 (by decide)
  refine ⟨⟨result, returned, orders.mpr ?_⟩, (bounded 1).mpr ?_⟩
  · exact fun precedes => absurd precedes (by decide)
  · exact fun precedes => absurd precedes (by decide)

/-- `"a"` precedes `"b"`, and both comparisons of the two are positive. -/
theorem strcmp_not_antisymmetric :
    strcmp ByteMemory.twoLetters 2 8 16 = .ok 255 ∧
      strcmp ByteMemory.twoLetters 2 16 8 = .ok 1 ∧
      strncmp ByteMemory.twoLetters 8 16 1 = 255 ∧
      strncmp ByteMemory.twoLetters 16 8 1 = 1 ∧
      ([97] : List UInt8) < [98] ∧
      ¬ Orders 255 [97] [98] := by
  refine ⟨by decide, by decide, by decide, by decide, by decide, ?_⟩
  intro orders
  have negative := orders.before.mpr (by decide)
  contradiction

end Thos.Libc
