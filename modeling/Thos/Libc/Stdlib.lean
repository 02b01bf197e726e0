import Mathlib.Tactic.Ring
import Thos.Common.BuildInfo

namespace Thos.Libc

/-! Strings are the characters before the terminating NUL. -/

def whitespace (ch : Char) : Bool := ch = ' ' || ch = '\n' || ch = '\t'

/-- The backward loop of `parse` over the digits, the last one first. -/
def parseLoop : List Char → Int → Int → Int
  | [], value, _ => value
  | ch :: before, value, multiplier =>
      parseLoop before
        (toInt64 (value + toInt64 ((ch.toNat - '0'.toNat : Nat) * multiplier)))
        (toInt64 (multiplier * 10))

def parse (string : List Char) : Int :=
  let trimmed := string.dropWhile whitespace
  let negative := trimmed.head? = some '-'
  let str := if trimmed.head? = some '+' ∨ negative then trimmed.tail else trimmed
  let digits := str.takeWhile fun ch => !whitespace ch && ch.isDigit
  if digits = [] then 0
  else
    let value := parseLoop digits.reverse 0 1
    if negative then toInt64 (-value) else value

def atoi (string : List Char) : Int := toInt (parse string)

theorem parseLoop_eq (digits : List Char) (value multiplier : Int) :
    parseLoop digits (toInt64 value) (toInt64 multiplier) =
      toInt64 (value + multiplier * Nat.ofDigitChars 10 digits.reverse 0) := by
  induction digits generalizing value multiplier with
  | nil => simp [parseLoop]
  | cons ch before induction =>
      have shifted : toInt64 (toInt64 multiplier * 10) =
          toInt64 (multiplier * 10) := by
        simp only [toInt64, Int.bmod_mul_bmod]
      have added : toInt64 (toInt64 value + toInt64
          ((ch.toNat - '0'.toNat : Nat) * toInt64 multiplier)) =
          toInt64 (value + (ch.toNat - '0'.toNat : Nat) * multiplier) := by
        simp only [toInt64, Int.bmod_add_bmod, Int.add_bmod_bmod,
          Int.mul_bmod_bmod]
      rw [parseLoop, shifted, added, induction, List.reverse_cons,
        Nat.ofDigitChars_append, Nat.ofDigitChars_cons, Nat.ofDigitChars_nil]
      congr 1
      push_cast
      ring

theorem whitespace_of_isDigit {ch : Char} (digit : ch.isDigit = true) :
    whitespace ch = false := by
  cases blank : whitespace ch with
  | false => rfl
  | true =>
      simp only [whitespace, Bool.or_eq_true, decide_eq_true_eq] at blank
      rcases blank with (rfl | rfl) | rfl <;> contradiction

theorem parse_digits {digits rest : List Char} (nonempty : digits ≠ [])
    (member : ∀ ch ∈ digits, ch.isDigit = true)
    (stop : ∀ ch ∈ rest.head?, ch.isDigit = false) :
    parse (digits ++ rest) = toInt64 (Nat.ofDigitChars 10 digits 0) := by
  have taken : ((digits ++ rest).takeWhile fun ch =>
      !whitespace ch && ch.isDigit) = digits := by
    rw [List.takeWhile_append_of_pos]
    · have none : (rest.takeWhile fun ch => !whitespace ch && ch.isDigit) = [] := by
        cases rest with
        | nil => rfl
        | cons ch rest => simp [stop ch rfl]
      rw [none, List.append_nil]
    · intro ch here
      simp [whitespace_of_isDigit (member ch here), member ch here]
  have trimmed : (digits ++ rest).dropWhile whitespace = digits ++ rest ∧
      (digits ++ rest).head? ≠ some '+' ∧ (digits ++ rest).head? ≠ some '-' := by
    cases digits with
    | nil => contradiction
    | cons first digits =>
        have digit := member first (List.mem_cons_self ..)
        refine ⟨by simp [whitespace_of_isDigit digit], ?_, ?_⟩
        · rintro same
          cases same
          contradiction
        · rintro same
          cases same
          contradiction
  obtain ⟨trim, plus, minus⟩ := trimmed
  have looped := parseLoop_eq digits.reverse 0 1
  simp only [parse, trim, plus, minus, or_self, if_false, taken, nonempty]
  simpa [toInt64] using looped

theorem toInt_toInt64 (value : Int) : toInt (toInt64 value) = toInt value :=
  Int.bmod_bmod_of_dvd (by decide)

theorem toInt_mod (value : Nat) : toInt (value % 2 ^ 32 : Nat) = toInt value := by
  rw [toInt, toInt, Int.natCast_emod]
  exact Int.emod_bmod value (2 ^ 32)

theorem atoi_decimal {digits rest : List Char} (nonempty : digits ≠ [])
    (member : ∀ ch ∈ digits, ch.isDigit = true)
    (stop : ∀ ch ∈ rest.head?, ch.isDigit = false) :
    atoi (digits ++ rest) = toInt (Nat.ofDigitChars 10 digits 0) := by
  rw [atoi, parse_digits nonempty member stop, toInt_toInt64]

theorem atoi_digits {digits rest : List Char} (nonempty : digits ≠ [])
    (member : ∀ ch ∈ digits, ch.isDigit = true)
    (stop : ∀ ch ∈ rest.head?, ch.isDigit = false)
    (bound : Nat.ofDigitChars 10 digits 0 ≤ intMax) :
    atoi (digits ++ rest) = Nat.ofDigitChars 10 digits 0 := by
  rw [atoi_decimal nonempty member stop, toInt_of_le bound]

end Thos.Libc
