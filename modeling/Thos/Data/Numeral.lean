import Mathlib.Tactic.Ring

namespace Data.Numeral

/-! Digits of a number at the places of a base, the most significant first. -/

def places (base : Nat) : Nat → Nat → List Nat
  | 0, _ => []
  | count + 1, value => value / base ^ count % base :: places base count value

@[simp] theorem length_places (base count value : Nat) :
    (places base count value).length = count := by
  induction count with
  | zero => rfl
  | succ count induction => simp [places, induction]

theorem places_succ (base count value : Nat) :
    places base (count + 1) value =
      places base count (value / base) ++ [value % base] := by
  induction count with
  | zero => simp [places]
  | succ count induction =>
      have top : value / base ^ (count + 1) = value / base / base ^ count := by
        rw [Nat.div_div_eq_div_mul, Nat.pow_succ']
      rw [places, induction, top]
      rfl

theorem places_mod (base count value : Nat) :
    places base count (value % base ^ count) = places base count value := by
  induction count generalizing value with
  | zero => rfl
  | succ count induction =>
      have upper : value % base ^ (count + 1) / base =
        value / base % base ^ count := by
        rw [Nat.pow_succ', Nat.mod_mul_right_div_self]
      have lower : value % base ^ (count + 1) % base = value % base := by
        rw [Nat.pow_succ', Nat.mod_mul_right_mod]
      rw [places_succ, places_succ, upper, lower, induction]

/-- Without the leading zeros; a single digit stays. -/
def significant : List Nat → List Nat
  | [] => []
  | [digit] => [digit]
  | 0 :: next :: rest => significant (next :: rest)
  | digit :: next :: rest => digit :: next :: rest

theorem significant_cons (digit : Nat) (rest : List Nat) :
    significant (digit :: rest) =
      if digit = 0 ∧ rest ≠ [] then significant rest else digit :: rest := by
  cases rest with
  | nil => simp [significant]
  | cons next rest => cases digit <;> simp [significant]

def nonzero (digits : List Nat) : List Nat := digits.dropWhile (· == 0)

@[simp] theorem nonzero_nil : nonzero [] = [] := rfl

theorem nonzero_append (digits : List Nat) (last : Nat) :
    nonzero (digits ++ [last]) =
      if nonzero digits = [] then nonzero [last] else nonzero digits ++ [last] := by
  simp only [nonzero, List.dropWhile_append, List.isEmpty_iff]
  congr

theorem significant_eq {digits : List Nat} (nonempty : digits ≠ []) :
    significant digits =
      if nonzero digits = [] then [0] else nonzero digits := by
  induction digits with
  | nil => contradiction
  | cons digit rest induction =>
      cases rest with
      | nil => cases digit <;> simp [significant, nonzero]
      | cons next rest =>
          cases digit with
          | zero => exact induction (List.cons_ne_nil next rest)
          | succ digit => simp [significant, nonzero]

theorem nonzero_places {base count value : Nat} (large : 1 < base)
    (bound : value < base ^ count) :
    (nonzero (places base count value)).map Nat.digitChar =
      if value = 0 then [] else Nat.toDigits base value := by
  induction count generalizing value with
  | zero =>
      have zero : value = 0 := by simpa using bound
      simp [places, zero]
  | succ count induction =>
      have below : value / base < base ^ count := by
        rw [Nat.pow_succ'] at bound
        exact Nat.div_lt_of_lt_mul bound
      have upper := induction below
      rw [places_succ, nonzero_append]
      by_cases small : value < base
      · have none : value / base = 0 := Nat.div_eq_of_lt small
        rw [none, if_pos rfl, List.map_eq_nil_iff] at upper
        rw [none, if_pos upper, Nat.mod_eq_of_lt small]
        by_cases zero : value = 0
        · simp [zero, nonzero]
        · simp [zero, nonzero, Nat.toDigits_of_lt_base small]
      · have some : value / base ≠ 0 := by
          rw [Nat.div_ne_zero_iff]
          exact ⟨by omega, by omega⟩
        rw [if_neg some] at upper
        have present : nonzero (places base count (value / base)) ≠ [] := by
          intro empty
          rw [empty] at upper
          exact Nat.toDigits_ne_nil upper.symm
        have positive : value ≠ 0 := by omega
        have split := Nat.toDigits_of_base_le large (Nat.le_of_not_lt small)
        rw [if_neg present, if_neg positive, List.map_append, upper, split]
        rfl

theorem significant_places {base count value : Nat} (large : 1 < base)
    (bound : value < base ^ (count + 1)) :
    (significant (places base (count + 1) value)).map Nat.digitChar =
      Nat.toDigits base value := by
  have digits := nonzero_places large bound
  rw [significant_eq (by simp [places])]
  by_cases zero : value = 0
  · rw [if_pos zero, List.map_eq_nil_iff] at digits
    rw [if_pos digits, zero, Nat.toDigits_zero]
    rfl
  · rw [if_neg zero] at digits
    rw [if_neg, digits]
    intro empty
    rw [empty] at digits
    exact Nat.toDigits_ne_nil digits.symm

def digitValue (ch : Char) : Nat :=
  if ch.isDigit then ch.toNat - '0'.toNat else ch.toNat - 'a'.toNat + 10

def denoted (base : Nat) (numeral : List Char) : Nat :=
  numeral.foldl (fun value ch => value * base + digitValue ch) 0

/-- Digits of a base, any number of leading zeros included. -/
structure IsNumeral (base : Nat) (numeral : List Char) : Prop where
  nonempty : numeral ≠ []
  digits : ∀ ch ∈ numeral, ∃ digit < base, ch = Nat.digitChar digit

structure Canonical (base value : Nat) (numeral : List Char) : Prop extends
    IsNumeral base numeral where
  denotes : denoted base numeral = value
  leading : numeral.head? = some '0' → value = 0
  zero : value = 0 → numeral = ['0']

theorem digitValue_digitChar : ∀ digit < 16,
    digitValue (Nat.digitChar digit) = digit := by
  decide

theorem denoted_append (base : Nat) (upper : List Char) (last : Char) :
    denoted base (upper ++ [last]) =
      denoted base upper * base + digitValue last :=
  List.foldl_append

theorem canonical_toDigits {base : Nat} (large : 1 < base) (small : base ≤ 16)
    (value : Nat) : Canonical base value (Nat.toDigits base value) := by
  induction value using Nat.strong_induction_on with
  | h value induction =>
      rcases Nat.lt_or_ge value base with below | above
      · have single := Nat.toDigits_of_lt_base below
        have denotes := digitValue_digitChar value (Nat.lt_of_lt_of_le below small)
        rw [single]
        refine ⟨⟨List.cons_ne_nil _ _, ?_⟩, ?_, ?_, ?_⟩
        · intro ch member
          exact ⟨value, below, List.mem_singleton.mp member⟩
        · simpa [denoted] using denotes
        · simp
        · simp
      · have shorter := induction (value / base)
          (Nat.div_lt_self (by omega) large)
        have last := Nat.mod_lt value (Nat.zero_lt_of_lt large)
        rw [Nat.toDigits_of_base_le large above]
        refine ⟨⟨by simp, ?_⟩, ?_, ?_, ?_⟩
        · intro ch member
          rcases List.mem_append.mp member with upper | lower
          · exact shorter.digits ch upper
          · exact ⟨value % base, last, List.mem_singleton.mp lower⟩
        · rw [denoted_append, shorter.denotes,
            digitValue_digitChar _ (Nat.lt_of_lt_of_le last small), Nat.mul_comm]
          exact Nat.div_add_mod value base
        · rw [List.head?_append, Option.or_of_isSome
            (List.isSome_head?.mpr shorter.nonempty)]
          intro starts
          have none := shorter.leading starts
          rw [Nat.div_eq_zero_iff] at none
          omega
        · omega

theorem denoted_append_zeros (base : Nat) (numeral : List Char) (count : Nat) :
    denoted base (numeral ++ List.replicate count '0') =
      denoted base numeral * base ^ count := by
  induction count with
  | zero => simp
  | succ count induction =>
      have zero : digitValue '0' = 0 := rfl
      rw [List.replicate_succ', ← List.append_assoc, denoted_append, induction, zero,
        Nat.add_zero, Nat.pow_succ, Nat.mul_assoc]

theorem denoted_zeros_append (base : Nat) (numeral : List Char) (count : Nat) :
    denoted base (List.replicate count '0' ++ numeral) = denoted base numeral := by
  have zeros : denoted base (List.replicate count '0') = 0 := by
    have shifted := denoted_append_zeros base [] count
    have none : denoted base [] = 0 := rfl
    rwa [List.nil_append, none, Nat.zero_mul] at shifted
  rw [denoted, List.foldl_append]
  exact congrArg (fun start => numeral.foldl _ start) zeros

theorem IsNumeral.append {base : Nat} {first second : List Char}
    (left : IsNumeral base first)
    (right : ∀ ch ∈ second, ∃ digit < base, ch = Nat.digitChar digit) :
    IsNumeral base (first ++ second) ∧ IsNumeral base (second ++ first) := by
  refine ⟨⟨by simp [left.nonempty], ?_⟩, ⟨by simp [left.nonempty], ?_⟩⟩
  · intro ch member
    rcases List.mem_append.mp member with here | there
    · exact left.digits ch here
    · exact right ch there
  · intro ch member
    rcases List.mem_append.mp member with here | there
    · exact right ch here
    · exact left.digits ch there

theorem zeros_digits {base : Nat} (positive : 0 < base) (count : Nat) :
    ∀ ch ∈ List.replicate count '0', ∃ digit < base, ch = Nat.digitChar digit := by
  intro ch member
  rw [List.eq_of_mem_replicate member]
  exact ⟨0, positive, rfl⟩

theorem IsNumeral.not_mem {base : Nat} {numeral : List Char}
    (isNumeral : IsNumeral base numeral) (small : base ≤ 16) :
    ' ' ∉ numeral ∧ '+' ∉ numeral ∧ '-' ∉ numeral := by
  have digits : ∀ digit < 16, ' ' ≠ Nat.digitChar digit ∧
      '+' ≠ Nat.digitChar digit ∧ '-' ≠ Nat.digitChar digit := by
    decide
  have other : ∀ ch ∈ numeral, ' ' ≠ ch ∧ '+' ≠ ch ∧ '-' ≠ ch := by
    intro ch member
    obtain ⟨digit, bound, rfl⟩ := isNumeral.digits ch member
    exact digits digit (Nat.lt_of_lt_of_le bound small)
  exact ⟨fun member => (other _ member).1 rfl, fun member => (other _ member).2.1 rfl,
    fun member => (other _ member).2.2 rfl⟩

/-- A numeral after an optional sign and the prefix of its base. -/
def Denotes (base : Nat) (radix : List Char) (value : Int) (text : List Char) :
    Prop :=
  ∃ numeral, IsNumeral base numeral ∧
    (text = radix ++ numeral ∧ value = denoted base numeral ∨
      text = '+' :: (radix ++ numeral) ∧ value = denoted base numeral ∨
      text = '-' :: (radix ++ numeral) ∧ value = -(denoted base numeral : Int))

def signChars (value : Int) : List Char := if value < 0 then ['-'] else []

def numeralOf (base : Nat) (radix : List Char) (value : Int) : List Char :=
  signChars value ++ (radix ++ Nat.toDigits base value.natAbs)

def Radix (radix : List Char) (value : Int) : Prop :=
  radix = [] ∨ ∃ marker, marker ≠ '0' ∧ radix = ['0', marker] ∧ 0 ≤ value

section

variable {base : Nat} {radix : List Char} {value : Int}

theorem denotes_numeralOf (large : 1 < base) (small : base ≤ 16) :
    Denotes base radix value (numeralOf base radix value) := by
  have canonical := canonical_toDigits large small value.natAbs
  refine ⟨_, canonical.toIsNumeral, ?_⟩
  rw [canonical.denotes, numeralOf, signChars]
  split
  · exact .inr (.inr ⟨rfl, by omega⟩)
  · exact .inl ⟨rfl, by omega⟩

theorem zeros_before_iff (large : 1 < base) (small : base ≤ 16)
    (prefixed : Radix radix value) (count : Nat) :
    Denotes base radix value
        (List.replicate (count + 1) '0' ++ numeralOf base radix value) ↔
      0 ≤ value ∧ radix = [] := by
  have canonical := canonical_toDigits large small value.natAbs
  have zeros := zeros_digits (Nat.zero_lt_of_lt large) (count + 1)
  rw [List.replicate_succ, List.cons_append]
  constructor
  · rintro ⟨numeral, isNumeral, ⟨same, _⟩ | ⟨same, _⟩ | ⟨same, _⟩⟩
    · rcases prefixed with none | ⟨marker, notZero, some, nonneg⟩
      · refine ⟨?_, none⟩
        by_contra negative
        rw [none, List.nil_append] at same
        apply (isNumeral.not_mem small).2.2
        rw [← same, numeralOf, signChars, if_pos (Int.not_le.mp negative)]
        simp
      · rw [some, numeralOf, signChars, if_neg (Int.not_lt.mpr nonneg)] at same
        cases count with
        | zero =>
            injection same with _ second
            injection second with first _
            exact absurd first.symm notZero
        | succ count =>
            injection same with _ second
            injection second with first _
            exact absurd first.symm notZero
    · injection same with first _
      contradiction
    · injection same with first _
      contradiction
  · rintro ⟨nonneg, rfl⟩
    refine ⟨_, (canonical.toIsNumeral.append zeros).2, .inl ⟨?_, ?_⟩⟩
    · rw [numeralOf, signChars, if_neg (Int.not_lt.mpr nonneg)]
      rfl
    · rw [denoted_zeros_append, canonical.denotes]
      omega

theorem zeros_after_iff (large : 1 < base) (small : base ≤ 16)
    (prefixed : Radix radix value) (count : Nat) :
    Denotes base radix value
        (numeralOf base radix value ++ List.replicate (count + 1) '0') ↔
      value = 0 := by
  have canonical := canonical_toDigits large small value.natAbs
  have zeros := zeros_digits (Nat.zero_lt_of_lt large) (count + 1)
  have longer := (canonical.toIsNumeral.append zeros).1
  have shifted := denoted_append_zeros base (Nat.toDigits base value.natAbs)
    (count + 1)
  have factor : 1 < base ^ (count + 1) := Nat.one_lt_pow (by omega) large
  have grows : value ≠ 0 → value.natAbs < value.natAbs * base ^ (count + 1) := by
    intro nonzero
    exact (Nat.lt_mul_iff_one_lt_right (by omega)).mpr factor
  rw [canonical.denotes] at shifted
  rw [numeralOf, List.append_assoc, List.append_assoc]
  constructor
  · rintro ⟨numeral, isNumeral, ⟨same, denotes⟩ | ⟨same, denotes⟩ | ⟨same, denotes⟩⟩
    · have nonneg : ¬ value < 0 := by omega
      rw [signChars, if_neg nonneg, List.nil_append] at same
      rw [← List.append_cancel_left same, shifted] at denotes
      by_contra nonzero
      have := grows nonzero
      omega
    · have nonneg : ¬ value < 0 := by omega
      rw [signChars, if_neg nonneg, List.nil_append] at same
      rcases prefixed with none | ⟨marker, _, some, _⟩
      · rw [none, List.nil_append] at same
        exact absurd (same ▸ List.mem_cons_self ..) (longer.not_mem small).2.1
      · rw [some] at same
        injection same with first _
        contradiction
    · rcases Int.lt_or_le value 0 with negative | nonneg
      · rw [signChars, if_pos negative, List.singleton_append,
          List.cons.injEq] at same
        rw [← List.append_cancel_left same.2, shifted] at denotes
        have := grows (by omega)
        omega
      · omega
  · rintro rfl
    refine ⟨_, longer, .inl ⟨rfl, ?_⟩⟩
    rw [shifted, Int.natAbs_zero, Nat.zero_mul]
    rfl

end

end Data.Numeral
