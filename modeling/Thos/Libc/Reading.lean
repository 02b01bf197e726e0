import Thos.Libc.Pieces

namespace Thos.Libc

open Data.Numeral

/-! The value that a printed integer is read as. -/

def stripSpaces (text : List Char) : List Char :=
  ((text.dropWhile (· == ' ')).reverse.dropWhile (· == ' ')).reverse

theorem dropWhile_spaces (count : Nat) {body : List Char}
    (other : body.head? ≠ some ' ') :
    (List.replicate count ' ' ++ body).dropWhile (· == ' ') = body := by
  rw [List.dropWhile_append_of_pos (by simp)]
  cases body with
  | nil => rfl
  | cons ch body =>
      have notSpace : ch ≠ ' ' := fun same => other (congrArg some same)
      simp [notSpace]

theorem stripSpaces_pad (before after : Nat) {body : List Char}
    (nonempty : body ≠ []) (noSpace : ' ' ∉ body) :
    stripSpaces (List.replicate before ' ' ++ (body ++ List.replicate after ' ')) =
      body := by
  have first : (body ++ List.replicate after ' ').head? ≠ some ' ' := by
    rw [List.head?_append, Option.or_of_isSome (List.isSome_head?.mpr nonempty)]
    exact fun head => noSpace (List.mem_of_head? head)
  have last : body.reverse.head? ≠ some ' ' := fun head =>
    noSpace (List.mem_reverse.mp (List.mem_of_head? head))
  rw [stripSpaces, dropWhile_spaces before first, List.reverse_append,
    List.reverse_replicate, dropWhile_spaces after last, List.reverse_reverse]

theorem signedDigits_eq (value : Int) :
    signedDigits value = numeralOf 10 [] value := by
  rw [signedDigits, numeralOf, signChars]
  by_cases negative : value < 0
  · rw [if_pos negative, if_pos negative]
    rfl
  · rw [if_neg negative, if_neg negative]
    rfl

namespace IntegerConversion

def base : IntegerConversion → Nat
  | hexadecimal => 16
  | binary => 2
  | _ => 10

def radix (conversion : IntegerConversion) (alternative : Bool) : List Char :=
  match conversion with
  | hexadecimal => if alternative then ['0', 'x'] else []
  | binary => if alternative then ['0', 'b'] else []
  | _ => []

def value (conversion : IntegerConversion) (bits argument : Nat) : Int :=
  match conversion with
  | decimal | integer => signedValue bits argument
  | _ => (argument % 2 ^ bits : Nat)

theorem base_bounds (conversion : IntegerConversion) :
    1 < conversion.base ∧ conversion.base ≤ 16 := by
  cases conversion <;> decide

theorem radix_value (conversion : IntegerConversion) (alternative : Bool)
    (bits argument : Nat) :
    Radix (conversion.radix alternative) (conversion.value bits argument) := by
  cases alternative with
  | false => cases conversion <;> exact .inl rfl
  | true =>
      cases conversion with
      | hexadecimal => exact .inr ⟨'x', by decide, rfl, Int.natCast_nonneg _⟩
      | binary => exact .inr ⟨'b', by decide, rfl, Int.natCast_nonneg _⟩
      | decimal => exact .inl rfl
      | integer => exact .inl rfl
      | unsigned => exact .inl rfl

theorem radix_noSpace (conversion : IntegerConversion) (alternative : Bool) :
    ' ' ∉ conversion.radix alternative := by
  cases conversion <;> cases alternative <;> decide

theorem text_eq (conversion : IntegerConversion) (bits argument : Nat)
    (alternative : Bool) :
    conversion.text bits argument alternative =
      numeralOf conversion.base (conversion.radix alternative)
        (conversion.value bits argument) := by
  have unsigned : ∀ (value : Nat), signChars value = [] := by
    intro value
    rw [signChars, if_neg (by omega)]
  cases conversion with
  | hexadecimal => simp only [text, numeralOf, value, unsigned, base, radix,
      List.nil_append, Int.natAbs_natCast]
  | binary => simp only [text, numeralOf, value, unsigned, base, radix,
      List.nil_append, Int.natAbs_natCast]
  | unsigned => simp only [text, numeralOf, value, unsigned, base, radix,
      List.nil_append, Int.natAbs_natCast]
  | decimal | integer =>
      simp only [text, value, base, radix, signedValue_mod, signedDigits_eq]

end IntegerConversion

variable {build : Target}

def Conversion.emitted (build : Target) (conversion : Conversion) : List Char :=
  if conversion.width.stored < 0 then []
  else pad conversion.flags conversion.width.stored.toNat (conversion.text build)

theorem Width.stored_le (width : Width) : width.stored ≤ intMax := toInt_le _

theorem conversionOutput_negative {conversion : Conversion}
    (negative : conversion.width.stored < 0) :
    conversionOutput build conversion.spec (conversion.text build) =
      List.replicate (conversion.text build).length none := by
  have notPadded : ¬ conversion.spec.minWidth > 0 := by
    simp only [Conversion.spec]
    omega
  have notZero : conversion.spec.minWidth ≠ 0 := by
    simp only [Conversion.spec]
    omega
  rw [conversionOutput, if_neg notPadded, counted, if_neg notZero]

theorem conversion_emitted {conversion : Conversion}
    (fits : conversion.operand.Fits) :
    (conversionOutput build conversion.spec (conversion.text build)).reduceOption =
      conversion.emitted build := by
  rw [Conversion.emitted]
  split
  case isTrue negative =>
    rw [conversionOutput_negative negative, List.reduceOption_replicate_none]
  case isFalse nonneg =>
    have bound := conversion.width.stored_le
    have small : conversion.width.stored.toNat ≤ intMax := by omega
    rw [conversionOutput_spec fits small (by omega), reduceOption_map_some]

theorem printf_conversion_emitted {conversion : Conversion}
    (readable : conversion.width.Readable) (fits : conversion.operand.Fits) :
    ∃ count, printf build conversion.format
        ((Directive.conversion conversion).arguments build) =
      some (.stream (conversion.emitted build), count) := by
  have meant := @conversion_output build _ readable fits [] []
  rw [List.append_nil, List.append_nil] at meant
  have printed := printf_output meant
  simp only [List.append_nil, conversion_emitted fits] at printed
  exact ⟨_, printed⟩

theorem noSpace_numeralOf {base : Nat} (large : 1 < base) (small : base ≤ 16)
    {radix : List Char} (noSpace : ' ' ∉ radix) (value : Int) :
    ' ' ∉ numeralOf base radix value := by
  have digits := ((canonical_toDigits large small value.natAbs).not_mem small).1
  have sign : ' ' ∉ signChars value := by
    rw [signChars]
    split <;> simp
  rw [numeralOf, List.mem_append, List.mem_append, not_or, not_or]
  exact ⟨sign, noSpace, digits⟩

theorem numeralOf_ne_nil (base : Nat) (radix : List Char) (value : Int) :
    numeralOf base radix value ≠ [] := by
  simp [numeralOf, Nat.toDigits_ne_nil]

section

variable {base : Nat} {radix : List Char} {value : Int} {flags : List Flag}
  {width : Nat}

theorem denotes_blanks (large : 1 < base) (small : base ≤ 16)
    (noSpace : ' ' ∉ radix) (before after : Nat) :
    Denotes base radix value (stripSpaces (List.replicate before ' ' ++
      (numeralOf base radix value ++ List.replicate after ' '))) := by
  rw [stripSpaces_pad before after (numeralOf_ne_nil base radix value)
    (noSpace_numeralOf large small noSpace value)]
  exact denotes_numeralOf large small

theorem stripSpaces_eq {text : List Char} (nonempty : text ≠ [])
    (noSpace : ' ' ∉ text) : stripSpaces text = text := by
  simpa using stripSpaces_pad 0 0 nonempty noSpace

/-- Zeros keep the value before a body without a sign and a prefix, and after a
body of value zero. -/
theorem padded_denotes_iff (large : 1 < base) (small : base ≤ 16)
    (prefixed : Radix radix value) (noSpace : ' ' ∉ radix) :
    Denotes base radix value
        (stripSpaces (pad flags width (numeralOf base radix value))) ↔
      .zero ∉ flags ∨ width ≤ (numeralOf base radix value).length ∨
        if .minus ∈ flags then value = 0 else 0 ≤ value ∧ radix = [] := by
  have bodyNoSpace := noSpace_numeralOf large small noSpace value
  have nonempty := numeralOf_ne_nil base radix value
  rcases Nat.lt_or_ge (numeralOf base radix value).length width with wide | narrow
  · obtain ⟨count, missing⟩ : ∃ count,
        width - (numeralOf base radix value).length = count + 1 :=
      Nat.exists_eq_succ_of_ne_zero (by omega)
    have notNarrow : ¬ width ≤ (numeralOf base radix value).length := by omega
    have zerosNoSpace : ' ' ∉ List.replicate (count + 1) '0' := by simp
    rw [pad, missing]
    by_cases zero : .zero ∈ flags
    · simp only [zero, not_true_eq_false, notNarrow, false_or, if_true]
      split
      case isTrue minus =>
        rw [stripSpaces_eq (by simp) (by
          rw [List.mem_append, not_or]
          exact ⟨bodyNoSpace, zerosNoSpace⟩)]
        exact zeros_after_iff large small prefixed count
      case isFalse =>
        rw [stripSpaces_eq (by simp) (by
          rw [List.mem_append, not_or]
          exact ⟨zerosNoSpace, bodyNoSpace⟩)]
        exact zeros_before_iff large small prefixed count
    · simp only [zero, not_false_eq_true, true_or, iff_true, if_false]
      split
      · exact denotes_blanks large small noSpace 0 (count + 1)
      · have blanks : Denotes base radix value (stripSpaces _) :=
          denotes_blanks large small noSpace (count + 1) 0
        rwa [List.replicate_zero, List.append_nil] at blanks
  · have none : width - (numeralOf base radix value).length = 0 := by omega
    have unchanged : pad flags width (numeralOf base radix value) =
        numeralOf base radix value := by
      simp [pad, none]
    simp only [unchanged, stripSpaces_eq nonempty bodyNoSpace, narrow, true_or,
      or_true, iff_true]
    exact denotes_numeralOf large small

end

theorem not_denotes_nil (base : Nat) (radix : List Char) (value : Int) :
    ¬ Denotes base radix value (stripSpaces []) := by
  rintro ⟨numeral, isNumeral, ⟨same, _⟩ | ⟨same, _⟩ | ⟨same, _⟩⟩
  · exact absurd (List.append_eq_nil_iff.mp same.symm).2 isNumeral.nonempty
  · contradiction
  · contradiction

/-- A padded integer keeps its value when the width is not negative as an `int`
and the padding is blank, absent, or of zeros at a side where they change
nothing. -/
theorem padding_keeps_value_iff (build : Target) (flags : List Flag) {width : Width}
    (modifier : LengthModifier) (specifier : IntegerConversion) (argument : Nat)
    (readable : width.Readable) :
    let conversion : Conversion :=
      ⟨flags, width, modifier, .integer specifier argument⟩
    let radix := specifier.radix (.alternative ∈ flags)
    let value := specifier.value (modifier.bits build) argument
    ∃ text count, printf build conversion.format
          ((Directive.conversion conversion).arguments build) =
        some (.stream text, count) ∧
      (Denotes specifier.base radix value (stripSpaces text) ↔
        0 ≤ width.stored ∧
          (.zero ∉ flags ∨
            width.stored ≤ (numeralOf specifier.base radix value).length ∨
            if .minus ∈ flags then value = 0 else 0 ≤ value ∧ radix = [])) := by
  intro conversion radix value
  have printed := @printf_conversion_emitted build conversion readable trivial
  obtain ⟨count, printed⟩ := printed
  refine ⟨_, count, printed, ?_⟩
  obtain ⟨large, small⟩ := specifier.base_bounds
  have body : conversion.text build = numeralOf specifier.base radix value :=
    specifier.text_eq ..
  rw [Conversion.emitted, body]
  rcases Int.lt_or_le width.stored 0 with negative | nonneg
  · rw [if_pos negative]
    constructor
    · intro reads
      exact (not_denotes_nil _ _ _ reads).elim
    · intro condition
      omega
  · rw [if_neg (Int.not_lt.mpr nonneg),
      padded_denotes_iff large small (specifier.radix_value ..)
        (specifier.radix_noSpace _), Int.toNat_le]
    exact (and_iff_right nonneg).symm

theorem padding_keeps_value_iff_sample :
    ∃ text count, printf .riscv64 "%06u".toList [.integer 32 42] =
        some (.stream text, count) ∧
      Denotes 10 [] 42 (stripSpaces text) := by
  have readable : (Width.decimal 6).Readable := (by decide : 0 < 6)
  obtain ⟨text, count, printed, reads⟩ := padding_keeps_value_iff .riscv64 [.zero]
    .none .unsigned 42 readable
  exact ⟨text, count, printed, reads.mpr (by decide)⟩

/-- Zeros before a sign and before a prefix, and zeros after the digits. -/
theorem padding_changes_value :
    (printf .riscv64 "%05d".toList [.integer 32 (2 ^ 32 - 42)] =
        some (.stream "00-42".toList, 5) ∧
      ¬ Denotes 10 [] (-42) (stripSpaces "00-42".toList)) ∧
    (printf .riscv64 "%#06x".toList [.integer 32 42] =
        some (.stream "000x2a".toList, 6) ∧
      ¬ Denotes 16 ['0', 'x'] 42 (stripSpaces "000x2a".toList)) ∧
    printf .riscv64 "%-05u".toList [.integer 32 42] =
        some (.stream "42000".toList, 5) ∧
      ¬ Denotes 10 [] 42 (stripSpaces "42000".toList) := by
  have none : Radix [] (-42) := .inl rfl
  have prefixed : Radix ['0', 'x'] 42 := .inr ⟨'x', by decide, rfl, by decide⟩
  refine ⟨⟨by decide +kernel, ?_⟩, ⟨by decide +kernel, ?_⟩, by decide +kernel, ?_⟩
  · intro reads
    exact absurd ((zeros_before_iff (by decide) (by decide) none 1).mp reads)
      (by decide)
  · intro reads
    exact absurd ((zeros_before_iff (by decide) (by decide) prefixed 1).mp reads)
      (by decide)
  · intro reads
    exact absurd ((zeros_after_iff (by decide) (by decide) (.inl rfl) 2).mp reads)
      (by decide)

end Thos.Libc
