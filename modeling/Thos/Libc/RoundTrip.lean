import Thos.Libc.Arithmetic
import Thos.Libc.Reading

namespace Thos.Libc

open Data.MachineInteger Data.Numeral

/-! What `sprintf` prints of an integer is parsed back. -/

def argumentOf (bits : Nat) (value : Int) : Nat := (value % 2 ^ bits).toNat

theorem signedValue_argumentOf {bits : Nat} {value : Int} (sized : 0 < bits)
    (holds : IntegerType.Holds ⟨true, bits⟩ value) :
    signedValue bits (argumentOf bits value) = value := by
  have positive := Nat.two_pow_pos bits
  have cast : ((2 ^ bits : Nat) : Int) = 2 ^ bits := Int.natCast_pow 2 bits
  have residue : (argumentOf bits value : Int) = value % (2 ^ bits : Nat) := by
    rw [argumentOf, cast]
    exact Int.toNat_of_nonneg (Int.emod_nonneg _ (by omega))
  rw [signedValue, residue]
  have wrapped := IntegerType.wrap_of_holds sized holds
  rw [IntegerType.wrap_signed] at wrapped
  exact (Int.emod_bmod _ _).trans wrapped

variable {build : Target}

theorem length_emitted {conversion : Conversion} (fits : conversion.operand.Fits) :
    (conversion.emitted build).length ≤ intMax := by
  have body : (conversion.text build).length ≤ intMax :=
    length_operand_text fits (conversion.modifier.bits_le build) _
  have bound := conversion.width.stored_le
  rw [Conversion.emitted]
  split
  · exact Nat.zero_le _
  · rw [length_pad]
    omega

theorem sprintf_emitted {conversion : Conversion}
    (readable : conversion.width.Readable) (fits : conversion.operand.Fits)
    (nonneg : 0 ≤ conversion.width.stored) {buffer : List Char}
    (room : (conversion.emitted build).length < buffer.length) :
    ∃ rest count, sprintf build buffer conversion.format
        ((Directive.conversion conversion).arguments build) =
      some (conversion.emitted build ++ nul :: rest, count) := by
  have meant := @conversion_output build _ readable fits [] []
  have bound := conversion.width.stored_le
  have small : conversion.width.stored.toNat ≤ intMax := by omega
  have emitted : (pad conversion.flags conversion.width.stored.toNat
      (conversion.text build)) = conversion.emitted build := by
    rw [Conversion.emitted, if_neg (Int.not_lt.mpr nonneg)]
  rw [List.append_nil, List.append_nil,
    conversionOutput_spec fits small (Int.toNat_of_nonneg nonneg).symm,
    emitted] at meant
  simp only [formatMeaning, Option.map_some, List.append_nil] at meant
  exact ⟨_, _, sprintf_meaning meant (length_emitted fits) room⟩

theorem parts_of_padded (count : Nat) (value : Int) :
    (⟨List.replicate count ' ', signChars value, Nat.toDigits 10 value.natAbs, []⟩ :
      Parts).Of (List.replicate count ' ' ++ signedDigits value) := by
  have canonical := canonical_toDigits (show 1 < 10 by decide) (by decide)
    value.natAbs
  obtain ⟨noSpace, noPlus, noMinus⟩ := canonical.not_mem (by decide)
  have digits : ∀ ch ∈ Nat.toDigits 10 value.natAbs, ch.isDigit = true :=
    fun ch member => Nat.isDigit_of_mem_toDigits (by decide) (by decide) member
  refine ⟨?_, ?_, ?_, ?_, ?_, digits, ?_⟩
  · rw [List.append_nil, signedDigits_eq]
    rfl
  · intro ch member
    rw [List.eq_of_mem_replicate member]
    rfl
  · intro ch head
    have member := List.mem_of_head? head
    simp only [List.append_nil, List.mem_append] at member
    rcases member with sign | digit
    · rw [signChars] at sign
      split at sign
      · rw [List.mem_singleton.mp sign]
        rfl
      · contradiction
    · exact whitespace_of_isDigit (digits ch digit)
  · rw [signChars]
    split
    · exact .inr (.inr rfl)
    · exact .inl rfl
  · intro _ ch head
    have member := List.mem_of_head? head
    simp only [List.append_nil] at member
    constructor
    · rintro rfl
      exact noPlus member
    · rintro rfl
      exact noMinus member
  · intro ch head
    contradiction

theorem number_of_padded (blanks : List Char) (value : Int) :
    Parts.number ⟨blanks, signChars value, Nat.toDigits 10 value.natAbs, []⟩ =
      value := by
  rw [Parts.number, Nat.ofDigitChars_toDigits (by decide) (by decide), signChars]
  split
  case isTrue negative =>
    rw [if_pos rfl]
    omega
  case isFalse nonneg =>
    rw [if_neg (by simp)]
    omega

theorem nul_not_mem_padded (count : Nat) (value : Int) :
    nul ∉ List.replicate count ' ' ++ signedDigits value := by
  have digits : nul ∉ Nat.toDigits 10 value.natAbs := by
    intro member
    have digit := Nat.isDigit_of_mem_toDigits (by decide) (by decide) member
    contradiction
  have sign : nul ∉ signChars value := by
    rw [signChars]
    split <;> decide
  rw [signedDigits_eq, numeralOf, List.mem_append, List.mem_append]
  rintro (blank | here | there)
  · exact absurd (List.eq_of_mem_replicate blank) (by decide)
  · exact sign here
  · exact digits there

def decimalConversion (build : Target) (width : Width) (modifier : LengthModifier)
    (value : Int) : Conversion :=
  ⟨[], width, modifier,
    .integer .decimal (argumentOf (modifier.bits build) value)⟩

theorem parse_sprintf {width : Width} {modifier : LengthModifier} {value : Int}
    (readable : width.Readable) (nonneg : 0 ≤ width.stored)
    (holds : IntegerType.Holds ⟨true, modifier.bits build⟩ value)
    (wide : int64.Holds value) {buffer : List Char}
    (room : ((decimalConversion build width modifier value).emitted build).length <
      buffer.length) :
    ∃ cells count parsed, sprintf build buffer
        (decimalConversion build width modifier value).format
        ((Directive.conversion
          (decimalConversion build width modifier value)).arguments build) =
          some (cells, count) ∧
      Cells.parse cells 0 = some parsed ∧ parsed.value = value := by
  have sized : 0 < modifier.bits build := by
    cases build <;> cases modifier <;> decide
  obtain ⟨rest, count, printed⟩ :=
    @sprintf_emitted build (decimalConversion build width modifier value) readable
      trivial nonneg buffer room
  have body : (decimalConversion build width modifier value).text build =
      signedDigits value := by
    have text := IntegerConversion.text_eq .decimal (modifier.bits build)
      (argumentOf (modifier.bits build) value) (.alternative ∈ ([] : List Flag))
    have back := signedValue_argumentOf sized holds
    rw [IntegerConversion.value, back] at text
    rw [signedDigits_eq]
    exact text
  obtain ⟨missing, emitted⟩ : ∃ missing,
      (decimalConversion build width modifier value).emitted build =
        List.replicate missing ' ' ++ signedDigits value := by
    rw [Conversion.emitted, body]
    exact ⟨_, if_neg (Int.not_lt.mpr nonneg)⟩
  rw [emitted] at printed
  have of := parts_of_padded missing value
  have terminated : Cells.Terminated
      (List.replicate missing ' ' ++ signedDigits value ++ nul :: rest) 0
      (List.replicate missing ' ' ++ signedDigits value) :=
    ⟨⟨rest, rfl⟩, nul_not_mem_padded missing value⟩
  refine ⟨_, count, _, printed, Cells.parse_eq terminated of, ?_⟩
  rw [Cells.accumulated_value of, if_neg Nat.toDigits_ne_nil, number_of_padded,
    Cells.toInt64_of_holds wide]

theorem int64_holds_of_int32 {value : Int}
    (holds : IntegerType.Holds ⟨true, 32⟩ value) :
    int64.Holds value := by
  have narrow : IntegerType.minimum ⟨true, 32⟩ = -2147483648 ∧
      IntegerType.maximum ⟨true, 32⟩ = 2147483647 := by decide
  obtain ⟨minimum, maximum⟩ := int64_bounds
  rw [IntegerType.Holds, narrow.1, narrow.2] at holds
  rw [IntegerType.Holds, minimum, maximum]
  omega

theorem toInt_of_holds {value : Int} (holds : IntegerType.Holds ⟨true, 32⟩ value) :
    toInt value = value := by
  have wrapped := IntegerType.wrap_of_holds (by decide) holds
  rwa [IntegerType.wrap_signed] at wrapped

/-- `atoll` undoes `"%lld"` and `atoi` undoes `"%d"`, with any left padding of a
width that is not negative as an `int`. -/
theorem sprintf_parse_inverse (build : Target) {width : Width}
    (readable : width.Readable) (nonneg : 0 ≤ width.stored) (buffer : List Char) :
    (∀ value, int64.Holds value →
      let conversion := decimalConversion build width .longLong value
      (conversion.emitted build).length < buffer.length →
      ∃ cells count, sprintf build buffer conversion.format
          ((Directive.conversion conversion).arguments build) = some (cells, count) ∧
        Cells.atoll cells 0 = some value) ∧
    ∀ value, IntegerType.Holds ⟨true, 32⟩ value →
      let conversion := decimalConversion build width .none value
      (conversion.emitted build).length < buffer.length →
      ∃ cells count, sprintf build buffer conversion.format
          ((Directive.conversion conversion).arguments build) = some (cells, count) ∧
        Cells.atoi cells 0 = some value := by
  constructor
  · intro value holds conversion room
    obtain ⟨cells, count, parsed, printed, parses, same⟩ :=
      @parse_sprintf build width .longLong value readable nonneg holds holds
        buffer room
    refine ⟨cells, count, printed, ?_⟩
    rw [Cells.atoll, parses, Option.map_some, same, Cells.toInt64_of_holds holds]
  · intro value holds conversion room
    obtain ⟨cells, count, parsed, printed, parses, same⟩ :=
      @parse_sprintf build width .none value readable nonneg holds
        (int64_holds_of_int32 holds) buffer room
    refine ⟨cells, count, printed, ?_⟩
    rw [Cells.atoi, parses, Option.map_some, same, toInt_of_holds holds]

theorem sprintf_parse_inverse_sample :
    ∃ cells count, sprintf .riscv64 (List.replicate 10 'z') "%6d".toList
        [.integer 32 (2 ^ 32 - 42)] = some (cells, count) ∧
      Cells.atoi cells 0 = some (-42) := by
  have readable : (Width.decimal 6).Readable := (by decide : 0 < 6)
  have parsed := (sprintf_parse_inverse .riscv64 readable (by decide)
    (List.replicate 10 'z')).2 (-42) (by decide) (by decide)
  exact parsed

theorem sprintf_counted {format : List Char} {arguments : List Argument}
    {count : Nat} {last : Parsing} {buffer : List Char}
    (meant : formatMeaning build format { arguments := arguments } =
      some (List.replicate count none, last)) (small : count ≤ intMax)
    (room : count < buffer.length) :
    sprintf build buffer format arguments =
      some (buffer.set count nul, (count : Int)) := by
  have advanced : advance 0 count = count := by
    rw [advance_eq _ rfl, Int.zero_add, toInt_of_le small]
  rw [sprintf, doPrint_eq, meant, Option.bind_some, emit_output _ _ _ rfl,
    List.reduceOption_replicate_none]
  simp only [PrintTarget.puts, List.foldlM_nil, Option.pure_def, Option.map_some,
    PrintState.withParsing, List.length_replicate, advanced, Option.bind_eq_bind,
    Option.bind_some, storeAt_natCast, store, room, if_true]
  rfl

theorem sprintf_wide (first second : Char) (rest : List Char) :
    sprintf .riscv64 (first :: second :: rest) "%2147483648d".toList
        [.integer 32 5] = some (first :: nul :: rest, 1) := by
  let conversion : Conversion :=
    ⟨[], .decimal 2147483648, .none, .integer .decimal 5⟩
  have readable : conversion.width.Readable := (by decide : 0 < 2147483648)
  have negative : conversion.width.stored < 0 := by decide
  have output := @conversion_output .riscv64 conversion readable trivial [] []
  have format : conversion.format = "%2147483648d".toList := by decide
  have arguments : (Directive.conversion conversion).arguments .riscv64 =
      [.integer 32 5] := by decide
  have length : (conversion.text .riscv64).length = 1 := by decide
  rw [conversionOutput_negative negative, List.append_nil, List.append_nil, format,
    arguments, length] at output
  have meant : formatMeaning .riscv64 "%2147483648d".toList
      { arguments := [.integer 32 5] } =
        some (List.replicate 1 none, { arguments := [] }) := output
  have room : 1 < (first :: second :: rest).length := by simp
  exact sprintf_counted meant (by decide) room

theorem sprintf_parse_not_inverse :
    ∃ cells, sprintf .riscv64 ('z' :: 'z' :: List.replicate (2 ^ 31) 'z')
        "%2147483648d".toList [.integer 32 5] = some (cells, 1) ∧
      Cells.atoi cells 0 = some 0 := by
  have terminated : Cells.Terminated ('z' :: nul :: List.replicate (2 ^ 31) 'z') 0
      ['z'] := ⟨⟨_, rfl⟩, by decide⟩
  refine ⟨_, sprintf_wide 'z' 'z' _, ?_⟩
  rw [Cells.atoi, Cells.parse_eq terminated (partsOf_of _)]
  decide

end Thos.Libc
