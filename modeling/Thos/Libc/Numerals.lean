import Thos.Libc.Printf

namespace Thos.Libc

open Data.Numeral

/-! The numerals that the printing functions put. -/

/-- Neither a flag nor a width, on a stream. -/
structure Plain (state : PrintState) (emitted : List Char) : Prop where
  target : state.target = .stream emitted
  unlimited : state.maxOutput.enabled = false
  alternative : state.conversion.alternative = false
  minWidth : state.conversion.minWidth = 0

def PrintsNumeral (emitted : List Char) (base value : Nat)
    (result : Option PrintState) : Prop :=
  ∃ numeral, Canonical base value numeral ∧
    result.map PrintState.target = some (.stream (emitted ++ numeral))

variable {build : Target} {state : PrintState} {emitted : List Char}

theorem Plain.withArguments (plain : Plain state emitted)
    (arguments : List Argument) :
    Plain { state with arguments := arguments } emitted :=
  ⟨plain.target, plain.unlimited, plain.alternative, plain.minWidth⟩

theorem Plain.putchar (build : Target) (plain : Plain state emitted)
    (character : Char) :
    ∃ next, putcharMaybeMinwidth build state character = some next ∧
      Plain next (emitted ++ [character]) := by
  have within : state.withinMaximum build = true := by
    simp [PrintState.withinMaximum, plain.unlimited]
  refine ⟨{ state with
    target := .stream (emitted ++ [character])
    printed := toInt (state.printed + 1) }, ?_,
    rfl, plain.unlimited, plain.alternative, plain.minWidth⟩
  simp [putcharMaybeMinwidth, putcharMaybeMax, plain.minWidth, within, plain.target,
    PrintTarget.putchar]

theorem Plain.putChars_target (build : Target) (plain : Plain state emitted)
    (text : List Char) :
    (putChars build state text).map PrintState.target =
      some (.stream (emitted ++ text)) := by
  rw [putChars_eq, counted, if_pos plain.minWidth,
    emit_unlimited _ _ plain.unlimited, plain.target, puts_stream]
  rfl

theorem Plain.prints_toDigits (plain : Plain state emitted) {base : Nat}
    (large : 1 < base) (small : base ≤ 16) (value : Nat) :
    PrintsNumeral emitted base value
      (putChars build state (Nat.toDigits base value)) :=
  ⟨_, canonical_toDigits large small value, plain.putChars_target build _⟩

theorem Plain.prints_places (plain : Plain state emitted)
    {func : PrintState → Option PrintState} {marker : Char} {base value : Nat}
    (prints : Prints build func (placesBody build marker base))
    (large : 1 < base) (small : base ≤ 16) {rest : List Argument}
    (argument : state.arguments =
      .integer (integerBits build state.conversion) value :: rest)
    (bound : value < 2 ^ integerBits build state.conversion) :
    PrintsNumeral emitted base value (func state) := by
  have taken : vaArgInteger (integerBits build state.conversion) state.arguments =
      some (value, rest) := by
    rw [argument, vaArgInteger, if_pos rfl, Nat.mod_eq_of_lt bound]
  have noMarker : alternativePrefix state.conversion marker = [] := by
    rw [alternativePrefix, plain.alternative]
    rfl
  rw [prints.prints, placesBody, taken, Option.map_some, Option.bind_some, noMarker]
  exact (plain.withArguments rest).prints_toDigits large small value

/-- Without flags every value is printed as its canonical numeral. The size of
the argument of `print_hex` and `print_binary` depends on the modifiers. -/
theorem printed_numerals_canonical (plain : Plain state emitted) :
    (∀ value < 2 ^ 32, PrintsNumeral emitted 10 value
      (printUnsignedUint32 build state value)) ∧
    (∀ value < 2 ^ 64, PrintsNumeral emitted 10 value
      (printUnsignedUint64 build state value)) ∧
    ∀ value rest, state.arguments =
        .integer (integerBits build state.conversion) value :: rest →
      value < 2 ^ integerBits build state.conversion →
      PrintsNumeral emitted 16 value (printHex build state) ∧
        PrintsNumeral emitted 2 value (printBinary build state) := by
  refine ⟨?_, ?_, ?_⟩
  · intro value bound
    rw [printUnsignedUint32_eq state bound]
    exact plain.prints_toDigits (by decide) (by decide) value
  · intro value bound
    rw [printUnsignedUint64_eq state bound]
    exact plain.prints_toDigits (by decide) (by decide) value
  · intro value rest argument bound
    exact ⟨plain.prints_places prints_hex (by decide) (by decide) argument bound,
      plain.prints_places prints_binary (by decide) (by decide) argument bound⟩

def PrintState.plain255 : PrintState where
  conversion := { longModifiers := 2 }
  target := .stream []
  arguments := [.integer 64 255]
  maxOutput := noMaxOutput

theorem printed_numerals_canonical_sample :
    PrintsNumeral [] 10 255 (printUnsignedUint32 .riscv32 .plain255 255) ∧
      PrintsNumeral [] 10 255 (printUnsignedUint64 .riscv32 .plain255 255) ∧
      PrintsNumeral [] 16 255 (printHex .riscv32 .plain255) ∧
      PrintsNumeral [] 2 255 (printBinary .riscv32 .plain255) := by
  have plain : Plain .plain255 [] := ⟨rfl, rfl, rfl, rfl⟩
  obtain ⟨short, long, places⟩ :=
    @printed_numerals_canonical .riscv32 _ _ plain
  exact ⟨short 255 (by decide), long 255 (by decide),
    places 255 [] rfl (by decide)⟩

end Thos.Libc
