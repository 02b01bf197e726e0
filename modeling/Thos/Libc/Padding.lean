import Thos.Libc.Conversion

namespace Thos.Libc

/-! Padding to the minimum width. -/

/-- `printed` after counting some characters one by one. -/
def advance (printed : Int) : Nat → Int
  | 0 => printed
  | count + 1 => advance (toInt (printed + 1)) count

theorem toInt_advance_sub (printed base : Int) (count : Nat) :
    toInt (advance printed count - base) = toInt (printed + count - base) := by
  induction count generalizing printed with
  | zero => simp [advance]
  | succ count induction =>
      rw [advance, induction]
      simp only [toInt]
      rw [Int.add_sub_assoc, Int.bmod_add_bmod]
      congr 1
      push_cast
      ring

theorem toInt_advance (printed : Int) (count : Nat) :
    toInt (advance printed count) = toInt (printed + count) := by
  simpa using toInt_advance_sub printed 0 count

theorem advance_inRange {printed : Int} (count : Nat)
    (inRange : toInt printed = printed) :
    toInt (advance printed count) = advance printed count := by
  induction count generalizing printed with
  | zero => exact inRange
  | succ count induction => exact induction Int.bmod_bmod

theorem advance_eq {printed : Int} (count : Nat)
    (inRange : toInt printed = printed) :
    advance printed count = toInt (printed + count) := by
  rw [← toInt_advance, advance_inRange count inRange]

def paddingAmount (build : Target) (conversion : ConversionSpec) (length : Nat) :
    Nat :=
  if conversion.minWidth > toInt length then
    build.sizeT (toInt (conversion.minWidth - toInt length))
  else 0

def padding (build : Target) (conversion : ConversionSpec) (length : Nat) :
    List Char :=
  List.replicate (paddingAmount build conversion length)
    (if conversion.zeroPad then '0' else ' ')

def conversionOutput (build : Target) (conversion : ConversionSpec)
    (characters : List Char) : List (Option Char) :=
  if conversion.minWidth > 0 then
    let fill := padding build conversion characters.length
    (if conversion.leftJustify then characters ++ fill
      else fill ++ characters).map some
  else counted conversion characters

variable {build : Target}

theorem printed_put {state after : PrintState} {character : Option Char}
    (stepped : put build state character = some after) :
    after.printed = toInt (state.printed + 1) := by
  cases character with
  | none =>
      cases stepped
      rfl
  | some character =>
      simp only [put, putcharMaybeMax] at stepped
      split at stepped
      · cases placed : state.target.putchar character with
        | none => simp [placed] at stepped
        | some target =>
            simp only [placed, Option.bind_eq_bind, Option.bind_some,
              Option.some.injEq] at stepped
            rw [← stepped]
      · cases stepped
        rfl

theorem printed_emit {state after : PrintState} {output : List (Option Char)}
    (emitted : emit build state output = some after) :
    after.printed = advance state.printed output.length := by
  induction output generalizing state with
  | nil =>
      cases emitted
      rfl
  | cons character output induction =>
      rw [emit_cons] at emitted
      obtain ⟨next, stepped, rest⟩ := Option.bind_eq_some_iff.mp emitted
      rw [induction rest, printed_put stepped]
      rfl

theorem emit_none (state : PrintState) (count : Nat) :
    emit build state (List.replicate count none) =
      some { state with printed := advance state.printed count } := by
  induction count generalizing state with
  | zero => rfl
  | succ count induction =>
      rw [List.replicate_succ, emit_cons]
      exact induction { state with printed := toInt (state.printed + 1) }

theorem printPadding_eq (amount : Nat) (state : PrintState) :
    printPadding build amount state =
      emit build state ((List.replicate amount
        (if state.conversion.zeroPad then '0' else ' ')).map some) := by
  induction amount generalizing state with
  | zero => rfl
  | succ amount induction =>
      rw [printPadding, List.replicate_succ, List.map_cons, emit_cons]
      cases stepped : putcharMaybeMax build state
          (if state.conversion.zeroPad then '0' else ' ') with
      | none =>
          rw [put, stepped]
          rfl
      | some next =>
          have same : next.conversion = state.conversion :=
            congrArg Parsing.conversion
              (parsing_put build (show put build state (some _) = _ from stepped))
          rw [put, stepped, ← same]
          exact induction next

theorem Prints.call {func : PrintState → Option PrintState} {body : Body}
    (prints : Prints build func body) (state : PrintState) :
    func state = (body state.conversion state.arguments).bind fun result =>
      (emit build state (counted state.conversion result.1)).map
        (·.withParsing
          ⟨state.inConversionSpec, state.conversion, result.2⟩) := by
  rw [prints.prints]
  simp only [putChars_eq]
  congr 1
  funext result
  exact emit_withParsing build state ⟨_, _, result.2⟩ _

theorem Prints.call_zero {func : PrintState → Option PrintState} {body : Body}
    (prints : Prints build func body) (state : PrintState) :
    func state.clearMinWidth =
      (body state.conversion state.arguments).bind fun result =>
        (emit build state (result.1.map some)).map (·.withParsing
          ⟨state.inConversionSpec, { state.conversion with minWidth := 0 },
            result.2⟩) := by
  rw [prints.prints]
  simp only [PrintState.clearMinWidth, prints.width, putChars_eq]
  congr 1
  funext result
  exact emit_withParsing build state ⟨_, _, result.2⟩ _

theorem padRequested_eq (build : Target) (state : PrintState)
    (conversion : ConversionSpec) (length : Nat)
    (same : state.conversion.zeroPad = conversion.zeroPad) :
    padRequested build conversion.minWidth (toInt length) state =
      emit build state ((padding build conversion length).map some) := by
  rw [padRequested, padding, paddingAmount]
  split
  · rw [printPadding_eq, same]
  · rfl

theorem minWidthCall_eq {func : PrintState → Option PrintState} {body : Body}
    (prints : Prints build func body) (state : PrintState) :
    (minWidthCall build state func).map .reset =
      (body state.conversion state.arguments).bind fun result =>
        (emit build state (conversionOutput build state.conversion result.1)).map
          (·.withParsing { arguments := result.2 }) := by
  have call := prints.call state
  have callZero := prints.call_zero state
  simp only [minWidthCall, conversionOutput]
  cases taken : body state.conversion state.arguments with
  | none =>
      simp only [taken, Option.bind_none] at call callZero
      simp [call, callZero]
  | some result =>
      obtain ⟨characters, arguments⟩ := result
      simp only [taken, Option.bind_some] at call callZero ⊢
      by_cases wide : state.conversion.minWidth > 0
      · have notZero : state.conversion.minWidth ≠ 0 := by omega
        have only : counted state.conversion characters =
            List.replicate characters.length none := if_neg notZero
        rw [only, emit_none, Option.map_some] at call
        have count : ∀ printed : Int, toInt (advance printed characters.length -
            printed) = toInt characters.length := by
          intro printed
          rw [toInt_advance_sub]
          congr 1
          omega
        rw [if_pos wide, if_pos wide]
        cases state.conversion.leftJustify with
        | false =>
            simp only [Bool.not_false, if_true, call, Option.bind_eq_bind,
              Option.bind_some, Bool.false_eq_true, if_false]
            change Option.map _ ((padRequested build state.conversion.minWidth
              (toInt (advance state.printed characters.length - state.printed))
              state).bind _) = _
            rw [count, padRequested_eq build state state.conversion _ rfl,
              List.map_append, emit_append]
            cases emitted : emit build state
                ((padding build state.conversion characters.length).map some) with
            | none => rfl
            | some next =>
                have same := parsing_emit build emitted
                have sameConversion : next.conversion = state.conversion :=
                  congrArg Parsing.conversion same
                have sameArguments : next.arguments = state.arguments :=
                  congrArg Parsing.arguments same
                have real := prints.call_zero next
                rw [sameConversion, sameArguments, taken] at real
                simp only [Option.bind_some, real, Option.map_map]
                rfl
        | true =>
            simp only [Bool.not_true, Bool.false_eq_true, if_false, callZero,
              Option.bind_eq_bind, if_true]
            rw [List.map_append, emit_append]
            cases emitted : emit build state (characters.map some) with
            | none => rfl
            | some next =>
                have printed := printed_emit emitted
                rw [List.length_map] at printed
                simp only [Option.map_some, Option.bind_some,
                  PrintState.printed_withParsing, printed, count]
                have filled := padRequested_eq build (next.withParsing
                  ⟨state.inConversionSpec, { state.conversion with minWidth := 0 },
                    arguments⟩) state.conversion characters.length rfl
                rw [filled, emit_withParsing, Option.map_map]
                rfl
      · rw [if_neg wide, if_neg wide, call, Option.map_map]
        rfl

end Thos.Libc
