import Thos.Data.Numeral
import Thos.Libc.Emission

namespace Thos.Libc

open Data.Numeral

/-! The text of each conversion, and the padding around it. -/

abbrev Body := ConversionSpec → List Argument → Option (List Char × List Argument)

def integerBits (build : Target) (conversion : ConversionSpec) : Nat :=
  if conversion.valueIs32bit build then 32 else 64

def charBody : Body := fun _ arguments =>
  (vaArgInteger 32 arguments).map fun result =>
    ([Char.ofNat (result.1 % 256)], result.2)

/-- A longer string overflows the index of `print_string`. -/
def stringBody : Body := fun _ arguments =>
  (vaArgString arguments).bind fun result =>
    if result.1.length ≤ intMax then some result else none

def alternativePrefix (conversion : ConversionSpec) (marker : Char) : List Char :=
  if conversion.alternative then ['0', marker] else []

def placesBody (build : Target) (marker : Char) (base : Nat) : Body :=
  fun conversion arguments =>
    (vaArgInteger (integerBits build conversion) arguments).map fun result =>
      (alternativePrefix conversion marker ++ Nat.toDigits base result.1, result.2)

def hexBody (build : Target) : Body := placesBody build 'x' 16

def binaryBody (build : Target) : Body := placesBody build 'b' 2

def unsignedBody (build : Target) : Body := fun conversion arguments =>
  (vaArgInteger (integerBits build conversion) arguments).map fun result =>
    (Nat.toDigits 10 result.1, result.2)

def signedValue (bits value : Nat) : Int := (value : Int).bmod (2 ^ bits)

theorem signedValue_mod (bits value : Nat) :
    signedValue bits (value % 2 ^ bits) = signedValue bits value := by
  rw [signedValue, signedValue, Int.natCast_emod]
  exact Int.emod_bmod value (2 ^ bits)

def signedDigits (value : Int) : List Char :=
  if value < 0 then '-' :: Nat.toDigits 10 value.natAbs
  else Nat.toDigits 10 value.natAbs

def signedBody (build : Target) : Body := fun conversion arguments =>
  (vaArgInteger (integerBits build conversion) arguments).map fun result =>
    (signedDigits (signedValue (integerBits build conversion) result.1), result.2)

/-- `func` takes its arguments and puts its text as `body` says, with a text
that does not depend on the minimum width. -/
structure Prints (build : Target) (func : PrintState → Option PrintState)
    (body : Body) : Prop where
  prints : ∀ state, func state =
    (body state.conversion state.arguments).bind fun result =>
      putChars build { state with arguments := result.2 } result.1
  width : ∀ (conversion : ConversionSpec) (minWidth : Int),
    body { conversion with minWidth := minWidth } = body conversion

variable {build : Target}

theorem putChars_cons (state : PrintState) (first : Char) (rest : List Char) :
    putChars build state (first :: rest) =
      (putcharMaybeMinwidth build state first).bind fun next =>
        putChars build next rest := rfl

theorem vaArgInteger_lt {bits value : Nat} {arguments rest : List Argument}
    (taken : vaArgInteger bits arguments = some (value, rest)) :
    value < 2 ^ bits := by
  cases arguments with
  | nil => contradiction
  | cons argument arguments =>
      cases argument with
      | string characters => contradiction
      | integer size stored =>
          simp only [vaArgInteger] at taken
          split at taken
          · cases taken
            exact Nat.mod_lt _ (Nat.two_pow_pos bits)
          · contradiction

theorem prints_char : Prints build (printChar build) charBody where
  prints state := by
    simp only [printChar, charBody]
    cases vaArgInteger 32 state.arguments with
    | none => rfl
    | some result =>
        simp only [Option.bind_eq_bind, Option.bind_some, Option.map_some,
          putChars_cons]
        cases putcharMaybeMinwidth build { state with arguments := result.2 }
          (Char.ofNat (result.1 % 256)) <;> rfl
  width _ _ := rfl

theorem printStringLoop_eq (build : Target) (str : List Char) (index : Nat)
    (state : PrintState) (bound : index ≤ intMax) :
    printStringLoop build str index state =
      if index + str.length ≤ intMax then putChars build state str else none := by
  induction str generalizing index state with
  | nil => simp [printStringLoop, putChars, bound]
  | cons ch rest induction =>
      rw [printStringLoop, if_neg (by omega)]
      simp only [putChars_cons, List.length_cons, Option.bind_eq_bind]
      by_cases last : index + 1 ≤ intMax
      · have next : toInt ((index : Int) + 1) = (index + 1 : Nat) :=
          toInt_of_le last
        simp only [next, induction (index + 1) _ last]
        rw [show index + 1 + rest.length = index + (rest.length + 1) by omega]
        split
        · rfl
        · cases putcharMaybeMinwidth build state ch <;> rfl
      · have edge : index = intMax := by omega
        have wrapped : toInt ((intMax : Int) + 1) < 0 := by decide
        rw [if_neg (by omega), edge]
        cases putcharMaybeMinwidth build state ch with
        | none => rfl
        | some next =>
            rw [Option.bind_some]
            cases rest <;> exact if_pos wrapped

theorem prints_string : Prints build (printString build) stringBody where
  prints state := by
    simp only [printString, stringBody]
    cases vaArgString state.arguments with
    | none => rfl
    | some result =>
        have looped := printStringLoop_eq build result.1 0
          { state with arguments := result.2 } (Nat.zero_le _)
        simp only [Option.bind_eq_bind, Option.bind_some]
        apply looped.trans
        rw [Nat.zero_add]
        split <;> rfl
  width _ _ := rfl

theorem hexAscii_eq : ∀ digit < 16, hexAscii digit = Nat.digitChar digit := by
  decide

theorem binaryAscii_eq : ∀ digit < 2, binaryAscii digit = Nat.digitChar digit := by
  decide

theorem decimalAscii_eq : ∀ digit < 10,
    Char.ofNat ('0'.toNat + digit) = Nat.digitChar digit := by
  decide

section

variable {width : Nat} {ascii : Nat → Char}

theorem printPlacesLoop_eq
    (characters : ∀ digit < 2 ^ width, ascii digit = Nat.digitChar digit)
    (value count : Nat) (started : Bool) (state : PrintState) :
    printPlacesLoop build width (2 ^ width - 1) ascii value count started state =
      putChars build state
        ((if started then places (2 ^ width) count value
          else significant (places (2 ^ width) count value)).map
            Nat.digitChar) := by
  induction count generalizing started state with
  | zero => cases started <;> rfl
  | succ shift induction =>
      have digit : value >>> (shift * width) &&& (2 ^ width - 1) =
          value / (2 ^ width) ^ shift % 2 ^ width := by
        rw [Nat.shiftRight_eq_div_pow, Nat.mul_comm, Nat.pow_mul,
          Nat.and_two_pow_sub_one_eq_mod]
      have character := characters (value / (2 ^ width) ^ shift % 2 ^ width)
        (Nat.mod_lt _ (Nat.two_pow_pos width))
      have nonempty : places (2 ^ width) shift value ≠ [] ↔ shift ≠ 0 := by
        rw [ne_eq, ← List.length_eq_zero_iff, length_places]
      rw [printPlacesLoop, places]
      simp only [digit, character, significant_cons, nonempty]
      cases started with
      | true =>
          simp only [Bool.not_true, Bool.false_eq_true, false_and, and_false,
            if_false, if_true, List.map_cons, putChars_cons]
          simp only [induction, if_true]
          rfl
      | false =>
          by_cases skip : value / (2 ^ width) ^ shift % 2 ^ width = 0 ∧ shift ≠ 0
          · simp [skip, induction]
          · have kept : ¬ (value / (2 ^ width) ^ shift % 2 ^ width = 0 ∧
                True ∧ shift ≠ 0) := by
              rintro ⟨zero, _, positive⟩
              exact skip ⟨zero, positive⟩
            simp only [Bool.not_false, Bool.false_eq_true, if_false, skip, kept,
              List.map_cons, putChars_cons, induction, if_true]
            rfl

theorem prints_places {places32 places64 : Nat} (marker : Char)
    (positive : 0 < width)
    (characters : ∀ digit < 2 ^ width, ascii digit = Nat.digitChar digit)
    (covers32 : width * (places32 + 1) = 32)
    (covers64 : width * (places64 + 1) = 64) :
    Prints build (printPlaces build marker width (2 ^ width - 1) ascii
      (places32 + 1) (places64 + 1)) (placesBody build marker (2 ^ width)) where
  prints state := by
    simp only [printPlaces, placesBody, integerBits]
    cases taken : vaArgInteger (if state.conversion.valueIs32bit build then 32
        else 64) state.arguments with
    | none => rfl
    | some result =>
        have bound := vaArgInteger_lt taken
        have large : 1 < 2 ^ width := Nat.one_lt_two_pow (by omega)
        have digits : (significant (places (2 ^ width)
            (if state.conversion.valueIs32bit build then places32 + 1
              else places64 + 1) result.1)).map Nat.digitChar =
            Nat.toDigits (2 ^ width) result.1 := by
          split at bound
          · rw [← covers32, Nat.pow_mul] at bound
            rw [if_pos (by assumption), significant_places large bound]
          · rw [← covers64, Nat.pow_mul] at bound
            rw [if_neg (by assumption), significant_places large bound]
        simp only [Option.bind_eq_bind, Option.bind_some, Option.map_some,
          printPlacesLoop_eq characters, Bool.false_eq_true, if_false, digits,
          alternativePrefix]
        cases state.conversion.alternative with
        | false => rfl
        | true =>
            simp only [if_true, List.cons_append, List.nil_append, putChars_cons]
  width _ _ := rfl

end

theorem prints_hex : Prints build (printHex build) (hexBody build) :=
  prints_places 'x' (by decide) hexAscii_eq rfl rfl

theorem prints_binary : Prints build (printBinary build) (binaryBody build) :=
  prints_places 'b' (by decide) binaryAscii_eq rfl rfl

/-- The divisor runs through the powers of ten below the bound of `value`. -/
theorem printUnsignedLoop_eq (iterations value : Nat) (started : Bool)
    (state : PrintState) (bound : value < 10 ^ iterations) :
    printUnsignedLoop build iterations (10 ^ iterations / 10) value started state =
      putChars build state
        ((if started then places 10 iterations value
          else nonzero (places 10 iterations value)).map Nat.digitChar) := by
  induction iterations generalizing value started state with
  | zero => cases started <;> rfl
  | succ iterations induction =>
      have divisor : 10 ^ (iterations + 1) / 10 = 10 ^ iterations := by
        rw [Nat.pow_succ, Nat.mul_div_cancel _ (by decide)]
      have positive : 10 ^ iterations > 0 := Nat.pow_pos (by decide)
      rw [Nat.pow_succ'] at bound
      have small : value / 10 ^ iterations < 10 := by
        apply Nat.div_lt_of_lt_mul
        omega
      have lower : value - value / 10 ^ iterations * 10 ^ iterations =
          value % 10 ^ iterations := by
        rw [Nat.mul_comm, ← Nat.mod_def]
      have below : value % 10 ^ iterations < 10 ^ iterations :=
        Nat.mod_lt _ positive
      rw [printUnsignedLoop, divisor, if_pos positive, places,
        Nat.mod_eq_of_lt small]
      by_cases reached : value ≥ 10 ^ iterations
      · have leading : value / 10 ^ iterations ≠ 0 := by
          rw [Nat.div_ne_zero_iff]
          omega
        have kept : nonzero (value / 10 ^ iterations :: places 10 iterations value) =
            value / 10 ^ iterations :: places 10 iterations value := by
          simp [nonzero, leading]
        rw [if_pos reached, kept, ite_self, List.map_cons, putChars_cons]
        simp only [decimalAscii_eq _ small, lower, induction _ _ _ below, if_true,
          places_mod]
        rfl
      · have zero : value / 10 ^ iterations = 0 :=
          Nat.div_eq_of_lt (Nat.lt_of_not_ge reached)
        have skipped : nonzero (0 :: places 10 iterations value) =
            nonzero (places 10 iterations value) := by
          simp [nonzero]
        rw [if_neg reached, zero]
        simp only [induction _ _ _ (Nat.lt_of_not_ge reached)]
        cases started with
        | false => simp [skipped]
        | true =>
            simp only [if_true, Option.bind_eq_bind, List.map_cons, putChars_cons]
            rfl

theorem printUnsignedValue_eq {iterations startingDivisor value : Nat}
    (state : PrintState) (starts : startingDivisor = 10 ^ iterations / 10)
    (bound : value < 10 ^ iterations) :
    printUnsignedValue build iterations startingDivisor state value =
      putChars build state (Nat.toDigits 10 value) := by
  rw [printUnsignedValue]
  split
  case isTrue zero =>
    rw [zero, Nat.toDigits_zero, putChars_cons]
    cases putcharMaybeMinwidth build state '0' <;> rfl
  case isFalse positive =>
    have digits := nonzero_places (by decide) bound
    rw [if_neg positive] at digits
    rw [starts, printUnsignedLoop_eq _ _ _ _ bound, if_neg (by decide), digits]

theorem printUnsignedUint32_eq {value : Nat} (state : PrintState)
    (bound : value < 2 ^ 32) :
    printUnsignedUint32 build state value =
      putChars build state (Nat.toDigits 10 value) :=
  printUnsignedValue_eq state (by decide) (by omega)

theorem printUnsignedUint64_eq {value : Nat} (state : PrintState)
    (bound : value < 2 ^ 64) :
    printUnsignedUint64 build state value =
      putChars build state (Nat.toDigits 10 value) :=
  printUnsignedValue_eq state (by decide) (by omega)

theorem prints_unsigned :
    Prints build (printUnsigned build) (unsignedBody build) where
  prints state := by
    simp only [printUnsigned, unsignedBody, integerBits]
    cases state.conversion.valueIs32bit build with
    | false =>
        cases taken : vaArgInteger 64 state.arguments with
        | none => simp [taken]
        | some result =>
            simp [taken, printUnsignedUint64_eq _ (vaArgInteger_lt taken)]
    | true =>
        cases taken : vaArgInteger 32 state.arguments with
        | none => simp [taken]
        | some result =>
            simp [taken, printUnsignedUint32_eq _ (vaArgInteger_lt taken)]
  width _ _ := rfl

theorem negated_toNat {bits : Nat} {value : Int}
    (low : -(2 ^ bits : Int) < value) (negative : value < 0) :
    ((value * -1).bmod (2 ^ bits) % 2 ^ bits).toNat = value.natAbs := by
  have wrapped : (value * -1).bmod (2 ^ bits) % ((2 ^ bits : Nat) : Int) =
      (value * -1) % ((2 ^ bits : Nat) : Int) := Int.bmod_emod
  push_cast at wrapped
  rw [wrapped, Int.emod_eq_of_lt (by omega) (by omega)]
  omega

theorem unsigned_toNat {bits : Nat} {value : Int} (nonneg : 0 ≤ value)
    (high : value < 2 ^ bits) : (value % 2 ^ bits).toNat = value.natAbs := by
  rw [Int.emod_eq_of_lt nonneg high]
  omega

theorem signedValue_bounds (bits value : Nat) :
    -(2 ^ bits : Int) < signedValue bits value ∧
      signedValue bits value < 2 ^ bits := by
  have span : 0 < 2 ^ bits := Nat.two_pow_pos bits
  have low : -((2 ^ bits : Nat) / 2 : Int) ≤ signedValue bits value :=
    Int.le_bmod span
  have high : signedValue bits value < ((2 ^ bits : Nat) + 1) / 2 :=
    Int.bmod_lt span
  have cast : ((2 ^ bits : Nat) : Int) = 2 ^ bits := by push_cast; rfl
  omega

theorem printSignedValue_eq {bits : Nat}
    {printUnsignedValue : PrintState → Nat → Option PrintState}
    (digits : ∀ (state : PrintState) (value : Nat), value < 2 ^ bits →
      printUnsignedValue state value =
        putChars build state (Nat.toDigits 10 value)) (state : PrintState) :
    printSignedValue build bits printUnsignedValue state =
      (vaArgInteger bits state.arguments).bind fun result =>
        putChars build { state with arguments := result.2 }
          (signedDigits (signedValue bits result.1)) := by
  rw [printSignedValue]
  cases vaArgInteger bits state.arguments with
  | none => rfl
  | some result =>
      have bounds := signedValue_bounds bits result.1
      have cast : ((2 ^ bits : Nat) : Int) = 2 ^ bits := by push_cast; rfl
      have magnitude : (signedValue bits result.1).natAbs < 2 ^ bits := by omega
      simp only [Option.bind_eq_bind, Option.bind_some, signedDigits]
      rw [show (result.1 : Int).bmod (2 ^ bits) = signedValue bits result.1 from rfl]
      by_cases negative : signedValue bits result.1 < 0
      · simp only [negative, if_true, negated_toNat bounds.1 negative,
          digits _ _ magnitude, putChars_cons]
      · simp only [negative, if_false,
          unsigned_toNat (Int.not_lt.mp negative) bounds.2, digits _ _ magnitude]

theorem printSigned_eq (state : PrintState) :
    printSigned build state =
      (vaArgInteger (integerBits build state.conversion) state.arguments).bind
        fun result => putChars build { state with arguments := result.2 }
          (signedDigits
            (signedValue (integerBits build state.conversion) result.1)) := by
  rw [printSigned, integerBits]
  cases state.conversion.valueIs32bit build with
  | false => exact printSignedValue_eq (fun _ _ => printUnsignedUint64_eq _) state
  | true => exact printSignedValue_eq (fun _ _ => printUnsignedUint32_eq _) state

theorem prints_signed : Prints build (printSigned build) (signedBody build) where
  prints state := by
    rw [printSigned_eq, signedBody, Option.bind_map]
    rfl
  width _ _ := rfl

end Thos.Libc
