import Thos.Libc.Directive
import Mathlib.Data.List.ReduceOption

namespace Thos.Libc

/-! The engine prints a list of directives as specified. -/

variable {build : Target}

def ConversionSpec.pending (conversion : ConversionSpec) (digits rest : List Char) :
    ConversionSpec :=
  { conversion with
    minWidthChars := if digits = [] then none else some (digits ++ rest) }

def ConversionSpec.ended (conversion : ConversionSpec) (digits : List Char) :
    ConversionSpec :=
  { conversion with
    minWidthChars := none
    minWidth :=
      if digits = [] then conversion.minWidth else Nat.ofDigitChars 10 digits 0 }

structure Digits (digits : List Char) : Prop where
  digit : ∀ ch ∈ digits, ch.isDigit = true
  fits : Nat.ofDigitChars 10 digits 0 ≤ intMax

theorem isDigit_iff (ch : Char) : ch.isDigit = true ↔ '0' ≤ ch ∧ ch ≤ '9' := by
  simp [Char.isDigit, Char.le_def]

theorem endMinWidth_pending (conversion : ConversionSpec) {digits rest : List Char}
    (wellFormed : Digits digits) (stop : ∀ ch ∈ rest.head?, ch.isDigit = false) :
    (conversion.pending digits rest).endMinWidth = conversion.ended digits := by
  simp only [ConversionSpec.pending, ConversionSpec.endMinWidth,
    ConversionSpec.ended]
  by_cases empty : digits = []
  · simp [empty]
  · simp [empty, atoi_digits empty wellFormed.digit stop wellFormed.fits]

def inSpec (conversion : ConversionSpec) (digits rest : List Char)
    (arguments : List Argument) : Parsing :=
  ⟨true, conversion.pending digits rest, arguments⟩

/-- A digit extends the width, unless it is the first `0`. -/
theorem step_digit (conversion : ConversionSpec) {digits rest : List Char}
    {ch : Char} (arguments : List Argument) (digit : ch.isDigit = true)
    (further : ch = '0' → digits ≠ [] ∨ conversion.zeroPad = true) :
    stepMeaning build ch rest (inSpec conversion digits (ch :: rest) arguments) =
      some ([], inSpec conversion (digits ++ [ch]) rest arguments) := by
  have range := (isDigit_iff ch).mp digit
  by_cases empty : digits = []
  · have notFlag : ¬ (conversion.zeroPad = false ∧ ch = '0') := by
      rintro ⟨noPad, zero⟩
      rcases further zero with some | padded
      · exact some empty
      · rw [noPad] at padded
        contradiction
    simp [stepMeaning, inSpec, ConversionSpec.pending, empty, range, notFlag]
  · simp [stepMeaning, inSpec, ConversionSpec.pending, empty, range]

theorem step_zero_flag (conversion : ConversionSpec) (rest : List Char)
    (arguments : List Argument) (noPad : conversion.zeroPad = false) :
    stepMeaning build '0' rest (inSpec conversion [] ('0' :: rest) arguments) =
      some ([], inSpec { conversion with zeroPad := true } [] rest arguments) := by
  simp [stepMeaning, inSpec, ConversionSpec.pending, noPad]

theorem step_spec (conversion : ConversionSpec) {result : ConversionSpec}
    {digits rest : List Char} {ch : Char} (arguments : List Argument)
    (other : ch.isDigit = false)
    (ended : (conversion.pending digits (ch :: rest)).endMinWidth = result) :
    stepMeaning build ch rest (inSpec conversion digits (ch :: rest) arguments) =
      specMeaning build ch ⟨true, result, arguments⟩ := by
  have outside : ¬ ('0' ≤ ch ∧ ch ≤ '9') := by
    rw [← isDigit_iff, other]
    exact Bool.false_ne_true
  have notZero : ch ≠ '0' := by
    rintro rfl
    contradiction
  simp [stepMeaning, inSpec, outside, notZero, ended]

theorem head_not_digit {ch : Char} {rest : List Char} (other : ch.isDigit = false) :
    ∀ first ∈ (ch :: rest).head?, first.isDigit = false := by
  rintro _ ⟨⟩
  exact other

theorem step_other (conversion : ConversionSpec) {digits rest : List Char}
    {ch : Char} (arguments : List Argument) (wellFormed : Digits digits)
    (other : ch.isDigit = false) :
    stepMeaning build ch rest (inSpec conversion digits (ch :: rest) arguments) =
      specMeaning build ch ⟨true, conversion.ended digits, arguments⟩ :=
  step_spec conversion arguments other
    (endMinWidth_pending conversion wellFormed (head_not_digit other))

theorem formatMeaning_cons {ch : Char} {rest : List Char} {before after : Parsing}
    (stepped : stepMeaning build ch rest before = some ([], after)) :
    formatMeaning build (ch :: rest) before = formatMeaning build rest after := by
  simp [formatMeaning, andThen, stepped]

theorem digits_of_zeros {digits : List Char} (zeros : ∀ ch ∈ digits, ch = '0') :
    Digits digits ∧ Nat.ofDigitChars 10 digits 0 = 0 := by
  have value : Nat.ofDigitChars 10 digits 0 = 0 := by
    rw [List.eq_replicate_of_mem zeros, Nat.ofDigitChars_replicate_zero,
      Nat.mul_zero]
  refine ⟨⟨?_, ?_⟩, value⟩
  · intro ch member
    rw [zeros ch member]
    rfl
  · rw [value]
    exact Nat.zero_le _

def Flag.apply (conversion : ConversionSpec) : Flag → ConversionSpec
  | minus => { conversion with leftJustify := true }
  | zero => { conversion with zeroPad := true }
  | alternative => { conversion with alternative := true }

theorem step_flag (conversion : ConversionSpec) {digits rest : List Char}
    (arguments : List Argument) (zeros : ∀ ch ∈ digits, ch = '0')
    (noWidth : conversion.minWidth = 0) {flag : Flag} (other : flag ≠ .zero) :
    stepMeaning build flag.char rest
        (inSpec conversion digits (flag.char :: rest) arguments) =
      some ([], inSpec (flag.apply conversion) [] rest arguments) := by
  obtain ⟨wellFormed, value⟩ := digits_of_zeros zeros
  have ended : conversion.ended digits =
      { conversion with minWidthChars := none } := by
    simp only [ConversionSpec.ended, value]
    split <;> simp [noWidth]
  cases flag with
  | zero => contradiction
  | minus =>
      apply (step_other conversion arguments wellFormed rfl).trans
      rw [ended]
      rfl
  | alternative =>
      apply (step_other conversion arguments wellFormed rfl).trans
      rw [ended]
      rfl

/-- The flags, of which repeated zeros are read as digits of the width. -/
theorem flags_meaning (build : Target) (flags : List Flag)
    (conversion : ConversionSpec)
    (digits : List Char) (rest : List Char) (arguments : List Argument)
    (zeros : ∀ ch ∈ digits, ch = '0')
    (padded : digits ≠ [] → conversion.zeroPad = true)
    (noWidth : conversion.minWidth = 0) :
    ∃ digits', (∀ ch ∈ digits', ch = '0') ∧
      formatMeaning build (flags.map Flag.char ++ rest)
          (inSpec conversion digits (flags.map Flag.char ++ rest) arguments) =
        formatMeaning build rest
          (inSpec (flags.foldl Flag.apply conversion) digits' rest arguments) := by
  induction flags generalizing conversion digits with
  | nil => exact ⟨digits, zeros, rfl⟩
  | cons flag flags induction =>
      simp only [List.map_cons, List.cons_append, List.foldl_cons]
      cases flag with
      | zero =>
          cases pad : conversion.zeroPad with
          | false =>
              have empty : digits = [] := by
                by_contra some
                rw [padded some] at pad
                contradiction
              subst empty
              obtain ⟨digits', zeros', same⟩ :=
                induction (Flag.zero.apply conversion) [] (by simp) (by simp) noWidth
              refine ⟨digits', zeros', ?_⟩
              rw [← same]
              exact formatMeaning_cons (step_zero_flag conversion _ arguments pad)
          | true =>
              have zeros' : ∀ ch ∈ digits ++ ['0'], ch = '0' := by
                intro ch member
                rcases List.mem_append.mp member with old | new
                · exact zeros ch old
                · exact List.mem_singleton.mp new
              obtain ⟨digits', zeros', same⟩ :=
                induction (Flag.zero.apply conversion) _ zeros' (fun _ => rfl) noWidth
              refine ⟨digits', zeros', ?_⟩
              rw [← same]
              have kept : Flag.zero.apply conversion = conversion := by
                simp [Flag.apply, ← pad]
              rw [kept]
              exact formatMeaning_cons (step_digit conversion arguments rfl
                fun _ => .inr pad)
      | minus =>
          obtain ⟨digits', zeros', same⟩ :=
            induction (Flag.minus.apply conversion) [] (by simp) (by simp) noWidth
          refine ⟨digits', zeros', ?_⟩
          rw [← same]
          exact formatMeaning_cons
            (step_flag conversion arguments zeros noWidth Flag.noConfusion)
      | alternative =>
          obtain ⟨digits', zeros', same⟩ :=
            induction (Flag.alternative.apply conversion) [] (by simp) (by simp)
              noWidth
          refine ⟨digits', zeros', ?_⟩
          rw [← same]
          exact formatMeaning_cons
            (step_flag conversion arguments zeros noWidth Flag.noConfusion)

theorem digits_meaning (digits : List Char) (conversion : ConversionSpec)
    (before rest : List Char) (arguments : List Argument)
    (member : ∀ ch ∈ digits, ch.isDigit = true)
    (notFlag : before = [] → digits.head? ≠ some '0') :
    formatMeaning build (digits ++ rest)
        (inSpec conversion before (digits ++ rest) arguments) =
      formatMeaning build rest
        (inSpec conversion (before ++ digits) rest arguments) := by
  induction digits generalizing before with
  | nil => simp
  | cons digit digits induction =>
      have first : stepMeaning build digit (digits ++ rest)
          (inSpec conversion before (digit :: (digits ++ rest)) arguments) =
          some ([], inSpec conversion (before ++ [digit]) (digits ++ rest)
            arguments) := by
        apply step_digit conversion arguments (member digit (List.mem_cons_self ..))
        rintro rfl
        exact .inl fun empty => notFlag empty rfl
      rw [List.cons_append, formatMeaning_cons first, induction, List.append_assoc]
      · rfl
      · exact fun ch here => member ch (List.mem_cons_of_mem _ here)
      · simp

theorem head_toDigits {value : Nat} (positive : 0 < value) :
    (Nat.toDigits 10 value).head? ≠ some '0' := by
  induction value using Nat.strong_induction_on with
  | _ value induction =>
      rw [Nat.toDigits_eq_if (by decide)]
      split
      case isTrue small =>
        rw [List.head?_cons, ne_eq, Option.some.injEq, Nat.digitChar_eq_zero]
        omega
      case isFalse large =>
        have upper := induction (value / 10) (by omega) (by omega)
        rw [List.head?_append]
        cases split : (Nat.toDigits 10 (value / 10)).head? with
        | none =>
            rw [List.head?_eq_none_iff] at split
            exact absurd split Nat.toDigits_ne_nil
        | some first =>
            rw [split] at upper
            exact upper

/-- What the flags, the width and the modifiers before a specifier amount to. -/
structure Scanned (digits : List Char) (conversion result : ConversionSpec) :
    Prop where
  wellFormed : Digits digits
  ended : conversion.ended digits = result

def Ready (build : Target) (digits : List Char)
    (conversion result : ConversionSpec) : Prop :=
  ∀ ch rest arguments, ch.isDigit = false →
    stepMeaning build ch rest (inSpec conversion digits (ch :: rest) arguments) =
      specMeaning build ch ⟨true, result, arguments⟩

theorem Scanned.ready {digits : List Char} {conversion result : ConversionSpec}
    (scanned : Scanned digits conversion result) :
    Ready build digits conversion result := by
  intro ch rest arguments other
  rw [step_other conversion arguments scanned.wellFormed other, scanned.ended]

theorem ready_decimal (conversion : ConversionSpec) {digits : List Char}
    (nonempty : digits ≠ []) (member : ∀ ch ∈ digits, ch.isDigit = true) :
    Ready build digits conversion { conversion with
      minWidthChars := none
      minWidth := toInt (Nat.ofDigitChars 10 digits 0) } := by
  intro ch rest arguments other
  apply step_spec conversion arguments other
  simp only [ConversionSpec.pending, nonempty, if_false,
    ConversionSpec.endMinWidth, atoi_decimal nonempty member (head_not_digit other)]

def Width.Readable : Width → Prop
  | decimal value => 0 < value
  | _ => True

def Width.stored (width : Width) : Int := toInt width.value

theorem width_meaning (build : Target) {width : Width} (readable : width.Readable)
    (conversion : ConversionSpec) {digits : List Char} (rest : List Char)
    (arguments : List Argument) (zeros : ∀ ch ∈ digits, ch = '0')
    (noWidth : conversion.minWidth = 0) :
    ∃ digits' conversion', Ready build digits' conversion'
        { conversion with minWidthChars := none, minWidth := width.stored } ∧
      formatMeaning build (width.format ++ rest)
          (inSpec conversion digits (width.format ++ rest)
            (width.arguments ++ arguments)) =
        formatMeaning build rest (inSpec conversion' digits' rest arguments) := by
  obtain ⟨wellFormed, value⟩ := digits_of_zeros zeros
  cases width with
  | absent =>
      have none : Width.absent.stored = 0 := toInt_of_le (Nat.zero_le _)
      refine ⟨digits, conversion, Scanned.ready ⟨wellFormed, ?_⟩, rfl⟩
      simp [ConversionSpec.ended, value, noWidth, none]
  | decimal number =>
      have member : ∀ ch ∈ Nat.toDigits 10 number, ch.isDigit = true :=
        fun ch here => Nat.isDigit_of_mem_toDigits (by decide) (by decide) here
      have total : Nat.ofDigitChars 10 (digits ++ Nat.toDigits 10 number) 0 =
          number := by
        rw [Nat.ofDigitChars_append, value,
          Nat.ofDigitChars_toDigits (by decide) (by decide)]
      have whole : ∀ ch ∈ digits ++ Nat.toDigits 10 number, ch.isDigit = true := by
        intro ch here
        rcases List.mem_append.mp here with old | new
        · exact wellFormed.digit ch old
        · exact member ch new
      have ready : Ready build (digits ++ Nat.toDigits 10 number) conversion _ :=
        ready_decimal conversion (by simp [Nat.toDigits_ne_nil]) whole
      rw [total] at ready
      exact ⟨digits ++ Nat.toDigits 10 number, conversion, ready,
        digits_meaning _ conversion digits rest arguments member
          fun _ => head_toDigits readable⟩
  | argument number =>
      refine ⟨[], { conversion with minWidth := (Width.argument number).stored },
        Scanned.ready ⟨(digits_of_zeros (by simp)).1, ?_⟩, ?_⟩
      · simp only [ConversionSpec.ended, if_true]
      apply formatMeaning_cons
      apply (step_other conversion _ wellFormed rfl).trans
      have minWidth : (Width.argument number).stored = toInt number := rfl
      simp only [specMeaning, Width.arguments, List.cons_append, List.nil_append,
        vaArgInteger, if_true, Option.map_some, toInt_mod, minWidth, inSpec,
        ConversionSpec.pending, ConversionSpec.ended]

def LengthModifier.count : LengthModifier → Nat
  | none => 0
  | long => 1
  | longLong => 2

theorem step_long {conversion result : ConversionSpec} {digits rest : List Char}
    (arguments : List Argument) (ready : Ready build digits conversion result) :
    stepMeaning build 'l' rest (inSpec conversion digits ('l' :: rest) arguments) =
      some ([], ⟨true, { result with
        longModifiers := (result.longModifiers + 1) % 256 }, arguments⟩) :=
  ready 'l' rest arguments rfl

theorem Scanned.refl {conversion : ConversionSpec}
    (none : conversion.minWidthChars = none) :
    Scanned [] conversion conversion where
  wellFormed := (digits_of_zeros (by simp)).1
  ended := by
    simp [ConversionSpec.ended, ← none]

theorem modifier_meaning (build : Target) (modifier : LengthModifier)
    {conversion result : ConversionSpec} {digits : List Char} (rest : List Char)
    (arguments : List Argument) (ready : Ready build digits conversion result)
    (short : result.longModifiers = 0) (none : result.minWidthChars = none) :
    ∃ digits' conversion', Ready build digits' conversion'
        { result with longModifiers := modifier.count } ∧
      formatMeaning build (modifier.format ++ rest)
          (inSpec conversion digits (modifier.format ++ rest) arguments) =
        formatMeaning build rest (inSpec conversion' digits' rest arguments) := by
  have pending : ∀ (conversion : ConversionSpec) (rest : List Char),
      conversion.minWidthChars = Option.none →
        (⟨true, conversion, arguments⟩ : Parsing) =
          inSpec conversion [] rest arguments := by
    intro conversion rest none
    simp [inSpec, ConversionSpec.pending, ← none]
  cases modifier with
  | none =>
      refine ⟨digits, conversion, ?_, rfl⟩
      rw [show { result with longModifiers := LengthModifier.none.count } = result by
        simp [LengthModifier.count, ← short]]
      exact ready
  | long =>
      have scanned : Scanned [] { result with longModifiers := 1 }
          { result with longModifiers := 1 } := .refl none
      refine ⟨[], { result with longModifiers := 1 }, scanned.ready, ?_⟩
      apply formatMeaning_cons
      rw [← pending { result with longModifiers := 1 } rest none]
      apply (step_long arguments ready).trans
      rw [short]
  | longLong =>
      have scanned : Scanned [] { result with longModifiers := 2 }
          { result with longModifiers := 2 } := .refl none
      refine ⟨[], { result with longModifiers := 2 }, scanned.ready, ?_⟩
      have first : stepMeaning build 'l' ('l' :: rest)
          (inSpec conversion digits ('l' :: 'l' :: rest) arguments) =
          some ([], inSpec { result with longModifiers := 1 } [] ('l' :: rest)
            arguments) := by
        rw [← pending { result with longModifiers := 1 } ('l' :: rest) none]
        apply (step_long arguments ready).trans
        rw [short]
      apply (formatMeaning_cons first).trans
      apply formatMeaning_cons
      rw [← pending { result with longModifiers := 2 } rest none]
      have scannedOne : Scanned [] { result with longModifiers := 1 }
          { result with longModifiers := 1 } := .refl none
      exact step_long arguments scannedOne.ready

theorem integerBits_eq (build : Target) (modifier : LengthModifier)
    (conversion : ConversionSpec)
    (count : conversion.longModifiers = modifier.count) :
    integerBits build conversion = modifier.bits build := by
  cases build <;> cases modifier <;>
    simp [integerBits, ConversionSpec.valueIs32bit, count, LengthModifier.count,
      LengthModifier.bits, Target.pointerBits]

theorem length_toDigits_le {base value bits : Nat} (large : 1 < base)
    (small : bits ≤ 64) (bound : value < 2 ^ bits) :
    (Nat.toDigits base value).length ≤ 64 := by
  rw [Nat.length_toDigits_le_iff large (by decide)]
  calc value < 2 ^ bits := bound
    _ ≤ 2 ^ 64 := Nat.pow_le_pow_right (by decide) small
    _ ≤ base ^ 64 := Nat.pow_le_pow_left large 64

theorem length_signedDigits_le {bits : Nat} (small : bits ≤ 64) (value : Nat) :
    (signedDigits (signedValue bits value)).length ≤ 65 := by
  obtain ⟨low, high⟩ := signedValue_bounds bits value
  have cast : ((2 ^ bits : Nat) : Int) = 2 ^ bits := by push_cast; rfl
  have below : (signedValue bits value).natAbs < 2 ^ bits := by omega
  have digits := length_toDigits_le (show 1 < 10 by decide) small below
  rw [signedDigits]
  split
  · rw [List.length_cons]
    omega
  · omega

theorem conversionOutput_eq {conversion : ConversionSpec} {flags : List Flag}
    {width : Nat} {body : List Char} (length : body.length ≤ intMax)
    (fits : width ≤ intMax) (minWidth : conversion.minWidth = width)
    (zero : conversion.zeroPad = decide (.zero ∈ flags))
    (minus : conversion.leftJustify = decide (.minus ∈ flags)) :
    conversionOutput build conversion body = (pad flags width body).map some := by
  have amount : paddingAmount build conversion body.length = width - body.length := by
    have span : intMax < 2 ^ build.pointerBits := by cases build <;> decide
    rw [paddingAmount, minWidth, toInt_of_le length]
    split
    case isTrue wide =>
      have short : body.length ≤ width := by omega
      rw [← Int.ofNat_sub short, toInt_of_le (by omega)]
      exact Target.sizeT_of_lt (by omega)
    case isFalse narrow => omega
  rw [conversionOutput, minWidth]
  by_cases positive : (width : Int) > 0
  · simp only [positive, if_true, padding, amount, zero, minus, pad,
      decide_eq_true_eq]
  · have none : width = 0 := by omega
    simp [none, counted, minWidth, pad]

theorem Operand.char_not_digit (operand : Operand) :
    operand.char.isDigit = false := by
  cases operand with
  | character value => rfl
  | string characters => rfl
  | integer conversion value => cases conversion <;> rfl

theorem operand_output {operand : Operand} (flags : List Flag)
    (modifier : LengthModifier) (fits : operand.Fits) {conversion : ConversionSpec}
    (count : conversion.longModifiers = modifier.count)
    (alternative : conversion.alternative = decide (.alternative ∈ flags))
    (arguments : List Argument) :
    specMeaning build operand.char ⟨true, conversion,
        operand.argument (modifier.bits build) :: arguments⟩ =
      some (conversionOutput build conversion (operand.text (modifier.bits build)
        (.alternative ∈ flags)), { arguments := arguments }) := by
  have bits := integerBits_eq build modifier conversion count
  cases operand with
  | character value =>
      have text : (value % 2 ^ 32) % 256 = value % 256 := by omega
      simp only [Operand.char, specMeaning, conversionMeaning, charBody,
        Operand.argument, vaArgInteger, if_true, Option.map_some, Operand.text, text]
  | string characters =>
      have length : characters.length ≤ intMax := fits
      simp only [Operand.char, specMeaning, conversionMeaning, stringBody,
        Operand.argument, vaArgString, Option.bind_some, length, if_true,
        Option.map_some, Operand.text]
  | integer conversion value =>
      have taken : vaArgInteger (modifier.bits build)
          (.integer (modifier.bits build) value :: arguments) =
            some (value % 2 ^ modifier.bits build, arguments) := if_pos rfl
      cases conversion with
      | hexadecimal =>
          simp only [Operand.char, IntegerConversion.char, specMeaning,
            conversionMeaning, hexBody, placesBody, Operand.argument, bits, taken,
            Option.map_some, Operand.text, IntegerConversion.text,
            alternativePrefix, alternative]
      | binary =>
          simp only [Operand.char, IntegerConversion.char, specMeaning,
            conversionMeaning, binaryBody, placesBody, Operand.argument, bits, taken,
            Option.map_some, Operand.text, IntegerConversion.text,
            alternativePrefix, alternative]
      | decimal | integer =>
          simp only [Operand.char, IntegerConversion.char, specMeaning,
            conversionMeaning, signedBody, Operand.argument, bits, taken,
            Option.map_some, Operand.text, IntegerConversion.text,
            signedValue_mod]
      | unsigned =>
          simp only [Operand.char, IntegerConversion.char, specMeaning,
            conversionMeaning, unsignedBody, Operand.argument, bits, taken,
            Option.map_some, Operand.text, IntegerConversion.text]

theorem length_operand_text {operand : Operand} (fits : operand.Fits)
    {bits : Nat} (small : bits ≤ 64) (alternative : Bool) :
    (operand.text bits alternative).length ≤ intMax := by
  have limit : 128 ≤ intMax := by decide
  cases operand with
  | character value =>
      rw [Operand.text, List.length_singleton]
      omega
  | string characters => exact fits
  | integer conversion value =>
      have below : value % 2 ^ bits < 2 ^ bits := Nat.mod_lt _ (Nat.two_pow_pos _)
      have digits := fun base (large : 1 < base) =>
        length_toDigits_le large small below
      cases conversion with
      | hexadecimal =>
          have length := digits 16 (by decide)
          simp only [Operand.text, IntegerConversion.text, List.length_append]
          split <;> simp <;> omega
      | binary =>
          have length := digits 2 (by decide)
          simp only [Operand.text, IntegerConversion.text, List.length_append]
          split <;> simp <;> omega
      | decimal | integer =>
          have length := length_signedDigits_le small (value % 2 ^ bits)
          simp only [Operand.text, IntegerConversion.text]
          omega
      | unsigned =>
          have length := digits 10 (by decide)
          simp only [Operand.text, IntegerConversion.text]
          omega

theorem LengthModifier.bits_le (build : Target) (modifier : LengthModifier) :
    modifier.bits build ≤ 64 := by
  cases build <;> cases modifier <;> decide

theorem Width.value_le {width : Width} (fits : width.Fits) :
    width.value ≤ intMax := by
  cases width with
  | absent => exact Nat.zero_le _
  | decimal value => exact fits.2
  | argument value => exact fits

theorem applied_flags (flags : List Flag) (conversion : ConversionSpec) :
    (flags.foldl Flag.apply conversion).longModifiers = conversion.longModifiers ∧
      (flags.foldl Flag.apply conversion).minWidth = conversion.minWidth ∧
      (flags.foldl Flag.apply conversion).zeroPad =
        (conversion.zeroPad || decide (.zero ∈ flags)) ∧
      (flags.foldl Flag.apply conversion).leftJustify =
        (conversion.leftJustify || decide (.minus ∈ flags)) ∧
      (flags.foldl Flag.apply conversion).alternative =
        (conversion.alternative || decide (.alternative ∈ flags)) := by
  induction flags generalizing conversion with
  | nil => simp
  | cons flag flags induction =>
      obtain ⟨modifiers, width, zero, minus, alternative⟩ :=
        induction (flag.apply conversion)
      rw [List.foldl_cons, modifiers, width, zero, minus, alternative]
      cases flag <;> simp [Flag.apply]

def Conversion.spec (conversion : Conversion) : ConversionSpec where
  longModifiers := conversion.modifier.count
  zeroPad := decide (.zero ∈ conversion.flags)
  leftJustify := decide (.minus ∈ conversion.flags)
  alternative := decide (.alternative ∈ conversion.flags)
  minWidth := conversion.width.stored

theorem Conversion.spec_eq (conversion : Conversion) :
    { conversion.flags.foldl Flag.apply {} with
      minWidthChars := none
      minWidth := conversion.width.stored
      longModifiers := conversion.modifier.count } = conversion.spec := by
  obtain ⟨_, _, zero, minus, alternative⟩ := applied_flags conversion.flags {}
  simp only [spec, zero, minus, alternative, Bool.false_or]

def Conversion.text (build : Target) (conversion : Conversion) : List Char :=
  conversion.operand.text (conversion.modifier.bits build)
    (.alternative ∈ conversion.flags)

theorem conversion_output {conversion : Conversion}
    (readable : conversion.width.Readable) (fits : conversion.operand.Fits)
    (rest : List Char) (arguments : List Argument) :
    formatMeaning build (conversion.format ++ rest)
        { arguments := (Directive.conversion conversion).arguments build ++
            arguments } =
      (formatMeaning build rest { arguments := arguments }).map fun last =>
        (conversionOutput build conversion.spec (conversion.text build) ++ last.1,
          last.2) := by
  rw [← Conversion.spec_eq, Conversion.text]
  obtain ⟨flags, width, modifier, operand⟩ := conversion
  simp only at readable fits
  simp only [Conversion.format, Directive.arguments, List.cons_append,
    List.append_assoc, List.nil_append]
  have entered : stepMeaning build '%' (flags.map Flag.char ++ (width.format ++
      (modifier.format ++ operand.char :: rest)))
      { arguments := width.arguments ++
          operand.argument (modifier.bits build) :: arguments } =
      some ([], inSpec {} [] (flags.map Flag.char ++ (width.format ++
        (modifier.format ++ operand.char :: rest)))
          (width.arguments ++ operand.argument (modifier.bits build) ::
            arguments)) := rfl
  obtain ⟨modifiers, noWidth, _, _, alternative⟩ := applied_flags flags {}
  obtain ⟨zeros, allZero, flagsSame⟩ := flags_meaning build flags {} []
    (width.format ++ (modifier.format ++ operand.char :: rest))
    (width.arguments ++ operand.argument (modifier.bits build) :: arguments)
    (by simp) (by simp) rfl
  obtain ⟨digits, afterWidth, widthReady, widthSame⟩ := width_meaning
    build readable (flags.foldl Flag.apply {})
    (modifier.format ++ operand.char :: rest)
    (operand.argument (modifier.bits build) :: arguments) allZero noWidth
  obtain ⟨digits', afterModifier, ready, modifierSame⟩ := modifier_meaning
    build modifier (operand.char :: rest)
    (operand.argument (modifier.bits build) :: arguments) widthReady modifiers rfl
  have last := (ready operand.char rest _ operand.char_not_digit).trans
    (operand_output flags modifier fits rfl (by simpa using alternative) arguments)
  rw [formatMeaning_cons entered, flagsSame, widthSame, modifierSame]
  simp [formatMeaning, andThen, last]

theorem conversionOutput_spec {conversion : Conversion}
    (fits : conversion.operand.Fits) {width : Nat} (bound : width ≤ intMax)
    (stored : conversion.width.stored = width) :
    conversionOutput build conversion.spec (conversion.text build) =
      (pad conversion.flags width (conversion.text build)).map some := by
  have length : (conversion.text build).length ≤ intMax :=
    length_operand_text fits (conversion.modifier.bits_le build) _
  apply conversionOutput_eq length bound
  · simp only [Conversion.spec, stored]
  · simp only [Conversion.spec]
  · simp only [Conversion.spec]

theorem Width.readable {width : Width} (fits : width.Fits) : width.Readable := by
  cases width with
  | absent => trivial
  | decimal value => exact fits.1
  | argument value => trivial

theorem conversion_meaning {conversion : Conversion} (valid : conversion.Valid)
    (rest : List Char) (arguments : List Argument) :
    formatMeaning build ((Directive.conversion conversion).format ++ rest)
        { arguments := (Directive.conversion conversion).arguments build ++
            arguments } =
      (formatMeaning build rest { arguments := arguments }).map fun last =>
        (((Directive.conversion conversion).text build).map some ++ last.1,
          last.2) := by
  have bound := Width.value_le valid.width
  have output := @conversionOutput_spec build conversion valid.operand _ bound
    (toInt_of_le bound)
  rw [Directive.format, conversion_output (Width.readable valid.width) valid.operand,
    output]
  rfl

theorem pointer_meaning (value : Nat) (rest : List Char) (arguments : List Argument) :
    formatMeaning build ((Directive.pointer value).format ++ rest)
        { arguments := (Directive.pointer value).arguments build ++ arguments } =
      (formatMeaning build rest { arguments := arguments }).map fun last =>
        (((Directive.pointer value).text build).map some ++ last.1, last.2) := by
  have below : value % 2 ^ build.pointerBits < 2 ^ build.pointerBits :=
    Nat.mod_lt _ (Nat.two_pow_pos _)
  have small : build.pointerBits ≤ 64 := by cases build <;> decide
  have digits := length_toDigits_le (show 1 < 16 by decide) small below
  have limit : 64 ≤ intMax := by decide
  have bits : integerBits build (pointerConversion build {}) = build.pointerBits := by
    cases build <;> rfl
  have output : conversionOutput build (pointerConversion build {})
      (Nat.toDigits 16 (value % 2 ^ build.pointerBits)) =
        (pad [.zero] (build.pointerBits / 4)
          (Nat.toDigits 16 (value % 2 ^ build.pointerBits))).map some :=
    conversionOutput_eq (by omega) (by omega) (by cases build <;> rfl) rfl rfl
  have taken : vaArgInteger build.pointerBits
      (.integer build.pointerBits value :: arguments) =
        some (value % 2 ^ build.pointerBits, arguments) := if_pos rfl
  have body : stepMeaning build 'p' rest
      (inSpec {} [] ('p' :: rest) (.integer build.pointerBits value :: arguments)) =
      some (((Directive.pointer value).text build).map some,
        { arguments := arguments }) := by
    apply (step_other {} _ (digits_of_zeros (by simp)).1 rfl).trans
    simp only [specMeaning, pointerMeaning, conversionMeaning, hexBody, placesBody]
    rw [show (ConversionSpec.ended {} []) = {} from rfl, bits, taken]
    simp only [Option.map_some]
    rw [show alternativePrefix (pointerConversion build {}) 'x' = [] from rfl,
      List.nil_append, output]
    rfl
  have entered : stepMeaning build '%' ('p' :: rest)
      { arguments := .integer build.pointerBits value :: arguments } =
      some ([], inSpec {} [] ('p' :: rest)
        (.integer build.pointerBits value :: arguments)) := rfl
  simp only [Directive.format, Directive.arguments, List.cons_append,
    List.nil_append]
  rw [formatMeaning_cons entered]
  simp [formatMeaning, andThen, body]

theorem directive_meaning {directive : Directive} (valid : directive.Valid)
    (rest : List Char) (arguments : List Argument) :
    formatMeaning build (directive.format ++ rest)
        { arguments := directive.arguments build ++ arguments } =
      (formatMeaning build rest { arguments := arguments }).map fun last =>
        ((directive.text build).map some ++ last.1, last.2) := by
  cases directive with
  | literal character =>
      have notPercent : character ≠ '%' := valid
      simp [Directive.format, Directive.arguments, Directive.text, formatMeaning,
        andThen, stepMeaning, notPercent]
  | percent =>
      simp [Directive.format, Directive.arguments, Directive.text, formatMeaning,
        andThen, stepMeaning, specMeaning, Char.le_def]
      rfl
  | pointer value => exact pointer_meaning value rest arguments
  | conversion conversion => exact conversion_meaning valid rest arguments

theorem directives_meaning {directives : List Directive}
    (valid : ∀ directive ∈ directives, directive.Valid) (rest : List Argument) :
    formatMeaning build (directives.flatMap Directive.format)
        { arguments := directives.flatMap (Directive.arguments build) ++ rest } =
      some ((directives.flatMap (Directive.text build)).map some,
        { arguments := rest }) := by
  induction directives with
  | nil => rfl
  | cons directive directives induction =>
      rw [List.flatMap_cons, List.flatMap_cons, List.append_assoc,
        directive_meaning (valid directive (List.mem_cons_self ..)),
        induction fun other member =>
          valid other (List.mem_cons_of_mem _ member)]
      simp

def PrintTarget.puts (target : PrintTarget) (text : List Char) : Option PrintTarget :=
  text.foldlM (fun target character => target.putchar character) target

theorem puts_stream (emitted text : List Char) :
    PrintTarget.puts (.stream emitted) text = some (.stream (emitted ++ text)) := by
  induction text generalizing emitted with
  | nil => simp [PrintTarget.puts]
  | cons character text induction =>
      have next := induction (emitted ++ [character])
      rw [List.append_assoc, List.singleton_append] at next
      exact next

theorem emit_output (build : Target) (state : PrintState)
    (output : List (Option Char))
    (unlimited : state.maxOutput.enabled = false) :
    emit build state output =
      (state.target.puts output.reduceOption).map fun target =>
        { state with
          target := target
          printed := advance state.printed output.length } := by
  induction output generalizing state with
  | nil => rfl
  | cons character output induction =>
      rw [emit_cons]
      cases character with
      | none =>
          rw [List.reduceOption_cons_of_none]
          exact induction { state with printed := toInt (state.printed + 1) }
            unlimited
      | some character =>
          have within : state.withinMaximum build = true := by
            simp [PrintState.withinMaximum, unlimited]
          rw [List.reduceOption_cons_of_some]
          simp only [put, putcharMaybeMax, within, if_true, PrintTarget.puts,
            List.foldlM_cons]
          cases state.target.putchar character with
          | none => rfl
          | some target =>
              exact induction { state with
                target := target
                printed := toInt (state.printed + 1) } unlimited

theorem reduceOption_map_some (text : List Char) :
    (text.map some).reduceOption = text := by
  simp [List.reduceOption, List.filterMap_map]

theorem emit_unlimited (state : PrintState) (text : List Char)
    (unlimited : state.maxOutput.enabled = false) :
    emit build state (text.map some) =
      (state.target.puts text).map fun target =>
        { state with
          target := target
          printed := advance state.printed text.length } := by
  have emitted := emit_output build state (text.map some) unlimited
  rwa [reduceOption_map_some, List.length_map] at emitted

theorem doPrint_eq (build : Target) (target : PrintTarget)
    (format : List Char) (arguments : List Argument) (maxOutput : MaxOutput) :
    PrintTarget.doPrint build target format arguments maxOutput =
      (formatMeaning build format { arguments := arguments }).bind fun result =>
        (emit build
          { target := target
            arguments := arguments
            maxOutput := maxOutput } result.1).map (·.withParsing result.2) :=
  doPrintLoop_writes format _

theorem doPrint_directives (build : Target) (target : PrintTarget)
    {directives : List Directive}
    (valid : ∀ directive ∈ directives, directive.Valid) (rest : List Argument) :
    PrintTarget.doPrint build target (directives.flatMap Directive.format)
        (directives.flatMap (Directive.arguments build) ++ rest) noMaxOutput =
      (target.puts (directives.flatMap (Directive.text build))).map fun after =>
        { target := after
          arguments := rest
          maxOutput := noMaxOutput
          printed := toInt (directives.flatMap (Directive.text build)).length } := by
  have count : advance 0 (directives.flatMap (Directive.text build)).length =
      toInt (directives.flatMap (Directive.text build)).length := by
    rw [advance_eq _ rfl, Int.zero_add]
  rw [doPrint_eq, directives_meaning valid, Option.bind_some, emit_unlimited _ _ rfl,
    Option.map_map]
  simp only [Function.comp_def, PrintState.withParsing, count]

/-- On an unlimited target the engine puts the texts of the directives in
order, consumes their arguments and returns the count as an `int`. -/
theorem doPrint_prints_directives (build : Target) {directives : List Directive}
    (valid : ∀ directive ∈ directives, directive.Valid) (target : PrintTarget)
    (rest : List Argument) (emitted : List Char) :
    let text := directives.flatMap (Directive.text build)
    PrintTarget.doPrint build target (directives.flatMap Directive.format)
        (directives.flatMap (Directive.arguments build) ++ rest) noMaxOutput =
      ((target.puts text).map fun after =>
        { target := after
          arguments := rest
          maxOutput := noMaxOutput
          printed := toInt text.length }) ∧
      PrintTarget.puts (.stream emitted) text = some (.stream (emitted ++ text)) ∧
      (text.length ≤ intMax → toInt text.length = text.length) :=
  ⟨doPrint_directives build target valid rest, puts_stream emitted _, toInt_of_le⟩

/-- `"a%-6u|%05x %%"`. -/
def Directive.sample : List Directive :=
  [.literal 'a',
    .conversion ⟨[.minus], .decimal 6, .none, .integer .unsigned 42⟩,
    .literal '|',
    .conversion ⟨[.zero], .argument 5, .long, .integer .hexadecimal 0xbeef⟩,
    .percent]

theorem Directive.sample_valid :
    ∀ directive ∈ Directive.sample, directive.Valid := by
  intro directive member
  simp only [Directive.sample, List.mem_cons, List.not_mem_nil, or_false] at member
  rcases member with rfl | rfl | rfl | rfl | rfl
  · exact (by decide : ('a' : Char) ≠ '%')
  · exact ⟨⟨by decide, by decide⟩, trivial, by simp⟩
  · exact (by decide : ('|' : Char) ≠ '%')
  · exact ⟨(by decide : 5 ≤ intMax), trivial, fun _ =>
      ⟨by decide, (by decide : Flag.alternative ∉ [Flag.zero])⟩⟩
  · trivial

theorem doPrint_prints_directives_sample :
    printf .riscv64 "a%-6u|%0*lx%%".toList
        [.integer 32 42, .integer 32 5, .integer 64 0xbeef] =
      some (.stream "a42    |0beef%".toList, 14) := by
  have printed := (doPrint_prints_directives .riscv64 Directive.sample_valid
    (.stream []) [] []).1
  exact congrArg (fun result => result.map fun state =>
    (state.target, state.printed)) printed

def Directive.widest : Directive :=
  .conversion ⟨[], .argument intMax, .none, .character 65⟩

theorem Directive.widest_valid :
    ∀ directive ∈ [Directive.widest, Directive.widest], directive.Valid := by
  intro directive member
  have same : directive = Directive.widest := by simpa using member
  rw [same]
  exact ⟨Nat.le_refl intMax, trivial, by simp⟩

theorem Directive.length_widest : ([Directive.widest, Directive.widest].flatMap
    (Directive.text .riscv64)).length = 2 * intMax := by
  have one : (Directive.widest.text .riscv64).length = intMax := by
    rw [Directive.widest, Directive.text, length_pad]
    rfl
  rw [List.flatMap_cons, List.flatMap_singleton, List.length_append, one]
  omega

theorem printf_long_string {characters : List Char}
    (long : intMax < characters.length) :
    printf build ['%', 's'] [.string characters] = none := by
  have body : stringBody {} [.string characters] = none :=
    if_neg (Nat.not_le.mpr long)
  have entered : stepMeaning build '%' ['s'] { arguments := [.string characters] } =
      some ([], inSpec {} [] ['s'] [.string characters]) := rfl
  have stepped : stepMeaning build 's' []
      (inSpec {} [] ['s'] [.string characters]) = none := by
    apply (step_other {} _ (digits_of_zeros (by simp)).1 rfl).trans
    exact congrArg (Option.map _) body
  have meaning : formatMeaning build ['%', 's']
      { arguments := [.string characters] } = none := by
    rw [formatMeaning_cons entered, formatMeaning, andThen, stepped]
    rfl
  rw [printf, doPrint_eq, meaning]
  rfl

/-- Two conversions of the largest width print 2³² - 2 characters and return
-2, and a string longer than `INT_MAX` overflows the index of `print_string`. -/
theorem printf_count_overflows :
    (∃ text, printf .riscv64 ['%', '*', 'c', '%', '*', 'c'] [.integer 32 intMax,
        .integer 32 65, .integer 32 intMax, .integer 32 65] =
          some (.stream text, -2) ∧ text.length = 4294967294) ∧
    ∀ characters : List Char, intMax < characters.length →
      printf .riscv64 ['%', 's'] [.string characters] = none := by
  refine ⟨⟨_, ?_, Directive.length_widest⟩, fun _ => printf_long_string⟩
  have printed := doPrint_directives .riscv64 (.stream []) Directive.widest_valid []
  rw [puts_stream, Directive.length_widest, Option.map_some, List.nil_append,
    List.append_nil] at printed
  have format : [Directive.widest, Directive.widest].flatMap Directive.format =
      ['%', '*', 'c', '%', '*', 'c'] := rfl
  have arguments : [Directive.widest, Directive.widest].flatMap
      (Directive.arguments .riscv64) = [.integer 32 intMax, .integer 32 65,
        .integer 32 intMax, .integer 32 65] := rfl
  have wrapped : toInt (2 * intMax : Nat) = -2 := by decide
  rw [format, arguments, wrapped] at printed
  rw [printf, printed]
  rfl

end Thos.Libc
