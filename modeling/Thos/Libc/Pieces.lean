import Thos.Libc.Snprintf

namespace Thos.Libc

/-! The count that printf returns, for every width.  A format string asks for a
list of pieces; the engine puts no character of a piece of negative width. -/

/-- Characters with the width and the flags that they are padded to. -/
structure Piece where
  width : Int := 0
  flags : List Flag := []
  characters : List Char
  deriving DecidableEq, Repr

/-- A negative width acts as `-` with the absolute width. -/
def Piece.text (piece : Piece) : List Char :=
  pad (if piece.width < 0 then .minus :: piece.flags else piece.flags)
    piece.width.natAbs piece.characters

def ConversionSpec.flags (conversion : ConversionSpec) : List Flag :=
  (if conversion.leftJustify then [.minus] else []) ++
    if conversion.zeroPad then [.zero] else []

def ConversionSpec.piece (conversion : ConversionSpec) (characters : List Char) :
    Piece :=
  ⟨conversion.minWidth, conversion.flags, characters⟩

def textBody : Body := fun _ arguments => vaArgString arguments

abbrev Request := Parsing → Option (List Piece × Parsing)

def conversionPiece (body : Body) : Request := fun parsing =>
  (body parsing.conversion parsing.arguments).map fun result =>
    ([parsing.conversion.piece result.1], { arguments := result.2 })

def pointerPieces (build : Target) : Request := fun parsing =>
  (conversionPiece (hexBody build) { parsing with
    conversion := pointerConversion build parsing.conversion }).map fun result =>
      ({ characters := ['0', 'x'] } :: result.1, result.2)

def specPieces (build : Target) (character : Char) : Request := fun parsing =>
  match character with
  | '#' => some ([], { parsing with conversion :=
      { parsing.conversion with alternative := true } })
  | 'l' => some ([], { parsing with conversion := { parsing.conversion with
      longModifiers := (parsing.conversion.longModifiers + 1) % 256 } })
  | '*' => (vaArgInteger 32 parsing.arguments).map fun result =>
      ([], { parsing with
        arguments := result.2
        conversion := { parsing.conversion with minWidth := toInt result.1 } })
  | '-' => some ([], { parsing with conversion :=
      { parsing.conversion with leftJustify := true } })
  | '%' => some ([{ characters := ['%'] }], { arguments := parsing.arguments })
  | 'c' => conversionPiece charBody parsing
  | 's' => conversionPiece textBody parsing
  | 'x' => conversionPiece (hexBody build) parsing
  | 'b' => conversionPiece (binaryBody build) parsing
  | 'i' | 'd' => conversionPiece (signedBody build) parsing
  | 'u' => conversionPiece (unsignedBody build) parsing
  | 'p' => pointerPieces build parsing
  | _ => some ([], parsing)

def leadingDecimal (chars : List Char) : Nat :=
  Nat.ofDigitChars 10 (chars.takeWhile Char.isDigit) 0

def ConversionSpec.endDecimal (conversion : ConversionSpec) : ConversionSpec :=
  match conversion.minWidthChars with
  | some chars =>
      { conversion with minWidth := leadingDecimal chars, minWidthChars := none }
  | none => conversion

def stepPieces (build : Target) (ch : Char) (rest : List Char) : Request :=
  fun parsing =>
    if !parsing.inConversionSpec then
      if ch = '%' then some ([], { parsing with inConversionSpec := true })
      else some ([{ characters := [ch] }], parsing)
    else if parsing.conversion.zeroPad = false ∧
        parsing.conversion.minWidthChars = none ∧ ch = '0' then
      some ([], { parsing with conversion :=
        { parsing.conversion with zeroPad := true } })
    else if '0' ≤ ch ∧ ch ≤ '9' then
      if parsing.conversion.minWidthChars = none then
        some ([], { parsing with conversion :=
          { parsing.conversion with minWidthChars := some (ch :: rest) } })
      else some ([], parsing)
    else
      specPieces build ch
        { parsing with conversion := parsing.conversion.endDecimal }

def formatPieces (build : Target) : List Char → Request
  | [] => fun parsing => some ([], parsing)
  | ch :: rest => fun parsing =>
      (stepPieces build ch rest parsing).bind fun first =>
        (formatPieces build rest first.2).map fun later =>
          (first.1 ++ later.1, later.2)

/-- The pieces that a format string asks for with arguments of its types. -/
def requested (build : Target) (format : List Char) (arguments : List Argument) :
    Option (List Piece) :=
  (formatPieces build format { arguments := arguments }).map Prod.fst

/-! The engine's own reading, in which a width is an `int`. -/

def ConversionSpec.stored (conversion : ConversionSpec) : ConversionSpec :=
  { conversion with minWidth := toInt conversion.minWidth }

def Parsing.stored (parsing : Parsing) : Parsing :=
  { parsing with conversion := parsing.conversion.stored }

def Piece.output (build : Target) (piece : Piece) : List (Option Char) :=
  conversionOutput build
    { zeroPad := decide (.zero ∈ piece.flags)
      leftJustify := decide (.minus ∈ piece.flags)
      minWidth := toInt piece.width } piece.characters

def Parsing.Reading (parsing : Parsing) : Prop :=
  ∀ chars ∈ parsing.conversion.minWidthChars,
    ∃ first rest, chars = first :: rest ∧ first.isDigit = true

variable {build : Target}

theorem stored_fresh (arguments : List Argument) :
    ({ arguments := arguments } : Parsing).stored = { arguments := arguments } := by
  have zero : toInt 0 = 0 := toInt_of_le (Nat.zero_le _)
  simp [Parsing.stored, ConversionSpec.stored, zero]

theorem toInt_toInt (value : Int) : toInt (toInt value) = toInt value :=
  Int.bmod_bmod

theorem stored_withWidth (conversion : ConversionSpec) (width : Int) :
    ConversionSpec.stored { conversion with minWidth := width } =
      { conversion.stored with minWidth := toInt width } := rfl

theorem atoi_leadingDecimal {first : Char} (rest : List Char)
    (digit : first.isDigit = true) :
    atoi (first :: rest) = toInt (leadingDecimal (first :: rest)) := by
  have nonempty : (first :: rest).takeWhile Char.isDigit ≠ [] := by
    simp [digit]
  have member : ∀ ch ∈ (first :: rest).takeWhile Char.isDigit, ch.isDigit = true :=
    List.all_eq_true.mp List.all_takeWhile
  have stop : ∀ ch ∈ ((first :: rest).dropWhile Char.isDigit).head?,
      ch.isDigit = false := by
    intro ch here
    have outside := List.head?_dropWhile_not Char.isDigit (first :: rest)
    rw [Option.mem_def.mp here] at outside
    simpa using outside
  have value := atoi_decimal nonempty member stop
  rw [List.takeWhile_append_dropWhile] at value
  rw [value, leadingDecimal]

theorem endMinWidth_stored {parsing : Parsing} (reading : parsing.Reading) :
    parsing.conversion.stored.endMinWidth = parsing.conversion.endDecimal.stored := by
  have sameChars : parsing.conversion.stored.minWidthChars =
      parsing.conversion.minWidthChars := rfl
  simp only [ConversionSpec.endMinWidth, ConversionSpec.endDecimal, sameChars]
  cases held : parsing.conversion.minWidthChars with
  | none => rfl
  | some chars =>
      obtain ⟨first, rest, rfl, digit⟩ := reading chars held
      simp only [ConversionSpec.stored, atoi_leadingDecimal rest digit]

theorem minus_mem_flags (conversion : ConversionSpec) :
    .minus ∈ conversion.flags ↔ conversion.leftJustify = true := by
  simp [ConversionSpec.flags]

theorem zero_mem_flags (conversion : ConversionSpec) :
    .zero ∈ conversion.flags ↔ conversion.zeroPad = true := by
  simp [ConversionSpec.flags]

theorem output_stored (conversion : ConversionSpec) (characters : List Char) :
    conversionOutput build conversion.stored characters =
      (conversion.piece characters).output build := by
  simp only [Piece.output, ConversionSpec.piece, zero_mem_flags, minus_mem_flags,
    Bool.decide_eq_true]
  rfl

theorem output_plain (characters : List Char) :
    ({ characters := characters } : Piece).output build = characters.map some := rfl

theorem conversionMeaning_stored {func : PrintState → Option PrintState}
    {body : Body} (prints : Prints build func body) {parsing next : Parsing}
    {pieces : List Piece}
    (asked : conversionPiece body parsing = some (pieces, next)) :
    conversionMeaning build body parsing.stored =
      some (pieces.flatMap (Piece.output build), next.stored) := by
  have sameBody : body parsing.stored.conversion = body parsing.conversion :=
    prints.width _ _
  have sameArguments : parsing.stored.arguments = parsing.arguments := rfl
  obtain ⟨result, taken, same⟩ := Option.map_eq_some_iff.mp asked
  cases same
  rw [conversionMeaning, sameBody, sameArguments, taken, List.flatMap_singleton,
    ← output_stored, stored_fresh]
  rfl

/-- The pieces whose strings the engine can index with an `int`. -/
def Indexed (pieces : List Piece) : Prop :=
  ∀ piece ∈ pieces, piece.characters.length ≤ intMax

theorem conversionPiece_fresh {body : Body} {parsing next : Parsing}
    {pieces : List Piece}
    (asked : conversionPiece body parsing = some (pieces, next)) :
    next.conversion.minWidthChars = none := by
  obtain ⟨result, taken, same⟩ := Option.map_eq_some_iff.mp asked
  cases same
  rfl

theorem endDecimal_chars (conversion : ConversionSpec) :
    conversion.endDecimal.minWidthChars = none := by
  rw [ConversionSpec.endDecimal]
  split
  · rfl
  · assumption

-- the width is a variable here, so that checking this never evaluates `toInt`
theorem minWidthChars_withWidth (conversion : ConversionSpec) (width : Int) :
    ConversionSpec.minWidthChars { conversion with minWidth := width } =
      conversion.minWidthChars := rfl

theorem textBody_indexed {parsing next : Parsing} {pieces : List Piece}
    (asked : conversionPiece textBody parsing = some (pieces, next))
    (indexed : Indexed pieces) :
    conversionPiece stringBody parsing = some (pieces, next) := by
  obtain ⟨result, taken, same⟩ := Option.map_eq_some_iff.mp asked
  cases same
  have short : result.1.length ≤ intMax := indexed _ (List.mem_singleton_self _)
  have taken : vaArgString parsing.arguments = some result := taken
  simp [conversionPiece, stringBody, taken, short]

theorem pointerMeaning_stored {parsing next : Parsing} {pieces : List Piece}
    (asked : pointerPieces build parsing = some (pieces, next)) :
    pointerMeaning build parsing.stored =
      some (pieces.flatMap (Piece.output build), next.stored) := by
  obtain ⟨⟨hex, after⟩, converted, same⟩ := Option.map_eq_some_iff.mp asked
  cases same
  have meant := conversionMeaning_stored prints_hex converted
  have sameConversion : pointerConversion build parsing.conversion.stored =
      (pointerConversion build parsing.conversion).stored := by
    cases build <;> rfl
  have sameParsing : { parsing.stored with
      conversion := pointerConversion build parsing.stored.conversion } =
      ({ parsing with
        conversion := pointerConversion build parsing.conversion } :
          Parsing).stored :=
    congrArg (fun conversion => { parsing with conversion := conversion })
      sameConversion
  rw [pointerMeaning, sameParsing, meant, List.flatMap_cons, output_plain]
  rfl

theorem specMeaning_stored {ch : Char} {parsing next : Parsing}
    {pieces : List Piece}
    (asked : specPieces build ch parsing = some (pieces, next))
    (indexed : Indexed pieces) :
    specMeaning build ch parsing.stored =
      some (pieces.flatMap (Piece.output build), next.stored) := by
  unfold specPieces at asked
  split at asked
  · cases asked
    rfl
  · cases asked
    rfl
  · obtain ⟨result, taken, same⟩ := Option.map_eq_some_iff.mp asked
    cases same
    have stored := stored_withWidth parsing.conversion (toInt result.1)
    rw [toInt_toInt] at stored
    simp only [Parsing.stored, stored, specMeaning, taken, Option.map_some,
      List.flatMap_nil]
  · cases asked
    rfl
  · cases asked
    rw [stored_fresh, List.flatMap_singleton, output_plain]
    rfl
  · exact conversionMeaning_stored prints_char asked
  · exact conversionMeaning_stored prints_string (textBody_indexed asked indexed)
  · exact conversionMeaning_stored prints_hex asked
  · exact conversionMeaning_stored prints_binary asked
  · exact conversionMeaning_stored prints_signed asked
  · exact conversionMeaning_stored prints_signed asked
  · exact conversionMeaning_stored prints_unsigned asked
  · exact pointerMeaning_stored asked
  · cases asked
    unfold specMeaning
    split <;> simp_all

theorem specPieces_chars {ch : Char} {parsing next : Parsing}
    {pieces : List Piece} (ended : parsing.conversion.minWidthChars = none)
    (asked : specPieces build ch parsing = some (pieces, next)) :
    next.conversion.minWidthChars = none := by
  unfold specPieces at asked
  split at asked
  · cases asked
    exact ended
  · cases asked
    exact ended
  · obtain ⟨result, taken, same⟩ := Option.map_eq_some_iff.mp asked
    cases same
    exact (minWidthChars_withWidth parsing.conversion (toInt result.1)).trans ended
  · cases asked
    exact ended
  · cases asked
    rfl
  · exact conversionPiece_fresh asked
  · exact conversionPiece_fresh asked
  · exact conversionPiece_fresh asked
  · exact conversionPiece_fresh asked
  · exact conversionPiece_fresh asked
  · exact conversionPiece_fresh asked
  · exact conversionPiece_fresh asked
  · obtain ⟨result, converted, same⟩ := Option.map_eq_some_iff.mp asked
    cases same
    exact conversionPiece_fresh converted
  · cases asked
    exact ended

theorem stepMeaning_stored {ch : Char} {rest : List Char}
    {parsing next : Parsing} {pieces : List Piece} (reading : parsing.Reading)
    (asked : stepPieces build ch rest parsing = some (pieces, next))
    (indexed : Indexed pieces) :
    stepMeaning build ch rest parsing.stored =
        some (pieces.flatMap (Piece.output build), next.stored) ∧
      next.Reading := by
  have sameSpec : parsing.stored.inConversionSpec = parsing.inConversionSpec := rfl
  have sameZero : parsing.stored.conversion.zeroPad = parsing.conversion.zeroPad :=
    rfl
  have sameChars : parsing.stored.conversion.minWidthChars =
      parsing.conversion.minWidthChars := rfl
  simp only [stepPieces] at asked
  simp only [stepMeaning, sameSpec, sameZero, sameChars]
  split at asked
  case isTrue outside =>
    rw [if_pos outside]
    split at asked
    case isTrue percent =>
      cases asked
      rw [if_pos percent]
      exact ⟨rfl, reading⟩
    case isFalse literal =>
      cases asked
      rw [if_neg literal, List.flatMap_singleton, output_plain]
      exact ⟨rfl, reading⟩
  case isFalse inside =>
    rw [if_neg inside]
    split at asked
    case isTrue flag =>
      cases asked
      rw [if_pos flag]
      exact ⟨rfl, reading⟩
    case isFalse noFlag =>
      rw [if_neg noFlag]
      split at asked
      case isTrue digit =>
        rw [if_pos digit]
        split at asked
        case isTrue first =>
          cases asked
          rw [if_pos first]
          refine ⟨rfl, ?_⟩
          intro chars held
          cases held
          exact ⟨ch, rest, rfl, (isDigit_iff ch).mpr digit⟩
        case isFalse further =>
          cases asked
          rw [if_neg further]
          exact ⟨rfl, reading⟩
      case isFalse other =>
        rw [if_neg other]
        have stored := specMeaning_stored asked indexed
        have sameParsing : { parsing.stored with
            conversion := parsing.stored.conversion.endMinWidth } =
            ({ parsing with
              conversion := parsing.conversion.endDecimal } : Parsing).stored :=
          congrArg (fun conversion => { parsing with conversion := conversion })
            (endMinWidth_stored reading)
        refine ⟨?_, ?_⟩
        · exact (congrArg (specMeaning build ch) sameParsing).trans stored
        · have ended := specPieces_chars (endDecimal_chars _) asked
          intro chars held
          rw [ended] at held
          cases held

theorem formatMeaning_stored {format : List Char} {parsing last : Parsing}
    {pieces : List Piece} (reading : parsing.Reading)
    (asked : formatPieces build format parsing = some (pieces, last))
    (indexed : Indexed pieces) :
    formatMeaning build format parsing.stored =
      some (pieces.flatMap (Piece.output build), last.stored) := by
  induction format generalizing parsing pieces with
  | nil =>
      cases asked
      rfl
  | cons ch rest induction =>
      obtain ⟨⟨first, next⟩, stepped, others⟩ := Option.bind_eq_some_iff.mp asked
      obtain ⟨⟨later, final⟩, remaining, joined⟩ := Option.map_eq_some_iff.mp others
      cases joined
      obtain ⟨firstIndexed, laterIndexed⟩ := List.forall_mem_append.mp indexed
      obtain ⟨firstMeant, nextReading⟩ :=
        stepMeaning_stored reading stepped firstIndexed
      have laterMeant := induction nextReading remaining laterIndexed
      rw [formatMeaning, andThen, firstMeant, Option.bind_some, laterMeant,
        List.flatMap_append]
      rfl

/-! What is put. -/

def Piece.emitted (piece : Piece) : List Char :=
  if piece.width < 0 then [] else piece.text

theorem Piece.length_text (piece : Piece) :
    piece.text.length = max piece.width.natAbs piece.characters.length :=
  length_pad _ _ _

theorem toInt_of_natAbs_le {value : Int} (bound : value.natAbs ≤ intMax) :
    toInt value = value := by
  simp only [intMax] at bound
  exact Int.bmod_eq_of_le (by omega) (by omega)

theorem Piece.output_of_nonneg {piece : Piece} (fits : piece.text.length ≤ intMax)
    (nonneg : 0 ≤ piece.width) : piece.output build = piece.text.map some := by
  rw [length_text] at fits
  have width : piece.width.natAbs ≤ intMax := by omega
  have stored : toInt piece.width = piece.width.natAbs := by
    rw [toInt_of_natAbs_le width]
    omega
  have notMinus : ¬ piece.width < 0 := by omega
  rw [text, if_neg notMinus]
  exact conversionOutput_eq (by omega) width stored rfl rfl

theorem Piece.output_of_negative {piece : Piece}
    (fits : piece.text.length ≤ intMax) (negative : piece.width < 0) :
    piece.output build = List.replicate piece.characters.length none := by
  rw [length_text] at fits
  have stored : toInt piece.width = piece.width :=
    toInt_of_natAbs_le (by omega)
  have notPadded : ¬ piece.width > 0 := by omega
  have notZero : piece.width ≠ 0 := by omega
  rw [output, conversionOutput]
  simp only [stored, notPadded, if_false, counted, notZero]

theorem Piece.reduceOption_output {piece : Piece}
    (fits : piece.text.length ≤ intMax) :
    (piece.output build).reduceOption = piece.emitted := by
  rw [emitted]
  split
  case isTrue negative =>
    rw [output_of_negative fits negative, List.reduceOption_replicate_none]
  case isFalse nonneg =>
    rw [output_of_nonneg fits (by omega), reduceOption_map_some]

theorem fits_head {first : Piece} {rest : List Piece}
    (fits : ((first :: rest).flatMap Piece.text).length ≤ intMax) :
    first.text.length ≤ intMax ∧ (rest.flatMap Piece.text).length ≤ intMax := by
  rw [List.flatMap_cons, List.length_append] at fits
  omega

theorem indexed_of_fits {pieces : List Piece}
    (fits : (pieces.flatMap Piece.text).length ≤ intMax) : Indexed pieces := by
  induction pieces with
  | nil => exact List.forall_mem_nil _
  | cons piece pieces induction =>
      obtain ⟨first, later⟩ := fits_head fits
      rw [Piece.length_text] at first
      exact List.forall_mem_cons.mpr ⟨by omega, induction later⟩

theorem reduceOption_outputs {pieces : List Piece}
    (fits : (pieces.flatMap Piece.text).length ≤ intMax) :
    (pieces.flatMap (Piece.output build)).reduceOption =
      pieces.flatMap Piece.emitted := by
  induction pieces with
  | nil => rfl
  | cons piece pieces induction =>
      obtain ⟨first, later⟩ := fits_head fits
      rw [List.flatMap_cons, List.flatMap_cons, List.reduceOption_append,
        Piece.reduceOption_output first, induction later]

theorem outputs_of_nonneg {pieces : List Piece}
    (fits : (pieces.flatMap Piece.text).length ≤ intMax)
    (nonneg : ∀ piece ∈ pieces, 0 ≤ piece.width) :
    pieces.flatMap (Piece.output build) = (pieces.flatMap Piece.text).map some := by
  induction pieces with
  | nil => rfl
  | cons piece pieces induction =>
      obtain ⟨first, later⟩ := fits_head fits
      obtain ⟨firstNonneg, laterNonneg⟩ := List.forall_mem_cons.mp nonneg
      rw [List.flatMap_cons, List.flatMap_cons, List.map_append,
        Piece.output_of_nonneg first firstNonneg, induction later laterNonneg]

theorem Piece.length_emitted_le (piece : Piece) :
    piece.emitted.length ≤ piece.text.length := by
  rw [emitted]
  split
  · exact Nat.zero_le _
  · exact Nat.le_refl _

theorem Piece.nonneg_of_emitted {piece : Piece}
    (whole : piece.text.length ≤ piece.emitted.length) : 0 ≤ piece.width := by
  rw [emitted, length_text] at whole
  split at whole
  · rw [List.length_nil] at whole
    omega
  · omega

theorem length_emitted_le (pieces : List Piece) :
    (pieces.flatMap Piece.emitted).length ≤ (pieces.flatMap Piece.text).length := by
  induction pieces with
  | nil => exact Nat.le_refl _
  | cons piece pieces induction =>
      have first := piece.length_emitted_le
      simp only [List.flatMap_cons, List.length_append]
      omega

theorem nonneg_of_emitted {pieces : List Piece}
    (whole : (pieces.flatMap Piece.text).length ≤
      (pieces.flatMap Piece.emitted).length) :
    ∀ piece ∈ pieces, 0 ≤ piece.width := by
  induction pieces with
  | nil => exact List.forall_mem_nil _
  | cons piece pieces induction =>
      have first := piece.length_emitted_le
      have later := length_emitted_le pieces
      simp only [List.flatMap_cons, List.length_append] at whole
      exact List.forall_mem_cons.mpr
        ⟨Piece.nonneg_of_emitted (by omega), induction (by omega)⟩

/-- The engine's meaning of a format string that asks for `pieces`. -/
theorem formatMeaning_requested {format : List Char} {arguments : List Argument}
    {pieces : List Piece}
    (asked : requested build format arguments = some pieces)
    (fits : (pieces.flatMap Piece.text).length ≤ intMax) :
    ∃ last, formatMeaning build format { arguments := arguments } =
      some (pieces.flatMap (Piece.output build), last) := by
  obtain ⟨⟨_, last⟩, parsed, same⟩ := Option.map_eq_some_iff.mp asked
  cases same
  have start : Parsing.Reading { arguments := arguments } := by
    intro chars held
    cases held
  have meant := formatMeaning_stored start parsed (indexed_of_fits fits)
  rw [stored_fresh] at meant
  exact ⟨last.stored, meant⟩

theorem printf_output {format : List Char} {arguments : List Argument}
    {output : List (Option Char)} {last : Parsing}
    (meant : formatMeaning build format { arguments := arguments } =
      some (output, last)) :
    printf build format arguments =
      some (.stream output.reduceOption, toInt output.length) := by
  have count : advance 0 output.length = toInt output.length := by
    rw [advance_eq _ rfl, Int.zero_add]
  rw [printf, doPrint_eq, meant, Option.bind_some, emit_output _ _ _ rfl,
    puts_stream]
  simp [PrintState.withParsing, count]

theorem toInt_le (value : Int) : toInt value ≤ intMax := by
  have high : toInt value < ((2 ^ 32 : Nat) + 1) / 2 := Int.bmod_lt (by decide)
  simp only [intMax]
  omega

theorem printf_returned_le {format : List Char} {arguments : List Argument}
    {target : PrintTarget} {printed : Int}
    (produced : printf build format arguments = some (target, printed)) :
    printed ≤ intMax := by
  cases meant : formatMeaning build format { arguments := arguments } with
  | none => simp [printf, doPrint_eq, meant] at produced
  | some result =>
      rw [printf_output meant] at produced
      cases produced
      exact toInt_le _

/-- What printf and sprintf do when they print `text`, count it and end it. -/
structure PrintsText (build : Target) (format : List Char)
    (arguments : List Argument) (text : List Char) : Prop where
  returned : printf build format arguments =
    some (.stream text, (text.length : Int))
  terminated : ∀ buffer : List Char, text.length < buffer.length →
    sprintf build buffer format arguments =
      some (text ++ Char.ofNat 0 :: buffer.drop (text.length + 1),
        (text.length : Int))

end Thos.Libc
