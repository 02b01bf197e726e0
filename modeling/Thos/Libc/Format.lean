import Thos.Libc.Padding

namespace Thos.Libc

/-! What a format string prints, for every string and every argument list. -/

abbrev Meaning := Parsing → Option (List (Option Char) × Parsing)

def conversionMeaning (build : Target) (body : Body) : Meaning := fun parsing =>
  (body parsing.conversion parsing.arguments).map fun result =>
    (conversionOutput build parsing.conversion result.1, { arguments := result.2 })

def pointerConversion (build : Target) (conversion : ConversionSpec) :
    ConversionSpec :=
  { conversion with
    longModifiers := if build.pointerBits = 64 then 1 else 0
    minWidth := if build.pointerBits = 64 then 16 else 8
    zeroPad := true }

def pointerMeaning (build : Target) : Meaning := fun parsing =>
  (conversionMeaning build (hexBody build) { parsing with
    conversion := pointerConversion build parsing.conversion }).map fun result =>
      (some '0' :: some 'x' :: result.1, result.2)

def specMeaning (build : Target) (character : Char) : Meaning := fun parsing =>
  match character with
  | '#' => some ([], { parsing with conversion :=
      { parsing.conversion with alternative := true } })
  | 'l' => some ([], { parsing with conversion := { parsing.conversion with
      longModifiers := (parsing.conversion.longModifiers + 1) % 256 } })
  | '*' => (vaArgInteger 32 parsing.arguments).map fun result =>
      ([], { parsing with
        arguments := result.2
        conversion := { parsing.conversion with minWidth := toInt result.1 } })
  | '-' => some ([], { parsing with conversion :=
      { parsing.conversion with leftJustify := true } })
  | '%' => some ([some '%'], { arguments := parsing.arguments })
  | 'c' => conversionMeaning build charBody parsing
  | 's' => conversionMeaning build stringBody parsing
  | 'x' => conversionMeaning build (hexBody build) parsing
  | 'b' => conversionMeaning build (binaryBody build) parsing
  | 'i' | 'd' => conversionMeaning build (signedBody build) parsing
  | 'u' => conversionMeaning build (unsignedBody build) parsing
  | 'p' => pointerMeaning build parsing
  | _ => some ([], parsing)

def stepMeaning (build : Target) (ch : Char) (rest : List Char) : Meaning :=
  fun parsing =>
    if !parsing.inConversionSpec then
      if ch = '%' then some ([], { parsing with inConversionSpec := true })
      else some ([some ch], parsing)
    else if parsing.conversion.zeroPad = false ∧
        parsing.conversion.minWidthChars = none ∧ ch = '0' then
      some ([], { parsing with conversion :=
        { parsing.conversion with zeroPad := true } })
    else if '0' ≤ ch ∧ ch ≤ '9' then
      if parsing.conversion.minWidthChars = none then
        some ([], { parsing with conversion :=
          { parsing.conversion with minWidthChars := some (ch :: rest) } })
      else some ([], parsing)
    else
      specMeaning build ch
        { parsing with conversion := parsing.conversion.endMinWidth }

def formatMeaning (build : Target) : List Char → Meaning
  | [] => fun parsing => some ([], parsing)
  | ch :: rest => andThen (stepMeaning build ch rest) (formatMeaning build rest)

variable {build : Target}

theorem conversion_writes {func : PrintState → Option PrintState} {body : Body}
    (prints : Prints build func body) :
    Writes build (fun state => (minWidthCall build state func).map .reset)
      (conversionMeaning build body) := by
  intro state
  apply (minWidthCall_eq prints state).trans
  rw [conversionMeaning, Option.bind_map]
  rfl

theorem map_reset_emit (build : Target) (state : PrintState)
    (output : List (Option Char)) :
    (emit build state output).map .reset =
      (emit build state output).map
        (·.withParsing { arguments := state.arguments }) := by
  cases emitted : emit build state output with
  | none => rfl
  | some after =>
      have same : after.arguments = state.arguments :=
        congrArg Parsing.arguments (parsing_emit build emitted)
      rw [← same]
      rfl

theorem pointer_writes :
    Writes build (handleConversionSpec build 'p') (pointerMeaning build) := by
  have composed := ((writes_putcharMaybeMax '0').bind
    ((writes_putcharMaybeMax 'x').bind
      (conversion_writes (prints_hex : Prints build _ _)))).comp fun parsing =>
        { parsing with conversion := pointerConversion build parsing.conversion }
  intro state
  apply (composed state).trans
  congr 1
  simp only [andThen, pointerMeaning, Option.bind_some, Option.map_map]
  rfl

theorem handleConversionSpec_writes (character : Char) :
    Writes build (handleConversionSpec build character)
      (specMeaning build character) := by
  intro state
  unfold handleConversionSpec specMeaning
  split
  · rfl
  · rfl
  · simp only [PrintState.parsing]
    cases vaArgInteger 32 state.arguments <;> rfl
  · rfl
  · have reset := map_reset_emit build state [some '%']
    rw [emit_singleton] at reset
    simp only [Option.bind_some, emit_singleton]
    exact reset
  · exact conversion_writes prints_char state
  · exact conversion_writes prints_string state
  · exact conversion_writes prints_hex state
  · exact conversion_writes prints_binary state
  · exact conversion_writes prints_signed state
  · exact conversion_writes prints_signed state
  · exact conversion_writes prints_unsigned state
  · exact pointer_writes state
  · simp_all

theorem doPrintStep_writes (ch : Char) (rest : List Char) :
    Writes build (doPrintStep build ch rest) (stepMeaning build ch rest) := by
  refine .ite (fun parsing => (!parsing.inConversionSpec) = true) ?literal ?spec
  case literal =>
    refine .ite (fun _ => ch = '%') ?_ (writes_putcharMaybeMax ch)
    exact .silent fun parsing => { parsing with inConversionSpec := true }
  case spec =>
    refine .ite (fun parsing => parsing.conversion.zeroPad = false ∧
      parsing.conversion.minWidthChars = none ∧ ch = '0') ?_ ?_
    · exact .silent fun parsing =>
        { parsing with conversion := { parsing.conversion with zeroPad := true } }
    · refine .ite (fun _ => '0' ≤ ch ∧ ch ≤ '9') ?_ ?_
      · refine .ite (fun parsing => parsing.conversion.minWidthChars = none) ?_ ?_
        · exact .silent fun parsing => { parsing with conversion :=
            { parsing.conversion with minWidthChars := some (ch :: rest) } }
        · exact .silent fun parsing => parsing
      · exact (handleConversionSpec_writes ch).comp fun parsing =>
          { parsing with conversion := parsing.conversion.endMinWidth }

/-- The engine puts exactly the meaning of the format string, whatever the
target, the limit and the count so far. -/
theorem doPrintLoop_writes (format : List Char) :
    Writes build (doPrintLoop build format) (formatMeaning build format) := by
  induction format with
  | nil =>
      intro state
      rfl
  | cons ch rest induction => exact (doPrintStep_writes ch rest).bind induction

end Thos.Libc
