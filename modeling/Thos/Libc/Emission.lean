import Thos.Libc.Stdio

namespace Thos.Libc

/-! What the engine puts to its target, apart from the target. -/

structure Parsing where
  inConversionSpec : Bool := false
  conversion : ConversionSpec := {}
  arguments : List Argument
  deriving DecidableEq, Repr

namespace PrintState

def parsing (state : PrintState) : Parsing :=
  ⟨state.inConversionSpec, state.conversion, state.arguments⟩

def withParsing (state : PrintState) (parsing : Parsing) : PrintState :=
  { state with
    inConversionSpec := parsing.inConversionSpec
    conversion := parsing.conversion
    arguments := parsing.arguments }

@[simp] theorem parsing_withParsing (state : PrintState) (parsing : Parsing) :
    (state.withParsing parsing).parsing = parsing := rfl

@[simp] theorem withParsing_parsing (state : PrintState) :
    state.withParsing state.parsing = state := rfl

@[simp] theorem printed_withParsing (state : PrintState) (parsing : Parsing) :
    (state.withParsing parsing).printed = state.printed := rfl

@[simp] theorem target_withParsing (state : PrintState) (parsing : Parsing) :
    (state.withParsing parsing).target = state.target := rfl

end PrintState

/-- One character of output; `none` is counted but not put. -/
def put (build : Target) (state : PrintState) : Option Char → Option PrintState
  | some character => putcharMaybeMax build state character
  | none => some { state with printed := toInt (state.printed + 1) }

def emit (build : Target) (state : PrintState) (output : List (Option Char)) :
    Option PrintState :=
  output.foldlM (put build) state

def counted (conversion : ConversionSpec) (characters : List Char) :
    List (Option Char) :=
  if conversion.minWidth = 0 then characters.map some
  else List.replicate characters.length none

variable (build : Target)

@[simp] theorem emit_nil (state : PrintState) : emit build state [] = some state :=
  rfl

theorem emit_cons (state : PrintState) (first : Option Char)
    (output : List (Option Char)) :
    emit build state (first :: output) =
      (put build state first).bind fun next => emit build next output := rfl

theorem emit_append (state : PrintState) (first second : List (Option Char)) :
    emit build state (first ++ second) =
      (emit build state first).bind fun next => emit build next second :=
  List.foldlM_append

theorem emit_singleton (state : PrintState) (character : Option Char) :
    emit build state [character] = put build state character := by
  rw [emit_cons]
  cases put build state character <;> rfl

theorem put_withParsing (state : PrintState) (parsing : Parsing)
    (character : Option Char) :
    put build (state.withParsing parsing) character =
      (put build state character).map (·.withParsing parsing) := by
  cases character with
  | none => rfl
  | some character =>
      have same : (state.withParsing parsing).withinMaximum build =
          state.withinMaximum build := rfl
      simp only [put, putcharMaybeMax, same, PrintState.target_withParsing]
      cases state.withinMaximum build with
      | false => rfl
      | true => cases state.target.putchar character <;> rfl

theorem emit_withParsing (state : PrintState) (parsing : Parsing)
    (output : List (Option Char)) :
    emit build (state.withParsing parsing) output =
      (emit build state output).map (·.withParsing parsing) := by
  induction output generalizing state with
  | nil => rfl
  | cons character output induction =>
      rw [emit_cons, put_withParsing, emit_cons]
      cases put build state character with
      | none => rfl
      | some next => exact induction next

theorem parsing_put {state after : PrintState} {character : Option Char}
    (stepped : put build state character = some after) :
    after.parsing = state.parsing := by
  have same := put_withParsing build state state.parsing character
  rw [PrintState.withParsing_parsing, stepped, Option.map_some,
    Option.some.injEq] at same
  rw [same, PrintState.parsing_withParsing]

theorem parsing_emit {state after : PrintState} {output : List (Option Char)}
    (emitted : emit build state output = some after) :
    after.parsing = state.parsing := by
  have same := emit_withParsing build state state.parsing output
  rw [PrintState.withParsing_parsing, emitted, Option.map_some,
    Option.some.injEq] at same
  rw [same, PrintState.parsing_withParsing]

/-- `action` puts what `meaning` says, for every target, limit and count. -/
def Writes (action : PrintState → Option PrintState)
    (meaning : Parsing → Option (List (Option Char) × Parsing)) : Prop :=
  ∀ state, action state = (meaning state.parsing).bind fun result =>
    (emit build state result.1).map (·.withParsing result.2)

def andThen (first second : Parsing → Option (List (Option Char) × Parsing))
    (parsing : Parsing) : Option (List (Option Char) × Parsing) :=
  (first parsing).bind fun result =>
    (second result.2).map fun last => (result.1 ++ last.1, last.2)

variable {build}

theorem Writes.bind {first second : PrintState → Option PrintState}
    {firstMeaning secondMeaning : Parsing → Option (List (Option Char) × Parsing)}
    (firstWrites : Writes build first firstMeaning)
    (secondWrites : Writes build second secondMeaning) :
    Writes build (fun state => (first state).bind second)
      (andThen firstMeaning secondMeaning) := by
  intro state
  simp only [firstWrites state, andThen]
  cases firstMeaning state.parsing with
  | none => rfl
  | some result =>
      simp only [Option.bind_some]
      cases emitted : emit build state result.1 with
      | none =>
          cases secondMeaning result.2 with
          | none => rfl
          | some last => simp [emit_append, emitted]
      | some next =>
          simp only [Option.map_some, Option.bind_some, secondWrites _,
            PrintState.parsing_withParsing, emit_withParsing]
          cases secondMeaning result.2 with
          | none => rfl
          | some last =>
              simp only [Option.bind_some, Option.map_map, Option.map_some,
                emit_append, emitted]
              rfl

theorem Writes.silent (change : Parsing → Parsing) :
    Writes build (fun state => some (state.withParsing (change state.parsing)))
      (fun parsing => some ([], change parsing)) :=
  fun _ => rfl

theorem Writes.comp {action : PrintState → Option PrintState}
    {meaning : Parsing → Option (List (Option Char) × Parsing)}
    (writes : Writes build action meaning) (change : Parsing → Parsing) :
    Writes build (fun state => action (state.withParsing (change state.parsing)))
      (fun parsing => meaning (change parsing)) := by
  intro state
  simp only [writes (state.withParsing _), PrintState.parsing_withParsing,
    emit_withParsing, Option.map_map]
  rfl

theorem Writes.ite {first second : PrintState → Option PrintState}
    {firstMeaning secondMeaning : Parsing → Option (List (Option Char) × Parsing)}
    (condition : Parsing → Prop) [DecidablePred condition]
    (firstWrites : Writes build first firstMeaning)
    (secondWrites : Writes build second secondMeaning) :
    Writes build
      (fun state => if condition state.parsing then first state else second state)
      (fun parsing => if condition parsing then firstMeaning parsing
        else secondMeaning parsing) := by
  intro state
  simp only
  split
  · exact firstWrites state
  · exact secondWrites state

theorem writes_putcharMaybeMax (character : Char) :
    Writes build (fun state => putcharMaybeMax build state character)
      (fun parsing => some ([some character], parsing)) := by
  intro state
  simp only [Option.bind_some, emit_singleton]
  cases stepped : put build state (some character) with
  | none => exact stepped
  | some after =>
      rw [Option.map_some, ← parsing_put build stepped,
        PrintState.withParsing_parsing]
      exact stepped

def putChars (build : Target) (state : PrintState) (characters : List Char) :
    Option PrintState :=
  characters.foldlM (putcharMaybeMinwidth build) state

theorem putcharMaybeMinwidth_eq (state : PrintState) (character : Char) :
    putcharMaybeMinwidth build state character =
      emit build state (counted state.conversion [character]) := by
  rw [putcharMaybeMinwidth, counted]
  split
  · rw [List.map_singleton, emit_singleton]
    rfl
  · exact (emit_singleton build state none).symm

theorem putChars_eq (state : PrintState) (characters : List Char) :
    putChars build state characters =
      emit build state (counted state.conversion characters) := by
  induction characters generalizing state with
  | nil => simp [putChars, counted]
  | cons character characters induction =>
      have split : counted state.conversion (character :: characters) =
          counted state.conversion [character] ++
            counted state.conversion characters := by
        simp only [counted]
        split <;> rfl
      rw [split, emit_append, ← putcharMaybeMinwidth_eq]
      simp only [putChars, List.foldlM_cons]
      cases stepped : putcharMaybeMinwidth build state character with
      | none => rfl
      | some next =>
          rw [putcharMaybeMinwidth_eq] at stepped
          have same : next.conversion = state.conversion :=
            congrArg Parsing.conversion (parsing_emit build stepped)
          simp only [Option.bind_eq_bind, Option.bind_some]
          rw [← same]
          exact induction next

end Thos.Libc
