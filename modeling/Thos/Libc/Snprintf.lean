import Thos.Libc.Printf

namespace Thos.Libc

/-! `snprintf` against the unlimited engine. -/

variable {build : Target}

/-- The specifiers that pad to the minimum width. -/
def padsToWidth (ch : Char) : Bool := ch ∈ ['c', 's', 'x', 'b', 'd', 'i', 'u']

def minWidths (build : Target) : List Char → Parsing → List Int
  | [], _ => []
  | ch :: rest, parsing =>
      match stepMeaning build ch rest parsing with
      | none => []
      | some (_, next) =>
          (if parsing.inConversionSpec && padsToWidth ch then
            [parsing.conversion.endMinWidth.minWidth] else []) ++
              minWidths build rest next

/-- Every width of the format and of the arguments is non-negative as `int`. -/
def NonNegativeWidths (build : Target) (format : List Char)
    (arguments : List Argument) : Prop :=
  ∀ width ∈ minWidths build format { arguments := arguments }, 0 ≤ width

instance (format : List Char) (arguments : List Argument) :
    Decidable (NonNegativeWidths build format arguments) :=
  inferInstanceAs (Decidable
    (∀ width ∈ minWidths build format { arguments := arguments }, 0 ≤ width))

theorem conversionMeaning_puts {body : Body} {parsing next : Parsing}
    {output : List (Option Char)} (width : 0 ≤ parsing.conversion.minWidth)
    (meant : conversionMeaning build body parsing = some (output, next)) :
    ∃ text : List Char, output = text.map some := by
  obtain ⟨result, _, printed⟩ := Option.map_eq_some_iff.mp meant
  cases printed
  rw [conversionOutput]
  split
  · exact ⟨_, rfl⟩
  · rw [counted, if_pos (by omega)]
    exact ⟨_, rfl⟩

theorem specMeaning_puts {ch : Char} {parsing next : Parsing}
    {output : List (Option Char)}
    (width : padsToWidth ch = true → 0 ≤ parsing.conversion.minWidth)
    (meant : specMeaning build ch parsing = some (output, next)) :
    ∃ text : List Char, output = text.map some := by
  unfold specMeaning at meant
  split at meant
  · cases meant
    exact ⟨[], rfl⟩
  · cases meant
    exact ⟨[], rfl⟩
  · obtain ⟨result, _, printed⟩ := Option.map_eq_some_iff.mp meant
    cases printed
    exact ⟨[], rfl⟩
  · cases meant
    exact ⟨[], rfl⟩
  · cases meant
    exact ⟨['%'], rfl⟩
  · exact conversionMeaning_puts (width rfl) meant
  · exact conversionMeaning_puts (width rfl) meant
  · exact conversionMeaning_puts (width rfl) meant
  · exact conversionMeaning_puts (width rfl) meant
  · exact conversionMeaning_puts (width rfl) meant
  · exact conversionMeaning_puts (width rfl) meant
  · exact conversionMeaning_puts (width rfl) meant
  · obtain ⟨result, hex, printed⟩ := Option.map_eq_some_iff.mp meant
    have positive : 0 ≤ (pointerConversion build parsing.conversion).minWidth := by
      cases build <;> simp [pointerConversion, Target.pointerBits]
    obtain ⟨text, rest⟩ := conversionMeaning_puts positive hex
    cases printed
    exact ⟨'0' :: 'x' :: text, by rw [rest]; rfl⟩
  · cases meant
    exact ⟨[], rfl⟩

theorem stepMeaning_puts {ch : Char} {rest : List Char} {parsing next : Parsing}
    {output : List (Option Char)}
    (width : parsing.inConversionSpec = true → padsToWidth ch = true →
      0 ≤ parsing.conversion.endMinWidth.minWidth)
    (meant : stepMeaning build ch rest parsing = some (output, next)) :
    ∃ text : List Char, output = text.map some := by
  unfold stepMeaning at meant
  split at meant
  · split at meant
    · cases meant
      exact ⟨[], rfl⟩
    · cases meant
      exact ⟨[ch], rfl⟩
  case isFalse inside =>
    split at meant
    · cases meant
      exact ⟨[], rfl⟩
    · split at meant
      · split at meant
        · cases meant
          exact ⟨[], rfl⟩
        · cases meant
          exact ⟨[], rfl⟩
      · exact specMeaning_puts (width (by simpa using inside)) meant

theorem formatMeaning_puts {format : List Char} {parsing last : Parsing}
    {output : List (Option Char)}
    (widths : ∀ width ∈ minWidths build format parsing, 0 ≤ width)
    (meant : formatMeaning build format parsing = some (output, last)) :
    ∃ text : List Char, output = text.map some := by
  induction format generalizing parsing output with
  | nil =>
      cases meant
      exact ⟨[], rfl⟩
  | cons ch rest induction =>
      obtain ⟨⟨first, next⟩, stepped, others⟩ := Option.bind_eq_some_iff.mp meant
      obtain ⟨⟨later, final⟩, remaining, joined⟩ := Option.map_eq_some_iff.mp others
      cases joined
      simp only [minWidths, stepped] at widths
      obtain ⟨text, firstText⟩ := stepMeaning_puts (by
        intro inside pads
        apply widths
        simp [inside, pads]) stepped
      obtain ⟨text', laterText⟩ := induction
        (fun width member => widths width (List.mem_append_right _ member)) remaining
      exact ⟨text ++ text', by rw [firstText, laterText, List.map_append]⟩

def limited (buffer : List Char) (maximum : Nat) (text : List Char) : PrintTarget :=
  .buffer (text.take (maximum - 1) ++ buffer.drop (min text.length (maximum - 1)))
    (min text.length (maximum - 1))

structure Limited (state : PrintState) (buffer : List Char) (maximum : Nat)
    (text : List Char) : Prop where
  target : state.target = limited buffer maximum text
  printed : state.printed = text.length
  maxOutput : state.maxOutput = ⟨true, maximum⟩

theorem store_append_drop {first second : List Char} (character : Char)
    (inside : first.length < second.length) :
    store (first ++ second.drop first.length) first.length character =
      some (first ++ character :: second.drop (first.length + 1)) := by
  have fits : first.length < (first ++ second.drop first.length).length := by
    rw [List.length_append, List.length_drop]
    omega
  rw [store, if_pos fits, List.set_append_right _ _ (Nat.le_refl _), Nat.sub_self,
    List.drop_eq_getElem_cons inside]
  rfl

theorem storeAt_natCast (cells : List Char) (index : Nat) (character : Char) :
    storeAt cells (index : Int) character = store cells index character := by
  rw [storeAt, if_neg (by omega), Int.toNat_natCast]

theorem put_limited (build : Target) {state : PrintState}
    {buffer text : List Char} {maximum : Nat}
    (holds : Limited state buffer maximum text) (room : maximum ≤ buffer.length)
    (small : text.length < intMax) (character : Char) :
    ∃ after, put build state (some character) = some after ∧
      Limited after buffer maximum (text ++ [character]) := by
  have span : intMax < 2 ^ build.pointerBits := by cases build <;> decide
  have size : build.sizeT state.printed = text.length := by
    rw [holds.printed]
    exact Target.sizeT_of_lt (by omega)
  have count : toInt (state.printed + 1) = (text ++ [character]).length := by
    rw [holds.printed, List.length_append, List.length_singleton]
    exact toInt_of_le small
  have test : state.withinMaximum build = decide (text.length < maximum - 1) := by
    simp only [PrintState.withinMaximum, holds.maxOutput, size, Bool.not_true,
      Bool.false_or, gt_iff_lt]
    by_cases within : text.length < maximum - 1
    · have : maximum ≠ 0 := by omega
      simp [within, this]
    · simp [within]
  simp only [put, putcharMaybeMax, test, decide_eq_true_eq]
  by_cases within : text.length < maximum - 1
  · have before : min text.length (maximum - 1) = text.length := by omega
    have after : min (text.length + 1) (maximum - 1) = text.length + 1 := by omega
    have whole : text.take (maximum - 1) = text :=
      List.take_of_length_le (by omega)
    have wholeAfter : (text ++ [character]).take (maximum - 1) =
        text ++ [character] := List.take_of_length_le (by simp; omega)
    have placed : state.target.putchar character =
        some (limited buffer maximum (text ++ [character])) := by
      have stored := store_append_drop character
        (show text.length < buffer.length by omega)
      simp only [holds.target, limited, before, whole, wholeAfter, after,
        List.length_append, List.length_singleton, PrintTarget.putchar, stored,
        Option.bind_eq_bind, Option.bind_some]
      simp
    rw [if_pos within, placed]
    exact ⟨_, rfl, rfl, count, holds.maxOutput⟩
  · have before : min text.length (maximum - 1) = maximum - 1 := by omega
    have after : min (text.length + 1) (maximum - 1) = maximum - 1 := by omega
    have same : limited buffer maximum (text ++ [character]) =
        limited buffer maximum text := by
      simp only [limited, List.length_append, List.length_singleton, before, after,
        List.take_append_of_le_length (Nat.le_of_not_lt within)]
    rw [if_neg within]
    exact ⟨_, rfl, holds.target.trans same.symm, count, holds.maxOutput⟩

theorem emit_limited (build : Target) {state : PrintState}
    {buffer before : List Char} {maximum : Nat} (text : List Char)
    (holds : Limited state buffer maximum before) (room : maximum ≤ buffer.length)
    (small : (before ++ text).length ≤ intMax) :
    ∃ after, emit build state (text.map some) = some after ∧
      Limited after buffer maximum (before ++ text) := by
  induction text generalizing state before with
  | nil => exact ⟨state, rfl, by rwa [List.append_nil]⟩
  | cons character text induction =>
      rw [← List.singleton_append, ← List.append_assoc] at small ⊢
      have lengths : before.length < intMax := by
        simp only [List.length_append, List.length_singleton] at small
        omega
      obtain ⟨next, stepped, nextHolds⟩ := put_limited build holds room lengths
        character
      obtain ⟨after, emitted, afterHolds⟩ := induction nextHolds small
      refine ⟨after, ?_, afterHolds⟩
      rw [List.singleton_append, List.map_cons, emit_cons, stepped]
      exact emitted

/-- What the unlimited engine prints is the meaning of the format string. -/
theorem printf_meaning {format : List Char} {arguments : List Argument}
    {text : List Char} {printed : Int}
    (widths : NonNegativeWidths build format arguments)
    (produced : printf build format arguments = some (.stream text, printed)) :
    ∃ last, formatMeaning build format { arguments := arguments } =
      some (text.map some, last) := by
  obtain ⟨state, ran, result⟩ := Option.bind_eq_some_iff.mp produced
  simp only [Option.some.injEq, Prod.mk.injEq] at result
  rw [doPrint_eq] at ran
  obtain ⟨⟨output, last⟩, meant, emitted⟩ := Option.bind_eq_some_iff.mp ran
  obtain ⟨put, rfl⟩ := formatMeaning_puts widths meant
  refine ⟨last, ?_⟩
  rw [emit_unlimited _ _ rfl, puts_stream, Option.map_some, Option.map_some,
    Option.some.injEq, List.nil_append] at emitted
  have same : PrintTarget.stream put = .stream text := by
    rw [← result.1, ← emitted]
    rfl
  cases same
  exact meant

def truncated (buffer : List Char) (bufsz : Nat) (text : List Char) : List Char :=
  if bufsz = 0 then buffer
  else text.take (bufsz - 1) ++
    Char.ofNat 0 :: buffer.drop (min text.length (bufsz - 1) + 1)

theorem snprintf_meaning {format : List Char} {arguments : List Argument}
    {text : List Char} {last : Parsing}
    (meant : formatMeaning build format { arguments := arguments } =
      some (text.map some, last)) (small : text.length < intMax)
    {buffer : List Char} {bufsz : Nat} (room : bufsz ≤ buffer.length) :
    snprintf build buffer bufsz format arguments =
      some (truncated buffer bufsz text, (text.length : Int)) := by
  have span : intMax < 2 ^ build.pointerBits := by cases build <;> decide
  have start : Limited { target := .buffer buffer 0
                         arguments := arguments
                         maxOutput := ⟨true, bufsz⟩ } buffer bufsz [] := by
    refine ⟨?_, rfl, rfl⟩
    simp [limited]
  obtain ⟨after, emitted, holds⟩ := emit_limited build text start room
    (Nat.le_of_lt small)
  rw [List.nil_append] at holds
  have size : build.sizeT after.printed = text.length := by
    rw [holds.printed]
    exact Target.sizeT_of_lt (by omega)
  rw [snprintf, doPrint_eq, meant, Option.bind_some, emitted]
  simp only [Option.map_some, Option.bind_eq_bind, Option.bind_some,
    PrintState.target_withParsing, PrintState.printed_withParsing, holds.target,
    limited, size, gt_iff_lt, truncated]
  by_cases empty : bufsz = 0
  · subst empty
    simp [holds.printed]
  · by_cases fits : text.length < bufsz
    · have whole : text.take (bufsz - 1) = text :=
        List.take_of_length_le (by omega)
      have position : min text.length (bufsz - 1) = text.length := by omega
      have stored := store_append_drop (Char.ofNat 0)
        (show text.length < buffer.length by omega)
      simp [empty, fits, whole, position, storeAt_natCast, holds.printed, stored]
    · have position : min text.length (bufsz - 1) = bufsz - 1 := by omega
      have length : (text.take (bufsz - 1)).length = bufsz - 1 := by
        rw [List.length_take]
        omega
      have stored := store_append_drop (Char.ofNat 0)
        (show (text.take (bufsz - 1)).length < buffer.length by omega)
      rw [length] at stored
      simp [empty, fits, position, holds.printed, stored]

theorem truncated_split {bufsz : Nat} (buffer text : List Char)
    (positive : 0 < bufsz) :
    truncated buffer bufsz text = (text.take (bufsz - 1) ++ [Char.ofNat 0]) ++
      buffer.drop (min text.length (bufsz - 1) + 1) := by
  rw [truncated, if_neg (by omega), List.append_assoc, List.singleton_append]

theorem length_truncated_start {bufsz : Nat} (text : List Char) :
    (text.take (bufsz - 1) ++ [Char.ofNat 0]).length =
      min text.length (bufsz - 1) + 1 := by
  rw [List.length_append, List.length_take, List.length_singleton, Nat.min_comm]

theorem drop_truncated {bufsz : Nat} (buffer text : List Char) :
    (truncated buffer bufsz text).drop bufsz = buffer.drop bufsz := by
  by_cases empty : bufsz = 0
  · rw [truncated, if_pos empty]
  · have before : min text.length (bufsz - 1) + 1 ≤ bufsz := by omega
    rw [truncated_split buffer text (by omega), List.drop_append,
      length_truncated_start, List.drop_eq_nil_of_le, List.nil_append,
      List.drop_drop, Nat.add_sub_cancel' before]
    rw [length_truncated_start]
    exact before

theorem puts_buffer {buffer : List Char} (before text : List Char)
    (room : (before ++ text).length < buffer.length) :
    PrintTarget.puts
        (.buffer (before ++ buffer.drop before.length) before.length) text =
      some (.buffer ((before ++ text) ++ buffer.drop (before ++ text).length)
        (before ++ text).length) := by
  induction text generalizing before with
  | nil => simp [PrintTarget.puts]
  | cons character text induction =>
      have inside : before.length < buffer.length := by
        rw [List.length_append] at room
        omega
      rw [← List.singleton_append, ← List.append_assoc] at room ⊢
      have later := induction (before ++ [character]) room
      rw [← later]
      have placed : PrintTarget.putchar character
          (.buffer (before ++ buffer.drop before.length) before.length) =
            some (.buffer ((before ++ [character]) ++
              buffer.drop (before ++ [character]).length)
                (before ++ [character]).length) := by
        simp [PrintTarget.putchar, store_append_drop character inside]
      rw [List.singleton_append, PrintTarget.puts, List.foldlM_cons, placed]
      rfl

theorem sprintf_meaning {format : List Char} {arguments : List Argument}
    {text : List Char} {last : Parsing}
    (meant : formatMeaning build format { arguments := arguments } =
      some (text.map some, last)) (small : text.length ≤ intMax)
    {buffer : List Char} (room : text.length < buffer.length) :
    sprintf build buffer format arguments =
      some (text ++ Char.ofNat 0 :: buffer.drop (text.length + 1),
        (text.length : Int)) := by
  have count : advance 0 text.length = text.length := by
    rw [advance_eq _ rfl, Int.zero_add, toInt_of_le small]
  have written := puts_buffer [] text room
  simp only [List.nil_append, List.length_nil, List.drop_zero] at written
  have stored := store_append_drop (Char.ofNat 0) room
  rw [sprintf, doPrint_eq, meant, Option.bind_some, emit_unlimited _ _ rfl, written]
  simp [PrintState.withParsing, count, storeAt_natCast, stored]

/-- `snprintf` returns the length of what the unlimited engine prints and
leaves the longest prefix that fits, with a NUL, in the first `bufsz` cells. -/
theorem snprintf_prefix_of_sprintf (build : Target) (format : List Char)
    (arguments : List Argument) {text : List Char} {printed : Int}
    (widths : NonNegativeWidths build format arguments)
    (produced : printf build format arguments = some (.stream text, printed))
    (small : text.length < intMax) :
    (∀ buffer : List Char, text.length < buffer.length →
      sprintf build buffer format arguments =
        some (text ++ Char.ofNat 0 :: buffer.drop (text.length + 1),
          (text.length : Int))) ∧
    ∀ (buffer : List Char) (bufsz : Nat), bufsz ≤ buffer.length →
      ∃ cells, snprintf build buffer bufsz format arguments =
          some (cells, (text.length : Int)) ∧
        cells.drop bufsz = buffer.drop bufsz ∧
        (0 < bufsz → cells.take (min text.length (bufsz - 1) + 1) =
          text.take (bufsz - 1) ++ [Char.ofNat 0]) := by
  obtain ⟨last, meant⟩ := printf_meaning widths produced
  refine ⟨fun buffer room =>
    sprintf_meaning meant (Nat.le_of_lt small) room, ?_⟩
  intro buffer bufsz room
  refine ⟨_, snprintf_meaning meant small room, drop_truncated buffer text, ?_⟩
  intro positive
  rw [truncated_split buffer text positive, ← length_truncated_start,
    List.take_left]

theorem snprintf_prefix_of_sprintf_sample :
    ∃ cells, snprintf .riscv64 (List.replicate 6 'z') 4 "ab%3d".toList
        [.integer 32 7] = some (cells, 5) ∧
      cells.drop 4 = ['z', 'z'] ∧ cells.take 4 = ['a', 'b', ' ', Char.ofNat 0] := by
  have unlimited : printf .riscv64 "ab%3d".toList [.integer 32 7] =
      some (.stream "ab  7".toList, 5) := by decide
  obtain ⟨cells, result, rest, start⟩ := (snprintf_prefix_of_sprintf .riscv64
    "ab%3d".toList [.integer 32 7] (by decide) unlimited (by decide)).2
      (List.replicate 6 'z') 4 (by decide)
  exact ⟨cells, result, rest, start (by decide)⟩

/-- A literal width of 2³¹ is stored as a negative one: the conversion is
counted but nothing is put, and the NUL lands at the count. -/
theorem snprintf_counts_unprinted :
    printf .riscv64 "%2147483648d".toList [.integer 32 5] =
        some (.stream [], 1) ∧
      snprintf .riscv64 (List.replicate 4 'z') 4 "%2147483648d".toList
          [.integer 32 5] =
        some (['z', Char.ofNat 0, 'z', 'z'], 1) :=
  ⟨by decide, by decide⟩

end Thos.Libc
