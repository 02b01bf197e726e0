import Mathlib.Data.List.Induction
import Thos.Data.MachineInteger
import Thos.Libc.Stdlib

namespace Thos.Libc

open Data.MachineInteger

/-! `stdlib.c` with its pointers. A string is in an array of cells, a pointer is
an index, and `none` is a read outside the array. -/

def nul : Char := Char.ofNat 0

def int64 : IntegerType := ⟨true, 64⟩

theorem value_int64 (result : Int) :
    Operation.value ⟨int64, result⟩ = toInt64 result := by
  rw [Operation.value, int64, IntegerType.wrap_signed, toInt64]

/-- What `parse` returns, and its operations on `int64_t`, oldest first. -/
structure Parsed where
  value : Int
  operations : List Operation
  deriving DecidableEq, Repr

namespace Cells

/-- `while (whitespace(*str))`; `some none` is the `return 0` inside. -/
def whitespaceLoop (cells : List Char) : Nat → Nat → Option (Option Nat)
  | 0, _ => none
  | remaining + 1, str => do
      let ch ← cells[str]?
      if whitespace ch then
        if ch = nul then some none
        else whitespaceLoop cells remaining (str + 1)
      else some (some str)

def digitsLoop (cells : List Char) : Nat → Nat → Option Nat
  | 0, _ => none
  | remaining + 1, endStr => do
      let ch ← cells[endStr]?
      if ch ≠ nul then
        if whitespace ch then some endStr
        else if ch < '0' ∨ ch > '9' then some endStr
        else digitsLoop cells remaining (endStr + 1)
      else some endStr

def accumulateLoop (cells : List Char) (str : Nat) :
    Nat → Int → Int → Option (Int × List Operation)
  | 0, value, _ => some (value, [])
  | left + 1, value, multiplier => do
      let ch ← cells[str + left]?
      let product : Operation := ⟨int64, (ch.toNat - '0'.toNat : Int) * multiplier⟩
      let sum : Operation := ⟨int64, value + product.value⟩
      let next : Operation := ⟨int64, multiplier * 10⟩
      let (result, operations) ← accumulateLoop cells str left sum.value next.value
      some (result, product :: sum :: next :: operations)

def parse (cells : List Char) (str : Nat) : Option Parsed := do
  match ← whitespaceLoop cells (cells.length - str) str with
  | none => some ⟨0, []⟩
  | some str =>
      let ch ← cells[str]?
      let negative := ch = '-'
      let str := if ch = '+' ∨ negative then str + 1 else str
      let endStr ← digitsLoop cells (cells.length - str) str
      if endStr = str then some ⟨0, []⟩
      else
        let (value, operations) ← accumulateLoop cells str (endStr - str) 0 1
        if negative then
          let negated : Operation := ⟨int64, -value⟩
          some ⟨negated.value, operations ++ [negated]⟩
        else some ⟨value, operations⟩

def atoi (cells : List Char) (str : Nat) : Option Int :=
  (parse cells str).map fun parsed => toInt parsed.value

/-- `long` has the size of a pointer. -/
def atol (build : Target) (cells : List Char) (str : Nat) : Option Int :=
  (parse cells str).map fun parsed => parsed.value.bmod (2 ^ build.pointerBits)

def atoll (cells : List Char) (str : Nat) : Option Int :=
  (parse cells str).map fun parsed => toInt64 parsed.value

structure Terminated (cells : List Char) (str : Nat) (text : List Char) : Prop where
  held : ∃ rest, cells.drop str = text ++ nul :: rest
  noNul : nul ∉ text

namespace Terminated

variable {cells text first rest : List Char} {str : Nat} {ch : Char}

theorem load (terminated : Terminated cells str text) :
    cells[str]? = some (text.headD nul) := by
  obtain ⟨rest, held⟩ := terminated.held
  rw [← List.head?_drop, held]
  cases text <;> rfl

theorem advance (terminated : Terminated cells str (first ++ rest)) :
    Terminated cells (str + first.length) rest := by
  obtain ⟨more, held⟩ := terminated.held
  refine ⟨⟨more, ?_⟩, fun member =>
    terminated.noNul (List.mem_append_right first member)⟩
  rw [← List.drop_drop, held, List.append_assoc, List.drop_left]

theorem tail (terminated : Terminated cells str (ch :: text)) :
    Terminated cells (str + 1) text :=
  @advance _ [ch] _ _ terminated

theorem ne_nul (terminated : Terminated cells str (ch :: text)) : ch ≠ nul :=
  fun same => terminated.noNul (same ▸ List.mem_cons_self ..)

theorem length_lt (terminated : Terminated cells str text) :
    text.length < cells.length - str := by
  obtain ⟨rest, held⟩ := terminated.held
  rw [← List.length_drop, held]
  simp

end Terminated

theorem whitespace_nul : whitespace nul = false := by decide

theorem whitespaceLoop_eq {cells blanks rest : List Char} {remaining str : Nat}
    (terminated : Terminated cells str (blanks ++ rest))
    (member : ∀ ch ∈ blanks, whitespace ch = true)
    (stop : ∀ ch ∈ rest.head?, whitespace ch = false)
    (enough : blanks.length < remaining) :
    whitespaceLoop cells remaining str = some (some (str + blanks.length)) := by
  obtain ⟨remaining, rfl⟩ := Nat.exists_eq_succ_of_ne_zero
    (Nat.ne_of_gt (Nat.zero_lt_of_lt enough))
  have loaded := terminated.load
  induction blanks generalizing remaining str with
  | nil =>
      have other : whitespace (rest.headD nul) = false := by
        cases rest with
        | nil => exact whitespace_nul
        | cons ch rest => exact stop ch rfl
      rw [List.nil_append] at loaded
      rw [whitespaceLoop, loaded]
      simp only [Option.bind_eq_bind, Option.bind_some, other, Bool.false_eq_true,
        if_false, List.length_nil, Nat.add_zero]
  | cons ch blanks induction =>
      have blank := member ch (List.mem_cons_self ..)
      have nonzero := terminated.ne_nul
      obtain ⟨remaining, rfl⟩ := Nat.exists_eq_succ_of_ne_zero
        (Nat.ne_of_gt (Nat.zero_lt_of_lt (Nat.lt_of_succ_lt_succ enough)))
      have later := induction terminated.tail
        (fun other here => member other (List.mem_cons_of_mem ch here)) remaining
        (Nat.lt_of_succ_lt_succ enough) terminated.tail.load
      rw [whitespaceLoop, loaded]
      simp only [Option.bind_eq_bind, Option.bind_some, List.cons_append,
        List.headD_cons, blank, nonzero, if_true, if_false, later, List.length_cons]
      rw [Nat.add_assoc, Nat.add_comm 1]

theorem isDigit_between {ch : Char} :
    ch.isDigit = true ↔ ¬ (ch < '0' ∨ ch > '9') := by
  rw [not_or, Char.not_lt, gt_iff_lt, Char.not_lt]
  simp [Char.isDigit, Char.le_def]

theorem digitsLoop_eq {cells digits rest : List Char} {remaining str : Nat}
    (terminated : Terminated cells str (digits ++ rest))
    (member : ∀ ch ∈ digits, ch.isDigit = true)
    (stop : ∀ ch ∈ rest.head?, ch.isDigit = false)
    (enough : digits.length < remaining) :
    digitsLoop cells remaining str = some (str + digits.length) := by
  obtain ⟨remaining, rfl⟩ := Nat.exists_eq_succ_of_ne_zero
    (Nat.ne_of_gt (Nat.zero_lt_of_lt enough))
  have loaded := terminated.load
  induction digits generalizing remaining str with
  | nil =>
      rw [List.nil_append] at loaded
      cases rest with
      | nil => simp [digitsLoop, loaded]
      | cons ch rest =>
          have other : ch < '0' ∨ ch > '9' := by
            by_contra digit
            have := isDigit_between.mpr digit
            simp [stop ch rfl] at this
          simp [digitsLoop, loaded, other]
  | cons ch digits induction =>
      have digit := member ch (List.mem_cons_self ..)
      have nonzero := terminated.ne_nul
      obtain ⟨remaining, rfl⟩ := Nat.exists_eq_succ_of_ne_zero
        (Nat.ne_of_gt (Nat.zero_lt_of_lt (Nat.lt_of_succ_lt_succ enough)))
      have later := induction terminated.tail
        (fun other here => member other (List.mem_cons_of_mem ch here)) remaining
        (Nat.lt_of_succ_lt_succ enough) terminated.tail.load
      rw [digitsLoop, loaded]
      simp only [Option.bind_eq_bind, Option.bind_some, List.cons_append,
        List.headD_cons, ne_eq, nonzero, not_false_eq_true, if_true,
        whitespace_of_isDigit digit, Bool.false_eq_true, if_false,
        isDigit_between.mp digit, later, List.length_cons]
      rw [Nat.add_assoc, Nat.add_comm 1]

end Cells

def accumulate : List Char → Int → Int → Int × List Operation
  | [], value, _ => (value, [])
  | ch :: before, value, multiplier =>
      let product : Operation := ⟨int64, (ch.toNat - '0'.toNat : Int) * multiplier⟩
      let sum : Operation := ⟨int64, value + product.value⟩
      let next : Operation := ⟨int64, multiplier * 10⟩
      let after := accumulate before sum.value next.value
      (after.1, product :: sum :: next :: after.2)

theorem accumulateLoop_eq {cells digits more : List Char} {str : Nat}
    (held : cells.drop str = digits ++ more) (value multiplier : Int) :
    Cells.accumulateLoop cells str digits.length value multiplier =
      some (accumulate digits.reverse value multiplier) := by
  induction digits using List.reverseRecOn generalizing more value multiplier with
  | nil => rfl
  | append_singleton digits last induction =>
      rw [List.append_assoc] at held
      have loaded : cells[str + digits.length]? = some last := by
        rw [← List.getElem?_drop, held]
        simp
      rw [List.length_append, List.length_singleton, Cells.accumulateLoop, loaded]
      simp only [Option.bind_eq_bind, Option.bind_some, induction held,
        List.reverse_append, List.reverse_singleton, List.singleton_append,
        accumulate]

theorem accumulate_value {digits : List Char}
    (member : ∀ ch ∈ digits, ch.isDigit = true) (value multiplier : Int) :
    (accumulate digits value multiplier).1 = parseLoop digits value multiplier := by
  induction digits generalizing value multiplier with
  | nil => rfl
  | cons ch before induction =>
      have digit := Char.isDigit_iff_toNat.mp (member ch (List.mem_cons_self ..))
      have cast : (ch.toNat - '0'.toNat : Int) = (ch.toNat - '0'.toNat : Nat) := by
        omega
      rw [parseLoop, accumulate]
      simp only [cast]
      exact induction (fun other here =>
        member other (List.mem_cons_of_mem ch here)) _ _

/-! The grammar of the accepted strings. -/

structure Parts where
  blanks : List Char
  sign : List Char
  digits : List Char
  rest : List Char
  deriving DecidableEq, Repr

/-- The longest run of blanks, a sign if there is one, the longest run of
digits, and what follows. -/
structure Parts.Of (parts : Parts) (text : List Char) : Prop where
  split : text = parts.blanks ++ (parts.sign ++ (parts.digits ++ parts.rest))
  blanks : ∀ ch ∈ parts.blanks, whitespace ch = true
  blanksEnd : ∀ ch ∈ (parts.sign ++ (parts.digits ++ parts.rest)).head?,
    whitespace ch = false
  sign : parts.sign = [] ∨ parts.sign = ['+'] ∨ parts.sign = ['-']
  unsigned : parts.sign = [] →
    ∀ ch ∈ (parts.digits ++ parts.rest).head?, ch ≠ '+' ∧ ch ≠ '-'
  digits : ∀ ch ∈ parts.digits, ch.isDigit = true
  digitsEnd : ∀ ch ∈ parts.rest.head?, ch.isDigit = false

def Parts.number (parts : Parts) : Int :=
  if parts.sign = ['-'] then -(Nat.ofDigitChars 10 parts.digits 0 : Int)
  else Nat.ofDigitChars 10 parts.digits 0

theorem takeWhile_append_stop {test : Char → Bool} {first rest : List Char}
    (inside : ∀ ch ∈ first, test ch = true)
    (stop : ∀ ch ∈ rest.head?, test ch = false) :
    (first ++ rest).takeWhile test = first ∧
      (first ++ rest).dropWhile test = rest := by
  rw [List.takeWhile_append_of_pos inside, List.dropWhile_append_of_pos inside]
  cases rest with
  | nil => simp
  | cons ch rest => simp [stop ch rfl]

theorem head?_dropWhile {test : Char → Bool} (text : List Char) :
    ∀ ch ∈ (text.dropWhile test).head?, test ch = false := by
  intro ch head
  have stopped := List.head?_dropWhile_not test text
  rw [head] at stopped
  exact stopped

def signOf (trimmed : List Char) : List Char :=
  if trimmed.head? = some '+' then ['+']
  else if trimmed.head? = some '-' then ['-']
  else []

theorem signOf_prefix (trimmed : List Char) :
    trimmed = signOf trimmed ++ trimmed.drop (signOf trimmed).length := by
  cases trimmed with
  | nil => rfl
  | cons ch trimmed =>
      simp only [signOf, List.head?_cons, Option.some.injEq]
      split
      case isTrue plus => simp [plus]
      case isFalse notPlus =>
        split
        case isTrue minus => simp [minus]
        case isFalse => rfl

def partsOf (text : List Char) : Parts :=
  let trimmed := text.dropWhile whitespace
  let unsigned := trimmed.drop (signOf trimmed).length
  ⟨text.takeWhile whitespace, signOf trimmed, unsigned.takeWhile Char.isDigit,
    unsigned.dropWhile Char.isDigit⟩

theorem partsOf_of (text : List Char) : (partsOf text).Of text := by
  have trimmed := signOf_prefix (text.dropWhile whitespace)
  have unsigned : (partsOf text).digits ++ (partsOf text).rest =
      (text.dropWhile whitespace).drop
        (signOf (text.dropWhile whitespace)).length :=
    List.takeWhile_append_dropWhile
  have whole : (partsOf text).sign ++ ((partsOf text).digits ++ (partsOf text).rest) =
      text.dropWhile whitespace := by
    rw [unsigned]
    exact trimmed.symm
  refine ⟨?_, ?_, ?_, ?_, ?_, ?_, ?_⟩
  · rw [whole]
    exact List.takeWhile_append_dropWhile.symm
  · intro ch member
    exact List.all_eq_true.mp List.all_takeWhile ch member
  · rw [whole]
    exact head?_dropWhile text
  · simp only [partsOf, signOf]
    split
    · exact .inr (.inl rfl)
    · split
      · exact .inr (.inr rfl)
      · exact .inl rfl
  · intro none ch head
    rw [none, List.nil_append] at whole
    rw [whole] at head
    simp only [partsOf, signOf] at none
    constructor
    · rintro rfl
      simp [Option.mem_def.mp head] at none
    · rintro rfl
      simp [Option.mem_def.mp head] at none
  · intro ch member
    exact List.all_eq_true.mp List.all_takeWhile ch member
  · exact head?_dropWhile _

theorem Parts.Of.trimmed {parts : Parts} {text : List Char} (of : parts.Of text) :
    text.takeWhile whitespace = parts.blanks ∧ text.dropWhile whitespace =
      parts.sign ++ (parts.digits ++ parts.rest) := by
  rw [of.split]
  exact takeWhile_append_stop of.blanks of.blanksEnd

theorem Parts.Of.signOf_eq {parts : Parts} {text : List Char} (of : parts.Of text) :
    signOf (parts.sign ++ (parts.digits ++ parts.rest)) = parts.sign := by
  rcases of.sign with none | plus | minus
  · rw [none, List.nil_append, signOf]
    have other := of.unsigned none
    cases head : (parts.digits ++ parts.rest).head? with
    | none => rfl
    | some ch =>
        obtain ⟨notPlus, notMinus⟩ := other ch head
        simp [notPlus, notMinus]
  · rw [plus]
    rfl
  · rw [minus]
    rfl

theorem Parts.Of.minus_iff {parts : Parts} {text : List Char} (of : parts.Of text) :
    (parts.sign ++ (parts.digits ++ parts.rest)).head? = some '-' ↔
      parts.sign = ['-'] := by
  rcases of.sign with none | plus | minus
  · rw [none, List.nil_append]
    constructor
    · intro head
      exact absurd rfl (of.unsigned none '-' head).2
    · intro impossible
      contradiction
  · simp [plus]
  · simp [minus]

theorem Parts.Of.signed_iff {parts : Parts} {text : List Char} (of : parts.Of text) :
    (parts.sign ++ (parts.digits ++ parts.rest)).head? = some '+' ∨
      parts.sign = ['-'] ↔ parts.sign ≠ [] := by
  rcases of.sign with none | plus | minus
  · rw [none, List.nil_append]
    constructor
    · rintro (head | impossible)
      · exact absurd rfl (of.unsigned none '+' head).1
      · contradiction
    · intro impossible
      exact absurd rfl impossible
  · simp [plus]
  · simp [minus]

theorem Parts.Of.eq {parts : Parts} {text : List Char} (of : parts.Of text) :
    parts = partsOf text := by
  obtain ⟨blanks, trimmed⟩ := of.trimmed
  obtain ⟨digits, rest⟩ := takeWhile_append_stop of.digits of.digitsEnd
  rw [partsOf, blanks, trimmed]
  simp only [of.signOf_eq, List.drop_left, digits, rest]

namespace Cells

variable {cells text : List Char} {str : Nat} {parts : Parts}

def accumulated (parts : Parts) : Parsed :=
  if parts.digits = [] then ⟨0, []⟩
  else
    let (value, operations) := accumulate parts.digits.reverse 0 1
    if parts.sign = ['-'] then
      let negated : Operation := ⟨int64, -value⟩
      ⟨negated.value, operations ++ [negated]⟩
    else ⟨value, operations⟩

theorem headD_eq_iff {ch : Char} (nonzero : ch ≠ nul) (text : List Char) :
    text.headD nul = ch ↔ text.head? = some ch := by
  cases text with
  | nil => simp [nonzero.symm]
  | cons first rest => simp

theorem parse_eq (terminated : Terminated cells str text) (of : parts.Of text) :
    parse cells str = some (accumulated parts) := by
  rw [of.split] at terminated
  have atSign := terminated.advance
  have atDigits := atSign.advance
  obtain ⟨more, held⟩ := atDigits.held
  rw [List.append_assoc] at held
  have blanksLength := terminated.length_lt
  have digitsLength := atDigits.length_lt
  rw [List.length_append] at blanksLength digitsLength
  have minus := (headD_eq_iff (by decide) _).trans of.minus_iff
  have signed := (or_congr_left (headD_eq_iff (by decide) _)).trans of.signed_iff
  have afterSign : (if parts.sign ≠ [] then str + parts.blanks.length + 1
      else str + parts.blanks.length) =
        str + parts.blanks.length + parts.sign.length := by
    rcases of.sign with none | plus | negative
    · simp [none]
    · simp [plus]
    · simp [negative]
  have found : (str + parts.blanks.length + parts.sign.length + parts.digits.length =
      str + parts.blanks.length + parts.sign.length) ↔ parts.digits = [] := by
    rw [← List.length_eq_zero_iff]
    omega
  rw [parse, whitespaceLoop_eq terminated of.blanks of.blanksEnd (by omega)]
  simp only [Option.bind_eq_bind, Option.bind_some, atSign.load, minus, signed,
    afterSign, digitsLoop_eq atDigits of.digits of.digitsEnd
      (Nat.lt_of_le_of_lt (Nat.le_add_right ..) digitsLength), found,
    Nat.add_sub_cancel_left, accumulateLoop_eq held, accumulated]
  split
  · rfl
  · split
    · rfl
    · rfl

theorem accumulate_digits (of : parts.Of text) :
    (accumulate parts.digits.reverse 0 1).1 =
      toInt64 (Nat.ofDigitChars 10 parts.digits 0) := by
  have member : ∀ ch ∈ parts.digits.reverse, ch.isDigit = true := fun ch here =>
    of.digits ch (List.mem_reverse.mp here)
  have looped := parseLoop_eq parts.digits.reverse 0 1
  rw [List.reverse_reverse] at looped
  rw [accumulate_value member]
  simpa [toInt64] using looped

theorem accumulated_value (of : parts.Of text) :
    (accumulated parts).value =
      if parts.digits = [] then 0 else toInt64 parts.number := by
  have value := accumulate_digits of
  rw [accumulated, Parts.number]
  by_cases none : parts.digits = []
  · rw [if_pos none, if_pos none]
  · by_cases minus : parts.sign = ['-']
    · simp only [none, minus, if_false, if_true, value, value_int64]
      simp only [toInt64, Int.bmod_neg_bmod]
    · simp only [none, minus, if_false, value]

theorem toInt64_of_holds {value : Int} (holds : int64.Holds value) :
    toInt64 value = value := by
  have sized : 0 < int64.bits := by decide
  rw [← value_int64, Operation.value]
  exact IntegerType.wrap_of_holds sized holds

/-- Every string has one reading, and `parse` returns the number it stands for
without a read past the NUL. -/
theorem parse_grammar (terminated : Terminated cells str text) :
    (∃! parts : Parts, parts.Of text) ∧
      ∀ parts : Parts, parts.Of text → ∃ parsed, parse cells str = some parsed ∧
        (parts.digits = [] → parsed.value = 0) ∧
        (parts.digits ≠ [] → parsed.value = toInt64 parts.number ∧
          (int64.Holds parts.number → parsed.value = parts.number)) ∧
        atoll cells str = some parsed.value ∧
        atoi cells str = some (toInt parsed.value) ∧
        ∀ build, atol build cells str =
          some (parsed.value.bmod (2 ^ build.pointerBits)) := by
  refine ⟨⟨partsOf text, partsOf_of text, fun parts of => of.eq⟩, ?_⟩
  intro parts of
  have parsed := parse_eq terminated of
  have value := accumulated_value of
  refine ⟨_, parsed, ?_, ?_, ?_, ?_, ?_⟩
  · intro none
    rw [value, if_pos none]
  · intro some
    rw [value, if_neg some]
    exact ⟨rfl, toInt64_of_holds⟩
  · rw [atoll, parsed, Option.map_some, value]
    split
    · rfl
    · simp only [toInt64, Int.bmod_bmod]
  · rw [atoi, parsed, Option.map_some]
  · intro build
    rw [atol, parsed, Option.map_some]

def sample : List Char := [' ', '-', '0', '4', '2', 'z', nul]

theorem sample_terminated :
    Terminated sample 0 [' ', '-', '0', '4', '2', 'z'] :=
  ⟨⟨[], rfl⟩, by decide⟩

theorem parse_grammar_sample : atoll sample 0 = some (-42) := by
  obtain ⟨_, reads⟩ := parse_grammar sample_terminated
  obtain ⟨parsed, _, _, number, returned, _⟩ := reads _ (partsOf_of _)
  rw [returned, (number (by decide)).2 (by decide)]
  decide

end Cells

end Thos.Libc
