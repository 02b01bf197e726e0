import Thos.Libc.Conversion
import Thos.Libc.Parse

namespace Thos.Libc

open Data.MachineInteger

/-! Signed arithmetic between texts and integers. -/

theorem int64_bounds : int64.minimum = -9223372036854775808 ∧
    int64.maximum = 9223372036854775807 := by
  decide

theorem int64_holds_of_le {value : Nat} (bound : value ≤ 10 ^ 18) :
    int64.Holds value ∧ int64.Holds (-(value : Int)) := by
  obtain ⟨minimum, maximum⟩ := int64_bounds
  rw [IntegerType.Holds, IntegerType.Holds, minimum, maximum]
  omega

theorem value_of_le {value : Nat} (bound : value ≤ 10 ^ 18) :
    Operation.value ⟨int64, value⟩ = value := by
  rw [value_int64, Cells.toInt64_of_holds (int64_holds_of_le bound).1]

theorem decimal_of_isDigit {ch : Char} (digit : ch.isDigit = true) :
    ∃ decimal < 10, (ch.toNat - '0'.toNat : Int) = (decimal : Nat) := by
  have between := Char.isDigit_iff_toNat.mp digit
  have zero : '0'.toNat = 48 := rfl
  have nine : '9'.toNat = 57 := rfl
  exact ⟨ch.toNat - '0'.toNat, by omega, by omega⟩

theorem accumulate_allInRange_iff {digits : List Char}
    (member : ∀ ch ∈ digits, ch.isDigit = true) {value place : Nat}
    (bound : value < 10 ^ place) (small : place ≤ 18) :
    AllInRange (accumulate digits value (10 ^ place : Nat)).2 ↔
      place + digits.length ≤ 18 := by
  induction digits generalizing value place with
  | nil => simpa [accumulate] using small
  | cons ch before induction =>
      have digit := member ch (List.mem_cons_self ..)
      have others : ∀ ch ∈ before, ch.isDigit = true := fun other here =>
        member other (List.mem_cons_of_mem ch here)
      obtain ⟨decimal, single, cast⟩ := decimal_of_isDigit digit
      have next : ((10 ^ place : Nat) : Int) * 10 = (10 ^ (place + 1) : Nat) := by
        rw [Nat.pow_succ]
        push_cast
        rfl
      rw [List.length_cons, accumulate]
      simp only [next, allInRange_cons]
      rcases Nat.lt_or_eq_of_le small with more | last
      · have scaled : decimal * 10 ^ place ≤ 9 * 10 ^ place :=
          Nat.mul_le_mul_right _ (Nat.le_of_lt_succ single)
        have limit : 10 ^ (place + 1) ≤ 10 ^ 18 :=
          Nat.pow_le_pow_right (by decide) more
        have shifted : 10 ^ (place + 1) = 10 ^ place * 10 := Nat.pow_succ ..
        have product : (ch.toNat - '0'.toNat : Int) * (10 ^ place : Nat) =
            (decimal * 10 ^ place : Nat) := by
          rw [cast, Int.natCast_mul]
        have sum : (value : Int) + (decimal * 10 ^ place : Nat) =
            (value + decimal * 10 ^ place : Nat) := (Int.natCast_add ..).symm
        have later : AllInRange (accumulate before
              (value + decimal * 10 ^ place : Nat) (10 ^ (place + 1) : Nat)).2 ↔
            place + 1 + before.length ≤ 18 := induction others (by omega) more
        have productBound : decimal * 10 ^ place ≤ 10 ^ 18 := by omega
        have sumBound : value + decimal * 10 ^ place ≤ 10 ^ 18 := by omega
        simp only [product, value_of_le productBound, sum, value_of_le sumBound,
          value_of_le limit, later]
        constructor
        · rintro ⟨_, _, _, rest⟩
          omega
        · intro short
          exact ⟨(int64_holds_of_le productBound).1, (int64_holds_of_le sumBound).1,
            (int64_holds_of_le limit).1, by omega⟩
      · constructor
        · rintro ⟨_, _, multiplier, _⟩
          rw [last] at multiplier
          exact absurd multiplier (by decide)
        · intro short
          omega

theorem ofDigitChars_lt {digits : List Char}
    (member : ∀ ch ∈ digits, ch.isDigit = true) (init : Nat) :
    Nat.ofDigitChars 10 digits init < (init + 1) * 10 ^ digits.length := by
  induction digits generalizing init with
  | nil => simp
  | cons ch digits induction =>
      have between := Char.isDigit_iff_toNat.mp (member ch (List.mem_cons_self ..))
      have zero : '0'.toNat = 48 := rfl
      have nine : '9'.toNat = 57 := rfl
      have later := induction (fun other here =>
        member other (List.mem_cons_of_mem ch here))
          (10 * init + (ch.toNat - '0'.toNat))
      rw [Nat.ofDigitChars_cons, List.length_cons, Nat.pow_succ', ← Nat.mul_assoc]
      apply Nat.lt_of_lt_of_le later
      apply Nat.mul_le_mul_right
      omega

theorem accumulated_allInRange_iff {parts : Parts} {text : List Char}
    (of : parts.Of text) :
    AllInRange (Cells.accumulated parts).operations ↔ parts.digits.length ≤ 18 := by
  have member : ∀ ch ∈ parts.digits.reverse, ch.isDigit = true := fun ch here =>
    of.digits ch (List.mem_reverse.mp here)
  have operations : AllInRange (accumulate parts.digits.reverse 0 1).2 ↔
      0 + parts.digits.reverse.length ≤ 18 :=
    accumulate_allInRange_iff member (Nat.one_pos) (Nat.zero_le 18)
  rw [Nat.zero_add, List.length_reverse] at operations
  rw [Cells.accumulated]
  by_cases none : parts.digits = []
  · simp [none]
  · by_cases minus : parts.sign = ['-']
    · simp only [none, minus, if_false, if_true, allInRange_append,
        allInRange_cons, allInRange_nil, and_true, operations]
      constructor
      · exact And.left
      · intro short
        have bound := ofDigitChars_lt of.digits 0
        have limit : 10 ^ parts.digits.length ≤ 10 ^ 18 :=
          Nat.pow_le_pow_right (by decide) short
        have small : Nat.ofDigitChars 10 parts.digits 0 ≤ 10 ^ 18 := by omega
        obtain ⟨positive, negative⟩ := int64_holds_of_le small
        rw [Cells.accumulate_digits of, Cells.toInt64_of_holds positive]
        exact ⟨short, negative⟩
    · simp only [none, minus, if_false, operations]

def recordedSignedValue (build : Target) (bits : Nat)
    (printUnsignedValue : PrintState → Nat → Option PrintState)
    (state : PrintState) : Option (PrintState × List Operation) := do
  let (argument, arguments) ← vaArgInteger bits state.arguments
  let state := { state with arguments := arguments }
  let value := (argument : Int).bmod (2 ^ bits)
  if value < 0 then
    let state ← putcharMaybeMinwidth build state '-'
    let negated : Operation := ⟨⟨true, bits⟩, value * -1⟩
    let state ← printUnsignedValue state (negated.value % 2 ^ bits).toNat
    some (state, [negated])
  else
    let state ← printUnsignedValue state (value % 2 ^ bits).toNat
    some (state, [])

def recordedSigned (build : Target) (state : PrintState) :
    Option (PrintState × List Operation) :=
  if !state.conversion.valueIs32bit build then
    recordedSignedValue build 64 (printUnsignedUint64 build) state
  else recordedSignedValue build 32 (printUnsignedUint32 build) state

variable {build : Target} {state : PrintState}

theorem recordedSignedValue_state (build : Target) (bits : Nat)
    (printUnsignedValue : PrintState → Nat → Option PrintState)
    (state : PrintState) :
    (recordedSignedValue build bits printUnsignedValue state).map Prod.fst =
      printSignedValue build bits printUnsignedValue state := by
  rw [recordedSignedValue, printSignedValue]
  cases vaArgInteger bits state.arguments with
  | none => rfl
  | some result =>
      simp only [Option.bind_eq_bind, Option.bind_some]
      split
      · cases putcharMaybeMinwidth build { state with arguments := result.2 } '-' with
        | none => rfl
        | some signed =>
            simp only [Option.bind_some, Operation.value, IntegerType.wrap_signed]
            cases printUnsignedValue signed _ <;> rfl
      · cases printUnsignedValue { state with arguments := result.2 } _ <;> rfl

theorem recordedSigned_state (state : PrintState) :
    (recordedSigned build state).map Prod.fst = printSigned build state := by
  rw [recordedSigned, printSigned]
  split
  · exact recordedSignedValue_state ..
  · exact recordedSignedValue_state ..

/-- The negation is the one signed operation. -/
theorem recordedSignedValue_operations {bits argument : Nat}
    {printUnsignedValue : PrintState → Nat → Option PrintState}
    {rest : List Argument} {after : PrintState} {operations : List Operation}
    (taken : vaArgInteger bits state.arguments = some (argument, rest))
    (recorded : recordedSignedValue build bits printUnsignedValue state =
      some (after, operations)) :
    operations = if signedValue bits argument < 0 then
      [⟨⟨true, bits⟩, signedValue bits argument * -1⟩] else [] := by
  rw [recordedSignedValue, taken] at recorded
  simp only [Option.bind_eq_bind, Option.bind_some] at recorded
  rw [signedValue]
  split at recorded
  case isTrue negative =>
    obtain ⟨signed, _, recorded⟩ := Option.bind_eq_some_iff.mp recorded
    obtain ⟨printed, _, recorded⟩ := Option.bind_eq_some_iff.mp recorded
    cases recorded
    rw [if_pos negative]
  case isFalse nonneg =>
    obtain ⟨printed, _, recorded⟩ := Option.bind_eq_some_iff.mp recorded
    cases recorded
    rw [if_neg nonneg]

theorem negation_inRange_iff (bits argument : Nat) :
    AllInRange (if signedValue (bits + 1) argument < 0 then
        [⟨⟨true, bits + 1⟩, signedValue (bits + 1) argument * -1⟩] else []) ↔
      signedValue (bits + 1) argument ≠ -2 ^ bits := by
  have double : (2 : Nat) ^ (bits + 1) = 2 * 2 ^ bits := Nat.pow_succ'
  have cast : ((2 ^ bits : Nat) : Int) = 2 ^ bits := Int.natCast_pow 2 bits
  have low : -((2 ^ (bits + 1) : Nat) / 2 : Int) ≤ signedValue (bits + 1) argument :=
    Int.le_bmod (Nat.two_pow_pos _)
  rw [double] at low
  have positive := Nat.two_pow_pos bits
  split
  case isTrue negative =>
    simp only [allInRange_cons, allInRange_nil, and_true, Operation.InRange,
      IntegerType.Holds, IntegerType.minimum, IntegerType.maximum, if_true,
      Nat.add_sub_cancel]
    omega
  case isFalse nonneg =>
    simp only [allInRange_nil, true_iff]
    omega

theorem recordedSigned_allInRange_iff {argument : Nat} {rest : List Argument}
    {after : PrintState} {operations : List Operation}
    (taken : vaArgInteger (integerBits build state.conversion) state.arguments =
      some (argument, rest))
    (recorded : recordedSigned build state = some (after, operations)) :
    AllInRange operations ↔
      signedValue (integerBits build state.conversion) argument ≠
        -2 ^ (integerBits build state.conversion - 1) := by
  rw [recordedSigned] at recorded
  rw [integerBits] at taken ⊢
  cases short : state.conversion.valueIs32bit build with
  | true =>
      rw [short] at recorded taken
      rw [recordedSignedValue_operations taken recorded]
      exact negation_inRange_iff 31 argument
  | false =>
      rw [short] at recorded taken
      rw [recordedSignedValue_operations taken recorded]
      exact negation_inRange_iff 63 argument

/-- The operations of `parse` stay in their range for at most 18 digits, leading
zeros included, and those of `print_signed` for every value but the least. -/
theorem arithmetic_in_range_iff (build : Target) :
    (∀ cells str text (parts : Parts), Cells.Terminated cells str text →
      parts.Of text → ∃ parsed, Cells.parse cells str = some parsed ∧
        (AllInRange parsed.operations ↔ parts.digits.length ≤ 18)) ∧
    ∀ (state after : PrintState) argument rest,
      vaArgInteger (integerBits build state.conversion) state.arguments =
        some (argument, rest) →
      printSigned build state = some after →
      ∃ operations, recordedSigned build state = some (after, operations) ∧
        (AllInRange operations ↔
          signedValue (integerBits build state.conversion) argument ≠
            -2 ^ (integerBits build state.conversion - 1)) := by
  constructor
  · intro cells str text parts terminated of
    exact ⟨_, Cells.parse_eq terminated of, accumulated_allInRange_iff of⟩
  · intro state after argument rest taken printed
    rw [← recordedSigned_state] at printed
    obtain ⟨⟨_, operations⟩, recorded, rfl⟩ := Option.map_eq_some_iff.mp printed
    exact ⟨operations, recorded, recordedSigned_allInRange_iff taken recorded⟩

def Cells.leadingZeros : List Char := List.replicate 18 '0' ++ ['1', nul]

def PrintState.least (longModifiers bits : Nat) : PrintState where
  conversion := { longModifiers := longModifiers }
  target := .stream []
  arguments := [.integer bits (2 ^ (bits - 1))]
  maxOutput := noMaxOutput

theorem arithmetic_in_range_iff_sample :
    (∃ parsed, Cells.parse Cells.sample 0 = some parsed ∧
      AllInRange parsed.operations) ∧
    ∃ after operations, recordedSigned .riscv32
        { PrintState.least 0 32 with arguments := [.integer 32 (2 ^ 31 + 1)] } =
      some (after, operations) ∧ AllInRange operations := by
  obtain ⟨parses, prints⟩ := arithmetic_in_range_iff .riscv32
  constructor
  · obtain ⟨parsed, returned, inRange⟩ :=
      parses _ _ _ _ Cells.sample_terminated (partsOf_of _)
    exact ⟨parsed, returned, inRange.mpr (by decide)⟩
  · have printed : printSigned .riscv32
          { PrintState.least 0 32 with arguments := [.integer 32 (2 ^ 31 + 1)] } =
        some { PrintState.least 0 32 with
          arguments := []
          printed := 11
          target := .stream "-2147483647".toList } := by
      decide +kernel
    obtain ⟨operations, recorded, inRange⟩ := prints _ _ (2 ^ 31 + 1) [] rfl printed
    exact ⟨_, operations, recorded, inRange.mpr (by decide)⟩

/-- The last multiplier of 19 digits overflows although their value is 1, and so
does the negation of the least value. -/
theorem arithmetic_overflows :
    ((Cells.parse Cells.leadingZeros 0).map fun parsed =>
        (parsed.value, decide (AllInRange parsed.operations))) =
      some (1, false) ∧
    ((recordedSigned .riscv32 (.least 0 32)).map fun recorded =>
        decide (AllInRange recorded.2)) = some false ∧
    ((recordedSigned .riscv64 (.least 2 64)).map fun recorded =>
        decide (AllInRange recorded.2)) = some false := by
  decide +kernel

end Thos.Libc
