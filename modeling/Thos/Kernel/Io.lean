import Thos.Data.Transition
import Thos.Kernel.Outcome
import Thos.Libc.Numerals

namespace Thos.Kernel

open Data.Numeral Data.Transition Thos.Libc

/-! The printers of `io.c` that do not allocate a buffer: the characters they
send with `sbi_putchar`. -/

structure DirectU32 where
  val : UInt32
  div : UInt32
  started : Bool
  sent : List Char
  deriving DecidableEq, Repr

namespace DirectU32

def start (val : UInt32) : DirectU32 := ⟨val, 1000000000, false, []⟩

def step (state : DirectU32) : Option DirectU32 :=
  if state.div > 0 then
    if state.val ≥ state.div then
      let digit := state.val / state.div
      -- `continue`, which leaves `div` as it is
      if digit > 9 then some { state with started := true }
      else some {
        val := state.val - digit * state.div
        div := state.div / 10
        started := true
        sent := state.sent ++ [Char.ofNat ('0'.toNat + digit.toNat)] }
    else some { state with
      div := state.div / 10
      sent := if state.started then state.sent ++ ['0'] else state.sent }
  else none

def loop : Nat → DirectU32 → Outcome (List Char)
  | 0, _ => throw .outOfFuel
  | rounds + 1, state =>
      match state.step with
      | some next => loop rounds next
      | none => pure state.sent

def system (val : UInt32) : System DirectU32 Unit :=
  .ofFunction (· = start val) fun state _ => state.step

/-- The next iteration reaches its `continue`. -/
def Continues (state : DirectU32) : Prop :=
  state.div > 0 ∧ state.val ≥ state.div ∧ state.val / state.div > 9

end DirectU32

def putDirectU32 (rounds : Nat) (val : UInt32) : Outcome (List Char) :=
  if val = 0 then pure ['0'] else DirectU32.loop rounds (.start val)

def putDirectHexLoop (val : UInt32) : Nat → Bool → List Char → List Char
  | 0, _, sent => sent
  | shift + 1, started, sent =>
      let placeValue := val.toNat >>> (shift * 4) &&& 0xf
      if placeValue = 0 ∧ !started ∧ shift ≠ 0 then
        putDirectHexLoop val shift started sent
      else
        let ascii :=
          if placeValue ≤ 9 then Char.ofNat ('0'.toNat + placeValue)
          else Char.ofNat ('a'.toNat + placeValue - 10)
        putDirectHexLoop val shift true (sent ++ [ascii])

def putDirectHex32 (val : UInt32) : List Char :=
  putDirectHexLoop val 8 false ['0', 'x']

namespace DirectU32

/-- `div` is the power of ten for the iterations left, and bounds `val`. -/
structure Bounded (iterations : Nat) (state : DirectU32) : Prop where
  divisor : state.div.toNat = 10 ^ iterations / 10
  bound : state.val.toNat < 10 ^ iterations

variable {state : DirectU32} {iterations : Nat}

theorem Bounded.divisor_succ (bounded : Bounded (iterations + 1) state) :
    state.div.toNat = 10 ^ iterations := by
  rw [bounded.divisor, Nat.pow_succ, Nat.mul_div_cancel _ (by decide)]

theorem Bounded.digit_lt (bounded : Bounded (iterations + 1) state) :
    state.val.toNat / state.div.toNat < 10 := by
  rw [bounded.divisor_succ]
  apply Nat.div_lt_of_lt_mul
  rw [← Nat.pow_succ]
  exact bounded.bound

/-- An iteration that is left does not reach the `continue`, and prints what
`print_unsigned_uint32_t` prints. -/
theorem Bounded.step_succ (bounded : Bounded (iterations + 1) state) :
    ∃ next, state.step = some next ∧ Bounded iterations next ∧
      ∀ (build : Target) (print : PrintState), Plain print state.sent →
        ∃ after, Plain after next.sent ∧
          printUnsignedLoop build (iterations + 1) state.div.toNat state.val.toNat
              state.started print =
            printUnsignedLoop build iterations next.div.toNat next.val.toNat
              next.started after := by
  have divisor := bounded.divisor_succ
  have digit := bounded.digit_lt
  have positive : 0 < state.div.toNat := by
    rw [divisor]
    exact Nat.pow_pos (by decide)
  have nonzero : state.div > 0 := UInt32.lt_iff_toNat_lt.mpr positive
  have nextDivisor : (state.div / 10).toNat = 10 ^ iterations / 10 := by
    rw [UInt32.toNat_div, divisor]
    rfl
  rw [step, if_pos nonzero]
  rcases Nat.lt_or_ge state.val.toNat state.div.toNat with below | reached
  · have short : ¬ state.val ≥ state.div :=
      UInt32.not_le.mpr (UInt32.lt_iff_toNat_lt.mpr below)
    rw [if_neg short]
    refine ⟨_, rfl, ⟨nextDivisor, by rwa [divisor] at below⟩, ?_⟩
    intro build print plain
    rw [printUnsignedLoop, if_pos positive, if_neg (Nat.not_le.mpr below)]
    cases state.started with
    | false => exact ⟨print, plain, rfl⟩
    | true =>
        obtain ⟨after, printed, next⟩ := plain.putchar build '0'
        refine ⟨after, next, ?_⟩
        simp only [if_true, printed]
        rfl
  · have atLeast : state.val ≥ state.div := UInt32.le_iff_toNat_le.mpr reached
    have single : ¬ state.val / state.div > 9 := by
      rw [gt_iff_lt, UInt32.lt_iff_toNat_lt, UInt32.toNat_div]
      exact Nat.not_lt.mpr (Nat.le_of_lt_succ digit)
    have product : (state.val / state.div * state.div).toNat =
        state.val.toNat / state.div.toNat * state.div.toNat := by
      rw [UInt32.toNat_mul, UInt32.toNat_div]
      apply Nat.mod_eq_of_lt
      exact Nat.lt_of_le_of_lt (Nat.div_mul_le_self ..) state.val.toNat_lt
    have remainder : (state.val - state.val / state.div * state.div).toNat =
        state.val.toNat - state.val.toNat / state.div.toNat * state.div.toNat := by
      rw [UInt32.toNat_sub_of_le, product]
      rw [UInt32.le_iff_toNat_le, product]
      exact Nat.div_mul_le_self ..
    rw [if_pos atLeast]
    simp only [if_neg single]
    refine ⟨_, rfl, ⟨nextDivisor, ?_⟩, ?_⟩
    · rw [remainder, Nat.mul_comm, ← Nat.mod_def, divisor]
      exact Nat.mod_lt _ (Nat.pow_pos (by decide))
    · intro build print plain
      obtain ⟨after, printed, next⟩ := plain.putchar build
        (Char.ofNat ('0'.toNat + (state.val / state.div).toNat))
      refine ⟨after, next, ?_⟩
      rw [UInt32.toNat_div] at printed
      rw [printUnsignedLoop, if_pos positive, if_pos reached]
      simp only [printed, remainder, UInt32.toNat_div]
      rfl

theorem Bounded.step_zero (bounded : Bounded 0 state) : state.step = none := by
  have zero : ¬ state.div > 0 := by
    rw [gt_iff_lt, UInt32.lt_iff_toNat_lt, bounded.divisor]
    exact Nat.not_lt.mpr (Nat.le_refl 0)
  rw [step, if_neg zero]

theorem Bounded.not_continues (bounded : Bounded iterations state) :
    ¬ state.Continues := by
  rintro ⟨positive, _, large⟩
  rw [gt_iff_lt, UInt32.lt_iff_toNat_lt] at positive large
  cases iterations with
  | zero =>
      rw [bounded.divisor] at positive
      contradiction
  | succ iterations =>
      have digit := bounded.digit_lt
      rw [UInt32.toNat_div] at large
      exact Nat.not_lt.mpr (Nat.le_of_lt_succ digit) large

theorem bounded_start (val : UInt32) : Bounded 10 (start val) :=
  ⟨(by decide : (1000000000 : UInt32).toNat = 10 ^ 10 / 10),
    Nat.lt_trans val.toNat_lt (by decide)⟩

theorem reachable_bounded {val : UInt32}
    (reachable : (system val).Reachable state) :
    ∃ iterations, Bounded iterations state := by
  refine reachable.invariant (fun state => ∃ iterations, Bounded iterations state)
    ?_ ?_
  · rintro _ rfl
    exact ⟨10, bounded_start val⟩
  · rintro before _ after ⟨iterations, bounded⟩ stepped
    cases iterations with
    | zero => exact absurd (bounded.step_zero.symm.trans stepped) (by simp)
    | succ iterations =>
        obtain ⟨next, steps, later, _⟩ := bounded.step_succ
        cases steps.symm.trans stepped
        exact ⟨iterations, later⟩

theorem Bounded.loop_eq (bounded : Bounded iterations state) {rounds : Nat}
    (enough : iterations < rounds) (build : Target) {print : PrintState}
    (plain : Plain print state.sent) :
    ∃ sent, loop rounds state = .ok sent ∧
      (printUnsignedLoop build iterations state.div.toNat state.val.toNat
        state.started print).map PrintState.target = some (.stream sent) := by
  induction iterations generalizing state rounds print with
  | zero =>
      cases rounds with
      | zero => contradiction
      | succ rounds =>
          refine ⟨state.sent, ?_, ?_⟩
          · rw [loop, bounded.step_zero]
            rfl
          · rw [printUnsignedLoop, Option.map_some, plain.target]
  | succ iterations induction =>
      cases rounds with
      | zero => contradiction
      | succ rounds =>
          obtain ⟨next, stepped, later, agree⟩ := bounded.step_succ
          obtain ⟨after, printed, same⟩ := agree build print plain
          obtain ⟨sent, returned, target⟩ :=
            induction later (Nat.lt_of_succ_lt_succ enough) printed
          refine ⟨sent, ?_, ?_⟩
          · rw [loop, stepped]
            exact returned
          · rw [same, target]

end DirectU32

def sending (text : List Char) : PrintState where
  target := .stream text
  arguments := []
  maxOutput := noMaxOutput

theorem plain_sending (text : List Char) : Plain (sending text) text :=
  ⟨rfl, rfl, rfl, rfl⟩

theorem putDirectU32_eq (val : UInt32) {rounds : Nat} (enough : 10 < rounds) :
    putDirectU32 rounds val = .ok (Nat.toDigits 10 val.toNat) := by
  rw [putDirectU32]
  split
  case isTrue zero =>
    rw [zero]
    rfl
  case isFalse nonzero =>
    have positive : val.toNat ≠ 0 := fun zero => nonzero (UInt32.toNat_inj.mp zero)
    have plain := plain_sending []
    obtain ⟨sent, returned, target⟩ :=
      (DirectU32.bounded_start val).loop_eq enough .riscv64 plain
    have divisor : (DirectU32.start val).div.toNat = 1000000000 :=
      (by decide : (1000000000 : UInt32).toNat = 1000000000)
    have printed : printUnsignedUint32 .riscv64 (sending []) val.toNat =
        printUnsignedLoop .riscv64 10 1000000000 val.toNat false (sending []) :=
      if_neg positive
    have digits := plain.putChars_target .riscv64 (Nat.toDigits 10 val.toNat)
    rw [← printUnsignedUint32_eq _ val.toNat_lt, printed] at digits
    rw [divisor] at target
    cases digits.symm.trans target
    exact returned

theorem putDirectHexLoop_simulates (build : Target) (val : UInt32) (count : Nat)
    (started : Bool) {print : PrintState} {sent : List Char}
    (plain : Plain print sent) :
    (printPlacesLoop build 4 0xf hexAscii val.toNat count started print).map
        PrintState.target =
      some (.stream (putDirectHexLoop val count started sent)) := by
  induction count generalizing started print sent with
  | zero => rw [printPlacesLoop, Option.map_some, plain.target, putDirectHexLoop]
  | succ shift induction =>
      rw [printPlacesLoop, putDirectHexLoop]
      simp only
      split
      case isTrue skipped => exact induction started plain
      case isFalse sends =>
        obtain ⟨after, printed, next⟩ := plain.putchar build
          (hexAscii (val.toNat >>> (shift * 4) &&& 0xf))
        rw [printed]
        exact induction true next

theorem putDirectHex32_eq (val : UInt32) :
    putDirectHex32 val = ['0', 'x'] ++ Nat.toDigits 16 val.toNat := by
  have plain := plain_sending ['0', 'x']
  have bound : val.toNat < 16 ^ (7 + 1) := Nat.lt_of_lt_of_le val.toNat_lt (by decide)
  have simulated := putDirectHexLoop_simulates .riscv64 val 8 false plain
  have digits := plain.putChars_target .riscv64 (Nat.toDigits 16 val.toNat)
  have printed : printPlacesLoop .riscv64 4 0xf hexAscii val.toNat 8 false
        (sending ['0', 'x']) =
      putChars .riscv64 (sending ['0', 'x'])
        ((significant (places 16 (7 + 1) val.toNat)).map Nat.digitChar) :=
    @printPlacesLoop_eq .riscv64 4 _ hexAscii_eq val.toNat 8 false _
  rw [significant_places (by decide) bound] at printed
  rw [← printed] at digits
  have same := simulated.symm.trans digits
  rw [Option.some.injEq, PrintTarget.stream.injEq] at same
  exact same

theorem printf_conversion (build : Target) (flags : List Flag)
    (conversion : IntegerConversion) (value : Nat) (noZero : Flag.zero ∉ flags) :
    ∃ count, printf build ('%' :: flags.map Flag.char ++ [conversion.char])
        [.integer 32 value] =
      some (.stream (conversion.text 32 value (.alternative ∈ flags)), count) := by
  have valid : ∀ directive ∈ [Directive.conversion
      ⟨flags, .absent, .none, .integer conversion value⟩], directive.Valid := by
    intro directive member
    rw [List.mem_singleton.mp member]
    exact ⟨trivial, trivial, fun zero => absurd zero noZero⟩
  have printed := doPrint_directives build (.stream []) valid []
  simp only [List.flatMap_singleton, List.append_nil, Directive.format,
    Conversion.format, Width.format, LengthModifier.format, Operand.char,
    Directive.arguments, Width.arguments, LengthModifier.bits, Operand.argument,
    List.nil_append, puts_stream, Directive.text, Width.value, Operand.text,
    Option.map_some] at printed
  rw [printf, printed, pad_zero]
  exact ⟨_, rfl⟩

/-- Both printers stop, without the `continue`, and send what `printf` puts for
`"%u"` and `"%#x"`. -/
theorem put_direct_eq_printf (build : Target) (val : UInt32) :
    (∃ sent count, (∀ rounds, 10 < rounds → putDirectU32 rounds val = .ok sent) ∧
      printf build ['%', 'u'] [.integer 32 val.toNat] =
        some (.stream sent, count)) ∧
    (∀ state, (DirectU32.system val).Reachable state → ¬ state.Continues) ∧
    ∃ count, printf build ['%', '#', 'x'] [.integer 32 val.toNat] =
      some (.stream (putDirectHex32 val), count) := by
  have small : val.toNat % 2 ^ 32 = val.toNat := Nat.mod_eq_of_lt val.toNat_lt
  refine ⟨?_, ?_, ?_⟩
  · obtain ⟨count, printed⟩ :=
      printf_conversion build [] .unsigned val.toNat (by simp)
    rw [IntegerConversion.text, small] at printed
    exact ⟨_, count, fun rounds enough => putDirectU32_eq val enough, printed⟩
  · intro state reachable
    obtain ⟨iterations, bounded⟩ := DirectU32.reachable_bounded reachable
    exact bounded.not_continues
  · obtain ⟨count, printed⟩ :=
      printf_conversion build [.alternative] .hexadecimal val.toNat (by simp)
    rw [IntegerConversion.text, small] at printed
    rw [putDirectHex32_eq]
    exact ⟨count, printed⟩

end Thos.Kernel
