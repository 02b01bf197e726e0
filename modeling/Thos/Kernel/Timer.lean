import Thos.Common.BuildInfo

namespace Thos.Kernel

/-! The time counter, and the deadline that `set_timer` programs. -/

structure Board where
  numMonitorHarts : Nat
  numNormalHarts : Nat
  csrStimecmp : Bool := false
  csrTime : Bool := false
  deriving DecidableEq, Repr

def boardVirt : Board where
  numMonitorHarts := 0
  numNormalHarts := 16
  csrStimecmp := true
  csrTime := true

def boardSifiveU : Board where
  numMonitorHarts := 1
  numNormalHarts := 4

/-- Where deadlines are programmed: `stimecmp`, or the timer of the SBI. -/
structure Timer where
  stimecmp : BitVec 64
  sbiTimer : BitVec 64
  deriving DecidableEq, Repr

namespace Timer

/-- `csr_read_time` and `rdtime` when the counter is at `now`: a whole register,
so the low word on riscv32. -/
def csrReadTime (target : Target) (now : BitVec 64) : BitVec target.pointerBits :=
  now.setWidth target.pointerBits

def rdtime (target : Target) (now : BitVec 64) : BitVec target.pointerBits :=
  csrReadTime target now

def csrReadTimeh (now : BitVec 64) : BitVec 32 := (now >>> 32).setWidth 32

def rdtimeh (now : BitVec 64) : BitVec 32 := csrReadTimeh now

/-- `read_time`: the counter is at `first` for the read of `time` and at
`second` for that of `timeh`. -/
def readTime (target : Target) (board : Board) (first second : BitVec 64) :
    BitVec 64 :=
  match target with
  | .riscv64 =>
      if board.csrTime then csrReadTime .riscv64 first else rdtime .riscv64 first
  | .riscv32 =>
      let (low, high) :=
        if board.csrTime then (csrReadTime .riscv32 first, csrReadTimeh second)
        else (rdtime .riscv32 first, rdtimeh second)
      (high.setWidth 64 <<< 32) ||| low.setWidth 64

/-- On riscv32 `stimecmp` is the low word of the comparator. -/
def csrWriteStimecmp (target : Target) (timer : Timer)
    (value : BitVec target.pointerBits) : Timer :=
  match target with
  | .riscv64 => { timer with stimecmp := value.setWidth 64 }
  | .riscv32 => { timer with
      stimecmp := (timer.stimecmp >>> 32).setWidth 32 ++ value.setWidth 32 }

def csrWriteStimecmph (timer : Timer) (value : BitVec 32) : Timer :=
  { timer with stimecmp := value ++ timer.stimecmp.setWidth 32 }

/-- The firmware puts the argument registers of the call together, the low one
first. -/
def sbiSetTimer (target : Target) (timer : Timer) (time : BitVec 64) : Timer :=
  match target with
  | .riscv64 => { timer with sbiTimer := time }
  | .riscv32 => { timer with
      sbiTimer := ((time >>> 32) &&& 0xffffffff).setWidth 32 ++
        time.setWidth 32 }

def writeTime (target : Target) (board : Board) (timer : Timer)
    (time : BitVec 64) : Timer :=
  if board.csrStimecmp then
    match target with
    | .riscv64 => csrWriteStimecmp .riscv64 timer time
    | .riscv32 =>
        (csrWriteStimecmp .riscv32 timer
          ((time &&& 0xffffffff).setWidth 32)).csrWriteStimecmph
            (((time >>> 32) &&& 0xffffffff).setWidth 32)
  else sbiSetTimer target timer time

def setTimer (target : Target) (board : Board) (timer : Timer)
    (first second delay : BitVec 64) : Timer :=
  writeTime target board timer (readTime target board first second + delay)

def deadline (timer : Timer) (board : Board) : BitVec 64 :=
  if board.csrStimecmp then timer.stimecmp else timer.sbiTimer

theorem setWidth_mask (value : BitVec 64) :
    (value &&& 0xffffffff).setWidth 32 = value.setWidth 32 := by
  have ones : (0xffffffff : BitVec 64).setWidth 32 = BitVec.allOnes 32 := rfl
  rw [BitVec.setWidth_and, ones, BitVec.and_allOnes]

theorem words_append (value : BitVec 64) :
    ((value >>> 32).setWidth 32 ++ value.setWidth 32 : BitVec 64) = value := by
  ext index bound
  rw [BitVec.getElem_append]
  split
  case isTrue low => simp [BitVec.getLsbD_eq_getElem bound]
  case isFalse high =>
    have position : 32 + (index - 32) = index := by omega
    simp [position, BitVec.getLsbD_eq_getElem bound]

/-- Both words of a deadline are written, on either target. -/
theorem deadline_writeTime (target : Target) (board : Board) (timer : Timer)
    (time : BitVec 64) :
    (writeTime target board timer time).deadline board = time := by
  cases target with
  | riscv64 =>
      cases direct : board.csrStimecmp <;>
        simp [writeTime, deadline, direct, csrWriteStimecmp, sbiSetTimer,
          Target.pointerBits]
  | riscv32 =>
      cases direct : board.csrStimecmp with
      | false =>
          simp only [writeTime, deadline, direct, sbiSetTimer, setWidth_mask,
            words_append, Bool.false_eq_true, if_false]
      | true =>
          simp only [writeTime, deadline, direct, csrWriteStimecmp,
            csrWriteStimecmph, setWidth_mask, if_true]
          rw [BitVec.setWidth_append_eq_right]
          exact words_append time

theorem readTime_riscv64 (board : Board) (first second : BitVec 64) :
    readTime .riscv64 board first second = first := by
  cases direct : board.csrTime <;>
    simp [readTime, csrReadTime, rdtime, Target.pointerBits, direct]

theorem readTime_riscv32 (board : Board) (first second : BitVec 64) :
    (readTime .riscv32 board first second).toNat =
      second.toNat / 2 ^ 32 * 2 ^ 32 + first.toNat % 2 ^ 32 := by
  have assembled : readTime .riscv32 board first second =
      (((second >>> 32).setWidth 32).setWidth 64 <<< 32) |||
        (first.setWidth 32).setWidth 64 := by
    cases direct : board.csrTime <;>
      simp only [readTime, csrReadTime, rdtime, csrReadTimeh, rdtimeh,
        Target.pointerBits, direct] <;> rfl
  have high : (((second >>> 32).setWidth 32).setWidth 64 <<< 32).toNat =
      (second.toNat / 2 ^ 32) <<< 32 := by
    have bound := second.isLt
    simp only [BitVec.toNat_shiftLeft, BitVec.toNat_setWidth,
      BitVec.toNat_ushiftRight, Nat.shiftRight_eq_div_pow, Nat.shiftLeft_eq]
    omega
  have low : ((first.setWidth 32).setWidth 64).toNat = first.toNat % 2 ^ 32 := by
    simp only [BitVec.toNat_setWidth]
    omega
  rw [assembled, BitVec.toNat_or, high, low,
    ← Nat.shiftLeft_add_eq_or_of_lt (Nat.mod_lt _ (by decide)), Nat.shiftLeft_eq]

/-- The counter has been at `value` between the two reads. -/
def InWindow (first second value : BitVec 64) : Prop :=
  first ≤ value ∧ value ≤ second

/-- A carry into the high word between the two reads puts the time one period
of the low word too late. -/
theorem readTime_of_carry (board : Board) {first second : BitVec 64}
    (order : first ≤ second) (short : second.toNat - first.toNat < 2 ^ 32)
    (carry : second >>> 32 ≠ first >>> 32) :
    (readTime .riscv32 board first second).toNat = first.toNat + 2 ^ 32 := by
  have different : second.toNat / 2 ^ 32 ≠ first.toNat / 2 ^ 32 := by
    intro same
    apply carry
    apply BitVec.eq_of_toNat_eq
    rw [BitVec.toNat_ushiftRight, BitVec.toNat_ushiftRight,
      Nat.shiftRight_eq_div_pow, Nat.shiftRight_eq_div_pow, same]
  rw [BitVec.le_def] at order
  rw [readTime_riscv32]
  omega

theorem readTime_of_same_word (board : Board) {first second : BitVec 64}
    (same : second >>> 32 = first >>> 32) :
    readTime .riscv32 board first second = first := by
  have words := congrArg BitVec.toNat same
  rw [BitVec.toNat_ushiftRight, BitVec.toNat_ushiftRight,
    Nat.shiftRight_eq_div_pow, Nat.shiftRight_eq_div_pow] at words
  apply BitVec.eq_of_toNat_eq
  rw [readTime_riscv32]
  omega

/-- The time read on riscv32 lies in the window of the two reads, and every
deadline in the window moved by its delay, exactly when the low word does not
overflow between the reads. -/
theorem readTime_inWindow_iff (board : Board) {first second : BitVec 64}
    (order : first ≤ second) (short : second.toNat - first.toNat < 2 ^ 32) :
    (InWindow first second (readTime .riscv32 board first second) ∧
      ∀ (timer : Timer) (delay : BitVec 64), ∃ now, InWindow first second now ∧
        (setTimer .riscv32 board timer first second delay).deadline board =
          now + delay) ↔
      second >>> 32 = first >>> 32 := by
  constructor
  · intro inside
    apply Classical.byContradiction
    intro carry
    have late := readTime_of_carry board order short carry
    have last := inside.1.2
    rw [BitVec.le_def, late] at last
    omega
  · intro same
    have unchanged := readTime_of_same_word board same
    rw [unchanged]
    refine ⟨⟨BitVec.le_refl first, order⟩, ?_⟩
    intro timer delay
    refine ⟨first, ⟨BitVec.le_refl first, order⟩, ?_⟩
    rw [setTimer, deadline_writeTime, unchanged]

theorem readTime_inWindow_iff_sample :
    (InWindow 0xfffffffe 0xffffffff
        (readTime .riscv32 boardSifiveU 0xfffffffe 0xffffffff) ∧
      ∀ (timer : Timer) (delay : BitVec 64), ∃ now,
        InWindow 0xfffffffe 0xffffffff now ∧
          (setTimer .riscv32 boardSifiveU timer 0xfffffffe 0xffffffff
            delay).deadline boardSifiveU = now + delay) ↔
      (0xffffffff : BitVec 64) >>> 32 = (0xfffffffe : BitVec 64) >>> 32 :=
  readTime_inWindow_iff boardSifiveU (by decide) (by decide)

/-- One tick between the reads, and a deadline more than `2 ^ 32` ticks late. -/
theorem readTime_across_rollover :
    readTime .riscv32 boardVirt 0xffffffff 0x100000000 = 0x1ffffffff ∧
      ¬ InWindow 0xffffffff 0x100000000
        (readTime .riscv32 boardVirt 0xffffffff 0x100000000) ∧
      (setTimer .riscv32 boardVirt ⟨0, 0⟩ 0xffffffff 0x100000000
        10000).deadline boardVirt = 0x20000270f ∧
      ¬ ∃ now, InWindow 0xffffffff 0x100000000 now ∧
        (setTimer .riscv32 boardVirt ⟨0, 0⟩ 0xffffffff 0x100000000
          10000).deadline boardVirt = now + 10000 := by
  have read : readTime .riscv32 boardVirt 0xffffffff 0x100000000 = 0x1ffffffff := by
    decide
  have set : (setTimer .riscv32 boardVirt ⟨0, 0⟩ 0xffffffff 0x100000000
      10000).deadline boardVirt = 0x20000270f := by
    rw [setTimer, deadline_writeTime, read]
    rfl
  refine ⟨read, ?_, set, ?_⟩
  · rw [read]
    intro inside
    exact absurd inside.2 (by decide)
  · rw [set]
    intro inside
    obtain ⟨now, ⟨_, last⟩, late⟩ := inside
    bv_omega

end Timer

end Thos.Kernel
