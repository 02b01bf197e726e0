import Thos.Kernel.Timer
import Thos.VirtualMemory.Layout

namespace Thos.Kernel

open VirtualMemory (alignUp)

/-! The scratch area of each hart, and the harts that the first one starts. -/

/-- The array `hart_scratches`, placed by the linker, with the constants its
element type depends on. -/
structure HartScratches where
  target : Target
  bufferLen : Nat
  workStackSize : Nat
  workStackSize_pos : 0 < workStackSize
  hartMaximum : Nat
  startAddress : Nat

namespace HartScratches

variable (scratches : HartScratches)

/-! The fields of `struct HartScratch`. -/

def trapFrameSize : Nat := 33 * scratches.target.sizeofUintptr

def frameOffset : Nat := 0

def currentProcessOffset : Nat := frameOffset + scratches.trapFrameSize

def outputBufferOffset : Nat :=
  scratches.currentProcessOffset + scratches.target.sizeofUintptr

/-- After the count, the capacity and the array of the buffer. -/
def outputArrayOffset : Nat :=
  scratches.outputBufferOffset + 3 * scratches.target.sizeofUintptr

def interruptsBeforeLockingOffset : Nat :=
  scratches.outputArrayOffset + scratches.bufferLen

def lockDepthOffset : Nat := alignUp (scratches.interruptsBeforeLockingOffset + 1) 4

def workStackOffset : Nat := scratches.lockDepthOffset + 4

def size : Nat :=
  alignUp (scratches.workStackOffset + scratches.workStackSize)
    scratches.target.sizeofUintptr

def element (hart : Nat) : Nat := scratches.startAddress + hart * scratches.size

def endAddress : Nat := scratches.element scratches.hartMaximum

def Contains (hart address : Nat) : Prop :=
  scratches.element hart ≤ address ∧
    address < scratches.element hart + scratches.size

/-- The array lies in the address space, and not at address 0. -/
structure Placed : Prop where
  start : 0 < scratches.startAddress
  last : scratches.endAddress < 2 ^ scratches.target.pointerBits

/-- `boot`: `sscratch` and `sp` of a hart as it enters `kernel_main`. -/
def boot (hartId : BitVec scratches.target.pointerBits) :
    BitVec scratches.target.pointerBits × BitVec scratches.target.pointerBits :=
  let t0 := hartId
  let t1 := BitVec.ofNat _ scratches.size
  let t1 := t1 * t0
  let t0 := BitVec.ofNat _ scratches.startAddress
  let sp := t0 + t1
  let sscratch := sp
  let sp := sp + BitVec.ofNat _ scratches.workStackOffset
  let t0 := BitVec.ofNat _ scratches.workStackSize
  let sp := sp + t0
  (sscratch, sp)

def myHartId (sscratch : BitVec scratches.target.pointerBits) :
    BitVec scratches.target.pointerBits :=
  (sscratch - BitVec.ofNat _ scratches.startAddress) /
    BitVec.ofNat _ scratches.size

theorem workStack_le_size :
    scratches.workStackOffset + scratches.workStackSize ≤ scratches.size :=
  VirtualMemory.alignUp_ge _ scratches.target.sizeof_pos

theorem currentProcess_lt_workStack :
    scratches.currentProcessOffset + scratches.target.sizeofUintptr ≤
      scratches.workStackOffset := by
  have aligned := VirtualMemory.alignUp_ge
    (scratches.interruptsBeforeLockingOffset + 1) (show 0 < 4 by decide)
  simp only [workStackOffset, lockDepthOffset, interruptsBeforeLockingOffset,
    outputArrayOffset, outputBufferOffset] at *
  omega

theorem size_pos : 0 < scratches.size := by
  have stack := scratches.workStack_le_size
  have positive : 0 < scratches.workStackOffset := by
    rw [workStackOffset]
    omega
  omega

theorem element_le {first second : Nat} (order : first ≤ second) :
    scratches.element first ≤ scratches.element second :=
  Nat.add_le_add_left (Nat.mul_le_mul_right _ order) _

theorem element_add_size (hart : Nat) :
    scratches.element hart + scratches.size = scratches.element (hart + 1) := by
  rw [element, element, Nat.succ_mul, Nat.add_assoc]

section

variable {scratches} (placed : scratches.Placed)

include placed

theorem Placed.element_lt {hart : Nat} (bound : hart ≤ scratches.hartMaximum) :
    scratches.element hart < 2 ^ scratches.target.pointerBits :=
  Nat.lt_of_le_of_lt (scratches.element_le bound) placed.last

theorem Placed.boot_sscratch {hart : Nat} (bound : hart ≤ scratches.hartMaximum) :
    (scratches.boot (BitVec.ofNat _ hart)).1.toNat = scratches.element hart := by
  have address : (scratches.boot (BitVec.ofNat _ hart)).1 =
      BitVec.ofNat _ (scratches.startAddress + scratches.size * hart) := by
    rw [BitVec.ofNat_add, BitVec.ofNat_mul]
    rfl
  rw [address, Nat.mul_comm]
  exact Nat.mod_eq_of_lt (placed.element_lt bound)

theorem Placed.size_lt (some : 0 < scratches.hartMaximum) :
    scratches.size < 2 ^ scratches.target.pointerBits := by
  have one := placed.element_lt some
  rw [element, Nat.one_mul] at one
  omega

theorem Placed.myHartId_boot {hart : Nat} (some : 0 < scratches.hartMaximum)
    (bound : hart ≤ scratches.hartMaximum) :
    (scratches.myHartId (scratches.boot (BitVec.ofNat _ hart)).1).toNat = hart := by
  have positive := scratches.size_pos
  have last := placed.element_lt bound
  have offset : ((scratches.boot (BitVec.ofNat _ hart)).1 -
      BitVec.ofNat _ scratches.startAddress).toNat = hart * scratches.size := by
    rw [element] at last
    rw [BitVec.toNat_sub, placed.boot_sscratch bound, BitVec.toNat_ofNat,
      Nat.mod_eq_of_lt (a := scratches.startAddress) (by omega), element,
      show 2 ^ scratches.target.pointerBits - scratches.startAddress +
          (scratches.startAddress + hart * scratches.size) =
        hart * scratches.size + 2 ^ scratches.target.pointerBits by omega,
      Nat.add_mod_right]
    exact Nat.mod_eq_of_lt (by omega)
  rw [myHartId, BitVec.toNat_udiv, offset, BitVec.toNat_ofNat,
    Nat.mod_eq_of_lt (placed.size_lt some), Nat.mul_div_cancel _ positive]

end

end HartScratches

/-! `primary_main`. -/

/-- The loop that wakes the other harts, from `hartToWake` on: the hart ids it
passes to `sbi_hart_start`. -/
def wakeLoop (board : Board) (hartMaximum hartId hartToWake : Nat) : List Nat :=
  if hartToWake ≤ board.numNormalHarts ∧ hartToWake ≤ hartMaximum then
    if hartToWake = hartId then
      wakeLoop board hartMaximum hartId (hartToWake + 1)
    else hartToWake :: wakeLoop board hartMaximum hartId (hartToWake + 1)
  else []
termination_by hartMaximum + 1 - hartToWake

def startedHarts (board : Board) (hartMaximum hartId : Nat) : List Nat :=
  wakeLoop board hartMaximum hartId board.numMonitorHarts

theorem wakeLoop_eq (board : Board) (hartMaximum hartId hartToWake : Nat) :
    wakeLoop board hartMaximum hartId hartToWake =
      (List.range' hartToWake
        (min board.numNormalHarts hartMaximum + 1 - hartToWake)).filter
          (fun hart => hart ≠ hartId) := by
  fun_induction wakeLoop board hartMaximum hartId hartToWake with
  | case1 inside induction =>
      rw [induction, show min board.numNormalHarts hartMaximum + 1 - hartId =
        min board.numNormalHarts hartMaximum + 1 - (hartId + 1) + 1 by omega,
        List.range'_succ, List.filter_cons_of_neg (by simp)]
  | case2 hartToWake inside other induction =>
      rw [induction, show min board.numNormalHarts hartMaximum + 1 - hartToWake =
        min board.numNormalHarts hartMaximum + 1 - (hartToWake + 1) + 1 by omega,
        List.range'_succ, List.filter_cons_of_pos (by simp [other])]
  | case3 hartToWake outside =>
      rw [show min board.numNormalHarts hartMaximum + 1 - hartToWake = 0 by omega]
      rfl

theorem mem_startedHarts {board : Board} {hartMaximum hartId hart : Nat} :
    hart ∈ startedHarts board hartMaximum hartId ↔
      (board.numMonitorHarts ≤ hart ∧ hart ≤ board.numNormalHarts ∧
        hart ≤ hartMaximum) ∧ hart ≠ hartId := by
  rw [startedHarts, wakeLoop_eq, List.mem_filter, List.mem_range'_1,
    decide_eq_true_iff]
  omega

theorem nodup_startedHarts (board : Board) (hartMaximum hartId : Nat) :
    (startedHarts board hartMaximum hartId).Nodup := by
  rw [startedHarts, wakeLoop_eq]
  exact (List.nodup_range').filter _

/-- What the harts of a board need of the loop: it starts harts that have an
element of `hart_scratches`, each once and not its own, and every hart for
applications that has one. -/
structure HartsStarted (board : Board) (hartMaximum hartId : Nat) : Prop where
  inRange : ∀ hart ∈ startedHarts board hartMaximum hartId, hart < hartMaximum
  notOwn : hartId ∉ startedHarts board hartMaximum hartId
  once : (startedHarts board hartMaximum hartId).Nodup
  all : ∀ hart, board.numMonitorHarts ≤ hart →
    hart < board.numMonitorHarts + board.numNormalHarts → hart < hartMaximum →
      hart ≠ hartId → hart ∈ startedHarts board hartMaximum hartId

/-- What `boot` gives to the started harts: elements of the array, apart from
each other and from the first hart's, which name their harts. -/
structure ScratchesOwned (scratches : HartScratches) (board : Board)
    (hartId : Nat) : Prop where
  element : ∀ hart ∈ startedHarts board scratches.hartMaximum hartId,
    ∃ index < scratches.hartMaximum,
      (scratches.boot (BitVec.ofNat _ hart)).1.toNat = scratches.element index
  disjoint : ∀ first ∈ hartId :: startedHarts board scratches.hartMaximum hartId,
    ∀ second ∈ hartId :: startedHarts board scratches.hartMaximum hartId,
      first ≠ second →
        (scratches.boot (BitVec.ofNat _ first)).1.toNat + scratches.size ≤
            (scratches.boot (BitVec.ofNat _ second)).1.toNat ∨
          (scratches.boot (BitVec.ofNat _ second)).1.toNat + scratches.size ≤
            (scratches.boot (BitVec.ofNat _ first)).1.toNat
  named : ∀ hart ∈ startedHarts board scratches.hartMaximum hartId,
    (scratches.myHartId (scratches.boot (BitVec.ofNat _ hart)).1).toNat = hart

/-- The bounds of the loop fit a board: the number of normal harts, taken for
the highest hart id, does not reach past the array, and no hart but the first
one has an id above it. -/
structure WakeBounds (board : Board) (hartMaximum hartId : Nat) : Prop where
  array : hartMaximum < board.numMonitorHarts ∨ board.numNormalHarts < hartMaximum
  board : board.numMonitorHarts ≤ 1 ∨ board.numNormalHarts = 0 ∨
    hartMaximum ≤ max board.numMonitorHarts (board.numNormalHarts + 1) ∨
    (hartId = max board.numMonitorHarts (board.numNormalHarts + 1) ∧
      min (board.numMonitorHarts + board.numNormalHarts) hartMaximum =
        hartId + 1)

theorem HartScratches.element_disjoint (scratches : HartScratches)
    {first second : Nat} (different : first ≠ second) :
    scratches.element first + scratches.size ≤ scratches.element second ∨
      scratches.element second + scratches.size ≤ scratches.element first := by
  rw [scratches.element_add_size, scratches.element_add_size]
  rcases Nat.lt_or_gt_of_ne different with less | greater
  · exact .inl (scratches.element_le less)
  · exact .inr (scratches.element_le greater)

theorem HartScratches.Placed.scratchesOwned {scratches : HartScratches}
    (placed : scratches.Placed) {board : Board} {hartId : Nat}
    (own : hartId < scratches.hartMaximum)
    (inRange : ∀ hart ∈ startedHarts board scratches.hartMaximum hartId,
      hart < scratches.hartMaximum) : ScratchesOwned scratches board hartId where
  element := by
    intro hart started
    have bound := inRange hart started
    exact ⟨hart, bound, placed.boot_sscratch (Nat.le_of_lt bound)⟩
  disjoint := by
    have bound : ∀ hart ∈ hartId :: startedHarts board scratches.hartMaximum hartId,
        hart ≤ scratches.hartMaximum :=
      List.forall_mem_cons.mpr ⟨Nat.le_of_lt own, fun hart started =>
        Nat.le_of_lt (inRange hart started)⟩
    intro first firstStarted second secondStarted different
    rw [placed.boot_sscratch (bound first firstStarted),
      placed.boot_sscratch (bound second secondStarted)]
    exact scratches.element_disjoint different
  named := by
    intro hart started
    exact placed.myHartId_boot (by omega) (Nat.le_of_lt (inRange hart started))

theorem HartsStarted.wakeBounds {board : Board} {hartMaximum hartId : Nat}
    (own : hartId < hartMaximum) (started : HartsStarted board hartMaximum hartId) :
    WakeBounds board hartMaximum hartId where
  array := by
    have last := started.inRange hartMaximum
    rw [mem_startedHarts] at last
    omega
  board := by
    have first := started.all
      (max board.numMonitorHarts (board.numNormalHarts + 1))
    have next := started.all
      (max board.numMonitorHarts (board.numNormalHarts + 1) + 1)
    rw [mem_startedHarts] at first next
    omega

theorem WakeBounds.hartsStarted {board : Board} {hartMaximum hartId : Nat}
    (own : hartId < hartMaximum) (bounds : WakeBounds board hartMaximum hartId) :
    HartsStarted board hartMaximum hartId where
  inRange := by
    intro hart started
    have array := bounds.array
    rw [mem_startedHarts] at started
    omega
  notOwn := by
    rw [mem_startedHarts]
    exact fun started => started.2 rfl
  once := nodup_startedHarts ..
  all := by
    intro hart low high inArray different
    have array := bounds.array
    have last := bounds.board
    rw [mem_startedHarts]
    omega

/-- For every board, array and first hart: the harts started are right and own
their scratch areas exactly when the bounds of the loop fit the board. -/
theorem started_harts_own_scratches_iff {scratches : HartScratches}
    (placed : scratches.Placed) (board : Board) {hartId : Nat}
    (own : hartId < scratches.hartMaximum) :
    (HartsStarted board scratches.hartMaximum hartId ∧
      ScratchesOwned scratches board hartId) ↔
      WakeBounds board scratches.hartMaximum hartId := by
  constructor
  · intro right
    exact right.1.wakeBounds own
  · intro bounds
    have started := bounds.hartsStarted own
    exact ⟨started, placed.scratchesOwned own started.inRange⟩

def HartScratches.sample (hartMaximum : Nat) : HartScratches where
  target := .riscv64
  bufferLen := 256
  workStackSize := 2048
  workStackSize_pos := by decide
  hartMaximum := hartMaximum
  startAddress := 0x80210000

theorem HartScratches.sample_placed {hartMaximum : Nat} (few : hartMaximum ≤ 512) :
    (sample hartMaximum).Placed where
  start := show 0 < 0x80210000 by decide
  last := by
    have same : (sample hartMaximum).size = (sample 0).size := rfl
    have size : (sample 0).size = 2608 := by decide
    rw [endAddress, element, same, size]
    simp only [sample, Target.pointerBits]
    omega

theorem started_harts_own_scratches_iff_sample :
    (HartsStarted boardVirt 32 0 ∧
      ScratchesOwned (HartScratches.sample 32) boardVirt 0) ↔
      WakeBounds boardVirt 32 0 :=
  started_harts_own_scratches_iff (HartScratches.sample_placed (by decide))
    boardVirt (by decide)

/-- Under the default flags hart 9 of `virt` is started and gets the bytes after
the array. -/
theorem boardVirt_starts_past_array :
    9 ∈ startedHarts boardVirt 9 0 ∧
      ((HartScratches.sample 9).boot 9).1.toNat =
        (HartScratches.sample 9).endAddress ∧
      ¬ HartsStarted boardVirt 9 0 ∧
      ¬ ScratchesOwned (HartScratches.sample 9) boardVirt 0 := by
  have started : 9 ∈ startedHarts boardVirt 9 0 :=
    mem_startedHarts.mpr (by decide)
  have address : ((HartScratches.sample 9).boot 9).1.toNat =
      (HartScratches.sample 9).endAddress :=
    (HartScratches.sample_placed (by decide)).boot_sscratch (Nat.le_refl 9)
  refine ⟨started, address, ?_, ?_⟩
  · intro right
    exact absurd (right.inRange 9 started) (by decide)
  · intro owned
    obtain ⟨index, bound, element⟩ := owned.element 9 started
    have last := (HartScratches.sample 9).element_le
      (show index + 1 ≤ (HartScratches.sample 9).hartMaximum from bound)
    have size := (HartScratches.sample 9).size_pos
    rw [← HartScratches.element_add_size] at last
    change _ ≤ (HartScratches.sample 9).endAddress at last
    rw [← address] at last
    have same : ((HartScratches.sample 9).boot 9).1.toNat =
      (HartScratches.sample 9).element index := element
    omega

end Thos.Kernel
