import Mathlib.Logic.Function.Basic
import Thos.Common.Bits
import Thos.VirtualMemory.KernelTable

namespace Thos.Device

open Thos.Kernel
open VirtualMemory (sifivePlicLen)

/-! The SiFive interrupt controller. -/

structure Plic where
  target : Target
  address : Nat
  numMonitorHarts : Nat
  deriving DecidableEq, Repr

namespace Plic

def priorityOffset : Nat := 0x0

def interruptEnableOffset : Nat := 0x2000

def interruptEnableBlockSize : Nat := 0x80

def thresholdClaimCompleteOffset : Nat := 0x200000

def thresholdClaimCompleteBlockSize : Nat := 0x1000

/-- The registers that the driver uses; a word of the enable block holds 32
interrupts. -/
inductive Register where
  | priority (interrupt : Nat)
  | interruptEnable (normalHartNumber word : Nat)
  | threshold (normalHartNumber : Nat)
  | claimComplete (normalHartNumber : Nat)
  deriving DecidableEq, Repr

abbrev Words := Nat → BitVec 32

variable (plic : Plic)

def normalHartSModeBlockIndex (normalHartNumber : Nat) : Nat :=
  plic.target.uintptr (plic.numMonitorHarts +
    plic.target.uintptr
      (plic.target.sizeT ((normalHartNumber : Int) - plic.numMonitorHarts) * 2) + 1)

def interruptEnableBlock (normalHartNumber : Nat) : Nat :=
  plic.target.uintptr (plic.address + interruptEnableOffset +
    plic.target.uintptr (plic.normalHartSModeBlockIndex normalHartNumber *
      interruptEnableBlockSize))

def thresholdClaimCompleteBlock (normalHartNumber : Nat) : Nat :=
  plic.target.uintptr (plic.address + thresholdClaimCompleteOffset +
    plic.target.uintptr (plic.normalHartSModeBlockIndex normalHartNumber *
      thresholdClaimCompleteBlockSize))

def pointer : Register → Nat
  | .priority interrupt =>
      plic.target.uintptr (plic.address + priorityOffset + 4 * interrupt)
  | .interruptEnable normalHartNumber word =>
      plic.target.uintptr (plic.interruptEnableBlock normalHartNumber + 4 * word)
  | .threshold normalHartNumber => plic.thresholdClaimCompleteBlock normalHartNumber
  | .claimComplete normalHartNumber =>
      plic.target.uintptr (plic.thresholdClaimCompleteBlock normalHartNumber + 4)

/-- `GET_BOARD_DEVICE`. -/
def checkValidDevice (device : Nat) : Outcome Unit :=
  if device = 0 then
    .error (.panic "board panic: %s is not set for current board (%s)\n")
  else .ok ()

def enableSmodeInterrupt (words : Words) (normalHartNumber interrupt : Nat) :
    Outcome Words := do
  checkValidDevice plic.address
  let (word, interrupt) := if 32 ≤ interrupt then (1, interrupt - 32) else (0, interrupt)
  let pointer := plic.pointer (.interruptEnable normalHartNumber word)
  return Function.update words pointer
    (atomicOrMemoryWord (words pointer) (bitToInt interrupt)).2

def setSmodeThreshold (words : Words) (normalHartNumber : Nat) (threshold : UInt8) :
    Outcome Words := do
  checkValidDevice plic.address
  return Function.update words (plic.pointer (.threshold normalHartNumber))
    (BitVec.ofNat 32 (threshold &&& (0x7 : UInt8)).toNat)

def setPriority (words : Words) (interrupt : Nat) (priority : UInt8) :
    Outcome Words := do
  checkValidDevice plic.address
  return Function.update words (plic.pointer (.priority interrupt))
    (BitVec.ofNat 32 (priority &&& (0x7 : UInt8)).toNat)

/-! The register map. -/

/-- The block index of a normal hart: past the monitor harts' blocks, two blocks
for each normal hart before it, and its own machine-mode block. -/
def blockIndex (normalHartNumber : Nat) : Nat :=
  2 * normalHartNumber + 1 - plic.numMonitorHarts

/-- The registers of the device: one of a normal hart, with a block below the
next section of the map. -/
def Has : Register → Prop
  | .priority interrupt => 4 * interrupt < interruptEnableOffset
  | .interruptEnable normalHartNumber word =>
      plic.numMonitorHarts ≤ normalHartNumber ∧ word < 2 ∧
        interruptEnableOffset +
          (plic.blockIndex normalHartNumber + 1) * interruptEnableBlockSize ≤
            thresholdClaimCompleteOffset
  | .threshold normalHartNumber | .claimComplete normalHartNumber =>
      plic.numMonitorHarts ≤ normalHartNumber ∧
        thresholdClaimCompleteOffset +
          (plic.blockIndex normalHartNumber + 1) * thresholdClaimCompleteBlockSize ≤
            sifivePlicLen

def offset : Register → Nat
  | .priority interrupt => 4 * interrupt
  | .interruptEnable normalHartNumber word => interruptEnableOffset +
      plic.blockIndex normalHartNumber * interruptEnableBlockSize + 4 * word
  | .threshold normalHartNumber => thresholdClaimCompleteOffset +
      plic.blockIndex normalHartNumber * thresholdClaimCompleteBlockSize
  | .claimComplete normalHartNumber => thresholdClaimCompleteOffset +
      plic.blockIndex normalHartNumber * thresholdClaimCompleteBlockSize + 4

/-- The board has the device, and the range of the device is in the address
space. -/
structure Placed : Prop where
  present : plic.address ≠ 0
  span : plic.address + sifivePlicLen < 2 ^ plic.target.pointerBits

section

variable {plic}

theorem blockIndex_eq {normalHartNumber : Nat}
    (normal : plic.numMonitorHarts ≤ normalHartNumber)
    (small : plic.blockIndex normalHartNumber < 2 ^ plic.target.pointerBits) :
    plic.normalHartSModeBlockIndex normalHartNumber =
      plic.blockIndex normalHartNumber := by
  rw [blockIndex] at small ⊢
  have past : ((normalHartNumber : Int) - plic.numMonitorHarts) =
      ((normalHartNumber - plic.numMonitorHarts : Nat) : Int) :=
    (Int.ofNat_sub normal).symm
  have fits : normalHartNumber - plic.numMonitorHarts <
      2 ^ plic.target.pointerBits := by omega
  have doubled : (normalHartNumber - plic.numMonitorHarts) * 2 <
      2 ^ plic.target.pointerBits := by omega
  rw [normalHartSModeBlockIndex, past, Target.sizeT_of_lt fits,
    Target.uintptr_of_lt doubled, Target.uintptr_of_lt (by omega)]
  omega

theorem Placed.interruptEnableBlock_eq (placed : plic.Placed)
    {normalHartNumber : Nat} (normal : plic.numMonitorHarts ≤ normalHartNumber)
    (below : interruptEnableOffset +
      (plic.blockIndex normalHartNumber + 1) * interruptEnableBlockSize ≤
        thresholdClaimCompleteOffset) :
    plic.interruptEnableBlock normalHartNumber = plic.address +
      (interruptEnableOffset +
        plic.blockIndex normalHartNumber * interruptEnableBlockSize) := by
  have span := placed.span
  simp only [sifivePlicLen, interruptEnableOffset, interruptEnableBlockSize,
    thresholdClaimCompleteOffset] at *
  rw [interruptEnableBlock, blockIndex_eq normal (by omega), interruptEnableOffset,
    interruptEnableBlockSize,
    @Target.uintptr_of_lt _ (plic.blockIndex normalHartNumber * _) (by omega),
    Target.uintptr_of_lt (by omega), Nat.add_assoc]

theorem Placed.thresholdClaimCompleteBlock_eq (placed : plic.Placed)
    {normalHartNumber : Nat} (normal : plic.numMonitorHarts ≤ normalHartNumber)
    (below : thresholdClaimCompleteOffset +
      (plic.blockIndex normalHartNumber + 1) * thresholdClaimCompleteBlockSize ≤
        sifivePlicLen) :
    plic.thresholdClaimCompleteBlock normalHartNumber = plic.address +
      (thresholdClaimCompleteOffset +
        plic.blockIndex normalHartNumber * thresholdClaimCompleteBlockSize) := by
  have span := placed.span
  simp only [sifivePlicLen, thresholdClaimCompleteOffset,
    thresholdClaimCompleteBlockSize] at *
  rw [thresholdClaimCompleteBlock, blockIndex_eq normal (by omega),
    thresholdClaimCompleteOffset, thresholdClaimCompleteBlockSize,
    @Target.uintptr_of_lt _ (plic.blockIndex normalHartNumber * _) (by omega),
    Target.uintptr_of_lt (by omega), Nat.add_assoc]

theorem Has.offset_lt {register : Register} (has : plic.Has register) :
    plic.offset register + 4 ≤ sifivePlicLen ∧ 4 ∣ plic.offset register := by
  cases register with
  | priority | interruptEnable | threshold | claimComplete =>
      simp only [Has, offset, sifivePlicLen, interruptEnableOffset,
        interruptEnableBlockSize, thresholdClaimCompleteOffset,
        thresholdClaimCompleteBlockSize] at *
      omega

theorem Placed.pointer_eq (placed : plic.Placed) {register : Register}
    (has : plic.Has register) :
    plic.pointer register = plic.address + plic.offset register := by
  have span := placed.span
  have last := has.offset_lt.1
  cases register with
  | priority interrupt =>
      exact Target.uintptr_of_lt (by simp only [offset, priorityOffset] at *; omega)
  | interruptEnable normalHartNumber word =>
      rw [offset] at last ⊢
      rw [pointer, placed.interruptEnableBlock_eq has.1 has.2.2,
        Target.uintptr_of_lt (by omega), Nat.add_assoc]
  | threshold normalHartNumber =>
      exact placed.thresholdClaimCompleteBlock_eq has.1 has.2
  | claimComplete normalHartNumber =>
      rw [offset] at last ⊢
      rw [pointer, placed.thresholdClaimCompleteBlock_eq has.1 has.2,
        Target.uintptr_of_lt (by omega), Nat.add_assoc]

theorem Placed.pointer_range (placed : plic.Placed) {register : Register}
    (has : plic.Has register) : plic.address ≤ plic.pointer register ∧
      plic.pointer register + 4 ≤ plic.address + sifivePlicLen := by
  have last := has.offset_lt.1
  rw [placed.pointer_eq has]
  omega

theorem Has.offset_injective {first second : Register} (hasFirst : plic.Has first)
    (hasSecond : plic.Has second) (same : plic.offset first = plic.offset second) :
    first = second := by
  cases first <;> cases second <;>
  · simp only [Has, offset, blockIndex, sifivePlicLen, interruptEnableOffset,
      interruptEnableBlockSize, thresholdClaimCompleteOffset,
      thresholdClaimCompleteBlockSize, Register.priority.injEq,
      Register.interruptEnable.injEq, Register.threshold.injEq,
      Register.claimComplete.injEq, reduceCtorEq] at *
    omega

/-- The register map, for every board: each register is a whole word of the range
that the kernel maps for the device, and no two registers share a word. -/
theorem registers_apart (placed : plic.Placed) {first second : Register}
    (hasFirst : plic.Has first) (hasSecond : plic.Has second) :
    plic.address ≤ plic.pointer first ∧
      plic.pointer first + 4 ≤ plic.address + sifivePlicLen ∧
        (first ≠ second → plic.pointer first + 4 ≤ plic.pointer second ∨
          plic.pointer second + 4 ≤ plic.pointer first) := by
  obtain ⟨lower, upper⟩ := placed.pointer_range hasFirst
  refine ⟨lower, upper, fun different => ?_⟩
  have aligned := hasFirst.offset_lt.2
  have alignedSecond := hasSecond.offset_lt.2
  rw [placed.pointer_eq hasFirst, placed.pointer_eq hasSecond]
  have apart : plic.offset first ≠ plic.offset second :=
    fun same => different (hasFirst.offset_injective hasSecond same)
  omega

theorem registers_apart_sample :
    let plic : Plic := { target := .riscv64, address := 0x0C000000, numMonitorHarts := 1 }
    plic.pointer (.threshold 3) + 4 ≤ plic.pointer (.claimComplete 3) ∨
      plic.pointer (.claimComplete 3) + 4 ≤ plic.pointer (.threshold 3) := by
  let plic : Plic := { target := .riscv64, address := 0x0C000000, numMonitorHarts := 1 }
  have placed : plic.Placed := ⟨by decide, by decide⟩
  exact (@registers_apart plic placed (.threshold 3) (.claimComplete 3)
    ⟨by decide, by decide⟩ ⟨by decide, by decide⟩).2.2 (by decide)

theorem Placed.pointer_injective (placed : plic.Placed) {first second : Register}
    (hasFirst : plic.Has first) (hasSecond : plic.Has second)
    (same : plic.pointer first = plic.pointer second) : first = second := by
  rw [placed.pointer_eq hasFirst, placed.pointer_eq hasSecond,
    Nat.add_left_cancel_iff] at same
  exact hasFirst.offset_injective hasSecond same

end

/-- The controller interrupts supervisor mode of a normal hart for a pending
interrupt: the interrupt is enabled there, and of a priority above the hart's
threshold. -/
def Delivers (words : Words) (normalHartNumber interrupt : Nat) : Prop :=
  (words (plic.pointer (.interruptEnable normalHartNumber (interrupt / 32)))).getLsbD
      (interrupt % 32) = true ∧
    words (plic.pointer (.threshold normalHartNumber)) <
      words (plic.pointer (.priority interrupt))

end Plic

end Thos.Device
