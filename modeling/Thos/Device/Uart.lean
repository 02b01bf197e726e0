import Thos.Device.Plic
import Thos.Kernel.Buffer

namespace Thos.Device

open Thos.Kernel
open VirtualMemory (sifivePlicLen)

/-! The SiFive UART, and how it is set up to interrupt hart 1. -/

inductive UartRegister where
  | transmitData
  | receiveData
  | transmitControl
  | receiveControl
  | interruptEnable
  | interruptPending
  | baudDivisor
  deriving DecidableEq, Repr

def UartRegister.number : UartRegister → Nat
  | transmitData => 0
  | receiveData => 1
  | transmitControl => 2
  | receiveControl => 3
  | interruptEnable => 4
  | interruptPending => 5
  | baudDivisor => 6

def uartControlEnable : Nat := 0

def uartInterruptReceive : Nat := 1

def sifiveUart1Interrupt : Nat := 5

structure Uart where
  plic : Plic
  address : Nat
  deriving DecidableEq, Repr

namespace Uart

variable (uart : Uart)

def pointer (register : UartRegister) : Nat :=
  uart.plic.target.uintptr (uart.address + 4 * register.number)

/-- `sifive_uart_init`: the wrapped buffer, and the words of the devices. -/
def init (uart1BufferArray : Nat → UInt8) (bufferLen : Nat) (words : Plic.Words) :
    Outcome (Buffer × Plic.Words) := do
  Plic.checkValidDevice uart.address
  let buffer := Buffer.wrap uart1BufferArray bufferLen
  let words := Function.update words (uart.pointer .interruptEnable)
    (atomicOrMemoryWord (words (uart.pointer .interruptEnable))
      (bitToInt uartInterruptReceive)).2
  let words := Function.update words (uart.pointer .receiveControl)
    (atomicOrMemoryWord (words (uart.pointer .receiveControl))
      (bitToInt uartControlEnable)).2
  let words := Function.update words (uart.pointer .baudDivisor) 16000#32
  let words ← uart.plic.enableSmodeInterrupt words 1 5
  let words ← uart.plic.setSmodeThreshold words 1 0
  let words ← uart.plic.setPriority words 5 1
  return (buffer, words)

/-- The board has both devices, apart from each other, and hart 1 is a normal
hart. -/
structure Placed : Prop where
  plic : uart.plic.Placed
  present : uart.address ≠ 0
  span : uart.address + 28 < 2 ^ uart.plic.target.pointerBits
  apart : uart.address + 28 ≤ uart.plic.address ∨
    uart.plic.address + sifivePlicLen ≤ uart.address
  normal : uart.plic.numMonitorHarts ≤ 1

inductive Register where
  | uart (register : UartRegister)
  | plic (register : Plic.Register)
  deriving DecidableEq, Repr

def location : Register → Nat
  | .uart register => uart.pointer register
  | .plic register => uart.plic.pointer register

def Has : Register → Prop
  | .uart _ => True
  | .plic register => uart.plic.Has register

/-- The word that each register holds after `sifive_uart_init`. -/
def configured (words : Plic.Words) (register : Register) : BitVec 32 :=
  if register = .plic (.priority 5) then 1#32
  else if register = .plic (.threshold 1) then 0#32
  else if register = .plic (.interruptEnable 1 0) then
    words (uart.location register) ||| bitToInt sifiveUart1Interrupt
  else if register = .uart .baudDivisor then 16000#32
  else if register = .uart .receiveControl then
    words (uart.location register) ||| bitToInt uartControlEnable
  else if register = .uart .interruptEnable then
    words (uart.location register) ||| bitToInt uartInterruptReceive
  else words (uart.location register)

section

variable {uart : Uart}

theorem Placed.pointer_eq (placed : uart.Placed) (register : UartRegister) :
    uart.pointer register = uart.address + 4 * register.number := by
  have span := placed.span
  have last : register.number ≤ 6 := by cases register <;> decide
  exact Target.uintptr_of_lt (by omega)

theorem Placed.location_injective (placed : uart.Placed) {first second : Register}
    (hasFirst : uart.Has first) (hasSecond : uart.Has second)
    (same : uart.location first = uart.location second) : first = second := by
  have apart := placed.apart
  have inUart : ∀ register : UartRegister, register.number ≤ 6 := by
    intro register
    cases register <;> decide
  have mixed : ∀ (own : UartRegister) (other : Plic.Register), uart.plic.Has other →
      uart.pointer own ≠ uart.plic.pointer other := by
    intro own other has
    have inside := placed.plic.pointer_range has
    have last := inUart own
    rw [placed.pointer_eq]
    omega
  cases first with
  | uart first =>
      cases second with
      | uart second =>
          simp only [location, placed.pointer_eq] at same
          have numbers : first.number = second.number := by omega
          cases first <;> cases second <;> first | rfl | cases numbers
      | plic second => exact absurd same (mixed first second hasSecond)
  | plic first =>
      cases second with
      | uart second => exact absurd same.symm (mixed second first hasFirst)
      | plic second =>
          exact congrArg Register.plic
            (placed.plic.pointer_injective hasFirst hasSecond same)

theorem Placed.update_location (placed : uart.Placed) {first second : Register}
    (hasFirst : uart.Has first) (hasSecond : uart.Has second) (words : Plic.Words)
    (value : BitVec 32) :
    Function.update words (uart.location first) value (uart.location second) =
      if second = first then value else words (uart.location second) := by
  split
  · next same =>
      rw [same]
      exact Function.update_self ..
  · next different =>
      apply Function.update_of_ne
      intro same
      exact different (placed.location_injective hasSecond hasFirst same)

def writtenRegisters : List Register :=
  [.uart .interruptEnable, .uart .receiveControl, .uart .baudDivisor,
    .plic (.interruptEnable 1 0), .plic (.threshold 1), .plic (.priority 5)]

theorem Placed.has_written (placed : uart.Placed) :
    ∀ register ∈ writtenRegisters, uart.Has register := by
  have normal := placed.normal
  simp only [writtenRegisters, List.forall_mem_cons, List.not_mem_nil, Has, Plic.Has,
    Plic.blockIndex, Plic.interruptEnableOffset, Plic.interruptEnableBlockSize,
    Plic.thresholdClaimCompleteOffset, Plic.thresholdClaimCompleteBlockSize,
    sifivePlicLen, IsEmpty.forall_iff, implies_true, and_true, true_and]
  omega

structure Initialised (uart : Uart) (words after : Plic.Words) : Prop where
  configured : ∀ register, uart.Has register →
    after (uart.location register) = uart.configured words register
  frame : ∀ address, (∀ register ∈ writtenRegisters,
    uart.location register ≠ address) → after address = words address

def written (uart : Uart) (words : Plic.Words) : Plic.Words :=
  let write (words : Plic.Words) (register : Register) (value : BitVec 32) :=
    Function.update words (uart.location register) value
  let setBit (words : Plic.Words) (register : Register) (bitNumber : Nat) :=
    write words register (words (uart.location register) ||| bitToInt bitNumber)
  let words := setBit words (.uart .interruptEnable) uartInterruptReceive
  let words := setBit words (.uart .receiveControl) uartControlEnable
  let words := write words (.uart .baudDivisor) 16000#32
  let words := setBit words (.plic (.interruptEnable 1 0)) sifiveUart1Interrupt
  let words := write words (.plic (.threshold 1)) 0#32
  write words (.plic (.priority 5)) 1#32

theorem Placed.init_eq (placed : uart.Placed) (uart1BufferArray : Nat → UInt8)
    (bufferLen : Nat) (words : Plic.Words) :
    uart.init uart1BufferArray bufferLen words =
      .ok (.wrap uart1BufferArray bufferLen, uart.written words) := by
  simp only [init, Plic.checkValidDevice, if_neg placed.present,
    Plic.enableSmodeInterrupt, Plic.setSmodeThreshold, Plic.setPriority,
    if_neg placed.plic.present]
  rfl

theorem Placed.written_initialised (placed : uart.Placed) (words : Plic.Words) :
    Initialised uart words (uart.written words) := by
  have has := placed.has_written
  simp only [writtenRegisters, List.forall_mem_cons, List.not_mem_nil,
    IsEmpty.forall_iff, implies_true, and_true] at has
  obtain ⟨enable, control, baud, plicEnable, threshold, priority⟩ := has
  constructor
  · intro register has
    simp only [written, configured, placed.update_location, enable, control, baud,
      plicEnable, threshold, priority, has, reduceCtorEq, if_false]
    split_ifs <;> simp_all
  · intro address other
    simp only [writtenRegisters, List.forall_mem_cons, List.not_mem_nil,
      IsEmpty.forall_iff, implies_true, and_true] at other
    obtain ⟨enable, control, baud, plicEnable, threshold, priority⟩ := other
    simp only [written, Function.update_of_ne (Ne.symm enable),
      Function.update_of_ne (Ne.symm control), Function.update_of_ne (Ne.symm baud),
      Function.update_of_ne (Ne.symm plicEnable),
      Function.update_of_ne (Ne.symm threshold),
      Function.update_of_ne (Ne.symm priority)]

theorem Initialised.delivers {words after : Plic.Words} (placed : uart.Placed)
    (initialised : Initialised uart words after) :
    uart.plic.Delivers after 1 sifiveUart1Interrupt := by
  have has := placed.has_written
  have enable : after (uart.plic.pointer (.interruptEnable 1 0)) = _ :=
    initialised.configured (.plic (.interruptEnable 1 0)) (has _ (by decide))
  have threshold : after (uart.plic.pointer (.threshold 1)) = _ :=
    initialised.configured (.plic (.threshold 1)) (has _ (by decide))
  have priority : after (uart.plic.pointer (.priority 5)) = _ :=
    initialised.configured (.plic (.priority 5)) (has _ (by decide))
  rw [Uart.configured, if_neg (by decide), if_neg (by decide), if_pos rfl] at enable
  rw [Uart.configured, if_neg (by decide), if_pos rfl] at threshold
  rw [Uart.configured, if_pos rfl] at priority
  rw [sifiveUart1Interrupt] at enable ⊢
  refine ⟨?_, ?_⟩
  · change (after (uart.plic.pointer (.interruptEnable 1 0))).getLsbD 5 = true
    rw [enable, BitVec.getLsbD_or, getLsbD_bitToInt (by decide), decide_eq_true rfl,
      Bool.or_true]
  · rw [threshold, priority]
    decide

theorem Initialised.delivers_only {words after : Plic.Words}
    (initialised : Initialised uart words after)
    (quiet : ∀ normalHartNumber word,
      uart.plic.Has (.interruptEnable normalHartNumber word) →
        words (uart.plic.pointer (.interruptEnable normalHartNumber word)) = 0#32)
    {normalHartNumber interrupt : Nat}
    (has : uart.plic.Has (.interruptEnable normalHartNumber (interrupt / 32)))
    (delivers : uart.plic.Delivers after normalHartNumber interrupt) :
    normalHartNumber = 1 ∧ interrupt = sifiveUart1Interrupt := by
  have enabled := delivers.1
  have register : after (uart.plic.pointer (.interruptEnable normalHartNumber
      (interrupt / 32))) = _ := initialised.configured (.plic (.interruptEnable _ _)) has
  have empty : words (uart.location (.plic (.interruptEnable normalHartNumber
      (interrupt / 32)))) = 0#32 := quiet _ _ has
  rw [register, Uart.configured, if_neg (by simp), if_neg (by simp), empty] at enabled
  split at enabled
  · next same =>
      rw [BitVec.zero_or, getLsbD_bitToInt (Nat.mod_lt _ (by decide)),
        decide_eq_true_eq] at enabled
      simp only [Register.plic.injEq, Plic.Register.interruptEnable.injEq] at same
      rw [sifiveUart1Interrupt] at enabled ⊢
      omega
  · rw [if_neg (by simp), if_neg (by simp), if_neg (by simp),
      BitVec.getLsbD_zero] at enabled
    cases enabled

/-- `sifive_uart_init` returns, whatever the registers held; it sets its own
registers and no other word of memory, the controller then delivers the receive
interrupt to hart 1, and no other interrupt to any hart unless it was enabled. -/
theorem init_routes_receive_interrupt (placed : uart.Placed)
    (uart1BufferArray : Nat → UInt8) (bufferLen : Nat) (words : Plic.Words) :
    ∃ after, uart.init uart1BufferArray bufferLen words =
        .ok (.wrap uart1BufferArray bufferLen, after) ∧
      Initialised uart words after ∧
      uart.plic.Delivers after 1 sifiveUart1Interrupt ∧
      ((∀ normalHartNumber word,
        uart.plic.Has (.interruptEnable normalHartNumber word) →
          words (uart.plic.pointer (.interruptEnable normalHartNumber word)) = 0#32) →
        ∀ normalHartNumber interrupt,
          uart.plic.Has (.interruptEnable normalHartNumber (interrupt / 32)) →
            uart.plic.Delivers after normalHartNumber interrupt →
              normalHartNumber = 1 ∧ interrupt = sifiveUart1Interrupt) := by
  have initialised := placed.written_initialised words
  refine ⟨_, placed.init_eq uart1BufferArray bufferLen words, initialised,
    initialised.delivers placed, ?_⟩
  intro quiet normalHartNumber interrupt has delivers
  exact initialised.delivers_only quiet has delivers

end

/-- `board_sifive_u` in its 64-bit build. -/
def sifiveU : Uart where
  plic := { target := .riscv64, address := 0x0C000000, numMonitorHarts := 1 }
  address := 0x10011000

theorem sifiveU_placed : sifiveU.Placed where
  plic := ⟨by decide, by decide⟩
  present := by decide
  span := by decide
  apart := by decide
  normal := by decide

theorem init_routes_receive_interrupt_sifiveU : ∃ after,
    sifiveU.init (fun _ => 0) 64 (fun _ => 0#32) = .ok (.wrap (fun _ => 0) 64, after) ∧
      sifiveU.plic.Delivers after 1 5 ∧ ¬sifiveU.plic.Delivers after 2 5 := by
  obtain ⟨after, runs, _, delivers, only⟩ :=
    init_routes_receive_interrupt sifiveU_placed (fun _ => 0) 64 (fun _ => 0#32)
  refine ⟨after, runs, delivers, fun other => ?_⟩
  exact absurd (only (fun _ _ _ => rfl) 2 5
    ⟨by decide, by decide, by decide⟩ other).1 (by decide)

end Uart

end Thos.Device
