import Thos.Kernel.Boot
import Thos.Scheduling.Frame

namespace Thos.Scheduling

open Kernel (HartScratches)

/-! `trap_vector` up to the jump to `handle_trap`, with the addresses it uses. -/

inductive Csr where
  | sscratch
  | sepc
  | satp
  deriving DecidableEq, Repr

/-- A hart, and memory read as words at their addresses. No instruction reads
`stored`, the addresses stored to, the last one first. -/
structure Machine (target : Target) where
  registers : Registers target
  csrs : Csr → Word target
  memory : Word target → Word target
  stored : List (Word target)

variable {target : Target}

namespace Machine

/-! The instructions of `trap_vector`. -/

def setRegister (machine : Machine target) (destination : Register)
    (value : Word target) : Machine target :=
  { machine with
    registers := Function.update machine.registers destination value }

def csrrw (machine : Machine target) (destination : Register) (csr : Csr)
    (source : Register) : Machine target :=
  { machine.setRegister destination (machine.csrs csr) with
    csrs := Function.update machine.csrs csr (machine.registers source) }

def csrr (machine : Machine target) (destination : Register) (csr : Csr) :
    Machine target :=
  machine.setRegister destination (machine.csrs csr)

def csrw (machine : Machine target) (csr : Csr) (source : Register) :
    Machine target :=
  { machine with
    csrs := Function.update machine.csrs csr (machine.registers source) }

def addi (machine : Machine target) (destination source : Register)
    (immediate : Word target) : Machine target :=
  machine.setRegister destination (machine.registers source + immediate)

def add (machine : Machine target) (destination first second : Register) :
    Machine target :=
  machine.setRegister destination
    (machine.registers first + machine.registers second)

def li (machine : Machine target) (destination : Register)
    (immediate : Word target) : Machine target :=
  machine.setRegister destination immediate

def load (machine : Machine target) (destination : Register)
    (offset : Word target) (base : Register) : Machine target :=
  machine.setRegister destination
    (machine.memory (machine.registers base + offset))

def loadSymbol (machine : Machine target) (destination : Register)
    (address : Word target) : Machine target :=
  machine.setRegister destination (machine.memory address)

def store (machine : Machine target) (source : Register) (offset : Word target)
    (base : Register) : Machine target :=
  { machine with
    memory := Function.update machine.memory (machine.registers base + offset)
      (machine.registers source)
    stored := (machine.registers base + offset) :: machine.stored }

/-- Translations are not part of the model. -/
def sfenceVma (machine : Machine target) : Machine target := machine

end Machine

/-- The registers in the order of `struct TrapFrame`; the pc and `satp` follow. -/
def trapFrameRegisters : List Register :=
  [.ra, .gp, .tp, .t0, .t1, .t2, .t3, .t4, .t5, .t6,
    .a0, .a1, .a2, .a3, .a4, .a5, .a6, .a7,
    .s0, .s1, .s2, .s3, .s4, .s5, .s6, .s7, .s8, .s9, .s10, .s11, .sp]

def fieldOffset (target : Target) (number : Nat) : Word target :=
  BitVec.ofNat _ (number * target.sizeofUintptr)

def registerOffset (target : Target) (register : Register) : Word target :=
  fieldOffset target (trapFrameRegisters.idxOf register)

def pcOffset (target : Target) : Word target := fieldOffset target 31

def Machine.storeRegisters (machine : Machine target) (stores : List Register) :
    Machine target :=
  stores.foldl (fun machine register =>
    machine.store register (registerOffset target register) .sp) machine

/-! `trap_vector`, in three parts. -/

def frameBase (machine : Machine target) : Machine target :=
  let machine := machine.csrrw .sp .sscratch .sp
  machine.addi .sp .sp (BitVec.ofNat _ HartScratches.frameOffset)

def trapVectorSave (machine : Machine target) : Machine target :=
  let machine := frameBase machine
  let machine := machine.storeRegisters trapVectorStores
  let machine := machine.csrr .t0 .sscratch
  let machine := machine.store .t0 (registerOffset target .sp) .sp
  let machine := machine.csrr .t0 .sepc
  let machine := machine.store .t0 (pcOffset target) .sp
  let machine := machine.addi .sp .sp (-BitVec.ofNat _ HartScratches.frameOffset)
  machine.csrw .sscratch .sp

def trapVectorSwitch (scratches : HartScratches)
    (kernelPageSatp : Word scratches.target) (machine : Machine scratches.target) :
    Machine scratches.target :=
  let machine := machine.loadSymbol .t0 kernelPageSatp
  let machine := machine.sfenceVma
  let machine := machine.csrw .satp .t0
  let machine := machine.sfenceVma
  let machine := machine.load .t0
    (BitVec.ofNat _ scratches.currentProcessOffset) .sp
  if machine.registers .t0 = 0 then machine
  else
    let machine := machine.li .t0
      (BitVec.ofNat _ (scratches.workStackOffset + scratches.workStackSize))
    machine.add .sp .sp .t0

/-- `trap_vector` from its first instruction to the jump. -/
def trapVectorEntry (scratches : HartScratches)
    (kernelPageSatp : Word scratches.target) (machine : Machine scratches.target) :
    Machine scratches.target :=
  trapVectorSwitch scratches kernelPageSatp (trapVectorSave machine)

theorem fieldOffset_injective (target : Target) {first second : Nat}
    (firstBound : first < 34) (secondBound : second < 34)
    (same : fieldOffset target first = fieldOffset target second) :
    first = second := by
  have values := congrArg BitVec.toNat same
  cases target with
  | riscv64 =>
      simp only [fieldOffset, BitVec.toNat_ofNat, Target.pointerBits,
        Target.sizeofUintptr] at values
      omega
  | riscv32 =>
      simp only [fieldOffset, BitVec.toNat_ofNat, Target.pointerBits,
        Target.sizeofUintptr] at values
      omega

theorem idxOf_lt (register : Register) : trapFrameRegisters.idxOf register < 31 := by
  cases register <;> decide

theorem getElem_idxOf (register : Register) :
    trapFrameRegisters[trapFrameRegisters.idxOf register]? = some register := by
  cases register <;> rfl

theorem registerOffset_injective {first second : Register}
    (same : registerOffset target first = registerOffset target second) :
    first = second := by
  have numbers := fieldOffset_injective target
    (Nat.lt_trans (idxOf_lt first) (by decide))
    (Nat.lt_trans (idxOf_lt second) (by decide)) same
  have found := getElem_idxOf first
  rw [numbers, getElem_idxOf second] at found
  exact (Option.some.inj found).symm

theorem registerOffset_ne_pcOffset (register : Register) :
    registerOffset target register ≠ pcOffset target := by
  intro same
  have bound := idxOf_lt register
  have number := fieldOffset_injective target (Nat.lt_trans bound (by decide))
    (by decide) same
  omega

namespace Machine

variable (machine : Machine target) (stores : List Register)

@[simp] theorem storeRegisters_registers :
    (machine.storeRegisters stores).registers = machine.registers := by
  induction stores generalizing machine with
  | nil => rfl
  | cons first stores induction => exact induction (machine.store first _ .sp)

@[simp] theorem storeRegisters_csrs :
    (machine.storeRegisters stores).csrs = machine.csrs := by
  induction stores generalizing machine with
  | nil => rfl
  | cons first stores induction => exact induction (machine.store first _ .sp)

theorem storeRegisters_stored :
    (machine.storeRegisters stores).stored =
      (stores.map fun register =>
        machine.registers .sp + registerOffset target register).reverse ++
          machine.stored := by
  induction stores generalizing machine with
  | nil => rfl
  | cons first stores induction =>
      rw [storeRegisters, List.foldl_cons, ← storeRegisters, induction]
      simp [store]

theorem storeRegisters_memory_of_ne {address : Word target}
    (other : ∀ register ∈ stores,
      address ≠ machine.registers .sp + registerOffset target register) :
    (machine.storeRegisters stores).memory address = machine.memory address := by
  induction stores generalizing machine with
  | nil => rfl
  | cons first stores induction =>
      obtain ⟨here, later⟩ := List.forall_mem_cons.mp other
      exact (induction (machine.store first _ .sp) later).trans
        (Function.update_of_ne here _ _)

theorem storeRegisters_memory_of_mem {register : Register}
    (member : register ∈ stores) :
    (machine.storeRegisters stores).memory
        (machine.registers .sp + registerOffset target register) =
      machine.registers register := by
  induction stores generalizing machine with
  | nil => contradiction
  | cons first stores induction =>
      by_cases later : register ∈ stores
      · exact induction (machine.store first _ .sp) later
      · have here : register = first := by
          simpa [later] using member
        have kept : ∀ other ∈ stores,
            machine.registers .sp + registerOffset target register ≠
              machine.registers .sp + registerOffset target other := by
          intro other stored same
          have offsets := (BitVec.add_right_inj _).mp same
          rw [registerOffset_injective offsets] at later
          exact later stored
        subst here
        exact (storeRegisters_memory_of_ne (machine.store register _ .sp) stores
          kept).trans (Function.update_self ..)

end Machine

/-- The frame at `sscratch` holds the interrupted registers and the pc, and
nothing else is stored to. -/
structure FrameSaved (before after : Machine target) : Prop where
  sp : after.registers .sp = before.csrs .sscratch
  sscratch : after.csrs .sscratch = before.csrs .sscratch
  registers : ∀ register, after.memory
    (before.csrs .sscratch + registerOffset target register) =
      before.registers register
  pc : after.memory (before.csrs .sscratch + pcOffset target) = before.csrs .sepc
  elsewhere : ∀ address, (∀ number < 32,
    address ≠ before.csrs .sscratch + fieldOffset target number) →
      after.memory address = before.memory address
  stored : ∃ new, after.stored = new ++ before.stored ∧ ∀ address ∈ new,
    ∃ number < 32, address = before.csrs .sscratch + fieldOffset target number

section

variable (machine : Machine target)

@[simp] theorem frameBase_sp :
    (frameBase machine).registers .sp = machine.csrs .sscratch := by
  simp [frameBase, Machine.addi, Machine.csrrw, Machine.setRegister,
    HartScratches.frameOffset]

theorem frameBase_registers {register : Register} (other : register ≠ .sp) :
    (frameBase machine).registers register = machine.registers register := by
  simp [frameBase, Machine.addi, Machine.csrrw, Machine.setRegister, other]

theorem frameBase_csrs : (frameBase machine).csrs =
    Function.update machine.csrs .sscratch (machine.registers .sp) := rfl

theorem trapVectorSave_memory :
    (trapVectorSave machine).memory =
      Function.update
        (Function.update
          ((frameBase machine).storeRegisters trapVectorStores).memory
          (machine.csrs .sscratch + registerOffset target .sp)
          (machine.registers .sp))
        (machine.csrs .sscratch + pcOffset target) (machine.csrs .sepc) := by
  simp [trapVectorSave, Machine.csrw, Machine.addi, Machine.store, Machine.csrr,
    Machine.setRegister, frameBase_csrs]

theorem trapVectorSave_stored :
    (trapVectorSave machine).stored =
      (machine.csrs .sscratch + pcOffset target) ::
        (machine.csrs .sscratch + registerOffset target .sp) ::
          ((frameBase machine).storeRegisters trapVectorStores).stored := by
  simp [trapVectorSave, Machine.csrw, Machine.addi, Machine.store, Machine.csrr,
    Machine.setRegister]

theorem trapVectorSave_saved : FrameSaved machine (trapVectorSave machine) where
  sp := by
    simp [trapVectorSave, Machine.csrw, Machine.addi, Machine.store, Machine.csrr,
      Machine.setRegister, HartScratches.frameOffset]
  sscratch := by
    simp [trapVectorSave, Machine.csrw, Machine.addi, Machine.store, Machine.csrr,
      Machine.setRegister, HartScratches.frameOffset]
  registers := by
    intro register
    have notPc : machine.csrs .sscratch + registerOffset target register ≠
        machine.csrs .sscratch + pcOffset target := by
      intro same
      exact registerOffset_ne_pcOffset register ((BitVec.add_right_inj _).mp same)
    rw [trapVectorSave_memory, Function.update_of_ne notPc]
    by_cases stack : register = .sp
    · rw [stack, Function.update_self]
    · have member : register ∈ trapVectorStores := by
        cases register <;> first | contradiction | decide
      have notStack : machine.csrs .sscratch + registerOffset target register ≠
          machine.csrs .sscratch + registerOffset target .sp := by
        intro same
        exact stack (registerOffset_injective ((BitVec.add_right_inj _).mp same))
      have stored := (frameBase machine).storeRegisters_memory_of_mem
        trapVectorStores member
      rw [frameBase_sp] at stored
      rw [Function.update_of_ne notStack, stored,
        frameBase_registers machine stack]
  pc := by
    rw [trapVectorSave_memory]
    exact Function.update_self ..
  elsewhere := by
    intro address other
    have notField : ∀ register, address ≠
        machine.csrs .sscratch + registerOffset target register := fun register =>
      other _ (Nat.lt_trans (idxOf_lt register) (by decide))
    have notPc : address ≠ machine.csrs .sscratch + pcOffset target :=
      other 31 (by decide)
    rw [trapVectorSave_memory, Function.update_of_ne notPc,
      Function.update_of_ne (notField .sp)]
    apply Machine.storeRegisters_memory_of_ne
    intro register _
    rw [frameBase_sp]
    exact notField register
  stored := by
    refine ⟨(machine.csrs .sscratch + pcOffset target) ::
      (machine.csrs .sscratch + registerOffset target .sp) ::
        (trapVectorStores.map fun register =>
          machine.csrs .sscratch + registerOffset target register).reverse, ?_, ?_⟩
    · rw [trapVectorSave_stored, Machine.storeRegisters_stored, frameBase_sp]
      rfl
    · intro address member
      have field : ∀ register, ∃ number < 32,
          machine.csrs .sscratch + registerOffset target register =
            machine.csrs .sscratch + fieldOffset target number := fun register =>
        ⟨_, Nat.lt_trans (idxOf_lt register) (by decide), rfl⟩
      simp only [List.mem_cons, List.mem_reverse, List.mem_map] at member
      rcases member with rfl | rfl | ⟨register, _, rfl⟩
      · exact ⟨31, by decide, rfl⟩
      · exact field .sp
      · exact field register

end

/-- The frame that `trapVector` builds is the one left in memory. -/
theorem FrameSaved.refines {before after : Machine target}
    (saved : FrameSaved before after) (frame : TrapFrame target) :
    (∀ register, after.memory
      (before.csrs .sscratch + registerOffset target register) =
        (trapVector before.registers (before.csrs .sepc)
          frame).registers register) ∧
      after.memory (before.csrs .sscratch + pcOffset target) =
        (trapVector before.registers (before.csrs .sepc) frame).pc := by
  rw [trapVector_registers]
  exact ⟨saved.registers, saved.pc⟩

section

variable {scratches : HartScratches} {hart : Nat}

def currentProcess (scratches : HartScratches) (hart : Nat)
    (machine : Machine scratches.target) : Word scratches.target :=
  machine.memory (BitVec.ofNat _ (scratches.element hart) +
    BitVec.ofNat _ scratches.currentProcessOffset)

def stackTop (scratches : HartScratches) (hart : Nat) : Word scratches.target :=
  BitVec.ofNat _ (scratches.element hart) +
    BitVec.ofNat _ (scratches.workStackOffset + scratches.workStackSize)

/-- A push of `depth` bytes below `sp` lands in no other hart's element and not
before the array. -/
def PushesApart (scratches : HartScratches) (hart : Nat)
    (sp : Word scratches.target) : Prop :=
  ∀ depth, 0 < depth → depth ≤ scratches.workStackSize →
    scratches.startAddress ≤ (sp - BitVec.ofNat _ depth).toNat ∧
      ∀ other < scratches.hartMaximum, other ≠ hart →
        ¬ scratches.Contains other (sp - BitVec.ofNat _ depth).toNat

/-- How a trap of a hart enters `handle_trap`. -/
structure TrapEntered (scratches : HartScratches) (hart : Nat)
    (before after : Machine scratches.target) : Prop where
  stored : ∃ new, after.stored = new ++ before.stored ∧ ∀ address ∈ new,
    scratches.element hart + HartScratches.frameOffset ≤ address.toNat ∧
      address.toNat + scratches.target.sizeofUintptr ≤
        scratches.element hart + HartScratches.frameOffset +
          scratches.trapFrameSize
  sscratch : after.csrs .sscratch = BitVec.ofNat _ (scratches.element hart)
  sp : after.registers .sp = stackTop scratches hart ∨
    after.registers .sp = before.registers .sp
  pushes : PushesApart scratches hart (after.registers .sp)

theorem currentProcess_save (machine : Machine scratches.target)
    (scratch : machine.csrs .sscratch = BitVec.ofNat _ (scratches.element hart)) :
    (trapVectorSave machine).memory
        ((trapVectorSave machine).registers .sp +
          BitVec.ofNat _ scratches.currentProcessOffset) =
      currentProcess scratches hart machine := by
  have saved := trapVectorSave_saved machine
  rw [saved.sp, currentProcess, ← scratch]
  apply saved.elsewhere
  intro number bound same
  have field : BitVec.ofNat _ scratches.currentProcessOffset =
      fieldOffset scratches.target 33 := by
    rw [HartScratches.currentProcessOffset, HartScratches.frameOffset, Nat.zero_add]
    rfl
  rw [field] at same
  have equal := fieldOffset_injective _ (by decide) (Nat.lt_trans bound (by decide))
    ((BitVec.add_right_inj _).mp same)
  omega

theorem trapVectorSwitch_stored (kernelPageSatp : Word scratches.target)
    (machine : Machine scratches.target) :
    (trapVectorSwitch scratches kernelPageSatp machine).stored = machine.stored := by
  rw [trapVectorSwitch]
  split <;> rfl

theorem trapVectorSwitch_sscratch (kernelPageSatp : Word scratches.target)
    (machine : Machine scratches.target) :
    (trapVectorSwitch scratches kernelPageSatp machine).csrs .sscratch =
      machine.csrs .sscratch := by
  rw [trapVectorSwitch]
  split <;> rfl

/-- With no current process, `sp` stays what it is then: the scratch pointer. -/
theorem trapVectorSwitch_sp (kernelPageSatp : Word scratches.target)
    (machine : Machine scratches.target) :
    (trapVectorSwitch scratches kernelPageSatp machine).registers .sp =
      if machine.memory (machine.registers .sp +
          BitVec.ofNat _ scratches.currentProcessOffset) = 0 then
        machine.registers .sp
      else machine.registers .sp +
        BitVec.ofNat _ (scratches.workStackOffset + scratches.workStackSize) := by
  by_cases process : machine.memory (machine.registers .sp +
      BitVec.ofNat _ scratches.currentProcessOffset) = 0
  · simp [trapVectorSwitch, Machine.loadSymbol, Machine.sfenceVma, Machine.csrw,
      Machine.load, Machine.setRegister, process]
  · simp only [BitVec.ofNat_eq_ofNat] at process
    simp [trapVectorSwitch, Machine.loadSymbol, Machine.sfenceVma, Machine.csrw,
      Machine.load, Machine.li, Machine.add, Machine.setRegister, process]

theorem trapVectorEntry_sp (kernelPageSatp : Word scratches.target)
    {machine : Machine scratches.target}
    (scratch : machine.csrs .sscratch = BitVec.ofNat _ (scratches.element hart)) :
    (trapVectorEntry scratches kernelPageSatp machine).registers .sp =
      if currentProcess scratches hart machine = 0 then
        BitVec.ofNat _ (scratches.element hart)
      else stackTop scratches hart := by
  rw [trapVectorEntry, trapVectorSwitch_sp, currentProcess_save machine scratch,
    (trapVectorSave_saved machine).sp, scratch]
  rfl

theorem element_add_toNat (placed : scratches.Placed)
    (bound : hart < scratches.hartMaximum) {offset : Nat}
    (inside : offset ≤ scratches.size) :
    (BitVec.ofNat scratches.target.pointerBits (scratches.element hart) +
      BitVec.ofNat _ offset).toNat = scratches.element hart + offset := by
  have next := placed.element_lt bound
  rw [← scratches.element_add_size] at next
  rw [← BitVec.ofNat_add]
  exact Nat.mod_eq_of_lt (by omega)

theorem field_inFrame (placed : scratches.Placed)
    (bound : hart < scratches.hartMaximum) {number : Nat} (small : number < 32) :
    scratches.element hart + HartScratches.frameOffset ≤
        (BitVec.ofNat scratches.target.pointerBits (scratches.element hart) +
          fieldOffset scratches.target number).toNat ∧
      (BitVec.ofNat scratches.target.pointerBits (scratches.element hart) +
          fieldOffset scratches.target number).toNat +
            scratches.target.sizeofUintptr ≤
        scratches.element hart + HartScratches.frameOffset +
          scratches.trapFrameSize := by
  have fields : (number + 1) * scratches.target.sizeofUintptr ≤
      scratches.trapFrameSize := Nat.mul_le_mul_right _ (by omega)
  rw [Nat.succ_mul] at fields
  have process := scratches.currentProcess_lt_workStack
  have stack := scratches.workStack_le_size
  rw [HartScratches.currentProcessOffset] at process
  rw [fieldOffset, element_add_toNat placed bound (by omega)]
  simp only [HartScratches.frameOffset]
  omega

theorem pushesApart_stackTop (placed : scratches.Placed)
    (bound : hart < scratches.hartMaximum) :
    PushesApart scratches hart (stackTop scratches hart) := by
  intro depth _ shallow
  have stack := scratches.workStack_le_size
  have next := placed.element_lt bound
  rw [← scratches.element_add_size] at next
  have top := element_add_toNat placed bound stack
  have small : (BitVec.ofNat scratches.target.pointerBits depth).toNat = depth :=
    Nat.mod_eq_of_lt (by omega)
  have pushed : (stackTop scratches hart - BitVec.ofNat _ depth).toNat =
      scratches.element hart +
        (scratches.workStackOffset + scratches.workStackSize) - depth := by
    rw [BitVec.toNat_sub_of_le, small, stackTop, top]
    rw [BitVec.le_def, small, stackTop, top]
    omega
  have start := scratches.element_le (Nat.zero_le hart)
  rw [HartScratches.element, Nat.zero_mul, Nat.add_zero] at start
  rw [pushed]
  refine ⟨by omega, ?_⟩
  intro other _ different inside
  obtain ⟨low, high⟩ := inside
  have apart := scratches.element_disjoint different
  have offset := scratches.currentProcess_lt_workStack
  omega

/-- The first push below the scratch pointer is outside the hart's element. -/
theorem not_pushesApart_element (placed : scratches.Placed)
    (bound : hart < scratches.hartMaximum) :
    ¬ PushesApart scratches hart (BitVec.ofNat _ (scratches.element hart)) := by
  intro apart
  obtain ⟨notBefore, others⟩ := apart 1 Nat.one_pos scratches.workStackSize_pos
  have start := placed.start
  have value : (BitVec.ofNat scratches.target.pointerBits
      (scratches.element hart)).toNat = scratches.element hart :=
    Nat.mod_eq_of_lt (placed.element_lt (Nat.le_of_lt bound))
  have one : (BitVec.ofNat scratches.target.pointerBits 1).toNat = 1 := by
    cases scratches.target <;> rfl
  have positive : 0 < scratches.element hart := by
    rw [HartScratches.element]
    omega
  have pushed : (BitVec.ofNat scratches.target.pointerBits (scratches.element hart) -
      BitVec.ofNat _ 1).toNat = scratches.element hart - 1 := by
    rw [BitVec.toNat_sub_of_le, value, one]
    rw [BitVec.le_def, value, one]
    exact positive
  rw [pushed] at notBefore others
  cases hart with
  | zero =>
      rw [HartScratches.element, Nat.zero_mul] at notBefore
      omega
  | succ hart =>
      have size := scratches.size_pos
      apply others hart (by omega) (by omega)
      rw [← scratches.element_add_size]
      constructor <;> omega

/-- Whatever the hart, the registers and the memory, a trap enters
`handle_trap` on the hart's stack exactly when a process is current. -/
theorem trapEntered_iff (placed : scratches.Placed)
    (bound : hart < scratches.hartMaximum) (kernelPageSatp : Word scratches.target)
    {machine : Machine scratches.target}
    (scratch : machine.csrs .sscratch = BitVec.ofNat _ (scratches.element hart)) :
    TrapEntered scratches hart machine
        (trapVectorEntry scratches kernelPageSatp machine) ↔
      currentProcess scratches hart machine ≠ 0 := by
  have sp := trapVectorEntry_sp kernelPageSatp scratch
  constructor
  · intro entered null
    have pushes := entered.pushes
    rw [sp, if_pos null] at pushes
    exact not_pushesApart_element placed bound pushes
  · intro current
    rw [if_neg current] at sp
    exact {
      stored := by
        obtain ⟨new, stored, fields⟩ := (trapVectorSave_saved machine).stored
        refine ⟨new, (trapVectorSwitch_stored ..).trans stored, ?_⟩
        intro address member
        obtain ⟨number, small, rfl⟩ := fields address member
        rw [scratch]
        exact field_inFrame placed bound small
      sscratch := by
        rw [trapVectorEntry, trapVectorSwitch_sscratch,
          (trapVectorSave_saved machine).sscratch, scratch]
      sp := .inl sp
      pushes := by
        rw [sp]
        exact pushesApart_stackTop placed bound }

def interruptedMachine (hart : Nat) (word : Word .riscv64) : Machine .riscv64 where
  registers := fun _ => stackTop (.sample 9) hart
  csrs := fun _ => BitVec.ofNat _ ((HartScratches.sample 9).element hart)
  memory := fun _ => word
  stored := []

theorem trapEntered_iff_sample :
    TrapEntered (.sample 9) 1 (interruptedMachine 1 1)
        (trapVectorEntry (.sample 9) 0 (interruptedMachine 1 1)) ↔
      currentProcess (.sample 9) 1 (interruptedMachine 1 1) ≠ 0 :=
  trapEntered_iff (HartScratches.sample_placed (by decide)) (by decide) 0 rfl

/-- Hart 1 is in no process: what it pushes lands in the work stack of hart 0. -/
theorem trap_enters_on_other_stack :
    let scratches := HartScratches.sample 9
    let after := trapVectorEntry scratches 0 (interruptedMachine 1 0)
    currentProcess scratches 1 (interruptedMachine 1 0) = 0 ∧
      after.registers .sp = BitVec.ofNat _ (scratches.element 1) ∧
      after.registers .sp ≠ stackTop scratches 1 ∧
      scratches.Contains 0 (after.registers .sp - 8).toNat ∧
      ¬ TrapEntered scratches 1 (interruptedMachine 1 0) after := by
  intro scratches after
  have placed : scratches.Placed := HartScratches.sample_placed (by decide)
  have sp : after.registers .sp = BitVec.ofNat _ (scratches.element 1) :=
    trapVectorEntry_sp 0 rfl
  refine ⟨rfl, sp, ?_, ?_, ?_⟩
  · rw [sp]
    decide
  · rw [sp]
    exact ⟨by decide, by decide⟩
  · intro entered
    have pushes := entered.pushes
    rw [sp] at pushes
    exact not_pushesApart_element placed (by decide) pushes

end

end Thos.Scheduling
