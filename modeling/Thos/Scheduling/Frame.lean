import Mathlib.Logic.Function.Basic
import Thos.VirtualMemory.Layout

namespace Thos.Scheduling

/-! Trap frames, and the assembly that stores and loads them. -/

abbrev Word (target : Target) := BitVec target.pointerBits

inductive Register where
  | ra | gp | tp
  | t0 | t1 | t2 | t3 | t4 | t5 | t6
  | a0 | a1 | a2 | a3 | a4 | a5 | a6 | a7
  | s0 | s1 | s2 | s3 | s4 | s5 | s6 | s7 | s8 | s9 | s10 | s11
  | sp
  deriving DecidableEq, Repr

abbrev Registers (target : Target) := Register → Word target

@[ext] structure TrapFrame (target : Target) where
  registers : Registers target
  pc : Word target
  satp : Word target

variable {target : Target}

namespace TrapFrame

def zero : TrapFrame target := ⟨fun _ => 0, 0, 0⟩

def set (frame : TrapFrame target) (register : Register) (value : Word target) :
    TrapFrame target :=
  { frame with registers := Function.update frame.registers register value }

end TrapFrame

/-- The stores of `trap_vector`, in order; `sp` and the pc follow apart. -/
def trapVectorStores : List Register :=
  [.ra, .gp, .tp, .t0, .t1, .t2, .t3, .t4, .t5, .t6,
    .a0, .a1, .a2, .a3, .a4, .a5, .a6, .a7,
    .s0, .s1, .s2, .s3, .s3, .s4, .s5, .s6, .s7, .s8, .s9, .s10, .s11]

/-- `trap_vector`: `sp` is exchanged with `sscratch`, the registers are stored,
then `sp` out of `sscratch` and the pc out of `sepc`. -/
def trapVector (registers : Registers target) (sepc : Word target)
    (frame : TrapFrame target) : TrapFrame target :=
  let sscratch := registers .sp
  let stored := trapVectorStores.foldl
    (fun frame register => frame.set register (registers register)) frame
  { stored.set .sp sscratch with pc := sepc }

/-- The loads of `restore_after_trap`, in order; `a0` holds the frame's address
until the last one. -/
def restoreLoads : List Register :=
  [.ra, .gp, .tp, .sp, .t0, .t1, .t2, .t3, .t4, .t5, .t6,
    .a1, .a2, .a3, .a4, .a5, .a6, .a7,
    .s0, .s1, .s2, .s3, .s3, .s4, .s5, .s6, .s7, .s8, .s9, .s10, .s11, .a0]

def restoreAfterTrap (registers : Registers target) (frame : TrapFrame target) :
    Registers target :=
  restoreLoads.foldl
    (fun registers register =>
      Function.update registers register (frame.registers register)) registers

theorem foldl_set_registers (registers : Registers target) (stores : List Register)
    (frame : TrapFrame target) (register : Register) :
    (stores.foldl (fun frame register => frame.set register (registers register))
        frame).registers register =
      if register ∈ stores then registers register else frame.registers register := by
  induction stores generalizing frame with
  | nil => rfl
  | cons first stores induction =>
      rw [List.foldl_cons, induction]
      by_cases later : register ∈ stores
      · simp [later]
      · by_cases here : register = first
        · simp [here, TrapFrame.set]
        · simp [later, here, TrapFrame.set]

theorem foldl_update (values : Registers target) (loads : List Register)
    (registers : Registers target) (register : Register) :
    loads.foldl (fun registers register =>
        Function.update registers register (values register)) registers register =
      if register ∈ loads then values register else registers register := by
  induction loads generalizing registers with
  | nil => rfl
  | cons first loads induction =>
      rw [List.foldl_cons, induction]
      by_cases later : register ∈ loads
      · simp [later]
      · by_cases here : register = first
        · simp [here]
        · simp [later, here]

@[simp] theorem trapVector_registers (registers : Registers target)
    (sepc : Word target) (frame : TrapFrame target) :
    (trapVector registers sepc frame).registers = registers := by
  funext register
  by_cases stack : register = .sp
  · rw [stack]
    simp [trapVector, TrapFrame.set]
  · have stored : register ∈ trapVectorStores := by
      cases register <;> first | contradiction | decide
    have loaded := foldl_set_registers registers trapVectorStores frame register
    rw [if_pos stored] at loaded
    rw [← loaded]
    simp [trapVector, TrapFrame.set, Function.update_of_ne stack]

@[simp] theorem restoreAfterTrap_eq (registers : Registers target)
    (frame : TrapFrame target) :
    restoreAfterTrap registers frame = frame.registers := by
  funext register
  have loaded : register ∈ restoreLoads := by cases register <;> decide
  exact (foldl_update frame.registers restoreLoads registers register).trans
    (if_pos loaded)

def satpMode : Target → Nat
  | .riscv64 => 8
  | .riscv32 => 1

def satpModeBitwidth : Target → Nat
  | .riscv64 => 4
  | .riscv32 => 1

/-- `SatpRegister_from_PageTable`: the mode, and the table's page number cut to
its bit-field. -/
def satpFromPageTable (table : Word target) : Word target :=
  BitVec.ofNat _ (satpMode target <<<
      (target.pointerBits - satpModeBitwidth target) +
    table.toNat / VirtualMemory.pageSize %
      2 ^ target.physicalPageNumberBitwidth)

end Thos.Scheduling
