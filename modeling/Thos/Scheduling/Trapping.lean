import Thos.Scheduling.Creating
import Thos.Scheduling.Switching

namespace Thos.Scheduling

open Data.Ownership
open Data.Trace
open Kernel (Buffer)

/-! Traps, system calls and `sret` keep the invariant. -/

variable {Hart : Type} {image : Image} {state : State Hart image.target} {hart : Hart}

theorem SyscallNumber.yield_ne_putchar (target : Target) :
    SyscallNumber.yield.value target ≠ SyscallNumber.putchar.value target := by
  cases target <;> decide

theorem handleSyscall_registers (frame : TrapFrame image.target) :
    (handleSyscall frame).1.registers =
      if frame.registers .a0 = SyscallNumber.putchar.value image.target then
        Function.update frame.registers .a0 (printedCharacter (frame.registers .a1))
      else frame.registers := by
  unfold handleSyscall
  split
  · rename_i yields
    rw [yields, if_neg (SyscallNumber.yield_ne_putchar image.target)]
  · split
    · rfl
    · split <;> rfl

theorem handleSyscall_pc (frame : TrapFrame image.target) :
    (handleSyscall frame).1.pc = frame.pc := by
  unfold handleSyscall
  split
  · rfl
  · split
    · rfl
    · split <;> rfl

theorem handleSyscall_settles {trap : Trap image.target}
    {frame : TrapFrame image.target}
    (registers : frame.registers = trap.registers) (pc : frame.pc = trap.sepc) :
    let result := if trap.cause = .ecallUMode then handleSyscall frame
      else (frame, .nothing)
    result.1.registers = trap.resumeRegisters ∧ result.1.pc = trap.sepc := by
  unfold Trap.resumeRegisters
  by_cases ecall : trap.cause = .ecallUMode
  · simp only [ecall, if_true, true_and]
    rw [handleSyscall_registers, handleSyscall_pc, registers]
    exact ⟨rfl, pc⟩
  · simp only [ecall, if_false, false_and]
    exact ⟨registers, pc⟩

theorem handleSyscall_congr {frame other : TrapFrame image.target}
    (registers : frame.registers = other.registers) :
    (handleSyscall frame).2 = (handleSyscall other).2 := by
  unfold handleSyscall
  rw [registers]
  split
  · rfl
  · split
    · rfl
    · split <;> rfl

theorem handleTrap_legal (invariant : Invariant image state)
    (masked : (state.harts hart).Masked) {cause : Cause} (claimed : Bool)
    (control : (state.harts hart).control = .handling cause) :
    Legal image state hart
      (handleTrap (state.harts hart) state.processes cause claimed) := by
  have ok := invariant.ok hart
  unfold HartState.Ok at ok
  rw [control] at ok
  obtain ⟨slot, trap, ⟨current, running⟩, context, registers, pc, same, mode,
    kernel⟩ := ok
  have owned : (state.harts hart).owned = (state.harts hart).currentProcess := by
    rw [HartState.owned, control]
  have chosen : (state.harts hart).chosen = none := by
    rw [HartState.chosen, control]
  have right : (state.harts hart).Right slot := .inl (owned.trans current)
  have depth : (state.harts hart).control.depth =
      (Control.stopped false false : Control image.target).depth + 1 := by
    rw [control]
    rfl
  unfold handleTrap
  split
  · split
    · rw [masked.released_eq depth]
      exact .quiet invariant ⟨rfl, rfl⟩ (.of control rfl ⟨rfl, rfl⟩) owned.symm
        chosen.symm (.inr ⟨slot, current, running⟩)
    · exact .quiet invariant ⟨rfl, rfl⟩ (.of control rfl rfl) owned.symm chosen.symm
        ⟨slot, current, running⟩
  · have settles := handleSyscall_settles registers pc
    rw [same] at settles
    generalize (if cause = .ecallUMode then handleSyscall (state.harts hart).frame
      else ((state.harts hart).frame, .nothing)) = result at settles ⊢
    obtain ⟨frame, syscall⟩ := result
    have masked := masked.withFrame frame
    simp only
    split
    · rw [masked.released_eq depth]
      exact .quiet invariant ⟨rfl, rfl⟩ (.of control rfl ⟨rfl, rfl⟩) owned.symm
        chosen.symm (.inr ⟨slot, current, running⟩)
    · cases syscall with
      | nothing =>
          exact .quiet invariant ⟨rfl, rfl⟩ (.of control rfl rfl) owned.symm
            chosen.symm (.inr ⟨slot, trap, ⟨current, running⟩, context, settles.1,
              settles.2, kernel⟩)
      | exit =>
          exact .quiet invariant ⟨rfl, rfl⟩ (.of control rfl rfl) owned.symm
            chosen.symm ⟨slot, current, running⟩
      | putchar character =>
          have selected : (state.harts hart).currentProcess.or
              (if ((state.harts hart).withFrame frame).control.isRunning then
                ((state.harts hart).withFrame frame).currentProcess else none) =
              some slot := by
            rw [current]
            rfl
          obtain ⟨flushed, buffer, valid, _, equal⟩ :=
            putcharBuffer_process masked selected
            running.outputBuffer character (.switching true .enter)
          change Legal image state hart
            (putcharBuffer _ _ (state.harts hart).currentProcess
            _ _)
          rw [equal]
          refine .work invariant right ?_ ?_ (.of control rfl rfl) owned.symm
            chosen.symm ⟨trivial, trivial⟩ (.inr ⟨slot, trap, ⟨current, ?_⟩, ?_⟩)
          · constructor <;> simp [Event.slot, Event.By]
          · simp [Event.IsStore]
          · exact running.print valid (Effect.cells_process rfl)
          · rw [Effect.cells_write rfl rfl rfl]
            exact ⟨context, settles.1, settles.2, kernel⟩

theorem kernelStep_legal (invariant : Invariant image state)
    (masked : (state.harts hart).Masked) {claimed : Bool}
    {effect : Effect Hart image.target}
    (stepped : kernelStep image hart (state.harts hart) state.processes claimed =
      some effect) : Legal image state hart effect := by
  have ok := invariant.ok hart
  unfold kernelStep at stepped
  unfold HartState.Ok at ok
  cases control : (state.harts hart).control with
  | boot =>
      rw [control] at stepped
      contradiction
  | running =>
      rw [control] at stepped
      contradiction
  | stopped inProcesses inTrap =>
      rw [control] at stepped
      contradiction
  | trapped cause =>
      rw [control] at stepped
      cases stepped
      exact .quietAt invariant control ⟨rfl, rfl⟩ rfl rfl rfl rfl id
  | handling cause =>
      rw [control] at stepped
      cases stepped
      exact handleTrap_legal invariant masked claimed control
  | destroying inTrap point =>
      rw [control] at stepped
      cases stepped
      exact destroy_legal invariant masked control
  | switching inTrap point =>
      rw [control] at stepped
      cases stepped
      exact kernelSwitch_legal invariant masked control
  | creating arguments point =>
      rw [control] at stepped
      cases stepped
      exact create_legal invariant masked control
  | leaving =>
      rw [control] at stepped
      cases stepped
      have depth : (state.harts hart).control.depth =
          (Control.restoring : Control image.target).depth + 1 := by
        rw [control]
        rfl
      rw [masked.released_eq depth]
      exact .quietAt invariant control ⟨rfl, rfl⟩ rfl ⟨rfl, rfl⟩ rfl rfl id
  | restoring =>
      rw [control] at stepped
      cases stepped
      rw [restoreAfterTrap_eq]
      exact .quietAt invariant control ⟨rfl, rfl⟩ rfl rfl rfl rfl id
  | returning =>
      rw [control] at stepped ok
      cases stepped
      obtain ⟨⟨slot, context, ⟨current, running⟩, isContext, resumption, mode⟩,
        translates⟩ := ok
      have owned : (state.harts hart).owned = (state.harts hart).currentProcess := by
        rw [HartState.owned, control]
      have chosen : (state.harts hart).chosen = none := by
        rw [HartState.chosen, control]
      have right : (state.harts hart).Right slot := .inl (owned.trans current)
      have satp := translates slot current
      simp only [current, Option.toList_some, List.map_cons, List.map_nil]
      refine .work invariant right ?_ ?_ (.of control rfl rfl) ?_ chosen.symm
        ⟨⟨context, isContext, resumption⟩, trivial⟩ ⟨slot, ⟨rfl, running⟩, mode, satp⟩
      · constructor <;> simp [Event.slot, Event.By]
      · simp [Event.IsStore]
      · exact (owned.trans current).symm

theorem processStep_legal (invariant : Invariant image state)
    (masked : (state.harts hart).Masked) {choice : Choice image.target}
    {effect : Effect Hart image.target}
    (stepped : ProcessStep image (state.harts hart) state.processes choice effect) :
    Legal image state hart effect := by
  have ok := invariant.ok hart
  cases stepped with
  | execute registers pc control =>
      exact .quietAt invariant control ⟨rfl, rfl⟩ rfl rfl rfl rfl id
  | trap cause takes =>
      have control := Control.eq_running (masked.takes_isRunning takes)
      unfold HartState.Ok at ok
      rw [control] at ok
      obtain ⟨slot, ⟨current, running⟩, mode, _⟩ := ok
      have owned : (state.harts hart).owned = (state.harts hart).currentProcess := by
        rw [HartState.owned, control]
      have chosen : (state.harts hart).chosen = none := by
        rw [HartState.chosen, control]
      have right : (state.harts hart).Right slot := .inl (owned.trans current)
      simp only [HartState.trap, current, Option.toList_some, List.map_cons,
        List.map_nil]
      refine .work invariant right ?_ ?_ (.of control rfl rfl) ?_ chosen.symm
        ⟨trivial, trivial⟩
        ⟨slot, ⟨(state.harts hart).registers, (state.harts hart).pc, cause,
          (state.harts hart).kernelMode⟩, ⟨rfl, running.bound,
          running.state, running.id, running.outputBuffer⟩, ?_, ?_, rfl, rfl,
            rfl, mode⟩
      · constructor <;> simp [Event.slot, Event.By]
      · simp [Event.IsStore]
      · exact (owned.trans current).symm
      · exact Function.update_self ..
      · exact trapVector_registers ..
  | putchar character kernelMode going =>
      by_cases inside : (state.harts hart).control.isRunning = true
      · have control := Control.eq_running inside
        unfold HartState.Ok at ok
        rw [control] at ok
        obtain ⟨slot, ⟨current, running⟩, mode, satp⟩ := ok
        have owned : (state.harts hart).owned =
          (state.harts hart).currentProcess := by
          rw [HartState.owned, control]
        have chosen : (state.harts hart).chosen = none := by
          rw [HartState.chosen, control]
        have right : (state.harts hart).Right slot := .inl (owned.trans current)
        have selected : (none : Option Nat).or
            (if (state.harts hart).control.isRunning then
              (state.harts hart).currentProcess else none) = some slot := by
          rw [if_pos inside, current]
          rfl
        obtain ⟨flushed, buffer, valid, _, equal⟩ :=
          putcharBuffer_process masked selected
          running.outputBuffer character (state.harts hart).control
        rw [equal, control]
        refine .work invariant right ?_ ?_ (.of control rfl rfl) owned.symm
          chosen.symm
          ⟨trivial, trivial⟩ ⟨slot, ⟨current, ?_⟩, ?_⟩
        · constructor <;> simp [Event.slot, Event.By]
        · simp [Event.IsStore]
        · exact running.print valid (Effect.cells_process rfl)
        · rw [Effect.cells_write rfl rfl rfl]
          exact ⟨mode, satp⟩
      · have printed : Printed (state.harts hart) state.processes _ character
            (state.harts hart).control
            (putcharBuffer (state.harts hart) state.processes none character
              (state.harts hart).control : Effect Hart image.target) :=
          putcharBuffer_printed masked state.processes none character _
        rw [if_neg inside] at printed
        generalize (putcharBuffer (state.harts hart) state.processes none character
          (state.harts hart).control : Effect Hart image.target) = effect at printed ⊢
        cases printed with
        | process slot flushed buffer some _ => contradiction
        | hart buffer _ valid =>
            exact .quiet invariant ⟨rfl, rfl⟩ (.of rfl rfl rfl) rfl rfl ok
        | failed slot stop locking some _ => contradiction
  | create arguments page idle =>
      cases idle with
      | inl control =>
          unfold HartState.Ok at ok
          rw [control] at ok
          exact .quietAt invariant control ⟨rfl, rfl⟩ rfl rfl ok rfl
            fun none => ⟨.inl none, page, trivial⟩
      | inr running =>
          exact .quietAt invariant running.1 ⟨rfl, rfl⟩ rfl rfl rfl rfl
            fun executes => ⟨.inr executes, page, trivial⟩
  | exit control kernelMode =>
      refine .quietAt invariant control ⟨rfl, rfl⟩ rfl rfl rfl rfl ?_
      intro executes
      obtain ⟨slot, runs, _⟩ := executes
      exact ⟨slot, runs⟩
  | jump control =>
      unfold HartState.Ok at ok
      rw [control] at ok
      exact .quietAt invariant control ⟨rfl, rfl⟩ rfl rfl ok rfl .inl

theorem Invariant.legal {hart : Hart} {choice : Choice image.target}
    {effect : Effect Hart image.target} (invariant : Invariant image state)
    (disabled : (state.harts hart).Disabled)
    (made : Scheduling.effect image hart (state.harts hart) state.processes choice =
      some effect) : Legal image state hart effect := by
  cases disabled with
  | inl stopped =>
      rw [effect_stopped stopped] at made
      contradiction
  | inr masked =>
      cases effect_inv made with
      | inl kernel =>
          obtain ⟨claimed, _, stepped⟩ := kernel
          exact kernelStep_legal invariant masked stepped
      | inr process => exact processStep_legal invariant masked process

section

variable [DecidableEq Hart]

theorem Invariant.step {after : State Hart image.target}
    {action : Action Hart image.target}
    (invariant : Invariant image state)
    (disabled : ∀ hart, (state.harts hart).Disabled)
    (stepped : Scheduling.step image state action = some after) :
    Invariant image after := by
  obtain ⟨effect, made, applied⟩ := Option.bind_eq_some_iff.mp stepped
  exact invariant.apply (invariant.legal (disabled action.hart) made) applied

omit [DecidableEq Hart] in
theorem Booting.invariant (booting : Booting image state) :
    Invariant image state := by
  have nothing : ∀ hart slot, ¬(state.harts hart).Right slot := by
    intro hart slot right
    have control := (booting.harts hart).control
    unfold HartState.Right HartState.owned HartState.chosen at right
    rw [control] at right
    cases right <;> contradiction
  have history : state.history = History.start := by
    rw [State.history, booting.trace]
    rfl
  constructor
  · constructor
    · intro hart
      change HartState.Ok _ _
      rw [HartState.Ok, (booting.harts hart).control]
      exact (booting.harts hart).currentProcess
    · intro first second index right
      exact absurd right (nothing first index)
    · intro slot _
      have zero : (state.cells slot).process = .zero := booting.processes slot
      constructor
      · rw [zero, Process.zero]
        simp
      all_goals
        rw [zero]
        exact fun used => absurd rfl used
  · intro hart
    rw [booting.processesLock, HartState.HoldsProcessesLock,
      (booting.harts hart).control]
    exact ⟨by simp, Bool.false_ne_true.elim⟩
  · intro hart
    rw [booting.trapPrintLock, HartState.HoldsTrapPrintLock,
      (booting.harts hart).control]
    exact ⟨by simp, Bool.false_ne_true.elim⟩
  · intro hart slot
    rw [history]
    constructor
    · exact False.elim
    · exact fun owned => absurd (.inl owned) (nothing hart slot)
  · rw [booting.trace]
    trivial

theorem Invariant.of_reachable (reachable : (machine Hart image).Reachable state) :
    Invariant image state := by
  refine (reachable.invariant
    (fun state => (machine Hart image).Reachable state ∧ Invariant image state)
    ?_ ?_).2
  · intro start starts
    exact ⟨.start _ starts, starts.invariant⟩
  · intro before action after holds stepped
    exact ⟨holds.1.step stepped, holds.2.step (disabled_of_reachable holds.1) stepped⟩

end

end Thos.Scheduling
