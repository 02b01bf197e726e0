import Thos.Scheduling.Exclusion

namespace Thos.Scheduling

/-! What a process goes on with when it is switched on again. -/

variable {Hart : Type} [DecidableEq Hart] {image : Image}
  {state : State Hart image.target}

/-- An `ecall` is skipped, an interrupted instruction is not. -/
def Trap.expectedPc {target : Target} (trap : Trap target) : Word target :=
  if trap.cause = .ecallUMode then trap.sepc + 4 else trap.sepc

/-- A process starts at its entry address with its exit stub in `ra`, and goes on
as if it had not been trapped. -/
def Transparent (image : Image) (registers : Registers image.target)
    (pc : Word image.target) : Context image.target → Prop
  | .created arguments frame =>
      registers = Function.update frame.registers .ra
        (if arguments.isUserProgram then image.processExitUser
          else image.processExitKernel) ∧ pc = arguments.entry
  | .trapped trap => registers = trap.resumeRegisters ∧ pc = trap.expectedPc

def Trap.Stepped {target : Target} (trap : Trap target) : Prop :=
  trap.kernelMode = true ↔ trap.cause ≠ .ecallUMode

def Context.Stepped {target : Target} : Context target → Prop
  | .created _ _ => True
  | .trapped trap => trap.Stepped

theorem add_four_ne {target : Target} (pc : Word target) : pc + 4 ≠ pc := by
  intro same
  have zero : (4 : Word target) = 0 := BitVec.add_right_eq_self.mp same
  cases target <;> contradiction

theorem Trap.switchPc_eq_iff {target : Target} (trap : Trap target) :
    trap.switchPc = trap.expectedPc ↔ trap.Stepped := by
  unfold switchPc expectedPc Stepped
  have different := add_four_ne trap.sepc
  by_cases ecall : trap.cause = .ecallUMode
  · rw [if_pos ecall]
    cases mode : trap.kernelMode with
    | true =>
      exact ⟨fun same => absurd same.symm different,
        fun iff => absurd ecall (iff.mp rfl)⟩
    | false =>
      exact ⟨fun _ => ⟨Bool.false_ne_true.elim, fun other => absurd ecall other⟩,
        fun _ => rfl⟩
  · rw [if_neg ecall]
    cases mode : trap.kernelMode with
    | true => exact ⟨fun _ => ⟨fun _ => ecall, fun _ => rfl⟩, fun _ => rfl⟩
    | false =>
      exact ⟨fun same => absurd same different,
        fun iff => absurd (iff.mpr ecall) Bool.false_ne_true.elim⟩

/-- A user process is created, entered, trapped by `cause` and switched on
again. -/
def preemptedRun (cause : Cause) : List (Action Unit smallImage.target) :=
  createSteps () true ++ jumpSteps () ++ ⟨(), .trap cause⟩ :: kernelSteps () 18

theorem preemptedRun_reachable {state : State Unit smallImage.target} (cause : Cause)
    (executed : Data.Transition.execute (step smallImage) (smallBoot Unit)
      (preemptedRun cause) = some state) :
        (machine Unit smallImage).Reachable state :=
  .of_execute (preemptedRun cause) (.start _ (smallBoot_booting Unit)) executed

end Thos.Scheduling
