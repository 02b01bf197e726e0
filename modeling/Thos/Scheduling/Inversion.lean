import Thos.Scheduling.Machine

namespace Thos.Scheduling

/-! What each choice of a hart can do. -/

def Control.isStopped {target : Target} : Control target → Bool
  | .stopped _ _ => true
  | _ => false

/-- The steps of a process, of boot code, and those the hart is subject to. -/
inductive ProcessStep {Hart : Type} (image : Image) (here : HartState image.target)
    (processes : Processes image.target) :
    Choice image.target → Effect Hart image.target → Prop
  | execute (registers : Registers image.target) (pc : Word image.target) :
      here.control = .running →
      ProcessStep image here processes (.execute registers pc)
        ({ here with registers := registers, pc := pc }.goto .running)
  | trap (cause : Cause) : here.takes cause = true →
      ProcessStep image here processes (.trap cause) (here.trap image cause)
  | putchar (character : UInt8) : here.kernelMode = true →
      here.control.isStopped = false →
      ProcessStep image here processes (.putchar character)
        (putcharBuffer here processes none character here.control)
  | create (arguments : ProcessArguments image.target) :
      (arguments.isUserProgram = true → arguments.page ≠ image.kernelPageTable) →
      here.control = .boot ∨ here.control = .running ∧ here.kernelMode = true →
      ProcessStep image here processes (.create arguments)
        ((Effect.ofHart (here.acquired
          (.creating arguments .find))).withProcessesLock .acquire)
  | exit : here.control = .running → here.kernelMode = true →
      ProcessStep image here processes .exit
        ({ here with locking := here.locking.disableTrapsNow.2 }.goto
          (.destroying false .acquire))
  | jump : here.control = .boot →
      ProcessStep image here processes .jump (here.goto (.switching false .enter))

theorem processStep_inv {Hart : Type} {image : Image} {here : HartState image.target}
    {processes : Processes image.target} {choice : Choice image.target}
    {effect : Effect Hart image.target}
    (stepped : processStep image here processes choice = some effect) :
    ProcessStep image here processes choice effect := by
  cases choice with
  | kernel claimed => contradiction
  | execute registers pc =>
      cases control : here.control <;> simp only [processStep, control] at stepped <;>
        first
        | contradiction
        | cases stepped
      exact .execute registers pc control
  | trap cause =>
      simp only [processStep] at stepped
      split at stepped
      · contradiction
      · obtain ⟨takes, same⟩ := Option.ite_none_right_eq_some.mp stepped
        cases same
        exact .trap cause takes
  | putchar character =>
      simp only [processStep] at stepped
      split at stepped
      · contradiction
      · rename_i going
        obtain ⟨kernelMode, same⟩ := Option.ite_none_right_eq_some.mp stepped
        cases same
        refine .putchar character kernelMode ?_
        cases control : here.control with
        | stopped inProcesses inTrap =>
          exact absurd control (going inProcesses inTrap)
        | _ => rfl
  | create arguments =>
      simp only [processStep] at stepped
      obtain ⟨shared, stepped⟩ := Option.ite_none_left_eq_some.mp stepped
      have page : arguments.isUserProgram = true →
          arguments.page ≠ image.kernelPageTable := fun user same =>
            shared ⟨user, same⟩
      cases control : here.control <;> rw [control] at stepped <;> first
        | contradiction
        | skip
      · cases stepped
        exact .create arguments page (.inl control)
      · obtain ⟨kernelMode, same⟩ := Option.ite_none_right_eq_some.mp stepped
        cases same
        exact .create arguments page (.inr ⟨control, kernelMode⟩)
  | exit =>
      cases control : here.control <;> simp only [processStep, control] at stepped <;>
        first
        | contradiction
        | skip
      obtain ⟨kernelMode, same⟩ := Option.ite_none_right_eq_some.mp stepped
      cases same
      exact .exit control kernelMode
  | jump =>
      cases control : here.control <;> simp only [processStep, control] at stepped <;>
        first
        | contradiction
        | cases stepped
      exact .jump control

theorem effect_inv {Hart : Type} {image : Image} {hart : Hart}
    {here : HartState image.target} {processes : Processes image.target}
    {choice : Choice image.target} {effect : Effect Hart image.target}
    (stepped : Scheduling.effect image hart here processes choice = some effect) :
    (∃ claimed, choice = .kernel claimed ∧
      kernelStep image hart here processes claimed = some effect) ∨
      ProcessStep image here processes choice effect := by
  cases choice with
  | kernel claimed => exact .inl ⟨claimed, rfl, stepped⟩
  | _ =>
      right
      apply processStep_inv
      exact stepped

end Thos.Scheduling
