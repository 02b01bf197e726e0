import Thos.Scheduling.Exclusion

namespace Thos.Scheduling

/-! The mode and the address space of a process that is gone back to. -/

variable {Hart : Type} [DecidableEq Hart] {image : Image}
  {state : State Hart image.target} {hart : Hart}

/-- From the write of `sepc` in `kernel_switch` to the `sret` of
`restore_after_trap`, and in the process after it. -/
structure ReturnsToProcess (image : Image) (state : State Hart image.target)
    (hart : Hart) : Prop where
  sret : (state.harts hart).control = .returning →
    ∃ slot context, (state.harts hart).currentProcess = some slot ∧
      (state.harts hart).satp =
        satpFromPageTable (state.processes slot).pageTable ∧
      (state.harts hart).returnToKernelMode = (state.processes slot).isKernel image ∧
      (state.harts hart).trapsAfterSret = true ∧
      (state.harts hart).sepc = (state.harts hart).newPc ∧
      state.history.context slot = some context ∧
      (context.resumption image).2 = (state.harts hart).sepc
  masked : (state.harts hart).control.isPrepared = true →
    (state.harts hart).locking.sie = false ∧
      (state.harts hart).sepc = (state.harts hart).newPc ∧
      ∀ cause, step image state ⟨hart, .trap cause⟩ = none
  running : (state.harts hart).control = .running →
    ∃ slot, (state.harts hart).currentProcess = some slot ∧
      (state.harts hart).kernelMode = (state.processes slot).isKernel image ∧
      (state.harts hart).satp = satpFromPageTable (state.processes slot).pageTable

omit [DecidableEq Hart] in
theorem HartState.Masked.of_control {here : HartState image.target}
    (disabled : here.Disabled) (going : here.control.isStopped = false) :
      here.Masked := by
  cases disabled with
  | inl stopped =>
      rw [going] at stopped
      contradiction
  | inr masked => exact masked

end Thos.Scheduling
