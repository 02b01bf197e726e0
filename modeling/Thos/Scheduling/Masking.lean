import Thos.Scheduling.Inversion

namespace Thos.Scheduling

open Kernel (Buffer Locking)

/-! Traps are disabled wherever the kernel runs, whatever the processes do. -/

namespace Control

variable {target : Target}

def depth (control : Control target) : UInt32 :=
  (if control.holdsProcessesLock then 1 else 0) +
    (if control.holdsTrapPrintLock then 1 else 0)

def isPrepared : Control target → Bool
  | .switching _ .setSatp => true
  | .switching _ .copyFrame => true
  | .leaving => true
  | .restoring => true
  | .returning => true
  | _ => false

/-- Whether the hart has a current process, where its control tells. -/
def hasProcess : Control target → Option Bool
  | .boot => some false
  | .running => some true
  | .switching _ (.markRunning _) => some true
  | .switching _ (.release _) => some true
  | .switching _ (.setReturn _) => some true
  | .switching _ .setSatp => some true
  | .switching _ .copyFrame => some true
  | .leaving => some true
  | .restoring => some true
  | .returning => some true
  | _ => none

theorem eq_running {control : Control target} (running : control.isRunning = true) :
    control = .running := by
  cases control <;> first
    | rfl
    | contradiction

theorem unprepared {control : Control target} (ahead : control.isPrepared = false)
    {prepared : Prop} : control.isPrepared = true → prepared := by
  rw [ahead]
  exact Bool.false_ne_true.elim

theorem unknown {control : Control target} (nothing : control.hasProcess = none)
    {depends : Bool → Prop} :
    ∀ has, control.hasProcess = some has → depends has := by
  intro has known
  rw [nothing] at known
  contradiction

end Control

namespace HartState

variable {target : Target}

/-- What `interrupts_before_locking` is while the hart holds a lock: only a
kernel process takes its first lock with traps enabled. -/
def enabledOutside (here : HartState target) : Bool :=
  match here.control with
  | .creating _ _ => here.currentProcess.isSome
  | _ => false

structure Masked (here : HartState target) : Prop where
  sie : here.locking.sie = here.control.isRunning
  kernelMode : here.control.isRunning = false → here.kernelMode = true
  lockDepth : here.locking.lockDepth = here.control.depth
  outside : here.control.depth ≠ 0 →
    here.locking.interruptsBeforeLocking = here.enabledOutside
  prepared : here.control.isPrepared = true →
    here.trapsAfterSret = true ∧ here.sepc = here.newPc
  current : ∀ has, here.control.hasProcess = some has →
    here.currentProcess.isSome = has
  outputBuffer : here.outputBuffer.Valid

namespace Masked

variable {here : HartState target} (masked : here.Masked)

include masked

theorem depth_add_one : here.locking.lockDepth + 1 ≠ 0 := by
  rw [masked.lockDepth]
  unfold Control.depth
  cases here.control.holdsProcessesLock <;>
    cases here.control.holdsTrapPrintLock <;> decide

theorem move {next : HartState target} (inside : here.control.isRunning = false)
    (locking : next.locking = here.locking)
    (kernelMode : next.kernelMode = here.kernelMode)
    (outputBuffer : next.outputBuffer = here.outputBuffer)
    (stays : next.control.isRunning = false)
    (depth : next.control.depth = here.control.depth)
    (outside : next.control.depth ≠ 0 → next.enabledOutside = here.enabledOutside)
    (prepared : next.control.isPrepared = true →
      next.trapsAfterSret = true ∧ next.sepc = next.newPc)
    (current : ∀ has, next.control.hasProcess = some has →
      next.currentProcess.isSome = has) : next.Masked where
  sie := by rw [locking, masked.sie, inside, stays]
  kernelMode _ := kernelMode.trans (masked.kernelMode inside)
  lockDepth := by rw [locking, masked.lockDepth, depth]
  outside held := by
    rw [locking, outside held]
    rw [depth] at held
    exact masked.outside held
  prepared := prepared
  current := current
  outputBuffer := by
    rw [outputBuffer]
    exact masked.outputBuffer

theorem acquired {next : Control target} (kernelMode : here.kernelMode = true)
    (stays : next.isRunning = false) (depth : next.depth = here.control.depth + 1)
    (outside : { here with control := next }.enabledOutside =
      if here.control.depth = 0 then here.control.isRunning else here.enabledOutside)
    (notPrepared : next.isPrepared = false) (undetermined : next.hasProcess = none) :
    (here.acquired next).Masked where
  sie := stays.symm
  kernelMode _ := kernelMode
  lockDepth := (congrArg (· + 1) masked.lockDepth).trans depth.symm
  outside _ := by
    change (if here.locking.lockDepth = 0 then here.locking.sie
      else here.locking.interruptsBeforeLocking) =
        { here with control := next }.enabledOutside
    rw [outside, masked.lockDepth, masked.sie]
    split
    · rfl
    · rename_i held
      exact masked.outside held
  prepared prepared := by
    change next.isPrepared = true at prepared
    rw [notPrepared] at prepared
    contradiction
  current has known := by
    change next.hasProcess = some has at known
    rw [undetermined] at known
    contradiction
  outputBuffer := masked.outputBuffer

theorem withFrame (frame : TrapFrame target) : (here.withFrame frame).Masked :=
  ⟨masked.sie, masked.kernelMode, masked.lockDepth, masked.outside, masked.prepared,
    masked.current, masked.outputBuffer⟩

theorem released_eq {next : Control target}
    (depth : here.control.depth = next.depth + 1) :
    here.released next = { here with
      locking := { here.locking with lockDepth := next.depth }.restoreTraps
      control := next } := by
  have counted : here.locking.lockDepth = next.depth + 1 :=
    masked.lockDepth.trans depth
  have nonzero : next.depth + 1 ≠ 0 := by
    unfold Control.depth
    cases next.holdsProcessesLock <;> cases next.holdsTrapPrintLock <;> decide
  rw [HartState.released, Kernel.Locking.postLockRelease_of_lockDepth counted nonzero]

theorem released {next : Control target} (inside : here.control.isRunning = false)
    (depth : here.control.depth = next.depth + 1)
    (enabled : next.isRunning = (decide (next.depth = 0) && here.enabledOutside))
    (outside : next.depth ≠ 0 →
      { here with control := next }.enabledOutside = here.enabledOutside)
    (prepared : next.isPrepared = true →
      here.trapsAfterSret = true ∧ here.sepc = here.newPc)
    (current : ∀ has, next.hasProcess = some has → here.currentProcess.isSome = has) :
    (here.released next).Masked := by
  have held : here.control.depth ≠ 0 := by
    rw [depth]
    unfold Control.depth
    cases next.holdsProcessesLock <;> cases next.holdsTrapPrintLock <;> decide
  have before := masked.outside held
  have sie : here.locking.sie = false := masked.sie.trans inside
  have restored : ({ here.locking with lockDepth := next.depth }.restoreTraps) =
      { here.locking with lockDepth := next.depth, sie := next.isRunning } := by
    rw [enabled, Locking.restoreTraps, before]
    cases outermost : decide (next.depth = 0) && here.enabledOutside with
    | true => rfl
    | false => simp [sie]
  rw [masked.released_eq depth, restored]
  constructor
  · rfl
  · intro _
    exact masked.kernelMode inside
  · rfl
  · intro held
    exact before.trans (outside held).symm
  · exact prepared
  · exact current
  · exact masked.outputBuffer

def printing (here : HartState target) : Locking :=
  { here.locking with interruptsBeforeLocking :=
      if here.locking.lockDepth = 0 then here.locking.sie
      else here.locking.interruptsBeforeLocking }

theorem released_printing (control : Control target) (buffer : Buffer) :
    HartState.released { here with
        locking := here.locking.preLockAcquire.2, outputBuffer := buffer } control =
      { here with
        locking := printing here, outputBuffer := buffer, control := control } := by
  have same : (here.locking.sie && decide (here.locking.lockDepth = 0)) =
      here.locking.sie := by
    rw [masked.sie, masked.lockDepth]
    cases control : here.control <;> simp [Control.isRunning, Control.depth,
      Control.holdsProcessesLock, Control.holdsTrapPrintLock]
  rw [HartState.released,
    Locking.preLockAcquire_postLockRelease _ masked.depth_add_one,
    same]
  rfl

end Masked

end HartState

/-- What `putchar_buffer` does: it prints to a process's buffer, to the hart's,
or fails its assertion on a process's buffer. -/
inductive Printed {Hart : Type} {target : Target} (here : HartState target)
    (processes : Processes target) (process : Option Nat) (character : UInt8)
    (control : Control target) : Effect Hart target → Prop
  | process (slot : Nat) (flushed : List UInt8) (buffer : Buffer) :
      process = some slot →
      (processes slot).outputBuffer.outputHandleNew character =
        .ok (flushed, buffer) →
      Printed here processes process character control
        (((Effect.ofHart { here with
            locking := HartState.Masked.printing here,
            control := control }).write slot
          { processes slot with outputBuffer := buffer }).emit
            [.printed slot character flushed])
  | hart (buffer : Buffer) : process = none → buffer.Valid →
      Printed here processes process character control
        (Effect.ofHart { here with
          locking := HartState.Masked.printing here
          outputBuffer := buffer
          control := control })
  | failed (slot : Nat) (stop : Kernel.Stop) (locking : Locking) :
      process = some slot →
      (processes slot).outputBuffer.outputHandleNew character = .error stop →
      Printed here processes process character control
        (Effect.ofHart (HartState.stop { here with locking := locking } here.control))

theorem putcharBuffer_printed {Hart : Type} {target : Target}
    {here : HartState target} (masked : here.Masked) (processes : Processes target)
    (process : Option Nat) (character : UInt8) (control : Control target) :
    Printed here processes
      (process.or (if here.control.isRunning then here.currentProcess else none))
      character control
      (putcharBuffer here processes process character control :
        Effect Hart target) := by
  have enabled : here.locking.preLockAcquire.1 = here.control.isRunning := masked.sie
  unfold putcharBuffer
  simp only [enabled]
  generalize owner : process.or
    (if here.control.isRunning = true then here.currentProcess else none) = buffer
  cases buffer with
  | some slot =>
      cases handles : (processes slot).outputBuffer.outputHandleNew character with
      | error stop =>
          simp only [handles]
          exact .failed slot stop here.locking.preLockAcquire.2 rfl handles
      | ok result =>
          obtain ⟨flushed, buffer⟩ := result
          have released := masked.released_printing control here.outputBuffer
          simp only [handles]
          rw [released]
          exact .process slot flushed buffer rfl handles
  | none =>
      obtain ⟨flushed, buffer, handles, valid, _⟩ :=
        Buffer.outputHandleNew_spec masked.outputBuffer character
      simp only [handles]
      rw [masked.released_printing control buffer]
      exact .hart buffer rfl valid

theorem putcharBuffer_process {Hart : Type} {target : Target}
    {here : HartState target} (masked : here.Masked) {processes : Processes target}
    {process : Option Nat} {slot : Nat}
    (selected : process.or
      (if here.control.isRunning then here.currentProcess else none) = some slot)
    (valid : (processes slot).outputBuffer.Valid)
    (character : UInt8) (control : Control target) :
    ∃ flushed buffer, buffer.Valid ∧
      (processes slot).outputBuffer.outputHandleNew character =
        .ok (flushed, buffer) ∧
      (putcharBuffer here processes process character control : Effect Hart target) =
        ((Effect.ofHart { here with
            locking := HartState.Masked.printing here,
            control := control }).write slot
          { processes slot with outputBuffer := buffer }).emit
            [.printed slot character flushed] := by
  have printed : Printed here processes _ character control
      (putcharBuffer here processes process character control : Effect Hart target) :=
    putcharBuffer_printed masked processes process character control
  rw [selected] at printed
  generalize (putcharBuffer here processes process character control :
    Effect Hart target) = effect at printed
  cases printed with
  | process index flushed buffer same handles =>
      cases same
      exact ⟨flushed, buffer, Buffer.outputHandleNew_valid valid handles,
        handles, rfl⟩
  | hart buffer none _ => contradiction
  | failed index stop locking same handles =>
      cases same
      exact absurd handles (Buffer.outputHandleNew_ne_error valid)

section

variable {Hart : Type} {image : Image} {hart : Hart} {here : HartState image.target}
  {processes : Processes image.target}

def HartState.Disabled {target : Target} (here : HartState target) : Prop :=
  here.control.isStopped = true ∨ here.Masked

theorem Printed.disabled {process : Option Nat} {character : UInt8}
    {control : Control image.target} {effect : Effect Hart image.target}
    (printed : Printed here processes process character control effect)
    (masked : here.Masked)
    (kernelMode : control.isRunning = false → here.kernelMode = true)
    (running : control.isRunning = here.control.isRunning)
    (depth : control.depth = here.control.depth)
    (outside : control.depth ≠ 0 →
      { here with control := control }.enabledOutside = here.enabledOutside)
    (prepared : control.isPrepared = true →
      here.trapsAfterSret = true ∧ here.sepc = here.newPc)
    (current : ∀ has, control.hasProcess = some has →
      here.currentProcess.isSome = has) : effect.hart.Disabled := by
  have before : control.depth ≠ 0 →
      (HartState.Masked.printing here).interruptsBeforeLocking =
        { here with control := control }.enabledOutside := by
    intro held
    rw [outside held]
    rw [depth] at held
    have nonzero : here.locking.lockDepth ≠ 0 := by
      rw [masked.lockDepth]
      exact held
    rw [HartState.Masked.printing, if_neg nonzero]
    exact masked.outside held
  cases printed with
  | process slot flushed buffer _ _ =>
      exact .inr ⟨masked.sie.trans running.symm, kernelMode,
        masked.lockDepth.trans depth.symm, before, prepared, current,
        masked.outputBuffer⟩
  | hart buffer _ valid =>
      exact .inr ⟨masked.sie.trans running.symm, kernelMode,
        masked.lockDepth.trans depth.symm, before, prepared, current, valid⟩
  | failed slot stop locking _ _ => exact .inl rfl

theorem create_disabled (masked : here.Masked)
    {arguments : ProcessArguments image.target} {point : CreatePoint}
    (control : here.control = .creating arguments point) :
    (create image hart here processes arguments point).hart.Disabled := by
  have inside : here.control.isRunning = false := by rw [control]; rfl
  have depth : here.control.depth = 1 := by rw [control]; rfl
  have outside : here.enabledOutside = here.currentProcess.isSome := by
    rw [HartState.enabledOutside, control]
  cases point with
  | find =>
      simp only [create]
      cases findUnused image processes with
      | none => exact .inl rfl
      | some index =>
          exact .inr (masked.move inside rfl rfl rfl rfl depth.symm
            (fun _ => outside.symm) (Control.unprepared rfl) (Control.unknown rfl))
  | wipe slot =>
      exact .inr (masked.move inside rfl rfl rfl rfl depth.symm
        (fun _ => outside.symm) (Control.unprepared rfl) (Control.unknown rfl))
  | setId slot =>
      exact .inr (masked.move inside rfl rfl rfl rfl depth.symm
        (fun _ => outside.symm) (Control.unprepared rfl) (Control.unknown rfl))
  | fill slot =>
      exact .inr (masked.move inside rfl rfl rfl rfl depth.symm
        (fun _ => outside.symm) (Control.unprepared rfl) (Control.unknown rfl))
  | markReady slot =>
      exact .inr (masked.move inside rfl rfl rfl rfl depth.symm
        (fun _ => outside.symm) (Control.unprepared rfl) (Control.unknown rfl))
  | release =>
      right
      simp only [create]
      cases current : here.currentProcess with
      | none =>
          refine masked.released inside depth ?_ (absurd rfl)
            (Control.unprepared rfl) ?_
          · rw [outside, current]
            rfl
          · rintro has ⟨⟩
            rw [current]
            rfl
      | some slot =>
          refine masked.released inside depth ?_ (absurd rfl)
            (Control.unprepared rfl) ?_
          · rw [outside, current]
            rfl
          · rintro has ⟨⟩
            rw [current]
            rfl

theorem destroy_disabled (masked : here.Masked) {inTrap : Bool} {point : DestroyPoint}
    (control : here.control = .destroying inTrap point) :
    (destroy hart here processes inTrap point).hart.Disabled := by
  have inside : here.control.isRunning = false := by rw [control]; rfl
  have outside : here.enabledOutside = false := by
    rw [HartState.enabledOutside, control]
  cases point with
  | acquire =>
      right
      refine masked.acquired (masked.kernelMode inside) rfl ?_ ?_ rfl rfl
      · rw [control]
        cases inTrap <;> rfl
      · rw [inside, outside, ite_self]
        rfl
  | clear =>
      simp only [destroy]
      cases here.currentProcess with
      | none => exact .inl rfl
      | some slot =>
          refine .inr (masked.move inside rfl rfl rfl rfl ?_ (fun _ => outside.symm)
            (Control.unprepared rfl) (Control.unknown rfl))
          rw [control]
          rfl
  | wipeId slot =>
      refine .inr (masked.move inside rfl rfl rfl rfl ?_ (fun _ => outside.symm)
        (Control.unprepared rfl) (Control.unknown rfl))
      rw [control]
      rfl
  | wipeState slot =>
      refine .inr (masked.move inside rfl rfl rfl rfl ?_ (fun _ => outside.symm)
        (Control.unprepared rfl) (Control.unknown rfl))
      rw [control]
      rfl
  | release =>
      right
      refine masked.released inside ?_ ?_ (fun _ => outside.symm)
        (Control.unprepared rfl) (Control.unknown rfl)
      · rw [control]
        cases inTrap <;> rfl
      · rw [outside, Bool.and_false]
        rfl

theorem kernelSwitch_disabled (masked : here.Masked) {inTrap : Bool}
    {point : SwitchPoint} (control : here.control = .switching inTrap point) :
    (kernelSwitch image hart here processes inTrap point).hart.Disabled := by
  have inside : here.control.isRunning = false := by rw [control]; rfl
  have outside : here.enabledOutside = false := by
    rw [HartState.enabledOutside, control]
  have current := masked.current
  have prepared := masked.prepared
  rw [control] at current prepared
  have move : ∀ {next : HartState image.target} {goal : SwitchPoint},
      next.control = .switching inTrap goal → next.locking = here.locking →
      next.kernelMode = here.kernelMode → next.outputBuffer = here.outputBuffer →
      (Control.switching inTrap goal : Control image.target).depth =
        (Control.switching inTrap point : Control image.target).depth →
      ((Control.switching inTrap goal : Control image.target).isPrepared = true →
        next.trapsAfterSret = true ∧ next.sepc = next.newPc) →
      (∀ has, (Control.switching inTrap goal : Control image.target).hasProcess =
        some has → next.currentProcess.isSome = has) → next.Disabled := by
    intro next goal goes locking kernelMode outputBuffer depth prepared current
    refine .inr (masked.move inside locking kernelMode outputBuffer ?_ ?_ ?_ ?_ ?_)
    · rw [goes]
      rfl
    · rw [goes, control]
      exact depth
    · intro _
      rw [outside, HartState.enabledOutside, goes]
    · rw [goes]
      exact prepared
    · rw [goes]
      exact current
  cases point with
  | enter =>
      simp only [kernelSwitch]
      cases here.currentProcess with
      | none =>
        exact move rfl rfl rfl rfl rfl (Control.unprepared rfl) (Control.unknown rfl)
      | some slot =>
        exact move rfl rfl rfl rfl rfl (Control.unprepared rfl) (Control.unknown rfl)
  | adjust =>
      simp only [kernelSwitch]
      cases here.currentProcess with
      | none => exact .inl rfl
      | some slot =>
        exact move rfl rfl rfl rfl rfl (Control.unprepared rfl) (Control.unknown rfl)
  | markRunnable =>
      simp only [kernelSwitch]
      cases here.currentProcess with
      | none => exact .inl rfl
      | some slot =>
        exact move rfl rfl rfl rfl rfl (Control.unprepared rfl) (Control.unknown rfl)
  | clear startSearchId =>
    exact move rfl rfl rfl rfl rfl (Control.unprepared rfl) (Control.unknown rfl)
  | acquire startSearchId =>
      right
      refine masked.acquired (masked.kernelMode inside) rfl ?_ ?_ rfl rfl
      · rw [control]
        cases inTrap <;> rfl
      · rw [inside, outside, ite_self]
        rfl
  | scan startSearchId id numChecked =>
      simp only [kernelSwitch]
      split
      · split
        · exact move rfl rfl rfl rfl rfl (Control.unprepared rfl)
            (Control.unknown rfl)
        · exact move rfl rfl rfl rfl rfl (Control.unprepared rfl)
            (Control.unknown rfl)
      · exact move rfl rfl rfl rfl rfl (Control.unprepared rfl) (Control.unknown rfl)
  | retry startSearchId =>
      right
      refine masked.released inside ?_ ?_ (fun _ => outside.symm)
        (Control.unprepared rfl) (Control.unknown rfl)
      · rw [control]
        cases inTrap <;> rfl
      · rw [outside, Bool.and_false]
        rfl
  | select slot =>
      refine move rfl rfl rfl rfl rfl (Control.unprepared rfl) ?_
      rintro has ⟨⟩
      rfl
  | markRunning slot =>
    exact move rfl rfl rfl rfl rfl (Control.unprepared rfl) current
  | release firstRun =>
      right
      refine masked.released inside ?_ ?_ (fun _ => outside.symm)
        (Control.unprepared rfl) current
      · rw [control]
        cases inTrap <;> rfl
      · rw [outside, Bool.and_false]
        rfl
  | setReturn firstRun =>
      simp only [kernelSwitch]
      cases known : here.currentProcess with
      | none => exact .inl rfl
      | some slot =>
          rw [known] at current
          exact move rfl rfl rfl rfl rfl (fun _ => ⟨rfl, rfl⟩) current
  | setSatp =>
      simp only [kernelSwitch]
      cases here.currentProcess with
      | none => exact .inl rfl
      | some slot =>
          exact move rfl rfl rfl rfl rfl prepared current
  | copyFrame =>
      simp only [kernelSwitch]
      cases known : here.currentProcess with
      | none => exact .inl rfl
      | some slot =>
          rw [known] at current
          cases inTrap with
          | true =>
              refine .inr (masked.move inside rfl rfl rfl rfl ?_
                (fun _ => outside.symm) prepared ?_)
              · rw [control]
                rfl
              · exact current
          | false =>
              refine .inr (masked.move inside rfl rfl rfl rfl ?_
                (fun _ => outside.symm) prepared ?_)
              · rw [control]
                rfl
              · exact current

theorem handleTrap_disabled (masked : here.Masked) {cause : Cause} {claimed : Bool}
    (control : here.control = .handling cause) :
    (handleTrap here processes cause claimed :
      Effect Hart image.target).hart.Disabled := by
  have inside : here.control.isRunning = false := by rw [control]; rfl
  have depth : here.control.depth = 1 := by rw [control]; rfl
  have outside : here.enabledOutside = false := by
    rw [HartState.enabledOutside, control]
  have panics : ∀ {next : HartState image.target}, next.control = here.control →
      next.locking = here.locking → next.Masked →
      (next.released (.stopped false false)).Disabled := by
    intro next same _ masked
    left
    rw [masked.released_eq (by rw [same]; exact depth)]
    rfl
  unfold handleTrap
  split
  · split
    · exact panics rfl rfl masked
    · exact .inr (masked.move inside rfl rfl rfl rfl depth.symm
        (fun _ => outside.symm) (Control.unprepared rfl) (Control.unknown rfl))
  · generalize (if cause = .ecallUMode then handleSyscall here.frame
      else (here.frame, .nothing)) = result
    obtain ⟨frame, syscall⟩ := result
    have masked := masked.withFrame frame
    simp only
    split
    · exact panics rfl rfl masked
    · cases syscall with
      | nothing =>
          exact .inr (masked.move inside rfl rfl rfl rfl depth.symm
            (fun _ => outside.symm) (Control.unprepared rfl) (Control.unknown rfl))
      | exit =>
          exact .inr (masked.move inside rfl rfl rfl rfl depth.symm
            (fun _ => outside.symm) (Control.unprepared rfl) (Control.unknown rfl))
      | putchar character =>
          exact (putcharBuffer_printed masked processes _ character _).disabled masked
            (fun _ => masked.kernelMode inside) inside.symm depth.symm
            (fun _ => outside.symm) (Control.unprepared rfl) (Control.unknown rfl)

theorem kernelStep_disabled (masked : here.Masked) {claimed : Bool}
    {effect : Effect Hart image.target}
    (stepped : kernelStep image hart here processes claimed = some effect) :
    effect.hart.Disabled := by
  unfold kernelStep at stepped
  have prepared := masked.prepared
  have current := masked.current
  cases control : here.control with
  | boot =>
      rw [control] at stepped
      contradiction
  | running =>
      rw [control] at stepped
      contradiction
  | stopped inProcesses inTrap =>
      rw [control] at stepped
      contradiction
  | trapped cause =>
      rw [control] at stepped
      cases stepped
      have inside : here.control.isRunning = false := by rw [control]; rfl
      right
      refine masked.acquired (masked.kernelMode inside) rfl ?_ ?_ rfl rfl
      · rw [control]
        rfl
      · rw [inside, HartState.enabledOutside, HartState.enabledOutside, control,
          ite_self]
  | handling cause =>
      rw [control] at stepped
      cases stepped
      exact handleTrap_disabled masked control
  | destroying inTrap point =>
      rw [control] at stepped
      cases stepped
      exact destroy_disabled masked control
  | switching inTrap point =>
      rw [control] at stepped
      cases stepped
      exact kernelSwitch_disabled masked control
  | creating arguments point =>
      rw [control] at stepped
      cases stepped
      exact create_disabled masked control
  | leaving =>
      rw [control] at stepped prepared current
      cases stepped
      have inside : here.control.isRunning = false := by rw [control]; rfl
      right
      refine masked.released inside ?_ ?_ (absurd rfl) prepared current
      · rw [control]
        rfl
      · rw [HartState.enabledOutside, control]
        rfl
  | restoring =>
      rw [control] at stepped prepared current
      cases stepped
      have inside : here.control.isRunning = false := by rw [control]; rfl
      refine .inr
        (masked.move inside rfl rfl rfl rfl ?_ (absurd rfl) prepared current)
      rw [control]
      rfl
  | returning =>
      rw [control] at stepped prepared current
      cases stepped
      have lockDepth := masked.lockDepth
      rw [control] at lockDepth
      exact .inr
        ⟨(prepared rfl).1, Bool.noConfusion, lockDepth, absurd rfl,
          Control.unprepared rfl, current, masked.outputBuffer⟩

theorem HartState.Masked.takes_isRunning (masked : here.Masked) {cause : Cause}
    (takes : here.takes cause = true) : here.control.isRunning = true := by
  by_contra stays
  have inside : here.control.isRunning = false := Bool.not_eq_true _ |>.mp stays
  have sie := masked.sie
  rw [inside] at sie
  have kernelMode := masked.kernelMode inside
  cases cause <;> simp [HartState.takes, inside, sie, kernelMode] at takes

theorem processStep_disabled (masked : here.Masked) {choice : Choice image.target}
    {effect : Effect Hart image.target}
    (stepped : ProcessStep image here processes choice effect) :
    effect.hart.Disabled := by
  have current := masked.current
  have lockDepth := masked.lockDepth
  have sie := masked.sie
  cases stepped with
  | execute registers pc control =>
      rw [control] at current lockDepth sie
      exact .inr
        ⟨sie, Bool.noConfusion, lockDepth, absurd rfl,
          Control.unprepared rfl, current, masked.outputBuffer⟩
  | trap cause takes =>
      have inside := masked.takes_isRunning takes
      have control := Control.eq_running inside
      rw [control] at lockDepth
      exact .inr
        ⟨rfl, fun _ => rfl, lockDepth, absurd rfl, Control.unprepared rfl,
          Control.unknown rfl,
        masked.outputBuffer⟩
  | putchar character kernelMode going =>
      exact (putcharBuffer_printed masked processes none character _).disabled masked
        (fun _ => kernelMode) rfl rfl (fun _ => rfl) masked.prepared masked.current
  | create arguments page idle =>
      right
      cases idle with
      | inl boot =>
          rw [boot] at current
          refine masked.acquired ?_ rfl ?_ ?_ rfl rfl
          · apply masked.kernelMode
            rw [boot]
            rfl
          · rw [boot]
            rfl
          · rw [boot]
            exact current false rfl
      | inr running =>
          obtain ⟨control, kernelMode⟩ := running
          rw [control] at current
          refine masked.acquired kernelMode rfl ?_ ?_ rfl rfl
          · rw [control]
            rfl
          · rw [control]
            exact current true rfl
  | exit control kernelMode =>
      rw [control] at lockDepth
      exact .inr
        ⟨rfl, fun _ => kernelMode, lockDepth, absurd rfl,
          Control.unprepared rfl, Control.unknown rfl,
        masked.outputBuffer⟩
  | jump control =>
      have inside : here.control.isRunning = false := by rw [control]; rfl
      refine .inr
        (masked.move inside rfl rfl rfl rfl ?_ ?_ (Control.unprepared rfl)
          (Control.unknown rfl))
      · rw [control]
        rfl
      · have outside : here.enabledOutside = false := by
          rw [HartState.enabledOutside, control]
        exact fun _ => outside.symm

theorem effect_disabled (masked : here.Masked) {choice : Choice image.target}
    {effect : Effect Hart image.target}
    (stepped : Scheduling.effect image hart here processes choice = some effect) :
    effect.hart.Disabled := by
  cases effect_inv stepped with
  | inl kernel =>
      obtain ⟨claimed, _, stepped⟩ := kernel
      exact kernelStep_disabled masked stepped
  | inr process => exact processStep_disabled masked process

theorem effect_stopped (stopped : here.control.isStopped = true)
    (choice : Choice image.target) :
    (effect image hart here processes choice : Option (Effect Hart image.target)) =
      none := by
  cases control : here.control with
  | stopped inProcesses inTrap =>
      cases choice <;> simp [effect, kernelStep, processStep, control]
  | _ =>
      rw [control] at stopped
      contradiction

end

section

variable {Hart : Type} [DecidableEq Hart] {image : Image}
  {state : State Hart image.target}

theorem HartState.Booting.masked {here : HartState image.target}
    (booting : here.Booting image) : here.Masked := by
  obtain ⟨control, currentProcess, kernelMode, sie, lockDepth, outputBuffer⟩ :=
    booting
  constructor
  · rw [control]
    exact sie
  · exact fun _ => kernelMode
  · rw [control]
    exact lockDepth
  · rw [control]
    exact fun held => absurd rfl held
  · rw [control]
    exact Bool.false_ne_true.elim
  · rw [control, currentProcess]
    rintro has ⟨⟩
    rfl
  · obtain ⟨outputArray, wrapped⟩ := outputBuffer
    rw [wrapped]
    exact Buffer.wrap_valid outputArray image.bufferLen_pos

theorem disabled_step {action : Action Hart image.target}
    {after : State Hart image.target}
    (disabled : ∀ hart, (state.harts hart).Disabled)
    (stepped : step image state action = some after) (hart : Hart) :
    (after.harts hart).Disabled := by
  obtain ⟨effect, made, applied⟩ := Option.bind_eq_some_iff.mp stepped
  obtain ⟨-, -, harts, -, -⟩ := Effect.apply_eq_some applied
  rw [harts]
  by_cases same : hart = action.hart
  · rw [same, Function.update_self]
    cases disabled action.hart with
    | inl stopped =>
        rw [effect_stopped stopped] at made
        contradiction
    | inr masked => exact effect_disabled masked made
  · rw [Function.update_of_ne same]
    exact disabled hart

theorem disabled_of_reachable (reachable : (machine Hart image).Reachable state)
    (hart : Hart) : (state.harts hart).Disabled := by
  revert hart
  refine reachable.invariant (fun state => ∀ hart, (state.harts hart).Disabled) ?_ ?_
  · intro start starts hart
    exact .inr (starts.harts hart).masked
  · intro before action after disabled stepped
    exact disabled_step disabled stepped

end

end Thos.Scheduling
