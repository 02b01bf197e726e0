import Thos.Data.Transition
import Thos.Kernel.Buffer
import Thos.Kernel.Hart
import Thos.Scheduling.Frame

namespace Thos.Scheduling

open Kernel (Buffer Locking)

/-! Harts, the process table and its lock, and the lock of `handle_trap`. Every
step of a hart is one action on the shared memory. Spin locks are exclusive. -/

inductive ProcessState where
  | unused
  | ready
  | runnable
  | running
  deriving DecidableEq, Repr

structure Process (target : Target) where
  id : UInt8
  state : ProcessState
  frame : TrapFrame target
  pageTable : Word target
  outputBuffer : Buffer

def Process.zero {target : Target} : Process target :=
  ⟨0, .unused, .zero, 0, 0, 0, fun _ => 0⟩

structure Image where
  target : Target
  /-- `PROCESSES_MAXIMUM`; a `Pid` is a `uint8_t`. -/
  processesMaximum : Nat
  processesMaximum_pos : 0 < processesMaximum
  processesMaximum_le : processesMaximum ≤ 256
  bufferLen : Nat
  bufferLen_pos : 0 < bufferLen
  kernelPageTable : Word target
  processExitKernel : Word target
  processExitUser : Word target

inductive Cause where
  | ecallUMode
  | supervisorSoftware
  | supervisorTimer
  | supervisorExternal
  | other (code : Nat)
  deriving DecidableEq, Repr

inductive SyscallNumber where
  | exit
  | yield
  | putchar
  deriving DecidableEq, Repr

def SyscallNumber.value (target : Target) : SyscallNumber → Word target
  | exit => BitVec.ofNat _ 0x0F
  | yield => BitVec.ofNat _ 0x10
  | putchar => BitVec.ofNat _ 0xAA

def userProgramBase (target : Target) : Word target := BitVec.ofNat _ 0x1000000

/-- The arguments of `Process_create`, and the page it gets: the table of
`PageTable_user_init`, or the stack page of `Page_alloc`. -/
structure ProcessArguments (target : Target) where
  isUserProgram : Bool
  userProgramSize : Word target
  kernelEntryAddress : Word target
  page : Word target

inductive CreatePoint where
  | find
  | wipe (slot : Nat)
  | setId (slot : Nat)
  | fill (slot : Nat)
  | markReady (slot : Nat)
  | release
  deriving DecidableEq, Repr

inductive DestroyPoint where
  | acquire
  | clear
  | wipeId (slot : Nat)
  | wipeState (slot : Nat)
  | release
  deriving DecidableEq, Repr

inductive SwitchPoint where
  | enter
  | adjust
  | markRunnable
  | clear (startSearchId : UInt8)
  | acquire (startSearchId : UInt8)
  | scan (startSearchId id : UInt8) (numChecked : Nat)
  | retry (startSearchId : UInt8)
  | select (slot : Nat)
  | markRunning (slot : Nat)
  | release (firstRun : Bool)
  | setReturn (firstRun : Bool)
  | setSatp
  | copyFrame
  deriving DecidableEq, Repr

/-- What a hart does next. `inTrap` tells the calls made under
`trap_print_lock` from those of `jump_into_processes`; a hart that `PANIC`
stopped keeps the locks it held. -/
inductive Control (target : Target) where
  | boot
  | running
  | trapped (cause : Cause)
  | handling (cause : Cause)
  | destroying (inTrap : Bool) (point : DestroyPoint)
  | switching (inTrap : Bool) (point : SwitchPoint)
  | leaving
  | restoring
  | returning
  | creating (arguments : ProcessArguments target) (point : CreatePoint)
  | stopped (inProcesses inTrap : Bool)

def Control.holdsProcessesLock {target : Target} : Control target → Bool
  | .destroying _ .acquire => false
  | .destroying _ _ => true
  | .switching _ (.scan _ _ _) => true
  | .switching _ (.retry _) => true
  | .switching _ (.select _) => true
  | .switching _ (.markRunning _) => true
  | .switching _ (.release _) => true
  | .creating _ _ => true
  | .stopped inProcesses _ => inProcesses
  | _ => false

def Control.holdsTrapPrintLock {target : Target} : Control target → Bool
  | .handling _ => true
  | .destroying inTrap _ => inTrap
  | .switching inTrap _ => inTrap
  | .leaving => true
  | .stopped _ inTrap => inTrap
  | _ => false

def Control.isRunning {target : Target} : Control target → Bool
  | .running => true
  | _ => false

structure HartState (target : Target) where
  control : Control target
  currentProcess : Option Nat
  frame : TrapFrame target
  outputBuffer : Buffer
  registers : Registers target
  pc : Word target
  kernelMode : Bool
  sepc : Word target
  returnToKernelMode : Bool
  trapsAfterSret : Bool
  satp : Word target
  locking : Locking
  newPc : Word target

structure Trap (target : Target) where
  registers : Registers target
  sepc : Word target
  cause : Cause
  kernelMode : Bool

inductive Event (Hart : Type) (target : Target) where
  | stored (hart : Hart) (slot : Nat) (state : ProcessState)
  | accessed (hart : Hart) (slot : Nat)
  | created (slot : Nat) (arguments : ProcessArguments target)
      (frame : TrapFrame target)
  | trapped (slot : Nat) (trap : Trap target)
  | saved (slot : Nat) (frame : TrapFrame target)
  | restored (slot : Nat) (frame : TrapFrame target)
  | resumed (slot : Nat) (registers : Registers target) (pc : Word target)
  /-- A character pushed to a process's buffer, and what it flushed. -/
  | printed (slot : Nat) (character : UInt8) (flushed : List UInt8)
  | wiped (slot : Nat)

inductive LockUse where
  | keep
  | acquire
  | release
  deriving DecidableEq, Repr

/-- One step of a hart: its own state, at most one process, the two locks. -/
structure Effect (Hart : Type) (target : Target) where
  hart : HartState target
  process : Option (Nat × Process target)
  processesLock : LockUse
  trapPrintLock : LockUse
  events : List (Event Hart target)

namespace Effect

variable {Hart : Type} {target : Target}

@[simp] def ofHart (hart : HartState target) : Effect Hart target :=
  ⟨hart, none, .keep, .keep, []⟩

@[simp] def write (effect : Effect Hart target) (slot : Nat)
    (process : Process target) :
    Effect Hart target :=
  { effect with process := some (slot, process) }

@[simp] def emit (effect : Effect Hart target) (events : List (Event Hart target)) :
    Effect Hart target :=
  { effect with events := events }

@[simp] def withProcessesLock (effect : Effect Hart target) (use : LockUse) :
    Effect Hart target :=
  { effect with processesLock := use }

@[simp] def withTrapPrintLock (effect : Effect Hart target) (use : LockUse) :
    Effect Hart target :=
  { effect with trapPrintLock := use }

end Effect

namespace HartState

variable {Hart : Type} {target : Target}

@[simp] def goto (here : HartState target) (control : Control target) :
    Effect Hart target :=
  .ofHart { here with control := control }

/-- `my_hart_pre_lock_acquire`, taken together with the swap that gets the lock:
wherever a hart waits for a lock its traps are disabled already, except that a
kernel process waits inside `running`. -/
def acquired (here : HartState target) (control : Control target) :
    HartState target :=
  { here with locking := here.locking.preLockAcquire.2, control := control }

def withFrame (here : HartState target) (frame : TrapFrame target) :
    HartState target :=
  { here with frame := frame }

def stop (here : HartState target) (control : Control target) : HartState target :=
  { here with control :=
      .stopped control.holdsProcessesLock control.holdsTrapPrintLock }

def released (here : HartState target) (control : Control target) :
    HartState target :=
  match here.locking.postLockRelease with
  | .ok locking => { here with locking := locking, control := control }
  | .error _ => here.stop control

end HartState

section

variable {Hart : Type} {image : Image}

def Process.isKernel (image : Image) (process : Process image.target) : Bool :=
  process.pageTable == image.kernelPageTable

def pidNext (image : Image) (id : UInt8) : UInt8 :=
  UInt8.ofNat ((id.toNat + 1) % image.processesMaximum)

abbrev Processes (target : Target) := Nat → Process target

/-! `Process_create`. -/

def ProcessArguments.entry {target : Target} (arguments : ProcessArguments target) :
    Word target :=
  if arguments.isUserProgram then userProgramBase target
  else arguments.kernelEntryAddress

def Process.identify (image : Image) (process : Process image.target) (slot : Nat) :
    Process image.target :=
  { process with
    id := UInt8.ofNat slot
    outputBuffer := .wrap process.outputBuffer.array image.bufferLen }

def Process.fill (image : Image) (process : Process image.target)
    (arguments : ProcessArguments image.target) : Process image.target :=
  if arguments.isUserProgram then
    { process with
      pageTable := arguments.page
      frame := (process.frame.set .ra (userProgramBase _)).set .sp
        (userProgramBase _ + arguments.userProgramSize) }
  else
    { process with
      pageTable := image.kernelPageTable
      frame := (process.frame.set .sp
        (arguments.page + BitVec.ofNat _ VirtualMemory.pageSize)).set .ra
          arguments.kernelEntryAddress }

def findUnused (image : Image) (processes : Processes image.target) : Option Nat :=
  (List.range image.processesMaximum).find? fun index =>
    decide ((processes index).state = .unused)

def create (image : Image) (hart : Hart) (here : HartState image.target)
    (processes : Processes image.target)
    (arguments : ProcessArguments image.target) :
    CreatePoint → Effect Hart image.target
  | .find =>
      match findUnused image processes with
      | none => here.goto (.stopped true false)
      | some index => here.goto (.creating arguments (.wipe index))
  | .wipe slot =>
      ((here.goto (.creating arguments (.setId slot))).write slot .zero).emit
        [.accessed hart slot, .stored hart slot .unused, .wiped slot]
  | .setId slot =>
      (here.goto (.creating arguments (.fill slot))).write slot
        ((processes slot).identify image slot)
  | .fill slot =>
      ((here.goto (.creating arguments (.markReady slot))).write slot
        ((processes slot).fill image arguments)).emit [.accessed hart slot]
  | .markReady slot =>
      ((here.goto (.creating arguments .release)).write slot
        { processes slot with state := .ready }).emit
          [.stored hart slot .ready,
            .created slot arguments (processes slot).frame]
  | .release =>
      (Effect.ofHart (here.released (if here.currentProcess.isNone then .boot
        else .running))).withProcessesLock .release

/-! `Process_destroy_current`. -/

def destroy (hart : Hart) (here : HartState image.target)
    (processes : Processes image.target) (inTrap : Bool) :
    DestroyPoint → Effect Hart image.target
  | .acquire =>
      (Effect.ofHart (here.acquired (.destroying inTrap .clear))).withProcessesLock
        .acquire
  | .clear =>
      match here.currentProcess with
      | none => here.goto (.stopped true inTrap)
      | some slot =>
          { here with currentProcess := none }.goto
            (.destroying inTrap (.wipeId slot))
  | .wipeId slot =>
      (here.goto (.destroying inTrap (.wipeState slot))).write slot
        { processes slot with id := 255 }
  | .wipeState slot =>
      ((here.goto (.destroying inTrap .release)).write slot
        { processes slot with state := .unused }).emit [.stored hart slot .unused]
  | .release =>
      (Effect.ofHart (here.released
        (.switching inTrap .enter))).withProcessesLock .release

/-! `kernel_switch`. -/

/-- A switch under `trap_print_lock` returns to `handle_trap`, which releases it;
the other one returns to `jump_into_processes`. -/
def afterSwitch {target : Target} (inTrap : Bool) : Control target :=
  if inTrap then .leaving else .restoring

def Process.adjust (image : Image) (process : Process image.target) :
    Process image.target :=
  if process.isKernel image then process
  else { process with frame := { process.frame with pc := process.frame.pc + 4 } }

def Process.return (image : Image) (process : Process image.target)
    (firstRun : Bool) : Word image.target × Process image.target :=
  if firstRun then
    (process.frame.registers .ra, { process with
      frame := process.frame.set .ra (if process.isKernel image
        then image.processExitKernel else image.processExitUser) })
  else (process.frame.pc, process)

def kernelSwitch (image : Image) (hart : Hart) (here : HartState image.target)
    (processes : Processes image.target) (inTrap : Bool) :
    SwitchPoint → Effect Hart image.target
  | .enter =>
      match here.currentProcess with
      | none => here.goto (.switching inTrap (.acquire 0))
      | some slot =>
          ((here.goto (.switching inTrap .adjust)).write slot
            { processes slot with frame := here.frame }).emit [.accessed hart slot]
  | .adjust =>
      match here.currentProcess with
      | none => here.goto (.stopped false inTrap)
      | some slot =>
          ((here.goto (.switching inTrap .markRunnable)).write slot
            ((processes slot).adjust image)).emit [.accessed hart slot]
  | .markRunnable =>
      match here.currentProcess with
      | none => here.goto (.stopped false inTrap)
      | some slot =>
          ((here.goto (.switching inTrap
            (.clear (pidNext image (processes slot).id)))).write slot
              { processes slot with state := .runnable }).emit
                [.stored hart slot .runnable, .saved slot (processes slot).frame]
  | .clear startSearchId =>
      { here with currentProcess := none }.goto
        (.switching inTrap (.acquire startSearchId))
  | .acquire startSearchId =>
      (Effect.ofHart (here.acquired (.switching inTrap
        (.scan startSearchId startSearchId 0)))).withProcessesLock .acquire
  | .scan startSearchId id numChecked =>
      if numChecked < image.processesMaximum then
        if (processes id.toNat).state = .runnable ∨
            (processes id.toNat).state = .ready then
          here.goto (.switching inTrap (.select id.toNat))
        else
          here.goto (.switching inTrap
            (.scan startSearchId (pidNext image id) (numChecked + 1)))
      else here.goto (.switching inTrap (.retry startSearchId))
  | .retry startSearchId =>
      (Effect.ofHart (here.released (.switching inTrap
        (.acquire startSearchId)))).withProcessesLock .release
  | .select slot =>
      { here with currentProcess := some slot }.goto
        (.switching inTrap (.markRunning slot))
  | .markRunning slot =>
      ((here.goto (.switching inTrap
        (.release (decide ((processes slot).state = .ready))))).write slot
          { processes slot with state := .running }).emit
            [.stored hart slot .running]
  | .release firstRun =>
      (Effect.ofHart (here.released (.switching inTrap
        (.setReturn firstRun)))).withProcessesLock .release
  | .setReturn firstRun =>
      match here.currentProcess with
      | none => here.goto (.stopped false inTrap)
      | some slot =>
          let (newPc, process) := (processes slot).return image firstRun
          (({ here with
              newPc := newPc
              sepc := newPc
              returnToKernelMode := process.isKernel image
              trapsAfterSret := true }.goto
                (.switching inTrap .setSatp)).write slot process).emit
                  [.accessed hart slot]
  | .setSatp =>
      match here.currentProcess with
      | none => here.goto (.stopped false inTrap)
      | some slot =>
          ((here.goto (.switching inTrap .copyFrame)).write slot
            { processes slot with frame := { (processes slot).frame with
                satp := satpFromPageTable (processes slot).pageTable } }).emit
                  [.accessed hart slot]
  | .copyFrame =>
      match here.currentProcess with
      | none => here.goto (.stopped false inTrap)
      | some slot =>
          ({ here with frame := (processes slot).frame }.goto
            (afterSwitch inTrap)).emit
              [.accessed hart slot, .restored slot (processes slot).frame]

/-! Printing. -/

/-- `putchar_buffer`, one step under `io_spinlock`: into the buffer of `process`,
or with none into that of `my_hart_or_process_output_buffer`. -/
def putcharBuffer {target : Target} (here : HartState target)
    (processes : Processes target) (process : Option Nat) (character : UInt8)
    (control : Control target) : Effect Hart target :=
  let (wereInterruptsEnabled, locking) := here.locking.preLockAcquire
  let here := { here with locking := locking }
  let process := process.or
    (if wereInterruptsEnabled then here.currentProcess else none)
  match process with
  | some slot =>
      match (processes slot).outputBuffer.outputHandleNew character with
      | .ok (flushed, buffer) =>
          ((Effect.ofHart (here.released control)).write slot
            { processes slot with outputBuffer := buffer }).emit
              [.printed slot character flushed]
      | .error _ => .ofHart (here.stop here.control)
  | none =>
      match here.outputBuffer.outputHandleNew character with
      | .ok (_, buffer) =>
          .ofHart ({ here with outputBuffer := buffer }.released control)
      | .error _ => .ofHart (here.stop here.control)

/-! `handle_trap`. -/

def printedCharacter {target : Target} (a1 : Word target) : Word target :=
  (a1.setWidth 32).signExtend target.pointerBits

/-- What `handle_syscall` does besides writing the frame. -/
inductive Syscall where
  | nothing
  | putchar (character : UInt8)
  | exit
  deriving DecidableEq, Repr

def handleSyscall {target : Target} (frame : TrapFrame target) :
    TrapFrame target × Syscall :=
  if frame.registers .a0 = SyscallNumber.yield.value target then (frame, .nothing)
  else if frame.registers .a0 = SyscallNumber.putchar.value target then
    (frame.set .a0 (printedCharacter (frame.registers .a1)),
      .putchar (UInt8.ofNat (frame.registers .a1).toNat))
  else if frame.registers .a0 = SyscallNumber.exit.value target then (frame, .exit)
  else (frame, .nothing)

def fatal (wasInKernelMode wasInProcess : Bool) (cause : Cause) : Bool :=
  ((wasInKernelMode &&
        !(cause = .supervisorSoftware || cause = .supervisorTimer) ||
      !wasInKernelMode && !(cause = .ecallUMode || cause = .supervisorTimer)) &&
    !(cause = .supervisorExternal)) || !wasInProcess

/-- `handle_trap` under its lock. `claimed` is whether the interrupt that the
PLIC gives is the UART's. -/
def handleTrap (here : HartState image.target) (processes : Processes image.target)
    (cause : Cause) (claimed : Bool) : Effect Hart image.target :=
  if fatal here.returnToKernelMode here.currentProcess.isSome cause then
    if here.returnToKernelMode then
      (Effect.ofHart (here.released (.stopped false false))).withTrapPrintLock
        .release
    else here.goto (.destroying true .acquire)
  else
    let (frame, syscall) := if cause = .ecallUMode then handleSyscall here.frame
      else (here.frame, .nothing)
    let here := here.withFrame frame
    if cause = .supervisorExternal && !claimed then
      (Effect.ofHart (here.released (.stopped false false))).withTrapPrintLock
        .release
    else
      match syscall with
      | .nothing => here.goto (.switching true .enter)
      | .exit => here.goto (.destroying true .acquire)
      | .putchar character =>
          putcharBuffer here processes here.currentProcess character
            (.switching true .enter)

end

/-! Steps. -/

inductive Choice (target : Target) where
  | kernel (claimed : Bool)
  | execute (registers : Registers target) (pc : Word target)
  | trap (cause : Cause)
  | putchar (character : UInt8)
  | create (arguments : ProcessArguments target)
  | exit
  | jump

structure Action (Hart : Type) (target : Target) where
  hart : Hart
  choice : Choice target

section

variable {Hart : Type} {image : Image}

def kernelStep (image : Image) (hart : Hart) (here : HartState image.target)
    (processes : Processes image.target) (claimed : Bool) :
    Option (Effect Hart image.target) :=
  match here.control with
  | .boot => none
  | .running => none
  | .stopped _ _ => none
  | .trapped cause =>
      some ((Effect.ofHart (here.acquired (.handling cause))).withTrapPrintLock
        .acquire)
  | .handling cause => some (handleTrap here processes cause claimed)
  | .destroying inTrap point => some (destroy hart here processes inTrap point)
  | .switching inTrap point =>
      some (kernelSwitch image hart here processes inTrap point)
  | .creating arguments point =>
      some (create image hart here processes arguments point)
  | .leaving =>
      some ((Effect.ofHart (here.released .restoring)).withTrapPrintLock .release)
  | .restoring =>
      some ({ here with
        satp := here.frame.satp
        registers := restoreAfterTrap here.registers here.frame }.goto .returning)
  | .returning =>
      some (({ here with
        pc := here.sepc
        kernelMode := here.returnToKernelMode
        returnToKernelMode := false
        locking := { here.locking with sie := here.trapsAfterSret }
        trapsAfterSret := true }.goto .running).emit
          (here.currentProcess.toList.map fun slot =>
            .resumed slot here.registers here.sepc))

/-- An interrupt is taken in user mode, or while traps are enabled. The kernel
itself raises no exception. -/
def HartState.takes {target : Target} (here : HartState target) : Cause → Bool
  | .ecallUMode => here.control.isRunning && !here.kernelMode
  | .other _ => here.control.isRunning
  | .supervisorSoftware => !here.kernelMode || here.locking.sie
  | .supervisorTimer => !here.kernelMode || here.locking.sie
  | .supervisorExternal => !here.kernelMode || here.locking.sie

/-- The trap itself, and `trap_vector`. -/
def HartState.trap (image : Image) (here : HartState image.target) (cause : Cause) :
    Effect Hart image.target :=
  ({ here with
      sepc := here.pc
      returnToKernelMode := here.kernelMode
      kernelMode := true
      trapsAfterSret := here.locking.sie
      locking := { here.locking with sie := false }
      satp := satpFromPageTable image.kernelPageTable
      frame := trapVector here.registers here.pc here.frame }.goto
        (.trapped cause)).emit
          (here.currentProcess.toList.map fun slot => .trapped slot
            ⟨here.registers, here.pc, cause, here.kernelMode⟩)

/-- A new user process gets a page table of its own. -/
def processStep (image : Image) (here : HartState image.target)
    (processes : Processes image.target) :
    Choice image.target → Option (Effect Hart image.target)
  | .kernel _ => none
  | .execute registers pc =>
      match here.control with
      | .running =>
          some ({ here with registers := registers, pc := pc }.goto .running)
      | _ => none
  | .trap cause =>
      match here.control with
      | .stopped _ _ => none
      | _ => if here.takes cause then some (here.trap image cause) else none
  | .putchar character =>
      match here.control with
      | .stopped _ _ => none
      | _ =>
          if here.kernelMode then
            some (putcharBuffer here processes none character here.control)
          else none
  | .create arguments =>
      if arguments.isUserProgram ∧ arguments.page = image.kernelPageTable then none
      else
        match here.control with
        | .boot =>
            some ((Effect.ofHart (here.acquired
              (.creating arguments .find))).withProcessesLock .acquire)
        | .running =>
            if here.kernelMode then
              some ((Effect.ofHart (here.acquired
                (.creating arguments .find))).withProcessesLock .acquire)
            else none
        | _ => none
  | .exit =>
      match here.control with
      | .running =>
          if here.kernelMode then
            some ({ here with locking := here.locking.disableTrapsNow.2 }.goto
              (.destroying false .acquire))
          else none
      | _ => none
  | .jump =>
      match here.control with
      | .boot => some (here.goto (.switching false .enter))
      | _ => none

def effect (image : Image) (hart : Hart) (here : HartState image.target)
    (processes : Processes image.target) :
    Choice image.target → Option (Effect Hart image.target)
  | .kernel claimed => kernelStep image hart here processes claimed
  | choice => processStep image here processes choice

structure State (Hart : Type) (target : Target) where
  harts : Hart → HartState target
  processes : Processes target
  processesLock : Option Hart
  trapPrintLock : Option Hart
  /-- The events so far, oldest first; no step reads them. -/
  trace : List (Event Hart target)

/-- An acquire waits until the lock is free. -/
def LockUse.apply (use : LockUse) (hart : Hart) (lock : Option Hart) :
    Option (Option Hart) :=
  match use with
  | .keep => some lock
  | .acquire => if lock.isNone then some (some hart) else none
  | .release => some none

def Effect.processes {target : Target} (effect : Effect Hart target)
    (processes : Processes target) : Processes target :=
  match effect.process with
  | none => processes
  | some (slot, process) => Function.update processes slot process

section

variable {target : Target} {effect : Effect Hart target} {slot : Nat}
  {process : Process target}

theorem Effect.processes_none (nothing : effect.process = none)
    (processes : Processes target) : effect.processes processes = processes := by
  rw [Effect.processes, nothing]

theorem Effect.processes_self (written : effect.process = some (slot, process))
    (processes : Processes target) : effect.processes processes slot = process := by
  rw [Effect.processes, written]
  exact Function.update_self ..

theorem Effect.processes_of_ne (written : effect.process = some (slot, process))
    (processes : Processes target) {other : Nat} (different : other ≠ slot) :
    effect.processes processes other = processes other := by
  rw [Effect.processes, written]
  exact Function.update_of_ne different ..

end

variable [DecidableEq Hart]

def Effect.apply {target : Target} (effect : Effect Hart target) (hart : Hart)
    (state : State Hart target) : Option (State Hart target) := do
  let processesLock ← effect.processesLock.apply hart state.processesLock
  let trapPrintLock ← effect.trapPrintLock.apply hart state.trapPrintLock
  return {
    harts := Function.update state.harts hart effect.hart
    processes := effect.processes state.processes
    processesLock := processesLock
    trapPrintLock := trapPrintLock
    trace := state.trace ++ effect.events }

def step (image : Image) (state : State Hart image.target)
    (action : Action Hart image.target) : Option (State Hart image.target) := do
  let effect ← effect image action.hart (state.harts action.hart) state.processes
    action.choice
  effect.apply action.hart state

theorem Effect.apply_eq_some {state after : State Hart image.target}
    {hart : Hart} {effect : Effect Hart image.target}
    (applied : effect.apply hart state = some after) :
    effect.processesLock.apply hart state.processesLock = some after.processesLock ∧
      effect.trapPrintLock.apply hart state.trapPrintLock = some after.trapPrintLock ∧
      after.harts = Function.update state.harts hart effect.hart ∧
      after.processes = effect.processes state.processes ∧
      after.trace = state.trace ++ effect.events := by
  obtain ⟨processesLock, processesUsed, rest⟩ := Option.bind_eq_some_iff.mp applied
  obtain ⟨trapPrintLock, trapUsed, same⟩ := Option.bind_eq_some_iff.mp rest
  cases same
  exact ⟨processesUsed, trapUsed, rfl, rfl, rfl⟩

/-- A hart in its boot code: traps are disabled, and `HartScratch_init_all` has
run. -/
structure HartState.Booting (image : Image) (here : HartState image.target) :
    Prop where
  control : here.control = .boot
  currentProcess : here.currentProcess = none
  kernelMode : here.kernelMode = true
  sie : here.locking.sie = false
  lockDepth : here.locking.lockDepth = 0
  outputBuffer : ∃ outputArray, here.outputBuffer = .wrap outputArray image.bufferLen

structure Booting (image : Image) (state : State Hart image.target) : Prop where
  harts : ∀ hart, (state.harts hart).Booting image
  processes : ∀ slot, state.processes slot = .zero
  processesLock : state.processesLock = none
  trapPrintLock : state.trapPrintLock = none
  trace : state.trace = []

def machine (Hart : Type) [DecidableEq Hart] (image : Image) :
    Data.Transition.System (State Hart image.target) (Action Hart image.target) :=
  .ofFunction (Booting image) (step image)

end

end Thos.Scheduling
