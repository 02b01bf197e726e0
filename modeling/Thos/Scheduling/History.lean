import Thos.Data.Trace
import Thos.Scheduling.Machine

namespace Thos.Scheduling

/-! What a trace says about each slot, and what every event has to meet. -/

variable {Hart : Type} {target : Target}

inductive Context (target : Target) where
  | created (arguments : ProcessArguments target) (frame : TrapFrame target)
  | trapped (trap : Trap target)

inductive Save (target : Target) where
  | created (frame : TrapFrame target)
  | switched (frame : TrapFrame target)

structure History (Hart : Type) (target : Target) where
  /-- From a hart's store of `PROCESS_RUNNING` to its next one of
  `PROCESS_RUNNABLE` or `PROCESS_UNUSED`. -/
  owns : Hart → Nat → Prop
  context : Nat → Option (Context target)
  saved : Nat → Option (Save target)

namespace History

def start : History Hart target := ⟨fun _ _ => False, fun _ => none, fun _ => none⟩

/-- A store of `PROCESS_READY` starts and ends no ownership. -/
def store (history : History Hart target) (hart : Hart) (slot : Nat)
    (state : ProcessState) : History Hart target :=
  { history with
    owns := fun other index =>
      if state = .ready then history.owns other index
      else (state = .running ∧ other = hart ∧ index = slot) ∨
        (¬(other = hart ∧ index = slot) ∧ history.owns other index) }

def record (history : History Hart target) : Event Hart target → History Hart target
  | .stored hart slot state => history.store hart slot state
  | .accessed _ _ => history
  | .created slot arguments frame =>
      { history with
        context := Function.update history.context slot
          (some (.created arguments frame))
        saved := Function.update history.saved slot (some (.created frame)) }
  | .trapped slot trap =>
      { history with
        context := Function.update history.context slot (some (.trapped trap)) }
  | .saved slot frame =>
      { history with
        saved := Function.update history.saved slot (some (.switched frame)) }
  | .restored _ _ => history
  | .resumed _ _ _ => history
  | .printed _ _ _ => history
  | .wiped _ => history

def ofTrace (trace : List (Event Hart target)) : History Hart target :=
  trace.foldl record start

end History

/-- The registers a trapped process goes on with: those of the trap, but `a0` of
a `SYSCALL_PUTCHAR` is the printed character. -/
def Trap.resumeRegisters (trap : Trap target) : Registers target :=
  if trap.cause = .ecallUMode ∧
      trap.registers .a0 = SyscallNumber.putchar.value target then
    Function.update trap.registers .a0 (printedCharacter (trap.registers .a1))
  else trap.registers

def Trap.switchPc (trap : Trap target) : Word target :=
  if trap.kernelMode then trap.sepc else trap.sepc + 4

/-- The registers and the pc that `kernel_switch` gives a process. -/
def Context.resumption (image : Image) :
    Context image.target → Registers image.target × Word image.target
  | .created arguments frame =>
      (Function.update frame.registers .ra
        (if arguments.isUserProgram then image.processExitUser
          else image.processExitKernel), arguments.entry)
  | .trapped trap => (trap.resumeRegisters, trap.switchPc)

/-- A restored frame is the one last saved; a new process has a new `ra`. -/
def Save.Restores : Save target → TrapFrame target → Prop
  | .created saved, frame =>
      (∀ register, register ≠ .ra →
        frame.registers register = saved.registers register) ∧
          frame.pc = saved.pc
  | .switched saved, frame =>
      frame.registers = saved.registers ∧ frame.pc = saved.pc

/-- What the history has to say before an event: a frame is accessed while no
other hart owns the slot, restored as it was last saved, and a process is
resumed where its context says. -/
def Admits (image : Image) (history : History Hart image.target) :
    Event Hart image.target → Prop
  | .accessed hart slot => ∀ other, history.owns other slot → other = hart
  | .restored slot frame =>
      ∃ save, history.saved slot = some save ∧ save.Restores frame
  | .resumed slot registers pc =>
      ∃ context, history.context slot = some context ∧
        context.resumption image = (registers, pc)
  | _ => True

end Thos.Scheduling
