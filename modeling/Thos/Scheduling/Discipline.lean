import Thos.Data.Ownership
import Thos.Scheduling.History

namespace Thos.Scheduling

open Data.Ownership

/-! The assertion at each control point, about the slots a hart has a right to. -/

structure Cell (target : Target) where
  process : Process target
  context : Option (Context target)
  saved : Option (Save target)

variable {image : Image}

abbrev Cells (target : Target) := Nat → Cell target

namespace HartState

def owned (here : HartState image.target) : Option Nat :=
  match here.control with
  | .boot => none
  | .destroying _ (.wipeId slot) => some slot
  | .destroying _ (.wipeState slot) => some slot
  | .destroying _ .release => none
  | .switching _ (.clear _) => none
  | .switching _ (.acquire _) => none
  | .switching _ (.scan _ _ _) => none
  | .switching _ (.retry _) => none
  | .switching _ (.select _) => none
  | .switching _ (.markRunning _) => none
  | _ => here.currentProcess

def chosen (here : HartState image.target) : Option Nat :=
  match here.control with
  | .switching _ (.select slot) => some slot
  | .switching _ (.markRunning slot) => some slot
  | .creating _ (.wipe slot) => some slot
  | .creating _ (.setId slot) => some slot
  | .creating _ (.fill slot) => some slot
  | .creating _ (.markReady slot) => some slot
  | _ => none

def Right (here : HartState image.target) (slot : Nat) : Prop :=
  here.owned = some slot ∨ here.chosen = some slot

abbrev HoldsProcessesLock (here : HartState image.target) : Prop :=
  here.control.holdsProcessesLock = true

abbrev HoldsTrapPrintLock (here : HartState image.target) : Prop :=
  here.control.holdsTrapPrintLock = true

end HartState

/-- The slot of a process that a hart runs. -/
structure Running (image : Image) (cells : Cells image.target) (slot : Nat) :
    Prop where
  bound : slot < image.processesMaximum
  state : (cells slot).process.state = .running
  id : (cells slot).process.id = UInt8.ofNat slot
  outputBuffer : (cells slot).process.outputBuffer.Valid

structure Fresh (image : Image) (cell : Cell image.target)
    (arguments : ProcessArguments image.target) : Prop where
  context : cell.context = some (.created arguments cell.process.frame)
  saved : cell.saved = some (.created cell.process.frame)
  entry : cell.process.frame.registers .ra = arguments.entry
  kernel : cell.process.isKernel image = !arguments.isUserProgram

/-- The frame of a process that has been switched off. -/
structure Suspended (image : Image) (cell : Cell image.target)
    (trap : Trap image.target) : Prop where
  context : cell.context = some (.trapped trap)
  saved : cell.saved = some (.switched cell.process.frame)
  registers : cell.process.frame.registers = trap.resumeRegisters
  pc : cell.process.frame.pc = trap.switchPc

/-- A process that can be switched on, for the first time or not. -/
inductive Resumable (image : Image) (cell : Cell image.target) : Bool → Prop where
  | fresh (arguments : ProcessArguments image.target)
      (fresh : Fresh image cell arguments) : Resumable image cell true
  | suspended (trap : Trap image.target)
      (suspended : Suspended image cell trap) : Resumable image cell false

/-- A slot that nobody has a right to. -/
structure Waiting (image : Image) (slot : Nat) (cell : Cell image.target) : Prop where
  notRunning : cell.process.state ≠ .running
  bound : cell.process.state ≠ .unused → slot < image.processesMaximum
  id : cell.process.state ≠ .unused → cell.process.id = UInt8.ofNat slot
  outputBuffer : cell.process.state ≠ .unused → cell.process.outputBuffer.Valid
  resumable : cell.process.state ≠ .unused →
    Resumable image cell (decide (cell.process.state = .ready))

/-- What a hart knows about the slot it creates a process in. -/
def Creates (image : Image) (cells : Cells image.target)
    (arguments : ProcessArguments image.target) : CreatePoint → Prop
  | .wipe slot => slot < image.processesMaximum ∧
      (cells slot).process.state = .unused
  | .setId slot => slot < image.processesMaximum ∧
      (cells slot).process = .zero
  | .fill slot => slot < image.processesMaximum ∧
      (cells slot).process = Process.zero.identify image slot
  | .markReady slot => slot < image.processesMaximum ∧
      (cells slot).process =
        (Process.zero.identify image slot).fill image arguments
  | _ => True

namespace HartState

variable (cells : Cells image.target) (here : HartState image.target)

def Runs (slot : Nat) : Prop :=
  here.currentProcess = some slot ∧ Running image cells slot

/-- The hart is inside its current process, in its mode and its address space. -/
def Executes : Prop :=
  ∃ slot, here.Runs cells slot ∧
    here.kernelMode = (cells slot).process.isKernel image ∧
    here.satp = satpFromPageTable (cells slot).process.pageTable

def Idle : Prop := here.currentProcess = none ∨ here.Executes cells

/-- The hart's frame holds what its current process trapped with. -/
def Caught (cause : Cause) : Prop :=
  ∃ slot trap, here.Runs cells slot ∧
    (cells slot).context = some (.trapped trap) ∧
    here.frame.registers = trap.registers ∧ here.frame.pc = trap.sepc ∧
    trap.cause = cause ∧ here.returnToKernelMode = trap.kernelMode ∧
    trap.kernelMode = (cells slot).process.isKernel image

/-- The hart's frame holds what its current process goes on with, at the trap's
pc. -/
def Settled : Prop :=
  ∃ slot trap, here.Runs cells slot ∧
    (cells slot).context = some (.trapped trap) ∧
    here.frame.registers = trap.resumeRegisters ∧ here.frame.pc = trap.sepc ∧
    trap.kernelMode = (cells slot).process.isKernel image

/-- As `Settled`, for the frame in the slot. -/
def Copied : Prop :=
  ∃ slot trap, here.Runs cells slot ∧
    (cells slot).context = some (.trapped trap) ∧
    (cells slot).process.frame.registers = trap.resumeRegisters ∧
    (cells slot).process.frame.pc = trap.sepc ∧
    trap.kernelMode = (cells slot).process.isKernel image

def Adjusted : Prop :=
  ∃ slot trap, here.Runs cells slot ∧
    (cells slot).context = some (.trapped trap) ∧
    (cells slot).process.frame.registers = trap.resumeRegisters ∧
    (cells slot).process.frame.pc = trap.switchPc

def Selected (firstRun : Bool) : Prop :=
  ∃ slot, here.Runs cells slot ∧ Resumable image (cells slot) firstRun

/-- `registers` and `sepc` are those the current process goes on with. -/
def Returning (registers : Nat → Registers image.target) : Prop :=
  ∃ slot context, here.Runs cells slot ∧
    (cells slot).context = some context ∧
    context.resumption image = (registers slot, here.sepc) ∧
    here.returnToKernelMode = (cells slot).process.isKernel image

/-- `satp` is the one of the current process's table. -/
def Translates (satp : Nat → Word image.target) : Prop :=
  ∀ slot, here.currentProcess = some slot →
    satp slot = satpFromPageTable (cells slot).process.pageTable

def Kept : Prop :=
  ∀ slot, here.currentProcess = some slot →
    ∃ save, (cells slot).saved = some save ∧
      save.Restores (cells slot).process.frame

def Ok : Prop :=
  match here.control with
  | .boot => here.currentProcess = none
  | .running => here.Executes cells
  | .trapped cause => here.Caught cells cause
  | .handling cause => here.Caught cells cause
  | .destroying _ .acquire => ∃ slot, here.Runs cells slot
  | .destroying _ .clear => ∃ slot, here.Runs cells slot
  | .destroying _ (.wipeId slot) => here.currentProcess = none ∧
      slot < image.processesMaximum ∧ (cells slot).process.state = .running
  | .destroying _ (.wipeState slot) => here.currentProcess = none ∧
      slot < image.processesMaximum ∧ (cells slot).process.state = .running
  | .destroying _ .release => here.currentProcess = none
  | .switching _ .enter => here.currentProcess = none ∨ here.Settled cells
  | .switching _ .adjust => here.Copied cells
  | .switching _ .markRunnable => here.Adjusted cells
  | .switching _ (.clear _) => True
  | .switching _ (.acquire _) => here.currentProcess = none
  | .switching _ (.scan _ _ _) => here.currentProcess = none
  | .switching _ (.retry _) => here.currentProcess = none
  | .switching _ (.select slot) => here.currentProcess = none ∧
      (cells slot).process.state ≠ .unused ∧ Waiting image slot (cells slot)
  | .switching _ (.markRunning slot) => here.currentProcess = some slot ∧
      (cells slot).process.state ≠ .unused ∧ Waiting image slot (cells slot)
  | .switching _ (.release firstRun) => here.Selected cells firstRun
  | .switching _ (.setReturn firstRun) => here.Selected cells firstRun
  | .switching _ .setSatp =>
      here.Returning cells (fun slot => (cells slot).process.frame.registers) ∧
        here.Kept cells
  | .switching _ .copyFrame =>
      here.Returning cells (fun slot => (cells slot).process.frame.registers) ∧
        here.Kept cells ∧
        here.Translates cells (fun slot => (cells slot).process.frame.satp)
  | .leaving => here.Returning cells (fun _ => here.frame.registers) ∧
      here.Translates cells (fun _ => here.frame.satp)
  | .restoring => here.Returning cells (fun _ => here.frame.registers) ∧
      here.Translates cells (fun _ => here.frame.satp)
  | .returning => here.Returning cells (fun _ => here.registers) ∧
      here.Translates cells (fun _ => here.satp)
  | .creating arguments point => here.Idle cells ∧
      (arguments.isUserProgram = true → arguments.page ≠ image.kernelPageTable) ∧
      Creates image cells arguments point
  | .stopped _ _ => here.currentProcess = none ∨ ∃ slot, here.Runs cells slot

section

variable {cells : Cells image.target} {here : HartState image.target}
  {others : Cells image.target}
  (same : ∀ slot, here.currentProcess = some slot → others slot = cells slot)

include same

theorem Runs.congr {slot : Nat} (runs : here.Runs cells slot) :
    here.Runs others slot := by
  obtain ⟨current, bound, state, id, outputBuffer⟩ := runs
  rw [← same slot current] at state id outputBuffer
  exact ⟨current, bound, state, id, outputBuffer⟩

theorem Executes.congr (executes : here.Executes cells) : here.Executes others := by
  obtain ⟨slot, runs, facts⟩ := executes
  rw [← same slot runs.1] at facts
  exact ⟨slot, runs.congr same, facts⟩

theorem Idle.congr (idle : here.Idle cells) : here.Idle others := by
  cases idle with
  | inl none => exact .inl none
  | inr executes => exact .inr (executes.congr same)

theorem Caught.congr {cause : Cause} (caught : here.Caught cells cause) :
    here.Caught others cause := by
  obtain ⟨slot, trap, runs, facts⟩ := caught
  rw [← same slot runs.1] at facts
  exact ⟨slot, trap, runs.congr same, facts⟩

theorem Settled.congr (settled : here.Settled cells) : here.Settled others := by
  obtain ⟨slot, trap, runs, facts⟩ := settled
  rw [← same slot runs.1] at facts
  exact ⟨slot, trap, runs.congr same, facts⟩

theorem Copied.congr (copied : here.Copied cells) : here.Copied others := by
  obtain ⟨slot, trap, runs, facts⟩ := copied
  rw [← same slot runs.1] at facts
  exact ⟨slot, trap, runs.congr same, facts⟩

theorem Adjusted.congr (adjusted : here.Adjusted cells) : here.Adjusted others := by
  obtain ⟨slot, trap, runs, facts⟩ := adjusted
  rw [← same slot runs.1] at facts
  exact ⟨slot, trap, runs.congr same, facts⟩

theorem Selected.congr {firstRun : Bool} (selected : here.Selected cells firstRun) :
    here.Selected others firstRun := by
  obtain ⟨slot, runs, resumable⟩ := selected
  rw [← same slot runs.1] at resumable
  exact ⟨slot, runs.congr same, resumable⟩

theorem Returning.congr {registers other : Nat → Registers image.target}
    (equal : ∀ slot, here.currentProcess = some slot → other slot = registers slot)
    (returning : here.Returning cells registers) : here.Returning others other := by
  obtain ⟨slot, context, runs, facts⟩ := returning
  rw [← same slot runs.1, ← equal slot runs.1] at facts
  exact ⟨slot, context, runs.congr same, facts⟩

theorem Translates.congr {satp other : Nat → Word image.target}
    (equal : ∀ slot, here.currentProcess = some slot → other slot = satp slot)
    (translates : here.Translates cells satp) : here.Translates others other := by
  intro slot current
  rw [same slot current, equal slot current]
  exact translates slot current

theorem Kept.congr (kept : here.Kept cells) : here.Kept others := by
  intro slot current
  rw [same slot current]
  exact kept slot current

end

theorem Ok.congr {cells others : Cells image.target} {here : HartState image.target}
    (same : ∀ slot, here.Right slot → others slot = cells slot)
    (ok : here.Ok cells) : here.Ok others := by
  obtain ⟨control, currentProcess, _⟩ := here
  cases control with
  | boot => exact ok
  | running => exact Executes.congr (fun slot current => same slot (.inl current)) ok
  | trapped cause =>
    exact Caught.congr (fun slot current => same slot (.inl current)) ok
  | handling cause =>
      exact Caught.congr (fun slot current => same slot (.inl current)) ok
  | destroying inTrap point =>
      cases point with
      | acquire =>
          obtain ⟨slot, runs⟩ := ok
          exact ⟨slot, runs.congr fun slot current => same slot (.inl current)⟩
      | clear =>
          obtain ⟨slot, runs⟩ := ok
          exact ⟨slot, runs.congr fun slot current => same slot (.inl current)⟩
      | wipeId slot =>
          obtain ⟨none, bound, state⟩ := ok
          rw [← same slot (.inl rfl)] at state
          exact ⟨none, bound, state⟩
      | wipeState slot =>
          obtain ⟨none, bound, state⟩ := ok
          rw [← same slot (.inl rfl)] at state
          exact ⟨none, bound, state⟩
      | release => exact ok
  | switching inTrap point =>
      cases point with
      | enter =>
          cases ok with
          | inl none => exact .inl none
          | inr settled =>
              exact .inr
                (settled.congr fun slot current => same slot (.inl current))
      | adjust => exact Copied.congr (fun slot current => same slot (.inl current)) ok
      | markRunnable =>
          exact Adjusted.congr (fun slot current => same slot (.inl current)) ok
      | clear startSearchId => trivial
      | acquire startSearchId => exact ok
      | scan startSearchId id numChecked => exact ok
      | retry startSearchId => exact ok
      | select slot =>
          obtain ⟨none, used, waiting⟩ := ok
          rw [← same slot (.inr rfl)] at used waiting
          exact ⟨none, used, waiting⟩
      | markRunning slot =>
          obtain ⟨current, used, waiting⟩ := ok
          rw [← same slot (.inr rfl)] at used waiting
          exact ⟨current, used, waiting⟩
      | release firstRun =>
          exact Selected.congr (fun slot current => same slot (.inl current)) ok
      | setReturn firstRun =>
          exact Selected.congr (fun slot current => same slot (.inl current)) ok
      | setSatp =>
          have equal := fun slot current => same slot (.inl current)
          exact ⟨ok.1.congr equal fun slot current =>
            congrArg (·.process.frame.registers) (equal slot current),
              ok.2.congr equal⟩
      | copyFrame =>
          have equal := fun slot current => same slot (.inl current)
          obtain ⟨returning, kept, translates⟩ := ok
          refine ⟨returning.congr equal ?_, kept.congr equal,
            translates.congr equal ?_⟩
          · intro slot current
            rw [equal slot current]
          · intro slot current
            rw [equal slot current]
  | leaving =>
      have equal := fun slot current => same slot (.inl current)
      exact ⟨ok.1.congr equal fun _ _ => rfl, ok.2.congr equal fun _ _ => rfl⟩
  | restoring =>
      have equal := fun slot current => same slot (.inl current)
      exact ⟨ok.1.congr equal fun _ _ => rfl, ok.2.congr equal fun _ _ => rfl⟩
  | returning =>
      have equal := fun slot current => same slot (.inl current)
      exact ⟨ok.1.congr equal fun _ _ => rfl, ok.2.congr equal fun _ _ => rfl⟩
  | creating arguments point =>
      obtain ⟨idle, page, creates⟩ := ok
      refine ⟨idle.congr fun slot current => same slot (.inl current), page, ?_⟩
      cases point with
      | find => trivial
      | wipe slot =>
          rw [Creates, same slot (.inr rfl)]
          exact creates
      | setId slot =>
          rw [Creates, same slot (.inr rfl)]
          exact creates
      | fill slot =>
          rw [Creates, same slot (.inr rfl)]
          exact creates
      | markReady slot =>
          rw [Creates, same slot (.inr rfl)]
          exact creates
      | release => trivial
  | stopped inProcesses inTrap =>
      cases ok with
      | inl none => exact .inl none
      | inr some =>
          obtain ⟨slot, runs⟩ := some
          exact .inr ⟨slot, runs.congr fun slot current => same slot (.inl current)⟩

end HartState

def discipline (image : Image) :
    Discipline Nat (Cell image.target) (HartState image.target) where
  Right := HartState.Right
  Ok cells here := here.Ok cells
  Free := Waiting image
  confined same ok := HartState.Ok.congr same ok

end Thos.Scheduling
