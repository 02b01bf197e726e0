import Thos.Scheduling.Exclusion

namespace Thos.Scheduling

open Kernel (Buffer)

/-! What a trap out of a user process can do to the kernel and to other
processes. -/

variable {Hart : Type} {image : Image}

def Trap.syscall (trap : Trap image.target) : Syscall :=
  if trap.cause = .ecallUMode then (handleSyscall ⟨trap.registers, trap.sepc, 0⟩).2
  else .nothing

/-- What the trap of a process makes `putchar_buffer` do to its buffer. -/
def Trap.Prints (trap : Trap image.target) (before after : Buffer) : Prop :=
  match trap.syscall with
  | .putchar character =>
      ∃ flushed, before.outputHandleNew character = .ok (flushed, after)
  | _ => after = before

/-- The process can be switched on again and goes on behind the trap. -/
structure Preserved (trap : Trap image.target) (before after : Process image.target) :
    Prop where
  id : after.id = before.id
  state : after.state = .runnable
  pageTable : after.pageTable = before.pageTable
  registers : after.frame.registers = trap.resumeRegisters
  pc : after.frame.pc = trap.switchPc
  outputBuffer : trap.Prints before.outputBuffer after.outputBuffer

/-- What switching on a process changes of it: its state, `satp`, and `ra` if it
has never run. -/
structure SwitchedOn (image : Image) (history : History Hart image.target)
    (slot : Nat)
    (before after : Process image.target) : Prop where
  id : after.id = before.id
  pageTable : after.pageTable = before.pageTable
  outputBuffer : after.outputBuffer = before.outputBuffer
  pc : after.frame.pc = before.frame.pc
  registers : ∀ register, register ≠ .ra →
    after.frame.registers register = before.frame.registers register
  ra : after.frame.registers .ra ≠ before.frame.registers .ra →
    ∃ arguments frame, history.context slot = some (.created arguments frame)

namespace Control

variable {target : Target}

/-- The hart has given up the process it came with, and looks for a process or
switches to it. -/
def isSwitchingOn : Control target → Bool
  | .switching true .enter => false
  | .switching true .adjust => false
  | .switching true .markRunnable => false
  | .switching true (.clear _) => false
  | .switching inTrap _ => inTrap
  | .leaving => true
  | .restoring => true
  | .returning => true
  | .running => true
  | _ => false

end Control

def SwitchPoint.isSaving : SwitchPoint → Bool
  | .enter => true
  | .adjust => true
  | .markRunnable => true
  | _ => false

structure Unsaved (trap : Trap image.target) (before after : Process image.target) :
    Prop where
  id : after.id = before.id
  pageTable : after.pageTable = before.pageTable
  outputBuffer : trap.Prints before.outputBuffer after.outputBuffer

/-- The process of the trap has been saved or destroyed. -/
def Settles (trap : Trap image.target) (before after : Process image.target) : Prop :=
  Preserved trap before after ∨ after.state = .unused

namespace HartState

/-- The hart handles a trap of the process in `slot`, and still owns the slot. -/
inductive Serves (trap : Trap image.target) (slot : Nat)
    (process : Process image.target) (here : HartState image.target)
    (cell : Cell image.target) : Prop
  | enters :
    here.control = .trapped trap.cause ∨ here.control = .handling trap.cause →
      here.currentProcess = some slot → cell.process = process →
      cell.context = some (.trapped trap) → Serves trap slot process here cell
  | kills : here.control = .destroying true .acquire ∨
        here.control = .destroying true .clear →
      here.currentProcess = some slot → Serves trap slot process here cell
  | wipes : here.control = .destroying true (.wipeId slot) ∨
        here.control = .destroying true (.wipeState slot) →
      Serves trap slot process here cell
  | saves (point : SwitchPoint) : here.control = .switching true point →
      point.isSaving = true → here.currentProcess = some slot →
      cell.context = some (.trapped trap) → Unsaved trap process cell.process →
      Serves trap slot process here cell

inductive Left (here : HartState image.target) : Prop
  | clears (startSearchId : UInt8) :
      here.control = .switching true (.clear startSearchId) → Left here
  | destroyed : here.control = .destroying true .release ∨
        here.control = .switching true .enter →
      here.currentProcess = none → Left here
  | switches : here.control.isSwitchingOn = true → Left here

theorem Serves.owned {trap : Trap image.target} {slot : Nat}
    {process : Process image.target} {here : HartState image.target}
    {cell : Cell image.target} (serves : here.Serves trap slot process cell) :
    here.owned = some slot := by
  unfold HartState.owned
  cases serves with
  | enters control current _ _ => cases control with
    | inl trapped => rw [trapped]; exact current
    | inr handling => rw [handling]; exact current
  | kills control current => cases control with
    | inl acquire => rw [acquire]; exact current
    | inr clear => rw [clear]; exact current
  | wipes control => cases control with
    | inl wipeId => rw [wipeId]
    | inr wipeState => rw [wipeState]
  | saves point control saving current _ _ =>
      rw [control]
      cases point <;> first
        | contradiction
        | exact current

end HartState

section

variable {state : State Hart image.target} {hart : Hart} {trap : Trap image.target}
  {slot : Nat} {process : Process image.target}

structure Effect.Serving (effect : Effect Hart image.target)
    (state : State Hart image.target) (trap : Trap image.target) (slot : Nat)
    (process : Process image.target) : Prop where
  next : effect.hart.Serves trap slot process (effect.cells state slot) ∨
    effect.hart.Left ∧ Settles trap process (effect.cells state slot).process
  confined : ∀ other written, effect.process = some (other, written) → other = slot

theorem Effect.Serving.quiet {effect : Effect Hart image.target}
    (quiet : effect.Quiet)
    (next : effect.hart.Serves trap slot process (state.cells slot)) :
    effect.Serving state trap slot process where
  next := by
    rw [quiet.cells]
    exact .inl next
  confined other written writes := by
    rw [quiet.process] at writes
    contradiction

theorem destroy_serving (invariant : Invariant image state) {point : DestroyPoint}
    (control : (state.harts hart).control = .destroying true point)
    (serves : (state.harts hart).Serves trap slot process (state.cells slot)) :
    (destroy hart (state.harts hart) state.processes true point).Serving state
      trap slot
      process := by
  have ok := invariant.ok hart
  unfold HartState.Ok at ok
  rw [control] at ok
  cases serves with
  | enters trapped _ _ _ => simp [control] at trapped
  | saves saving switching _ _ _ _ => simp [control] at switching
  | kills destroying current =>
      rw [control] at destroying
      cases destroying with
      | inl same =>
          cases same
          exact .quiet ⟨rfl, rfl⟩ (.kills (.inr rfl) current)
      | inr same =>
          cases same
          simp only [destroy, current]
          exact .quiet ⟨rfl, rfl⟩ (.wipes (.inl rfl))
  | wipes destroying =>
      rw [control] at destroying
      cases destroying with
      | inl same =>
          cases same
          refine ⟨.inl (.wipes (.inr rfl)), ?_⟩
          rintro other written ⟨⟩
          rfl
      | inr same =>
          cases same
          refine ⟨.inr ⟨.destroyed (.inl rfl) ok.1, .inr ?_⟩, ?_⟩
          · rw [Effect.cells_process rfl]
          · rintro other written ⟨⟩
            rfl

theorem save_serving (invariant : Invariant image state) {point : SwitchPoint}
    (control : (state.harts hart).control = .switching true point)
    (serves : (state.harts hart).Serves trap slot process (state.cells slot)) :
    (kernelSwitch image hart (state.harts hart) state.processes true
      point).Serving state
      trap slot process := by
  have ok := invariant.ok hart
  unfold HartState.Ok at ok
  rw [control] at ok
  cases serves with
  | enters trapped _ _ _ => simp [control] at trapped
  | kills destroying _ => simp [control] at destroying
  | wipes destroying => simp [control] at destroying
  | saves saving switching isSaving current context unsaved =>
      cases control.symm.trans switching
      cases point with
      | enter =>
          simp only [kernelSwitch, current]
          constructor
          · refine .inl (.saves .adjust rfl rfl current ?_ ?_)
            all_goals rw [Effect.cells_write rfl rfl rfl]
            · exact context
            · exact ⟨unsaved.id, unsaved.pageTable, unsaved.outputBuffer⟩
          · rintro other written ⟨⟩
            rfl
      | adjust =>
          simp only [kernelSwitch, current]
          constructor
          · refine .inl (.saves .markRunnable rfl rfl current ?_ ?_)
            all_goals rw [Effect.cells_write rfl rfl rfl]
            · exact context
            · refine ⟨?_, ?_, ?_⟩
              · exact (Process.adjust_id _).trans unsaved.id
              · exact (Process.adjust_pageTable _).trans unsaved.pageTable
              · rw [Process.adjust_outputBuffer]
                exact unsaved.outputBuffer
          · rintro other written ⟨⟩
            rfl
      | markRunnable =>
          obtain ⟨index, other, ⟨isCurrent, _⟩, isContext, registers, pc⟩ := ok
          cases current.symm.trans isCurrent
          cases context.symm.trans isContext
          simp only [kernelSwitch, current]
          constructor
          · refine .inr ⟨.clears _ rfl, .inl ?_⟩
            rw [Effect.cells_process rfl]
            exact ⟨unsaved.id, rfl, unsaved.pageTable, registers, pc,
              unsaved.outputBuffer⟩
          · rintro other written ⟨⟩
            rfl
      | _ => contradiction

/-- A trap that a user process can raise, but an external interrupt. -/
theorem handleTrap_serving (invariant : Invariant image state)
    (masked : (state.harts hart).Masked) (claimed : Bool)
    (control : (state.harts hart).control = .handling trap.cause)
    (user : trap.kernelMode = false) (notExternal : trap.cause ≠ .supervisorExternal)
    (serves : (state.harts hart).Serves trap slot process (state.cells slot)) :
    (handleTrap (state.harts hart) state.processes trap.cause claimed :
      Effect Hart image.target).Serving state trap slot process := by
  have ok := invariant.ok hart
  unfold HartState.Ok at ok
  rw [control] at ok
  cases serves with
  | kills destroying _ => simp [control] at destroying
  | wipes destroying => simp [control] at destroying
  | saves _ switching _ _ _ _ => simp [control] at switching
  | enters _ current same context =>
      obtain ⟨index, other, ⟨isCurrent, running⟩, isContext, registers, _, _,
        mode, _⟩ := ok
      cases current.symm.trans isCurrent
      cases context.symm.trans isContext
      have unsaved : ∀ buffer, trap.Prints process.outputBuffer buffer →
          Unsaved trap process
            { (state.cells slot).process with outputBuffer := buffer } := by
        rw [same]
        exact fun buffer prints => ⟨rfl, rfl, prints⟩
      unfold handleTrap
      rw [mode, user]
      split
      · exact .quiet ⟨rfl, rfl⟩ (.kills (.inl rfl) current)
      · have syscall : (if trap.cause = .ecallUMode then
            handleSyscall (state.harts hart).frame
            else ((state.harts hart).frame, .nothing)).2 = trap.syscall := by
          unfold Trap.syscall
          split
          · exact handleSyscall_congr registers
          · rfl
        generalize
          (if trap.cause = .ecallUMode then handleSyscall (state.harts hart).frame
          else ((state.harts hart).frame, .nothing)) = result at syscall ⊢
        obtain ⟨frame, made⟩ := result
        have masked := masked.withFrame frame
        simp only [notExternal, decide_false, Bool.false_and]
        cases made with
        | nothing =>
            refine .quiet ⟨rfl, rfl⟩ (.saves .enter rfl rfl current context ?_)
            rw [same]
            refine ⟨rfl, rfl, ?_⟩
            rw [Trap.Prints, ← syscall]
        | exit => exact .quiet ⟨rfl, rfl⟩ (.kills (.inl rfl) current)
        | putchar character =>
            have selected : (state.harts hart).currentProcess.or
                (if ((state.harts hart).withFrame frame).control.isRunning then
                  ((state.harts hart).withFrame frame).currentProcess else none) =
                some slot := by
              rw [current]
              rfl
            obtain ⟨flushed, buffer, _, handles, equal⟩ :=
              putcharBuffer_process masked
              selected running.outputBuffer character (.switching true .enter)
            change Effect.Serving
              (putcharBuffer _ _ (state.harts hart).currentProcess _ _)
              _ _ _ _
            rw [equal]
            constructor
            · refine .inl (.saves .enter rfl rfl current ?_ ?_)
              all_goals rw [Effect.cells_write rfl rfl rfl]
              · exact context
              · apply unsaved
                rw [Trap.Prints, ← syscall, ← same]
                exact ⟨flushed, handles⟩
            · rintro other written ⟨⟩
              rfl

structure Effect.Switching (effect : Effect Hart image.target)
    (state : State Hart image.target) (hart : Hart) : Prop where
  left : effect.hart.Left
  switches : (state.harts hart).control.isSwitchingOn = true →
    effect.hart.control.isSwitchingOn = true
  current : ∀ slot, (state.harts hart).control.isSwitchingOn = true →
    (state.harts hart).currentProcess = some slot →
      effect.hart.currentProcess = some slot
  process : ∀ slot written, effect.process = some (slot, written) →
    effect.hart.control.isSwitchingOn = true ∧
      effect.hart.currentProcess = some slot ∧
      SwitchedOn image state.history slot (state.processes slot) written

theorem Effect.Switching.quiet {effect : Effect Hart image.target}
    (process : effect.process = none) (on : effect.hart.control.isSwitchingOn = true)
    (current : ∀ slot, (state.harts hart).currentProcess = some slot →
      effect.hart.currentProcess = some slot) : effect.Switching state hart where
  left := .switches on
  switches _ := on
  current slot _ := current slot
  process slot written writes := by
    rw [process] at writes
    contradiction

theorem Effect.Switching.early {effect : Effect Hart image.target}
    (process : effect.process = none) (left : effect.hart.Left)
    (notYet : (state.harts hart).control.isSwitchingOn = false) :
    effect.Switching state hart where
  left := left
  switches on := by
    rw [notYet] at on
    contradiction
  current slot on := by
    rw [notYet] at on
    contradiction
  process slot written writes := by
    rw [process] at writes
    contradiction

theorem SwitchedOn.return (history : History Hart image.target)
    {process : Process image.target} {firstRun : Bool}
    (first : firstRun = true →
      ∃ arguments frame, history.context slot = some (.created arguments frame)) :
    SwitchedOn image history slot process (process.return image firstRun).2 := by
  cases firstRun with
  | true =>
      refine ⟨rfl, rfl, rfl, rfl, ?_, fun _ => first rfl⟩
      intro register different
      exact Function.update_of_ne different ..
  | false =>
    exact ⟨rfl, rfl, rfl, rfl, fun _ _ => rfl, fun changed => absurd rfl changed⟩

theorem kernelSwitch_switching (invariant : Invariant image state)
    (masked : (state.harts hart).Masked) {point : SwitchPoint}
    (control : (state.harts hart).control = .switching true point)
    (on : (state.harts hart).control.isSwitchingOn = true) :
    (kernelSwitch image hart (state.harts hart) state.processes true
      point).Switching state
      hart := by
  have ok := invariant.ok hart
  unfold HartState.Ok at ok
  rw [control] at ok on
  cases point with
  | acquire startSearchId => exact .quiet rfl rfl fun _ current => current
  | scan startSearchId id numChecked =>
      simp only [kernelSwitch]
      split
      · split <;> exact .quiet rfl rfl fun _ current => current
      · exact .quiet rfl rfl fun _ current => current
  | retry startSearchId =>
      have depth : (state.harts hart).control.depth =
          (Control.switching true (.acquire startSearchId) :
            Control image.target).depth + 1 := by
        rw [control]
        rfl
      simp only [kernelSwitch]
      rw [masked.released_eq depth]
      exact .quiet rfl rfl fun _ current => current
  | select slot =>
      refine .quiet rfl rfl fun other current => ?_
      rw [ok.1] at current
      contradiction
  | markRunning slot =>
      refine ⟨.switches rfl, fun _ => rfl, fun _ _ current => current, ?_⟩
      rintro other written ⟨⟩
      exact ⟨rfl, ok.1, rfl, rfl, rfl, rfl, fun _ _ => rfl,
        fun changed => absurd rfl changed⟩
  | release firstRun =>
      have depth : (state.harts hart).control.depth =
          (Control.switching true (.setReturn firstRun) :
            Control image.target).depth + 1 := by
        rw [control]
        rfl
      simp only [kernelSwitch]
      rw [masked.released_eq depth]
      exact .quiet rfl rfl fun _ current => current
  | setReturn firstRun =>
      obtain ⟨slot, ⟨current, _⟩, resumable⟩ := ok
      simp only [kernelSwitch, current]
      refine ⟨.switches rfl, fun _ => rfl,
        fun _ _ same => current.symm.trans same, ?_⟩
      rintro other written ⟨⟩
      refine ⟨rfl, rfl, .return state.history ?_⟩
      rintro rfl
      cases resumable with
      | fresh arguments fresh => exact ⟨_, _, fresh.context⟩
  | setSatp =>
      obtain ⟨⟨slot, _, ⟨current, _⟩, _⟩, _⟩ := ok
      simp only [kernelSwitch, current]
      refine ⟨.switches rfl, fun _ => rfl, fun _ _ same => same, ?_⟩
      rintro other written ⟨⟩
      exact ⟨rfl, current, rfl, rfl, rfl, rfl, fun _ _ => rfl,
        fun changed => absurd rfl changed⟩
  | copyFrame =>
      obtain ⟨⟨slot, _, ⟨current, _⟩, _⟩, _⟩ := ok
      simp only [kernelSwitch, current]
      exact .quiet rfl rfl fun _ same => current.symm.trans same
  | _ => contradiction

theorem ProcessStep.prints {here : HartState image.target}
    {processes : Processes image.target} {choice : Choice image.target}
    {effect : Effect Hart image.target} (masked : here.Masked)
    (booted : here.control ≠ .boot) (inside : here.control ≠ .running)
    (stepped : ProcessStep image here processes choice effect) :
    ∃ locking buffer,
      effect = .ofHart { here with locking := locking, outputBuffer := buffer } := by
  have stays : here.control.isRunning = false := by
    rw [← Bool.not_eq_true]
    exact fun running => inside (Control.eq_running running)
  cases stepped with
  | execute registers pc control => exact absurd control inside
  | trap cause takes =>
      rw [masked.takes_isRunning takes] at stays
      contradiction
  | putchar character kernelMode going =>
      have printed : Printed here processes _ character here.control
          (putcharBuffer here processes none character here.control :
            Effect Hart image.target) :=
        putcharBuffer_printed masked processes none character here.control
      rw [stays] at printed
      generalize (putcharBuffer here processes none character here.control :
        Effect Hart image.target) = effect at printed ⊢
      cases printed with
      | process slot flushed buffer some _ => contradiction
      | hart buffer _ valid => exact ⟨_, buffer, rfl⟩
      | failed slot stop locking some _ => contradiction
  | create arguments page idle =>
      cases idle with
      | inl control => exact absurd control booted
      | inr running => exact absurd running.1 inside
  | exit control kernelMode => exact absurd control inside
  | jump control => exact absurd control booted

theorem HartState.Serves.congr {here next : HartState image.target}
    {cell : Cell image.target} (serves : here.Serves trap slot process cell)
    (control : next.control = here.control)
    (current : next.currentProcess = here.currentProcess) :
    next.Serves trap slot process cell := by
  cases serves with
  | enters entered isCurrent same context =>
      rw [← control] at entered
      exact .enters entered (current.trans isCurrent) same context
  | kills destroying isCurrent =>
      rw [← control] at destroying
      exact .kills destroying (current.trans isCurrent)
  | wipes destroying =>
      rw [← control] at destroying
      exact .wipes destroying
  | saves point switching saving isCurrent context unsaved =>
      exact .saves point (control.trans switching) saving
        (current.trans isCurrent) context
        unsaved

theorem HartState.Left.congr {here next : HartState image.target} (left : here.Left)
    (control : next.control = here.control)
    (current : next.currentProcess = here.currentProcess) : next.Left := by
  cases left with
  | clears startSearchId clearing =>
    exact .clears startSearchId (control.trans clearing)
  | destroyed gone none =>
      rw [← control] at gone
      exact .destroyed gone (current.trans none)
  | switches on =>
      rw [← control] at on
      exact .switches on

theorem effect_serving (invariant : Invariant image state)
    (masked : (state.harts hart).Masked) {choice : Choice image.target}
    {effect : Effect Hart image.target} (user : trap.kernelMode = false)
    (notExternal : trap.cause ≠ .supervisorExternal)
    (serves : (state.harts hart).Serves trap slot process (state.cells slot))
    (made : Scheduling.effect image hart (state.harts hart) state.processes choice =
      some effect) : effect.Serving state trap slot process := by
  cases effect_inv made with
  | inl kernel =>
      obtain ⟨claimed, _, stepped⟩ := kernel
      unfold kernelStep at stepped
      cases serves with
      | enters entered current same context =>
          cases entered with
          | inl control =>
              rw [control] at stepped
              cases stepped
              exact .quiet ⟨rfl, rfl⟩ (.enters (.inr rfl) current same context)
          | inr control =>
              rw [control] at stepped
              cases stepped
              exact handleTrap_serving invariant masked claimed control user
                notExternal
                (.enters (.inr control) current same context)
      | kills destroying current =>
          cases destroying with
          | inl control =>
              rw [control] at stepped
              cases stepped
              exact destroy_serving invariant control (.kills (.inl control) current)
          | inr control =>
              rw [control] at stepped
              cases stepped
              exact destroy_serving invariant control (.kills (.inr control) current)
      | wipes destroying =>
          cases destroying with
          | inl control =>
              rw [control] at stepped
              cases stepped
              exact destroy_serving invariant control (.wipes (.inl control))
          | inr control =>
              rw [control] at stepped
              cases stepped
              exact destroy_serving invariant control (.wipes (.inr control))
      | saves point control saving current context unsaved =>
          rw [control] at stepped
          cases stepped
          exact save_serving invariant control
            (.saves point control saving current context unsaved)
  | inr stepped =>
      have booted : (state.harts hart).control ≠ .boot := by
        intro control
        cases serves <;> simp_all
      have inside : (state.harts hart).control ≠ .running := by
        intro control
        cases serves <;> simp_all
      obtain ⟨locking, buffer, rfl⟩ := stepped.prints masked booted inside
      exact .quiet ⟨rfl, rfl⟩ (serves.congr rfl rfl)

theorem effect_switching (invariant : Invariant image state)
    (masked : (state.harts hart).Masked) {choice : Choice image.target}
    {effect : Effect Hart image.target}
    (inside : (state.harts hart).control ≠ .running)
    (left : (state.harts hart).Left)
    (made : Scheduling.effect image hart (state.harts hart) state.processes choice =
      some effect) : effect.Switching state hart := by
  cases effect_inv made with
  | inl kernel =>
      obtain ⟨claimed, _, stepped⟩ := kernel
      unfold kernelStep at stepped
      cases left with
      | clears startSearchId control =>
          rw [control] at stepped
          cases stepped
          refine .early rfl (.switches rfl) ?_
          rw [control]
          rfl
      | destroyed gone none =>
          cases gone with
          | inl control =>
              rw [control] at stepped
              cases stepped
              have depth : (state.harts hart).control.depth =
                  (Control.switching true .enter : Control image.target).depth
                    + 1 := by
                rw [control]
                rfl
              simp only [destroy]
              rw [masked.released_eq depth]
              refine .early rfl (.destroyed (.inr rfl) none) ?_
              rw [control]
              rfl
          | inr control =>
              rw [control] at stepped
              cases stepped
              simp only [kernelSwitch, none]
              refine .early rfl (.switches rfl) ?_
              rw [control]
              rfl
      | switches on =>
          cases control : (state.harts hart).control with
          | switching inTrap point =>
              have isInTrap : inTrap = true := by
                rw [control] at on
                cases inTrap <;> cases point <;> first
                  | rfl
                  | contradiction
              subst isInTrap
              rw [control] at stepped
              cases stepped
              exact kernelSwitch_switching invariant masked control on
          | leaving =>
              rw [control] at stepped
              cases stepped
              have depth : (state.harts hart).control.depth =
                  (Control.restoring : Control image.target).depth + 1 := by
                rw [control]
                rfl
              rw [masked.released_eq depth]
              exact .quiet rfl rfl fun _ current => current
          | restoring =>
              rw [control] at stepped
              cases stepped
              exact .quiet rfl rfl fun _ current => current
          | returning =>
              rw [control] at stepped
              cases stepped
              exact .quiet rfl rfl fun _ current => current
          | running => exact absurd control inside
          | _ =>
              rw [control] at on
              contradiction
  | inr stepped =>
      have booted : (state.harts hart).control ≠ .boot := by
        intro control
        cases left <;> simp_all [Control.isSwitchingOn]
      obtain ⟨locking, buffer, rfl⟩ := stepped.prints masked booted inside
      refine ⟨left.congr rfl rfl, fun on => on, fun _ _ current => current, ?_⟩
      rintro other written ⟨⟩

end

section

variable [DecidableEq Hart] {state : State Hart image.target} {hart : Hart}

/-- The steps of the machine from `start` until the hart is back in a process. The
hart's own steps are listed, each with the states before and after it. -/
inductive Episode (image : Image) (hart : Hart) (start : State Hart image.target) :
    List (State Hart image.target × State Hart image.target) →
      State Hart image.target → Prop
  | trapped : Episode image hart start [] start
  | own {steps : List (State Hart image.target × State Hart image.target)}
      {before after : State Hart image.target} (choice : Choice image.target) :
      Episode image hart start steps before →
      (before.harts hart).control ≠ .running →
      step image before ⟨hart, choice⟩ = some after →
      Episode image hart start (steps ++ [(before, after)]) after
  | other {steps : List (State Hart image.target × State Hart image.target)}
      {before after : State Hart image.target} (action : Action Hart image.target) :
      Episode image hart start steps before → action.hart ≠ hart →
      step image before action = some after → Episode image hart start steps after

/-- An own step of the hart, before it gives up `slot`, changes that slot only;
after that it changes the slot only that it goes on with, as `here` says. -/
def Confined (image : Image) (hart : Hart) (slot : Nat)
    (here : HartState image.target)
    (step : State Hart image.target × State Hart image.target) : Prop :=
  ∀ other, step.2.processes other ≠ step.1.processes other →
    other = slot ∧ (step.1.harts hart).control.isSwitchingOn = false ∨
      here.control.isSwitchingOn = true ∧ here.currentProcess = some other ∧
        SwitchedOn image step.1.history other (step.1.processes other)
          (step.2.processes other)

omit [DecidableEq Hart] in
theorem Confined.next {slot : Nat} {here next : HartState image.target}
    {step : State Hart image.target × State Hart image.target}
    (confined : Confined image hart slot here step)
    (switches : here.control.isSwitchingOn = true → next.control.isSwitchingOn = true)
    (current : ∀ slot, here.control.isSwitchingOn = true →
      here.currentProcess = some slot → next.currentProcess = some slot) :
    Confined image hart slot next step := by
  intro other changed
  cases confined other changed with
  | inl before => exact .inl before
  | inr after =>
      obtain ⟨on, isCurrent, switched⟩ := after
      exact .inr ⟨switches on, current other on isCurrent, switched⟩

omit [DecidableEq Hart] in
theorem HartState.Serves.notSwitchingOn {trap : Trap image.target} {slot : Nat}
    {process : Process image.target} {here : HartState image.target}
    {cell : Cell image.target} (serves : here.Serves trap slot process cell) :
    here.control.isSwitchingOn = false := by
  cases serves with
  | enters control _ _ _ => cases control with
    | inl trapped => rw [trapped]; rfl
    | inr handling => rw [handling]; rfl
  | kills control _ => cases control with
    | inl acquire => rw [acquire]; rfl
    | inr clear => rw [clear]; rfl
  | wipes control => cases control with
    | inl wipeId => rw [wipeId]; rfl
    | inr wipeState => rw [wipeState]; rfl
  | saves point control saving _ _ _ =>
      rw [control]
      cases point <;> first
        | contradiction
        | rfl

inductive Progress (image : Image) (hart : Hart) (slot : Nat)
    (trap : Trap image.target)
    (process : Process image.target)
    (steps : List (State Hart image.target × State Hart image.target))
    (state : State Hart image.target) : Prop
  | serves : (state.harts hart).Serves trap slot process (state.cells slot) →
      Progress image hart slot trap process steps state
  | left : (state.harts hart).Left →
      (∃ step ∈ steps, Settles trap process (step.2.processes slot)) →
      Progress image hart slot trap process steps state

structure Episode.Keeps (image : Image) (hart : Hart) (slot : Nat)
    (trap : Trap image.target) (process : Process image.target)
    (steps : List (State Hart image.target × State Hart image.target))
    (state : State Hart image.target) : Prop where
  reachable : (machine Hart image).Reachable state
  progress : Progress image hart slot trap process steps state
  confined : ∀ step ∈ steps, Confined image hart slot (state.harts hart) step

omit [DecidableEq Hart] in
theorem Progress.going {slot : Nat} {trap : Trap image.target}
    {process : Process image.target}
    {steps : List (State Hart image.target × State Hart image.target)}
    (progress : Progress image hart slot trap process steps state) :
    (state.harts hart).control.isStopped = false := by
  cases control : (state.harts hart).control with
  | stopped inProcesses inTrap =>
      cases progress with
      | serves serves => cases serves <;> simp_all
      | left left _ => cases left <;> simp_all [Control.isSwitchingOn]
  | _ => rfl

namespace Episode.Keeps

variable {slot : Nat} {trap : Trap image.target} {process : Process image.target}
  {steps : List (State Hart image.target × State Hart image.target)}
  {after : State Hart image.target}

theorem own (keeps : Keeps image hart slot trap process steps state)
    (user : trap.kernelMode = false) (notExternal : trap.cause ≠ .supervisorExternal)
    (inside : (state.harts hart).control ≠ .running) {choice : Choice image.target}
    (stepped : step image state ⟨hart, choice⟩ = some after) :
    Keeps image hart slot trap process (steps ++ [(state, after)]) after := by
  have invariant := Invariant.of_reachable keeps.reachable
  have masked : (state.harts hart).Masked := by
    cases disabled_of_reachable keeps.reachable hart with
    | inl stopped =>
        rw [keeps.progress.going] at stopped
        contradiction
    | inr masked => exact masked
  obtain ⟨effect, made, applied⟩ := Option.bind_eq_some_iff.mp stepped
  obtain ⟨-, -, harts, processes, -⟩ := Effect.apply_eq_some applied
  have here : after.harts hart = effect.hart := by
    rw [harts]
    exact Function.update_self ..
  have cell : (effect.cells state slot).process = after.processes slot := by
    rw [processes]
    rfl
  cases keeps.progress with
  | serves serves =>
      have serving := effect_serving invariant masked user notExternal serves made
      refine ⟨keeps.reachable.step stepped, ?_, ?_⟩
      · cases serving.next with
        | inl next =>
            apply Progress.serves
            rw [here, Effect.cells_apply applied]
            exact next
        | inr gone =>
            refine .left ?_
              ⟨_, List.mem_append_right _ (List.mem_singleton_self _), ?_⟩
            · rw [here]
              exact gone.1
            · rw [← cell]
              exact gone.2
      · intro other member
        rw [List.mem_append, List.mem_singleton] at member
        cases member with
        | inl earlier =>
            refine (keeps.confined other earlier).next ?_ ?_
            all_goals
              rw [serves.notSwitchingOn]
              simp
        | inr last =>
            subst last
            intro other changed
            rw [processes] at changed
            have written := Effect.written_of_changed changed
            exact .inl ⟨serving.confined other _ written, serves.notSwitchingOn⟩
  | left left settled =>
      have switching := effect_switching invariant masked inside left made
      refine ⟨keeps.reachable.step stepped, ?_, ?_⟩
      · obtain ⟨settling, member, settles⟩ := settled
        refine .left ?_ ⟨settling, List.mem_append_left _ member, settles⟩
        rw [here]
        exact switching.left
      · rw [here]
        intro other member
        rw [List.mem_append, List.mem_singleton] at member
        cases member with
        | inl earlier =>
            exact (keeps.confined other earlier).next switching.switches
              switching.current
        | inr last =>
            subst last
            intro other changed
            rw [processes] at changed ⊢
            exact .inr (switching.process other _ (Effect.written_of_changed changed))

theorem other (keeps : Keeps image hart slot trap process steps state)
    {action : Action Hart image.target} (different : action.hart ≠ hart)
    (stepped : step image state action = some after) :
    Keeps image hart slot trap process steps after := by
  have invariant := Invariant.of_reachable keeps.reachable
  obtain ⟨effect, made, applied⟩ := Option.bind_eq_some_iff.mp stepped
  obtain ⟨-, -, harts, -, -⟩ := Effect.apply_eq_some applied
  have here : after.harts hart = state.harts hart := by
    rw [harts]
    exact Function.update_of_ne (Ne.symm different) ..
  refine ⟨keeps.reachable.step stepped, ?_, ?_⟩
  · cases keeps.progress with
    | serves serves =>
        have legal :=
          invariant.legal (disabled_of_reachable keeps.reachable action.hart) made
        have cell : after.cells slot = state.cells slot := by
          rw [Effect.cells_apply applied]
          exact legal.move.elsewhere invariant.safe (Ne.symm different)
            (.inl serves.owned)
        apply Progress.serves
        rw [here, cell]
        exact serves
    | left left settled =>
        refine .left ?_ settled
        rw [here]
        exact left
  · rw [here]
    exact keeps.confined

end Episode.Keeps

def HartState.raised (here : HartState image.target) (cause : Cause) :
    Trap image.target :=
  ⟨here.registers, here.pc, cause, here.kernelMode⟩

/-- What the kernel makes of a trap of the process in `slot`, after the hart's own
`steps`: the hart is not stopped, its steps change that process until it is saved
or destroyed, and after that only what they switch on. -/
structure Contained (image : Image) (hart : Hart) (slot : Nat)
    (trap : Trap image.target)
    (process : Process image.target)
    (steps : List (State Hart image.target × State Hart image.target))
    (state : State Hart image.target) : Prop where
  going : (state.harts hart).control.isStopped = false
  confined : ∀ step ∈ steps, Confined image hart slot (state.harts hart) step
  settled : (state.harts hart).control = .running ∨
      (state.harts hart).owned ≠ some slot →
    ∃ step ∈ steps, Settles trap process (step.2.processes slot)

def ownSteps (image : Image) (hart : Hart) : Nat → State Hart image.target →
    Option (List (State Hart image.target × State Hart image.target) ×
      State Hart image.target)
  | 0, state => some ([], state)
  | count + 1, state =>
      match (state.harts hart).control with
      | .running => none
      | _ => (step image state ⟨hart, .kernel false⟩).bind fun after =>
          (ownSteps image hart count after).map fun (steps, finish) =>
            ((state, after) :: steps, finish)

theorem Episode.ownSteps {start : State Hart image.target} {count : Nat} :
    ∀ {before finish : State Hart image.target}
      {steps more : List (State Hart image.target × State Hart image.target)},
      Episode image hart start steps before →
      Thos.Scheduling.ownSteps image hart count before = some (more, finish) →
      Episode image hart start (steps ++ more) finish := by
  induction count with
  | zero =>
      intro before finish steps more episode made
      obtain ⟨rfl, rfl⟩ := Prod.mk.inj (Option.some.inj made)
      rw [List.append_nil]
      exact episode
  | succ count induction =>
      intro before finish steps more episode made
      rw [Thos.Scheduling.ownSteps] at made
      split at made
      · contradiction
      · rename_i inside
        obtain ⟨after, stepped, rest⟩ := Option.bind_eq_some_iff.mp made
        obtain ⟨⟨later, last⟩, continued, same⟩ := Option.map_eq_some_iff.mp rest
        obtain ⟨rfl, rfl⟩ := Prod.mk.inj same
        have longer := induction (episode.own (.kernel false) inside stepped) continued
        rw [List.append_assoc] at longer
        exact longer

end

end Thos.Scheduling
