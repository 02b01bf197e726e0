import Thos.Scheduling.Masking
import Thos.Scheduling.Steps

namespace Thos.Scheduling

open Data.Ownership
open Data.Trace

/-! `Process_destroy_current` and `kernel_switch` keep the invariant. -/

variable {Hart : Type} {image : Image} {state : State Hart image.target} {hart : Hart}

theorem destroy_legal (invariant : Invariant image state)
    (masked : (state.harts hart).Masked) {inTrap : Bool} {point : DestroyPoint}
    (control : (state.harts hart).control = .destroying inTrap point) :
    Legal image state hart
      (destroy hart (state.harts hart) state.processes inTrap point) := by
  have ok := invariant.ok hart
  unfold HartState.Ok at ok
  rw [control] at ok
  have chosen : (state.harts hart).chosen = none := by
    rw [HartState.chosen, control]
  cases point with
  | acquire => exact .quietAt invariant control ⟨rfl, rfl⟩ rfl rfl rfl rfl id
  | clear =>
      obtain ⟨slot, current, running⟩ := ok
      have owned : (state.harts hart).owned = some slot := by
        rw [HartState.owned, control]
        exact current
      simp only [destroy, current]
      exact .quiet invariant ⟨rfl, rfl⟩ (.of control rfl rfl) owned.symm chosen.symm
        ⟨rfl, running.bound, running.state⟩
  | wipeId slot =>
      obtain ⟨none, bound, running⟩ := ok
      have owned : (state.harts hart).owned = some slot := by
        rw [HartState.owned, control]
      have touches : (destroy hart (state.harts hart) state.processes inTrap
          (.wipeId slot)).Touches hart slot := by
        constructor <;> simp [destroy]
      refine .work invariant (.inl owned) touches (List.forall_mem_nil _)
        (.of control rfl rfl)
        owned.symm
        chosen.symm trivial ⟨none, bound, ?_⟩
      rw [Effect.cells_process rfl]
      exact running
  | wipeState slot =>
      have owned : (state.harts hart).owned = some slot := by
        rw [HartState.owned, control]
      have touches : (destroy hart (state.harts hart) state.processes inTrap
          (.wipeState slot)).Touches hart slot := by
        constructor <;> simp [destroy, Event.slot, Event.By]
      have process : ((destroy hart (state.harts hart) state.processes inTrap
          (.wipeState slot)).cells state slot).process =
            { state.processes slot with state := .unused } := Effect.cells_process rfl
      refine .give (.inl owned) touches (.of control rfl rfl)
        (HartState.right_disowned owned chosen rfl rfl) ?_ ⟨trivial, trivial⟩ ?_ ok.1
      · exact invariant.owns_dropped owned .unused (by simp) (by simp)
      · constructor
        · rw [process]
          simp
        · rw [process]
          exact fun used => absurd rfl used
        · rw [process]
          exact fun used => absurd rfl used
        · rw [process]
          exact fun used => absurd rfl used
        · rw [process]
          exact fun used => absurd rfl used
  | release =>
      have owned : (state.harts hart).owned = none := by
        rw [HartState.owned, control]
      have depth : (state.harts hart).control.depth =
          (Control.switching inTrap .enter : Control image.target).depth + 1 := by
        rw [control]
        cases inTrap <;> rfl
      simp only [destroy, masked.released_eq depth]
      refine .quiet invariant ⟨rfl, rfl⟩ (.of control ⟨rfl, rfl⟩ rfl) ?_ chosen.symm
        (.inl ok)
      rw [owned]
      exact ok

theorem Process.adjust_pc {process : Process image.target} {trap : Trap image.target}
    (mode : trap.kernelMode = process.isKernel image)
    (pc : process.frame.pc = trap.sepc) :
    (process.adjust image).frame.pc = trap.switchPc := by
  unfold Process.adjust Trap.switchPc
  rw [mode]
  cases process.isKernel image with
  | true => exact pc
  | false => exact congrArg (· + 4) pc

@[simp] theorem Process.adjust_registers (process : Process image.target) :
    (process.adjust image).frame.registers = process.frame.registers := by
  unfold Process.adjust
  split <;> rfl

@[simp] theorem Process.adjust_id (process : Process image.target) :
    (process.adjust image).id = process.id := by
  unfold Process.adjust
  split <;> rfl

@[simp] theorem Process.adjust_state (process : Process image.target) :
    (process.adjust image).state = process.state := by
  unfold Process.adjust
  split <;> rfl

@[simp] theorem Process.adjust_pageTable (process : Process image.target) :
    (process.adjust image).pageTable = process.pageTable := by
  unfold Process.adjust
  split <;> rfl

@[simp] theorem Process.adjust_outputBuffer (process : Process image.target) :
    (process.adjust image).outputBuffer = process.outputBuffer := by
  unfold Process.adjust
  split <;> rfl

theorem switchOff_legal (invariant : Invariant image state) {inTrap : Bool}
    {point : SwitchPoint}
    (control : (state.harts hart).control = .switching inTrap point)
    (off : point = .enter ∨ point = .adjust ∨ point = .markRunnable) :
    Legal image state hart
      (kernelSwitch image hart (state.harts hart) state.processes inTrap point) := by
  have ok := invariant.ok hart
  unfold HartState.Ok at ok
  rw [control] at ok
  have chosen : (state.harts hart).chosen = none := by
    rw [HartState.chosen, control]
    obtain rfl | rfl | rfl := off <;> rfl
  have owned : (state.harts hart).owned = (state.harts hart).currentProcess := by
    rw [HartState.owned, control]
    obtain rfl | rfl | rfl := off <;> rfl
  obtain rfl | rfl | rfl := off
  · cases ok with
    | inl none =>
        simp only [kernelSwitch, none]
        refine .quiet invariant ⟨rfl, rfl⟩ (.of control rfl rfl) ?_ chosen.symm none
        rw [owned, none]
        rfl
    | inr settled =>
        obtain ⟨slot, trap, ⟨current, running⟩, context, registers, pc, mode⟩ :=
          settled
        have right : (state.harts hart).Right slot := .inl (owned.trans current)
        simp only [kernelSwitch, current]
        refine .work invariant right ?_ ?_ (.of control rfl rfl) owned.symm
          chosen.symm
          ⟨invariant.accessible right, trivial⟩ ?_
        · constructor <;> simp [Event.slot, Event.By]
        · simp [Event.IsStore]
        · refine ⟨slot, trap, ⟨current, ?_⟩, ?_⟩
          · apply running.write <;> rw [Effect.cells_write rfl rfl rfl]
            all_goals rfl
          · rw [Effect.cells_write rfl rfl rfl]
            exact ⟨context, registers, pc, mode⟩
  · obtain ⟨slot, trap, ⟨current, running⟩, context, registers, pc, mode⟩ := ok
    have right : (state.harts hart).Right slot := .inl (owned.trans current)
    simp only [kernelSwitch, current]
    refine .work invariant right ?_ ?_ (.of control rfl rfl) owned.symm chosen.symm
      ⟨invariant.accessible right, trivial⟩ ?_
    · constructor <;> simp [Event.slot, Event.By]
    · simp [Event.IsStore]
    · refine ⟨slot, trap, ⟨current, ?_⟩, ?_⟩
      · apply running.write <;> rw [Effect.cells_write rfl rfl rfl]
        · exact Process.adjust_state _
        · exact Process.adjust_id _
        · exact Process.adjust_outputBuffer _
      · rw [Effect.cells_write rfl rfl rfl]
        refine ⟨context, ?_, Process.adjust_pc mode pc⟩
        rw [← registers]
        exact Process.adjust_registers _
  · obtain ⟨slot, trap, ⟨current, running⟩, context, registers, pc⟩ := ok
    have right : (state.harts hart).Right slot := .inl (owned.trans current)
    simp only [kernelSwitch, current]
    refine .give right ?_ (.of control rfl rfl)
      (HartState.right_disowned (owned.trans current) chosen rfl rfl) ?_
      ⟨trivial, trivial, trivial⟩ ?_ trivial
    · constructor <;> simp [Event.slot, Event.By]
    · exact invariant.owns_dropped (owned.trans current) .runnable (by simp) (by simp)
    · have cell : Effect.cells ((((state.harts hart).goto (.switching inTrap
          (.clear (pidNext image (state.processes slot).id)))).write slot
            { state.processes slot with state := .runnable }).emit
              [.stored hart slot .runnable, .saved slot (state.processes slot).frame])
            state slot = ⟨{ state.processes slot with state := .runnable },
              state.history.context slot,
              some (.switched (state.processes slot).frame)⟩ := by
        simp [Effect.cells, Effect.history, Effect.processes, History.record,
          History.store]
      rw [cell]
      exact ⟨by simp, fun _ => running.bound, fun _ => running.id,
        fun _ => running.outputBuffer,
        fun _ => .suspended trap ⟨context, rfl, registers, pc⟩⟩

/-- The state of the slot says nothing about its frame. -/
theorem Resumable.store {cell : Cell image.target} {firstRun : Bool}
    (resumable : Resumable image cell firstRun) (state : ProcessState) :
    Resumable image { cell with process := { cell.process with state := state } }
      firstRun := by
  cases resumable with
  | fresh arguments fresh =>
      exact .fresh arguments ⟨fresh.context, fresh.saved, fresh.entry, fresh.kernel⟩
  | suspended trap suspended =>
      exact .suspended trap ⟨suspended.context, suspended.saved, suspended.registers,
        suspended.pc⟩

/-- The points from the store of `PROCESS_RUNNABLE` to that of
`PROCESS_RUNNING`. -/
def SwitchPoint.isSearch : SwitchPoint → Bool
  | .clear _ => true
  | .acquire _ => true
  | .scan _ _ _ => true
  | .retry _ => true
  | .select _ => true
  | .markRunning _ => true
  | _ => false

def SwitchPoint.isOn : SwitchPoint → Bool
  | .release _ => true
  | .setReturn _ => true
  | .setSatp => true
  | .copyFrame => true
  | _ => false

theorem search_legal (invariant : Invariant image state)
    (masked : (state.harts hart).Masked) {inTrap : Bool} {point : SwitchPoint}
    (control : (state.harts hart).control = .switching inTrap point)
    (search : point.isSearch = true) :
    Legal image state hart
      (kernelSwitch image hart (state.harts hart) state.processes inTrap point) := by
  have ok := invariant.ok hart
  unfold HartState.Ok at ok
  rw [control] at ok
  cases point with
  | clear startSearchId =>
      exact .quietAt invariant control ⟨rfl, rfl⟩ rfl rfl rfl rfl fun _ => rfl
  | acquire startSearchId =>
      exact .quietAt invariant control ⟨rfl, rfl⟩ rfl rfl rfl rfl id
  | scan startSearchId id numChecked =>
      have owned : (state.harts hart).owned = none := by
        rw [HartState.owned, control]
      have chosen : (state.harts hart).chosen = none := by
        rw [HartState.chosen, control]
      have holds : (state.harts hart).HoldsProcessesLock := by
        rw [HartState.HoldsProcessesLock, control]
        rfl
      simp only [kernelSwitch]
      split
      · split
        · rename_i found
          have notRunning : (state.processes id.toNat).state ≠ .running := by
            obtain found | found := found <;> rw [found] <;> simp
          have used : (state.processes id.toNat).state ≠ .unused := by
            obtain found | found := found <;> rw [found] <;> simp
          have mine : ¬(state.harts hart).Right id.toNat := by
            unfold HartState.Right
            rw [owned, chosen]
            simp
          exact .take invariant ⟨rfl, rfl⟩ (.of control rfl rfl) owned.symm chosen rfl
            (invariant.nobody holds mine notRunning)
            ⟨ok, used, invariant.waiting holds mine notRunning⟩
        · exact .quiet invariant ⟨rfl, rfl⟩ (.of control rfl rfl) owned.symm
            chosen.symm ok
      · exact .quiet invariant ⟨rfl, rfl⟩ (.of control rfl rfl) owned.symm
          chosen.symm ok
  | retry startSearchId =>
      have depth : (state.harts hart).control.depth =
          (Control.switching inTrap (.acquire startSearchId) :
            Control image.target).depth + 1 := by
        rw [control]
        cases inTrap <;> rfl
      simp only [kernelSwitch, masked.released_eq depth]
      exact .quietAt invariant control ⟨rfl, rfl⟩ ⟨rfl, rfl⟩ rfl rfl rfl id
  | select slot =>
      exact .quietAt invariant control ⟨rfl, rfl⟩ rfl rfl rfl rfl
        fun ok => ⟨rfl, ok.2⟩
  | markRunning slot =>
      obtain ⟨current, used, waiting⟩ := ok
      have owned : (state.harts hart).owned = none := by
        rw [HartState.owned, control]
      have chosen : (state.harts hart).chosen = some slot := by
        rw [HartState.chosen, control]
      have right : (state.harts hart).Right slot := .inr chosen
      have cell : (kernelSwitch image hart (state.harts hart) state.processes inTrap
          (.markRunning slot)).cells state slot = { state.cells slot with
            process := { state.processes slot with state := .running } } :=
        Effect.cells_write rfl rfl rfl
      refine .keep right ?_ (.of control rfl rfl) ?_ ?_ ⟨trivial, trivial⟩
        ⟨slot, ⟨current, waiting.bound used, ?_, ?_, ?_⟩, ?_⟩
      · constructor <;> simp [kernelSwitch, Event.slot, Event.By]
      · intro index
        unfold HartState.Right
        rw [owned, chosen]
        change (state.harts hart).currentProcess = some index ∨ none = some index ↔ _
        rw [current, or_comm]
      · intro index
        change (state.history.store hart slot .running).owns hart index ↔
          (state.harts hart).currentProcess = some index
        rw [current]
        exact invariant.owns_taken owned index
      · rw [cell]
      · rw [cell]
        exact waiting.id used
      · rw [cell]
        exact waiting.outputBuffer used
      · rw [cell]
        exact (waiting.resumable used).store .running
  | _ => contradiction

theorem Resumable.return {cell : Cell image.target} {firstRun : Bool}
    (resumable : Resumable image cell firstRun) :
    ∃ context save, cell.context = some context ∧ cell.saved = some save ∧
      context.resumption image =
        ((cell.process.return image firstRun).2.frame.registers,
          (cell.process.return image firstRun).1) ∧
      save.Restores (cell.process.return image firstRun).2.frame := by
  cases resumable with
  | fresh arguments fresh =>
      refine ⟨_, _, fresh.context, fresh.saved, ?_, ?_, rfl⟩
      · have exits : (if cell.process.isKernel image then image.processExitKernel
            else image.processExitUser) =
            if arguments.isUserProgram then image.processExitUser
            else image.processExitKernel := by
          rw [fresh.kernel]
          cases arguments.isUserProgram <;> rfl
        simp only [Context.resumption, Process.return, if_true, TrapFrame.set, exits,
          fresh.entry]
      · intro register different
        exact Function.update_of_ne different ..
  | suspended trap suspended =>
      refine ⟨_, _, suspended.context, suspended.saved, ?_, rfl, rfl⟩
      simp only [Context.resumption, Process.return, Bool.false_eq_true, if_false,
        suspended.registers, suspended.pc]

@[simp] theorem Process.return_state (process : Process image.target)
    (firstRun : Bool) :
    (process.return image firstRun).2.state = process.state := by
  cases firstRun <;> rfl

@[simp] theorem Process.return_id (process : Process image.target) (firstRun : Bool) :
    (process.return image firstRun).2.id = process.id := by
  cases firstRun <;> rfl

@[simp] theorem Process.return_outputBuffer (process : Process image.target)
    (firstRun : Bool) :
    (process.return image firstRun).2.outputBuffer = process.outputBuffer := by
  cases firstRun <;> rfl

theorem Save.Restores.withSatp {save : Save image.target}
    {frame : TrapFrame image.target}
    (restores : save.Restores frame) (satp : Word image.target) :
    save.Restores { frame with satp := satp } := by
  cases save <;> exact restores

theorem switchOn_legal (invariant : Invariant image state)
    (masked : (state.harts hart).Masked) {inTrap : Bool} {point : SwitchPoint}
    (control : (state.harts hart).control = .switching inTrap point)
    (on : point.isOn = true) :
    Legal image state hart
      (kernelSwitch image hart (state.harts hart) state.processes inTrap point) := by
  have ok := invariant.ok hart
  unfold HartState.Ok at ok
  rw [control] at ok
  have chosen : (state.harts hart).chosen = none := by
    rw [HartState.chosen, control]
    cases point <;> first | rfl | contradiction
  have owned : (state.harts hart).owned = (state.harts hart).currentProcess := by
    rw [HartState.owned, control]
    cases point <;> first | rfl | contradiction
  cases point with
  | release firstRun =>
      have depth : (state.harts hart).control.depth =
          (Control.switching inTrap (.setReturn firstRun) :
            Control image.target).depth + 1 := by
        rw [control]
        cases inTrap <;> rfl
      simp only [kernelSwitch, masked.released_eq depth]
      exact .quietAt invariant control ⟨rfl, rfl⟩ ⟨rfl, rfl⟩ rfl rfl rfl id
  | setReturn firstRun =>
      obtain ⟨slot, ⟨current, running⟩, resumable⟩ := ok
      have right : (state.harts hart).Right slot := .inl (owned.trans current)
      obtain ⟨context, save, isContext, isSave, resumption, restores⟩ :=
        resumable.return
      simp only [kernelSwitch, current]
      refine .work invariant right ?_ ?_ (.of control rfl rfl) ?_ chosen.symm
        ⟨invariant.accessible right, trivial⟩ ⟨⟨slot, context, ⟨rfl, ?_⟩, ?_⟩, ?_⟩
      · constructor <;> simp [Event.slot, Event.By]
      · simp [Event.IsStore]
      · rw [owned, current]
        rfl
      · apply running.write <;> rw [Effect.cells_write rfl rfl rfl]
        · exact Process.return_state _ firstRun
        · exact Process.return_id _ firstRun
        · exact Process.return_outputBuffer _ firstRun
      · dsimp only
        rw [Effect.cells_write rfl rfl rfl]
        exact ⟨isContext, resumption, rfl⟩
      · rintro other ⟨⟩
        rw [Effect.cells_write rfl rfl rfl]
        exact ⟨save, isSave, restores⟩
  | setSatp =>
      obtain ⟨⟨slot, context, ⟨current, running⟩, isContext, resumption, mode⟩,
        kept⟩ := ok
      have right : (state.harts hart).Right slot := .inl (owned.trans current)
      simp only [kernelSwitch, current]
      refine .work invariant right ?_ ?_ (.of control rfl rfl) owned.symm chosen.symm
        ⟨invariant.accessible right, trivial⟩
        ⟨⟨slot, context, ⟨current, ?_⟩, ?_⟩, ?_, ?_⟩
      · constructor <;> simp [Event.slot, Event.By]
      · simp [Event.IsStore]
      · apply running.write <;> rw [Effect.cells_write rfl rfl rfl]
        all_goals rfl
      · dsimp only
        rw [Effect.cells_write rfl rfl rfl]
        exact ⟨isContext, resumption, mode⟩
      · intro other same
        cases current.symm.trans same
        rw [Effect.cells_write rfl rfl rfl]
        obtain ⟨save, isSave, restores⟩ := kept slot current
        exact ⟨save, isSave, restores.withSatp _⟩
      · intro other same
        cases current.symm.trans same
        dsimp only
        rw [Effect.cells_write rfl rfl rfl]
  | copyFrame =>
      obtain ⟨⟨slot, context, ⟨current, running⟩, facts⟩, kept, translates⟩ := ok
      have right : (state.harts hart).Right slot := .inl (owned.trans current)
      have restores := kept slot current
      have satp := translates slot current
      simp only [kernelSwitch, current]
      cases inTrap
      all_goals
        refine .work invariant right ?_ ?_ (.of control rfl rfl) ?_ chosen.symm
          ⟨invariant.accessible right, restores, trivial⟩
          ⟨⟨slot, context, ⟨rfl, running⟩, facts⟩, fun other same => ?_⟩
        · constructor <;> simp [Event.slot, Event.By]
        · simp [Event.IsStore]
        · exact (owned.trans current).symm
        · cases same
          exact satp
  | _ => contradiction

theorem kernelSwitch_legal (invariant : Invariant image state)
    (masked : (state.harts hart).Masked) {inTrap : Bool} {point : SwitchPoint}
    (control : (state.harts hart).control = .switching inTrap point) :
    Legal image state hart
      (kernelSwitch image hart (state.harts hart) state.processes inTrap point) := by
  cases point with
  | enter => exact switchOff_legal invariant control (.inl rfl)
  | adjust => exact switchOff_legal invariant control (.inr (.inl rfl))
  | markRunnable => exact switchOff_legal invariant control (.inr (.inr rfl))
  | release firstRun => exact switchOn_legal invariant masked control rfl
  | setReturn firstRun => exact switchOn_legal invariant masked control rfl
  | setSatp => exact switchOn_legal invariant masked control rfl
  | copyFrame => exact switchOn_legal invariant masked control rfl
  | _ => exact search_legal invariant masked control rfl

end Thos.Scheduling
