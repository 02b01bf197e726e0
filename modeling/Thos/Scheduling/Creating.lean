import Thos.Scheduling.Masking
import Thos.Scheduling.Steps

namespace Thos.Scheduling

open Data.Ownership
open Data.Trace

/-! `Process_create` keeps the invariant. -/

variable {Hart : Type} {image : Image} {state : State Hart image.target} {hart : Hart}

theorem findUnused_eq_some {processes : Processes image.target} {index : Nat}
    (found : findUnused image processes = some index) :
    index < image.processesMaximum ∧ (processes index).state = .unused := by
  have inside := List.mem_of_find?_eq_some found
  have unused := List.find?_some found
  exact ⟨List.mem_range.mp inside, of_decide_eq_true unused⟩

theorem Process.fill_entry (process : Process image.target)
    (arguments : ProcessArguments image.target) :
    (process.fill image arguments).frame.registers .ra = arguments.entry := by
  unfold Process.fill ProcessArguments.entry
  cases arguments.isUserProgram <;> simp [TrapFrame.set]

theorem Process.fill_isKernel (process : Process image.target)
    {arguments : ProcessArguments image.target}
    (page : arguments.isUserProgram = true → arguments.page ≠ image.kernelPageTable) :
    (process.fill image arguments).isKernel image = !arguments.isUserProgram := by
  unfold Process.fill Process.isKernel
  cases user : arguments.isUserProgram with
  | true => exact beq_false_of_ne (page user)
  | false => exact beq_self_eq_true _

@[simp] theorem Process.fill_id (process : Process image.target)
    (arguments : ProcessArguments image.target) :
    (process.fill image arguments).id = process.id := by
  unfold Process.fill
  cases arguments.isUserProgram <;> rfl

@[simp] theorem Process.fill_state (process : Process image.target)
    (arguments : ProcessArguments image.target) :
    (process.fill image arguments).state = process.state := by
  unfold Process.fill
  cases arguments.isUserProgram <;> rfl

@[simp] theorem Process.fill_outputBuffer (process : Process image.target)
    (arguments : ProcessArguments image.target) :
    (process.fill image arguments).outputBuffer = process.outputBuffer := by
  unfold Process.fill
  cases arguments.isUserProgram <;> rfl

theorem HartState.Idle.current_ne {cells : Cells image.target}
    {here : HartState image.target} {slot : Nat} (idle : here.Idle cells)
    (notRunning : (cells slot).process.state ≠ .running) :
    here.currentProcess ≠ some slot := by
  intro current
  cases idle with
  | inl none =>
      rw [none] at current
      contradiction
  | inr executes =>
      obtain ⟨index, ⟨isCurrent, running⟩, _⟩ := executes
      cases isCurrent.symm.trans current
      exact notRunning running.state

section

variable {here : HartState image.target} {arguments : ProcessArguments image.target}
  {point : CreatePoint} {slot : Nat}

theorem Creates.unused {cells : Cells image.target}
    (creates : Creates image cells arguments point)
    (control : here.control = .creating arguments point)
    (chosen : here.chosen = some slot) :
    (cells slot).process.state = .unused := by
  rw [HartState.chosen, control] at chosen
  cases point with
  | find => contradiction
  | wipe index =>
      cases chosen
      exact creates.2
  | setId index =>
      cases chosen
      rw [creates.2]
      rfl
  | fill index =>
      cases chosen
      rw [creates.2]
      rfl
  | markReady index =>
      cases chosen
      rw [creates.2, Process.fill_state]
      rfl
  | release => contradiction

theorem create_touches (control : here.control = .creating arguments point)
    (chosen : here.chosen = some slot) (processes : Processes image.target) :
    (create image hart here processes arguments point).Touches hart slot := by
  rw [HartState.chosen, control] at chosen
  cases point with
  | find => contradiction
  | wipe index =>
      cases chosen
      constructor <;> simp [create, Event.slot, Event.By]
  | setId index =>
      cases chosen
      constructor <;> simp [create]
  | fill index =>
      cases chosen
      constructor <;> simp [create, Event.slot, Event.By]
  | markReady index =>
      cases chosen
      constructor <;> simp [create, Event.slot, Event.By]
  | release => contradiction

theorem create_waiting (inside : slot < image.processesMaximum)
    (filled : state.processes slot =
      (Process.zero.identify image slot).fill image arguments)
    (page : arguments.isUserProgram = true →
      arguments.page ≠ image.kernelPageTable) :
    Waiting image slot
      ((create image hart here state.processes arguments
        (.markReady slot)).cells state slot) := by
  have cell : (create image hart here state.processes arguments
      (.markReady slot)).cells state slot =
        ⟨{ state.processes slot with state := .ready },
          some (.created arguments (state.processes slot).frame),
          some (.created (state.processes slot).frame)⟩ := by
    simp [Effect.cells, Effect.history, Effect.processes, create, History.record,
      History.store]
  rw [cell]
  constructor
  · simp
  · exact fun _ => inside
  · rw [filled, Process.fill_id]
    exact fun _ => rfl
  · rw [filled, Process.fill_outputBuffer]
    exact fun _ => Kernel.Buffer.wrap_valid _ image.bufferLen_pos
  · intro _
    refine .fresh arguments ⟨rfl, rfl, ?_, ?_⟩
    · rw [filled]
      exact Process.fill_entry _ arguments
    · rw [filled]
      exact Process.fill_isKernel _ page

end

theorem create_legal (invariant : Invariant image state)
    (masked : (state.harts hart).Masked)
    {arguments : ProcessArguments image.target} {point : CreatePoint}
    (control : (state.harts hart).control = .creating arguments point) :
    Legal image state hart
      (create image hart (state.harts hart) state.processes arguments point) := by
  have ok := invariant.ok hart
  unfold HartState.Ok at ok
  rw [control] at ok
  obtain ⟨idle, page, creates⟩ := ok
  have owned : (state.harts hart).owned = (state.harts hart).currentProcess := by
    rw [HartState.owned, control]
  have holds : (state.harts hart).HoldsProcessesLock := by
    rw [HartState.HoldsProcessesLock, control]
    rfl
  have notMine : ∀ slot, (state.harts hart).chosen = some slot →
      (state.harts hart).owned ≠ some slot := by
    intro slot chosen
    rw [owned]
    apply idle.current_ne
    rw [creates.unused control chosen]
    simp
  have stays : ∀ slot, (state.harts hart).chosen = some slot →
      (state.harts hart).Idle ((create image hart (state.harts hart) state.processes
        arguments point).cells state) := by
    intro slot chosen
    apply idle.congr
    intro other current
    apply (create_touches control chosen state.processes).cells_of_ne
    intro same
    apply notMine slot chosen
    rw [owned, current, same]
  cases point with
  | find =>
      have chosen : (state.harts hart).chosen = none := by
        rw [HartState.chosen, control]
      simp only [create]
      cases found : findUnused image state.processes with
      | none =>
          refine .quiet invariant ⟨rfl, rfl⟩ (.of control rfl rfl) owned.symm
            chosen.symm ?_
          cases idle with
          | inl none => exact .inl none
          | inr executes =>
              obtain ⟨slot, runs, _⟩ := executes
              exact .inr ⟨slot, runs⟩
      | some index =>
          obtain ⟨inside, unused⟩ := findUnused_eq_some found
          have notRunning : (state.processes index).state ≠ .running := by
            rw [unused]
            simp
          refine .take invariant ⟨rfl, rfl⟩ (.of control rfl rfl) owned.symm
            chosen rfl ?_ ⟨idle, page, inside, unused⟩
          apply invariant.nobody holds ?_ notRunning
          intro right
          cases right with
          | inl same => exact idle.current_ne notRunning (owned.symm.trans same)
          | inr same =>
              rw [chosen] at same
              contradiction
  | wipe slot =>
      have chosen : (state.harts hart).chosen = some slot := by
        rw [HartState.chosen, control]
      refine .keep (.inr chosen) (create_touches control chosen _)
        (.of control rfl rfl) (HartState.right_congr owned.symm chosen.symm) ?_
        ⟨invariant.accessible (.inr chosen), trivial, trivial, trivial⟩
        ⟨stays slot chosen, page, creates.1, Effect.cells_process rfl⟩
      intro index
      have owns : (state.history.store hart slot .unused).owns hart index ↔ _ :=
        invariant.owns_store (notMine slot chosen) .unused (by simp) index
      rw [owned] at owns
      exact owns
  | setId slot =>
      have zero : state.processes slot = .zero := creates.2
      have chosen : (state.harts hart).chosen = some slot := by
        rw [HartState.chosen, control]
      refine .work invariant (.inr chosen) (create_touches control chosen _)
        (List.forall_mem_nil _)
        (.of control rfl rfl) owned.symm chosen.symm trivial
        ⟨stays slot chosen, page, creates.1, ?_⟩
      rw [← zero]
      exact Effect.cells_process rfl
  | fill slot =>
      have identified : state.processes slot = Process.zero.identify image slot :=
        creates.2
      have chosen : (state.harts hart).chosen = some slot := by
        rw [HartState.chosen, control]
      refine .work invariant (.inr chosen) (create_touches control chosen _) ?_
        (.of control rfl rfl) owned.symm chosen.symm
        ⟨invariant.accessible (.inr chosen), trivial⟩
        ⟨stays slot chosen, page, creates.1, ?_⟩
      · simp [create, Event.IsStore]
      · rw [← identified]
        exact Effect.cells_process rfl
  | markReady slot =>
      have chosen : (state.harts hart).chosen = some slot := by
        rw [HartState.chosen, control]
      refine .give (.inr chosen) (create_touches control chosen _)
        (.of control rfl rfl)
        (HartState.right_unchosen owned.symm (notMine slot chosen) chosen rfl) ?_
        ⟨trivial, trivial, trivial⟩ (create_waiting creates.1 creates.2 page)
        ⟨stays slot chosen, page, trivial⟩
      intro index
      have owns : (state.history.store hart slot .ready).owns hart index ↔ _ :=
        invariant.owns_store (notMine slot chosen) .ready (by simp) index
      rw [owned] at owns
      exact owns
  | release =>
      have chosen : (state.harts hart).chosen = none := by
        rw [HartState.chosen, control]
      have depth : (state.harts hart).control.depth = 1 := by
        rw [control]
        rfl
      simp only [create]
      cases current : (state.harts hart).currentProcess with
      | none =>
          have released : (state.harts hart).released .boot = _ :=
            masked.released_eq depth
          simp only [Option.isNone_none, if_true, released]
          refine .quiet invariant ⟨rfl, rfl⟩ (.of control ⟨rfl, rfl⟩ rfl) ?_
            chosen.symm current
          · rw [owned, current]
            rfl
      | some slot =>
          have released : (state.harts hart).released .running = _ :=
            masked.released_eq depth
          simp only [Option.isNone_some, Bool.false_eq_true, if_false, released]
          refine .quiet invariant ⟨rfl, rfl⟩ (.of control ⟨rfl, rfl⟩ rfl)
            owned.symm chosen.symm ?_
          · cases idle with
            | inl none =>
                rw [none] at current
                contradiction
            | inr executes => exact executes

end Thos.Scheduling
