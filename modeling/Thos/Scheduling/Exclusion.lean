import Thos.Scheduling.Trapping

namespace Thos.Scheduling

open Data.Trace

/-! The slots of the process table are owned exclusively. -/

variable {Hart : Type} {image : Image} {state : State Hart image.target} {slot : Nat}

theorem HartState.Ok.owned_running {cells : Cells image.target}
    {here : HartState image.target} (ok : here.Ok cells)
    (owned : here.owned = some slot) : (cells slot).process.state = .running := by
  cases ok.right_running (.inl owned) with
  | inl running => exact running.state
  | inr locked =>
      obtain ⟨control, currentProcess, _⟩ := here
      have runs : ∀ index, currentProcess = some index → Running image cells index →
          currentProcess = some slot → (cells slot).process.state = .running := by
        intro index current running same
        cases current.symm.trans same
        exact running.state
      cases control with
      | destroying inTrap point =>
          cases point with
          | acquire => contradiction
          | clear =>
              obtain ⟨index, current, running⟩ := ok
              exact runs index current running owned
          | wipeId index =>
              obtain ⟨_, _, running⟩ := ok
              cases owned
              exact running
          | wipeState index =>
              obtain ⟨_, _, running⟩ := ok
              cases owned
              exact running
          | release => contradiction
      | switching inTrap point =>
          cases point with
          | release firstRun =>
              obtain ⟨index, ⟨current, running⟩, _⟩ := ok
              exact runs index current running owned
          | _ => contradiction
      | creating arguments point =>
          obtain ⟨idle, _⟩ := ok
          cases idle with
          | inl none => exact absurd (none.symm.trans owned) (by simp)
          | inr executes =>
              obtain ⟨index, ⟨current, running⟩, _⟩ := executes
              exact runs index current running owned
      | stopped inProcesses inTrap =>
          cases ok with
          | inl none => exact absurd (none.symm.trans owned) (by simp)
          | inr some =>
              obtain ⟨index, current, running⟩ := some
              exact runs index current running owned
      | _ => contradiction

theorem HartState.Ok.chosen_not_running {cells : Cells image.target}
    {here : HartState image.target} (ok : here.Ok cells)
    (chosen : here.chosen = some slot) : (cells slot).process.state ≠ .running := by
  obtain ⟨control, currentProcess, _⟩ := here
  cases control with
  | switching inTrap point =>
      cases point with
      | select index =>
          cases chosen
          exact ok.2.2.notRunning
      | markRunning index =>
          cases chosen
          exact ok.2.2.notRunning
      | _ => contradiction
  | creating arguments point =>
      have creates : Creates image cells arguments point := ok.2.2
      rw [creates.unused rfl chosen]
      simp
  | _ => contradiction

/-- What holds of the owners of the slots in a state, and of the accesses to the
frames on the way to it. -/
structure Exclusive [DecidableEq Hart] (image : Image)
    (state : State Hart image.target) : Prop where
  owner : ∀ slot first second, state.history.owns first slot →
    state.history.owns second slot → first = second
  running_iff : ∀ slot, (state.processes slot).state = .running ↔
    ∃ hart, state.history.owns hart slot
  id : state.processesLock = none → ∀ slot, (state.processes slot).state ≠ .unused →
    slot < image.processesMaximum ∧ (state.processes slot).id = UInt8.ofNat slot
  accesses : ∀ index hart slot, state.trace[index]? = some (.accessed hart slot) →
    ∀ other, (History.ofTrace (state.trace.take index)).owns other slot → other = hart
  restores : ∀ index slot frame, state.trace[index]? = some (.restored slot frame) →
    ∃ save, (History.ofTrace (state.trace.take index)).saved slot = some save ∧
      save.Restores frame
  writes : ∀ action after, step image state action = some after →
    ∀ slot, after.processes slot ≠ state.processes slot →
      ∀ other, state.history.owns other slot → other = action.hart
  executes : ∀ first second slot, (state.harts first).control = .running →
    (state.harts second).control = .running →
      (state.harts first).currentProcess = some slot →
        (state.harts second).currentProcess = some slot → first = second

theorem Invariant.exclusive [DecidableEq Hart] (invariant : Invariant image state)
    (disabled : ∀ hart, (state.harts hart).Disabled) : Exclusive image state := by
  have apart : ∀ slot first second, state.history.owns first slot →
      state.history.owns second slot → first = second := by
    intro slot first second firstOwns secondOwns
    exact invariant.safe.apart (.inl ((invariant.owns first slot).mp firstOwns))
      (.inl ((invariant.owns second slot).mp secondOwns))
  refine ⟨apart, ?_, ?_, ?_, ?_, ?_, ?_⟩
  · intro slot
    constructor
    · intro running
      by_contra nobody
      have free : Waiting image slot (state.cells slot) := by
        apply invariant.safe.free
        intro hart right
        cases right with
        | inl owned => exact nobody ⟨hart, (invariant.owns hart slot).mpr owned⟩
        | inr chosen => exact (invariant.ok hart).chosen_not_running chosen running
      exact free.notRunning running
    · rintro ⟨hart, owns⟩
      exact (invariant.ok hart).owned_running ((invariant.owns hart slot).mp owns)
  · intro unlocked slot used
    by_cases someone : ∃ hart, (state.harts hart).Right slot
    · obtain ⟨hart, right⟩ := someone
      cases (invariant.ok hart).right_running right with
      | inl running => exact ⟨running.bound, running.id⟩
      | inr locked =>
          rw [← invariant.processesLock hart, unlocked] at locked
          contradiction
    · have free : Waiting image slot (state.cells slot) :=
        invariant.safe.free slot fun hart right => someone ⟨hart, right⟩
      exact ⟨free.bound used, free.id used⟩
  · intro index hart slot here
    exact invariant.sound.admits here
  · intro index slot frame here
    exact invariant.sound.admits here
  · intro action after stepped slot changed other owns
    obtain ⟨effect, made, applied⟩ := Option.bind_eq_some_iff.mp stepped
    obtain ⟨-, -, -, processes, -⟩ := Effect.apply_eq_some applied
    have legal := invariant.legal (disabled action.hart) made
    rw [processes] at changed
    have written := Effect.written_of_changed changed
    exact invariant.accessible (legal.writes slot _ written) other owns
  · intro first second slot firstControl secondControl firstCurrent secondCurrent
    apply apart slot
    · rw [invariant.owns, HartState.owned, firstControl]
      exact firstCurrent
    · rw [invariant.owns, HartState.owned, secondControl]
      exact secondCurrent

/-- For any number of harts and any interleaving. -/
theorem slots_owned_exclusively [DecidableEq Hart]
    (reachable : (machine Hart image).Reachable state) : Exclusive image state :=
  (Invariant.of_reachable reachable).exclusive (disabled_of_reachable reachable)

def smallImage : Image where
  target := .riscv64
  processesMaximum := 2
  processesMaximum_pos := by decide
  processesMaximum_le := by decide
  bufferLen := 4
  bufferLen_pos := by decide
  kernelPageTable := 0x80000000
  processExitKernel := 0x80001000
  processExitUser := 0x80002000

def smallBoot (Hart : Type) : State Hart smallImage.target where
  harts := fun _ => {
    control := .boot
    currentProcess := none
    frame := .zero
    outputBuffer := .wrap (fun _ => 0) 4
    registers := fun _ => 0
    pc := 0
    kernelMode := true
    sepc := 0
    returnToKernelMode := false
    trapsAfterSret := false
    satp := 0
    locking := ⟨false, 0, false⟩
    newPc := 0 }
  processes := fun _ => .zero
  processesLock := none
  trapPrintLock := none
  trace := []

theorem smallBoot_booting (Hart : Type) : Booting smallImage (smallBoot Hart) :=
  ⟨fun _ => ⟨rfl, rfl, rfl, rfl, rfl, _, rfl⟩, fun _ => rfl, rfl, rfl, rfl⟩

def smallArguments (isUserProgram : Bool) : ProcessArguments smallImage.target :=
  ⟨isUserProgram, 0x1000, 0x80003000, 0x80010000⟩

def kernelSteps (hart : Hart) (count : Nat) : List (Action Hart smallImage.target) :=
  List.replicate count ⟨hart, .kernel false⟩

def createSteps (hart : Hart) (isUserProgram : Bool) :
    List (Action Hart smallImage.target) :=
  ⟨hart, .create (smallArguments isUserProgram)⟩ :: kernelSteps hart 6

def jumpSteps (hart : Hart) : List (Action Hart smallImage.target) :=
  ⟨hart, .jump⟩ :: kernelSteps hart 11

theorem slots_owned_exclusively_sample :
    ∃ state : State Bool smallImage.target,
      (state.harts true).currentProcess = some 0 ∧
      (state.harts false).currentProcess = some 1 ∧
      (∀ hart, (state.harts hart).control = .running) ∧ Exclusive smallImage state := by
  refine ⟨_, ?_, ?_, ?_, slots_owned_exclusively
    (Data.Transition.System.Reachable.of_execute
      (createSteps true true ++ createSteps true true ++ jumpSteps true ++
        ⟨false, .jump⟩ :: kernelSteps false 12)
      (.start (machine Bool smallImage) (smallBoot_booting Bool)) rfl)⟩
  · rfl
  · rfl
  · intro hart
    cases hart <;> rfl

end Thos.Scheduling
