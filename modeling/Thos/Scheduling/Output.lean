import Thos.Scheduling.Exclusion

namespace Thos.Scheduling

open Data.Trace
open Kernel (Buffer)

/-! What processes print, and what of it reaches the console. -/

structure Output where
  written : List UInt8
  emitted : List UInt8

variable {Hart : Type} {image : Image}

def Output.record {target : Target} (slot : Nat) (output : Output) :
    Event Hart target → Output
  | .printed index character flushed =>
      if index = slot then
        ⟨output.written ++ [character], output.emitted ++ flushed⟩
      else output
  | .wiped index => if index = slot then ⟨[], []⟩ else output
  | _ => output

/-- The output since the slot was last wiped. -/
def Output.ofTrace {target : Target} (trace : List (Event Hart target)) (slot : Nat) :
    Output :=
  trace.foldl (record slot) ⟨[], []⟩

def Event.isOutput {target : Target} : Event Hart target → Bool
  | .printed _ _ _ => true
  | .wiped _ => true
  | _ => false

/-- What is not on the console is in the buffer, and the buffer is empty behind a
newline only. -/
structure Buffered (buffer : Buffer) (output : Output) : Prop where
  inOrder : output.emitted ++ buffer.content = output.written
  empty_iff : buffer.content = [] ↔
    output.written = [] ∨ output.written.getLast? = some Buffer.newline
  bounded : buffer.count ≤ buffer.capacity

theorem Buffered.print {buffer after : Buffer} {output : Output} {character : UInt8}
    {flushed : List UInt8} (buffered : Buffered buffer output)
    (handles : buffer.outputHandleNew character = .ok (flushed, after)) :
    Buffered after ⟨output.written ++ [character], output.emitted ++ flushed⟩ := by
  obtain ⟨handled, bounded⟩ := Buffer.outputHandleNew_handled buffered.bounded handles
  constructor
  · rw [List.append_assoc, handled.append, ← List.append_assoc, buffered.inOrder]
  · rw [handled.empty_iff]
    simp
  · exact bounded

theorem Buffered.zero :
    Buffered (Process.zero : Process image.target).outputBuffer ⟨[], []⟩ :=
  ⟨rfl, ⟨fun _ => .inl rfl, fun _ => rfl⟩, Nat.le_refl 0⟩

theorem Output.foldl_record {target : Target} {events : List (Event Hart target)}
    (quiet : ∀ event ∈ events, event.isOutput = false) (slot : Nat)
    (output : Output) :
    events.foldl (record slot) output = output := by
  refine foldl_unchanged id fun event member before => ?_
  have silent := quiet event member
  cases event with
  | printed index character flushed => contradiction
  | wiped index => contradiction
  | _ => rfl

/-- What an effect of a hart that owns `owned` does to the buffer of a process, and
says of it. -/
inductive Effect.Outputs (effect : Effect Hart image.target) (owned : Option Nat)
    (processes : Processes image.target) : Prop
  | keep :
      (∀ slot process, effect.process = some (slot, process) →
        process.outputBuffer = (processes slot).outputBuffer) →
      (∀ event ∈ effect.events, event.isOutput = false) →
      Outputs effect owned processes
  | wrap (slot : Nat) (process : Process image.target) (array : Nat → UInt8)
      (capacity : Nat) :
      effect.process = some (slot, process) →
      process.outputBuffer = .wrap array capacity →
      (processes slot).outputBuffer.content = [] → effect.events = [] →
      Outputs effect owned processes
  | print (slot : Nat) (process : Process image.target) (character : UInt8)
      (flushed : List UInt8) :
      effect.process = some (slot, process) → owned = some slot →
      (processes slot).outputBuffer.outputHandleNew character =
        .ok (flushed, process.outputBuffer) →
      effect.events = [.printed slot character flushed] →
      Outputs effect owned processes
  | wipe (hart : Hart) (slot : Nat) : effect.process = some (slot, .zero) →
      effect.events =
        [.accessed hart slot, .stored hart slot .unused, .wiped slot] →
      Outputs effect owned processes

theorem Effect.Outputs.buffered {effect : Effect Hart image.target}
    {owned : Option Nat} {processes : Processes image.target}
    {trace : List (Event Hart image.target)}
    (outputs : effect.Outputs owned processes)
    (buffered : ∀ slot, Buffered (processes slot).outputBuffer (.ofTrace trace slot))
    (slot : Nat) :
    Buffered (effect.processes processes slot).outputBuffer
      (.ofTrace (trace ++ effect.events) slot) := by
  have before := buffered slot
  unfold Output.ofTrace at before ⊢
  rw [List.foldl_append]
  generalize trace.foldl (Output.record slot) ⟨[], []⟩ = output at before ⊢
  cases outputs with
  | keep buffers quiet =>
      rw [Output.foldl_record quiet]
      cases written : effect.process with
      | none =>
          rw [Effect.processes_none written]
          exact before
      | some write =>
          obtain ⟨index, process⟩ := write
          by_cases same : slot = index
          · subst same
            rw [Effect.processes_self written, buffers slot process written]
            exact before
          · rw [Effect.processes_of_ne written _ same]
            exact before
  | wrap index process array capacity written wraps empty quiet =>
      rw [quiet, List.foldl_nil]
      by_cases same : slot = index
      · subst same
        have inOrder := before.inOrder
        have isEmpty := before.empty_iff
        rw [empty] at inOrder isEmpty
        rw [Effect.processes_self written, wraps]
        exact ⟨inOrder, isEmpty, Nat.zero_le _⟩
      · rw [Effect.processes_of_ne written _ same]
        exact before
  | print index process character flushed written _ handles printed =>
      rw [printed]
      by_cases same : slot = index
      · subst same
        rw [Effect.processes_self written]
        simp only [List.foldl_cons, List.foldl_nil, Output.record, if_true]
        exact before.print handles
      · rw [Effect.processes_of_ne written _ same]
        simp only [List.foldl_cons, List.foldl_nil, Output.record,
          if_neg (Ne.symm same)]
        exact before
  | wipe hart index written wiped =>
      rw [wiped]
      by_cases same : slot = index
      · subst same
        rw [Effect.processes_self written]
        simp only [List.foldl_cons, List.foldl_nil, Output.record, if_true]
        exact .zero
      · rw [Effect.processes_of_ne written _ same]
        simp only [List.foldl_cons, List.foldl_nil, Output.record,
          if_neg (Ne.symm same)]
        exact before

section

variable {hart : Hart} {here : HartState image.target}
  {processes : Processes image.target}

theorem Effect.Outputs.none {effect : Effect Hart image.target}
    (process : effect.process = .none) (events : effect.events = []) :
    effect.Outputs here.owned processes := by
  refine .keep ?_ ?_
  · rw [process]
    simp
  · rw [events]
    simp

theorem Effect.Outputs.write {effect : Effect Hart image.target} {slot : Nat}
    {process : Process image.target} (written : effect.process = some (slot, process))
    (same : process.outputBuffer = (processes slot).outputBuffer)
    (quiet : ∀ event ∈ effect.events, event.isOutput = false) :
    effect.Outputs here.owned processes := by
  refine .keep ?_ quiet
  intro index other writes
  cases written.symm.trans writes
  exact same

theorem kernelSwitch_outputs (inTrap : Bool) (point : SwitchPoint) :
    (kernelSwitch image hart here processes inTrap point).Outputs here.owned
      processes := by
  cases point with
  | enter =>
      simp only [kernelSwitch]
      cases here.currentProcess with
      | none => exact .none rfl rfl
      | some slot => exact .write rfl rfl (by simp [Event.isOutput])
  | adjust =>
      simp only [kernelSwitch]
      cases here.currentProcess with
      | none => exact .none rfl rfl
      | some slot =>
          exact .write rfl (Process.adjust_outputBuffer _) (by simp [Event.isOutput])
  | markRunnable =>
      simp only [kernelSwitch]
      cases here.currentProcess with
      | none => exact .none rfl rfl
      | some slot => exact .write rfl rfl (by simp [Event.isOutput])
  | scan startSearchId id numChecked =>
      simp only [kernelSwitch]
      split
      · split <;> exact .none rfl rfl
      · exact .none rfl rfl
  | markRunning slot => exact .write rfl rfl (by simp [kernelSwitch, Event.isOutput])
  | setReturn firstRun =>
      simp only [kernelSwitch]
      cases here.currentProcess with
      | none => exact .none rfl rfl
      | some slot =>
          exact .write rfl (Process.return_outputBuffer _ _)
            (by simp [Event.isOutput])
  | setSatp =>
      simp only [kernelSwitch]
      cases here.currentProcess with
      | none => exact .none rfl rfl
      | some slot => exact .write rfl rfl (by simp [Event.isOutput])
  | copyFrame =>
      simp only [kernelSwitch]
      cases here.currentProcess with
      | none => exact .none rfl rfl
      | some slot => exact .keep (by simp) (by simp [Event.isOutput])
  | _ => exact .none rfl rfl

theorem destroy_outputs (inTrap : Bool) (point : DestroyPoint) :
    (destroy hart here processes inTrap point).Outputs here.owned processes := by
  cases point with
  | clear =>
      simp only [destroy]
      cases here.currentProcess with
      | none => exact .none rfl rfl
      | some slot => exact .none rfl rfl
  | wipeId slot => exact .write rfl rfl (List.forall_mem_nil _)
  | wipeState slot => exact .write rfl rfl (by simp [destroy, Event.isOutput])
  | _ => exact .none rfl rfl

theorem create_outputs (arguments : ProcessArguments image.target)
    {point : CreatePoint}
    (zero : ∀ slot, point = .setId slot → processes slot = .zero) :
    (create image hart here processes arguments point).Outputs here.owned
      processes := by
  cases point with
  | find =>
      simp only [create]
      cases findUnused image processes with
      | none => exact .none rfl rfl
      | some index => exact .none rfl rfl
  | wipe slot => exact .wipe hart slot rfl rfl
  | setId slot =>
      refine .wrap slot _ _ _ rfl rfl ?_ rfl
      rw [zero slot rfl]
      rfl
  | fill slot =>
      exact .write rfl (Process.fill_outputBuffer _ _)
        (by simp [create, Event.isOutput])
  | markReady slot => exact .write rfl rfl (by simp [create, Event.isOutput])
  | release => exact .none rfl rfl

theorem Printed.outputs {process : Option Nat} {character : UInt8}
    {control : Control image.target} {effect : Effect Hart image.target}
    (printed : Printed here processes process character control effect)
    (mine : ∀ slot, process = some slot → here.owned = some slot) :
    effect.Outputs here.owned processes := by
  cases printed with
  | process slot flushed buffer same handles =>
      exact .print slot _ character flushed rfl (mine slot same) handles rfl
  | hart buffer _ _ => exact .none rfl rfl
  | failed slot stop locking _ _ => exact .none rfl rfl

theorem handleTrap_outputs (masked : here.Masked) {cause : Cause} (claimed : Bool)
    (control : here.control = .handling cause) :
    (handleTrap here processes cause claimed : Effect Hart image.target).Outputs
      here.owned processes := by
  unfold handleTrap
  split
  · split
    · exact .none rfl rfl
    · exact .none rfl rfl
  · generalize (if cause = .ecallUMode then handleSyscall here.frame
      else (here.frame, .nothing)) = result
    obtain ⟨frame, syscall⟩ := result
    simp only
    split
    · exact .none rfl rfl
    · cases syscall with
      | nothing => exact .none rfl rfl
      | exit => exact .none rfl rfl
      | putchar character =>
          refine (putcharBuffer_printed (masked.withFrame frame) processes _ character
            _).outputs ?_
          intro slot selected
          have owned : here.owned = here.currentProcess := by
            rw [HartState.owned, control]
          have current : here.currentProcess.or
              (if here.control.isRunning then here.currentProcess else none) =
              some slot := selected
          rw [control] at current
          exact owned.trans ((Option.or_none ..).symm.trans current)

theorem effect_outputs {choice : Choice image.target}
    {effect : Effect Hart image.target}
    (masked : here.Masked)
    (zero : ∀ arguments slot, here.control = .creating arguments (.setId slot) →
      processes slot = .zero)
    (made : Scheduling.effect image hart here processes choice = some effect) :
    effect.Outputs here.owned processes := by
  cases effect_inv made with
  | inl kernel =>
      obtain ⟨claimed, _, stepped⟩ := kernel
      unfold kernelStep at stepped
      cases control : here.control with
      | boot =>
          rw [control] at stepped
          contradiction
      | running =>
          rw [control] at stepped
          contradiction
      | stopped inProcesses inTrap =>
          rw [control] at stepped
          contradiction
      | trapped cause =>
          rw [control] at stepped
          cases stepped
          exact .none rfl rfl
      | handling cause =>
          rw [control] at stepped
          cases stepped
          exact handleTrap_outputs masked claimed control
      | destroying inTrap point =>
          rw [control] at stepped
          cases stepped
          exact destroy_outputs inTrap point
      | switching inTrap point =>
          rw [control] at stepped
          cases stepped
          exact kernelSwitch_outputs inTrap point
      | leaving =>
          rw [control] at stepped
          cases stepped
          exact .none rfl rfl
      | restoring =>
          rw [control] at stepped
          cases stepped
          exact .none rfl rfl
      | returning =>
          rw [control] at stepped
          cases stepped
          exact .keep (by simp) (by simp [Event.isOutput])
      | creating arguments point =>
          rw [control] at stepped
          cases stepped
          apply create_outputs
          rintro slot rfl
          exact zero arguments slot control
  | inr process =>
      cases process with
      | execute registers pc control => exact .none rfl rfl
      | trap cause takes =>
          exact .keep (by intros; contradiction)
            (by simp [HartState.trap, Event.isOutput])
      | putchar character kernelMode going =>
          refine (putcharBuffer_printed masked processes none character _).outputs ?_
          intro slot selected
          rw [Option.none_or, Option.ite_none_right_eq_some] at selected
          rw [HartState.owned, Control.eq_running selected.1]
          exact selected.2
      | create arguments page idle => exact .none rfl rfl
      | exit control kernelMode => exact .none rfl rfl
      | jump control => exact .none rfl rfl

end

section

variable [DecidableEq Hart] {state : State Hart image.target}

theorem outputs_of_reachable (reachable : (machine Hart image).Reachable state)
    {hart : Hart} {choice : Choice image.target} {effect : Effect Hart image.target}
    (made : Scheduling.effect image hart (state.harts hart) state.processes choice =
      some effect) :
    effect.Outputs (state.harts hart).owned state.processes := by
  cases disabled_of_reachable reachable hart with
  | inl stopped =>
      rw [effect_stopped stopped] at made
      contradiction
  | inr masked =>
      refine effect_outputs masked ?_ made
      intro arguments slot control
      have ok := (Invariant.of_reachable reachable).ok hart
      unfold HartState.Ok at ok
      rw [control] at ok
      exact ok.2.2.2

theorem buffered_of_reachable (reachable : (machine Hart image).Reachable state)
    (slot : Nat) :
    Buffered (state.processes slot).outputBuffer (.ofTrace state.trace slot) := by
  refine (reachable.invariant (fun state => (machine Hart image).Reachable state ∧
    ∀ slot, Buffered (state.processes slot).outputBuffer (.ofTrace state.trace slot))
    ?_ ?_).2 slot
  · intro start starts
    refine ⟨.start _ starts, ?_⟩
    intro slot
    rw [starts.processes, starts.trace]
    exact .zero
  · intro before action after holds stepped
    obtain ⟨reachable, buffered⟩ := holds
    refine ⟨reachable.step stepped, ?_⟩
    obtain ⟨effect, made, applied⟩ := Option.bind_eq_some_iff.mp stepped
    obtain ⟨-, -, -, processes, trace⟩ := Effect.apply_eq_some applied
    rw [processes, trace]
    exact (outputs_of_reachable reachable made).buffered buffered

theorem ended_output_stays (reachable : (machine Hart image).Reachable state)
    {slot : Nat} (ended : (state.processes slot).state = .unused)
    {action : Action Hart image.target} {after : State Hart image.target}
    (stepped : step image state action = some after) :
    Output.ofTrace after.trace slot = .ofTrace state.trace slot ∨
      Output.ofTrace after.trace slot = ⟨[], []⟩ := by
  obtain ⟨effect, made, applied⟩ := Option.bind_eq_some_iff.mp stepped
  obtain ⟨-, -, -, -, trace⟩ := Effect.apply_eq_some applied
  rw [trace, Output.ofTrace, List.foldl_append]
  change effect.events.foldl _ (Output.ofTrace state.trace slot) = _ ∨ _
  cases outputs_of_reachable reachable made with
  | keep _ quiet => exact .inl (Output.foldl_record quiet ..)
  | wrap _ _ _ _ _ _ _ quiet =>
      rw [quiet]
      exact .inl rfl
  | print index _ character flushed _ mine _ printed =>
      have running :=
        ((Invariant.of_reachable reachable).ok action.hart).owned_running mine
      have different : index ≠ slot := by
        rintro rfl
        exact absurd (running.symm.trans ended) (by simp)
      rw [printed]
      exact .inl (if_neg different)
  | wipe _ index _ wiped =>
      rw [wiped]
      by_cases same : index = slot
      · exact .inr (if_pos same)
      · exact .inl (if_neg same)

/-- What a process that has ended has printed has reached the console exactly if
it was nothing or ends with a newline; and no step makes up for it. -/
theorem ended_output_emitted_iff (reachable : (machine Hart image).Reachable state)
    {slot : Nat} (ended : (state.processes slot).state = .unused) :
    ((Output.ofTrace state.trace slot).emitted =
        (Output.ofTrace state.trace slot).written ↔
      (Output.ofTrace state.trace slot).written = [] ∨
        (Output.ofTrace state.trace slot).written.getLast? = some Buffer.newline) ∧
      ∀ action after, step image state action = some after →
        Output.ofTrace after.trace slot = .ofTrace state.trace slot ∨
          Output.ofTrace after.trace slot = ⟨[], []⟩ := by
  refine ⟨?_, fun action after => ended_output_stays reachable ended⟩
  have buffered := buffered_of_reachable reachable slot
  rw [← buffered.empty_iff, ← buffered.inOrder]
  exact List.self_eq_append_right

end

/-- A running user process makes a system call; `steps` steps of the kernel
follow. -/
def syscallSteps (number : SyscallNumber) (a1 : Word smallImage.target)
    (steps : Nat) :
    List (Action Unit smallImage.target) :=
  ⟨(), .execute (Function.update (fun _ => a1) .a0 (number.value _)) 0x1000000⟩ ::
    ⟨(), .trap .ecallUMode⟩ :: kernelSteps () steps

def exitedRun (character : Word smallImage.target) :
    List (Action Unit smallImage.target) :=
  createSteps () true ++ jumpSteps () ++ syscallSteps .putchar character 18 ++
    syscallSteps .exit 0 6

theorem exitedRun_reachable {state : State Unit smallImage.target}
    (character : Word smallImage.target)
    (executed : Data.Transition.execute (step smallImage) (smallBoot Unit)
      (exitedRun character) = some state) :
        (machine Unit smallImage).Reachable state :=
  .of_execute (exitedRun character) (.start _ (smallBoot_booting Unit)) executed

theorem ended_output_emitted_iff_sample :
    ∃ state : State Unit smallImage.target,
      (state.processes 0).state = .unused ∧
      ((Output.ofTrace state.trace 0).emitted = (Output.ofTrace state.trace 0).written ↔
        (Output.ofTrace state.trace 0).written = [] ∨
          (Output.ofTrace state.trace 0).written.getLast? = some Buffer.newline) ∧
      ∀ action after, step smallImage state action = some after →
        Output.ofTrace after.trace 0 = .ofTrace state.trace 0 ∨
          Output.ofTrace after.trace 0 = ⟨[], []⟩ :=
  ⟨_, rfl, ended_output_emitted_iff (exitedRun_reachable 10 rfl) rfl⟩

/-- The process has printed an `a` and exited; its slot is unused, and the
console has seen nothing. -/
theorem exited_process_loses_output :
    ∃ state : State Unit smallImage.target,
      (machine Unit smallImage).Reachable state ∧
      (state.processes 0).state = .unused ∧
      (Output.ofTrace state.trace 0).written = [97] ∧
      (Output.ofTrace state.trace 0).emitted = [] :=
  ⟨_, exitedRun_reachable 97 rfl, rfl, rfl, rfl⟩

end Thos.Scheduling
