import Thos.Scheduling.KernelMain

namespace Thos.Scheduling.KernelMain

open Thos.Kernel Data.Transition Data.Trace

/-! The order of the boot: what the primary hart has done before another hart
does anything but claim. -/

section

variable (config : Config) (first : Nat)

structure PoweredOne (state : State) : Prop extends Powered state where
  firstHart : state.harts first = .kernelMain
  others : ∀ hart ≠ first, state.harts hart = .stopped

def startSystem : System State Action := .ofFunction (PoweredOne first) (step config)

def startupScript : List MainEvent :=
  [.claimed Claim.first.value, .scratchesInitialised, .tableInitialised, .treeParsed] ++
    (if config.dumpDeviceTree then [.treeDumped] else []) ++
      [.devicesInitialised, .startupPrinted true] ++
        (startedHarts config.board config.hartMaximum first).map .requested ++
          [.doneStarting]

def hartScript (hart : Nat) : List MainEvent :=
  if hart = first then
    .claimed Claim.first.value :: PrimaryPoint.initScratches.rest config hart
  else .claimed Claim.secondary.value ::
    (SecondaryPoint.printStartup .acquire).rest config

def Point.remaining (hart : Nat) : Point → List MainEvent
  | .stopped => hartScript config first hart
  | .kernelMain => hartScript config first hart
  | point => point.rest config hart

def Late (event : Nat × MainEvent) : Prop :=
  event.1 ≠ first ∧ event.2 ≠ .claimed Claim.secondary.value

structure StartupOrder (trace : List (Nat × MainEvent)) : Prop where
  script : ∀ hart, ofAgent hart trace <+: hartScript config first hart
  requested : ∀ before event after, trace = before ++ event :: after →
    event.1 ≠ first → (first, .requested event.1) ∈ before
  startup : ∀ before event after, trace = before ++ event :: after →
    Late first event → startupScript config first <+: ofAgent first before

end

section

variable {config : Config} {first hart : Nat} {here : Point} {move : Move}
  {state after : State} {emitted rest : List MainEvent}

/-- The primary hart's script is its startup, unless it runs a test. -/
theorem hartScript_first (noTests : config.testsEnabled = false) :
    hartScript config first first = startupScript config first ++ afterWake config := by
  rw [hartScript, if_pos rfl]
  simp only [PrimaryPoint.rest, afterTree, noTests, fromDevices, fromWake, fromLoop,
    startupScript, startedHarts]
  cases config.dumpDeviceTree <;> simp

theorem hartScript_tests (tests : config.testsEnabled = true) :
    hartScript config first first = [.claimed Claim.first.value,
      .scratchesInitialised, .tableInitialised, .treeParsed] := by
  rw [hartScript, if_pos rfl]
  simp only [PrimaryPoint.rest, afterTree, tests, if_true]

theorem PrimaryPoint.done_of_outside {point : PrimaryPoint} (outside : ¬point.Inside)
    (printed : .startupPrinted true ∉ point.rest config hart) :
    .doneStarting ∉ point.rest config hart := by
  have wake : .startupPrinted true ∈ fromWake config hart := List.mem_cons_self
  have devices : .startupPrinted true ∈ fromDevices config hart :=
    List.mem_cons_of_mem _ wake
  cases point with
  | initScratches | initTable | parseTree =>
      revert printed
      simp only [PrimaryPoint.rest, afterTree]
      split
      · simp
      · split <;> simp [devices]
  | dump point =>
      cases point with
      | acquire => exact absurd (List.mem_cons_of_mem _ devices) printed
      | body | release => exact absurd trivial outside
  | initDevices point =>
      cases point with
      | acquire => exact absurd (List.mem_cons_of_mem _ wake) printed
      | body | release => exact absurd trivial outside
  | wake point =>
      cases point with
      | acquire => exact absurd wake printed
      | printStartup | loop | release => exact absurd trivial outside
  | finish point => cases point <;> simp [PrimaryPoint.rest, Critical.rest]
  | startProcesses | setTrapVector | jump | exit | runTest | inProcesses | exited =>
      simp [PrimaryPoint.rest]

theorem printed_of_requested {target : Nat}
    (script : emitted ++ rest = hartScript config first first)
    (requested : .requested target ∈ emitted) :
    .startupPrinted true ∉ rest ∧ .doneStarting ∈ emitted ++ rest := by
  cases tests : config.testsEnabled with
  | true =>
      have member := List.mem_append_left rest requested
      rw [script, hartScript_tests tests] at member
      simp at member
  | false =>
      let lead : List MainEvent := [.claimed Claim.first.value, .scratchesInitialised,
        .tableInitialised, .treeParsed] ++
          (if config.dumpDeviceTree then [.treeDumped] else []) ++ [.devicesInitialised]
      have split : hartScript config first first = lead ++ .startupPrinted true ::
          fromLoop config first config.board.numMonitorHarts := by
        rw [hartScript_first tests]
        simp [startupScript, lead, fromLoop, startedHarts]
      have noRequest : .requested target ∉ lead ++ [.startupPrinted true] := by
        simp only [lead]
        split <;> simp
      have loop : .startupPrinted true ∉
          fromLoop config first config.board.numMonitorHarts := by
        simp only [fromLoop, afterWake]
        split <;> simp
      have begun : lead ++ [.startupPrinted true] <+: emitted := by
        have short : lead ++ [.startupPrinted true] <+: emitted ++ rest := by
          rw [script, split]
          exact ⟨_, by rw [List.append_assoc, List.singleton_append]⟩
        refine (List.prefix_or_prefix_of_prefix short
          (List.prefix_append emitted rest)).resolve_right ?_
        intro early
        exact noRequest (early.subset requested)
      obtain ⟨more, rfl⟩ := begun
      rw [script, split]
      refine ⟨fun printed => ?_, by simp [fromLoop]⟩
      rw [split, List.append_assoc, List.append_assoc, List.append_cancel_left_eq,
        List.singleton_append, List.cons.injEq] at script
      apply loop
      rw [← script.2]
      exact List.mem_append_right more printed

theorem SameMain.remaining {next : Point} (same : SameMain here next) :
    here.remaining config first hart = here.rest config hart ∧
      next.remaining config first hart = next.rest config hart := by
  cases same with
  | primary | panicked | secondary => exact ⟨rfl, rfl⟩

/-- What holds of every state of a boot that one hart begins. -/
structure Starting (config : Config) (first : Nat) (state : State) : Prop
    extends Claimed state where
  script : ∀ hart, ofAgent hart state.trace ++
    (state.harts hart).remaining config first hart = hartScript config first hart
  role : ∀ hart, (state.harts hart).IsPrimary → hart = first
  other : ∀ hart point, state.harts hart = .secondary point → hart ≠ first
  firstHart : state.claim = Claim.first.value →
    state.harts first = .kernelMain ∧ ∀ hart ≠ first, state.harts hart = .stopped
  started : ∀ hart ≠ first, state.harts hart ≠ .stopped →
    (first, .requested hart) ∈ state.trace
  printing : ∀ hart point, state.harts hart = .secondary point →
    point ≠ .printStartup .acquire → (first, .doneStarting) ∈ state.trace
  requests : OnlyAfter (fun event => event.1 ≠ first)
    (fun event => (first, .requested event.1)) state.trace
  order : OnlyAfter (Late first) (fun _ => (first, .doneStarting)) state.trace

theorem PoweredOne.starting (powered : PoweredOne first state) :
    Starting config first state where
  toClaimed := powered.claimed
  script := by
    intro hart
    rw [powered.trace]
    rcases powered.harts hart with point | point <;> (rw [point]; rfl)
  role := by
    intro hart primary
    rcases powered.harts hart with point | point <;>
      (rw [point] at primary; exact primary.elim)
  other := by
    intro hart other point
    rcases powered.harts hart with here | here <;> (rw [here] at point; cases point)
  firstHart _ := ⟨powered.firstHart, powered.others⟩
  started := by
    intro hart different running
    exact absurd (powered.others hart different) running
  printing := by
    intro hart other point
    rcases powered.harts hart with here | here <;> (rw [here] at point; cases point)
  requests := by
    rw [powered.trace]
    exact .nil
  order := by
    rw [powered.trace]
    exact .nil

theorem Starting.done (starting : Starting config first state) {target : Nat}
    (requested : (first, .requested target) ∈ state.trace)
    (free : state.stdoutLock = none) : (first, .doneStarting) ∈ state.trace := by
  have outside : ¬(state.harts first).Inside := by
    rw [starting.lock first, free]
    simp
  obtain ⟨printed, member⟩ := printed_of_requested (starting.script first)
    (mem_ofAgent.mpr requested)
  rcases List.mem_append.mp member with made | left
  · exact mem_ofAgent.mp made
  · exfalso
    have begun : ¬(state.harts first).remaining config first first =
        hartScript config first first := by
      intro same
      have script := starting.script first
      rw [same, List.append_left_eq_self] at script
      have member := mem_ofAgent.mpr requested
      rw [script] at member
      cases member
    cases point : state.harts first with
    | stopped | kernelMain =>
        rw [point] at begun
        exact begun rfl
    | primary here | panicked here =>
        rw [point] at outside printed left
        exact PrimaryPoint.done_of_outside outside printed left
    | secondary here => exact starting.other first here point rfl

/-- What a step has to do to keep the order of the boot. -/
structure Continues (config : Config) (first hart : Nat) (state after : State)
    (events : List MainEvent) : Prop where
  claimed : Claimed after
  claim : after.claim ≠ Claim.first.value
  trace : after.trace = state.trace ++ events.map (Prod.mk hart)
  script : (state.harts hart).remaining config first hart =
    events ++ (after.harts hart).remaining config first hart
  running : state.harts hart ≠ .stopped
  role : (after.harts hart).IsPrimary → hart = first
  other : ∀ point, after.harts hart = .secondary point → hart ≠ first
  others : ∀ other ≠ hart, after.harts other = state.harts other ∨
    (hart = first ∧ .requested other ∈ events ∧ state.harts other = .stopped ∧
      after.harts other = .kernelMain)
  printing : ∀ point, after.harts hart = .secondary point →
    point ≠ .printStartup .acquire → state.stdoutLock = none ∨
      ∃ before, state.harts hart = .secondary before ∧ before ≠ .printStartup .acquire
  late : ∀ event ∈ events, Late first (hart, event) →
    ∃ before, state.harts hart = .secondary before ∧ before ≠ .printStartup .acquire

theorem Starting.continues {events : List MainEvent}
    (starting : Starting config first state)
    (continues : Continues config first hart state after events) :
    Starting config first after where
  toClaimed := continues.claimed
  script := by
    intro other
    rw [continues.trace, ofAgent_append]
    by_cases same : other = hart
    · subst same
      rw [ofAgent_self, List.append_assoc, ← continues.script]
      exact starting.script other
    · rw [ofAgent_of_ne (Ne.symm same), List.append_nil, ← starting.script other]
      rcases continues.others other same with kept | ⟨_, _, stopped, entered⟩
      · rw [kept]
      · rw [stopped, entered]
        rfl
  role := by
    intro other primary
    by_cases same : other = hart
    · subst same
      exact continues.role primary
    · rcases continues.others other same with kept | ⟨_, _, _, entered⟩
      · rw [kept] at primary
        exact starting.role other primary
      · rw [entered] at primary
        exact primary.elim
  other := by
    intro other point here
    by_cases same : other = hart
    · subst same
      exact continues.other point here
    · rcases continues.others other same with kept | ⟨_, _, _, entered⟩
      · rw [kept] at here
        exact starting.other other point here
      · rw [entered] at here
        cases here
  firstHart := by
    intro isFirst
    exact absurd isFirst continues.claim
  started := by
    intro other different running
    rw [continues.trace, List.mem_append]
    by_cases same : other = hart
    · subst same
      exact .inl (starting.started other different continues.running)
    · rcases continues.others other same with kept | ⟨own, requested, _, _⟩
      · rw [kept] at running
        exact .inl (starting.started other different running)
      · rw [← own]
        exact .inr (List.mem_map_of_mem requested)
  printing := by
    intro other point here past
    rw [continues.trace]
    apply List.mem_append_left
    by_cases same : other = hart
    · subst same
      rcases continues.printing point here past with free | ⟨before, was, notWaiting⟩
      · exact starting.done (starting.started other (continues.other point here)
          continues.running) free
      · exact starting.printing other before was notWaiting
    · rcases continues.others other same with kept | ⟨_, _, _, entered⟩
      · rw [kept] at here
        exact starting.printing other point here past
      · rw [entered] at here
        cases here
  requests := by
    rw [continues.trace]
    refine starting.requests.append ?_
    intro event made notFirst
    obtain ⟨happening, _, rfl⟩ := List.mem_map.mp made
    exact starting.started hart notFirst continues.running
  order := by
    rw [continues.trace]
    refine starting.order.append ?_
    intro event made isLate
    obtain ⟨happening, member, rfl⟩ := List.mem_map.mp made
    obtain ⟨before, was, notWaiting⟩ := continues.late happening member isLate
    exact starting.printing hart before was notWaiting

theorem Starting.claimFirst (starting : Starting config first state)
    (isFirst : state.claim = Claim.first.value)
    (here : state.harts hart = .kernelMain) :
    Continues config first hart state (claimStep hart state)
      [.claimed Claim.first.value] := by
  have own : hart = first := by
    by_contra different
    have point := (starting.firstHart isFirst).2 hart different
    rw [here] at point
    cases point
  subst own
  have claimed := starting.toClaimed.claimStep here
  rw [claimStep_first isFirst] at claimed ⊢
  constructor
  · exact claimed
  · intro same
    cases same
  · rfl
  · simp only [here, Function.update_self, Point.remaining, hartScript, if_true]
    rfl
  · rw [here]
    exact Point.noConfusion
  · intro _
    rfl
  · intro point now
    simp only [Function.update_self] at now
    cases now
  · intro other different
    exact .inl (Function.update_of_ne different ..)
  · intro point now
    simp only [Function.update_self] at now
    cases now
  · intro event _ isLate
    exact absurd rfl isLate.1

theorem Starting.claimLater (starting : Starting config first state)
    (isSecondary : state.claim = Claim.secondary.value)
    (here : state.harts hart = .kernelMain) :
    Continues config first hart state (claimStep hart state)
      [.claimed Claim.secondary.value] := by
  have later : state.claim ≠ Claim.first.value := by
    rw [isSecondary]
    decide
  have different : hart ≠ first := by
    intro same
    obtain ⟨_, primary, unique⟩ := starting.claimed later
    have chosen := (unique primary).mpr rfl
    rw [starting.role primary chosen, ← same, here] at chosen
    exact chosen.elim
  have claimed := starting.toClaimed.claimStep here
  rw [claimStep_secondary isSecondary] at claimed ⊢
  constructor
  · exact claimed
  · intro same
    cases same
  · rfl
  · simp only [here, Function.update_self, Point.remaining, hartScript,
      if_neg different]
    rfl
  · rw [here]
    exact Point.noConfusion
  · intro primary
    simp only [Function.update_self] at primary
    exact primary.elim
  · intro _ _
    exact different
  · intro other notSame
    exact .inl (Function.update_of_ne notSame ..)
  · intro point now past
    simp only [Function.update_self] at now
    cases now
    exact absurd rfl past
  · intro event made isLate
    rw [List.mem_singleton] at made
    exact absurd made isLate.2

theorem Moves.of_secondary {point : SecondaryPoint}
    (moves : Moves config hart (.secondary point) move) :
    move.started = none ∧ (point = .printStartup .acquire →
      move.stdoutLock = .acquire ∧ move.events = []) := by
  cases moves with
  | secondary moved =>
      constructor
      · cases point with
        | printStartup point | finish point =>
            cases moved
            cases point <;> rfl
        | setTrapVector | jump | hartStop =>
            cases moved
            rfl
        | inProcesses | ended => cases moved
      · rintro rfl
        cases moved
        exact ⟨rfl, rfl⟩

theorem Starting.moved (starting : Starting config first state)
    (moves : Moves config hart (state.harts hart) move)
    (applied : Applied move hart state after) :
    Continues config first hart state after move.events := by
  have fits := moves.fits
  have same := fits.sameMain
  have claimed := starting.toClaimed.moved moves applied
  have begun : state.claim ≠ Claim.first.value := by
    intro isFirst
    rcases (starting.unclaimed isFirst).2 hart with point | point <;>
      (rw [point] at moves; cases moves)
  have secondary : ∀ point, move.next = .secondary point →
      ∃ before, state.harts hart = .secondary before := by
    intro point now
    rw [now] at same
    cases here : state.harts hart with
    | secondary before => exact ⟨before, rfl⟩
    | stopped | kernelMain | primary | panicked =>
        rw [here] at same
        cases same
  constructor
  · exact claimed
  · rw [applied.claim]
    exact begun
  · exact applied.trace
  · rw [applied.self, same.remaining.1, same.remaining.2]
    exact fits.script
  · intro stopped
    rw [stopped] at moves
    cases moves
  · intro primary
    rw [applied.self, same.isPrimary] at primary
    exact starting.role hart primary
  · intro point now
    rw [applied.self] at now
    obtain ⟨before, was⟩ := secondary point now
    exact starting.other hart before was
  · intro other different
    rcases applied.other other different with kept | ⟨started, stopped, entered⟩
    · exact .inl kept
    · refine .inr ⟨?_, (fits.started other started).2, stopped, entered⟩
      cases here : state.harts hart with
      | secondary before =>
          rw [here] at moves
          rw [moves.of_secondary.1] at started
          cases started
      | stopped | kernelMain =>
          rw [here] at moves
          cases moves
      | primary before | panicked before =>
          exact starting.role hart (by rw [here]; trivial)
  · intro point now _
    rw [applied.self] at now
    obtain ⟨before, was⟩ := secondary point now
    rw [was] at moves
    by_cases waiting : before = .printStartup .acquire
    · have acquires := applied.stdoutLock
      rw [(moves.of_secondary.2 waiting).1, LockUse.apply,
        Option.ite_none_right_eq_some, Option.isNone_iff_eq_none] at acquires
      exact .inl acquires.1
    · exact .inr ⟨before, was, waiting⟩
  · intro event made isLate
    cases here : state.harts hart with
    | secondary before =>
        rw [here] at moves
        refine ⟨before, rfl, fun waiting => ?_⟩
        rw [(moves.of_secondary.2 waiting).2] at made
        cases made
    | stopped | kernelMain =>
        rw [here] at moves
        cases moves
    | primary before | panicked before =>
        have own := starting.role hart (by rw [here]; trivial)
        exact absurd own isLate.1

theorem Starting.of_reachable (reachable : (startSystem config first).Reachable state) :
    Starting config first state := by
  refine System.Reachable.invariant (Starting config first) ?_ ?_ reachable
  · intro start powered
    exact powered.starting
  · intro before action after starting stepped
    cases step_stepped stepped with
    | claim here same =>
        rw [same]
        by_cases isFirst : before.claim = Claim.first.value
        · exact starting.continues (starting.claimFirst isFirst here)
        · exact starting.continues
            (starting.claimLater (starting.claimed isFirst).1 here)
    | move move moves applied =>
        exact starting.continues (starting.moved moves applied)

theorem Starting.isPrefix (starting : Starting config first state) (hart : Nat) :
    ofAgent hart state.trace <+: hartScript config first hart :=
  ⟨_, starting.script hart⟩

theorem doneStarting_fresh {dumped : List MainEvent} {harts : List Nat}
    (noDone : .doneStarting ∉ dumped) :
    .doneStarting ∉ [.claimed Claim.first.value, .scratchesInitialised,
      .tableInitialised, .treeParsed] ++ dumped ++
        [.devicesInitialised, .startupPrinted true] ++
          harts.map MainEvent.requested := by
  simp [noDone]

theorem Starting.startup (starting : Starting config first state)
    {before rest : List (Nat × MainEvent)} (split : state.trace = before ++ rest)
    (done : (first, .doneStarting) ∈ before) :
    startupScript config first <+: ofAgent first before := by
  have made := mem_ofAgent.mpr done
  have start : ofAgent first before <+: hartScript config first first := by
    refine List.IsPrefix.trans ?_ (starting.isPrefix first)
    rw [split, ofAgent_append]
    exact List.prefix_append ..
  cases tests : config.testsEnabled with
  | true =>
      rw [hartScript_tests tests] at start
      have member := start.subset made
      simp at member
  | false =>
      rw [hartScript_first tests, startupScript, List.append_assoc _ [_],
        List.singleton_append] at start
      refine isPrefix_of_mem start made (doneStarting_fresh ?_)
      split <;> simp

def bootHart (hart : Nat) : Bool := hart = 0

theorem poweredOne_bootHart : PoweredOne 0 (.powered bootHart) where
  toPowered := State.powered_powered bootHart
  firstHart := rfl
  others := by
    intro hart different
    simp [State.powered, bootHart, different]

def PrimaryPoint.Ended : PrimaryPoint → Prop
  | .runTest => True
  | .inProcesses => True
  | .exited => True
  | _ => False

def SecondaryPoint.Ended : SecondaryPoint → Prop
  | .inProcesses => True
  | .ended => True
  | _ => False

def Point.Ended : Point → Prop
  | .primary point => point.Ended
  | .secondary point => point.Ended
  | .stopped => True
  | _ => False

theorem wakeMove_false (hartToWake : Nat) :
    (wakeMove config hart hartToWake false).started = none := by
  rw [wakeMove]
  split
  · split <;> rfl
  · rfl

/-- Where the calls fail a hart still has a move, which starts no other. -/
theorem primaryMove_false (config : Config) (hart : Nat) {point : PrimaryPoint}
    (running : ¬point.Ended) :
    ∃ move, primaryMove config hart false point = some move ∧ move.started = none := by
  cases point with
  | initScratches | initTable | parseTree | startProcesses | setTrapVector | jump
  | exit => exact ⟨_, rfl, rfl⟩
  | dump point | finish point => cases point <;> exact ⟨_, rfl, rfl⟩
  | initDevices point => cases point <;> exact ⟨_, rfl, rfl⟩
  | wake point =>
      cases point with
      | loop hartToWake => exact ⟨_, rfl, wakeMove_false hartToWake⟩
      | acquire | printStartup | release => exact ⟨_, rfl, rfl⟩
  | runTest | inProcesses | exited => exact absurd trivial running

theorem secondaryMove_enabled (config : Config) {point : SecondaryPoint}
    (running : ¬point.Ended) :
    ∃ move, secondaryMove config point = some move ∧ move.started = none := by
  cases point with
  | printStartup point | finish point => cases point <;> exact ⟨_, rfl, rfl⟩
  | setTrapVector | jump | hartStop => exact ⟨_, rfl, rfl⟩
  | inProcesses | ended => exact absurd trivial running

theorem Fits.applies (fits : Fits config hart (state.harts hart) move)
    (nothing : move.started = none) :
    (∃ after, move.apply hart state = some after) ∨
      (¬(state.harts hart).Inside ∧ state.stdoutLock ≠ none) := by
  have locks := fits.locks
  rw [Move.Locks] at locks
  rw [Move.apply, Move.startHart, nothing]
  cases use : move.stdoutLock with
  | keep | release => exact .inl ⟨_, rfl⟩
  | acquire =>
      rw [use] at locks
      cases lock : state.stdoutLock with
      | none => exact .inl ⟨_, rfl⟩
      | some holder => exact .inr ⟨locks.1, Option.some_ne_none _⟩

/-- A hart that has not come to an end steps, or waits for `stdout_lock`. -/
theorem step_or_waits (config : Config) (running : ¬(state.harts hart).Ended)
    (sound : ∀ point, state.harts hart ≠ .panicked point) :
    (∃ after, step config state ⟨hart, false⟩ = some after) ∨
      (¬(state.harts hart).Inside ∧ state.stdoutLock ≠ none) := by
  cases here : state.harts hart with
  | stopped =>
      rw [here] at running
      exact absurd trivial running
  | kernelMain =>
      refine .inl ⟨claimStep hart state, ?_⟩
      simp only [step, here]
  | panicked point => exact absurd here (sound point)
  | primary point =>
      rw [here] at running
      obtain ⟨move, moved, nothing⟩ := primaryMove_false config hart running
      have fits := fits_primaryMove moved
      rw [← here] at fits ⊢
      simp only [step, here, moved]
      rw [← here]
      exact fits.applies nothing
  | secondary point =>
      rw [here] at running
      obtain ⟨move, moved, nothing⟩ := secondaryMove_enabled config running
      have fits : Fits config hart (.secondary point) move := fits_secondaryMove moved
      rw [← here] at fits ⊢
      simp only [step, here, moved]
      rw [← here]
      exact fits.applies nothing

/-- In every state where no hart can step, all of them have come to an end, or
one has panicked under `stdout_lock`. -/
theorem boot_never_stuck (reachable : (system config).Reachable state)
    (stuck : ∀ action, step config state action = none) :
    (∀ hart, (state.harts hart).Ended ∨
      ∃ point, state.harts hart = .panicked point) ∨
        ∃ hart point, state.harts hart = .panicked point ∧ point.Inside := by
  have claimed := Claimed.of_reachable reachable
  have waits : ∀ hart, ¬(state.harts hart).Ended →
      (∀ point, state.harts hart ≠ .panicked point) →
        ¬(state.harts hart).Inside ∧ state.stdoutLock ≠ none := by
    intro hart running sound
    refine (step_or_waits config running sound).resolve_left ?_
    rintro ⟨after, stepped⟩
    rw [stuck] at stepped
    cases stepped
  by_contra neither
  rw [not_or] at neither
  obtain ⟨notAll, notPanicked⟩ := neither
  obtain ⟨hart, running⟩ := not_forall.mp notAll
  rw [not_or, not_exists] at running
  obtain ⟨holder, held⟩ := Option.ne_none_iff_exists'.mp
    (waits hart running.1 running.2).2
  have inside := (claimed.lock holder).mpr held
  cases here : state.harts holder with
  | stopped | kernelMain =>
      rw [here] at inside
      exact inside
  | panicked point =>
      rw [here] at inside
      exact notPanicked ⟨holder, point, here, inside⟩
  | primary point | secondary point =>
      have notEnded : ¬(state.harts holder).Ended := by
        intro ended
        rw [here] at ended inside
        cases point <;> first | exact ended | exact inside
      refine (waits holder notEnded ?_).1 inside
      intro other panicked
      rw [here] at panicked
      cases panicked

end

theorem boot_never_stuck_tests : ∃ state,
    (system { Config.sample with testsEnabled := true }).Reachable state ∧
      state.harts 0 = .primary .runTest ∧
        ((∀ hart, (state.harts hart).Ended ∨
          ∃ point, state.harts hart = .panicked point) ∨
            ∃ hart point, state.harts hart = .panicked point ∧ point.Inside) := by
  have reachable := System.Reachable.of_execute (List.replicate 4 ⟨0, true⟩)
    (.start (system { Config.sample with testsEnabled := true })
      (State.powered_powered bootHart)) rfl
  refine ⟨_, reachable, rfl, boot_never_stuck reachable ?_⟩
  rintro ⟨hart, succeeds⟩
  cases hart with
  | zero => rfl
  | succ hart => rfl

end Thos.Scheduling.KernelMain
