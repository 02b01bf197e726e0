import Thos.Common.Bits
import Thos.Data.Trace
import Thos.Data.Transition
import Thos.Kernel.Boot
import Thos.Scheduling.Machine

namespace Thos.Scheduling.KernelMain

open Thos.Kernel Data.Transition Data.Trace

/-! `kernel_main` on every hart: the claim that makes one of them the primary
hart, the initialisation that this hart runs, and the harts it starts. -/

inductive Claim where
  | first
  | secondary
  deriving DecidableEq, Repr

def Claim.value : Claim → BitVec 32
  | first => 0#32
  | secondary => 0x7fffffff#32

/-- The board, and the flags of the build that `kernel_main` tests. -/
structure Config where
  board : Board
  hartMaximum : Nat
  testsEnabled : Bool := false
  dumpDeviceTree : Bool := false
  exampleProcessesDisable : Bool := false
  deriving DecidableEq, Repr

/-- A section of code between the acquire and the release of `stdout_lock`. -/
inductive Critical where
  | acquire
  | body
  | release
  deriving DecidableEq, Repr

inductive WakePoint where
  | acquire
  | printStartup
  | loop (hartToWake : Nat)
  | release
  deriving DecidableEq, Repr

/-- Where a hart is in `primary_main`. -/
inductive PrimaryPoint where
  | initScratches
  | initTable
  | parseTree
  | runTest
  | dump (point : Critical)
  | initDevices (point : Critical)
  | wake (point : WakePoint)
  | startProcesses
  | setTrapVector
  | jump
  | inProcesses
  | finish (point : Critical)
  | exit
  | exited
  deriving DecidableEq, Repr

/-- Where a hart is in `secondary_main`. -/
inductive SecondaryPoint where
  | printStartup (point : Critical)
  | setTrapVector
  | jump
  | inProcesses
  | finish (point : Critical)
  | hartStop
  | ended
  deriving DecidableEq, Repr

inductive Point where
  | stopped
  | kernelMain
  | primary (point : PrimaryPoint)
  | secondary (point : SecondaryPoint)
  | panicked (point : PrimaryPoint)
  deriving DecidableEq, Repr

inductive MainEvent where
  | claimed (myClaim : BitVec 32)
  | scratchesInitialised
  | tableInitialised
  | treeParsed
  | treeDumped
  | devicesInitialised
  | startupPrinted (isPrimary : Bool)
  | requested (hart : Nat)
  | doneStarting
  | processesStarted
  | trapVectorSet
  | jumped
  | endPrinted
  | exited
  | hartStopped
  deriving DecidableEq, Repr

structure Move where
  next : Point
  stdoutLock : LockUse := .keep
  events : List MainEvent := []
  started : Option Nat := none

/-- A section under `stdout_lock` whose body makes one event. -/
def criticalMove (wrap : Critical → Point) (next : Point) (event : MainEvent) :
    Critical → Move
  | .acquire => { next := wrap .body, stdoutLock := .acquire }
  | .body => { next := wrap .release, events := [event] }
  | .release => { next, stdoutLock := .release }

variable (config : Config)

def wakeMove (hartId hartToWake : Nat) (succeeds : Bool) : Move :=
  if hartToWake ≤ config.board.numNormalHarts ∧ hartToWake ≤ config.hartMaximum then
    if hartToWake = hartId then
      { next := .primary (.wake (.loop (hartToWake + 1))) }
    else
      { next := .primary (.wake (.loop (hartToWake + 1)))
        events := [.requested hartToWake]
        started := if succeeds then some hartToWake else none }
  else { next := .primary (.wake .release), events := [.doneStarting] }

/-- `primary_main`; `succeeds` tells whether the call made at the point returns
without a `PANIC`, and for `sbi_hart_start` without an error. -/
def primaryMove (hartId : Nat) (succeeds : Bool) : PrimaryPoint → Option Move
  | .initScratches => some
      { next := .primary .initTable, events := [.scratchesInitialised] }
  | .initTable =>
      if succeeds then
        some { next := .primary .parseTree, events := [.tableInitialised] }
      else some { next := .panicked .initTable }
  | .parseTree =>
      if succeeds then some
        { next := .primary (
            if config.testsEnabled then .runTest
            else if config.dumpDeviceTree then .dump .acquire
            else .initDevices .acquire)
          events := [.treeParsed] }
      else some { next := .panicked .parseTree }
  | .runTest => none
  | .dump point => some (criticalMove (fun point => .primary (.dump point))
      (.primary (.initDevices .acquire)) .treeDumped point)
  | .initDevices point =>
      if point = .body ∧ succeeds = false then
        some { next := .panicked (.initDevices .body) }
      else some (criticalMove (fun point => .primary (.initDevices point))
        (.primary (.wake .acquire)) .devicesInitialised point)
  | .wake .acquire => some
      { next := .primary (.wake .printStartup), stdoutLock := .acquire }
  | .wake .printStartup => some
      { next := .primary (.wake (.loop config.board.numMonitorHarts))
        events := [.startupPrinted true] }
  | .wake (.loop hartToWake) => some (wakeMove config hartId hartToWake succeeds)
  | .wake .release => some
      { next := .primary (if config.exampleProcessesDisable then .finish .acquire
          else .startProcesses)
        stdoutLock := .release }
  | .startProcesses =>
      if succeeds then
        some { next := .primary .setTrapVector, events := [.processesStarted] }
      else some { next := .panicked .startProcesses }
  | .setTrapVector => some { next := .primary .jump, events := [.trapVectorSet] }
  | .jump => some { next := .primary .inProcesses, events := [.jumped] }
  | .inProcesses => none
  | .finish point => some (criticalMove (fun point => .primary (.finish point))
      (.primary .exit) .endPrinted point)
  | .exit => some { next := .primary .exited, events := [.exited] }
  | .exited => none

def secondaryMove : SecondaryPoint → Option Move
  | .printStartup point => some (criticalMove
      (fun point => .secondary (.printStartup point))
      (.secondary (if config.exampleProcessesDisable then .finish .acquire
        else .setTrapVector)) (.startupPrinted false) point)
  | .setTrapVector => some { next := .secondary .jump, events := [.trapVectorSet] }
  | .jump => some { next := .secondary .inProcesses, events := [.jumped] }
  | .inProcesses => none
  | .finish point => some (criticalMove (fun point => .secondary (.finish point))
      (.secondary .hartStop) .endPrinted point)
  | .hartStop => some { next := .secondary .ended, events := [.hartStopped] }
  | .ended => none

structure State where
  claim : BitVec 32
  stdoutLock : Option Nat
  harts : Nat → Point
  /-- The events so far, oldest first; no step reads them. -/
  trace : List (Nat × MainEvent)

structure Action where
  hart : Nat
  succeeds : Bool
  deriving DecidableEq, Repr

/-- The firmware starts only a hart that is stopped. -/
def Move.startHart (move : Move) (harts : Nat → Point) : Option (Nat → Point) :=
  match move.started with
  | none => some harts
  | some target =>
      if harts target = .stopped then some (Function.update harts target .kernelMain)
      else none

def Move.apply (move : Move) (hart : Nat) (state : State) : Option State := do
  let stdoutLock ← move.stdoutLock.apply hart state.stdoutLock
  let harts ← move.startHart state.harts
  return {
    claim := state.claim
    stdoutLock := stdoutLock
    harts := Function.update harts hart move.next
    trace := state.trace ++ move.events.map (Prod.mk hart) }

/-- The atomic or on `claim`, and the branch on what it returned. -/
def claimStep (hart : Nat) (state : State) : State :=
  let (myClaim, claim) := atomicOrMemoryWord state.claim Claim.secondary.value
  { state with
    claim
    harts := Function.update state.harts hart
      (if myClaim = 0#32 then .primary .initScratches
        else .secondary (.printStartup .acquire))
    trace := state.trace ++ [(hart, .claimed myClaim)] }

def step (state : State) (action : Action) : Option State :=
  match state.harts action.hart with
  | .stopped => none
  | .kernelMain => some (claimStep action.hart state)
  | .primary point => do
      let move ← primaryMove config action.hart action.succeeds point
      move.apply action.hart state
  | .secondary point => do
      let move ← secondaryMove config point
      move.apply action.hart state
  | .panicked _ => none

/-- The firmware has started some harts, and `.bss` is zero. -/
structure Powered (state : State) : Prop where
  claim : state.claim = Claim.first.value
  stdoutLock : state.stdoutLock = none
  harts : ∀ hart, state.harts hart = .stopped ∨ state.harts hart = .kernelMain
  trace : state.trace = []

def system : System State Action := .ofFunction Powered (step config)

/-! What one step does. -/

def Point.IsPrimary : Point → Prop
  | .primary _ => True
  | .panicked _ => True
  | _ => False

def Critical.Inside : Critical → Prop
  | .acquire => False
  | _ => True

def PrimaryPoint.Inside : PrimaryPoint → Prop
  | .dump point => point.Inside
  | .initDevices point => point.Inside
  | .wake .acquire => False
  | .wake _ => True
  | .finish point => point.Inside
  | _ => False

def SecondaryPoint.Inside : SecondaryPoint → Prop
  | .printStartup point => point.Inside
  | .finish point => point.Inside
  | _ => False

def Point.Inside : Point → Prop
  | .primary point => point.Inside
  | .secondary point => point.Inside
  | .panicked point => point.Inside
  | _ => False

section

variable (config : Config) (hart : Nat)

/-! The events that a hart still makes from a point on, if nothing panics. -/

def afterWake : List MainEvent :=
  if config.exampleProcessesDisable then [.endPrinted, .exited]
  else [.processesStarted, .trapVectorSet, .jumped]

def fromLoop (hartToWake : Nat) : List MainEvent :=
  (wakeLoop config.board config.hartMaximum hart hartToWake).map .requested ++
    .doneStarting :: afterWake config

def fromWake : List MainEvent :=
  .startupPrinted true :: fromLoop config hart config.board.numMonitorHarts

def fromDevices : List MainEvent := .devicesInitialised :: fromWake config hart

def afterTree : List MainEvent :=
  if config.testsEnabled then []
  else if config.dumpDeviceTree then .treeDumped :: fromDevices config hart
  else fromDevices config hart

def afterStartup : List MainEvent :=
  if config.exampleProcessesDisable then [.endPrinted, .hartStopped]
  else [.trapVectorSet, .jumped]

def Critical.rest (event : MainEvent) (after : List MainEvent) :
    Critical → List MainEvent
  | .release => after
  | _ => event :: after

def PrimaryPoint.rest : PrimaryPoint → List MainEvent
  | .initScratches => .scratchesInitialised :: .tableInitialised :: .treeParsed ::
      afterTree config hart
  | .initTable => .tableInitialised :: .treeParsed :: afterTree config hart
  | .parseTree => .treeParsed :: afterTree config hart
  | .dump point => point.rest .treeDumped (fromDevices config hart)
  | .initDevices point => point.rest .devicesInitialised (fromWake config hart)
  | .wake (.loop hartToWake) => fromLoop config hart hartToWake
  | .wake .release => afterWake config
  | .wake _ => fromWake config hart
  | .startProcesses => [.processesStarted, .trapVectorSet, .jumped]
  | .setTrapVector => [.trapVectorSet, .jumped]
  | .jump => [.jumped]
  | .finish point => point.rest .endPrinted [.exited]
  | .exit => [.exited]
  | .runTest | .inProcesses | .exited => []

def SecondaryPoint.rest : SecondaryPoint → List MainEvent
  | .printStartup point => point.rest (.startupPrinted false) (afterStartup config)
  | .setTrapVector => [.trapVectorSet, .jumped]
  | .jump => [.jumped]
  | .finish point => point.rest .endPrinted [.hartStopped]
  | .hartStop => [.hartStopped]
  | .inProcesses | .ended => []

def Point.rest : Point → List MainEvent
  | .primary point => point.rest config hart
  | .panicked point => point.rest config hart
  | .secondary point => point.rest config
  | _ => []

end

section

variable {config : Config} {hart : Nat} {here : Point} {move : Move}
  {state after : State}

inductive Moves (config : Config) (hart : Nat) : Point → Move → Prop
  | primary {point : PrimaryPoint} {move : Move} (succeeds : Bool)
      (moved : primaryMove config hart succeeds point = some move) :
      Moves config hart (.primary point) move
  | secondary {point : SecondaryPoint} {move : Move}
      (moved : secondaryMove config point = some move) :
      Moves config hart (.secondary point) move

def Move.Locks (move : Move) (here : Point) : Prop :=
  match move.stdoutLock with
  | .keep => move.next.Inside ↔ here.Inside
  | .acquire => ¬here.Inside ∧ move.next.Inside
  | .release => here.Inside ∧ ¬move.next.Inside

inductive SameMain : Point → Point → Prop
  | primary (before after : PrimaryPoint) : SameMain (.primary before) (.primary after)
  | panicked (point : PrimaryPoint) : SameMain (.primary point) (.panicked point)
  | secondary (before after : SecondaryPoint) :
      SameMain (.secondary before) (.secondary after)

/-- What a move does to the lock, the roles, the events still to come and the
other harts. -/
structure Fits (config : Config) (hart : Nat) (here : Point) (move : Move) :
    Prop where
  locks : move.Locks here
  sameMain : SameMain here move.next
  script : here.rest config hart = move.events ++ move.next.rest config hart
  started : ∀ target, move.started = some target →
    target ≠ hart ∧ .requested target ∈ move.events

theorem Fits.plain (keeps : move.stdoutLock = .keep)
    (inside : move.next.Inside ↔ here.Inside) (sameMain : SameMain here move.next)
    (script : here.rest config hart = move.events ++ move.next.rest config hart)
    (nothing : move.started = none) : Fits config hart here move where
  locks := by
    rw [Move.Locks, keeps]
    exact inside
  sameMain := sameMain
  script := script
  started := by
    intro target started
    rw [nothing] at started
    cases started

theorem fits_criticalMove (wrap : Critical → Point) {next : Point}
    {event : MainEvent} {after : List MainEvent}
    (inside : ∀ point, (wrap point).Inside ↔ point.Inside)
    (outside : ¬next.Inside) (sameMain : ∀ point, SameMain (wrap point) next ∧
      ∀ other, SameMain (wrap point) (wrap other))
    (rest : ∀ point, (wrap point).rest config hart = point.rest event after)
    (restNext : next.rest config hart = after) (point : Critical) :
    Fits config hart (wrap point) (criticalMove wrap next event point) where
  locks := by
    cases point with
    | acquire => exact ⟨(inside _).not.mpr id, (inside _).mpr trivial⟩
    | body => exact ⟨fun _ => (inside .body).mpr trivial,
        fun _ => (inside .release).mpr trivial⟩
    | release => exact ⟨(inside _).mpr trivial, outside⟩
  sameMain := by
    cases point with
    | acquire | body => exact (sameMain _).2 _
    | release => exact (sameMain _).1
  script := by
    cases point with
    | acquire => exact (rest _).trans (rest .body).symm
    | body => exact (rest _).trans (congrArg (List.cons event) (rest .release).symm)
    | release => exact (rest _).trans restNext.symm
  started := by
    intro target started
    cases point <;> cases started

theorem fits_wakeMove (hartToWake : Nat) (succeeds : Bool) :
    Fits config hart (.primary (.wake (.loop hartToWake)))
      (wakeMove config hart hartToWake succeeds) := by
  rw [wakeMove]
  split
  · next inside =>
      split
      · next own =>
          refine .plain rfl Iff.rfl (.primary ..) ?_ rfl
          simp only [Point.rest, PrimaryPoint.rest, fromLoop]
          rw [wakeLoop, if_pos inside, if_pos own]
          rfl
      · next other =>
          refine ⟨Iff.rfl, .primary .., ?_, ?_⟩
          · simp only [Point.rest, PrimaryPoint.rest, fromLoop]
            rw [wakeLoop, if_pos inside, if_neg other]
            rfl
          · intro target started
            cases succeeds with
            | false => cases started
            | true =>
                cases started
                exact ⟨other, List.mem_singleton_self _⟩
  · next outside =>
      refine .plain rfl Iff.rfl (.primary ..) ?_ rfl
      simp only [Point.rest, PrimaryPoint.rest, fromLoop]
      rw [wakeLoop, if_neg outside]
      rfl

theorem fits_primaryMove {point : PrimaryPoint} {succeeds : Bool}
    (moved : primaryMove config hart succeeds point = some move) :
    Fits config hart (.primary point) move := by
  cases point with
  | initScratches | setTrapVector | jump | exit =>
      cases moved
      exact .plain rfl Iff.rfl (.primary ..) rfl rfl
  | initTable | startProcesses =>
      rw [primaryMove] at moved
      split at moved
      · cases moved
        exact .plain rfl Iff.rfl (.primary ..) rfl rfl
      · cases moved
        exact .plain rfl Iff.rfl (.panicked _) rfl rfl
  | parseTree =>
      rw [primaryMove] at moved
      split at moved
      · cases moved
        have flags : ∀ tests dump : Bool, config.testsEnabled = tests →
            config.dumpDeviceTree = dump → Fits config hart (.primary .parseTree)
              { next := .primary (if tests then .runTest
                  else if dump then .dump .acquire else .initDevices .acquire)
                events := [.treeParsed] } := by
          intro tests dump testsSame dumpSame
          cases tests with
          | true =>
              refine .plain rfl Iff.rfl (.primary ..) ?_ rfl
              simp [Point.rest, PrimaryPoint.rest, afterTree, testsSame]
          | false =>
              cases dump <;>
              · refine .plain rfl Iff.rfl (.primary ..) ?_ rfl
                simp [Point.rest, PrimaryPoint.rest, Critical.rest, afterTree,
                  testsSame, dumpSame, fromDevices]
        exact flags _ _ rfl rfl
      · cases moved
        exact .plain rfl Iff.rfl (.panicked _) rfl rfl
  | dump point =>
      cases moved
      exact fits_criticalMove (fun point => .primary (.dump point)) (fun _ => Iff.rfl)
        id (fun _ => ⟨.primary .., fun _ => .primary ..⟩) (fun _ => rfl) rfl point
  | initDevices point =>
      rw [primaryMove] at moved
      split at moved
      · next failed =>
          cases moved
          rw [failed.1]
          exact .plain rfl Iff.rfl (.panicked _) rfl rfl
      · cases moved
        exact fits_criticalMove (fun point => .primary (.initDevices point))
          (fun _ => Iff.rfl) id (fun _ => ⟨.primary .., fun _ => .primary ..⟩)
          (fun _ => rfl) rfl point
  | finish point =>
      cases moved
      exact fits_criticalMove (fun point => .primary (.finish point))
        (fun _ => Iff.rfl) id (fun _ => ⟨.primary .., fun _ => .primary ..⟩)
        (fun _ => rfl) rfl point
  | wake point =>
      cases point with
      | acquire =>
          cases moved
          refine ⟨⟨id, trivial⟩, .primary .., rfl, ?_⟩
          intro target started
          cases started
      | printStartup =>
          cases moved
          exact .plain rfl Iff.rfl (.primary ..) rfl rfl
      | loop hartToWake =>
          cases moved
          exact fits_wakeMove hartToWake succeeds
      | release =>
          cases moved
          refine ⟨⟨trivial, ?_⟩, .primary .., ?_, ?_⟩
          · cases config.exampleProcessesDisable <;> exact id
          · simp only [Point.rest, PrimaryPoint.rest, afterWake]
            split <;> rfl
          · intro target started
            cases started
  | runTest | inProcesses | exited => cases moved

theorem fits_secondaryMove {point : SecondaryPoint}
    (moved : secondaryMove config point = some move) :
    Fits config hart (.secondary point) move := by
  cases point with
  | printStartup point =>
      cases moved
      refine fits_criticalMove (fun point => .secondary (.printStartup point))
        (fun _ => Iff.rfl) ?_ (fun _ => ⟨.secondary .., fun _ => .secondary ..⟩)
        (fun _ => rfl) ?_ point
      · cases config.exampleProcessesDisable <;> exact id
      · simp only [Point.rest, afterStartup]
        split <;> rfl
  | finish point =>
      cases moved
      exact fits_criticalMove (fun point => .secondary (.finish point))
        (fun _ => Iff.rfl) id (fun _ => ⟨.secondary .., fun _ => .secondary ..⟩)
        (fun _ => rfl) rfl point
  | setTrapVector | jump | hartStop =>
      cases moved
      exact .plain rfl Iff.rfl (.secondary ..) rfl rfl
  | inProcesses | ended => cases moved

theorem Moves.fits (moves : Moves config hart here move) :
    Fits config hart here move := by
  cases moves with
  | primary succeeds moved => exact fits_primaryMove moved
  | secondary moved => exact fits_secondaryMove moved

theorem SameMain.isPrimary {next : Point} (same : SameMain here next) :
    next.IsPrimary ↔ here.IsPrimary := by
  cases same with
  | primary | panicked | secondary => exact Iff.rfl

structure Applied (move : Move) (hart : Nat) (state after : State) : Prop where
  claim : after.claim = state.claim
  stdoutLock : move.stdoutLock.apply hart state.stdoutLock = some after.stdoutLock
  self : after.harts hart = move.next
  other : ∀ other ≠ hart, after.harts other = state.harts other ∨
    (move.started = some other ∧ state.harts other = .stopped ∧
      after.harts other = .kernelMain)
  trace : after.trace = state.trace ++ move.events.map (Prod.mk hart)

theorem Move.apply_eq_some (applied : move.apply hart state = some after) :
    Applied move hart state after := by
  obtain ⟨stdoutLock, used, rest⟩ := Option.bind_eq_some_iff.mp applied
  obtain ⟨harts, startedHarts, same⟩ := Option.bind_eq_some_iff.mp rest
  cases same
  refine ⟨rfl, used, Function.update_self .., ?_, rfl⟩
  intro other different
  have moved : Function.update harts hart move.next other = harts other :=
    Function.update_of_ne different ..
  dsimp only
  rw [moved]
  rw [Move.startHart] at startedHarts
  split at startedHarts
  · cases startedHarts
    exact .inl rfl
  · next target started =>
      rw [Option.ite_none_right_eq_some] at startedHarts
      obtain ⟨stopped, same⟩ := startedHarts
      cases same
      by_cases isTarget : other = target
      · subst isTarget
        exact .inr ⟨started, stopped, Function.update_self ..⟩
      · rw [Function.update_of_ne isTarget]
        exact .inl rfl

inductive Stepped (config : Config) (state after : State) (hart : Nat) : Prop
  | claim (here : state.harts hart = .kernelMain) (same : after = claimStep hart state)
  | move (move : Move) (moves : Moves config hart (state.harts hart) move)
      (applied : Applied move hart state after)

theorem step_stepped {action : Action} (stepped : step config state action = some after) :
    Stepped config state after action.hart := by
  rw [step] at stepped
  split at stepped
  · cases stepped
  · next here =>
      cases stepped
      exact .claim here rfl
  · next point here =>
      obtain ⟨move, moved, applied⟩ := Option.bind_eq_some_iff.mp stepped
      refine .move move ?_ (Move.apply_eq_some applied)
      rw [here]
      exact .primary _ moved
  · next point here =>
      obtain ⟨move, moved, applied⟩ := Option.bind_eq_some_iff.mp stepped
      refine .move move ?_ (Move.apply_eq_some applied)
      rw [here]
      exact .secondary moved
  · cases stepped

theorem claimed_not_mem_rest (config : Config) (hart : Nat) (point : Point)
    (myClaim : BitVec 32) : .claimed myClaim ∉ point.rest config hart := by
  have loop : ∀ hartToWake, .claimed myClaim ∉ fromLoop config hart hartToWake := by
    intro hartToWake
    simp only [fromLoop, afterWake]
    split <;> simp
  have critical : ∀ event after, event ≠ .claimed myClaim →
      .claimed myClaim ∉ after → ∀ point : Critical,
        .claimed myClaim ∉ point.rest event after := by
    intro event after other notAfter point
    cases point with
    | acquire | body => exact List.not_mem_cons_of_ne_of_not_mem other.symm notAfter
    | release => exact notAfter
  have wake : .claimed myClaim ∉ fromWake config hart := by
    simp [fromWake, loop]
  have devices : .claimed myClaim ∉ fromDevices config hart := by
    simp [fromDevices, wake]
  have tree : .claimed myClaim ∉ afterTree config hart := by
    rw [afterTree]
    split
    · simp
    · split <;> simp [devices]
  have primary : ∀ point : PrimaryPoint,
      .claimed myClaim ∉ point.rest config hart := by
    intro point
    cases point with
    | initScratches | initTable | parseTree => simp [PrimaryPoint.rest, tree]
    | dump point | initDevices point | finish point =>
        exact critical _ _ (by simp) (by simp [devices, wake]) point
    | wake point =>
        cases point with
        | loop hartToWake => exact loop hartToWake
        | acquire | printStartup => exact wake
        | release =>
            simp only [PrimaryPoint.rest, afterWake]
            split <;> simp
    | startProcesses | setTrapVector | jump | exit | runTest | inProcesses | exited =>
        simp [PrimaryPoint.rest]
  cases point with
  | stopped | kernelMain => simp [Point.rest]
  | primary point | panicked point => exact primary point
  | secondary point =>
      cases point with
      | printStartup point =>
          refine critical _ _ (by simp) ?_ point
          rw [afterStartup]
          split <;> simp
      | finish point => exact critical _ _ (by simp) (by simp) point
      | setTrapVector | jump | hartStop | inProcesses | ended =>
          simp [Point.rest, SecondaryPoint.rest]

/-! The claim. -/

/-- `claim` tells whether a hart has claimed, and one hart got the first word. -/
structure Claimed (state : State) : Prop where
  unclaimed : state.claim = Claim.first.value → state.trace = [] ∧
    ∀ hart, state.harts hart = .stopped ∨ state.harts hart = .kernelMain
  claimed : state.claim ≠ Claim.first.value → state.claim = Claim.secondary.value ∧
    ∃ primary, ∀ hart, (state.harts hart).IsPrimary ↔ hart = primary
  firstClaim : ∀ hart, (hart, .claimed Claim.first.value) ∈ state.trace ↔
    (state.harts hart).IsPrimary
  lock : ∀ hart, (state.harts hart).Inside ↔ state.stdoutLock = some hart

theorem Powered.claimed {state : State} (powered : Powered state) : Claimed state where
  unclaimed := fun _ => ⟨powered.trace, powered.harts⟩
  claimed := fun other => absurd powered.claim other
  firstClaim := by
    intro hart
    rw [powered.trace]
    rcases powered.harts hart with point | point <;> simp [point, Point.IsPrimary]
  lock := by
    intro hart
    rw [powered.stdoutLock]
    rcases powered.harts hart with point | point <;> simp [point, Point.Inside]

theorem claimStep_first (isFirst : state.claim = Claim.first.value) :
    claimStep hart state =
      { claim := Claim.secondary.value
        stdoutLock := state.stdoutLock
        harts := Function.update state.harts hart (.primary .initScratches)
        trace := state.trace ++ [(hart, .claimed Claim.first.value)] } := by
  rw [claimStep, isFirst]
  rfl

theorem claimStep_secondary (isSecondary : state.claim = Claim.secondary.value) :
    claimStep hart state =
      { claim := Claim.secondary.value
        stdoutLock := state.stdoutLock
        harts := Function.update state.harts hart
          (.secondary (.printStartup .acquire))
        trace := state.trace ++ [(hart, .claimed Claim.secondary.value)] } := by
  rw [claimStep, isSecondary]
  rfl

theorem Claimed.claimFirst (claimed : Claimed state)
    (isFirst : state.claim = Claim.first.value)
    (here : state.harts hart = .kernelMain) : Claimed (claimStep hart state) := by
  obtain ⟨empty, waiting⟩ := claimed.unclaimed isFirst
  have others : ∀ other ≠ hart, ¬(state.harts other).IsPrimary := by
    intro other _
    rcases waiting other with point | point <;> (rw [point]; exact id)
  rw [claimStep_first isFirst]
  constructor
  · intro absurdity
    cases absurdity
  · intro _
    refine ⟨rfl, hart, fun other => ?_⟩
    by_cases same : other = hart
    · simp [same, Point.IsPrimary]
    · simp [same, others other same]
  · intro other
    rw [empty]
    by_cases same : other = hart
    · simp [same, Point.IsPrimary]
    · simp [same, others other same]
  · intro other
    by_cases same : other = hart
    · have outside := claimed.lock hart
      rw [here] at outside
      subst same
      simpa [Point.Inside, PrimaryPoint.Inside] using outside
    · simp [same, claimed.lock other]

theorem Claimed.claimLater (claimed : Claimed state)
    (isSecondary : state.claim = Claim.secondary.value)
    (here : state.harts hart = .kernelMain) : Claimed (claimStep hart state) := by
  have later : state.claim ≠ Claim.first.value := by
    rw [isSecondary]
    decide
  obtain ⟨_, primary, unique⟩ := claimed.claimed later
  have waiting : ¬(state.harts hart).IsPrimary := by
    rw [here]
    exact id
  have sameEvents : ∀ other, (other, .claimed Claim.first.value) ∈
      state.trace ++ [(hart, .claimed Claim.secondary.value)] ↔
        (other, .claimed Claim.first.value) ∈ state.trace := by
    intro other
    rw [List.mem_append]
    exact or_iff_left (by simp [Claim.value])
  rw [claimStep_secondary isSecondary]
  constructor
  · intro absurdity
    cases absurdity
  · intro _
    refine ⟨rfl, primary, fun other => ?_⟩
    by_cases same : other = hart
    · subst same
      simpa [Point.IsPrimary] using (unique other).not.mp waiting
    · simpa [same] using unique other
  · intro other
    refine (sameEvents other).trans ((claimed.firstClaim other).trans ?_)
    by_cases same : other = hart
    · subst same
      simpa [Point.IsPrimary] using waiting
    · simp [same]
  · intro other
    by_cases same : other = hart
    · have outside := claimed.lock hart
      rw [here] at outside
      subst same
      simpa [Point.Inside, SecondaryPoint.Inside, Critical.Inside] using outside
    · simp [same, claimed.lock other]

theorem Claimed.claimStep (claimed : Claimed state)
    (here : state.harts hart = .kernelMain) : Claimed (claimStep hart state) := by
  by_cases isFirst : state.claim = Claim.first.value
  · exact claimed.claimFirst isFirst here
  · exact claimed.claimLater (claimed.claimed isFirst).1 here

theorem Fits.locked (fits : Fits config hart here move) {lock used : Option Nat}
    (inside : here.Inside ↔ lock = some hart)
    (applied : move.stdoutLock.apply hart lock = some used) :
    (move.next.Inside ↔ used = some hart) ∧
      ∀ other ≠ hart, used = some other ↔ lock = some other := by
  have locks := fits.locks
  rw [Move.Locks] at locks
  cases use : move.stdoutLock with
  | keep =>
      rw [use] at locks applied
      cases applied
      exact ⟨locks.trans inside, fun _ _ => Iff.rfl⟩
  | acquire =>
      rw [use] at locks applied
      rw [LockUse.apply, Option.ite_none_right_eq_some] at applied
      obtain ⟨free, same⟩ := applied
      cases same
      rw [Option.isNone_iff_eq_none] at free
      refine ⟨iff_of_true locks.2 rfl, fun other different => ?_⟩
      simp [free, different.symm]
  | release =>
      rw [use] at locks applied
      cases applied
      refine ⟨iff_of_false locks.2 (by simp), fun other different => ?_⟩
      rw [inside.mp locks.1]
      simp [different.symm]

theorem Claimed.moved (claimed : Claimed state)
    (moves : Moves config hart (state.harts hart) move)
    (applied : Applied move hart state after) : Claimed after := by
  have fits := moves.fits
  have roles : ∀ other, (after.harts other).IsPrimary ↔
      (state.harts other).IsPrimary := by
    intro other
    by_cases same : other = hart
    · subst same
      rw [applied.self]
      exact fits.sameMain.isPrimary
    · rcases applied.other other same with kept | ⟨_, stopped, entered⟩
      · rw [kept]
      · rw [stopped, entered]
        exact Iff.rfl
  have begun : state.claim ≠ Claim.first.value := by
    intro isFirst
    rcases (claimed.unclaimed isFirst).2 hart with point | point <;>
      (rw [point] at moves; cases moves)
  have sameEvents : ∀ other, (other, .claimed Claim.first.value) ∈ after.trace ↔
      (other, .claimed Claim.first.value) ∈ state.trace := by
    intro other
    rw [applied.trace, List.mem_append]
    refine or_iff_left ?_
    intro member
    obtain ⟨event, made, same⟩ := List.mem_map.mp member
    cases same
    apply claimed_not_mem_rest config hart (state.harts hart) Claim.first.value
    rw [fits.script]
    exact List.mem_append_left _ made
  have locked := fits.locked (claimed.lock hart) applied.stdoutLock
  constructor
  · intro isFirst
    rw [applied.claim] at isFirst
    exact absurd isFirst begun
  · intro _
    obtain ⟨word, primary, unique⟩ := claimed.claimed begun
    exact ⟨applied.claim.trans word, primary,
      fun other => (roles other).trans (unique other)⟩
  · intro other
    exact (sameEvents other).trans ((claimed.firstClaim other).trans (roles other).symm)
  · intro other
    by_cases same : other = hart
    · subst same
      rw [applied.self]
      exact locked.1
    · rw [locked.2 other same, ← claimed.lock other]
      rcases applied.other other same with kept | ⟨_, stopped, entered⟩
      · rw [kept]
      · rw [stopped, entered]
        exact Iff.rfl

theorem Claimed.of_reachable (reachable : (system config).Reachable state) :
    Claimed state := by
  refine System.Reachable.invariant Claimed ?_ ?_ reachable
  · intro start powered
    exact powered.claimed
  · intro before action after claimed stepped
    cases step_stepped stepped with
    | claim here same =>
        rw [same]
        exact claimed.claimStep here
    | move move moves applied => exact claimed.moved moves applied

/-- Whichever harts the firmware has started, and in whichever order they step:
the harts in `primary_main` are those that read the first claim, and once a hart
has claimed there is exactly one. -/
theorem one_primary_hart (reachable : (system config).Reachable state) :
    (∀ hart, (hart, .claimed Claim.first.value) ∈ state.trace ↔
      (state.harts hart).IsPrimary) ∧
      (state.trace ≠ [] → ∃! hart, (state.harts hart).IsPrimary) := by
  have claimed := Claimed.of_reachable reachable
  refine ⟨claimed.firstClaim, fun begun => ?_⟩
  have later : state.claim ≠ Claim.first.value :=
    fun isFirst => begun (claimed.unclaimed isFirst).1
  obtain ⟨_, primary, unique⟩ := claimed.claimed later
  exact ⟨primary, (unique primary).mpr rfl, fun other => (unique other).mp⟩

end

def State.powered (running : Nat → Bool) : State where
  claim := Claim.first.value
  stdoutLock := none
  harts hart := if running hart then .kernelMain else .stopped
  trace := []

theorem State.powered_powered (running : Nat → Bool) : Powered (.powered running) where
  claim := rfl
  stdoutLock := rfl
  harts := by
    intro hart
    simp only [State.powered]
    split
    · exact .inr rfl
    · exact .inl rfl
  trace := rfl

def Config.sample : Config where
  board := { numMonitorHarts := 0, numNormalHarts := 1 }
  hartMaximum := 2

theorem one_primary_hart_sample : ∃ state,
    (system .sample).Reachable state ∧ (1, .claimed 0#32) ∈ state.trace ∧
      ∃! hart, (state.harts hart).IsPrimary := by
  have reachable := System.Reachable.of_execute [⟨1, true⟩, ⟨0, true⟩]
    (.start (system .sample) (State.powered_powered (fun hart => hart < 2))) rfl
  exact ⟨_, reachable, by decide, (one_primary_hart reachable).2 (by decide)⟩

end Thos.Scheduling.KernelMain
