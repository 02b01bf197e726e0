import Mathlib.Data.Fintype.Basic
import Thos.Data.Trace
import Thos.Data.Transition
import Thos.VirtualMemory.Forest

namespace Thos.VirtualMemory.PageRace

open Data.Trace
open Data.Transition

/-! `Page_alloc` as its single accesses to `next_page`, by any number of callers
on any harts, each of which may be preempted between any two of them. -/

inductive Point where
  | outside
  | test
  | storeStart
  | check
  | loadResult
  | loadNext (page : Nat)
  | storeNext (page nextPage : Nat)
  | wipe (page : Nat)
  | finish (page : Nat)
  | stopped
  deriving DecidableEq, Repr

inductive Event where
  | zeroed (page : Nat)
  | returned (page : Nat)
  deriving DecidableEq, Repr

structure State (Caller : Type) where
  nextPage : Nat
  callers : Caller → Point
  trace : List Event

inductive Action (Caller : Type) where
  | call (caller : Caller)
  | advance (caller : Caller)

section

variable {Caller : Type} [DecidableEq Caller]

def State.goto (state : State Caller) (caller : Caller) (point : Point) :
    State Caller :=
  { state with callers := Function.update state.callers caller point }

def State.emit (state : State Caller) (event : Event) : State Caller :=
  { state with trace := state.trace ++ [event] }

/-- The next access of a caller. -/
def advance (layout : Layout) (state : State Caller) (caller : Caller) :
    Point → Option (State Caller)
  | .outside => none
  | .test =>
      some (state.goto caller (if state.nextPage = 0 then .storeStart else .check))
  | .storeStart =>
      some ({ state with nextPage := layout.pages.startAddress }.goto caller .check)
  | .check =>
      some (state.goto caller
        (if state.nextPage > layout.pages.endAddress - pageSize then .stopped
          else .loadResult))
  | .loadResult => some (state.goto caller (.loadNext state.nextPage))
  | .loadNext page =>
      some (state.goto caller (.storeNext page
        (layout.target.uintptr (state.nextPage + pageSize))))
  | .storeNext page nextPage =>
      some ({ state with nextPage := nextPage }.goto caller (.wipe page))
  | .wipe page => some ((state.goto caller (.finish page)).emit (.zeroed page))
  | .finish page => some ((state.goto caller .outside).emit (.returned page))
  | .stopped => none

def step (layout : Layout) (state : State Caller) :
    Action Caller → Option (State Caller)
  | .call caller =>
      match state.callers caller with
      | .outside => some (state.goto caller .test)
      | _ => none
  | .advance caller => advance layout state caller (state.callers caller)

end

structure Start {Caller : Type} (state : State Caller) : Prop where
  nextPage : state.nextPage = 0
  callers : ∀ caller, state.callers caller = .outside
  trace : state.trace = []

def system (Caller : Type) [DecidableEq Caller] (layout : Layout) :
    System (State Caller) (Action Caller) :=
  .ofFunction Start (step layout)

/-- The page of a caller that has loaded its result and not yet stored
`next_page`. -/
def Point.taking : Point → Option Nat
  | loadNext page => some page
  | storeNext page _ => some page
  | _ => none

def Point.taken : Point → Option Nat
  | wipe page => some page
  | finish page => some page
  | _ => none

variable {Caller : Type} {layout : Layout}

/-- No caller disturbs another: `next_page` is still 0 when its start is stored,
and when a result is loaded the checked bound still holds and nobody else is
between that load and the store. -/
def Undisturbed (layout : Layout) (state : State Caller) : Action Caller → Prop
  | .call _ => True
  | .advance caller =>
      (state.callers caller = .storeStart → state.nextPage = 0) ∧
        (state.callers caller = .loadResult →
          state.nextPage ≤ layout.pages.endAddress - pageSize ∧
            ∀ other, (state.callers other).taking = none)

/-! The pages returned so far, and what every event has to meet. -/

def record (returned : List Nat) : Event → List Nat
  | .zeroed _ => returned
  | .returned page => page :: returned

def State.returned (state : State Caller) : List Nat :=
  state.trace.foldl record []

structure IsPoolPage (layout : Layout) (page : Nat) : Prop where
  aligned : pageSize ∣ page
  first : layout.pages.startAddress ≤ page
  last : page + pageSize ≤ layout.pages.endAddress

/-- A page is returned once, from the pool, and never zeroed after that. -/
def Admits (layout : Layout) (returned : List Nat) : Event → Prop
  | .zeroed page => page ∉ returned
  | .returned page => page ∉ returned ∧ IsPoolPage layout page

/-- The page lies behind `next_page`. -/
structure Out (layout : Layout) (nextPage page : Nat) : Prop where
  aligned : pageSize ∣ page
  first : layout.pages.startAddress ≤ page
  last : page + pageSize ≤ nextPage

def Point.Good (layout : Layout) (nextPage : Nat) : Point → Prop
  | check => nextPage ≠ 0
  | loadResult => nextPage ≠ 0
  | loadNext page => nextPage ≠ 0 ∧ page = nextPage ∧
      page + pageSize ≤ layout.pages.endAddress
  | storeNext page next => nextPage ≠ 0 ∧ page = nextPage ∧
      page + pageSize ≤ layout.pages.endAddress ∧ next = page + pageSize
  | wipe page => Out layout nextPage page
  | finish page => Out layout nextPage page
  | _ => True

/-- Two callers do not take at once, and have taken different pages. -/
def Point.Apart (first second : Point) : Prop :=
  (first.taking = none ∨ second.taking = none) ∧
    ∀ page, first.taken = some page → second.taken ≠ some page

theorem Point.untaken {point : Point} (nothing : point.taken = none)
    {owns : Nat → Prop} : ∀ page, point.taken = some page → owns page := by
  intro page taken
  rw [nothing] at taken
  contradiction

theorem Point.Apart.symm {first second : Point} (apart : first.Apart second) :
    second.Apart first := by
  refine ⟨apart.1.symm, ?_⟩
  intro page taken same
  exact apart.2 page same taken

structure Invariant (layout : Layout) (state : State Caller) : Prop where
  cursor : state.nextPage = 0 ∨ (layout.pages.startAddress ≤ state.nextPage ∧
    state.nextPage ≤ layout.pages.endAddress ∧ pageSize ∣ state.nextPage)
  good : ∀ caller, (state.callers caller).Good layout state.nextPage
  apart : ∀ first second, first ≠ second →
    (state.callers first).Apart (state.callers second)
  fresh : ∀ caller page, (state.callers caller).taken = some page →
    page ∉ state.returned
  out : ∀ page ∈ state.returned, Out layout state.nextPage page
  sound : Sound record (Admits layout) [] state.trace

section

variable [DecidableEq Caller]

structure Legal (layout : Layout) (state : State Caller) (caller : Caller)
    (nextPage : Nat) (point : Point) (events : List Event) : Prop where
  cursor : nextPage = 0 ∨ (layout.pages.startAddress ≤ nextPage ∧
    nextPage ≤ layout.pages.endAddress ∧ pageSize ∣ nextPage)
  good : point.Good layout nextPage
  others : ∀ other, other ≠ caller →
    (state.callers other).Good layout nextPage
  apart : ∀ other, other ≠ caller → point.Apart (state.callers other)
  fresh : ∀ page, point.taken = some page →
    page ∉ events.foldl record state.returned
  freshOthers : ∀ other page, other ≠ caller →
    (state.callers other).taken = some page →
      page ∉ events.foldl record state.returned
  out : ∀ page ∈ events.foldl record state.returned, Out layout nextPage page
  sound : Sound record (Admits layout) state.returned events

theorem Legal.invariant {state after : State Caller} {caller : Caller}
    {nextPage : Nat} {point : Point} {events : List Event}
    (legal : Legal layout state caller nextPage point events)
    (invariant : Invariant layout state)
    (page : after.nextPage = nextPage)
    (callers : after.callers = Function.update state.callers caller point)
    (trace : after.trace = state.trace ++ events) : Invariant layout after := by
  have returned : after.returned = events.foldl record state.returned := by
    rw [State.returned, trace, List.foldl_append]
    rfl
  have here : after.callers caller = point := by
    rw [callers, Function.update_self]
  have elsewhere : ∀ other, other ≠ caller →
      after.callers other = state.callers other := by
    intro other different
    rw [callers, Function.update_of_ne different]
  constructor
  · rw [page]
    exact legal.cursor
  · intro other
    rw [page]
    by_cases same : other = caller
    · rw [same, here]
      exact legal.good
    · rw [elsewhere other same]
      exact legal.others other same
  · intro first second different
    by_cases firstSame : first = caller
    · rw [firstSame] at different ⊢
      rw [here, elsewhere second different.symm]
      exact legal.apart second different.symm
    · rw [elsewhere first firstSame]
      by_cases secondSame : second = caller
      · rw [secondSame, here]
        exact (legal.apart first firstSame).symm
      · rw [elsewhere second secondSame]
        exact invariant.apart first second different
  · intro other taken isTaken
    rw [returned]
    by_cases same : other = caller
    · rw [same, here] at isTaken
      exact legal.fresh taken isTaken
    · rw [elsewhere other same] at isTaken
      exact legal.freshOthers other taken same isTaken
  · rw [returned, page]
    exact legal.out
  · rw [trace]
    exact (sound_append state.trace events).mpr ⟨invariant.sound, legal.sound⟩

omit [DecidableEq Caller] in
theorem Legal.quiet {state : State Caller} {caller : Caller}
    (invariant : Invariant layout state) (point : Point)
    (good : point.Good layout state.nextPage) (taking : point.taking = none)
    (taken : point.taken = none) :
    Legal layout state caller state.nextPage point [] where
  cursor := invariant.cursor
  good := good
  others other _ := invariant.good other
  apart other _ := by
    refine ⟨.inl taking, ?_⟩
    intro page isTaken
    rw [taken] at isTaken
    contradiction
  fresh page isTaken := by
    rw [taken] at isTaken
    contradiction
  freshOthers other page _ isTaken := invariant.fresh other page isTaken
  out := invariant.out
  sound := trivial

end

section

variable {nextPage page : Nat} {point : Point}

theorem Out.mono {later : Nat} (out : Out layout nextPage page)
    (le : nextPage ≤ later) : Out layout later page :=
  ⟨out.aligned, out.first, Nat.le_trans out.last le⟩

theorem Out.isPoolPage (out : Out layout nextPage page)
    (bound : nextPage ≤ layout.pages.endAddress) : IsPoolPage layout page :=
  ⟨out.aligned, out.first, Nat.le_trans out.last bound⟩

theorem not_out_zero (out : Out layout 0 page) : False := by
  have last := out.last
  have positive := pageSize_pos
  omega

/-- Before the first store a caller can only be at its first accesses. -/
theorem Point.Good.of_zero (good : point.Good layout 0) (next : Nat) :
    point.Good layout next := by
  cases point with
  | check => exact absurd rfl good
  | loadResult => exact absurd rfl good
  | loadNext page => exact absurd rfl good.1
  | storeNext page stored => exact absurd rfl good.1
  | wipe page => exact (not_out_zero good).elim
  | finish page => exact (not_out_zero good).elim
  | _ => trivial

/-- What a caller that is not taking a page knows survives another's store. -/
theorem Point.Good.mono {later : Nat} (good : point.Good layout nextPage)
    (taking : point.taking = none) (le : nextPage ≤ later) :
    point.Good layout later := by
  cases point with
  | check =>
      have set : nextPage ≠ 0 := good
      change later ≠ 0
      omega
  | loadResult =>
      have set : nextPage ≠ 0 := good
      change later ≠ 0
      omega
  | loadNext page => contradiction
  | storeNext page stored => contradiction
  | wipe page => exact Out.mono good le
  | finish page => exact Out.mono good le
  | _ => trivial

end

section

variable {state : State Caller} {caller : Caller} {page : Nat}

theorem Invariant.nextPage_le (invariant : Invariant layout state) :
    state.nextPage ≤ layout.pages.endAddress := by
  rcases invariant.cursor with zero | ⟨-, bound, -⟩
  · omega
  · exact bound

theorem Legal.storeStart (invariant : Invariant layout state)
    (unset : state.nextPage = 0) :
    Legal layout state caller layout.pages.startAddress .check [] := by
  have kernel := layout.memoryStart_le_pages_start
  have end_ := layout.pages_end_eq
  have good := invariant.good
  have out := invariant.out
  rw [unset] at good out
  have notOut := fun page member => not_out_zero (out page member)
  constructor
  · refine .inr ⟨Nat.le_refl _, ?_, layout.pages_start_dvd⟩
    omega
  · change layout.pages.startAddress ≠ 0
    simp only [Image.memoryStart] at kernel
    omega
  · intro other _
    exact (good other).of_zero _
  · intro other _
    exact ⟨.inl rfl, Point.untaken rfl⟩
  · exact Point.untaken rfl
  · intro other taken _ isTaken
    exact invariant.fresh other taken isTaken
  · intro taken member
    exact absurd (notOut taken member) id
  · trivial

theorem Legal.loadResult (invariant : Invariant layout state)
    (point : state.callers caller = .loadResult)
    (room : state.nextPage ≤ layout.pages.endAddress - pageSize)
    (alone : ∀ other, (state.callers other).taking = none) :
    Legal layout state caller state.nextPage (.loadNext state.nextPage) [] := by
  have set : state.nextPage ≠ 0 := by
    have good := invariant.good caller
    rw [point] at good
    exact good
  have end_ := layout.pages_end_eq
  constructor
  · exact invariant.cursor
  · refine ⟨set, rfl, ?_⟩
    simp only [pageSize] at *
    omega
  · intro other _
    exact invariant.good other
  · intro other _
    exact ⟨.inr (alone other), Point.untaken rfl⟩
  · exact Point.untaken rfl
  · intro other taken _ isTaken
    exact invariant.fresh other taken isTaken
  · exact invariant.out
  · trivial

theorem Legal.loadNext (invariant : Invariant layout state)
    (point : state.callers caller = .loadNext page) :
    Legal layout state caller state.nextPage
      (.storeNext page (layout.target.uintptr (state.nextPage + pageSize))) [] := by
  have good := invariant.good caller
  rw [point] at good
  obtain ⟨set, same, bound⟩ := good
  have range := layout.address_lt_of_pool bound
  constructor
  · exact invariant.cursor
  · refine ⟨set, same, bound, ?_⟩
    rw [← same, Target.uintptr_of_lt range]
  · intro other _
    exact invariant.good other
  · intro other different
    have apart := invariant.apart caller other different.symm
    rw [point] at apart
    have waits := apart.1.resolve_left (Option.some_ne_none page)
    exact ⟨.inr waits, Point.untaken rfl⟩
  · exact Point.untaken rfl
  · intro other taken _ isTaken
    exact invariant.fresh other taken isTaken
  · exact invariant.out
  · trivial

theorem Legal.storeNext {next : Nat} (invariant : Invariant layout state)
    (point : state.callers caller = .storeNext page next) :
    Legal layout state caller next (.wipe page) [] := by
  have good := invariant.good caller
  rw [point] at good
  obtain ⟨set, rfl, bound, rfl⟩ := good
  obtain ⟨first, -, aligned⟩ := invariant.cursor.resolve_left set
  have later := Nat.le_add_right state.nextPage pageSize
  have alone : ∀ other, other ≠ caller → (state.callers other).taking = none := by
    intro other different
    have apart := invariant.apart caller other different.symm
    rw [point] at apart
    exact apart.1.resolve_left (Option.some_ne_none _)
  -- what has been taken before ends where this page starts
  have below : ∀ {taken}, Out layout state.nextPage taken →
      taken ≠ state.nextPage := by
    intro taken out same
    have last := out.last
    have positive := pageSize_pos
    omega
  constructor
  · exact .inr ⟨Nat.le_trans first later, bound, Nat.dvd_add aligned (Nat.dvd_refl _)⟩
  · exact ⟨aligned, first, Nat.le_refl _⟩
  · intro other different
    exact (invariant.good other).mono (alone other different) later
  · intro other different
    refine ⟨.inl rfl, ?_⟩
    intro taken isTaken otherTaken
    cases isTaken
    have otherGood := invariant.good other
    cases otherPoint : state.callers other with
    | wipe taken =>
        rw [otherPoint] at otherGood otherTaken
        exact below otherGood (Option.some.inj otherTaken)
    | finish taken =>
        rw [otherPoint] at otherGood otherTaken
        exact below otherGood (Option.some.inj otherTaken)
    | _ =>
        rw [otherPoint] at otherTaken
        contradiction
  · intro taken isTaken member
    cases isTaken
    exact below (invariant.out _ member) rfl
  · intro other taken _ isTaken
    exact invariant.fresh other taken isTaken
  · intro taken member
    exact (invariant.out taken member).mono later
  · trivial

theorem Legal.wipe (invariant : Invariant layout state)
    (point : state.callers caller = .wipe page) :
    Legal layout state caller state.nextPage (.finish page) [.zeroed page] := by
  have good := invariant.good caller
  have fresh := invariant.fresh caller page
  rw [point] at good fresh
  constructor
  · exact invariant.cursor
  · exact good
  · intro other _
    exact invariant.good other
  · intro other different
    have apart := invariant.apart caller other different.symm
    rw [point] at apart
    exact apart
  · intro taken isTaken
    cases isTaken
    exact fresh rfl
  · intro other taken _ isTaken
    exact invariant.fresh other taken isTaken
  · exact invariant.out
  · exact ⟨fresh rfl, trivial⟩

theorem Legal.finish (invariant : Invariant layout state)
    (point : state.callers caller = .finish page) :
    Legal layout state caller state.nextPage .outside [.returned page] := by
  have good := invariant.good caller
  have fresh := invariant.fresh caller page
  rw [point] at good fresh
  constructor
  · exact invariant.cursor
  · trivial
  · intro other _
    exact invariant.good other
  · intro other _
    exact ⟨.inl rfl, Point.untaken rfl⟩
  · exact Point.untaken rfl
  · intro other taken different isTaken member
    rcases List.mem_cons.mp member with same | older
    · have apart := invariant.apart caller other different.symm
      rw [point] at apart
      rw [same] at isTaken
      exact apart.2 page rfl isTaken
    · exact invariant.fresh other taken isTaken older
  · intro taken member
    rcases List.mem_cons.mp member with same | older
    · rw [same]
      exact good
    · exact invariant.out taken older
  · exact ⟨⟨fresh rfl, Out.isPoolPage good invariant.nextPage_le⟩, trivial⟩

end

section

variable [DecidableEq Caller]

theorem Invariant.step {before after : State Caller} {action : Action Caller}
    (invariant : Invariant layout before)
    (undisturbed : Undisturbed layout before action)
    (stepped : step layout before action = some after) :
    Invariant layout after := by
  cases action with
  | call caller =>
      rw [PageRace.step] at stepped
      split at stepped
      · cases stepped
        exact (Legal.quiet invariant .test trivial rfl rfl).invariant invariant
          rfl rfl
          (List.append_nil _).symm
      · contradiction
  | advance caller =>
      obtain ⟨atStart, atResult⟩ := undisturbed
      rw [PageRace.step] at stepped
      have good := invariant.good caller
      cases point : before.callers caller with
      | outside =>
          rw [point] at stepped
          contradiction
      | stopped =>
          rw [point] at stepped
          contradiction
      | test =>
          rw [point] at stepped
          cases stepped
          by_cases unset : before.nextPage = 0
          · rw [if_pos unset]
            exact (Legal.quiet invariant .storeStart trivial rfl rfl).invariant
              invariant rfl rfl
              (List.append_nil _).symm
          · rw [if_neg unset]
            exact (Legal.quiet invariant .check unset rfl rfl).invariant
              invariant rfl rfl
              (List.append_nil _).symm
      | storeStart =>
          rw [point] at stepped
          cases stepped
          exact (Legal.storeStart invariant (atStart point)).invariant invariant rfl
            rfl (List.append_nil _).symm
      | check =>
          rw [point] at stepped good
          cases stepped
          by_cases full : before.nextPage > layout.pages.endAddress - pageSize
          · rw [if_pos full]
            exact (Legal.quiet invariant .stopped trivial rfl rfl).invariant
              invariant rfl rfl
              (List.append_nil _).symm
          · rw [if_neg full]
            exact (Legal.quiet invariant .loadResult good rfl rfl).invariant
              invariant rfl rfl
              (List.append_nil _).symm
      | loadResult =>
          rw [point] at stepped
          cases stepped
          obtain ⟨room, alone⟩ := atResult point
          exact (Legal.loadResult invariant point room alone).invariant invariant rfl
            rfl (List.append_nil _).symm
      | loadNext page =>
          rw [point] at stepped
          cases stepped
          exact (Legal.loadNext invariant point).invariant invariant rfl rfl
            (List.append_nil _).symm
      | storeNext page next =>
          rw [point] at stepped
          cases stepped
          exact (Legal.storeNext invariant point).invariant invariant rfl rfl
            (List.append_nil _).symm
      | wipe page =>
          rw [point] at stepped
          cases stepped
          exact (Legal.wipe invariant point).invariant invariant rfl rfl rfl
      | finish page =>
          rw [point] at stepped
          cases stepped
          exact (Legal.finish invariant point).invariant invariant rfl rfl rfl

omit [DecidableEq Caller] in
theorem Invariant.start {state : State Caller} (starts : Start state) :
    Invariant layout state := by
  have returned : state.returned = [] := by
    rw [State.returned, starts.trace]
    rfl
  constructor
  · exact .inl starts.nextPage
  · intro caller
    rw [starts.callers caller]
    trivial
  · intro first second _
    rw [starts.callers first]
    exact ⟨.inl rfl, Point.untaken rfl⟩
  · intro caller page isTaken
    rw [starts.callers caller] at isTaken
    contradiction
  · rw [returned]
    exact List.forall_mem_nil _
  · rw [starts.trace]
    trivial

theorem Invariant.of_reachable {state : State Caller}
    (reachable : ((system Caller layout).restrict (Undisturbed layout)).Reachable
      state) : Invariant layout state := by
  refine reachable.invariant (Invariant layout) ?_ ?_
  · intro start starts
    exact .start starts
  · intro before action after invariant stepped
    exact invariant.step stepped.1 stepped.2

end

/-- What the callers of an allocator expect of a run. -/
structure HandsOutOnce (layout : Layout) (trace : List Event) : Prop where
  distinct : ∀ before page after, trace = before ++ .returned page :: after →
    .returned page ∉ before
  fromPool : ∀ page, .returned page ∈ trace → IsPoolPage layout page
  kept : ∀ before page after, trace = before ++ .zeroed page :: after →
    .returned page ∉ before

theorem mem_foldl_record {trace : List Event} {returned : List Nat} {page : Nat} :
    page ∈ trace.foldl record returned ↔
      page ∈ returned ∨ .returned page ∈ trace := by
  induction trace generalizing returned with
  | nil => simp
  | cons event trace induction =>
      rw [List.foldl_cons, induction, List.mem_cons]
      cases event with
      | zeroed other => simp [record]
      | returned other =>
          simp only [record, List.mem_cons, Event.returned.injEq]
          rw [or_assoc, or_left_comm]

theorem HandsOutOnce.of_sound {trace : List Event}
    (sound : Sound record (Admits layout) [] trace) : HandsOutOnce layout trace := by
  constructor
  · intro before page after split member
    rw [split] at sound
    exact sound.admits_of_append.1 (mem_foldl_record.mpr (.inr member))
  · intro page member
    obtain ⟨before, after, split⟩ := List.append_of_mem member
    rw [split] at sound
    exact sound.admits_of_append.2
  · intro before page after split member
    rw [split] at sound
    exact sound.admits_of_append (mem_foldl_record.mpr (.inr member))

section

variable [DecidableEq Caller]

/-- Any number of callers, undisturbed, get pages of their own. -/
theorem pages_handed_out_once {state : State Caller}
    (reachable : ((system Caller layout).restrict (Undisturbed layout)).Reachable
      state) : HandsOutOnce layout state.trace :=
  .of_sound (Invariant.of_reachable reachable).sound

end

instance [Fintype Caller] (state : State Caller) (action : Action Caller) :
    Decidable (Undisturbed layout state action) :=
  match action with
  | .call _ => inferInstanceAs (Decidable True)
  | .advance _ => inferInstanceAs (Decidable ((_ → _) ∧ (_ → _ ∧ _)))

def atBoot (Caller : Type) : State Caller := ⟨0, fun _ => .outside, []⟩

theorem atBoot_start (Caller : Type) : Start (atBoot Caller) :=
  ⟨rfl, fun _ => rfl, rfl⟩

def firstLoads (caller : Caller) : List (Action Caller) :=
  [.call caller, .advance caller, .advance caller, .advance caller, .advance caller]

def lastStores (caller : Caller) : List (Action Caller) :=
  [.advance caller, .advance caller, .advance caller, .advance caller]

set_option maxRecDepth 100000 in
theorem pages_handed_out_once_two_callers : ∃ state : State Bool,
    state.trace = [.zeroed Layout.small.pages.startAddress,
      .returned Layout.small.pages.startAddress,
      .zeroed (Layout.small.pages.startAddress + 4096),
      .returned (Layout.small.pages.startAddress + 4096)] ∧
    HandsOutOnce Layout.small state.trace := by
  refine ⟨_, ?_, pages_handed_out_once (System.Reachable.of_execute_guarded
    (firstLoads true ++ [.advance true, .advance true, .call false, .advance false,
      .advance false, .advance false] ++ [.advance true, .advance true] ++
        lastStores false)
    (.start _ (atBoot_start Bool)) rfl)⟩
  rfl

/-- A second caller loads its result before the first one has stored
`next_page`, and both return the first page. -/
theorem two_callers_share_page : ∃ state : State Bool,
    (system Bool Layout.small).Reachable state ∧
      ¬HandsOutOnce Layout.small state.trace := by
  refine ⟨_, System.Reachable.of_execute
    (firstLoads true ++ [.call false, .advance false, .advance false,
      .advance false] ++ lastStores true ++ lastStores false)
    (.start _ (atBoot_start Bool)) rfl, ?_⟩
  intro once
  exact once.distinct [.zeroed Layout.small.pages.startAddress,
    .returned Layout.small.pages.startAddress,
    .zeroed Layout.small.pages.startAddress] _ [] rfl
      (List.mem_cons_of_mem _ (List.mem_cons_self ..))

end Thos.VirtualMemory.PageRace
