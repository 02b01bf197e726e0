import Thos.VirtualMemory.Refinement

namespace Thos.VirtualMemory

open Thos.Kernel
open Data.RadixForest

/-! Which tables a history of `map_address` calls leaves below its roots, and
which lookups fault. -/

/-- As `Run`, for any physical addresses. -/
inductive Calls (layout : Layout) : Memory → List Nat → List MapCall → Prop
  | start {memory : Memory} : memory.nextPage = 0 → Calls layout memory [] []
  | alloc {memory after : Memory} {roots : List Nat} {calls : List MapCall}
      {page : Nat} : Calls layout memory roots calls →
        Page.alloc layout memory = .ok (page, after) →
          Calls layout after (page :: roots) calls
  | map {memory after : Memory} {roots : List Nat} {calls : List MapCall}
      {call : MapCall} : Calls layout memory roots calls → call.root ∈ roots →
        PageTable.mapAddress layout memory call.root call.virtualAddress
          call.physicalAddress call.flags = .ok after →
        Calls layout after roots (calls ++ [call])

theorem Run.calls {layout : Layout} {memory : Memory} {roots : List Nat}
    {calls : List MapCall} (run : Run layout memory roots calls) :
    Calls layout memory roots calls := by
  induction run with
  | start unused => exact .start unused
  | alloc _ allocated induction => exact induction.alloc allocated
  | map _ known _ mapped induction => exact induction.map known mapped

/-- A call on this root named this page. -/
def MapCalled (target : Target) (calls : List MapCall) (root : Nat)
    (address : VirtualAddress) : Prop :=
  ∃ call ∈ calls, call.root = root ∧
    call.virtualAddress.pageIndex target = address.pageIndex target

/-- A call on this root named a page of the same bottom table. -/
def NeighbourCalled (target : Target) (calls : List MapCall) (root : Nat)
    (address : VirtualAddress) : Prop :=
  ∃ call ∈ calls, call.root = root ∧
    call.virtualAddress.inner target = address.inner target

section

variable {target : Target} {calls : List MapCall} {call : MapCall} {root : Nat}
  {address : VirtualAddress}

theorem mapCalled_concat :
    MapCalled target (calls ++ [call]) root address ↔
      MapCalled target calls root address ∨ (call.root = root ∧
        call.virtualAddress.pageIndex target = address.pageIndex target) := by
  simp [MapCalled, or_and_right, exists_or]

theorem MapCalled.neighbour (called : MapCalled target calls root address) :
    NeighbourCalled target calls root address := by
  obtain ⟨call, member, sameRoot, samePage⟩ := called
  exact ⟨call, member, sameRoot,
    ((VirtualAddress.pageIndex_eq_iff target _ _).mp samePage).1⟩

end

variable {layout : Layout} {memory after : Memory} {roots : List Nat}
  {calls : List MapCall} {place : Tables layout.target}

/-- The tables that are placed are those the calls need. -/
structure Built (layout : Layout) (memory : Memory) (roots : List Nat)
    (calls : List MapCall) (place : Tables layout.target) : Prop where
  wellFormed : WellFormed layout memory place
  rooted : ∀ root ∈ roots, place.Rooted root
  known : ∀ call ∈ calls, call.root ∈ roots
  needed : ∀ table root path, place table = some (root, path) →
    path = [] ∨ ∃ call ∈ calls, call.root = root ∧
      path <+: call.virtualAddress.inner layout.target
  reached : ∀ call ∈ calls, (walk (memory.child layout.target) call.root
    (call.virtualAddress.inner layout.target)).isSome
  leaves : ∀ root ∈ roots, ∀ address : VirtualAddress,
    (memory.leafEntry layout.target root address).isSome ↔
      MapCalled layout.target calls root address

namespace Built

theorem start (unused : memory.nextPage = 0) :
    Built layout memory [] [] fun _ => none :=
  ⟨.start unused, List.forall_mem_nil _, List.forall_mem_nil _, by simp,
    List.forall_mem_nil _, List.forall_mem_nil _⟩

theorem alloc {page : Nat} (built : Built layout memory roots calls place)
    (allocated : Page.alloc layout memory = .ok (page, after)) :
    Built layout after (page :: roots) calls
      (Function.update place page (some (page, []))) := by
  have allocated := Page.alloc_allocated built.wellFormed allocated
  have fresh := allocated.fresh built.wellFormed
  have older : ∀ root ∈ roots, root ≠ page := by
    rintro root member rfl
    have placed := built.rooted root member
    rw [Placement.Rooted, fresh] at placed
    contradiction
  constructor
  · exact allocated.rootWellFormed built.wellFormed
  · intro root member
    rcases List.mem_cons.mp member with rfl | old
    · exact Function.update_self ..
    · exact (Function.update_of_ne (older root old) _ _).trans
        (built.rooted root old)
  · intro call member
    exact List.mem_cons_of_mem page (built.known call member)
  · intro table root path placed
    by_cases same : table = page
    · rw [same, Function.update_self] at placed
      cases placed
      exact .inl rfl
    · rw [Function.update_of_ne same] at placed
      exact built.needed table root path placed
  · intro call member
    rw [allocated.walk_eq built.wellFormed
      (built.rooted call.root (built.known call member))
      (Nat.le_of_eq (call.virtualAddress.length_path _ _))]
    exact built.reached call member
  · intro root member address
    rcases List.mem_cons.mp member with rfl | old
    · rw [allocated.leafEntry_new address]
      constructor
      · exact Bool.false_ne_true.elim
      · rintro ⟨call, called, same, -⟩
        exact absurd same (older call.root (built.known call called))
    · rw [allocated.lookup_eq built.wellFormed (built.rooted root old) address]
      exact built.leaves root old address

theorem map {call : MapCall} (built : Built layout memory roots calls place)
    (member : call.root ∈ roots)
    (mapped : PageTable.mapAddress layout memory call.root call.virtualAddress
      call.physicalAddress call.flags = .ok after) :
    ∃ place', Built layout after roots (calls ++ [call]) place' := by
  obtain ⟨place', mapped⟩ := PageTable.mapAddress_mapped built.wellFormed
    (built.rooted call.root member) mapped
  refine ⟨place', mapped.wellFormed, ?_, ?_, ?_, ?_, ?_⟩
  · intro root here
    exact mapped.grown root _ (built.rooted root here)
  · intro other here
    rcases List.mem_append.mp here with old | new
    · exact built.known other old
    · rw [List.mem_singleton.mp new]
      exact member
  · intro table root path placed
    rcases mapped.extend.cases table root path placed with old | ⟨rfl, further⟩
    · rcases built.needed table root path old with
        empty | ⟨other, called, same, further⟩
      · exact .inl empty
      · exact .inr ⟨other, List.mem_append_left _ called, same, further⟩
    · exact .inr ⟨call, by simp, rfl, further⟩
  · intro other here
    rcases List.mem_append.mp here with old | new
    · obtain ⟨bottom, walked⟩ := Option.isSome_iff_exists.mp
        (built.reached other old)
      rw [built.wellFormed.separated.walk_mono mapped.links
        (built.rooted other.root (built.known other old))
        (Nat.le_of_eq (other.virtualAddress.length_path _ _)) walked]
      rfl
    · rw [List.mem_singleton.mp new]
      exact mapped.reached
  · intro root here address
    rw [mapped.leaves root address (built.rooted root here), mapCalled_concat,
      ← built.leaves root here address]
    split
    case isTrue same => simp [same.1, same.2]
    case isFalse different =>
      rw [or_iff_left]
      rintro ⟨sameRoot, samePage⟩
      exact different ⟨sameRoot.symm, samePage.symm⟩

theorem of_calls (run : Calls layout memory roots calls) :
    ∃ place, Built layout memory roots calls place := by
  induction run with
  | start unused => exact ⟨_, .start unused⟩
  | alloc _ allocated induction =>
      obtain ⟨place, built⟩ := induction
      exact ⟨_, built.alloc allocated⟩
  | map _ member mapped induction =>
      obtain ⟨place, built⟩ := induction
      exact built.map member mapped

variable {root : Nat}

theorem walk_isSome_iff (built : Built layout memory roots calls place)
    (member : root ∈ roots) (address : VirtualAddress) :
    (walk (memory.child layout.target) root
        (address.inner layout.target)).isSome ↔
      NeighbourCalled layout.target calls root address := by
  have length := address.length_path layout.target
    layout.target.virtualMemoryTopLevel
  constructor
  · intro found
    obtain ⟨bottom, walked⟩ := Option.isSome_iff_exists.mp found
    have placed := built.wellFormed.separated.place_of_walk
      (built.rooted root member) (Nat.le_of_eq length) walked
    rcases built.needed bottom root _ placed with
      empty | ⟨call, called, same, further⟩
    · rw [empty] at length
      cases target : layout.target <;> rw [target] at length <;> contradiction
    · refine ⟨call, called, same, (further.eq_of_length ?_).symm⟩
      rw [length, VirtualAddress.length_path]
  · rintro ⟨call, called, rfl, same⟩
    rw [← same]
    exact built.reached call called

end Built

namespace PageTable

theorem getPhysicalAddressLoop_none (address : VirtualAddress)
    (wellFormed : WellFormed layout memory place) {level table root : Nat}
    {path : List (Slot layout.target)}
    (placed : place table = some (root, path))
    (remaining : path.length + level = layout.target.virtualMemoryTopLevel)
    (lost : walk (memory.child layout.target) table
      (address.path layout.target level) = none) :
    getPhysicalAddressLoop layout.target memory address level table =
      .error (.panic "Invalid inner table at level %u") := by
  induction level generalizing table path with
  | zero => contradiction
  | succ level induction =>
      rw [getPhysicalAddressLoop, entryPointer_eq wellFormed placed address
        (by omega), Outcome.ok_bind]
      rw [VirtualAddress.path, walk_cons] at lost
      generalize address.slot layout.target (level + 1) = slot at lost ⊢
      have entryEq : memory.entry (entryAddress layout.target table slot.val) =
          memory.slotEntry layout.target table slot := rfl
      rw [entryEq]
      cases valid : (memory.slotEntry layout.target table slot).flags.valid with
      | false => rfl
      | true =>
          have linked := Memory.child_of_valid valid
          obtain ⟨_, follows, placedNext, fewer⟩ :=
            wellFormed.follow placed remaining linked
          rw [linked, Option.bind_some] at lost
          rw [if_neg Bool.noConfusion, follows, Outcome.ok_bind]
          exact induction placedNext fewer lost

/-- A lookup returns as soon as the bottom table exists, and panics where it
does not. -/
theorem getPhysicalAddress_cases (built : Built layout memory roots calls place)
    {root : Nat} (member : root ∈ roots) (address : VirtualAddress) :
    (NeighbourCalled layout.target calls root address ∧
        ∃ physicalAddress, getPhysicalAddress layout.target memory root address =
          .ok physicalAddress) ∨
      (¬NeighbourCalled layout.target calls root address ∧
        getPhysicalAddress layout.target memory root address =
          .error (.panic "Invalid inner table at level %u")) := by
  have rooted := built.rooted root member
  rw [← built.walk_isSome_iff member address]
  cases walked : walk (memory.child layout.target) root
      (address.inner layout.target) with
  | some bottom =>
      refine .inl ⟨rfl, ?_⟩
      rw [getPhysicalAddress, getPhysicalAddressLoop_walk address
        built.wellFormed rooted (by simp) walked]
      exact ⟨_, rfl⟩
  | none =>
      refine .inr ⟨Bool.false_ne_true.elim, ?_⟩
      rw [getPhysicalAddress, getPhysicalAddressLoop_none address
        built.wellFormed rooted (by simp) walked]
      rfl

end PageTable

/-- The lookup of an address returns if a call mapped its page, and panics
otherwise. -/
def FaultsExactly (layout : Layout) (memory : Memory) (calls : List MapCall)
    (root : Nat) (address : VirtualAddress) : Prop :=
  (MapCalled layout.target calls root address →
    ∃ physicalAddress, PageTable.getPhysicalAddress layout.target memory root
      address = .ok physicalAddress) ∧
  (¬MapCalled layout.target calls root address →
    ∃ reason, PageTable.getPhysicalAddress layout.target memory root address =
      .error (.panic reason))

/-- Level 0 is not tested for validity: an unmapped page faults only when no
call on the table named a page of its bottom table. -/
theorem lookup_faults_exactly_iff (run : Calls layout memory roots calls)
    {root : Nat} (member : root ∈ roots) (address : VirtualAddress) :
    FaultsExactly layout memory calls root address ↔
      (MapCalled layout.target calls root address ∨
        ¬NeighbourCalled layout.target calls root address) := by
  obtain ⟨place, built⟩ := Built.of_calls run
  rcases PageTable.getPhysicalAddress_cases built member address with
    ⟨neighbour, physicalAddress, returned⟩ | ⟨lonely, panicked⟩
  · constructor
    · intro faults
      by_contra unmapped
      rw [not_or] at unmapped
      obtain ⟨reason, panicked⟩ := faults.2 unmapped.1
      rw [returned] at panicked
      contradiction
    · rintro (called | lonely)
      · exact ⟨fun _ => ⟨physicalAddress, returned⟩, fun never => absurd called never⟩
      · exact absurd neighbour lonely
  · constructor
    · exact fun _ => .inr lonely
    · intro _
      exact ⟨fun called => absurd called.neighbour lonely,
        fun _ => ⟨_, panicked⟩⟩

theorem lookup_faults_exactly_iff_sample : ∃ memory,
    Calls Layout.small memory MapCall.sampleRoots MapCall.samples ∧
      (∀ root ∈ MapCall.sampleRoots,
        FaultsExactly Layout.small memory MapCall.samples root ⟨userProgramBase⟩) ∧
      ¬FaultsExactly Layout.small memory MapCall.samples MapCall.sampleOther.root
        ⟨userProgramBase + pageSize⟩ := by
  obtain ⟨memory, run⟩ := MapCall.samples_run
  have faults := fun root (member : root ∈ MapCall.sampleRoots) address =>
    lookup_faults_exactly_iff run.calls member address
  refine ⟨memory, run.calls, fun root member => (faults root member _).mpr (.inl ?_), ?_⟩
  · rcases List.mem_cons.mp member with rfl | first
    · exact ⟨MapCall.sampleOther, by simp [MapCall.samples], rfl, rfl⟩
    · rw [List.mem_singleton.mp first]
      exact ⟨MapCall.sample, by simp [MapCall.samples], rfl, rfl⟩
  · rw [faults _ (by decide), not_or, not_not]
    constructor
    · show ¬∃ call ∈ MapCall.samples, _
      decide
    · exact ⟨MapCall.sampleOther, by simp [MapCall.samples], rfl, by decide⟩

set_option maxRecDepth 100000 in
/-- The page after the only mapped one translates to physical page 0. -/
theorem lookup_returns_unmapped : ∃ memory,
    Calls Layout.small memory [MapCall.sample.root] [MapCall.sample] ∧
      ¬MapCalled .riscv64 [MapCall.sample] MapCall.sample.root
        ⟨userProgramBase + 0x1123⟩ ∧
      PageTable.getPhysicalAddress .riscv64 memory MapCall.sample.root
        ⟨userProgramBase + 0x1123⟩ = .ok 0x123 := by
  refine ⟨_, .map (.alloc (.start (show Memory.unused.nextPage = 0 from rfl)) rfl)
    ?_ rfl, ?_, rfl⟩
  · exact List.mem_singleton.mpr rfl
  · rintro ⟨call, called, -, samePage⟩
    rw [List.mem_singleton.mp called] at samePage
    revert samePage
    decide

end Thos.VirtualMemory
