import Thos.VirtualMemory.Mapping

namespace Thos.VirtualMemory

open Thos.Kernel
open Data.RadixForest

/-! Every history of `map_address` calls refines a map from pages to physical
addresses and flags. -/

structure MapCall where
  root : Nat
  virtualAddress : VirtualAddress
  physicalAddress : Nat
  flags : PageTableEntryFlags
  deriving DecidableEq, Repr

/-- The physical address is a `uintptr_t` whose page number fits its bit-field. -/
def MapCall.Fits (target : Target) (call : MapCall) : Prop :=
  call.physicalAddress < 2 ^ target.pointerBits ∧
    call.physicalAddress / pageSize < 2 ^ target.physicalPageNumberBitwidth

/-- Any number of roots from `Page_alloc` and any interleaving of calls on
them, from an unused pool.  The calls are listed oldest first. -/
inductive Run (layout : Layout) : Memory → List Nat → List MapCall → Prop
  | start {memory : Memory} : memory.nextPage = 0 → Run layout memory [] []
  | alloc {memory after : Memory} {roots : List Nat} {calls : List MapCall}
      {page : Nat} : Run layout memory roots calls →
        Page.alloc layout memory = .ok (page, after) →
          Run layout after (page :: roots) calls
  | map {memory after : Memory} {roots : List Nat} {calls : List MapCall}
      {call : MapCall} : Run layout memory roots calls →
        call.root ∈ roots → call.Fits layout.target →
          PageTable.mapAddress layout memory call.root call.virtualAddress
            call.physicalAddress call.flags = .ok after →
          Run layout after roots (calls ++ [call])

theorem Run.root_mem {layout : Layout} {memory : Memory} {roots : List Nat}
    {calls : List MapCall} {call : MapCall} (run : Run layout memory roots calls)
    (member : call ∈ calls) : call.root ∈ roots := by
  induction run with
  | start _ => contradiction
  | alloc _ _ induction => exact List.mem_cons_of_mem _ (induction member)
  | map _ known _ _ induction =>
      rcases List.mem_append.mp member with old | new
      · exact induction old
      · rw [List.mem_singleton] at new
        subst new
        exact known

/-- What the tables mean: for a root and a page index, a physical address and
flags. -/
abbrev PageMap := Nat × Nat → Option (Nat × PageTableEntryFlags)

namespace PageMap

def map (target : Target) (pages : PageMap) (call : MapCall) : PageMap :=
  Function.update pages (call.root, call.virtualAddress.pageIndex target)
    (some (call.physicalAddress, call.flags))

def ofCalls (target : Target) (calls : List MapCall) : PageMap :=
  calls.foldl (map target) fun _ => none

theorem ofCalls_concat (target : Target) (calls : List MapCall) (call : MapCall) :
    ofCalls target (calls ++ [call]) = map target (ofCalls target calls) call := by
  simp [ofCalls]

theorem map_apply (target : Target) (pages : PageMap) (call : MapCall)
    (root index : Nat) :
    map target pages call (root, index) =
      if root = call.root ∧ index = call.virtualAddress.pageIndex target then
        some (call.physicalAddress, call.flags)
      else pages (root, index) := by
  simp [map, Function.update_apply]

end PageMap

/-- The memory holds exactly the map: a page is mapped to a leaf, or has no
leaf. -/
structure Represents (layout : Layout) (memory : Memory) (roots : List Nat)
    (pages : PageMap) : Prop where
  shape : ∃ place, WellFormed layout memory place ∧
    ∀ root ∈ roots, place.Rooted root
  leaves : ∀ root ∈ roots, ∀ address : VirtualAddress,
    memory.leafEntry layout.target root address =
      (pages (root, address.pageIndex layout.target)).map fun entry =>
        .mapped layout.target entry.1 entry.2
  unknown : ∀ root index, root ∉ roots → pages (root, index) = none
  fits : ∀ root index physicalAddress flags,
    pages (root, index) = some (physicalAddress, flags) →
      pageSize ∣ physicalAddress ∧
        MapCall.Fits layout.target ⟨root, ⟨index⟩, physicalAddress, flags⟩

variable {layout : Layout} {memory after : Memory} {roots : List Nat}
  {pages : PageMap} {calls : List MapCall}

theorem WellFormed.start (unused : memory.nextPage = 0) :
    WellFormed layout memory fun _ => none :=
  ⟨.inl ⟨unused, fun _ => rfl⟩, by simp, by simp, by simp, by simp⟩

namespace Represents

theorem start (unused : memory.nextPage = 0) :
    Represents layout memory [] fun _ => none where
  shape := ⟨fun _ => none, .start unused, List.forall_mem_nil _⟩
  leaves := List.forall_mem_nil _
  unknown _ _ _ := rfl
  fits := by simp

theorem alloc {page : Nat} (represents : Represents layout memory roots pages)
    (allocated : Page.alloc layout memory = .ok (page, after)) :
    Represents layout after (page :: roots) pages := by
  obtain ⟨place, wellFormed, rooted⟩ := represents.shape
  have allocated := Page.alloc_allocated wellFormed allocated
  have fresh := allocated.fresh wellFormed
  have older : ∀ root ∈ roots, root ≠ page := by
    rintro root member rfl
    have placed := rooted root member
    rw [Placement.Rooted, fresh] at placed
    contradiction
  have newWellFormed := allocated.rootWellFormed wellFormed
  have newRooted : ∀ root ∈ page :: roots,
      Placement.Rooted (Function.update place page (some (page, []))) root := by
    intro root member
    rcases List.mem_cons.mp member with rfl | old
    · exact Function.update_self ..
    · exact (Function.update_of_ne (older root old) _ _).trans (rooted root old)
  refine ⟨⟨_, newWellFormed, newRooted⟩, ?_, ?_, represents.fits⟩
  · intro root member address
    rcases List.mem_cons.mp member with rfl | old
    · -- a wiped root has no leaf and no call has named it yet
      have notOld : root ∉ roots := fun old => older root old rfl
      rw [represents.unknown root _ notOld, Option.map_none]
      exact allocated.leafEntry_new address
    · rw [allocated.lookup_eq wellFormed (rooted root old) address]
      exact represents.leaves root old address
  · intro root index notMember
    exact represents.unknown root index fun old =>
      notMember (List.mem_cons_of_mem page old)

theorem map {call : MapCall} (represents : Represents layout memory roots pages)
    (member : call.root ∈ roots) (fits : call.Fits layout.target)
    (mapped : PageTable.mapAddress layout memory call.root call.virtualAddress
      call.physicalAddress call.flags = .ok after) :
    Represents layout after roots (pages.map layout.target call) := by
  obtain ⟨place, wellFormed, rooted⟩ := represents.shape
  obtain ⟨place', newWellFormed, grown, leaves⟩ :=
    PageTable.mapAddress_spec wellFormed (rooted call.root member) mapped
  refine ⟨⟨place', newWellFormed, fun root here =>
    grown root _ (rooted root here)⟩, ?_, ?_, ?_⟩
  · intro root here address
    rw [leaves root address (rooted root here), PageMap.map_apply]
    split
    · rfl
    · exact represents.leaves root here address
  · intro root index notMember
    have different : root ≠ call.root := by
      rintro rfl
      exact notMember member
    rw [PageMap.map_apply, if_neg (by simp [different])]
    exact represents.unknown root index notMember
  · intro root index physicalAddress flags entry
    rw [PageMap.map_apply] at entry
    split at entry
    · cases entry
      exact ⟨PageTable.mapAddress_aligned mapped, fits⟩
    · exact represents.fits root index physicalAddress flags entry

theorem of_run (run : Run layout memory roots calls) :
    Represents layout memory roots (PageMap.ofCalls layout.target calls) := by
  induction run with
  | start unused => exact .start unused
  | alloc _ allocated represents => exact represents.alloc allocated
  | map _ member fits mapped represents =>
      rw [PageMap.ofCalls_concat]
      exact represents.map member fits mapped

theorem getPhysicalAddress_eq (represents : Represents layout memory roots pages)
    {root : Nat} (member : root ∈ roots) {address : VirtualAddress}
    {physicalAddress : Nat} {flags : PageTableEntryFlags}
    (entry : pages (root, address.pageIndex layout.target) =
      some (physicalAddress, flags)) :
    PageTable.getPhysicalAddress layout.target memory root address =
      .ok (physicalAddress + address.pageOffset) := by
  obtain ⟨place, wellFormed, rooted⟩ := represents.shape
  obtain ⟨aligned, inRange, numberFits⟩ := represents.fits _ _ _ _ entry
  have leaf := represents.leaves root member address
  rw [entry, Option.map_some] at leaf
  rw [PageTable.getPhysicalAddress_of_leaf wellFormed (rooted root member) leaf]
  have offset := Nat.mod_lt address.value pageSize_pos
  have pages : pageSize ∣ 2 ^ layout.target.pointerBits := by
    cases layout.target <;> decide
  have sum : physicalAddress + address.pageOffset <
      2 ^ layout.target.pointerBits := by
    simp only [VirtualAddress.pageOffset]
    simp only [pageSize] at *
    omega
  have product : (PageTableEntry.mapped layout.target physicalAddress
      flags).physicalPageNum * pageSize = physicalAddress := by
    rw [PageTableEntry.mapped, Nat.mod_eq_of_lt numberFits,
      Nat.div_mul_cancel aligned]
  rw [product, Target.uintptr_of_lt inRange, Target.uintptr_of_lt sum]

end Represents

namespace PageMap

theorem ofCalls_of_last (target : Target) {call : MapCall}
    (before : List MapCall) {later : List MapCall}
    (last : ∀ other ∈ later, other.root = call.root →
      other.virtualAddress.pageIndex target ≠
        call.virtualAddress.pageIndex target) :
    ofCalls target (before ++ call :: later)
        (call.root, call.virtualAddress.pageIndex target) =
      some (call.physicalAddress, call.flags) := by
  induction later using List.reverseRecOn with
  | nil => rw [ofCalls_concat, map_apply, if_pos ⟨rfl, rfl⟩]
  | append_singleton later other induction =>
      rw [← List.cons_append, ← List.append_assoc, ofCalls_concat, map_apply,
        if_neg]
      · apply induction
        intro earlier member
        exact last earlier (List.mem_append_left _ member)
      · rintro ⟨sameRoot, sameIndex⟩
        exact last other (by simp) sameRoot.symm sameIndex.symm

theorem ofCalls_of_never (target : Target) {root index : Nat}
    {calls : List MapCall}
    (never : ∀ call ∈ calls, call.root = root →
      call.virtualAddress.pageIndex target ≠ index) :
    ofCalls target calls (root, index) = none := by
  induction calls using List.reverseRecOn with
  | nil => rfl
  | append_singleton calls call induction =>
      rw [ofCalls_concat, map_apply, if_neg]
      · apply induction
        intro earlier member
        exact never earlier (List.mem_append_left _ member)
      · rintro ⟨sameRoot, sameIndex⟩
        exact never call (by simp) sameRoot.symm sameIndex.symm

end PageMap

theorem VirtualAddress.pageIndex_add_offset (target : Target)
    {address : VirtualAddress} {offset : Nat}
    (aligned : address.value % pageSize = 0) (bound : offset < pageSize) :
    VirtualAddress.pageIndex target ⟨address.value + offset⟩ =
        address.pageIndex target ∧
      VirtualAddress.pageOffset ⟨address.value + offset⟩ = offset := by
  simp only [VirtualAddress.pageIndex, VirtualAddress.pageOffset]
  have page : (address.value + offset) / pageSize = address.value / pageSize := by
    simp only [pageSize] at *
    omega
  refine ⟨by rw [page], ?_⟩
  simp only [pageSize] at *
  omega

/-- After any interleaving of calls on any number of roots, on both targets:
a page translates as the last call on it says, a page no call named has no
leaf, and one more call changes no other page of any root. -/
theorem map_calls_refine_page_map (run : Run layout memory roots calls) :
    (∀ (before : List MapCall) (call : MapCall) (later : List MapCall),
      calls = before ++ call :: later →
      (∀ other ∈ later, other.root = call.root →
        other.virtualAddress.pageIndex layout.target ≠
          call.virtualAddress.pageIndex layout.target) →
      ∀ address : VirtualAddress, address.value % pageSize = 0 →
        address.pageIndex layout.target =
          call.virtualAddress.pageIndex layout.target →
        (∀ offset < pageSize,
          PageTable.getPhysicalAddress layout.target memory call.root
              ⟨address.value + offset⟩ = .ok (call.physicalAddress + offset)) ∧
          memory.leafEntry layout.target call.root address =
            some { flags := { call.flags with valid := true, read := true }
                   physicalPageNum := call.physicalAddress / pageSize }) ∧
      (∀ root ∈ roots, ∀ address : VirtualAddress,
        (∀ call ∈ calls, call.root = root →
          call.virtualAddress.pageIndex layout.target ≠
            address.pageIndex layout.target) →
        memory.leafEntry layout.target root address = none) ∧
      (∀ (call : MapCall) (after : Memory), call.root ∈ roots →
        PageTable.mapAddress layout memory call.root call.virtualAddress
          call.physicalAddress call.flags = .ok after →
        ∀ root ∈ roots, ∀ address : VirtualAddress,
          (root ≠ call.root ∨ address.pageIndex layout.target ≠
            call.virtualAddress.pageIndex layout.target) →
          after.leafEntry layout.target root address =
            memory.leafEntry layout.target root address) := by
  have represents := Represents.of_run run
  refine ⟨?_, ?_, ?_⟩
  · intro before call later split last address aligned samePage
    have member : call.root ∈ roots := run.root_mem (by simp [split])
    have entry := PageMap.ofCalls_of_last layout.target before last
    rw [← split, ← samePage] at entry
    constructor
    · intro offset bound
      obtain ⟨sameIndex, sameOffset⟩ :=
        VirtualAddress.pageIndex_add_offset layout.target aligned bound
      rw [← sameIndex] at entry
      rw [represents.getPhysicalAddress_eq member entry, sameOffset]
    · have numberFits := (represents.fits _ _ _ _ entry).2.2
      rw [represents.leaves call.root member address, entry, Option.map_some,
        PageTableEntry.mapped, Nat.mod_eq_of_lt numberFits]
  · intro root member address never
    rw [represents.leaves root member address,
      PageMap.ofCalls_of_never layout.target never, Option.map_none]
  · intro call after callMember mapped root member address different
    obtain ⟨place, wellFormed, rooted⟩ := represents.shape
    obtain ⟨_, _, _, leaves⟩ := PageTable.mapAddress_spec wellFormed
      (rooted call.root callMember) mapped
    rw [leaves root address (rooted root member), if_neg]
    rintro ⟨sameRoot, sameIndex⟩
    rcases different with otherRoot | otherIndex
    · exact otherRoot sameRoot
    · exact otherIndex sameIndex

/-- The first page of programs at the base of all programs, in the first
table. -/
def MapCall.sample : MapCall :=
  ⟨Layout.small.pages.startAddress, ⟨userProgramBase⟩,
    Layout.small.userPrograms.startAddress, { execute := true, user := true }⟩

set_option maxRecDepth 100000 in
theorem MapCall.sample_run : ∃ memory,
    Run Layout.small memory [MapCall.sample.root] [MapCall.sample] := by
  refine ⟨_,
    .map (.alloc (.start (show Memory.unused.nextPage = 0 from rfl)) rfl) ?_ ?_ rfl⟩
  · exact List.mem_singleton.mpr rfl
  · exact ⟨by decide, by decide⟩

/-- The second page of programs at the same address, in a second table. -/
def MapCall.sampleOther : MapCall :=
  ⟨Layout.small.pages.startAddress + pageSize, ⟨userProgramBase⟩,
    Layout.small.userPrograms.startAddress + pageSize, { execute := true, user := true }⟩

def MapCall.sampleAgain : MapCall :=
  { MapCall.sample with physicalAddress := MapCall.sampleOther.physicalAddress }

def MapCall.samples : List MapCall := [.sample, .sampleOther, .sampleAgain]

def MapCall.sampleRoots : List Nat := [MapCall.sampleOther.root, MapCall.sample.root]

set_option maxRecDepth 100000 in
theorem MapCall.samples_run :
    ∃ memory, Run Layout.small memory MapCall.sampleRoots MapCall.samples := by
  have start : Run Layout.small Memory.unused [] [] := .start rfl
  have first := @Run.map Layout.small _ _ MapCall.sampleRoots [] .sample
    ((start.alloc rfl).alloc rfl) (by decide) ⟨by decide, by decide⟩ rfl
  have second := @Run.map Layout.small _ _ MapCall.sampleRoots [.sample] .sampleOther
    first (by decide) ⟨by decide, by decide⟩ rfl
  exact ⟨_, @Run.map Layout.small _ _ MapCall.sampleRoots [.sample, .sampleOther]
    .sampleAgain second (by decide) ⟨by decide, by decide⟩ rfl⟩

theorem map_calls_refine_page_map_sample :
    ∃ memory, Run Layout.small memory MapCall.sampleRoots MapCall.samples ∧
      PageTable.getPhysicalAddress .riscv64 memory MapCall.sample.root
        ⟨userProgramBase + 0x123⟩ =
          .ok (MapCall.sampleAgain.physicalAddress + 0x123) ∧
      PageTable.getPhysicalAddress .riscv64 memory MapCall.sampleOther.root
        ⟨userProgramBase + 0x123⟩ =
          .ok (MapCall.sampleOther.physicalAddress + 0x123) := by
  obtain ⟨memory, run⟩ := MapCall.samples_run
  have translated := (map_calls_refine_page_map run).1
  have again := translated [.sample, .sampleOther] .sampleAgain [] rfl
    (List.forall_mem_nil _) ⟨userProgramBase⟩ rfl rfl
  have other := translated [.sample] .sampleOther [.sampleAgain] rfl
    (List.forall_mem_singleton.mpr fun same => absurd same (by decide))
    ⟨userProgramBase⟩ rfl rfl
  exact ⟨memory, run, again.1 0x123 (by decide), other.1 0x123 (by decide)⟩

end Thos.VirtualMemory
