import Mathlib.Data.Finset.Union
import Thos.Data.RadixCount
import Thos.VirtualMemory.Calls

namespace Thos.VirtualMemory

open Thos.Kernel
open Data.RadixForest

/-! How many pages the tables take, and when the pool of pages is too small. -/

variable {layout : Layout} {memory after : Memory} {roots : List Nat}
  {calls : List MapCall} {place : Tables layout.target}

/-- The number of pages of `SECTION_PAGES`. -/
def poolPages : Nat := 256

def Memory.pagesUsed (layout : Layout) (memory : Memory) : Nat :=
  (memory.cursor layout - layout.pages.startAddress) / pageSize

def Page.overflow : Stop := .panic "page allocation would overflow page memory!"

theorem WellFormed.cursor_eq (wellFormed : WellFormed layout memory place) :
    memory.cursor layout =
        layout.pages.startAddress + memory.pagesUsed layout * pageSize ∧
      memory.pagesUsed layout ≤ poolPages := by
  obtain ⟨aligned, first, _⟩ := wellFormed.cursor_bounds
  have start := layout.pages_start_dvd
  have last := layout.pages_end_eq
  have bound : memory.cursor layout ≤ layout.pages.endAddress := by
    unfold Memory.cursor
    rcases wellFormed.cursor with ⟨unused, _⟩ | ⟨low, high, _⟩
    · rw [if_pos unused]
      omega
    · split <;> omega
  simp only [Memory.pagesUsed, poolPages, pageSize] at *
  omega

theorem Memory.pagesUsed_write (layout : Layout) (memory : Memory) (pointer : Nat)
    (value : PageTableEntry) :
    (memory.write pointer value).pagesUsed layout = memory.pagesUsed layout := rfl

theorem Page.alloc_cases (wellFormed : WellFormed layout memory place) :
    (memory.pagesUsed layout < poolPages ∧ ∃ page after,
        Page.alloc layout memory = .ok (page, after) ∧
          after.pagesUsed layout = memory.pagesUsed layout + 1) ∨
      (memory.pagesUsed layout = poolPages ∧
        Page.alloc layout memory = .error Page.overflow) := by
  obtain ⟨cursor, bound⟩ := wellFormed.cursor_eq
  have last := layout.pages_end_eq
  have positive := layout.memoryStart_le_pages_start
  simp only [Image.memoryStart] at positive
  simp only [poolPages] at bound ⊢
  by_cases full : memory.cursor layout > layout.pages.endAddress - pageSize
  · refine .inr ⟨?_, ?_⟩
    · simp only [pageSize] at *
      omega
    · rw [Page.alloc, if_pos full]
      rfl
  · refine .inl ⟨?_, _, _, if_neg full, ?_⟩
    · simp only [pageSize] at *
      omega
    · have next : layout.target.uintptr (memory.cursor layout + pageSize) =
          memory.cursor layout + pageSize := by
        apply Target.uintptr_of_lt
        apply layout.address_lt_of_pool
        simp only [pageSize] at *
        omega
      rw [next, Memory.pagesUsed, Memory.cursor, Memory.wipe, if_neg]
      · simp only [pageSize] at *
        omega
      · simp only [pageSize] at *
        omega

namespace PageTable

theorem mapAddressLoop_counts (address : VirtualAddress)
    (wellFormed : WellFormed layout memory place) {level table root : Nat}
    {path : List (Slot layout.target)} (placed : place table = some (root, path))
    (remaining : path.length + level = layout.target.virtualMemoryTopLevel) :
    let pages := memory.pagesUsed layout + missing (memory.child layout.target) table
      (address.path layout.target level)
    (pages ≤ poolPages ∧ ∃ pointer after,
        mapAddressLoop layout address level table memory = .ok (pointer, after) ∧
          after.pagesUsed layout = pages) ∨
      (poolPages < pages ∧
        mapAddressLoop layout address level table memory = .error Page.overflow) := by
  induction level generalizing table memory place path with
  | zero =>
      refine .inl ⟨wellFormed.cursor_eq.2,
        entryAddress layout.target table (address.slot layout.target 0).val, memory,
        ?_, rfl⟩
      rw [mapAddressLoop, entryPointer_eq wellFormed placed address (Nat.zero_le _)]
      rfl
  | succ level induction =>
      have above : path.length < layout.target.virtualMemoryTopLevel := by omega
      rw [mapAddressLoop, entryPointer_eq wellFormed placed address (by omega),
        Outcome.ok_bind, VirtualAddress.path]
      generalize address.slot layout.target (level + 1) = slot
      have entryEq : memory.entry (entryAddress layout.target table slot.val) =
          memory.slotEntry layout.target table slot := rfl
      rcases wellFormed.inner table root path placed above slot with
        empty | ⟨next, linked, placedNext⟩
      · have lost : memory.child layout.target table slot = none :=
          Memory.child_of_invalid (by rw [empty])
        rw [missing_of_none _ lost, VirtualAddress.length_path, entryEq, empty,
          if_pos rfl]
        rcases Page.alloc_cases wellFormed with
          ⟨room, page, middle, taken, used⟩ | ⟨full, overflow⟩
        · have allocated := Page.alloc_allocated wellFormed taken
          have linkEq := linkEntry_eq allocated
            ((allocated.slotEntry_placed wellFormed placed slot).trans empty)
          have hang : Hang layout memory middle
              (middle.write (entryAddress layout.target table slot.val)
                (linkEntry layout middle
                  (entryAddress layout.target table slot.val) page))
              place table page root path slot :=
            ⟨wellFormed, allocated, placed, above, by rw [empty], by rw [linkEq]⟩
          have rest := induction hang.wellFormed
            (Link.placed_new place page root path slot)
            (by rw [List.length_append, List.length_singleton]; omega)
          rw [missing_of_empty hang.link.empty, VirtualAddress.length_path,
            Memory.pagesUsed_write, used, Nat.add_right_comm _ 1 level] at rest
          rw [taken, Outcome.ok_bind]
          exact rest
        · refine .inr ⟨by omega, ?_⟩
          rw [overflow]
          rfl
      · have child := wellFormed.child_link linked placedNext
        obtain ⟨valid, follows, _, fewer⟩ :=
          wellFormed.follow placed remaining child
        rw [missing_of_some _ child, entryEq, if_neg valid, follows, Outcome.ok_bind]
        exact induction wellFormed placedNext fewer

theorem mapAddress_virtualAligned {root physicalAddress : Nat}
    {address : VirtualAddress} {flags : PageTableEntryFlags}
    (mapped : mapAddress layout memory root address physicalAddress flags =
      .ok after) : pageSize ∣ address.value := by
  by_contra unaligned
  rw [Nat.dvd_iff_mod_eq_zero] at unaligned
  simp [mapAddress, unaligned] at mapped

theorem mapAddress_counts (wellFormed : WellFormed layout memory place) {call : MapCall}
    (rooted : place.Rooted call.root)
    (virtualAligned : pageSize ∣ call.virtualAddress.value)
    (physicalAligned : pageSize ∣ call.physicalAddress) :
    let pages := memory.pagesUsed layout + missing (memory.child layout.target)
      call.root (call.virtualAddress.inner layout.target)
    (pages ≤ poolPages ∧ ∃ after,
        mapAddress layout memory call.root call.virtualAddress call.physicalAddress
          call.flags = .ok after ∧ after.pagesUsed layout = pages) ∨
      (poolPages < pages ∧
        mapAddress layout memory call.root call.virtualAddress call.physicalAddress
          call.flags = .error Page.overflow) := by
  have counts := mapAddressLoop_counts call.virtualAddress wellFormed rooted
    (Nat.zero_add layout.target.virtualMemoryTopLevel)
  rw [Nat.dvd_iff_mod_eq_zero] at virtualAligned physicalAligned
  simp only [mapAddress, virtualAligned, physicalAligned, ne_eq, not_true_eq_false,
    if_false, Outcome.pure_eq_ok]
  rcases counts with ⟨room, pointer, after, looped, used⟩ | ⟨full, overflow⟩
  · refine .inl ⟨room, ?_⟩
    rw [looped]
    exact ⟨_, rfl, used⟩
  · refine .inr ⟨full, ?_⟩
    rw [overflow]
    rfl

end PageTable

/-- The tables of the roots and of the calls: one for each root, and one for each
start of the entry numbers of a call. -/
def tablesNeeded (target : Target) (roots : List Nat) (calls : List MapCall) :
    Finset (Nat × List (Slot target)) :=
  (roots.map (·, [])).toFinset ∪
    calls.toFinset.biUnion fun call =>
      stations call.root (call.virtualAddress.inner target)

section

variable {target : Target}

theorem mem_tablesNeeded {root : Nat} {path : List (Slot target)} :
    (root, path) ∈ tablesNeeded target roots calls ↔
      (root ∈ roots ∧ path = []) ∨ ∃ call ∈ calls, call.root = root ∧
        path <+: call.virtualAddress.inner target := by
  simp [tablesNeeded, eq_comm]

theorem tablesNeeded_concat (roots : List Nat) (calls : List MapCall)
    (call : MapCall) :
    tablesNeeded target roots (calls ++ [call]) = tablesNeeded target roots calls ∪
      stations call.root (call.virtualAddress.inner target) := by
  ext ⟨root, path⟩
  simp only [Finset.mem_union, mem_stations, mem_tablesNeeded, List.mem_append,
    List.mem_singleton, or_and_right, exists_or, exists_eq_left, or_assoc]
  rw [eq_comm (a := root)]

theorem tablesNeeded_cons (page : Nat) (roots : List Nat) (calls : List MapCall) :
    tablesNeeded target (page :: roots) calls =
      insert (page, []) (tablesNeeded target roots calls) := by
  ext ⟨root, path⟩
  simp only [Finset.mem_insert, mem_tablesNeeded, List.mem_cons, or_and_right,
    or_assoc, Prod.mk.injEq]

end

namespace Built

theorem needed_iff (built : Built layout memory roots calls place) {root : Nat}
    (member : root ∈ roots) {path : List (Slot layout.target)}
    (bound : path.length ≤ layout.target.virtualMemoryTopLevel) :
    (root, path) ∈ tablesNeeded layout.target roots calls ↔
      (walk (memory.child layout.target) root path).isSome := by
  rw [mem_tablesNeeded]
  constructor
  · rintro (⟨_, rfl⟩ | ⟨call, called, rfl, rest, further⟩)
    · rfl
    · have reached := built.reached call called
      rw [← further, walk_append] at reached
      exact Option.isSome_of_isSome_bind reached
  · intro found
    obtain ⟨table, walked⟩ := Option.isSome_iff_exists.mp found
    have placed := built.wellFormed.separated.place_of_walk
      (built.rooted root member) bound walked
    exact (built.needed table root path placed).imp_left fun empty => ⟨member, empty⟩

theorem card_concat (built : Built layout memory roots calls place) {call : MapCall}
    (member : call.root ∈ roots) :
    (tablesNeeded layout.target roots (calls ++ [call])).card =
      (tablesNeeded layout.target roots calls).card +
        missing (memory.child layout.target) call.root
          (call.virtualAddress.inner layout.target) := by
  rw [tablesNeeded_concat]
  apply card_union_stations
  intro front further
  apply built.needed_iff member
  have length := further.length_le
  rw [VirtualAddress.length_path] at length
  exact length

end Built

theorem Calls.pagesUsed_eq (run : Calls layout memory roots calls) :
    memory.pagesUsed layout = (tablesNeeded layout.target roots calls).card := by
  induction run with
  | @start memory unused =>
      rw [Memory.pagesUsed, Memory.cursor, if_pos unused, Nat.sub_self]
      rfl
  | @alloc memory after roots calls page run taken induction =>
      obtain ⟨place, built⟩ := Built.of_calls run
      rcases Page.alloc_cases built.wellFormed with
        ⟨_, page', after', taken', used⟩ | ⟨_, overflow⟩
      · rw [taken] at taken'
        cases taken'
        rw [used, induction, tablesNeeded_cons, Finset.card_insert_of_notMem]
        have fresh := (Page.alloc_allocated built.wellFormed taken).fresh
          built.wellFormed
        have isNew : page ∉ roots := by
          intro member
          have placed := built.rooted page member
          rw [Placement.Rooted, fresh] at placed
          contradiction
        rw [mem_tablesNeeded]
        rintro (⟨member, _⟩ | ⟨call, called, rfl, _⟩)
        · exact isNew member
        · exact isNew (built.known call called)
      · rw [taken] at overflow
        contradiction
  | @map memory after roots calls call run member mapped induction =>
      obtain ⟨place, built⟩ := Built.of_calls run
      rcases PageTable.mapAddress_counts built.wellFormed
          (built.rooted call.root member) (PageTable.mapAddress_virtualAligned mapped)
          (PageTable.mapAddress_aligned mapped) with
        ⟨_, after', mapped', used⟩ | ⟨_, overflow⟩
      · rw [mapped] at mapped'
        cases mapped'
        rw [used, induction, built.card_concat member]
      · rw [mapped] at overflow
        contradiction

/-- After any calls on any number of roots the pool has given out exactly one page
for each table that the roots and the calls need.  Another page, or another call,
is refused exactly when this makes more tables than the pool has pages, whatever
the order of the calls was. -/
theorem pages_account (run : Calls layout memory roots calls) :
    memory.pagesUsed layout = (tablesNeeded layout.target roots calls).card ∧
      (if (tablesNeeded layout.target roots calls).card < poolPages then
        ∃ page after, Page.alloc layout memory = .ok (page, after)
      else Page.alloc layout memory = .error Page.overflow) ∧
      ∀ call : MapCall, call.root ∈ roots →
        pageSize ∣ call.virtualAddress.value → pageSize ∣ call.physicalAddress →
          if (tablesNeeded layout.target roots (calls ++ [call])).card ≤ poolPages then
            ∃ after, PageTable.mapAddress layout memory call.root call.virtualAddress
              call.physicalAddress call.flags = .ok after
          else PageTable.mapAddress layout memory call.root call.virtualAddress
            call.physicalAddress call.flags = .error Page.overflow := by
  have used := run.pagesUsed_eq
  obtain ⟨place, built⟩ := Built.of_calls run
  refine ⟨used, ?_, fun call member virtualAligned physicalAligned => ?_⟩
  · rw [← used]
    rcases Page.alloc_cases built.wellFormed with
      ⟨room, page, after, taken, _⟩ | ⟨full, overflow⟩
    · rw [if_pos room]
      exact ⟨page, after, taken⟩
    · rw [if_neg (Nat.not_lt_of_le (Nat.le_of_eq full.symm))]
      exact overflow
  · rw [built.card_concat member, ← used]
    rcases PageTable.mapAddress_counts built.wellFormed
        (built.rooted call.root member) virtualAligned physicalAligned with
      ⟨room, after, mapped, _⟩ | ⟨full, overflow⟩
    · rw [if_pos room]
      exact ⟨after, mapped⟩
    · rw [if_neg (Nat.not_le_of_lt full)]
      exact overflow

theorem pages_account_sample : ∃ memory,
    Calls Layout.small memory [MapCall.sample.root] [MapCall.sample] ∧
      memory.pagesUsed Layout.small = 3 ∧
      ∃ page after, Page.alloc Layout.small memory = .ok (page, after) := by
  obtain ⟨memory, run⟩ := MapCall.sample_run
  obtain ⟨used, taken, _⟩ := pages_account run.calls
  have three : (tablesNeeded Layout.small.target [MapCall.sample.root]
      [MapCall.sample]).card = 3 := by decide +kernel
  rw [three] at used taken
  exact ⟨memory, run.calls, used, taken⟩

end Thos.VirtualMemory
