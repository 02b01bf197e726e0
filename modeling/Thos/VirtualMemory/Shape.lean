import Thos.VirtualMemory.Calls

namespace Thos.VirtualMemory

open Thos.Kernel
open Data.RadixForest

/-! The tables as the hardware walker reads them: a valid entry that is no leaf
is a pointer. -/

/-- `PageTableEntryFlags_is_leaf`. -/
def PageTableEntryFlags.isLeaf (flags : PageTableEntryFlags) : Bool :=
  flags.read || flags.write || flags.execute

namespace Memory

def pointer (target : Target) (memory : Memory) (table : Nat) (slot : Slot target) :
    Option Nat :=
  if (memory.slotEntry target table slot).flags.valid &&
      !(memory.slotEntry target table slot).flags.isLeaf then
    some (target.uintptr
      ((memory.slotEntry target table slot).physicalPageNum * pageSize))
  else none

def Chain (target : Target) (memory : Memory) (root : Nat)
    (path : List (Slot target)) (table : Nat) : Prop :=
  walk (memory.pointer target) root path = some table

/-- `page` has been returned by `Page_alloc`; see `returned_alloc`. -/
def Returned (layout : Layout) (memory : Memory) (page : Nat) : Prop :=
  pageSize ∣ page ∧ layout.pages.startAddress ≤ page ∧
    page + pageSize ≤ memory.nextPage

theorem returned_alloc {layout : Layout} {memory after : Memory}
    {place : Tables layout.target} (wellFormed : WellFormed layout memory place)
    {page : Nat} (allocated : Page.alloc layout memory = .ok (page, after))
    (other : Nat) :
    after.Returned layout other ↔ memory.Returned layout other ∨ other = page := by
  have cursor : page = memory.cursor layout := by
    simp only [Page.alloc] at allocated
    split at allocated
    · contradiction
    · cases allocated
      rfl
  have allocated := Page.alloc_allocated wellFormed allocated
  have aligned := allocated.aligned
  have first := allocated.first
  have next := allocated.next
  unfold Returned
  rw [allocated.nextPage]
  constructor
  · rintro ⟨otherAligned, otherFirst, bound⟩
    by_cases same : other = page
    · exact .inr same
    · refine .inl ⟨otherAligned, otherFirst, ?_⟩
      unfold Memory.cursor at cursor
      split at cursor
      · simp only [pageSize] at *
        omega
      · simp only [pageSize] at *
        omega
  · rintro (⟨otherAligned, otherFirst, bound⟩ | same)
    · exact ⟨otherAligned, otherFirst, by omega⟩
    · rw [same]
      exact ⟨aligned, first, Nat.le_refl _⟩

end Memory

/-- An inner entry: no permission, and a page of `Page_alloc` that is no root. -/
structure PageTableEntry.Points (layout : Layout) (memory : Memory)
    (roots : List Nat) (entry : PageTableEntry) : Prop where
  valid : entry.flags.valid = true
  read : entry.flags.read = false
  write : entry.flags.write = false
  execute : entry.flags.execute = false
  linked : ∃ page, entry.getLinked layout.target = .ok page ∧
    memory.Returned layout page ∧ page ∉ roots

structure ForestShape (layout : Layout) (memory : Memory) (roots : List Nat) :
    Prop where
  inner : ∀ root ∈ roots, ∀ path table, memory.Chain layout.target root path table →
    path.length < layout.target.virtualMemoryTopLevel → ∀ slot,
      memory.slotEntry layout.target table slot = {} ∨
        (memory.slotEntry layout.target table slot).Points layout memory roots
  /-- Two entries above level 0 never point to the same page. -/
  injective : ∀ first ∈ roots, ∀ second ∈ roots,
    ∀ firstPath secondPath firstTable secondTable,
    memory.Chain layout.target first firstPath firstTable →
    memory.Chain layout.target second secondPath secondTable →
    firstPath.length < layout.target.virtualMemoryTopLevel →
    secondPath.length < layout.target.virtualMemoryTopLevel →
    ∀ firstSlot secondSlot page,
    memory.pointer layout.target firstTable firstSlot = some page →
    memory.pointer layout.target secondTable secondSlot = some page →
      firstTable = secondTable ∧ firstSlot = secondSlot
  /-- A chain that leaves the root and ends has one step for each level. -/
  ends : ∀ root ∈ roots, ∀ path table, memory.Chain layout.target root path table →
    path ≠ [] → (∀ slot, memory.pointer layout.target table slot = none) →
      path.length = layout.target.virtualMemoryTopLevel
  bounded : ∀ root ∈ roots, ∀ path table,
    memory.Chain layout.target root path table →
      path.length ≤ layout.target.virtualMemoryTopLevel
  bottom : ∀ root ∈ roots, ∀ path table, memory.Chain layout.target root path table →
    path.length = layout.target.virtualMemoryTopLevel → ∀ slot,
      memory.slotEntry layout.target table slot = {} ∨
        ((memory.slotEntry layout.target table slot).flags.valid = true ∧
          (memory.slotEntry layout.target table slot).flags.read = true)
  readable : ∀ root ∈ roots, ∀ path table,
    memory.Chain layout.target root path table → ∀ slot,
      (memory.slotEntry layout.target table slot).flags.write = true →
        (memory.slotEntry layout.target table slot).flags.read = true

variable {layout : Layout} {memory : Memory} {roots : List Nat}
  {calls : List MapCall} {place : Tables layout.target}

namespace WellFormed

variable {table root : Nat} {path : List (Slot layout.target)}
  {slot : Slot layout.target}

theorem pointer_eq_child (wellFormed : WellFormed layout memory place)
    (placed : place table = some (root, path))
    (above : path.length < layout.target.virtualMemoryTopLevel) :
    memory.pointer layout.target table slot =
      memory.child layout.target table slot := by
  unfold Memory.pointer Memory.child
  rcases wellFormed.inner table root path placed above slot with
    empty | ⟨next, linked, -⟩
  · rw [empty]
    rfl
  · rw [linked]
    rfl

theorem pointer_bottom (wellFormed : WellFormed layout memory place)
    (placed : place table = some (root, path))
    (length : path.length = layout.target.virtualMemoryTopLevel) :
    memory.pointer layout.target table slot = none := by
  unfold Memory.pointer
  rcases wellFormed.bottom table root path placed length slot with empty | isLeaf
  · rw [empty]
    rfl
  · rw [PageTableEntryFlags.isLeaf, isLeaf.read, isLeaf.valid]
    rfl

theorem place_of_chain (wellFormed : WellFormed layout memory place)
    (rooted : place.Rooted root)
    (chain : memory.Chain layout.target root path table) :
    place table = some (root, path) ∧
      path.length ≤ layout.target.virtualMemoryTopLevel := by
  induction path using List.reverseRecOn generalizing table with
  | nil =>
      cases chain
      exact ⟨rooted, Nat.zero_le _⟩
  | append_singleton path slot induction =>
      rw [Memory.Chain, walk_concat] at chain
      obtain ⟨middle, walked, linked⟩ := Option.bind_eq_some_iff.mp chain
      obtain ⟨placed, bound⟩ := induction walked
      have above : path.length < layout.target.virtualMemoryTopLevel := by
        rcases Nat.lt_or_eq_of_le bound with above | length
        · exact above
        · rw [wellFormed.pointer_bottom placed length] at linked
          contradiction
      rw [wellFormed.pointer_eq_child placed above] at linked
      refine ⟨wellFormed.separated middle root path placed above slot table linked,
        ?_⟩
      rw [List.length_append, List.length_singleton]
      exact above

theorem chain_iff_walk (wellFormed : WellFormed layout memory place)
    (rooted : place.Rooted root)
    (bound : path.length ≤ layout.target.virtualMemoryTopLevel) :
    memory.Chain layout.target root path table ↔
      walk (memory.child layout.target) root path = some table := by
  rw [Memory.Chain, wellFormed.separated.walk_congr ?_ rooted bound]
  intro middle middleRoot middlePath placed above
  funext slot
  exact wellFormed.pointer_eq_child placed above

end WellFormed

namespace Built

variable {root table : Nat} {path : List (Slot layout.target)}

theorem pointer_of_inner (built : Built layout memory roots calls place)
    (member : root ∈ roots) (chain : memory.Chain layout.target root path table)
    (left : path ≠ [])
    (above : path.length < layout.target.virtualMemoryTopLevel) :
    ∃ slot, memory.pointer layout.target table slot ≠ none := by
  have rooted := built.rooted root member
  have placed := (built.wellFormed.place_of_chain rooted chain).1
  have walked := (built.wellFormed.chain_iff_walk rooted
    (Nat.le_of_lt above)).mp chain
  rcases built.needed table root path placed with
    empty | ⟨call, called, rfl, rest, further⟩
  · exact absurd empty left
  have length : (call.virtualAddress.inner layout.target).length =
      layout.target.virtualMemoryTopLevel := VirtualAddress.length_path ..
  cases rest with
  | nil =>
      rw [← further, List.append_nil] at length
      omega
  | cons slot rest =>
      refine ⟨slot, ?_⟩
      have reached := built.reached call called
      rw [← further, walk_append, walked, Option.bind_some, walk_cons] at reached
      rw [built.wellFormed.pointer_eq_child placed above]
      intro unlinked
      rw [unlinked] at reached
      contradiction

theorem points (built : Built layout memory roots calls place)
    (placed : place table = some (root, path))
    (above : path.length < layout.target.virtualMemoryTopLevel)
    (slot : Slot layout.target) :
    memory.slotEntry layout.target table slot = {} ∨
      (memory.slotEntry layout.target table slot).Points layout memory roots := by
  rcases built.wellFormed.inner table root path placed above slot with
    empty | ⟨next, linked, placedNext⟩
  · exact .inl empty
  · rw [linked]
    refine .inr ⟨rfl, rfl, rfl, rfl, next, ?_, ?_, ?_⟩
    · rw [PageTableEntry.getLinked, if_neg (by simp [PageTableEntry.link]),
        built.wellFormed.linked_eq placedNext]
    · exact built.wellFormed.pool next root _ placedNext
    · intro member
      have atRoot := (built.rooted next member).symm.trans placedNext
      simp at atRoot

theorem forestShape (built : Built layout memory roots calls place) :
    ForestShape layout memory roots := by
  have wellFormed := built.wellFormed
  constructor
  · intro root member path table chain above slot
    exact built.points (wellFormed.place_of_chain (built.rooted root member)
      chain).1 above slot
  · intro first firstMember second secondMember firstPath secondPath firstTable
      secondTable firstChain secondChain firstAbove secondAbove firstSlot
      secondSlot page firstPoints secondPoints
    have firstRooted := built.rooted first firstMember
    have secondRooted := built.rooted second secondMember
    have firstPlaced := (wellFormed.place_of_chain firstRooted firstChain).1
    have secondPlaced := (wellFormed.place_of_chain secondRooted secondChain).1
    rw [wellFormed.pointer_eq_child firstPlaced firstAbove] at firstPoints
    rw [wellFormed.pointer_eq_child secondPlaced secondAbove] at secondPoints
    have firstPage := wellFormed.separated _ _ _ firstPlaced firstAbove _ _
      firstPoints
    have secondPage := wellFormed.separated _ _ _ secondPlaced secondAbove _ _
      secondPoints
    have same := firstPage.symm.trans secondPage
    rw [Option.some.injEq, Prod.mk.injEq] at same
    obtain ⟨rfl, samePath⟩ := same
    obtain ⟨rfl, sameSlot⟩ := List.append_inj' samePath rfl
    refine ⟨?_, List.singleton_inj.mp sameSlot⟩
    exact Option.some.inj (firstChain.symm.trans secondChain)
  · intro root member path table chain left stuck
    by_contra short
    have placed := wellFormed.place_of_chain (built.rooted root member) chain
    obtain ⟨slot, points⟩ := built.pointer_of_inner member chain left
      (Nat.lt_of_le_of_ne placed.2 short)
    exact points (stuck slot)
  · intro root member path table chain
    exact (wellFormed.place_of_chain (built.rooted root member) chain).2
  · intro root member path table chain length slot
    have placed := wellFormed.place_of_chain (built.rooted root member) chain
    rcases wellFormed.bottom table root path placed.1 length slot with
      empty | isLeaf
    · exact .inl empty
    · exact .inr ⟨isLeaf.valid, isLeaf.read⟩
  · intro root member path table chain slot writable
    have placed := wellFormed.place_of_chain (built.rooted root member) chain
    rcases Nat.lt_or_eq_of_le placed.2 with above | length
    · rcases built.points placed.1 above slot with empty | points
      · rw [empty] at writable
        contradiction
      · rw [points.write] at writable
        contradiction
    · rcases wellFormed.bottom table root path placed.1 length slot with
        empty | isLeaf
      · rw [empty] at writable
        contradiction
      · exact isLeaf.read

end Built

/-- Every history of calls, on both targets, leaves a forest of the shape the
hardware walker needs. -/
theorem calls_leave_forest (run : Calls layout memory roots calls) :
    ForestShape layout memory roots := by
  obtain ⟨place, built⟩ := Built.of_calls run
  exact built.forestShape

theorem calls_leave_forest_sample : ∃ memory,
    Calls Layout.small memory MapCall.sampleRoots MapCall.samples ∧
      ForestShape Layout.small memory MapCall.sampleRoots := by
  obtain ⟨memory, run⟩ := MapCall.samples_run
  exact ⟨memory, run.calls, calls_leave_forest run.calls⟩

end Thos.VirtualMemory
