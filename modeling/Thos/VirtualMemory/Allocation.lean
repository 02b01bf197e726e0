import Thos.VirtualMemory.Forest

namespace Thos.VirtualMemory

open Thos.Kernel
open Data.RadixForest

/-! What `Page_alloc` does to a well-formed memory, and what hanging the new
page below a placed table does. -/

variable {layout : Layout} {memory after : Memory} {place : Tables layout.target}

structure Allocated (layout : Layout) (memory : Memory) (page : Nat)
    (after : Memory) : Prop where
  aligned : pageSize ∣ page
  first : layout.pages.startAddress ≤ page
  last : page + pageSize ≤ layout.pages.endAddress
  next : memory.nextPage ≤ page
  nextPage : after.nextPage = page + pageSize
  entry : after.entry = (memory.wipe page).entry

theorem WellFormed.cursor_bounds (wellFormed : WellFormed layout memory place) :
    pageSize ∣ memory.cursor layout ∧
      layout.pages.startAddress ≤ memory.cursor layout ∧
      memory.nextPage ≤ memory.cursor layout := by
  have positive := layout.memoryStart_le_pages_start
  simp only [Image.memoryStart] at positive
  unfold Memory.cursor
  rcases wellFormed.cursor with ⟨unused, _⟩ | ⟨low, _, aligned⟩
  · simp [unused, layout.pages_start_dvd]
  · have used : memory.nextPage ≠ 0 := by omega
    simp [used, low, aligned]

theorem Page.alloc_allocated (wellFormed : WellFormed layout memory place)
    {page : Nat} (allocated : Page.alloc layout memory = .ok (page, after)) :
    Allocated layout memory page after := by
  obtain ⟨aligned, first, next⟩ := wellFormed.cursor_bounds
  have endEq := layout.pages_end_eq
  simp only [Page.alloc] at allocated
  by_cases full : memory.cursor layout > layout.pages.endAddress - pageSize
  · rw [if_pos full] at allocated
    contradiction
  rw [if_neg full, Except.ok.injEq, Prod.mk.injEq] at allocated
  obtain ⟨rfl, rfl⟩ := allocated
  have last : memory.cursor layout + pageSize ≤ layout.pages.endAddress := by
    simp only [pageSize] at *
    omega
  refine ⟨aligned, first, last, next, ?_, rfl⟩
  exact Target.uintptr_of_lt (layout.address_lt_of_pool last)

namespace Allocated

variable {page : Nat}

theorem fresh (allocated : Allocated layout memory page after)
    (wellFormed : WellFormed layout memory place) : place page = none := by
  cases placed : place page with
  | none => rfl
  | some location =>
      obtain ⟨root, path⟩ := location
      have := (wellFormed.pool page root path placed).2.2
      have := allocated.next
      have := pageSize_pos
      omega

theorem slotEntry_new (allocated : Allocated layout memory page after)
    (slot : Slot layout.target) :
    after.slotEntry layout.target page slot = {} := by
  have bounds := entryAddress_bounds layout.target page slot
  simp [Memory.slotEntry, allocated.entry, Memory.wipe, bounds]

theorem slotEntry_placed (allocated : Allocated layout memory page after)
    (wellFormed : WellFormed layout memory place) {table root : Nat}
    {path : List (Slot layout.target)}
    (placed : place table = some (root, path)) (slot : Slot layout.target) :
    after.slotEntry layout.target table slot =
      memory.slotEntry layout.target table slot := by
  have bounds := entryAddress_bounds layout.target table slot
  have pool := (wellFormed.pool table root path placed).2.2
  have next := allocated.next
  have outside : ¬ (page ≤ PageTable.entryAddress layout.target table slot.val ∧
      PageTable.entryAddress layout.target table slot.val < page + pageSize) := by
    omega
  simp [Memory.slotEntry, allocated.entry, Memory.wipe, outside]

theorem wellFormed (allocated : Allocated layout memory page after)
    (before : WellFormed layout memory place) :
    WellFormed layout after place where
  cursor := by
    have first := allocated.first
    have aligned := allocated.aligned
    refine .inr ⟨?_, ?_, ?_⟩
    · rw [allocated.nextPage]
      omega
    · rw [allocated.nextPage]
      exact allocated.last
    · rw [allocated.nextPage]
      exact Nat.dvd_add aligned (Nat.dvd_refl pageSize)
  pool := by
    intro table root path placed
    have pool := before.pool table root path placed
    have next := allocated.next
    refine ⟨pool.1, pool.2.1, ?_⟩
    rw [allocated.nextPage]
    omega
  depth := before.depth
  inner := by
    intro table root path placed bound slot
    rw [allocated.slotEntry_placed before placed]
    exact before.inner table root path placed bound slot
  bottom := by
    intro table root path placed length slot
    rw [allocated.slotEntry_placed before placed]
    exact before.bottom table root path placed length slot

theorem rootWellFormed (allocated : Allocated layout memory page after)
    (before : WellFormed layout memory place) :
    WellFormed layout after (Function.update place page (some (page, []))) := by
  have kept := allocated.wellFormed before
  have fresh := allocated.fresh before
  have cases_placed : ∀ table root path,
      Function.update place page (some (page, [])) table = some (root, path) →
      (table = page ∧ path = []) ∨ place table = some (root, path) := by
    intro table root path placed
    by_cases same : table = page
    · subst same
      simp only [Function.update_self, Option.some.injEq, Prod.mk.injEq] at placed
      exact .inl ⟨rfl, placed.2.symm⟩
    · rw [Function.update_of_ne same] at placed
      exact .inr placed
  refine ⟨?_, ?_, ?_, ?_, ?_⟩
  · rcases kept.cursor with ⟨unused, _⟩ | bounds
    · have := allocated.nextPage
      have := pageSize_pos
      omega
    · exact .inr bounds
  · intro table root path placed
    rcases cases_placed table root path placed with ⟨rfl, _⟩ | old
    · rw [allocated.nextPage]
      exact ⟨allocated.aligned, allocated.first, Nat.le_refl _⟩
    · exact kept.pool table root path old
  · intro table root path placed
    rcases cases_placed table root path placed with ⟨_, rfl⟩ | old
    · exact Nat.zero_le _
    · exact kept.depth table root path old
  · intro table root path placed bound slot
    rcases cases_placed table root path placed with ⟨rfl, _⟩ | old
    · exact .inl (allocated.slotEntry_new slot)
    · rcases kept.inner table root path old bound slot with
        empty | ⟨next, linked, placedNext⟩
      · exact .inl empty
      · refine .inr ⟨next, linked, ?_⟩
        rw [Function.update_of_ne]
        · exact placedNext
        · rintro rfl
          rw [fresh] at placedNext
          contradiction
  · intro table root path placed length slot
    rcases cases_placed table root path placed with ⟨rfl, _⟩ | old
    · exact .inl (allocated.slotEntry_new slot)
    · exact kept.bottom table root path old length slot

theorem walk_eq (allocated : Allocated layout memory page after)
    (before : WellFormed layout memory place) {root : Nat}
    (rooted : place.Rooted root) {path : List (Slot layout.target)}
    (bound : path.length ≤ layout.target.virtualMemoryTopLevel) :
    walk (after.child layout.target) root path =
      walk (memory.child layout.target) root path := by
  apply before.separated.walk_congr ?_ rooted bound
  intro table root path placed _
  funext slot
  exact Memory.child_congr (allocated.slotEntry_placed before placed slot)

theorem lookup_eq (allocated : Allocated layout memory page after)
    (before : WellFormed layout memory place) {root : Nat}
    (rooted : place.Rooted root) (address : VirtualAddress) :
    after.leafEntry layout.target root address =
      memory.leafEntry layout.target root address := by
  have bound := Nat.le_of_eq (address.length_path layout.target
    layout.target.virtualMemoryTopLevel)
  simp only [Memory.leafEntry, lookup, allocated.walk_eq before rooted bound]
  cases reached : walk (memory.child layout.target) root
      (address.inner layout.target) with
  | none => rfl
  | some table =>
      have placed := before.separated.place_of_walk rooted bound reached
      exact Memory.leaf_congr (allocated.slotEntry_placed before placed _)

theorem leafEntry_new (allocated : Allocated layout memory page after)
    (address : VirtualAddress) :
    after.leafEntry layout.target page address = none := by
  have positive : address.inner layout.target =
      address.slot layout.target layout.target.virtualMemoryTopLevel ::
        address.path layout.target
          (layout.target.virtualMemoryTopLevel - 1) := by
    cases layout.target <;> rfl
  have unlinked : after.child layout.target page
      (address.slot layout.target layout.target.virtualMemoryTopLevel) = none :=
    Memory.child_of_invalid (by rw [allocated.slotEntry_new])
  rw [Memory.leafEntry, lookup, positive, walk_cons, unlinked]
  rfl

end Allocated

/-- `map_address` keeps what is placed and linked and all that was mapped. -/
structure Grows (layout : Layout) (memory after : Memory)
    (place place' : Tables layout.target) : Prop where
  placed : ∀ table location, place table = some location →
    place' table = some location
  links : ∀ table root path slot next, place table = some (root, path) →
    path.length < layout.target.virtualMemoryTopLevel →
      memory.child layout.target table slot = some next →
        after.child layout.target table slot = some next
  leaves : ∀ root address, place.Rooted root →
    after.leafEntry layout.target root address =
      memory.leafEntry layout.target root address

namespace Grows

theorem refl (memory : Memory) (place : Tables layout.target) :
    Grows layout memory memory place place :=
  ⟨fun _ _ placed => placed, fun _ _ _ _ _ _ _ linked => linked,
    fun _ _ _ => rfl⟩

theorem trans {middle : Memory} {place' place'' : Tables layout.target}
    (first : Grows layout memory middle place place')
    (second : Grows layout middle after place' place'') :
    Grows layout memory after place place'' where
  placed table location here :=
    second.placed table location (first.placed table location here)
  links table root path slot next here bound linked :=
    second.links table root path slot next (first.placed _ _ here) bound
      (first.links table root path slot next here bound linked)
  leaves root address rooted :=
    (second.leaves root address (first.placed _ _ rooted)).trans
      (first.leaves root address rooted)

end Grows

section

variable {page table root : Nat} {path : List (Slot layout.target)}
  {slot : Slot layout.target}

/-- The entry that `map_address` writes to hang a new page below an invalid
inner entry. -/
def linkEntry (layout : Layout) (memory : Memory) (pointer page : Nat) :
    PageTableEntry :=
  let entry := (memory.entry pointer).setPhysicalPageNum layout.target
    (page / pageSize)
  { entry with flags := { entry.flags with valid := true } }

theorem Layout.pageNumber_lt (layout : Layout) {page : Nat}
    (bound : page ≤ layout.pages.endAddress) :
    page / pageSize < 2 ^ layout.target.physicalPageNumberBitwidth := by
  have := layout.pages_end_lt
  have := layout.target.virtualPages_le
  have : page / pageSize < layout.target.virtualPages := by
    apply Nat.div_lt_of_lt_mul
    omega
  omega

theorem linkEntry_eq (allocated : Allocated layout memory page after)
    (empty : after.slotEntry layout.target table slot = {}) :
    linkEntry layout after
      (PageTable.entryAddress layout.target table slot.val) page = .link page := by
  have bound : page ≤ layout.pages.endAddress := by
    have := allocated.last
    omega
  have number := Nat.mod_eq_of_lt (layout.pageNumber_lt bound)
  simp only [Memory.slotEntry] at empty
  simp [linkEntry, empty, PageTableEntry.setPhysicalPageNum, number,
    PageTableEntry.link]

end

structure Hang (layout : Layout) (memory after final : Memory)
    (place : Tables layout.target) (table page root : Nat)
    (path : List (Slot layout.target)) (slot : Slot layout.target) : Prop where
  before : WellFormed layout memory place
  allocated : Allocated layout memory page after
  placed : place table = some (root, path)
  above : path.length < layout.target.virtualMemoryTopLevel
  invalid : (memory.slotEntry layout.target table slot).flags.valid = false
  written : final = after.write
    (PageTable.entryAddress layout.target table slot.val) (.link page)

namespace Hang

variable {final : Memory} {page table root : Nat}
  {path : List (Slot layout.target)} {slot : Slot layout.target}

theorem ne_page
    (hang : Hang layout memory after final place table page root path slot)
    {other : Nat} {location : Nat × List (Slot layout.target)}
    (here : place other = some location) : other ≠ page := by
  rintro rfl
  rw [hang.allocated.fresh hang.before] at here
  contradiction

theorem slotEntry_link
    (hang : Hang layout memory after final place table page root path slot) :
    final.slotEntry layout.target table slot = .link page := by
  rw [hang.written]
  simp [Memory.slotEntry]

theorem slotEntry_new
    (hang : Hang layout memory after final place table page root path slot)
    (other : Slot layout.target) :
    final.slotEntry layout.target page other = {} := by
  rw [hang.written, ← hang.allocated.slotEntry_new other]
  apply Memory.entry_write_of_ne
  intro equal
  have same := (entryAddress_injective layout.target hang.allocated.aligned
    (hang.before.pool table root path hang.placed).1 equal).1
  exact hang.ne_page hang.placed same.symm

theorem slotEntry_old
    (hang : Hang layout memory after final place table page root path slot)
    {other otherRoot : Nat} {otherPath : List (Slot layout.target)}
    {otherSlot : Slot layout.target}
    (here : place other = some (otherRoot, otherPath))
    (different : (other, otherSlot) ≠ (table, slot)) :
    final.slotEntry layout.target other otherSlot =
      memory.slotEntry layout.target other otherSlot := by
  rw [hang.written, (hang.allocated.wellFormed hang.before).slotEntry_write_of_ne
    (.link page) hang.placed here different]
  exact hang.allocated.slotEntry_placed hang.before here otherSlot

theorem child_link
    (hang : Hang layout memory after final place table page root path slot) :
    final.child layout.target table slot = some page := by
  have linked : layout.target.uintptr
      ((PageTableEntry.link page).physicalPageNum * pageSize) = page := by
    simp only [PageTableEntry.link, Nat.div_mul_cancel hang.allocated.aligned]
    apply Target.uintptr_of_lt
    apply layout.address_lt_of_pool
    have := hang.allocated.last
    omega
  simp only [Memory.child, hang.slotEntry_link, linked]
  rfl

theorem link
    (hang : Hang layout memory after final place table page root path slot) :
    Link layout.target.virtualMemoryTopLevel (memory.child layout.target)
      (final.child layout.target) place table page slot root path where
  parentPlaced := hang.placed
  above := hang.above
  fresh := hang.allocated.fresh hang.before
  unused := Memory.child_of_invalid hang.invalid
  linked := hang.child_link
  empty other := Memory.child_of_invalid (by rw [hang.slotEntry_new])
  frame := by
    intro other otherSlot here different
    obtain ⟨⟨otherRoot, otherPath⟩, placedOther⟩ :=
      Option.ne_none_iff_exists'.mp here
    exact Memory.child_congr (hang.slotEntry_old placedOther different)

theorem placed_cases
    (hang : Hang layout memory after final place table page root path slot)
    {other otherRoot : Nat} {otherPath : List (Slot layout.target)}
    (here : Link.placed place page root path slot other =
      some (otherRoot, otherPath)) :
    (other = page ∧ otherPath = path ++ [slot]) ∨
      place other = some (otherRoot, otherPath) := by
  by_cases same : other = page
  · subst same
    rw [Link.placed_new] at here
    cases here
    exact .inl ⟨rfl, rfl⟩
  · rw [Link.placed_of_ne place root path slot same] at here
    exact .inr here

/-- Only the linked entry of the old tables changes, and it lies above the
bottom. -/
theorem ne_slot_of_bottom
    (hang : Hang layout memory after final place table page root path slot)
    {other otherRoot : Nat} {otherPath : List (Slot layout.target)}
    {otherSlot : Slot layout.target}
    (here : place other = some (otherRoot, otherPath))
    (length : otherPath.length = layout.target.virtualMemoryTopLevel) :
    (other, otherSlot) ≠ (table, slot) := by
  intro equal
  obtain ⟨rfl, _⟩ := Prod.mk.inj equal
  have above := hang.above
  rw [hang.placed] at here
  cases here
  omega

theorem wellFormed
    (hang : Hang layout memory after final place table page root path slot) :
    WellFormed layout final (Link.placed place page root path slot) where
  cursor := by
    rw [hang.written, Memory.nextPage_write]
    rcases (hang.allocated.wellFormed hang.before).cursor with
      ⟨unused, _⟩ | bounds
    · have := hang.allocated.nextPage
      have := pageSize_pos
      omega
    · exact .inr bounds
  pool := by
    intro other otherRoot otherPath here
    rw [hang.written, Memory.nextPage_write]
    rcases hang.placed_cases here with ⟨rfl, _⟩ | old
    · rw [hang.allocated.nextPage]
      exact ⟨hang.allocated.aligned, hang.allocated.first, Nat.le_refl _⟩
    · exact (hang.allocated.wellFormed hang.before).pool other otherRoot
        otherPath old
  depth := by
    intro other otherRoot otherPath here
    rcases hang.placed_cases here with ⟨_, rfl⟩ | old
    · rw [List.length_append]
      exact hang.above
    · exact hang.before.depth other otherRoot otherPath old
  inner := by
    intro other otherRoot otherPath here bound otherSlot
    rcases hang.placed_cases here with ⟨rfl, _⟩ | old
    · exact .inl (hang.slotEntry_new otherSlot)
    by_cases isLink : (other, otherSlot) = (table, slot)
    · obtain ⟨rfl, rfl⟩ := Prod.mk.inj isLink
      have location := hang.placed.symm.trans old
      cases location
      exact .inr ⟨page, hang.slotEntry_link,
        Link.placed_new place page root path otherSlot⟩
    · rw [hang.slotEntry_old old isLink]
      rcases hang.before.inner other otherRoot otherPath old bound otherSlot with
        empty | ⟨next, linked, placedNext⟩
      · exact .inl empty
      · exact .inr ⟨next, linked, hang.link.placed_of_some placedNext⟩
  bottom := by
    intro other otherRoot otherPath here length otherSlot
    rcases hang.placed_cases here with ⟨rfl, _⟩ | old
    · exact .inl (hang.slotEntry_new otherSlot)
    · rw [hang.slotEntry_old old (hang.ne_slot_of_bottom old length)]
      exact hang.before.bottom other otherRoot otherPath old length otherSlot

theorem grows
    (hang : Hang layout memory after final place table page root path slot) :
    Grows layout memory final place (Link.placed place page root path slot) where
  placed _ _ here := hang.link.placed_of_some here
  links := by
    intro other otherRoot otherPath otherSlot next here _ linked
    rw [hang.link.frame other otherSlot (by simp [here])]
    · exact linked
    · intro isLink
      obtain ⟨rfl, rfl⟩ := Prod.mk.inj isLink
      rw [hang.link.unused] at linked
      contradiction
  leaves := by
    intro otherRoot address rooted
    apply hang.link.lookup_eq hang.before.separated ?_ ?_ rooted
      (address.length_path layout.target _)
    · intro other otherRoot otherPath otherSlot here length
      exact Memory.leaf_congr
        (hang.slotEntry_old here (hang.ne_slot_of_bottom here length))
    · intro other
      exact Memory.leaf_of_invalid (by rw [hang.slotEntry_new])

end Hang

end Thos.VirtualMemory
