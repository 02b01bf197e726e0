import Thos.VirtualMemory.Allocation

namespace Thos.VirtualMemory

open Thos.Kernel
open Data.RadixForest

/-! What `map_address` and `get_physical_address` do on well-formed tables. -/

variable {layout : Layout} {memory after : Memory} {place : Tables layout.target}

namespace PageTable

theorem entryPointer_eq (wellFormed : WellFormed layout memory place)
    {table root : Nat} {path : List (Slot layout.target)}
    (placed : place table = some (root, path)) (address : VirtualAddress)
    {level : Nat} (bound : level ≤ layout.target.virtualMemoryTopLevel) :
    entryPointer layout.target address level table =
      .ok (entryAddress layout.target table
        (address.slot layout.target level).val) := by
  simp [entryPointer, address.getLevelEntryNumber_eq layout.target bound,
    wellFormed.table_ne_zero placed]

/-- What the loop of `map_address` reaches from a placed table: the bottom
table at the end of the remaining slots, with everything else kept. -/
structure Descent (layout : Layout) (memory after : Memory)
    (place : Tables layout.target) (address : VirtualAddress)
    (level table pointer : Nat) (place' : Tables layout.target)
    (bottom : Nat) : Prop where
  wellFormed : WellFormed layout after place'
  grows : Grows layout memory after place place'
  pointer : pointer = entryAddress layout.target bottom
    (address.slot layout.target 0).val
  walked : walk (after.child layout.target) table
    (address.path layout.target level) = some bottom

structure Extends (place place' : Tables layout.target) (root : Nat)
    (path : List (Slot layout.target)) : Prop where
  cases : ∀ table tableRoot tablePath,
    place' table = some (tableRoot, tablePath) →
      place table = some (tableRoot, tablePath) ∨
        (tableRoot = root ∧ tablePath <+: path)

theorem Extends.refl (place : Tables layout.target) (root : Nat)
    (path : List (Slot layout.target)) : Extends place place root path :=
  ⟨fun _ _ _ placed => .inl placed⟩

theorem Extends.trans {place' place'' : Tables layout.target} {root : Nat}
    {path : List (Slot layout.target)} (first : Extends place place' root path)
    (second : Extends place' place'' root path) :
    Extends place place'' root path where
  cases := by
    intro table tableRoot tablePath placed
    cases second.cases table tableRoot tablePath placed with
    | inl older => exact first.cases table tableRoot tablePath older
    | inr new => exact .inr new

theorem mapAddressLoop_extends (address : VirtualAddress) {level table root : Nat}
    {path : List (Slot layout.target)} {pointer : Nat}
    (wellFormed : WellFormed layout memory place)
    (placed : place table = some (root, path))
    (remaining : path.length + level = layout.target.virtualMemoryTopLevel)
    (looped : mapAddressLoop layout address level table memory =
      .ok (pointer, after)) :
    ∃ place' bottom, Descent layout memory after place address level table
        pointer place' bottom ∧
      Extends place place' root (path ++ address.path layout.target level) := by
  induction level generalizing table memory place path with
  | zero =>
      simp only [mapAddressLoop, entryPointer_eq wellFormed placed address
        (Nat.zero_le _), Outcome.ok_bind, Outcome.pure_eq_ok, Except.ok.injEq,
        Prod.mk.injEq] at looped
      obtain ⟨rfl, rfl⟩ := looped
      exact ⟨place, table, ⟨wellFormed, .refl memory place, rfl, rfl⟩,
        .refl place root _⟩
  | succ level induction =>
      have above : path.length < layout.target.virtualMemoryTopLevel := by omega
      rw [mapAddressLoop, entryPointer_eq wellFormed placed address (by omega),
        Outcome.ok_bind] at looped
      rw [VirtualAddress.path]
      generalize slotEq : address.slot layout.target (level + 1) = slot at looped ⊢
      have entryEq : memory.entry (entryAddress layout.target table slot.val) =
          memory.slotEntry layout.target table slot := rfl
      have further : path ++ [slot] ++ address.path layout.target level =
          path ++ slot :: address.path layout.target level := by
        rw [List.append_assoc, List.singleton_append]
      rcases wellFormed.inner table root path placed above slot with
        empty | ⟨next, linked, placedNext⟩
      · rw [entryEq, empty, if_pos rfl] at looped
        obtain ⟨⟨page, middle⟩, allocated, looped⟩ :=
          Outcome.bind_eq_ok.mp looped
        have allocated := Page.alloc_allocated wellFormed allocated
        have linkEq := linkEntry_eq allocated
          ((allocated.slotEntry_placed wellFormed placed slot).trans empty)
        have hang : Hang layout memory middle
            (middle.write (entryAddress layout.target table slot.val)
              (linkEntry layout middle
                (entryAddress layout.target table slot.val) page))
            place table page root path slot :=
          ⟨wellFormed, allocated, placed, above, by rw [empty], by rw [linkEq]⟩
        have newPlaced := Link.placed_new place page root path slot
        obtain ⟨place', bottom, descent, extends'⟩ := induction hang.wellFormed
          newPlaced (by rw [List.length_append, List.length_singleton]; omega)
          looped
        rw [further] at extends'
        refine ⟨place', bottom, ⟨descent.wellFormed,
          hang.grows.trans descent.grows, descent.pointer, ?_⟩, ?_⟩
        · have linked := descent.grows.links table root path slot page
            (hang.grows.placed _ _ placed) above hang.child_link
          rw [VirtualAddress.path, slotEq, walk_cons, linked]
          exact descent.walked
        · refine .trans ⟨?_⟩ extends'
          intro other otherRoot otherPath here
          by_cases same : other = page
          · rw [same, newPlaced] at here
            cases here
            rw [← further]
            exact .inr ⟨rfl, List.prefix_append _ _⟩
          · rw [Link.placed_of_ne place root path slot same] at here
            exact .inl here
      · have child := wellFormed.child_link linked placedNext
        obtain ⟨valid, follows, _, fewer⟩ :=
          wellFormed.follow placed remaining child
        rw [entryEq, if_neg valid, follows, Outcome.ok_bind] at looped
        obtain ⟨place', bottom, descent, extends'⟩ := induction wellFormed
          placedNext fewer looped
        rw [further] at extends'
        refine ⟨place', bottom, ⟨descent.wellFormed, descent.grows,
          descent.pointer, ?_⟩, extends'⟩
        have kept := descent.grows.links table root path slot next placed above child
        rw [VirtualAddress.path, slotEq, walk_cons, kept]
        exact descent.walked

end PageTable

/-- `value` is written to the slot of a bottom table. -/
structure Put (layout : Layout) (memory : Memory) (place : Tables layout.target)
    (root bottom : Nat) (address : VirtualAddress) : Prop where
  before : WellFormed layout memory place
  rooted : place.Rooted root
  walked : walk (memory.child layout.target) root
    (address.inner layout.target) = some bottom

namespace Put

variable {root bottom : Nat} {address : VirtualAddress}

def final (memory : Memory) (target : Target) (bottom : Nat)
    (address : VirtualAddress) (value : PageTableEntry) : Memory :=
  memory.write
    (PageTable.entryAddress target bottom (address.slot target 0).val) value

theorem placed (put : Put layout memory place root bottom address) :
    place bottom = some (root, address.inner layout.target) :=
  put.before.separated.place_of_walk put.rooted
    (Nat.le_of_eq (address.length_path layout.target _)) put.walked

theorem slotEntry_same (memory : Memory) (target : Target) (bottom : Nat)
    (address : VirtualAddress) (value : PageTableEntry) :
    (final memory target bottom address value).slotEntry target bottom
      (address.slot target 0) = value := by
  simp [final, Memory.slotEntry]

theorem slotEntry_other (put : Put layout memory place root bottom address)
    (value : PageTableEntry) {other otherRoot : Nat}
    {otherPath : List (Slot layout.target)} {otherSlot : Slot layout.target}
    (here : place other = some (otherRoot, otherPath))
    (different : (other, otherSlot) ≠ (bottom, address.slot layout.target 0)) :
    (final memory layout.target bottom address value).slotEntry layout.target
        other otherSlot = memory.slotEntry layout.target other otherSlot :=
  put.before.slotEntry_write_of_ne value put.placed here different

theorem ne_bottom_of_inner (put : Put layout memory place root bottom address)
    {other otherRoot : Nat} {otherPath : List (Slot layout.target)}
    (here : place other = some (otherRoot, otherPath))
    (above : otherPath.length < layout.target.virtualMemoryTopLevel) :
    other ≠ bottom := by
  rintro rfl
  have location := put.placed.symm.trans here
  cases location
  simp at above

theorem wellFormed (put : Put layout memory place root bottom address)
    {value : PageTableEntry} (isLeaf : value.IsLeaf) :
    WellFormed layout (final memory layout.target bottom address value) place where
  cursor := put.before.cursor
  pool := put.before.pool
  depth := put.before.depth
  inner := by
    intro other otherRoot otherPath here above otherSlot
    have different := put.ne_bottom_of_inner here above
    rw [put.slotEntry_other value here (by simp [different])]
    exact put.before.inner other otherRoot otherPath here above otherSlot
  bottom := by
    intro other otherRoot otherPath here length otherSlot
    by_cases same : (other, otherSlot) = (bottom, address.slot layout.target 0)
    · obtain ⟨rfl, rfl⟩ := Prod.mk.inj same
      rw [slotEntry_same]
      exact .inr isLeaf
    · rw [put.slotEntry_other value here same]
      exact put.before.bottom other otherRoot otherPath here length otherSlot

theorem child_eq (put : Put layout memory place root bottom address)
    (value : PageTableEntry) (table tableRoot : Nat)
    (path : List (Slot layout.target)) (here : place table = some (tableRoot, path))
    (above : path.length < layout.target.virtualMemoryTopLevel) :
    (final memory layout.target bottom address value).child layout.target table =
      memory.child layout.target table := by
  funext tableSlot
  have different := put.ne_bottom_of_inner here above
  exact Memory.child_congr (put.slotEntry_other value here (by simp [different]))

theorem leafEntry (put : Put layout memory place root bottom address)
    {value : PageTableEntry} (isLeaf : value.IsLeaf) {otherRoot : Nat}
    (otherRooted : place.Rooted otherRoot) (other : VirtualAddress) :
    (final memory layout.target bottom address value).leafEntry layout.target
        otherRoot other =
      if otherRoot = root ∧
          other.inner layout.target = address.inner layout.target ∧
          other.slot layout.target 0 = address.slot layout.target 0 then
        some value
      else memory.leafEntry layout.target otherRoot other := by
  have written : (final memory layout.target bottom address value).leaf
      layout.target bottom (address.slot layout.target 0) = some value := by
    rw [Memory.leaf, slotEntry_same, if_pos isLeaf.valid]
  rw [← written]
  apply put.before.separated.lookup_setLeaf (put.child_eq value) put.rooted
    (address.length_path layout.target _) put.walked ?_ otherRooted
    (other.length_path layout.target _)
  · intro table tableRoot path tableSlot here _ different
    exact Memory.leaf_congr (put.slotEntry_other value here different)

end Put

namespace VirtualAddress

/-- The page-index bits: the entry numbers of all levels. -/
def pageIndex (target : Target) (address : VirtualAddress) : Nat :=
  address.value / pageSize % target.virtualPages

theorem inner_riscv64 (address : VirtualAddress) :
    address.inner .riscv64 =
      [address.slot .riscv64 2, address.slot .riscv64 1] := rfl

theorem inner_riscv32 (address : VirtualAddress) :
    address.inner .riscv32 = [address.slot .riscv32 1] := rfl

theorem slot_eq_iff (target : Target) (first second : VirtualAddress)
    (level : Nat) :
    first.slot target level = second.slot target level ↔
      first.levelEntryNumber target level =
        second.levelEntryNumber target level :=
  Fin.ext_iff

theorem pageIndex_eq_iff (target : Target) (first second : VirtualAddress) :
    first.pageIndex target = second.pageIndex target ↔
      first.inner target = second.inner target ∧
        first.slot target 0 = second.slot target 0 := by
  cases target with
  | riscv64 =>
      simp only [inner_riscv64, List.cons.injEq, and_true, slot_eq_iff]
      simp only [pageIndex, levelEntryNumber, Target.virtualMemoryTopLevel,
        Target.virtualPages, Target.entries, Target.levelEntryNumberBitwidth,
        pageSize]
      omega
  | riscv32 =>
      simp only [inner_riscv32, List.cons.injEq, and_true, slot_eq_iff]
      simp only [pageIndex, levelEntryNumber, Target.virtualMemoryTopLevel,
        Target.virtualPages, Target.entries, Target.levelEntryNumberBitwidth,
        pageSize]
      omega

end VirtualAddress

namespace PageTable

theorem mapped_isLeaf (target : Target) (physicalAddress : Nat)
    (flags : PageTableEntryFlags) :
    (PageTableEntry.mapped target physicalAddress flags).IsLeaf :=
  ⟨rfl, rfl, rfl, rfl⟩

/-- `map_address` sets the translation of one page of one table, on tables that
it extends along the way to that page. -/
structure Mapped (layout : Layout) (memory after : Memory)
    (place place' : Tables layout.target) (root : Nat) (address : VirtualAddress)
    (physicalAddress : Nat) (flags : PageTableEntryFlags) : Prop where
  wellFormed : WellFormed layout after place'
  grown : ∀ table location, place table = some location →
    place' table = some location
  extend : Extends place place' root (address.inner layout.target)
  links : ∀ table tableRoot path slot next, place table = some (tableRoot, path) →
    path.length < layout.target.virtualMemoryTopLevel →
      memory.child layout.target table slot = some next →
        after.child layout.target table slot = some next
  reached : (walk (after.child layout.target) root
    (address.inner layout.target)).isSome
  leaves : ∀ otherRoot other, place.Rooted otherRoot →
    after.leafEntry layout.target otherRoot other =
      if otherRoot = root ∧
          other.pageIndex layout.target = address.pageIndex layout.target then
        some (.mapped layout.target physicalAddress flags)
      else memory.leafEntry layout.target otherRoot other

theorem mapAddress_mapped (wellFormed : WellFormed layout memory place)
    {root : Nat} (rooted : place.Rooted root) {address : VirtualAddress}
    {physicalAddress : Nat} {flags : PageTableEntryFlags}
    (mapped : mapAddress layout memory root address physicalAddress flags =
      .ok after) :
    ∃ place', Mapped layout memory after place place' root address
      physicalAddress flags := by
  simp only [mapAddress] at mapped
  by_cases virtualAligned : address.value % pageSize = 0
  case neg => simp [virtualAligned] at mapped
  by_cases physicalAligned : physicalAddress % pageSize = 0
  case neg => simp [virtualAligned, physicalAligned] at mapped
  simp only [virtualAligned, physicalAligned, ne_eq, not_true_eq_false,
    if_false, Outcome.pure_eq_ok] at mapped
  obtain ⟨⟨pointer, middle⟩, looped, written⟩ := Outcome.bind_eq_ok.mp mapped
  obtain ⟨place', bottom, descent, extends'⟩ := mapAddressLoop_extends address
    wellFormed rooted (by simp) looped
  have grown : ∀ otherRoot, place.Rooted otherRoot → place'.Rooted otherRoot :=
    fun otherRoot here => descent.grows.placed otherRoot _ here
  have put : Put layout middle place' root bottom address :=
    ⟨descent.wellFormed, grown root rooted, descent.walked⟩
  have isLeaf := mapped_isLeaf layout.target physicalAddress flags
  -- the written entry keeps the reserved bits, and these are zero
  have final : Put.final middle layout.target bottom address
      (.mapped layout.target physicalAddress flags) = after := by
    rw [← Except.ok.inj written, Put.final, descent.pointer]
    congr 1
    rcases put.before.bottom bottom root _ put.placed (address.length_path _ _)
        (address.slot layout.target 0) with empty | old
    · simp only [Memory.slotEntry] at empty
      simp [empty, PageTableEntry.setPhysicalPageNum, PageTableEntry.mapped]
    · have supervisor := old.reservedSupervisor
      have reserved := old.reserved
      simp only [Memory.slotEntry] at supervisor reserved
      simp [supervisor, reserved, PageTableEntry.setPhysicalPageNum,
        PageTableEntry.mapped]
  have innerKept := put.child_eq (.mapped layout.target physicalAddress flags)
  rw [final] at innerKept
  refine ⟨place', final ▸ put.wellFormed isLeaf, descent.grows.placed, extends',
    ?_, ?_, ?_⟩
  · intro table tableRoot path slot next here above linked
    rw [innerKept table tableRoot path (descent.grows.placed _ _ here) above]
    exact descent.grows.links table tableRoot path slot next here above linked
  · rw [put.before.separated.walk_congr innerKept put.rooted
      (Nat.le_of_eq (address.length_path layout.target _)), put.walked]
    rfl
  · intro otherRoot other otherRooted
    rw [← final, put.leafEntry isLeaf (grown otherRoot otherRooted) other,
      descent.grows.leaves otherRoot other otherRooted]
    simp only [VirtualAddress.pageIndex_eq_iff]

theorem mapAddress_spec (wellFormed : WellFormed layout memory place)
    {root : Nat} (rooted : place.Rooted root) {address : VirtualAddress}
    {physicalAddress : Nat} {flags : PageTableEntryFlags}
    (mapped : mapAddress layout memory root address physicalAddress flags =
      .ok after) :
    ∃ place', WellFormed layout after place' ∧
      (∀ table location, place table = some location →
        place' table = some location) ∧
      ∀ otherRoot other, place.Rooted otherRoot →
        after.leafEntry layout.target otherRoot other =
          if otherRoot = root ∧
              other.pageIndex layout.target = address.pageIndex layout.target then
            some (.mapped layout.target physicalAddress flags)
          else memory.leafEntry layout.target otherRoot other := by
  obtain ⟨place', mapped⟩ := mapAddress_mapped wellFormed rooted mapped
  exact ⟨place', mapped.wellFormed, mapped.grown, mapped.leaves⟩

theorem mapAddress_aligned {root : Nat} {address : VirtualAddress}
    {physicalAddress : Nat} {flags : PageTableEntryFlags}
    (mapped : mapAddress layout memory root address physicalAddress flags =
      .ok after) : pageSize ∣ physicalAddress := by
  simp only [mapAddress] at mapped
  by_contra unaligned
  have physicalUnaligned : physicalAddress % pageSize ≠ 0 := fun zero =>
    unaligned (Nat.dvd_of_mod_eq_zero zero)
  by_cases virtualAligned : address.value % pageSize = 0
  · simp [virtualAligned, physicalUnaligned] at mapped
  · simp [virtualAligned] at mapped

theorem getPhysicalAddressLoop_walk (address : VirtualAddress)
    (wellFormed : WellFormed layout memory place) {level table root bottom : Nat}
    {path : List (Slot layout.target)}
    (placed : place table = some (root, path))
    (remaining : path.length + level = layout.target.virtualMemoryTopLevel)
    (walked : walk (memory.child layout.target) table
      (address.path layout.target level) = some bottom) :
    getPhysicalAddressLoop layout.target memory address level table =
      .ok (memory.slotEntry layout.target bottom
        (address.slot layout.target 0)) := by
  induction level generalizing table path with
  | zero =>
      cases walked
      rw [getPhysicalAddressLoop, entryPointer_eq wellFormed placed address
        (Nat.zero_le _)]
      rfl
  | succ level induction =>
      rw [getPhysicalAddressLoop, entryPointer_eq wellFormed placed address
        (by omega), Outcome.ok_bind]
      rw [VirtualAddress.path, walk_cons] at walked
      obtain ⟨next, linked, walkedNext⟩ := Option.bind_eq_some_iff.mp walked
      generalize address.slot layout.target (level + 1) = slot at linked ⊢
      have entryEq : memory.entry (entryAddress layout.target table slot.val) =
          memory.slotEntry layout.target table slot := rfl
      obtain ⟨valid, follows, placedNext, fewer⟩ :=
        wellFormed.follow placed remaining linked
      rw [entryEq, if_neg valid, follows, Outcome.ok_bind]
      exact induction placedNext fewer walkedNext

theorem getPhysicalAddressLoop_of_leaf (wellFormed : WellFormed layout memory place)
    {root : Nat} (rooted : place.Rooted root) {address : VirtualAddress}
    {entry : PageTableEntry}
    (leaf : memory.leafEntry layout.target root address = some entry) :
    getPhysicalAddressLoop layout.target memory address
      layout.target.virtualMemoryTopLevel root = .ok entry := by
  rw [Memory.leafEntry, lookup] at leaf
  obtain ⟨bottom, walked, bottomLeaf⟩ := Option.bind_eq_some_iff.mp leaf
  simp only [Memory.leaf] at bottomLeaf
  split at bottomLeaf
  case isFalse => contradiction
  cases bottomLeaf
  exact getPhysicalAddressLoop_walk address wellFormed rooted (by simp) walked

theorem getPhysicalAddress_of_leaf (wellFormed : WellFormed layout memory place)
    {root : Nat} (rooted : place.Rooted root) {address : VirtualAddress}
    {entry : PageTableEntry}
    (leaf : memory.leafEntry layout.target root address = some entry) :
    getPhysicalAddress layout.target memory root address =
      .ok (layout.target.uintptr
        (layout.target.uintptr (entry.physicalPageNum * pageSize) +
          address.pageOffset)) := by
  rw [getPhysicalAddress, getPhysicalAddressLoop_of_leaf wellFormed rooted leaf]
  rfl

end PageTable

end Thos.VirtualMemory
