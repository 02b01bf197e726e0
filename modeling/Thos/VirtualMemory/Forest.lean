import Thos.Data.RadixForest
import Thos.VirtualMemory.PageTable

namespace Thos.VirtualMemory

open Thos.Kernel
open Data.RadixForest

/-! Page tables as radix trees in one memory. -/

abbrev Slot (target : Target) := Fin target.entries

abbrev Tables (target : Target) := Placement Nat (Slot target)

namespace VirtualAddress

def slot (target : Target) (address : VirtualAddress) (level : Nat) : Slot target :=
  ⟨address.levelEntryNumber target level, Nat.mod_lt _ target.entries_pos⟩

/-- The slots of the levels from `level` down to 1. -/
def path (target : Target) (address : VirtualAddress) : Nat → List (Slot target)
  | 0 => []
  | level + 1 => address.slot target (level + 1) :: address.path target level

@[simp] theorem length_path (target : Target) (address : VirtualAddress)
    (level : Nat) : (address.path target level).length = level := by
  induction level with
  | zero => rfl
  | succ level induction => simp [path, induction]

/-- The slots of the inner levels, from the top. -/
abbrev inner (target : Target) (address : VirtualAddress) : List (Slot target) :=
  address.path target target.virtualMemoryTopLevel

theorem getLevelEntryNumber_eq (target : Target) (address : VirtualAddress)
    {level : Nat} (bound : level ≤ target.virtualMemoryTopLevel) :
    address.getLevelEntryNumber target level =
      .ok (address.slot target level).val := by
  unfold getLevelEntryNumber slot
  cases target with
  | riscv64 =>
      have : level = 0 ∨ level = 1 ∨ level = 2 := by
        simp only [Target.virtualMemoryTopLevel] at bound
        omega
      rcases this with rfl | rfl | rfl <;> rfl
  | riscv32 =>
      have : level = 0 ∨ level = 1 := by
        simp only [Target.virtualMemoryTopLevel] at bound
        omega
      rcases this with rfl | rfl <;> rfl

end VirtualAddress

namespace Memory

variable {target : Target}

def slotEntry (target : Target) (memory : Memory) (table : Nat) (slot : Slot target) :
    PageTableEntry :=
  memory.entry (PageTable.entryAddress target table slot.val)

def child (target : Target) (memory : Memory) (table : Nat) (slot : Slot target) :
    Option Nat :=
  if (memory.slotEntry target table slot).flags.valid then
    some (target.uintptr
      ((memory.slotEntry target table slot).physicalPageNum * pageSize))
  else none

def leaf (target : Target) (memory : Memory) (table : Nat) (slot : Slot target) :
    Option PageTableEntry :=
  if (memory.slotEntry target table slot).flags.valid then
    some (memory.slotEntry target table slot)
  else none

/-- The valid level 0 entry that the walk from `root` reaches. -/
def leafEntry (target : Target) (memory : Memory) (root : Nat)
    (address : VirtualAddress) : Option PageTableEntry :=
  lookup (memory.child target) (memory.leaf target) root
    (address.inner target) (address.slot target 0)

@[simp] theorem entry_write_self (memory : Memory) (address : Nat)
    (value : PageTableEntry) :
    (memory.write address value).entry address = value := by
  simp [write]

theorem entry_write_of_ne (memory : Memory) {address other : Nat}
    (value : PageTableEntry) (different : other ≠ address) :
    (memory.write address value).entry other = memory.entry other := by
  simp [write, different]

@[simp] theorem nextPage_write (memory : Memory) (address : Nat)
    (value : PageTableEntry) :
    (memory.write address value).nextPage = memory.nextPage := rfl

theorem child_of_valid {memory : Memory} {table : Nat} {slot : Slot target}
    (valid : (memory.slotEntry target table slot).flags.valid = true) :
    memory.child target table slot = some (target.uintptr
      ((memory.slotEntry target table slot).physicalPageNum * pageSize)) :=
  if_pos valid

theorem child_of_invalid {memory : Memory} {table : Nat} {slot : Slot target}
    (invalid : (memory.slotEntry target table slot).flags.valid = false) :
    memory.child target table slot = none := by
  simp [child, invalid]

theorem leaf_of_invalid {memory : Memory} {table : Nat} {slot : Slot target}
    (invalid : (memory.slotEntry target table slot).flags.valid = false) :
    memory.leaf target table slot = none := by
  simp [leaf, invalid]

theorem child_congr {memory other : Memory} {table : Nat} {slot : Slot target}
    (same : other.slotEntry target table slot = memory.slotEntry target table slot) :
    other.child target table slot = memory.child target table slot := by
  simp [child, same]

theorem leaf_congr {memory other : Memory} {table : Nat} {slot : Slot target}
    (same : other.slotEntry target table slot = memory.slotEntry target table slot) :
    other.leaf target table slot = memory.leaf target table slot := by
  simp [leaf, same]

end Memory

theorem entryAddress_bounds (target : Target) (table : Nat) (slot : Slot target) :
    table ≤ PageTable.entryAddress target table slot.val ∧
      PageTable.entryAddress target table slot.val < table + pageSize := by
  have bound := slot.isLt
  cases target <;>
    simp only [PageTable.entryAddress, Target.entries, Target.sizeofUintptr,
      Target.levelEntryNumberBitwidth, pageSize] at * <;> omega

theorem entryAddress_injective (target : Target) {first second : Nat}
    {firstSlot secondSlot : Slot target}
    (firstAligned : pageSize ∣ first) (secondAligned : pageSize ∣ second)
    (equal : PageTable.entryAddress target first firstSlot.val =
      PageTable.entryAddress target second secondSlot.val) :
    first = second ∧ firstSlot = secondSlot := by
  have firstBounds := entryAddress_bounds target first firstSlot
  have secondBounds := entryAddress_bounds target second secondSlot
  have same : first = second := by
    simp only [pageSize] at *
    omega
  refine ⟨same, Fin.ext ?_⟩
  subst same
  have products : firstSlot.val * target.sizeofUintptr =
      secondSlot.val * target.sizeofUintptr := by
    simpa [PageTable.entryAddress] using equal
  exact Nat.eq_of_mul_eq_mul_right target.sizeof_pos products

def PageTableEntry.link (next : Nat) : PageTableEntry :=
  { flags := { valid := true }, physicalPageNum := next / pageSize }

def PageTableEntry.mapped (target : Target) (physicalAddress : Nat)
    (flags : PageTableEntryFlags) : PageTableEntry :=
  { flags := { flags with valid := true, read := true }
    physicalPageNum :=
      physicalAddress / pageSize % 2 ^ target.physicalPageNumberBitwidth }

structure PageTableEntry.IsLeaf (entry : PageTableEntry) : Prop where
  valid : entry.flags.valid = true
  read : entry.flags.read = true
  reservedSupervisor : entry.reservedSupervisor = 0
  reserved : entry.reserved = 0

/-- The shape of every table built by `Page_alloc` and `map_address`: placed
pages come from the pool, inner entries are empty or lead to the page placed
one slot further, and bottom entries are empty or readable. -/
structure WellFormed (layout : Layout) (memory : Memory)
    (place : Tables layout.target) : Prop where
  cursor : (memory.nextPage = 0 ∧ ∀ table, place table = none) ∨
    (layout.pages.startAddress ≤ memory.nextPage ∧
      memory.nextPage ≤ layout.pages.endAddress ∧ pageSize ∣ memory.nextPage)
  pool : ∀ table root path, place table = some (root, path) →
    pageSize ∣ table ∧ layout.pages.startAddress ≤ table ∧
      table + pageSize ≤ memory.nextPage
  depth : ∀ table root path, place table = some (root, path) →
    path.length ≤ layout.target.virtualMemoryTopLevel
  inner : ∀ table root path, place table = some (root, path) →
    path.length < layout.target.virtualMemoryTopLevel → ∀ slot,
      memory.slotEntry layout.target table slot = {} ∨
        ∃ next, memory.slotEntry layout.target table slot = .link next ∧
          place next = some (root, path ++ [slot])
  bottom : ∀ table root path, place table = some (root, path) →
    path.length = layout.target.virtualMemoryTopLevel → ∀ slot,
      memory.slotEntry layout.target table slot = {} ∨
        (memory.slotEntry layout.target table slot).IsLeaf

section

variable {layout : Layout} {memory : Memory} {place : Tables layout.target}

theorem Layout.address_lt_of_pool (layout : Layout) {address : Nat}
    (bound : address ≤ layout.pages.endAddress) :
    address < 2 ^ layout.target.pointerBits := by
  have := layout.pages_end_lt
  have := layout.target.virtualSpan_le
  omega

namespace WellFormed

theorem nextPage_le (wellFormed : WellFormed layout memory place) :
    memory.nextPage ≤ layout.pages.endAddress := by
  rcases wellFormed.cursor with ⟨unused, _⟩ | ⟨_, bound, _⟩
  · simp [unused]
  · exact bound

theorem table_lt (wellFormed : WellFormed layout memory place) {table root : Nat}
    {path : List (Slot layout.target)}
    (placed : place table = some (root, path)) :
    table < layout.pages.endAddress := by
  have := (wellFormed.pool table root path placed).2.2
  have := wellFormed.nextPage_le
  have := pageSize_pos
  omega

theorem table_ne_zero (wellFormed : WellFormed layout memory place)
    {table root : Nat} {path : List (Slot layout.target)}
    (placed : place table = some (root, path)) : table ≠ 0 := by
  have := (wellFormed.pool table root path placed).2.1
  have := layout.memoryStart_le_pages_start
  simp only [Image.memoryStart] at this
  omega

theorem linked_eq (wellFormed : WellFormed layout memory place)
    {next root : Nat} {path : List (Slot layout.target)}
    (placed : place next = some (root, path)) :
    layout.target.uintptr ((PageTableEntry.link next).physicalPageNum * pageSize)
      = next := by
  have aligned := (wellFormed.pool next root path placed).1
  have bound := wellFormed.table_lt placed
  simp only [PageTableEntry.link, Nat.div_mul_cancel aligned]
  exact Target.uintptr_of_lt (layout.address_lt_of_pool (Nat.le_of_lt bound))

theorem child_link (wellFormed : WellFormed layout memory place)
    {table next root : Nat} {path : List (Slot layout.target)}
    {slot : Slot layout.target}
    (linked : memory.slotEntry layout.target table slot = .link next)
    (placed : place next = some (root, path)) :
    memory.child layout.target table slot = some next := by
  simp only [Memory.child, linked, wellFormed.linked_eq placed]
  rfl

theorem separated (wellFormed : WellFormed layout memory place) :
    Separated layout.target.virtualMemoryTopLevel
      (memory.child layout.target) place := by
  intro table root path placed bound slot next linked
  rcases wellFormed.inner table root path placed bound slot with
    empty | ⟨other, isLink, placedOther⟩
  · rw [Memory.child_of_invalid (by rw [empty])] at linked
    contradiction
  · rw [wellFormed.child_link isLink placedOther] at linked
    cases linked
    exact placedOther

theorem follow (wellFormed : WellFormed layout memory place) {table next root : Nat}
    {path : List (Slot layout.target)} {slot : Slot layout.target} {level : Nat}
    (placed : place table = some (root, path))
    (remaining : path.length + (level + 1) = layout.target.virtualMemoryTopLevel)
    (linked : memory.child layout.target table slot = some next) :
    (memory.slotEntry layout.target table slot).flags.valid ≠ false ∧
      (memory.slotEntry layout.target table slot).getLinked layout.target =
        .ok next ∧
      place next = some (root, path ++ [slot]) ∧
      (path ++ [slot]).length + level = layout.target.virtualMemoryTopLevel := by
  have above : path.length < layout.target.virtualMemoryTopLevel := by omega
  have placedNext := wellFormed.separated table root path placed above slot next
    linked
  rw [Memory.child] at linked
  split at linked
  case isFalse => contradiction
  case isTrue valid =>
    have follows :
        (memory.slotEntry layout.target table slot).flags.valid ≠ false := by
      rw [valid]
      exact Bool.noConfusion
    refine ⟨follows, ?_, placedNext, ?_⟩
    · rw [PageTableEntry.getLinked, if_neg follows, Option.some.inj linked]
    · rw [List.length_append, List.length_singleton]
      omega

theorem entryAddress_inj (wellFormed : WellFormed layout memory place)
    {first second firstRoot secondRoot : Nat}
    {firstPath secondPath : List (Slot layout.target)}
    {firstSlot secondSlot : Slot layout.target}
    (firstPlaced : place first = some (firstRoot, firstPath))
    (secondPlaced : place second = some (secondRoot, secondPath))
    (equal : PageTable.entryAddress layout.target first firstSlot.val =
      PageTable.entryAddress layout.target second secondSlot.val) :
    first = second ∧ firstSlot = secondSlot :=
  entryAddress_injective layout.target
    (wellFormed.pool first firstRoot firstPath firstPlaced).1
    (wellFormed.pool second secondRoot secondPath secondPlaced).1 equal

theorem slotEntry_write_of_ne (wellFormed : WellFormed layout memory place)
    {table other root otherRoot : Nat} {path otherPath : List (Slot layout.target)}
    {slot otherSlot : Slot layout.target} (value : PageTableEntry)
    (placed : place table = some (root, path))
    (placedOther : place other = some (otherRoot, otherPath))
    (different : (other, otherSlot) ≠ (table, slot)) :
    (memory.write (PageTable.entryAddress layout.target table slot.val)
      value).slotEntry
        layout.target other otherSlot =
      memory.slotEntry layout.target other otherSlot := by
  apply Memory.entry_write_of_ne
  intro equal
  obtain ⟨sameTable, sameSlot⟩ :=
    wellFormed.entryAddress_inj placedOther placed equal
  exact different (by rw [sameTable, sameSlot])

end WellFormed

end

end Thos.VirtualMemory
