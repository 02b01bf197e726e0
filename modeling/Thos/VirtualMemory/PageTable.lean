import Mathlib.Logic.Function.Basic
import Thos.VirtualMemory.Layout

namespace Thos.VirtualMemory

open Thos.Kernel

structure PageTableEntryFlags where
  valid : Bool := false
  read : Bool := false
  write : Bool := false
  execute : Bool := false
  user : Bool := false
  global : Bool := false
  accessed : Bool := false
  dirty : Bool := false
  deriving DecidableEq, Repr

/-- The bit-fields of one entry; `reserved` has no bits on riscv32. -/
structure PageTableEntry where
  flags : PageTableEntryFlags := {}
  reservedSupervisor : Nat := 0
  physicalPageNum : Nat := 0
  reserved : Nat := 0
  deriving DecidableEq, Repr

structure VirtualAddress where
  value : Nat
  deriving DecidableEq, Repr

namespace VirtualAddress

def pageOffset (address : VirtualAddress) : Nat := address.value % pageSize

def levelEntryNumber (target : Target) (address : VirtualAddress) (level : Nat) :
    Nat :=
  address.value / (pageSize * target.entries ^ level) % target.entries

def getLevelEntryNumber (target : Target) (address : VirtualAddress)
    (level : Nat) : Outcome Nat :=
  if level = 0 then .ok (address.levelEntryNumber target 0)
  else if level = 1 then .ok (address.levelEntryNumber target 1)
  else if target = .riscv64 ∧ level = 2 then
    .ok (address.levelEntryNumber target 2)
  else .error (.panic "VirtualAddress_get_level invalid level %d")

end VirtualAddress

/-- Physical memory, read as table entries at their byte addresses, and the
allocator's `next_page`. -/
structure Memory where
  entry : Nat → PageTableEntry
  nextPage : Nat

def Memory.write (memory : Memory) (address : Nat) (value : PageTableEntry) :
    Memory :=
  { memory with entry := Function.update memory.entry address value }

def Memory.wipe (memory : Memory) (page : Nat) : Memory :=
  { memory with
    entry := fun address =>
      if page ≤ address ∧ address < page + pageSize then {}
      else memory.entry address }

/-- `next_page`, set to the start of the pool on first use. -/
def Memory.cursor (layout : Layout) (memory : Memory) : Nat :=
  if memory.nextPage = 0 then layout.pages.startAddress else memory.nextPage

def Memory.unused : Memory := ⟨fun _ => {}, 0⟩

def Page.alloc (layout : Layout) (memory : Memory) : Outcome (Nat × Memory) :=
  let nextPage := memory.cursor layout
  if nextPage > layout.pages.endAddress - pageSize then
    .error (.panic "page allocation would overflow page memory!")
  else
    .ok (nextPage, Memory.wipe
      { memory with nextPage := layout.target.uintptr (nextPage + pageSize) }
      nextPage)

def PageTableEntry.getLinked (target : Target) (entry : PageTableEntry) :
    Outcome Nat :=
  if entry.flags.valid = false then
    .error (.panic "passed invalid entry to get_linked_table")
  else .ok (target.uintptr (entry.physicalPageNum * pageSize))

def PageTableEntry.setPhysicalPageNum (target : Target) (entry : PageTableEntry)
    (number : Nat) : PageTableEntry :=
  { entry with
    physicalPageNum := number % 2 ^ target.physicalPageNumberBitwidth }

namespace PageTable

def entryAddress (target : Target) (table number : Nat) : Nat :=
  table + number * target.sizeofUintptr

/-- The head of the loop over levels that `map_address` and
`get_physical_address` share: the address of `table`'s entry for this level. -/
def entryPointer (target : Target) (address : VirtualAddress)
    (level table : Nat) : Outcome Nat := do
  let number ← address.getLevelEntryNumber target level
  if table = 0 then throw (.panic "null PageTable at level %u")
  pure (entryAddress target table number)

def mapAddressLoop (layout : Layout) (address : VirtualAddress) :
    Nat → Nat → Memory → Outcome (Nat × Memory)
  | 0, table, memory => do
      let pointer ← entryPointer layout.target address 0 table
      pure (pointer, memory)
  | level + 1, table, memory => do
      let pointer ← entryPointer layout.target address (level + 1) table
      if (memory.entry pointer).flags.valid = false then
        let (newPage, memory) ← Page.alloc layout memory
        let entry := (memory.entry pointer).setPhysicalPageNum layout.target
          (newPage / pageSize)
        mapAddressLoop layout address level newPage (memory.write pointer
          { entry with flags := { entry.flags with valid := true } })
      else
        let linked ← (memory.entry pointer).getLinked layout.target
        mapAddressLoop layout address level linked memory

def mapAddress (layout : Layout) (memory : Memory) (firstTable : Nat)
    (virtualAddress : VirtualAddress) (physicalAddress : Nat)
    (flags : PageTableEntryFlags) : Outcome Memory := do
  if virtualAddress.value % pageSize ≠ 0 then
    throw (.panic "virtual address not aligned %p")
  if physicalAddress % pageSize ≠ 0 then
    throw (.panic "physical address not aligned %p")
  let (pointer, memory) ← mapAddressLoop layout virtualAddress
    layout.target.virtualMemoryTopLevel firstTable memory
  let entry := (memory.entry pointer).setPhysicalPageNum layout.target
    (physicalAddress / pageSize)
  pure (memory.write pointer
    { entry with flags := { flags with valid := true, read := true } })

def getPhysicalAddressLoop (target : Target) (memory : Memory)
    (address : VirtualAddress) : Nat → Nat → Outcome PageTableEntry
  | 0, table => do
      let pointer ← entryPointer target address 0 table
      pure (memory.entry pointer)
  | level + 1, table => do
      let pointer ← entryPointer target address (level + 1) table
      if (memory.entry pointer).flags.valid = false then
        throw (.panic "Invalid inner table at level %u")
      let linked ← (memory.entry pointer).getLinked target
      getPhysicalAddressLoop target memory address level linked

def getPhysicalAddress (target : Target) (memory : Memory) (table : Nat)
    (address : VirtualAddress) : Outcome Nat := do
  let entry ← getPhysicalAddressLoop target memory address
    target.virtualMemoryTopLevel table
  pure (target.uintptr (target.uintptr (entry.physicalPageNum * pageSize) +
    address.pageOffset))

/-- The loop of `map_section`; it is unbounded when `physical_address` wraps
around before it passes the end. -/
def mapSectionLoop (layout : Layout) (table endAddress : Nat)
    (flags : PageTableEntryFlags) :
    Nat → Nat → VirtualAddress → Memory → Outcome Memory
  | 0, _, _, _ => .error .outOfFuel
  | fuel + 1, physicalAddress, virtualAddress, memory =>
      if physicalAddress ≤ endAddress then do
        let memory ← mapAddress layout memory table virtualAddress
          physicalAddress flags
        mapSectionLoop layout table endAddress flags fuel
          (layout.target.uintptr (physicalAddress + pageSize))
          ⟨layout.target.uintptr (virtualAddress.value + pageSize)⟩ memory
      else .ok memory

def mapSection (layout : Layout) (fuel : Nat) (memory : Memory) (table : Nat)
    (region : Section) (virtualAddressStart : VirtualAddress)
    (flags : PageTableEntryFlags) : Outcome Memory :=
  mapSectionLoop layout table region.endAddress flags fuel region.startAddress
    virtualAddressStart memory

def userInit (layout : Layout) (fuel : Nat) (memory : Memory)
    (programSection : Section) (startVirtual : VirtualAddress) :
    Outcome (Nat × Memory) := do
  let (table, memory) ← Page.alloc layout memory
  let memory ← mapSection layout fuel memory table programSection startVirtual
    { read := true, write := true, execute := true, user := true }
  let memory ← mapSection layout fuel memory table layout.globalSpecial
    ⟨layout.globalSpecial.startAddress⟩
    { read := true, write := true, execute := true }
  let memory ← mapSection layout fuel memory table layout.userSpecial
    ⟨layout.userSpecial.startAddress⟩
    { read := true, write := true, execute := true }
  pure (table, memory)

end PageTable

def userProgramBase : Nat := 0x1000000

end Thos.VirtualMemory
