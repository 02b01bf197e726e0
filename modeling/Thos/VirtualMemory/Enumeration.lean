import Thos.Data.RadixEnumeration
import Thos.VirtualMemory.Calls

namespace Thos.VirtualMemory

open Thos.Kernel
open Data.RadixForest

/-! `print_page_addresses` prints the pages that `get_physical_address` finds. -/

namespace VirtualAddress

/-- The value of the lowest bit of `level<level>_entry_number`. -/
def unit (target : Target) (level : Nat) : Nat := pageSize * target.entries ^ level

/-- Assignment to the bit-field `level<level>_entry_number`. -/
def assignLevelEntryNumber (target : Target) (address : VirtualAddress)
    (level entryNumber : Nat) : VirtualAddress :=
  ⟨address.value / unit target (level + 1) * unit target (level + 1) +
    entryNumber % target.entries * unit target level +
    address.value % unit target level⟩

def setLevelEntryNumber (target : Target) (address : VirtualAddress)
    (level entryNumber : Nat) : Outcome VirtualAddress :=
  if level = 0 then .ok (address.assignLevelEntryNumber target 0 entryNumber)
  else if level = 1 then .ok (address.assignLevelEntryNumber target 1 entryNumber)
  else if target = .riscv64 ∧ level = 2 then
    .ok (address.assignLevelEntryNumber target 2 entryNumber)
  else .error (.panic "VirtualAddress_set_level invalid level %d")

end VirtualAddress

inductive PageAddressLine where
  /-- `"vaddr %p => (transparent)\n"`. -/
  | transparent (virtualAddress : VirtualAddress)
  /-- `"vaddr %p => paddr %p\n"`. -/
  | translated (virtualAddress : VirtualAddress) (physicalAddress : Nat)
  deriving DecidableEq, Repr

namespace PageAddressLine

def virtualAddress : PageAddressLine → VirtualAddress
  | transparent virtualAddress => virtualAddress
  | translated virtualAddress _ => virtualAddress

/-- A transparent page lies at its virtual address. -/
def physicalAddress : PageAddressLine → Nat
  | transparent virtualAddress => virtualAddress.value
  | translated _ physicalAddress => physicalAddress

end PageAddressLine

namespace PageTable

/-- The loop of `print_page_addresses` over the entries of `table` from `number`
on.  The state's virtual address keeps the last number that was set; `visit` is
what follows for a valid entry. -/
def printLoop {Event : Type} (target : Target) (memory : Memory)
    (visit : VirtualAddress → PageTableEntry → Outcome (List Event))
    (level table : Nat) : Nat → Nat → VirtualAddress → Outcome (List Event)
  | 0, _, _ => .ok []
  | remaining + 1, number, address =>
      let entry := memory.entry (entryAddress target table number)
      if entry.flags.valid = false then
        printLoop target memory visit level table remaining (number + 1) address
      else do
        let address ← address.setLevelEntryNumber target level number
        let events ← visit address entry
        let later ← printLoop target memory visit level table remaining
          (number + 1) address
        pure (events ++ later)

def printLine (target : Target) (virtualAddress : VirtualAddress)
    (entry : PageTableEntry) : PageAddressLine :=
  let physicalAddress := target.uintptr (entry.physicalPageNum * pageSize)
  if virtualAddress.value = physicalAddress then .transparent virtualAddress
  else .translated virtualAddress physicalAddress

/-- `level` and `address` are the fields of `state`; a link is followed with a
copy of it. -/
def printPageAddresses (target : Target) (memory : Memory) :
    Nat → Nat → VirtualAddress → Outcome (List PageAddressLine)
  | 0, table, address => printLoop target memory
      (fun address entry => .ok [printLine target address entry])
      0 table (pageSize / target.sizeofUintptr) 0 address
  | level + 1, table, address => printLoop target memory
      (fun address entry => do
        let linked ← entry.getLinked target
        printPageAddresses target memory level linked address)
      (level + 1) table (pageSize / target.sizeofUintptr) 0 address

end PageTable

namespace VirtualAddress

variable {target : Target} {address : VirtualAddress} {level base number : Nat}

theorem setLevelEntryNumber_eq (target : Target) (address : VirtualAddress)
    (entryNumber : Nat) (bound : level ≤ target.virtualMemoryTopLevel) :
    address.setLevelEntryNumber target level entryNumber =
      .ok (address.assignLevelEntryNumber target level entryNumber) := by
  unfold setLevelEntryNumber
  cases target with
  | riscv64 =>
      have : level = 0 ∨ level = 1 ∨ level = 2 := by
        simp only [Target.virtualMemoryTopLevel] at bound
        omega
      rcases this with rfl | rfl | rfl <;> rfl
  | riscv32 =>
      have : level = 0 ∨ level = 1 := by
        simp only [Target.virtualMemoryTopLevel] at bound
        omega
      rcases this with rfl | rfl <;> rfl

theorem unit_zero (target : Target) : unit target 0 = pageSize := by
  rw [unit, Nat.pow_zero, Nat.mul_one]

theorem unit_succ (target : Target) (level : Nat) :
    unit target (level + 1) = target.entries * unit target level := by
  rw [unit, unit, Nat.pow_succ]
  ac_rfl

theorem unit_pos (target : Target) (level : Nat) : 0 < unit target level :=
  Nat.mul_pos pageSize_pos (Nat.pow_pos target.entries_pos)

/-- The first address whose upper entry numbers, down to `level`, spell
`number`. -/
def first (target : Target) (level number : Nat) : VirtualAddress :=
  ⟨number * unit target level⟩

structure Above (target : Target) (address : VirtualAddress) (level base : Nat) :
    Prop where
  upper : address.value / unit target (level + 1) = base
  lower : unit target level ∣ address.value

theorem Above.assign (above : Above target address level base)
    (bound : number < target.entries) :
    address.assignLevelEntryNumber target level number =
      first target level (base * target.entries + number) := by
  rw [assignLevelEntryNumber, above.upper, Nat.mod_eq_of_lt bound,
    Nat.mod_eq_zero_of_dvd above.lower, Nat.add_zero, first, unit_succ,
    Nat.add_mul, Nat.mul_assoc]

theorem Above.first_of_lt (base : Nat) (bound : number < target.entries) :
    Above target (first target level (base * target.entries + number)) level
      base where
  upper := by
    rw [first, unit_succ, Nat.mul_comm target.entries,
      ← Nat.div_div_eq_div_mul, Nat.mul_div_cancel _ (unit_pos target level),
      Nat.mul_comm, Nat.mul_add_div target.entries_pos, Nat.div_eq_of_lt bound,
      Nat.add_zero]
  lower := Nat.dvd_mul_left ..

theorem Above.first_succ (target : Target) (level number : Nat) :
    Above target (first target (level + 1) number) level number where
  upper := Nat.mul_div_cancel _ (unit_pos target (level + 1))
  lower := by
    rw [first, unit_succ]
    exact Nat.dvd_mul_left_of_dvd (Nat.dvd_mul_left ..) _

theorem slot_eq_digit (target : Target) (address : VirtualAddress) (level : Nat) :
    address.slot target level =
      digit target.entries_pos (address.value / pageSize) level := by
  apply Fin.ext
  simp only [slot, levelEntryNumber, digit, Nat.div_div_eq_div_mul]

theorem path_eq_digits (target : Target) (address : VirtualAddress) (level : Nat) :
    address.path target level =
      digits target.entries_pos (address.value / pageSize) level := by
  induction level with
  | zero => rfl
  | succ level induction => rw [path, digits, slot_eq_digit, induction]

end VirtualAddress

namespace PageTable

variable {layout : Layout} {memory : Memory} {place : Tables layout.target}
  {target : Target} {level table base : Nat}

theorem entries_eq (target : Target) :
    pageSize / target.sizeofUintptr = target.entries := by
  cases target <;> rfl

/-- The loop concatenates what its visits of the valid entries return: entry
`slot` is visited with `slot` as the last entry number, whatever the entries
before it were. -/
theorem printLoop_eq {Event : Type} {expected : Slot target → List Event}
    {visit : VirtualAddress → PageTableEntry → Outcome (List Event)}
    (bound : level ≤ target.virtualMemoryTopLevel)
    (skipped : ∀ slot, (memory.slotEntry target table slot).flags.valid = false →
      expected slot = [])
    (visited : ∀ slot, (memory.slotEntry target table slot).flags.valid = true →
      visit (VirtualAddress.first target level (base * target.entries + slot.val))
        (memory.slotEntry target table slot) = .ok (expected slot))
    {remaining number : Nat} (total : number + remaining = target.entries)
    {address : VirtualAddress} (above : address.Above target level base) :
    printLoop target memory visit level table remaining number address =
      .ok (((List.finRange target.entries).drop number).flatMap expected) := by
  induction remaining generalizing number address with
  | zero =>
      rw [List.drop_eq_nil_of_le (by rw [List.length_finRange]; omega)]
      rfl
  | succ remaining induction =>
      have inside : number < target.entries := by omega
      have listed : number < (List.finRange target.entries).length := by
        rw [List.length_finRange]
        exact inside
      have slotEq : (List.finRange target.entries)[number] = ⟨number, inside⟩ :=
        List.getElem_finRange _
      have entryEq : memory.entry (entryAddress target table number) =
          memory.slotEntry target table ⟨number, inside⟩ := rfl
      rw [List.drop_eq_getElem_cons listed, slotEq, List.flatMap_cons, printLoop,
        entryEq]
      cases valid : (memory.slotEntry target table ⟨number, inside⟩).flags.valid with
      | false =>
          rw [if_pos rfl, skipped _ valid, List.nil_append]
          exact induction (by omega) above
      | true =>
          have later := induction (show number + 1 + remaining = target.entries by
            omega) (VirtualAddress.Above.first_of_lt base inside)
          rw [if_neg Bool.noConfusion, address.setLevelEntryNumber_eq target
            number bound, above.assign inside, Outcome.ok_bind, visited _ valid,
            Outcome.ok_bind, later]
          rfl

def numberedLine (target : Target) (leaf : Nat × PageTableEntry) :
    PageAddressLine :=
  printLine target (VirtualAddress.first target 0 leaf.1) leaf.2

/-- The traversal prints one line for each leaf of the radix tree. -/
theorem printPageAddresses_eq (wellFormed : WellFormed layout memory place)
    {root : Nat} {path : List (Slot layout.target)}
    (placed : place table = some (root, path))
    (remaining : path.length + level = layout.target.virtualMemoryTopLevel)
    {address : VirtualAddress} (above : address.Above layout.target level base) :
    printPageAddresses layout.target memory level table address =
      .ok ((enumerate (memory.child layout.target) (memory.leaf layout.target)
        level table base).map (numberedLine layout.target)) := by
  induction level generalizing table path base address with
  | zero =>
      rw [printPageAddresses, entries_eq, enumerate, List.map_flatMap]
      refine printLoop_eq (by omega) ?_ ?_ (Nat.zero_add _) above
      · intro slot invalid
        rw [Memory.leaf_of_invalid invalid]
        rfl
      · intro slot valid
        rw [Memory.leaf, if_pos valid]
        rfl
  | succ level induction =>
      rw [printPageAddresses, entries_eq, enumerate, List.map_flatMap]
      refine printLoop_eq (by omega) ?_ ?_ (Nat.zero_add _) above
      · intro slot invalid
        rw [Memory.child_of_invalid invalid]
        rfl
      · intro slot valid
        have linked := Memory.child_of_valid valid
        obtain ⟨_, follows, placedNext, fewer⟩ :=
          wellFormed.follow placed remaining linked
        rw [follows, Outcome.ok_bind, linked]
        exact induction placedNext fewer (.first_succ ..)

end PageTable

namespace VirtualAddress

variable {target : Target} {number : Nat}

theorem first_zero_div (target : Target) (number : Nat) :
    (first target 0 number).value / pageSize = number := by
  rw [first, unit_zero]
  exact Nat.mul_div_cancel _ pageSize_pos

theorem pageOffset_first (target : Target) (number : Nat) :
    (first target 0 number).pageOffset = 0 := by
  rw [pageOffset, first, unit_zero]
  exact Nat.mul_mod_left ..

theorem pageIndex_first (bound : number < target.virtualPages) :
    (first target 0 number).pageIndex target = number := by
  rw [pageIndex, first_zero_div, Nat.mod_eq_of_lt bound]

end VirtualAddress

section

variable {layout : Layout} {memory : Memory} {roots : List Nat}
  {calls : List MapCall} {place : Tables layout.target} {target : Target}
  {root number : Nat} {entry : PageTableEntry}

theorem Memory.leafEntry_congr {first second : VirtualAddress}
    (samePage : first.pageIndex target = second.pageIndex target) :
    memory.leafEntry target root first = memory.leafEntry target root second := by
  obtain ⟨sameInner, sameSlot⟩ :=
    (VirtualAddress.pageIndex_eq_iff target first second).mp samePage
  rw [leafEntry, leafEntry, sameInner, sameSlot]

namespace PageTable

theorem mem_leaves_iff :
    (number, entry) ∈ enumerate (memory.child target) (memory.leaf target)
        target.virtualMemoryTopLevel root 0 ↔
      number < target.virtualPages ∧
        memory.leafEntry target root (.first target 0 number) = some entry := by
  have bounded : number / target.entries ^ (target.virtualMemoryTopLevel + 1) = 0 ↔
      number < target.virtualPages :=
    Nat.div_eq_zero_iff_lt (Nat.pow_pos target.entries_pos)
  rw [mem_enumerate target.entries_pos, bounded, Memory.leafEntry,
    VirtualAddress.inner, VirtualAddress.path_eq_digits,
    VirtualAddress.slot_eq_digit, VirtualAddress.first_zero_div]

theorem numberedLine_virtualAddress (target : Target) (number : Nat)
    (entry : PageTableEntry) :
    (numberedLine target (number, entry)).virtualAddress =
      .first target 0 number := by
  rw [numberedLine, printLine]
  split <;> rfl

theorem numberedLine_physicalAddress (target : Target) (number : Nat)
    (entry : PageTableEntry) :
    (numberedLine target (number, entry)).physicalAddress =
      target.uintptr (entry.physicalPageNum * pageSize) := by
  rw [numberedLine, printLine]
  split
  case isTrue same => exact same
  case isFalse => rfl

end PageTable

/-- The lines name the mapped pages of the root once each, from the lowest to
the highest, and give the translations that the lookup gives. -/
structure Enumerates (layout : Layout) (memory : Memory) (calls : List MapCall)
    (root : Nat) (lines : List PageAddressLine) : Prop where
  increasing : lines.Pairwise fun first second =>
    first.virtualAddress.pageIndex layout.target <
      second.virtualAddress.pageIndex layout.target
  mapped : ∀ address : VirtualAddress,
    (∃ line ∈ lines, line.virtualAddress.pageIndex layout.target =
      address.pageIndex layout.target) ↔ MapCalled layout.target calls root address
  translated : ∀ line ∈ lines,
    PageTable.getPhysicalAddress layout.target memory root line.virtualAddress =
      .ok line.physicalAddress

theorem Built.enumerates (built : Built layout memory roots calls place)
    (member : root ∈ roots) :
    Enumerates layout memory calls root
      ((enumerate (memory.child layout.target) (memory.leaf layout.target)
        layout.target.virtualMemoryTopLevel root 0).map
          (PageTable.numberedLine layout.target)) where
  increasing := by
    apply List.pairwise_map.mpr
    apply (enumerate_pairwise_lt layout.target.entries_pos).imp_of_mem
    rintro ⟨first, firstEntry⟩ ⟨second, secondEntry⟩ firstMember secondMember less
    have firstBound := (PageTable.mem_leaves_iff.mp firstMember).1
    have secondBound := (PageTable.mem_leaves_iff.mp secondMember).1
    rw [PageTable.numberedLine_virtualAddress, PageTable.numberedLine_virtualAddress,
      VirtualAddress.pageIndex_first firstBound,
      VirtualAddress.pageIndex_first secondBound]
    exact less
  mapped := by
    intro address
    rw [← built.leaves root member address]
    constructor
    · rintro ⟨line, listed, samePage⟩
      obtain ⟨⟨number, entry⟩, leaf, rfl⟩ := List.mem_map.mp listed
      rw [PageTable.numberedLine_virtualAddress] at samePage
      rw [← Memory.leafEntry_congr samePage, (PageTable.mem_leaves_iff.mp leaf).2]
      rfl
    · intro found
      obtain ⟨entry, found⟩ := Option.isSome_iff_exists.mp found
      have bound : address.pageIndex layout.target < layout.target.virtualPages :=
        Nat.mod_lt _ (Nat.pow_pos layout.target.entries_pos)
      have samePage := VirtualAddress.pageIndex_first bound
      rw [← Memory.leafEntry_congr samePage] at found
      refine ⟨_, List.mem_map_of_mem
        (PageTable.mem_leaves_iff.mpr ⟨bound, found⟩), ?_⟩
      rw [PageTable.numberedLine_virtualAddress, samePage]
  translated := by
    intro line listed
    obtain ⟨⟨number, entry⟩, leaf, rfl⟩ := List.mem_map.mp listed
    rw [PageTable.numberedLine_virtualAddress,
      PageTable.numberedLine_physicalAddress,
      PageTable.getPhysicalAddress_of_leaf built.wellFormed
        (built.rooted root member) (PageTable.mem_leaves_iff.mp leaf).2,
      VirtualAddress.pageOffset_first, Nat.add_zero, Target.uintptr,
      Target.uintptr, Nat.mod_mod]

/-- From virtual address 0 at the top level, for every history of calls on both
targets. -/
theorem print_page_addresses_enumerates (run : Calls layout memory roots calls)
    (member : root ∈ roots) : ∃ lines,
      PageTable.printPageAddresses layout.target memory
        layout.target.virtualMemoryTopLevel root ⟨0⟩ = .ok lines ∧
      Enumerates layout memory calls root lines := by
  obtain ⟨place, built⟩ := Built.of_calls run
  have start : VirtualAddress.Above layout.target ⟨0⟩
      layout.target.virtualMemoryTopLevel 0 := ⟨Nat.zero_div _, Nat.dvd_zero _⟩
  exact ⟨_, PageTable.printPageAddresses_eq built.wellFormed
    (built.rooted root member) (Nat.zero_add _) start, built.enumerates member⟩

theorem print_page_addresses_enumerates_sample : ∃ memory,
    Calls Layout.small memory MapCall.sampleRoots MapCall.samples ∧
      ∀ root ∈ MapCall.sampleRoots, ∃ lines,
        PageTable.printPageAddresses .riscv64 memory 2 root ⟨0⟩ = .ok lines ∧
        ∃ line ∈ lines, line.virtualAddress.pageIndex .riscv64 =
          VirtualAddress.pageIndex .riscv64 ⟨userProgramBase⟩ := by
  obtain ⟨memory, run⟩ := MapCall.samples_run
  refine ⟨memory, run.calls, fun root member => ?_⟩
  obtain ⟨lines, printed, enumerates⟩ := print_page_addresses_enumerates run.calls member
  refine ⟨lines, printed, (enumerates.mapped ⟨userProgramBase⟩).mpr ?_⟩
  rcases List.mem_cons.mp member with rfl | first
  · exact ⟨MapCall.sampleOther, by simp [MapCall.samples], rfl, rfl⟩
  · rw [List.mem_singleton.mp first]
    exact ⟨MapCall.sample, by simp [MapCall.samples], rfl, rfl⟩

end

end Thos.VirtualMemory
