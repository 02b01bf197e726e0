import Thos.Data.MachineInteger
import Thos.VirtualMemory.Enumeration

namespace Thos.VirtualMemory

open Thos.Kernel
open Data.RadixForest
open Data.MachineInteger

/-! The operations on page numbers that a lookup and a traversal perform, with
the types that the integer promotions give them. -/

def intType : IntegerType := ⟨true, 32⟩

def uintptrType (target : Target) : IntegerType := ⟨false, target.pointerBits⟩

def productType (target : Target) : IntegerType :=
  .common (.promoteField intType (uintptrType target)
    target.physicalPageNumberBitwidth) intType

def sumType (target : Target) : IntegerType :=
  .common (productType target) (.promoteField intType (uintptrType target) 12)

namespace PageTableEntry

/-- `page_num * PAGE_SIZE` in `get_linked`, where `page_num` is a `uintptr_t`. -/
def linkedProduct (target : Target) (entry : PageTableEntry) : Operation :=
  ⟨.common (uintptrType target) intType, (entry.physicalPageNum * pageSize : Nat)⟩

def product (target : Target) (entry : PageTableEntry) : Operation :=
  ⟨productType target, (entry.physicalPageNum * pageSize : Nat)⟩

def sum (target : Target) (entry : PageTableEntry) (address : VirtualAddress) :
    Operation :=
  ⟨sumType target,
    (sumType target).wrap (entry.product target).value + address.pageOffset⟩

def recordedGetLinked (target : Target) (entry : PageTableEntry) :
    Outcome (Nat × List Operation) :=
  if entry.flags.valid = false then
    .error (.panic "passed invalid entry to get_linked_table")
  else .ok (target.sizeT (entry.linkedProduct target).value,
    [entry.linkedProduct target])

end PageTableEntry

/-- What a traversal does, in order: operations and printed lines. -/
inductive PrintEvent where
  | operation (operation : Operation)
  | line (line : PageAddressLine)
  deriving DecidableEq, Repr

namespace PrintEvent

def operation? : PrintEvent → Option Operation
  | operation performed => some performed
  | line _ => none

def line? : PrintEvent → Option PageAddressLine
  | operation _ => none
  | line printed => some printed

def operations (events : List PrintEvent) : List Operation :=
  events.filterMap operation?

def lines (events : List PrintEvent) : List PageAddressLine :=
  events.filterMap line?

end PrintEvent

namespace PageTable

def recordedPhysicalAddressLoop (target : Target) (memory : Memory)
    (address : VirtualAddress) :
    Nat → Nat → Outcome (PageTableEntry × List Operation)
  | 0, table => do
      let pointer ← entryPointer target address 0 table
      pure (memory.entry pointer, [])
  | level + 1, table => do
      let pointer ← entryPointer target address (level + 1) table
      if (memory.entry pointer).flags.valid = false then
        throw (.panic "Invalid inner table at level %u")
      let (linked, first) ← (memory.entry pointer).recordedGetLinked target
      let (entry, later) ← recordedPhysicalAddressLoop target memory address
        level linked
      pure (entry, first ++ later)

def recordedPhysicalAddress (target : Target) (memory : Memory) (table : Nat)
    (address : VirtualAddress) : Outcome (Nat × List Operation) := do
  let (entry, operations) ← recordedPhysicalAddressLoop target memory address
    target.virtualMemoryTopLevel table
  pure (target.sizeT (entry.sum target address).value,
    operations ++ [entry.product target, entry.sum target address])

def recordedLine (target : Target) (virtualAddress : VirtualAddress)
    (entry : PageTableEntry) : List PrintEvent :=
  let physicalAddress := target.sizeT (entry.product target).value
  [.operation (entry.product target),
    .line (if virtualAddress.value = physicalAddress then
      .transparent virtualAddress
      else .translated virtualAddress physicalAddress)]

def recordedPageAddresses (target : Target) (memory : Memory) :
    Nat → Nat → VirtualAddress → Outcome (List PrintEvent)
  | 0, table, address => printLoop target memory
      (fun address entry => .ok (recordedLine target address entry))
      0 table (pageSize / target.sizeofUintptr) 0 address
  | level + 1, table, address => printLoop target memory
      (fun address entry => do
        let (linked, operations) ← entry.recordedGetLinked target
        let events ← recordedPageAddresses target memory level linked address
        pure (operations.map .operation ++ events))
      (level + 1) table (pageSize / target.sizeofUintptr) 0 address

end PageTable

theorem sizeT_value {target : Target} {operation : Operation} {exact : Nat}
    (sized : operation.type.bits = target.pointerBits)
    (result : operation.result % 2 ^ target.pointerBits =
      exact % 2 ^ target.pointerBits) :
    target.sizeT operation.value = target.uintptr exact := by
  have residue := operation.type.wrap_emod operation.result
  rw [sized, result] at residue
  rw [Target.sizeT, Operation.value, residue, Target.uintptr]
  exact_mod_cast Int.toNat_natCast _

theorem productType_eq (target : Target) :
    productType target = if target = .riscv32 then intType else uintptrType target :=
      by
  cases target <;> decide

theorem sumType_eq (target : Target) : sumType target = productType target := by
  cases target <;> decide

theorem linkedType_eq (target : Target) :
    IntegerType.common (uintptrType target) intType = uintptrType target := by
  cases target <;> decide

theorem productType_bits (target : Target) :
    (productType target).bits = target.pointerBits := by
  cases target <;> decide

namespace PageTableEntry

variable {target : Target} {entry : PageTableEntry} {address : VirtualAddress}

theorem linkedProduct_value (target : Target) (entry : PageTableEntry) :
    target.sizeT (entry.linkedProduct target).value =
      target.uintptr (entry.physicalPageNum * pageSize) := by
  apply sizeT_value
  · rw [linkedProduct, linkedType_eq, uintptrType]
  · rfl

theorem product_value (target : Target) (entry : PageTableEntry) :
    target.sizeT (entry.product target).value =
      target.uintptr (entry.physicalPageNum * pageSize) :=
  sizeT_value (productType_bits target) rfl

theorem sum_value (target : Target) (entry : PageTableEntry)
    (address : VirtualAddress) :
    target.sizeT (entry.sum target address).value =
      target.uintptr (target.uintptr (entry.physicalPageNum * pageSize) +
        address.pageOffset) := by
  have bits : (sumType target).bits = target.pointerBits := by
    rw [sumType_eq, productType_bits]
  have sumResidue := (sumType target).wrap_emod (entry.product target).value
  have productResidue :=
    (productType target).wrap_emod (entry.physicalPageNum * pageSize : Nat)
  rw [bits] at sumResidue
  rw [productType_bits] at productResidue
  apply sizeT_value bits
  rw [sum, ← Int.emod_add_emod, sumResidue, product, Operation.value,
    productResidue, Target.uintptr]
  push_cast
  rfl

theorem recordedGetLinked_fst (target : Target) (entry : PageTableEntry) :
    (entry.recordedGetLinked target).map Prod.fst = entry.getLinked target := by
  rw [recordedGetLinked, getLinked]
  split
  · rfl
  · rw [← linkedProduct_value]
    rfl

theorem recordedGetLinked_ok {next : Nat}
    (follows : entry.getLinked target = .ok next) :
    entry.recordedGetLinked target = .ok (next, [entry.linkedProduct target]) := by
  rw [getLinked] at follows
  rw [recordedGetLinked, linkedProduct_value]
  split at follows
  case isTrue => contradiction
  case isFalse valid =>
    cases follows
    rw [if_neg valid]

end PageTableEntry

namespace PageTable

variable {target : Target} {memory : Memory} {address : VirtualAddress}
  {level table : Nat}

theorem recordedPhysicalAddressLoop_fst :
    (recordedPhysicalAddressLoop target memory address level table).map Prod.fst =
      getPhysicalAddressLoop target memory address level table := by
  induction level generalizing table with
  | zero =>
      rw [recordedPhysicalAddressLoop, getPhysicalAddressLoop]
      cases entryPointer target address 0 table <;> rfl
  | succ level induction =>
      rw [recordedPhysicalAddressLoop, getPhysicalAddressLoop]
      cases entryPointer target address (level + 1) table with
      | error stop => rfl
      | ok pointer =>
          simp only [Outcome.ok_bind]
          split
          · rfl
          · rw [← PageTableEntry.recordedGetLinked_fst]
            cases (memory.entry pointer).recordedGetLinked target with
            | error stop => rfl
            | ok followed =>
                have below := @induction followed.1
                simp only [Outcome.ok_bind, Except.map]
                rw [← below]
                cases recordedPhysicalAddressLoop target memory address level
                  followed.1 <;> rfl

theorem recordedPhysicalAddress_fst :
    (recordedPhysicalAddress target memory table address).map Prod.fst =
      getPhysicalAddress target memory table address := by
  rw [recordedPhysicalAddress, getPhysicalAddress, ← recordedPhysicalAddressLoop_fst]
  cases recordedPhysicalAddressLoop target memory address
      target.virtualMemoryTopLevel table with
  | error stop => rfl
  | ok walked =>
      simp only [Outcome.ok_bind, Except.map, PageTableEntry.sum_value]
      rfl

theorem printLoop_filterMap {Event Kept : Type} {keep : Event → Option Kept}
    {visit : VirtualAddress → PageTableEntry → Outcome (List Event)}
    {visitKept : VirtualAddress → PageTableEntry → Outcome (List Kept)}
    (visits : ∀ address entry,
      (visit address entry).map (List.filterMap keep) = visitKept address entry)
    {remaining number : Nat} {address : VirtualAddress} :
    (printLoop target memory visit level table remaining number address).map
        (List.filterMap keep) =
      printLoop target memory visitKept level table remaining number address := by
  induction remaining generalizing number address with
  | zero => rfl
  | succ remaining induction =>
      rw [printLoop, printLoop]
      split
      · exact induction
      · cases address.setLevelEntryNumber target level number with
        | error stop => rfl
        | ok address =>
            simp only [Outcome.ok_bind]
            rw [← visits]
            cases visit address _ with
            | error stop => rfl
            | ok events =>
                simp only [Outcome.ok_bind, Except.map]
                rw [← induction]
                cases printLoop target memory visit level table remaining
                  (number + 1) address with
                | error stop => rfl
                | ok later =>
                    exact congrArg Except.ok List.filterMap_append

theorem recordedLine_lines (target : Target) (address : VirtualAddress)
    (entry : PageTableEntry) :
    PrintEvent.lines (recordedLine target address entry) =
      [printLine target address entry] := by
  rw [recordedLine, printLine, PageTableEntry.product_value]
  rfl

theorem recordedPageAddresses_lines :
    (recordedPageAddresses target memory level table address).map
        PrintEvent.lines =
      printPageAddresses target memory level table address := by
  induction level generalizing table address with
  | zero =>
      apply printLoop_filterMap
      intro address entry
      exact congrArg Except.ok (recordedLine_lines target address entry)
  | succ level induction =>
      apply printLoop_filterMap
      intro address entry
      rw [← PageTableEntry.recordedGetLinked_fst]
      cases entry.recordedGetLinked target with
      | error stop => rfl
      | ok followed =>
          simp only [Outcome.ok_bind, Except.map]
          rw [← induction]
          cases recordedPageAddresses target memory level followed.1 address with
          | error stop => rfl
          | ok events =>
              have dropped : PrintEvent.lines (followed.2.map .operation) = [] := by
                rw [PrintEvent.lines, List.filterMap_map]
                exact List.filterMap_eq_nil_iff.mpr fun _ _ => rfl
              apply congrArg Except.ok
              rw [List.filterMap_append]
              exact congrArg (· ++ _) dropped

end PageTable

namespace PageTableEntry

variable {target : Target} {entry : PageTableEntry} {address : VirtualAddress}

theorem linkedProduct_inRange
    (bound : entry.physicalPageNum * pageSize < 2 ^ target.pointerBits) :
    (entry.linkedProduct target).InRange := by
  rw [Operation.InRange, linkedProduct, linkedType_eq]
  exact IntegerType.holds_unsigned.mpr bound

theorem product_inRange_iff
    (fits : entry.physicalPageNum < 2 ^ target.physicalPageNumberBitwidth) :
    (entry.product target).InRange ↔
      (target = .riscv32 → entry.physicalPageNum * pageSize < 2 ^ 31) := by
  rw [Operation.InRange, product, productType_eq]
  cases target with
  | riscv64 =>
      rw [if_neg Target.noConfusion, uintptrType, IntegerType.holds_unsigned]
      simp only [Target.physicalPageNumberBitwidth] at fits
      simp only [Target.pointerBits, pageSize, reduceCtorEq, false_implies, iff_true]
      omega
  | riscv32 =>
      rw [if_pos rfl, intType, IntegerType.holds_signed]
      simp only [true_implies]

theorem add_offset_lt {number offset : Nat} (inside : offset < pageSize)
    (below : number * pageSize < 2 ^ 31) :
    number * pageSize + offset < 2 ^ 31 := by
  simp only [pageSize] at *
  have pages : number < 2 ^ 19 := by omega
  clear below
  omega

theorem sum_inRange
    (fits : entry.physicalPageNum < 2 ^ target.physicalPageNumberBitwidth)
    (inRange : (entry.product target).InRange) :
    (entry.sum target address).InRange := by
  have sized : 0 < (productType target).bits := by
    cases target <;> decide
  have offset : address.pageOffset < pageSize := Nat.mod_lt _ pageSize_pos
  have small := (product_inRange_iff fits).mp inRange
  have exact : (entry.sum target address).result =
      (entry.physicalPageNum * pageSize + address.pageOffset : Nat) := by
    rw [sum, inRange.value_eq sized, sumType_eq,
      IntegerType.wrap_of_holds sized inRange, product]
    push_cast
    rfl
  rw [Operation.InRange, exact, sum, sumType_eq, productType_eq]
  cases target with
  | riscv64 =>
      rw [if_neg Target.noConfusion, uintptrType, IntegerType.holds_unsigned]
      simp only [Target.physicalPageNumberBitwidth] at fits
      simp only [pageSize] at offset
      simp only [Target.pointerBits, pageSize]
      omega
  | riscv32 =>
      rw [if_pos rfl]
      exact IntegerType.holds_signed.mpr (add_offset_lt offset (small rfl))

theorem translation_allInRange_iff
    (fits : entry.physicalPageNum < 2 ^ target.physicalPageNumberBitwidth) :
    AllInRange [entry.product target, entry.sum target address] ↔
      (target = .riscv32 → entry.physicalPageNum * pageSize < 2 ^ 31) := by
  rw [allInRange_cons, allInRange_cons, ← product_inRange_iff fits]
  constructor
  · exact And.left
  · intro inRange
    exact ⟨inRange, sum_inRange fits inRange, allInRange_nil⟩

end PageTableEntry

section

variable {layout : Layout} {memory : Memory} {roots : List Nat}
  {calls : List MapCall} {place : Tables layout.target} {level table base : Nat}

theorem WellFormed.linkedProduct_inRange (wellFormed : WellFormed layout memory place)
    {root : Nat} {path : List (Slot layout.target)}
    (placed : place table = some (root, path))
    (above : path.length < layout.target.virtualMemoryTopLevel)
    {slot : Slot layout.target}
    (valid : (memory.slotEntry layout.target table slot).flags.valid = true) :
    ((memory.slotEntry layout.target table slot).linkedProduct
      layout.target).InRange := by
  rcases wellFormed.inner table root path placed above slot with
    empty | ⟨next, linked, placedNext⟩
  · rw [empty] at valid
    contradiction
  · have aligned := (wellFormed.pool next root _ placedNext).1
    have inPool := wellFormed.table_lt placedNext
    apply PageTableEntry.linkedProduct_inRange
    rw [linked, PageTableEntry.link, Nat.div_mul_cancel aligned]
    exact layout.address_lt_of_pool (Nat.le_of_lt inPool)

namespace PageTable

theorem recordedPhysicalAddressLoop_allInRange
    (wellFormed : WellFormed layout memory place) {root : Nat}
    {path : List (Slot layout.target)} (placed : place table = some (root, path))
    (remaining : path.length + level = layout.target.virtualMemoryTopLevel)
    {address : VirtualAddress} {entry : PageTableEntry}
    {operations : List Operation}
    (recorded : recordedPhysicalAddressLoop layout.target memory address level
      table = .ok (entry, operations)) : AllInRange operations := by
  induction level generalizing table path operations with
  | zero =>
      obtain ⟨pointer, _, returned⟩ := Outcome.bind_eq_ok.mp recorded
      cases returned
      exact allInRange_nil
  | succ level induction =>
      rw [recordedPhysicalAddressLoop, entryPointer_eq wellFormed placed address
        (by omega), Outcome.ok_bind] at recorded
      generalize address.slot layout.target (level + 1) = slot at recorded
      have entryEq : memory.entry (entryAddress layout.target table slot.val) =
          memory.slotEntry layout.target table slot := rfl
      rw [entryEq] at recorded
      cases valid : (memory.slotEntry layout.target table slot).flags.valid with
      | false =>
          rw [if_pos valid] at recorded
          contradiction
      | true =>
          have inRange := wellFormed.linkedProduct_inRange placed (by omega) valid
          obtain ⟨isValid, follows, placedNext, fewer⟩ :=
            wellFormed.follow placed remaining (Memory.child_of_valid valid)
          rw [if_neg isValid, PageTableEntry.recordedGetLinked_ok follows,
            Outcome.ok_bind] at recorded
          obtain ⟨⟨below, later⟩, walked, returned⟩ := Outcome.bind_eq_ok.mp recorded
          cases returned
          rw [allInRange_append, allInRange_cons]
          exact ⟨⟨inRange, allInRange_nil⟩, induction placedNext fewer walked⟩

theorem recordedPhysicalAddress_of_leaf (wellFormed : WellFormed layout memory place)
    {root : Nat} (rooted : place.Rooted root) {address : VirtualAddress}
    {entry : PageTableEntry}
    (leaf : memory.leafEntry layout.target root address = some entry)
    (fits : entry.physicalPageNum < 2 ^ layout.target.physicalPageNumberBitwidth) :
    ∃ value operations, recordedPhysicalAddress layout.target memory root address =
        .ok (value, operations) ∧
      (AllInRange operations ↔ (layout.target = .riscv32 →
        entry.physicalPageNum * pageSize < 2 ^ 31)) := by
  have looped := getPhysicalAddressLoop_of_leaf wellFormed rooted leaf
  rw [← recordedPhysicalAddressLoop_fst] at looped
  cases recorded : recordedPhysicalAddressLoop layout.target memory address
      layout.target.virtualMemoryTopLevel root with
  | error stop =>
      rw [recorded] at looped
      contradiction
  | ok walked =>
      obtain ⟨found, operations⟩ := walked
      rw [recorded] at looped
      cases looped
      have followed := recordedPhysicalAddressLoop_allInRange wellFormed rooted
        (Nat.zero_add _) recorded
      refine ⟨_, _, by rw [recordedPhysicalAddress, recorded]; rfl, ?_⟩
      rw [allInRange_append, and_iff_right followed,
        PageTableEntry.translation_allInRange_iff fits]

/-- A loop stays in range iff the products of its leaves do, when each visit
does so for the leaves of its own block. -/
theorem printLoop_allInRange {target : Target}
    {blocks : Slot target → List (Nat × PageTableEntry)}
    {visit : VirtualAddress → PageTableEntry → Outcome (List PrintEvent)}
    (bound : level ≤ target.virtualMemoryTopLevel)
    (visits : ∀ slot, ∃ events,
      ((memory.slotEntry target table slot).flags.valid = false → events = []) ∧
      ((memory.slotEntry target table slot).flags.valid = true →
        visit (.first target level (base * target.entries + slot.val))
          (memory.slotEntry target table slot) = .ok events) ∧
      (AllInRange (PrintEvent.operations events) ↔
        ∀ leaf ∈ blocks slot, (leaf.2.product target).InRange))
    {address : VirtualAddress} (above : address.Above target level base) :
    ∃ events, printLoop target memory visit level table
        (pageSize / target.sizeofUintptr) 0 address = .ok events ∧
      (AllInRange (PrintEvent.operations events) ↔
        ∀ leaf ∈ (List.finRange target.entries).flatMap blocks,
          (leaf.2.product target).InRange) := by
  obtain ⟨expected, visits⟩ := Classical.skolem.mp visits
  have looped := printLoop_eq bound (fun slot => (visits slot).1)
    (fun slot => (visits slot).2.1) (Nat.zero_add _) above
  refine ⟨_, by rw [entries_eq, looped], ?_⟩
  rw [List.drop_zero, PrintEvent.operations, List.filterMap_flatMap,
    allInRange_flatMap, List.forall_mem_flatMap]
  apply forall_congr'
  intro slot
  exact imp_congr_right fun _ => (visits slot).2.2

theorem recordedPageAddresses_allInRange
    (wellFormed : WellFormed layout memory place) {root : Nat}
    {path : List (Slot layout.target)} (placed : place table = some (root, path))
    (remaining : path.length + level = layout.target.virtualMemoryTopLevel)
    {address : VirtualAddress} (above : address.Above layout.target level base) :
    ∃ events, recordedPageAddresses layout.target memory level table address =
        .ok events ∧
      (AllInRange (PrintEvent.operations events) ↔
        ∀ leaf ∈ enumerate (memory.child layout.target) (memory.leaf layout.target)
          level table base, (leaf.2.product layout.target).InRange) := by
  induction level generalizing table path base address with
  | zero =>
      rw [recordedPageAddresses, enumerate]
      refine printLoop_allInRange (by omega) ?_ above
      intro slot
      cases valid : (memory.slotEntry layout.target table slot).flags.valid with
      | false =>
          refine ⟨[], fun _ => rfl, Bool.noConfusion, ?_⟩
          rw [Memory.leaf_of_invalid valid]
          exact iff_of_true allInRange_nil (List.forall_mem_nil _)
      | true =>
          refine ⟨_, Bool.noConfusion, fun _ => rfl, ?_⟩
          rw [Memory.leaf, if_pos valid, Option.elim_some, List.forall_mem_singleton]
          exact List.forall_mem_singleton
  | succ level induction =>
      rw [recordedPageAddresses, enumerate]
      refine printLoop_allInRange (by omega) ?_ above
      intro slot
      cases valid : (memory.slotEntry layout.target table slot).flags.valid with
      | false =>
          refine ⟨[], fun _ => rfl, Bool.noConfusion, ?_⟩
          rw [Memory.child_of_invalid valid]
          exact iff_of_true allInRange_nil (List.forall_mem_nil _)
      | true =>
          have linked := Memory.child_of_valid valid
          have followed := wellFormed.linkedProduct_inRange placed (by omega) valid
          obtain ⟨_, follows, placedNext, fewer⟩ :=
            wellFormed.follow placed remaining linked
          obtain ⟨events, printed, inRange⟩ := induction placedNext fewer
            (.first_succ layout.target level
              (base * layout.target.entries + slot.val))
          refine ⟨.operation ((memory.slotEntry layout.target table
            slot).linkedProduct layout.target) :: events, Bool.noConfusion, ?_, ?_⟩
          · intro _
            rw [PageTableEntry.recordedGetLinked_ok follows, Outcome.ok_bind]
            simp only [printed, Outcome.ok_bind]
            rfl
          · rw [linked, Option.elim_some, ← inRange]
            exact allInRange_cons.trans (and_iff_right followed)

end PageTable

namespace Represents

variable {pages : PageMap} {root : Nat}

theorem physicalPageNum_fits (represents : Represents layout memory roots pages)
    {index physicalAddress : Nat} {flags : PageTableEntryFlags}
    (entry : pages (root, index) = some (physicalAddress, flags)) :
    (PageTableEntry.mapped layout.target physicalAddress flags).physicalPageNum <
        2 ^ layout.target.physicalPageNumberBitwidth ∧
      (PageTableEntry.mapped layout.target physicalAddress
        flags).physicalPageNum * pageSize = physicalAddress := by
  obtain ⟨aligned, _, numberFits⟩ := represents.fits _ _ _ _ entry
  rw [PageTableEntry.mapped, Nat.mod_eq_of_lt numberFits]
  exact ⟨numberFits, Nat.div_mul_cancel aligned⟩

theorem recordedPhysicalAddress_eq (represents : Represents layout memory roots pages)
    (member : root ∈ roots) {address : VirtualAddress}
    {physicalAddress : Nat} {flags : PageTableEntryFlags}
    (entry : pages (root, address.pageIndex layout.target) =
      some (physicalAddress, flags)) :
    ∃ operations, PageTable.recordedPhysicalAddress layout.target memory root
        address = .ok (physicalAddress + address.pageOffset, operations) ∧
      (AllInRange operations ↔
        (layout.target = .riscv32 → physicalAddress < 2 ^ 31)) := by
  obtain ⟨place, wellFormed, rooted⟩ := represents.shape
  obtain ⟨numberFits, product⟩ := represents.physicalPageNum_fits entry
  have leaf := represents.leaves root member address
  rw [entry, Option.map_some] at leaf
  obtain ⟨value, operations, recorded, inRange⟩ :=
    PageTable.recordedPhysicalAddress_of_leaf wellFormed (rooted root member) leaf
      numberFits
  have returned := represents.getPhysicalAddress_eq member entry
  rw [← PageTable.recordedPhysicalAddress_fst, recorded] at returned
  cases returned
  rw [product] at inRange
  exact ⟨operations, recorded, inRange⟩

theorem recordedPageAddresses_eq (represents : Represents layout memory roots pages)
    (bounded : ∀ index, (pages (root, index)).isSome →
      index < layout.target.virtualPages)
    (member : root ∈ roots) :
    ∃ events, PageTable.recordedPageAddresses layout.target memory
        layout.target.virtualMemoryTopLevel root ⟨0⟩ = .ok events ∧
      PageTable.printPageAddresses layout.target memory
        layout.target.virtualMemoryTopLevel root ⟨0⟩ =
          .ok (PrintEvent.lines events) ∧
      (AllInRange (PrintEvent.operations events) ↔
        ∀ index physicalAddress flags,
          pages (root, index) = some (physicalAddress, flags) →
            layout.target = .riscv32 → physicalAddress < 2 ^ 31) := by
  obtain ⟨place, wellFormed, rooted⟩ := represents.shape
  obtain ⟨events, recorded, inRange⟩ := PageTable.recordedPageAddresses_allInRange
    wellFormed (rooted root member) (Nat.zero_add _)
    (⟨Nat.zero_div _, Nat.dvd_zero _⟩ : VirtualAddress.Above layout.target ⟨0⟩
      layout.target.virtualMemoryTopLevel 0)
  have printed := @PageTable.recordedPageAddresses_lines layout.target memory ⟨0⟩
    layout.target.virtualMemoryTopLevel root
  rw [recorded] at printed
  refine ⟨events, recorded, printed.symm, inRange.trans ?_⟩
  constructor
  · intro products index physicalAddress flags entry
    obtain ⟨numberFits, product⟩ := represents.physicalPageNum_fits entry
    have bound := bounded index (by rw [entry]; rfl)
    have leaf := represents.leaves root member (.first layout.target 0 index)
    rw [VirtualAddress.pageIndex_first bound, entry, Option.map_some] at leaf
    have inRange := products _ (PageTable.mem_leaves_iff.mpr ⟨bound, leaf⟩)
    rw [PageTableEntry.product_inRange_iff numberFits, product] at inRange
    exact inRange
  · rintro small ⟨index, entry⟩ leaf
    obtain ⟨bound, leaf⟩ := PageTable.mem_leaves_iff.mp leaf
    rw [represents.leaves root member, VirtualAddress.pageIndex_first bound] at leaf
    obtain ⟨⟨physicalAddress, flags⟩, entry, rfl⟩ := Option.map_eq_some_iff.mp leaf
    obtain ⟨numberFits, product⟩ := represents.physicalPageNum_fits entry
    rw [PageTableEntry.product_inRange_iff numberFits, product]
    exact small index physicalAddress flags entry

end Represents

theorem PageMap.index_lt {target : Target} {root index : Nat}
    (mapped : (PageMap.ofCalls target calls (root, index)).isSome) :
    index < target.virtualPages := by
  by_contra outside
  rw [PageMap.ofCalls_of_never target] at mapped
  · contradiction
  · intro call _ _ same
    apply outside
    rw [← same]
    exact Nat.mod_lt _ (Nat.pow_pos target.entries_pos)

/-- On riscv32 a page number times the page size is an `int`: a lookup stays in
range iff the page lies below 2 GiB, and a traversal iff all pages of its table
do.  On riscv64 both always stay in range. -/
theorem walk_in_range_iff (run : Run layout memory roots calls) {root : Nat}
    (member : root ∈ roots) :
    (∀ (address : VirtualAddress) (physicalAddress : Nat)
      (flags : PageTableEntryFlags),
      PageMap.ofCalls layout.target calls (root, address.pageIndex layout.target) =
        some (physicalAddress, flags) →
      ∃ operations, PageTable.recordedPhysicalAddress layout.target memory root
          address = .ok (physicalAddress + address.pageOffset, operations) ∧
        (AllInRange operations ↔
          (layout.target = .riscv32 → physicalAddress < 2 ^ 31))) ∧
    ∃ events, PageTable.recordedPageAddresses layout.target memory
        layout.target.virtualMemoryTopLevel root ⟨0⟩ = .ok events ∧
      PageTable.printPageAddresses layout.target memory
        layout.target.virtualMemoryTopLevel root ⟨0⟩ =
          .ok (PrintEvent.lines events) ∧
      (AllInRange (PrintEvent.operations events) ↔
        ∀ index physicalAddress flags,
          PageMap.ofCalls layout.target calls (root, index) =
            some (physicalAddress, flags) →
          layout.target = .riscv32 → physicalAddress < 2 ^ 31) := by
  have represents := Represents.of_run run
  constructor
  · intro address physicalAddress flags entry
    exact represents.recordedPhysicalAddress_eq member entry
  · exact represents.recordedPageAddresses_eq (fun _ => PageMap.index_lt) member

end

def Layout.small32 : Layout := ⟨.riscv32, Layout.small.image, by decide⟩

def MapCall.transparent32 (address : Nat) : MapCall :=
  ⟨Layout.small32.pages.startAddress, ⟨address⟩, address, { write := true }⟩

def MapCall.kernel32 : List MapCall :=
  [.transparent32 0x10000000, .transparent32 Image.memoryStart]

set_option maxRecDepth 100000 in
theorem MapCall.kernel32_run : ∃ memory, Run Layout.small32 memory
    [Layout.small32.pages.startAddress] MapCall.kernel32 := by
  have start : Run Layout.small32 Memory.unused [] [] := .start rfl
  have device := @Run.map Layout.small32 _ _ _ [] (.transparent32 0x10000000)
    (start.alloc rfl) (List.mem_singleton.mpr rfl) ⟨by decide, by decide⟩ rfl
  exact ⟨_, @Run.map Layout.small32 _ _ _ [.transparent32 0x10000000]
    (.transparent32 Image.memoryStart) device (List.mem_singleton.mpr rfl)
    ⟨by decide, by decide⟩ rfl⟩

theorem MapCall.kernel32_device : PageMap.ofCalls .riscv32 MapCall.kernel32
    (Layout.small32.pages.startAddress,
      VirtualAddress.pageIndex .riscv32 ⟨0x10000123⟩) =
    some (0x10000000, { write := true }) := by
  apply @PageMap.ofCalls_of_last .riscv32 (.transparent32 0x10000000) []
    [.transparent32 Image.memoryStart]
  intro other later _
  rw [List.mem_singleton.mp later]
  decide

theorem MapCall.kernel32_memory : PageMap.ofCalls .riscv32 MapCall.kernel32
    (Layout.small32.pages.startAddress,
      VirtualAddress.pageIndex .riscv32 ⟨Image.memoryStart⟩) =
    some (Image.memoryStart, { write := true }) :=
  PageMap.ofCalls_of_last .riscv32 [.transparent32 0x10000000] (List.forall_mem_nil _)

theorem walk_in_range_iff_sample : ∃ memory operations,
    Run Layout.small32 memory [Layout.small32.pages.startAddress] MapCall.kernel32 ∧
      PageTable.recordedPhysicalAddress .riscv32 memory
        Layout.small32.pages.startAddress ⟨0x10000123⟩ =
          .ok (0x10000123, operations) ∧
      AllInRange operations := by
  obtain ⟨memory, run⟩ := MapCall.kernel32_run
  have lookups := (walk_in_range_iff run (List.mem_singleton.mpr rfl)).1
  obtain ⟨operations, recorded, inRange⟩ :=
    lookups ⟨0x10000123⟩ _ _ MapCall.kernel32_device
  exact ⟨memory, operations, run, recorded, inRange.mpr fun _ => by decide⟩

/-- The first page of the kernel lies above the range of `int`. -/
theorem kernel_page_overflows : ∃ memory operations events,
    Run Layout.small32 memory [Layout.small32.pages.startAddress] MapCall.kernel32 ∧
      PageTable.recordedPhysicalAddress .riscv32 memory
        Layout.small32.pages.startAddress ⟨Image.memoryStart⟩ =
          .ok (Image.memoryStart, operations) ∧
      ¬AllInRange operations ∧
      PageTable.recordedPageAddresses .riscv32 memory 1
        Layout.small32.pages.startAddress ⟨0⟩ = .ok events ∧
      ¬AllInRange (PrintEvent.operations events) := by
  obtain ⟨memory, run⟩ := MapCall.kernel32_run
  have represents := Represents.of_run run
  have member := List.mem_singleton.mpr (rfl : Layout.small32.pages.startAddress = _)
  have high : ¬Image.memoryStart < 2 ^ 31 := by decide
  obtain ⟨operations, looked, lookup⟩ :=
    represents.recordedPhysicalAddress_eq member MapCall.kernel32_memory
  obtain ⟨events, printed, _, traversal⟩ :=
    represents.recordedPageAddresses_eq (fun _ => PageMap.index_lt) member
  refine ⟨memory, operations, events, run, looked, ?_, printed, ?_⟩
  · intro inRange
    exact high (lookup.mp inRange rfl)
  · intro inRange
    exact high (traversal.mp inRange _ _ _ MapCall.kernel32_memory rfl)

end Thos.VirtualMemory
