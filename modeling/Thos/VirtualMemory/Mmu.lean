import Thos.Scheduling.UserEntry
import Thos.VirtualMemory.Calls
import Thos.VirtualMemory.Words

namespace Thos.VirtualMemory

open Data.BitField
open Data.RadixForest
open Thos.Kernel
open Scheduling (Word satpFromPageTable satpMode)

/-! The address translation of the hart, Sv39 or Sv32, on the words of memory. -/

/-- The privilege mode, the bits `SUM` and `MXR` of `sstatus`, and the access. -/
structure Accessor where
  supervisor : Bool
  sum : Bool
  mxr : Bool
  access : Access
  deriving DecidableEq, Repr

def Accessor.isStore (accessor : Accessor) : Bool := accessor.access == .store

def PageTableEntryFlags.permits (accessor : Accessor) (flags : PageTableEntryFlags) :
    Bool :=
  (if accessor.supervisor then
    !flags.user || (accessor.sum && accessor.access != .fetch)
  else flags.user) &&
  match accessor.access with
  | .fetch => flags.execute
  | .load => flags.read || (accessor.mxr && flags.execute)
  | .store => flags.write

/-- The fields of `satp`: page number, address space, mode. -/
def satpWidths : Target → List Nat
  | .riscv64 => [44, 16, 4]
  | .riscv32 => [22, 9, 1]

namespace Mmu

/-- What the hart makes of one entry. -/
inductive Step where
  | fault
  | leaf
  | next (table : Nat)
  deriving DecidableEq, Repr

def step (entry : PageTableEntry) : Step :=
  if !entry.flags.valid || (!entry.flags.read && entry.flags.write) ||
      entry.reserved != 0 then .fault
  else if entry.flags.read || entry.flags.execute then .leaf
  else if entry.flags.user || entry.flags.accessed || entry.flags.dirty then .fault
  else .next (entry.physicalPageNum * pageSize)

structure Leaf where
  level : Nat
  pointer : Nat
  entry : PageTableEntry
  deriving DecidableEq, Repr

def walk (target : Target) (words : Nat → Nat) (address : VirtualAddress) :
    Nat → Nat → Option Leaf
  | 0, table =>
      let pointer := PageTable.entryAddress target table
        (address.levelEntryNumber target 0)
      let entry := PageTableEntry.ofWord target (words pointer)
      match step entry with
      | .leaf => some ⟨0, pointer, entry⟩
      | _ => none
  | level + 1, table =>
      let pointer := PageTable.entryAddress target table
        (address.levelEntryNumber target (level + 1))
      let entry := PageTableEntry.ofWord target (words pointer)
      match step entry with
      | .fault => none
      | .leaf => some ⟨level + 1, pointer, entry⟩
      | .next next => walk target words address level next

/-- The physical address in the page of a leaf, which is larger above level 0. -/
def Leaf.physicalAddress (target : Target) (leaf : Leaf) (address : VirtualAddress) :
    Option Nat :=
  let pages := target.entries ^ leaf.level
  if leaf.entry.physicalPageNum % pages = 0 then
    some (leaf.entry.physicalPageNum * pageSize + address.value % (pageSize * pages))
  else none

/-- The bits above those of the levels repeat the highest of these on Sv39. -/
def canonical : Target → VirtualAddress → Bool
  | .riscv64, address =>
      address.value / 2 ^ 38 == 0 || address.value / 2 ^ 38 == 2 ^ 26 - 1
  | .riscv32, _ => true

/-- A physical address, and the entry whose `A` and `D` bits the access sets. -/
structure Translation where
  pointer : Option Nat
  physicalAddress : Nat
  deriving DecidableEq, Repr

/-- None is a page fault. -/
def translate (target : Target) (words : Nat → Nat) (satp : Nat) (accessor : Accessor)
    (address : VirtualAddress) : Option Translation :=
  let field (number : Nat) := (unpack (satpWidths target) satp).getD number 0
  if field 2 = 0 then some ⟨none, address.value⟩
  else if field 2 = satpMode target ∧ canonical target address then do
    let leaf ← walk target words address target.virtualMemoryTopLevel
      (field 0 * pageSize)
    if leaf.entry.flags.permits accessor then
      let physicalAddress ← leaf.physicalAddress target address
      some ⟨some leaf.pointer, physicalAddress⟩
    else none
  else none

def touched (words : Nat → Nat) (accessor : Accessor) (translation : Translation) :
    Nat → Nat :=
  match translation.pointer with
  | none => words
  | some pointer =>
      Function.update words pointer
        (words pointer ||| PageTableEntry.touchBits accessor.isStore)

end Mmu

/-! The walk over well-formed tables. -/

section

variable {layout : Layout} {memory : Memory} {place : Tables layout.target}

theorem PageTableEntry.InBits.empty (target : Target) :
    PageTableEntry.InBits target {} :=
  ⟨Nat.two_pow_pos _, Nat.two_pow_pos _, Nat.two_pow_pos _⟩

theorem WellFormed.link_inBits (wellFormed : WellFormed layout memory place)
    {next root : Nat} {path : List (Slot layout.target)}
    (placed : place next = some (root, path)) :
    (PageTableEntry.link next).InBits layout.target :=
  ⟨Nat.two_pow_pos _, layout.pageNumber_lt (Nat.le_of_lt (wellFormed.table_lt placed)),
    Nat.two_pow_pos _⟩

theorem PageTableEntry.IsLeaf.inBits {target : Target} {entry : PageTableEntry}
    (isLeaf : entry.IsLeaf)
    (number : entry.physicalPageNum < 2 ^ target.physicalPageNumberBitwidth) :
    entry.InBits target := by
  refine ⟨?_, number, ?_⟩
  · rw [isLeaf.reservedSupervisor]
    decide
  · rw [isLeaf.reserved]
    exact Nat.two_pow_pos _

theorem PageTableEntry.IsLeaf.step_leaf {entry : PageTableEntry}
    (isLeaf : entry.IsLeaf) : Mmu.step entry = .leaf := by
  simp [Mmu.step, isLeaf.valid, isLeaf.read, isLeaf.reserved]

theorem WellFormed.mmuWalk_eq (wellFormed : WellFormed layout memory place)
    (address : VirtualAddress) {level table root : Nat}
    {path : List (Slot layout.target)} (placed : place table = some (root, path))
    (remaining : path.length + level = layout.target.virtualMemoryTopLevel)
    (numbers : ∀ entry, lookup (memory.child layout.target)
      (memory.leaf layout.target) table (address.path layout.target level)
        (address.slot layout.target 0) = some entry →
      entry.physicalPageNum < 2 ^ layout.target.physicalPageNumberBitwidth) :
    Mmu.walk layout.target (memory.words layout.target) address level table =
      (walk (memory.child layout.target) table
        (address.path layout.target level)).bind fun bottom =>
          (memory.leaf layout.target bottom (address.slot layout.target 0)).map
            fun entry => ⟨0, PageTable.entryAddress layout.target bottom
              (address.slot layout.target 0).val, entry⟩ := by
  induction level generalizing table path with
  | zero =>
      have number := numbers
      simp only [lookup, VirtualAddress.path, walk_nil, Option.bind_some] at number ⊢
      have here : memory.words layout.target (PageTable.entryAddress layout.target
          table (address.levelEntryNumber layout.target 0)) =
          (memory.slotEntry layout.target table
            (address.slot layout.target 0)).word layout.target := rfl
      rw [Mmu.walk, here]
      rcases wellFormed.bottom table root path placed remaining
        (address.slot layout.target 0) with empty | isLeaf
      · rw [empty, PageTableEntry.ofWord_word (.empty _),
          Memory.leaf_of_invalid (by rw [empty])]
        rfl
      · have leaf : memory.leaf layout.target table (address.slot layout.target 0) =
            some _ := if_pos isLeaf.valid
        rw [PageTableEntry.ofWord_word (isLeaf.inBits (number _ leaf)),
          isLeaf.step_leaf, leaf]
        rfl
  | succ level induction =>
      have above : path.length < layout.target.virtualMemoryTopLevel := by omega
      have here : memory.words layout.target (PageTable.entryAddress layout.target
          table (address.levelEntryNumber layout.target (level + 1))) =
          (memory.slotEntry layout.target table
            (address.slot layout.target (level + 1))).word layout.target := rfl
      rw [Mmu.walk, here, VirtualAddress.path, walk_cons]
      rw [VirtualAddress.path, lookup, walk_cons] at numbers
      rcases wellFormed.inner table root path placed above
        (address.slot layout.target (level + 1)) with empty | ⟨next, linked, leads⟩
      · rw [empty, PageTableEntry.ofWord_word (.empty _),
          Memory.child_of_invalid (by rw [empty])]
        rfl
      · have child := wellFormed.child_link linked leads
        have aligned := (wellFormed.pool next root _ leads).1
        have goesOn : Mmu.step (.link next) = .next next := by
          simp [Mmu.step, PageTableEntry.link, Nat.div_mul_cancel aligned]
        rw [linked, PageTableEntry.ofWord_word (wellFormed.link_inBits leads), goesOn,
          child, Option.bind_some]
        rw [child, Option.bind_some] at numbers
        refine induction leads ?_ numbers
        rw [List.length_append, List.length_singleton]
        omega

/-- The word of `SatpRegister_from_PageTable`. -/
def satpOf (target : Target) (root : Nat) : Nat :=
  (satpFromPageTable (BitVec.ofNat target.pointerBits root)).toNat

theorem unpack_satpOf {target : Target} {root : Nat}
    (small : root < 2 ^ target.pointerBits) :
    unpack (satpWidths target) (satpOf target root) =
      [root / pageSize % 2 ^ target.physicalPageNumberBitwidth, 0, satpMode target] := by
  rw [satpOf, satpFromPageTable, BitVec.toNat_ofNat, BitVec.toNat_ofNat,
    Nat.mod_eq_of_lt small]
  cases target with
  | riscv64 =>
      simp only [satpWidths, satpMode, Scheduling.satpModeBitwidth, Target.pointerBits,
        Target.physicalPageNumberBitwidth, unpack, pageSize, List.cons.injEq,
        and_true] at *
      omega
  | riscv32 =>
      simp only [satpWidths, satpMode, Scheduling.satpModeBitwidth, Target.pointerBits,
        Target.physicalPageNumberBitwidth, unpack, pageSize, List.cons.injEq,
        and_true] at *
      omega

theorem Mmu.Leaf.physicalAddress_zero (target : Target) (pointer : Nat)
    (entry : PageTableEntry) (address : VirtualAddress) :
    (Mmu.Leaf.mk 0 pointer entry).physicalAddress target address =
      some (entry.physicalPageNum * pageSize + address.pageOffset) := by
  simp only [Leaf.physicalAddress, Nat.pow_zero, Nat.mod_one, if_true, Nat.mul_one]
  rfl

/-- Through the `satp` of a root the hart reads the leaf of the tables. -/
theorem WellFormed.translate_eq (wellFormed : WellFormed layout memory place)
    {root : Nat} (rooted : place.Rooted root) (accessor : Accessor)
    (address : VirtualAddress)
    (numbers : ∀ entry, memory.leafEntry layout.target root address = some entry →
      entry.physicalPageNum < 2 ^ layout.target.physicalPageNumberBitwidth) :
    Mmu.translate layout.target (memory.words layout.target)
        (satpOf layout.target root) accessor address =
      if Mmu.canonical layout.target address then
        (walk (memory.child layout.target) root
          (address.inner layout.target)).bind fun bottom =>
            (memory.leaf layout.target bottom (address.slot layout.target 0)).bind
              fun entry =>
                if entry.flags.permits accessor then
                  some ⟨some (PageTable.entryAddress layout.target bottom
                      (address.slot layout.target 0).val),
                    entry.physicalPageNum * pageSize + address.pageOffset⟩
                else none
      else none := by
  have bound := wellFormed.table_lt rooted
  have number := layout.pageNumber_lt (Nat.le_of_lt bound)
  have aligned := (wellFormed.pool root root [] rooted).1
  have mode : satpMode layout.target ≠ 0 := by cases layout.target <;> decide
  have fields := unpack_satpOf (layout.address_lt_of_pool (Nat.le_of_lt bound))
  rw [Nat.mod_eq_of_lt number] at fields
  simp only [Mmu.translate, fields, List.getD_cons_succ, List.getD_cons_zero, mode,
    if_false, true_and, Nat.div_mul_cancel aligned]
  rw [wellFormed.mmuWalk_eq address rooted (by simp) numbers]
  split
  · rw [Option.bind_eq_bind, Option.bind_assoc]
    congr 1
    funext bottom
    rw [Option.bind_map]
    congr 1
    funext entry
    simp only [Function.comp_apply, Mmu.Leaf.physicalAddress_zero]
    rfl
  · rfl

end

/-! Runs in which harts access memory between the calls. -/

/-- As `Run`, with the accesses that harts make through the roots. -/
inductive AccessRun (layout : Layout) : Memory → List Nat → List MapCall → Prop
  | start {memory : Memory} : memory.nextPage = 0 → AccessRun layout memory [] []
  | alloc {memory after : Memory} {roots : List Nat} {calls : List MapCall}
      {page : Nat} : AccessRun layout memory roots calls →
        Page.alloc layout memory = .ok (page, after) →
          AccessRun layout after (page :: roots) calls
  | map {memory after : Memory} {roots : List Nat} {calls : List MapCall}
      {call : MapCall} : AccessRun layout memory roots calls →
        call.root ∈ roots → call.Fits layout.target →
          PageTable.mapAddress layout memory call.root call.virtualAddress
            call.physicalAddress call.flags = .ok after →
          AccessRun layout after roots (calls ++ [call])
  | access {memory : Memory} {roots : List Nat} {calls : List MapCall}
      {root pointer physicalAddress : Nat} {accessor : Accessor}
      {address : VirtualAddress} : AccessRun layout memory roots calls →
        root ∈ roots →
          Mmu.translate layout.target (memory.words layout.target)
            (satpOf layout.target root) accessor address =
              some ⟨some pointer, physicalAddress⟩ →
          AccessRun layout (memory.write pointer
            ((memory.entry pointer).touch accessor.isStore)) roots calls

def PageTableEntry.untouched (entry : PageTableEntry) : PageTableEntry :=
  { entry with flags := { entry.flags with accessed := false, dirty := false } }

theorem PageTableEntry.IsLeaf.touch {entry : PageTableEntry} (isLeaf : entry.IsLeaf)
    (store : Bool) : (entry.touch store).IsLeaf :=
  ⟨isLeaf.valid, isLeaf.read, isLeaf.reservedSupervisor, isLeaf.reserved⟩

/-- As `Represents`, up to the `A` and `D` bits. -/
structure Translates (layout : Layout) (memory : Memory) (roots : List Nat)
    (pages : PageMap) : Prop where
  shape : ∃ place, WellFormed layout memory place ∧
    ∀ root ∈ roots, place.Rooted root
  leaves : ∀ root ∈ roots, ∀ address : VirtualAddress,
    (memory.leafEntry layout.target root address).map .untouched =
      (pages (root, address.pageIndex layout.target)).map fun page =>
        (PageTableEntry.mapped layout.target page.1 page.2).untouched
  unknown : ∀ root index, root ∉ roots → pages (root, index) = none
  fits : ∀ root index physicalAddress flags,
    pages (root, index) = some (physicalAddress, flags) →
      pageSize ∣ physicalAddress ∧
        MapCall.Fits layout.target ⟨root, ⟨index⟩, physicalAddress, flags⟩

namespace Translates

variable {layout : Layout} {memory after : Memory} {roots : List Nat}
  {pages : PageMap} {calls : List MapCall}

theorem start (unused : memory.nextPage = 0) :
    Translates layout memory [] fun _ => none :=
  ⟨⟨fun _ => none, .start unused, List.forall_mem_nil _⟩, List.forall_mem_nil _,
    fun _ _ _ => rfl, by simp⟩

theorem alloc {page : Nat} (translates : Translates layout memory roots pages)
    (allocated : Page.alloc layout memory = .ok (page, after)) :
    Translates layout after (page :: roots) pages := by
  obtain ⟨place, wellFormed, rooted⟩ := translates.shape
  have allocated := Page.alloc_allocated wellFormed allocated
  have older : ∀ root ∈ roots, root ≠ page := by
    rintro root member rfl
    have placed := rooted root member
    rw [Placement.Rooted, allocated.fresh wellFormed] at placed
    contradiction
  refine ⟨⟨_, allocated.rootWellFormed wellFormed, ?_⟩, ?_, ?_, translates.fits⟩
  · intro root member
    rcases List.mem_cons.mp member with rfl | old
    · exact Function.update_self ..
    · exact (Function.update_of_ne (older root old) _ _).trans (rooted root old)
  · intro root member address
    rcases List.mem_cons.mp member with rfl | old
    · rw [translates.unknown root _ fun old => older root old rfl,
        allocated.leafEntry_new address]
      rfl
    · rw [allocated.lookup_eq wellFormed (rooted root old) address]
      exact translates.leaves root old address
  · intro root index notMember
    exact translates.unknown root index fun old =>
      notMember (List.mem_cons_of_mem page old)

theorem map {call : MapCall} (translates : Translates layout memory roots pages)
    (member : call.root ∈ roots) (fits : call.Fits layout.target)
    (mapped : PageTable.mapAddress layout memory call.root call.virtualAddress
      call.physicalAddress call.flags = .ok after) :
    Translates layout after roots (pages.map layout.target call) := by
  obtain ⟨place, wellFormed, rooted⟩ := translates.shape
  obtain ⟨place', newWellFormed, grown, leaves⟩ :=
    PageTable.mapAddress_spec wellFormed (rooted call.root member) mapped
  refine ⟨⟨place', newWellFormed, fun root here =>
    grown root _ (rooted root here)⟩, ?_, ?_, ?_⟩
  · intro root here address
    rw [leaves root address (rooted root here), PageMap.map_apply]
    split
    · rfl
    · exact translates.leaves root here address
  · intro root index notMember
    rw [PageMap.map_apply, if_neg]
    · exact translates.unknown root index notMember
    · intro here
      exact notMember (here.1 ▸ member)
  · intro root index physicalAddress flags entry
    rw [PageMap.map_apply] at entry
    split at entry
    · cases entry
      exact ⟨PageTable.mapAddress_aligned mapped, fits⟩
    · exact translates.fits root index physicalAddress flags entry

theorem number_lt (translates : Translates layout memory roots pages) {root : Nat}
    (member : root ∈ roots) (address : VirtualAddress) (entry : PageTableEntry)
    (leaf : memory.leafEntry layout.target root address = some entry) :
    entry.physicalPageNum < 2 ^ layout.target.physicalPageNumberBitwidth := by
  have here := translates.leaves root member address
  rw [leaf, Option.map_some] at here
  obtain ⟨page, _, same⟩ := Option.map_eq_some_iff.mp here.symm
  have number := congrArg PageTableEntry.physicalPageNum same
  exact number ▸ Nat.mod_lt _ (Nat.two_pow_pos _)

theorem access {root pointer physicalAddress : Nat} {accessor : Accessor}
    {address : VirtualAddress} (translates : Translates layout memory roots pages)
    (member : root ∈ roots)
    (translated : Mmu.translate layout.target (memory.words layout.target)
      (satpOf layout.target root) accessor address =
        some ⟨some pointer, physicalAddress⟩) :
    Translates layout (memory.write pointer
      ((memory.entry pointer).touch accessor.isStore)) roots pages := by
  obtain ⟨place, wellFormed, rooted⟩ := translates.shape
  rw [wellFormed.translate_eq (rooted root member) accessor address
    (translates.number_lt member address)] at translated
  split at translated
  case isFalse => contradiction
  obtain ⟨bottom, walked, bottomLeaf⟩ := Option.bind_eq_some_iff.mp translated
  obtain ⟨entry, leaf, permitted⟩ := Option.bind_eq_some_iff.mp bottomLeaf
  split at permitted
  case isFalse => contradiction
  cases permitted
  have put : Put layout memory place root bottom address :=
    ⟨wellFormed, rooted root member, walked⟩
  have slotEntry : entry = memory.slotEntry layout.target bottom
      (address.slot layout.target 0) := by
    rw [Memory.leaf] at leaf
    split at leaf
    · exact (Option.some.inj leaf).symm
    · contradiction
  have isLeaf : entry.IsLeaf := by
    rcases wellFormed.bottom bottom root _ put.placed (address.length_path _ _)
      (address.slot layout.target 0) with empty | isLeaf
    · rw [Memory.leaf_of_invalid (by rw [empty])] at leaf
      contradiction
    · rw [slotEntry]
      exact isLeaf
  have written : memory.write (PageTable.entryAddress layout.target bottom
      (address.slot layout.target 0).val) ((memory.entry (PageTable.entryAddress
        layout.target bottom (address.slot layout.target 0).val)).touch
          accessor.isStore) =
      Put.final memory layout.target bottom address (entry.touch accessor.isStore) := by
    rw [slotEntry]
    rfl
  rw [written]
  refine ⟨⟨place, put.wellFormed (isLeaf.touch _), rooted⟩, ?_, translates.unknown,
    translates.fits⟩
  intro other here otherAddress
  rw [put.leafEntry (isLeaf.touch _) (rooted other here) otherAddress,
    ← translates.leaves other here otherAddress]
  split
  case isTrue same =>
    obtain ⟨rfl, sameInner, sameSlot⟩ := same
    rw [Memory.leafEntry, sameInner, sameSlot, lookup, walked, Option.bind_some, leaf]
    rfl
  case isFalse => rfl

theorem of_run (run : AccessRun layout memory roots calls) :
    Translates layout memory roots (PageMap.ofCalls layout.target calls) := by
  induction run with
  | start unused => exact .start unused
  | alloc _ allocated translates => exact translates.alloc allocated
  | map _ member fits mapped translates =>
      rw [PageMap.ofCalls_concat]
      exact translates.map member fits mapped
  | access _ member translated translates => exact translates.access member translated

theorem leaf_eq {root physicalAddress : Nat} {flags : PageTableEntryFlags}
    {address : VirtualAddress} (translates : Translates layout memory roots pages)
    (member : root ∈ roots)
    (page : pages (root, address.pageIndex layout.target) =
      some (physicalAddress, flags)) :
    ∃ entry, memory.leafEntry layout.target root address = some entry ∧
      entry.physicalPageNum * pageSize = physicalAddress ∧
      ∀ accessor, entry.flags.permits accessor =
        ({ flags with valid := true, read := true } :
          PageTableEntryFlags).permits accessor := by
  have here := translates.leaves root member address
  obtain ⟨aligned, _, number⟩ := translates.fits _ _ _ _ page
  rw [page, Option.map_some] at here
  obtain ⟨entry, leaf, same⟩ := Option.map_eq_some_iff.mp here
  refine ⟨entry, leaf, ?_, fun accessor => ?_⟩
  · have numbers := congrArg PageTableEntry.physicalPageNum same
    simp only [PageTableEntry.untouched, PageTableEntry.mapped] at numbers
    rw [numbers, Nat.mod_eq_of_lt number, Nat.div_mul_cancel aligned]
  · exact congrArg (fun entry => entry.flags.permits accessor) same

theorem getPhysicalAddress_eq {root physicalAddress : Nat}
    {flags : PageTableEntryFlags} {address : VirtualAddress}
    (translates : Translates layout memory roots pages) (member : root ∈ roots)
    (page : pages (root, address.pageIndex layout.target) =
      some (physicalAddress, flags)) :
    PageTable.getPhysicalAddress layout.target memory root address =
      .ok (physicalAddress + address.pageOffset) := by
  obtain ⟨place, wellFormed, rooted⟩ := translates.shape
  obtain ⟨entry, leaf, number, _⟩ := translates.leaf_eq member page
  obtain ⟨aligned, inRange, _⟩ := translates.fits _ _ _ _ page
  have offset : address.pageOffset < pageSize := Nat.mod_lt _ pageSize_pos
  have whole : pageSize ∣ 2 ^ layout.target.pointerBits := by
    cases layout.target <;> decide
  have sum : physicalAddress + address.pageOffset <
      2 ^ layout.target.pointerBits := by
    simp only [pageSize] at *
    omega
  rw [PageTable.getPhysicalAddress_of_leaf wellFormed (rooted root member) leaf,
    number, Target.uintptr_of_lt inRange, Target.uintptr_of_lt sum]

theorem translate_eq {root : Nat} (translates : Translates layout memory roots pages)
    (member : root ∈ roots) (accessor : Accessor) (address : VirtualAddress) :
    (Mmu.translate layout.target (memory.words layout.target)
        (satpOf layout.target root) accessor address).map
          Mmu.Translation.physicalAddress =
      if Mmu.canonical layout.target address then
        (pages (root, address.pageIndex layout.target)).bind fun page =>
          if ({ page.2 with valid := true, read := true } :
            PageTableEntryFlags).permits accessor then
              some (page.1 + address.pageOffset)
          else none
      else none := by
  obtain ⟨place, wellFormed, rooted⟩ := translates.shape
  rw [wellFormed.translate_eq (rooted root member) accessor address
    (translates.number_lt member address)]
  split
  case isFalse => rfl
  case isTrue =>
    cases page : pages (root, address.pageIndex layout.target) with
    | none =>
        have here := translates.leaves root member address
        rw [page, Option.map_none, Option.map_eq_none_iff, Memory.leafEntry,
          lookup] at here
        cases walked : walk (memory.child layout.target) root
            (address.inner layout.target) with
        | none => rfl
        | some bottom =>
            rw [walked, Option.bind_some] at here
            rw [Option.bind_some, here]
            rfl
    | some page =>
        obtain ⟨entry, leaf, number, permits⟩ := translates.leaf_eq member page
        rw [Memory.leafEntry, lookup] at leaf
        obtain ⟨bottom, walked, bottomLeaf⟩ := Option.bind_eq_some_iff.mp leaf
        rw [walked, Option.bind_some, bottomLeaf, Option.bind_some, Option.bind_some,
          permits accessor, number]
        split <;> rfl

end Translates

theorem Memory.words_touch (target : Target) (memory : Memory) (pointer : Nat)
    (physicalAddress : Nat) (accessor : Accessor) :
    (memory.write pointer ((memory.entry pointer).touch accessor.isStore)).words
        target =
      Mmu.touched (memory.words target) accessor ⟨some pointer, physicalAddress⟩ := by
  rw [words_write, PageTableEntry.word_touch]
  rfl

section

variable {layout : Layout} {memory : Memory} {roots : List Nat} {calls : List MapCall}

theorem Run.accessRun (run : Run layout memory roots calls) :
    AccessRun layout memory roots calls := by
  induction run with
  | start unused => exact .start unused
  | alloc _ allocated induction => exact induction.alloc allocated
  | map _ member fits mapped induction => exact induction.map member fits mapped

/-- What a user process can reach is what the hart translates for it. -/
theorem Translates.userTranslate_eq {pages : PageMap}
    (translates : Translates layout memory roots pages) {root : Nat}
    (member : root ∈ roots) (sum : Bool) (access : Access) {address : VirtualAddress}
    (canonical : Mmu.canonical layout.target address = true) :
    (Mmu.translate layout.target (memory.words layout.target)
        (satpOf layout.target root) ⟨false, sum, false, access⟩ address).map
          Mmu.Translation.physicalAddress =
      memory.userTranslate layout.target root access address.value := by
  obtain ⟨place, wellFormed, rooted⟩ := translates.shape
  rw [wellFormed.translate_eq (rooted root member) _ address
    (translates.number_lt member address), if_pos canonical, Memory.userTranslate,
    Memory.leafEntry, lookup]
  cases walk (memory.child layout.target) root (address.inner layout.target) with
  | none => rfl
  | some bottom =>
      rw [Option.bind_some, Option.bind_some]
      cases leaf : memory.leaf layout.target bottom
          (address.slot layout.target 0) with
      | none => rfl
      | some entry =>
          have valid : entry.flags.valid = true := by
            rw [Memory.leaf] at leaf
            split at leaf
            · next valid => exact Option.some.inj leaf ▸ valid
            · contradiction
          have permits : entry.flags.permits ⟨false, sum, false, access⟩ =
              entry.flags.userPermits access := by
            cases access <;>
              simp [PageTableEntryFlags.permits, PageTableEntryFlags.userPermits,
                valid]
          rw [Option.bind_some, Option.bind_some, permits]
          split <;> rfl

end

end Thos.VirtualMemory
