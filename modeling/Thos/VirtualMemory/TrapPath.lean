import Thos.VirtualMemory.KernelTable

namespace Thos.VirtualMemory

open Thos.Kernel
open Data.RadixForest

/-! The section of the trap vector is mapped alike by every table in use. -/

variable {layout : Layout} {memory after : Memory} {place : Tables layout.target}

/-- The kernel's table, and the tables of users made after it. -/
inductive TablesBuilt (layout : Layout) (board : Board) :
    Memory → Nat → List Nat → Prop
  | kernel {memory after : Memory} {fuel kernel : Nat} :
      memory.Pooled layout →
        PageTable.kernelInit layout board fuel 0 memory = .ok (kernel, after) →
          TablesBuilt layout board after kernel []
  | user {memory after : Memory} {fuel kernel table : Nat} {users : List Nat}
      {region : Section} {start : VirtualAddress} :
      TablesBuilt layout board memory kernel users →
        PageTable.userInit layout fuel memory region start = .ok (table, after) →
          TablesBuilt layout board after kernel (table :: users)
  | page {memory after : Memory} {kernel page : Nat} {users : List Nat} :
      TablesBuilt layout board memory kernel users →
        Page.alloc layout memory = .ok (page, after) →
          TablesBuilt layout board after kernel users

namespace PageTable

theorem mapSectionLoop_frame {endAddress fuel root physicalAddress : Nat}
    {flags : PageTableEntryFlags} {virtualAddress : VirtualAddress}
    (wellFormed : WellFormed layout memory place) (rooted : place.Rooted root)
    (looped : mapSectionLoop layout root endAddress flags fuel physicalAddress
      virtualAddress memory = .ok after) :
    ∃ place', WellFormed layout after place' ∧
      (∀ table location, place table = some location →
        place' table = some location) ∧
      ∀ otherRoot address, place.Rooted otherRoot → otherRoot ≠ root →
        after.leafEntry layout.target otherRoot address =
          memory.leafEntry layout.target otherRoot address := by
  induction fuel generalizing memory place physicalAddress virtualAddress with
  | zero => contradiction
  | succ fuel induction =>
      rw [mapSectionLoop] at looped
      split at looped
      · obtain ⟨middle, mapped, looped⟩ := Outcome.bind_eq_ok.mp looped
        obtain ⟨place', wellFormed', grown, leaves⟩ :=
          mapAddress_spec wellFormed rooted mapped
        obtain ⟨place'', wellFormed'', grown', leaves'⟩ :=
          induction wellFormed' (grown root _ rooted) looped
        refine ⟨place'', wellFormed'', fun table location here =>
          grown' table location (grown table location here), ?_⟩
        intro otherRoot address otherRooted different
        rw [leaves' otherRoot address (grown otherRoot _ otherRooted) different,
          leaves otherRoot address otherRooted,
          if_neg fun same => different same.1]
      · cases looped
        exact ⟨place, wellFormed, fun _ _ here => here, fun _ _ _ _ => rfl⟩

structure UserShared (layout : Layout) (memory after : Memory)
    (place place' : Tables layout.target) (table : Nat) : Prop where
  wellFormed : WellFormed layout after place'
  grown : ∀ other location, place other = some location →
    place' other = some location
  rooted : place'.Rooted table
  frame : ∀ root address, place.Rooted root →
    after.leafEntry layout.target root address =
      memory.leafEntry layout.target root address
  shared : ∀ address, layout.globalSpecial.Contains address →
    after.leafEntry layout.target table ⟨address⟩ = some
      (.mapped layout.target (address / pageSize * pageSize) kernelFlags)

theorem userInit_shared {fuel table : Nat} {region : Section}
    {start : VirtualAddress} (wellFormed : WellFormed layout memory place)
    (built : userInit layout fuel memory region start = .ok (table, after)) :
    ∃ place', UserShared layout memory after place place' table := by
  obtain ⟨⟨page, fresh⟩, allocated, built⟩ := Outcome.bind_eq_ok.mp built
  obtain ⟨mapped, mapsProgram, built⟩ := Outcome.bind_eq_ok.mp built
  obtain ⟨special, mapsGlobal, built⟩ := Outcome.bind_eq_ok.mp built
  obtain ⟨last, mapsUser, built⟩ := Outcome.bind_eq_ok.mp built
  cases built
  have allocated := Page.alloc_allocated wellFormed allocated
  have isNew : ∀ {root}, place.Rooted root → root ≠ table := by
    rintro root rooted rfl
    rw [Placement.Rooted, allocated.fresh wellFormed] at rooted
    contradiction
  have order := layout.order
  have bounds := layout.special_end_le
  have span := layout.fits
  change layout.memory.endAddress < _ at span
  have wellFormed₁ := allocated.rootWellFormed wellFormed
  have rooted₁ : Placement.Rooted (Function.update place table (some (table, [])))
      table := Function.update_self ..
  have grown₁ : ∀ other location, place other = some location →
      Function.update place table (some (table, [])) other = some location := by
    intro other location here
    rw [Function.update_of_ne]
    · exact here
    · rintro rfl
      rw [allocated.fresh wellFormed] at here
      contradiction
  obtain ⟨place₂, wellFormed₂, grown₂, frame₂⟩ :=
    mapSectionLoop_frame wellFormed₁ rooted₁ mapsProgram
  have rooted₂ := grown₂ table _ rooted₁
  have global := (mapSection_spec wellFormed₂ rooted₂ bounds.1
    mapsGlobal).transparent (dvd_alignUp_pageSize _) (by omega)
  obtain ⟨place₃, wellFormed₃, grown₃⟩ := global.shape
  have rooted₃ := grown₃ table _ rooted₂
  have user := (mapSection_spec wellFormed₃ rooted₃ bounds.2
    mapsUser).transparent (dvd_alignUp_pageSize _) (by omega)
  obtain ⟨place₄, wellFormed₄, grown₄⟩ := user.shape
  refine ⟨place₄, wellFormed₄, ?_, grown₄ table _ rooted₃, ?_, ?_⟩
  · intro other location here
    exact grown₄ _ _ (grown₃ _ _ (grown₂ _ _ (grown₁ other location here)))
  · intro root address rooted
    have rooted' := grown₁ root _ rooted
    have different := isNew rooted
    rw [user.elsewhere root address (grown₃ _ _ (grown₂ _ _ rooted'))
        fun same => absurd same different,
      global.elsewhere root address (grown₂ _ _ rooted')
        fun same => absurd same different,
      frame₂ root address rooted' different,
      allocated.lookup_eq wellFormed rooted address]
  · intro address ⟨first, last⟩
    have aligned : pageSize ∣ layout.globalSpecial.startAddress :=
      dvd_alignUp_pageSize _
    have index := VirtualAddress.pageIndex_of_lt layout.target
      (show address < pageSize * layout.target.virtualPages by omega)
    have page := Nat.div_mul_le_self address pageSize
    rw [user.elsewhere table _ rooted₃, global.here, index]
    · rfl
    · rw [index]
      refine ⟨?_, by omega⟩
      simp only [pageSize] at *
      omega
    · rintro - ⟨userFirst, -⟩
      rw [index] at userFirst
      omega

end PageTable

theorem Layout.globalSpecial_in_memory (layout : Layout) {address : Nat}
    (inside : layout.globalSpecial.Contains address) :
    layout.memory.Contains address := by
  have order := layout.order
  have bound := layout.special_end_le.1
  have first := inside.1
  have last := inside.2
  constructor
  · change Image.memoryStart ≤ address
    omega
  · omega

structure TablesShared (layout : Layout) (board : Board) (memory : Memory)
    (kernel : Nat) (users : List Nat) (place : Tables layout.target) : Prop where
  wellFormed : WellFormed layout memory place
  rooted : ∀ table ∈ kernel :: users, place.Rooted table
  kernelTable : KernelTable layout board memory kernel
  shared : ∀ table ∈ kernel :: users, ∀ address,
    layout.globalSpecial.Contains address →
      memory.leafEntry layout.target table ⟨address⟩ = some
        (.mapped layout.target (address / pageSize * pageSize) kernelFlags)

namespace TablesShared

variable {board : Board} {kernel : Nat} {users : List Nat}

/-- A step that changes no leaf of the tables keeps what holds of them. -/
theorem keep {place' : Tables layout.target}
    (shared : TablesShared layout board memory kernel users place)
    (wellFormed : WellFormed layout after place')
    (grown : ∀ table location, place table = some location →
      place' table = some location)
    (frame : ∀ root address, place.Rooted root →
      after.leafEntry layout.target root address =
        memory.leafEntry layout.target root address) :
    TablesShared layout board after kernel users place' := by
  have kernelFrame := fun address =>
    frame kernel address (shared.rooted kernel (List.mem_cons_self ..))
  refine ⟨wellFormed, fun table member => grown table _ (shared.rooted table member),
    ⟨?_, ?_, ?_⟩, ?_⟩
  · intro address entry leaf
    rw [kernelFrame] at leaf
    exact shared.kernelTable.identity address entry leaf
  · intro address inside
    rw [kernelFrame]
    exact shared.kernelTable.covered address inside
  · intro address covered
    rw [kernelFrame]
    exact shared.kernelTable.devices address covered
  · intro table member address inside
    rw [frame table _ (shared.rooted table member)]
    exact shared.shared table member address inside

theorem of_built (fits : board.Fits layout.target) (outside : board.Outside layout)
    (built : TablesBuilt layout board memory kernel users) :
    ∃ place, TablesShared layout board memory kernel users place := by
  induction built with
  | kernel pooled built =>
      obtain ⟨place, wellFormed, rooted, table⟩ :=
        PageTable.kernelInit_table pooled.wellFormed fits outside built
      refine ⟨place, wellFormed, ?_, table, ?_⟩
      · intro other member
        rw [List.mem_singleton.mp member]
        exact rooted
      · intro other member address inside
        rw [List.mem_singleton.mp member]
        exact table.covered address (layout.globalSpecial_in_memory inside)
  | user _ built induction =>
      obtain ⟨place, shared⟩ := induction
      obtain ⟨place', user⟩ := PageTable.userInit_shared shared.wellFormed built
      have kept := shared.keep user.wellFormed user.grown user.frame
      refine ⟨place', user.wellFormed, ?_, kept.kernelTable, ?_⟩
      · intro table member
        rcases List.mem_cons.mp member with same | member
        · exact kept.rooted table (by rw [same]; exact List.mem_cons_self ..)
        rcases List.mem_cons.mp member with same | older
        · rw [same]
          exact user.rooted
        · exact kept.rooted table (List.mem_cons_of_mem _ older)
      · intro table member
        rcases List.mem_cons.mp member with same | member
        · exact kept.shared table (by rw [same]; exact List.mem_cons_self ..)
        rcases List.mem_cons.mp member with same | older
        · rw [same]
          exact user.shared
        · exact kept.shared table (List.mem_cons_of_mem _ older)
  | page _ allocated induction =>
      obtain ⟨place, shared⟩ := induction
      have allocated := Page.alloc_allocated shared.wellFormed allocated
      exact ⟨place, shared.keep (allocated.wellFormed shared.wellFormed)
        (fun _ _ here => here)
        fun root address rooted =>
          allocated.lookup_eq shared.wellFormed rooted address⟩

end TablesShared

/-- The address translates to itself, for the kernel and not for users. -/
structure TrapMapped (layout : Layout) (memory : Memory) (table address : Nat) :
    Prop where
  leaf : ∃ entry, memory.leafEntry layout.target table ⟨address⟩ = some entry ∧
    entry.flags.read = true ∧ entry.flags.write = true ∧
    entry.flags.execute = true ∧ entry.flags.user = false
  itself : PageTable.getPhysicalAddress layout.target memory table ⟨address⟩ =
    .ok address

theorem PageTable.getPhysicalAddress_itself
    (wellFormed : WellFormed layout memory place) {table address : Nat}
    (rooted : place.Rooted table) {entry : PageTableEntry}
    (leaf : memory.leafEntry layout.target table ⟨address⟩ = some entry)
    (page : entry.physicalPageNum =
      VirtualAddress.pageIndex layout.target ⟨address⟩)
    (bound : address < pageSize * layout.target.virtualPages) :
    getPhysicalAddress layout.target memory table ⟨address⟩ = .ok address := by
  have span := layout.target.virtualSpan_le
  have below := Nat.div_mul_le_self address pageSize
  have start : layout.target.uintptr (address / pageSize * pageSize) =
      address / pageSize * pageSize := Target.uintptr_of_lt (by omega)
  have whole : address / pageSize * pageSize + VirtualAddress.pageOffset ⟨address⟩ =
      address := Nat.div_add_mod' address pageSize
  rw [getPhysicalAddress_of_leaf wellFormed rooted leaf, page,
    VirtualAddress.pageIndex_of_lt layout.target bound, start, whole,
    Target.uintptr_of_lt (by omega)]

theorem TablesShared.trapMapped {board : Board} {kernel table address : Nat}
    {users : List Nat}
    (shared : TablesShared layout board memory kernel users place)
    (member : table ∈ kernel :: users)
    (inside : layout.globalSpecial.Contains address) :
    TrapMapped layout memory table address := by
  have leaf := shared.shared table member address inside
  have bound : address < pageSize * layout.target.virtualPages :=
    (layout.globalSpecial_in_memory inside).2.trans layout.fits
  refine ⟨⟨_, leaf, rfl, rfl, rfl, rfl⟩, ?_⟩
  apply PageTable.getPhysicalAddress_itself shared.wellFormed
    (shared.rooted table member) leaf ?_ bound
  rw [VirtualAddress.pageIndex_of_lt layout.target bound]
  exact PageTableEntry.mapped_page layout.target (Nat.div_lt_of_lt_mul bound) _

theorem TablesShared.kernel_itself {board : Board} {kernel address : Nat}
    {users : List Nat}
    (shared : TablesShared layout board memory kernel users place)
    (fits : board.Fits layout.target)
    (covered : layout.memory.Contains address ∨ board.Covers address) :
    PageTable.getPhysicalAddress layout.target memory kernel ⟨address⟩ =
      .ok address := by
  have rooted := shared.rooted kernel (List.mem_cons_self ..)
  have found : (memory.leafEntry layout.target kernel ⟨address⟩).isSome := by
    rcases covered with inside | device
    · rw [shared.kernelTable.covered address inside]
      rfl
    · exact shared.kernelTable.devices address device
  obtain ⟨entry, leaf⟩ := Option.isSome_iff_exists.mp found
  apply PageTable.getPhysicalAddress_itself shared.wellFormed rooted leaf
    (shared.kernelTable.identity _ entry leaf)
  rcases covered with inside | device
  · exact inside.2.trans layout.fits
  · exact fits.covers_lt device

/-- Whatever tables are built, for a board whose devices the page-index bits can
name: the section of the trap vector is mapped alike in the kernel's table and
in every user's, and the kernel's table translates each of its pages to itself,
the kernel's memory and the devices among them. -/
theorem trap_path_stays_mapped {board : Board} {kernel : Nat} {users : List Nat}
    (fits : board.Fits layout.target) (outside : board.Outside layout)
    (built : TablesBuilt layout board memory kernel users) :
    (∀ table ∈ kernel :: users, ∀ address,
      layout.globalSpecial.Contains address →
        TrapMapped layout memory table address) ∧
      (∀ (address : VirtualAddress) entry,
        memory.leafEntry layout.target kernel address = some entry →
          entry.physicalPageNum = address.pageIndex layout.target) ∧
      (∀ address, layout.memory.Contains address ∨ board.Covers address →
        PageTable.getPhysicalAddress layout.target memory kernel ⟨address⟩ =
          .ok address) := by
  obtain ⟨place, shared⟩ := TablesShared.of_built fits outside built
  exact ⟨fun table member address inside => shared.trapMapped member inside,
    shared.kernelTable.identity,
    fun address covered => shared.kernel_itself fits covered⟩

namespace PageTable

theorem mapAddressLoop_walk (address : VirtualAddress)
    (wellFormed : WellFormed layout memory place) {level table root bottom : Nat}
    {path : List (Slot layout.target)}
    (placed : place table = some (root, path))
    (remaining : path.length + level = layout.target.virtualMemoryTopLevel)
    (walked : walk (memory.child layout.target) table
      (address.path layout.target level) = some bottom) :
    mapAddressLoop layout address level table memory =
      .ok (entryAddress layout.target bottom (address.slot layout.target 0).val,
        memory) := by
  induction level generalizing table path with
  | zero =>
      cases walked
      rw [mapAddressLoop, entryPointer_eq wellFormed placed address
        (Nat.zero_le _)]
      rfl
  | succ level induction =>
      rw [mapAddressLoop, entryPointer_eq wellFormed placed address (by omega),
        Outcome.ok_bind]
      rw [VirtualAddress.path, walk_cons] at walked
      obtain ⟨next, linked, walkedNext⟩ := Option.bind_eq_some_iff.mp walked
      generalize address.slot layout.target (level + 1) = slot at linked ⊢
      have entryEq : memory.entry (entryAddress layout.target table slot.val) =
          memory.slotEntry layout.target table slot := rfl
      obtain ⟨valid, follows, placedNext, fewer⟩ :=
        wellFormed.follow placed remaining linked
      rw [entryEq, if_neg valid, follows, Outcome.ok_bind]
      exact induction placedNext fewer walkedNext

theorem mapAddress_ok {root physicalAddress : Nat} {address : VirtualAddress}
    (flags : PageTableEntryFlags) (wellFormed : WellFormed layout memory place)
    (rooted : place.Rooted root)
    (reached : (walk (memory.child layout.target) root
      (address.inner layout.target)).isSome)
    (virtualAligned : address.value % pageSize = 0)
    (physicalAligned : physicalAddress % pageSize = 0) :
    ∃ after, mapAddress layout memory root address physicalAddress flags =
      .ok after := by
  obtain ⟨bottom, walked⟩ := Option.isSome_iff_exists.mp reached
  have looped := mapAddressLoop_walk address wellFormed rooted (by simp) walked
  simp only [mapAddress, virtualAligned, physicalAligned, ne_eq,
    not_true_eq_false, if_false, Outcome.pure_eq_ok, looped]
  exact ⟨_, rfl⟩

theorem mapSectionLoop_next {root endAddress physicalAddress fuel : Nat}
    {flags : PageTableEntryFlags} {middle : Memory}
    (inside : physicalAddress ≤ endAddress)
    (range : endAddress + pageSize < 2 ^ layout.target.pointerBits)
    (mapped : mapAddress layout memory root ⟨physicalAddress⟩ physicalAddress flags =
      .ok middle) :
    mapSectionLoop layout root endAddress flags (fuel + 1) physicalAddress
        ⟨physicalAddress⟩ memory =
      mapSectionLoop layout root endAddress flags fuel (physicalAddress + pageSize)
        ⟨physicalAddress + pageSize⟩ middle := by
  rw [mapSectionLoop, if_pos inside, mapped, Outcome.ok_bind,
    Target.uintptr_of_lt (by omega)]

/-- A transparent section below one bottom table is mapped without a panic. -/
theorem mapSectionLoop_ok {root endAddress physicalAddress pages fuel : Nat}
    {path : List (Slot layout.target)} (flags : PageTableEntryFlags)
    (wellFormed : WellFormed layout memory place) (rooted : place.Rooted root)
    (reached : (walk (memory.child layout.target) root path).isSome)
    (enough : pages < fuel)
    (last : endAddress < physicalAddress + pages * pageSize)
    (range : endAddress + pageSize < 2 ^ layout.target.pointerBits)
    (aligned : physicalAddress % pageSize = 0)
    (below : ∀ count < pages, VirtualAddress.inner layout.target
      ⟨physicalAddress + count * pageSize⟩ = path) :
    ∃ after place', mapSectionLoop layout root endAddress flags fuel
        physicalAddress ⟨physicalAddress⟩ memory = .ok after ∧
      WellFormed layout after place' ∧ place'.Rooted root ∧
      (walk (after.child layout.target) root path).isSome := by
  induction pages generalizing memory place physicalAddress fuel with
  | zero =>
      obtain ⟨fuel, rfl⟩ := Nat.exists_eq_add_of_lt enough
      rw [mapSectionLoop, if_neg (by omega)]
      exact ⟨memory, place, rfl, wellFormed, rooted, reached⟩
  | succ pages induction =>
      obtain ⟨fuel, rfl⟩ : ∃ rest, fuel = rest + 1 := ⟨fuel - 1, by omega⟩
      by_cases inside : physicalAddress ≤ endAddress
      case neg =>
        rw [mapSectionLoop, if_neg inside]
        exact ⟨memory, place, rfl, wellFormed, rooted, reached⟩
      case pos =>
        have here := below 0 (Nat.succ_pos pages)
        simp only [Nat.zero_mul, Nat.add_zero] at here
        obtain ⟨middle, mapped⟩ := mapAddress_ok flags wellFormed rooted
          (here.symm ▸ reached) aligned aligned
        obtain ⟨place', spec⟩ := mapAddress_mapped wellFormed rooted mapped
        have reached' := spec.reached
        rw [here] at reached'
        rw [mapSectionLoop_next inside range mapped]
        apply induction spec.wellFormed (spec.grown root _ rooted) reached'
          (by omega)
        · rw [Nat.succ_mul] at last
          omega
        · rw [Nat.add_mod_right]
          exact aligned
        · intro count bound
          have next := below (count + 1) (by omega)
          rw [Nat.succ_mul] at next
          rw [← next]
          congr 2
          omega

end PageTable

theorem small_inner {count : Nat} (bound : count < 512) :
    VirtualAddress.inner .riscv64 ⟨Image.memoryStart + count * pageSize⟩ =
      VirtualAddress.inner .riscv64 ⟨Image.memoryStart⟩ := by
  simp only [VirtualAddress.inner_riscv64, List.cons.injEq, and_true,
    VirtualAddress.slot_eq_iff, VirtualAddress.levelEntryNumber, Image.memoryStart,
    Target.entries, Target.levelEntryNumberBitwidth, pageSize]
  omega

set_option maxRecDepth 100000 in
theorem small_first_page : ∃ memory,
    PageTable.mapAddress Layout.small Memory.booted Layout.small.pages.startAddress
      ⟨Image.memoryStart⟩ Image.memoryStart kernelFlags = .ok memory :=
  ⟨_, rfl⟩

theorem small_kernelInit {device : Nat} (present : device ≠ 0)
    (aligned : device % pageSize = 0)
    (inner : VirtualAddress.inner .riscv64 ⟨device⟩ =
      VirtualAddress.inner .riscv64 ⟨Image.memoryStart⟩) :
    ∃ kernel memory, PageTable.kernelInit Layout.small ⟨device, 0, 0⟩ 512 0
        Memory.unused = .ok (kernel, memory) ∧
      ∀ address : VirtualAddress, address.pageIndex .riscv64 =
          VirtualAddress.pageIndex .riscv64 ⟨device⟩ →
        memory.leafEntry .riscv64 kernel address = some
          (.mapped .riscv64 device { read := true, write := true }) := by
  have unused : Memory.unused.Pooled Layout.small := .inl rfl
  have allocated := Page.alloc_allocated unused.wellFormed Memory.booted_alloc
  have wellFormed := allocated.rootWellFormed unused.wellFormed
  have rooted : (Tables.ofRoot .riscv64 Layout.small.userPrograms.endAddress).Rooted
      Layout.small.userPrograms.endAddress := Function.update_self ..
  obtain ⟨first, mapsFirst⟩ := small_first_page
  obtain ⟨place, spec⟩ := PageTable.mapAddress_mapped wellFormed rooted mapsFirst
  have below : ∀ count < 510, VirtualAddress.inner .riscv64
      ⟨Image.memoryStart + pageSize + count * pageSize⟩ =
        VirtualAddress.inner .riscv64 ⟨Image.memoryStart⟩ := by
    intro count bound
    rw [← small_inner (show count + 1 < 512 by omega), Nat.succ_mul, Nat.add_assoc,
      Nat.add_comm pageSize]
  obtain ⟨mapped, place', mapsRest, wellFormed', rooted', reached⟩ :=
    PageTable.mapSectionLoop_ok kernelFlags spec.wellFormed (spec.grown _ _ rooted)
      spec.reached (show 510 < 511 by decide)
      (show Layout.small.memory.endAddress <
        Image.memoryStart + pageSize + 510 * pageSize by decide)
      (by decide) (by decide) below
  obtain ⟨final, mapsTest⟩ := PageTable.mapAddress_ok
    { read := true, write := true } wellFormed' rooted' (inner.symm ▸ reached)
    aligned aligned
  have mapsMemory : PageTable.mapSection Layout.small 512 Memory.booted
      Layout.small.userPrograms.endAddress Layout.small.memory
      ⟨Layout.small.memory.startAddress⟩
      { read := true, write := true, execute := true } = .ok mapped :=
    (PageTable.mapSectionLoop_next (by decide) (by decide) mapsFirst).trans mapsRest
  have mapsDevice : PageTable.mapDevice Layout.small mapped
      Layout.small.userPrograms.endAddress device = .ok final := by
    rw [PageTable.mapDevice, if_neg present]
    exact mapsTest
  refine ⟨Layout.small.userPrograms.endAddress, final, ?_, ?_⟩
  · rw [PageTable.kernelInit, if_neg (by simp), Memory.booted_alloc,
      Outcome.ok_bind]
    simp only [mapsMemory, mapsDevice, Outcome.ok_bind]
    rfl
  · intro address same
    obtain ⟨-, -, -, leaves⟩ := PageTable.mapAddress_spec wellFormed' rooted' mapsTest
    exact (leaves _ address rooted').trans (if_pos ⟨rfl, same⟩)

def Board.sample : Board := ⟨Layout.small.memory.endAddress, 0, 0⟩

theorem Board.sample_fits : Board.sample.Fits .riscv64 :=
  ⟨by decide, by decide, by decide, by decide⟩

theorem Board.outside_of_test {device : Nat}
    (behind : Layout.small.memory.endAddress / pageSize ≤ device / pageSize) :
    Board.Outside ⟨device, 0, 0⟩ Layout.small := by
  have aligned : Layout.small.memory.endAddress =
      Layout.small.memory.endAddress / pageSize * pageSize := by decide
  rintro address (⟨-, same⟩ | ⟨absent, -⟩ | ⟨absent, -⟩) ⟨-, last⟩
  · rw [← same] at behind
    have below := Nat.div_mul_le_self address pageSize
    have scaled := Nat.mul_le_mul_right pageSize behind
    omega
  · exact absent rfl
  · exact absent rfl

theorem Board.sample_built : ∃ memory kernel user,
    TablesBuilt Layout.small Board.sample memory kernel [user] := by
  obtain ⟨kernel, memory, built, -⟩ := small_kernelInit
    (show Layout.small.memory.endAddress ≠ 0 by decide) (by decide)
    (small_inner (show 261 < 512 by decide))
  have returns : (PageTable.kernelInit Layout.small Board.sample 512 0 Memory.unused
      >>= fun made => PageTable.userInit Layout.small 4 made.2
        Layout.small.userPrograms ⟨userProgramBase⟩).isOk := by
    decide +kernel
  have tables : TablesBuilt Layout.small Board.sample memory kernel [] :=
    .kernel (.inl rfl) built
  rw [show Board.sample = ⟨Layout.small.memory.endAddress, 0, 0⟩ from rfl, built,
    Outcome.ok_bind] at returns
  cases mapped : PageTable.userInit Layout.small 4 memory Layout.small.userPrograms
      ⟨userProgramBase⟩ with
  | error stop =>
      rw [mapped] at returns
      exact absurd returns Bool.false_ne_true
  | ok made => exact ⟨made.2, kernel, made.1, tables.user mapped⟩

theorem trap_path_stays_mapped_sample : ∃ memory kernel user,
    TablesBuilt Layout.small Board.sample memory kernel [user] ∧
      ∀ table ∈ [kernel, user],
        TrapMapped Layout.small memory table
          Layout.small.globalSpecial.startAddress := by
  obtain ⟨memory, kernel, user, tables⟩ := Board.sample_built
  have mapped := (trap_path_stays_mapped Board.sample_fits
    (Board.outside_of_test (Nat.le_refl _)) tables).1
  exact ⟨memory, kernel, user, tables, fun table member =>
    mapped table member _ ⟨Nat.le_refl _, by decide⟩⟩

/-- A device above the 39-bit address space, at the page index of the section. -/
def Board.aliased : Board := ⟨2 ^ 39 + Layout.small.globalSpecial.startAddress, 0, 0⟩

theorem aliased_device_takes_trap_path : ∃ memory kernel,
    TablesBuilt Layout.small Board.aliased memory kernel [] ∧
      Board.aliased.Outside Layout.small ∧
      Layout.small.globalSpecial.Contains
        Layout.small.globalSpecial.startAddress ∧
      ¬TrapMapped Layout.small memory kernel
        Layout.small.globalSpecial.startAddress := by
  obtain ⟨kernel, memory, built, leaf⟩ := small_kernelInit
    (show Board.aliased.sifiveTest ≠ 0 by decide) (by decide) (by decide)
  refine ⟨memory, kernel, .kernel (.inl rfl) built,
    Board.outside_of_test (by decide), ⟨Nat.le_refl _, by decide⟩, ?_⟩
  intro ⟨⟨entry, found, _, _, executable, _⟩, _⟩
  have same := (leaf ⟨Layout.small.globalSpecial.startAddress⟩
    (by decide)).symm.trans found
  rw [← Option.some.inj same] at executable
  exact Bool.false_ne_true executable

end Thos.VirtualMemory
