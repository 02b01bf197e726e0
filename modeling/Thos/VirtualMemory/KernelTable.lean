import Thos.VirtualMemory.UserTable

namespace Thos.VirtualMemory

open Thos.Kernel
open Data.RadixForest

/-! The kernel's table, and the part of it that every table shares. -/

/-- The device addresses of a board; 0 is a device it does not have. -/
structure Board where
  sifiveTest : Nat
  sifivePlic : Nat
  sifiveUart1 : Nat
  deriving DecidableEq, Repr

def sifivePlicLen : Nat := 0x4000000

namespace PageTable

def mapPlicLoop (layout : Layout) (table endAddress : Nat) :
    Nat → Nat → Memory → Outcome Memory
  | 0, _, _ => .error .outOfFuel
  | fuel + 1, page, memory =>
      if page < endAddress then do
        let memory ← mapAddress layout memory table ⟨page⟩ page
          { read := true, write := true }
        mapPlicLoop layout table endAddress fuel
          (layout.target.uintptr (page + pageSize)) memory
      else .ok memory

def mapDevice (layout : Layout) (memory : Memory) (table device : Nat) :
    Outcome Memory :=
  if device = 0 then .ok memory
  else mapAddress layout memory table ⟨device⟩ device
    { read := true, write := true }

def mapPlic (layout : Layout) (fuel : Nat) (memory : Memory) (table plic : Nat) :
    Outcome Memory :=
  if plic = 0 then .ok memory
  else mapPlicLoop layout table (layout.target.uintptr (plic + sifivePlicLen))
    fuel plic memory

def kernelInit (layout : Layout) (board : Board) (fuel : Nat)
    (kernelPageTable : Nat) (memory : Memory) : Outcome (Nat × Memory) :=
  if kernelPageTable ≠ 0 then .ok (kernelPageTable, memory)
  else do
    let (table, memory) ← Page.alloc layout memory
    let memory ← mapSection layout fuel memory table layout.memory
      ⟨layout.memory.startAddress⟩
      { read := true, write := true, execute := true }
    let memory ← mapDevice layout memory table board.sifiveTest
    let memory ← mapPlic layout fuel memory table board.sifivePlic
    let memory ← mapDevice layout memory table board.sifiveUart1
    pure (table, memory)

end PageTable

variable {layout : Layout} {memory after : Memory} {place : Tables layout.target}

/-- `after` maps these pages of one table to themselves and is `memory`
elsewhere. -/
structure Transparent (layout : Layout) (memory after : Memory)
    (place : Tables layout.target) (root : Nat) (pages : Nat → Prop)
    (flags : PageTableEntryFlags) : Prop where
  shape : ∃ place', WellFormed layout after place' ∧
    ∀ table location, place table = some location →
      place' table = some location
  here : ∀ address : VirtualAddress, pages (address.pageIndex layout.target) →
    after.leafEntry layout.target root address = some
      (.mapped layout.target (address.pageIndex layout.target * pageSize) flags)
  elsewhere : ∀ otherRoot (address : VirtualAddress), place.Rooted otherRoot →
    (otherRoot = root → ¬pages (address.pageIndex layout.target)) →
      after.leafEntry layout.target otherRoot address =
        memory.leafEntry layout.target otherRoot address

theorem VirtualAddress.pageIndex_lt (target : Target) (address : VirtualAddress) :
    address.pageIndex target < target.virtualPages := by
  apply Nat.mod_lt
  cases target <;> decide

theorem VirtualAddress.pageIndex_of_lt (target : Target) {value : Nat}
    (bound : value < pageSize * target.virtualPages) :
    VirtualAddress.pageIndex target ⟨value⟩ = value / pageSize :=
  Nat.mod_eq_of_lt (Nat.div_lt_of_lt_mul bound)

namespace Transparent

variable {root : Nat} {pages : Nat → Prop} {flags : PageTableEntryFlags}

theorem none (wellFormed : WellFormed layout memory place)
    (empty : ∀ page, ¬pages page) :
    Transparent layout memory memory place root pages flags where
  shape := ⟨place, wellFormed, fun _ _ here => here⟩
  here _ covered := absurd covered (empty _)
  elsewhere _ _ _ _ := rfl

theorem leaf_cases
    (transparent : Transparent layout memory after place root pages flags)
    (rooted : place.Rooted root) (address : VirtualAddress) :
    after.leafEntry layout.target root address =
        memory.leafEntry layout.target root address ∨
      after.leafEntry layout.target root address = some (.mapped layout.target
        (address.pageIndex layout.target * pageSize) flags) := by
  by_cases covered : pages (address.pageIndex layout.target)
  · exact .inr (transparent.here address covered)
  · exact .inl (transparent.elsewhere root address rooted fun _ => covered)

end Transparent

theorem SectionMapped.transparent {root start endAddress : Nat}
    {flags : PageTableEntryFlags}
    (mapped : SectionMapped layout memory after place root endAddress flags start
      ⟨start⟩) (aligned : pageSize ∣ start)
    (bound : endAddress < pageSize * layout.target.virtualPages) :
    Transparent layout memory after place root
      (fun page => start ≤ page * pageSize ∧ page * pageSize ≤ endAddress)
      flags where
  shape := mapped.shape
  here := by
    intro address ⟨first, last⟩
    have inside := address.pageIndex_lt layout.target
    have below : start / pageSize ≤ address.pageIndex layout.target := by
      simp only [pageSize] at *
      omega
    have physical : start + (address.pageIndex layout.target - start / pageSize) *
        pageSize = address.pageIndex layout.target * pageSize := by
      simp only [pageSize] at *
      omega
    rw [← physical]
    apply mapped.here
    · rw [physical]
      exact last
    · rw [VirtualAddress.pageIndex_advance, Nat.add_sub_cancel' below,
        Nat.mod_eq_of_lt inside]
  elsewhere := by
    intro otherRoot address rooted different
    apply mapped.elsewhere otherRoot address rooted
    intro same count inside equal
    have page : start / pageSize + count < layout.target.virtualPages := by
      rw [← Nat.add_mul_div_right _ _ pageSize_pos]
      apply Nat.div_lt_of_lt_mul
      omega
    rw [VirtualAddress.pageIndex_advance, Nat.mod_eq_of_lt page] at equal
    apply different same
    rw [equal]
    simp only [pageSize] at *
    omega

namespace PageTable

variable {root fuel : Nat}

theorem mapAddress_transparent (wellFormed : WellFormed layout memory place)
    (rooted : place.Rooted root) {device : Nat} {flags : PageTableEntryFlags}
    (bound : device < pageSize * layout.target.virtualPages)
    (mapped : mapAddress layout memory root ⟨device⟩ device flags = .ok after) :
    Transparent layout memory after place root
      (fun page => page = device / pageSize) flags := by
  have physical := Nat.div_mul_cancel (mapAddress_aligned mapped)
  obtain ⟨place', wellFormed', grown, leaves⟩ :=
    mapAddress_spec wellFormed rooted mapped
  have index := VirtualAddress.pageIndex_of_lt layout.target bound
  refine ⟨⟨place', wellFormed', grown⟩, ?_, ?_⟩
  · intro address covered
    rw [leaves root address rooted, index, if_pos ⟨rfl, covered⟩, covered, physical]
  · intro otherRoot address otherRooted different
    rw [leaves otherRoot address otherRooted, index, if_neg]
    rintro ⟨same, covered⟩
    exact different same covered

theorem mapSectionLoop_last {endAddress physicalAddress : Nat}
    {virtualAddress : VirtualAddress} {flags : PageTableEntryFlags}
    (aligned : pageSize ∣ physicalAddress)
    (inRange : physicalAddress < 2 ^ layout.target.pointerBits)
    (looped : mapSectionLoop layout root endAddress flags fuel physicalAddress
      virtualAddress memory = .ok after) :
    endAddress + pageSize < 2 ^ layout.target.pointerBits := by
  have pages : pageSize ∣ 2 ^ layout.target.pointerBits := by
    cases layout.target <;> decide
  induction fuel generalizing memory physicalAddress virtualAddress with
  | zero => contradiction
  | succ fuel induction =>
      rw [mapSectionLoop] at looped
      split at looped
      · obtain ⟨middle, -, looped⟩ := Outcome.bind_eq_ok.mp looped
        apply induction ?_ (Nat.mod_lt _ (Nat.two_pow_pos _)) looped
        exact (Nat.dvd_mod_iff pages).mpr (Nat.dvd_add aligned (Nat.dvd_refl _))
      · simp only [pageSize] at *
        omega

theorem mapPlicLoop_eq {endAddress : Nat} (positive : 0 < endAddress)
    (page : Nat) (memory : Memory) :
    mapPlicLoop layout root endAddress fuel page memory =
      mapSectionLoop layout root (endAddress - 1) { read := true, write := true }
        fuel page ⟨page⟩ memory := by
  induction fuel generalizing page memory with
  | zero => rfl
  | succ fuel induction =>
      have same : page < endAddress ↔ page ≤ endAddress - 1 := by omega
      simp only [mapPlicLoop, mapSectionLoop, same, induction]

theorem mapDevice_transparent (wellFormed : WellFormed layout memory place)
    (rooted : place.Rooted root) {device : Nat}
    (bound : device < pageSize * layout.target.virtualPages)
    (mapped : mapDevice layout memory root device = .ok after) :
    Transparent layout memory after place root
      (fun page => device ≠ 0 ∧ page = device / pageSize)
      { read := true, write := true } := by
  rw [mapDevice] at mapped
  split at mapped
  case isTrue absent =>
    cases mapped
    exact .none wellFormed fun page covered => covered.1 absent
  case isFalse present =>
    have transparent := mapAddress_transparent wellFormed rooted bound mapped
    simpa only [ne_eq, present, not_false_eq_true, true_and] using transparent

theorem mapSectionLoop_aligned {endAddress physicalAddress : Nat}
    {virtualAddress : VirtualAddress} {flags : PageTableEntryFlags}
    (inside : physicalAddress ≤ endAddress)
    (looped : mapSectionLoop layout root endAddress flags fuel physicalAddress
      virtualAddress memory = .ok after) : pageSize ∣ physicalAddress := by
  cases fuel with
  | zero => contradiction
  | succ fuel =>
      rw [mapSectionLoop, if_pos inside] at looped
      obtain ⟨middle, mapped, -⟩ := Outcome.bind_eq_ok.mp looped
      exact mapAddress_aligned mapped

def PlicPage (plic page : Nat) : Prop :=
  plic ≠ 0 ∧ plic ≤ page * pageSize ∧ page * pageSize ≤ plic + sifivePlicLen - 1

theorem mapPlic_aligned {plic : Nat} (present : plic ≠ 0)
    (wrap : plic + sifivePlicLen < 2 ^ layout.target.pointerBits)
    (mapped : mapPlic layout fuel memory root plic = .ok after) :
    pageSize ∣ plic := by
  have length : 0 < sifivePlicLen := by decide
  rw [mapPlic, if_neg present, Target.uintptr_of_lt wrap,
    mapPlicLoop_eq (by omega)] at mapped
  exact mapSectionLoop_aligned (by omega) mapped

theorem mapPlic_transparent (wellFormed : WellFormed layout memory place)
    (rooted : place.Rooted root) {plic : Nat}
    (span : plic + sifivePlicLen ≤ pageSize * layout.target.virtualPages)
    (wrap : plic + sifivePlicLen < 2 ^ layout.target.pointerBits)
    (mapped : mapPlic layout fuel memory root plic = .ok after) :
    Transparent layout memory after place root (PlicPage plic)
      { read := true, write := true } := by
  by_cases present : plic = 0
  case pos =>
    rw [mapPlic, if_pos present] at mapped
    cases mapped
    exact .none wellFormed fun page covered => covered.1 present
  case neg =>
    have aligned := mapPlic_aligned present wrap mapped
    have length : 0 < sifivePlicLen := by decide
    rw [mapPlic, if_neg present, Target.uintptr_of_lt wrap,
      mapPlicLoop_eq (by omega)] at mapped
    have fits : SectionFits layout.target plic (plic + sifivePlicLen - 1) := by
      constructor
      · intro count inside
        have few : count < sifivePlicLen / pageSize := by
          simp only [sifivePlicLen, pageSize] at *
          omega
        apply few.trans_le
        cases layout.target <;> decide
      · have pages : pageSize ∣ 2 ^ layout.target.pointerBits := by
          cases layout.target <;> decide
        simp only [sifivePlicLen, pageSize] at *
        omega
    have transparent := (mapSectionLoop_spec wellFormed rooted fits
      mapped).transparent aligned (by omega)
    unfold PlicPage
    simpa only [ne_eq, present, not_false_eq_true, true_and] using transparent

end PageTable

def Board.Covers (board : Board) (address : Nat) : Prop :=
  (board.sifiveTest ≠ 0 ∧ address / pageSize = board.sifiveTest / pageSize) ∨
    (board.sifivePlic ≠ 0 ∧ board.sifivePlic ≤ address ∧
      address < board.sifivePlic + sifivePlicLen) ∨
    (board.sifiveUart1 ≠ 0 ∧ address / pageSize = board.sifiveUart1 / pageSize)

/-- The device pages have page-index bits of their own, and the end of the PLIC
is an address. -/
structure Board.Fits (board : Board) (target : Target) : Prop where
  sifiveTest : board.sifiveTest < pageSize * target.virtualPages
  sifiveUart1 : board.sifiveUart1 < pageSize * target.virtualPages
  sifivePlic : board.sifivePlic + sifivePlicLen ≤ pageSize * target.virtualPages
  wrap : board.sifivePlic + sifivePlicLen < 2 ^ target.pointerBits

theorem Board.Fits.covers_lt {board : Board} {target : Target} {address : Nat}
    (fits : board.Fits target) (covered : board.Covers address) :
    address < pageSize * target.virtualPages := by
  have device : ∀ {other : Nat}, address / pageSize = other / pageSize →
      other < pageSize * target.virtualPages →
        address < pageSize * target.virtualPages := by
    intro other same bound
    apply Nat.lt_mul_of_div_lt ?_ pageSize_pos |>.trans_eq (Nat.mul_comm ..)
    rw [same]
    exact Nat.div_lt_of_lt_mul bound
  rcases covered with ⟨-, same⟩ | ⟨-, -, last⟩ | ⟨-, same⟩
  · exact device same fits.sifiveTest
  · exact last.trans_le fits.sifivePlic
  · exact device same fits.sifiveUart1

def Board.Outside (board : Board) (layout : Layout) : Prop :=
  ∀ address, board.Covers address → ¬layout.memory.Contains address

def kernelFlags : PageTableEntryFlags :=
  { read := true, write := true, execute := true }

structure KernelTable (layout : Layout) (board : Board) (memory : Memory)
    (kernel : Nat) : Prop where
  identity : ∀ (address : VirtualAddress) entry,
    memory.leafEntry layout.target kernel address = some entry →
      entry.physicalPageNum = address.pageIndex layout.target
  covered : ∀ address, layout.memory.Contains address →
    memory.leafEntry layout.target kernel ⟨address⟩ = some
      (.mapped layout.target (address / pageSize * pageSize) kernelFlags)
  devices : ∀ address, board.Covers address →
    (memory.leafEntry layout.target kernel ⟨address⟩).isSome

theorem PageTableEntry.mapped_page (target : Target) {page : Nat}
    (bound : page < target.virtualPages) (flags : PageTableEntryFlags) :
    (PageTableEntry.mapped target (page * pageSize) flags).physicalPageNum =
      page := by
  have fits := target.virtualPages_le
  rw [PageTableEntry.mapped, Nat.mul_div_cancel _ pageSize_pos,
    Nat.mod_eq_of_lt (by omega)]

namespace Transparent

variable {root : Nat} {pages : Nat → Prop} {flags : PageTableEntryFlags}

theorem identity
    (transparent : Transparent layout memory after place root pages flags)
    (rooted : place.Rooted root)
    (before : ∀ (address : VirtualAddress) entry,
      memory.leafEntry layout.target root address = some entry →
        entry.physicalPageNum = address.pageIndex layout.target)
    (address : VirtualAddress) (entry : PageTableEntry)
    (leaf : after.leafEntry layout.target root address = some entry) :
    entry.physicalPageNum = address.pageIndex layout.target := by
  rcases transparent.leaf_cases rooted address with same | new
  · rw [same] at leaf
    exact before address entry leaf
  · rw [new] at leaf
    cases leaf
    exact PageTableEntry.mapped_page layout.target (address.pageIndex_lt _) flags

theorem isSome
    (transparent : Transparent layout memory after place root pages flags)
    (rooted : place.Rooted root) {address : VirtualAddress}
    (before : (memory.leafEntry layout.target root address).isSome) :
    (after.leafEntry layout.target root address).isSome := by
  rcases transparent.leaf_cases rooted address with same | new
  · rw [same]
    exact before
  · rw [new]
    rfl

theorem isSome_here
    (transparent : Transparent layout memory after place root pages flags)
    {address : VirtualAddress} (covered : pages (address.pageIndex layout.target)) :
    (after.leafEntry layout.target root address).isSome := by
  rw [transparent.here address covered]
  rfl

end Transparent

theorem Layout.memory_start_dvd : pageSize ∣ Image.memoryStart := by decide

theorem Layout.memory_page_contains (layout : Layout) {address : Nat}
    (inside : layout.memory.Contains address) :
    layout.memory.Contains (address / pageSize * pageSize) := by
  have start := Layout.memory_start_dvd
  obtain ⟨first, last⟩ := inside
  change Image.memoryStart ≤ _ at first
  constructor
  · change Image.memoryStart ≤ _
    simp only [pageSize] at *
    omega
  · exact (Nat.div_mul_le_self _ _).trans_lt last

theorem Layout.memory_page (layout : Layout) {address : Nat}
    (inside : layout.memory.Contains address) :
    layout.memory.startAddress ≤ address / pageSize * pageSize ∧
      address / pageSize * pageSize ≤ layout.memory.endAddress :=
  (layout.memory_page_contains inside).imp_right Nat.le_of_lt

theorem PageTable.mapSection_memory {root fuel : Nat}
    (wellFormed : WellFormed layout memory place) (rooted : place.Rooted root)
    (mapped : mapSection layout fuel memory root layout.memory
      ⟨layout.memory.startAddress⟩ kernelFlags = .ok after) :
    Transparent layout memory after place root
      (fun page => layout.memory.startAddress ≤ page * pageSize ∧
        page * pageSize ≤ layout.memory.endAddress) kernelFlags := by
  have fits := layout.fits
  have start : layout.memory.startAddress < 2 ^ layout.target.pointerBits := by
    change Image.memoryStart < _
    cases layout.target <;> decide
  have last := mapSectionLoop_last Layout.memory_start_dvd start mapped
  refine (mapSectionLoop_spec wellFormed rooted ⟨?_, last⟩ mapped).transparent
    Layout.memory_start_dvd fits
  intro count inside
  have scaled : pageSize * count < pageSize * layout.target.virtualPages := by
    change _ ≤ layout.image.memoryEnd at inside
    rw [Nat.mul_comm pageSize count]
    omega
  exact Nat.lt_of_mul_lt_mul_left scaled

theorem PageTable.kernelInit_table {board : Board} {fuel kernel : Nat}
    (wellFormed : WellFormed layout memory place)
    (fits : board.Fits layout.target) (outside : board.Outside layout)
    (built : kernelInit layout board fuel 0 memory = .ok (kernel, after)) :
    ∃ place', WellFormed layout after place' ∧ place'.Rooted kernel ∧
      KernelTable layout board after kernel := by
  rw [kernelInit, if_neg (by simp)] at built
  obtain ⟨⟨page, fresh⟩, allocated, built⟩ := Outcome.bind_eq_ok.mp built
  obtain ⟨mapped, mapsMemory, built⟩ := Outcome.bind_eq_ok.mp built
  obtain ⟨tested, mapsTest, built⟩ := Outcome.bind_eq_ok.mp built
  obtain ⟨interrupts, mapsPlic, built⟩ := Outcome.bind_eq_ok.mp built
  obtain ⟨final, mapsUart, built⟩ := Outcome.bind_eq_ok.mp built
  cases built
  have allocated := Page.alloc_allocated wellFormed allocated
  have empty := allocated.leafEntry_new
  have wellFormed := allocated.rootWellFormed wellFormed
  have rooted : Placement.Rooted (Function.update place kernel (some (kernel, [])))
      kernel := Function.update_self ..
  have memory := mapSection_memory wellFormed rooted mapsMemory
  obtain ⟨place₁, wellFormed₁, grown₁⟩ := memory.shape
  have rooted₁ := grown₁ kernel _ rooted
  have test := mapDevice_transparent wellFormed₁ rooted₁ fits.sifiveTest mapsTest
  obtain ⟨place₂, wellFormed₂, grown₂⟩ := test.shape
  have rooted₂ := grown₂ kernel _ rooted₁
  have plic := mapPlic_transparent wellFormed₂ rooted₂ fits.sifivePlic fits.wrap
    mapsPlic
  obtain ⟨place₃, wellFormed₃, grown₃⟩ := plic.shape
  have rooted₃ := grown₃ kernel _ rooted₂
  have uart := mapDevice_transparent wellFormed₃ rooted₃ fits.sifiveUart1 mapsUart
  obtain ⟨place₄, wellFormed₄, grown₄⟩ := uart.shape
  refine ⟨place₄, wellFormed₄, grown₄ kernel _ rooted₃, ?_, ?_, ?_⟩
  · apply uart.identity rooted₃
    apply plic.identity rooted₂
    apply test.identity rooted₁
    apply memory.identity rooted
    intro address entry leaf
    rw [empty address] at leaf
    contradiction
  · intro address inside
    have index := VirtualAddress.pageIndex_of_lt layout.target
      (inside.2.trans layout.fits)
    rw [uart.elsewhere kernel _ rooted₃, plic.elsewhere kernel _ rooted₂,
      test.elsewhere kernel _ rooted₁, memory.here, index]
    · rw [index]
      exact layout.memory_page inside
    · rintro - ⟨present, same⟩
      rw [index] at same
      exact outside address (.inl ⟨present, same⟩) inside
    · rintro - ⟨present, first, last⟩
      rw [index] at first last
      refine outside (address / pageSize * pageSize)
        (.inr (.inl ⟨present, first, ?_⟩)) (layout.memory_page_contains inside)
      simp only [sifivePlicLen] at *
      omega
    · rintro - ⟨present, same⟩
      rw [index] at same
      exact outside address (.inr (.inr ⟨present, same⟩)) inside
  · have index : ∀ {address device}, address / pageSize = device / pageSize →
        device < pageSize * layout.target.virtualPages →
          VirtualAddress.pageIndex layout.target ⟨address⟩ = device / pageSize := by
      intro address device same bound
      rw [VirtualAddress.pageIndex, same]
      exact Nat.mod_eq_of_lt (Nat.div_lt_of_lt_mul bound)
    rintro address (⟨present, same⟩ | ⟨present, first, last⟩ | ⟨present, same⟩)
    · apply uart.isSome rooted₃
      apply plic.isSome rooted₂
      exact test.isSome_here ⟨present, index same fits.sifiveTest⟩
    · apply uart.isSome rooted₃
      apply plic.isSome_here
      have aligned := mapPlic_aligned present fits.wrap mapsPlic
      have span := fits.sifivePlic
      rw [VirtualAddress.pageIndex_of_lt layout.target (by omega)]
      refine ⟨present, ?_, ?_⟩
      · simp only [pageSize] at *
        omega
      · simp only [sifivePlicLen, pageSize] at *
        omega
    · exact uart.isSome_here ⟨present, index same fits.sifiveUart1⟩

end Thos.VirtualMemory
