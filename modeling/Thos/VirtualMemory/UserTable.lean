import Mathlib.Data.Fintype.Card
import Thos.VirtualMemory.MapSection

namespace Thos.VirtualMemory

open Thos.Kernel
open Data.RadixForest

/-! What the table of a user process makes accessible in user mode. -/

variable {layout : Layout} {memory after : Memory} {place : Tables layout.target}

/-- Where `Page_alloc` leaves `next_page`, whatever the memory holds. -/
def Memory.Pooled (layout : Layout) (memory : Memory) : Prop :=
  memory.nextPage = 0 ∨
    (layout.pages.startAddress ≤ memory.nextPage ∧
      memory.nextPage ≤ layout.pages.endAddress ∧ pageSize ∣ memory.nextPage)

theorem Memory.Pooled.wellFormed (pooled : memory.Pooled layout) :
    WellFormed layout memory fun _ => none where
  cursor := pooled.imp_left fun unused => ⟨unused, fun _ => rfl⟩
  pool := by simp
  depth := by simp
  inner := by simp
  bottom := by simp

theorem WellFormed.pooled (wellFormed : WellFormed layout memory place) :
    memory.Pooled layout :=
  wellFormed.cursor.imp_left And.left

/-- Every page the table lets user mode reach is a page of the section. -/
def UserIsolated (layout : Layout) (memory : Memory) (table : Nat)
    (region : Section) : Prop :=
  ∀ (address : VirtualAddress) (entry : PageTableEntry),
    memory.leafEntry layout.target table address = some entry →
      entry.flags.user = true →
        region.Contains (entry.physicalPageNum * pageSize)

/-- A page-aligned program, start and end label of `__USER_*`. -/
structure Program (layout : Layout) (region : Section) : Prop where
  startAligned : pageSize ∣ region.startAddress
  endAligned : pageSize ∣ region.endAddress
  start : layout.userPrograms.startAddress ≤ region.startAddress
  order : region.startAddress ≤ region.endAddress
  last : region.endAddress ≤ layout.userPrograms.endAddress

theorem Program.end_le_pages {region : Section} (program : Program layout region) :
    region.endAddress ≤ layout.pages.startAddress := by
  have bound := program.last
  have next := layout.pages_start_eq
  omega

theorem Program.end_add_pageSize_le {region : Section}
    (program : Program layout region) :
    region.endAddress + pageSize ≤ layout.memory.endAddress := by
  have bound := program.end_le_pages
  have pool := layout.pages_end_eq
  have same : layout.memory.endAddress = layout.pages.endAddress := rfl
  simp only [pageSize] at *
  omega

theorem WellFormed.bottom_tables_le (wellFormed : WellFormed layout memory place)
    {root count : Nat} (rooted : place.Rooted root)
    (address : Fin count → VirtualAddress)
    (distinct : ∀ first second, (address first).inner layout.target =
      (address second).inner layout.target → first = second)
    (mapped : ∀ index,
      (memory.leafEntry layout.target root (address index)).isSome) :
    count ≤ 256 := by
  have walked : ∀ index, ∃ bottom, walk (memory.child layout.target) root
      ((address index).inner layout.target) = some bottom := by
    intro index
    obtain ⟨entry, leaf⟩ := Option.isSome_iff_exists.mp (mapped index)
    rw [Memory.leafEntry, lookup] at leaf
    obtain ⟨bottom, walked, _⟩ := Option.bind_eq_some_iff.mp leaf
    exact ⟨bottom, walked⟩
  choose bottom walked using walked
  have placed : ∀ index, place (bottom index) =
      some (root, (address index).inner layout.target) := fun index =>
    wellFormed.separated.place_of_walk rooted
      (Nat.le_of_eq ((address index).length_path layout.target _)) (walked index)
  have pool := fun index => wellFormed.pool _ _ _ (placed index)
  have firstAligned := layout.pages_start_dvd
  have endEq := layout.pages_end_eq
  have inPool := wellFormed.nextPage_le
  have bound : ∀ index,
      (bottom index - layout.pages.startAddress) / pageSize < 256 := by
    intro index
    have := pool index
    simp only [pageSize] at *
    omega
  have injective : Function.Injective fun index =>
      (⟨(bottom index - layout.pages.startAddress) / pageSize,
        bound index⟩ : Fin 256) := by
    intro first second equal
    have sameNumber := Fin.val_eq_of_eq equal
    have firstPool := pool first
    have secondPool := pool second
    have sameTable : bottom first = bottom second := by
      simp only [pageSize] at *
      omega
    apply distinct
    have samePlace := (placed first).symm.trans (sameTable ▸ placed second)
    exact (Prod.mk.inj (Option.some.inj samePlace)).2
  simpa using Fintype.card_le_of_injective _ injective

theorem SectionMapped.size_lt {root endAddress physicalAddress : Nat}
    {flags : PageTableEntryFlags} {virtualAddress : VirtualAddress}
    (mapped : SectionMapped layout memory after place root endAddress flags
      physicalAddress virtualAddress) (rooted : place.Rooted root)
    (fits : PageTable.SectionFits layout.target physicalAddress endAddress)
    (order : physicalAddress ≤ endAddress) :
    endAddress - physicalAddress < 256 * layout.target.entries * pageSize := by
  by_contra large
  obtain ⟨place', wellFormed, grown⟩ := mapped.shape
  have inside : ∀ index : Fin 257, physicalAddress +
      index.val * layout.target.entries * pageSize ≤ endAddress := by
    intro index
    have scaled : index.val * layout.target.entries * pageSize ≤
        256 * layout.target.entries * pageSize := by
      apply Nat.mul_le_mul_right
      apply Nat.mul_le_mul_right
      omega
    omega
  have count := wellFormed.bottom_tables_le (grown root _ rooted)
    (fun index : Fin 257 =>
      virtualAddress.advance (index.val * layout.target.entries)) ?_ ?_
  · omega
  · intro first second sameInner
    have samePage := (VirtualAddress.pageIndex_eq_iff layout.target _ _).mpr
      ⟨sameInner, by
        apply Fin.ext
        simp [VirtualAddress.slot, VirtualAddress.levelEntryNumber,
          VirtualAddress.advance, Nat.add_mul_div_right _ _ pageSize_pos]⟩
    have sameCount := VirtualAddress.pageIndex_advance_inj layout.target _
      (fits.pages _ (inside first)) (fits.pages _ (inside second)) samePage
    exact Fin.ext (Nat.eq_of_mul_eq_mul_right layout.target.entries_pos sameCount)
  · intro index
    rw [mapped.here _ (inside index) _ rfl]
    rfl

def userFlags : PageTableEntryFlags :=
  { read := true, write := true, execute := true, user := true }

/-- The pages of `region` mapped by `user_init` lie below the kernel, so the
two special sections do not overwrite them. -/
theorem user_page_ne_special {region special : Section} {count other : Nat}
    (size : region.endAddress - region.startAddress <
      256 * layout.target.entries * pageSize)
    (inside : region.startAddress + count * pageSize ≤ region.endAddress)
    (start : Image.memoryStart ≤ special.startAddress)
    (last : special.endAddress + pageSize ≤ layout.memory.endAddress)
    (specialInside : special.startAddress + other * pageSize ≤
      special.endAddress) :
    VirtualAddress.pageIndex layout.target
        (VirtualAddress.advance ⟨userProgramBase⟩ count) ≠
      VirtualAddress.pageIndex layout.target
        (VirtualAddress.advance ⟨special.startAddress⟩ other) := by
  intro equal
  have fits := layout.fits
  have span : Image.memoryStart / pageSize ≤ layout.target.virtualPages := by
    cases layout.target <;> decide
  have entries : layout.target.entries ≤ 1024 := by
    cases layout.target <;> decide
  have below : userProgramBase / pageSize + count <
      Image.memoryStart / pageSize := by
    have : count * pageSize < 256 * 1024 * pageSize := by
      have := Nat.mul_le_mul_right (256 * pageSize) entries
      simp only [pageSize] at *
      omega
    simp only [Image.memoryStart, userProgramBase, pageSize] at *
    omega
  have above : special.startAddress / pageSize + other <
      layout.target.virtualPages := by
    rw [← Nat.add_mul_div_right _ _ pageSize_pos]
    apply Nat.div_lt_of_lt_mul
    simp only [Layout.memory] at last
    omega
  have order : Image.memoryStart / pageSize ≤ special.startAddress / pageSize :=
    Nat.div_le_div_right start
  simp only [VirtualAddress.pageIndex_advance] at equal
  rw [Nat.mod_eq_of_lt (by omega), Nat.mod_eq_of_lt above] at equal
  omega

def Tables.ofRoot (target : Target) (root : Nat) : Tables target :=
  Function.update (fun _ => none) root (some (root, []))

/-- The table of a user process: its program, then the two special sections. -/
structure UserTable (layout : Layout) (memory : Memory) (region : Section)
    (table : Nat) (after : Memory) : Prop where
  steps : ∃ fresh mapped special,
    Allocated layout memory table fresh ∧
    SectionMapped layout fresh mapped
      (Tables.ofRoot layout.target table) table
      region.endAddress userFlags region.startAddress ⟨userProgramBase⟩ ∧
    (∃ place, place.Rooted table ∧
      SectionMapped layout mapped special place table
        layout.globalSpecial.endAddress
        { read := true, write := true, execute := true }
        layout.globalSpecial.startAddress
        ⟨layout.globalSpecial.startAddress⟩) ∧
    (∃ place, place.Rooted table ∧
      SectionMapped layout special after place table
        layout.userSpecial.endAddress
        { read := true, write := true, execute := true }
        layout.userSpecial.startAddress ⟨layout.userSpecial.startAddress⟩)

theorem Layout.special_end_le (layout : Layout) :
    layout.globalSpecial.endAddress + pageSize ≤ layout.memory.endAddress ∧
      layout.userSpecial.endAddress + pageSize ≤ layout.memory.endAddress := by
  have order := layout.order
  have next := layout.pages_start_eq
  have pool := layout.pages_end_eq
  have same : layout.memory.endAddress = layout.pages.endAddress := rfl
  simp only [pageSize] at *
  omega

namespace PageTable

theorem userInit_table {fuel table : Nat} {region : Section}
    (pooled : memory.Pooled layout) (program : Program layout region)
    (built : userInit layout fuel memory region ⟨userProgramBase⟩ =
      .ok (table, after)) : UserTable layout memory region table after := by
  obtain ⟨⟨page, fresh⟩, allocated, built⟩ := Outcome.bind_eq_ok.mp built
  obtain ⟨mapped, mapsProgram, built⟩ := Outcome.bind_eq_ok.mp built
  obtain ⟨special, mapsGlobal, built⟩ := Outcome.bind_eq_ok.mp built
  obtain ⟨last, mapsUser, built⟩ := Outcome.bind_eq_ok.mp built
  cases built
  have allocated := Page.alloc_allocated pooled.wellFormed allocated
  have wellFormed := allocated.rootWellFormed pooled.wellFormed
  have rooted : (Tables.ofRoot layout.target table).Rooted table :=
    Function.update_self ..
  have programMapped := mapSection_spec wellFormed rooted
    program.end_add_pageSize_le mapsProgram
  obtain ⟨place, wellFormed, grown⟩ := programMapped.shape
  have rooted := grown table _ rooted
  have globalMapped := mapSection_spec wellFormed rooted
    layout.special_end_le.1 mapsGlobal
  obtain ⟨place', wellFormed', grown'⟩ := globalMapped.shape
  have rooted' := grown' table _ rooted
  have userMapped := mapSection_spec wellFormed' rooted'
    layout.special_end_le.2 mapsUser
  exact ⟨fresh, mapped, special, allocated, programMapped,
    ⟨place, rooted, globalMapped⟩, ⟨place', rooted', userMapped⟩⟩

end PageTable

theorem UserTable.program_leaf {region : Section} {table count : Nat}
    (built : UserTable layout memory region table after)
    (program : Program layout region)
    (inside : region.startAddress + count * pageSize ≤ region.endAddress) :
    after.leafEntry layout.target table
        (VirtualAddress.advance ⟨userProgramBase⟩ count) =
      some (.mapped layout.target (region.startAddress + count * pageSize)
        userFlags) := by
  obtain ⟨fresh, mapped, special, _, programMapped, ⟨place, rooted, globalMapped⟩,
    ⟨place', rooted', userMapped⟩⟩ := built.steps
  have order := layout.order
  have size := programMapped.size_lt (Function.update_self ..)
    (layout.sectionFits program.end_add_pageSize_le) program.order
  rw [userMapped.elsewhere table _ rooted' ?user,
    globalMapped.elsewhere table _ rooted ?global]
  · exact programMapped.here count inside _ rfl
  case user =>
    intro _ other bound
    exact user_page_ne_special size inside (by omega)
      layout.special_end_le.2 bound
  case global =>
    intro _ other bound
    exact user_page_ne_special size inside (by omega)
      layout.special_end_le.1 bound

/-- The page at the end address of the program is accessible in user mode. -/
theorem UserTable.end_leaf {region : Section} {table : Nat}
    (built : UserTable layout memory region table after)
    (program : Program layout region) :
    ∃ address entry, after.leafEntry layout.target table address = some entry ∧
      entry.flags.user = true ∧
      entry.physicalPageNum * pageSize = region.endAddress := by
  have startAligned := program.startAligned
  have endAligned := program.endAligned
  have order := program.order
  have pages : region.startAddress +
      (region.endAddress - region.startAddress) / pageSize * pageSize =
        region.endAddress := by
    simp only [pageSize] at *
    omega
  refine ⟨_, _, built.program_leaf program (Nat.le_of_eq pages), rfl, ?_⟩
  rw [pages, PageTableEntry.mapped, Nat.mod_eq_of_lt,
    Nat.div_mul_cancel endAligned]
  apply layout.pageNumber_lt
  have bound := program.end_le_pages
  have pool := layout.pages_end_eq
  omega

/-- No table of `user_init` is isolated, whatever the program, its place and
the memory. -/
theorem userInit_not_isolated {region : Section} {fuel table : Nat}
    (pooled : memory.Pooled layout) (program : Program layout region)
    (built : PageTable.userInit layout fuel memory region ⟨userProgramBase⟩ =
      .ok (table, after)) : ¬ UserIsolated layout after table region := by
  intro isolated
  obtain ⟨address, entry, leaf, user, page⟩ :=
    (PageTable.userInit_table pooled program built).end_leaf program
  have contained := isolated address entry leaf user
  rw [page] at contained
  exact Nat.lt_irrefl _ contained.2

def Memory.booted : Memory :=
  Memory.wipe { Memory.unused with
    nextPage := Layout.small.pages.startAddress + pageSize }
    Layout.small.pages.startAddress

set_option maxRecDepth 100000 in
theorem Memory.booted_alloc : Page.alloc Layout.small Memory.unused =
    .ok (Layout.small.userPrograms.endAddress, Memory.booted) := rfl

theorem Memory.booted_pooled : Memory.booted.Pooled Layout.small :=
  .inr (by decide)

theorem small_program : Program Layout.small Layout.small.userPrograms :=
  ⟨by decide, by decide, by decide, by decide, by decide⟩

set_option maxRecDepth 100000 in
theorem small_userInit : ∃ table after,
    PageTable.userInit Layout.small 4 Memory.booted Layout.small.userPrograms
      ⟨userProgramBase⟩ = .ok (table, after) :=
  ⟨_, _, rfl⟩

theorem userInit_not_isolated_small : ∃ table after,
    ¬ UserIsolated Layout.small after table Layout.small.userPrograms := by
  obtain ⟨table, after, built⟩ := small_userInit
  exact ⟨table, after,
    userInit_not_isolated Memory.booted_pooled small_program built⟩

/-- The last program can read and write the kernel's root table. -/
theorem user_reaches_kernel_table : ∃ table after address entry,
    PageTable.userInit Layout.small 4 Memory.booted Layout.small.userPrograms
      ⟨userProgramBase⟩ = .ok (table, after) ∧
    after.leafEntry .riscv64 table address = some entry ∧
    entry.flags.user = true ∧
    ¬ Layout.small.userPrograms.Contains (entry.physicalPageNum * pageSize) ∧
    Page.alloc Layout.small Memory.unused =
      .ok (entry.physicalPageNum * pageSize, Memory.booted) := by
  obtain ⟨table, after, built⟩ := small_userInit
  obtain ⟨address, entry, leaf, user, page⟩ :=
    (PageTable.userInit_table Memory.booted_pooled small_program built).end_leaf
      small_program
  refine ⟨table, after, address, entry, built, leaf, user, ?_, ?_⟩
  · rw [page]
    exact fun contained => Nat.lt_irrefl _ contained.2
  · rw [page]
    exact Memory.booted_alloc

end Thos.VirtualMemory
