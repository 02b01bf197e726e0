import Thos.VirtualMemory.MapCalls
import Thos.VirtualMemory.UserTable

namespace Thos.VirtualMemory

open Data.RadixForest
open Thos.Kernel

/-! What the hart translates while the table of a process is activated. -/

variable {layout : Layout} {memory after : Memory} {roots : List Nat}
  {calls : List MapCall} {region : Section} {table fuel : Nat}

theorem AccessRun.root_mem {call : MapCall}
    (run : AccessRun layout memory roots calls) (member : call ∈ calls) :
    call.root ∈ roots := by
  induction run with
  | start => contradiction
  | alloc _ _ induction => exact List.mem_cons_of_mem _ (induction member)
  | map _ known _ _ induction =>
      rcases List.mem_append.mp member with old | new
      · exact induction old
      · rw [List.mem_singleton.mp new]
        exact known
  | access _ _ _ induction => exact induction member

theorem AccessRun.fresh {page : Nat} (run : AccessRun layout memory roots calls)
    (allocated : Page.alloc layout memory = .ok (page, after)) : page ∉ roots := by
  intro known
  obtain ⟨place, wellFormed, rooted⟩ := (Translates.of_run run).shape
  have placed := rooted page known
  rw [Placement.Rooted,
    (Page.alloc_allocated wellFormed allocated).fresh wellFormed] at placed
  contradiction

theorem AccessRun.pooled (run : AccessRun layout memory roots calls) :
    memory.Pooled layout := by
  obtain ⟨place, wellFormed, _⟩ := (Translates.of_run run).shape
  exact wellFormed.pooled

/-- The address is in a page that `map_section` maps, up to the one at the end. -/
def Section.Covers (region : Section) (address : Nat) : Prop :=
  region.startAddress ≤ address ∧ address < region.endAddress + pageSize

/-- The pages of the two special sections. -/
def Layout.SpecialPage (layout : Layout) (page : Nat) : Prop :=
  (layout.globalSpecial.startAddress ≤ page * pageSize ∧
      page * pageSize ≤ layout.globalSpecial.endAddress) ∨
    (layout.userSpecial.startAddress ≤ page * pageSize ∧
      page * pageSize ≤ layout.userSpecial.endAddress)

/-- A page of a process: its physical address and its flags. -/
inductive UserPage (layout : Layout) (region : Section) :
    Nat → Nat × PageTableEntryFlags → Prop
  | program (count : Nat) :
      region.startAddress + count * pageSize ≤ region.endAddress →
        UserPage layout region (userProgramBase / pageSize + count)
          (region.startAddress + count * pageSize, userFlags)
  | special (page : Nat) : layout.SpecialPage page →
      UserPage layout region page (page * pageSize, kernelFlags)

structure UserCalls (layout : Layout) (region : Section) (table : Nat)
    (program special : List MapCall) : Prop where
  program : SectionCalls layout.target table region.endAddress region.startAddress
    ⟨userProgramBase⟩ userFlags program
  special : ItselfCalls layout.target table layout.SpecialPage kernelFlags special
  below : ∀ count, region.startAddress + count * pageSize ≤ region.endAddress →
    userProgramBase / pageSize + count < Image.memoryStart / pageSize

theorem PageTable.userInit_calls (run : AccessRun layout memory roots calls)
    (program : Program layout region)
    (built : userInit layout fuel memory region ⟨userProgramBase⟩ =
      .ok (table, after)) :
    table ∉ roots ∧ ∃ first second,
      AccessRun layout after (table :: roots) (calls ++ (first ++ second)) ∧
        UserCalls layout region table first second := by
  obtain ⟨_, _, _, _, mapsPages, _, _⟩ :=
    (userInit_table run.pooled program built).steps
  have size := mapsPages.size_lt (Function.update_self ..)
    (layout.sectionFits program.end_add_pageSize_le) program.order
  obtain ⟨⟨page, fresh⟩, allocated, built⟩ := Outcome.bind_eq_ok.mp built
  obtain ⟨mapped, mapsProgram, built⟩ := Outcome.bind_eq_ok.mp built
  obtain ⟨special, mapsGlobal, built⟩ := Outcome.bind_eq_ok.mp built
  obtain ⟨last, mapsUser, built⟩ := Outcome.bind_eq_ok.mp built
  cases built
  have span := layout.target.virtualSpan_le
  have inMemory : ∀ {address : Nat},
      address + pageSize ≤ layout.memory.endAddress →
        address < pageSize * layout.target.virtualPages ∧
          address + pageSize < 2 ^ layout.target.pointerBits := by
    intro address bound
    have fits := layout.fits
    change layout.memory.endAddress < _ at fits
    omega
  have ends := layout.special_end_le
  have ofProgram := inMemory program.end_add_pageSize_le
  have ofGlobal := inMemory ends.1
  have ofUser := inMemory ends.2
  have member : table ∈ table :: roots := List.mem_cons_self
  obtain ⟨first, run₁, pages⟩ := (run.alloc allocated).mapSection member
    ofProgram.1 ofProgram.2 mapsProgram
  obtain ⟨second, run₂, global⟩ := run₁.mapSectionItself member
    (dvd_alignUp_pageSize _) ofGlobal.1 ofGlobal.2 mapsGlobal
  obtain ⟨third, run₃, user⟩ := run₂.mapSectionItself member
    (dvd_alignUp_pageSize _) ofUser.1 ofUser.2 mapsUser
  refine ⟨run.fresh allocated, first, second ++ third, ?_, pages,
    global.append user, fun count inside => ?_⟩
  · rw [List.append_assoc, List.append_assoc] at run₃
    exact run₃
  · have entries : layout.target.entries ≤ 1024 := by
      cases layout.target <;> decide
    have scaled := Nat.mul_le_mul_right (256 * pageSize) entries
    simp only [Image.memoryStart, userProgramBase, pageSize] at *
    omega

namespace UserPage

variable {index : Nat} {entry other : Nat × PageTableEntryFlags}

theorem special_above {page : Nat} (special : layout.SpecialPage page) :
    Image.memoryStart / pageSize ≤ page := by
  have order := layout.order
  rw [Nat.div_le_iff_le_mul_add_pred pageSize_pos]
  rcases special with ⟨above, _⟩ | ⟨above, _⟩ <;>
    simp only [pageSize] at * <;> omega

theorem unique
    (below : ∀ count, region.startAddress + count * pageSize ≤ region.endAddress →
      userProgramBase / pageSize + count < Image.memoryStart / pageSize)
    (first : UserPage layout region index entry)
    (second : UserPage layout region index other) : entry = other := by
  generalize same : index = index' at second
  cases first with
  | program count inside =>
      have low := below count inside
      cases second with
      | program count' _ => rw [Nat.add_left_cancel same]
      | special page special =>
          have high := special_above special
          omega
  | special page special =>
      have high := special_above special
      cases second with
      | program count inside =>
          have low := below count inside
          omega
      | special => rw [same]

end UserPage

namespace UserCalls

variable {first second : List MapCall} {index : Nat}
  {entry : Nat × PageTableEntryFlags}

theorem pageIndex {count : Nat} (known : UserCalls layout region table first second)
    (inside : region.startAddress + count * pageSize ≤ region.endAddress) :
    (VirtualAddress.advance ⟨userProgramBase⟩ count).pageIndex layout.target =
      userProgramBase / pageSize + count := by
  have span : Image.memoryStart / pageSize ≤ layout.target.virtualPages := by
    cases layout.target <;> decide
  have low := known.below count inside
  rw [VirtualAddress.pageIndex_advance]
  exact Nat.mod_eq_of_lt (Nat.lt_of_lt_of_le low span)

theorem page_of_call {call : MapCall}
    (known : UserCalls layout region table first second)
    (member : call ∈ first ++ second) :
    call.root = table ∧ UserPage layout region
      (call.virtualAddress.pageIndex layout.target)
      (call.physicalAddress, call.flags) := by
  rcases List.mem_append.mp member with ofProgram | ofSpecial
  · obtain ⟨count, inside, page⟩ := known.program.each call ofProgram
    rw [page.pageIndex, known.pageIndex inside, page.physicalAddress, page.flags]
    exact ⟨page.root, .program count inside⟩
  · obtain ⟨root, flags, special, itself⟩ := known.special.each call ofSpecial
    rw [itself, flags]
    exact ⟨root, .special _ special⟩

theorem exists_call (known : UserCalls layout region table first second)
    (page : UserPage layout region index entry) : ∃ call ∈ first ++ second,
      call.virtualAddress.pageIndex layout.target = index := by
  cases page with
  | program count inside =>
      obtain ⟨call, member, page⟩ := known.program.every count inside
      exact ⟨call, List.mem_append_left _ member,
        page.pageIndex.trans (known.pageIndex inside)⟩
  | special page special =>
      obtain ⟨call, member, named⟩ := known.special.every _ special
      exact ⟨call, List.mem_append_right _ member, named⟩

theorem ofCalls_eq_some_iff (known : UserCalls layout region table first second)
    (others : ∀ call ∈ calls, call.root ≠ table) :
    PageMap.ofCalls layout.target (calls ++ (first ++ second)) (table, index) =
      some entry ↔ UserPage layout region index entry := by
  have held : ∀ {entry}, PageMap.ofCalls layout.target (calls ++ (first ++ second))
      (table, index) = some entry → UserPage layout region index entry := by
    intro entry here
    rcases PageMap.ofCalls_cases layout.target (calls ++ (first ++ second)) table
      index with ⟨unmapped, _⟩ | ⟨call, member, root, rfl, mapped⟩
    · rw [unmapped] at here
      contradiction
    · rw [mapped] at here
      cases here
      rcases List.mem_append.mp member with old | own
      · exact absurd root (others call old)
      · exact (known.page_of_call own).2
  refine ⟨held, fun page => ?_⟩
  obtain ⟨call, member, named⟩ := known.exists_call page
  rcases PageMap.ofCalls_cases layout.target (calls ++ (first ++ second)) table
    index with ⟨_, never⟩ | ⟨_, _, _, _, mapped⟩
  · exact absurd named
      (never call (List.mem_append_right _ member) (known.page_of_call member).1)
  · rw [mapped]
    exact congrArg some ((held mapped).unique known.below page)

end UserCalls

theorem Layout.specialPage_iff (layout : Layout) (address : Nat) :
    layout.SpecialPage (address / pageSize) ↔
      layout.globalSpecial.Covers address ∨ layout.userSpecial.Covers address := by
  have covers : ∀ region : Section, pageSize ∣ region.startAddress →
      pageSize ∣ region.endAddress →
        ((region.startAddress ≤ address / pageSize * pageSize ∧
          address / pageSize * pageSize ≤ region.endAddress) ↔
            region.Covers address) := by
    intro region startAligned endAligned
    rw [Section.Covers]
    simp only [pageSize] at *
    omega
  exact or_congr
    (covers layout.globalSpecial (dvd_alignUp_pageSize _) (dvd_alignUp_pageSize _))
    (covers layout.userSpecial (dvd_alignUp_pageSize _) (dvd_alignUp_pageSize _))

theorem UserPage.address_iff (aligned : Program layout region) (program special : Prop)
    (address physicalAddress : Nat) :
    (∃ entry, UserPage layout region (address / pageSize) entry ∧
        (if entry.2.user then program else special) ∧
          entry.1 + address % pageSize = physicalAddress) ↔
      (program ∧ ∃ offset, address = userProgramBase + offset ∧
          offset < region.size + pageSize ∧
          physicalAddress = region.startAddress + offset) ∨
        (special ∧
          (layout.globalSpecial.Covers address ∨ layout.userSpecial.Covers address) ∧
          physicalAddress = address) := by
  have startAligned := aligned.startAligned
  have endAligned := aligned.endAligned
  have order := aligned.order
  have whole := Nat.div_add_mod' address pageSize
  rw [Section.size]
  constructor
  · rintro ⟨entry, page, allowed, rfl⟩
    generalize named : address / pageSize = index at page
    cases page with
    | program count inside =>
        refine .inl ⟨allowed, count * pageSize + address % pageSize, ?_, ?_, ?_⟩ <;>
          simp only [userProgramBase, pageSize] at * <;> omega
    | special page inside =>
        subst named
        exact .inr ⟨allowed, (layout.specialPage_iff address).mp inside, whole⟩
  · rintro (⟨allowed, offset, same, bound, rfl⟩ | ⟨allowed, covers, rfl⟩)
    · have index : address / pageSize =
          userProgramBase / pageSize + offset / pageSize := by
        simp only [userProgramBase, pageSize] at *
        omega
      rw [index]
      refine ⟨_, .program (offset / pageSize) ?_, allowed, ?_⟩ <;>
        simp only [userProgramBase, pageSize] at * <;> omega
    · exact ⟨_, .special _ ((layout.specialPage_iff _).mpr covers), allowed, whole⟩

theorem UserPage.permits_iff {index : Nat} {entry : Nat × PageTableEntryFlags}
    (page : UserPage layout region index entry) (accessor : Accessor) :
    ({ entry.2 with valid := true, read := true } :
        PageTableEntryFlags).permits accessor = true ↔
      if entry.2.user then accessor.supervisor → accessor.sum ∧
        accessor.access ≠ .fetch
      else accessor.supervisor := by
  rcases accessor with ⟨supervisor, sum, mxr, access⟩
  cases page with
  | program =>
      cases supervisor <;> cases access <;>
        simp [PageTableEntryFlags.permits, userFlags]
  | special =>
      cases supervisor <;> cases access <;>
        simp [PageTableEntryFlags.permits, kernelFlags]

end Thos.VirtualMemory
