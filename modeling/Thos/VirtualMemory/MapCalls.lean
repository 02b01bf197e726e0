import Thos.VirtualMemory.KernelTable
import Thos.VirtualMemory.Mmu

namespace Thos.VirtualMemory

open Thos.Kernel

/-! The calls of `PageTable_map_section`, and what they leave mapped. -/

namespace PageMap

theorem ofCalls_cases (target : Target) (calls : List MapCall) (root index : Nat) :
    (ofCalls target calls (root, index) = none ∧ ∀ call ∈ calls, call.root = root →
        call.virtualAddress.pageIndex target ≠ index) ∨
      ∃ call ∈ calls, call.root = root ∧
        call.virtualAddress.pageIndex target = index ∧
        ofCalls target calls (root, index) = some (call.physicalAddress, call.flags) := by
  induction calls using List.reverseRecOn with
  | nil => exact .inl ⟨rfl, List.forall_mem_nil _⟩
  | append_singleton calls call induction =>
      rw [ofCalls_concat, map_apply]
      by_cases here : root = call.root ∧ index = call.virtualAddress.pageIndex target
      · rw [if_pos here]
        exact .inr ⟨call, by simp, here.1.symm, here.2.symm, rfl⟩
      · rw [if_neg here]
        rcases induction with ⟨unmapped, never⟩ | ⟨other, member, named⟩
        · refine .inl ⟨unmapped, fun other member sameRoot sameIndex => ?_⟩
          rcases List.mem_append.mp member with old | new
          · exact never other old sameRoot sameIndex
          · rw [List.mem_singleton.mp new] at sameRoot sameIndex
            exact here ⟨sameRoot.symm, sameIndex.symm⟩
        · exact .inr ⟨other, List.mem_append_left _ member, named⟩

theorem ofCalls_append_of_ne (target : Target) (calls : List MapCall) {root : Nat}
    (index : Nat) {more : List MapCall} (others : ∀ call ∈ more, call.root ≠ root) :
    ofCalls target (calls ++ more) (root, index) = ofCalls target calls (root, index) := by
  induction more using List.reverseRecOn with
  | nil => rw [List.append_nil]
  | append_singleton more call induction =>
      rw [← List.append_assoc, ofCalls_concat, map_apply, if_neg]
      · exact induction fun other member => others other (List.mem_append_left _ member)
      · intro here
        exact others call (by simp) here.1.symm

end PageMap

structure MapCall.PageOf (target : Target) (root physicalAddress : Nat)
    (virtualAddress : VirtualAddress) (flags : PageTableEntryFlags) (count : Nat)
    (call : MapCall) : Prop where
  root : call.root = root
  flags : call.flags = flags
  physicalAddress : call.physicalAddress = physicalAddress + count * pageSize
  pageIndex : call.virtualAddress.pageIndex target =
    (virtualAddress.advance count).pageIndex target

structure SectionCalls (target : Target) (root endAddress physicalAddress : Nat)
    (virtualAddress : VirtualAddress) (flags : PageTableEntryFlags)
    (calls : List MapCall) : Prop where
  each : ∀ call ∈ calls, ∃ count, physicalAddress + count * pageSize ≤ endAddress ∧
    call.PageOf target root physicalAddress virtualAddress flags count
  every : ∀ count, physicalAddress + count * pageSize ≤ endAddress → ∃ call ∈ calls,
    call.PageOf target root physicalAddress virtualAddress flags count

structure ItselfCalls (target : Target) (root : Nat) (Page : Nat → Prop)
    (flags : PageTableEntryFlags) (calls : List MapCall) : Prop where
  each : ∀ call ∈ calls, call.root = root ∧ call.flags = flags ∧
    Page (call.virtualAddress.pageIndex target) ∧
      call.physicalAddress = call.virtualAddress.pageIndex target * pageSize
  every : ∀ page, Page page → ∃ call ∈ calls,
    call.virtualAddress.pageIndex target = page

namespace SectionCalls

variable {target : Target} {root endAddress physicalAddress : Nat}
  {virtualAddress : VirtualAddress} {flags : PageTableEntryFlags}
  {calls : List MapCall}

theorem none (past : endAddress < physicalAddress) :
    SectionCalls target root endAddress physicalAddress virtualAddress flags [] := by
  refine ⟨List.forall_mem_nil _, fun count inside => ?_⟩
  omega

theorem cons (inside : physicalAddress ≤ endAddress)
    (rest : SectionCalls target root endAddress (physicalAddress + pageSize)
      ⟨target.uintptr (virtualAddress.value + pageSize)⟩ flags calls) :
    SectionCalls target root endAddress physicalAddress virtualAddress flags
      (⟨root, virtualAddress, physicalAddress, flags⟩ :: calls) := by
  have shifted : ∀ count, physicalAddress + pageSize + count * pageSize =
      physicalAddress + (count + 1) * pageSize := by
    intro count
    rw [Nat.succ_mul]
    omega
  have next : ∀ {call : MapCall} {count}, call.PageOf target root
      (physicalAddress + pageSize)
      ⟨target.uintptr (virtualAddress.value + pageSize)⟩ flags count →
        call.PageOf target root physicalAddress virtualAddress flags (count + 1) := by
    intro call count page
    refine ⟨page.root, page.flags, ?_, ?_⟩
    · rw [page.physicalAddress, shifted]
    · rw [page.pageIndex, VirtualAddress.pageIndex_advance_uintptr]
  constructor
  · intro call member
    rcases List.mem_cons.mp member with rfl | later
    · refine ⟨0, ?_, rfl, rfl, ?_, ?_⟩
      · rw [Nat.zero_mul]
        exact inside
      · rw [Nat.zero_mul]
        rfl
      · rw [VirtualAddress.advance_zero]
    · obtain ⟨count, below, page⟩ := rest.each call later
      exact ⟨count + 1, shifted count ▸ below, next page⟩
  · intro count below
    cases count with
    | zero =>
        refine ⟨_, List.mem_cons_self, rfl, rfl, ?_, ?_⟩
        · rw [Nat.zero_mul]
          rfl
        · rw [VirtualAddress.advance_zero]
    | succ count =>
        obtain ⟨call, member, page⟩ := rest.every count (shifted count ▸ below)
        exact ⟨call, List.mem_cons_of_mem _ member, next page⟩

theorem itself {page : Nat} (inside : endAddress < pageSize * target.virtualPages)
    (section' : SectionCalls target root endAddress (page * pageSize)
      ⟨page * pageSize⟩ flags calls) :
    ItselfCalls target root
      (fun other => page ≤ other ∧ other * pageSize ≤ endAddress) flags calls := by
  have index : ∀ count, page * pageSize + count * pageSize ≤ endAddress →
      (VirtualAddress.advance ⟨page * pageSize⟩ count).pageIndex target =
        page + count := by
    intro count below
    rw [VirtualAddress.pageIndex_advance, Nat.mul_div_cancel _ pageSize_pos]
    rw [← Nat.add_mul, Nat.mul_comm] at below
    exact Nat.mod_eq_of_lt
      (Nat.lt_of_mul_lt_mul_left (Nat.lt_of_le_of_lt below inside))
  constructor
  · intro call member
    obtain ⟨count, below, named⟩ := section'.each call member
    have number := named.pageIndex.trans (index count below)
    rw [number, named.physicalAddress, Nat.add_mul]
    exact ⟨named.root, named.flags, ⟨Nat.le_add_right _ _, below⟩, rfl⟩
  · rintro other ⟨above, below⟩
    obtain ⟨count, rfl⟩ := Nat.exists_eq_add_of_le above
    rw [Nat.add_mul] at below
    obtain ⟨call, member, named⟩ := section'.every count below
    exact ⟨call, member, named.pageIndex.trans (index count below)⟩

end SectionCalls

namespace ItselfCalls

variable {target : Target} {root : Nat} {Page : Nat → Prop}
  {flags : PageTableEntryFlags}

theorem none (nowhere : ∀ page, ¬ Page page) :
    ItselfCalls target root Page flags [] :=
  ⟨List.forall_mem_nil _, fun page here => absurd here (nowhere page)⟩

theorem congr {Other : Nat → Prop} {calls : List MapCall}
    (known : ItselfCalls target root Page flags calls)
    (same : ∀ page, Page page ↔ Other page) :
    ItselfCalls target root Other flags calls := by
  have equal : Page = Other := funext fun page => propext (same page)
  exact equal ▸ known

theorem append {Other : Nat → Prop} {calls more : List MapCall}
    (first : ItselfCalls target root Page flags calls)
    (second : ItselfCalls target root Other flags more) :
    ItselfCalls target root (fun page => Page page ∨ Other page) flags
      (calls ++ more) := by
  constructor
  · intro call member
    rcases List.mem_append.mp member with old | new
    · obtain ⟨sameRoot, sameFlags, here, physical⟩ := first.each call old
      exact ⟨sameRoot, sameFlags, .inl here, physical⟩
    · obtain ⟨sameRoot, sameFlags, here, physical⟩ := second.each call new
      exact ⟨sameRoot, sameFlags, .inr here, physical⟩
  · rintro page (here | here)
    · obtain ⟨call, member, named⟩ := first.every page here
      exact ⟨call, List.mem_append_left _ member, named⟩
    · obtain ⟨call, member, named⟩ := second.every page here
      exact ⟨call, List.mem_append_right _ member, named⟩

end ItselfCalls

namespace AccessRun

variable {layout : Layout} {memory after : Memory} {roots : List Nat}
  {calls : List MapCall} {root : Nat} {flags : PageTableEntryFlags}

theorem mapPage {physicalAddress : Nat} {virtualAddress : VirtualAddress}
    (run : AccessRun layout memory roots calls) (member : root ∈ roots)
    (inside : physicalAddress < pageSize * layout.target.virtualPages)
    (mapped : PageTable.mapAddress layout memory root virtualAddress physicalAddress
      flags = .ok after) :
    AccessRun layout after roots
      (calls ++ [⟨root, virtualAddress, physicalAddress, flags⟩]) := by
  have pages := layout.target.virtualPages_le
  have page := Nat.div_lt_of_lt_mul inside
  exact @AccessRun.map _ _ _ _ _ ⟨root, virtualAddress, physicalAddress, flags⟩ run
    member ⟨Nat.lt_of_lt_of_le inside layout.target.virtualSpan_le,
      Nat.lt_of_lt_of_le page pages⟩ mapped

theorem mapSection {endAddress fuel physicalAddress : Nat}
    {virtualAddress : VirtualAddress} (run : AccessRun layout memory roots calls)
    (member : root ∈ roots) (inside : endAddress < pageSize * layout.target.virtualPages)
    (last : endAddress + pageSize < 2 ^ layout.target.pointerBits)
    (looped : PageTable.mapSectionLoop layout root endAddress flags fuel
      physicalAddress virtualAddress memory = .ok after) :
    ∃ more, AccessRun layout after roots (calls ++ more) ∧
      SectionCalls layout.target root endAddress physicalAddress virtualAddress flags
        more := by
  induction fuel generalizing physicalAddress virtualAddress memory calls with
  | zero => contradiction
  | succ fuel induction =>
      rw [PageTable.mapSectionLoop] at looped
      by_cases below : physicalAddress ≤ endAddress
      · rw [if_pos below] at looped
        obtain ⟨middle, mapped, rest⟩ := Outcome.bind_eq_ok.mp looped
        have first := run.mapPage member (Nat.lt_of_le_of_lt below inside) mapped
        rw [Target.uintptr_of_lt (by omega)] at rest
        obtain ⟨more, finished, known⟩ := induction first rest
        refine ⟨_, ?_, known.cons below⟩
        rw [List.append_assoc] at finished
        exact finished
      · rw [if_neg below] at looped
        cases looped
        refine ⟨[], ?_, .none (Nat.lt_of_not_le below)⟩
        rw [List.append_nil]
        exact run

theorem mapItself {address : Nat} (run : AccessRun layout memory roots calls)
    (member : root ∈ roots)
    (inside : address < pageSize * layout.target.virtualPages)
    (mapped : PageTable.mapAddress layout memory root ⟨address⟩ address flags =
      .ok after) :
    ∃ more, AccessRun layout after roots (calls ++ more) ∧
      ItselfCalls layout.target root (· = address / pageSize) flags more := by
  refine ⟨_, run.mapPage member inside mapped, ?_⟩
  have index := VirtualAddress.pageIndex_of_lt layout.target inside
  have aligned := Nat.div_mul_cancel (PageTable.mapAddress_aligned mapped)
  constructor
  · intro call only
    rw [List.mem_singleton.mp only, index]
    exact ⟨rfl, rfl, rfl, aligned.symm⟩
  · rintro page rfl
    exact ⟨_, List.mem_singleton.mpr rfl, index⟩

theorem mapSectionItself {endAddress fuel address : Nat}
    (run : AccessRun layout memory roots calls) (member : root ∈ roots)
    (aligned : pageSize ∣ address)
    (inside : endAddress < pageSize * layout.target.virtualPages)
    (last : endAddress + pageSize < 2 ^ layout.target.pointerBits)
    (looped : PageTable.mapSectionLoop layout root endAddress flags fuel address
      ⟨address⟩ memory = .ok after) :
    ∃ more, AccessRun layout after roots (calls ++ more) ∧
      ItselfCalls layout.target root
        (fun page => address ≤ page * pageSize ∧ page * pageSize ≤ endAddress) flags
        more := by
  obtain ⟨page, rfl⟩ := aligned
  rw [Nat.mul_comm] at looped ⊢
  obtain ⟨more, finished, known⟩ := run.mapSection member inside last looped
  refine ⟨more, finished, (known.itself inside).congr fun other => ?_⟩
  rw [Nat.mul_le_mul_right_iff pageSize_pos]

end AccessRun

end Thos.VirtualMemory
