import Mathlib.Data.Nat.ModEq
import Thos.VirtualMemory.Mapping

namespace Thos.VirtualMemory

open Thos.Kernel
open Data.RadixForest

/-! `map_section` maps every page from the start of a section to its end, the
end included. -/

variable {layout : Layout} {memory after : Memory} {place : Tables layout.target}

namespace VirtualAddress

def advance (address : VirtualAddress) (count : Nat) : VirtualAddress :=
  ⟨address.value + count * pageSize⟩

@[simp] theorem advance_zero (address : VirtualAddress) :
    address.advance 0 = address := by
  simp [advance]

theorem pageIndex_advance (target : Target) (address : VirtualAddress)
    (count : Nat) :
    (address.advance count).pageIndex target =
      (address.value / pageSize + count) % target.virtualPages := by
  rw [pageIndex, advance, Nat.add_mul_div_right _ _ pageSize_pos]

theorem pageIndex_uintptr (target : Target) (value : Nat) :
    pageIndex target ⟨target.uintptr value⟩ = pageIndex target ⟨value⟩ := by
  cases target with
  | riscv64 =>
      simp only [pageIndex, Target.uintptr, Target.virtualPages, Target.entries,
        Target.levelEntryNumberBitwidth, Target.virtualMemoryTopLevel,
        Target.pointerBits, pageSize]
      omega
  | riscv32 =>
      simp only [pageIndex, Target.uintptr, Target.virtualPages, Target.entries,
        Target.levelEntryNumberBitwidth, Target.virtualMemoryTopLevel,
        Target.pointerBits, pageSize]
      omega

theorem pageIndex_advance_uintptr (target : Target) (address : VirtualAddress)
    (count : Nat) :
    (advance ⟨target.uintptr (address.value + pageSize)⟩ count).pageIndex target =
      (address.advance (count + 1)).pageIndex target := by
  have first := pageIndex_uintptr target (address.value + pageSize)
  simp only [pageIndex, Nat.add_div_right _ pageSize_pos] at first
  simp only [pageIndex_advance]
  rw [Nat.add_mod, first, ← Nat.add_mod]
  congr 1
  omega

theorem pageIndex_advance_inj (target : Target) (address : VirtualAddress)
    {first second : Nat} (firstBound : first < target.virtualPages)
    (secondBound : second < target.virtualPages)
    (equal : (address.advance first).pageIndex target =
      (address.advance second).pageIndex target) : first = second := by
  simp only [pageIndex_advance] at equal
  have reduced : Nat.ModEq target.virtualPages first second :=
    Nat.ModEq.add_left_cancel' _ equal
  exact reduced.eq_of_lt_of_lt firstBound secondBound

end VirtualAddress

/-- `after` maps the pages from `physicalAddress` to `endAddress` and is
`memory` elsewhere. -/
structure SectionMapped (layout : Layout) (memory after : Memory)
    (place : Tables layout.target) (root endAddress : Nat)
    (flags : PageTableEntryFlags) (physicalAddress : Nat)
    (virtualAddress : VirtualAddress) : Prop where
  shape : ∃ place', WellFormed layout after place' ∧
    ∀ table location, place table = some location →
      place' table = some location
  here : ∀ count, physicalAddress + count * pageSize ≤ endAddress →
    ∀ address : VirtualAddress, address.pageIndex layout.target =
        (virtualAddress.advance count).pageIndex layout.target →
      after.leafEntry layout.target root address = some
        (.mapped layout.target (physicalAddress + count * pageSize) flags)
  elsewhere : ∀ otherRoot (address : VirtualAddress), place.Rooted otherRoot →
    (otherRoot = root → ∀ count,
      physicalAddress + count * pageSize ≤ endAddress →
        address.pageIndex layout.target ≠
          (virtualAddress.advance count).pageIndex layout.target) →
    after.leafEntry layout.target otherRoot address =
      memory.leafEntry layout.target otherRoot address

namespace PageTable

/-- The section has fewer pages than the virtual address space and its end is
below the last page of the physical one, so that neither address wraps. -/
structure SectionFits (target : Target) (physicalAddress endAddress : Nat) :
    Prop where
  pages : ∀ count, physicalAddress + count * pageSize ≤ endAddress →
    count < target.virtualPages
  last : endAddress + pageSize < 2 ^ target.pointerBits

theorem SectionFits.next {target : Target} {physicalAddress endAddress : Nat}
    (fits : SectionFits target physicalAddress endAddress) :
    SectionFits target (physicalAddress + pageSize) endAddress where
  pages := by
    intro count bound
    apply fits.pages count
    omega
  last := fits.last

theorem mapSectionLoop_spec {endAddress fuel root : Nat}
    {flags : PageTableEntryFlags} {physicalAddress : Nat}
    {virtualAddress : VirtualAddress} (wellFormed : WellFormed layout memory place)
    (rooted : place.Rooted root)
    (fits : SectionFits layout.target physicalAddress endAddress)
    (looped : mapSectionLoop layout root endAddress flags fuel physicalAddress
      virtualAddress memory = .ok after) :
    SectionMapped layout memory after place root endAddress flags
      physicalAddress virtualAddress := by
  induction fuel generalizing memory place physicalAddress virtualAddress with
  | zero => contradiction
  | succ fuel induction =>
      rw [mapSectionLoop] at looped
      split at looped
      case isFalse done =>
        cases looped
        refine ⟨⟨place, wellFormed, fun _ _ here => here⟩, ?_, fun _ _ _ _ => rfl⟩
        intro count bound
        omega
      case isTrue inside =>
        obtain ⟨middle, mapped, looped⟩ := Outcome.bind_eq_ok.mp looped
        obtain ⟨place', middleWellFormed, grown, leaves⟩ :=
          mapAddress_spec wellFormed rooted mapped
        have last := fits.last
        rw [Target.uintptr_of_lt (by omega)] at looped
        have rest := induction middleWellFormed (grown root _ rooted) fits.next
          looped
        have shifted : ∀ count,
            physicalAddress + pageSize + count * pageSize =
              physicalAddress + (count + 1) * pageSize := by
          intro count
          rw [Nat.succ_mul]
          omega
        refine ⟨?_, ?_, ?_⟩
        · obtain ⟨place'', wellFormed'', grown'⟩ := rest.shape
          exact ⟨place'', wellFormed'', fun table location here =>
            grown' table location (grown table location here)⟩
        · intro count bound address samePage
          cases count with
          | zero =>
              rw [rest.elsewhere root address (grown root _ rooted) ?_,
                leaves root address rooted, if_pos ⟨rfl, by simpa using samePage⟩]
              · simp
              · intro _ later laterBound equal
                rw [shifted] at laterBound
                rw [VirtualAddress.pageIndex_advance_uintptr, samePage] at equal
                have positive := fits.pages 0 bound
                have := VirtualAddress.pageIndex_advance_inj layout.target _
                  positive (fits.pages _ laterBound) equal
                omega
          | succ count =>
              rw [← shifted] at bound ⊢
              apply rest.here count bound address
              rw [VirtualAddress.pageIndex_advance_uintptr, samePage]
        · intro otherRoot address otherRooted different
          rw [rest.elsewhere otherRoot address (grown otherRoot _ otherRooted) ?_,
            leaves otherRoot address otherRooted, if_neg]
          · rintro ⟨sameRoot, samePage⟩
            exact different sameRoot 0 (by simpa using inside)
              (by simpa using samePage)
          · intro sameRoot count bound equal
            rw [shifted] at bound
            rw [VirtualAddress.pageIndex_advance_uintptr] at equal
            exact different sameRoot (count + 1) bound equal

end PageTable

theorem Layout.sectionFits (layout : Layout) {first last : Nat}
    (bound : last + pageSize ≤ layout.memory.endAddress) :
    PageTable.SectionFits layout.target first last where
  pages := by
    intro count inside
    have fits := layout.fits
    simp only [Layout.memory] at bound
    have scaled : pageSize * count < pageSize * layout.target.virtualPages := by
      rw [Nat.mul_comm pageSize count]
      omega
    exact Nat.lt_of_mul_lt_mul_left scaled
  last := by
    have fits := layout.fits
    have span := layout.target.virtualSpan_le
    simp only [Layout.memory] at bound
    omega

theorem PageTable.mapSection_spec {fuel root : Nat} {region : Section}
    {virtualAddress : VirtualAddress} {flags : PageTableEntryFlags}
    (wellFormed : WellFormed layout memory place) (rooted : place.Rooted root)
    (inside : region.endAddress + pageSize ≤ layout.memory.endAddress)
    (mapped : mapSection layout fuel memory root region virtualAddress flags =
      .ok after) :
    SectionMapped layout memory after place root region.endAddress flags
      region.startAddress virtualAddress :=
  mapSectionLoop_spec wellFormed rooted (layout.sectionFits inside) mapped

end Thos.VirtualMemory
