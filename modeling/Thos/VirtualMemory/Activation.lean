import Thos.VirtualMemory.MapCalls
import Thos.VirtualMemory.TrapPath

namespace Thos.VirtualMemory

open Data.RadixForest
open Thos.Kernel

/-! What the hart translates once the kernel's table is activated. -/

variable {layout : Layout} {memory after : Memory} {roots : List Nat}
  {calls : List MapCall}

namespace AccessRun

theorem mapDevice {root device : Nat} (run : AccessRun layout memory roots calls)
    (member : root ∈ roots) (inside : device < pageSize * layout.target.virtualPages)
    (mapped : PageTable.mapDevice layout memory root device = .ok after) :
    ∃ more, AccessRun layout after roots (calls ++ more) ∧
      ItselfCalls layout.target root
        (fun page => device ≠ 0 ∧ page = device / pageSize)
        { read := true, write := true } more := by
  rw [PageTable.mapDevice] at mapped
  by_cases absent : device = 0
  · rw [if_pos absent] at mapped
    cases mapped
    refine ⟨[], ?_, .none fun page here => here.1 absent⟩
    rw [List.append_nil]
    exact run
  · rw [if_neg absent] at mapped
    obtain ⟨more, finished, known⟩ := run.mapItself member inside mapped
    exact ⟨more, finished, known.congr fun page => (and_iff_right absent).symm⟩

theorem mapPlic {root plic fuel : Nat} (run : AccessRun layout memory roots calls)
    (member : root ∈ roots)
    (span : plic + sifivePlicLen ≤ pageSize * layout.target.virtualPages)
    (wrap : plic + sifivePlicLen < 2 ^ layout.target.pointerBits)
    (mapped : PageTable.mapPlic layout fuel memory root plic = .ok after) :
    ∃ more, AccessRun layout after roots (calls ++ more) ∧
      ItselfCalls layout.target root (PageTable.PlicPage plic)
        { read := true, write := true } more := by
  by_cases absent : plic = 0
  · rw [PageTable.mapPlic, if_pos absent] at mapped
    cases mapped
    refine ⟨[], ?_, .none fun page here => here.1 absent⟩
    rw [List.append_nil]
    exact run
  · have aligned := PageTable.mapPlic_aligned absent wrap mapped
    have length : 0 < sifivePlicLen := by decide
    have whole : pageSize ∣ 2 ^ layout.target.pointerBits := by
      cases layout.target <;> decide
    have last : plic + sifivePlicLen - 1 + pageSize <
        2 ^ layout.target.pointerBits := by
      simp only [sifivePlicLen, pageSize] at *
      omega
    rw [PageTable.mapPlic, if_neg absent, Target.uintptr_of_lt wrap,
      PageTable.mapPlicLoop_eq (by omega)] at mapped
    obtain ⟨more, finished, known⟩ :=
      run.mapSectionItself member aligned (by omega) last mapped
    exact ⟨more, finished, known.congr fun page => (and_iff_right absent).symm⟩

end AccessRun

def Board.DevicePage (board : Board) (page : Nat) : Prop :=
  (board.sifiveTest ≠ 0 ∧ page = board.sifiveTest / pageSize) ∨
    PageTable.PlicPage board.sifivePlic page ∨
    (board.sifiveUart1 ≠ 0 ∧ page = board.sifiveUart1 / pageSize)

theorem Board.DevicePage.covers {board : Board} {page : Nat}
    (device : board.DevicePage page) : board.Covers (page * pageSize) := by
  have length : 0 < sifivePlicLen := by decide
  rcases device with ⟨present, rfl⟩ | ⟨present, first, last⟩ | ⟨present, rfl⟩
  · exact .inl ⟨present, Nat.mul_div_cancel _ pageSize_pos⟩
  · exact .inr (.inl ⟨present, first, by omega⟩)
  · exact .inr (.inr ⟨present, Nat.mul_div_cancel _ pageSize_pos⟩)

structure KernelCalls (layout : Layout) (board : Board) (kernel : Nat)
    (memory devices : List MapCall) : Prop where
  memory : ItselfCalls layout.target kernel
    (fun page => Image.memoryStart ≤ page * pageSize ∧
      page * pageSize ≤ layout.memory.endAddress) kernelFlags memory
  devices : ItselfCalls layout.target kernel board.DevicePage
    { read := true, write := true } devices
  aligned : board.sifivePlic ≠ 0 → pageSize ∣ board.sifivePlic

theorem PageTable.kernelInit_calls {board : Board} {fuel kernel : Nat}
    (unused : memory.nextPage = 0) (fits : board.Fits layout.target)
    (built : kernelInit layout board fuel 0 memory = .ok (kernel, after)) :
    ∃ first second, AccessRun layout after [kernel] (first ++ second) ∧
      KernelCalls layout board kernel first second := by
  rw [kernelInit, if_neg (by simp)] at built
  obtain ⟨⟨page, fresh⟩, allocated, built⟩ := Outcome.bind_eq_ok.mp built
  obtain ⟨mapped, mapsMemory, built⟩ := Outcome.bind_eq_ok.mp built
  obtain ⟨tested, mapsTest, built⟩ := Outcome.bind_eq_ok.mp built
  obtain ⟨interrupts, mapsPlic, built⟩ := Outcome.bind_eq_ok.mp built
  obtain ⟨final, mapsUart, built⟩ := Outcome.bind_eq_ok.mp built
  cases built
  have start : layout.memory.startAddress < 2 ^ layout.target.pointerBits := by
    change Image.memoryStart < _
    cases layout.target <;> decide
  have last := mapSectionLoop_last Layout.memory_start_dvd start mapsMemory
  have member : kernel ∈ [kernel] := List.mem_singleton.mpr rfl
  have root := (AccessRun.start unused).alloc allocated
  obtain ⟨memoryCalls, ofMemory, ofSection⟩ :=
    root.mapSectionItself member Layout.memory_start_dvd layout.fits last mapsMemory
  obtain ⟨test, ofTest, testPage⟩ := ofMemory.mapDevice member fits.sifiveTest mapsTest
  obtain ⟨plic, ofPlic, plicPages⟩ :=
    ofTest.mapPlic member fits.sifivePlic fits.wrap mapsPlic
  obtain ⟨uart, ofUart, uartPage⟩ :=
    ofPlic.mapDevice member fits.sifiveUart1 mapsUart
  refine ⟨memoryCalls, test ++ (plic ++ uart), ?_, ofSection,
    testPage.append (plicPages.append uartPage),
    fun present => mapPlic_aligned present fits.wrap mapsPlic⟩
  rw [List.append_assoc, List.append_assoc] at ofUart
  exact ofUart

namespace KernelCalls

variable {board : Board} {kernel : Nat} {first second : List MapCall}

theorem page (known : KernelCalls layout board kernel first second) {index : Nat}
    {entry : Nat × PageTableEntryFlags}
    (here : PageMap.ofCalls layout.target (first ++ second) (kernel, index) =
      some entry) :
    entry.1 = index * pageSize ∧ (entry.2 = kernelFlags ∨
      (entry.2 = { read := true, write := true } ∧ board.DevicePage index)) := by
  rcases PageMap.ofCalls_cases layout.target (first ++ second) kernel index with
    ⟨unmapped, _⟩ | ⟨call, member, _, rfl, mapped⟩
  · rw [unmapped] at here
    contradiction
  · rw [mapped] at here
    cases here
    rcases List.mem_append.mp member with ofMemory | ofDevices
    · obtain ⟨_, flags, _, itself⟩ := known.memory.each call ofMemory
      exact ⟨itself, .inl flags⟩
    · obtain ⟨_, flags, device, itself⟩ := known.devices.each call ofDevices
      exact ⟨itself, .inr ⟨flags, device⟩⟩

theorem exists_page (known : KernelCalls layout board kernel first second)
    {page : Nat} (named : (Image.memoryStart ≤ page * pageSize ∧
      page * pageSize ≤ layout.memory.endAddress) ∨ board.DevicePage page) :
    ∃ flags, PageMap.ofCalls layout.target (first ++ second) (kernel, page) =
      some (page * pageSize, flags) := by
  have called : ∃ call ∈ first ++ second, call.root = kernel ∧
      call.virtualAddress.pageIndex layout.target = page := by
    rcases named with inMemory | device
    · obtain ⟨call, member, index⟩ := known.memory.every page inMemory
      exact ⟨call, List.mem_append_left _ member,
        (known.memory.each call member).1, index⟩
    · obtain ⟨call, member, index⟩ := known.devices.every page device
      exact ⟨call, List.mem_append_right _ member,
        (known.devices.each call member).1, index⟩
  obtain ⟨call, member, root, index⟩ := called
  rcases PageMap.ofCalls_cases layout.target (first ++ second) kernel page with
    ⟨_, never⟩ | ⟨other, _, _, _, mapped⟩
  · exact absurd index (never call member root)
  · refine ⟨other.flags, ?_⟩
    rw [mapped]
    exact congrArg some (Prod.ext (known.page mapped).1 rfl)

theorem devicePage (known : KernelCalls layout board kernel first second)
    {address : Nat} (covered : board.Covers address) :
    board.DevicePage (address / pageSize) := by
  rcases covered with ⟨present, same⟩ | ⟨present, above, below⟩ | ⟨present, same⟩
  · exact .inl ⟨present, same⟩
  · have aligned := known.aligned present
    refine .inr (.inl ⟨present, ?_, ?_⟩)
    · simp only [pageSize] at *
      omega
    · simp only [sifivePlicLen, pageSize] at *
      omega
  · exact .inr (.inr ⟨present, same⟩)

end KernelCalls

end Thos.VirtualMemory
