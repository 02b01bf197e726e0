import Thos.Scheduling.Machine
import Thos.VirtualMemory.UserTable

namespace Thos

/-! What user mode can reach when a process is switched on for the first time. -/

namespace VirtualMemory

inductive Access where
  | fetch
  | load
  | store
  deriving DecidableEq, Repr

def PageTableEntryFlags.userPermits (flags : PageTableEntryFlags) : Access → Bool
  | .fetch => flags.valid && flags.user && flags.execute
  | .load => flags.valid && flags.user && flags.read
  | .store => flags.valid && flags.user && flags.write

/-- The physical address of an access in user mode; none is a page fault. -/
def Memory.userTranslate (target : Target) (memory : Memory) (table : Nat)
    (access : Access) (address : Nat) : Option Nat :=
  (memory.leafEntry target table ⟨address⟩).bind fun entry =>
    if entry.flags.userPermits access then
      some (entry.physicalPageNum * pageSize + address % pageSize)
    else none

variable {layout : Layout} {memory after : Memory}

theorem Memory.leafEntry_of_pageIndex {target : Target} (memory : Memory)
    (table : Nat) {first second : VirtualAddress}
    (samePage : first.pageIndex target = second.pageIndex target) :
    memory.leafEntry target table first = memory.leafEntry target table second := by
  obtain ⟨sameInner, sameSlot⟩ :=
    (VirtualAddress.pageIndex_eq_iff target first second).mp samePage
  rw [leafEntry, leafEntry, sameInner, sameSlot]

@[simp] theorem userFlags_userPermits (target : Target) (physicalAddress : Nat)
    (access : Access) :
    (PageTableEntry.mapped target physicalAddress userFlags).flags.userPermits
      access = true := by
  cases access <;> rfl

namespace UserTable

variable {region : Section} {table : Nat}

theorem bounds (built : UserTable layout memory region table after) :
    memory.nextPage ≤ table ∧ table < 2 ^ layout.target.pointerBits := by
  obtain ⟨fresh, _, _, allocated, _⟩ := built.steps
  have last := allocated.last
  have pool := layout.pages_end_lt
  have span := layout.target.virtualSpan_le
  have positive := pageSize_pos
  exact ⟨allocated.next, by omega⟩

theorem userTranslate_program (built : UserTable layout memory region table after)
    (program : Program layout region) (access : Access) {offset : Nat}
    (inside : region.startAddress + offset ≤ region.endAddress) :
    (after.userTranslate layout.target table access
      (userProgramBase + offset)).isSome := by
  have page : region.startAddress + offset / pageSize * pageSize ≤
      region.endAddress := by
    have := Nat.div_mul_le_self offset pageSize
    omega
  have leaf := built.program_leaf program page
  have samePage : VirtualAddress.pageIndex layout.target
      ⟨userProgramBase + offset⟩ = VirtualAddress.pageIndex layout.target
        (VirtualAddress.advance ⟨userProgramBase⟩ (offset / pageSize)) := by
    have base : (userProgramBase + offset) / pageSize =
        userProgramBase / pageSize + offset / pageSize := by
      simp only [userProgramBase, pageSize]
      omega
    rw [VirtualAddress.pageIndex_advance, VirtualAddress.pageIndex, base]
  rw [Memory.userTranslate, after.leafEntry_of_pageIndex table samePage, leaf]
  simp

theorem userSpecial_leaf (built : UserTable layout memory region table after)
    {address : Nat} (inside : layout.userSpecial.Contains address) :
    ∃ page, after.leafEntry layout.target table ⟨address⟩ =
      some (.mapped layout.target page
        { read := true, write := true, execute := true }) ∧
      page = address / pageSize * pageSize := by
  obtain ⟨_, _, _, _, _, _, place, _, mapped⟩ := built.steps
  have start : pageSize ∣ layout.userSpecial.startAddress :=
    dvd_alignUp_pageSize _
  obtain ⟨low, high⟩ := inside
  have count : layout.userSpecial.startAddress +
      (address - layout.userSpecial.startAddress) / pageSize * pageSize =
        address / pageSize * pageSize := by
    simp only [pageSize] at *
    omega
  refine ⟨_, mapped.here _ ?_ ⟨address⟩ ?_, count⟩
  · rw [count]
    have := Nat.div_mul_le_self address pageSize
    omega
  · rw [VirtualAddress.pageIndex_advance, VirtualAddress.pageIndex]
    congr 1
    simp only [pageSize] at *
    omega

theorem userTranslate_userSpecial
    (built : UserTable layout memory region table after) (access : Access)
    {address : Nat} (inside : layout.userSpecial.Contains address) :
    after.userTranslate layout.target table access address = none := by
  obtain ⟨page, leaf, _⟩ := built.userSpecial_leaf inside
  rw [Memory.userTranslate, leaf]
  cases access <;> rfl

end UserTable

end VirtualMemory

namespace Scheduling

open VirtualMemory (Layout Memory Section Program UserTable)

def ProcessArguments.ofProgram (target : Target) (region : Section)
    (kernelEntryAddress : Word target) (table : Nat) : ProcessArguments target where
  isUserProgram := true
  userProgramSize := BitVec.ofNat _ region.size
  kernelEntryAddress := kernelEntryAddress
  page := BitVec.ofNat _ table

def Process.created (image : Image) (slot : Nat)
    (arguments : ProcessArguments image.target) : Process image.target :=
  { (Process.zero.identify image slot).fill image arguments with state := .ready }

/-- The kernel's part of the address space: its special section holds
`ProcessExit_user`, and its table is a page that was given out before. -/
structure Linked (image : Image) (layout : Layout) (memory : Memory) : Prop where
  target : layout.target = image.target
  exit : layout.userSpecial.Contains image.processExitUser.toNat
  kernelTable : image.kernelPageTable.toNat < memory.nextPage

/-- A pc and a process that can run from there to the system call of its exit:
what it fetches first, what it pushes first, and where it returns to. -/
structure RunsToExit (image : Image) (memory : Memory)
    (start : Word image.target × Process image.target) : Prop where
  kind : start.2.isKernel image = false
  entry : (memory.userTranslate image.target start.2.pageTable.toNat .fetch
    start.1.toNat).isSome
  stack : ∀ offset, 0 < offset → offset ≤ image.target.sizeofUintptr →
    (memory.userTranslate image.target start.2.pageTable.toNat .load
      ((start.2.frame.registers .sp).toNat - offset)).isSome ∧
    (memory.userTranslate image.target start.2.pageTable.toNat .store
      ((start.2.frame.registers .sp).toNat - offset)).isSome
  exit : memory.userTranslate image.target start.2.pageTable.toNat .fetch
    (start.2.frame.registers .ra).toNat = some image.processExitUser.toNat

variable {image : Image} {layout : Layout} {memory after : Memory}
  {region : Section} {fuel table : Nat}

namespace Linked

theorem page_toNat (linked : Linked image layout memory)
    (built : UserTable layout memory region table after) :
    (BitVec.ofNat image.target.pointerBits table).toNat = table := by
  have bound := built.bounds.2
  rw [linked.target] at bound
  exact Nat.mod_eq_of_lt bound

theorem sp_toNat (linked : Linked image layout memory)
    (program : Program layout region) :
    (userProgramBase image.target + BitVec.ofNat image.target.pointerBits
      region.size).toNat = VirtualMemory.userProgramBase + region.size := by
  have low := layout.order
  have start := program.start
  have order := program.order
  have last := program.end_add_pageSize_le
  have fits := layout.fits
  have span := layout.target.virtualSpan_le
  have base : VirtualMemory.userProgramBase ≤ VirtualMemory.Image.memoryStart := by
    decide
  have bound : VirtualMemory.userProgramBase + region.size <
      2 ^ image.target.pointerBits := by
    rw [← linked.target]
    simp only [Section.size, Layout.memory] at *
    omega
  rw [userProgramBase, ← BitVec.ofNat_add]
  exact Nat.mod_eq_of_lt bound

variable (slot : Nat) (kernelEntryAddress : Word image.target)

theorem isKernel_created (linked : Linked image layout memory)
    (built : UserTable layout memory region table after) :
    (Process.created image slot (.ofProgram image.target region
      kernelEntryAddress table)).isKernel image = false := by
  have newer := built.bounds.1
  have kernelTable := linked.kernelTable
  rw [Process.isKernel, beq_eq_false_iff_ne]
  intro same
  have value : table = image.kernelPageTable.toNat := by
    rw [← same]
    exact (linked.page_toNat built).symm
  omega

theorem return_ra (linked : Linked image layout memory)
    (built : UserTable layout memory region table after) :
    ((Process.created image slot (.ofProgram image.target region
      kernelEntryAddress table)).return image true).2.frame.registers .ra =
        image.processExitUser := by
  simp only [Process.return, if_true, TrapFrame.set, Function.update_self]
  rw [if_neg]
  rw [linked.isKernel_created slot kernelEntryAddress built]
  exact Bool.false_ne_true

theorem enters (linked : Linked image layout memory)
    (built : UserTable layout memory region table after)
    (program : Program layout region)
    (nonempty : region.startAddress < region.endAddress) :
    let start := (Process.created image slot (.ofProgram image.target region
      kernelEntryAddress table)).return image true
    start.1 = userProgramBase _ ∧
      (after.userTranslate image.target start.2.pageTable.toNat .fetch
        start.1.toNat).isSome ∧
      ∀ (access : VirtualMemory.Access) (offset : Nat), 0 < offset →
        offset ≤ image.target.sizeofUintptr →
        (after.userTranslate image.target start.2.pageTable.toNat access
          ((start.2.frame.registers .sp).toNat - offset)).isSome := by
  intro start
  have page : start.2.pageTable.toNat = table := linked.page_toNat built
  have top : (start.2.frame.registers .sp).toNat =
      VirtualMemory.userProgramBase + region.size := linked.sp_toNat program
  have base : start.1.toNat = VirtualMemory.userProgramBase + 0 := by
    change (userProgramBase image.target).toNat = _
    cases image.target <;> rfl
  have inside : region.startAddress + region.size = region.endAddress := by
    simp only [Section.size]
    omega
  have size : VirtualMemory.pageSize ≤ region.size := by
    have startAligned := program.startAligned
    have endAligned := program.endAligned
    simp only [VirtualMemory.pageSize] at *
    omega
  have word : image.target.sizeofUintptr ≤ VirtualMemory.pageSize := by
    cases image.target <;> decide
  refine ⟨rfl, ?_, ?_⟩
  · have fetched := built.userTranslate_program program .fetch
      (show region.startAddress + 0 ≤ region.endAddress from program.order)
    rw [linked.target] at fetched
    rw [page, base]
    exact fetched
  · intro access offset positive small
    have reached := built.userTranslate_program program access
      (show region.startAddress + (region.size - offset) ≤ region.endAddress by
        omega)
    rw [linked.target] at reached
    rw [page, top, Nat.add_sub_assoc (by omega)]
    exact reached

theorem not_runsToExit (linked : Linked image layout memory)
    (built : UserTable layout memory region table after) :
    ¬ RunsToExit image after ((Process.created image slot
      (.ofProgram image.target region kernelEntryAddress table)).return image
        true) := by
  intro runs
  have exit := runs.exit
  have fault := built.userTranslate_userSpecial .fetch linked.exit
  have page : ((Process.created image slot (.ofProgram image.target region
      kernelEntryAddress table)).return image true).2.pageTable.toNat = table :=
    linked.page_toNat built
  rw [linked.target] at fault
  rw [linked.return_ra slot kernelEntryAddress built, page, fault] at exit
  contradiction

end Linked

/-- Whatever the program and its table, the return address of its first switch
is not executable in user mode. -/
theorem user_process_never_runs_to_exit (linked : Linked image layout memory)
    (pooled : memory.Pooled layout) (program : Program layout region)
    (built : VirtualMemory.PageTable.userInit layout fuel memory region
      ⟨VirtualMemory.userProgramBase⟩ = .ok (table, after))
    (slot : Nat) (kernelEntryAddress : Word image.target) :
    ¬ RunsToExit image after ((Process.created image slot
      (.ofProgram image.target region kernelEntryAddress table)).return image
        true) :=
  linked.not_runsToExit slot kernelEntryAddress
    (VirtualMemory.PageTable.userInit_table pooled program built)

def linkedImage : Image where
  target := Layout.small.target
  processesMaximum := 32
  processesMaximum_pos := by decide
  processesMaximum_le := by decide
  bufferLen := 256
  bufferLen_pos := by decide
  kernelPageTable := BitVec.ofNat _ Layout.small.pages.startAddress
  processExitKernel := BitVec.ofNat _ Layout.small.memory.startAddress
  processExitUser := BitVec.ofNat _ Layout.small.userSpecial.startAddress

theorem linkedImage_linked : Linked linkedImage Layout.small Memory.booted where
  target := rfl
  exit := ⟨by decide, by decide⟩
  kernelTable := by decide

theorem user_process_never_runs_to_exit_small : ∃ table after,
    ¬ RunsToExit linkedImage after ((Process.created linkedImage 0
      (.ofProgram linkedImage.target Layout.small.userPrograms 0 table)).return
        linkedImage true) := by
  obtain ⟨table, after, built⟩ := VirtualMemory.small_userInit
  exact ⟨table, after, user_process_never_runs_to_exit linkedImage_linked
    VirtualMemory.Memory.booted_pooled VirtualMemory.small_program built 0 0⟩

/-- A program of two pages is entered and has its stack, and faults when it
returns. -/
theorem returning_program_faults : ∃ table after,
    VirtualMemory.PageTable.userInit Layout.small 4 VirtualMemory.Memory.booted
      Layout.small.userPrograms ⟨VirtualMemory.userProgramBase⟩ =
        .ok (table, after) ∧
    let start := (Process.created linkedImage 0 (.ofProgram linkedImage.target
      Layout.small.userPrograms 0 table)).return linkedImage true
    (after.userTranslate linkedImage.target start.2.pageTable.toNat .fetch
      start.1.toNat).isSome ∧
    start.2.frame.registers .ra = linkedImage.processExitUser ∧
    after.userTranslate linkedImage.target start.2.pageTable.toNat .fetch
      linkedImage.processExitUser.toNat = none ∧
    ¬ RunsToExit linkedImage after start := by
  obtain ⟨table, after, built⟩ := VirtualMemory.small_userInit
  have userTable := VirtualMemory.PageTable.userInit_table
    VirtualMemory.Memory.booted_pooled VirtualMemory.small_program built
  have linked := linkedImage_linked
  have page := linked.page_toNat userTable
  refine ⟨table, after, built, (linked.enters 0 0 userTable
    VirtualMemory.small_program (by decide)).2.1,
    linked.return_ra 0 0 userTable, ?_, linked.not_runsToExit 0 0 userTable⟩
  change after.userTranslate Layout.small.target (BitVec.ofNat _ table).toNat _ _ =
    none
  rw [page]
  exact userTable.userTranslate_userSpecial .fetch linked.exit

end Scheduling

end Thos
