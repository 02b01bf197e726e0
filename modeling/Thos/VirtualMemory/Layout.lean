import Thos.Common.BuildInfo
import Thos.Kernel.Outcome

namespace Thos

namespace Target

def physicalPageNumberBitwidth : Target → Nat
  | riscv64 => 44
  | riscv32 => 22

def levelEntryNumberBitwidth : Target → Nat
  | riscv64 => 9
  | riscv32 => 10

def virtualMemoryTopLevel : Target → Nat
  | riscv64 => 2
  | riscv32 => 1

def entries (target : Target) : Nat := 2 ^ target.levelEntryNumberBitwidth

/-- Number of virtual pages that have page-index bits of their own. -/
def virtualPages (target : Target) : Nat :=
  target.entries ^ (target.virtualMemoryTopLevel + 1)

end Target

namespace VirtualMemory

def pageSize : Nat := 4096

theorem pageSize_pos : 0 < pageSize := by decide

structure Section where
  startAddress : Nat
  endAddress : Nat
  deriving DecidableEq, Repr

namespace Section

def size (region : Section) : Nat := region.endAddress - region.startAddress

def Contains (region : Section) (address : Nat) : Prop :=
  region.startAddress ≤ address ∧ address < region.endAddress

end Section

def alignUp (value align : Nat) : Nat :=
  if value % align = 0 then value else value + align - value % align

/-- Sizes of what the linker places, in the order of `kernel.lds`. -/
structure Image where
  text : Nat
  rodata : Nat
  data : Nat
  bss : Nat
  globalSpecial : Nat
  userSpecial : Nat
  userPrograms : Nat
  deriving DecidableEq, Repr

namespace Image

/-! The location counter of `kernel.lds`. -/

def memoryStart : Nat := 0x80200000

def textEnd (image : Image) : Nat := memoryStart + image.text

def rodataEnd (image : Image) : Nat := alignUp image.textEnd 16 + image.rodata

def dataEnd (image : Image) : Nat := alignUp image.rodataEnd 16 + image.data

def bssEnd (image : Image) : Nat := alignUp image.dataEnd 16 + image.bss

def globalSpecialStart (image : Image) : Nat := alignUp image.bssEnd pageSize

def globalSpecialEnd (image : Image) : Nat :=
  alignUp (image.globalSpecialStart + image.globalSpecial) pageSize

def userSpecialStart (image : Image) : Nat :=
  alignUp image.globalSpecialEnd pageSize

def userSpecialEnd (image : Image) : Nat :=
  alignUp (image.userSpecialStart + image.userSpecial) pageSize

def userProgramsStart (image : Image) : Nat :=
  alignUp image.userSpecialEnd pageSize

def userProgramsEnd (image : Image) : Nat :=
  alignUp (image.userProgramsStart + image.userPrograms) pageSize

def pagesStart (image : Image) : Nat := alignUp image.userProgramsEnd pageSize

def pagesEnd (image : Image) : Nat := image.pagesStart + 256 * 4096

def memoryEnd (image : Image) : Nat := image.pagesEnd

end Image

/-- A linked kernel.  Its memory ends below the last virtual page, so that it
can be mapped transparently. -/
structure Layout where
  target : Target
  image : Image
  fits : image.memoryEnd < pageSize * target.virtualPages

namespace Layout

def memory (layout : Layout) : Section :=
  ⟨Image.memoryStart, layout.image.memoryEnd⟩

def globalSpecial (layout : Layout) : Section :=
  ⟨layout.image.globalSpecialStart, layout.image.globalSpecialEnd⟩

def userSpecial (layout : Layout) : Section :=
  ⟨layout.image.userSpecialStart, layout.image.userSpecialEnd⟩

def userPrograms (layout : Layout) : Section :=
  ⟨layout.image.userProgramsStart, layout.image.userProgramsEnd⟩

def pages (layout : Layout) : Section :=
  ⟨layout.image.pagesStart, layout.image.pagesEnd⟩

end Layout

theorem alignUp_ge (value : Nat) {align : Nat} (positive : 0 < align) :
    value ≤ alignUp value align := by
  have bound := Nat.mod_lt value positive
  unfold alignUp
  split <;> omega

theorem dvd_alignUp_pageSize (value : Nat) : pageSize ∣ alignUp value pageSize := by
  unfold alignUp
  split
  · exact Nat.dvd_of_mod_eq_zero ‹_›
  · simp only [pageSize] at *
    omega

theorem alignUp_of_dvd {value : Nat} (aligned : pageSize ∣ value) :
    alignUp value pageSize = value := by
  simp [alignUp, Nat.mod_eq_zero_of_dvd aligned]

namespace Layout

variable (layout : Layout)

theorem pages_start_dvd : pageSize ∣ layout.pages.startAddress :=
  dvd_alignUp_pageSize _

theorem pages_start_eq : layout.pages.startAddress = layout.userPrograms.endAddress :=
  alignUp_of_dvd (dvd_alignUp_pageSize _)

theorem pages_end_eq : layout.pages.endAddress =
    layout.pages.startAddress + 256 * pageSize := rfl

theorem order :
    Image.memoryStart ≤ layout.globalSpecial.startAddress ∧
      layout.globalSpecial.startAddress ≤ layout.globalSpecial.endAddress ∧
      layout.globalSpecial.endAddress ≤ layout.userSpecial.startAddress ∧
      layout.userSpecial.startAddress ≤ layout.userSpecial.endAddress ∧
      layout.userSpecial.endAddress ≤ layout.userPrograms.startAddress ∧
      layout.userPrograms.startAddress ≤ layout.userPrograms.endAddress := by
  have text := Nat.le_add_right Image.memoryStart layout.image.text
  have rodata := alignUp_ge layout.image.textEnd (show 0 < 16 by decide)
  have data := alignUp_ge layout.image.rodataEnd (show 0 < 16 by decide)
  have bss := alignUp_ge layout.image.dataEnd (show 0 < 16 by decide)
  have special := alignUp_ge layout.image.bssEnd pageSize_pos
  have specialEnd := alignUp_ge
    (layout.image.globalSpecialStart + layout.image.globalSpecial) pageSize_pos
  have user := alignUp_ge layout.image.globalSpecialEnd pageSize_pos
  have userEnd := alignUp_ge
    (layout.image.userSpecialStart + layout.image.userSpecial) pageSize_pos
  have programs := alignUp_ge layout.image.userSpecialEnd pageSize_pos
  have programsEnd := alignUp_ge
    (layout.image.userProgramsStart + layout.image.userPrograms) pageSize_pos
  simp only [globalSpecial, userSpecial, userPrograms,
    Image.globalSpecialStart, Image.globalSpecialEnd, Image.userSpecialStart,
    Image.userSpecialEnd, Image.userProgramsStart, Image.userProgramsEnd,
    Image.bssEnd, Image.dataEnd, Image.rodataEnd, Image.textEnd] at *
  omega

theorem memoryStart_le_pages_start :
    Image.memoryStart ≤ layout.pages.startAddress := by
  have := layout.order
  have := layout.pages_start_eq
  omega

theorem pages_end_lt : layout.pages.endAddress <
    pageSize * layout.target.virtualPages := layout.fits

end Layout

end VirtualMemory

namespace Target

variable (target : Target)

theorem entries_pos : 0 < target.entries := by
  cases target <;> decide

theorem virtualSpan_le :
    VirtualMemory.pageSize * target.virtualPages ≤ 2 ^ target.pointerBits := by
  cases target <;> decide

theorem virtualPages_le :
    target.virtualPages ≤ 2 ^ target.physicalPageNumberBitwidth := by
  cases target <;> decide

end Target

namespace VirtualMemory


/-- A kernel of one text page and two pages of programs. -/
def Layout.small : Layout :=
  ⟨.riscv64, ⟨4096, 0, 0, 0, 4096, 4096, 8192⟩, by decide⟩

end VirtualMemory

end Thos
