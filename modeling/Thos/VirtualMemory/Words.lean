import Thos.Data.BitField
import Thos.VirtualMemory.Forest

namespace Thos.VirtualMemory

open Data.BitField

/-! The words that the unions of the page tables are in memory. -/

/-- Bits of `_reserved`. -/
def reservedBitwidth : Target → Nat
  | .riscv64 => 10
  | .riscv32 => 0

namespace PageTableEntryFlags

def fields (flags : PageTableEntryFlags) : List Nat :=
  [flags.valid, flags.read, flags.write, flags.execute, flags.user, flags.global,
    flags.accessed, flags.dirty].map Bool.toNat

def value (flags : PageTableEntryFlags) : Nat :=
  pack (List.replicate 8 1) flags.fields

def ofValue (value : Nat) : PageTableEntryFlags :=
  let field (number : Nat) := (unpack (List.replicate 8 1) value).getD number 0 == 1
  { valid := field 0, read := field 1, write := field 2, execute := field 3,
    user := field 4, global := field 5, accessed := field 6, dirty := field 7 }

theorem ofValue_value (flags : PageTableEntryFlags) : ofValue flags.value = flags := by
  have fits : Fits (List.replicate 8 1) flags.fields :=
    ⟨Bool.toNat_lt _, Bool.toNat_lt _, Bool.toNat_lt _, Bool.toNat_lt _,
      Bool.toNat_lt _, Bool.toNat_lt _, Bool.toNat_lt _, Bool.toNat_lt _, trivial⟩
  have bit : ∀ flag : Bool, (flag.toNat == 1) = flag := by decide
  simp only [ofValue, value, unpack_pack fits]
  simp [fields, bit]

theorem value_lt (flags : PageTableEntryFlags) : flags.value < 2 ^ 8 :=
  pack_lt (List.replicate 8 1) flags.fields

end PageTableEntryFlags

namespace PageTableEntry

def widths (target : Target) : List Nat :=
  [8, 2, target.physicalPageNumberBitwidth, reservedBitwidth target]

def fields (entry : PageTableEntry) : List Nat :=
  [entry.flags.value, entry.reservedSupervisor, entry.physicalPageNum,
    entry.reserved]

def word (target : Target) (entry : PageTableEntry) : Nat :=
  pack (widths target) entry.fields

def ofWord (target : Target) (word : Nat) : PageTableEntry :=
  let field (number : Nat) := (unpack (widths target) word).getD number 0
  { flags := .ofValue (field 0), reservedSupervisor := field 1,
    physicalPageNum := field 2, reserved := field 3 }

structure InBits (target : Target) (entry : PageTableEntry) : Prop where
  reservedSupervisor : entry.reservedSupervisor < 2 ^ 2
  physicalPageNum : entry.physicalPageNum < 2 ^ target.physicalPageNumberBitwidth
  reserved : entry.reserved < 2 ^ reservedBitwidth target

theorem ofWord_word {target : Target} {entry : PageTableEntry}
    (inBits : entry.InBits target) : ofWord target (entry.word target) = entry := by
  have fits : Fits (widths target) entry.fields :=
    ⟨entry.flags.value_lt, inBits.reservedSupervisor, inBits.physicalPageNum,
      inBits.reserved, trivial⟩
  simp only [ofWord, word, unpack_pack fits]
  simp [fields, PageTableEntryFlags.ofValue_value]

/-- What the hart sets in an entry that it translates an access with. -/
def touch (store : Bool) (entry : PageTableEntry) : PageTableEntry :=
  { entry with flags :=
      { entry.flags with accessed := true, dirty := entry.flags.dirty || store } }

def touchBits (store : Bool) : Nat := 2 ^ 6 + if store then 2 ^ 7 else 0

theorem word_touch (target : Target) (store : Bool) (entry : PageTableEntry) :
    (entry.touch store).word target = entry.word target ||| touchBits store := by
  have inside : touchBits store < 2 ^ 8 := by cases store <;> decide
  have flags : ∀ valid read write execute user global accessed dirty store : Bool,
      PageTableEntryFlags.value ⟨valid, read, write, execute, user, global, true,
        dirty || store⟩ = PageTableEntryFlags.value ⟨valid, read, write, execute, user,
          global, accessed, dirty⟩ ||| touchBits store := by decide +kernel
  have touched : (entry.touch store).flags.value =
      entry.flags.value ||| touchBits store := flags ..
  rw [word, word, widths, fields, fields, pack_or _ _ _ inside, touched]
  rfl

end PageTableEntry

def Memory.words (target : Target) (memory : Memory) (address : Nat) : Nat :=
  (memory.entry address).word target

theorem Memory.words_write (target : Target) (memory : Memory) (address : Nat)
    (value : PageTableEntry) :
    (memory.write address value).words target =
      Function.update (memory.words target) address (value.word target) := by
  funext other
  by_cases same : other = address
  · rw [same, words, entry_write_self, Function.update_self]
  · rw [words, entry_write_of_ne memory value same, Function.update_of_ne same]
    rfl

end Thos.VirtualMemory
