import Thos.Device.FlattenedTree

namespace Thos.Device

/-! A whole blob: header, empty memory reservation block, structure block and
strings block. -/

def reservationBytes : List UInt8 := List.replicate 16 0

def structureBytes (root : NodeBlock) : List UInt8 :=
  root.bytes ++ tokenBytes .structureEnd

def blobStructureOffset : Nat := 56

def blobStringsOffset (root : NodeBlock) : Nat :=
  blobStructureOffset + (structureBytes root).length

def headerBytes (cpuid : UInt32) (root : NodeBlock) (strings : List UInt8) :
    List UInt8 :=
  bigEndian deviceTreeMagic ++
    (bigEndian (UInt32.ofNat (blobStringsOffset root + strings.length)) ++
      (bigEndian (UInt32.ofNat blobStructureOffset) ++
        (bigEndian (UInt32.ofNat (blobStringsOffset root)) ++
          (bigEndian 40 ++
            (bigEndian deviceTreeVersion ++
              (bigEndian 16 ++
                (bigEndian cpuid ++
                  (bigEndian (UInt32.ofNat strings.length) ++
                    bigEndian (UInt32.ofNat (structureBytes root).length)))))))))

def blobBytes (cpuid : UInt32) (root : NodeBlock) (strings : List UInt8) :
    List UInt8 :=
  headerBytes cpuid root strings ++
    (reservationBytes ++ (structureBytes root ++ strings))

def PropertyBlock.NamedIn (strings : List UInt8) (block : PropertyBlock) : Prop :=
  block.property.name ++ [0] <+: strings.drop block.nameoff.toNat

theorem PropertyBlock.NamedIn.named {memory : ByteMemory} {strings : List UInt8}
    {block : PropertyBlock} {address : Nat} (inside : block.NamedIn strings)
    (holds : memory.Holds address strings) : block.Named memory address := by
  obtain ⟨rest, equal⟩ := inside
  have room : block.nameoff.toNat ≤ strings.length := by
    by_contra beyond
    rw [List.drop_eq_nil_of_le (by omega)] at equal
    simp at equal
  rw [← List.take_append_drop block.nameoff.toNat strings, ← equal,
    ByteMemory.holds_append, List.length_take, Nat.min_eq_left room,
    ByteMemory.holds_append] at holds
  exact holds.2.1

theorem blobBytes_encodedAt {cpuid : UInt32} {root : NodeBlock}
    {strings : List UInt8} {address : Nat} (aligned : address % 4 = 0)
    (small : blobStringsOffset root < 2 ^ 32)
    (named : ∀ block ∈ root.allProperties, block.NamedIn strings) :
    EncodedAt (.ofBytes address (blobBytes cpuid root strings)) ⟨address⟩ cpuid
      (UInt32.ofNat blobStructureOffset) (UInt32.ofNat (blobStringsOffset root))
        root := by
  have parts := ByteMemory.holds_ofBytes_self address (blobBytes cpuid root strings)
  simp only [blobBytes, headerBytes, ByteMemory.holds_append, length_bigEndian,
    List.length_append] at parts
  obtain ⟨⟨magic, _, offDtStruct, offDtStrings, _, version, _, bootCpuid, _⟩, _,
    structureBlock, stringsBlock⟩ := parts
  have offset : (UInt32.ofNat blobStructureOffset).toNat = blobStructureOffset := rfl
  have stringsRead : (UInt32.ofNat (blobStringsOffset root)).toNat =
    blobStringsOffset root :=
    UInt32.toNat_ofNat_of_lt' small
  constructor
  · rw [offset]
    simp only [blobStructureOffset]
    omega
  · exact magic
  · exact offDtStruct
  · exact offDtStrings
  · exact version
  · exact bootCpuid
  · exact structureBlock
  · intro block member
    rw [stringsRead]
    have place : address + (4 + (4 + (4 + (4 + (4 + (4 + (4 + (4 + (4 + 4)))))))))
        + reservationBytes.length + (structureBytes root).length =
          address + blobStringsOffset root := by
      rw [blobStringsOffset, blobStructureOffset,
        show reservationBytes.length = 16 from rfl]
      omega
    rw [place] at stringsBlock
    exact (named block member).named stringsBlock

end Thos.Device
