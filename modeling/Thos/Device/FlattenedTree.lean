import Thos.Device.DeviceTree

namespace Thos.Device

/-! The structure block of a version 17 blob, and the tree it encodes. -/

structure Property where
  name : List UInt8
  value : List UInt8
  deriving DecidableEq, Repr

mutual
inductive Tree where
  | node (name : List UInt8) (properties : List Property) (children : Forest)

inductive Forest where
  | nil
  | cons (first : Tree) (rest : Forest)
end

mutual
def Tree.nodeCount : Tree → Nat
  | .node _ _ children => 1 + children.nodeCount

def Forest.nodeCount : Forest → Nat
  | .nil => 0
  | .cons first rest => first.nodeCount + rest.nodeCount
end

mutual
def Tree.propertyCount : Tree → Nat
  | .node _ properties children => properties.length + children.propertyCount

def Forest.propertyCount : Forest → Nat
  | .nil => 0
  | .cons first rest => first.propertyCount + rest.propertyCount
end

/-- A property with the layout it is given: the NOPs before it, the offset of
its name in the strings block, and the bytes that pad its value. -/
structure PropertyBlock where
  nops : Nat
  nameoff : UInt32
  property : Property
  padding : List UInt8
  deriving DecidableEq, Repr

mutual
/-- A node with its layout; `endNops` stand before its `FDT_END_NODE`. -/
inductive NodeBlock where
  | node (nops : Nat) (name padding : List UInt8)
      (properties : List PropertyBlock) (children : NodeBlocks) (endNops : Nat)

inductive NodeBlocks where
  | nil
  | cons (first : NodeBlock) (rest : NodeBlocks)
end

mutual
def NodeBlock.tree : NodeBlock → Tree
  | .node _ name _ properties children _ =>
      .node name (properties.map PropertyBlock.property) children.forest

def NodeBlocks.forest : NodeBlocks → Forest
  | .nil => .nil
  | .cons first rest => .cons first.tree rest.forest
end

mutual
def NodeBlock.allProperties : NodeBlock → List PropertyBlock
  | .node _ _ _ properties children _ => properties ++ children.allProperties

def NodeBlocks.allProperties : NodeBlocks → List PropertyBlock
  | .nil => []
  | .cons first rest => first.allProperties ++ rest.allProperties
end

/-! Bytes. -/

def tokenBytes (token : DeviceTreeStructureBlockToken) : List UInt8 :=
  bigEndian token.value

def nopBytes : Nat → List UInt8
  | 0 => []
  | nops + 1 => tokenBytes .structureNop ++ nopBytes nops

def paddingLength (length : Nat) : Nat := (4 - length % 4) % 4

namespace PropertyBlock

def core (block : PropertyBlock) : List UInt8 :=
  tokenBytes .structureProp ++
    (bigEndian (UInt32.ofNat block.property.value.length) ++
      (bigEndian block.nameoff ++ (block.property.value ++ block.padding)))

def bytes (block : PropertyBlock) : List UInt8 :=
  nopBytes block.nops ++ block.core

structure WellFormed (block : PropertyBlock) : Prop where
  length : block.property.value.length < 2 ^ 32
  padding : block.padding.length = paddingLength block.property.value.length
  name : 0 ∉ block.property.name

def Named (memory : ByteMemory) (strings : Nat) (block : PropertyBlock) : Prop :=
  memory.Holds (strings + block.nameoff.toNat) (block.property.name ++ [0])

end PropertyBlock

def NodeBlock.nops : NodeBlock → Nat
  | .node nops _ _ _ _ _ => nops

mutual
def NodeBlock.core : NodeBlock → List UInt8
  | .node _ name padding properties children endNops =>
      tokenBytes .structureBeginNode ++ (name ++ ((0 :: padding) ++
        (properties.flatMap PropertyBlock.bytes ++ (children.bytes ++
          (nopBytes endNops ++ tokenBytes .structureEndNode)))))

def NodeBlocks.bytes : NodeBlocks → List UInt8
  | .nil => []
  | .cons first rest => (nopBytes first.nops ++ first.core) ++ rest.bytes
end

def NodeBlock.bytes (block : NodeBlock) : List UInt8 :=
  nopBytes block.nops ++ block.core

mutual
def NodeBlock.WellFormed : NodeBlock → Prop
  | .node _ name padding properties children _ =>
      0 ∉ name ∧ padding.length = paddingLength (name.length + 1) ∧
        (∀ block ∈ properties, block.WellFormed) ∧ children.WellFormed

def NodeBlocks.WellFormed : NodeBlocks → Prop
  | .nil => True
  | .cons first rest => first.WellFormed ∧ rest.WellFormed
end

/-- A blob at `header`: its header fields, and the structure block up to the
final `FDT_END`. -/
structure EncodedAt (memory : ByteMemory) (header : DeviceTreeHeadersRaw)
    (cpuid structOffset stringsOffset : UInt32) (root : NodeBlock) : Prop where
  aligned : (header.address + structOffset.toNat) % 4 = 0
  magic : memory.Holds header.address (bigEndian deviceTreeMagic)
  offDtStruct : memory.Holds (header.address + 8) (bigEndian structOffset)
  offDtStrings : memory.Holds (header.address + 12) (bigEndian stringsOffset)
  version : memory.Holds (header.address + 20) (bigEndian deviceTreeVersion)
  bootCpuidPhys : memory.Holds (header.address + 28) (bigEndian cpuid)
  structureBlock : memory.Holds (header.address + structOffset.toNat)
    (root.bytes ++ tokenBytes .structureEnd)
  strings : ∀ block ∈ root.allProperties,
    block.Named memory (header.address + stringsOffset.toNat)

end Thos.Device
