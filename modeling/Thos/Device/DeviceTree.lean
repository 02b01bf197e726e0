import Thos.Common.Endian
import Thos.Kernel.List

namespace Thos.Device

open Data.LinkedList
open Thos.Kernel

/-! The flattened device tree parser. An item of a static array is known by its
index; a pointer into the blob by its address. -/

def deviceTreeMagic : UInt32 := 0xD00DFEED

def deviceTreeVersion : UInt32 := 17

inductive DeviceTreeStructureBlockToken where
  | structureBeginNode
  | structureEndNode
  | structureProp
  | structureNop
  | structureEnd
  deriving DecidableEq, Repr

def DeviceTreeStructureBlockToken.value : DeviceTreeStructureBlockToken → UInt32
  | structureBeginNode => 0x01
  | structureEndNode => 0x02
  | structureProp => 0x03
  | structureNop => 0x04
  | structureEnd => 0x09

def numDeviceTreeProperties : Nat := 1024

def numDeviceTreeNodes : Nat := 256

structure DeviceTreeProperty where
  name : Nat
  value : Nat
  valueLen : Nat
  next : Option Nat
  deriving DecidableEq, Repr

structure DeviceTreeNode where
  name : Nat
  properties : Option Nat
  child : Option Nat
  next : Option Nat
  deriving DecidableEq, Repr

structure DeviceTree where
  bootCpuidPhys : UInt32
  root : Nat
  deriving DecidableEq, Repr

/-- The static arrays `nodes` and `props` with their counters. -/
structure Pools where
  nodes : Nat → DeviceTreeNode
  nodesNext : Nat
  props : Nat → DeviceTreeProperty
  propsNext : Nat

def Pools.empty : Pools where
  nodes _ := ⟨0, none, none, none⟩
  nodesNext := 0
  props _ := ⟨0, 0, 0, none⟩
  propsNext := 0

namespace Pools

def setNode (pools : Pools) (item : Nat) (node : DeviceTreeNode) : Pools :=
  { pools with nodes := Function.update pools.nodes item node }

def setProp (pools : Pools) (item : Nat) (prop : DeviceTreeProperty) : Pools :=
  { pools with props := Function.update pools.props item prop }

/-- `NEXT_FREE(nodes, DeviceTreeNode, NUM_DEVICE_TREE_NODES)`. -/
def nextFreeNode (pools : Pools) : Option Nat × Pools :=
  let (item, next) := nextFree pools.nodesNext numDeviceTreeNodes
  (item, { pools with nodesNext := next })

/-- `NEXT_FREE(props, DeviceTreeProperty, NUM_DEVICE_TREE_NODES)`. -/
def nextFreeProp (pools : Pools) : Option Nat × Pools :=
  let (item, next) := nextFree pools.propsNext numDeviceTreeNodes
  (item, { pools with propsNext := next })

def propertyLinks (pools : Pools) (node : Nat) : Links Nat where
  base := (pools.nodes node).properties
  next item := (pools.props item).next

def setPropertyLink (pools : Pools) (node prop : Nat) : Link Nat → Pools
  | .base => pools.setNode node { pools.nodes node with properties := some prop }
  | .after item => pools.setProp item { pools.props item with next := some prop }

def childLinks (pools : Pools) (node : Nat) : Links Nat where
  base := (pools.nodes node).child
  next item := (pools.nodes item).next

def setChildLink (pools : Pools) (node child : Nat) : Link Nat → Pools
  | .base => pools.setNode node { pools.nodes node with child := some child }
  | .after item => pools.setNode item { pools.nodes item with next := some child }

end Pools

def alignUp (value align : Nat) : Nat :=
  if value % align = 0 then value else value + align - value % align

structure DeviceTreeHeadersRaw where
  address : Nat
  deriving DecidableEq, Repr

namespace DeviceTreeHeadersRaw

variable (header : DeviceTreeHeadersRaw) (memory : ByteMemory)

def magic : UInt32 := memory.load32 header.address

def offDtStruct : UInt32 := memory.load32 (header.address + 8)

def offDtStrings : UInt32 := memory.load32 (header.address + 12)

def version : UInt32 := memory.load32 (header.address + 20)

def lastCompVersion : UInt32 := memory.load32 (header.address + 24)

def bootCpuidPhys : UInt32 := memory.load32 (header.address + 28)

def strings : Nat :=
  header.address + (swapEndianness32 (header.offDtStrings memory)).toNat

end DeviceTreeHeadersRaw

def isToken (memory : ByteMemory) (pointer : Nat)
    (token : DeviceTreeStructureBlockToken) : Bool :=
  memory.load32 pointer == swapEndianness32 token.value

section

variable (memory : ByteMemory) (rounds : Nat) (header : DeviceTreeHeadersRaw)

def skipNops (memory : ByteMemory) : Nat → Nat → Outcome Nat
  | 0, _ => throw .outOfFuel
  | rounds + 1, pointer =>
      if isToken memory pointer .structureNop then
        skipNops memory rounds (pointer + 4)
      else pure pointer

/-- The loop of `parse_node_name`: the address of the NUL. -/
def nodeNameEnd (memory : ByteMemory) : Nat → Nat → Outcome Nat
  | 0, _ => throw .outOfFuel
  | rounds + 1, pointer =>
      if memory pointer ≠ 0 then nodeNameEnd memory rounds (pointer + 1)
      else pure pointer

def parseNodeName (pointer : Nat) : Outcome (Nat × Nat) := do
  let finish ← nodeNameEnd memory rounds pointer
  return (pointer, alignUp (finish + 1) 4)

/-- The item is `none` where the next token is not `FDT_PROP`; a property that
the array has no item for is stored through `NULL`. -/
def DeviceTreeProperty.parse (pointer : Nat) (pools : Pools) :
    Outcome (Option Nat × Nat × Pools) := do
  let pointer ← skipNops memory rounds pointer
  if !isToken memory pointer .structureProp then pure (none, pointer, pools)
  else
    let propertyRaw := pointer + 4
    let valueLen := (swapEndianness32 (memory.load32 propertyRaw)).toNat
    let nameoff := (swapEndianness32 (memory.load32 (propertyRaw + 4))).toNat
    let value := propertyRaw + 8
    match pools.nextFreeProp with
    | (none, _) => throw .nullAccess
    | (some parsed, pools) =>
        pure (some parsed, alignUp (value + valueLen) 4,
          pools.setProp parsed { pools.props parsed with
            name := header.strings memory + nameoff
            value := value
            valueLen := valueLen })

def parseProperties (node : Nat) : Nat → Nat → Pools → Outcome (Nat × Pools)
  | 0, _, _ => throw .outOfFuel
  | fuel + 1, pointer, pools => do
      let pointer ← skipNops memory rounds pointer
      match ← DeviceTreeProperty.parse memory rounds header pointer pools with
      | (none, pointer, pools) => pure (pointer, pools)
      | (some prop, pointer, pools) =>
          let pools ← addLinked rounds (pools.propertyLinks node)
            (pools.setPropertyLink node prop)
          parseProperties node fuel pointer pools

mutual
def DeviceTreeNode.parse : Nat → Nat → Pools →
    Outcome (Option Nat × Nat × Pools)
  | 0, _, _ => throw .outOfFuel
  | fuel + 1, pointer, pools => do
      let pointer ← skipNops memory rounds pointer
      if !isToken memory pointer .structureBeginNode then
        pure (none, pointer, pools)
      else
        let (parsed, pools) := pools.nextFreeNode
        let (name, pointer) ← parseNodeName memory rounds (pointer + 4)
        match parsed with
        | none => throw .nullAccess
        | some parsed =>
            let pools := pools.setNode parsed
              { pools.nodes parsed with name := name }
            let (pointer, pools) ← parseProperties memory rounds header parsed
              rounds pointer pools
            let (pointer, pools) ← parseChildren parsed fuel pointer pools
            let pointer ← skipNops memory rounds pointer
            if !isToken memory pointer .structureEndNode then
              throw (.panic "unclosed device tree node")
            else pure (some parsed, pointer + 4, pools)

def parseChildren (node : Nat) : Nat → Nat → Pools → Outcome (Nat × Pools)
  | 0, _, _ => throw .outOfFuel
  | fuel + 1, pointer, pools => do
      let pointer ← skipNops memory rounds pointer
      match ← DeviceTreeNode.parse fuel pointer pools with
      | (none, pointer, pools) => pure (pointer, pools)
      | (some child, pointer, pools) =>
          let pools ← addLinked rounds (pools.childLinks node)
            (pools.setChildLink node child)
          parseChildren node fuel pointer pools
end

end

/-- The tree, the cursor it is left at, and the arrays. -/
def DeviceTree.parse (memory : ByteMemory) (rounds : Nat)
    (header : DeviceTreeHeadersRaw) (pools : Pools) :
    Outcome (DeviceTree × Nat × Pools) := do
  if header.magic memory ≠ swapEndianness32 deviceTreeMagic then
    throw (.panic "bad magic on device tree header: 0x%08x")
  else if header.version memory ≠ swapEndianness32 deviceTreeVersion ∧
      header.lastCompVersion memory ≠ swapEndianness32 deviceTreeVersion then
    throw (.panic "bad version/comp_version on device tree header: %d")
  else
    let pointer := header.address +
      (swapEndianness32 (header.offDtStruct memory)).toNat
    let (root, pointer, pools) ← DeviceTreeNode.parse memory rounds header rounds
      pointer pools
    if !isToken memory pointer .structureEnd then
      throw (.panic "device tree structure not closed")
    else
      match root with
      | none => throw (.panic "device tree NULL root node")
      | some root =>
          pure (⟨swapEndianness32 (header.bootCpuidPhys memory), root⟩, pointer,
            pools)

end Thos.Device
