import Mathlib.Data.List.Forall2
import Thos.Device.Grammar

namespace Thos.Device

open Data.LinkedList
open Thos.Kernel

/-! NOPs inserted before tokens. -/

structure PropertyBlock.WithNops (first second : PropertyBlock) : Prop where
  nops : first.nops ≤ second.nops
  same : second = { first with nops := second.nops }

mutual
def NodeBlock.WithNops : NodeBlock → NodeBlock → Prop
  | .node nops name padding properties children endNops,
    .node nops' name' padding' properties' children' endNops' =>
      (nops ≤ nops' ∧ endNops ≤ endNops') ∧ (name = name' ∧ padding = padding') ∧
        List.Forall₂ PropertyBlock.WithNops properties properties' ∧
        children.WithNops children'

def NodeBlocks.WithNops : NodeBlocks → NodeBlocks → Prop
  | .nil, .nil => True
  | .cons first rest, .cons first' rest' => first.WithNops first' ∧
    rest.WithNops rest'
  | _, _ => False
end

theorem properties_withNops_map {first second : List PropertyBlock}
    (more : List.Forall₂ PropertyBlock.WithNops first second) :
    second.map PropertyBlock.property = first.map PropertyBlock.property := by
  induction more with
  | nil => rfl
  | cons here _ induction =>
      rw [List.map_cons, List.map_cons, induction, here.same]

theorem properties_withNops_wellFormed {first second : List PropertyBlock}
    (more : List.Forall₂ PropertyBlock.WithNops first second)
    (wellFormed : ∀ block ∈ first, block.WellFormed) :
    ∀ block ∈ second, block.WellFormed := by
  induction more with
  | nil => exact wellFormed
  | cons here _ induction =>
      obtain ⟨head, tail⟩ := List.forall_mem_cons.mp wellFormed
      refine List.forall_mem_cons.mpr ⟨?_, induction tail⟩
      rw [here.same]
      exact ⟨head.length, head.padding, head.name⟩

mutual
theorem NodeBlock.WithNops.tree_eq : {first second : NodeBlock} →
    first.WithNops second → second.tree = first.tree
  | .node _ _ _ _ _ _, .node _ _ _ _ _ _, more => by
      obtain ⟨_, ⟨name, _⟩, properties, children⟩ := more
      rw [NodeBlock.tree, NodeBlock.tree, name, properties_withNops_map properties,
        NodeBlocks.WithNops.forest_eq children]

theorem NodeBlocks.WithNops.forest_eq : {first second : NodeBlocks} →
    first.WithNops second → second.forest = first.forest
  | .nil, .nil, _ => rfl
  | .nil, .cons _ _, more => more.elim
  | .cons _ _, .nil, more => more.elim
  | .cons _ _, .cons _ _, more => by
      rw [NodeBlocks.forest, NodeBlocks.forest, NodeBlock.WithNops.tree_eq more.1,
        NodeBlocks.WithNops.forest_eq more.2]
end

mutual
theorem NodeBlock.WithNops.wellFormed : {first second : NodeBlock} →
    first.WithNops second → first.WellFormed → second.WellFormed
  | .node _ _ _ _ _ _, .node _ _ _ _ _ _, more, wellFormed => by
      obtain ⟨_, ⟨rfl, rfl⟩, properties, children⟩ := more
      obtain ⟨noNul, padded, propertiesFormed, childrenFormed⟩ := wellFormed
      exact ⟨noNul, padded,
        properties_withNops_wellFormed properties propertiesFormed,
        NodeBlocks.WithNops.wellFormed children childrenFormed⟩

theorem NodeBlocks.WithNops.wellFormed : {first second : NodeBlocks} →
    first.WithNops second → first.WellFormed → second.WellFormed
  | .nil, .nil, _, _ => trivial
  | .nil, .cons _ _, more, _ => more.elim
  | .cons _ _, .nil, more, _ => more.elim
  | .cons _ _, .cons _ _, more, wellFormed =>
      ⟨NodeBlock.WithNops.wellFormed more.1 wellFormed.1,
        NodeBlocks.WithNops.wellFormed more.2 wellFormed.2⟩
end

mutual
theorem NodeBlock.WithNops.allProperties : {first second : NodeBlock} →
    first.WithNops second →
    List.Forall₂ PropertyBlock.WithNops first.allProperties second.allProperties
  | .node _ _ _ _ _ _, .node _ _ _ _ _ _, more =>
      List.rel_append more.2.2.1 (NodeBlocks.WithNops.allProperties more.2.2.2)

theorem NodeBlocks.WithNops.allProperties : {first second : NodeBlocks} →
    first.WithNops second →
    List.Forall₂ PropertyBlock.WithNops first.allProperties second.allProperties
  | .nil, .nil, _ => .nil
  | .nil, .cons _ _, more => more.elim
  | .cons _ _, .nil, more => more.elim
  | .cons _ _, .cons _ _, more =>
      List.rel_append (NodeBlock.WithNops.allProperties more.1)
        (NodeBlocks.WithNops.allProperties more.2)
end

/-! The same tree in two memories. -/

def SameString (memory : ByteMemory) (address : Nat) (memory' : ByteMemory)
    (address' : Nat) : Prop :=
  ∀ text, memory.Text address text ↔ memory'.Text address' text

structure SameProperty (memory : ByteMemory) (pools : Pools) (memory' : ByteMemory)
    (pools' : Pools) (prop prop' : Nat) : Prop where
  name : SameString memory (pools.props prop).name memory' (pools'.props prop').name
  valueLen : (pools'.props prop').valueLen = (pools.props prop).valueLen
  value : memory'.read (pools'.props prop').value (pools.props prop).valueLen =
    memory.read (pools.props prop).value (pools.props prop).valueLen

/-- The trees that hang on two nodes have the same names, the same properties and
the same children, in the same order. -/
inductive SameNode (memory : ByteMemory) (pools : Pools) (memory' : ByteMemory)
    (pools' : Pools) : Nat → Nat → Prop
  | node {item item' : Nat} {props props' items items' : List Nat}
      (name : SameString memory (pools.nodes item).name memory'
        (pools'.nodes item').name)
      (propertyPath : (pools.propertyLinks item).Path .base props)
      (propertyPath' : (pools'.propertyLinks item').Path .base props')
      (properties : List.Forall₂ (SameProperty memory pools memory' pools') props
        props')
      (childPath : (pools.childLinks item).Path .base items)
      (childPath' : (pools'.childLinks item').Path .base items')
      (children : List.Forall₂ (SameNode memory pools memory' pools') items items') :
      SameNode memory pools memory' pools' item item'

section

variable {memory memory' : ByteMemory} {strings strings' : Nat} {pools pools' : Pools}

theorem SameString.of_texts {address address' : Nat} {text : List UInt8}
    (one : memory.Text address text) (two : memory'.Text address' text) :
    SameString memory address memory' address' := by
  intro other
  constructor
  · intro here
    rw [here.unique one]
    exact two
  · intro there
    rw [there.unique two]
    exact one

theorem SameString.of_bytes {address address' : Nat}
    (same : ∀ offset, memory' (address' + offset) = memory (address + offset)) :
    SameString memory address memory' address' := by
  have held : ∀ (bytes : List UInt8) (offset : Nat),
      memory'.Holds (address' + offset) bytes ↔ memory.Holds (address + offset) bytes := by
    intro bytes
    induction bytes with
    | nil => exact fun _ => Iff.rfl
    | cons byte bytes induction =>
        intro offset
        rw [ByteMemory.holds_cons, ByteMemory.holds_cons, same offset,
          Nat.add_assoc, Nat.add_assoc, induction]
  intro text
  exact ⟨fun here => ⟨(held _ 0).mpr here.held, here.noNul⟩,
    fun there => ⟨(held _ 0).mp there.held, there.noNul⟩⟩

def SameName (memory : ByteMemory) (strings : Nat) (memory' : ByteMemory)
    (strings' : Nat) (block : PropertyBlock) : Prop :=
  SameString memory (strings + block.nameoff.toNat) memory'
    (strings' + block.nameoff.toNat)

theorem PropertyBlock.WithNops.reads {first second : PropertyBlock}
    (more : first.WithNops second)
    (same : SameName memory strings memory' strings' first)
    (reads : first.Reads memory strings) : second.Reads memory' strings' := by
  rw [more.same]
  exact ⟨reads.1, fun other there => reads.2 other ((same other).mpr there)⟩

theorem properties_withNops_reads {first second : List PropertyBlock}
    (more : List.Forall₂ PropertyBlock.WithNops first second)
    (same : ∀ block ∈ first, SameName memory strings memory' strings' block)
    (reads : ∀ block ∈ first, block.Reads memory strings) :
    ∀ block ∈ second, block.Reads memory' strings' := by
  induction more with
  | nil => exact List.forall_mem_nil _
  | cons here _ induction =>
      obtain ⟨head, tail⟩ := List.forall_mem_cons.mp reads
      obtain ⟨sameHead, sameTail⟩ := List.forall_mem_cons.mp same
      exact List.forall_mem_cons.mpr
        ⟨here.reads sameHead head, induction sameTail tail⟩

theorem PropertyBlock.Encodes.same {first second : PropertyBlock} {prop prop' : Nat}
    (one : first.Encodes memory strings pools prop)
    (two : second.Encodes memory' strings' pools' prop')
    (more : first.WithNops second)
    (same : SameName memory strings memory' strings' first) :
    SameProperty memory pools memory' pools' prop prop' := by
  have name := two.name
  have valueLen := two.valueLen
  have value := two.value
  rw [more.same] at name valueLen value
  constructor
  · rw [one.name, name]
    exact same
  · rw [one.valueLen, valueLen]
  · rw [one.valueLen, ByteMemory.holds_iff_read.mp one.value,
      ByteMemory.holds_iff_read.mp value]

theorem properties_same {first second : List PropertyBlock} {props props' : List Nat}
    (one : List.Forall₂ (PropertyBlock.Encodes memory strings pools) first props)
    (two : List.Forall₂ (PropertyBlock.Encodes memory' strings' pools') second props')
    (more : List.Forall₂ PropertyBlock.WithNops first second)
    (same : ∀ block ∈ first, SameName memory strings memory' strings' block) :
    List.Forall₂ (SameProperty memory pools memory' pools') props props' := by
  induction more generalizing props props' with
  | nil =>
      cases one
      cases two
      exact .nil
  | cons here _ induction =>
      cases one with
      | cons head tail =>
          cases two with
          | cons head' tail' =>
              obtain ⟨sameHead, sameTail⟩ := List.forall_mem_cons.mp same
              exact .cons (head.same head' here sameHead)
                (induction tail tail' sameTail)

mutual
theorem NodeBlock.Encodes.same : {first second : NodeBlock} → {item item' : Nat} →
    first.Encodes memory strings pools item →
    second.Encodes memory' strings' pools' item' → first.WithNops second →
    (∀ block ∈ first.allProperties, SameName memory strings memory' strings' block) →
    SameNode memory pools memory' pools' item item'
  | .node _ _ _ _ _ _, .node _ _ _ _ _ _, item, item', one, two, more, same => by
      obtain ⟨name, ⟨props, path, properties⟩, items, childPath, children⟩ := one
      obtain ⟨name', ⟨props', path', properties'⟩, items', childPath', children'⟩ :=
        two
      obtain ⟨_, ⟨rfl, rfl⟩, propertyBlocks, childBlocks⟩ := more
      obtain ⟨sameFirst, sameRest⟩ := List.forall_mem_append.mp same
      exact .node (.of_texts name name') path path'
        (properties_same properties properties' propertyBlocks sameFirst) childPath
        childPath' (NodeBlocks.Encodes.same children children' childBlocks sameRest)

theorem NodeBlocks.Encodes.same : {first second : NodeBlocks} →
    {items items' : List Nat} → first.Encodes memory strings pools items →
    second.Encodes memory' strings' pools' items' → first.WithNops second →
    (∀ block ∈ first.allProperties, SameName memory strings memory' strings' block) →
    List.Forall₂ (SameNode memory pools memory' pools') items items'
  | .nil, .nil, items, items', one, two, _, _ => by
      cases one
      cases two
      exact .nil
  | .nil, .cons _ _, _, _, _, _, more, _ => more.elim
  | .cons _ _, .nil, _, _, _, _, more, _ => more.elim
  | .cons _ _, .cons _ _, items, items', one, two, more, same => by
      obtain ⟨item, others, rfl, here, later⟩ := one
      obtain ⟨item', others', rfl, here', later'⟩ := two
      obtain ⟨sameFirst, sameRest⟩ := List.forall_mem_append.mp same
      exact .cons (NodeBlock.Encodes.same here here' more.1 sameFirst)
        (NodeBlocks.Encodes.same later later' more.2 sameRest)
end

end

/-! Two parses. -/

/-- The second memory has the blob of the first one with more NOPs: `root'` for
`root`, and `gap` of them between the end of the root and `FDT_END`. -/
structure NopsInserted (memory memory' : ByteMemory) (header : DeviceTreeHeadersRaw)
    (root root' : NodeBlock) (gap : Nat) : Prop where
  magic : header.magic memory' = header.magic memory
  offDtStruct : header.offDtStruct memory' = header.offDtStruct memory
  version : header.version memory' = header.version memory
  lastCompVersion : header.lastCompVersion memory' = header.lastCompVersion memory
  bootCpuidPhys : header.bootCpuidPhys memory' = header.bootCpuidPhys memory
  more : root.WithNops root'
  held : memory'.Holds (header.structureBlock memory')
    (root'.bytes ++ (nopBytes gap ++ tokenBytes .structureEnd))
  names : ∀ block ∈ root.allProperties,
    SameName memory (header.strings memory) memory' (header.strings memory') block

theorem isToken_end {memory : ByteMemory} {address gap : Nat}
    (held : memory.Holds address (nopBytes gap ++ tokenBytes .structureEnd)) :
    isToken memory address .structureEnd = decide (gap = 0) := by
  cases gap with
  | zero => exact isToken_of_holds .structureEnd held
  | succ gap =>
      rw [nopBytes, List.append_assoc, ByteMemory.holds_append] at held
      exact isToken_of_holds .structureEnd held.1

section

variable {memory memory' : ByteMemory} {header : DeviceTreeHeadersRaw}
  {root root' : NodeBlock} {gap rounds : Nat}

theorem NopsInserted.checked
    (inserted : NopsInserted memory memory' header root root' gap)
    (checked : header.Checked memory) : header.Checked memory' := by
  constructor
  · rw [inserted.magic]
    exact checked.magic
  · rw [inserted.version, inserted.lastCompVersion]
    exact checked.version

theorem NopsInserted.structureBlock
    (inserted : NopsInserted memory memory' header root root' gap) :
    header.structureBlock memory' = header.structureBlock memory := by
  rw [DeviceTreeHeadersRaw.structureBlock, inserted.offDtStruct,
    ← DeviceTreeHeadersRaw.structureBlock]

theorem NopsInserted.at_root
    (inserted : NopsInserted memory memory' header root root' gap)
    (here : root.At memory (header.strings memory)
      (header.structureBlock memory + 4 * root.nops)) :
    root'.At memory' (header.strings memory')
      (header.structureBlock memory' + 4 * root'.nops) where
  wellFormed := inserted.more.wellFormed here.wellFormed
  reads := properties_withNops_reads inserted.more.allProperties inserted.names
    here.reads
  held := by
    have held := (ByteMemory.holds_append.mp inserted.held).1
    rw [NodeBlock.bytes, ByteMemory.holds_append, length_nopBytes] at held
    exact held.2

theorem NopsInserted.parse
    (inserted : NopsInserted memory memory' header root root' gap)
    (checked : header.Checked memory) (aligned : header.structureBlock memory % 4 = 0)
    (here : root.At memory (header.strings memory)
      (header.structureBlock memory + 4 * root.nops)) (fits : root.tree.Fits)
    (enough : root'.bytes.length < rounds) (items : numDeviceTreeNodes ≤ rounds) :
    ∃ pools', root'.Encodes memory' (header.strings memory') pools' 0 ∧
      DeviceTree.parse memory' rounds header Pools.empty =
        if gap = 0 then
          .ok (⟨swapEndianness32 (header.bootCpuidPhys memory), 0⟩,
            header.structureBlock memory' + root'.bytes.length, pools')
        else .error (.panic "device tree structure not closed") := by
  have nodes := fits.nodes
  have props := fits.props
  rw [← inserted.more.tree_eq] at nodes props
  have here' := inserted.at_root here
  obtain ⟨held, ends⟩ := ByteMemory.holds_append.mp inserted.held
  obtain ⟨pools', loaded, _, placed⟩ := NodeBlock.load_placed root' Pools.empty
    (header.structureBlock memory' + 4 * root'.nops) Pools.empty_clear items
    (show 0 + root'.tree.nodeCount < _ by omega)
    (show 0 + root'.tree.propertyCount < _ by omega)
  refine ⟨pools', placed.encodes here', ?_⟩
  rw [DeviceTree.parse_checked _ (inserted.checked checked)
    (by rw [inserted.structureBlock]; exact aligned) here'.wellFormed held enough,
    loaded, Outcome.ok_bind, isToken_end ends, inserted.bootCpuidPhys]
  by_cases none : gap = 0
  · rw [if_pos (decide_eq_true none), if_pos none]
    rfl
  · rw [if_neg none, if_neg (by simp [none])]
    rfl

/-- Inserted NOPs change nothing, unless there are some before `FDT_END`: there
the parser panics. -/
theorem DeviceTree.parse_ignores_nops_iff {tree : DeviceTree} {cursor : Nat}
    {pools : Pools} (aligned : header.address % 4 = 0)
    (offset : (swapEndianness32 (header.offDtStruct memory)).toNat % 4 = 0)
    (returned : DeviceTree.parse memory rounds header Pools.empty =
      .ok (tree, cursor, pools)) :
    ∃ root : NodeBlock, root.Spans memory header cursor ∧
      ∀ memory' root' gap rounds',
        NopsInserted memory memory' header root root' gap →
          root'.bytes.length < rounds' → numDeviceTreeNodes ≤ rounds' →
            ((∃ tree' cursor' pools',
              DeviceTree.parse memory' rounds' header Pools.empty =
                .ok (tree', cursor', pools') ∧
              tree'.bootCpuidPhys = tree.bootCpuidPhys ∧
              SameNode memory pools memory' pools' tree.root tree'.root) ↔
                gap = 0) := by
  have start : header.structureBlock memory % 4 = 0 := by
    rw [DeviceTreeHeadersRaw.structureBlock]
    omega
  obtain ⟨checked, _, _, cpuid⟩ := DeviceTree.parse_eq_ok returned
  obtain ⟨root, spans, here, fits, _, first, placed⟩ :=
    DeviceTree.parse_decode start returned
  refine ⟨root, spans, ?_⟩
  intro memory' root' gap rounds' inserted enough items
  obtain ⟨pools', encodes, parsed⟩ := inserted.parse checked start here fits enough
    items
  constructor
  · rintro ⟨tree', cursor', after, succeeds, _⟩
    by_contra some
    rw [parsed, if_neg some] at succeeds
    contradiction
  · rintro rfl
    rw [if_pos rfl] at parsed
    refine ⟨_, _, pools', parsed, cpuid.symm, ?_⟩
    rw [first]
    exact (placed.encodes here).same encodes inserted.more inserted.names

end

/-! Whole blobs with NOPs before `FDT_END`. -/

def gapBlobBytes (cpuid : UInt32) (root : NodeBlock) (strings : List UInt8)
    (gap : Nat) : List UInt8 :=
  bigEndian deviceTreeMagic ++
    (bigEndian (UInt32.ofNat (blobStringsOffset root + 4 * gap + strings.length)) ++
      (bigEndian (UInt32.ofNat blobStructureOffset) ++
        (bigEndian (UInt32.ofNat (blobStringsOffset root + 4 * gap)) ++
          (bigEndian 40 ++
            (bigEndian deviceTreeVersion ++
              (bigEndian 16 ++
                (bigEndian cpuid ++
                  (bigEndian (UInt32.ofNat strings.length) ++
                    (bigEndian
                      (UInt32.ofNat ((structureBytes root).length + 4 * gap)) ++
                      (reservationBytes ++
                        (root.bytes ++
                          (nopBytes gap ++
                            (tokenBytes .structureEnd ++ strings)))))))))))))

theorem gapBlobBytes_zero (cpuid : UInt32) (root : NodeBlock) (strings : List UInt8) :
    gapBlobBytes cpuid root strings 0 = blobBytes cpuid root strings := by
  simp [gapBlobBytes, blobBytes, headerBytes, structureBytes, nopBytes,
    List.append_assoc]

structure GapBlobAt (memory : ByteMemory) (address : Nat) (cpuid : UInt32)
    (root : NodeBlock) (strings : List UInt8) (gap : Nat) : Prop where
  magic : memory.load32 address = swapEndianness32 deviceTreeMagic
  offDtStruct : memory.load32 (address + 8) =
    swapEndianness32 (UInt32.ofNat blobStructureOffset)
  offDtStrings : memory.load32 (address + 12) =
    swapEndianness32 (UInt32.ofNat (blobStringsOffset root + 4 * gap))
  version : memory.load32 (address + 20) = swapEndianness32 deviceTreeVersion
  lastCompVersion : memory.load32 (address + 24) = swapEndianness32 16
  bootCpuidPhys : memory.load32 (address + 28) = swapEndianness32 cpuid
  held : memory.Holds (address + blobStructureOffset)
    (root.bytes ++ (nopBytes gap ++ tokenBytes .structureEnd))
  strings : memory.Holds (address + (blobStringsOffset root + 4 * gap)) strings

theorem GapBlobAt.of_holds {memory : ByteMemory} {address gap : Nat} {cpuid : UInt32}
    {root : NodeBlock} {strings : List UInt8}
    (whole : memory.Holds address (gapBlobBytes cpuid root strings gap)) :
    GapBlobAt memory address cpuid root strings gap := by
  have reserved : reservationBytes.length = 16 := rfl
  simp only [gapBlobBytes, ByteMemory.holds_append, length_bigEndian, reserved,
    length_nopBytes, length_tokenBytes] at whole
  obtain ⟨magic, _, offDtStruct, offDtStrings, _, version, lastComp, bootCpuid, _, _,
    _, block, nops, ends, stringsHeld⟩ := whole
  constructor
  · exact ByteMemory.load32_of_holds magic
  · exact ByteMemory.load32_of_holds offDtStruct
  · exact ByteMemory.load32_of_holds offDtStrings
  · exact ByteMemory.load32_of_holds version
  · exact ByteMemory.load32_of_holds lastComp
  · exact ByteMemory.load32_of_holds bootCpuid
  · simp only [ByteMemory.holds_append, length_nopBytes]
    exact ⟨block, nops, ends⟩
  · have length : (structureBytes root).length = root.bytes.length + 4 :=
      List.length_append
    have place : address + (blobStringsOffset root + 4 * gap) =
        address + 4 + 4 + 4 + 4 + 4 + 4 + 4 + 4 + 4 + 4 + 16 + root.bytes.length +
          4 * gap + 4 := by
      rw [blobStringsOffset, blobStructureOffset, length]
      omega
    rw [place]
    exact stringsHeld

/-- The blob of a tree, against one with NOPs inserted before any of its tokens. -/
theorem NopsInserted.of_blobs {memory memory' : ByteMemory} {address gap : Nat}
    {cpuid : UInt32} {root root' : NodeBlock} {strings : List UInt8}
    (blob : memory.Holds address (blobBytes cpuid root strings))
    (blob' : memory'.Holds address (gapBlobBytes cpuid root' strings gap))
    (more : root.WithNops root')
    (small : blobStringsOffset root < 2 ^ 32)
    (small' : blobStringsOffset root' + 4 * gap < 2 ^ 32)
    (noNul : ∀ block ∈ root.allProperties, 0 ∉ block.property.name)
    (named : ∀ block ∈ root.allProperties, block.NamedIn strings) :
    NopsInserted memory memory' ⟨address⟩ root root' gap := by
  rw [← gapBlobBytes_zero] at blob
  have here := GapBlobAt.of_holds blob
  have here' := GapBlobAt.of_holds blob'
  constructor
  · exact here'.magic.trans here.magic.symm
  · exact here'.offDtStruct.trans here.offDtStruct.symm
  · exact here'.version.trans here.version.symm
  · exact here'.lastCompVersion.trans here.lastCompVersion.symm
  · exact here'.bootCpuidPhys.trans here.bootCpuidPhys.symm
  · exact more
  · have start : DeviceTreeHeadersRaw.structureBlock ⟨address⟩ memory' =
        address + blobStructureOffset := by
      rw [DeviceTreeHeadersRaw.structureBlock, DeviceTreeHeadersRaw.offDtStruct,
        here'.offDtStruct, swapEndianness32_swap]
      rfl
    rw [start]
    exact here'.held
  · intro block member
    have stringsAt : DeviceTreeHeadersRaw.strings ⟨address⟩ memory =
        address + (blobStringsOffset root + 4 * 0) := by
      rw [DeviceTreeHeadersRaw.strings, DeviceTreeHeadersRaw.offDtStrings,
        here.offDtStrings, swapEndianness32_swap,
        UInt32.toNat_ofNat_of_lt'
          (show blobStringsOffset root + 4 * 0 < _ from small)]
    have stringsAt' : DeviceTreeHeadersRaw.strings ⟨address⟩ memory' =
        address + (blobStringsOffset root' + 4 * gap) := by
      rw [DeviceTreeHeadersRaw.strings, DeviceTreeHeadersRaw.offDtStrings,
        here'.offDtStrings, swapEndianness32_swap, UInt32.toNat_ofNat_of_lt' small']
    rw [SameName, stringsAt, stringsAt']
    have one := (named block member).named here.strings
    have two := (named block member).named here'.strings
    exact .of_texts ⟨one, noNul block member⟩ ⟨two, noNul block member⟩

mutual
theorem NodeBlock.WithNops.refl : (block : NodeBlock) → block.WithNops block
  | .node _ _ _ _ children _ =>
      ⟨⟨Nat.le_refl _, Nat.le_refl _⟩, ⟨rfl, rfl⟩,
        List.forall₂_same.mpr fun _ _ => ⟨Nat.le_refl _, rfl⟩,
        NodeBlocks.WithNops.refl children⟩

theorem NodeBlocks.WithNops.refl : (blocks : NodeBlocks) → blocks.WithNops blocks
  | .nil => trivial
  | .cons first rest => ⟨NodeBlock.WithNops.refl first, NodeBlocks.WithNops.refl rest⟩
end

def NodeBlock.nopBefore : NodeBlock → NodeBlock
  | .node nops name padding properties children endNops =>
      .node (nops + 1) name padding properties children endNops

theorem NodeBlock.nopBefore_bytes (block : NodeBlock) :
    block.nopBefore.bytes = tokenBytes .structureNop ++ block.bytes := by
  cases block
  rfl

theorem NodeBlock.withNops_nopBefore (block : NodeBlock) :
    block.WithNops block.nopBefore := by
  cases block with
  | node nops name padding properties children endNops =>
      have same := WithNops.refl (.node nops name padding properties children endNops)
      exact ⟨⟨Nat.le_succ nops, same.1.2⟩, same.2⟩

def sampleNopMemory : ByteMemory :=
  .ofBytes 4096 (blobBytes 3 NodeBlock.sample.nopBefore sampleStrings)

theorem sampleNopMemory_sameName (block : PropertyBlock) :
    SameName sampleMemory ((⟨4096⟩ : DeviceTreeHeadersRaw).strings sampleMemory)
      sampleNopMemory ((⟨4096⟩ : DeviceTreeHeadersRaw).strings sampleNopMemory)
      block := by
  have strings : (⟨4096⟩ : DeviceTreeHeadersRaw).strings sampleMemory =
      4096 + blobStringsOffset NodeBlock.sample := by decide +kernel
  have strings' : (⟨4096⟩ : DeviceTreeHeadersRaw).strings sampleNopMemory =
      4096 + blobStringsOffset NodeBlock.sample.nopBefore := by decide +kernel
  have moved : (blobBytes 3 NodeBlock.sample.nopBefore sampleStrings).drop
      (blobStringsOffset NodeBlock.sample.nopBefore) =
        (blobBytes 3 NodeBlock.sample sampleStrings).drop
          (blobStringsOffset NodeBlock.sample) := by decide +kernel
  rw [SameName, strings, strings']
  apply SameString.of_bytes
  intro offset
  have byte := congrArg (fun bytes => bytes.getD (block.nameoff.toNat + offset) 0) moved
  simp only [List.getD_eq_getElem?_getD, List.getElem?_drop] at byte
  simp only [sampleNopMemory, sampleMemory, ByteMemory.ofBytes, Nat.add_assoc,
    Nat.add_sub_cancel_left, List.getD_eq_getElem?_getD]
  exact byte

theorem NopsInserted.sample {root : NodeBlock}
    (spans : root.Spans sampleMemory ⟨4096⟩
      (4096 + blobStructureOffset + NodeBlock.sample.bytes.length)) :
    NopsInserted sampleMemory sampleNopMemory ⟨4096⟩ root root.nopBefore 0 := by
  have start : (⟨4096⟩ : DeviceTreeHeadersRaw).structureBlock sampleMemory =
      4096 + blobStructureOffset := NodeBlock.sample_encodedAt.structureBlock_eq
  have bytes : root.bytes = NodeBlock.sample.bytes := by
    have held := (ByteMemory.holds_append.mp spans.held).1
    have length := spans.cursor
    rw [start] at held length
    exact held.eq_of_length
      (ByteMemory.holds_append.mp NodeBlock.sample_encodedAt.structureBlock).1 (by omega)
  constructor
  · decide +kernel
  · decide +kernel
  · decide +kernel
  · decide +kernel
  · decide +kernel
  · exact root.withNops_nopBefore
  · rw [root.nopBefore_bytes, bytes]
    decide +kernel
  · exact fun block _ => sampleNopMemory_sameName block

theorem DeviceTree.parse_ignores_nops_iff_sample : ∃ tree pools tree' cursor' pools',
    DeviceTree.parse sampleMemory 256 ⟨4096⟩ Pools.empty =
      .ok (tree, 4096 + blobStructureOffset + NodeBlock.sample.bytes.length, pools) ∧
    DeviceTree.parse sampleNopMemory 256 ⟨4096⟩ Pools.empty =
      .ok (tree', cursor', pools') ∧
    tree'.bootCpuidPhys = tree.bootCpuidPhys ∧
    SameNode sampleMemory pools sampleNopMemory pools' tree.root tree'.root := by
  obtain ⟨pools, returned⟩ := DeviceTree.parse_sampleMemory
  obtain ⟨root, spans, ignores⟩ := DeviceTree.parse_ignores_nops_iff
    (show (⟨4096⟩ : DeviceTreeHeadersRaw).address % 4 = 0 by decide)
    sampleMemory_offset returned
  have length : root.nopBefore.bytes.length < 256 := by
    have start := NodeBlock.sample_encodedAt.structureBlock_eq
    have small : NodeBlock.sample.bytes.length < 252 := by decide
    have ends := spans.cursor
    rw [show (⟨4096⟩ : DeviceTreeHeadersRaw).structureBlock sampleMemory =
      4096 + blobStructureOffset from start] at ends
    rw [root.nopBefore_bytes, List.length_append, length_tokenBytes]
    omega
  obtain ⟨tree', cursor', pools', parsed, cpuid, same⟩ :=
    (ignores _ _ 0 256 (.sample spans) length (Nat.le_refl _)).mpr rfl
  exact ⟨_, pools, tree', cursor', pools', returned, parsed, cpuid, same⟩

/-- One NOP before `FDT_END`. -/
theorem DeviceTree.parse_nop_before_end :
    (∃ tree cursor pools, DeviceTree.parse sampleMemory 256 ⟨4096⟩ Pools.empty =
      .ok (tree, cursor, pools)) ∧
      NopsInserted sampleMemory
        (.ofBytes 4096 (gapBlobBytes 3 NodeBlock.sample sampleStrings 1)) ⟨4096⟩
        NodeBlock.sample NodeBlock.sample 1 ∧
      DeviceTree.parse
        (.ofBytes 4096 (gapBlobBytes 3 NodeBlock.sample sampleStrings 1))
        256 ⟨4096⟩ Pools.empty =
          .error (.panic "device tree structure not closed") := by
  have inserted : NopsInserted sampleMemory
      (.ofBytes 4096 (gapBlobBytes 3 NodeBlock.sample sampleStrings 1)) ⟨4096⟩
      NodeBlock.sample NodeBlock.sample 1 :=
    .of_blobs (ByteMemory.holds_ofBytes_self ..) (ByteMemory.holds_ofBytes_self ..)
      (.refl _) (by decide) (by decide) NodeBlock.sample_wellFormed.noNul
      NodeBlock.sample_named
  refine ⟨⟨_, _, DeviceTree.parse_sampleMemory⟩, inserted, ?_⟩
  obtain ⟨pools', _, parsed⟩ := inserted.parse NodeBlock.sample_encodedAt.checked
    (by
      rw [DeviceTreeHeadersRaw.structureBlock, Nat.add_mod]
      exact congrArg (fun rest => (4096 % 4 + rest) % 4) sampleMemory_offset)
    (NodeBlock.sample_encodedAt.at_root NodeBlock.sample_wellFormed)
    ⟨by decide, by decide⟩
    (show NodeBlock.sample.bytes.length < 256 by decide) (Nat.le_refl _)
  exact parsed

end Thos.Device
