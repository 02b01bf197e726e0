import Thos.Device.Blob
import Thos.Device.Storage

namespace Thos.Device

open Kernel

/-! Decoding and the capacity of the arrays. -/

variable {memory : ByteMemory} {rounds strings : Nat}

/-- `next_free` keeps back the last item of the limit it is given, and both
arrays give the limit of the nodes. -/
structure Tree.Fits (tree : Tree) : Prop where
  nodes : tree.nodeCount < numDeviceTreeNodes
  props : tree.propertyCount < numDeviceTreeNodes

theorem Pools.nextFreeNode_none {pools : Pools}
    (full : numDeviceTreeNodes ≤ pools.nodesNext + 1) :
    pools.nextFreeNode = (none, pools) := by
  have taken : pools.nodesNext ≥ numDeviceTreeNodes - 1 := by omega
  rw [nextFreeNode, nextFree, if_pos taken]

theorem Pools.nextFreeProp_none {pools : Pools}
    (full : numDeviceTreeNodes ≤ pools.propsNext + 1) :
    pools.nextFreeProp = (none, pools) := by
  have taken : pools.propsNext ≥ numDeviceTreeNodes - 1 := by omega
  rw [nextFreeProp, nextFree, if_pos taken]

theorem loadProperties_full {blocks : List PropertyBlock} {pools : Pools}
    {node : Nat} (strings address : Nat) {items : List Nat}
    (list : PropertyList pools node items)
    (enough : numDeviceTreeNodes ≤ rounds) (chain : items.length ≤ pools.propsNext)
    (fits : pools.propsNext < numDeviceTreeNodes)
    (full : numDeviceTreeNodes ≤ pools.propsNext + blocks.length) :
    loadProperties rounds strings node blocks address pools =
      .error .nullAccess := by
  induction blocks generalizing pools address items with
  | nil =>
      rw [List.length_nil] at full
      omega
  | cons block blocks induction =>
      rw [List.length_cons] at full
      by_cases room : pools.propsNext + 1 < numDeviceTreeNodes
      · obtain ⟨middle, linked, loaded, added, one, _⟩ :=
          block.load_linked (address + 4 * block.nops) list
            (show items.length < rounds by omega) room
        have next : linked.propsNext = pools.propsNext + 1 := one.propsNext
        have later := induction (address + block.bytes.length) one.list
          (by rw [List.length_append, List.length_singleton]; omega) (by omega)
          (by omega)
        rw [loadProperties, loaded]
        simp only [Outcome.ok_bind]
        rw [added]
        exact later
      · rw [loadProperties, PropertyBlock.load,
          Pools.nextFreeProp_none (Nat.le_of_not_lt room)]
        rfl

mutual
theorem NodeBlock.load_full : (block : NodeBlock) →
    ∀ (pools : Pools) (start : Nat), pools.Clear →
    numDeviceTreeNodes ≤ rounds →
    pools.nodesNext < numDeviceTreeNodes → pools.propsNext < numDeviceTreeNodes →
    (numDeviceTreeNodes ≤ pools.nodesNext + block.tree.nodeCount ∨
      numDeviceTreeNodes ≤ pools.propsNext + block.tree.propertyCount) →
    block.load rounds strings start pools = .error .nullAccess
  | .node nops name padding properties children endNops => by
      intro pools start clear enough nodesFit propsFit full
      simp only [NodeBlock.tree, Tree.nodeCount, Tree.propertyCount,
        List.length_map] at full
      by_cases room : pools.nodesNext + 1 < numDeviceTreeNodes
      · rw [NodeBlock.load_node clear room]
        by_cases propsRoom :
            pools.propsNext + properties.length < numDeviceTreeNodes
        · obtain ⟨middle, loaded, opened, _⟩ := loadProperties_opened strings
            (start + 4 + (name.length + (padding.length + 1))) (start + 4) clear
            (show properties.length < rounds + 1 by omega) propsRoom
          have middleNodes := opened.nodesNext
          have middleProps := opened.propsNext
          have failed := NodeBlocks.load_full children middle pools.nodesNext
            (start + 4 + (name.length + (padding.length + 1)) +
              (properties.flatMap PropertyBlock.bytes).length) []
            opened.children enough (Nat.zero_le _) (by omega) (by omega) (by omega)
          simp only [loaded, Outcome.ok_bind, failed, Outcome.error_bind]
        · have failed := loadProperties_full strings
            (start + 4 + (name.length + (padding.length + 1)))
            (Pools.takeNode_list clear (start + 4)) enough (Nat.zero_le _) propsFit
            (Nat.le_of_not_lt propsRoom)
          simp only [failed, Outcome.error_bind]
      · rw [NodeBlock.load, Pools.nextFreeNode_none (Nat.le_of_not_lt room)]
        rfl

theorem NodeBlocks.load_full : (blocks : NodeBlocks) →
    ∀ (pools : Pools) (node address : Nat) (items : List Nat),
    ChildList pools node items →
    numDeviceTreeNodes ≤ rounds → items.length ≤ pools.nodesNext →
    pools.nodesNext < numDeviceTreeNodes → pools.propsNext < numDeviceTreeNodes →
    (numDeviceTreeNodes ≤ pools.nodesNext + blocks.forest.nodeCount ∨
      numDeviceTreeNodes ≤ pools.propsNext + blocks.forest.propertyCount) →
    blocks.load rounds strings node address pools = .error .nullAccess
  | .nil => by
      intro pools node address items _ _ _ nodesFit propsFit full
      simp only [NodeBlocks.forest, Forest.nodeCount, Forest.propertyCount] at full
      omega
  | .cons first rest => by
      intro pools node address items list enough chain nodesFit propsFit full
      simp only [NodeBlocks.forest, Forest.nodeCount, Forest.propertyCount] at full
      have positive := first.tree.nodeCount_pos
      by_cases room : pools.nodesNext + first.tree.nodeCount < numDeviceTreeNodes ∧
          pools.propsNext + first.tree.propertyCount < numDeviceTreeNodes
      · obtain ⟨middle, loaded, added, placed⟩ := NodeBlock.load_placed first pools
          (address + 4 * first.nops) list.clear enough room.1 room.2
        obtain ⟨linked, link, one, _⟩ :=
          added.link placed list (show items.length < rounds by omega)
        have nodesNext := one.nodesNext
        have propsNext := one.propsNext
        have failed := NodeBlocks.load_full rest linked node
          (address + first.bytes.length) _ one.list enough
          (by rw [List.length_append, List.length_singleton]; omega)
          (by omega) (by omega) (by omega)
        rw [NodeBlocks.load, loaded]
        simp only [Outcome.ok_bind]
        rw [link]
        exact failed
      · rw [NodeBlocks.load, NodeBlock.load_full first pools _ list.clear enough
          nodesFit propsFit (by omega)]
        rfl
end

theorem NodeBlock.load_unfit {block : NodeBlock} (start : Nat)
    (full : ¬block.tree.Fits) (enough : numDeviceTreeNodes ≤ rounds) :
    block.load rounds strings start Pools.empty = .error .nullAccess := by
  refine block.load_full Pools.empty start Pools.empty_clear enough (by decide)
    (by decide) ?_
  have noNodes : Pools.empty.nodesNext = 0 := rfl
  have noProps : Pools.empty.propsNext = 0 := rfl
  by_contra fits
  exact full ⟨by omega, by omega⟩

section

variable {header : DeviceTreeHeadersRaw} {cpuid structOffset stringsOffset : UInt32}
  {root : NodeBlock}

/-- Every node and every property has an item of its own, in document order and
inside its array. -/
structure Tree.HasItems (memory : ByteMemory) (pools : Pools) (tree : Tree) :
    Prop where
  stored : tree.Stored memory pools 0 0
  nodes : pools.nodesNext = tree.nodeCount ∧ tree.nodeCount ≤ numDeviceTreeNodes
  props : pools.propsNext = tree.propertyCount ∧
    tree.propertyCount ≤ numDeviceTreeProperties

theorem DeviceTree.parse_placed
    (encoded : EncodedAt memory header cpuid structOffset stringsOffset root)
    (wellFormed : root.WellFormed) (fits : root.tree.Fits)
    (enough : root.bytes.length < rounds) (items : numDeviceTreeNodes ≤ rounds) :
    ∃ pools, DeviceTree.parse memory rounds header Pools.empty =
        .ok (⟨cpuid, 0⟩, header.address + structOffset.toNat + root.bytes.length,
          pools) ∧
      TreeAdded Pools.empty pools root.tree ∧
      root.Placed (header.address + stringsOffset.toNat) pools
        (header.address + structOffset.toNat + 4 * root.nops) 0 0 := by
  have nodes := fits.nodes
  have props := fits.props
  obtain ⟨pools, loaded, added, placed⟩ := NodeBlock.load_placed root Pools.empty _
    Pools.empty_clear items
    (show 0 + root.tree.nodeCount < _ by omega)
    (show 0 + root.tree.propertyCount < _ by omega)
  refine ⟨pools, ?_, added, placed⟩
  rw [DeviceTree.parse_encoded _ encoded wellFormed enough, loaded]
  rfl

theorem DeviceTree.parse_fits
    (encoded : EncodedAt memory header cpuid structOffset stringsOffset root)
    (wellFormed : root.WellFormed) (fits : root.tree.Fits)
    (enough : root.bytes.length < rounds) (items : numDeviceTreeNodes ≤ rounds) :
    ∃ pools, DeviceTree.parse memory rounds header Pools.empty =
        .ok (⟨cpuid, 0⟩, header.address + structOffset.toNat + root.bytes.length,
          pools) ∧
      root.tree.HasItems memory pools ∧ (pools.nodes 0).next = none ∧
        pools.Clear := by
  have held := (ByteMemory.holds_append.mp encoded.structureBlock).1
  rw [NodeBlock.bytes, ByteMemory.holds_append, length_nopBytes] at held
  obtain ⟨pools, parsed, added, placed⟩ :=
    DeviceTree.parse_placed encoded wellFormed fits enough items
  refine ⟨pools, parsed, ⟨?_, ?_, ?_⟩, added.next, added.clear⟩
  · exact placed.stored held.2 encoded.strings
  · exact ⟨added.nodesNext.trans (Nat.zero_add _), Nat.le_of_lt fits.nodes⟩
  · refine ⟨added.propsNext.trans (Nat.zero_add _), ?_⟩
    exact Nat.le_trans (Nat.le_of_lt fits.props) (by decide)

theorem DeviceTree.parse_full
    (encoded : EncodedAt memory header cpuid structOffset stringsOffset root)
    (wellFormed : root.WellFormed) (full : ¬root.tree.Fits)
    (enough : root.bytes.length < rounds) (items : numDeviceTreeNodes ≤ rounds) :
    DeviceTree.parse memory rounds header Pools.empty = .error .nullAccess := by
  rw [DeviceTree.parse_encoded _ encoded wellFormed enough,
    NodeBlock.load_unfit _ full items]
  rfl

/-- Decoding undoes encoding, whatever NOPs, padding and name offsets the blob
has, and leaves the cursor on the `FDT_END` behind the root. -/
theorem DeviceTree.parse_undoes_encoding
    (encoded : EncodedAt memory header cpuid structOffset stringsOffset root)
    (wellFormed : root.WellFormed) (nodes : root.tree.nodeCount < 256)
    (props : root.tree.propertyCount < 256)
    (enough : root.bytes.length < rounds) (items : numDeviceTreeNodes ≤ rounds) :
    ∃ tree cursor pools,
      DeviceTree.parse memory rounds header Pools.empty = .ok (tree, cursor, pools) ∧
        tree.bootCpuidPhys = cpuid ∧ root.tree.Stored memory pools tree.root 0 ∧
        (pools.nodes tree.root).next = none ∧
        cursor = header.address + structOffset.toNat + root.bytes.length ∧
        isToken memory cursor .structureEnd := by
  obtain ⟨pools, parsed, items, sibling, _⟩ :=
    DeviceTree.parse_fits encoded wellFormed ⟨nodes, props⟩ enough items
  refine ⟨_, _, pools, parsed, rfl, items.stored, sibling, rfl, ?_⟩
  exact isToken_of_holds .structureEnd
    (ByteMemory.holds_append.mp encoded.structureBlock).2

/-- `/`, with the properties `a` and `bc`, and its child `cpu`. -/
def NodeBlock.sample : NodeBlock :=
  .node 1 [] [0, 0, 0]
    [⟨0, 0, ⟨[97], [1, 2, 3]⟩, [0]⟩, ⟨2, 2, ⟨[98, 99], []⟩, []⟩]
    (.cons (.node 0 [99, 112, 117] [] [] .nil 0) .nil) 1

def sampleStrings : List UInt8 := [97, 0, 98, 99, 0]

theorem NodeBlock.sample_wellFormed : NodeBlock.sample.WellFormed := by
  refine ⟨by decide, rfl, ?_, ⟨by decide, rfl, by simp, trivial⟩, trivial⟩
  intro block member
  simp only [List.mem_cons, List.not_mem_nil, or_false] at member
  rcases member with rfl | rfl
  · exact ⟨by decide, rfl, by decide⟩
  · exact ⟨by decide, rfl, by decide⟩

theorem NodeBlock.sample_named :
    ∀ block ∈ NodeBlock.sample.allProperties, block.NamedIn sampleStrings := by
  intro block member
  simp only [sample, allProperties, NodeBlocks.allProperties, List.append_nil,
    List.mem_cons, List.not_mem_nil, or_false] at member
  rcases member with rfl | rfl
  · exact ⟨[98, 99, 0], rfl⟩
  · exact ⟨[], rfl⟩

theorem NodeBlock.sample_encodedAt :
    EncodedAt (.ofBytes 4096 (blobBytes 3 NodeBlock.sample sampleStrings)) ⟨4096⟩ 3
      (UInt32.ofNat blobStructureOffset)
      (UInt32.ofNat (blobStringsOffset NodeBlock.sample)) NodeBlock.sample :=
  blobBytes_encodedAt (by decide) (by decide) sample_named

theorem DeviceTree.parse_undoes_encoding_sample :
    ∃ tree cursor pools,
      DeviceTree.parse (.ofBytes 4096 (blobBytes 3 NodeBlock.sample sampleStrings))
        256 ⟨4096⟩ Pools.empty = .ok (tree, cursor, pools) ∧
      tree.bootCpuidPhys = 3 ∧
      NodeBlock.sample.tree.Stored
        (.ofBytes 4096 (blobBytes 3 NodeBlock.sample sampleStrings)) pools
        tree.root 0 ∧
      (pools.nodes tree.root).next = none ∧
      cursor = 4096 + blobStructureOffset + NodeBlock.sample.bytes.length ∧
      isToken (.ofBytes 4096 (blobBytes 3 NodeBlock.sample sampleStrings)) cursor
        .structureEnd := by
  obtain ⟨tree, cursor, pools, parsed, cpuid, stored, sibling, ends, closed⟩ :=
    DeviceTree.parse_undoes_encoding NodeBlock.sample_encodedAt
      NodeBlock.sample_wellFormed (by decide) (by decide)
      (show NodeBlock.sample.bytes.length < 256 by decide) (Nat.le_refl _)
  exact ⟨tree, cursor, pools, parsed, cpuid, stored, sibling, ends, closed⟩

/-- The arrays hold 255 nodes and 255 properties. -/
theorem DeviceTree.parse_has_items_iff
    (encoded : EncodedAt memory header cpuid structOffset stringsOffset root)
    (wellFormed : root.WellFormed)
    (enough : root.bytes.length < rounds) (items : numDeviceTreeNodes ≤ rounds) :
    (∃ tree cursor pools,
      DeviceTree.parse memory rounds header Pools.empty = .ok (tree, cursor, pools) ∧
        root.tree.HasItems memory pools) ↔
      root.tree.nodeCount ≤ 255 ∧ root.tree.propertyCount ≤ 255 := by
  constructor
  · rintro ⟨tree, cursor, pools, parsed, _⟩
    by_contra full
    rw [DeviceTree.parse_full encoded wellFormed (fun fits => full
      ⟨Nat.le_of_lt_succ fits.nodes, Nat.le_of_lt_succ fits.props⟩) enough items]
      at parsed
    contradiction
  · rintro ⟨nodes, props⟩
    obtain ⟨pools, parsed, taken, _⟩ := DeviceTree.parse_fits encoded wellFormed
      ⟨Nat.lt_succ_of_le nodes, Nat.lt_succ_of_le props⟩ enough items
    exact ⟨_, _, pools, parsed, taken⟩

theorem DeviceTree.parse_has_items_iff_sample :
    ∃ tree cursor pools,
      DeviceTree.parse (.ofBytes 4096 (blobBytes 3 NodeBlock.sample sampleStrings))
        256 ⟨4096⟩ Pools.empty = .ok (tree, cursor, pools) ∧
      NodeBlock.sample.tree.HasItems
        (.ofBytes 4096 (blobBytes 3 NodeBlock.sample sampleStrings)) pools :=
  (DeviceTree.parse_has_items_iff NodeBlock.sample_encodedAt
    NodeBlock.sample_wellFormed
    (show NodeBlock.sample.bytes.length < 256 by decide) (Nat.le_refl _)).mpr
      (by decide)

def NodeBlock.crowded (count : Nat) : NodeBlock :=
  .node 0 [] [0, 0, 0] (List.replicate count ⟨0, 0, ⟨[], []⟩, []⟩) .nil 0

theorem NodeBlock.crowded_wellFormed (count : Nat) : (crowded count).WellFormed := by
  refine ⟨by simp, rfl, ?_, trivial⟩
  intro block member
  rw [List.eq_of_mem_replicate member]
  exact ⟨by decide, rfl, by simp⟩

theorem NodeBlock.crowded_named (count : Nat) :
    ∀ block ∈ (crowded count).allProperties, block.NamedIn [0] := by
  intro block member
  rw [crowded, allProperties, NodeBlocks.allProperties, List.append_nil] at member
  rw [List.eq_of_mem_replicate member]
  exact ⟨[], rfl⟩

theorem NodeBlock.crowded_properties (count : Nat) :
    (crowded count).tree.propertyCount = count := by
  rw [crowded, NodeBlock.tree, Tree.propertyCount, List.length_map,
    List.length_replicate]
  rfl

theorem NodeBlock.length_crowded (count : Nat) :
    (crowded count).bytes.length = 12 + 12 * count := by
  have properties : ((List.replicate count
      (⟨0, 0, ⟨[], []⟩, []⟩ : PropertyBlock)).flatMap
        PropertyBlock.bytes).length = 12 * count := by
    rw [List.length_flatMap, List.map_replicate, List.sum_replicate_nat]
    exact Nat.mul_comm ..
  rw [NodeBlock.length_bytes, crowded, NodeBlock.length_core, properties]
  simp only [NodeBlock.nops, NodeBlocks.bytes, List.length_cons, List.length_nil]
  omega

theorem DeviceTree.parse_crowded {count : Nat} (many : 256 ≤ count)
    (few : count < 2 ^ 20) :
    ∀ rounds, (NodeBlock.crowded count).bytes.length < rounds →
      DeviceTree.parse (.ofBytes 4096 (blobBytes 0 (NodeBlock.crowded count) [0]))
        rounds ⟨4096⟩ Pools.empty = .error .nullAccess := by
  have properties := NodeBlock.crowded_properties count
  have length := NodeBlock.length_crowded count
  have small : blobStringsOffset (NodeBlock.crowded count) < 2 ^ 32 := by
    rw [blobStringsOffset, structureBytes, List.length_append, length,
      length_tokenBytes, blobStructureOffset]
    omega
  intro rounds enough
  apply DeviceTree.parse_full
    (blobBytes_encodedAt (by decide) small (NodeBlock.crowded_named count))
    (NodeBlock.crowded_wellFormed count) _ enough
  · rw [length] at enough
    have limit : numDeviceTreeNodes = 256 := rfl
    omega
  · intro fits
    have bound := fits.props
    rw [properties] at bound
    exact absurd many (Nat.not_le_of_lt bound)

/-- One node with 256 properties is more than the arrays hold: the last one is
stored through `NULL`. -/
theorem DeviceTree.parse_crowded_null :
    (NodeBlock.crowded 256).tree.nodeCount ≤ numDeviceTreeNodes ∧
      (NodeBlock.crowded 256).tree.propertyCount ≤ numDeviceTreeProperties ∧
      ∀ rounds, (NodeBlock.crowded 256).bytes.length < rounds →
        DeviceTree.parse (.ofBytes 4096 (blobBytes 0 (NodeBlock.crowded 256) [0]))
          rounds ⟨4096⟩ Pools.empty = .error .nullAccess := by
  refine ⟨by decide, ?_, DeviceTree.parse_crowded (Nat.le_refl _) (by decide)⟩
  rw [NodeBlock.crowded_properties]
  decide

/-! A blob of more nodes or properties than the arrays hold. -/

/-- The returned tree has every node and every property, and nothing was stored
outside the arrays. -/
structure DeviceTree.Complete (memory : ByteMemory) (cpuid : UInt32) (tree : Tree)
    (returned : DeviceTree) (pools : Pools) : Prop where
  bootCpuidPhys : returned.bootCpuidPhys = cpuid
  stored : tree.Stored memory pools returned.root 0
  sibling : (pools.nodes returned.root).next = none
  nodes : ∀ item, numDeviceTreeNodes ≤ item →
    pools.nodes item = Pools.empty.nodes item
  props : ∀ prop, numDeviceTreeProperties ≤ prop →
    pools.props prop = Pools.empty.props prop

/-- A parse returns the complete tree or stops in `PANIC`. -/
def DeviceTree.HandlesExhaustion (memory : ByteMemory) (cpuid : UInt32)
    (tree : Tree) (outcome : Outcome (DeviceTree × Nat × Pools)) : Prop :=
  match outcome with
  | .ok (returned, _, pools) => DeviceTree.Complete memory cpuid tree returned pools
  | .error stop => ∃ reason, stop = .panic reason

theorem Pools.Clear.complete {pools : Pools} {cpuid : UInt32} {tree : Tree}
    (clear : pools.Clear) (items : tree.HasItems memory pools)
    (sibling : (pools.nodes 0).next = none) :
    DeviceTree.Complete memory cpuid tree ⟨cpuid, 0⟩ pools where
  bootCpuidPhys := rfl
  stored := items.stored
  sibling := sibling
  nodes item outside := by
    apply clear.nodes
    rw [items.nodes.1]
    exact Nat.le_trans items.nodes.2 outside
  props prop outside := by
    apply clear.props
    rw [items.props.1]
    exact Nat.le_trans items.props.2 outside

theorem DeviceTree.parse_handles_exhaustion_iff
    (encoded : EncodedAt memory header cpuid structOffset stringsOffset root)
    (wellFormed : root.WellFormed)
    (enough : root.bytes.length < rounds) (items : numDeviceTreeNodes ≤ rounds) :
    DeviceTree.HandlesExhaustion memory cpuid root.tree
        (DeviceTree.parse memory rounds header Pools.empty) ↔
      root.tree.nodeCount ≤ 255 ∧ root.tree.propertyCount ≤ 255 := by
  constructor
  · intro handles
    by_contra full
    rw [DeviceTree.parse_full encoded wellFormed (fun fits => full
      ⟨Nat.le_of_lt_succ fits.nodes, Nat.le_of_lt_succ fits.props⟩) enough items]
      at handles
    obtain ⟨reason, same⟩ := handles
    contradiction
  · rintro ⟨nodes, props⟩
    obtain ⟨pools, parsed, taken, sibling, clear⟩ := DeviceTree.parse_fits encoded
      wellFormed ⟨Nat.lt_succ_of_le nodes, Nat.lt_succ_of_le props⟩ enough items
    rw [parsed]
    exact clear.complete taken sibling

theorem DeviceTree.parse_handles_exhaustion_iff_sample :
    DeviceTree.HandlesExhaustion
      (.ofBytes 4096 (blobBytes 3 NodeBlock.sample sampleStrings)) 3
      NodeBlock.sample.tree
      (DeviceTree.parse (.ofBytes 4096 (blobBytes 3 NodeBlock.sample sampleStrings))
        256 ⟨4096⟩ Pools.empty) :=
  (DeviceTree.parse_handles_exhaustion_iff NodeBlock.sample_encodedAt
    NodeBlock.sample_wellFormed
    (show NodeBlock.sample.bytes.length < 256 by decide) (Nat.le_refl _)).mpr
      (by decide)

/-- One property more than the array has items: neither the whole tree nor a
panic, but a store through `NULL`. -/
theorem DeviceTree.parse_exhausted_null :
    (NodeBlock.crowded 1025).WellFormed ∧
      numDeviceTreeProperties < (NodeBlock.crowded 1025).tree.propertyCount ∧
      ∀ rounds, (NodeBlock.crowded 1025).bytes.length < rounds →
        ¬ DeviceTree.HandlesExhaustion
          (.ofBytes 4096 (blobBytes 0 (NodeBlock.crowded 1025) [0])) 0
          (NodeBlock.crowded 1025).tree
          (DeviceTree.parse (.ofBytes 4096 (blobBytes 0 (NodeBlock.crowded 1025) [0]))
            rounds ⟨4096⟩ Pools.empty) := by
  refine ⟨NodeBlock.crowded_wellFormed 1025, ?_, ?_⟩
  · rw [NodeBlock.crowded_properties]
    decide
  · intro rounds enough
    rw [DeviceTree.parse_crowded (by decide) (by decide) rounds enough]
    rintro ⟨reason, same⟩
    contradiction

end

end Thos.Device
