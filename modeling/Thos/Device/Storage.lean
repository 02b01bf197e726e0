import Thos.Device.Loading
import Mathlib.Data.List.Nodup

namespace Thos.Device

open Data.LinkedList
open Thos.Kernel

/-! A loaded tree in the arrays: items are taken in document order. -/

variable {memory : ByteMemory} {rounds strings : Nat}

def Forest.items : Forest → Nat → List Nat
  | .nil, _ => []
  | .cons first rest, item => item :: rest.items (item + first.nodeCount)

structure Property.Stored (memory : ByteMemory) (pools : Pools) (prop : Nat)
    (property : Property) : Prop where
  name : memory.Holds (pools.props prop).name (property.name ++ [0])
  valueLen : (pools.props prop).valueLen = property.value.length
  value : memory.Holds (pools.props prop).value property.value

def PropertiesStored (memory : ByteMemory) (pools : Pools) :
    List Property → Nat → Prop
  | [], _ => True
  | property :: properties, prop =>
      property.Stored memory pools prop ∧
        PropertiesStored memory pools properties (prop + 1)

mutual
/-- The tree is stored from node `item` and from property `prop` on. -/
def Tree.Stored (memory : ByteMemory) (pools : Pools) : Tree → Nat → Nat → Prop
  | .node name properties children, item, prop =>
      memory.Holds (pools.nodes item).name (name ++ [0]) ∧
        (pools.propertyLinks item).Path .base
          (List.range' prop properties.length) ∧
        PropertiesStored memory pools properties prop ∧
        (pools.childLinks item).Path .base (children.items (item + 1)) ∧
        children.Stored memory pools (item + 1) (prop + properties.length)

def Forest.Stored (memory : ByteMemory) (pools : Pools) :
    Forest → Nat → Nat → Prop
  | .nil, _, _ => True
  | .cons first rest, item, prop =>
      first.Stored memory pools item prop ∧
        rest.Stored memory pools (item + first.nodeCount)
          (prop + first.propertyCount)
end

structure PropertyBlock.Placed (strings : Nat) (pools : Pools)
    (block : PropertyBlock) (start prop : Nat) : Prop where
  name : (pools.props prop).name = strings + block.nameoff.toNat
  value : (pools.props prop).value = start + 12
  valueLen : (pools.props prop).valueLen = block.property.value.length

def PropertiesPlaced (strings : Nat) (pools : Pools) :
    List PropertyBlock → Nat → Nat → Prop
  | [], _, _ => True
  | block :: blocks, address, prop =>
      block.Placed strings pools (address + 4 * block.nops) prop ∧
        PropertiesPlaced strings pools blocks (address + block.bytes.length)
          (prop + 1)

mutual
/-- The items from node `item` and property `prop` on are the tree whose
`FDT_BEGIN_NODE` is at `start`. -/
def NodeBlock.Placed (strings : Nat) (pools : Pools) :
    NodeBlock → Nat → Nat → Nat → Prop
  | .node _ name padding properties children _, start, item, prop =>
      (pools.nodes item).name = start + 4 ∧
        (pools.propertyLinks item).Path .base
          (List.range' prop properties.length) ∧
        PropertiesPlaced strings pools properties
          (start + 4 + (name.length + (padding.length + 1))) prop ∧
        (pools.childLinks item).Path .base (children.forest.items (item + 1)) ∧
        children.Placed strings pools
          (start + 4 + (name.length + (padding.length + 1)) +
            (properties.flatMap PropertyBlock.bytes).length) (item + 1)
          (prop + properties.length)

def NodeBlocks.Placed (strings : Nat) (pools : Pools) :
    NodeBlocks → Nat → Nat → Nat → Prop
  | .nil, _, _, _ => True
  | .cons first rest, address, item, prop =>
      first.Placed strings pools (address + 4 * first.nops) item prop ∧
        rest.Placed strings pools (address + first.bytes.length)
          (item + first.tree.nodeCount) (prop + first.tree.propertyCount)
end

structure Pools.Clear (pools : Pools) : Prop where
  nodes : ∀ item, pools.nodesNext ≤ item → pools.nodes item = ⟨0, none, none, none⟩
  props : ∀ item, pools.propsNext ≤ item → pools.props item = ⟨0, 0, 0, none⟩

theorem Pools.empty_clear : Pools.empty.Clear :=
  ⟨fun _ _ => rfl, fun _ _ => rfl⟩

/-! Items. -/

theorem Tree.nodeCount_pos (tree : Tree) : 0 < tree.nodeCount := by
  cases tree with
  | node name properties children =>
      rw [Tree.nodeCount]
      exact Nat.lt_of_lt_of_le Nat.one_pos (Nat.le_add_right ..)

theorem Forest.items_bounds : (forest : Forest) → ∀ {start item : Nat},
    item ∈ forest.items start → start ≤ item ∧ item < start + forest.nodeCount
  | .nil, _, _, member => by contradiction
  | .cons first rest, start, item, member => by
      have positive := first.nodeCount_pos
      rw [Forest.nodeCount]
      cases List.mem_cons.mp member with
      | inl here => omega
      | inr later =>
          have bounds := rest.items_bounds later
          omega

theorem PropertyBlock.Placed.congr {before after : Pools} {block : PropertyBlock}
    {start prop : Nat} (placed : block.Placed strings before start prop)
    (same : after.props prop =
      { before.props prop with next := (after.props prop).next }) :
    block.Placed strings after start prop := by
  constructor
  · rw [same]
    exact placed.name
  · rw [same]
    exact placed.value
  · rw [same]
    exact placed.valueLen

theorem PropertiesPlaced.congr {before after : Pools} {blocks : List PropertyBlock}
    {address prop : Nat}
    (placed : PropertiesPlaced strings before blocks address prop)
    (same : ∀ other, prop ≤ other → other < prop + blocks.length →
      after.props other =
        { before.props other with next := (after.props other).next }) :
    PropertiesPlaced strings after blocks address prop := by
  induction blocks generalizing address prop with
  | nil => trivial
  | cons block blocks induction =>
      rw [List.length_cons] at same
      constructor
      · exact placed.1.congr (same prop (Nat.le_refl _) (by omega))
      · apply induction placed.2
        intro other first last
        exact same other (by omega) (by omega)

mutual
theorem NodeBlock.Placed.congr {before after : Pools} : {block : NodeBlock} →
    {start item prop : Nat} → block.Placed strings before start item prop →
    after.nodes item =
      { before.nodes item with next := (after.nodes item).next } →
    (∀ other, item < other → other < item + block.tree.nodeCount →
      after.nodes other = before.nodes other) →
    (∀ other, prop ≤ other → other < prop + block.tree.propertyCount →
      after.props other = before.props other) →
    block.Placed strings after start item prop
  | .node nops name padding properties children endNops, start, item, prop, placed,
      root, nodes, props => by
      obtain ⟨named, propertyPath, propertiesPlaced, childPath, childrenPlaced⟩ :=
        placed
      simp only [NodeBlock.tree, Tree.nodeCount, Tree.propertyCount,
        List.length_map] at nodes props
      refine ⟨?_, ?_, ?_, ?_, ?_⟩
      · rw [root]
        exact named
      · apply propertyPath.congr
        · show (after.nodes item).properties = (before.nodes item).properties
          rw [root]
        · intro other member
          have bounds := List.mem_range'_1.mp member
          exact congrArg DeviceTreeProperty.next (props other (by omega) (by omega))
      · apply propertiesPlaced.congr
        intro other first last
        rw [props other first (by omega)]
      · apply childPath.congr
        · show (after.nodes item).child = (before.nodes item).child
          rw [root]
        · intro other member
          have bounds := children.forest.items_bounds member
          exact congrArg DeviceTreeNode.next (nodes other (by omega) (by omega))
      · apply NodeBlocks.Placed.congr childrenPlaced
        · intro other first last
          exact nodes other (by omega) (by omega)
        · intro other first last
          exact props other (by omega) (by omega)

theorem NodeBlocks.Placed.congr {before after : Pools} : {blocks : NodeBlocks} →
    {address item prop : Nat} → blocks.Placed strings before address item prop →
    (∀ other, item ≤ other → other < item + blocks.forest.nodeCount →
      after.nodes other = before.nodes other) →
    (∀ other, prop ≤ other → other < prop + blocks.forest.propertyCount →
      after.props other = before.props other) →
    blocks.Placed strings after address item prop
  | .nil, _, _, _, _, _, _ => trivial
  | .cons first rest, address, item, prop, placed, nodes, props => by
      have positive := first.tree.nodeCount_pos
      simp only [NodeBlocks.forest, Forest.nodeCount, Forest.propertyCount]
        at nodes props
      constructor
      · apply NodeBlock.Placed.congr placed.1
        · rw [nodes item (Nat.le_refl _) (by omega)]
        · intro other first last
          exact nodes other (by omega) (by omega)
        · intro other first last
          exact props other (by omega) (by omega)
      · apply NodeBlocks.Placed.congr placed.2
        · intro other first last
          exact nodes other (by omega) (by omega)
        · intro other first last
          exact props other (by omega) (by omega)
end

/-! What the memory holds of a placed tree. -/

theorem PropertyBlock.Placed.stored {pools : Pools} {block : PropertyBlock}
    {start prop : Nat} (placed : block.Placed strings pools start prop)
    (held : memory.Holds start block.core) (named : block.Named memory strings) :
    block.property.Stored memory pools prop := by
  simp only [PropertyBlock.core, ByteMemory.holds_append, length_tokenBytes,
    length_bigEndian] at held
  constructor
  · rw [placed.name]
    exact named
  · exact placed.valueLen
  · rw [placed.value]
    exact held.2.2.2.1

theorem PropertiesPlaced.stored {pools : Pools} {blocks : List PropertyBlock}
    {address prop : Nat} (placed : PropertiesPlaced strings pools blocks address prop)
    (held : memory.Holds address (blocks.flatMap PropertyBlock.bytes))
    (named : ∀ block ∈ blocks, block.Named memory strings) :
    PropertiesStored memory pools (blocks.map PropertyBlock.property) prop := by
  induction blocks generalizing address prop with
  | nil => trivial
  | cons block blocks induction =>
      rw [List.flatMap_cons, ByteMemory.holds_append] at held
      constructor
      · exact placed.1.stored (PropertyBlock.holds_core held.1)
          (named block (List.mem_cons_self ..))
      · exact induction placed.2 held.2 fun other member =>
          named other (List.mem_cons_of_mem _ member)

theorem NodeBlock.holds_name {nops endNops start : Nat} {name padding : List UInt8}
    {properties : List PropertyBlock} {children : NodeBlocks}
    (held : memory.Holds start
      (NodeBlock.node nops name padding properties children endNops).core) :
    memory.Holds (start + 4) (name ++ [0]) := by
  rw [NodeBlock.core, ByteMemory.holds_append, length_tokenBytes] at held
  have rest := ByteMemory.holds_append.mp held.2
  exact ByteMemory.holds_append.mpr ⟨rest.1, rest.2.1, trivial⟩

mutual
theorem NodeBlock.Placed.stored {pools : Pools} : {block : NodeBlock} →
    {start item prop : Nat} → block.Placed strings pools start item prop →
    memory.Holds start block.core →
    (∀ property ∈ block.allProperties, property.Named memory strings) →
    block.tree.Stored memory pools item prop
  | .node nops name padding properties children endNops, start, item, prop, placed,
      held, named => by
      obtain ⟨nameAt, propertyPath, propertiesPlaced, childPath, childrenPlaced⟩ :=
        placed
      obtain ⟨propertiesHeld, childrenHeld, _⟩ := NodeBlock.holds_body held
      refine ⟨?_, ?_, ?_, childPath, ?_⟩
      · rw [nameAt]
        exact NodeBlock.holds_name held
      · rw [List.length_map]
        exact propertyPath
      · exact propertiesPlaced.stored propertiesHeld fun property member =>
          named property (List.mem_append_left _ member)
      · rw [List.length_map]
        exact NodeBlocks.Placed.stored childrenPlaced childrenHeld
          fun property member => named property (List.mem_append_right _ member)

theorem NodeBlocks.Placed.stored {pools : Pools} : {blocks : NodeBlocks} →
    {address item prop : Nat} → blocks.Placed strings pools address item prop →
    memory.Holds address blocks.bytes →
    (∀ property ∈ blocks.allProperties, property.Named memory strings) →
    blocks.forest.Stored memory pools item prop
  | .nil, _, _, _, _, _, _ => trivial
  | .cons first rest, address, item, prop, placed, held, named => by
      simp only [NodeBlocks.bytes, ByteMemory.holds_append, length_nopBytes,
        List.length_append] at held
      constructor
      · exact NodeBlock.Placed.stored placed.1 held.1.2 fun property member =>
          named property (List.mem_append_left _ member)
      · refine NodeBlocks.Placed.stored placed.2 ?_ fun property member =>
          named property (List.mem_append_right _ member)
        rw [first.length_bytes]
        exact held.2
end

/-! Links. -/

namespace Pools

theorem propertyLinks_setPropertyLink (pools : Pools) (node prop : Nat)
    (link : Link Nat) :
    (pools.setPropertyLink node prop link).propertyLinks node =
      (pools.propertyLinks node).write link (some prop) := by
  cases link with
  | base => simp [propertyLinks, setPropertyLink, setNode, Links.write]
  | after item =>
      simp only [propertyLinks, setPropertyLink, setProp, Links.write]
      congr 1
      funext other
      by_cases same : other = item
      · simp [same]
      · simp [Function.update_of_ne same]

theorem childLinks_setChildLink (pools : Pools) (node child : Nat)
    (link : Link Nat) (other : link ≠ .after node) :
    (pools.setChildLink node child link).childLinks node =
      (pools.childLinks node).write link (some child) := by
  cases link with
  | base =>
      simp only [childLinks, setChildLink, setNode, Links.write]
      congr 1
      · simp
      · funext item
        by_cases same : item = node
        · simp [same]
        · simp [Function.update_of_ne same]
  | after item =>
      have different : node ≠ item := fun equal => other (by rw [equal])
      simp only [childLinks, setChildLink, setNode, Links.write]
      congr 1
      · simp [Function.update_of_ne different]
      · funext cell
        by_cases same : cell = item
        · simp [same]
        · simp [Function.update_of_ne same]

section

variable (pools : Pools) (node child prop : Nat) (link : Link Nat)

@[simp] theorem setPropertyLink_nodesNext :
    (pools.setPropertyLink node prop link).nodesNext = pools.nodesNext := by
  cases link <;> rfl

@[simp] theorem setPropertyLink_propsNext :
    (pools.setPropertyLink node prop link).propsNext = pools.propsNext := by
  cases link <;> rfl

theorem setPropertyLink_nodes_of_ne {other : Nat} (different : other ≠ node) :
    (pools.setPropertyLink node prop link).nodes other = pools.nodes other := by
  cases link with
  | base => exact Function.update_of_ne different ..
  | after item => rfl

theorem setPropertyLink_nodes_same :
    (pools.setPropertyLink node prop link).nodes node =
      { pools.nodes node with
        properties :=
          ((pools.setPropertyLink node prop link).nodes node).properties } := by
  cases link with
  | base => simp [setPropertyLink, setNode]
  | after item => rfl

theorem setPropertyLink_props_of_ne {item : Nat} (different : link ≠ .after item) :
    (pools.setPropertyLink node prop link).props item = pools.props item := by
  cases link with
  | base => rfl
  | after cell =>
      apply Function.update_of_ne
      intro equal
      exact different (by rw [equal])

theorem setPropertyLink_props (item : Nat) :
    (pools.setPropertyLink node prop link).props item =
      { pools.props item with
        next := ((pools.setPropertyLink node prop link).props item).next } := by
  by_cases different : link = .after item
  · rw [different]
    simp [setPropertyLink, setProp]
  · rw [setPropertyLink_props_of_ne _ _ _ _ different]

@[simp] theorem setChildLink_nodesNext :
    (pools.setChildLink node child link).nodesNext = pools.nodesNext := by
  cases link <;> rfl

@[simp] theorem setChildLink_propsNext :
    (pools.setChildLink node child link).propsNext = pools.propsNext := by
  cases link <;> rfl

@[simp] theorem setChildLink_props :
    (pools.setChildLink node child link).props = pools.props := by
  cases link <;> rfl

theorem setChildLink_nodes_same (different : link ≠ .after node) :
    (pools.setChildLink node child link).nodes node =
      { pools.nodes node with
        child := ((pools.setChildLink node child link).nodes node).child } := by
  cases link with
  | base => simp [setChildLink, setNode]
  | after item =>
      have other : node ≠ item := fun equal => different (by rw [equal])
      simp [setChildLink, setNode, Function.update_of_ne other]

theorem setChildLink_nodes_of_ne {other : Nat} (notParent : other ≠ node)
    (different : link ≠ .after other) :
    (pools.setChildLink node child link).nodes other = pools.nodes other := by
  cases link with
  | base => exact Function.update_of_ne notParent ..
  | after item =>
      apply Function.update_of_ne
      intro equal
      exact different (by rw [equal])

theorem setChildLink_nodes {other : Nat} (notParent : other ≠ node) :
    (pools.setChildLink node child link).nodes other =
      { pools.nodes other with
        next := ((pools.setChildLink node child link).nodes other).next } := by
  by_cases different : link = .after other
  · rw [different]
    simp [setChildLink, setNode]
  · rw [setChildLink_nodes_of_ne _ _ _ _ notParent different]

end

theorem nextFreeNode_of_fits {pools : Pools}
    (fits : pools.nodesNext + 1 < numDeviceTreeNodes) :
    pools.nextFreeNode =
      (some pools.nodesNext, { pools with nodesNext := pools.nodesNext + 1 }) := by
  have free : ¬pools.nodesNext ≥ numDeviceTreeNodes - 1 := by omega
  rw [nextFreeNode, nextFree, if_neg free]

theorem nextFreeProp_of_fits {pools : Pools}
    (fits : pools.propsNext + 1 < numDeviceTreeNodes) :
    pools.nextFreeProp =
      (some pools.propsNext, { pools with propsNext := pools.propsNext + 1 }) := by
  have free : ¬pools.propsNext ≥ numDeviceTreeNodes - 1 := by omega
  rw [nextFreeProp, nextFree, if_neg free]

end Pools

/-! Properties. -/

structure PropertyList (pools : Pools) (node : Nat) (items : List Nat) : Prop where
  clear : pools.Clear
  taken : node < pools.nodesNext
  path : (pools.propertyLinks node).Path .base items
  distinct : items.Nodup
  bounds : ∀ item ∈ items, item < pools.propsNext

/-- `after` has `added` behind `items` in the property list of `node`. -/
structure PropertiesAdded (before after : Pools) (node : Nat)
    (items added : List Nat) : Prop where
  list : PropertyList after node (items ++ added)
  nodesNext : after.nodesNext = before.nodesNext
  propsNext : after.propsNext = before.propsNext + added.length
  keptNode : after.nodes node =
    { before.nodes node with properties := (after.nodes node).properties }
  otherNodes : ∀ other, other ≠ node → after.nodes other = before.nodes other
  oldProps : ∀ prop, prop < before.propsNext →
    after.props prop = { before.props prop with next := (after.props prop).next }
  keptProps : ∀ prop, prop < before.propsNext → prop ∉ items →
    after.props prop = before.props prop

theorem PropertiesAdded.refl {pools : Pools} {node : Nat} {items : List Nat}
    (list : PropertyList pools node items) :
    PropertiesAdded pools pools node items [] where
  list := by rwa [List.append_nil]
  nodesNext := rfl
  propsNext := rfl
  keptNode := rfl
  otherNodes _ _ := rfl
  oldProps _ _ := rfl
  keptProps _ _ _ := rfl

theorem PropertiesAdded.trans {before middle after : Pools} {node : Nat}
    {items first second : List Nat}
    (one : PropertiesAdded before middle node items first)
    (two : PropertiesAdded middle after node (items ++ first) second)
    (fresh : ∀ prop ∈ first, before.propsNext ≤ prop) :
    PropertiesAdded before after node items (first ++ second) where
  list := by rw [← List.append_assoc]; exact two.list
  nodesNext := two.nodesNext.trans one.nodesNext
  propsNext := by rw [two.propsNext, one.propsNext, List.length_append, Nat.add_assoc]
  keptNode := by rw [two.keptNode, one.keptNode]
  otherNodes other different :=
    (two.otherNodes other different).trans (one.otherNodes other different)
  oldProps prop old := by
    have later : prop < middle.propsNext := by rw [one.propsNext]; omega
    rw [two.oldProps prop later, one.oldProps prop old]
  keptProps prop old outside := by
    have later : prop < middle.propsNext := by rw [one.propsNext]; omega
    rw [two.keptProps prop later, one.keptProps prop old outside]
    intro member
    cases List.mem_append.mp member with
    | inl inside => exact outside inside
    | inr inside => exact absurd (fresh prop inside) (by omega)

theorem PropertyList.not_mem {pools : Pools} {node prop : Nat} {items : List Nat}
    (list : PropertyList pools node items)
    (later : pools.propsNext ≤ prop) : prop ∉ items :=
  fun member => absurd (list.bounds prop member) (Nat.not_lt.mpr later)

theorem PropertyList.link {pools : Pools} {node prop : Nat} {items : List Nat}
    (list : PropertyList pools node items)
    (fresh : prop ∉ items) (taken : prop < pools.propsNext)
    (last : (pools.props prop).next = none) :
    PropertyList (pools.setPropertyLink node prop (Links.lastLink .base items)) node
      (items ++ [prop]) where
  clear :=
    { nodes := by
        intro item untaken
        rw [Pools.setPropertyLink_nodesNext] at untaken
        rw [Pools.setPropertyLink_nodes_of_ne _ _ _ _
          (Nat.ne_of_gt (Nat.lt_of_lt_of_le list.taken untaken))]
        exact list.clear.nodes item untaken
      props := by
        intro item untaken
        rw [Pools.setPropertyLink_propsNext] at untaken
        rw [Pools.setPropertyLink_props_of_ne _ _ _ _
          (Links.lastLink_ne_after (list.not_mem untaken))]
        exact list.clear.props item untaken }
  taken := by
    rw [Pools.setPropertyLink_nodesNext]
    exact list.taken
  path := by
    rw [Pools.propertyLinks_setPropertyLink]
    exact list.path.append list.distinct fresh last
  distinct := by
    rw [← List.concat_eq_append]
    exact (List.nodup_concat items prop).mpr ⟨fresh, list.distinct⟩
  bounds := by
    rw [Pools.setPropertyLink_propsNext]
    exact List.forall_mem_append.mpr
      ⟨list.bounds, List.forall_mem_singleton.mpr taken⟩

theorem PropertyBlock.load_linked (block : PropertyBlock) (start : Nat)
    {pools : Pools} {node : Nat} {items : List Nat}
    (list : PropertyList pools node items)
    (enough : items.length < rounds)
    (fits : pools.propsNext + 1 < numDeviceTreeNodes) :
    ∃ middle after, block.load strings start pools = .ok (pools.propsNext, middle) ∧
      addLinked rounds (middle.propertyLinks node)
        (middle.setPropertyLink node pools.propsNext) = .ok after ∧
      PropertiesAdded pools after node items [pools.propsNext] ∧
      block.Placed strings after start pools.propsNext := by
  have empty := list.clear.props pools.propsNext (Nat.le_refl _)
  have fresh := list.not_mem (Nat.le_refl _)
  let middle : Pools :=
    { pools with
      propsNext := pools.propsNext + 1
      props := Function.update pools.props pools.propsNext
        ⟨strings + block.nameoff.toNat, start + 12,
          block.property.value.length, none⟩ }
  have loaded : block.load strings start pools = .ok (pools.propsNext, middle) := by
    rw [load, Pools.nextFreeProp_of_fits fits]
    simp only [Pools.setProp, empty]
    rfl
  have middleProp : middle.props pools.propsNext =
      ⟨strings + block.nameoff.toNat, start + 12,
        block.property.value.length, none⟩ :=
    Function.update_self ..
  have middleOther : ∀ item, item ≠ pools.propsNext →
      middle.props item = pools.props item :=
    fun item different => Function.update_of_ne different ..
  have middleList : PropertyList middle node items :=
    { clear :=
        { nodes := list.clear.nodes
          props := by
            intro item untaken
            have later : pools.propsNext < item := untaken
            rw [middleOther item (Nat.ne_of_gt later)]
            exact list.clear.props item (Nat.le_of_lt later) }
      taken := list.taken
      path := by
        refine list.path.congr rfl ?_
        intro item member
        exact congrArg DeviceTreeProperty.next
          (middleOther item (Nat.ne_of_lt (list.bounds item member)))
      distinct := list.distinct
      bounds := fun item member => Nat.lt_succ_of_lt (list.bounds item member) }
  have linked := addLinked_path
    (middle.setPropertyLink node pools.propsNext) middleList.path enough
  have afterProps : ∀ item, item ∉ items →
      (middle.setPropertyLink node pools.propsNext
        (Links.lastLink .base items)).props item = middle.props item :=
    fun item outside =>
      Pools.setPropertyLink_props_of_ne _ _ _ _ (Links.lastLink_ne_after outside)
  refine ⟨middle, _, loaded, linked, ?added, ?placed⟩
  case added =>
    exact
      { list := middleList.link fresh (Nat.lt_succ_self _)
          (congrArg DeviceTreeProperty.next middleProp)
        nodesNext := Pools.setPropertyLink_nodesNext ..
        propsNext := Pools.setPropertyLink_propsNext ..
        keptNode := Pools.setPropertyLink_nodes_same ..
        otherNodes := fun other different =>
          Pools.setPropertyLink_nodes_of_ne _ _ _ _ different
        oldProps := by
          intro prop old
          rw [Pools.setPropertyLink_props, middleOther prop (Nat.ne_of_lt old)]
        keptProps := by
          intro prop old outside
          rw [afterProps prop outside, middleOther prop (Nat.ne_of_lt old)] }
  case placed =>
    have placed := afterProps pools.propsNext fresh
    rw [middleProp] at placed
    constructor
    · rw [placed]
    · rw [placed]
    · rw [placed]

theorem loadProperties_placed {blocks : List PropertyBlock} {pools : Pools}
    {node address : Nat} {items : List Nat} (list : PropertyList pools node items)
    (enough : items.length + blocks.length < rounds + 1)
    (fits : pools.propsNext + blocks.length < numDeviceTreeNodes) :
    ∃ after, loadProperties rounds strings node blocks address pools = .ok after ∧
      PropertiesAdded pools after node items
        (List.range' pools.propsNext blocks.length) ∧
      PropertiesPlaced strings after blocks address pools.propsNext := by
  induction blocks generalizing pools address items with
  | nil => exact ⟨pools, rfl, .refl list, trivial⟩
  | cons block blocks induction =>
      rw [List.length_cons] at enough fits
      obtain ⟨middle, linked, loaded, added, one, placed⟩ :=
        block.load_linked (address + 4 * block.nops) list
          (show items.length < rounds by omega) (by omega)
      have next : linked.propsNext = pools.propsNext + 1 := one.propsNext
      obtain ⟨after, rest, more, restPlaced⟩ := induction one.list
        (by simp only [List.length_append, List.length_singleton]; omega)
        (by omega)
      refine ⟨after, ?_, ?_, ?_⟩
      · rw [loadProperties, loaded]
        simp only [Outcome.ok_bind]
        rw [added]
        exact rest
      · rw [next] at more
        exact one.trans more (by simp)
      · rw [next] at restPlaced
        refine ⟨placed.congr (more.oldProps _ ?_), restPlaced⟩
        rw [next]
        exact Nat.lt_succ_self _

/-! Children. -/

structure ChildList (pools : Pools) (node : Nat) (items : List Nat) : Prop where
  clear : pools.Clear
  taken : node < pools.nodesNext
  path : (pools.childLinks node).Path .base items
  distinct : items.Nodup
  bounds : ∀ item ∈ items, node < item ∧ item < pools.nodesNext

/-- `after` has `added`, with trees of the given sizes, behind `items` in the
child list of `node`. -/
structure ChildrenAdded (before after : Pools) (node : Nat)
    (items added : List Nat) (nodes props : Nat) : Prop where
  list : ChildList after node (items ++ added)
  nodesNext : after.nodesNext = before.nodesNext + nodes
  propsNext : after.propsNext = before.propsNext + props
  keptNode : after.nodes node =
    { before.nodes node with child := (after.nodes node).child }
  oldNodes : ∀ other, other < before.nodesNext → other ≠ node →
    after.nodes other =
      { before.nodes other with next := (after.nodes other).next }
  keptNodes : ∀ other, other < before.nodesNext → other ≠ node → other ∉ items →
    after.nodes other = before.nodes other
  keptProps : ∀ prop, prop < before.propsNext →
    after.props prop = before.props prop

theorem ChildrenAdded.refl {pools : Pools} {node : Nat} {items : List Nat}
    (list : ChildList pools node items) :
    ChildrenAdded pools pools node items [] 0 0 where
  list := by rwa [List.append_nil]
  nodesNext := rfl
  propsNext := rfl
  keptNode := rfl
  oldNodes _ _ _ := rfl
  keptNodes _ _ _ _ := rfl
  keptProps _ _ := rfl

theorem ChildrenAdded.trans {before middle after : Pools} {node : Nat}
    {items first second : List Nat} {nodes props moreNodes moreProps : Nat}
    (one : ChildrenAdded before middle node items first nodes props)
    (two : ChildrenAdded middle after node (items ++ first) second
      moreNodes moreProps)
    (fresh : ∀ item ∈ first, before.nodesNext ≤ item) :
    ChildrenAdded before after node items (first ++ second)
      (nodes + moreNodes) (props + moreProps) where
  list := by rw [← List.append_assoc]; exact two.list
  nodesNext := by rw [two.nodesNext, one.nodesNext, Nat.add_assoc]
  propsNext := by rw [two.propsNext, one.propsNext, Nat.add_assoc]
  keptNode := by rw [two.keptNode, one.keptNode]
  oldNodes other old different := by
    have later : other < middle.nodesNext := by rw [one.nodesNext]; omega
    rw [two.oldNodes other later different, one.oldNodes other old different]
  keptNodes other old different outside := by
    have later : other < middle.nodesNext := by rw [one.nodesNext]; omega
    rw [two.keptNodes other later different,
      one.keptNodes other old different outside]
    intro member
    cases List.mem_append.mp member with
    | inl inside => exact outside inside
    | inr inside => exact absurd (fresh other inside) (by omega)
  keptProps prop old := by
    have later : prop < middle.propsNext := by rw [one.propsNext]; omega
    rw [two.keptProps prop later, one.keptProps prop old]

/-- `after` has a tree of the given size behind the items of `before`. -/
structure TreeAdded (before after : Pools) (tree : Tree) : Prop where
  clear : after.Clear
  nodesNext : after.nodesNext = before.nodesNext + tree.nodeCount
  propsNext : after.propsNext = before.propsNext + tree.propertyCount
  next : (after.nodes before.nodesNext).next = none
  keptNodes : ∀ other, other < before.nodesNext →
    after.nodes other = before.nodes other
  keptProps : ∀ prop, prop < before.propsNext →
    after.props prop = before.props prop

theorem TreeAdded.childList {before middle : Pools} {tree : Tree} {node : Nat}
    {items : List Nat} (added : TreeAdded before middle tree)
    (list : ChildList before node items) : ChildList middle node items where
  clear := added.clear
  taken := by
    rw [added.nodesNext]
    exact Nat.lt_add_right _ list.taken
  path := by
    apply list.path.congr
    · exact congrArg DeviceTreeNode.child (added.keptNodes node list.taken)
    · intro item member
      exact congrArg DeviceTreeNode.next
        (added.keptNodes item (list.bounds item member).2)
  distinct := list.distinct
  bounds := by
    intro item member
    have bounds := list.bounds item member
    rw [added.nodesNext]
    omega

theorem ChildList.not_mem {pools : Pools} {node item : Nat} {items : List Nat}
    (list : ChildList pools node items) (later : pools.nodesNext ≤ item) :
    item ∉ items :=
  fun member => absurd (list.bounds item member).2 (Nat.not_lt.mpr later)

theorem ChildList.lastLink_ne {pools : Pools} {node : Nat} {items : List Nat}
    (list : ChildList pools node items) :
    Links.lastLink .base items ≠ .after node := by
  apply Links.lastLink_ne_after
  intro member
  exact Nat.lt_irrefl _ (list.bounds node member).1

theorem ChildList.link {pools : Pools} {node item : Nat} {items : List Nat}
    (list : ChildList pools node items) (fresh : item ∉ items) (after : node < item)
    (taken : item < pools.nodesNext) (last : (pools.nodes item).next = none) :
    ChildList (pools.setChildLink node item (Links.lastLink .base items)) node
      (items ++ [item]) where
  clear :=
    { nodes := by
        intro other untaken
        rw [Pools.setChildLink_nodesNext] at untaken
        rw [Pools.setChildLink_nodes_of_ne _ _ _ _
          (Nat.ne_of_gt (Nat.lt_of_lt_of_le list.taken untaken))
          (Links.lastLink_ne_after (list.not_mem untaken))]
        exact list.clear.nodes other untaken
      props := by
        intro other untaken
        rw [Pools.setChildLink_propsNext] at untaken
        rw [Pools.setChildLink_props]
        exact list.clear.props other untaken }
  taken := by
    rw [Pools.setChildLink_nodesNext]
    exact list.taken
  path := by
    rw [Pools.childLinks_setChildLink _ _ _ _ list.lastLink_ne]
    exact list.path.append list.distinct fresh last
  distinct := by
    rw [← List.concat_eq_append]
    exact (List.nodup_concat items item).mpr ⟨fresh, list.distinct⟩
  bounds := by
    rw [Pools.setChildLink_nodesNext]
    exact List.forall_mem_append.mpr
      ⟨list.bounds, List.forall_mem_singleton.mpr ⟨after, taken⟩⟩

theorem TreeAdded.link {before middle : Pools} {block : NodeBlock} {start node : Nat}
    {items : List Nat} (added : TreeAdded before middle block.tree)
    (placed : block.Placed strings middle start before.nodesNext before.propsNext)
    (list : ChildList before node items) (enough : items.length < rounds) :
    ∃ after, addLinked rounds (middle.childLinks node)
        (middle.setChildLink node before.nodesNext) = .ok after ∧
      ChildrenAdded before after node items [before.nodesNext]
        block.tree.nodeCount block.tree.propertyCount ∧
      block.Placed strings after start before.nodesNext before.propsNext := by
  have positive := block.tree.nodeCount_pos
  have fresh := list.not_mem (Nat.le_refl _)
  have middleList := added.childList list
  have linked := addLinked_path
    (middle.setChildLink node before.nodesNext) middleList.path enough
  have afterNodes : ∀ other, other ≠ node → other ∉ items →
      (middle.setChildLink node before.nodesNext
        (Links.lastLink .base items)).nodes other = middle.nodes other :=
    fun other different outside => Pools.setChildLink_nodes_of_ne _ _ _ _ different
      (Links.lastLink_ne_after outside)
  refine ⟨_, linked, ?added, ?placed⟩
  case added =>
    exact
      { list := middleList.link fresh list.taken
          (by rw [added.nodesNext]; omega) added.next
        nodesNext := by rw [Pools.setChildLink_nodesNext, added.nodesNext]
        propsNext := by rw [Pools.setChildLink_propsNext, added.propsNext]
        keptNode := by
          rw [Pools.setChildLink_nodes_same _ _ _ _ list.lastLink_ne,
            added.keptNodes node list.taken]
        oldNodes := by
          intro other old different
          rw [Pools.setChildLink_nodes _ _ _ _ different, added.keptNodes other old]
        keptNodes := by
          intro other old different outside
          rw [afterNodes other different outside, added.keptNodes other old]
        keptProps := by
          intro prop old
          rw [Pools.setChildLink_props]
          exact added.keptProps prop old }
  case placed =>
    have taken := list.taken
    apply placed.congr
    · rw [Pools.setChildLink_nodes _ _ _ _ (Nat.ne_of_gt taken)]
    · intro other after _
      exact afterNodes other (by omega) (list.not_mem (by omega))
    · intro other _ _
      rw [Pools.setChildLink_props]

def Pools.takeNode (pools : Pools) (name : Nat) : Pools :=
  { pools with
    nodesNext := pools.nodesNext + 1
    nodes := Function.update pools.nodes pools.nodesNext ⟨name, none, none, none⟩ }

@[simp] theorem Pools.takeNode_same (pools : Pools) (name : Nat) :
    (pools.takeNode name).nodes pools.nodesNext = ⟨name, none, none, none⟩ :=
  Function.update_self ..

theorem Pools.takeNode_of_ne (pools : Pools) (name : Nat) {other : Nat}
    (different : other ≠ pools.nodesNext) :
    (pools.takeNode name).nodes other = pools.nodes other :=
  Function.update_of_ne different ..

theorem Pools.takeNode_list {pools : Pools} (clear : pools.Clear) (name : Nat) :
    PropertyList (pools.takeNode name) pools.nodesNext [] := by
  constructor
  · constructor
    · intro item untaken
      have later : pools.nodesNext < item := untaken
      rw [takeNode_of_ne _ _ (Nat.ne_of_gt later)]
      exact clear.nodes item (Nat.le_of_lt later)
    · exact clear.props
  · exact Nat.lt_succ_self _
  · apply Links.Path.nil
    exact congrArg DeviceTreeNode.properties (pools.takeNode_same name)
  · exact List.nodup_nil
  · simp

theorem NodeBlock.load_node {nops start : Nat} {name padding : List UInt8}
    {properties : List PropertyBlock} {children : NodeBlocks} {endNops : Nat}
    {pools : Pools} (clear : pools.Clear)
    (fits : pools.nodesNext + 1 < numDeviceTreeNodes) :
    NodeBlock.load rounds strings
        (.node nops name padding properties children endNops) start pools = (do
      let address := start + 4 + (name.length + (padding.length + 1))
      let loaded ← loadProperties rounds strings pools.nodesNext properties address
        (pools.takeNode (start + 4))
      let loaded ← children.load rounds strings pools.nodesNext
        (address + (properties.flatMap PropertyBlock.bytes).length) loaded
      pure (pools.nodesNext, loaded)) := by
  have empty := clear.nodes pools.nodesNext (Nat.le_refl _)
  have named : { pools with nodesNext := pools.nodesNext + 1 }.setNode pools.nodesNext
      { pools.nodes pools.nodesNext with name := start + 4 } =
        pools.takeNode (start + 4) := by
    rw [empty]
    rfl
  rw [NodeBlock.load, Pools.nextFreeNode_of_fits fits]
  simp only [named]

structure NodeOpened (before middle : Pools) (name count : Nat) : Prop where
  added : PropertiesAdded (before.takeNode name) middle before.nodesNext []
    (List.range' before.propsNext count)
  nodesNext : middle.nodesNext = before.nodesNext + 1
  propsNext : middle.propsNext = before.propsNext + count
  children : ChildList middle before.nodesNext []
  next : (middle.nodes before.nodesNext).next = none

theorem loadProperties_opened {blocks : List PropertyBlock} {pools : Pools}
    (strings address name : Nat) (clear : pools.Clear)
    (enough : blocks.length < rounds + 1)
    (fits : pools.propsNext + blocks.length < numDeviceTreeNodes) :
    ∃ middle, loadProperties rounds strings pools.nodesNext blocks address
        (pools.takeNode name) = .ok middle ∧
      NodeOpened pools middle name blocks.length ∧
      PropertiesPlaced strings middle blocks address pools.propsNext := by
  obtain ⟨middle, loaded, added, placed⟩ := loadProperties_placed
    (Pools.takeNode_list clear name)
    (show [].length + blocks.length < rounds + 1 by rw [List.length_nil]; omega) fits
  have propsNext := added.propsNext
  rw [List.length_range'] at propsNext
  have childless : (middle.nodes pools.nodesNext).child = none := by
    rw [added.keptNode, Pools.takeNode_same]
  have sibling : (middle.nodes pools.nodesNext).next = none := by
    rw [added.keptNode, Pools.takeNode_same]
  exact ⟨middle, loaded,
    ⟨added, added.nodesNext, propsNext,
      ⟨added.list.clear, added.list.taken, .nil childless, List.nodup_nil, by simp⟩,
      sibling⟩, placed⟩

mutual
theorem NodeBlock.load_placed : (block : NodeBlock) →
    ∀ (pools : Pools) (start : Nat), pools.Clear →
    numDeviceTreeNodes ≤ rounds →
    pools.nodesNext + block.tree.nodeCount < numDeviceTreeNodes →
    pools.propsNext + block.tree.propertyCount < numDeviceTreeNodes →
    ∃ after, block.load rounds strings start pools =
        .ok (pools.nodesNext, after) ∧
      TreeAdded pools after block.tree ∧
      block.Placed strings after start pools.nodesNext pools.propsNext
  | .node nops name padding properties children endNops => by
      intro pools start clear enough nodesFit propsFit
      simp only [NodeBlock.tree, Tree.nodeCount, Tree.propertyCount,
        List.length_map] at nodesFit propsFit
      obtain ⟨middle, loaded, opened, placed⟩ := loadProperties_opened strings
        (start + 4 + (name.length + (padding.length + 1))) (start + 4) clear
        (show properties.length < rounds + 1 by omega) (by omega)
      have middleNodes := opened.nodesNext
      have middleProps := opened.propsNext
      obtain ⟨after, remaining, more, childrenPlaced⟩ := NodeBlocks.load_placed
        children middle pools.nodesNext (start + 4 +
          (name.length + (padding.length + 1)) +
            (properties.flatMap PropertyBlock.bytes).length) [] opened.children
        enough (by rw [List.length_nil]; omega) (by omega) (by omega)
      refine ⟨after, ?_, ?_, ?_⟩
      · rw [NodeBlock.load_node clear (by omega)]
        simp only [loaded, Outcome.ok_bind, remaining, Outcome.pure_eq_ok]
      · constructor
        · exact more.list.clear
        · rw [more.nodesNext, middleNodes, Nat.add_assoc]
          rfl
        · rw [more.propsNext, middleProps, Nat.add_assoc]
          simp [NodeBlock.tree, Tree.propertyCount]
        · rw [more.keptNode]
          exact opened.next
        · intro other old
          rw [more.keptNodes other (by omega) (Nat.ne_of_lt old) (by simp),
            opened.added.otherNodes other (Nat.ne_of_lt old),
            Pools.takeNode_of_ne _ _ (Nat.ne_of_lt old)]
        · intro prop old
          rw [more.keptProps prop (by omega)]
          exact opened.added.keptProps prop old (by simp)
      · rw [middleNodes, middleProps] at childrenPlaced
        rw [middleNodes] at more
        refine ⟨?_, ?_, ?_, more.list.path, childrenPlaced⟩
        · rw [more.keptNode, opened.added.keptNode, Pools.takeNode_same]
        · apply opened.added.list.path.congr
          · show (after.nodes _).properties = (middle.nodes _).properties
            rw [more.keptNode]
          · intro prop member
            have bounds := List.mem_range'_1.mp member
            have old : prop < pools.propsNext + properties.length := bounds.2
            exact congrArg DeviceTreeProperty.next
              (more.keptProps prop (by omega))
        · apply placed.congr
          intro prop _ last
          have old : prop < pools.propsNext + properties.length := last
          rw [more.keptProps prop (by omega)]

theorem NodeBlocks.load_placed : (blocks : NodeBlocks) →
    ∀ (pools : Pools) (node address : Nat) (items : List Nat),
    ChildList pools node items →
    numDeviceTreeNodes ≤ rounds →
    items.length + blocks.forest.nodeCount < rounds + 1 →
    pools.nodesNext + blocks.forest.nodeCount < numDeviceTreeNodes →
    pools.propsNext + blocks.forest.propertyCount < numDeviceTreeNodes →
    ∃ after, blocks.load rounds strings node address pools = .ok after ∧
      ChildrenAdded pools after node items
        (blocks.forest.items pools.nodesNext) blocks.forest.nodeCount
        blocks.forest.propertyCount ∧
      blocks.Placed strings after address pools.nodesNext pools.propsNext
  | .nil => by
      intro pools node address items list _ _ _ _
      exact ⟨pools, rfl, .refl list, trivial⟩
  | .cons first rest => by
      intro pools node address items list enough chain nodesFit propsFit
      simp only [NodeBlocks.forest, Forest.nodeCount, Forest.propertyCount]
        at chain nodesFit propsFit
      have positive := first.tree.nodeCount_pos
      obtain ⟨middle, loaded, added, placed⟩ := NodeBlock.load_placed first pools
        (address + 4 * first.nops) list.clear enough (by omega) (by omega)
      obtain ⟨linked, link, one, linkedPlaced⟩ :=
        added.link placed list (show items.length < rounds by omega)
      have nodesNext := one.nodesNext
      have propsNext := one.propsNext
      obtain ⟨after, remaining, more, restPlaced⟩ := NodeBlocks.load_placed rest
        linked node (address + first.bytes.length) _ one.list
        enough (by simp only [List.length_append, List.length_singleton]; omega)
        (by omega) (by omega)
      rw [nodesNext] at more
      rw [nodesNext, propsNext] at restPlaced
      refine ⟨after, ?_, one.trans more (by simp), ?_, restPlaced⟩
      · rw [NodeBlocks.load, loaded]
        simp only [Outcome.ok_bind]
        rw [link]
        exact remaining
      · have taken := list.taken
        apply linkedPlaced.congr
        · exact more.oldNodes _ (by omega) (by omega)
        · intro other later last
          apply more.keptNodes other (by omega) (by omega)
          intro member
          cases List.mem_append.mp member with
          | inl old => exact absurd (list.bounds other old).2 (by omega)
          | inr same => exact absurd (List.mem_singleton.mp same) (by omega)
        · intro other _ last
          exact more.keptProps other (by omega)
end

end Thos.Device
