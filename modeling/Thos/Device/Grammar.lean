import Thos.Device.Capacity
import Thos.Libc.String

namespace Thos.Device

open Data.LinkedList
open Thos.Kernel

/-! A parse that returns has followed the blocks of the tree it returns. -/

variable {memory : ByteMemory} {rounds : Nat} {header : DeviceTreeHeadersRaw}

/-! Tokens. -/

theorem holds_of_isToken {address : Nat} {token : DeviceTreeStructureBlockToken}
    (found : isToken memory address token = true) :
    memory.Holds address (tokenBytes token) := by
  have word := memory.holds_load32 address
  rw [isToken, beq_iff_eq] at found
  rw [found, swapEndianness32_swap] at word
  exact word

theorem skipNops_decode {pointer start : Nat}
    (skipped : skipNops memory rounds pointer = .ok start) :
    ∃ nops, start = pointer + 4 * nops ∧ memory.Holds pointer (nopBytes nops) := by
  induction rounds generalizing pointer with
  | zero => contradiction
  | succ rounds induction =>
      rw [skipNops] at skipped
      split at skipped
      case isTrue nop =>
        obtain ⟨nops, finish, held⟩ := induction skipped
        refine ⟨nops + 1, by omega, ?_⟩
        rw [nopBytes, ByteMemory.holds_append, length_tokenBytes]
        exact ⟨holds_of_isToken nop, held⟩
      case isFalse =>
        cases skipped
        exact ⟨0, rfl, trivial⟩

theorem nodeNameEnd_decode {pointer finish : Nat}
    (found : nodeNameEnd memory rounds pointer = .ok finish) :
    ∃ name, finish = pointer + name.length ∧ memory.Text pointer name := by
  induction rounds generalizing pointer with
  | zero => contradiction
  | succ rounds induction =>
      rw [nodeNameEnd] at found
      split at found
      case isTrue nonzero =>
        obtain ⟨name, ends, text⟩ := induction found
        refine ⟨memory pointer :: name, ?_, ?_⟩
        · rw [ends, List.length_cons]
          omega
        · exact ByteMemory.text_cons.mpr ⟨⟨rfl, nonzero⟩, text⟩
      case isFalse zero =>
        cases found
        exact ⟨[], rfl, ByteMemory.text_nil.mpr (not_not.mp zero)⟩

theorem parseNodeName_decode {pointer name next : Nat} (aligned : pointer % 4 = 0)
    (parsed : parseNodeName memory rounds pointer = .ok (name, next)) :
    ∃ text padding, name = pointer ∧ 0 ∉ text ∧
      padding.length = paddingLength (text.length + 1) ∧
      memory.Holds pointer (text ++ (0 :: padding)) ∧
      next = pointer + (text.length + (padding.length + 1)) := by
  obtain ⟨finish, found, same⟩ := Outcome.bind_eq_ok.mp parsed
  cases same
  obtain ⟨text, ends, string⟩ := nodeNameEnd_decode found
  refine ⟨text, memory.read (pointer + text.length + 1)
    (paddingLength (text.length + 1)), rfl, string.noNul, ?_, ?_, ?_⟩
  · rw [ByteMemory.length_read]
  · obtain ⟨held, nul⟩ := ByteMemory.holds_append.mp string.held
    exact ByteMemory.holds_append.mpr
      ⟨held, nul.1, ByteMemory.holds_read ..⟩
  · rw [ends, ByteMemory.length_read, Nat.add_assoc, alignUp_add aligned]
    omega

/-! Properties. -/

/-- The name of a property is the string at its offset, if there is one. -/
def PropertyBlock.Reads (memory : ByteMemory) (strings : Nat)
    (block : PropertyBlock) : Prop :=
  memory.Reads (strings + block.nameoff.toNat) block.property.name

structure PropertyBlock.At (memory : ByteMemory) (strings : Nat)
    (block : PropertyBlock) (start : Nat) : Prop where
  wellFormed : block.WellFormed
  reads : block.Reads memory strings
  held : memory.Holds start block.core

theorem DeviceTreeProperty.parse_eq_none {pointer cursor : Nat} {pools after : Pools}
    (parsed : DeviceTreeProperty.parse memory rounds header pointer pools =
      .ok (none, cursor, after)) :
    skipNops memory rounds pointer = .ok cursor ∧ after = pools := by
  obtain ⟨start, skipped, rest⟩ := Outcome.bind_eq_ok.mp parsed
  split at rest
  · cases rest
    exact ⟨skipped, rfl⟩
  · split at rest
    · contradiction
    · cases rest

theorem PropertyBlock.exists_at (strings nops : Nat) {start : Nat}
    (token : memory.Holds start (tokenBytes .structureProp)) :
    ∃ block : PropertyBlock, block.nops = nops ∧ block.At memory strings start := by
  let length := swapEndianness32 (memory.load32 (start + 4))
  let nameoff := swapEndianness32 (memory.load32 (start + 4 + 4))
  obtain ⟨name, reads⟩ := memory.exists_reads (strings + nameoff.toNat)
  refine ⟨⟨nops, nameoff, ⟨name, memory.read (start + 12) length.toNat⟩,
    memory.read (start + 12 + length.toNat) (paddingLength length.toNat)⟩, rfl,
      ⟨?_, ?_, reads.1⟩, reads, ?_⟩
  · rw [ByteMemory.length_read]
    exact length.toNat_lt
  · rw [ByteMemory.length_read, ByteMemory.length_read]
  · simp only [core, ByteMemory.holds_append, length_tokenBytes, length_bigEndian,
      ByteMemory.length_read, UInt32.ofNat_toNat]
    exact ⟨token, memory.holds_load32 _, memory.holds_load32 _,
      memory.holds_read .., memory.holds_read ..⟩

theorem DeviceTreeProperty.parse_decode {pointer start prop cursor : Nat}
    {pools after : Pools} (nops : Nat)
    (skipped : skipNops memory rounds pointer = .ok start) (aligned : start % 4 = 0)
    (parsed : DeviceTreeProperty.parse memory rounds header pointer pools =
      .ok (some prop, cursor, after)) :
    ∃ block : PropertyBlock, block.nops = nops ∧
      block.At memory (header.strings memory) start ∧
      cursor = start + block.core.length ∧
      block.load (header.strings memory) start pools = .ok (prop, after) := by
  cases token : isToken memory start .structureProp with
  | false =>
      rw [DeviceTreeProperty.parse_none pools skipped token] at parsed
      cases parsed
  | true =>
      obtain ⟨block, leads, here⟩ := PropertyBlock.exists_at
        (header.strings memory) nops (holds_of_isToken token)
      rw [DeviceTreeProperty.parse_block pools here.wellFormed skipped here.held
        aligned] at parsed
      refine ⟨block, leads, here, ?_⟩
      cases loaded : block.load (header.strings memory) start pools with
      | error stop =>
          rw [loaded] at parsed
          cases parsed
      | ok result =>
          rw [loaded] at parsed
          cases parsed
          exact ⟨rfl, rfl⟩

structure PropertiesAt (memory : ByteMemory) (strings : Nat)
    (blocks : List PropertyBlock) (address : Nat) : Prop where
  wellFormed : ∀ block ∈ blocks, block.WellFormed
  reads : ∀ block ∈ blocks, block.Reads memory strings
  held : memory.Holds address (blocks.flatMap PropertyBlock.bytes)

theorem PropertyBlock.At.cons {strings address : Nat} {block : PropertyBlock}
    {blocks : List PropertyBlock}
    (nops : memory.Holds address (nopBytes block.nops))
    (first : block.At memory strings (address + 4 * block.nops))
    (rest : PropertiesAt memory strings blocks (address + block.bytes.length)) :
    PropertiesAt memory strings (block :: blocks) address where
  wellFormed := List.forall_mem_cons.mpr ⟨first.wellFormed, rest.wellFormed⟩
  reads := List.forall_mem_cons.mpr ⟨first.reads, rest.reads⟩
  held := by
    rw [List.flatMap_cons, ByteMemory.holds_append]
    refine ⟨?_, rest.held⟩
    rw [bytes, ByteMemory.holds_append, length_nopBytes]
    exact ⟨nops, first.held⟩

theorem parseProperties_decode {fuel node address pointer cursor : Nat}
    {pools after : Pools} (aligned : address % 4 = 0)
    (starts : skipNops memory rounds pointer = skipNops memory rounds address)
    (parsed : parseProperties memory rounds header node fuel pointer pools =
      .ok (cursor, after)) :
    ∃ blocks, PropertiesAt memory (header.strings memory) blocks address ∧
      loadProperties rounds (header.strings memory) node blocks address pools =
        .ok after ∧
      skipNops memory rounds
        (address + (blocks.flatMap PropertyBlock.bytes).length) = .ok cursor := by
  induction fuel generalizing address pointer pools with
  | zero => contradiction
  | succ fuel induction =>
      obtain ⟨start, skipped, rest⟩ := Outcome.bind_eq_ok.mp parsed
      obtain ⟨⟨found, next, pools'⟩, property, rest⟩ := Outcome.bind_eq_ok.mp rest
      cases found with
      | none =>
          cases rest
          obtain ⟨ends, same⟩ := DeviceTreeProperty.parse_eq_none property
          cases same
          rw [skipNops_fixed skipped] at ends
          cases ends
          refine ⟨[], ⟨by simp, by simp, trivial⟩, rfl, ?_⟩
          exact starts.symm.trans skipped
      | some prop =>
          obtain ⟨linked, link, remaining⟩ := Outcome.bind_eq_ok.mp rest
          obtain ⟨nops, first, held⟩ := skipNops_decode (starts.symm.trans skipped)
          obtain ⟨block, leads, here, ends, loaded⟩ :=
            DeviceTreeProperty.parse_decode nops (skipNops_fixed skipped) (by omega)
              property
          have length := block.length_bytes
          have coreAligned := here.wellFormed.core_aligned
          subst first leads
          have nextAligned : (address + block.bytes.length) % 4 = 0 := by omega
          have nextStarts : next = address + block.bytes.length := by omega
          obtain ⟨blocks, later, loadedRest, finish⟩ := induction nextAligned
            (by rw [nextStarts]) remaining
          refine ⟨block :: blocks, here.cons held later, ?_, ?_⟩
          · rw [loadProperties, loaded]
            simp only [Outcome.ok_bind]
            rw [link]
            exact loadedRest
          · rw [List.flatMap_cons, List.length_append, ← Nat.add_assoc]
            exact finish

/-! Nodes. -/

structure NodeBlock.At (memory : ByteMemory) (strings : Nat) (block : NodeBlock)
    (start : Nat) : Prop where
  wellFormed : block.WellFormed
  reads : ∀ property ∈ block.allProperties, property.Reads memory strings
  held : memory.Holds start block.core

structure NodeBlocks.At (memory : ByteMemory) (strings : Nat) (blocks : NodeBlocks)
    (address : Nat) : Prop where
  wellFormed : blocks.WellFormed
  reads : ∀ property ∈ blocks.allProperties, property.Reads memory strings
  held : memory.Holds address blocks.bytes

theorem NodeBlock.at_node {strings start endNops : Nat} (nops : Nat)
    {name padding : List UInt8} {properties : List PropertyBlock}
    {children : NodeBlocks}
    (begins : memory.Holds start (tokenBytes .structureBeginNode))
    (noNul : 0 ∉ name) (padded : padding.length = paddingLength (name.length + 1))
    (named : memory.Holds (start + 4) (name ++ (0 :: padding)))
    (propertiesAt : PropertiesAt memory strings properties
      (start + 4 + (name.length + (padding.length + 1))))
    (childrenAt : children.At memory strings
      (start + 4 + (name.length + (padding.length + 1)) +
        (properties.flatMap PropertyBlock.bytes).length))
    (ends : memory.Holds
      (start + 4 + (name.length + (padding.length + 1)) +
        (properties.flatMap PropertyBlock.bytes).length + children.bytes.length)
      (nopBytes endNops ++ tokenBytes .structureEndNode)) :
    (NodeBlock.node nops name padding properties children endNops).At memory strings
      start where
  wellFormed :=
    ⟨noNul, padded, propertiesAt.wellFormed, childrenAt.wellFormed⟩
  reads := List.forall_mem_append.mpr ⟨propertiesAt.reads, childrenAt.reads⟩
  held := by
    have properties := propertiesAt.held
    have children := childrenAt.held
    simp only [core, ByteMemory.holds_append, length_tokenBytes,
      List.length_cons, ← Nat.add_assoc] at named ends properties children ⊢
    exact ⟨begins, named.1, named.2, properties, children, ends⟩

theorem NodeBlock.At.cons {strings address : Nat} {first : NodeBlock}
    {rest : NodeBlocks} (nops : memory.Holds address (nopBytes first.nops))
    (here : first.At memory strings (address + 4 * first.nops))
    (later : rest.At memory strings (address + first.bytes.length)) :
    (NodeBlocks.cons first rest).At memory strings address where
  wellFormed := ⟨here.wellFormed, later.wellFormed⟩
  reads := List.forall_mem_append.mpr ⟨here.reads, later.reads⟩
  held := by
    rw [NodeBlocks.bytes, ByteMemory.holds_append, ByteMemory.holds_append,
      length_nopBytes]
    exact ⟨⟨nops, here.held⟩, later.held⟩

/-- What a parse of a node did that found one at `start`. -/
structure DeviceTreeNode.ParsedAt (memory : ByteMemory) (rounds : Nat)
    (header : DeviceTreeHeadersRaw) (fuel start : Nat) (pools : Pools)
    (item cursor : Nat) (after : Pools) : Prop where
  begins : isToken memory start .structureBeginNode = true
  parts : ∃ middle name next first opened second finish,
    pools.nextFreeNode = (some item, middle) ∧
    parseNodeName memory rounds (start + 4) = .ok (name, next) ∧
    parseProperties memory rounds header item rounds next
      (middle.setNode item { middle.nodes item with name := name }) =
        .ok (first, opened) ∧
    parseChildren memory rounds header item fuel first opened =
      .ok (second, after) ∧
    skipNops memory rounds second = .ok finish ∧
    isToken memory finish .structureEndNode = true ∧ cursor = finish + 4

theorem eq_true_of_not_not {value : Bool} (twice : ¬(!value) = true) : value =
    true := by
  cases value with
  | false => exact absurd rfl twice
  | true => rfl

theorem DeviceTreeNode.parse_eq_ok {fuel pointer cursor : Nat} {pools after : Pools}
    {found : Option Nat}
    (parsed : DeviceTreeNode.parse memory rounds header (fuel + 1) pointer pools =
      .ok (found, cursor, after)) :
    ∃ start, skipNops memory rounds pointer = .ok start ∧
      ((found = none ∧ cursor = start ∧ after = pools) ∨
        ∃ item, found = some item ∧
          ParsedAt memory rounds header fuel start pools item cursor after) := by
  obtain ⟨start, skipped, rest⟩ := Outcome.bind_eq_ok.mp parsed
  refine ⟨start, skipped, ?_⟩
  split at rest
  · cases rest
    exact .inl ⟨rfl, rfl, rfl⟩
  case isFalse isBegin =>
    rcases allocated : pools.nextFreeNode with ⟨_ | item, middle⟩
    · rw [allocated] at rest
      obtain ⟨named, _, rest⟩ := Outcome.bind_eq_ok.mp rest
      contradiction
    · rw [allocated] at rest
      obtain ⟨⟨name, next⟩, named, rest⟩ := Outcome.bind_eq_ok.mp rest
      obtain ⟨⟨first, opened⟩, properties, rest⟩ := Outcome.bind_eq_ok.mp rest
      obtain ⟨⟨second, closed⟩, children, rest⟩ := Outcome.bind_eq_ok.mp rest
      obtain ⟨finish, skippedEnd, rest⟩ := Outcome.bind_eq_ok.mp rest
      split at rest
      · contradiction
      case isFalse isEnd =>
        cases rest
        exact .inr ⟨item, rfl, eq_true_of_not_not isBegin, middle, name, next, first,
          opened, second, finish, allocated, named, properties, children, skippedEnd,
          eq_true_of_not_not isEnd, rfl⟩

theorem DeviceTreeNode.parse_eq_none {fuel pointer cursor : Nat} {pools after : Pools}
    (parsed : DeviceTreeNode.parse memory rounds header fuel pointer pools =
      .ok (none, cursor, after)) :
    skipNops memory rounds pointer = .ok cursor ∧ after = pools := by
  cases fuel with
  | zero => contradiction
  | succ fuel =>
      obtain ⟨start, skipped, ⟨_, rfl, same⟩ | ⟨item, some, _⟩⟩ := parse_eq_ok parsed
      · exact ⟨skipped, same⟩
      · contradiction

mutual
theorem DeviceTreeNode.parse_decode : (fuel : Nat) →
    ∀ (nops pointer start item cursor : Nat) (pools after : Pools),
      skipNops memory rounds pointer = .ok start → start % 4 = 0 →
      DeviceTreeNode.parse memory rounds header fuel pointer pools =
        .ok (some item, cursor, after) →
      ∃ block : NodeBlock, block.nops = nops ∧
        block.At memory (header.strings memory) start ∧
        cursor = start + block.core.length ∧
        block.load rounds (header.strings memory) start pools = .ok (item, after)
  | 0 => by
      intro _ _ _ _ _ _ _ _ _ parsed
      contradiction
  | fuel + 1 => by
      intro nops pointer start item cursor pools after skipped aligned parsed
      obtain ⟨start', skipped', ⟨_, _, _⟩ | ⟨item', same, here⟩⟩ :=
        DeviceTreeNode.parse_eq_ok parsed
      · contradiction
      cases same
      cases skipped.symm.trans skipped'
      obtain ⟨middle, name, next, first, opened, second, finish, allocated, named,
        properties, children, skippedEnd, isEnd, cursorAt⟩ := here.parts
      obtain ⟨text, padding, nameAt, noNul, padded, nameHeld, bodyAt⟩ :=
        parseNodeName_decode (by omega) named
      have nameAligned := paddingLength_aligned (text.length + 1)
      subst nameAt bodyAt
      obtain ⟨blocks, blocksAt, loaded, blocksEnd⟩ := parseProperties_decode
        (by omega) rfl properties
      have blocksAligned := length_properties_aligned blocksAt.wellFormed
      obtain ⟨nodes, nodesAt, loadedNodes, nodesEnd⟩ :=
        parseChildren_decode fuel _ _ _
        _ _ _ (by omega) ((skipNops_fixed blocksEnd).trans blocksEnd.symm) children
      cases (skipNops_fixed nodesEnd).symm.trans skippedEnd
      obtain ⟨endNops, endAt, endHeld⟩ := skipNops_decode nodesEnd
      have ends : memory.Holds _ (nopBytes endNops ++ tokenBytes .structureEndNode) :=
        ByteMemory.holds_append.mpr ⟨endHeld, by
          rw [length_nopBytes, ← endAt]
          exact holds_of_isToken isEnd⟩
      refine ⟨.node nops text padding blocks nodes endNops, rfl,
        NodeBlock.at_node nops (holds_of_isToken here.begins) noNul padded nameHeld
          blocksAt nodesAt ends, ?_, ?_⟩
      · rw [NodeBlock.length_core]
        omega
      · rw [NodeBlock.load, allocated]
        simp only [loaded, Outcome.ok_bind, loadedNodes, Outcome.pure_eq_ok]

theorem parseChildren_decode : (fuel : Nat) →
    ∀ (node address pointer cursor : Nat) (pools after : Pools), address % 4 = 0 →
      skipNops memory rounds pointer = skipNops memory rounds address →
      parseChildren memory rounds header node fuel pointer pools =
        .ok (cursor, after) →
      ∃ blocks : NodeBlocks, blocks.At memory (header.strings memory) address ∧
        blocks.load rounds (header.strings memory) node address pools = .ok after ∧
        skipNops memory rounds (address + blocks.bytes.length) = .ok cursor
  | 0 => by
      intro _ _ _ _ _ _ _ _ parsed
      contradiction
  | fuel + 1 => by
      intro node address pointer cursor pools after aligned starts parsed
      obtain ⟨start, skipped, rest⟩ := Outcome.bind_eq_ok.mp parsed
      obtain ⟨⟨found, next, middle⟩, child, rest⟩ := Outcome.bind_eq_ok.mp rest
      cases found with
      | none =>
          cases rest
          obtain ⟨ends, same⟩ := DeviceTreeNode.parse_eq_none child
          cases same
          cases (skipNops_fixed skipped).symm.trans ends
          exact ⟨.nil, ⟨trivial, by simp [NodeBlocks.allProperties], trivial⟩, rfl,
            starts.symm.trans skipped⟩
      | some item =>
          obtain ⟨linked, link, remaining⟩ := Outcome.bind_eq_ok.mp rest
          obtain ⟨nops, first, held⟩ := skipNops_decode (starts.symm.trans skipped)
          obtain ⟨block, leads, here, ends, loaded⟩ :=
            DeviceTreeNode.parse_decode fuel nops _ _ _ _ _ _ (skipNops_fixed skipped)
              (by omega) child
          have length := block.length_bytes
          have coreAligned := block.core_aligned here.wellFormed
          subst first leads
          have nextAligned : (address + block.bytes.length) % 4 = 0 := by omega
          have nextStarts : next = address + block.bytes.length := by omega
          obtain ⟨blocks, later, loadedRest, finish⟩ :=
            parseChildren_decode fuel _ _ _
            _ _ _ nextAligned (by rw [nextStarts]) remaining
          refine ⟨.cons block blocks, here.cons held later, ?_, ?_⟩
          · rw [NodeBlocks.load, loaded]
            simp only [Outcome.ok_bind]
            rw [link]
            exact loadedRest
          · rw [NodeBlocks.length_bytes, ← Nat.add_assoc]
            exact finish
end

/-! More rounds change nothing. -/

section

variable {strings fewer : Nat}

theorem loadProperties_mono {node address : Nat} {blocks : List PropertyBlock}
    {pools after : Pools} (more : fewer ≤ rounds)
    (loaded : loadProperties fewer strings node blocks address pools = .ok after) :
    loadProperties rounds strings node blocks address pools = .ok after := by
  induction blocks generalizing address pools with
  | nil => exact loaded
  | cons block blocks induction =>
      obtain ⟨⟨prop, middle⟩, first, rest⟩ := Outcome.bind_eq_ok.mp loaded
      obtain ⟨linked, link, remaining⟩ := Outcome.bind_eq_ok.mp rest
      rw [loadProperties, first]
      simp only [Outcome.ok_bind]
      rw [addLinked_mono more link]
      exact induction remaining

mutual
theorem NodeBlock.load_mono (more : fewer ≤ rounds) : (block : NodeBlock) →
    ∀ (start item : Nat) (pools after : Pools),
      block.load fewer strings start pools = .ok (item, after) →
      block.load rounds strings start pools = .ok (item, after)
  | .node nops name padding properties children endNops => by
      intro start item pools after loaded
      rw [NodeBlock.load] at loaded ⊢
      rcases allocated : pools.nextFreeNode with ⟨_ | taken, middle⟩
      · rw [allocated] at loaded
        contradiction
      · rw [allocated] at loaded
        obtain ⟨opened, first, rest⟩ := Outcome.bind_eq_ok.mp loaded
        obtain ⟨closed, second, last⟩ := Outcome.bind_eq_ok.mp rest
        cases last
        simp only [loadProperties_mono more first, Outcome.ok_bind,
          NodeBlocks.load_mono more children _ _ _ _ second, Outcome.pure_eq_ok]

theorem NodeBlocks.load_mono (more : fewer ≤ rounds) : (blocks : NodeBlocks) →
    ∀ (node address : Nat) (pools after : Pools),
      blocks.load fewer strings node address pools = .ok after →
      blocks.load rounds strings node address pools = .ok after
  | .nil => by
      intro node address pools after loaded
      exact loaded
  | .cons first rest => by
      intro node address pools after loaded
      obtain ⟨⟨child, middle⟩, one, others⟩ := Outcome.bind_eq_ok.mp loaded
      obtain ⟨linked, link, remaining⟩ := Outcome.bind_eq_ok.mp others
      rw [NodeBlocks.load, NodeBlock.load_mono more first _ _ _ _ one]
      simp only [Outcome.ok_bind]
      rw [addLinked_mono more link]
      exact NodeBlocks.load_mono more rest _ _ _ _ remaining
end

theorem NodeBlock.placed_of_load {block : NodeBlock} {start item : Nat}
    {pools : Pools}
    (loaded : block.load fewer strings start Pools.empty = .ok (item, pools)) :
    item = 0 ∧ block.tree.Fits ∧ TreeAdded Pools.empty pools block.tree ∧
      block.Placed strings pools start 0 0 := by
  have loadedMore := NodeBlock.load_mono (Nat.le_max_left fewer numDeviceTreeNodes)
    block _ _ _ _ loaded
  have enough := Nat.le_max_right fewer numDeviceTreeNodes
  have fits : block.tree.Fits := by
    by_contra full
    rw [NodeBlock.load_unfit start full enough] at loadedMore
    contradiction
  have nodes := fits.nodes
  have props := fits.props
  obtain ⟨after, loadedAll, added, placed⟩ := NodeBlock.load_placed block Pools.empty
    start Pools.empty_clear enough (show 0 + block.tree.nodeCount < _ by omega)
    (show 0 + block.tree.propertyCount < _ by omega)
  cases loadedMore.symm.trans loadedAll
  exact ⟨rfl, fits, added, placed⟩

end

/-! The tree in the arrays against the block that encodes it. -/

structure PropertyBlock.Encodes (memory : ByteMemory) (strings : Nat)
    (pools : Pools) (block : PropertyBlock) (prop : Nat) : Prop where
  name : (pools.props prop).name = strings + block.nameoff.toNat
  reads : memory.Reads (pools.props prop).name block.property.name
  valueLen : (pools.props prop).valueLen = block.property.value.length
  value : memory.Holds (pools.props prop).value block.property.value

mutual
/-- The block encodes the tree that hangs on node `item`: its name, its
properties in list order, and its children in list order. -/
def NodeBlock.Encodes (memory : ByteMemory) (strings : Nat) (pools : Pools) :
    NodeBlock → Nat → Prop
  | .node _ name _ properties children _, item =>
      memory.Text (pools.nodes item).name name ∧
        (∃ props, (pools.propertyLinks item).Path .base props ∧
          List.Forall₂ (PropertyBlock.Encodes memory strings pools) properties
            props) ∧
        ∃ items, (pools.childLinks item).Path .base items ∧
          children.Encodes memory strings pools items

def NodeBlocks.Encodes (memory : ByteMemory) (strings : Nat) (pools : Pools) :
    NodeBlocks → List Nat → Prop
  | .nil, items => items = []
  | .cons first rest, items => ∃ item others, items = item :: others ∧
      first.Encodes memory strings pools item ∧
        rest.Encodes memory strings pools others
end

section

variable {strings : Nat} {pools : Pools}

theorem PropertyBlock.Placed.encodes {block : PropertyBlock} {start prop : Nat}
    (placed : block.Placed strings pools start prop)
    (here : block.At memory strings start) :
    block.Encodes memory strings pools prop := by
  have held := here.held
  simp only [PropertyBlock.core, ByteMemory.holds_append, length_tokenBytes,
    length_bigEndian] at held
  refine ⟨placed.name, ?_, placed.valueLen, ?_⟩
  · rw [placed.name]
    exact here.reads
  · rw [placed.value]
    exact held.2.2.2.1

theorem PropertiesPlaced.encodes {blocks : List PropertyBlock} {address prop : Nat}
    (placed : PropertiesPlaced strings pools blocks address prop)
    (here : PropertiesAt memory strings blocks address) :
    List.Forall₂ (PropertyBlock.Encodes memory strings pools) blocks
      (List.range' prop blocks.length) := by
  induction blocks generalizing address prop with
  | nil => exact .nil
  | cons block blocks induction =>
      obtain ⟨firstFormed, restFormed⟩ := List.forall_mem_cons.mp here.wellFormed
      obtain ⟨firstReads, restReads⟩ := List.forall_mem_cons.mp here.reads
      have held := here.held
      rw [List.flatMap_cons, ByteMemory.holds_append] at held
      exact .cons
        (placed.1.encodes
          ⟨firstFormed, firstReads, PropertyBlock.holds_core held.1⟩)
        (induction placed.2 ⟨restFormed, restReads, held.2⟩)

mutual
theorem NodeBlock.Placed.encodes : {block : NodeBlock} →
    {start item prop : Nat} → block.Placed strings pools start item prop →
    block.At memory strings start → block.Encodes memory strings pools item
  | .node nops name padding properties children endNops, start, item, prop, placed,
      here => by
      obtain ⟨nameAt, propertyPath, propertiesPlaced, childPath, childrenPlaced⟩ :=
        placed
      obtain ⟨propertiesHeld, childrenHeld, _⟩ := NodeBlock.holds_body here.held
      obtain ⟨noNul, _, propertiesFormed, childrenFormed⟩ := here.wellFormed
      obtain ⟨propertiesRead, childrenRead⟩ := List.forall_mem_append.mp here.reads
      refine ⟨⟨?_, noNul⟩, ⟨_, propertyPath, ?_⟩, _, childPath, ?_⟩
      · rw [nameAt]
        exact NodeBlock.holds_name here.held
      · exact propertiesPlaced.encodes
          ⟨propertiesFormed, propertiesRead, propertiesHeld⟩
      · exact NodeBlocks.Placed.encodes childrenPlaced
          ⟨childrenFormed, childrenRead, childrenHeld⟩

theorem NodeBlocks.Placed.encodes : {blocks : NodeBlocks} →
    {address item prop : Nat} → blocks.Placed strings pools address item prop →
    blocks.At memory strings address →
    blocks.Encodes memory strings pools (blocks.forest.items item)
  | .nil, _, _, _, _, _ => rfl
  | .cons first rest, address, item, prop, placed, here => by
      obtain ⟨firstRead, restRead⟩ := List.forall_mem_append.mp here.reads
      have held := here.held
      simp only [NodeBlocks.bytes, ByteMemory.holds_append, length_nopBytes,
        List.length_append] at held
      refine ⟨item, _, rfl, ?_, ?_⟩
      · exact NodeBlock.Placed.encodes placed.1
          ⟨here.wellFormed.1, firstRead, held.1.2⟩
      · refine NodeBlocks.Placed.encodes placed.2
          ⟨here.wellFormed.2, restRead, ?_⟩
        rw [first.length_bytes]
        exact held.2
end

/-! What a block has beyond the tree it encodes: NOPs, name offsets and padding. -/

def PropertyBlock.layout (block : PropertyBlock) : PropertyBlock :=
  { block with property := ⟨[], []⟩ }

mutual
def NodeBlock.layout : NodeBlock → NodeBlock
  | .node nops _ padding properties children endNops =>
      .node nops [] padding (properties.map PropertyBlock.layout) children.layout
        endNops

def NodeBlocks.layout : NodeBlocks → NodeBlocks
  | .nil => .nil
  | .cons first rest => .cons first.layout rest.layout
end

theorem PropertyBlock.Encodes.bytes_eq {first second : PropertyBlock} {prop : Nat}
    (one : first.Encodes memory strings pools prop)
    (two : second.Encodes memory strings pools prop)
    (same : first.layout = second.layout) : first.bytes = second.bytes := by
  have value :=
    one.value.eq_of_length two.value (one.valueLen.symm.trans two.valueLen)
  simp only [layout, PropertyBlock.mk.injEq] at same
  rw [bytes, core, bytes, core, value, same.1, same.2.1, same.2.2.2]

theorem properties_bytes_eq {first second : List PropertyBlock} {props : List Nat}
    (one : List.Forall₂ (PropertyBlock.Encodes memory strings pools) first props)
    (two : List.Forall₂ (PropertyBlock.Encodes memory strings pools) second props)
    (same : first.map PropertyBlock.layout = second.map PropertyBlock.layout) :
    first.flatMap PropertyBlock.bytes = second.flatMap PropertyBlock.bytes := by
  induction one generalizing second with
  | nil =>
      cases two
      rfl
  | cons here _ induction =>
      cases two with
      | cons there others =>
          simp only [List.map_cons, List.cons.injEq] at same
          rw [List.flatMap_cons, List.flatMap_cons, here.bytes_eq there same.1,
            induction others same.2]

theorem NodeBlock.nops_layout (block : NodeBlock) : block.layout.nops =
    block.nops := by
  cases block
  rfl

mutual
theorem NodeBlock.Encodes.core_eq : {first second : NodeBlock} → {item : Nat} →
    first.Encodes memory strings pools item →
    second.Encodes memory strings pools item → first.layout = second.layout →
    first.core = second.core
  | .node _ _ _ _ _ _, .node _ _ _ _ _ _, item, one, two, same => by
      obtain ⟨name, ⟨props, path, properties⟩, items, childPath, children⟩ := one
      obtain ⟨name', ⟨props', path', properties'⟩, items', childPath', children'⟩ :=
        two
      simp only [NodeBlock.layout, NodeBlock.node.injEq] at same
      obtain ⟨_, _, padding, propertyLayouts, childLayouts, endNops⟩ := same
      cases path.unique path'
      cases childPath.unique childPath'
      rw [NodeBlock.core, NodeBlock.core, name.unique name', padding,
        properties_bytes_eq properties properties' propertyLayouts,
        NodeBlocks.Encodes.bytes_eq children children' childLayouts, endNops]

theorem NodeBlocks.Encodes.bytes_eq : {first second : NodeBlocks} →
    {items : List Nat} → first.Encodes memory strings pools items →
    second.Encodes memory strings pools items → first.layout = second.layout →
    first.bytes = second.bytes
  | .nil, .nil, _, _, _, _ => rfl
  | .nil, .cons _ _, _, _, _, same => by
      cases same
  | .cons _ _, .nil, _, _, _, same => by
      cases same
  | .cons first rest, .cons first' rest', items, one, two, same => by
      obtain ⟨item, others, rfl, here, later⟩ := one
      obtain ⟨_, _, split, here', later'⟩ := two
      cases split
      simp only [NodeBlocks.layout, NodeBlocks.cons.injEq] at same
      have nops : first.nops = first'.nops := by
        rw [← first.nops_layout, same.1, first'.nops_layout]
      rw [NodeBlocks.bytes, NodeBlocks.bytes, nops,
        NodeBlock.Encodes.core_eq here here' same.1,
        NodeBlocks.Encodes.bytes_eq later later' same.2]
end

theorem NodeBlock.Encodes.bytes_eq {first second : NodeBlock} {item : Nat}
    (one : first.Encodes memory strings pools item)
    (two : second.Encodes memory strings pools item)
    (same : first.layout = second.layout) : first.bytes = second.bytes := by
  have nops : first.nops = second.nops := by
    rw [← first.nops_layout, same, second.nops_layout]
  rw [NodeBlock.bytes, NodeBlock.bytes, nops, one.core_eq two same]

end

/-! The whole blob. -/

theorem DeviceTree.parse_eq_ok {tree : DeviceTree} {cursor : Nat}
    {pools after : Pools}
    (returned : DeviceTree.parse memory rounds header pools =
      .ok (tree, cursor, after)) :
    header.Checked memory ∧
      DeviceTreeNode.parse memory rounds header rounds (header.structureBlock memory)
        pools = .ok (some tree.root, cursor, after) ∧
      isToken memory cursor .structureEnd = true ∧
      tree.bootCpuidPhys = swapEndianness32 (header.bootCpuidPhys memory) := by
  rw [DeviceTree.parse] at returned
  split at returned
  · contradiction
  case isFalse magic =>
    split at returned
    · contradiction
    case isFalse version =>
      obtain ⟨⟨root, next, pools'⟩, parsed, rest⟩ := Outcome.bind_eq_ok.mp returned
      dsimp only at rest
      split at rest
      · contradiction
      case isFalse isEnd =>
        cases root with
        | none => contradiction
        | some root =>
            cases rest
            refine ⟨⟨not_not.mp magic, ?_⟩, parsed, eq_true_of_not_not isEnd, rfl⟩
            by_contra neither
            exact version (not_or.mp neither)

/-- A blob whose structure block is `root` and then `FDT_END`. -/
structure NodeBlock.Spans (memory : ByteMemory) (header : DeviceTreeHeadersRaw)
    (root : NodeBlock) (cursor : Nat) : Prop where
  wellFormed : root.WellFormed
  held : memory.Holds (header.structureBlock memory)
    (root.bytes ++ tokenBytes .structureEnd)
  cursor : cursor = header.structureBlock memory + root.bytes.length

theorem DeviceTree.parse_decode {tree : DeviceTree} {cursor : Nat} {pools : Pools}
    (aligned : header.structureBlock memory % 4 = 0)
    (returned : DeviceTree.parse memory rounds header Pools.empty =
      .ok (tree, cursor, pools)) :
    ∃ root : NodeBlock, root.Spans memory header cursor ∧
      root.At memory (header.strings memory)
        (header.structureBlock memory + 4 * root.nops) ∧
      root.tree.Fits ∧ TreeAdded Pools.empty pools root.tree ∧
      tree.root = 0 ∧ root.Placed (header.strings memory) pools
        (header.structureBlock memory + 4 * root.nops) 0 0 := by
  obtain ⟨_, parsed, isEnd, _⟩ := DeviceTree.parse_eq_ok returned
  have skips : ∃ start, skipNops memory rounds (header.structureBlock memory) =
      .ok start := by
    cases rounds with
    | zero => contradiction
    | succ rounds =>
        obtain ⟨start, skipped, _⟩ := DeviceTreeNode.parse_eq_ok parsed
        exact ⟨start, skipped⟩
  obtain ⟨start, skipped⟩ := skips
  obtain ⟨nops, first, nopsHeld⟩ := skipNops_decode skipped
  obtain ⟨root, leads, here, ends, loaded⟩ := DeviceTreeNode.parse_decode rounds nops
    _ _ _ _ _ _ skipped (by omega) parsed
  subst leads first
  have length := root.length_bytes
  have cursorAt : cursor = header.structureBlock memory + root.bytes.length := by
    omega
  obtain ⟨first, fits, added, placed⟩ := NodeBlock.placed_of_load loaded
  refine ⟨root, ⟨here.wellFormed, ?_, cursorAt⟩, here, fits, added, first, placed⟩
  rw [ByteMemory.holds_append, ← cursorAt, NodeBlock.bytes, ByteMemory.holds_append,
    length_nopBytes]
  exact ⟨⟨nopsHeld, here.held⟩, holds_of_isToken isEnd⟩

/-- Every blob that is accepted is an encoding of the tree that is returned: the
words up to the cursor are `root`, and every other block that has its NOPs,
padding and name offsets and encodes the same tree is the same words. -/
theorem DeviceTree.parse_accepts_encoding {tree : DeviceTree} {cursor : Nat}
    {pools : Pools} (aligned : header.address % 4 = 0)
    (offset : (swapEndianness32 (header.offDtStruct memory)).toNat % 4 = 0)
    (returned : DeviceTree.parse memory rounds header Pools.empty =
      .ok (tree, cursor, pools)) :
    ∃ root : NodeBlock, root.Spans memory header cursor ∧
      root.Encodes memory (header.strings memory) pools tree.root ∧
      (pools.nodes tree.root).next = none ∧
      ∀ other : NodeBlock,
        other.Encodes memory (header.strings memory) pools tree.root →
          other.layout = root.layout → other.bytes = root.bytes := by
  have start : header.structureBlock memory % 4 = 0 := by
    rw [DeviceTreeHeadersRaw.structureBlock]
    omega
  obtain ⟨root, spans, here, _, added, first, placed⟩ :=
    DeviceTree.parse_decode start returned
  have encodes := placed.encodes here
  rw [first]
  exact ⟨root, spans, encodes, added.next, fun other others same =>
    others.bytes_eq encodes same⟩

theorem PropertyBlock.Named.reads {memory : ByteMemory} {strings : Nat}
    {block : PropertyBlock} (named : block.Named memory strings)
    (noNul : 0 ∉ block.property.name) : block.Reads memory strings :=
  ⟨noNul, fun _ there => ByteMemory.Text.unique ⟨named, noNul⟩ there⟩

mutual
theorem NodeBlock.WellFormed.noNul : {block : NodeBlock} → block.WellFormed →
    ∀ property ∈ block.allProperties, 0 ∉ property.property.name
  | .node _ _ _ _ _ _, wellFormed =>
      List.forall_mem_append.mpr
        ⟨fun property member => (wellFormed.2.2.1 property member).name,
          NodeBlocks.WellFormed.noNul wellFormed.2.2.2⟩

theorem NodeBlocks.WellFormed.noNul : {blocks : NodeBlocks} → blocks.WellFormed →
    ∀ property ∈ blocks.allProperties, 0 ∉ property.property.name
  | .nil, _ => List.forall_mem_nil _
  | .cons _ _, wellFormed =>
      List.forall_mem_append.mpr
        ⟨NodeBlock.WellFormed.noNul wellFormed.1,
          NodeBlocks.WellFormed.noNul wellFormed.2⟩
end

theorem EncodedAt.at_root {cpuid structOffset stringsOffset : UInt32}
    {root : NodeBlock}
    (encoded : EncodedAt memory header cpuid structOffset stringsOffset root)
    (wellFormed : root.WellFormed) :
    root.At memory (header.strings memory)
      (header.structureBlock memory + 4 * root.nops) where
  wellFormed := wellFormed
  reads := by
    rw [encoded.strings_eq]
    exact fun property member => (encoded.strings property member).reads
      (wellFormed.noNul property member)
  held := by
    have held := (ByteMemory.holds_append.mp encoded.structureBlock).1
    rw [NodeBlock.bytes, ByteMemory.holds_append, length_nopBytes,
      ← encoded.structureBlock_eq] at held
    exact held.2

def sampleMemory : ByteMemory :=
  .ofBytes 4096 (blobBytes 3 NodeBlock.sample sampleStrings)

theorem DeviceTree.parse_sampleMemory :
    ∃ pools, DeviceTree.parse sampleMemory 256 ⟨4096⟩ Pools.empty =
      .ok (⟨3, 0⟩, 4096 + blobStructureOffset + NodeBlock.sample.bytes.length,
        pools) := by
  obtain ⟨pools, parsed, _⟩ := DeviceTree.parse_fits NodeBlock.sample_encodedAt
    NodeBlock.sample_wellFormed ⟨by decide, by decide⟩
    (show NodeBlock.sample.bytes.length < 256 by decide) (Nat.le_refl _)
  exact ⟨pools, parsed⟩

theorem sampleMemory_offset :
    (swapEndianness32 ((⟨4096⟩ : DeviceTreeHeadersRaw).offDtStruct
      sampleMemory)).toNat % 4 = 0 := by
  have offset := ByteMemory.swap_load32 NodeBlock.sample_encodedAt.offDtStruct
  rw [DeviceTreeHeadersRaw.offDtStruct, sampleMemory, offset]
  decide

theorem DeviceTree.parse_accepts_encoding_sample :
    ∃ (tree : DeviceTree) (cursor : Nat) (pools : Pools) (root : NodeBlock),
      root.Spans sampleMemory ⟨4096⟩ cursor ∧
      root.Encodes sampleMemory
        ((⟨4096⟩ : DeviceTreeHeadersRaw).strings sampleMemory) pools tree.root ∧
      (pools.nodes tree.root).next = none ∧
      ∀ other : NodeBlock,
        other.Encodes sampleMemory
          ((⟨4096⟩ : DeviceTreeHeadersRaw).strings sampleMemory) pools tree.root →
          other.layout = root.layout → other.bytes = root.bytes := by
  obtain ⟨pools, returned⟩ := DeviceTree.parse_sampleMemory
  exact ⟨_, _, pools, DeviceTree.parse_accepts_encoding
    (show (⟨4096⟩ : DeviceTreeHeadersRaw).address % 4 = 0 by decide)
    sampleMemory_offset returned⟩

end Thos.Device
