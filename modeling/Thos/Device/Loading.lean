import Thos.Device.FlattenedTree

namespace Thos.Device

open Thos.Kernel

/-! Parsing a blob is loading its blocks one after the other: the cursor and the
tokens drop out, and what remains is the allocation of the items. -/

variable {memory : ByteMemory} {rounds : Nat} {header : DeviceTreeHeadersRaw}

def PropertyBlock.load (strings : Nat) (block : PropertyBlock) (start : Nat)
    (pools : Pools) : Outcome (Nat × Pools) :=
  match pools.nextFreeProp with
  | (none, _) => throw .nullAccess
  | (some parsed, pools) =>
      pure (parsed, pools.setProp parsed { pools.props parsed with
        name := strings + block.nameoff.toNat
        value := start + 12
        valueLen := block.property.value.length })

def loadProperties (rounds strings node : Nat) :
    List PropertyBlock → Nat → Pools → Outcome Pools
  | [], _, pools => pure pools
  | block :: blocks, address, pools => do
      let (prop, pools) ← block.load strings (address + 4 * block.nops) pools
      let pools ← addLinked rounds (pools.propertyLinks node)
        (pools.setPropertyLink node prop)
      loadProperties rounds strings node blocks (address + block.bytes.length) pools

mutual
/-- The node whose `FDT_BEGIN_NODE` is at `start`. -/
def NodeBlock.load (rounds strings : Nat) :
    NodeBlock → Nat → Pools → Outcome (Nat × Pools)
  | .node _ name padding properties children _, start, pools =>
      match pools.nextFreeNode with
      | (none, _) => throw .nullAccess
      | (some parsed, pools) => do
          let pools := pools.setNode parsed
            { pools.nodes parsed with name := start + 4 }
          let address := start + 4 + (name.length + (padding.length + 1))
          let pools ← loadProperties rounds strings parsed properties address pools
          let pools ← children.load rounds strings parsed
            (address + (properties.flatMap PropertyBlock.bytes).length) pools
          pure (parsed, pools)

def NodeBlocks.load (rounds strings node : Nat) :
    NodeBlocks → Nat → Pools → Outcome Pools
  | .nil, _, pools => pure pools
  | .cons first rest, address, pools => do
      let (child, pools) ← first.load rounds strings (address + 4 * first.nops) pools
      let pools ← addLinked rounds (pools.childLinks node)
        (pools.setChildLink node child)
      rest.load rounds strings node (address + first.bytes.length) pools
end

/-! Alignment. -/

theorem alignUp_add {start : Nat} (aligned : start % 4 = 0) (length : Nat) :
    alignUp (start + length) 4 = start + (length + paddingLength length) := by
  rw [alignUp, paddingLength]
  split <;> omega

theorem paddingLength_aligned (length : Nat) :
    (length + paddingLength length) % 4 = 0 := by
  rw [paddingLength]
  omega

@[simp] theorem length_nopBytes (nops : Nat) : (nopBytes nops).length = 4 * nops := by
  induction nops with
  | zero => rfl
  | succ nops induction =>
      rw [nopBytes, List.length_append, induction]
      exact (Nat.mul_succ 4 nops).symm ▸ Nat.add_comm ..

@[simp] theorem length_tokenBytes (token : DeviceTreeStructureBlockToken) :
    (tokenBytes token).length = 4 := rfl

theorem PropertyBlock.length_core (block : PropertyBlock) :
    block.core.length =
      12 + (block.property.value.length + block.padding.length) := by
  simp only [core, List.length_append, length_tokenBytes, length_bigEndian]
  omega

theorem PropertyBlock.length_bytes (block : PropertyBlock) :
    block.bytes.length = 4 * block.nops + block.core.length := by
  rw [bytes, List.length_append, length_nopBytes]

theorem PropertyBlock.WellFormed.core_aligned {block : PropertyBlock}
    (wellFormed : block.WellFormed) : block.core.length % 4 = 0 := by
  have padded := paddingLength_aligned block.property.value.length
  rw [block.length_core, wellFormed.padding]
  omega

theorem length_properties_aligned {blocks : List PropertyBlock}
    (wellFormed : ∀ block ∈ blocks, block.WellFormed) :
    (blocks.flatMap PropertyBlock.bytes).length % 4 = 0 := by
  induction blocks with
  | nil => rfl
  | cons block blocks induction =>
      have first := (wellFormed block (List.mem_cons_self ..)).core_aligned
      have rest := induction fun other member =>
        wellFormed other (List.mem_cons_of_mem _ member)
      rw [List.flatMap_cons, List.length_append, block.length_bytes]
      omega

theorem NodeBlock.length_core (nops : Nat) (name padding : List UInt8)
    (properties : List PropertyBlock) (children : NodeBlocks) (endNops : Nat) :
    (NodeBlock.node nops name padding properties children endNops).core.length =
      4 + (name.length + (padding.length + 1)) +
        (properties.flatMap PropertyBlock.bytes).length + children.bytes.length +
          (4 * endNops + 4) := by
  simp only [core, List.length_append, List.length_cons, length_tokenBytes,
    length_nopBytes]
  omega

theorem NodeBlock.length_bytes (block : NodeBlock) :
    block.bytes.length = 4 * block.nops + block.core.length := by
  rw [bytes, List.length_append, length_nopBytes]

theorem NodeBlocks.length_bytes (first : NodeBlock) (rest : NodeBlocks) :
    (NodeBlocks.cons first rest).bytes.length =
      first.bytes.length + rest.bytes.length := by
  rw [NodeBlocks.bytes, List.length_append]
  rfl

mutual
theorem NodeBlock.core_aligned : (block : NodeBlock) → block.WellFormed →
    block.core.length % 4 = 0
  | .node nops name padding properties children endNops, wellFormed => by
      obtain ⟨_, padded, propertiesFormed, childrenFormed⟩ := wellFormed
      have properties := length_properties_aligned propertiesFormed
      have children := children.bytes_aligned childrenFormed
      have named := paddingLength_aligned (name.length + 1)
      rw [NodeBlock.length_core, padded]
      omega

theorem NodeBlocks.bytes_aligned : (blocks : NodeBlocks) → blocks.WellFormed →
    blocks.bytes.length % 4 = 0
  | .nil, _ => rfl
  | .cons first rest, wellFormed => by
      have first := first.core_aligned wellFormed.1
      have rest := rest.bytes_aligned wellFormed.2
      rw [NodeBlocks.length_bytes, NodeBlock.length_bytes]
      omega
end

/-! Tokens and NOPs. -/

theorem isToken_of_holds {address : Nat} {written : DeviceTreeStructureBlockToken}
    (token : DeviceTreeStructureBlockToken)
    (holds : memory.Holds address (tokenBytes written)) :
    isToken memory address token = decide (written = token) := by
  have equal := ByteMemory.load32_eq_iff token.value holds
  have injective : written.value = token.value ↔ written = token := by
    cases written <;> cases token <;> decide
  rw [isToken, beq_eq_decide, decide_eq_decide, equal, injective]

theorem skipNops_of_not_nop {pointer : Nat} (positive : 0 < rounds)
    (plain : isToken memory pointer .structureNop = false) :
    skipNops memory rounds pointer = .ok pointer := by
  obtain ⟨rounds, rfl⟩ := Nat.exists_eq_succ_of_ne_zero (Nat.ne_of_gt positive)
  rw [skipNops, plain]
  rfl

theorem skipNops_not_nop {pointer start : Nat}
    (skipped : skipNops memory rounds pointer = .ok start) :
    isToken memory start .structureNop = false := by
  induction rounds generalizing pointer with
  | zero => contradiction
  | succ rounds induction =>
      rw [skipNops] at skipped
      split at skipped
      · exact induction skipped
      case isFalse plain =>
        cases skipped
        exact Bool.eq_false_of_not_eq_true plain

theorem skipNops_fixed {pointer start : Nat}
    (skipped : skipNops memory rounds pointer = .ok start) :
    skipNops memory rounds start = .ok start := by
  apply skipNops_of_not_nop _ (skipNops_not_nop skipped)
  cases rounds with
  | zero => contradiction
  | succ rounds => exact Nat.succ_pos rounds

theorem skipNops_nopBytes {address nops : Nat}
    {token : DeviceTreeStructureBlockToken} (other : token ≠ .structureNop)
    (holds : memory.Holds address (nopBytes nops ++ tokenBytes token))
    (enough : nops < rounds) :
    skipNops memory rounds address = .ok (address + 4 * nops) := by
  induction nops generalizing address rounds with
  | zero =>
      apply skipNops_of_not_nop enough
      rw [isToken_of_holds _ holds, decide_eq_false other]
  | succ nops induction =>
      obtain ⟨rounds, rfl⟩ := Nat.exists_eq_succ_of_ne_zero
        (Nat.ne_of_gt (Nat.zero_lt_of_lt enough))
      rw [nopBytes, List.append_assoc, ByteMemory.holds_append,
        length_tokenBytes] at holds
      rw [skipNops, isToken_of_holds _ holds.1, decide_eq_true rfl, if_pos rfl,
        induction holds.2 (Nat.lt_of_succ_lt_succ enough)]
      congr 1
      omega

theorem nodeNameEnd_of_holds {address : Nat} {name : List UInt8}
    (holds : memory.Holds address (name ++ [0])) (nonzero : 0 ∉ name)
    (enough : name.length < rounds) :
    nodeNameEnd memory rounds address = .ok (address + name.length) := by
  induction name generalizing address rounds with
  | nil =>
      obtain ⟨rounds, rfl⟩ := Nat.exists_eq_succ_of_ne_zero (Nat.ne_of_gt enough)
      rw [nodeNameEnd, if_neg (not_not.mpr holds.1)]
      rfl
  | cons byte name induction =>
      obtain ⟨rounds, rfl⟩ := Nat.exists_eq_succ_of_ne_zero
        (Nat.ne_of_gt (Nat.zero_lt_of_lt enough))
      have notZero : memory address ≠ 0 := by
        rw [holds.1]
        intro zero
        exact nonzero (zero ▸ List.mem_cons_self ..)
      rw [nodeNameEnd, if_pos notZero, induction holds.2
        (fun member => nonzero (List.mem_cons_of_mem _ member))
        (Nat.lt_of_succ_lt_succ enough), List.length_cons]
      congr 1
      omega

/-! Properties. -/

theorem DeviceTreeProperty.parse_none {pointer start : Nat} (pools : Pools)
    (skipped : skipNops memory rounds pointer = .ok start)
    (other : isToken memory start .structureProp = false) :
    DeviceTreeProperty.parse memory rounds header pointer pools =
      .ok (none, start, pools) := by
  simp [DeviceTreeProperty.parse, skipped, other]

theorem DeviceTreeProperty.parse_block {block : PropertyBlock} {pointer start : Nat}
    (pools : Pools) (wellFormed : block.WellFormed)
    (skipped : skipNops memory rounds pointer = .ok start)
    (holds : memory.Holds start block.core) (aligned : start % 4 = 0) :
    DeviceTreeProperty.parse memory rounds header pointer pools =
      (block.load (header.strings memory) start pools).map fun loaded =>
        (some loaded.1, start + block.core.length, loaded.2) := by
  simp only [PropertyBlock.core, ByteMemory.holds_append, length_tokenBytes,
    length_bigEndian] at holds
  obtain ⟨token, length, nameoff, _⟩ := holds
  have isProp : isToken memory start .structureProp = true := by
    rw [isToken_of_holds _ token, decide_eq_true rfl]
  have lengthRead : (swapEndianness32 (memory.load32 (start + 4))).toNat =
      block.property.value.length := by
    rw [ByteMemory.swap_load32 length, UInt32.toNat_ofNat_of_lt' wellFormed.length]
  have nameRead : swapEndianness32 (memory.load32 (start + 4 + 4)) = block.nameoff :=
    ByteMemory.swap_load32 nameoff
  have finish : alignUp (start + 4 + 8 + block.property.value.length) 4 =
      start + block.core.length := by
    rw [Nat.add_assoc, Nat.add_assoc, alignUp_add aligned, block.length_core,
      wellFormed.padding]
    simp only [paddingLength]
    omega
  simp only [DeviceTreeProperty.parse, skipped, Outcome.ok_bind, isProp,
    Bool.not_true, Bool.false_eq_true, if_false, lengthRead, nameRead, finish,
    PropertyBlock.load]
  rcases pools.nextFreeProp with ⟨_ | parsed, rest⟩
  · rfl
  · rfl

theorem PropertyBlock.skipNops_bytes {block : PropertyBlock} {address : Nat}
    (holds : memory.Holds address block.bytes) (enough : block.nops < rounds) :
    skipNops memory rounds address = .ok (address + 4 * block.nops) := by
  rw [bytes, core, ← List.append_assoc, ByteMemory.holds_append] at holds
  exact skipNops_nopBytes (by decide) holds.1 enough

theorem PropertyBlock.holds_core {block : PropertyBlock} {address : Nat}
    (holds : memory.Holds address block.bytes) :
    memory.Holds (address + 4 * block.nops) block.core := by
  rw [bytes, ByteMemory.holds_append, length_nopBytes] at holds
  exact holds.2

theorem parseProperties_blocks {blocks : List PropertyBlock}
    {fuel node pointer address finish : Nat} (pools : Pools)
    (wellFormed : ∀ block ∈ blocks, block.WellFormed)
    (holds : memory.Holds address (blocks.flatMap PropertyBlock.bytes))
    (aligned : address % 4 = 0)
    (starts : skipNops memory rounds pointer = skipNops memory rounds address)
    (ends : skipNops memory rounds
      (address + (blocks.flatMap PropertyBlock.bytes).length) = .ok finish)
    (other : isToken memory finish .structureProp = false)
    (enough : (blocks.flatMap PropertyBlock.bytes).length < rounds)
    (fuelEnough : (blocks.flatMap PropertyBlock.bytes).length < fuel) :
    parseProperties memory rounds header node fuel pointer pools =
      (loadProperties rounds (header.strings memory) node blocks address pools).map
        fun loaded => (finish, loaded) := by
  induction blocks generalizing fuel pointer address pools with
  | nil =>
      obtain ⟨fuel, rfl⟩ := Nat.exists_eq_succ_of_ne_zero (Nat.ne_of_gt fuelEnough)
      have skipped := starts.trans ends
      rw [parseProperties, skipped, Outcome.ok_bind,
        DeviceTreeProperty.parse_none pools (skipNops_fixed skipped) other]
      rfl
  | cons block blocks induction =>
      obtain ⟨fuel, rfl⟩ := Nat.exists_eq_succ_of_ne_zero
        (Nat.ne_of_gt (Nat.zero_lt_of_lt fuelEnough))
      have formed := wellFormed block (List.mem_cons_self ..)
      simp only [List.flatMap_cons, ByteMemory.holds_append, List.length_append]
        at holds ends enough fuelEnough
      have bytes := block.length_bytes
      have coreLength := block.length_core
      have coreAligned := formed.core_aligned
      have skipped : skipNops memory rounds pointer =
          .ok (address + 4 * block.nops) :=
        starts.trans (PropertyBlock.skipNops_bytes holds.1 (by omega))
      have next : address + 4 * block.nops + block.core.length =
          address + block.bytes.length := by omega
      rw [parseProperties, skipped, Outcome.ok_bind,
        DeviceTreeProperty.parse_block pools formed (skipNops_fixed skipped)
          (PropertyBlock.holds_core holds.1) (by omega), loadProperties, next]
      cases block.load (header.strings memory) (address + 4 * block.nops) pools with
      | error stop => rfl
      | ok loaded =>
          obtain ⟨prop, pools⟩ := loaded
          simp only [Except.map, Outcome.ok_bind]
          cases addLinked rounds (pools.propertyLinks node)
              (pools.setPropertyLink node prop) with
          | error stop => rfl
          | ok pools =>
              exact induction pools
                (fun later member =>
                  wellFormed later (List.mem_cons_of_mem _ member))
                holds.2 (by omega) rfl (by rw [Nat.add_assoc]; exact ends)
                (by omega) (by omega)

/-! Nodes. -/

theorem NodeBlock.core_eq (block : NodeBlock) :
    ∃ rest, block.core = tokenBytes .structureBeginNode ++ rest := by
  cases block
  exact ⟨_, rfl⟩

theorem NodeBlock.four_le_core (block : NodeBlock) : 4 ≤ block.core.length := by
  obtain ⟨rest, core⟩ := block.core_eq
  rw [core, List.length_append, length_tokenBytes]
  exact Nat.le_add_right ..

theorem NodeBlocks.skipNops_bytes {first : NodeBlock} {rest : NodeBlocks}
    {address : Nat} (holds : memory.Holds address (NodeBlocks.cons first rest).bytes)
    (enough : first.nops < rounds) :
    skipNops memory rounds address = .ok (address + 4 * first.nops) := by
  obtain ⟨tail, core⟩ := first.core_eq
  rw [NodeBlocks.bytes, core, ← List.append_assoc, List.append_assoc,
    ByteMemory.holds_append] at holds
  exact skipNops_nopBytes (by decide) holds.1 enough

theorem DeviceTreeNode.parse_none {fuel pointer start : Nat} (pools : Pools)
    (skipped : skipNops memory rounds pointer = .ok start)
    (other : isToken memory start .structureBeginNode = false)
    (enough : 0 < fuel) :
    DeviceTreeNode.parse memory rounds header fuel pointer pools =
      .ok (none, start, pools) := by
  obtain ⟨fuel, rfl⟩ := Nat.exists_eq_succ_of_ne_zero (Nat.ne_of_gt enough)
  simp [DeviceTreeNode.parse, skipped, other]

theorem parseNodeName_of_holds {start : Nat} {name padding rest : List UInt8}
    (holds : memory.Holds start (name ++ ((0 :: padding) ++ rest)))
    (nonzero : 0 ∉ name) (padded : padding.length = paddingLength (name.length + 1))
    (aligned : start % 4 = 0) (enough : name.length < rounds) :
    parseNodeName memory rounds start =
      .ok (start, start + (name.length + (padding.length + 1))) := by
  have terminated : memory.Holds start (name ++ [0]) := by
    rw [ByteMemory.holds_append] at holds ⊢
    exact ⟨holds.1, holds.2.1, trivial⟩
  have finish : alignUp (start + name.length + 1) 4 =
      start + (name.length + (padding.length + 1)) := by
    rw [Nat.add_assoc, alignUp_add aligned, padded]
    omega
  rw [parseNodeName, nodeNameEnd_of_holds terminated nonzero enough,
    Outcome.ok_bind, finish]
  rfl

theorem NodeBlock.holds_body {nops endNops start : Nat} {name padding : List UInt8}
    {properties : List PropertyBlock} {children : NodeBlocks}
    (holds : memory.Holds start
      (NodeBlock.node nops name padding properties children endNops).core) :
    let address := start + 4 + (name.length + (padding.length + 1))
    let childAddress := address + (properties.flatMap PropertyBlock.bytes).length
    memory.Holds address (properties.flatMap PropertyBlock.bytes) ∧
      memory.Holds childAddress children.bytes ∧
      memory.Holds (childAddress + children.bytes.length)
        (nopBytes endNops ++ tokenBytes .structureEndNode) ∧
      memory.Holds (childAddress + children.bytes.length + 4 * endNops)
        (tokenBytes .structureEndNode) := by
  simp only [NodeBlock.core, ByteMemory.holds_append, length_tokenBytes,
    length_nopBytes, List.length_cons] at holds ⊢
  simp only [← Nat.add_assoc] at holds ⊢
  obtain ⟨_, _, _, propertiesHeld, childrenHeld, nopsHeld, endHeld⟩ := holds
  exact ⟨propertiesHeld, childrenHeld, ⟨nopsHeld, endHeld⟩, endHeld⟩

theorem NodeBlocks.skipNops_children {children : NodeBlocks} {address endNops : Nat}
    (holds : memory.Holds address children.bytes)
    (ends : memory.Holds (address + children.bytes.length)
      (nopBytes endNops ++ tokenBytes .structureEndNode))
    (enough : children.bytes.length + 4 * endNops < rounds) :
    ∃ finish, skipNops memory rounds address = .ok finish ∧
      isToken memory finish .structureProp = false := by
  cases children with
  | nil =>
      refine ⟨_, skipNops_nopBytes (by decide) ends (by omega), ?_⟩
      rw [NodeBlocks.bytes, List.length_nil, Nat.add_zero, ByteMemory.holds_append,
        length_nopBytes] at ends
      rw [isToken_of_holds _ ends.2]
      rfl
  | cons first rest =>
      have length := NodeBlocks.length_bytes first rest
      have bytes := first.length_bytes
      refine ⟨_, NodeBlocks.skipNops_bytes holds (by omega), ?_⟩
      obtain ⟨tail, core⟩ := first.core_eq
      rw [NodeBlocks.bytes, core, List.append_assoc, List.append_assoc,
        ByteMemory.holds_append, ByteMemory.holds_append, length_nopBytes] at holds
      rw [isToken_of_holds _ holds.2.1]
      rfl

mutual
theorem DeviceTreeNode.parse_block : (block : NodeBlock) → block.WellFormed →
    ∀ (fuel pointer start : Nat) (pools : Pools),
      skipNops memory rounds pointer = .ok start →
      memory.Holds start block.core → start % 4 = 0 →
      block.core.length < rounds → block.core.length < fuel →
      DeviceTreeNode.parse memory rounds header fuel pointer pools =
        (block.load rounds (header.strings memory) start pools).map fun loaded =>
          (some loaded.1, start + block.core.length, loaded.2)
  | .node nops name padding properties children endNops, wellFormed => by
      intro fuel pointer start pools skipped holds aligned enough fuelEnough
      obtain ⟨nonzero, padded, propertiesFormed, childrenFormed⟩ := wellFormed
      have length := NodeBlock.length_core nops name padding properties children
        endNops
      have named := paddingLength_aligned (name.length + 1)
      have propertiesAligned := length_properties_aligned propertiesFormed
      obtain ⟨fuel, rfl⟩ := Nat.exists_eq_succ_of_ne_zero
        (Nat.ne_of_gt (Nat.zero_lt_of_lt fuelEnough))
      obtain ⟨propertiesHeld, childrenHeld, endHeld, endToken⟩ :=
        NodeBlock.holds_body holds
      rw [NodeBlock.core, ByteMemory.holds_append, length_tokenBytes] at holds
      have isBegin : isToken memory start .structureBeginNode = true := by
        rw [isToken_of_holds _ holds.1]
        rfl
      have isEnd := isToken_of_holds .structureEndNode endToken
      have nameRead := parseNodeName_of_holds holds.2 nonzero padded
        (by omega) (show name.length < rounds by omega)
      obtain ⟨finish, childSkipped, notProp⟩ := NodeBlocks.skipNops_children
        childrenHeld endHeld (show _ < rounds by omega)
      have endSkipped := skipNops_nopBytes (by decide) endHeld
        (show endNops < rounds by omega)
      have notBegin : isToken memory _ .structureBeginNode = false :=
        isToken_of_holds .structureBeginNode endToken
      simp only [DeviceTreeNode.parse, skipped, Outcome.ok_bind, isBegin,
        Bool.not_true, Bool.false_eq_true, if_false, nameRead, NodeBlock.load]
      rcases pools.nextFreeNode with ⟨_ | parsed, pools⟩
      · rfl
      · simp only
        rw [parseProperties_blocks _ propertiesFormed propertiesHeld (by omega) rfl
          childSkipped notProp (by omega) (by omega)]
        cases loadProperties rounds (header.strings memory) parsed properties _
            (pools.setNode parsed { pools.nodes parsed with name := start + 4 }) with
        | error stop => rfl
        | ok pools =>
            simp only [Except.map, Outcome.ok_bind]
            rw [parseChildren_blocks children childrenFormed fuel parsed finish _ _
              pools childrenHeld (by omega)
              ((skipNops_fixed childSkipped).trans childSkipped.symm) endSkipped
              notBegin (by omega) (by omega)]
            cases children.load rounds (header.strings memory) parsed _ pools with
            | error stop => rfl
            | ok pools =>
                simp only [Except.map, Outcome.ok_bind, skipNops_fixed endSkipped,
                  isEnd, decide_true, Bool.not_true, Bool.false_eq_true, if_false,
                  Outcome.pure_eq_ok, length]
                simp only [← Nat.add_assoc]

theorem parseChildren_blocks : (blocks : NodeBlocks) → blocks.WellFormed →
    ∀ (fuel node pointer address finish : Nat) (pools : Pools),
      memory.Holds address blocks.bytes → address % 4 = 0 →
      skipNops memory rounds pointer = skipNops memory rounds address →
      skipNops memory rounds (address + blocks.bytes.length) = .ok finish →
      isToken memory finish .structureBeginNode = false →
      blocks.bytes.length < rounds → blocks.bytes.length + 1 < fuel →
      parseChildren memory rounds header node fuel pointer pools =
        (blocks.load rounds (header.strings memory) node address pools).map
          fun loaded => (finish, loaded)
  | .nil, _ => by
      intro fuel node pointer address finish pools _ _ starts ends other _ enough
      obtain ⟨fuel, rfl⟩ := Nat.exists_eq_succ_of_ne_zero
        (Nat.ne_of_gt (Nat.zero_lt_of_lt enough))
      have skipped := starts.trans ends
      rw [parseChildren, skipped, Outcome.ok_bind,
        DeviceTreeNode.parse_none pools (skipNops_fixed skipped) other
          (Nat.lt_of_succ_lt_succ enough)]
      rfl
  | .cons first rest, wellFormed => by
      intro fuel node pointer address finish pools holds aligned starts ends
        other enough fuelEnough
      obtain ⟨fuel, rfl⟩ := Nat.exists_eq_succ_of_ne_zero
        (Nat.ne_of_gt (Nat.zero_lt_of_lt fuelEnough))
      have length := NodeBlocks.length_bytes first rest
      have bytes := first.length_bytes
      have coreAligned := first.core_aligned wellFormed.1
      have coreLength := first.four_le_core
      have skipped : skipNops memory rounds pointer =
          .ok (address + 4 * first.nops) :=
        starts.trans (NodeBlocks.skipNops_bytes holds (by omega))
      have next : address + 4 * first.nops + first.core.length =
          address + first.bytes.length := by omega
      simp only [NodeBlocks.bytes, ByteMemory.holds_append, length_nopBytes,
        List.length_append] at holds
      rw [parseChildren, skipped, Outcome.ok_bind,
        DeviceTreeNode.parse_block first wellFormed.1 fuel _ _ pools
          (skipNops_fixed skipped) holds.1.2 (by omega) (by omega) (by omega),
        NodeBlocks.load, next]
      cases first.load rounds (header.strings memory) (address + 4 * first.nops)
          pools with
      | error stop => rfl
      | ok loaded =>
          obtain ⟨child, pools⟩ := loaded
          simp only [Except.map, Outcome.ok_bind]
          cases addLinked rounds (pools.childLinks node)
              (pools.setChildLink node child) with
          | error stop => rfl
          | ok pools =>
              exact parseChildren_blocks rest wellFormed.2 fuel node _ _ finish
                pools (bytes ▸ holds.2) (by omega) rfl
                (by rw [Nat.add_assoc, ← length]; exact ends) other (by omega)
                (by omega)
end

/-! The whole blob. -/

def DeviceTreeHeadersRaw.structureBlock (header : DeviceTreeHeadersRaw)
    (memory : ByteMemory) : Nat :=
  header.address + (swapEndianness32 (header.offDtStruct memory)).toNat

theorem EncodedAt.structureBlock_eq {cpuid structOffset stringsOffset : UInt32}
    {root : NodeBlock}
    (encoded : EncodedAt memory header cpuid structOffset stringsOffset root) :
    header.structureBlock memory = header.address + structOffset.toNat :=
  congrArg (fun offset : UInt32 => header.address + offset.toNat)
    (ByteMemory.swap_load32 encoded.offDtStruct)

theorem EncodedAt.strings_eq {cpuid structOffset stringsOffset : UInt32}
    {root : NodeBlock}
    (encoded : EncodedAt memory header cpuid structOffset stringsOffset root) :
    header.strings memory = header.address + stringsOffset.toNat :=
  congrArg (fun offset : UInt32 => header.address + offset.toNat)
    (ByteMemory.swap_load32 encoded.offDtStrings)

structure DeviceTreeHeadersRaw.Checked (header : DeviceTreeHeadersRaw)
    (memory : ByteMemory) : Prop where
  magic : header.magic memory = swapEndianness32 deviceTreeMagic
  version : header.version memory = swapEndianness32 deviceTreeVersion ∨
    header.lastCompVersion memory = swapEndianness32 deviceTreeVersion

/-- A parse of a structure block loads its root, and then looks for `FDT_END`. -/
theorem DeviceTree.parse_checked {root : NodeBlock} (pools : Pools)
    (checked : header.Checked memory) (aligned : header.structureBlock memory % 4 = 0)
    (wellFormed : root.WellFormed)
    (held : memory.Holds (header.structureBlock memory) root.bytes)
    (enough : root.bytes.length < rounds) :
    DeviceTree.parse memory rounds header pools = (do
      let loaded ← root.load rounds (header.strings memory)
        (header.structureBlock memory + 4 * root.nops) pools
      if isToken memory (header.structureBlock memory + root.bytes.length)
          .structureEnd then
        pure (⟨swapEndianness32 (header.bootCpuidPhys memory), loaded.1⟩,
          header.structureBlock memory + root.bytes.length, loaded.2)
      else throw (.panic "device tree structure not closed")) := by
  have version : ¬(header.version memory ≠ swapEndianness32 deviceTreeVersion ∧
      header.lastCompVersion memory ≠ swapEndianness32 deviceTreeVersion) := by
    rintro ⟨first, second⟩
    exact checked.version.elim first second
  have bytes := root.length_bytes
  rw [NodeBlock.bytes, ByteMemory.holds_append, length_nopBytes] at held
  have skipped : skipNops memory rounds (header.structureBlock memory) =
      .ok (header.structureBlock memory + 4 * root.nops) := by
    obtain ⟨rest, core⟩ := root.core_eq
    have begins := held.2
    rw [core, ByteMemory.holds_append] at begins
    have together := ByteMemory.holds_append.mpr
      ⟨held.1, by rw [length_nopBytes]; exact begins.1⟩
    exact skipNops_nopBytes (by decide) together (by omega)
  have finish : header.structureBlock memory + 4 * root.nops + root.core.length =
      header.structureBlock memory + root.bytes.length := by omega
  have parsed : DeviceTreeNode.parse memory rounds header rounds
      (header.structureBlock memory) pools =
        (root.load rounds (header.strings memory)
          (header.structureBlock memory + 4 * root.nops) pools).map fun loaded =>
            (some loaded.1, header.structureBlock memory + root.bytes.length,
              loaded.2) := by
    rw [← finish]
    exact DeviceTreeNode.parse_block root wellFormed rounds _ _ pools skipped held.2
      (by omega) (by omega) (by omega)
  unfold DeviceTreeHeadersRaw.structureBlock at parsed ⊢
  rw [DeviceTree.parse, if_neg (not_not.mpr checked.magic), if_neg version]
  simp only [parsed]
  cases root.load rounds (header.strings memory) _ pools with
  | error stop => rfl
  | ok loaded =>
      simp only [Except.map, Outcome.ok_bind]
      cases isToken memory _ .structureEnd with
      | false => rfl
      | true => rfl

theorem EncodedAt.checked {cpuid structOffset stringsOffset : UInt32}
    {root : NodeBlock}
    (encoded : EncodedAt memory header cpuid structOffset stringsOffset root) :
    header.Checked memory :=
  ⟨ByteMemory.load32_of_holds encoded.magic,
    .inl (ByteMemory.load32_of_holds encoded.version)⟩

theorem DeviceTree.parse_encoded {cpuid structOffset stringsOffset : UInt32}
    {root : NodeBlock} (pools : Pools)
    (encoded : EncodedAt memory header cpuid structOffset stringsOffset root)
    (wellFormed : root.WellFormed) (enough : root.bytes.length < rounds) :
    DeviceTree.parse memory rounds header pools =
      (root.load rounds (header.address + stringsOffset.toNat)
        (header.address + structOffset.toNat + 4 * root.nops) pools).map fun loaded =>
          (⟨cpuid, loaded.1⟩,
            header.address + structOffset.toNat + root.bytes.length, loaded.2) := by
  have pointer := encoded.structureBlock_eq
  have cpuidRead : swapEndianness32 (header.bootCpuidPhys memory) = cpuid :=
    ByteMemory.swap_load32 encoded.bootCpuidPhys
  obtain ⟨blockHeld, endToken⟩ := ByteMemory.holds_append.mp encoded.structureBlock
  have isEnd : isToken memory _ .structureEnd = true :=
    isToken_of_holds .structureEnd endToken
  rw [DeviceTree.parse_checked pools encoded.checked (pointer ▸ encoded.aligned)
    wellFormed (pointer ▸ blockHeld) enough, pointer, encoded.strings_eq, cpuidRead, isEnd]
  cases root.load rounds (header.address + stringsOffset.toNat)
      (header.address + structOffset.toNat + 4 * root.nops) pools with
  | error stop => rfl
  | ok loaded => rfl

end Thos.Device
