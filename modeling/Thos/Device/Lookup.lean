import Thos.Data.LabelledForest
import Thos.Device.Grammar

namespace Thos.Device

open Data.LinkedList
open Data.LabelledForest
open Thos.Kernel
open Thos.Libc

/-! Finding a node by its path. -/

/-- The addresses of the names, up to a zero for `NULL`. -/
structure DeviceTreePath where
  path : Nat → Nat

def DeviceTreeNode.findChildRecursive (memory : ByteMemory) (rounds : Nat)
    (pools : Pools) (path : DeviceTreePath) :
    Nat → Nat → UInt8 → Outcome (Option Nat)
  | 0, _, _ => throw .outOfFuel
  | fuel + 1, node, depth => do
      let compared ← strcmp memory rounds (pools.nodes node).name
        (path.path depth.toNat)
      let check ←
        if compared = 0 then
          if path.path (depth.toNat + 1) = 0 then pure (some node)
          else
            match (pools.nodes node).child with
            | none => pure none
            | some child =>
                findChildRecursive memory rounds pools path fuel child (depth + 1)
        else pure none
      match check with
      | some found => pure (some found)
      | none =>
          match (pools.nodes node).next with
          | none => pure none
          | some sibling =>
              findChildRecursive memory rounds pools path fuel sibling depth

def DeviceTreeNode.findChild (memory : ByteMemory) (rounds : Nat) (pools : Pools)
    (node : Nat) (path : DeviceTreePath) : Outcome (Option Nat) :=
  findChildRecursive memory rounds pools path rounds node 0

structure DeviceTreePath.Names (memory : ByteMemory) (path : DeviceTreePath)
    (names : List (List UInt8)) : Prop where
  text : ∀ (depth : Nat) (name : List UInt8), names[depth]? = some name →
    path.path depth ≠ 0 ∧ memory.Text (path.path depth) name
  ends : path.path names.length = 0

/-- The nodes in the arrays that hang on a pointer. -/
def NodesLinked (memory : ByteMemory) (pools : Pools) :
    Siblings (List UInt8) Nat → Option Nat → Prop
  | .nil, link => link = none
  | .cons item name children next, link =>
      link = some item ∧
        ((pools.nodes item).name ≠ 0 ∧ memory.Text (pools.nodes item).name name) ∧
        NodesLinked memory pools children (pools.nodes item).child ∧
        NodesLinked memory pools next (pools.nodes item).next

def searchRounds : Siblings (List UInt8) Nat → Nat
  | .nil => 0
  | .cons _ name children next =>
      max name.length (max (searchRounds children) (searchRounds next)) + 1

variable {memory : ByteMemory} {rounds : Nat} {pools : Pools}

theorem nodesLinked_none {nodes : Siblings (List UInt8) Nat}
    (linked : NodesLinked memory pools nodes none) : nodes = .nil := by
  cases nodes with
  | nil => rfl
  | cons item name children next =>
      obtain ⟨same, _⟩ := linked
      contradiction

theorem DeviceTreePath.Names.ends_iff {path : DeviceTreePath}
    {names : List (List UInt8)} (named : path.Names memory names) {depth : Nat}
    (inside : depth < names.length) :
    path.path (depth + 1) = 0 ↔ names.drop (depth + 1) = [] := by
  rw [List.drop_eq_nil_iff]
  constructor
  · intro ends
    by_contra more
    have present := List.getElem?_eq_getElem (Nat.lt_of_not_le more)
    exact (named.text _ _ present).1 ends
  · intro last
    have length : names.length = depth + 1 := Nat.le_antisymm last inside
    rw [← length]
    exact named.ends

theorem DeviceTreeNode.findChildRecursive_eq_search {path : DeviceTreePath}
    {names : List (List UInt8)} (named : path.Names memory names)
    (short : names.length ≤ 255) (nodes : Siblings (List UInt8) Nat) :
    ∀ (fuel item : Nat) (depth : UInt8), NodesLinked memory pools nodes (some item) →
      depth.toNat < names.length → searchRounds nodes ≤ rounds →
      searchRounds nodes ≤ fuel →
      findChildRecursive memory rounds pools path fuel item depth =
        .ok (nodes.search (names.drop depth.toNat)) := by
  induction nodes with
  | nil =>
      intro fuel item depth linked
      contradiction
  | cons item name children next below later =>
      intro fuel here depth linked inside enough fuelEnough
      obtain ⟨same, ⟨address, text⟩, childLinked, nextLinked⟩ := linked
      cases same
      rw [searchRounds] at enough fuelEnough
      obtain ⟨fuel, rfl⟩ := Nat.exists_eq_succ_of_ne_zero
        (Nat.ne_of_gt (Nat.lt_of_lt_of_le (Nat.succ_pos _) fuelEnough))
      have present := List.getElem?_eq_getElem inside
      obtain ⟨nameAddress, nameText⟩ := named.text _ _ present
      obtain ⟨compared, strcmpReturns, matched⟩ :=
        strcmp_texts text nameText address nameAddress
          (show name.length < rounds by omega)
      have ends := named.ends_iff inside
      have sibling : (match (pools.nodes item).next with
          | none => pure none
          | some sibling =>
              findChildRecursive memory rounds pools path fuel sibling depth) =
            (.ok (next.search (names.drop depth.toNat)) : Outcome (Option Nat)) := by
        cases link : (pools.nodes item).next with
        | none =>
            rw [link] at nextLinked
            rw [nodesLinked_none nextLinked]
            rfl
        | some sibling =>
            rw [link] at nextLinked
            exact later fuel sibling depth nextLinked inside (by omega) (by omega)
      rw [findChildRecursive, strcmpReturns, Outcome.ok_bind,
        List.drop_eq_getElem_cons inside, Siblings.search,
        ← List.drop_eq_getElem_cons inside]
      by_cases same : name = names[depth.toNat]
      · rw [if_pos (matched.mpr same), if_pos same]
        by_cases last : names.drop (depth.toNat + 1) = []
        · rw [if_pos (ends.mpr last), if_pos last]
          rfl
        · rw [if_neg (fun zero => last (ends.mp zero)), if_neg last]
          have deeper : depth.toNat + 1 < names.length := by
            rw [List.drop_eq_nil_iff] at last
            exact Nat.lt_of_not_le last
          -- `depth` does not wrap on a path of at most 255 names
          have stepped : (depth + 1).toNat = depth.toNat + 1 := by
            rw [UInt8.toNat_add]
            exact Nat.mod_eq_of_lt (Nat.lt_of_lt_of_le deeper (by omega))
          cases link : (pools.nodes item).child with
          | none =>
              rw [link] at childLinked
              rw [nodesLinked_none childLinked]
              exact sibling
          | some child =>
              rw [link] at childLinked
              have found := below fuel child (depth + 1) childLinked
                (by rw [stepped]; exact deeper) (by omega) (by omega)
              rw [stepped] at found
              simp only [found, Outcome.ok_bind]
              cases children.search (names.drop (depth.toNat + 1)) with
              | none => exact sibling
              | some node => rfl
      · rw [if_neg (fun zero => same (matched.mp zero)), if_neg same]
        exact sibling

/-! The nodes of a parsed tree. -/

mutual
def Tree.siblings : Tree → Nat → Siblings (List UInt8) Nat →
    Siblings (List UInt8) Nat
  | .node name _ children, item, next =>
      .cons item name (children.siblings (item + 1)) next

def Forest.siblings : Forest → Nat → Siblings (List UInt8) Nat
  | .nil, _ => .nil
  | .cons first rest, item =>
      first.siblings item (rest.siblings (item + first.nodeCount))
end

mutual
theorem Tree.siblings_items : (tree : Tree) → (item : Nat) →
    (next : Siblings (List UInt8) Nat) →
    (tree.siblings item next).preorder.map Prod.snd =
      List.range' item tree.nodeCount ++ next.preorder.map Prod.snd
  | .node name _ children, item, next => by
      rw [Tree.siblings, Siblings.preorder, Tree.nodeCount, Nat.add_comm 1,
        List.range'_succ, List.map_append, List.map_cons, List.map_map,
        ← Forest.siblings_items children (item + 1)]
      rfl

theorem Forest.siblings_items : (forest : Forest) → (item : Nat) →
    (forest.siblings item).preorder.map Prod.snd = List.range' item forest.nodeCount
  | .nil, _ => rfl
  | .cons first rest, item => by
      rw [Forest.siblings, Tree.siblings_items first item,
        Forest.siblings_items rest (item + first.nodeCount), Forest.nodeCount,
        List.range'_append_1]
end

section

variable {strings : Nat}

mutual
theorem NodeBlock.Placed.linked : {block : NodeBlock} → {start item prop : Nat} →
    {next : Siblings (List UInt8) Nat} → block.Placed strings pools start item prop →
    block.At memory strings start →
    NodesLinked memory pools next (pools.nodes item).next →
    NodesLinked memory pools (block.tree.siblings item next) (some item)
  | .node nops name padding properties children endNops, start, item, prop, next,
      placed, here, nextLinked => by
      obtain ⟨nameAt, _, _, childPath, childrenPlaced⟩ := placed
      obtain ⟨_, childrenHeld, _⟩ := NodeBlock.holds_body here.held
      obtain ⟨noNul, _, _, childrenFormed⟩ := here.wellFormed
      obtain ⟨_, childrenRead⟩ := List.forall_mem_append.mp here.reads
      refine ⟨rfl, ⟨?_, ?_⟩, ?_, nextLinked⟩
      · rw [nameAt]
        exact Nat.succ_ne_zero _
      · rw [nameAt]
        exact ⟨NodeBlock.holds_name here.held, noNul⟩
      · exact NodeBlocks.Placed.linked childrenPlaced
          ⟨childrenFormed, childrenRead, childrenHeld⟩ (pools.childLinks item) .base
          (fun _ => rfl) childPath

theorem NodeBlocks.Placed.linked : {blocks : NodeBlocks} →
    {address item prop : Nat} → blocks.Placed strings pools address item prop →
    blocks.At memory strings address →
    ∀ (links : Links Nat) (link : Link Nat),
      (∀ other, links.next other = (pools.nodes other).next) →
      links.Path link (blocks.forest.items item) →
      NodesLinked memory pools (blocks.forest.siblings item) (links.read link)
  | .nil, _, _, _, _, _, links, link, _, path => by
      cases path with
      | nil ends => exact ends
  | .cons first rest, address, item, prop, placed, here, links, link, same, path => by
      obtain ⟨firstRead, restRead⟩ := List.forall_mem_append.mp here.reads
      have held := here.held
      simp only [NodeBlocks.bytes, ByteMemory.holds_append, length_nopBytes,
        List.length_append] at held
      have later : rest.At memory strings (address + first.bytes.length) := by
        refine ⟨here.wellFormed.2, restRead, ?_⟩
        rw [first.length_bytes]
        exact held.2
      cases path with
      | cons leads remaining =>
          have next :=
            NodeBlocks.Placed.linked placed.2 later links (.after item) same
            remaining
          rw [leads]
          refine NodeBlock.Placed.linked placed.1
            ⟨here.wellFormed.1, firstRead, held.1.2⟩ ?_
          rw [← same item]
          exact next
end

end

theorem EncodedAt.linked {header : DeviceTreeHeadersRaw}
    {cpuid structOffset stringsOffset : UInt32} {root : NodeBlock}
    (encoded : EncodedAt memory header cpuid structOffset stringsOffset root)
    (wellFormed : root.WellFormed)
    (placed : root.Placed (header.address + stringsOffset.toNat) pools
      (header.address + structOffset.toNat + 4 * root.nops) 0 0)
    (alone : (pools.nodes 0).next = none) :
    NodesLinked memory pools (root.tree.siblings 0 .nil) (some 0) := by
  have here := encoded.at_root wellFormed
  rw [encoded.strings_eq, encoded.structureBlock_eq] at here
  exact placed.linked here alone

/-- The arrays and the texts determine the nodes. -/
theorem NodesLinked.unique {first : Siblings (List UInt8) Nat} :
    ∀ {second : Siblings (List UInt8) Nat} {link : Option Nat},
      NodesLinked memory pools first link → NodesLinked memory pools second link →
        first = second := by
  induction first with
  | nil =>
      intro second link one two
      cases one
      exact (nodesLinked_none two).symm
  | cons item name children next below later =>
      intro second link one two
      obtain ⟨rfl, ⟨_, text⟩, childLinked, nextLinked⟩ := one
      cases second with
      | nil => contradiction
      | cons item' name' children' next' =>
          obtain ⟨same, ⟨_, text'⟩, childLinked', nextLinked'⟩ := two
          cases same
          rw [text.unique text', below childLinked childLinked',
            later nextLinked nextLinked']

/-- A search from the root returns the first node in document order that has the
names of the path, and `NULL` when there is none. -/
theorem DeviceTree.find_child_first {header : DeviceTreeHeadersRaw}
    {tree : DeviceTree} {cursor : Nat} (aligned : header.address % 4 = 0)
    (offset : (swapEndianness32 (header.offDtStruct memory)).toNat % 4 = 0)
    (returned : DeviceTree.parse memory rounds header Pools.empty =
      .ok (tree, cursor, pools)) :
    ∃ nodes : Siblings (List UInt8) Nat,
      NodesLinked memory pools nodes (some tree.root) ∧
      (pools.nodes tree.root).next = none ∧
      nodes.preorder.map Prod.snd = List.range nodes.preorder.length ∧
      ∀ (path : DeviceTreePath) (names : List (List UInt8)),
        path.Names memory names → 1 ≤ names.length → names.length ≤ 255 →
          ∃ enough, ∀ rounds', enough ≤ rounds' → ∃ result,
            DeviceTreeNode.findChild memory rounds' pools tree.root path =
              .ok result ∧ nodes.IsFirst names result := by
  have start : header.structureBlock memory % 4 = 0 := by
    rw [DeviceTreeHeadersRaw.structureBlock]
    omega
  obtain ⟨root, _, here, _, added, first, placed⟩ :=
    DeviceTree.parse_decode start returned
  have alone : (pools.nodes 0).next = none := added.next
  have linked : NodesLinked memory pools (root.tree.siblings 0 .nil) (some 0) :=
    placed.linked here alone
  have items := root.tree.siblings_items 0 .nil
  rw [Siblings.preorder, List.map_nil, List.append_nil,
    ← List.range_eq_range'] at items
  rw [first]
  refine ⟨_, linked, alone, ?_, ?_⟩
  · have length := congrArg List.length items
    rw [List.length_map, List.length_range] at length
    rw [items, length]
  · intro path names named some short
    refine ⟨searchRounds (root.tree.siblings 0 .nil), fun rounds' enough => ?_⟩
    refine ⟨_, DeviceTreeNode.findChildRecursive_eq_search named short _ rounds' 0 0
      linked some enough enough, ?_⟩
    rw [Siblings.search_eq_first]
    exact Siblings.first_isFirst ..

/-- The path `/cpu`, with the names of the blob itself. -/
def DeviceTreePath.sample : DeviceTreePath where
  path depth :=
    if depth = 0 then 4096 + blobStructureOffset + 8
    else if depth = 1 then 4096 + blobStructureOffset + 52
    else 0

theorem DeviceTreePath.sample_names :
    DeviceTreePath.sample.Names sampleMemory [[], [99, 112, 117]] where
  text := by
    intro depth name named
    rcases depth with _ | _ | depth
    · cases named
      exact ⟨by decide, by decide +kernel, by decide⟩
    · cases named
      exact ⟨by decide, by decide +kernel, by decide⟩
    · contradiction
  ends := rfl

theorem DeviceTree.find_child_first_sample : ∃ tree cursor pools,
    DeviceTree.parse sampleMemory 256 ⟨4096⟩ Pools.empty = .ok (tree, cursor, pools) ∧
      ∃ enough, ∀ rounds, enough ≤ rounds →
        DeviceTreeNode.findChild sampleMemory rounds pools tree.root
          DeviceTreePath.sample = .ok (some 1) := by
  obtain ⟨pools, returned, added, placed⟩ :=
    DeviceTree.parse_placed NodeBlock.sample_encodedAt NodeBlock.sample_wellFormed
      ⟨by decide, by decide⟩ (show NodeBlock.sample.bytes.length < 256 by decide)
      (Nat.le_refl _)
  obtain ⟨nodes, linked, _, _, found⟩ := DeviceTree.find_child_first
    (show (⟨4096⟩ : DeviceTreeHeadersRaw).address % 4 = 0 by decide)
    sampleMemory_offset returned
  obtain ⟨enough, returns⟩ := found _ _ DeviceTreePath.sample_names (by decide)
    (by decide)
  refine ⟨_, _, pools, returned, enough, fun rounds many => ?_⟩
  obtain ⟨result, search, isFirst⟩ := returns rounds many
  rw [NodesLinked.unique linked (NodeBlock.sample_encodedAt.linked
    NodeBlock.sample_wellFormed placed added.next)] at isFirst
  rw [search, (isFirst.found 1).mpr ⟨[([[]], 0)], [], rfl, by decide⟩]

end Thos.Device
