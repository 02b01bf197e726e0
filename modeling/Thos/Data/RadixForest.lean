import Mathlib.Data.List.Induction
import Mathlib.Logic.Function.Basic

namespace Data.RadixForest

/-! Radix trees of one depth whose nodes live in a shared store.  A store is
read through `child`, which follows an index out of a node above the bottom,
and `leaf`, which reads a bottom node at an index. -/

variable {Node Index Leaf : Type}

def walk (child : Node → Index → Option Node) : Node → List Index → Option Node
  | node, [] => some node
  | node, index :: rest => (child node index).bind (walk child · rest)

@[simp] theorem walk_nil (child : Node → Index → Option Node) (node : Node) :
    walk child node [] = some node := rfl

@[simp] theorem walk_cons (child : Node → Index → Option Node) (node : Node)
    (index : Index) (rest : List Index) :
    walk child node (index :: rest) =
      (child node index).bind (walk child · rest) := rfl

theorem walk_append (child : Node → Index → Option Node) (node : Node)
    (first second : List Index) :
    walk child node (first ++ second) =
      (walk child node first).bind (walk child · second) := by
  induction first generalizing node with
  | nil => simp
  | cons head rest induction =>
      simp only [List.cons_append, walk_cons]
      cases child node head with
      | none => rfl
      | some next => simp [induction]

theorem walk_concat (child : Node → Index → Option Node) (node : Node)
    (path : List Index) (index : Index) :
    walk child node (path ++ [index]) =
      (walk child node path).bind (child · index) := by
  rw [walk_append]
  congr 1
  funext next
  simp

def lookup (child : Node → Index → Option Node)
    (leaf : Node → Index → Option Leaf)
    (root : Node) (path : List Index) (index : Index) : Option Leaf :=
  (walk child root path).bind (leaf · index)

/-- Each node of the forest sits at one place: below one root, at one path. -/
abbrev Placement (Node Index : Type) := Node → Option (Node × List Index)

def Placement.Rooted (place : Placement Node Index) (root : Node) : Prop :=
  place root = some (root, [])

/-- A link out of a placed node leads to the node placed one index further,
so no two links of the forest lead to the same node. -/
def Separated (depth : Nat) (child : Node → Index → Option Node)
    (place : Placement Node Index) : Prop :=
  ∀ node root path, place node = some (root, path) → path.length < depth →
    ∀ index next, child node index = some next →
      place next = some (root, path ++ [index])

section

variable {depth : Nat} {child child' : Node → Index → Option Node}
  {leaf leaf' : Node → Index → Option Leaf} {place : Placement Node Index}

theorem Separated.place_of_walk (separated : Separated depth child place)
    {root node : Node} {path : List Index} (rooted : place.Rooted root)
    (bound : path.length ≤ depth) (walked : walk child root path = some node) :
    place node = some (root, path) := by
  induction path using List.reverseRecOn generalizing node with
  | nil =>
      cases walked
      exact rooted
  | append_singleton path index induction =>
      rw [walk_concat] at walked
      obtain ⟨parent, walkedParent, linked⟩ := Option.bind_eq_some_iff.mp walked
      have shorter : path.length < depth := by
        simpa [Nat.succ_le_iff] using bound
      exact separated parent root path
        (induction (Nat.le_of_lt shorter) walkedParent) shorter index node linked

theorem Separated.walk_injective (separated : Separated depth child place)
    {first second node : Node} {firstPath secondPath : List Index}
    (firstRooted : place.Rooted first) (secondRooted : place.Rooted second)
    (firstBound : firstPath.length ≤ depth)
    (secondBound : secondPath.length ≤ depth)
    (firstWalked : walk child first firstPath = some node)
    (secondWalked : walk child second secondPath = some node) :
    first = second ∧ firstPath = secondPath := by
  have firstPlace := separated.place_of_walk firstRooted firstBound firstWalked
  have secondPlace :=
    separated.place_of_walk secondRooted secondBound secondWalked
  simpa using firstPlace.symm.trans secondPlace

theorem Separated.walk_congr (separated : Separated depth child place)
    (agree : ∀ node root path, place node = some (root, path) →
      path.length < depth → child' node = child node)
    {root : Node} {path : List Index} (rooted : place.Rooted root)
    (bound : path.length ≤ depth) :
    walk child' root path = walk child root path := by
  induction path using List.reverseRecOn with
  | nil => rfl
  | append_singleton path index induction =>
      have shorter : path.length < depth := by
        simpa [Nat.succ_le_iff] using bound
      rw [walk_concat, walk_concat, induction (Nat.le_of_lt shorter)]
      cases walked : walk child root path with
      | none => rfl
      | some node =>
          have placed := separated.place_of_walk rooted (Nat.le_of_lt shorter) walked
          simp [agree node root path placed shorter]

theorem Separated.walk_mono (separated : Separated depth child place)
    (links : ∀ node root path index next, place node = some (root, path) →
      path.length < depth → child node index = some next →
        child' node index = some next)
    {root node : Node} {path : List Index} (rooted : place.Rooted root)
    (bound : path.length ≤ depth) (walked : walk child root path = some node) :
    walk child' root path = some node := by
  induction path using List.reverseRecOn generalizing node with
  | nil => exact walked
  | append_singleton path index induction =>
      have shorter : path.length < depth := by
        simpa [Nat.succ_le_iff] using bound
      rw [walk_concat] at walked ⊢
      obtain ⟨middle, walkedMiddle, linked⟩ := Option.bind_eq_some_iff.mp walked
      have placed := separated.place_of_walk rooted (Nat.le_of_lt shorter)
        walkedMiddle
      rw [induction (Nat.le_of_lt shorter) walkedMiddle, Option.bind_some]
      exact links middle root path index node placed shorter linked

/-- Writing one bottom entry changes exactly the lookups that end there. -/
theorem Separated.lookup_setLeaf [DecidableEq Node] [DecidableEq Index]
    (separated : Separated depth child place)
    (agree : ∀ node root path, place node = some (root, path) →
      path.length < depth → child' node = child node)
    {owner bottom : Node} {ownPath : List Index} {slot : Index}
    (ownerRooted : place.Rooted owner) (ownLength : ownPath.length = depth)
    (walked : walk child owner ownPath = some bottom)
    (leafAgree : ∀ node root path index, place node = some (root, path) →
      path.length = depth → (node, index) ≠ (bottom, slot) →
        leaf' node index = leaf node index)
    {root : Node} {path : List Index} {index : Index}
    (rooted : place.Rooted root) (length : path.length = depth) :
    lookup child' leaf' root path index =
      if root = owner ∧ path = ownPath ∧ index = slot then
        leaf' bottom slot
      else lookup child leaf root path index := by
  rw [lookup, separated.walk_congr agree rooted (Nat.le_of_eq length)]
  split
  · rename_i same
    obtain ⟨sameRoot, samePath, sameIndex⟩ := same
    subst sameRoot samePath sameIndex
    simp [walked]
  · rename_i different
    rw [lookup]
    cases reached : walk child root path with
    | none => rfl
    | some node =>
        have placed := separated.place_of_walk rooted (Nat.le_of_eq length) reached
        apply leafAgree node root path index placed length
        intro equal
        obtain ⟨sameNode, sameIndex⟩ := Prod.mk.inj equal
        subst sameNode
        obtain ⟨sameRoot, samePath⟩ := separated.walk_injective rooted
          ownerRooted (Nat.le_of_eq length) (Nat.le_of_eq ownLength) reached walked
        exact different ⟨sameRoot, samePath, sameIndex⟩

end

/-- Hang the fresh, empty node `new` below the unused slot `index` of
`parent`; what else is placed reads as before. -/
structure Link (depth : Nat) (child child' : Node → Index → Option Node)
    (place : Placement Node Index) (parent new : Node) (index : Index)
    (root : Node) (path : List Index) : Prop where
  parentPlaced : place parent = some (root, path)
  above : path.length < depth
  fresh : place new = none
  unused : child parent index = none
  linked : child' parent index = some new
  empty : ∀ slot, child' new slot = none
  frame : ∀ node slot, place node ≠ none → (node, slot) ≠ (parent, index) →
    child' node slot = child node slot

namespace Link

variable {depth : Nat}
  {child child' : Node → Index → Option Node}
  {leaf leaf' : Node → Index → Option Leaf} {place : Placement Node Index}
  {parent new owner : Node} {index : Index} {ownPath : List Index}

def placed [DecidableEq Node] (place : Placement Node Index) (new root : Node)
    (path : List Index) (index : Index) : Placement Node Index :=
  Function.update place new (some (root, path ++ [index]))

theorem placed_new [DecidableEq Node] (place : Placement Node Index) (new root : Node)
    (path : List Index) (index : Index) :
    placed place new root path index new = some (root, path ++ [index]) := by
  simp [placed]

theorem placed_of_ne [DecidableEq Node] (place : Placement Node Index)
    {node new : Node}
    (root : Node) (path : List Index) (index : Index) (different : node ≠ new) :
    placed place new root path index node = place node := by
  simp [placed, different]

theorem ne_new (link : Link depth child child' place parent new index owner
    ownPath) {node : Node} {location : Node × List Index}
    (here : place node = some location) : node ≠ new := by
  rintro rfl
  rw [link.fresh] at here
  contradiction

theorem placed_of_some [DecidableEq Node]
    (link : Link depth child child' place parent new index
    owner ownPath) {node : Node} {location : Node × List Index}
    (here : place node = some location) :
    placed place new owner ownPath index node = some location := by
  rw [placed_of_ne place owner ownPath index (link.ne_new here), here]

theorem walk_some (link : Link depth child child' place parent new index owner
    ownPath) (before : Separated depth child place) {root node : Node}
    {path : List Index} (rooted : place.Rooted root)
    (bound : path.length ≤ depth) (walked : walk child root path = some node) :
    walk child' root path = some node := by
  apply before.walk_mono ?_ rooted bound walked
  intro middle middleRoot middlePath slot next here _ linked
  rw [link.frame middle slot (by simp [here])]
  · exact linked
  · intro isLink
    obtain ⟨sameNode, sameSlot⟩ := Prod.mk.inj isLink
    subst sameNode sameSlot
    rw [link.unused] at linked
    contradiction

theorem walk_of_walk' (link : Link depth child child' place parent new index
    owner ownPath) (before : Separated depth child place) {root node : Node}
    {path : List Index} (rooted : place.Rooted root)
    (bound : path.length ≤ depth)
    (walked : walk child' root path = some node) :
    walk child root path = some node ∨ node = new := by
  induction path using List.reverseRecOn generalizing node with
  | nil => exact .inl walked
  | append_singleton path slot induction =>
      rw [walk_concat] at walked ⊢
      obtain ⟨middle, walkedMiddle, linked⟩ := Option.bind_eq_some_iff.mp walked
      have shorter : path.length ≤ depth := by
        have := bound
        simp only [List.length_append, List.length_singleton] at this
        omega
      rcases induction shorter walkedMiddle with old | isNew
      · have here := before.place_of_walk rooted shorter old
        by_cases isLink : (middle, slot) = (parent, index)
        · obtain ⟨sameNode, sameSlot⟩ := Prod.mk.inj isLink
          subst sameNode sameSlot
          rw [link.linked] at linked
          exact .inr (Option.some.inj linked).symm
        · rw [link.frame middle slot (by simp [here]) isLink] at linked
          exact .inl (by rw [old]; exact linked)
      · subst isNew
        rw [link.empty slot] at linked
        contradiction

theorem lookup_eq (link : Link depth child child' place parent new index owner
    ownPath) (before : Separated depth child place)
    (leafFrame : ∀ node root path slot, place node = some (root, path) →
      path.length = depth → leaf' node slot = leaf node slot)
    (leafEmpty : ∀ slot, leaf' new slot = none)
    {root : Node} {path : List Index} {slot : Index}
    (rooted : place.Rooted root) (length : path.length = depth) :
    lookup child' leaf' root path slot = lookup child leaf root path slot := by
  simp only [lookup]
  cases old : walk child root path with
  | some node =>
      have here := before.place_of_walk rooted (Nat.le_of_eq length) old
      rw [link.walk_some before rooted (Nat.le_of_eq length) old]
      exact leafFrame node root path slot here length
  | none =>
      cases walked : walk child' root path with
      | none => rfl
      | some node =>
          rcases link.walk_of_walk' before rooted (Nat.le_of_eq length) walked with
            same | isNew
          · rw [old] at same
            contradiction
          · subst isNew
            exact leafEmpty slot

end Link

end Data.RadixForest
