import Thos.Data.SuffixCode
import Thos.Device.Dump
import Thos.Device.FlattenedTree

namespace Thos.Device

open Data.Numeral
open Data.SuffixCode

/-! The text that stands for a tree, and reading it back. -/

def byteChar (byte : UInt8) : Char := Char.ofNat byte.toNat

def indentation (depth : Nat) : List Char := List.replicate (depth * 4) ' '

def quoted (opening : List Char) (name : List UInt8) (closing : List Char) :
    List Char :=
  opening ++ '"' :: (name.map byteChar ++ '"' :: closing)

def numbered (depth : Nat) (label : List Char) (index : Nat) (text : List Char) :
    List Char :=
  indentation depth ++ label ++ '[' :: (Nat.toDigits 10 index ++ "]: ".toList) ++ text

/-- A byte of a text: printable, white space, or a NUL. -/
def IsTextByte (byte : UInt8) : Prop :=
  (0x20 ≤ byte ∧ byte ≤ 0x7e) ∨ byte = 0 ∨ byte = 0x09 ∨ byte = 0x0a ∨ byte = 0x0d

instance (byte : UInt8) : Decidable (IsTextByte byte) :=
  inferInstanceAs (Decidable (_ ∨ _))

/-- A value of texts, the first of them not empty. -/
def IsTextValue (value : List UInt8) : Prop :=
  value.head? ≠ some 0 ∧ value.getLast? = some 0 ∧ ∀ byte ∈ value, IsTextByte byte

instance (value : List UInt8) : Decidable (IsTextValue value) :=
  inferInstanceAs (Decidable (_ ∧ _))

def textOf (value : List UInt8) : List Char :=
  if IsTextValue value then
    '"' :: ((value.takeWhile (· ≠ 0)).map byteChar ++ ['"', ' '])
  else []

def hexText (value : List UInt8) : List Char :=
  value.flatMap fun byte => hexPair byte ++ [' ']

def describeValue (value : List UInt8) : List Char :=
  textOf value ++ '[' :: Nat.toDigits 10 value.length ++
    ']' :: (' ' :: hexText value) ++ ['\x7d', ',', '\n']

def Property.describe (property : Property) : List Char :=
  quoted "DeviceTreeProperty \x7b name: ".toList property.name ", data: ".toList ++
    describeValue property.value

def describeProperties (depth : Nat) (properties : List Property) (index : Nat) :
    List Char :=
  (properties.zipIdx index).flatMap fun each =>
    numbered depth "prop".toList each.2 each.1.describe

def describeName (depth : Nat) (name : List UInt8) : List Char :=
  quoted ("DeviceTreeNode \x7b\n".toList ++ indentation depth ++ "name: ".toList) name
    [',', '\n']

mutual
def Tree.describe : Tree → Nat → List Char
  | .node name properties children, depth =>
      describeName (depth + 1) name ++ describeProperties (depth + 1) properties 0 ++
        children.describe (depth + 1) 0 ++ (indentation depth ++ ['\x7d', ',', '\n'])

def Forest.describe : Forest → Nat → Nat → List Char
  | .nil, _, _ => []
  | .cons first rest, depth, index =>
      numbered depth "child".toList index (first.describe depth) ++
        rest.describe depth (index + 1)
end

def framed (opening middle closing : List Char) (bootCpuidPhys : UInt32) (root : Tree) :
    List Char :=
  opening ++ Nat.toDigits 16 bootCpuidPhys.toNat ++ middle ++ root.describe 1 ++ closing

/-- The text of a whole tree. -/
def describeTree : UInt32 → Tree → List Char :=
  framed ("DeviceTree \x7b\n".toList ++ indentation 1 ++ "boot_cpuid_phys: ".toList)
    (",\n".toList ++ indentation 1) ['\x7d', '\n']

mutual
def Tree.All (named : List UInt8 → Prop) (has : Property → Prop) : Tree → Prop
  | .node name properties children =>
      named name ∧ (∀ property ∈ properties, has property) ∧ children.All named has

def Forest.All (named : List UInt8 → Prop) (has : Property → Prop) : Forest → Prop
  | .nil => True
  | .cons first rest => first.All named has ∧ rest.All named has
end

def Unquoted (name : List UInt8) : Prop := 0x22 ∉ name

def Tree.Unquoted (tree : Tree) : Prop := tree.All Device.Unquoted (Device.Unquoted ·.name)

/-! Characters and numerals. -/

theorem byteChar_injective : Function.Injective byteChar := by
  intro byte other same
  have codes := congrArg Char.toNat same
  have valid : ∀ code < 256, (Char.ofNat code).toNat = code := by decide +kernel
  rw [byteChar, byteChar, valid _ byte.toNat_lt, valid _ other.toNat_lt] at codes
  exact UInt8.toNat_inj.mp codes

theorem quote_not_mem {name : List UInt8} (unquoted : Unquoted name) :
    '"' ∉ name.map byteChar := by
  intro member
  obtain ⟨byte, inside, same⟩ := List.mem_map.mp member
  have mark : byte = 0x22 := byteChar_injective same
  exact unquoted (mark ▸ inside)

theorem toDigits_injective {base first second : Nat} (large : 1 < base)
    (small : base ≤ 16) (same : Nat.toDigits base first = Nat.toDigits base second) :
    first = second := by
  rw [← (canonical_toDigits large small first).denotes, same,
    (canonical_toDigits large small second).denotes]

theorem toDigits_not_mem {base : Nat} (large : 1 < base) (small : base ≤ 16)
    (value : Nat) {mark : Char} (other : ∀ digit < 16, Nat.digitChar digit ≠ mark) :
    mark ∉ Nat.toDigits base value := by
  intro member
  obtain ⟨digit, bound, same⟩ := (canonical_toDigits large small value).digits _ member
  exact other digit (Nat.lt_of_lt_of_le bound small) same.symm

theorem hexPair_injective {byte other : UInt8} (same : hexPair byte = hexPair other) :
    byte = other := by
  have first := byte.toNat_lt
  have second := other.toNat_lt
  obtain ⟨high, low, _⟩ : _ ∧ _ ∧ True := by simpa [hexPair] using same
  have highs := congrArg digitValue high
  have lows := congrArg digitValue low
  rw [digitValue_digitChar _ (by omega), digitValue_digitChar _ (by omega)] at highs lows
  apply UInt8.toNat_inj.mp
  omega

theorem hexText_injective : Function.Injective hexText := by
  intro value
  induction value with
  | nil =>
      intro other same
      cases other with
      | nil => rfl
      | cons byte other => simp [hexText, hexPair] at same
  | cons byte value induction =>
      intro other same
      cases other with
      | nil => simp [hexText, hexPair] at same
      | cons other rest =>
          rw [hexText, hexText, List.flatMap_cons, List.flatMap_cons] at same
          obtain ⟨pairs, rests⟩ := List.append_inj same rfl
          rw [hexPair_injective (List.append_cancel_right pairs), induction rests]

theorem bracket_not_mem (value : List UInt8) : ']' ∉ hexText value := by
  intro member
  obtain ⟨byte, _, inside⟩ := List.mem_flatMap.mp member
  have digits : ∀ digit < 16, ']' ≠ Nat.digitChar digit := by decide
  have bound := byte.toNat_lt
  simp only [hexPair, List.cons_append, List.nil_append, List.mem_cons,
    List.not_mem_nil, or_false] at inside
  rcases inside with high | low | blank
  · exact digits _ (by omega) high
  · exact digits _ (Nat.mod_lt _ (by decide)) low
  · exact absurd blank (by decide)

/-! Reading back. -/

theorem quoted_readsBack (opening closing : List Char) {name : List UInt8}
    (unquoted : Unquoted name) :
    ReadsBack Unquoted (fun name => quoted opening name closing) name := by
  have shape : ∀ (front : List Char) (name : List UInt8),
      front ++ quoted opening name closing =
        (front ++ opening) ++ '"' :: name.map byteChar ++ '"' :: closing := by
    intro front name
    simp [quoted]
  intro other otherUnquoted front rest same
  rw [shape, shape] at same
  obtain ⟨fronts, names⟩ := last_symbol (List.append_cancel_right same)
    (quote_not_mem unquoted) (quote_not_mem otherUnquoted)
  exact ⟨List.append_cancel_right fronts,
    List.map_injective_iff.mpr byteChar_injective names⟩

theorem describeValue_readsBack (value : List UInt8) :
    ReadsBack (fun _ => True) describeValue value := by
  intro other _ front rest same
  have whole := same
  simp only [describeValue, ← List.append_assoc] at same
  have inner := List.append_cancel_right same
  obtain ⟨_, shown⟩ := last_symbol inner
    (List.not_mem_cons_of_ne_of_not_mem (by decide) (bracket_not_mem value))
    (List.not_mem_cons_of_ne_of_not_mem (by decide) (bracket_not_mem other))
  have values : value = other := hexText_injective (List.cons.inj shown).2
  rw [values] at whole
  exact ⟨List.append_cancel_right whole, values⟩

theorem Property.describe_readsBack {property : Property}
    (unquoted : Unquoted property.name) :
    ReadsBack (Unquoted ·.name) Property.describe property := by
  intro other otherUnquoted front rest same
  rw [Property.describe, Property.describe, ← List.append_assoc, ← List.append_assoc]
    at same
  obtain ⟨before, values⟩ := describeValue_readsBack _ _ trivial _ _ same
  obtain ⟨fronts, names⟩ := quoted_readsBack _ _ unquoted _ otherUnquoted _ _ before
  exact ⟨fronts, by cases property; cases other; simp_all⟩

theorem numbered_readsBack {Value : Type} {valid : Value → Prop}
    {describe : Value → List Char} {value : Value} (depth : Nat) (label : List Char)
    (inner : ReadsBack valid describe value) (index : Nat) :
    ReadsBack (valid ·.1)
      (fun each => numbered depth label each.2 (describe each.1)) (value, index) := by
  have shape : ∀ (front text : List Char) (index : Nat),
      front ++ numbered depth label index text =
        (front ++ (indentation depth ++ label)) ++ '[' :: Nat.toDigits 10 index ++
          "]: ".toList ++ text := by
    intro front text index
    simp [numbered]
  have free : ∀ index, '[' ∉ Nat.toDigits 10 index := fun index =>
    toDigits_not_mem (by decide) (by decide) index (by decide)
  intro other otherValid front rest same
  obtain ⟨other, otherIndex⟩ := other
  simp only [shape] at same
  obtain ⟨before, rfl⟩ := inner other otherValid _ _ same
  obtain ⟨fronts, digits⟩ := last_symbol (List.append_cancel_right before)
    (free index) (free otherIndex)
  rw [toDigits_injective (by decide) (by decide) digits]
  exact ⟨List.append_cancel_right fronts, rfl⟩

/-! Ends. -/

theorem quoted_ends (opening : List Char) (name : List UInt8) (closing : List Char) :
    '"' :: closing <:+ quoted opening name closing :=
  ⟨opening ++ '"' :: name.map byteChar, by simp [quoted]⟩

theorem hexText_ends (value : List UInt8) :
    ∃ symbol, symbol ≠ ' ' ∧ [symbol, ' '] <:+ ']' :: ' ' :: hexText value := by
  have digits : ∀ digit < 16, Nat.digitChar digit ≠ ' ' := by decide
  rcases List.eq_nil_or_concat value with rfl | ⟨value, byte, rfl⟩
  · exact ⟨']', by decide, List.suffix_rfl⟩
  · refine ⟨Nat.digitChar (byte.toNat % 16), digits _ (Nat.mod_lt _ (by decide)),
      ']' :: ' ' :: (hexText value ++ [Nat.digitChar (byte.toNat / 16)]), ?_⟩
    simp [hexText, hexPair]

theorem describeValue_ends (value : List UInt8) :
    ∃ symbol, symbol ≠ ' ' ∧ [symbol, ' ', '\x7d', ',', '\n'] <:+ describeValue value := by
  obtain ⟨symbol, other, before, whole⟩ := hexText_ends value
  refine ⟨symbol, other, textOf value ++ '[' :: Nat.toDigits 10 value.length ++ before, ?_⟩
  rw [describeValue, ← whole]
  simp

theorem Property.describe_ends (depth : Nat) (each : Property × Nat) :
    ∃ symbol, symbol ≠ ' ' ∧ [symbol, ' ', '\x7d', ',', '\n'] <:+
      numbered depth "prop".toList each.2 each.1.describe := by
  obtain ⟨symbol, other, ends⟩ := describeValue_ends each.1.value
  exact ⟨symbol, other, (ends.trans (List.suffix_append _ _)).trans
    (List.suffix_append _ _)⟩

theorem Tree.describe_ends (tree : Tree) {depth : Nat} (inside : 1 ≤ depth) :
    [' ', ' ', '\x7d', ',', '\n'] <:+ tree.describe depth := by
  obtain ⟨depth, rfl⟩ := Nat.exists_eq_add_of_le' inside
  obtain ⟨name, properties, children⟩ := tree
  have blanks : indentation (depth + 1) =
      List.replicate (depth * 4 + 2) ' ' ++ [' ', ' '] := by
    rw [indentation, show (depth + 1) * 4 = depth * 4 + 2 + 2 by omega,
      List.replicate_add]
    rfl
  have last : [' ', ' ', '\x7d', ',', '\n'] <:+
      indentation (depth + 1) ++ ['\x7d', ',', '\n'] :=
    ⟨List.replicate (depth * 4 + 2) ' ', by rw [blanks, List.append_assoc]; rfl⟩
  rw [Tree.describe]
  exact last.trans (List.suffix_append _ _)

/-! Trees. -/

def Forest.trees : Forest → List Tree
  | .nil => []
  | .cons first rest => first :: rest.trees

theorem Forest.describe_eq : (forest : Forest) → (depth index : Nat) →
    forest.describe depth index = (forest.trees.zipIdx index).flatMap fun each =>
      numbered depth "child".toList each.2 (each.1.describe depth)
  | .nil, _, _ => rfl
  | .cons first rest, depth, index => by
      rw [Forest.describe, Forest.describe_eq rest, Forest.trees, List.zipIdx_cons,
        List.flatMap_cons]

theorem Forest.trees_injective : (first second : Forest) →
    first.trees = second.trees → first = second
  | .nil, .nil, _ => rfl
  | .nil, .cons _ _, same => by contradiction
  | .cons _ _, .nil, same => by contradiction
  | .cons first rest, .cons other more, same => by
      obtain ⟨rfl, rests⟩ := List.cons.inj same
      rw [Forest.trees_injective rest more rests]

theorem Forest.all_iff {named : List UInt8 → Prop} {has : Property → Prop} :
    (forest : Forest) → (forest.All named has ↔ ∀ tree ∈ forest.trees, tree.All named has)
  | .nil => by simp [Forest.All, Forest.trees]
  | .cons first rest => by
      rw [Forest.All, Forest.trees, List.forall_mem_cons, Forest.all_iff rest]

/-- The lines of a node before its children. -/
def describeListed (depth : Nat) (listed : List UInt8 × List (Property × Nat)) :
    List Char :=
  describeName depth listed.1 ++ listed.2.flatMap fun each =>
    numbered depth "prop".toList each.2 each.1.describe

def ListedUnquoted (listed : List UInt8 × List (Property × Nat)) : Prop :=
  Unquoted listed.1 ∧ ∀ each ∈ listed.2, Unquoted each.1.name

theorem describeListed_readsBack (depth : Nat)
    {listed : List UInt8 × List (Property × Nat)} (unquoted : ListedUnquoted listed) :
    ReadsBack ListedUnquoted (describeListed depth) listed := by
  obtain ⟨name, properties⟩ := listed
  obtain ⟨nameUnquoted, others⟩ := unquoted
  apply ReadsBack.sequence ?_ nameUnquoted others
    (quoted_readsBack _ _ nameUnquoted)
    fun each member => numbered_readsBack depth _
      (Property.describe_readsBack (others each member)) each.2
  intro first _ second _
  obtain ⟨symbol, _, before, whole⟩ := Property.describe_ends depth second
  have closing : ['\x7d', ',', '\n'] <:+
      numbered depth "prop".toList second.2 second.1.describe :=
    ⟨before ++ [symbol, ' '], by rw [← whole]; exact List.append_assoc ..⟩
  exact ne_of_ends (quoted_ends _ first _) closing rfl (by decide)

theorem describeListed_apart (depth : Nat) (listed : List UInt8 × List (Property × Nat))
    {text : List Char} (ends : [' ', ' ', '\x7d', ',', '\n'] <:+ text)
    (front rest : List Char) : front ++ describeListed depth listed ≠ rest ++ text := by
  obtain ⟨name, properties⟩ := listed
  rcases List.eq_nil_or_concat properties with rfl | ⟨properties, last, rfl⟩
  · obtain ⟨before, whole⟩ := ends
    have closing : ['\x7d', ',', '\n'] <:+ text :=
      ⟨before ++ [' ', ' '], by rw [← whole]; exact List.append_assoc ..⟩
    rw [describeListed, List.flatMap_nil, List.append_nil]
    exact ne_of_ends (quoted_ends _ name _) closing rfl (by decide) front rest
  · obtain ⟨symbol, other, final⟩ := Property.describe_ends depth last
    have whole : [symbol, ' ', '\x7d', ',', '\n'] <:+
        describeListed depth (name, properties.concat last) := by
      rw [describeListed, List.concat_eq_append, List.flatMap_append,
        List.flatMap_singleton, ← List.append_assoc]
      exact final.trans (List.suffix_append _ _)
    exact ne_of_ends whole ends rfl (fun same => other (List.cons.inj same).1) front rest

def describeBody (depth : Nat)
    (body : (List UInt8 × List (Property × Nat)) × List (Tree × Nat)) : List Char :=
  describeListed depth body.1 ++ body.2.flatMap fun each =>
    numbered depth "child".toList each.2 (each.1.describe depth)

theorem Tree.describe_node (name : List UInt8) (properties : List Property)
    (children : Forest) (depth : Nat) :
    (Tree.node name properties children).describe depth =
      describeBody (depth + 1) ((name, properties.zipIdx), children.trees.zipIdx) ++
        (indentation depth ++ ['\x7d', ',', '\n']) := by
  rw [Tree.describe, Forest.describe_eq]
  rfl

theorem describeBody_readsBack (depth : Nat) (inside : 1 ≤ depth)
    {listed : List UInt8 × List (Property × Nat)} {children : List (Tree × Nat)}
    (unquoted : ListedUnquoted listed)
    (childrenUnquoted : ∀ each ∈ children, each.1.Unquoted)
    (inner : ∀ each ∈ children, ReadsBack Tree.Unquoted (·.describe depth) each.1) :
    ReadsBack (fun body => ListedUnquoted body.1 ∧ ∀ each ∈ body.2, each.1.Unquoted)
      (describeBody depth) (listed, children) := by
  apply ReadsBack.sequence ?_ unquoted childrenUnquoted
    (describeListed_readsBack depth unquoted)
    fun each member => numbered_readsBack depth _ (inner each member) each.2
  intro first _ second _
  exact describeListed_apart depth first
    ((second.1.describe_ends inside).trans (List.suffix_append _ _))

theorem forall_mem_zipIdx {Value : Type} {holds : Value → Prop} {values : List Value}
    (all : ∀ value ∈ values, holds value) : ∀ each ∈ values.zipIdx, holds each.1 :=
  fun each member => all each.1 (List.fst_mem_of_mem_zipIdx member)

mutual
theorem Tree.describe_readsBack : (tree : Tree) → tree.Unquoted → (depth : Nat) →
    ReadsBack Tree.Unquoted (·.describe depth) tree
  | .node name properties children, unquoted, depth => by
      obtain ⟨nameUnquoted, propertiesUnquoted, childrenUnquoted⟩ := unquoted
      intro other otherUnquoted front rest same
      obtain ⟨otherName, otherProperties, otherChildren⟩ := other
      obtain ⟨otherNameUnquoted, othersUnquoted, otherChildrenUnquoted⟩ := otherUnquoted
      rw [Forest.all_iff] at childrenUnquoted otherChildrenUnquoted
      have inner := Forest.describe_readsBack children childrenUnquoted (depth + 1)
      have listedUnquoted : ListedUnquoted (name, properties.zipIdx) :=
        ⟨nameUnquoted, forall_mem_zipIdx propertiesUnquoted⟩
      have body := (describeBody_readsBack (depth + 1) (Nat.succ_pos depth)
        listedUnquoted (forall_mem_zipIdx childrenUnquoted)
          (forall_mem_zipIdx inner)).append (indentation depth ++ ['\x7d', ',', '\n'])
      beta_reduce at same
      rw [Tree.describe_node, Tree.describe_node] at same
      obtain ⟨fronts, equal⟩ := body
        ((otherName, otherProperties.zipIdx), otherChildren.trees.zipIdx)
        ⟨⟨otherNameUnquoted, forall_mem_zipIdx othersUnquoted⟩,
          forall_mem_zipIdx otherChildrenUnquoted⟩
        front rest same
      obtain ⟨listed, trees⟩ := Prod.mk.inj equal
      obtain ⟨names, propertyLists⟩ := Prod.mk.inj listed
      have properties := congrArg (List.map Prod.fst) propertyLists
      have children := congrArg (List.map Prod.fst) trees
      rw [List.zipIdx_map_fst, List.zipIdx_map_fst] at properties children
      rw [names, properties, Forest.trees_injective _ _ children]
      exact ⟨fronts, rfl⟩

theorem Forest.describe_readsBack : (forest : Forest) →
    (∀ tree ∈ forest.trees, tree.Unquoted) → (depth : Nat) →
    ∀ tree ∈ forest.trees, ReadsBack Tree.Unquoted (·.describe depth) tree
  | .nil, _, _ => by simp [Forest.trees]
  | .cons first rest, unquoted, depth => by
      obtain ⟨firstUnquoted, restUnquoted⟩ := List.forall_mem_cons.mp unquoted
      exact List.forall_mem_cons.mpr ⟨Tree.describe_readsBack first firstUnquoted depth,
        Forest.describe_readsBack rest restUnquoted depth⟩
end

theorem framed_injective {opening middle closing : List Char}
    {bootCpuidPhys otherCpuid : UInt32} {root other : Tree}
    (unquoted : root.Unquoted) (otherUnquoted : other.Unquoted)
    (same : framed opening middle closing bootCpuidPhys root =
      framed opening middle closing otherCpuid other) :
    bootCpuidPhys = otherCpuid ∧ root = other := by
  rw [framed, framed] at same
  obtain ⟨fronts, roots⟩ := root.describe_readsBack unquoted 1 other otherUnquoted _ _
    (List.append_cancel_right same)
  have digits := List.append_cancel_left (List.append_cancel_right fronts)
  exact ⟨UInt32.toNat_inj.mp (toDigits_injective (by decide) (by decide) digits), roots⟩

end Thos.Device
