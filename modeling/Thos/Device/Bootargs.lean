import Thos.Device.Capacity
import Thos.Device.Lookup
import Thos.Device.Nops
import Thos.Libc.Comparison

namespace Thos.Device

open Data.LinkedList
open Data.LabelledForest
open Thos.Kernel
open Thos.Libc

/-! The boot arguments of a test image, from the blob to the test that runs. -/

def asciiBytes (text : String) : List UInt8 :=
  text.toList.map fun character => UInt8.ofNat character.toNat

namespace DeviceTreeNode

def findPropertyLoop (memory : ByteMemory) (rounds : Nat) (pools : Pools)
    (propertyName : Nat) : Nat → Option Nat → Outcome (Option Nat)
  | 0, _ => throw .outOfFuel
  | _ + 1, none => pure none
  | fuel + 1, some prop => do
      let compared ← strcmp memory rounds (pools.props prop).name propertyName
      if compared = 0 then pure (some prop)
      else
        findPropertyLoop memory rounds pools propertyName fuel (pools.props prop).next

def findProperty (memory : ByteMemory) (rounds : Nat) (pools : Pools)
    (node : Option Nat) (propertyName : Nat) : Outcome (Option Nat) :=
  match node with
  | none => pure none
  | some node =>
      findPropertyLoop memory rounds pools propertyName rounds
        (pools.nodes node).properties

end DeviceTreeNode

/-- The strings of `test.c`, and the names in the generated array `tests`. -/
structure TestImage where
  path : DeviceTreePath
  bootargs : Nat
  printTests : Nat
  runTest : Nat
  tests : List Nat

inductive TestRun where
  | printTests
  | runTest (test : Nat)
  deriving DecidableEq, Repr

def getTestLoop (memory : ByteMemory) (rounds name : Nat) :
    List Nat → Nat → Outcome Nat
  | [], _ => throw (.panic "no such test: %s")
  | test :: tests, i => do
      let compared ← strcmp memory rounds name test
      if compared = 0 then pure i
      else getTestLoop memory rounds name tests (i + 1)

def runTestFromBootargs (memory : ByteMemory) (rounds : Nat) (pools : Pools)
    (root : Nat) (image : TestImage) : Outcome TestRun := do
  let chosen ← DeviceTreeNode.findChild memory rounds pools root image.path
  let bootArgs ←
    DeviceTreeNode.findProperty memory rounds pools chosen image.bootargs
  match bootArgs with
  | none => throw (.panic "unable to find boot args")
  | some prop =>
      let bootArgsStr := (pools.props prop).value
      let compared ← strcmp memory rounds bootArgsStr image.printTests
      if compared = 0 then pure .printTests
      else if strncmp memory bootArgsStr image.runTest 6 = 0 then do
        let test ← getTestLoop memory rounds (bootArgsStr + 6) image.tests 0
        pure (.runTest test)
      else throw (.panic "test binary run with argument that wasn't %s or %s")

/-! What the boot arguments of a tree are, and what they ask for. -/

def Forest.propertiesOf (label : List UInt8) : Forest → Option (List Property)
  | .nil => none
  | .cons (.node name properties _) rest =>
      if name = label then some properties else rest.propertiesOf label

def Tree.chosen : Tree → Option (List Property)
  | .node name _ children =>
      if name = [] then children.propertiesOf (asciiBytes "chosen") else none

def Tree.bootargs (tree : Tree) : Option (List UInt8) :=
  (tree.chosen.bind fun properties => properties.find? fun property =>
    property.name = asciiBytes "bootargs").map Property.value

/-- The run that a value of `bootargs` asks for, by its text up to the NUL. -/
def requestedRun (names : List (List UInt8)) : Option (List UInt8) → Outcome TestRun
  | none => throw (.panic "unable to find boot args")
  | some value =>
      let text := value.takeWhile (· ≠ 0)
      if text = asciiBytes "--tests" then pure .printTests
      else if asciiBytes "--test" <+: text then
        match names.findIdx? fun name => text.drop 6 = name with
        | some test => pure (.runTest test)
        | none => throw (.panic "no such test: %s")
      else throw (.panic "test binary run with argument that wasn't %s or %s")

variable {memory : ByteMemory} {rounds : Nat} {pools : Pools}

/-! Properties in the arrays. -/

structure Property.At (memory : ByteMemory) (pools : Pools) (property : Property)
    (prop : Nat) : Prop where
  nameAddress : (pools.props prop).name ≠ 0
  name : memory.Text (pools.props prop).name property.name
  valueAddress : (pools.props prop).value ≠ 0
  value : memory.Holds (pools.props prop).value property.value

def PropertiesLinked (memory : ByteMemory) (pools : Pools) :
    List Property → Option Nat → Prop
  | [], link => link = none
  | property :: properties, link => ∃ prop, link = some prop ∧
      property.At memory pools prop ∧
        PropertiesLinked memory pools properties (pools.props prop).next

def propertyRounds : List Property → Nat
  | [] => 1
  | property :: properties =>
      max property.name.length (propertyRounds properties) + 1

theorem DeviceTreeNode.findPropertyLoop_first {propertyName : Nat}
    {label : List UInt8} (address : propertyName ≠ 0)
    (named : memory.Text propertyName label) (properties : List Property) :
    ∀ (fuel : Nat) (link : Option Nat), PropertiesLinked memory pools properties link →
      propertyRounds properties ≤ rounds → propertyRounds properties ≤ fuel →
      ∃ found, findPropertyLoop memory rounds pools propertyName fuel link =
          .ok found ∧
        Option.Rel (Property.At memory pools)
          (properties.find? fun property => property.name = label) found := by
  induction properties with
  | nil =>
      intro fuel link linked enough fuelEnough
      obtain ⟨fuel, rfl⟩ := Nat.exists_eq_succ_of_ne_zero (Nat.ne_of_gt fuelEnough)
      cases linked
      exact ⟨none, rfl, .none⟩
  | cons property properties induction =>
      intro fuel link linked enough fuelEnough
      obtain ⟨prop, rfl, here, later⟩ := linked
      rw [propertyRounds] at enough fuelEnough
      obtain ⟨fuel, rfl⟩ := Nat.exists_eq_succ_of_ne_zero
        (Nat.ne_of_gt (Nat.lt_of_lt_of_le (Nat.succ_pos _) fuelEnough))
      obtain ⟨compared, returned, matched⟩ := strcmp_texts here.name named
        here.nameAddress address (show property.name.length < rounds by omega)
      rw [findPropertyLoop, returned, Outcome.ok_bind, List.find?_cons]
      by_cases same : property.name = label
      · rw [if_pos (matched.mpr same), decide_eq_true same]
        exact ⟨some prop, rfl, .some here⟩
      · rw [if_neg (fun zero => same (matched.mp zero)), decide_eq_false same]
        exact induction fuel _ later (by omega) (by omega)

section

variable {strings : Nat}

theorem PropertiesPlaced.linked {blocks : List PropertyBlock} {address prop : Nat}
    (nonnull : strings ≠ 0) (placed : PropertiesPlaced strings pools blocks address prop)
    (held : memory.Holds address (blocks.flatMap PropertyBlock.bytes))
    (named : ∀ block ∈ blocks, block.Named memory strings)
    (formed : ∀ block ∈ blocks, block.WellFormed) :
    ∀ (links : Links Nat) (link : Link Nat),
      (∀ other, links.next other = (pools.props other).next) →
      links.Path link (List.range' prop blocks.length) →
      PropertiesLinked memory pools (blocks.map PropertyBlock.property)
        (links.read link) := by
  induction blocks generalizing address prop with
  | nil =>
      intro links link _ path
      cases path with
      | nil ends => exact ends
  | cons block blocks induction =>
      intro links link same path
      rw [List.flatMap_cons, ByteMemory.holds_append] at held
      rw [List.length_cons, List.range'_succ] at path
      cases path with
      | cons leads remaining =>
          have first := named block (List.mem_cons_self ..)
          have stored := placed.1.stored (PropertyBlock.holds_core held.1) first
          refine ⟨prop, leads, ⟨?_, ⟨stored.name, ?_⟩, ?_, stored.value⟩, ?_⟩
          · rw [placed.1.name]
            exact Nat.ne_of_gt (Nat.add_pos_left (Nat.pos_of_ne_zero nonnull) _)
          · exact (formed block (List.mem_cons_self ..)).name
          · rw [placed.1.value]
            exact Nat.succ_ne_zero _
          · rw [← same prop]
            exact induction placed.2 held.2
              (fun other member => named other (List.mem_cons_of_mem _ member))
              (fun other member => formed other (List.mem_cons_of_mem _ member))
              links (.after prop) same remaining

theorem NodeBlock.Placed.properties_linked {nops endNops start item prop : Nat}
    {name padding : List UInt8} {properties : List PropertyBlock}
    {children : NodeBlocks} (nonnull : strings ≠ 0)
    (placed : (NodeBlock.node nops name padding properties children endNops).Placed
      strings pools start item prop)
    (held : memory.Holds start
      (NodeBlock.node nops name padding properties children endNops).core)
    (named : ∀ block ∈ properties, block.Named memory strings)
    (formed : ∀ block ∈ properties, block.WellFormed) :
    PropertiesLinked memory pools (properties.map PropertyBlock.property)
      (pools.nodes item).properties :=
  placed.2.2.1.linked nonnull (NodeBlock.holds_body held).1 named formed
    (pools.propertyLinks item) .base (fun _ => rfl) placed.2.1

theorem NodeBlocks.Placed.search_properties {label : List UInt8}
    (nonnull : strings ≠ 0) : {blocks : NodeBlocks} → {address item prop : Nat} →
    blocks.Placed strings pools address item prop →
    memory.Holds address blocks.bytes →
    (∀ block ∈ blocks.allProperties, block.Named memory strings) →
    blocks.WellFormed →
    Option.Rel
      (fun properties node =>
        PropertiesLinked memory pools properties (pools.nodes node).properties)
      (blocks.forest.propertiesOf label)
      ((blocks.forest.siblings item).search [label])
  | .nil, _, _, _, _, _, _, _ => .none
  | .cons (.node nops name padding properties children endNops) rest, address, item,
      prop, placed, held, named, formed => by
      simp only [NodeBlocks.bytes, ByteMemory.holds_append, length_nopBytes,
        List.length_append] at held
      obtain ⟨_, _, propertiesFormed, _⟩ := formed.1
      obtain ⟨firstNamed, restNamed⟩ := List.forall_mem_append.mp named
      rw [NodeBlocks.forest, NodeBlock.tree, Forest.propertiesOf, Forest.siblings,
        Tree.siblings, Siblings.search]
      by_cases same : name = label
      · rw [if_pos same, if_pos same, if_pos rfl]
        exact .some (placed.1.properties_linked nonnull held.1.2
          (List.forall_mem_append.mp firstNamed).1 propertiesFormed)
      · rw [if_neg same, if_neg same]
        refine NodeBlocks.Placed.search_properties nonnull placed.2 ?_ restNamed
          formed.2
        rw [NodeBlock.length_bytes]
        exact held.2

theorem NodeBlock.Placed.search_chosen {root : NodeBlock} {start : Nat}
    (nonnull : strings ≠ 0) (placed : root.Placed strings pools start 0 0)
    (held : memory.Holds start root.core)
    (named : ∀ block ∈ root.allProperties, block.Named memory strings)
    (formed : root.WellFormed) :
    Option.Rel
      (fun properties node =>
        PropertiesLinked memory pools properties (pools.nodes node).properties)
      root.tree.chosen
      ((root.tree.siblings 0 .nil).search [[], asciiBytes "chosen"]) := by
  obtain ⟨nops, name, padding, properties, children, endNops⟩ := root
  obtain ⟨_, childrenHeld, _⟩ := NodeBlock.holds_body held
  rw [NodeBlock.tree, Tree.siblings, Siblings.search, Tree.chosen]
  by_cases empty : name = []
  · rw [if_pos empty, if_pos empty, if_neg (by simp), Siblings.search, Option.or_none]
    exact NodeBlocks.Placed.search_properties nonnull placed.2.2.2.2 childrenHeld
      (List.forall_mem_append.mp named).2 formed.2.2.2
  · rw [if_neg empty, if_neg empty]
    exact .none

end

/-! The text of the boot arguments. -/

structure TestImage.Held (memory : ByteMemory) (image : TestImage)
    (names : List (List UInt8)) : Prop where
  path : image.path.Names memory [[], asciiBytes "chosen"]
  bootargs : image.bootargs ≠ 0 ∧ memory.Text image.bootargs (asciiBytes "bootargs")
  printTests : image.printTests ≠ 0 ∧
    memory.Text image.printTests (asciiBytes "--tests")
  runTest : image.runTest ≠ 0 ∧ memory.Text image.runTest (asciiBytes "--test")
  tests : List.Forall₂ (fun test name => test ≠ 0 ∧ memory.Text test name)
    image.tests names

theorem getTestLoop_eq {name : Nat} {text : List UInt8} (address : name ≠ 0)
    (here : memory.Text name text) (enough : text.length < rounds)
    {tests : List Nat} {names : List (List UInt8)}
    (held : List.Forall₂ (fun test name => test ≠ 0 ∧ memory.Text test name)
      tests names) :
    ∀ i, getTestLoop memory rounds name tests i =
      match names.findIdx? fun name => text = name with
      | some test => .ok (i + test)
      | none => .error (.panic "no such test: %s") := by
  induction held with
  | nil => exact fun _ => rfl
  | @cons test name tests names first later induction =>
      intro i
      obtain ⟨compared, returned, matched⟩ :=
        strcmp_texts here first.2 address first.1 enough
      rw [getTestLoop, returned, Outcome.ok_bind, List.findIdx?_cons]
      by_cases same : text = name
      · rw [if_pos (matched.mpr same), if_pos (decide_eq_true same)]
        rfl
      · rw [if_neg (fun zero => same (matched.mp zero)), if_neg (by simp [same]),
          induction (i + 1)]
        cases names.findIdx? fun name => text = name with
        | none => rfl
        | some test =>
            exact congrArg Except.ok (Nat.add_right_comm i 1 test)

theorem strncmp_prefix {address other : Nat} {text start : List UInt8}
    (here : memory.Text address text) (there : memory.Text other start)
    (address_ne : address ≠ 0) (other_ne : other ≠ 0) :
    strncmp memory address other start.length = 0 ↔ start <+: text := by
  rw [strncmp_eq here there address_ne other_ne, comparison_eq_zero_iff,
    List.take_length, List.prefix_iff_eq_take]
  exact eq_comm

def Tree.bootargsRounds (tree : Tree) : Nat :=
  max (searchRounds (tree.siblings 0 .nil))
    (max (propertyRounds (tree.chosen.getD [])) ((tree.bootargs.getD []).length + 1))

theorem findProperty_bootargs {chosen : Option (List Property)} {node : Option Nat}
    {propertyName : Nat} {label : List UInt8} (address : propertyName ≠ 0)
    (named : memory.Text propertyName label)
    (linked : Option.Rel
      (fun properties node =>
        PropertiesLinked memory pools properties (pools.nodes node).properties)
      chosen node)
    (enough : propertyRounds (chosen.getD []) ≤ rounds) :
    ∃ found, DeviceTreeNode.findProperty memory rounds pools node propertyName =
        .ok found ∧
      Option.Rel (Property.At memory pools)
        (chosen.bind fun properties => properties.find? fun property =>
          property.name = label) found := by
  cases linked with
  | none => exact ⟨none, rfl, .none⟩
  | some linked =>
      exact DeviceTreeNode.findPropertyLoop_first address named _ rounds _ linked
        enough enough

/-- Once the node of `/chosen` is found, the value of its `bootargs` decides. -/
theorem runTestFromBootargs_eq {image : TestImage} {names : List (List UInt8)}
    (held : image.Held memory names) {root : Nat} {node : Option Nat} {tree : Tree}
    (found : DeviceTreeNode.findChild memory rounds pools root image.path = .ok node)
    (linked : Option.Rel
      (fun properties node =>
        PropertiesLinked memory pools properties (pools.nodes node).properties)
      tree.chosen node)
    (ends : ∀ value, tree.bootargs = some value → 0 ∈ value)
    (enough : tree.bootargsRounds ≤ rounds) :
    runTestFromBootargs memory rounds pools root image =
      requestedRun names tree.bootargs := by
  rw [Tree.bootargsRounds] at enough
  obtain ⟨prop, returned, isFirst⟩ := findProperty_bootargs held.bootargs.1
    held.bootargs.2 linked (show propertyRounds (tree.chosen.getD []) ≤ rounds by omega)
  rw [runTestFromBootargs, found, Outcome.ok_bind, returned, Outcome.ok_bind]
  rw [Tree.bootargs] at ends enough ⊢
  generalize tree.chosen.bind _ = property at isFirst ends enough
  cases isFirst with
  | none => rfl
  | @some property prop here =>
      rw [Option.map_some] at ends enough ⊢
      rw [Option.getD_some] at enough
      have text := ByteMemory.text_takeWhile here.value (ends property.value rfl)
      have shorter : (property.value.takeWhile (· ≠ 0)).length ≤ property.value.length :=
        (List.takeWhile_prefix _).length_le
      rw [requestedRun]
      generalize property.value.takeWhile (· ≠ 0) = asked at text shorter
      obtain ⟨compared, compares, matched⟩ := strcmp_texts text held.printTests.2
        here.valueAddress held.printTests.1 (show asked.length < rounds by omega)
      have starts := strncmp_prefix text held.runTest.2 here.valueAddress held.runTest.1
      have six : (asciiBytes "--test").length = 6 := by decide
      rw [six] at starts
      simp only [compares, Outcome.ok_bind, matched, starts]
      by_cases lists : asked = asciiBytes "--tests"
      · rw [if_pos lists, if_pos lists]
      · rw [if_neg lists, if_neg lists]
        by_cases runs : asciiBytes "--test" <+: asked
        · have inside := runs.length_le
          rw [six] at inside
          rw [if_pos runs, if_pos runs, getTestLoop_eq (Nat.succ_ne_zero _)
            (ByteMemory.text_drop text inside) (by rw [List.length_drop]; omega) held.tests]
          cases names.findIdx? fun name => asked.drop 6 = name with
          | none => rfl
          | some test =>
              simp only [Nat.zero_add]
              rfl
        · rw [if_neg runs, if_neg runs]

/-- `--tests` is `--test` with a test of the name `s`. -/
theorem requestedRun_test_iff {names : List (List UInt8)} (distinct : names.Nodup)
    {test : Nat} {name : List UInt8} (named : names[test]? = some name)
    (noNul : 0 ∉ name) :
    requestedRun names (some (asciiBytes "--test" ++ name ++ [0])) =
        .ok (.runTest test) ↔ name ≠ asciiBytes "s" := by
  have text : (asciiBytes "--test" ++ name ++ [0]).takeWhile (· ≠ 0) =
      asciiBytes "--test" ++ name := by
    rw [List.takeWhile_append_of_pos]
    · simp
    · intro byte member
      rw [decide_eq_true_eq]
      rintro rfl
      rcases List.mem_append.mp member with literal | own
      · exact absurd literal (by decide)
      · exact noNul own
  have tests : asciiBytes "--tests" = asciiBytes "--test" ++ asciiBytes "s" := by decide
  have own : (asciiBytes "--test" ++ name).drop 6 = name :=
    @List.drop_left _ (asciiBytes "--test") name
  simp only [requestedRun, text, tests, List.append_cancel_left_eq,
    List.prefix_append, if_true, own]
  by_cases lists : name = asciiBytes "s"
  · simp [lists]
  · have index : names.findIdx? (fun other => name = other) = some test := by
      rw [List.findIdx?_eq_some_iff_getElem]
      obtain ⟨inside, here⟩ := List.getElem?_eq_some_iff.mp named
      refine ⟨inside, by simp [here], fun earlier before => ?_⟩
      rw [decide_eq_true_eq]
      intro same
      have twice := (List.Nodup.getElem_inj_iff distinct).mp (here.trans same)
      omega
    rw [if_neg lists, index]
    simp [lists]

section

variable {header : DeviceTreeHeadersRaw} {cpuid structOffset stringsOffset : UInt32}
  {root : NodeBlock} {image : TestImage} {names : List (List UInt8)}

theorem EncodedAt.runs_bootargs
    (encoded : EncodedAt memory header cpuid structOffset stringsOffset root)
    (wellFormed : root.WellFormed) (fits : root.tree.Fits)
    (nonnull : header.address ≠ 0) (held : image.Held memory names)
    (ends : ∀ value, root.tree.bootargs = some value → 0 ∈ value)
    (enough : root.bytes.length < rounds) (items : numDeviceTreeNodes ≤ rounds)
    (read : root.tree.bootargsRounds ≤ rounds) :
    ∃ tree cursor pools,
      DeviceTree.parse memory rounds header Pools.empty = .ok (tree, cursor, pools) ∧
        runTestFromBootargs memory rounds pools tree.root image =
          requestedRun names root.tree.bootargs := by
  have block := (ByteMemory.holds_append.mp encoded.structureBlock).1
  rw [NodeBlock.bytes, ByteMemory.holds_append, length_nopBytes] at block
  obtain ⟨pools, parsed, added, placed⟩ :=
    DeviceTree.parse_placed encoded wellFormed fits enough items
  refine ⟨_, _, pools, parsed, ?_⟩
  have linked := encoded.linked wellFormed placed added.next
  have rounds' : searchRounds (root.tree.siblings 0 .nil) ≤ rounds :=
    Nat.le_trans (Nat.le_max_left _ _) read
  have found := DeviceTreeNode.findChildRecursive_eq_search held.path (by decide) _
    rounds 0 0 linked (by decide) rounds' rounds'
  exact runTestFromBootargs_eq held found
    (placed.search_chosen (by omega) block.2 encoded.strings wellFormed) ends read

/-- From the blob to the test: a test image runs what the text of
`/chosen/bootargs` asks for, and of tests with distinct names the one whose name
follows `--test`, unless that name is `s`. -/
theorem boot_arguments_choose_run
    (encoded : EncodedAt memory header cpuid structOffset stringsOffset root)
    (wellFormed : root.WellFormed) (fits : root.tree.Fits)
    (nonnull : header.address ≠ 0) (held : image.Held memory names)
    (ends : ∀ value, root.tree.bootargs = some value → 0 ∈ value) :
    ∃ enough, ∀ rounds, enough ≤ rounds → ∃ tree cursor pools,
      DeviceTree.parse memory rounds header Pools.empty = .ok (tree, cursor, pools) ∧
      runTestFromBootargs memory rounds pools tree.root image =
        requestedRun names root.tree.bootargs ∧
      ∀ (test : Nat) (name : List UInt8), names.Nodup → names[test]? = some name →
        root.tree.bootargs = some (asciiBytes "--test" ++ name ++ [0]) →
          (runTestFromBootargs memory rounds pools tree.root image =
            .ok (.runTest test) ↔ name ≠ asciiBytes "s") := by
  refine ⟨max (root.bytes.length + 1)
    (max numDeviceTreeNodes root.tree.bootargsRounds), fun rounds enough => ?_⟩
  obtain ⟨tree, cursor, pools, parsed, runs⟩ := encoded.runs_bootargs wellFormed fits
    nonnull held ends (show root.bytes.length < rounds by omega) (by omega) (by omega)
  refine ⟨tree, cursor, pools, parsed, runs, ?_⟩
  intro test name distinct named requested
  have text : ∃ address, memory.Text address name := by
    obtain ⟨inside, here⟩ := List.getElem?_eq_some_iff.mp named
    have same := held.tests.length_eq
    have own := held.tests.get (show test < image.tests.length by omega) inside
    rw [List.get_eq_getElem, List.get_eq_getElem, here] at own
    exact ⟨_, own.2⟩
  obtain ⟨address, text⟩ := text
  rw [runs, requested]
  exact requestedRun_test_iff distinct named text.noNul

end

/-- `/chosen` with `bootargs = "--testio"`. -/
def NodeBlock.bootSample : NodeBlock :=
  .node 0 [] [0, 0, 0] []
    (.cons (.node 0 (asciiBytes "chosen") [0]
      [⟨0, 0, ⟨asciiBytes "bootargs", asciiBytes "--testio" ++ [0]⟩, [0, 0, 0]⟩]
      .nil 0) .nil) 0

def bootStrings : List UInt8 :=
  ["bootargs", "chosen", "--tests", "--test", "io"].flatMap fun text =>
    asciiBytes text ++ [0]

def bootMemory : ByteMemory :=
  .ofBytes 4096 (blobBytes 3 NodeBlock.bootSample bootStrings)

def TestImage.sample : TestImage :=
  let strings := 4096 + blobStringsOffset NodeBlock.bootSample
  { path := ⟨fun depth =>
      if depth = 0 then strings + 8 else if depth = 1 then strings + 9 else 0⟩
    bootargs := strings
    printTests := strings + 16
    runTest := strings + 24
    tests := [strings + 31] }

theorem TestImage.sample_held : TestImage.sample.Held bootMemory [asciiBytes "io"] where
  path := by
    constructor
    · intro depth name named
      rcases depth with _ | _ | depth
      · cases named
        exact ⟨by decide, by decide +kernel, by decide⟩
      · cases named
        exact ⟨by decide, by decide +kernel, by decide⟩
      · contradiction
    · rfl
  bootargs := ⟨by decide, by decide +kernel, by decide⟩
  printTests := ⟨by decide, by decide +kernel, by decide⟩
  runTest := ⟨by decide, by decide +kernel, by decide⟩
  tests := .cons ⟨by decide, by decide +kernel, by decide⟩ .nil

theorem NodeBlock.bootSample_wellFormed : NodeBlock.bootSample.WellFormed := by
  refine ⟨by decide, rfl, by simp, ⟨by decide, rfl, ?_, trivial⟩, trivial⟩
  intro block member
  rw [List.mem_singleton.mp member]
  exact ⟨by decide, rfl, by decide⟩

theorem NodeBlock.bootSample_encodedAt :
    EncodedAt bootMemory ⟨4096⟩ 3 (UInt32.ofNat blobStructureOffset)
      (UInt32.ofNat (blobStringsOffset NodeBlock.bootSample)) NodeBlock.bootSample := by
  refine blobBytes_encodedAt (by decide) (by decide) ?_
  intro block member
  rw [List.mem_singleton.mp member]
  exact ⟨bootStrings.drop 9, rfl⟩

theorem boot_arguments_choose_run_sample : ∃ enough, ∀ rounds, enough ≤ rounds →
    ∃ tree cursor pools,
      DeviceTree.parse bootMemory rounds ⟨4096⟩ Pools.empty =
        .ok (tree, cursor, pools) ∧
      runTestFromBootargs bootMemory rounds pools tree.root TestImage.sample =
        .ok (.runTest 0) := by
  have bootargs : NodeBlock.bootSample.tree.bootargs =
      some (asciiBytes "--testio" ++ [0]) := by decide
  obtain ⟨enough, runs⟩ := boot_arguments_choose_run NodeBlock.bootSample_encodedAt
    NodeBlock.bootSample_wellFormed ⟨by decide, by decide⟩ (by decide)
    TestImage.sample_held (fun value here => by
      rw [bootargs] at here
      cases here
      decide)
  refine ⟨enough, fun rounds many => ?_⟩
  obtain ⟨tree, cursor, pools, parsed, _, requested⟩ := runs rounds many
  refine ⟨tree, cursor, pools, parsed, ?_⟩
  exact (requested 0 (asciiBytes "io") (by decide) rfl bootargs).mpr (by decide)

end Thos.Device
