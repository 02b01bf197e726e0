import Thos.Device.Capacity
import Thos.Device.Description
import Thos.Libc.String

namespace Thos.Device

open Data.LinkedList
open Data.Numeral
open Thos.Libc

/-! `DeviceTree_print`. `none` is undefined behaviour, or a loop that the model stops
after its given number of rounds. -/

/-- `D(x)`. -/
def indent (build : Target) (x : Nat) (console : List Char) : Option (List Char) :=
  print build console "%*s".toList [.integer 32 (x * 4), .string []]

def stringAt (memory : ByteMemory) : Nat → Nat → Option (List Char)
  | 0, _ => none
  | rounds + 1, address =>
      if memory address = 0 then some []
      else (stringAt memory rounds (address + 1)).map (byteChar (memory address) :: ·)

/-- The loop that computes `normal_ascii` and `all_zeros`. A `char` is unsigned. -/
def scanValue (memory : ByteMemory) : Nat → Nat → Bool → Bool × Bool
  | 0, _, allZeros => (true, allZeros)
  | left + 1, address, allZeros =>
      let value := memory address
      if (value < 0x20 || value > 0x7e) && value != 0 &&
          !(value == 0x0a || value == 0x09 || value == 0x0d) then (false, allZeros)
      else scanValue memory left (address + 1) (if value ≠ 0 then false else allZeros)

def printValue (build : Target) (memory : ByteMemory) :
    Nat → Nat → List Char → Option (List Char)
  | 0, _, console => some console
  | left + 1, address, console => do
      let console ← print build console "%02x ".toList
        [.integer 32 (memory address).toNat]
      printValue build memory left (address + 1) console

section

variable (build : Target) (memory : ByteMemory) (rounds : Nat) (pools : Pools)

def DeviceTreeProperty.printText (prop : DeviceTreeProperty) (console : List Char) :
    Option (List Char) :=
  -- the index of an empty value wraps to the byte before it
  let endsWithNul : Bool := memory (prop.value + prop.valueLen - 1) = 0
  let firstIsNotZero : Bool := prop.valueLen > 0 && memory prop.value ≠ 0
  let (normalAscii, allZeros) := scanValue memory prop.valueLen prop.value true
  if normalAscii && !allZeros && endsWithNul && firstIsNotZero then do
    let text ← stringAt memory rounds prop.value
    print build console "\"%s\" ".toList [.string text]
  else some console

/-- What the loop over the properties prints of one. `%d` takes the low word of
`value_len`. -/
def DeviceTreeProperty.print (prop : DeviceTreeProperty) (console : List Char) :
    Option (List Char) := do
  let console ← Device.print build console "DeviceTreeProperty \x7b ".toList []
  let name ← stringAt memory rounds prop.name
  let console ← Device.print build console "name: \"%s\", ".toList [.string name]
  let console ← Device.print build console "data: ".toList []
  let console ← prop.printText build memory rounds console
  let console ← Device.print build console "[%d] ".toList [.integer 32 prop.valueLen]
  let console ← printValue build memory prop.valueLen prop.value console
  Device.print build console "\x7d,\n".toList []

namespace DeviceTreeNode

def printProperties (depth : UInt8) :
    Nat → Option Nat → Nat → List Char → Option (List Char)
  | 0, _, _, _ => none
  | _ + 1, none, _, console => some console
  | fuel + 1, some prop, counter, console => do
      let console ← indent build (depth.toNat + 1) console
      let console ← Device.print build console "prop[%d]: ".toList [.integer 32 counter]
      let console ← (pools.props prop).print build memory rounds console
      printProperties depth fuel (pools.props prop).next (counter + 1) console

mutual
def print : Nat → Nat → UInt8 → List Char → Option (List Char)
  | 0, _, _, _ => none
  | fuel + 1, node, depth, console => do
      let console ← Device.print build console "DeviceTreeNode \x7b\n".toList []
      let console ← indent build (depth.toNat + 1) console
      let name ← stringAt memory rounds (pools.nodes node).name
      let console ← Device.print build console "name: \"%s\",\n".toList [.string name]
      let console ← printProperties build memory rounds pools depth rounds
        (pools.nodes node).properties 0 console
      let console ← printChildren fuel (pools.nodes node).child depth 0 console
      let console ← indent build depth.toNat console
      Device.print build console "\x7d,\n".toList []

def printChildren : Nat → Option Nat → UInt8 → Nat → List Char → Option (List Char)
  | 0, _, _, _, _ => none
  | _ + 1, none, _, _, console => some console
  | fuel + 1, some child, depth, counter, console => do
      let console ← indent build (depth.toNat + 1) console
      let console ← Device.print build console "child[%d]: ".toList
        [.integer 32 counter]
      let console ← print fuel child (depth + 1) console
      printChildren fuel (pools.nodes child).next depth (counter + 1) console
end

end DeviceTreeNode

def DeviceTree.print (tree : DeviceTree) (console : List Char) : Option (List Char) := do
  let console ← Device.print build console "DeviceTree \x7b\n".toList []
  let console ← indent build 1 console
  let console ← Device.print build console "boot_cpuid_phys: %x,\n".toList
    [.integer 32 tree.bootCpuidPhys.toNat]
  let console ← indent build 1 console
  let console ← DeviceTreeNode.print build memory rounds pools rounds tree.root 1 console
  Device.print build console "\x7d\n".toList []

end

variable {build : Target} {memory : ByteMemory} {rounds : Nat} {pools : Pools}
  {console : List Char}

/-! What one `printf` adds to the console. -/

theorem print_conversion (operand : Operand) {format front back text : List Char}
    {argument : Argument}
    (shape : format = front ++ ['%', operand.char] ++ back) (fits : operand.Fits)
    (plain : '%' ∉ front) (plainBack : '%' ∉ back) (takes : operand.argument 32 = argument)
    (shows : operand.text 32 false = text) :
    Device.print build console format [argument] =
      some (console ++ (front ++ text ++ back)) := by
  have printed := @print_around build console front back
    (.conversion ⟨[], .absent, .none, operand⟩)
    ⟨trivial, fits, fun zero => absurd zero List.not_mem_nil⟩ plain plainBack
  have unpadded : Directive.text build (.conversion ⟨[], .absent, .none, operand⟩) =
      text := (pad_zero [] _).trans shows
  rw [unpadded] at printed
  rw [shape, ← takes]
  exact printed

theorem print_string {format front back : List Char}
    (shape : format = front ++ ['%', 's'] ++ back) (plain : '%' ∉ front)
    (plainBack : '%' ∉ back) {text : List Char} (short : text.length ≤ intMax) :
    Device.print build console format [.string text] =
      some (console ++ (front ++ text ++ back)) :=
  print_conversion (.string text) shape short plain plainBack rfl rfl

theorem print_decimal {format front back : List Char}
    (shape : format = front ++ ['%', 'd'] ++ back) (plain : '%' ∉ front)
    (plainBack : '%' ∉ back) {value : Nat} (small : value ≤ intMax) :
    Device.print build console format [.integer 32 value] =
      some (console ++ (front ++ Nat.toDigits 10 value ++ back)) := by
  have bound : value < 2 ^ 31 := Nat.lt_of_le_of_lt small (by decide)
  have signed : signedValue 32 (value % 2 ^ 32) = value := by
    rw [signedValue_mod, signedValue, Int.bmod_eq_of_le] <;> omega
  have digits : signedDigits (signedValue 32 (value % 2 ^ 32)) = Nat.toDigits 10 value := by
    rw [signed, signedDigits, if_neg (Int.not_lt.mpr (Int.natCast_nonneg value)),
      Int.natAbs_natCast]
  exact print_conversion (.integer .decimal value) shape trivial plain
    plainBack rfl digits

theorem print_hexadecimal {format front back : List Char}
    (shape : format = front ++ ['%', 'x'] ++ back) (plain : '%' ∉ front)
    (plainBack : '%' ∉ back) {value : Nat} (small : value < 2 ^ 32) :
    Device.print build console format [.integer 32 value] =
      some (console ++ (front ++ Nat.toDigits 16 value ++ back)) := by
  have digits : Nat.toDigits 16 (value % 2 ^ 32) = Nat.toDigits 16 value := by
    rw [Nat.mod_eq_of_lt small]
  exact print_conversion (.integer .hexadecimal value) shape trivial plain
    plainBack rfl digits

theorem indent_eq {x : Nat} (small : x * 4 ≤ intMax) :
    indent build x console = some (console ++ indentation x) := by
  have printed := @print_around build console [] []
    (.conversion ⟨[], .argument (x * 4), .none, .string []⟩)
    ⟨small, Nat.zero_le _, fun zero => absurd zero List.not_mem_nil⟩
    List.not_mem_nil List.not_mem_nil
  have blanks : pad [] (x * 4) [] = indentation x :=
    List.append_nil _
  rw [List.nil_append, List.append_nil, List.nil_append, List.append_nil] at printed
  exact printed.trans (congrArg (fun text => some (console ++ text)) blanks)

/-! Values and names in memory. -/

def Tree.AtMost (limit : Nat) (tree : Tree) : Prop :=
  tree.All (·.length ≤ limit) fun property =>
    property.name.length ≤ limit ∧ property.value.length ≤ limit

def Tree.Terminated (tree : Tree) : Prop :=
  tree.All (0 ∉ ·) (0 ∉ ·.name)

theorem stringAt_eq {address : Nat} {text : List UInt8}
    (here : memory.Text address text) (enough : text.length < rounds) :
    stringAt memory rounds address = some (text.map byteChar) := by
  induction text generalizing address rounds with
  | nil =>
      obtain ⟨rounds, rfl⟩ := Nat.exists_eq_succ_of_ne_zero (Nat.ne_of_gt enough)
      rw [stringAt, if_pos (ByteMemory.text_nil.mp here), List.map_nil]
  | cons byte text induction =>
      obtain ⟨rounds, rfl⟩ := Nat.exists_eq_succ_of_ne_zero (Nat.ne_of_gt
        (Nat.lt_of_le_of_lt (Nat.zero_le _) enough))
      obtain ⟨⟨same, nonzero⟩, rest⟩ := ByteMemory.text_cons.mp here
      rw [stringAt, same, if_neg nonzero, induction rest (Nat.lt_of_succ_lt_succ enough),
        Option.map_some, List.map_cons]

theorem printValue_eq {value : List UInt8} {address : Nat}
    (held : memory.Holds address value) (console : List Char) :
    printValue build memory value.length address console =
      some (console ++ hexText value) := by
  induction value generalizing address console with
  | nil => exact congrArg some (List.append_nil console).symm
  | cons byte value induction =>
      obtain ⟨same, rest⟩ := held
      rw [List.length_cons, printValue, same, print_byte, Option.bind_eq_bind,
        Option.bind_some, induction rest, hexText, hexText, List.flatMap_cons,
        List.append_assoc]

theorem isTextByte_iff (byte : UInt8) :
    ((byte < 0x20 || byte > 0x7e) && byte != 0 &&
      !(byte == 0x0a || byte == 0x09 || byte == 0x0d)) = false ↔ IsTextByte byte := by
  have codes : ∀ code < 256, ((UInt8.ofNat code < 0x20 || UInt8.ofNat code > 0x7e) &&
      UInt8.ofNat code != 0 && !(UInt8.ofNat code == 0x0a || UInt8.ofNat code == 0x09 ||
        UInt8.ofNat code == 0x0d)) = false ↔ IsTextByte (UInt8.ofNat code) := by
    decide +kernel
  have here := codes byte.toNat byte.toNat_lt
  rwa [UInt8.ofNat_toNat] at here

theorem scanValue_eq {value : List UInt8} {address : Nat}
    (held : memory.Holds address value) (allZeros : Bool) :
    ((scanValue memory value.length address allZeros).1 = true ↔
      ∀ byte ∈ value, IsTextByte byte) ∧
    ((scanValue memory value.length address allZeros).1 = true →
      (scanValue memory value.length address allZeros).2 =
        (allZeros && value.all (· == 0))) := by
  induction value generalizing address allZeros with
  | nil => simp [scanValue]
  | cons byte value induction =>
      obtain ⟨same, rest⟩ := held
      rw [List.length_cons, scanValue, same, List.forall_mem_cons, ← isTextByte_iff]
      split
      · rename_i ends
        refine ⟨iff_of_false Bool.false_ne_true fun both => ?_, fun no => by contradiction⟩
        exact absurd (ends.symm.trans both.1) (by decide)
      · rename_i goes
        rw [Bool.not_eq_true] at goes
        obtain ⟨normal, zeros⟩ := induction rest (if byte ≠ 0 then false else allZeros)
        refine ⟨by rw [normal, and_iff_right goes], fun text => ?_⟩
        rw [zeros text, List.all_cons]
        by_cases zero : byte = 0 <;> simp [zero]

theorem head?_of_holds {value : List UInt8} {address : Nat}
    (held : memory.Holds address value) (nonempty : value ≠ []) :
    value.head? = some (memory address) := by
  cases value with
  | nil => contradiction
  | cons byte value => exact congrArg some held.1.symm

theorem getLast?_of_holds {value : List UInt8} {address : Nat}
    (held : memory.Holds address value) (nonempty : value ≠ []) :
    value.getLast? = some (memory (address + value.length - 1)) := by
  obtain ⟨before, last, rfl⟩ := (List.eq_nil_or_concat value).resolve_left nonempty
  rw [List.concat_eq_append, ByteMemory.holds_append] at held
  rw [List.concat_eq_append, List.getLast?_concat, List.length_append,
    List.length_singleton, ← Nat.add_assoc, Nat.add_sub_cancel, held.2.1]

theorem isTextValue_eq {value : List UInt8} {address : Nat}
    (held : memory.Holds address value) :
    ((scanValue memory value.length address true).1 &&
      !(scanValue memory value.length address true).2 &&
        decide (memory (address + value.length - 1) = 0) &&
          (decide (value.length > 0) && decide (memory address ≠ 0))) =
      decide (IsTextValue value) := by
  obtain ⟨normal, zeros⟩ := scanValue_eq held true
  by_cases nonempty : value = []
  · simp [nonempty, IsTextValue]
  · have first := head?_of_holds held nonempty
    have last := getLast?_of_holds held nonempty
    have present := List.length_pos_iff.mpr nonempty
    by_cases text : ∀ byte ∈ value, IsTextByte byte
    · have notZeros : memory address ≠ 0 → value.all (· == 0) = false := by
        intro nonzero
        rw [List.all_eq_false]
        exact ⟨memory address, List.mem_of_mem_head? first, by simpa using nonzero⟩
      rw [normal.mpr text, zeros (normal.mpr text)]
      by_cases nonzero : memory address = 0
      · simp [IsTextValue, first, nonzero]
      · simp [IsTextValue, first, last, notZeros nonzero, nonzero, present]
        exact fun _ => text
    · rw [Bool.eq_false_iff.mpr fun yes => text (normal.mp yes)]
      simp [IsTextValue, text]

theorem DeviceTreeProperty.printText_eq {property : Property} {prop : Nat}
    (stored : property.Stored memory pools prop) (short : property.value.length ≤ intMax)
    (enough : intMax < rounds) (console : List Char) :
    (pools.props prop).printText build memory rounds console =
      some (console ++ textOf property.value) := by
  rw [printText, textOf]
  simp only [stored.valueLen, isTextValue_eq stored.value]
  by_cases isText : IsTextValue property.value
  · have ends : 0 ∈ property.value := List.mem_of_getLast? isText.2.1
    have shorter : (property.value.takeWhile (· ≠ 0)).length ≤ property.value.length :=
      (List.takeWhile_prefix _).length_le
    rw [if_pos (decide_eq_true isText), if_pos isText,
      stringAt_eq (ByteMemory.text_takeWhile stored.value ends) (by omega),
      Option.bind_eq_bind, Option.bind_some,
      print_string
        (by decide : "\"%s\" ".toList = ['"'] ++ ['%', 's'] ++ ['"', ' ']) (by decide)
        (by decide) (by rw [List.length_map]; omega)]
    rfl
  · rw [if_neg (by simpa using isText), if_neg isText, List.append_nil]

theorem DeviceTreeProperty.print_eq {property : Property} {prop : Nat}
    (stored : property.Stored memory pools prop) (noNul : 0 ∉ property.name)
    (short : property.name.length ≤ intMax ∧ property.value.length ≤ intMax)
    (enough : intMax < rounds) (console : List Char) :
    (pools.props prop).print build memory rounds console =
      some (console ++ property.describe) := by
  have name := stringAt_eq ⟨stored.name, noNul⟩ (Nat.lt_of_le_of_lt short.1 enough)
  have shortText : (property.name.map byteChar).length ≤ intMax := by
    rw [List.length_map]
    exact short.1
  have opening : '%' ∉ "DeviceTreeProperty \x7b ".toList := by decide
  have data : '%' ∉ "data: ".toList := by decide
  have closing : '%' ∉ "\x7d,\n".toList := by decide
  rw [DeviceTreeProperty.print]
  simp only [Option.bind_eq_bind, print_text opening, Option.bind_some, name,
    print_string
      (by decide : "name: \"%s\", ".toList = "name: \"".toList ++ ['%', 's'] ++
        "\", ".toList) (by decide) (by decide) shortText,
    print_text data, printText_eq stored short.2 enough, stored.valueLen,
    print_decimal (by decide : "[%d] ".toList = ['['] ++ ['%', 'd'] ++ [']', ' '])
      (by decide) (by decide) short.2,
    printValue_eq stored.value, print_text closing]
  simp [Property.describe, describeValue, quoted]

/-! Nodes. -/

theorem print_numbered (label : List Char) {depth index : Nat} {format text : List Char}
    {inner next : List Char → Option (List Char)}
    (shape : format = (label ++ ['[']) ++ ['%', 'd'] ++ "]: ".toList)
    (plain : '%' ∉ label ++ ['[']) (shallow : depth * 4 ≤ intMax)
    (small : index ≤ intMax)
    (prints : ∀ console, inner console = some (console ++ text)) :
    ((indent build depth console).bind fun console =>
        (print build console format [.integer 32 index]).bind fun console =>
          (inner console).bind next) =
      next (console ++ numbered depth label index text) := by
  rw [indent_eq shallow, Option.bind_some, print_decimal shape plain (by decide) small,
    Option.bind_some, prints, Option.bind_some]
  simp [numbered]

theorem shallow (depth : UInt8) : (depth.toNat + 1) * 4 ≤ intMax := by
  have bound := depth.toNat_lt
  rw [intMax]
  omega

theorem DeviceTreeNode.printProperties_eq {depth : UInt8} {links : Links Nat}
    (linked : ∀ other, links.next other = (pools.props other).next)
    (enough : intMax < rounds) {properties : List Property}
    (terminated : ∀ property ∈ properties, 0 ∉ property.name)
    (short : ∀ property ∈ properties,
      property.name.length ≤ intMax ∧ property.value.length ≤ intMax)
    {link : Link Nat} {prop counter fuel : Nat} {console : List Char}
    (stored : PropertiesStored memory pools properties prop)
    (path : links.Path link (List.range' prop properties.length))
    (fuelEnough : properties.length < fuel)
    (counted : counter + properties.length ≤ intMax) :
    printProperties build memory rounds pools depth fuel (links.read link) counter
        console =
      some (console ++ describeProperties (depth.toNat + 1) properties counter) := by
  induction properties generalizing link prop counter fuel console with
  | nil =>
      obtain ⟨fuel, rfl⟩ := Nat.exists_eq_succ_of_ne_zero (Nat.ne_of_gt fuelEnough)
      cases path with
      | nil ends =>
          rw [ends]
          exact congrArg some (List.append_nil console).symm
  | cons property properties induction =>
      obtain ⟨fuel, rfl⟩ := Nat.exists_eq_succ_of_ne_zero (Nat.ne_of_gt
        (Nat.lt_of_le_of_lt (Nat.zero_le _) fuelEnough))
      obtain ⟨firstTerminated, restTerminated⟩ := List.forall_mem_cons.mp terminated
      obtain ⟨firstShort, restShort⟩ := List.forall_mem_cons.mp short
      rw [List.length_cons] at fuelEnough counted
      rw [List.length_cons, List.range'_succ] at path
      cases path with
      | cons leads remaining =>
          rw [leads, printProperties]
          simp only [Option.bind_eq_bind]
          rw [print_numbered "prop".toList (by decide) (by decide)
              (shallow depth) (show counter ≤ intMax by omega)
              (DeviceTreeProperty.print_eq stored.1 firstTerminated firstShort enough),
            ← linked prop]
          have rest := @induction restTerminated restShort (.after prop) (prop + 1)
            (counter + 1) fuel (console ++ numbered (depth.toNat + 1) "prop".toList counter
              property.describe) stored.2 remaining (by omega) (by omega)
          rw [Links.read] at rest
          rw [rest, describeProperties, describeProperties, List.zipIdx_cons,
            List.flatMap_cons, List.append_assoc]

mutual
theorem Tree.print_eq (enough : intMax < rounds) : (tree : Tree) → tree.Terminated →
    tree.AtMost intMax → tree.propertyCount ≤ intMax →
    ∀ {item prop fuel : Nat} {depth : UInt8} {console : List Char},
      tree.Stored memory pools item prop → 2 * tree.nodeCount ≤ fuel →
      depth.toNat + tree.nodeCount ≤ 256 →
      DeviceTreeNode.print build memory rounds pools fuel item depth console =
        some (console ++ tree.describe depth.toNat)
  | .node name properties children, terminated, short, counted, item, prop, fuel, depth,
      console, stored, fuelEnough, deep => by
      obtain ⟨nameTerminated, propertiesTerminated, childrenTerminated⟩ := terminated
      obtain ⟨nameShort, propertiesShort, childrenShort⟩ := short
      obtain ⟨nameHeld, propertyPath, propertiesStored, childPath, childrenStored⟩ :=
        stored
      rw [Tree.nodeCount] at fuelEnough deep
      rw [Tree.propertyCount] at counted
      obtain ⟨fuel, rfl⟩ := Nat.exists_eq_succ_of_ne_zero (show fuel ≠ 0 by omega)
      have nameText := stringAt_eq ⟨nameHeld, nameTerminated⟩
        (Nat.lt_of_le_of_lt nameShort enough)
      have shortText : (name.map byteChar).length ≤ intMax := by
        rw [List.length_map]
        exact nameShort
      have propertyLines := fun console => @DeviceTreeNode.printProperties_eq build memory
        rounds pools depth (pools.propertyLinks item) (fun _ => rfl) enough properties
        propertiesTerminated propertiesShort .base prop 0 rounds console propertiesStored
        propertyPath (by omega) (by omega)
      have childLines := fun console => @Forest.print_eq enough children
        childrenTerminated childrenShort (by omega) (pools.childLinks item) (fun _ => rfl)
        .base (item + 1) (prop + properties.length) fuel 0 depth console childrenStored
        childPath (by omega) (by omega) (by rw [intMax]; omega)
      have opening : '%' ∉ "DeviceTreeNode \x7b\n".toList := by decide
      have closing : '%' ∉ "\x7d,\n".toList := by decide
      simp only [Links.read, Pools.propertyLinks, Pools.childLinks] at propertyLines childLines
      have level : depth.toNat * 4 ≤ intMax := Nat.le_trans (by omega) (shallow depth)
      rw [DeviceTreeNode.print]
      simp only [Option.bind_eq_bind, print_text opening, Option.bind_some,
        indent_eq (shallow depth), nameText,
        print_string (by decide : "name: \"%s\",\n".toList = "name: \"".toList ++
          ['%', 's'] ++ "\",\n".toList) (by decide) (by decide) shortText,
        propertyLines, childLines, indent_eq level, print_text closing, Tree.describe,
        describeName, quoted]
      simp

theorem Forest.print_eq (enough : intMax < rounds) : (forest : Forest) →
    forest.All (0 ∉ ·) (0 ∉ ·.name) →
    (forest.All (·.length ≤ intMax) fun property =>
      property.name.length ≤ intMax ∧ property.value.length ≤ intMax) →
    forest.propertyCount ≤ intMax →
    ∀ {links : Links Nat}, (∀ other, links.next other = (pools.nodes other).next) →
    ∀ {link : Link Nat} {item prop fuel counter : Nat} {depth : UInt8}
      {console : List Char}, forest.Stored memory pools item prop →
      links.Path link (forest.items item) → 2 * forest.nodeCount + 1 ≤ fuel →
      depth.toNat + 1 + forest.nodeCount ≤ 256 → counter + forest.nodeCount ≤ intMax →
      DeviceTreeNode.printChildren build memory rounds pools fuel (links.read link) depth
          counter console =
        some (console ++ forest.describe (depth.toNat + 1) counter)
  | .nil, _, _, _, links, _, link, item, prop, fuel, counter, depth, console, _, path,
      fuelEnough, _, _ => by
      obtain ⟨fuel, rfl⟩ := Nat.exists_eq_succ_of_ne_zero
        (Nat.ne_of_gt (Nat.lt_of_lt_of_le (Nat.succ_pos _) fuelEnough))
      cases path with
      | nil ends =>
          rw [ends]
          exact congrArg some (List.append_nil console).symm
  | .cons first rest, terminated, short, counted, links, linked, link, item, prop, fuel,
      counter, depth, console, stored, path, fuelEnough, deep, indexed => by
      obtain ⟨fuel, rfl⟩ := Nat.exists_eq_succ_of_ne_zero
        (Nat.ne_of_gt (Nat.lt_of_lt_of_le (Nat.succ_pos _) fuelEnough))
      have positive := first.nodeCount_pos
      rw [Forest.nodeCount] at fuelEnough deep indexed
      rw [Forest.propertyCount] at counted
      have deeper : (depth + 1).toNat = depth.toNat + 1 := by
        rw [UInt8.toNat_add]
        exact Nat.mod_eq_of_lt (show depth.toNat + 1 < 256 by omega)
      cases path with
      | cons leads remaining =>
          have child := fun console => @Tree.print_eq enough first terminated.1 short.1
            (by omega) item prop fuel (depth + 1) console stored.1 (by omega) (by omega)
          rw [deeper] at child
          have later := fun console => @Forest.print_eq enough rest terminated.2 short.2
            (by omega) links linked (.after item) (item + first.nodeCount)
            (prop + first.propertyCount) fuel (counter + 1) depth console stored.2 remaining
            (by omega) (by omega) (by omega)
          rw [leads, DeviceTreeNode.printChildren]
          simp only [Option.bind_eq_bind]
          rw [print_numbered "child".toList (by decide) (by decide) (shallow depth)
            (show counter ≤ intMax by omega) child, ← linked item]
          rw [Links.read] at later
          rw [later, Forest.describe, List.append_assoc]
end

mutual
theorem NodeBlock.WellFormed.terminated : {block : NodeBlock} → block.WellFormed →
    block.tree.Terminated
  | .node _ _ _ _ _ _, ⟨name, _, properties, children⟩ =>
      ⟨name, List.forall_mem_map.mpr fun block member => (properties block member).name,
        NodeBlocks.WellFormed.terminated children⟩

theorem NodeBlocks.WellFormed.terminated : {blocks : NodeBlocks} → blocks.WellFormed →
    blocks.forest.All (0 ∉ ·) (0 ∉ ·.name)
  | .nil, _ => trivial
  | .cons _ _, ⟨first, rest⟩ =>
      ⟨NodeBlock.WellFormed.terminated first, NodeBlocks.WellFormed.terminated rest⟩
end

theorem DeviceTree.print_eq {tree : DeviceTree} {root : Tree}
    (stored : root.Stored memory pools tree.root 0) (terminated : root.Terminated)
    (short : root.AtMost intMax) (fits : root.Fits) (enough : intMax < rounds) :
    DeviceTree.print build memory rounds pools tree console =
      some (console ++ describeTree tree.bootCpuidPhys root) := by
  have nodes : root.nodeCount < 256 := fits.nodes
  have props : root.propertyCount < 256 := fits.props
  have small : 512 < intMax := by decide
  have one : 1 * 4 ≤ intMax := by decide
  have opening : '%' ∉ "DeviceTree \x7b\n".toList := by decide
  have closing : '%' ∉ "\x7d\n".toList := by decide
  have rootLines := fun console => @Tree.print_eq build memory rounds pools enough root
    terminated short (by omega) tree.root 0 rounds 1 console stored (by omega)
    (show 1 + root.nodeCount ≤ 256 by omega)
  rw [DeviceTree.print]
  simp only [Option.bind_eq_bind, print_text opening, Option.bind_some, indent_eq one,
    print_hexadecimal (by decide : "boot_cpuid_phys: %x,\n".toList =
      "boot_cpuid_phys: ".toList ++ ['%', 'x'] ++ ",\n".toList) (by decide) (by decide)
      tree.bootCpuidPhys.toNat_lt, rootLines, print_text closing, describeTree, framed]
  simp

section

variable {header header' : DeviceTreeHeadersRaw} {memory' : ByteMemory}
  {cpuid structOffset stringsOffset cpuid' structOffset' stringsOffset' : UInt32}
  {root root' : NodeBlock}

theorem EncodedAt.prints
    (encoded : EncodedAt memory header cpuid structOffset stringsOffset root)
    (wellFormed : root.WellFormed) (fits : root.tree.Fits)
    (short : root.tree.AtMost intMax) (enough : root.bytes.length < rounds)
    (items : intMax < rounds) :
    ∃ tree cursor pools,
      DeviceTree.parse memory rounds header Pools.empty = .ok (tree, cursor, pools) ∧
        ∀ build console, DeviceTree.print build memory rounds pools tree console =
          some (console ++ describeTree cpuid root.tree) := by
  obtain ⟨pools, parsed, stored, _⟩ := DeviceTree.parse_fits encoded wellFormed fits
    enough (Nat.le_trans (by decide) (Nat.le_of_lt items))
  exact ⟨_, _, pools, parsed, fun build console =>
    DeviceTree.print_eq stored.stored wellFormed.terminated short fits items⟩

/-- A blob that is parsed and printed shows its tree, however it is laid out. -/
theorem print_shows_tree (build : Target) (console : List Char)
    (encoded : EncodedAt memory header cpuid structOffset stringsOffset root)
    (wellFormed : root.WellFormed) (fits : root.tree.Fits)
    (short : root.tree.AtMost intMax) :
    ∃ enough, ∀ rounds, enough ≤ rounds → ∃ tree cursor pools,
      DeviceTree.parse memory rounds header Pools.empty = .ok (tree, cursor, pools) ∧
        DeviceTree.print build memory rounds pools tree console =
          some (console ++ describeTree cpuid root.tree) := by
  refine ⟨max (root.bytes.length + 1) (intMax + 1), fun rounds enough => ?_⟩
  obtain ⟨tree, cursor, pools, parsed, prints⟩ := encoded.prints wellFormed fits short
    (show root.bytes.length < rounds by omega) (by omega)
  exact ⟨tree, cursor, pools, parsed, prints build console⟩

theorem NodeBlock.sample_atMost : NodeBlock.sample.tree.AtMost intMax := by
  refine ⟨by decide, ?_, ⟨by decide, List.forall_mem_nil _, trivial⟩, trivial⟩
  exact List.forall_mem_cons.mpr ⟨by decide, List.forall_mem_singleton.mpr (by decide)⟩

def sampleText : List Char :=
  "DeviceTree \x7b\n    boot_cpuid_phys: 3,\n    DeviceTreeNode \x7b\n".toList ++
    "        name: \"\",\n".toList ++
    "        prop[0]: DeviceTreeProperty \x7b name: \"a\", data: ".toList ++
    "[3] 01 02 03 \x7d,\n".toList ++
    "        prop[1]: DeviceTreeProperty \x7b name: \"bc\", data: ".toList ++
    "[0] \x7d,\n        child[0]: DeviceTreeNode \x7b\n".toList ++
    "            name: \"cpu\",\n        \x7d,\n    \x7d,\n\x7d\n".toList

theorem print_shows_tree_sample : ∃ enough, ∀ rounds, enough ≤ rounds →
    ∃ tree cursor pools,
      DeviceTree.parse (.ofBytes 4096 (blobBytes 3 NodeBlock.sample sampleStrings)) rounds
        ⟨4096⟩ Pools.empty = .ok (tree, cursor, pools) ∧
      DeviceTree.print .riscv64
        (.ofBytes 4096 (blobBytes 3 NodeBlock.sample sampleStrings)) rounds pools tree [] =
        some sampleText := by
  have shown : [] ++ describeTree 3 NodeBlock.sample.tree = sampleText := by decide +kernel
  rw [← shown]
  exact print_shows_tree .riscv64 [] NodeBlock.sample_encodedAt
    NodeBlock.sample_wellFormed ⟨by decide, by decide⟩ NodeBlock.sample_atMost

/-- Two blobs print the same text exactly when they encode the same tree. -/
theorem print_same_iff (build : Target) (console : List Char)
    (encoded : EncodedAt memory header cpuid structOffset stringsOffset root)
    (encoded' : EncodedAt memory' header' cpuid' structOffset' stringsOffset' root')
    (wellFormed : root.WellFormed) (wellFormed' : root'.WellFormed)
    (fits : root.tree.Fits) (fits' : root'.tree.Fits)
    (short : root.tree.AtMost intMax) (short' : root'.tree.AtMost intMax)
    (unquoted : root.tree.Unquoted) (unquoted' : root'.tree.Unquoted) :
    ∃ enough, ∀ rounds, enough ≤ rounds → ∃ tree cursor pools tree' cursor' pools',
      DeviceTree.parse memory rounds header Pools.empty = .ok (tree, cursor, pools) ∧
      DeviceTree.parse memory' rounds header' Pools.empty =
        .ok (tree', cursor', pools') ∧
      (DeviceTree.print build memory rounds pools tree console =
        DeviceTree.print build memory' rounds pools' tree' console ↔
          cpuid = cpuid' ∧ root.tree = root'.tree) := by
  refine ⟨max (max root.bytes.length root'.bytes.length + 1) (intMax + 1),
    fun rounds enough => ?_⟩
  obtain ⟨tree, cursor, pools, parsed, prints⟩ := encoded.prints wellFormed fits short
    (show root.bytes.length < rounds by omega) (by omega)
  obtain ⟨tree', cursor', pools', parsed', prints'⟩ := encoded'.prints wellFormed' fits'
    short' (show root'.bytes.length < rounds by omega) (by omega)
  refine ⟨tree, cursor, pools, tree', cursor', pools', parsed, parsed', ?_⟩
  rw [prints, prints', Option.some_inj, List.append_cancel_left_eq]
  constructor
  · exact framed_injective unquoted unquoted'
  · rintro ⟨rfl, same⟩
    rw [same]

theorem NodeBlock.sample_unquoted : NodeBlock.sample.tree.Unquoted := by
  have names : ∀ name ∈ [[], [97], [98, 99], [99, 112, 117]], Unquoted name := by
    unfold Unquoted
    decide
  refine ⟨names [] (by decide), ?_, ⟨names _ (by decide), List.forall_mem_nil _, trivial⟩,
    trivial⟩
  exact List.forall_mem_cons.mpr ⟨names _ (by decide),
    List.forall_mem_singleton.mpr (names _ (by decide))⟩

theorem print_same_iff_sample : ∃ enough, ∀ rounds, enough ≤ rounds →
    ∃ tree cursor pools tree' cursor' pools',
      DeviceTree.parse (.ofBytes 4096 (blobBytes 3 NodeBlock.sample sampleStrings)) rounds
        ⟨4096⟩ Pools.empty = .ok (tree, cursor, pools) ∧
      DeviceTree.parse (.ofBytes 4096 (blobBytes 4 NodeBlock.sample sampleStrings)) rounds
        ⟨4096⟩ Pools.empty = .ok (tree', cursor', pools') ∧
      DeviceTree.print .riscv64
        (.ofBytes 4096 (blobBytes 3 NodeBlock.sample sampleStrings)) rounds pools tree [] ≠
      DeviceTree.print .riscv64
        (.ofBytes 4096 (blobBytes 4 NodeBlock.sample sampleStrings)) rounds pools' tree'
          [] := by
  have encoded : EncodedAt (.ofBytes 4096 (blobBytes 4 NodeBlock.sample sampleStrings))
      ⟨4096⟩ 4 (UInt32.ofNat blobStructureOffset)
        (UInt32.ofNat (blobStringsOffset NodeBlock.sample)) NodeBlock.sample :=
    blobBytes_encodedAt (by decide) (by decide) NodeBlock.sample_named
  obtain ⟨enough, prints⟩ := print_same_iff .riscv64 [] NodeBlock.sample_encodedAt encoded
    NodeBlock.sample_wellFormed NodeBlock.sample_wellFormed ⟨by decide, by decide⟩
    ⟨by decide, by decide⟩ NodeBlock.sample_atMost NodeBlock.sample_atMost
    NodeBlock.sample_unquoted NodeBlock.sample_unquoted
  refine ⟨enough, fun rounds many => ?_⟩
  obtain ⟨tree, cursor, pools, tree', cursor', pools', parsed, parsed', same⟩ :=
    prints rounds many
  refine ⟨tree, cursor, pools, tree', cursor', pools', parsed, parsed', fun equal => ?_⟩
  exact absurd (same.mp equal).1 (by decide)

end

end Thos.Device
