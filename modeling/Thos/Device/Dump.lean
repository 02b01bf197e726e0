import Thos.Data.Lines
import Thos.Device.DeviceTree
import Thos.Libc.Printf

namespace Thos.Device

open Data.Lines
open Data.Numeral
open Thos.Libc

/-! The dump of the blob on the console, and the script that reads it back. -/

def print (build : Target) (console format : List Char) (arguments : List Argument) :
    Option (List Char) :=
  match printf build format arguments with
  | some (.stream text, _) => some (console ++ text)
  | _ => none

def DeviceTreeHeadersRaw.totalsize (header : DeviceTreeHeadersRaw)
    (memory : ByteMemory) : UInt32 :=
  memory.load32 (header.address + 4)

def startMarker : List Char := "--- start DeviceTree dump ---".toList

def endMarker : List Char := "--- end DeviceTree dump ---".toList

def bothMarkers : List Char := "DeviceTree dump".toList

namespace DeviceTree

/-- The loop of `DeviceTree_dump_raw` from byte `i` on. -/
def dumpLoop (build : Target) (memory : ByteMemory) (header : DeviceTreeHeadersRaw) :
    Nat → Nat → List Char → Option (List Char)
  | 0, _, console => some console
  | left + 1, i, console =>
      (if i ≠ 0 ∧ i % 16 = 0 then print build console ['\n'] []
        else some console).bind fun console =>
      (print build console "%02x ".toList
        [.integer 32 (memory (header.address + i)).toNat]).bind fun console =>
      dumpLoop build memory header left (i + 1) console

def dumpRaw (build : Target) (memory : ByteMemory) (header : DeviceTreeHeadersRaw)
    (console : List Char) : Option (List Char) := do
  let console ← print build console "raw header address: %p\n".toList
    [.integer build.pointerBits header.address]
  let console ← print build console (startMarker ++ ['\n']) []
  let console ← dumpLoop build memory header
    (swapEndianness32 (header.totalsize memory)).toNat 0 console
  let console ← print build console ['\n'] []
  print build console (endMarker ++ ['\n']) []

end DeviceTree

/-! `parse-device-tree.sh`. -/

def lineMatches (pattern line : List Char) : Bool := decide (pattern <:+: line)

/-- What the script decodes: the lines from one marker to the other, without the
markers. -/
def hexOut (kernelOutfile : List Char) : List Char :=
  unlines '\n' ((between (lineMatches startMarker) (lineMatches endMarker) false
    (split '\n' kernelOutfile)).filter
      fun line => !lineMatches bothMarkers line)

/-- `xxd -r -p` with the hex dump on its input. -/
def binaryOut (xxd : List Char → List UInt8) (kernelOutfile : List Char) :
    List UInt8 :=
  xxd (hexOut kernelOutfile)

variable {build : Target} {memory : ByteMemory} {header : DeviceTreeHeadersRaw}
  {console : List Char}

theorem print_directives {directives : List Directive}
    (valid : ∀ directive ∈ directives, directive.Valid) :
    print build console (directives.flatMap Directive.format)
        (directives.flatMap (Directive.arguments build)) =
      some (console ++ directives.flatMap (Directive.text build)) := by
  have printed := doPrint_directives build (.stream []) valid []
  rw [List.append_nil, puts_stream, Option.map_some] at printed
  rw [print, printf, printed]
  rfl

theorem literal_valid {text : List Char} (plain : '%' ∉ text) :
    ∀ directive ∈ text.map Directive.literal, directive.Valid := by
  intro directive member
  obtain ⟨character, inside, rfl⟩ := List.mem_map.mp member
  exact fun percent => plain (percent ▸ inside)

theorem literal_flatMap (build : Target) (text : List Char) :
    (text.map Directive.literal).flatMap Directive.format = text ∧
      (text.map Directive.literal).flatMap (Directive.arguments build) = [] ∧
      (text.map Directive.literal).flatMap (Directive.text build) = text := by
  induction text with
  | nil => exact ⟨rfl, rfl, rfl⟩
  | cons character text induction =>
      obtain ⟨format, arguments, texts⟩ := induction
      simp only [List.map_cons, List.flatMap_cons, format, arguments, texts]
      exact ⟨rfl, rfl, rfl⟩

theorem print_text {text : List Char} (plain : '%' ∉ text) :
    print build console text [] = some (console ++ text) := by
  have printed := @print_directives build console _ (literal_valid plain)
  obtain ⟨format, arguments, texts⟩ := literal_flatMap build text
  rw [format, arguments, texts] at printed
  exact printed

theorem print_around {front back : List Char} {directive : Directive}
    (valid : directive.Valid) (plain : '%' ∉ front) (plainBack : '%' ∉ back) :
    print build console (front ++ directive.format ++ back)
        (directive.arguments build) =
      some (console ++ (front ++ directive.text build ++ back)) := by
  have all : ∀ each ∈ front.map Directive.literal ++
      directive :: back.map Directive.literal, each.Valid := by
    intro each member
    rcases List.mem_append.mp member with literal | rest
    · exact literal_valid plain each literal
    · rcases List.mem_cons.mp rest with rfl | literal
      · exact valid
      · exact literal_valid plainBack each literal
  have printed := @print_directives build console _ all
  obtain ⟨frontFormat, frontArguments, frontText⟩ := literal_flatMap build front
  obtain ⟨backFormat, backArguments, backText⟩ := literal_flatMap build back
  simp only [List.flatMap_append, List.flatMap_cons, frontFormat, frontArguments,
    frontText, backFormat, backArguments, backText, List.nil_append, List.append_nil,
    ← List.append_assoc] at printed ⊢
  exact printed

/-! The text of the dump. -/

def hexPair (byte : UInt8) : List Char :=
  [Nat.digitChar (byte.toNat / 16), Nat.digitChar (byte.toNat % 16)]

theorem pad_byte : ∀ value < 256, pad [.zero] 2 (Nat.toDigits 16 value) =
    [Nat.digitChar (value / 16), Nat.digitChar (value % 16)] := by
  decide +kernel

theorem print_byte (byte : UInt8) :
    print build console "%02x ".toList [.integer 32 byte.toNat] =
      some (console ++ (hexPair byte ++ [' '])) := by
  have bound := byte.toNat_lt
  have printed := @print_around build console [] [' ']
    (.conversion ⟨[.zero], .decimal 2, .none, .integer .hexadecimal byte.toNat⟩)
    ⟨⟨by decide, by decide⟩, trivial, fun _ => ⟨(by decide : Flag.minus ∉ [Flag.zero]),
      (by decide : Flag.alternative ∉ [Flag.zero])⟩⟩ List.not_mem_nil (by decide)
  have small : byte.toNat % 2 ^ 32 = byte.toNat := Nat.mod_eq_of_lt (by omega)
  have digits : Directive.text build (.conversion
      ⟨[.zero], .decimal 2, .none, .integer .hexadecimal byte.toNat⟩) = hexPair byte := by
    simp only [Directive.text, Width.value, Operand.text, IntegerConversion.text,
      LengthModifier.bits, small]
    exact pad_byte byte.toNat bound
  rw [digits] at printed
  exact printed

def dumpText (memory : ByteMemory) (header : DeviceTreeHeadersRaw) :
    Nat → Nat → List Char
  | 0, _ => []
  | left + 1, i =>
      (if i ≠ 0 ∧ i % 16 = 0 then ['\n'] else []) ++
        (hexPair (memory (header.address + i)) ++ ' ' ::
          dumpText memory header left (i + 1))

theorem DeviceTree.dumpLoop_eq (left i : Nat) (console : List Char) :
    dumpLoop build memory header left i console =
      some (console ++ dumpText memory header left i) := by
  induction left generalizing i console with
  | zero => rw [dumpLoop, dumpText, List.append_nil]
  | succ left induction =>
      have started : (if i ≠ 0 ∧ i % 16 = 0 then print build console ['\n'] []
          else some console) =
          some (console ++ if i ≠ 0 ∧ i % 16 = 0 then ['\n'] else []) := by
        split
        · exact print_text (by decide)
        · rw [List.append_nil]
      rw [dumpLoop, started, Option.bind_some, print_byte, Option.bind_some,
        induction, dumpText]
      simp only [List.append_assoc, List.cons_append, List.nil_append]

def DeviceTreeHeadersRaw.blob (header : DeviceTreeHeadersRaw) (memory : ByteMemory) :
    List UInt8 :=
  (List.range' 0 (swapEndianness32 (header.totalsize memory)).toNat).map
    fun i => memory (header.address + i)

def isBlank (character : Char) : Bool := character == ' ' || character == '\n'

theorem hexPair_digits (byte : UInt8) :
    ∀ character ∈ hexPair byte, isBlank character = false ∧ character ≠ 'D' := by
  have digits : ∀ digit < 16, isBlank (Nat.digitChar digit) = false ∧
      Nat.digitChar digit ≠ 'D' := by decide
  have bound := byte.toNat_lt
  intro character member
  simp only [hexPair, List.mem_cons, List.not_mem_nil, or_false] at member
  rcases member with rfl | rfl
  · exact digits _ (by omega)
  · exact digits _ (Nat.mod_lt _ (by decide))

theorem filter_dumpText (left i : Nat) :
    (dumpText memory header left i).filter (!isBlank ·) =
      ((List.range' i left).map fun i => memory (header.address + i)).flatMap
        hexPair := by
  induction left generalizing i with
  | zero => rfl
  | succ left induction =>
      have row : (if i ≠ 0 ∧ i % 16 = 0 then ['\n'] else []).filter (!isBlank ·) =
          [] := by
        split <;> rfl
      have pair : (hexPair (memory (header.address + i))).filter (!isBlank ·) =
          hexPair (memory (header.address + i)) := by
        rw [List.filter_eq_self]
        intro character member
        rw [(hexPair_digits _ character member).1]
        rfl
      rw [dumpText, List.filter_append, row, List.filter_append, pair,
        List.filter_cons_of_neg (by decide), induction, List.range'_succ, List.map_cons,
        List.flatMap_cons, List.nil_append]

theorem not_mem_dumpText (left i : Nat) : 'D' ∉ dumpText memory header left i := by
  induction left generalizing i with
  | zero => exact List.not_mem_nil
  | succ left induction =>
      rw [dumpText, List.mem_append, List.mem_append, List.mem_cons, not_or, not_or,
        not_or]
      refine ⟨?_, fun member => (hexPair_digits _ _ member).2 rfl, by decide,
        induction _⟩
      split <;> decide

theorem lineMatches_of_not_mem {pattern line : List Char} {symbol : Char}
    (inPattern : symbol ∈ pattern) (absent : symbol ∉ line) :
    lineMatches pattern line = false := by
  rw [lineMatches, decide_eq_false_iff_not]
  intro inside
  exact absent (inside.subset inPattern)

def addressLine (build : Target) (header : DeviceTreeHeadersRaw) : List Char :=
  "raw header address: ".toList ++
    Directive.text build (.pointer header.address)

theorem print_pointer {front : List Char} (plain : '%' ∉ front) (value : Nat) :
    print build console (front ++ ['%', 'p', '\n'])
        [.integer build.pointerBits value] =
      some (console ++ (front ++ Directive.text build (.pointer value) ++ ['\n'])) := by
  have printed := @print_around build console front ['\n'] (.pointer value) trivial plain
    (by decide)
  rw [List.append_assoc front (Directive.format _)] at printed
  exact printed

theorem print_addressLine :
    print build console "raw header address: %p\n".toList
        [.integer build.pointerBits header.address] =
      some (console ++ (addressLine build header ++ ['\n'])) := by
  have whole : "raw header address: %p\n".toList =
      "raw header address: ".toList ++ ['%', 'p', '\n'] := by decide
  rw [whole]
  exact print_pointer (by decide) header.address

theorem pad_digits (width value : Nat) :
    ∀ character ∈ pad [.zero] width (Nat.toDigits 16 value),
      ∃ digit < 16, character = Nat.digitChar digit := by
  have numeral := canonical_toDigits (by decide : 1 < 16) (Nat.le_refl 16) value
  intro character member
  have noMinus : Flag.minus ∉ [Flag.zero] := by decide
  rw [pad, if_neg noMinus, List.mem_append] at member
  rcases member with fill | digit
  · exact zeros_digits (by decide) _ _ fill
  · exact numeral.digits character digit

theorem not_mem_addressLine {symbol : Char} (marks : symbol = '\n' ∨ symbol = '-') :
    symbol ∉ addressLine build header := by
  have digits : ∀ digit < 16, Nat.digitChar digit ≠ '\n' ∧
      Nat.digitChar digit ≠ '-' := by decide
  have front : symbol ∉ "raw header address: ".toList := by
    rcases marks with rfl | rfl <;> decide
  have radix : symbol ∉ ['0', 'x'] := by
    rcases marks with rfl | rfl <;> decide
  intro inside
  unfold addressLine at inside
  rw [List.mem_append, or_iff_right front, Directive.text, List.mem_append,
    or_iff_right radix] at inside
  obtain ⟨digit, small, rfl⟩ := pad_digits _ _ symbol inside
  have other := digits digit small
  exact marks.elim other.1 other.2

theorem DeviceTree.dumpRaw_eq :
    dumpRaw build memory header console =
      some (console ++ (addressLine build header ++ '\n' :: (startMarker ++ '\n' ::
        (dumpText memory header (swapEndianness32 (header.totalsize memory)).toNat 0 ++
          '\n' :: (endMarker ++ ['\n']))))) := by
  have starts : '%' ∉ startMarker ++ ['\n'] := by decide
  have newline : '%' ∉ ['\n'] := by decide
  have ends : '%' ∉ endMarker ++ ['\n'] := by decide
  rw [dumpRaw]
  simp only [Option.bind_eq_bind, print_addressLine, Option.bind_some,
    print_text starts, dumpLoop_eq, print_text newline, print_text ends,
    List.append_assoc, List.cons_append, List.nil_append]

/-- The script takes the lines between the markers. -/
theorem hexOut_eq {front start body stop after : List Char}
    (isStart : start = startMarker) (isStop : stop = endMarker)
    (plain : 'D' ∉ body)
    (before : ∀ line ∈ split '\n' (front ++ ['\n']),
      lineMatches startMarker line = false)
    (rest : ∀ line ∈ split '\n' after, lineMatches startMarker line = false) :
    hexOut (front ++ '\n' :: (start ++ '\n' :: (body ++ '\n' ::
        (stop ++ '\n' :: after)))) =
      unlines '\n' (split '\n' (body ++ ['\n'])) := by
  have lineFree : ∀ line ∈ split '\n' (body ++ ['\n']), 'D' ∉ line := by
    intro line member inside
    have here := mem_of_mem_split member inside
    simp only [List.mem_append, List.mem_singleton] at here
    exact here.elim plain (by decide)
  have open' : lineMatches startMarker start = true := by
    rw [isStart]
    decide
  have close : lineMatches endMarker stop = true := by
    rw [isStop]
    decide
  have markers : lineMatches bothMarkers start = true ∧
      lineMatches bothMarkers stop = true := by
    rw [isStart, isStop]
    decide
  have ended : '\n' ∉ start ∧ '\n' ∉ stop := by
    rw [isStart, isStop]
    decide
  have none : between (lineMatches startMarker) (lineMatches endMarker) false
      (split '\n' after) = [] := by
    rw [← List.append_nil (split '\n' after), between_outside rest]
    rfl
  rw [hexOut, split_append front, split_append start, split_line ended.1,
    split_append body, split_append stop, split_line ended.2, between_outside before,
    List.singleton_append, between, if_pos open',
    between_inside fun line member =>
      lineMatches_of_not_mem (by decide) (lineFree line member),
    List.singleton_append, between, close, Bool.not_true, none,
    List.filter_cons_of_neg (by simp [markers.1]), List.filter_append,
    List.filter_cons_of_neg (by simp [markers.2]), List.filter_nil, List.append_nil,
    List.filter_eq_self.mpr]
  intro line member
  rw [lineMatches_of_not_mem (by decide) (lineFree line member)]
  rfl

/-- Whatever the console shows before and after a dump, the script decodes the dump
to the bytes of the blob. -/
theorem dump_decodes (build : Target) (memory : ByteMemory)
    (header : DeviceTreeHeadersRaw) {xxd : List Char → List UInt8}
    (reverts : ∀ bytes text, text.filter (!isBlank ·) = bytes.flatMap hexPair →
      xxd text = bytes)
    {before after : List Char}
    (unstarted : ∀ line ∈ split '\n' before, lineMatches startMarker line = false)
    (unrepeated : ∀ line ∈ split '\n' after, lineMatches startMarker line = false) :
    ∃ console, DeviceTree.dumpRaw build memory header before = some console ∧
      binaryOut xxd (console ++ after) = header.blob memory := by
  refine ⟨_, DeviceTree.dumpRaw_eq, ?_⟩
  have noDash : '-' ∉ addressLine build header := not_mem_addressLine (.inr rfl)
  have first : ∀ line ∈ split '\n' ((before ++ addressLine build header) ++ ['\n']),
      lineMatches startMarker line = false := by
    obtain ⟨front, last, whole, parts⟩ := split_extend
      (not_mem_addressLine (.inl rfl) : '\n' ∉ addressLine build header) before
    intro line member
    rw [List.append_assoc, whole, List.mem_append, List.mem_singleton] at member
    rcases member with old | rfl
    · refine unstarted line ?_
      rcases parts with same | ⟨same, _⟩ <;> rw [same]
      · exact List.mem_append_left _ old
      · exact old
    · rw [lineMatches, decide_eq_false_iff_not]
      intro inside
      have inLast := infix_of_append (by decide) noDash inside
      rcases parts with same | ⟨_, rfl⟩
      · have missed := unstarted last (by rw [same]; simp)
        rw [lineMatches, decide_eq_false_iff_not] at missed
        exact missed inLast
      · exact absurd inLast (by decide)
  apply reverts
  have shown := hexOut_eq rfl rfl (@not_mem_dumpText memory header
    (swapEndianness32 (header.totalsize memory)).toNat 0) first unrepeated
  simp only [List.append_assoc, List.cons_append, List.nil_append] at shown ⊢
  rw [shown, filter_unlines (by decide), List.filter_append, filter_dumpText]
  exact List.append_nil _

def fromPairs : List Char → List UInt8
  | high :: low :: rest =>
      UInt8.ofNat (digitValue high * 16 + digitValue low) :: fromPairs rest
  | _ => []

theorem fromPairs_hexPair (bytes : List UInt8) :
    fromPairs (bytes.flatMap hexPair) = bytes := by
  induction bytes with
  | nil => rfl
  | cons byte bytes induction =>
      have bound := byte.toNat_lt
      rw [List.flatMap_cons, hexPair, List.cons_append, List.cons_append, fromPairs,
        List.nil_append, induction, digitValue_digitChar _ (by omega),
        digitValue_digitChar _ (Nat.mod_lt _ (by decide)), Nat.div_add_mod',
        UInt8.ofNat_toNat]

def dumpSample : List UInt8 :=
  [0xd0, 0x0d, 0xfe, 0xed, 0, 0, 0, 18, 0, 0, 0, 0x38, 0, 0, 0, 0x48, 0xab, 0xcd]

theorem dump_decodes_sample : ∃ console,
    DeviceTree.dumpRaw .riscv64 (dumpSample.getD · 0) ⟨0⟩ [] = some console ∧
      binaryOut (fun text => fromPairs (text.filter (!isBlank ·))) console =
        dumpSample := by
  have blob : DeviceTreeHeadersRaw.blob ⟨0⟩ (dumpSample.getD · 0) = dumpSample := by
    decide +kernel
  obtain ⟨console, dumped, decoded⟩ := @dump_decodes .riscv64
    (dumpSample.getD · 0) ⟨0⟩ (fun text => fromPairs (text.filter (!isBlank ·)))
    (fun bytes text same => same ▸ fromPairs_hexPair bytes) [] []
    (List.forall_mem_nil _) (List.forall_mem_nil _)
  rw [List.append_nil, blob] at decoded
  exact ⟨console, dumped, decoded⟩

end Thos.Device
