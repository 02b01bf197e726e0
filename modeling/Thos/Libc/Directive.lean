import Thos.Libc.Format

namespace Thos.Libc

/-! The specification of printf: a format string is a list of directives, each
with the argument it consumes and the text it stands for. -/

inductive Flag where
  | minus
  | zero
  | alternative
  deriving DecidableEq, Repr

inductive Width where
  | absent
  | decimal (value : Nat)
  | argument (value : Nat)
  deriving DecidableEq, Repr

inductive LengthModifier where
  | none
  | long
  | longLong
  deriving DecidableEq, Repr

inductive IntegerConversion where
  | hexadecimal
  | binary
  | decimal
  | integer
  | unsigned
  deriving DecidableEq, Repr

inductive Operand where
  | character (value : Nat)
  | string (characters : List Char)
  | integer (conversion : IntegerConversion) (value : Nat)
  deriving DecidableEq, Repr

structure Conversion where
  flags : List Flag
  width : Width
  modifier : LengthModifier
  operand : Operand
  deriving DecidableEq, Repr

inductive Directive where
  | literal (character : Char)
  | percent
  | pointer (value : Nat)
  | conversion (spec : Conversion)
  deriving DecidableEq, Repr

/-! Format strings. -/

def Flag.char : Flag → Char
  | minus => '-'
  | zero => '0'
  | alternative => '#'

def Width.format : Width → List Char
  | absent => []
  | decimal value => Nat.toDigits 10 value
  | argument _ => ['*']

def LengthModifier.format : LengthModifier → List Char
  | none => []
  | long => ['l']
  | longLong => ['l', 'l']

def IntegerConversion.char : IntegerConversion → Char
  | hexadecimal => 'x'
  | binary => 'b'
  | decimal => 'd'
  | integer => 'i'
  | unsigned => 'u'

def Operand.char : Operand → Char
  | character _ => 'c'
  | string _ => 's'
  | integer conversion _ => conversion.char

def Conversion.format (conversion : Conversion) : List Char :=
  '%' :: conversion.flags.map Flag.char ++ conversion.width.format ++
    conversion.modifier.format ++ [conversion.operand.char]

def Directive.format : Directive → List Char
  | literal character => [character]
  | percent => ['%', '%']
  | pointer _ => ['%', 'p']
  | conversion spec => spec.format

/-! Arguments. -/

def LengthModifier.bits (build : Target) : LengthModifier → Nat
  | none => 32
  | long => build.pointerBits
  | longLong => 64

def Width.arguments : Width → List Argument
  | absent => []
  | decimal _ => []
  | argument value => [.integer 32 value]

def Operand.argument (bits : Nat) : Operand → Argument
  | character value => .integer 32 value
  | string characters => .string characters
  | integer _ value => .integer bits value

def Directive.arguments (build : Target) : Directive → List Argument
  | literal _ => []
  | percent => []
  | pointer value => [.integer build.pointerBits value]
  | conversion spec => spec.width.arguments ++
      [spec.operand.argument (spec.modifier.bits build)]

/-! Texts. -/

def Width.value : Width → Nat
  | absent => 0
  | decimal value => value
  | argument value => value

/-- The numeral of the low `bits` bits; `#` asks for the prefix. -/
def IntegerConversion.text (conversion : IntegerConversion) (bits value : Nat)
    (alternative : Bool) : List Char :=
  let value := value % 2 ^ bits
  match conversion with
  | hexadecimal => (if alternative then ['0', 'x'] else []) ++ Nat.toDigits 16 value
  | binary => (if alternative then ['0', 'b'] else []) ++ Nat.toDigits 2 value
  | decimal | integer => signedDigits (signedValue bits value)
  | unsigned => Nat.toDigits 10 value

def Operand.text (operand : Operand) (bits : Nat) (alternative : Bool) : List Char :=
  match operand with
  | character value => [Char.ofNat (value % 256)]
  | string characters => characters
  | integer conversion value => conversion.text bits value alternative

def pad (flags : List Flag) (width : Nat) (body : List Char) : List Char :=
  let fill := List.replicate (width - body.length)
    (if .zero ∈ flags then '0' else ' ')
  if .minus ∈ flags then body ++ fill else fill ++ body

def Directive.text (build : Target) : Directive → List Char
  | literal character => [character]
  | percent => ['%']
  | pointer value => ['0', 'x'] ++
      pad [.zero] (build.pointerBits / 4)
        (Nat.toDigits 16 (value % 2 ^ build.pointerBits))
  | conversion spec =>
      pad spec.flags spec.width.value
        (spec.operand.text (spec.modifier.bits build) (.alternative ∈ spec.flags))

theorem length_pad (flags : List Flag) (width : Nat) (body : List Char) :
    (pad flags width body).length = max width body.length := by
  simp only [pad]
  split <;> simp <;> omega

@[simp] theorem pad_zero (flags : List Flag) (body : List Char) :
    pad flags 0 body = body := by
  simp [pad]

/-! What the specification covers. -/

/-- Widths are non-zero where they would read as a flag, and fit in `int`. -/
def Width.Fits : Width → Prop
  | absent => True
  | decimal value => 0 < value ∧ value ≤ intMax
  | argument value => value ≤ intMax

def Operand.Fits : Operand → Prop
  | string characters => characters.length ≤ intMax
  | _ => True

/-- Zero padding is for `u`, and for `x` and `b` without a prefix. -/
def Operand.TakesZero (operand : Operand) (flags : List Flag) : Prop :=
  match operand with
  | integer .unsigned _ => True
  | integer .hexadecimal _ => .alternative ∉ flags
  | integer .binary _ => .alternative ∉ flags
  | _ => False

structure Conversion.Valid (conversion : Conversion) : Prop where
  width : conversion.width.Fits
  operand : conversion.operand.Fits
  zero : .zero ∈ conversion.flags →
    .minus ∉ conversion.flags ∧ conversion.operand.TakesZero conversion.flags

def Directive.Valid : Directive → Prop
  | literal character => character ≠ '%'
  | conversion spec => spec.Valid
  | _ => True

end Thos.Libc
