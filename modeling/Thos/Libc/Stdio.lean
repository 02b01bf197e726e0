import Thos.Libc.Stdlib

namespace Thos.Libc

/-! The printf engine.  `none` is undefined behaviour: a missing argument, one
of another type, or a store outside the buffer. -/

inductive Argument where
  | integer (bits value : Nat)
  | string (characters : List Char)
  deriving DecidableEq, Repr

inductive PrintTarget where
  | stream (emitted : List Char)
  | buffer (cells : List Char) (position : Nat)
  deriving DecidableEq, Repr

structure MaxOutput where
  enabled : Bool := false
  maximum : Nat := 0
  deriving DecidableEq, Repr

def noMaxOutput : MaxOutput := {}

structure ConversionSpec where
  longModifiers : Nat := 0
  zeroPad : Bool := false
  leftJustify : Bool := false
  alternative : Bool := false
  minWidthChars : Option (List Char) := none
  minWidth : Int := 0
  deriving DecidableEq, Repr

structure PrintState where
  inConversionSpec : Bool := false
  conversion : ConversionSpec := {}
  printed : Int := 0
  target : PrintTarget
  arguments : List Argument
  maxOutput : MaxOutput
  deriving DecidableEq, Repr

def vaArgInteger (bits : Nat) : List Argument → Option (Nat × List Argument)
  | .integer size value :: rest =>
      if size = bits then some (value % 2 ^ bits, rest) else none
  | _ => none

def vaArgString : List Argument → Option (List Char × List Argument)
  | .string characters :: rest => some (characters, rest)
  | _ => none

def store (cells : List Char) (index : Nat) (character : Char) :
    Option (List Char) :=
  if index < cells.length then some (cells.set index character) else none

/-- `buffer[index] = character` for an `int` index. -/
def storeAt (cells : List Char) (index : Int) (character : Char) :
    Option (List Char) :=
  if index < 0 then none else store cells index.toNat character

def ConversionSpec.valueIs32bit (build : Target) (spec : ConversionSpec) : Bool :=
  (build.pointerBits = 32 && spec.longModifiers < 2) ||
    (build.pointerBits = 64 && spec.longModifiers = 0)

def PrintTarget.putchar (character : Char) : PrintTarget → Option PrintTarget
  | .buffer cells position => do
      let cells ← store cells position character
      some (.buffer cells (position + 1))
  | .stream emitted => some (.stream (emitted ++ [character]))

def PrintState.reset (state : PrintState) : PrintState where
  arguments := state.arguments
  target := state.target
  maxOutput := state.maxOutput
  printed := state.printed

def PrintState.withinMaximum (build : Target) (state : PrintState) : Bool :=
  !state.maxOutput.enabled ||
    (state.maxOutput.maximum ≠ 0 &&
      state.maxOutput.maximum - 1 > build.sizeT state.printed)

def putcharMaybeMax (build : Target) (state : PrintState) (character : Char) :
    Option PrintState := do
  let state ←
    if state.withinMaximum build then do
      let target ← state.target.putchar character
      some { state with target := target }
    else some state
  some { state with printed := toInt (state.printed + 1) }

def putcharMaybeMinwidth (build : Target) (state : PrintState)
    (character : Char) : Option PrintState :=
  if state.conversion.minWidth = 0 then putcharMaybeMax build state character
  else some { state with printed := toInt (state.printed + 1) }

def printChar (build : Target) (state : PrintState) : Option PrintState := do
  let (ch, arguments) ← vaArgInteger 32 state.arguments
  putcharMaybeMinwidth build { state with arguments := arguments }
    (Char.ofNat (ch % 256))

/-- The loop of `print_string`; `index` is an `int` and `str[index]` is read
before each test. -/
def printStringLoop (build : Target) :
    List Char → Int → PrintState → Option PrintState
  | [], index, state => if index < 0 then none else some state
  | ch :: rest, index, state =>
      if index < 0 then none
      else do
        let state ← putcharMaybeMinwidth build state ch
        printStringLoop build rest (toInt (index + 1)) state

def printString (build : Target) (state : PrintState) : Option PrintState := do
  let (str, arguments) ← vaArgString state.arguments
  printStringLoop build str 0 { state with arguments := arguments }

/-- The loop of `print_hex` and `print_binary` over the shifts below a count of
places of `width` bits. -/
def printPlacesLoop (build : Target) (width mask : Nat) (ascii : Nat → Char)
    (value : Nat) : Nat → Bool → PrintState → Option PrintState
  | 0, _, state => some state
  | shift + 1, started, state =>
      let placeValue := value >>> (shift * width) &&& mask
      if placeValue = 0 ∧ !started ∧ shift ≠ 0 then
        printPlacesLoop build width mask ascii value shift started state
      else do
        let state ← putcharMaybeMinwidth build state (ascii placeValue)
        printPlacesLoop build width mask ascii value shift true state

def printPlaces (build : Target) (marker : Char) (width mask : Nat)
    (ascii : Nat → Char) (places32 places64 : Nat) (state : PrintState) :
    Option PrintState := do
  let use32 := state.conversion.valueIs32bit build
  let (value, arguments) ← vaArgInteger (if use32 then 32 else 64) state.arguments
  let state := { state with arguments := arguments }
  let state ←
    if state.conversion.alternative then do
      let state ← putcharMaybeMinwidth build state '0'
      putcharMaybeMinwidth build state marker
    else some state
  printPlacesLoop build width mask ascii value
    (if use32 then places32 else places64) false state

def hexAscii (placeValue : Nat) : Char :=
  if placeValue ≤ 9 then Char.ofNat ('0'.toNat + placeValue)
  else Char.ofNat ('a'.toNat + placeValue - 10)

def binaryAscii (placeValue : Nat) : Char := if placeValue ≠ 0 then '1' else '0'

def printHex (build : Target) : PrintState → Option PrintState :=
  printPlaces build 'x' 4 0xf hexAscii 8 16

def printBinary (build : Target) : PrintState → Option PrintState :=
  printPlaces build 'b' 1 0x1 binaryAscii 32 64

/-- The loop over `divisor`; it divides by ten in each iteration, so that the
number of iterations left bounds it. -/
def printUnsignedLoop (build : Target) :
    Nat → Nat → Nat → Bool → PrintState → Option PrintState
  | 0, _, _, _, state => some state
  | iterations + 1, divisor, value, started, state =>
      if divisor > 0 then do
        if value ≥ divisor then
          let digit := value / divisor
          let state ← putcharMaybeMinwidth build state
            (Char.ofNat ('0'.toNat + digit))
          printUnsignedLoop build iterations (divisor / 10)
            (value - digit * divisor) true state
        else
          let state ←
            if started then putcharMaybeMinwidth build state '0' else some state
          printUnsignedLoop build iterations (divisor / 10) value started state
      else some state

def printUnsignedValue (build : Target) (iterations startingDivisor : Nat)
    (state : PrintState) (value : Nat) : Option PrintState :=
  if value = 0 then putcharMaybeMinwidth build state '0'
  else printUnsignedLoop build iterations startingDivisor value false state

def printUnsignedUint32 (build : Target) : PrintState → Nat → Option PrintState :=
  printUnsignedValue build 10 1000000000

def printUnsignedUint64 (build : Target) : PrintState → Nat → Option PrintState :=
  printUnsignedValue build 20 10000000000000000000

def printUnsigned (build : Target) (state : PrintState) : Option PrintState :=
  if !state.conversion.valueIs32bit build then do
    let (value, arguments) ← vaArgInteger 64 state.arguments
    printUnsignedUint64 build { state with arguments := arguments } value
  else do
    let (value, arguments) ← vaArgInteger 32 state.arguments
    printUnsignedUint32 build { state with arguments := arguments } value

/-- One branch of `print_signed`: the sign, then the negated value as an
unsigned one. -/
def printSignedValue (build : Target) (bits : Nat)
    (printUnsignedValue : PrintState → Nat → Option PrintState)
    (state : PrintState) : Option PrintState := do
  let (argument, arguments) ← vaArgInteger bits state.arguments
  let state := { state with arguments := arguments }
  let value := (argument : Int).bmod (2 ^ bits)
  if value < 0 then
    let state ← putcharMaybeMinwidth build state '-'
    let value := (value * -1).bmod (2 ^ bits)
    printUnsignedValue state (value % 2 ^ bits).toNat
  else printUnsignedValue state (value % 2 ^ bits).toNat

def printSigned (build : Target) (state : PrintState) : Option PrintState :=
  if !state.conversion.valueIs32bit build then
    printSignedValue build 64 (printUnsignedUint64 build) state
  else printSignedValue build 32 (printUnsignedUint32 build) state

def printPadding (build : Target) : Nat → PrintState → Option PrintState
  | 0, state => some state
  | amount + 1, state => do
      let state ← putcharMaybeMax build state
        (if state.conversion.zeroPad then '0' else ' ')
      printPadding build amount state

def padRequested (build : Target) (requested printed : Int) (state : PrintState) :
    Option PrintState :=
  if requested > printed then
    printPadding build (build.sizeT (toInt (requested - printed))) state
  else some state

def PrintState.clearMinWidth (state : PrintState) : PrintState :=
  { state with conversion := { state.conversion with minWidth := 0 } }

def minWidthCall (build : Target) (state : PrintState)
    (func : PrintState → Option PrintState) : Option PrintState :=
  if state.conversion.minWidth > 0 then
    let requested := state.conversion.minWidth
    let oldPrinted := state.printed
    if !state.conversion.leftJustify then do
      let backup := state.arguments
      let state ← func state
      let fakePrinted := toInt (state.printed - oldPrinted)
      let state ← padRequested build requested fakePrinted
        { state with printed := oldPrinted, arguments := backup }
      func state.clearMinWidth
    else do
      let state ← func state.clearMinWidth
      let newPrinted := toInt (state.printed - oldPrinted)
      padRequested build requested newPrinted state
  else func state

def handleConversionSpec (build : Target) (character : Char)
    (state : PrintState) : Option PrintState :=
  match character with
  | '#' =>
      some { state with conversion := { state.conversion with alternative := true } }
  | 'l' =>
      some { state with conversion := { state.conversion with
        longModifiers := (state.conversion.longModifiers + 1) % 256 } }
  | '*' => do
      let (width, arguments) ← vaArgInteger 32 state.arguments
      some { state with
        arguments := arguments
        conversion := { state.conversion with minWidth := toInt width } }
  | '-' =>
      some { state with conversion := { state.conversion with leftJustify := true } }
  | '%' => (putcharMaybeMax build state '%').map .reset
  | 'c' => (minWidthCall build state (printChar build)).map .reset
  | 's' => (minWidthCall build state (printString build)).map .reset
  | 'x' => (minWidthCall build state (printHex build)).map .reset
  | 'b' => (minWidthCall build state (printBinary build)).map .reset
  | 'i' | 'd' => (minWidthCall build state (printSigned build)).map .reset
  | 'u' => (minWidthCall build state (printUnsigned build)).map .reset
  | 'p' => do
      let conversion := { state.conversion with
        longModifiers := if build.pointerBits = 64 then 1 else 0
        minWidth := if build.pointerBits = 64 then 16 else 8
        zeroPad := true }
      let state ← putcharMaybeMax build { state with conversion := conversion } '0'
      let state ← putcharMaybeMax build state 'x'
      (minWidthCall build state (printHex build)).map .reset
  | _ => some state

def ConversionSpec.endMinWidth (conversion : ConversionSpec) : ConversionSpec :=
  match conversion.minWidthChars with
  | some chars => { conversion with minWidth := atoi chars, minWidthChars := none }
  | none => conversion

/-- One iteration of the loop of `PrintTarget_do_print`. -/
def doPrintStep (build : Target) (ch : Char) (rest : List Char)
    (state : PrintState) : Option PrintState :=
  if !state.inConversionSpec then
    if ch = '%' then some { state with inConversionSpec := true }
    else putcharMaybeMax build state ch
  else if state.conversion.zeroPad = false ∧
      state.conversion.minWidthChars = none ∧ ch = '0' then
    some { state with conversion := { state.conversion with zeroPad := true } }
  else if '0' ≤ ch ∧ ch ≤ '9' then
    if state.conversion.minWidthChars = none then
      some { state with conversion :=
        { state.conversion with minWidthChars := some (ch :: rest) } }
    else some state
  else
    handleConversionSpec build ch
      { state with conversion := state.conversion.endMinWidth }

def doPrintLoop (build : Target) : List Char → PrintState → Option PrintState
  | [], state => some state
  | ch :: rest, state =>
    (doPrintStep build ch rest state).bind (doPrintLoop build rest)

/-- The final state; the value returned is its `printed`. -/
def PrintTarget.doPrint (build : Target) (target : PrintTarget)
    (format : List Char) (arguments : List Argument) (maxOutput : MaxOutput) :
    Option PrintState :=
  doPrintLoop build format
    { target := target, arguments := arguments, maxOutput := maxOutput }

def printf (build : Target) (format : List Char) (arguments : List Argument) :
    Option (PrintTarget × Int) := do
  let state ← PrintTarget.doPrint build (.stream []) format arguments noMaxOutput
  some (state.target, state.printed)

def sprintf (build : Target) (buffer format : List Char)
    (arguments : List Argument) : Option (List Char × Int) := do
  let state ← PrintTarget.doPrint build (.buffer buffer 0) format arguments
    noMaxOutput
  match state.target with
  | .buffer cells _ => do
      let cells ← storeAt cells state.printed (Char.ofNat 0)
      some (cells, state.printed)
  | .stream _ => none

def snprintf (build : Target) (buffer : List Char) (bufsz : Nat)
    (format : List Char) (arguments : List Argument) :
    Option (List Char × Int) := do
  let state ← PrintTarget.doPrint build (.buffer buffer 0) format arguments
    { enabled := true, maximum := bufsz }
  match state.target with
  | .buffer cells _ => do
      let cells ←
        if bufsz > build.sizeT state.printed then
          storeAt cells state.printed (Char.ofNat 0)
        else if bufsz = 0 then some cells
        else store cells (bufsz - 1) (Char.ofNat 0)
      some (cells, state.printed)
  | .stream _ => none

end Thos.Libc
