import Thos.Data.Transition
import Thos.Device.Uart

namespace Thos.Device

open Thos.Kernel Data.Transition

/-! What hart 1 does with the characters that the UART receives: the external
interrupt part of `handle_trap`, and `sifive_uart_drain`. -/

/-- The registers that the handler reads and writes, on devices set up by
`sifive_uart_init`. -/
structure Platform (Device : Type) where
  readInterruptPending : Device → BitVec 32
  readReceiveData : Device → BitVec 32 × Device
  claim : Device → BitVec 32 × Device
  complete : Device → BitVec 32 → Device
  signals : Device → Bool
  Changes : Device → Option UInt8 → Device → Prop

def receivedCharacter (read : BitVec 32) : UInt8 :=
  UInt8.ofNat (read &&& 0xff#32).toNat

/-- What has become of the interrupt of the UART. -/
inductive Request where
  | idle
  | pending
  | claimed
  deriving DecidableEq, Repr

/-- The documented behaviour of the two devices: the receive FIFO, whose pending
bit tells whether it holds a character, and the gateway of the controller, which
raises no second request before the first is complete. -/
structure Platform.Lawful {Device : Type} (platform : Platform Device)
    (fifo : Device → List UInt8) (request : Device → Request) : Prop where
  pending : ∀ device, (platform.readInterruptPending device).getLsbD
    uartInterruptReceive = true ↔ fifo device ≠ []
  receive : ∀ device character rest, fifo device = character :: rest →
    receivedCharacter (platform.readReceiveData device).1 = character ∧
      (platform.readReceiveData device).1.getLsbD 31 = false ∧
        fifo (platform.readReceiveData device).2 = rest ∧
          request (platform.readReceiveData device).2 = request device
  signals : ∀ device, platform.signals device = true → request device = .pending
  claim : ∀ device, request device = .pending →
    (platform.claim device).1 = BitVec.ofNat 32 sifiveUart1Interrupt ∧
      request (platform.claim device).2 = .claimed ∧
        fifo (platform.claim device).2 = fifo device
  complete : ∀ device, request device = .claimed →
    fifo (platform.complete device (BitVec.ofNat 32 sifiveUart1Interrupt)) =
      fifo device
  takes : ∀ device character after, platform.Changes device (some character) after →
    fifo after = fifo device ++ [character] ∧ request after = request device
  changes : ∀ device after, platform.Changes device none after →
    fifo after = fifo device ∧
      (request device ≠ .idle → request after = request device)

inductive HandlerPoint where
  | idle
  | claim
  | readPending (interrupt : BitVec 32)
  | readData (interrupt : BitVec 32)
  | handle (interrupt read : BitVec 32)
  | complete (interrupt : BitVec 32)
  | panicked
  deriving DecidableEq, Repr

structure ReceiveState (Device : Type) where
  device : Device
  point : HandlerPoint
  buffer : Buffer
  /-- The characters given to `sbi_putchar`, and how often the handler has found
  the FIFO empty; no step reads them. -/
  console : List UInt8
  emptyReads : Nat
  taken : List UInt8

inductive ReceiveAction (Device : Type) where
  /-- The devices change by themselves. -/
  | device (character : Option UInt8) (after : Device)
  | trap
  | handler

section

variable {Device : Type} (platform : Platform Device)

def handlerStep (state : ReceiveState Device) : Option (ReceiveState Device) :=
  match state.point with
  | .idle => none
  | .claim =>
      let (interrupt, device) := platform.claim state.device
      some { state with
        device
        point := if interrupt = BitVec.ofNat 32 sifiveUart1Interrupt then
            .readPending interrupt
          else .panicked }
  | .readPending interrupt =>
      let pending := bitGet (platform.readInterruptPending state.device)
        uartInterruptReceive
      some { state with
        point := if pending then .readData interrupt else .complete interrupt }
  | .readData interrupt =>
      let (read, device) := platform.readReceiveData state.device
      some { state with device, point := .handle interrupt read }
  | .handle interrupt read =>
      if bitGet read 31 then
        some { state with
          point := .readPending interrupt
          emptyReads := state.emptyReads + 1 }
      else
        match state.buffer.outputHandleNew (receivedCharacter read) with
        | .ok (flushed, buffer) =>
            some { state with
              point := .readPending interrupt
              buffer
              console := state.console ++ flushed }
        | .error _ => some { state with point := .panicked }
  | .complete interrupt =>
      some { state with
        device := platform.complete state.device interrupt
        point := .idle }
  | .panicked => none

inductive ReceiveStep : ReceiveState Device → ReceiveAction Device →
    ReceiveState Device → Prop
  | device {state : ReceiveState Device} {character : Option UInt8} {after : Device} :
      platform.Changes state.device character after →
        ReceiveStep state (.device character after)
          { state with device := after, taken := state.taken ++ character.toList }
  | trap {state : ReceiveState Device} :
      state.point = .idle → platform.signals state.device = true →
        ReceiveStep state .trap { state with point := .claim }
  | handler {state after : ReceiveState Device} :
      handlerStep platform state = some after → ReceiveStep state .handler after

/-- The buffer is wrapped, and the FIFO may hold characters. -/
structure Receiving (fifo : Device → List UInt8) (state : ReceiveState Device) :
    Prop where
  point : state.point = .idle
  buffer : ∃ backingArray capacity, 0 < capacity ∧
    state.buffer = .wrap backingArray capacity
  console : state.console = []
  emptyReads : state.emptyReads = 0
  taken : state.taken = fifo state.device

def receiveSystem (fifo : Device → List UInt8) :
    System (ReceiveState Device) (ReceiveAction Device) where
  Start := Receiving fifo
  Step := ReceiveStep platform

end

def HandlerPoint.inHand : HandlerPoint → List UInt8
  | .handle _ read => [receivedCharacter read]
  | _ => []

section

variable {Device : Type} {platform : Platform Device} {fifo : Device → List UInt8}
  {request : Device → Request} {state after : ReceiveState Device}

def AtPoint (fifo : Device → List UInt8) (request : Device → Request)
    (device : Device) : HandlerPoint → Prop
  | .idle => True
  | .claim => request device = .pending
  | .readPending interrupt | .complete interrupt =>
      interrupt = BitVec.ofNat 32 sifiveUart1Interrupt ∧ request device = .claimed
  | .readData interrupt =>
      interrupt = BitVec.ofNat 32 sifiveUart1Interrupt ∧ request device = .claimed ∧
        fifo device ≠ []
  | .handle interrupt read =>
      interrupt = BitVec.ofNat 32 sifiveUart1Interrupt ∧ request device = .claimed ∧
        read.getLsbD 31 = false
  | .panicked => False

/-- What holds of every state of the receive path. -/
structure Received (fifo : Device → List UInt8) (request : Device → Request)
    (state : ReceiveState Device) : Prop where
  valid : state.buffer.Valid
  atPoint : AtPoint fifo request state.device state.point
  order : state.console ++ state.buffer.content ++ state.point.inHand ++
    fifo state.device = state.taken
  newline : (state.console ++ state.buffer.content).getLast? = some Buffer.newline →
    state.buffer.content = []
  emptyReads : state.emptyReads = 0

theorem Receiving.received (receiving : Receiving fifo state) :
    Received fifo request state := by
  obtain ⟨backingArray, capacity, positive, wrapped⟩ := receiving.buffer
  have empty : state.buffer.content = [] := by
    rw [wrapped]
    rfl
  refine ⟨?_, ?_, ?_, fun _ => empty, receiving.emptyReads⟩
  · rw [wrapped]
    exact Buffer.wrap_valid backingArray positive
  · rw [receiving.point]
    trivial
  · rw [receiving.console, empty, receiving.point, receiving.taken]
    rfl

theorem Platform.Lawful.atPoint (lawful : platform.Lawful fifo request)
    {device next : Device} {character : Option UInt8} {point : HandlerPoint}
    (changed : platform.Changes device character next)
    (atPoint : AtPoint fifo request device point) : AtPoint fifo request next point := by
  have grows : fifo next = fifo device ++ character.toList := by
    cases character with
    | none => exact (lawful.changes device next changed).1.trans (List.append_nil _).symm
    | some character => exact (lawful.takes device character next changed).1
  have keeps : request device ≠ .idle → request next = request device := by
    cases character with
    | none => exact (lawful.changes device next changed).2
    | some character => exact fun _ => (lawful.takes device character next changed).2
  cases point with
  | idle => trivial
  | claim => exact (keeps (by rw [atPoint]; decide)).trans atPoint
  | readPending interrupt | complete interrupt =>
      exact ⟨atPoint.1, (keeps (by rw [atPoint.2]; decide)).trans atPoint.2⟩
  | readData interrupt =>
      refine ⟨atPoint.1, (keeps (by rw [atPoint.2.1]; decide)).trans atPoint.2.1, ?_⟩
      rw [grows]
      exact List.append_ne_nil_of_left_ne_nil atPoint.2.2 _
  | handle interrupt read =>
      exact ⟨atPoint.1, (keeps (by rw [atPoint.2.1]; decide)).trans atPoint.2.1,
        atPoint.2.2⟩
  | panicked => exact atPoint

theorem Received.device (received : Received fifo request state)
    (lawful : platform.Lawful fifo request) {character : Option UInt8} {next : Device}
    (changed : platform.Changes state.device character next) :
    Received fifo request
      { state with device := next, taken := state.taken ++ character.toList } where
  valid := received.valid
  atPoint := lawful.atPoint changed received.atPoint
  order := by
    have grows : fifo next = fifo state.device ++ character.toList := by
      cases character with
      | none =>
          exact (lawful.changes _ next changed).1.trans (List.append_nil _).symm
      | some character => exact (lawful.takes _ character next changed).1
    change state.console ++ state.buffer.content ++ state.point.inHand ++ fifo next = _
    rw [grows, ← List.append_assoc, received.order]
  newline := received.newline
  emptyReads := received.emptyReads

theorem Received.handle (received : Received fifo request state)
    {interrupt read : BitVec 32} (here : state.point = .handle interrupt read) :
    ∃ flushed buffer,
      state.buffer.outputHandleNew (receivedCharacter read) = .ok (flushed, buffer) ∧
        Received fifo request { state with
          point := .readPending interrupt
          buffer
          console := state.console ++ flushed } := by
  obtain ⟨flushed, buffer, handles, valid, _, handled⟩ :=
    Buffer.outputHandleNew_spec received.valid (receivedCharacter read)
  have atPoint := received.atPoint
  have order := received.order
  have appended := handled.append
  rw [here] at atPoint order
  refine ⟨flushed, buffer, handles, valid, ⟨atPoint.1, atPoint.2.1⟩, ?_, ?_,
    received.emptyReads⟩
  · change state.console ++ flushed ++ buffer.content ++ [] ++ _ = _
    rw [List.append_nil, List.append_assoc _ flushed, appended, ← order,
      List.append_assoc state.console _ (HandlerPoint.inHand _)]
    rfl
  · intro last
    change (state.console ++ flushed ++ buffer.content).getLast? = _ at last
    rw [List.append_assoc, appended, ← List.append_assoc,
      List.getLast?_concat] at last
    exact handled.empty_iff.mpr (Option.some.inj last)

theorem Received.handler (received : Received fifo request state)
    (lawful : platform.Lawful fifo request)
    (stepped : handlerStep platform state = some after) :
    Received fifo request after := by
  have atPoint := received.atPoint
  have order := received.order
  cases here : state.point with
  | idle | panicked =>
      rw [handlerStep, here] at stepped
      cases stepped
  | claim =>
      rw [here] at atPoint order
      obtain ⟨interrupt, claimed, sameFifo⟩ := lawful.claim _ atPoint
      rw [handlerStep, here] at stepped
      cases stepped
      refine ⟨received.valid, ?_, ?_, received.newline, received.emptyReads⟩
      · simp only [interrupt, if_true]
        exact ⟨rfl, claimed⟩
      · simp only [interrupt, if_true]
        rw [sameFifo]
        exact order
  | readPending interrupt =>
      rw [here] at atPoint order
      rw [handlerStep, here, bitGet_eq (by decide)] at stepped
      cases bit : (platform.readInterruptPending state.device).getLsbD
          uartInterruptReceive with
      | false =>
          rw [bit] at stepped
          cases stepped
          exact ⟨received.valid, atPoint, order, received.newline, received.emptyReads⟩
      | true =>
          rw [bit] at stepped
          cases stepped
          exact ⟨received.valid, ⟨atPoint.1, atPoint.2, (lawful.pending _).mp bit⟩,
            order, received.newline, received.emptyReads⟩
  | readData interrupt =>
      rw [here] at atPoint order
      obtain ⟨character, rest, queued⟩ := List.exists_cons_of_ne_nil atPoint.2.2
      obtain ⟨low, present, popped, kept⟩ := lawful.receive _ _ _ queued
      rw [handlerStep, here] at stepped
      cases stepped
      refine ⟨received.valid, ⟨atPoint.1, kept.trans atPoint.2.1, present⟩, ?_,
        received.newline, received.emptyReads⟩
      change _ ++ [receivedCharacter _] ++ fifo _ = _
      rw [low, popped, ← order, queued, List.append_assoc]
      simp [HandlerPoint.inHand]
  | handle interrupt read =>
      obtain ⟨flushed, buffer, handles, handled⟩ := received.handle here
      rw [here] at atPoint
      have present : ¬bitGet read 31 = true := by
        rw [bitGet_eq (by decide), atPoint.2.2]
        exact Bool.false_ne_true
      rw [handlerStep, here] at stepped
      simp only [if_neg present, handles] at stepped
      cases stepped
      exact handled
  | complete interrupt =>
      rw [here] at atPoint order
      rw [handlerStep, here] at stepped
      cases stepped
      refine ⟨received.valid, trivial, ?_, received.newline, received.emptyReads⟩
      rw [atPoint.1]
      change _ ++ [] ++ fifo (platform.complete _ _) = _
      rw [lawful.complete _ atPoint.2]
      exact order

theorem Received.of_reachable (lawful : platform.Lawful fifo request)
    (reachable : (receiveSystem platform fifo).Reachable state) :
    Received fifo request state := by
  refine System.Reachable.invariant (Received fifo request) ?_ ?_ reachable
  · intro start receiving
    exact receiving.received
  · intro before action after received stepped
    cases stepped with
    | device changed => exact received.device lawful changed
    | trap idle signalled =>
        have order := received.order
        rw [idle] at order
        exact ⟨received.valid, lawful.signals _ signalled, order, received.newline,
          received.emptyReads⟩
    | handler moved => exact received.handler lawful moved

/-- In every order of arriving characters, interrupts and steps of the handler:
the characters that the device has taken in are, in their order, on the console,
in the buffer, in the handler's hand or in the FIFO; the handler never panics and
never finds the FIFO empty. -/
theorem receive_keeps_every_character (lawful : platform.Lawful fifo request)
    (reachable : (receiveSystem platform fifo).Reachable state) :
    state.console ++ state.buffer.content ++ state.point.inHand ++
        fifo state.device = state.taken ∧
      state.point ≠ .panicked ∧ state.emptyReads = 0 := by
  have received := Received.of_reachable lawful reachable
  refine ⟨received.order, fun panicked => ?_, received.emptyReads⟩
  have atPoint := received.atPoint
  rw [panicked] at atPoint
  exact atPoint

/-- The handler alone, for a number of steps. -/
def handlerRun (platform : Platform Device) (state : ReceiveState Device) :
    Nat → Option (ReceiveState Device)
  | 0 => some state
  | steps + 1 => (handlerStep platform state).bind (handlerRun platform · steps)

/-- The handler has returned and has left nothing in the FIFO. -/
structure Drained (fifo : Device → List UInt8) (request : Device → Request)
    (state after : ReceiveState Device) : Prop where
  received : Received fifo request after
  point : after.point = .idle
  fifo : fifo after.device = []
  taken : after.taken = state.taken

theorem handlerRun_next {next : ReceiveState Device} {steps : Nat}
    (stepped : handlerStep platform state = some next)
    (rest : handlerRun platform next steps = some after) :
    handlerRun platform state (steps + 1) = some after := by
  rw [handlerRun, stepped]
  exact rest

theorem Received.round (received : Received fifo request state)
    (lawful : platform.Lawful fifo request) {interrupt : BitVec 32}
    (here : state.point = .readPending interrupt) {character : UInt8}
    {rest : List UInt8} (queued : fifo state.device = character :: rest) :
    ∃ next, (∀ steps after, handlerRun platform next steps = some after →
        handlerRun platform state (steps + 3) = some after) ∧
      Received fifo request next ∧ next.point = .readPending interrupt ∧
        fifo next.device = rest ∧ next.taken = state.taken := by
  have bit : bitGet (platform.readInterruptPending state.device)
      uartInterruptReceive = true := by
    rw [bitGet_eq (by decide), lawful.pending, queued]
    exact List.cons_ne_nil character rest
  obtain ⟨_, _, popped, _⟩ := lawful.receive _ _ _ queued
  let testing : ReceiveState Device := { state with point := .readData interrupt }
  have tests : handlerStep platform state = some testing := by
    rw [handlerStep, here, bit]
    rfl
  have tested := received.handler lawful tests
  let reading : ReceiveState Device := { state with
    device := (platform.readReceiveData state.device).2
    point := .handle interrupt (platform.readReceiveData state.device).1 }
  have reads : handlerStep platform testing = some reading := rfl
  have read := tested.handler lawful reads
  obtain ⟨flushed, buffer, handles, handled⟩ := read.handle rfl
  have present : ¬bitGet (platform.readReceiveData state.device).1 31 = true := by
    have atPoint := read.atPoint
    rw [bitGet_eq (by decide), atPoint.2.2]
    exact Bool.false_ne_true
  have puts : handlerStep platform reading = some { reading with
      point := .readPending interrupt
      buffer
      console := state.console ++ flushed } := by
    rw [handlerStep]
    simp only [reading, if_neg present]
    rw [handles]
  refine ⟨_, fun steps after runs => ?_, handled, rfl, popped, rfl⟩
  exact handlerRun_next tests (handlerRun_next reads (handlerRun_next puts runs))

theorem Received.drained (received : Received fifo request state)
    (lawful : platform.Lawful fifo request) {interrupt : BitVec 32}
    (here : state.point = .readPending interrupt) :
    ∃ after, handlerRun platform state (3 * (fifo state.device).length + 2) =
      some after ∧ Drained fifo request state after := by
  induction queue : fifo state.device generalizing state with
  | nil =>
      have bit : bitGet (platform.readInterruptPending state.device)
          uartInterruptReceive = false := by
        rw [bitGet_eq (by decide), ← Bool.not_eq_true, lawful.pending, queue]
        exact not_not.mpr rfl
      have tests : handlerStep platform state =
          some { state with point := .complete interrupt } := by
        rw [handlerStep, here, bit]
        rfl
      have tested := received.handler lawful tests
      have completes : handlerStep platform { state with point := .complete interrupt } =
          some { state with
            device := platform.complete state.device interrupt
            point := .idle } := rfl
      have atPoint := received.atPoint
      rw [here] at atPoint
      refine ⟨_, handlerRun_next tests (handlerRun_next completes rfl),
        tested.handler lawful completes, rfl, ?_, rfl⟩
      change fifo (platform.complete state.device interrupt) = []
      rw [atPoint.1, lawful.complete _ atPoint.2, queue]
  | cons character rest induction =>
      obtain ⟨next, runs, kept, point, popped, taken⟩ := received.round lawful here queue
      obtain ⟨after, ran, drained⟩ := induction kept point popped
      refine ⟨after, ?_, drained.received, drained.point, drained.fifo,
        drained.taken.trans taken⟩
      exact runs _ _ ran

end

/-! A platform whose FIFO holds eight characters. -/

def Platform.sample : Platform (List UInt8 × Request) where
  readInterruptPending device := if device.1 = [] then 0#32 else 2#32
  readReceiveData device :=
    match device.1 with
    | [] => (0x80000000#32, device)
    | character :: rest => (BitVec.ofNat 32 character.toNat, rest, device.2)
  claim device :=
    if device.2 = .pending then (5#32, device.1, .claimed) else (0#32, device)
  complete device _ := (device.1, .idle)
  signals device := device.2 = .pending
  Changes device character after :=
    match character with
    | none => after = device ∨
        (device.2 = .idle ∧ device.1 ≠ [] ∧ after = (device.1, .pending))
    | some character => device.1.length < 8 ∧
        after = (device.1 ++ [character], device.2)

theorem receivedCharacter_toNat (character : UInt8) :
    receivedCharacter (BitVec.ofNat 32 character.toNat) = character := by
  have small := character.toNat_lt
  have masked : (BitVec.ofNat 32 character.toNat &&& 0xff#32).toNat =
      character.toNat := by
    rw [BitVec.toNat_and, BitVec.toNat_ofNat, BitVec.toNat_ofNat,
      Nat.mod_eq_of_lt (a := character.toNat) (by omega)]
    exact (Nat.and_two_pow_sub_one_eq_mod _ 8).trans (Nat.mod_eq_of_lt small)
  rw [receivedCharacter, masked, UInt8.ofNat_toNat]

theorem Platform.sample_lawful : sample.Lawful Prod.fst Prod.snd where
  pending := by
    rintro ⟨queue, request⟩
    cases queue with
    | nil => simp [sample]
    | cons character rest => simp [sample, uartInterruptReceive]
  receive := by
    rintro ⟨queue, request⟩ character rest queued
    cases queued
    refine ⟨receivedCharacter_toNat character, ?_, rfl, rfl⟩
    have small := character.toNat_lt
    change (BitVec.ofNat 32 character.toNat).getLsbD 31 = false
    rw [BitVec.getLsbD_ofNat, Nat.testBit_lt_two_pow (by omega), Bool.and_false]
  signals := by
    rintro ⟨queue, request⟩ signalled
    exact of_decide_eq_true signalled
  claim := by
    rintro ⟨queue, request⟩ pending
    cases pending
    exact ⟨rfl, rfl, rfl⟩
  complete _ _ := rfl
  takes := by
    rintro ⟨queue, request⟩ character after ⟨_, rfl⟩
    exact ⟨rfl, rfl⟩
  changes := by
    rintro ⟨queue, request⟩ after (rfl | ⟨idle, _, rfl⟩)
    · exact ⟨rfl, fun _ => rfl⟩
    · exact ⟨rfl, fun busy => absurd idle busy⟩

def trappedState : ReceiveState (List UInt8 × Request) where
  device := ([104, 10], .pending)
  point := .claim
  buffer := .wrap (fun _ => 0) 64
  console := []
  emptyReads := 0
  taken := [104, 10]

theorem trappedState_reachable :
    (receiveSystem Platform.sample Prod.fst).Reachable trappedState := by
  have start : (receiveSystem Platform.sample Prod.fst).Reachable
      { trappedState with device := ([], .idle), point := .idle, taken := [] } :=
    .start _ ⟨rfl, ⟨_, _, by decide, rfl⟩, rfl, rfl, rfl⟩
  have first := start.step (@ReceiveStep.device _ _ _
    (some 104) ([104], .idle) ⟨by decide, rfl⟩)
  have second := first.step (@ReceiveStep.device _ _ _
    (some 10) ([104, 10], .idle) ⟨by decide, rfl⟩)
  have raised := second.step (@ReceiveStep.device _ _ _
    none ([104, 10], .pending) (.inr ⟨rfl, by simp, rfl⟩))
  exact raised.step (.trap rfl rfl)

theorem receive_keeps_every_character_sample :
    trappedState.console ++ trappedState.buffer.content ++
        trappedState.point.inHand ++ trappedState.device.1 = trappedState.taken ∧
      trappedState.point ≠ .panicked ∧ trappedState.emptyReads = 0 :=
  receive_keeps_every_character Platform.sample_lawful trappedState_reachable

end Thos.Device
