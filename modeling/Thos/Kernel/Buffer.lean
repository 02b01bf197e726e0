import Mathlib.Logic.Function.Basic
import Thos.Kernel.Outcome

namespace Thos.Kernel

/-- The backing array is read by index; `Valid` keeps the indices below
`capacity`. -/
structure Buffer where
  count : Nat
  capacity : Nat
  array : Nat → UInt8

namespace Buffer

def newline : UInt8 := 10

def zeroed (array : Nat → UInt8) (length : Nat) : Nat → UInt8 :=
  fun index => if index < length then 0 else array index

def wrap (backingArray : Nat → UInt8) (capacity : Nat) : Buffer :=
  ⟨0, capacity, zeroed backingArray capacity⟩

def isFull (buffer : Buffer) : Bool := buffer.count == buffer.capacity

def tryPush (buffer : Buffer) (byte : UInt8) : Bool × Buffer :=
  if buffer.isFull then (false, buffer)
  else
    (true, { buffer with
      array := Function.update buffer.array buffer.count byte
      count := buffer.count + 1 })

def clear (buffer : Buffer) : Buffer :=
  { buffer with array := zeroed buffer.array buffer.count, count := 0 }

/-- The characters given to `sbi_putchar`, and the cleared buffer. -/
def outputFlush (buffer : Buffer) : List UInt8 × Buffer :=
  ((List.range buffer.count).map buffer.array, buffer.clear)

def outputHandleNew (buffer : Buffer) (new : UInt8) :
    Outcome (List UInt8 × Buffer) :=
  if new = newline then
    let (flushed, buffer) := buffer.outputFlush
    .ok (flushed ++ [new], buffer)
  else
    match buffer.tryPush new with
    | (true, buffer) => .ok ([], buffer)
    | (false, buffer) =>
        let (flushed, buffer) := buffer.outputFlush
        match buffer.tryPush new with
        | (true, buffer) => .ok (flushed, buffer)
        | (false, _) => .error (.panic "assertion failed: assert(pushed)")

def content (buffer : Buffer) : List UInt8 :=
  (List.range buffer.count).map buffer.array

structure Valid (buffer : Buffer) : Prop where
  capacity : 0 < buffer.capacity
  count : buffer.count ≤ buffer.capacity

theorem content_length (buffer : Buffer) : buffer.content.length = buffer.count := by
  rw [content, List.length_map, List.length_range]

theorem wrap_valid (backingArray : Nat → UInt8) {capacity : Nat}
    (positive : 0 < capacity) : (wrap backingArray capacity).Valid :=
  ⟨positive, Nat.zero_le _⟩

theorem Valid.clear {buffer : Buffer} (valid : buffer.Valid) :
    buffer.clear.Valid :=
  ⟨valid.capacity, Nat.zero_le _⟩

theorem tryPush_room {buffer : Buffer} (room : buffer.count < buffer.capacity)
    (byte : UInt8) :
    ∃ after, buffer.tryPush byte = (true, after) ∧ after.Valid ∧
      after.capacity = buffer.capacity ∧
      after.content = buffer.content ++ [byte] := by
  have notFull : buffer.isFull = false := beq_false_of_ne (Nat.ne_of_lt room)
  refine ⟨{ buffer with
    array := Function.update buffer.array buffer.count byte
    count := buffer.count + 1 }, ?_, ⟨Nat.zero_lt_of_lt room, room⟩, rfl, ?_⟩
  · rw [tryPush, notFull]
    rfl
  · simp only [content, List.range_succ, List.map_append, List.map_singleton,
      Function.update_self, List.append_cancel_right_eq]
    apply List.map_congr_left
    intro index inside
    exact Function.update_of_ne (Nat.ne_of_lt (List.mem_range.mp inside)) ..

inductive Handled (buffer : Buffer) (new : UInt8) : List UInt8 → List UInt8 → Prop
  | newline : new = newline → Handled buffer new (buffer.content ++ [new]) []
  | pushed : new ≠ newline → buffer.count < buffer.capacity →
      Handled buffer new [] (buffer.content ++ [new])
  | full : new ≠ newline → buffer.count = buffer.capacity →
      Handled buffer new buffer.content [new]

theorem outputHandleNew_spec {buffer : Buffer} (valid : buffer.Valid)
    (new : UInt8) :
    ∃ flushed after, buffer.outputHandleNew new = .ok (flushed, after) ∧
      after.Valid ∧ after.capacity = buffer.capacity ∧
      Handled buffer new flushed after.content := by
  by_cases isNewline : new = newline
  · refine ⟨_, buffer.clear, ?_, valid.clear, rfl, .newline isNewline⟩
    rw [outputHandleNew, if_pos isNewline]
    rfl
  by_cases room : buffer.count < buffer.capacity
  · obtain ⟨after, pushes, validAfter, capacity, content⟩ := tryPush_room room new
    refine ⟨[], after, ?_, validAfter, capacity, ?_⟩
    · rw [outputHandleNew, if_neg isNewline, pushes]
    · rw [content]
      exact .pushed isNewline room
  · have full : buffer.count = buffer.capacity :=
      Nat.le_antisymm valid.count (Nat.le_of_not_lt room)
    obtain ⟨after, pushes, validAfter, capacity, content⟩ :=
      tryPush_room (show buffer.clear.count < buffer.clear.capacity
        from valid.capacity) new
    refine ⟨buffer.content, after, ?_, validAfter, capacity, ?_⟩
    · have refused : buffer.tryPush new = (false, buffer) := by
        rw [tryPush, isFull, full, beq_self_eq_true]
        rfl
      simp only [outputHandleNew, if_neg isNewline, refused, outputFlush, pushes]
      rfl
    · rw [content]
      exact .full isNewline full

theorem outputHandleNew_valid {buffer after : Buffer} {new : UInt8}
    {flushed : List UInt8} (valid : buffer.Valid)
    (handles : buffer.outputHandleNew new = .ok (flushed, after)) : after.Valid := by
  obtain ⟨_, _, pushes, validAfter, _⟩ := outputHandleNew_spec valid new
  cases handles.symm.trans pushes
  exact validAfter

theorem outputHandleNew_ne_error {buffer : Buffer} {new : UInt8} {stop : Stop}
    (valid : buffer.Valid) : buffer.outputHandleNew new ≠ .error stop := by
  intro fails
  obtain ⟨_, _, pushes, _⟩ := outputHandleNew_spec valid new
  cases fails.symm.trans pushes

theorem outputHandleNew_handled {buffer after : Buffer} {new : UInt8}
    {flushed : List UInt8} (bounded : buffer.count ≤ buffer.capacity)
    (handles : buffer.outputHandleNew new = .ok (flushed, after)) :
    Handled buffer new flushed after.content ∧ after.count ≤ after.capacity := by
  by_cases room : 0 < buffer.capacity
  · obtain ⟨_, _, pushes, valid, _, handled⟩ :=
      outputHandleNew_spec ⟨room, bounded⟩ new
    cases handles.symm.trans pushes
    exact ⟨handled, valid.count⟩
  · have capacity : buffer.capacity = 0 := Nat.eq_zero_of_not_pos room
    have count : buffer.count = 0 := Nat.le_zero.mp (capacity ▸ bounded)
    by_cases isNewline : new = newline
    · rw [outputHandleNew, if_pos isNewline] at handles
      cases handles
      exact ⟨.newline isNewline, Nat.zero_le _⟩
    · simp [outputHandleNew, isNewline, tryPush, isFull, outputFlush, clear, count,
        capacity] at handles

/-- Nothing is lost, duplicated or reordered by one character. -/
theorem Handled.append {buffer : Buffer} {new : UInt8} {flushed rest : List UInt8}
    (handled : Handled buffer new flushed rest) :
    flushed ++ rest = buffer.content ++ [new] := by
  cases handled with
  | newline _ => rw [List.append_nil]
  | pushed _ _ => rw [List.nil_append]
  | full _ _ => rfl

theorem Handled.empty_iff {buffer : Buffer} {new : UInt8}
    {flushed rest : List UInt8} (handled : Handled buffer new flushed rest) :
    rest = [] ↔ new = Buffer.newline := by
  cases handled with
  | newline same => simp [same]
  | pushed different _ => simp [different]
  | full different _ => simp [different]

end Buffer

end Thos.Kernel
