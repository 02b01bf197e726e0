import Thos.Kernel.Buffer

namespace Thos.Kernel

/-! Any number of buffers on one console. `io_spinlock` makes every call of
`putchar_buffer` one step. -/

/-- `console` and `pushed` remember the buffer of each character; no step reads
them. -/
structure Console (Index : Type) where
  buffers : Index → Buffer
  console : List (Index × UInt8)
  pushed : List (Index × UInt8)

namespace Console

variable {Index : Type}

def ofBuffer [DecidableEq Index] (index : Index) (characters : List (Index × UInt8)) :
    List UInt8 :=
  (characters.filter fun character => decide (character.1 = index)).map Prod.snd

def wrap (backingArray : Index → Nat → UInt8) (capacity : Index → Nat) :
    Console Index :=
  ⟨fun index => .wrap (backingArray index) (capacity index), [], []⟩

section

variable [DecidableEq Index]

def put (state : Console Index) (character : Index × UInt8) (flushed : List UInt8)
    (buffer : Buffer) : Console Index where
  buffers := Function.update state.buffers character.1 buffer
  console := state.console ++ flushed.map (character.1, ·)
  pushed := state.pushed ++ [character]

def putcharBuffer (state : Console Index) (character : Index × UInt8) :
    Outcome (Console Index) := do
  let (flushed, buffer) ←
    (state.buffers character.1).outputHandleNew character.2
  return state.put character flushed buffer

def run (state : Console Index) (characters : List (Index × UInt8)) :
    Outcome (Console Index) :=
  characters.foldlM putcharBuffer state

@[simp] theorem ofBuffer_append (index : Index)
    (first second : List (Index × UInt8)) :
    ofBuffer index (first ++ second) =
      ofBuffer index first ++ ofBuffer index second := by
  rw [ofBuffer, List.filter_append, List.map_append]
  rfl

@[simp] theorem ofBuffer_self (index : Index) (characters : List UInt8) :
    ofBuffer index (characters.map (index, ·)) = characters := by
  induction characters with
  | nil => rfl
  | cons first rest induction =>
      rw [List.map_cons, ← List.singleton_append, ofBuffer_append, induction]
      simp [ofBuffer]

theorem ofBuffer_of_ne {index other : Index} (different : other ≠ index)
    (characters : List UInt8) :
    ofBuffer index (characters.map (other, ·)) = [] := by
  simp [ofBuffer, List.filter_map, different, Function.comp_def]

/-- What holds of a state of any run: the buffers are valid, and what has been
pushed is what is on the console and in the buffers. -/
structure Kept (state : Console Index) : Prop where
  valid : ∀ index, (state.buffers index).Valid
  inOrder : ∀ index, ofBuffer index state.console ++
    (state.buffers index).content = ofBuffer index state.pushed

structure Put (state after : Console Index) (character : Index × UInt8)
    (flushed : List UInt8) : Prop where
  kept : Kept after
  capacity : ∀ index, (after.buffers index).capacity =
    (state.buffers index).capacity
  console : after.console = state.console ++ flushed.map (character.1, ·)
  pushed : after.pushed = state.pushed ++ [character]
  handled : Buffer.Handled (state.buffers character.1) character.2 flushed
    (after.buffers character.1).content
  others : ∀ index, index ≠ character.1 →
    after.buffers index = state.buffers index

theorem ofBuffer_put (state : Console Index) (character : Index × UInt8)
    (flushed : List UInt8) {index : Index} (different : index ≠ character.1) :
    ofBuffer index (state.console ++ flushed.map (character.1, ·)) =
        ofBuffer index state.console ∧
      ofBuffer index (state.pushed ++ [character]) =
        ofBuffer index state.pushed := by
  have none := ofBuffer_of_ne (Ne.symm different)
  constructor
  · rw [ofBuffer_append, none flushed, List.append_nil]
  · rw [ofBuffer_append]
    exact (congrArg (_ ++ ·) (none [character.2])).trans (List.append_nil _)

theorem putcharBuffer_spec {state : Console Index} (kept : Kept state)
    (character : Index × UInt8) :
    ∃ after flushed, state.putcharBuffer character = .ok after ∧
      Put state after character flushed := by
  obtain ⟨flushed, buffer, handles, valid, capacity, handled⟩ :=
    Buffer.outputHandleNew_spec (kept.valid character.1) character.2
  have here : (state.put character flushed buffer).buffers character.1 = buffer :=
    Function.update_self ..
  have elsewhere : ∀ index, index ≠ character.1 →
      (state.put character flushed buffer).buffers index = state.buffers index :=
    fun index different => Function.update_of_ne different ..
  refine ⟨state.put character flushed buffer, flushed, ?_, ⟨?_, ?_⟩, ?_, rfl, rfl,
    ?_, elsewhere⟩
  · rw [putcharBuffer, handles]
    rfl
  · intro index
    by_cases same : index = character.1
    · rw [same, here]
      exact valid
    · rw [elsewhere index same]
      exact kept.valid index
  · intro index
    have inOrder := kept.inOrder index
    by_cases same : index = character.1
    · subst same
      rw [here, put, ofBuffer_append, ofBuffer_append, ofBuffer_self, ← inOrder,
        List.append_assoc, List.append_assoc, handled.append]
      congr 2
      exact (ofBuffer_self character.1 [character.2]).symm
    · obtain ⟨console, pushed⟩ := ofBuffer_put state character flushed same
      rw [elsewhere index same, put, console, pushed, inOrder]
  · intro index
    by_cases same : index = character.1
    · rw [same, here]
      exact capacity
    · rw [elsewhere index same]
  · rw [here]
    exact handled

structure Ran (state after : Console Index) (characters : List (Index × UInt8)) :
    Prop where
  kept : Kept after
  capacity : ∀ index, (after.buffers index).capacity =
    (state.buffers index).capacity
  pushed : after.pushed = state.pushed ++ characters
  console : ∃ flushed, after.console = state.console ++ flushed

theorem run_spec {state : Console Index} (kept : Kept state)
    (characters : List (Index × UInt8)) :
    ∃ after, state.run characters = .ok after ∧ Ran state after characters := by
  induction characters generalizing state with
  | nil =>
      exact ⟨state, rfl, kept, fun _ => rfl, (List.append_nil _).symm, [],
        (List.append_nil _).symm⟩
  | cons character rest induction =>
      obtain ⟨middle, flushed, puts, put⟩ := putcharBuffer_spec kept character
      obtain ⟨after, runs, ran⟩ := induction put.kept
      refine ⟨after, ?_, ran.kept, ?_, ?_, ?_⟩
      · rw [run, List.foldlM_cons, puts]
        exact runs
      · intro index
        rw [ran.capacity, put.capacity]
      · rw [ran.pushed, put.pushed, List.append_assoc]
        rfl
      · obtain ⟨later, console⟩ := ran.console
        exact ⟨_, by rw [console, put.console, List.append_assoc]⟩

theorem run_append (state : Console Index) (first second : List (Index × UInt8)) :
    state.run (first ++ second) = (state.run first >>= (run · second)) :=
  List.foldlM_append ..

theorem run_line {state : Console Index} (kept : Kept state) {index : Index}
    {characters : List (Index × UInt8)}
    (noNewline : Buffer.newline ∉ ofBuffer index characters)
    (room : (state.buffers index).content.length +
      (ofBuffer index characters).length ≤ (state.buffers index).capacity)
    {after : Console Index} (runs : state.run characters = .ok after) :
    (after.buffers index).content =
        (state.buffers index).content ++ ofBuffer index characters ∧
      ofBuffer index after.console = ofBuffer index state.console := by
  induction characters generalizing state with
  | nil =>
      cases runs
      exact ⟨(List.append_nil _).symm, rfl⟩
  | cons character rest induction =>
      obtain ⟨middle, flushed, puts, put⟩ := putcharBuffer_spec kept character
      rw [run, List.foldlM_cons, puts] at runs
      have further : middle.run rest = .ok after := runs
      rw [← List.singleton_append, ofBuffer_append] at noNewline room ⊢
      rw [List.mem_append, not_or] at noNewline
      rw [List.length_append] at room
      by_cases same : character.1 = index
      · subst same
        have single : ofBuffer character.1 [character] = [character.2] :=
          ofBuffer_self character.1 [character.2]
        rw [single] at noNewline room ⊢
        have different : character.2 ≠ Buffer.newline := by
          intro isNewline
          exact noNewline.1 (List.mem_singleton.mpr isNewline.symm)
        have length := (state.buffers character.1).content_length
        rw [List.length_singleton] at room
        have pushed : (middle.buffers character.1).content =
            (state.buffers character.1).content ++ [character.2] ∧ flushed = [] := by
          generalize content : (middle.buffers character.1).content = rest
          have handled := put.handled
          rw [content] at handled
          cases handled with
          | newline isNewline => exact absurd isNewline different
          | pushed _ _ => exact ⟨rfl, rfl⟩
          | full _ isFull => omega
        obtain ⟨content, console⟩ := induction put.kept noNewline.2 (by
          rw [pushed.1, put.capacity, List.length_append, List.length_singleton]
          omega) further
        rw [content, console, pushed.1, put.console, pushed.2, List.append_assoc]
        exact ⟨rfl, by rw [List.map_nil, List.append_nil]⟩
      · have single : ofBuffer index [character] = [] :=
          ofBuffer_of_ne same [character.2]
        rw [single, List.length_nil, Nat.zero_add] at room
        obtain ⟨content, console⟩ := induction put.kept noNewline.2 (by
          rw [put.others index (Ne.symm same)]
          exact room) further
        rw [content, console, put.others index (Ne.symm same), single,
          List.nil_append, put.console,
          (ofBuffer_put state character flushed (Ne.symm same)).1]
        exact ⟨rfl, rfl⟩

theorem wrap_kept (backingArray : Index → Nat → UInt8) {capacity : Index → Nat}
    (positive : ∀ index, 0 < capacity index) :
    Kept (wrap backingArray capacity) :=
  ⟨fun index => Buffer.wrap_valid _ (positive index), fun _ => rfl⟩

theorem run_whole_line {state after : Console Index} (kept : Kept state)
    {index : Index} {line later : List (Index × UInt8)}
    (empty : (state.buffers index).content = [])
    (noNewline : Buffer.newline ∉ ofBuffer index line)
    (room : (ofBuffer index line).length ≤ (state.buffers index).capacity)
    (runs : state.run (line ++ (index, Buffer.newline) :: later) = .ok after) :
    ∃ earlier rest, after.console =
        earlier ++ (ofBuffer index line ++ [Buffer.newline]).map (index, ·) ++ rest ∧
      ofBuffer index earlier = ofBuffer index state.console := by
  obtain ⟨before, runsLine, ranLine⟩ := run_spec kept line
  rw [run_append, runsLine, Outcome.ok_bind] at runs
  obtain ⟨content, console⟩ := run_line kept noNewline (by
    rw [empty, List.length_nil, Nat.zero_add]
    exact room) runsLine
  obtain ⟨middle, flushed, puts, put⟩ := putcharBuffer_spec ranLine.kept
    (index, Buffer.newline)
  have runsLater : middle.run later = .ok after := by
    rw [run, List.foldlM_cons, puts] at runs
    exact runs
  obtain ⟨final, runsFinal, ran⟩ := run_spec put.kept later
  rw [runsLater] at runsFinal
  cases runsFinal
  obtain ⟨rest, whole⟩ := ran.console
  refine ⟨before.console, rest, ?_, console⟩
  have flushes : flushed = ofBuffer index line ++ [Buffer.newline] := by
    have handled := put.handled
    generalize (middle.buffers (index, Buffer.newline).1).content = left at handled
    cases handled with
    | newline _ => rw [content, empty, List.nil_append]
    | pushed different _ => exact absurd rfl different
    | full different _ => exact absurd rfl different
  rw [whole, put.console, flushes]

/-- For any number of buffers with room for a character and any interleaving of
calls: no assertion fails, each buffer's characters are on the console and then
in the buffer as they were pushed, and a line that fits its empty buffer comes
out in one piece with its newline. -/
theorem console_keeps_every_character (backingArray : Index → Nat → UInt8)
    {capacity : Index → Nat} (positive : ∀ index, 0 < capacity index)
    (characters : List (Index × UInt8)) :
    ∃ after, (wrap backingArray capacity).run characters = .ok after ∧
      (∀ index, ofBuffer index after.console ++ (after.buffers index).content =
          ofBuffer index characters ∧
        (after.buffers index).count ≤ (after.buffers index).capacity ∧
        (after.buffers index).capacity = capacity index) ∧
      ∀ before line later index middle,
        characters = before ++ (line ++ (index, Buffer.newline) :: later) →
        (wrap backingArray capacity).run before = .ok middle →
        (middle.buffers index).content = [] →
        Buffer.newline ∉ ofBuffer index line →
        (ofBuffer index line).length ≤ capacity index →
          ∃ earlier rest, after.console = earlier ++
              (ofBuffer index line ++ [Buffer.newline]).map (index, ·) ++ rest ∧
            ofBuffer index earlier = ofBuffer index before := by
  have kept := wrap_kept backingArray positive
  obtain ⟨after, runs, ran⟩ := run_spec kept characters
  refine ⟨after, runs, ?_, ?_⟩
  · intro index
    have inOrder := ran.kept.inOrder index
    rw [ran.pushed] at inOrder
    exact ⟨inOrder, (ran.kept.valid index).count, ran.capacity index⟩
  · intro before line later index middle split runsBefore empty noNewline room
    obtain ⟨reached, runsReached, ranBefore⟩ := run_spec kept before
    rw [runsBefore] at runsReached
    cases runsReached
    rw [split, run_append, runsBefore, Outcome.ok_bind] at runs
    have fits : (ofBuffer index line).length ≤ (middle.buffers index).capacity := by
      rw [ranBefore.capacity]
      exact room
    obtain ⟨earlier, rest, whole, same⟩ :=
      run_whole_line ranBefore.kept empty noNewline fits runs
    refine ⟨earlier, rest, whole, ?_⟩
    have inOrder := ranBefore.kept.inOrder index
    rw [ranBefore.pushed, empty, List.append_nil] at inOrder
    exact same.trans inOrder

theorem console_keeps_every_character_sample :
    ∃ after, (wrap (fun (_ : Bool) _ => 0) fun _ => 2).run
        [(true, 1), (false, 7), (false, 8), (true, 2), (false, 9),
          (true, Buffer.newline)] = .ok after ∧
      after.console =
        [(false, 7), (false, 8), (true, 1), (true, 2), (true, Buffer.newline)] ∧
      (after.buffers false).content = [9] := by
  obtain ⟨after, runs, -⟩ := console_keeps_every_character
    (fun (_ : Bool) _ => 0) (fun _ => show 0 < 2 by decide)
    [(true, 1), (false, 7), (false, 8), (true, 2), (false, 9),
      (true, Buffer.newline)]
  refine ⟨after, runs, ?_⟩
  cases runs
  exact ⟨rfl, rfl⟩

end

end Console

end Thos.Kernel
