import Mathlib.Data.List.Basic
import Mathlib.Data.List.Infix

namespace Data.Lines

/-! The lines of a text, and the blocks of lines between two markers. -/

variable {Symbol : Type} [DecidableEq Symbol]

/-- A last line need not be ended. -/
def split (newline : Symbol) : List Symbol → List (List Symbol)
  | [] => []
  | symbol :: rest =>
      if symbol = newline then [] :: split newline rest
      else
        match split newline rest with
        | [] => [[symbol]]
        | line :: more => (symbol :: line) :: more

def unlines (newline : Symbol) (lines : List (List Symbol)) : List Symbol :=
  lines.flatMap (· ++ [newline])

variable {newline : Symbol}

theorem split_newline (rest : List Symbol) :
    split newline (newline :: rest) = [] :: split newline rest := by
  rw [split, if_pos rfl]

theorem split_cons {symbol : Symbol} (other : symbol ≠ newline)
    (rest : List Symbol) :
    (split newline rest = [] ∧ split newline (symbol :: rest) = [[symbol]]) ∨
      ∃ line more, split newline rest = line :: more ∧
        split newline (symbol :: rest) = (symbol :: line) :: more := by
  rw [split, if_neg other]
  cases split newline rest with
  | nil => exact .inl ⟨rfl, rfl⟩
  | cons line more => exact .inr ⟨line, more, rfl, rfl⟩

theorem split_append (first rest : List Symbol) :
    split newline (first ++ newline :: rest) =
      split newline (first ++ [newline]) ++ split newline rest := by
  induction first with
  | nil =>
      rw [List.nil_append, List.nil_append, split_newline, split_newline]
      rfl
  | cons symbol first induction =>
      rw [List.cons_append, List.cons_append]
      by_cases ends : symbol = newline
      · rw [ends, split_newline, split_newline, induction]
        rfl
      · have line : split newline (first ++ [newline]) ≠ [] := by
          cases first with
          | nil => rw [List.nil_append, split_newline]; simp
          | cons symbol first =>
              rw [List.cons_append, split]
              split
              · simp
              · split <;> simp
        obtain ⟨line, more, shape⟩ := List.exists_cons_of_ne_nil line
        rw [shape] at induction
        rw [split, if_neg ends, induction, split, if_neg ends, shape]
        rfl

theorem split_line {line : List Symbol} (free : newline ∉ line) :
    split newline (line ++ [newline]) = [line] := by
  induction line with
  | nil =>
      rw [List.nil_append, split_newline]
      rfl
  | cons symbol line induction =>
      rw [List.mem_cons, not_or] at free
      rw [List.cons_append, split, if_neg (Ne.symm free.1), induction free.2]

theorem mem_of_mem_split {text line : List Symbol} {symbol : Symbol}
    (member : line ∈ split newline text) (inside : symbol ∈ line) :
    symbol ∈ text := by
  induction text generalizing line with
  | nil => contradiction
  | cons first text induction =>
      by_cases ends : first = newline
      · rw [ends, split_newline] at member
        rcases List.mem_cons.mp member with rfl | later
        · contradiction
        · exact List.mem_cons_of_mem _ (induction later inside)
      · rcases split_cons ends text with ⟨_, shape⟩ | ⟨line', more, before, shape⟩
        · rw [shape, List.mem_singleton] at member
          rw [member] at inside
          exact List.mem_cons.mpr (.inl (List.mem_singleton.mp inside))
        · rw [shape] at member
          rcases List.mem_cons.mp member with rfl | later
          · rcases List.mem_cons.mp inside with rfl | rest
            · exact List.mem_cons_self
            · refine List.mem_cons_of_mem _ (induction ?_ rest)
              rw [before]
              exact List.mem_cons_self
          · refine List.mem_cons_of_mem _ (induction ?_ inside)
            rw [before]
            exact List.mem_cons_of_mem _ later

theorem filter_unlines {keep : Symbol → Bool} (blank : keep newline = false)
    (text : List Symbol) :
    (unlines newline (split newline text)).filter keep = text.filter keep := by
  induction text with
  | nil => rfl
  | cons symbol text induction =>
      by_cases ends : symbol = newline
      · rw [ends, split_newline, unlines, List.flatMap_cons, List.nil_append,
          List.singleton_append, List.filter_cons_of_neg (by simp [blank]),
          List.filter_cons_of_neg (by simp [blank])]
        exact induction
      · rcases split_cons ends text with ⟨before, shape⟩ | ⟨line, more, before, shape⟩
        · rw [before] at induction
          rw [shape, List.filter_cons, ← induction]
          simp [unlines, blank, List.filter_cons]
        · rw [before, unlines, List.flatMap_cons] at induction
          rw [shape, unlines, List.flatMap_cons, List.cons_append, List.cons_append,
            List.filter_cons, List.filter_cons, ← induction]

theorem split_extend {rest : List Symbol} (free : newline ∉ rest) (text : List Symbol) :
    ∃ front last, split newline (text ++ (rest ++ [newline])) =
        front ++ [last ++ rest] ∧
      (split newline text = front ++ [last] ∨
        (split newline text = front ∧ last = [])) := by
  induction text with
  | nil => exact ⟨[], [], split_line free, .inr ⟨rfl, rfl⟩⟩
  | cons symbol text induction =>
      obtain ⟨front, last, whole, parts⟩ := induction
      rw [List.cons_append]
      by_cases ends : symbol = newline
      · rw [ends, split_newline, split_newline, whole]
        refine ⟨[] :: front, last, rfl, parts.imp (fun same => ?_) fun same => ?_⟩
        · rw [same]
          rfl
        · rw [same.1]
          exact ⟨rfl, same.2⟩
      · rw [split, if_neg ends, whole, split, if_neg ends]
        cases front with
        | nil =>
            refine ⟨[], symbol :: last, rfl, .inl ?_⟩
            rcases parts with same | ⟨same, rfl⟩ <;> rw [same] <;> rfl
        | cons line front =>
            refine ⟨(symbol :: line) :: front, last, rfl, ?_⟩
            refine parts.imp (fun same => ?_) fun same => ?_
            · rw [same]
              rfl
            · rw [same.1]
              exact ⟨rfl, same.2⟩

omit [DecidableEq Symbol] in
theorem infix_of_append {pattern first second : List Symbol} {symbol : Symbol}
    (ends : pattern.getLast? = some symbol) (absent : symbol ∉ second)
    (inside : pattern <:+: first ++ second) : pattern <:+: first := by
  obtain ⟨front, back, same⟩ := inside
  rcases List.append_eq_append_iff.mp same with
    ⟨rest, whole, _⟩ | ⟨rest, whole, same⟩
  · exact ⟨front, rest, whole.symm⟩
  · rcases List.eq_nil_or_concat rest with rfl | ⟨rest, last, rfl⟩
    · rw [List.append_nil] at whole
      exact ⟨front, [], by rw [List.append_nil, whole]⟩
    · rw [List.concat_eq_append] at whole same
      have lasts := congrArg List.getLast? whole
      rw [List.getLast?_append, ends, ← List.append_assoc, List.getLast?_concat,
        Option.some_or, Option.some_inj] at lasts
      rw [same, lasts] at absent
      simp at absent

section

variable {Line : Type} (opens closes : Line → Bool)

/-- The blocks from a line that opens to the next that closes. -/
def between : Bool → List Line → List Line
  | _, [] => []
  | false, line :: rest =>
      if opens line then line :: between true rest else between false rest
  | true, line :: rest => line :: between (!closes line) rest

variable {opens closes}

theorem between_outside {first : List Line}
    (outside : ∀ line ∈ first, opens line = false) (rest : List Line) :
    between opens closes false (first ++ rest) = between opens closes false rest := by
  induction first with
  | nil => rfl
  | cons line first induction =>
      rw [List.cons_append, between, if_neg (by simp [outside line])]
      exact induction fun other member => outside other (List.mem_cons_of_mem _ member)

theorem between_inside {block : List Line}
    (inside : ∀ line ∈ block, closes line = false) (rest : List Line) :
    between opens closes true (block ++ rest) =
      block ++ between opens closes true rest := by
  induction block with
  | nil => rfl
  | cons line block induction =>
      rw [List.cons_append, between, inside line List.mem_cons_self, Bool.not_false,
        induction fun other member => inside other (List.mem_cons_of_mem _ member)]
      rfl

end

end Data.Lines
