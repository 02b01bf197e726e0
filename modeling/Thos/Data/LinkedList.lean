import Mathlib.Data.List.Induction
import Mathlib.Logic.Function.Basic

namespace Data.LinkedList

/-! Singly linked lists of cells: a base link, and one link in every cell. -/

variable {Cell : Type}

inductive Link (Cell : Type) where
  | base
  | after (cell : Cell)
  deriving DecidableEq, Repr

structure Links (Cell : Type) where
  base : Option Cell
  next : Cell → Option Cell

namespace Links

def read (links : Links Cell) : Link Cell → Option Cell
  | .base => links.base
  | .after cell => links.next cell

def write [DecidableEq Cell] (links : Links Cell) (link : Link Cell)
    (target : Option Cell) : Links Cell :=
  match link with
  | .base => { links with base := target }
  | .after cell => { links with next := Function.update links.next cell target }

@[simp] theorem read_write_same [DecidableEq Cell] (links : Links Cell)
    (link : Link Cell) (target : Option Cell) :
    (links.write link target).read link = target := by
  cases link with
  | base => rfl
  | after cell => exact Function.update_self ..

theorem read_write_of_ne [DecidableEq Cell] (links : Links Cell)
    {link other : Link Cell} (different : other ≠ link) (target : Option Cell) :
    (links.write link target).read other = links.read other := by
  cases link with
  | base =>
      cases other with
      | base => contradiction
      | after cell => rfl
  | after cell =>
      cases other with
      | base => rfl
      | after otherCell =>
          apply Function.update_of_ne
          intro equal
          exact different (congrArg Link.after equal)

/-- The cells reached from `link`, in order. -/
inductive Path (links : Links Cell) : Link Cell → List Cell → Prop
  | nil {link : Link Cell} (ends : links.read link = none) : Path links link []
  | cons {link : Link Cell} {cell : Cell} {cells : List Cell}
      (leads : links.read link = some cell)
      (rest : Path links (.after cell) cells) : Path links link (cell :: cells)

def lastLink : Link Cell → List Cell → Link Cell
  | link, [] => link
  | _, cell :: cells => lastLink (.after cell) cells

@[simp] theorem lastLink_append (link : Link Cell) (cells : List Cell)
    (cell : Cell) : lastLink link (cells ++ [cell]) = .after cell := by
  induction cells generalizing link with
  | nil => rfl
  | cons first cells induction => exact induction (.after first)

theorem lastLink_ne_after {cells : List Cell} {cell : Cell}
    (outside : cell ∉ cells) : lastLink .base cells ≠ .after cell := by
  cases cells using List.reverseRecOn with
  | nil =>
      intro equal
      contradiction
  | append_singleton cells last _ =>
      rw [lastLink_append]
      intro equal
      cases equal
      exact outside (by simp)

theorem Path.congr {links other : Links Cell} {link : Link Cell}
    {cells : List Cell} (path : links.Path link cells)
    (first : other.read link = links.read link)
    (rest : ∀ cell ∈ cells, other.next cell = links.next cell) :
    other.Path link cells := by
  induction path with
  | nil ends => exact .nil (first.trans ends)
  | cons leads _ induction =>
      apply Path.cons (first.trans leads)
      apply induction
      · exact rest _ (List.mem_cons_self ..)
      · intro cell member
        exact rest cell (List.mem_cons_of_mem _ member)

theorem Path.unique {links : Links Cell} {link : Link Cell} {first second : List Cell}
    (one : links.Path link first) (two : links.Path link second) : first =
      second := by
  induction one generalizing second with
  | nil ends =>
      cases two with
      | nil _ => rfl
      | cons leads _ =>
          rw [ends] at leads
          contradiction
  | cons leads _ induction =>
      cases two with
      | nil ends =>
          rw [leads] at ends
          contradiction
      | cons other rest =>
          cases leads.symm.trans other
          rw [induction rest]

theorem Path.append [DecidableEq Cell] {links : Links Cell} {cells : List Cell}
    {cell : Cell} (path : links.Path .base cells) (distinct : cells.Nodup)
    (fresh : cell ∉ cells) (ends : links.next cell = none) :
    (links.write (lastLink .base cells) (some cell)).Path .base
      (cells ++ [cell]) := by
  suffices general : ∀ (link : Link Cell) (later : List Cell),
      links.Path link later → later.Nodup → cell ∉ later →
        (∀ other ∈ later, link ≠ .after other) → link ≠ .after cell →
        (links.write (lastLink link later) (some cell)).Path link
          (later ++ [cell]) from
    general .base cells path distinct fresh (by simp) (by simp)
  intro link later path
  induction path with
  | nil _ =>
      intro _ _ _ notCell
      apply Path.cons (read_write_same ..)
      apply Path.nil
      exact (read_write_of_ne links (Ne.symm notCell) (some cell)).trans ends
  | @cons link first rest leads tail induction =>
      intro distinct fresh before notCell
      have tailDistinct := List.nodup_cons.mp distinct
      have notLast : link ≠ lastLink (.after first) rest := by
        cases rest using List.reverseRecOn with
        | nil => exact before first (List.mem_cons_self ..)
        | append_singleton cells last _ =>
            rw [lastLink_append]
            exact before last (by simp)
      apply Path.cons
      · rw [lastLink, read_write_of_ne _ notLast]
        exact leads
      · apply induction tailDistinct.2
        · intro member
          exact fresh (List.mem_cons_of_mem _ member)
        · intro other member equal
          cases equal
          exact tailDistinct.1 member
        · intro equal
          cases equal
          exact fresh (List.mem_cons_self ..)

end Links

end Data.LinkedList
