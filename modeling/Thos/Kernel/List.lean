import Thos.Data.LinkedList
import Thos.Kernel.Outcome

namespace Thos.Kernel

open Data.LinkedList

/-! `list.c`: static arrays with a counter, and linked lists of their items. -/

/-- `next_free`: the index of the item, if there is one, and the counter. -/
def nextFree (next max : Nat) : Option Nat × Nat :=
  if next ≥ max - 1 then (none, next) else (some next, next + 1)

/-- The loop of `add_linked`: follow the links up to the one that is `NULL`. -/
def insertAt (links : Links Nat) : Nat → Link Nat → Outcome (Link Nat)
  | 0, _ => throw .outOfFuel
  | rounds + 1, link =>
      match links.read link with
      | none => pure link
      | some item => insertAt links rounds (.after item)

/-- `add_linked`, where `store` writes the new item to a link. -/
def addLinked (rounds : Nat) (links : Links Nat) (store : Link Nat → State) :
    Outcome State := do
  return store (← insertAt links rounds .base)

theorem insertAt_path {links : Links Nat} {link : Link Nat} {items : List Nat}
    {rounds : Nat} (path : links.Path link items) (enough : items.length < rounds) :
    insertAt links rounds link = .ok (Links.lastLink link items) := by
  induction path generalizing rounds with
  | nil ends =>
      obtain ⟨rounds, rfl⟩ := Nat.exists_eq_succ_of_ne_zero (Nat.ne_of_gt enough)
      simp [insertAt, ends, Links.lastLink]
  | cons leads _ induction =>
      obtain ⟨rounds, rfl⟩ := Nat.exists_eq_succ_of_ne_zero
        (Nat.ne_of_gt (Nat.zero_lt_of_lt enough))
      simp only [insertAt, leads]
      exact induction (Nat.lt_of_succ_lt_succ enough)

theorem insertAt_mono {links : Links Nat} {link last : Link Nat} {fewer rounds : Nat}
    (more : fewer ≤ rounds) (found : insertAt links fewer link = .ok last) :
    insertAt links rounds link = .ok last := by
  induction fewer generalizing link rounds with
  | zero => contradiction
  | succ fewer induction =>
      obtain ⟨rounds, rfl⟩ := Nat.exists_eq_succ_of_ne_zero
        (Nat.ne_of_gt (Nat.zero_lt_of_lt more))
      rw [insertAt] at found ⊢
      cases leads : links.read link with
      | none =>
          rw [leads] at found
          exact found
      | some item =>
          rw [leads] at found
          exact induction (Nat.le_of_succ_le_succ more) found

theorem addLinked_mono {links : Links Nat} {store : Link Nat → State} {after : State}
    {fewer rounds : Nat} (more : fewer ≤ rounds)
    (added : addLinked fewer links store = .ok after) :
    addLinked rounds links store = .ok after := by
  obtain ⟨last, found, stored⟩ := Outcome.bind_eq_ok.mp added
  rw [addLinked, insertAt_mono more found]
  exact stored

theorem addLinked_path {links : Links Nat} {items : List Nat} {rounds : Nat}
    (store : Link Nat → State) (path : links.Path .base items)
    (enough : items.length < rounds) :
    addLinked rounds links store = .ok (store (Links.lastLink .base items)) := by
  rw [addLinked, insertAt_path path enough]
  rfl

end Thos.Kernel
