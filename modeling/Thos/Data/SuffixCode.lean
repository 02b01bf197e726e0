import Mathlib.Data.List.Basic
import Mathlib.Data.List.Induction

namespace Data.SuffixCode

/-! Codes that are read from the end of a text: no code ends with another one. -/

variable {Symbol Value Other : Type}

/-- A text that ends with the code of the value ends with no other valid code. -/
def ReadsBack (valid : Value → Prop) (encode : Value → List Symbol) (value : Value) :
    Prop :=
  ∀ other, valid other → ∀ front rest : List Symbol,
    front ++ encode value = rest ++ encode other → front = rest ∧ value = other

theorem last_mark {isMark : Symbol → Prop} {front rest after later : List Symbol}
    {mark other : Symbol} (same : front ++ mark :: after = rest ++ other :: later)
    (isFirst : isMark mark) (isOther : isMark other)
    (free : ∀ symbol ∈ after, ¬isMark symbol)
    (freeLater : ∀ symbol ∈ later, ¬isMark symbol) :
    front = rest ∧ mark = other ∧ after = later := by
  rcases List.append_eq_append_iff.mp same with
    ⟨between, whole, ends⟩ | ⟨between, whole, ends⟩
  · cases between with
    | nil =>
        obtain ⟨equal, afters⟩ := List.cons.inj ends
        exact ⟨(whole.trans (List.append_nil front)).symm, equal, afters⟩
    | cons symbol between =>
        obtain ⟨_, inside⟩ := List.cons.inj ends
        exact absurd isOther (free other (by simp [inside]))
  · cases between with
    | nil =>
        obtain ⟨equal, afters⟩ := List.cons.inj ends
        exact ⟨whole.trans (List.append_nil rest), equal.symm, afters.symm⟩
    | cons symbol between =>
        obtain ⟨_, inside⟩ := List.cons.inj ends
        exact absurd isFirst (freeLater mark (by simp [inside]))

theorem last_symbol {mark : Symbol} {front rest after later : List Symbol}
    (same : front ++ mark :: after = rest ++ mark :: later)
    (free : mark ∉ after) (freeLater : mark ∉ later) : front = rest ∧ after = later := by
  obtain ⟨fronts, _, afters⟩ := @last_mark Symbol (· = mark) _ _ _ _ _ _ same rfl rfl
    (fun symbol member equal => free (equal ▸ member))
    (fun symbol member equal => freeLater (equal ▸ member))
  exact ⟨fronts, afters⟩

theorem ReadsBack.append {valid : Value → Prop} {encode : Value → List Symbol}
    {value : Value} (inner : ReadsBack valid encode value) (closing : List Symbol) :
    ReadsBack valid (encode · ++ closing) value := by
  intro other otherValid front rest same
  rw [← List.append_assoc, ← List.append_assoc] at same
  exact inner other otherValid front rest (List.append_cancel_right same)

/-- Codes in a row after a head, where no text that ends with a head ends with a code. -/
theorem ReadsBack.sequence {valid : Value → Prop} {validItem : Other → Prop}
    {head : Value → List Symbol} {item : Other → List Symbol} {value : Value}
    {items : List Other}
    (apart : ∀ first, valid first → ∀ second, validItem second →
      ∀ front rest : List Symbol, front ++ head first ≠ rest ++ item second)
    (isValid : valid value) (areValid : ∀ each ∈ items, validItem each)
    (start : ReadsBack valid head value)
    (each : ∀ each ∈ items, ReadsBack validItem item each) :
    ReadsBack (fun whole => valid whole.1 ∧ ∀ each ∈ whole.2, validItem each)
      (fun whole => head whole.1 ++ whole.2.flatMap item) (value, items) := by
  intro whole wholeValid front rest same
  obtain ⟨other, others⟩ := whole
  obtain ⟨otherValid, othersValid⟩ := wholeValid
  induction items using List.reverseRecOn generalizing others with
  | nil =>
      rcases List.eq_nil_or_concat others with rfl | ⟨others, last, rfl⟩
      · simp only [List.flatMap_nil, List.append_nil] at same
        obtain ⟨fronts, rfl⟩ := start other otherValid front rest same
        exact ⟨fronts, rfl⟩
      · simp only [List.flatMap_nil, List.append_nil, List.concat_eq_append,
          List.flatMap_append, List.flatMap_singleton, ← List.append_assoc] at same
        exact absurd same (apart value isValid last (othersValid last (by simp)) _ _)
  | append_singleton items last induction =>
      rcases List.eq_nil_or_concat others with rfl | ⟨others, final, rfl⟩
      · simp only [List.flatMap_nil, List.append_nil, List.flatMap_append,
          List.flatMap_singleton, ← List.append_assoc] at same
        exact absurd same.symm
          (apart other otherValid last (areValid last (by simp)) _ _)
      · simp only [List.concat_eq_append, List.flatMap_append, List.flatMap_singleton,
          ← List.append_assoc] at same
        obtain ⟨before, rfl⟩ := each last (by simp) final (othersValid final (by simp))
          _ _ same
        rw [List.append_assoc, List.append_assoc] at before
        obtain ⟨fronts, equal⟩ := induction
          (fun one member => areValid one (List.mem_append_left _ member))
          (fun one member => each one (List.mem_append_left _ member)) others before
          otherValid (fun one member => othersValid one
            (by rw [List.concat_eq_append]; exact List.mem_append_left _ member))
        obtain ⟨rfl, rfl⟩ := Prod.mk.inj equal
        exact ⟨fronts, by simp⟩

theorem ne_of_ends {first second back other : List Symbol} (ends : back <:+ first)
    (otherEnds : other <:+ second) (length : back.length = other.length)
    (differ : back ≠ other) (front rest : List Symbol) :
    front ++ first ≠ rest ++ second := by
  intro same
  have whole : back <:+ rest ++ second := same ▸ ends.trans (List.suffix_append front _)
  have inside := List.suffix_of_suffix_length_le whole
    (otherEnds.trans (List.suffix_append rest _)) (Nat.le_of_eq length)
  exact differ (inside.eq_of_length length)

end Data.SuffixCode
