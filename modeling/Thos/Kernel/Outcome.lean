namespace Thos.Kernel

/-- Why a call does not return: `PANIC` with its format string, an access
through `NULL`, or a loop the model stops after its given number of rounds. -/
inductive Stop where
  | panic (reason : String)
  | nullAccess
  | outOfFuel
  deriving DecidableEq, Repr

abbrev Outcome := Except Stop

namespace Outcome

theorem bind_eq_ok {first : Outcome α} {next : α → Outcome β} {result : β} :
    (first >>= next) = .ok result ↔
      ∃ value, first = .ok value ∧ next value = .ok result := by
  cases first with
  | error stop =>
      constructor
      · intro failed
        contradiction
      · rintro ⟨value, equal, _⟩
        contradiction
  | ok value =>
      constructor
      · intro equal
        exact ⟨value, rfl, equal⟩
      · rintro ⟨_, ⟨⟩, equal⟩
        exact equal

@[simp] theorem ok_bind (value : α) (next : α → Outcome β) :
    ((.ok value : Outcome α) >>= next) = next value := rfl

@[simp] theorem error_bind (stop : Stop) (next : α → Outcome β) :
    ((.error stop : Outcome α) >>= next) = .error stop := rfl

@[simp] theorem pure_eq_ok (value : α) :
    (pure value : Outcome α) = .ok value := rfl

@[simp] theorem throw_eq_error (stop : Stop) :
    (throw stop : Outcome α) = .error stop := rfl

end Outcome

end Thos.Kernel
