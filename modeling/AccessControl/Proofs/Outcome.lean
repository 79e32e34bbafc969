/-
  AccessControl/Proofs/Outcome.lean
  =================================
  **What a sequence of steps that may fail comes to.**

  A sequence succeeds exactly if each of its steps does (`bind_eq_ok_iff`).  So a
  sequence can be taken apart, and no proof about one of its steps has to open
  the whole.
-/

namespace AccessControl

variable {ε ε' α β : Type} {x : Except ε α} {f : α → Except ε β}

@[simp] theorem ok_bind (a : α) (f : α → Except ε β) : (Except.ok a >>= f) = f a := rfl

@[simp] theorem error_bind (fault : ε) (f : α → Except ε β) :
    (Except.error fault >>= f) = .error fault := rfl

theorem bind_ok (x : Except ε α) : (x >>= fun a => .ok a) = x := by
  cases x <;> rfl

theorem bind_eq_ok_iff {b : β} : (x >>= f) = .ok b ↔ ∃ a, x = .ok a ∧ f a = .ok b := by
  cases x with
  | ok a =>
    constructor
    · intro hok
      exact ⟨a, rfl, hok⟩
    · rintro ⟨_, ha, hok⟩
      cases ha
      exact hok
  | error fault =>
    constructor
    · nofun
    · rintro ⟨_, ha, _⟩
      nomatch ha

theorem mapError_eq_ok_iff {g : ε → ε'} {a : α} : x.mapError g = .ok a ↔ x = .ok a := by
  cases x with
  | ok b => constructor <;> rintro ⟨⟩ <;> rfl
  | error fault => constructor <;> rintro ⟨⟩

theorem toOption_eq_some_iff {a : α} : x.toOption = some a ↔ x = .ok a := by
  cases x <;> simp [Except.toOption]

end AccessControl
