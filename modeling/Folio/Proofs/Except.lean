/-!
# Outcomes of checks

A chain of checks passes iff all of them do, and fails with the first one that fails.
What is made of the outcome of a check does not change whether it passed.
-/

namespace Folio

/-- A check with another one after it passes iff both do. -/
theorem bind_eq_ok_iff {ε α β : Type} {check : Except ε α} {next : α → Except ε β} {b : β} :
    check >>= next = .ok b ↔ ∃ a, check = .ok a ∧ next a = .ok b := by
  cases check with
  | error failure =>
      constructor
      · rintro ⟨⟩
      · rintro ⟨a, ⟨⟩, -⟩
  | ok a =>
      constructor
      · exact fun passed => ⟨a, rfl, passed⟩
      · rintro ⟨same, ⟨⟩, passed⟩
        exact passed

theorem bind_eq_error_iff {ε α β : Type} {check : Except ε α} {next : α → Except ε β}
    {failure : ε} :
    check.bind next = .error failure ↔
      check = .error failure ∨ ∃ a, check = .ok a ∧ next a = .error failure := by
  cases check with
  | error other =>
      constructor
      · rintro ⟨⟩
        exact Or.inl rfl
      · rintro (⟨⟨⟩⟩ | ⟨a, ⟨⟩, -⟩)
        rfl
  | ok a =>
      constructor
      · exact fun failed => Or.inr ⟨a, rfl, failed⟩
      · rintro (⟨⟨⟩⟩ | ⟨_, ⟨⟩, failed⟩)
        exact failed

theorem map_eq_ok_iff {ε α β : Type} {check : Except ε α} {f : α → β} {b : β} :
    check.map f = .ok b ↔ ∃ a, check = .ok a ∧ f a = b := by
  cases check with
  | error failure =>
      constructor
      · rintro ⟨⟩
      · rintro ⟨a, ⟨⟩, -⟩
  | ok a =>
      constructor
      · rintro ⟨⟩
        exact ⟨a, rfl, rfl⟩
      · rintro ⟨_, ⟨⟩, rfl⟩
        rfl

theorem map_eq_error_iff {ε α β : Type} {check : Except ε α} {f : α → β} {failure : ε} :
    check.map f = .error failure ↔ check = .error failure := by
  cases check with
  | error failure =>
      constructor <;>
      · rintro ⟨⟩
        rfl
  | ok a => constructor <;> rintro ⟨⟩

theorem toOption_eq_some_iff {ε α : Type} {outcome : Except ε α} {a : α} :
    outcome.toOption = some a ↔ outcome = .ok a := by
  cases outcome with
  | error failure => constructor <;> rintro ⟨⟩
  | ok b => exact Option.some_inj.trans (Except.ok.injEq b a).symm.to_iff

end Folio
