import Mathlib.Data.List.Forall2

/-! Computations that may fail, taken apart where they went well. -/

namespace SourceView.Outcome

variable {α β ε δ : Type}

/-- Two computations go well one behind the other if the first does and then the next does. -/
theorem bind_eq_ok_iff {first : Except ε α} {next : α → Except ε β} {result : β}
    : first >>= next = .ok result ↔ ∃ value, first = .ok value ∧ next value = .ok result := by
  cases first with
  | error cause => simp [bind, Except.bind]
  | ok value => simp [bind, Except.bind]

/-- Another account of the failure does not change what went well. -/
theorem mapError_eq_ok_iff {outcome : Except ε α} {change : ε → δ} {value : α}
    : outcome.mapError change = .ok value ↔ outcome = .ok value := by
  cases outcome <;> simp [Except.mapError]

/-- What went well is the value. -/
theorem toOption_eq_some_iff {outcome : Except ε α} {value : α}
    : outcome.toOption = some value ↔ outcome = .ok value := by
  cases outcome <;> simp [Except.toOption]

/-- A list is gone through if each item has its result. -/
theorem mapM_eq_ok_iff {items : List α} {action : α → Except ε β} {results : List β}
    : items.mapM action = .ok results
      ↔ List.Forall₂ (fun item result => action item = .ok result) items results := by
  induction items generalizing results with
  | nil => cases results <;> simp [pure, Except.pure]
  | cons item rest ih =>
      rw [List.mapM_cons, bind_eq_ok_iff]
      constructor
      · rintro ⟨result, here, more⟩
        obtain ⟨others, there, same⟩ := bind_eq_ok_iff.mp more
        obtain rfl := Except.ok.inj same
        exact .cons here (ih.mp there)
      · rintro (_ | ⟨here, there⟩)
        exact ⟨_, here, bind_eq_ok_iff.mpr ⟨_, ih.mpr there, rfl⟩⟩

end SourceView.Outcome
