/-!
# Steps that succeed

A computation that may fail succeeds exactly when each of its steps does.
-/
namespace Raml

variable {ε α β : Type}

/-- Two steps succeed when the first does and the second does with its value. -/
theorem bind_eq_ok {first : Except ε α} {next : α → Except ε β} {result : β} :
    first >>= next = .ok result ↔ ∃ value, first = .ok value ∧ next value = .ok result := by
  cases first with
  | error failure => exact ⟨nofun, nofun⟩
  | ok value =>
    refine ⟨fun same => ⟨value, rfl, same⟩, ?_⟩
    rintro ⟨_, same, after⟩
    cases same
    exact after

/-- A changed result is that of a step that succeeds. -/
theorem map_eq_ok {first : Except ε α} {change : α → β} {result : β} :
    first.map change = .ok result ↔ ∃ value, first = .ok value ∧ change value = result := by
  cases first with
  | error failure => exact ⟨nofun, nofun⟩
  | ok value => simp [Except.map]

end Raml
