/-!
# Attempts

A change that may stop early leaves what it had reached, with the error that stopped it. Nothing is
taken back: whoever continues after an error continues from what was reached.
-/
namespace Raml

universe u v

/-- What a change reached and what stopped it. -/
structure Attempt (ε : Type u) (α : Type v) where
  /-- The state in the end. -/
  reached : α
  /-- The error that ended the change early. -/
  stopped : Option ε
  deriving DecidableEq

namespace Attempt

variable {ε : Type u} {α : Type v}

/-- A change that came to its end. -/
def done (reached : α) : Attempt ε α := ⟨reached, none⟩

/-- A change that was stopped. -/
def failed (reached : α) (error : ε) : Attempt ε α := ⟨reached, some error⟩

/-- Go on with a further change after one that came to its end. -/
def andThen (attempt : Attempt ε α) (next : α → Attempt ε α) : Attempt ε α :=
  match attempt.stopped with
  | none => next attempt.reached
  | some _ => attempt

/-- A change for every element of a list, in order, until one is stopped. -/
def each {β : Type v} (change : α → β → Attempt ε α) : List β → α → Attempt ε α
  | [], state => done state
  | element :: rest, state => (change state element).andThen (each change rest)

/-- A change of a state that is reached without an error is made. -/
@[simp]
theorem andThen_done (state : α) (next : α → Attempt ε α) :
    (done state : Attempt ε α).andThen next = next state := rfl

/-- No change is made after an error. -/
@[simp]
theorem andThen_failed (state : α) (error : ε) (next : α → Attempt ε α) :
    (failed state error).andThen next = failed state error := rfl

/-- Two changes in order are stopped by the first that is. -/
theorem stopped_andThen {attempt : Attempt ε α} {next : α → Attempt ε α} {error : ε} :
    (attempt.andThen next).stopped = some error ↔
      attempt.stopped = some error ∨
        attempt.stopped = none ∧ (next attempt.reached).stopped = some error := by
  unfold andThen
  cases ended : attempt.stopped with
  | none => simp
  | some cause => simp [ended]

end Attempt

end Raml
