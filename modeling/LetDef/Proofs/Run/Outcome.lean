import LetDef.Machine.Evaluation

/-!
# Outcomes of runs

What it says of a composed outcome that it is a result, and that it is an error. A composed outcome
is a result exactly if its parts are, one after the other; and it is an error if its first part is
one, or if that is a result and what follows is an error.
-/
namespace LetDef

namespace Outcome

variable {α β : Type}

/-- What goes on after an outcome is a result exactly if both are. -/
theorem andThen_eq_done {outcome : Outcome α} {go : α → Machine → Outcome β} {value : β}
    {after : Machine} : outcome.andThen go = .done value after ↔
      ∃ found between, outcome = .done found between ∧ go found between = .done value after := by
  cases outcome with
  | done found between =>
    constructor
    · intro went
      exact ⟨found, between, rfl, went⟩
    · rintro ⟨_, _, same, went⟩
      cases same
      exact went
  | failed error between => simp [andThen]
  | exhausted => simp [andThen]

/-- Leaving a scope keeps a result. -/
theorem leaving_eq_done {outcome : Outcome α} {change : Machine → Machine} {value : α}
    {after : Machine} : outcome.leaving change = .done value after ↔
      ∃ inner, outcome = .done value inner ∧ after = change inner := by
  cases outcome with
  | done found inner =>
    simp only [leaving, done.injEq]
    constructor
    · rintro ⟨rfl, rfl⟩
      exact ⟨inner, ⟨rfl, rfl⟩, rfl⟩
    · rintro ⟨_, ⟨rfl, rfl⟩, rfl⟩
      exact ⟨rfl, rfl⟩
  | failed error between => simp [leaving]
  | exhausted => simp [leaving]

/-- A computation that leaves the state alone gives the result that it computes. -/
theorem ofExcept_eq_done {result : Except RuntimeError α} {value : α} {machine after : Machine} :
    ofExcept result machine = .done value after ↔ result = .ok value ∧ machine = after := by
  cases result <;> simp [ofExcept]

/-- A success goes on in its state. -/
theorem require_eq_done {result : Bool × Machine} {error : RuntimeError} {value : Unit}
    {after : Machine} : require result error = .done value after ↔ result = (true, after) := by
  obtain ⟨success, between⟩ := result
  cases success <;> simp [require]

/-- A result with a state is that result in that state. -/
theorem ofPair_eq_done {result : Except RuntimeError α × Machine} {value : α} {after : Machine} :
    ofPair result = .done value after ↔ result = (.ok value, after) := by
  obtain ⟨computed, between⟩ := result
  cases computed <;> simp [ofPair]

/-- The error that an outcome is. -/
def error? : Outcome α → Option RuntimeError
  | .failed error _ => some error
  | .done _ _ | .exhausted => none

/-- A result is no error. -/
@[simp] theorem error?_done (value : α) (machine : Machine) :
    (done value machine).error? = none := rfl

/-- A failure is its error. -/
@[simp] theorem error?_failed (error : RuntimeError) (machine : Machine) :
    (failed (α := α) error machine).error? = some error := rfl

/-- After a result comes what follows it. -/
theorem done_andThen (value : α) (machine : Machine)
    (go : α → Machine → Outcome β) : (done value machine).andThen go = go value machine := rfl

/-- What goes on after an outcome fails as the outcome does, or as what follows its result does. -/
theorem error?_andThen (outcome : Outcome α)
    (go : α → Machine → Outcome β) :
    (outcome.andThen go).error? =
      match outcome with
      | .done value machine => (go value machine).error?
      | .failed error _ => some error
      | .exhausted => none := by
  cases outcome <;> rfl

/-- What follows is not reached after an error. -/
theorem error?_andThen_of_error? {outcome : Outcome α}
    {go : α → Machine → Outcome β} {error : RuntimeError} (failed : outcome.error? = some error) :
    (outcome.andThen go).error? = some error := by
  cases outcome with
  | done value machine => simp at failed
  | failed other machine => exact failed
  | exhausted => exact failed

/-- Where what goes on after an outcome fails and the outcome does not, what follows its result
fails. -/
theorem exists_of_error?_andThen {outcome : Outcome α} {go : α → Machine → Outcome β}
    {error : RuntimeError} (failed : (outcome.andThen go).error? = some error)
    (first : outcome.error? = none) :
    ∃ value machine, outcome = .done value machine ∧ (go value machine).error? = some error := by
  cases outcome with
  | done value machine => exact ⟨value, machine, rfl, failed⟩
  | failed other machine => simp at first
  | exhausted => cases failed

/-- A computation that leaves the state alone fails with the error that it computes. -/
theorem error?_ofExcept_eq_some {result : Except RuntimeError α} {machine : Machine}
    {error : RuntimeError} : (ofExcept result machine).error? = some error ↔
      result = .error error := by
  cases result <;> simp [ofExcept]

/-- Leaving a scope keeps the error. -/
@[simp] theorem error?_leaving (outcome : Outcome α)
    (change : Machine → Machine) : (outcome.leaving change).error? = outcome.error? := by
  cases outcome <;> rfl

/-- The result that an outcome is. -/
def value? : Outcome α → Option α
  | .done value _ => some value
  | .failed _ _ | .exhausted => none

/-- An outcome whose result passes a test is a result. -/
theorem exists_of_any {outcome : Outcome α} {test : α → Bool} (passed : outcome.value?.any test) :
    ∃ value after, outcome = .done value after ∧ test value := by
  cases outcome with
  | done value after => exact ⟨value, after, rfl, passed⟩
  | failed error after => contradiction
  | exhausted => contradiction

end Outcome

end LetDef
