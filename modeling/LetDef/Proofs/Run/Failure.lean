import LetDef.Proofs.Run.Outcome
import LetDef.Proofs.Run.Task

/-!
# Where a failure comes from

A task fails if one of the tasks that it starts fails, and then with the same error
(`Task.Starts.error?_eq`). So every failure of a run comes from a task that fails although no task
that it starts does (`Program.Reaches.exists_fault`): there the operation stands that has failed.
-/
namespace LetDef

namespace Task

/-- The error with which a task fails. -/
def error? : Task → Option RuntimeError
  | .program fuel whole machine => (Machine.interpret fuel whole machine).error?
  | .fields fuel remaining machine => (Machine.defineFields fuel remaining machine).error?
  | .expression fuel value machine => (evaluate fuel value machine).error?
  | .expressions fuel values machine => (evaluateAll fuel values machine).error?
  | .optional fuel value machine => (evaluateOption fuel value machine).error?
  | .call fuel callable arguments machine => (invoke fuel callable arguments machine).error?
  | .statements fuel body machine => (executeAll fuel body machine).error?
  | .block fuel body machine => (executeBlock fuel body machine).error?
  | .statement fuel executed machine => (execute fuel executed machine).error?
  | .items fuel name remaining body machine => (iterate fuel name remaining body machine).error?
  | .rounds fuel condition body machine => (repetition fuel condition body machine).error?

open Outcome (error?_andThen error?_andThen_of_error? error?_leaving done_andThen ofExcept
  exists_of_error?_andThen)

/-- A task fails as any of the tasks that it starts does. -/
theorem Starts.error?_eq {task part : Task} {move : Move} {error : RuntimeError}
    (starts : task.Starts move part) (failed : part.error? = some error) :
    task.error? = some error := by
  cases starts <;> simp only [Task.error?] at failed ⊢
  case fields => exact error?_andThen_of_error? failed
  case main fields methods found =>
    simp only [Machine.interpret, fields, methods, found, error?_andThen, failed]
  case fieldValue => exact error?_andThen_of_error? failed
  case fieldsRest evaluated defined =>
    simp only [Machine.defineFields, evaluated, defined, error?_andThen, Outcome.require, failed]
  case inner => exact failed
  case left => exact error?_andThen_of_error? failed
  case right evaluated continues =>
    rw [evaluate, evaluated, done_andThen]
    split
    next logical =>
      obtain ⟨condition, decided, other⟩ := continues logical
      rw [decided]
      show (if condition = _ then _ else _ : Outcome Value).error? = some error
      rw [if_neg other]
      exact error?_andThen_of_error? failed
    next => exact error?_andThen_of_error? failed
  case memberReceiver => exact error?_andThen_of_error? failed
  case arguments => exact error?_andThen_of_error? failed
  case invocation evaluated found =>
    simp only [evaluate, evaluated, found, error?_andThen, failed]
  case callReceiver => exact error?_andThen_of_error? failed
  case memberArguments evaluated =>
    rw [evaluate, evaluated, done_andThen]
    exact error?_andThen_of_error? failed
  case memberInvocation evaluated evaluatedAll found =>
    simp only [evaluate, evaluated, evaluatedAll, found, error?_andThen, Outcome.ofExcept, failed]
  case firstValue => exact error?_andThen_of_error? failed
  case restValues evaluated =>
    rw [evaluateAll, evaluated, done_andThen]
    exact error?_andThen_of_error? failed
  case someValue => exact failed
  case methodBody live defined =>
    simp only [invoke, live, defined, if_pos]
    exact error?_andThen_of_error? ((error?_leaving _ _).trans failed)
  case firstStatement => exact error?_andThen_of_error? failed
  case restStatements executed =>
    simp only [executeAll, executed, error?_andThen, failed]
  case blockBody => exact (error?_leaving _ _).trans failed
  case effect => exact error?_andThen_of_error? failed
  case firstContent => exact error?_andThen_of_error? failed
  case newContent => exact error?_andThen_of_error? failed
  case targetReceiver => exact error?_andThen_of_error? failed
  case newField evaluated =>
    rw [execute, evaluated, done_andThen]
    exact error?_andThen_of_error? failed
  case choice => exact error?_andThen_of_error? failed
  case branch evaluated decided =>
    simp only [execute, evaluated, decided, error?_andThen, Outcome.ofExcept, failed]
  case range => exact error?_andThen_of_error? failed
  case items evaluated => simp only [execute, evaluated, error?_andThen, failed]
  case rounds => exact failed
  case answer => exact error?_andThen_of_error? failed
  case itemBody defined =>
    simp only [iterate, defined]
    exact error?_andThen_of_error? ((error?_leaving _ _).trans failed)
  case restItems defined executed =>
    simp only [iterate, defined, executed, Outcome.leaving, error?_andThen, failed]
  case roundCondition => exact error?_andThen_of_error? failed
  case roundBody evaluated holds =>
    rw [repetition, evaluated, done_andThen, holds]
    show (executeBlock _ _ _ |>.andThen _).error? = some error
    exact error?_andThen_of_error? failed
  case restRounds evaluated holds executed =>
    simp only [repetition, evaluated, holds, executed, error?_andThen, Outcome.ofExcept, if_pos,
      failed]

/-- The failing operation stands at this task itself: the task fails, and none of the tasks that it
starts does. -/
def Faults (task : Task) (error : RuntimeError) : Prop :=
  task.error? = some error ∧ ∀ move part, task.Starts move part → part.error? = none

variable {fuel : Nat} {machine : Machine} {error : RuntimeError}

/-- Expressions in order do not fail by themselves. -/
theorem not_faults_expressions {values : List Expr} :
    ¬ (Task.expressions fuel values machine).Faults error := by
  rintro ⟨failed, parts⟩
  cases fuel with
  | zero => contradiction
  | succ fuel =>
    cases values with
    | nil => contradiction
    | cons first rest =>
      obtain ⟨value, between, evaluated, failed⟩ :=
        exists_of_error?_andThen failed (parts _ _ .firstValue)
      obtain ⟨_, _, _, failed⟩ :=
        exists_of_error?_andThen failed (parts _ _ (.restValues evaluated))
      contradiction

/-- An optional expression does not fail by itself. -/
theorem not_faults_optional {value : Option Expr} :
    ¬ (Task.optional fuel value machine).Faults error := by
  rintro ⟨failed, parts⟩
  cases fuel with
  | zero => contradiction
  | succ fuel =>
    cases value with
    | none => contradiction
    | some value =>
      have sound : (evaluate fuel value machine).error? = none := parts _ _ .someValue
      exact absurd (sound.symm.trans failed) (by simp)

/-- Statements in order do not fail by themselves. -/
theorem not_faults_statements {body : List Stmt} :
    ¬ (Task.statements fuel body machine).Faults error := by
  rintro ⟨failed, parts⟩
  cases fuel with
  | zero => contradiction
  | succ fuel =>
    cases body with
    | nil => contradiction
    | cons first rest =>
      obtain ⟨flow, between, executed, failed⟩ :=
        exists_of_error?_andThen failed (parts _ _ .firstStatement)
      cases flow with
      | returned value => contradiction
      | normal =>
        have sound : (executeAll fuel rest between).error? = none :=
          parts _ _ (.restStatements executed)
        exact absurd (sound.symm.trans failed) (by simp)

/-- A block does not fail by itself. -/
theorem not_faults_block {body : List Stmt} : ¬ (Task.block fuel body machine).Faults error := by
  rintro ⟨failed, parts⟩
  cases fuel with
  | zero => contradiction
  | succ fuel =>
    have sound : (executeAll fuel body machine.enter).error? = none := parts _ _ .blockBody
    have same := (error?_leaving _ _).symm.trans failed
    exact absurd (sound.symm.trans same) (by simp)

end Task

/-- Every failure of a run that reaches a task comes from a reached task at which the failing
operation stands. -/
theorem Program.Reaches.exists_fault {program : Program} {fuel : Nat} {machine : Machine}
    {address : Address} {task : Task} {error : RuntimeError}
    (reached : program.Reaches fuel machine address task) (failed : task.error? = some error) :
    ∃ site fault, program.Reaches fuel machine site fault ∧ fault.Faults error := by
  induction weighs : task.weight using Nat.strongRecOn generalizing address task with
  | ind size ih =>
    by_cases innermost : ∀ move part, task.Starts move part → part.error? = none
    · exact ⟨address, task, reached, failed, innermost⟩
    · simp only [Classical.not_forall] at innermost
      obtain ⟨move, part, starts, fails⟩ := innermost
      obtain ⟨other, found⟩ := Option.ne_none_iff_exists'.mp fails
      have same : error = other := by
        have both := starts.error?_eq found
        rw [failed] at both
        exact Option.some.inj both
      have smaller : part.weight < size := weighs ▸ starts.weight_lt
      exact ih part.weight smaller (reached.step starts) (same ▸ found) rfl

end LetDef
