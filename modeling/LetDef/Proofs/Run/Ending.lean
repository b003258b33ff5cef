import LetDef.Proofs.Run.Outcome
import LetDef.Proofs.Run.Task

/-!
# How bodies end

Statements end in one of two ways: the method ends with a result, or the next statement follows.
The first happens through one statement that the run has come to without leaving the method, the
`RETURN` whose value the result is (`Task.exists_result`). The second does not happen to statements
that are conclusive: one of them is a `RETURN`, a choice of which both branches are conclusive, or a
loop that has `TRUE` as its condition (`Task.not_normal`). A loop over items may have none, and so
concludes nothing. Each proof has a step, from a task to one that it starts, and goes on by
induction on what lies below a task.
-/
namespace LetDef

open Outcome (andThen_eq_done leaving_eq_done ofExcept_eq_done)

/-- The expression is `TRUE` itself. -/
def Expr.alwaysHolds : Expr → Bool
  | .literal (.boolean value) _ => value
  | _ => false

mutual

/-- The values of the ends of a method in a statement. -/
def Stmt.results : Stmt → List Expr
  | .result value => [value]
  | .conditional _ accepted rejected => Stmt.resultsAll accepted ++ Stmt.resultsAll rejected
  | .iteration _ _ body | .repetition _ body => Stmt.resultsAll body
  | .expression _ | .declaration _ | .assignment _ _ => []

/-- The values of the ends of a method in statements. -/
def Stmt.resultsAll : List Stmt → List Expr
  | [] => []
  | first :: rest => first.results ++ Stmt.resultsAll rest

end

mutual

/-- After the statement nothing follows, whatever the conditions of its choices are. -/
def Stmt.concludes : Stmt → Bool
  | .result _ => true
  | .conditional _ accepted rejected =>
    Stmt.concludesAny accepted && Stmt.concludesAny rejected
  | .repetition condition _ => condition.alwaysHolds
  | .expression _ | .declaration _ | .assignment _ _ | .iteration _ _ _ => false

/-- After one of the statements nothing follows. -/
def Stmt.concludesAny : List Stmt → Bool
  | [] => false
  | first :: rest => first.concludes || Stmt.concludesAny rest

end

/-- Where `TRUE` has a value, this is the truth value. -/
theorem Expr.asBoolean_of_alwaysHolds {condition : Expr} (always : condition.alwaysHolds)
    {fuel : Nat} {machine between : Machine} {value : Value}
    (evaluated : evaluate fuel condition machine = .done value between) :
    value.asBoolean = .ok true := by
  unfold alwaysHolds at always
  split at always
  next holds type =>
    subst always
    cases fuel with
    | zero => cases evaluated
    | succ fuel =>
      cases evaluated
      rfl
  next => contradiction

namespace Task

/-- The first task leads to the second one without leaving its method. -/
inductive Comes : Task → Task → Prop where
  | here {task} : Comes task task
  | step {task turns between part} (starts : task.Starts (.down turns) between)
    (comes : Comes between part) : Comes task part

/-- How the statements of a task end. A task of another kind executes none itself. -/
def flow : Task → Outcome Flow
  | .statements fuel body machine => executeAll fuel body machine
  | .block fuel body machine => executeBlock fuel body machine
  | .statement fuel first machine => execute fuel first machine
  | .items fuel name remaining body machine => iterate fuel name remaining body machine
  | .rounds fuel condition body machine => repetition fuel condition body machine
  | .program .. | .fields .. | .expression .. | .expressions .. | .optional .. | .call .. =>
    .exhausted

/-- The values of the ends of a method in the statements of a task. -/
def results : Task → List Expr
  | .statements _ body _ | .block _ body _ | .items _ _ _ body _ | .rounds _ _ body _ =>
    Stmt.resultsAll body
  | .statement _ first _ => first.results
  | .program .. | .fields .. | .expression .. | .expressions .. | .optional .. | .call .. => []

/-- Nothing follows after the statements of a task. -/
def concludes : Task → Bool
  | .statements _ body _ | .block _ body _ => Stmt.concludesAny body
  | .statement _ first _ => first.concludes
  | .rounds _ condition _ _ => condition.alwaysHolds
  | .program .. | .fields .. | .expression .. | .expressions .. | .optional .. | .call ..
  | .items .. => false

/-- The task starts another one in its method, whose statements end so; all ends of the method in
these are in the statements of the task. -/
def Passes (task : Task) (flow : Flow) (part : Task) : Prop :=
  (∃ turns, task.Starts (.down turns) part) ∧ (∃ after, part.flow = .done flow after) ∧
    part.results ⊆ task.results

variable {fuel : Nat} {machine after : Machine} {flow : Flow} {value : Value}

/-- Statements that end with a result do so in the first of them or in the others. -/
theorem passes_statements {body : List Stmt}
    (ended : executeAll fuel body machine = .done (.returned value) after) :
    ∃ part, (statements fuel body machine).Passes (.returned value) part := by
  cases fuel with
  | zero => cases ended
  | succ fuel =>
    cases body with
    | nil => cases ended
    | cons first rest =>
      obtain ⟨flow, between, executed, ended⟩ := andThen_eq_done.mp ended
      cases flow with
      | normal =>
        exact ⟨.statements fuel rest between, ⟨_, .restStatements executed⟩, ⟨after, ended⟩,
          List.subset_append_right _ _⟩
      | returned found =>
        cases ended
        exact ⟨.statement fuel first machine, ⟨_, .firstStatement⟩, ⟨after, executed⟩,
          List.subset_append_left _ _⟩

/-- A block ends as its statements do. -/
theorem passes_block {body : List Stmt}
    (ended : executeBlock fuel body machine = .done flow after) :
    ∃ less, (block fuel body machine).Passes flow (.statements less body machine.enter) := by
  cases fuel with
  | zero => cases ended
  | succ fuel =>
    obtain ⟨inner, executed, _⟩ := leaving_eq_done.mp ended
    exact ⟨fuel, ⟨_, .blockBody⟩, ⟨inner, executed⟩, List.Subset.refl _⟩

/-- A choice ends as the branch does that its condition selects. -/
theorem passes_conditional {condition : Expr} {accepted rejected : List Stmt}
    (ended : execute (fuel + 1) (.conditional condition accepted rejected) machine =
      .done flow after) :
    ∃ (holds : Bool) (between : Machine),
      (statement (fuel + 1) (.conditional condition accepted rejected) machine).Passes flow
        (.block fuel (if holds then accepted else rejected) between) := by
  obtain ⟨value, between, evaluated, ended⟩ := andThen_eq_done.mp ended
  obtain ⟨holds, _, computed, ended⟩ := andThen_eq_done.mp ended
  obtain ⟨decided, rfl⟩ := ofExcept_eq_done.mp computed
  refine ⟨holds, between, ⟨_, .branch evaluated decided⟩, ⟨after, ended⟩, ?_⟩
  cases holds with
  | true => exact List.subset_append_left _ _
  | false => exact List.subset_append_right _ _

/-- A loop over items that ends with a result does so in its first round or in the others. -/
theorem passes_items {name : String} {items : List Value} {body : List Stmt}
    (ended : iterate fuel name items body machine = .done (.returned value) after) :
    ∃ part, (Task.items fuel name items body machine).Passes (.returned value) part := by
  cases fuel with
  | zero => cases ended
  | succ fuel =>
    cases items with
    | nil => cases ended
    | cons item items =>
      rw [iterate] at ended
      split at ended
      next => cases ended
      next between defined =>
        obtain ⟨flow, _, round, ended⟩ := andThen_eq_done.mp ended
        obtain ⟨inner, executed, rfl⟩ := leaving_eq_done.mp round
        cases flow with
        | normal =>
          exact ⟨.items fuel name items body (inner.leave machine.active),
            ⟨_, .restItems defined executed⟩, ⟨after, ended⟩, List.Subset.refl _⟩
        | returned found =>
          cases ended
          exact ⟨.statements fuel body between, ⟨_, .itemBody defined⟩, ⟨inner, executed⟩,
            List.Subset.refl _⟩

/-- A loop with a condition ends as its other rounds do, or with a result in its first round, or
because its condition does not hold. -/
theorem passes_rounds {condition : Expr} {body : List Stmt}
    (ended : repetition fuel condition body machine = .done flow after) :
    (∃ less between, (rounds fuel condition body machine).Passes flow
      (.rounds less condition body between)) ∨
    (∃ part, (rounds fuel condition body machine).Passes flow part ∧ flow ≠ .normal) ∨
    flow = .normal ∧ ¬ condition.alwaysHolds := by
  cases fuel with
  | zero => cases ended
  | succ fuel =>
    obtain ⟨value, between, evaluated, ended⟩ := andThen_eq_done.mp ended
    obtain ⟨holds, _, computed, ended⟩ := andThen_eq_done.mp ended
    obtain ⟨decided, rfl⟩ := ofExcept_eq_done.mp computed
    cases holds with
    | false =>
      cases ended
      -- The condition has been found false, so it is not the literal that always holds.
      refine .inr (.inr ⟨rfl, fun always => ?_⟩)
      cases decided.symm.trans (Expr.asBoolean_of_alwaysHolds always evaluated)
    | true =>
      obtain ⟨ending, inner, executed, ended⟩ := andThen_eq_done.mp ended
      cases ending with
      | normal =>
        exact .inl ⟨fuel, inner, ⟨_, .restRounds evaluated decided executed⟩, ⟨after, ended⟩,
          List.Subset.refl _⟩
      | returned found =>
        cases ended
        exact .inr (.inl ⟨.block fuel body between, ⟨⟨_, .roundBody evaluated decided⟩,
          ⟨after, executed⟩, List.Subset.refl _⟩, Flow.noConfusion⟩)

/-- A statement that ends with a result is the end of the method with this result, or ends so in a
part of it. -/
theorem passes_statement {executed : Stmt}
    (ended : execute fuel executed machine = .done (.returned value) after) :
    (∃ less tree, fuel = less + 1 ∧ executed = .result tree ∧
      evaluate less tree machine = .done value after) ∨
    ∃ part, (statement fuel executed machine).Passes (.returned value) part := by
  cases fuel with
  | zero => cases ended
  | succ fuel =>
    unfold execute at ended
    cases executed with
    | conditional condition accepted rejected =>
      obtain ⟨_, _, passes⟩ := passes_conditional ended
      exact .inr ⟨_, passes⟩
    | iteration name range body =>
      obtain ⟨found, between, evaluated, ended⟩ := andThen_eq_done.mp ended
      split at ended
      next items =>
        exact .inr ⟨.items fuel name items body between, ⟨_, .items evaluated⟩, ⟨after, ended⟩,
          List.Subset.refl _⟩
      next => cases ended
    | repetition condition body =>
      exact .inr ⟨.rounds fuel condition body machine, ⟨_, .rounds⟩, ⟨after, ended⟩,
        List.Subset.refl _⟩
    | result tree =>
      obtain ⟨found, between, evaluated, ended⟩ := andThen_eq_done.mp ended
      cases ended
      exact .inl ⟨fuel, tree, rfl, rfl, evaluated⟩
    | expression effect =>
      obtain ⟨_, _, _, ended⟩ := andThen_eq_done.mp ended
      cases ended
    | declaration declared =>
      obtain ⟨_, _, _, ended⟩ := andThen_eq_done.mp ended
      obtain ⟨_, _, _, ended⟩ := andThen_eq_done.mp ended
      cases ended
    | assignment target content =>
      cases target with
      | «variable» name slot type =>
        obtain ⟨_, _, _, ended⟩ := andThen_eq_done.mp ended
        obtain ⟨_, _, _, ended⟩ := andThen_eq_done.mp ended
        cases ended
      | member receiver name slot type =>
        obtain ⟨_, _, _, ended⟩ := andThen_eq_done.mp ended
        obtain ⟨_, _, _, ended⟩ := andThen_eq_done.mp ended
        obtain ⟨_, _, _, ended⟩ := andThen_eq_done.mp ended
        cases ended
      | _ => cases ended

/-- Where the statements of a task end with a result, the task is the end of the method with it, or
starts a task in its method whose statements end so. -/
theorem passes_of_returned {task : Task} (ended : task.flow = .done (.returned value) after) :
    (∃ less tree between, task = .statement (less + 1) (.result tree) between ∧
      evaluate less tree between = .done value after) ∨
    ∃ part, task.Passes (.returned value) part := by
  cases task with
  | statements fuel body machine => exact .inr (passes_statements ended)
  | block fuel body machine =>
    obtain ⟨less, passes⟩ := passes_block ended
    exact .inr ⟨_, passes⟩
  | statement fuel first machine =>
    obtain ⟨less, tree, rfl, rfl, evaluated⟩ | passes := passes_statement ended
    · exact .inl ⟨less, tree, machine, rfl, evaluated⟩
    · exact .inr passes
  | items fuel name remaining body machine => exact .inr (passes_items ended)
  | rounds fuel condition body machine =>
    obtain ⟨less, between, passes⟩ | ⟨part, passes, _⟩ | ⟨other, _⟩ := passes_rounds ended
    · exact .inr ⟨_, passes⟩
    · exact .inr ⟨part, passes⟩
    · cases other
  | program | fields | expression | expressions | optional | call => cases ended

/-- Where statements end with a result, the run has come to a `RETURN` among them, without leaving
the method, and the result is the value found for it. -/
theorem exists_result {value : Value} {after : Machine} (task : Task)
    (ended : task.flow = .done (.returned value) after) :
    ∃ less tree between inner, tree ∈ task.results ∧
      task.Comes (.statement (less + 1) (.result tree) between) ∧
      evaluate less tree between = .done value inner := by
  obtain ⟨less, tree, between, rfl, evaluated⟩ | ⟨part, ⟨turns, starts⟩, ⟨inner, endedPart⟩,
    listed⟩ := passes_of_returned ended
  · exact ⟨less, tree, between, after, List.mem_singleton_self tree, .here, evaluated⟩
  · have smaller : part.weight < task.weight := starts.weight_lt
    -- Every part runs on less fuel, the rounds of a loop that are left too.
    obtain ⟨less, tree, between, last, member, comes, evaluated⟩ := exists_result part endedPart
    exact ⟨less, tree, between, last, listed member, .step starts comes, evaluated⟩
termination_by task.weight

/-- Where a task is conclusive but its statements come to their end, it starts a task in its method
of which the same is true. -/
theorem exists_of_normal {task : Task} (concludes : task.concludes)
    (ended : task.flow = .done .normal after) :
    ∃ turns part inner, task.Starts (.down turns) part ∧ part.concludes ∧
      part.flow = .done .normal inner := by
  cases task with
  | statements fuel body machine =>
    cases body with
    | nil => contradiction
    | cons first rest =>
      cases fuel with
      | zero => cases ended
      | succ fuel =>
        obtain ⟨flow, between, executed, ended⟩ := andThen_eq_done.mp ended
        cases flow with
        | returned found => cases ended
        | normal =>
          rcases Bool.or_eq_true_iff.mp concludes with concludes | concludes
          · exact ⟨_, _, between, .firstStatement, concludes, executed⟩
          · exact ⟨_, .statements fuel rest between, after, .restStatements executed, concludes,
              ended⟩
  | block fuel body machine =>
    obtain ⟨less, ⟨turns, starts⟩, ⟨inner, endedBody⟩, _⟩ := passes_block ended
    exact ⟨turns, _, inner, starts, concludes, endedBody⟩
  | statement fuel executed machine =>
    cases fuel with
    | zero => cases ended
    | succ fuel =>
      cases executed with
      | conditional condition accepted rejected =>
        obtain ⟨holds, between, ⟨turns, starts⟩, ⟨inner, endedBranch⟩, _⟩ :=
          passes_conditional ended
        obtain ⟨both, other⟩ := Bool.and_eq_true_iff.mp concludes
        refine ⟨turns, _, inner, starts, ?_, endedBranch⟩
        cases holds with
        | true => exact both
        | false => exact other
      | repetition condition body => exact ⟨_, _, after, .rounds, concludes, ended⟩
      | result tree =>
        obtain ⟨_, _, _, ended⟩ := andThen_eq_done.mp ended
        cases ended
      | expression | declaration | assignment | iteration => contradiction
  | rounds fuel condition body machine =>
    obtain ⟨less, between, ⟨turns, starts⟩, ⟨inner, endedRest⟩, _⟩ | ⟨_, _, other⟩ | ⟨_, fails⟩ :=
      passes_rounds ended
    · exact ⟨turns, _, inner, starts, concludes, endedRest⟩
    · contradiction
    · exact absurd concludes fails
  | program | fields | expression | expressions | optional | call | items => contradiction

/-- Conclusive statements never come to their end. -/
theorem not_normal (task : Task) (concludes : task.concludes) (after : Machine) :
    task.flow ≠ .done .normal after := by
  intro ended
  obtain ⟨turns, part, inner, starts, concludesPart, endedPart⟩ := exists_of_normal concludes ended
  have smaller : part.weight < task.weight := starts.weight_lt
  exact not_normal part concludesPart inner endedPart
termination_by task.weight

/-- A call of a method that has a result has begun its body, and the result is the one that the body
ends with. -/
theorem exists_body {declared : Method} {closure : FrameId} {arguments : List Value}
    (ended : invoke fuel (.method declared closure) arguments machine = .done value after) :
    ∃ less between flow inner,
      (call fuel (.method declared closure) arguments machine).Starts (.down [.body])
        (.statements less declared.body between) ∧
      executeAll less declared.body between = .done flow inner ∧ value = flow.result := by
  cases fuel with
  | zero => cases ended
  | succ fuel =>
    rw [invoke] at ended
    split at ended
    next live =>
      dsimp only at ended
      split at ended
      next => cases ended
      next between defined =>
        obtain ⟨flow, _, left, ended⟩ := andThen_eq_done.mp ended
        obtain ⟨inner, executed, _⟩ := leaving_eq_done.mp left
        cases ended
        exact ⟨fuel, between, flow, inner, .methodBody live defined, executed, rfl⟩
    next => cases ended

end Task

end LetDef
