import LetDef.Proofs.Run.Coupling

/-!
# Two runs side by side

The same expression, statement, call or program is run twice, in two machines that stand in some
relation. If single steps keep that relation, whole runs go in step (`Coupling.inStepWithin`). This
is the induction on the fuel that every fact about two runs comes from.
-/
namespace LetDef

/-- With this fuel, every run goes in step, if what it calls first is permitted. -/
structure InStepWithin (permits : Callable → Prop) (related : Machine → Machine → Prop)
    (parted : RuntimeError → Host → Host → Prop) (fuel : Nat) : Prop where
  /-- Evaluating an expression. -/
  expression : ∀ value, InStep permits related parted (evaluate fuel value)
  /-- Evaluating expressions. -/
  expressions : ∀ values, InStep permits related parted (evaluateAll fuel values)
  /-- Evaluating an optional expression. -/
  optional : ∀ value, InStep permits related parted (evaluateOption fuel value)
  /-- A call. -/
  call : ∀ callable arguments, permits callable →
    InStep permits related parted (invoke fuel callable arguments)
  /-- Executing statements. -/
  statements : ∀ body, InStep permits related parted (executeAll fuel body)
  /-- Executing statements in a scope of their own. -/
  block : ∀ body, InStep permits related parted (executeBlock fuel body)
  /-- Executing a statement. -/
  statement : ∀ statement, InStep permits related parted (execute fuel statement)
  /-- The rounds of a loop. -/
  items : ∀ name items body, InStep permits related parted (iterate fuel name items body)
  /-- The rounds of a loop with a condition. -/
  rounds : ∀ condition body, InStep permits related parted (repetition fuel condition body)

/-- Running a program ends with a call of the function `main` that is found, if there is one. -/
theorem Machine.interpret_eq (fuel : Nat) (program : Program) (machine : Machine) :
    interpret fuel program machine =
      (defineFields fuel program.fields machine).andThen fun () machine =>
      (defineMethods program.methods machine).andThen fun () machine =>
      (machine.findFunction? "main" 0).elim (.failed .noMain machine)
        (invoke fuel · [] machine) := by
  refine congrArg (Outcome.andThen _) (funext fun _ => funext fun after => ?_)
  refine congrArg (Outcome.andThen _) (funext fun _ => funext fun loaded => ?_)
  cases loaded.findFunction? "main" 0 <;> rfl

namespace Coupling

variable {permits : Callable → Prop} {related : Machine → Machine → Prop}
variable {parted : RuntimeError → Host → Host → Prop} {fuel : Nat}

/-- A call of the function that is found goes in step, if there is one. -/
theorem callFound (coupling : Coupling permits related parted)
    (runs : InStepWithin permits related parted fuel) (name : String) (values : List Value)
    (error : RuntimeError) :
    InStep permits related parted fun machine =>
      (machine.findFunction? name values.length).elim (.failed error machine)
        (invoke fuel · values machine) := by
  refine InStep.read (·.findFunction? name values.length)
    (fun found machine => found.elim (.failed error machine) (invoke fuel · values machine))
    (fun stands => coupling.function stands name _) fun machine knows => ?_
  cases found : machine.findFunction? name values.length with
  | some callable => exact runs.call callable values (knows.of_findFunction? found)
  | none => exact .failed _

/-- Expressions go in step with one more unit of fuel. -/
theorem evaluate_succ (coupling : Coupling permits related parted)
    (runs : InStepWithin permits related parted fuel) (value : Expr) :
    InStep permits related parted (evaluate (fuel + 1) value) := by
  cases value with
  | literal value type => exact .done _
  | group inner type => exact runs.expression inner
  | binary operator left right type =>
    refine (runs.expression left).andThen fun left => ?_
    split
    · refine (InStep.ofExcept left.asBoolean).andThen fun condition => ?_
      split
      · exact .done _
      · refine (runs.expression right).andThen fun right => ?_
        exact (InStep.ofExcept right.asBoolean).andThen fun _ => .done _
    · exact (runs.expression right).andThen fun _ => .ofExcept _
  | «variable» name slot type =>
    have reading : InStep permits related parted fun machine =>
        (machine.findVariable? name).elim (.failed (.undefinedVariable name) machine)
          (.done · machine) := by
      refine InStep.read (·.findVariable? name) (fun found machine =>
        found.elim (.failed (.undefinedVariable name) machine) (.done · machine))
        (fun stands => coupling.value stands name) fun machine _ => ?_
      cases machine.findVariable? name with
      | some value => exact .done value
      | none => exact .failed _
    refine reading.congr fun machine => ?_
    cases found : machine.findVariable? name <;> simp only [evaluate, found, Option.elim]
  | member receiver name slot type =>
    refine (runs.expression receiver).andThen fun owner => ?_
    exact .read (·.field owner name) Outcome.ofExcept
      (fun stands => coupling.field stands owner name) fun _ _ => .ofExcept _
  | call name arguments slot type =>
    refine (runs.expressions arguments).andThen fun values => ?_
    refine (coupling.callFound runs name values (.undefinedFunction name values.length)).congr
      fun machine => ?_
    cases machine.findFunction? name values.length <;> rfl
  | memberCall receiver name arguments slot type =>
    refine (runs.expression receiver).andThen fun owner => ?_
    refine (runs.expressions arguments).andThen fun values => ?_
    refine InStep.read (·.method owner name values.length) (fun found machine =>
      (Outcome.ofExcept found machine).andThen fun callable machine =>
        invoke fuel callable (owner :: values) machine)
      (fun stands => coupling.method stands owner name _) fun machine knows => ?_
    cases found : machine.method owner name values.length with
    | error error => exact .failed error
    | ok callable =>
      exact runs.call callable (owner :: values) (knows.methods owner name _ callable found)

/-- Calls go in step with one more unit of fuel. -/
theorem invoke_succ (coupling : Coupling permits related parted)
    (runs : InStepWithin permits related parted fuel) (callable : Callable)
    (arguments : List Value) (permitted : permits callable) :
    InStep permits related parted (invoke (fuel + 1) callable arguments) := by
  cases callable with
  | native call => exact .native coupling permitted arguments
  | method declared closure =>
    have inner : InStep permits related parted fun machine =>
        (Outcome.ofDefined (machine.defineAll
          ((declared.parameters.map Parameter.name).zip arguments))).andThen
            fun () => executeAll fuel declared.body :=
      (InStep.defineAll coupling _).andThen fun () => runs.statements declared.body
    have called := (InStep.method coupling permitted inner (.scopeGone declared.name)).andThen
      fun flow => InStep.done flow.result
    refine called.congr fun machine => ?_
    rw [invoke]
    split
    · dsimp only
      rcases (machine.enterMethod closure).defineAll
        ((declared.parameters.map Parameter.name).zip arguments) with ⟨refused, between⟩
      cases refused <;> rfl
    · rfl

/-- Statements one after the other go in step with one more unit of fuel. -/
theorem executeAll_succ (runs : InStepWithin permits related parted fuel) (body : List Stmt) :
    InStep permits related parted (executeAll (fuel + 1) body) := by
  cases body with
  | nil => exact .done _
  | cons first rest =>
    refine (runs.statement first).andThen fun flow => ?_
    cases flow with
    | normal => exact runs.statements rest
    | returned value => exact .done _

/-- A statement goes in step with one more unit of fuel. -/
theorem execute_succ (coupling : Coupling permits related parted)
    (runs : InStepWithin permits related parted fuel) (statement : Stmt) :
    InStep permits related parted (execute (fuel + 1) statement) := by
  cases statement with
  | expression value => exact (runs.expression value).andThen fun _ => .done _
  | declaration declared =>
    refine (runs.optional declared.value).andThen fun value => ?_
    exact (InStep.define coupling declared.name value _).andThen fun () => .done _
  | assignment target value =>
    cases target with
    | «variable» name slot type =>
      refine (runs.expression value).andThen fun value => ?_
      exact (InStep.assign coupling name value _).andThen fun () => .done _
    | member receiver name slot type =>
      refine (runs.expression receiver).andThen fun owner => ?_
      refine (runs.expression value).andThen fun value => ?_
      exact (InStep.assignField coupling owner name value).andThen fun () => .done _
    | _ => exact .failed _
  | conditional condition accepted rejected =>
    refine (runs.expression condition).andThen fun value => ?_
    exact (InStep.ofExcept value.asBoolean).andThen fun holds => runs.block _
  | iteration name value body =>
    refine (runs.expression value).andThen fun value => ?_
    split
    next items => exact runs.items name items body
    next => exact .failed _
  | repetition condition body => exact runs.rounds condition body
  | result value => exact (runs.expression value).andThen fun _ => .done _

/-- The rounds of a loop go in step with one more unit of fuel. -/
theorem iterate_succ (coupling : Coupling permits related parted)
    (runs : InStepWithin permits related parted fuel) (name : String) (items : List Value)
    (body : List Stmt) : InStep permits related parted (iterate (fuel + 1) name items body) := by
  cases items with
  | nil => exact .done _
  | cons item items =>
    have inner : InStep permits related parted fun machine =>
        (Outcome.require (machine.define name item) (.alreadyDefined name)).andThen
          fun () => executeAll fuel body :=
      (InStep.define coupling name item _).andThen fun () => runs.statements body
    have round : InStep permits related parted fun machine =>
        ((((Outcome.require (machine.enter.define name item) (.alreadyDefined name)).andThen
          fun () => executeAll fuel body).leaving (·.leave machine.active)).andThen
            fun flow machine =>
              flow.casesOn (iterate fuel name items body machine)
                fun value => .done (.returned value) machine) := by
      refine (InStep.block coupling inner).andThen fun flow => ?_
      cases flow with
      | normal => exact runs.items name items body
      | returned value => exact .done _
    refine round.congr fun machine => ?_
    rw [iterate]
    rcases machine.enter.define name item with ⟨success, between⟩
    cases success with
    | false => rfl
    | true => exact congrArg (Outcome.andThen _) (funext fun flow => by cases flow <;> rfl)

/-- The rounds of a loop with a condition go in step with one more unit of fuel. -/
theorem repetition_succ (runs : InStepWithin permits related parted fuel) (condition : Expr)
    (body : List Stmt) : InStep permits related parted (repetition (fuel + 1) condition body) := by
  refine (runs.expression condition).andThen fun value => ?_
  refine (InStep.ofExcept value.asBoolean).andThen fun holds => ?_
  split
  · refine (runs.block body).andThen fun flow => ?_
    cases flow with
    | normal => exact runs.rounds condition body
    | returned value => exact .done _
  · exact .done _

/-- With one more unit of fuel every run goes in step. -/
theorem succ (coupling : Coupling permits related parted)
    (runs : InStepWithin permits related parted fuel) :
    InStepWithin permits related parted (fuel + 1) where
  expression := coupling.evaluate_succ runs
  expressions values := by
    cases values with
    | nil => exact .done _
    | cons first rest =>
      refine (runs.expression first).andThen fun value => ?_
      exact (runs.expressions rest).andThen fun values => .done _
  optional value := by
    cases value with
    | none => exact .done _
    | some value => exact runs.expression value
  call := coupling.invoke_succ runs
  statements := executeAll_succ runs
  block body := .block coupling (runs.statements body)
  statement := coupling.execute_succ runs
  items := coupling.iterate_succ runs
  rounds := repetition_succ runs

/-- With any fuel every run goes in step. -/
theorem inStepWithin (coupling : Coupling permits related parted) (fuel : Nat) :
    InStepWithin permits related parted fuel := by
  induction fuel with
  | zero => refine ⟨?_, ?_, ?_, ?_, ?_, ?_, ?_, ?_, ?_⟩ <;> intros <;> exact .exhausted
  | succ fuel ih => exact coupling.succ ih

/-- Defining fields goes in step. -/
theorem defineFields (coupling : Coupling permits related parted) (fuel : Nat)
    (fields : List Field) : InStep permits related parted (Machine.defineFields fuel fields) := by
  induction fields with
  | nil => exact .done ()
  | cons first rest ih =>
    refine ((coupling.inStepWithin fuel).optional first.value).andThen fun value => ?_
    exact (InStep.define coupling first.name value _).andThen fun () => ih

variable {one other : Machine}

/-- Methods are defined in both machines in the same way, if each of them is. -/
theorem defineMethods
    (defines : ∀ {one other}, related one other → ∀ declared,
      (one.defineMethod declared).1 = (other.defineMethod declared).1 ∧
        related (one.defineMethod declared).2 (other.defineMethod declared).2)
    (methods : List Method) (stands : related one other) :
    (Machine.defineMethods methods one).Coupled related parted
      (Machine.defineMethods methods other) := by
  induction methods generalizing one other with
  | nil => exact .done stands
  | cons first rest ih =>
    obtain ⟨same, kept⟩ := defines stands first
    rw [Machine.defineMethods, Machine.defineMethods]
    generalize one.defineMethod first = begun at same kept
    generalize other.defineMethod first = begun' at same kept
    obtain ⟨success, one⟩ := begun
    obtain ⟨success', other⟩ := begun'
    obtain rfl : success = success' := same
    cases success with
    | true => exact ih kept
    | false => exact .failed kept

/-- A whole program is run in step in related machines that may call any method, if methods are
defined in step. -/
theorem interpret (coupling : Coupling permits related parted)
    (all : ∀ declared closure, permits (.method declared closure))
    (defines : ∀ {one other}, related one other → ∀ declared,
      (one.defineMethod declared).1 = (other.defineMethod declared).1 ∧
        related (one.defineMethod declared).2 (other.defineMethod declared).2)
    (fuel : Nat) (program : Program) (knows : one.Knows permits) (also : other.Knows permits)
    (stands : related one other) :
    (Machine.interpret fuel program one).Coupled related parted
      (Machine.interpret fuel program other) := by
  have fields := coupling.defineFields fuel program.fields
  have main := coupling.callFound (coupling.inStepWithin fuel) "main" [] .noMain
  have loads : ∀ {machine after : Machine}, machine.Knows permits →
      (Machine.defineMethods program.methods machine).state? = some after →
      after.Knows permits := fun knows ended =>
    knows.extend (Outcome.Leaves.state (Machine.continues_defineMethods _ _) ended) all
  rw [Machine.interpret_eq, Machine.interpret_eq]
  refine (fields.couples knows also stands).andThen
    (fun _ first second begun begun' stands => ?_) fun {_ _ _ between _} begun apart ended => ?_
  · have knows := knows.resume (fields.resumes knows begun)
    have also := also.resume (fields.resumes also begun')
    refine (defineMethods defines program.methods stands).andThen
      (fun _ _ _ loaded loaded' stands => ?_) fun loaded apart ended => ?_
    · exact main.couples (loads knows loaded) (loads also loaded') stands
    · exact main.departs (loads also loaded) apart ended
  · have also := also.resume (fields.resumes also begun)
    rcases Outcome.state?_andThen ended with ⟨_, loaded, found, later⟩ | early
    · have state := congrArg Outcome.state? found
      rw [← Machine.host_defineMethods state] at apart
      exact main.departs (loads also state) apart later
    · rwa [Machine.host_defineMethods early]

end Coupling

end LetDef
