import LetDef.Proofs.Run.Effect
import LetDef.Proofs.Run.Failure
import LetDef.Typing.Analysis

/-!
# The operations that can fail

Where a run fails there is one operation that fails, after all that it needs has been computed:
`Task.Breaks` lists these operations, with the error of each. A task at which the failing operation
stands is one of them (`Task.Faults.breaks`), so that whatever has to be said of failures is a case
analysis on this list, as here where a variable is missing (`Task.Breaks.misses`). Sequences, blocks
and groups are not among them: they only fail where one of their parts does.
-/
namespace LetDef

open Outcome (exists_of_error?_andThen error?_ofExcept_eq_some error?_leaving)

/-- The error is about a name that is missing or taken, or about a member or scope that is
missing. -/
def RuntimeError.concernsNames : RuntimeError → Bool
  | .alreadyDefined _ | .builtinDefined _ _ | .noMain | .scopeGone _ | .undefinedVariable _
  | .undefinedFunction _ _ | .notTarget | .valueField _ _ | .objectField _ _ | .valueMethod _ _
  | .objectMethod _ _ _ => true
  | .notIterable | .notBoolean _ | .operands _ _ _ | .divisionByZero | .printFailed
  | .host _ => false

/-- Operators fail where they are not for their operands, or by dividing by zero. -/
theorem Value.eq_of_binary_error {operator : BinaryOp} {first second : Value}
    {error : RuntimeError} (failed : Value.binary operator first second = .error error) :
    error = .divisionByZero ∨ ∃ name left right, error = .operands name left right := by
  cases operator with
  | equal | notEqual => cases failed
  | less | lessEqual | greater | greaterEqual =>
    simp only [Value.binary] at failed
    split at failed
    · contradiction
    · exact .inr ⟨_, _, _, (Except.error.inj failed).symm⟩
  | and | or => exact .inr ⟨_, _, _, (Except.error.inj failed).symm⟩
  | add | sub | mul =>
    simp only [Value.binary, Value.add, Value.sub, Value.mul] at failed
    split at failed <;> cases failed
    exact .inr ⟨_, _, _, rfl⟩
  | div =>
    simp only [Value.binary, Value.div] at failed
    split at failed
    · rw [Value.divideIntegers] at failed
      split at failed <;> cases failed
      exact .inl rfl
    · rw [Value.divideDecimals] at failed
      split at failed <;> cases failed
      exact .inl rfl
    · exact .inr ⟨_, _, _, (Except.error.inj failed).symm⟩

/-- Operators fail for other reasons than names. -/
theorem Value.concernsNames_of_binary {operator : BinaryOp} {first second : Value}
    {error : RuntimeError} (failed : Value.binary operator first second = .error error) :
    error.concernsNames = false := by
  rcases Value.eq_of_binary_error failed with rfl | ⟨_, _, _, rfl⟩ <;> rfl

/-- A value that is no condition is named by its kind. -/
theorem Value.eq_notBoolean {value : Value} {error : RuntimeError}
    (failed : value.asBoolean = .error error) : error = .notBoolean value.kind := by
  cases value <;> cases failed <;> rfl

namespace Task

/-- The task comes to an operation that fails with this error. -/
inductive Breaks : Task → RuntimeError → Prop where
  | program {fuel whole machine between error}
    (fields : Machine.defineFields fuel whole.fields machine = .done () between)
    (refused : (Machine.defineMethods whole.methods between).error? = some error) :
    Breaks (.program fuel whole machine) error
  | main {fuel whole machine between after}
    (fields : Machine.defineFields fuel whole.fields machine = .done () between)
    (methods : Machine.defineMethods whole.methods between = .done () after)
    (missing : after.findFunction? "main" 0 = none) :
    Breaks (.program fuel whole machine) .noMain
  | field {fuel first rest machine value between after}
    (evaluated : evaluateOption fuel first.value machine = .done value between)
    (taken : between.define first.name value = (false, after)) :
    Breaks (.fields fuel (first :: rest) machine) (.alreadyDefined first.name)
  | leftOperand {fuel operator left right slot machine first between error}
    (logical : operator.isLogical = true)
    (evaluated : evaluate fuel left machine = .done first between)
    (refused : first.asBoolean = .error error) :
    Breaks (.expression (fuel + 1) (.binary operator left right slot) machine) error
  | rightOperand {fuel operator left right slot machine first between second after error}
    (logical : operator.isLogical = true)
    (evaluated : evaluate fuel left machine = .done first between)
    (continues : operator.Continues first)
    (evaluatedRight : evaluate fuel right between = .done second after)
    (refused : second.asBoolean = .error error) :
    Breaks (.expression (fuel + 1) (.binary operator left right slot) machine) error
  | operator {fuel operator left right slot machine first between second after error}
    (strict : operator.isLogical = false)
    (evaluated : evaluate fuel left machine = .done first between)
    (continues : operator.Continues first)
    (evaluatedRight : evaluate fuel right between = .done second after)
    (refused : Value.binary operator first second = .error error) :
    Breaks (.expression (fuel + 1) (.binary operator left right slot) machine) error
  | «variable» {fuel name slot type machine} (missing : machine.findVariable? name = none) :
    Breaks (.expression (fuel + 1) (.variable name slot type) machine) (.undefinedVariable name)
  | member {fuel receiver name slot type machine owner between error}
    (evaluated : evaluate fuel receiver machine = .done owner between)
    (refused : between.field owner name = .error error) :
    Breaks (.expression (fuel + 1) (.member receiver name slot type) machine) error
  | function {fuel name arguments slot type machine values between}
    (evaluated : evaluateAll fuel arguments machine = .done values between)
    (missing : between.findFunction? name values.length = none) :
    Breaks (.expression (fuel + 1) (.call name arguments slot type) machine)
      (.undefinedFunction name values.length)
  | method {fuel receiver name arguments slot type machine owner between values after error}
    (evaluated : evaluate fuel receiver machine = .done owner between)
    (evaluatedAll : evaluateAll fuel arguments between = .done values after)
    (refused : after.method owner name values.length = .error error) :
    Breaks (.expression (fuel + 1) (.memberCall receiver name arguments slot type) machine) error
  | foreign {fuel native arguments machine host error}
    (refused : native machine.host arguments = (.error error, host)) :
    Breaks (.call (fuel + 1) (.native native) arguments machine) error
  | closure {fuel declared closure arguments machine}
    (dead : ¬ machine.store.isLive closure) :
    Breaks (.call (fuel + 1) (.method declared closure) arguments machine)
      (.scopeGone declared.name)
  | parameter {fuel declared closure arguments machine name between}
    (live : machine.store.isLive closure)
    (taken : (machine.enterMethod closure).defineAll
      ((declared.parameters.map Parameter.name).zip arguments) = (some name, between)) :
    Breaks (.call (fuel + 1) (.method declared closure) arguments machine) (.alreadyDefined name)
  | declaration {fuel declared machine value between after}
    (evaluated : evaluateOption fuel declared.value machine = .done value between)
    (taken : between.define declared.name value = (false, after)) :
    Breaks (.statement (fuel + 1) (.declaration declared) machine) (.alreadyDefined declared.name)
  | assignment {fuel name slot type value machine content between after}
    (evaluated : evaluate fuel value machine = .done content between)
    (missing : between.assign name content = (false, after)) :
    Breaks (.statement (fuel + 1) (.assignment (.variable name slot type) value) machine)
      (.undefinedVariable name)
  | fieldAssignment {fuel receiver name slot type value machine owner between content after last
      error}
    (evaluated : evaluate fuel receiver machine = .done owner between)
    (evaluatedValue : evaluate fuel value between = .done content after)
    (refused : after.assignField owner name content = (.error error, last)) :
    Breaks (.statement (fuel + 1) (.assignment (.member receiver name slot type) value) machine)
      error
  | target {fuel target value machine} (misplaced : target.isPlace = false) :
    Breaks (.statement (fuel + 1) (.assignment target value) machine) .notTarget
  | choice {fuel condition accepted rejected machine value between error}
    (evaluated : evaluate fuel condition machine = .done value between)
    (refused : value.asBoolean = .error error) :
    Breaks (.statement (fuel + 1) (.conditional condition accepted rejected) machine) error
  | range {fuel name value body machine found between}
    (evaluated : evaluate fuel value machine = .done found between)
    (unlisted : ∀ items, found ≠ .iterable items) :
    Breaks (.statement (fuel + 1) (.iteration name value body) machine) .notIterable
  | item {fuel name item items body machine after}
    (taken : machine.enter.define name item = (false, after)) :
    Breaks (.items (fuel + 1) name (item :: items) body machine) (.alreadyDefined name)
  | round {fuel condition body machine value between error}
    (evaluated : evaluate fuel condition machine = .done value between)
    (refused : value.asBoolean = .error error) :
    Breaks (.rounds (fuel + 1) condition body machine) error

variable {fuel : Nat} {machine : Machine} {error : RuntimeError}

/-- Where an operator fails. -/
theorem breaks_binary {left right : Expr} {operator : BinaryOp} {slot : Option Ty}
    (faults :
      (Task.expression (fuel + 1) (.binary operator left right slot) machine).Faults error) :
    (Task.expression (fuel + 1) (.binary operator left right slot) machine).Breaks error := by
  obtain ⟨failed, parts⟩ := faults
  obtain ⟨first, between, evaluated, failed⟩ := exists_of_error?_andThen failed (parts _ _ .left)
  cases logical : operator.isLogical with
  | true =>
    rw [if_pos logical] at failed
    cases decided : first.asBoolean with
    | error other =>
      rw [decided] at failed
      cases failed
      exact .leftOperand logical evaluated decided
    | ok condition =>
      replace failed : (if condition = operator.decisive then
          .done (.boolean condition) between else _ : Outcome Value).error? = some error :=
        decided ▸ failed
      split at failed
      · contradiction
      next other =>
        have continues : operator.Continues first := fun _ => ⟨condition, decided, other⟩
        obtain ⟨second, after, evaluatedRight, failed⟩ :=
          exists_of_error?_andThen failed (parts _ _ (.right evaluated continues))
        cases decidedRight : second.asBoolean with
        | ok condition =>
          rw [decidedRight] at failed
          contradiction
        | error other =>
          rw [decidedRight] at failed
          cases failed
          exact .rightOperand logical evaluated continues evaluatedRight decidedRight
  | false =>
    have continues : operator.Continues first := by
      intro decides
      rw [logical] at decides
      contradiction
    simp only [logical] at failed
    obtain ⟨second, after, evaluatedRight, failed⟩ :=
      exists_of_error?_andThen failed (parts _ _ (.right evaluated continues))
    have refused := error?_ofExcept_eq_some.mp failed
    exact .operator logical evaluated continues evaluatedRight refused

/-- Where an expression fails. -/
theorem breaks_expression {value : Expr}
    (faults : (Task.expression fuel value machine).Faults error) :
    (Task.expression fuel value machine).Breaks error := by
  have parts := faults.2
  have failed : (evaluate fuel value machine).error? = some error := faults.1
  cases fuel with
  | zero => contradiction
  | succ fuel =>
    cases value with
    | literal => contradiction
    | group inner slot =>
      have sound : (evaluate fuel inner machine).error? = none := parts _ _ .inner
      cases sound.symm.trans failed
    | binary => exact breaks_binary faults
    | «variable» name slot type =>
      cases found : machine.findVariable? name with
      | some value =>
        simp only [evaluate, found] at failed
        contradiction
      | none =>
        simp only [evaluate, found] at failed
        cases failed
        exact .variable found
    | member receiver field slot type =>
      obtain ⟨owner, between, evaluated, failed⟩ :=
        exists_of_error?_andThen failed (parts _ _ .memberReceiver)
      exact .member evaluated (error?_ofExcept_eq_some.mp failed)
    | call called arguments slot type =>
      obtain ⟨values, between, evaluated, failed⟩ :=
        exists_of_error?_andThen failed (parts _ _ .arguments)
      cases found : between.findFunction? called values.length with
      | none =>
        simp only [found] at failed
        cases failed
        exact .function evaluated found
      | some callable =>
        have sound : (invoke fuel callable values between).error? = none :=
          parts _ _ (.invocation evaluated found)
        simp only [found] at failed
        cases sound.symm.trans failed
    | memberCall receiver called arguments slot type =>
      obtain ⟨owner, between, evaluated, failed⟩ :=
        exists_of_error?_andThen failed (parts _ _ .callReceiver)
      obtain ⟨values, after, evaluatedAll, failed⟩ :=
        exists_of_error?_andThen failed (parts _ _ (.memberArguments evaluated))
      cases found : after.method owner called values.length with
      | ok callable =>
        have sound : (invoke fuel callable (owner :: values) after).error? = none :=
          parts _ _ (.memberInvocation evaluated evaluatedAll found)
        rw [found] at failed
        cases sound.symm.trans failed
      | error other =>
        rw [found] at failed
        cases failed
        exact .method evaluated evaluatedAll found

/-- Where a call fails. -/
theorem breaks_call {callable : Callable} {arguments : List Value}
    (faults : (Task.call fuel callable arguments machine).Faults error) :
    (Task.call fuel callable arguments machine).Breaks error := by
  have parts := faults.2
  have failed : (invoke fuel callable arguments machine).error? = some error := faults.1
  cases fuel with
  | zero => contradiction
  | succ fuel =>
    cases callable with
    | native run =>
      cases ran : run machine.host arguments with
      | mk result host =>
        simp only [invoke, Machine.onHost, ran] at failed
        cases result with
        | ok value => contradiction
        | error other =>
          cases failed
          exact .foreign ran
    | method declared closure =>
      rw [invoke] at failed
      split at failed
      next live =>
        cases defined : (machine.enterMethod closure).defineAll
            ((declared.parameters.map Parameter.name).zip arguments) with
        | mk taken between =>
          simp only [defined] at failed
          cases taken with
          | some name =>
            cases failed
            exact .parameter live defined
          | none =>
            have sound : (executeAll fuel declared.body between).error? = none :=
              parts _ _ (.methodBody live defined)
            rw [← error?_leaving _ (·.leaveMethod closure machine.active)] at sound
            obtain ⟨_, _, _, failed⟩ := exists_of_error?_andThen failed sound
            contradiction
      next dead =>
        cases failed
        exact .closure dead

/-- Where an assignment fails. -/
theorem breaks_assignment {target value : Expr}
    (faults : (Task.statement (fuel + 1) (.assignment target value) machine).Faults error) :
    (Task.statement (fuel + 1) (.assignment target value) machine).Breaks error := by
  have parts := faults.2
  have failed : (execute (fuel + 1) (.assignment target value) machine).error? = some error :=
    faults.1
  cases target with
  | «variable» name slot type =>
    obtain ⟨content, between, evaluated, failed⟩ :=
      exists_of_error?_andThen failed (parts _ _ .newContent)
    cases assigned : between.assign name content with
    | mk success after =>
      rw [assigned] at failed
      cases success with
      | true => contradiction
      | false =>
        cases failed
        exact .assignment evaluated assigned
  | member receiver field slot type =>
    obtain ⟨owner, between, evaluated, failed⟩ :=
      exists_of_error?_andThen failed (parts _ _ .targetReceiver)
    obtain ⟨content, after, evaluatedValue, failed⟩ :=
      exists_of_error?_andThen failed (parts _ _ (.newField evaluated))
    cases assigned : after.assignField owner field content with
    | mk result last =>
      rw [assigned] at failed
      cases result with
      | ok => contradiction
      | error other =>
        cases failed
        exact .fieldAssignment evaluated evaluatedValue assigned
  | _ =>
    cases failed
    exact .target rfl

/-- Where a statement fails. -/
theorem breaks_statement {executed : Stmt}
    (faults : (Task.statement fuel executed machine).Faults error) :
    (Task.statement fuel executed machine).Breaks error := by
  have parts := faults.2
  have failed : (execute fuel executed machine).error? = some error := faults.1
  cases fuel with
  | zero => contradiction
  | succ fuel =>
    cases executed with
    | expression value =>
      obtain ⟨_, _, _, failed⟩ := exists_of_error?_andThen failed (parts _ _ .effect)
      contradiction
    | declaration declared =>
      obtain ⟨value, between, evaluated, failed⟩ :=
        exists_of_error?_andThen failed (parts _ _ .firstContent)
      cases defined : between.define declared.name value with
      | mk success after =>
        rw [defined] at failed
        cases success with
        | true => contradiction
        | false =>
          cases failed
          exact .declaration evaluated defined
    | assignment => exact breaks_assignment faults
    | conditional condition accepted rejected =>
      obtain ⟨value, between, evaluated, failed⟩ :=
        exists_of_error?_andThen failed (parts _ _ .choice)
      cases decided : value.asBoolean with
      | error other =>
        rw [decided] at failed
        cases failed
        exact .choice evaluated decided
      | ok holds =>
        have sound := parts _ _ (.branch evaluated decided)
        rw [decided] at failed
        cases sound.symm.trans failed
    | iteration name range body =>
      obtain ⟨value, between, evaluated, failed⟩ :=
        exists_of_error?_andThen failed (parts _ _ .range)
      cases value with
      | iterable items =>
        have sound : (iterate fuel name items body between).error? = none :=
          parts _ _ (.items evaluated)
        cases sound.symm.trans failed
      | _ =>
        cases failed
        exact .range evaluated fun _ => nofun
    | repetition condition body =>
      have sound : (repetition fuel condition body machine).error? = none := parts _ _ .rounds
      cases sound.symm.trans failed
    | result value =>
      obtain ⟨_, _, _, failed⟩ := exists_of_error?_andThen failed (parts _ _ .answer)
      contradiction

/-- Where the rounds of a loop fail. -/
theorem breaks_items {name : String} {items : List Value} {body : List Stmt}
    (faults : (Task.items fuel name items body machine).Faults error) :
    (Task.items fuel name items body machine).Breaks error := by
  have parts := faults.2
  have failed : (iterate fuel name items body machine).error? = some error := faults.1
  cases fuel with
  | zero => contradiction
  | succ fuel =>
    cases items with
    | nil => contradiction
    | cons item items =>
      cases bound : machine.enter.define name item with
      | mk success between =>
        simp only [iterate, bound] at failed
        cases success with
        | false =>
          cases failed
          exact .item bound
        | true =>
          have sound : (executeAll fuel body between).error? = none := parts _ _ (.itemBody bound)
          rw [← error?_leaving _ (·.leave machine.active)] at sound
          obtain ⟨flow, _, left, failed⟩ := exists_of_error?_andThen failed sound
          obtain ⟨after, executed, rfl⟩ := Outcome.leaving_eq_done.mp left
          cases flow with
          | returned value => contradiction
          | normal =>
            have soundRest :
                (iterate fuel name items body (after.leave machine.active)).error? = none :=
              parts _ _ (.restItems bound executed)
            cases soundRest.symm.trans failed

/-- Where the rounds of a loop with a condition fail. -/
theorem breaks_rounds {condition : Expr} {body : List Stmt}
    (faults : (Task.rounds fuel condition body machine).Faults error) :
    (Task.rounds fuel condition body machine).Breaks error := by
  have parts := faults.2
  have failed : (repetition fuel condition body machine).error? = some error := faults.1
  cases fuel with
  | zero => contradiction
  | succ fuel =>
    obtain ⟨value, between, evaluated, failed⟩ :=
      exists_of_error?_andThen failed (parts _ _ .roundCondition)
    cases decided : value.asBoolean with
    | error other =>
      rw [decided] at failed
      cases failed
      exact .round evaluated decided
    | ok holds =>
      cases holds with
      | false =>
        rw [decided] at failed
        contradiction
      | true =>
        replace failed : ((executeBlock fuel body between).andThen _).error? = some error :=
          decided ▸ failed
        obtain ⟨flow, after, executed, failed⟩ :=
          exists_of_error?_andThen failed (parts _ _ (.roundBody evaluated decided))
        cases flow with
        | returned value => contradiction
        | normal =>
          have sound : (repetition fuel condition body after).error? = none :=
            parts _ _ (.restRounds evaluated decided executed)
          cases sound.symm.trans failed

/-- Where fields fail. -/
theorem breaks_fields {fields : List Field}
    (faults : (Task.fields fuel fields machine).Faults error) :
    (Task.fields fuel fields machine).Breaks error := by
  obtain ⟨failed, parts⟩ := faults
  cases fields with
  | nil => contradiction
  | cons first rest =>
    obtain ⟨value, between, evaluated, failed⟩ :=
      exists_of_error?_andThen failed (parts _ _ .fieldValue)
    cases bound : between.define first.name value with
    | mk success after =>
      rw [bound] at failed
      cases success with
      | false =>
        cases failed
        exact .field evaluated bound
      | true =>
        have sound : (Machine.defineFields fuel rest after).error? = none :=
          parts _ _ (.fieldsRest evaluated bound)
        cases sound.symm.trans failed

/-- Where a program fails. -/
theorem breaks_program {whole : Program}
    (faults : (Task.program fuel whole machine).Faults error) :
    (Task.program fuel whole machine).Breaks error := by
  obtain ⟨failed, parts⟩ := faults
  obtain ⟨_, between, fields, failed⟩ := exists_of_error?_andThen failed (parts _ _ .fields)
  cases refused : (Machine.defineMethods whole.methods between).error? with
  | some other =>
    rw [Outcome.error?_andThen_of_error? refused] at failed
    cases failed
    exact .program fields refused
  | none =>
    obtain ⟨_, after, methods, failed⟩ := exists_of_error?_andThen failed refused
    cases found : after.findFunction? "main" 0 with
    | none =>
      rw [found] at failed
      cases failed
      exact .main fields methods found
    | some main =>
      have called : (invoke fuel main [] after).error? = none :=
        parts _ _ (.main fields methods found)
      rw [found] at failed
      cases called.symm.trans failed

/-- A task at which the failing operation stands comes to an operation that fails. -/
theorem Faults.breaks {task : Task} (faults : task.Faults error) : task.Breaks error := by
  cases task with
  | program => exact breaks_program faults
  | fields => exact breaks_fields faults
  | expression => exact breaks_expression faults
  | expressions => exact absurd faults not_faults_expressions
  | optional => exact absurd faults not_faults_optional
  | call => exact breaks_call faults
  | statements => exact absurd faults not_faults_statements
  | block => exact absurd faults not_faults_block
  | statement => exact breaks_statement faults
  | items => exact breaks_items faults
  | rounds => exact breaks_rounds faults

end Task

/-- Methods fail to be defined because of their names. -/
theorem Machine.error?_defineMethods {methods : List Method} {machine : Machine}
    {error : RuntimeError} (failed : (defineMethods methods machine).error? = some error) :
    ∃ name, error = .alreadyDefined name := by
  induction methods generalizing machine with
  | nil => contradiction
  | cons first rest ih =>
    cases added : machine.defineMethod first with
    | mk success between =>
      rw [defineMethods, added] at failed
      cases success with
      | false => exact ⟨first.name, (Option.some.inj failed).symm⟩
      | true => exact ih failed

namespace Machine

variable {machine : Machine} {owner value : Value} {name : String} {error : RuntimeError}

/-- A field is missing from an object, or there is no object. -/
theorem eq_of_field_error (refused : machine.field owner name = .error error) :
    (∃ typeName, error = .objectField typeName name) ∨ ∃ kind, error = .valueField kind name := by
  unfold field at refused
  split at refused
  · split at refused
    · contradiction
    · exact .inl ⟨_, (Except.error.inj refused).symm⟩
  · exact .inr ⟨_, (Except.error.inj refused).symm⟩

/-- A method is missing from an object, or there is no object. -/
theorem eq_of_method_error {arity : Nat}
    (refused : machine.method owner name arity = .error error) :
    (∃ typeName, error = .objectMethod typeName name arity) ∨
      ∃ kind, error = .valueMethod kind name := by
  unfold method at refused
  split at refused
  · split at refused
    · contradiction
    · exact .inl ⟨_, (Except.error.inj refused).symm⟩
  · exact .inr ⟨_, (Except.error.inj refused).symm⟩

/-- A field that cannot be overwritten is missing from an object, or there is no object. -/
theorem eq_of_assignField_error {after : Machine}
    (refused : machine.assignField owner name value = (.error error, after)) :
    (∃ typeName, error = .objectField typeName name) ∨ ∃ kind, error = .valueField kind name := by
  unfold assignField at refused
  split at refused
  · split at refused
    · cases refused
    · exact .inl ⟨_, (Except.error.inj (congrArg Prod.fst refused)).symm⟩
  · exact .inr ⟨_, (Except.error.inj (congrArg Prod.fst refused)).symm⟩

end Machine

namespace Task

/-- The operation of the task has to do with a variable of this name that is missing. -/
inductive Misses (name : String) : Task → Prop where
  | read {fuel slot type machine}
    (unbound : machine.store.binder? machine.active name = none) :
    Misses name (.expression (fuel + 1) (.variable name slot type) machine)
  | write {fuel slot type value machine content between}
    (evaluated : evaluate fuel value machine = .done content between)
    (unbound : between.store.binder? between.active name = none) :
    Misses name (.statement (fuel + 1) (.assignment (.variable name slot type) value) machine)
  | foreign {fuel native arguments machine}
    (refused : (native machine.host arguments).1 = .error (.undefinedVariable name)) :
    Misses name (.call (fuel + 1) (.native native) arguments machine)

/-- Where a run fails because a variable is missing, it reads it, assigns to it, or calls a function
of the host that says so. -/
theorem Breaks.misses {task : Task} {error : RuntimeError} {name : String}
    (breaks : task.Breaks error) (missing : error = .undefinedVariable name) :
    task.Misses name := by
  cases breaks with
  | program _ refused =>
    obtain ⟨_, rfl⟩ := Machine.error?_defineMethods refused
    contradiction
  | leftOperand _ _ refused | rightOperand _ _ _ _ refused | choice _ refused | round _ refused =>
    cases (Value.eq_notBoolean refused).symm.trans missing
  | operator _ _ _ _ refused =>
    subst missing
    cases Value.concernsNames_of_binary refused
  | «variable» unfound =>
    injection missing with same
    subst same
    rw [Machine.findVariable?, Store.findVariable?, List.findSome?_eq_none_iff] at unfound
    refine .read (List.find?_eq_none.mpr fun scope around => ?_)
    rw [unfound scope around]
    exact Bool.false_ne_true
  | member _ refused =>
    rcases Machine.eq_of_field_error refused with ⟨_, rfl⟩ | ⟨_, rfl⟩ <;> contradiction
  | method _ _ refused =>
    rcases Machine.eq_of_method_error refused with ⟨_, rfl⟩ | ⟨_, rfl⟩ <;> contradiction
  | fieldAssignment _ _ refused =>
    rcases Machine.eq_of_assignField_error refused with ⟨_, rfl⟩ | ⟨_, rfl⟩ <;> contradiction
  | foreign refused => exact .foreign (missing ▸ congrArg Prod.fst refused)
  | assignment evaluated unassigned =>
    injection missing with same
    subst same
    refine .write evaluated ?_
    rw [Machine.assign_eq] at unassigned
    split at unassigned
    next unbound => exact unbound
    next => cases unassigned
  | main | field | function | closure | parameter | declaration | target | range | item =>
    contradiction

/-- Where a run fails because something could not be written, it calls a function of the host. -/
theorem Breaks.prints {task : Task} {error : RuntimeError} (breaks : task.Breaks error)
    (printed : error = .printFailed) :
    ∃ fuel native arguments machine,
      task = .call (fuel + 1) (.native native) arguments machine := by
  cases breaks with
  | program _ refused =>
    obtain ⟨_, rfl⟩ := Machine.error?_defineMethods refused
    contradiction
  | leftOperand _ _ refused | rightOperand _ _ _ _ refused | choice _ refused | round _ refused =>
    cases (Value.eq_notBoolean refused).symm.trans printed
  | operator _ _ _ _ refused =>
    rcases Value.eq_of_binary_error refused with rfl | ⟨_, _, _, rfl⟩ <;> contradiction
  | member _ refused =>
    rcases Machine.eq_of_field_error refused with ⟨_, rfl⟩ | ⟨_, rfl⟩ <;> contradiction
  | method _ _ refused =>
    rcases Machine.eq_of_method_error refused with ⟨_, rfl⟩ | ⟨_, rfl⟩ <;> contradiction
  | fieldAssignment _ _ refused =>
    rcases Machine.eq_of_assignField_error refused with ⟨_, rfl⟩ | ⟨_, rfl⟩ <;> contradiction
  | foreign refused => exact ⟨_, _, _, _, rfl⟩
  | «variable» | assignment | main | field | function | closure | parameter | declaration | target
  | range | item => contradiction

end Task

end LetDef
