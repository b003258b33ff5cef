import LetDef.Proofs.Run.Effect
import LetDef.Proofs.Scope.Relabelling

/-!
# Runs without slots

A run reads no slot. If all slots are emptied, in the program as well as in the methods that the
machine has already, every step does the same as before, up to the slots of the methods that it
stores (`Machine.interpret_erase`).
-/
namespace LetDef

/-- The callable with all slots empty. -/
def Callable.erase : Callable → Callable
  | .native run => .native run
  | .method declared closure => .method declared.erase closure

/-- The machine with all slots of its methods empty. -/
def Machine.erase (machine : Machine) : Machine :=
  { machine with
    store := machine.store.relabel Callable.erase
    methods := machine.methods.map (Bindings.relabel Callable.erase) }

/-- The outcome with all slots of the methods of its machine empty. -/
def Outcome.erase {α : Type} : Outcome α → Outcome α
  | .done value machine => .done value machine.erase
  | .failed error machine => .failed error machine.erase
  | .exhausted => .exhausted

namespace Machine

variable (machine : Machine)

/-- The same scope is active. -/
@[simp] theorem active_erase : machine.erase.active = machine.active := rfl

/-- The same scopes are alive. -/
@[simp] theorem isLive_erase (id : FrameId) :
    machine.erase.store.isLive id = machine.store.isLive id :=
  Store.isLive_relabel Callable.erase machine.store id

/-- The scopes have the same variables. -/
@[simp] theorem localVariable?_erase (id : FrameId) (name : String) :
    machine.erase.store.localVariable? id name = machine.store.localVariable? id name :=
  Store.localVariable?_relabel Callable.erase machine.store id name

/-- The same variables are found. -/
@[simp] theorem findVariable?_erase (name : String) :
    machine.erase.findVariable? name = machine.findVariable? name :=
  Store.findVariable?_relabel Callable.erase machine.store machine.active name

/-- The same functions are found, with empty slots. -/
@[simp] theorem findFunction?_erase (name : String) (arity : Nat) :
    machine.erase.findFunction? name arity =
      (machine.findFunction? name arity).map Callable.erase :=
  Store.findFunction?_relabel Callable.erase machine.store machine.active name arity

/-- Objects have the same fields. -/
@[simp] theorem field_erase (owner : Value) (name : String) :
    machine.erase.field owner name = machine.field owner name := by
  cases owner <;> rfl

/-- Objects have the same methods, with empty slots. -/
@[simp] theorem method_erase (owner : Value) (name : String) (arity : Nat) :
    machine.erase.method owner name arity =
      (machine.method owner name arity).map Callable.erase := by
  cases owner with
  | object typeName id =>
    simp only [method, erase, Array.getElem?_map]
    cases machine.methods[id]? with
    | none => rfl
    | some methods =>
      simp only [Option.map_some, Option.bind_some, Bindings.get?_relabel]
      cases methods.get? (name, arity + 1) <;> rfl
  | _ => rfl

/-- The host acts in the same way. -/
theorem onHost_erase {α : Type} (change : Host → α × Host) :
    machine.erase.onHost change = (machine.onHost change).map id erase :=
  rfl

/-- A variable is defined in the same way. -/
theorem define_erase (name : String) (value : Value) :
    machine.erase.define name value = (machine.define name value).map id erase := by
  rw [define_eq, define_eq, localVariable?_erase, active_erase]
  split
  · rfl
  · rw [Prod.map_apply, id, erase, erase, Store.relabel_bindVariable]

/-- Variables are defined in the same way. -/
theorem defineAll_erase (pairs : List (String × Value)) :
    machine.erase.defineAll pairs = (machine.defineAll pairs).map id erase := by
  induction pairs generalizing machine with
  | nil => rfl
  | cons pair rest ih =>
    rw [defineAll, defineAll, define_erase]
    rcases machine.define pair.1 pair.2 with ⟨success, after⟩
    cases success with
    | true => exact ih after
    | false => rfl

/-- A method is defined in the same way, with empty slots. -/
theorem defineMethod_erase (declared : Method) :
    machine.erase.defineMethod declared.erase =
      (machine.defineMethod declared).map id erase := by
  simp only [defineMethod, onStore, Store.defineFunction, erase, Method.erase,
    Store.localFunction?_relabel, Option.isSome_map]
  split
  · rfl
  · simp only [Prod.map_apply, id, erase, Store.relabel_bindFunction]
    rfl

/-- A variable is assigned in the same way. -/
theorem assign_erase (name : String) (value : Value) :
    machine.erase.assign name value = (machine.assign name value).map id erase := by
  have binder : machine.erase.store.binder? machine.active name =
      machine.store.binder? machine.active name :=
    Store.binder?_relabel Callable.erase machine.store machine.active name
  rw [assign_eq, assign_eq, active_erase, binder]
  split
  · rfl
  · rw [Prod.map_apply, id, erase, erase, Store.relabel_bindVariable]

/-- A field is assigned in the same way. -/
theorem assignField_erase (owner : Value) (name : String) (value : Value) :
    machine.erase.assignField owner name value =
      (machine.assignField owner name value).map id erase := by
  cases owner with
  | object typeName id =>
    simp only [assignField, onHost_erase]
    rcases machine.onHost (·.assign id name value) with ⟨success, after⟩
    cases success <;> rfl
  | _ => rfl

/-- A new scope is entered in the same way. -/
theorem enter_erase : machine.erase.enter = machine.enter.erase := by
  simp only [enter, erase, Store.relabel_child]

/-- The scope of a method is entered in the same way. -/
theorem enterMethod_erase (closure : FrameId) :
    machine.erase.enterMethod closure = (machine.enterMethod closure).erase := by
  simp only [enterMethod, erase, ← Store.relabel_retain, Store.relabel_child]

/-- A scope is left in the same way. -/
theorem leave_erase (scope : FrameId) :
    machine.erase.leave scope = (machine.leave scope).erase := by
  simp only [leave, erase, Store.relabel_release]

/-- The scope of a method is left in the same way. -/
theorem leaveMethod_erase (closure scope : FrameId) :
    machine.erase.leaveMethod closure scope = (machine.leaveMethod closure scope).erase := by
  simp only [leaveMethod, leave, erase, Store.relabel_release]

end Machine

namespace Outcome

variable {α β : Type} (machine : Machine)

/-- What follows an outcome does the same if it does so after every result. -/
theorem erase_andThen {outcome erased : Outcome α} {go went : α → Machine → Outcome β}
    (first : erased = outcome.erase)
    (second : ∀ value machine, went value machine.erase = (go value machine).erase) :
    erased.andThen went = (outcome.andThen go).erase := by
  rw [first]
  cases outcome with
  | done value machine => exact second value machine
  | failed error machine => rfl
  | exhausted => rfl

/-- The way back does the same if it does so from every state. -/
theorem erase_leaving {outcome erased : Outcome α} {change : Machine → Machine}
    (first : erased = outcome.erase)
    (commutes : ∀ machine : Machine, change machine.erase = (change machine).erase) :
    erased.leaving change = (outcome.leaving change).erase := by
  rw [first]
  cases outcome with
  | done value machine => exact congrArg (Outcome.done value) (commutes machine)
  | failed error machine => exact congrArg (Outcome.failed error) (commutes machine)
  | exhausted => rfl

/-- A computation that leaves the state alone does the same. -/
theorem erase_ofExcept (result : Except RuntimeError α) :
    ofExcept result machine.erase = (ofExcept result machine).erase := by
  cases result <;> rfl

/-- A result with its state is the same. -/
theorem erase_ofPair (result : Except RuntimeError α × Machine) :
    ofPair (result.map id Machine.erase) = (ofPair result).erase := by
  rcases result with ⟨computed, after⟩
  cases computed <;> rfl

/-- A success with its state is the same. -/
theorem erase_require (result : Bool × Machine) (error : RuntimeError) :
    require (result.map id Machine.erase) error = (require result error).erase := by
  rcases result with ⟨success, after⟩
  cases success <;> rfl

end Outcome

/-- With this fuel, every run does the same without slots. -/
structure ErasesWithin (fuel : Nat) : Prop where
  /-- Evaluating an expression. -/
  expression : ∀ value machine,
    evaluate fuel value.erase machine.erase = (evaluate fuel value machine).erase
  /-- Evaluating expressions. -/
  expressions : ∀ values machine,
    evaluateAll fuel (Expr.eraseAll values) machine.erase = (evaluateAll fuel values machine).erase
  /-- Evaluating an optional expression. -/
  optional : ∀ value machine,
    evaluateOption fuel (value.map Expr.erase) machine.erase =
      (evaluateOption fuel value machine).erase
  /-- A call. -/
  call : ∀ callable arguments machine,
    invoke fuel callable.erase arguments machine.erase =
      (invoke fuel callable arguments machine).erase
  /-- Executing statements. -/
  statements : ∀ body machine,
    executeAll fuel (Stmt.eraseAll body) machine.erase = (executeAll fuel body machine).erase
  /-- Executing statements in a scope of their own. -/
  block : ∀ body machine,
    executeBlock fuel (Stmt.eraseAll body) machine.erase = (executeBlock fuel body machine).erase
  /-- Executing a statement. -/
  statement : ∀ statement machine,
    execute fuel statement.erase machine.erase = (execute fuel statement machine).erase
  /-- The rounds of a loop. -/
  items : ∀ name items body machine,
    iterate fuel name items (Stmt.eraseAll body) machine.erase =
      (iterate fuel name items body machine).erase
  /-- The rounds of a loop with a condition. -/
  rounds : ∀ condition body machine,
    repetition fuel condition.erase (Stmt.eraseAll body) machine.erase =
      (repetition fuel condition body machine).erase

namespace ErasesWithin

variable {fuel : Nat} (machine : Machine)

/-- Expressions do the same with one more unit of fuel. -/
theorem evaluate_succ (erases : ErasesWithin fuel) (value : Expr) :
    evaluate (fuel + 1) value.erase machine.erase = (evaluate (fuel + 1) value machine).erase := by
  cases value with
  | literal value type => rfl
  | group inner type => exact erases.expression inner machine
  | binary operator left right type =>
    refine Outcome.erase_andThen (erases.expression left machine) fun left between => ?_
    split
    · refine Outcome.erase_andThen (Outcome.erase_ofExcept between _) fun condition between => ?_
      split
      · rfl
      · refine Outcome.erase_andThen (erases.expression right between) fun right after => ?_
        exact Outcome.erase_andThen (Outcome.erase_ofExcept after _) fun _ _ => rfl
    · exact Outcome.erase_andThen (erases.expression right between)
        fun right after => Outcome.erase_ofExcept after _
  | «variable» name slot type =>
    rw [Expr.erase, evaluate, evaluate, Machine.findVariable?_erase]
    cases machine.findVariable? name <;> rfl
  | member receiver name slot type =>
    refine Outcome.erase_andThen (erases.expression receiver machine) fun owner between => ?_
    rw [Machine.field_erase]
    exact Outcome.erase_ofExcept between _
  | call name arguments slot type =>
    refine Outcome.erase_andThen (erases.expressions arguments machine) fun values between => ?_
    rw [Machine.findFunction?_erase]
    cases between.findFunction? name values.length with
    | none => rfl
    | some callable => exact erases.call callable values between
  | memberCall receiver name arguments slot type =>
    refine Outcome.erase_andThen (erases.expression receiver machine) fun owner between => ?_
    refine Outcome.erase_andThen (erases.expressions arguments between) fun values after => ?_
    rw [Machine.method_erase]
    cases after.method owner name values.length with
    | error error => rfl
    | ok callable => exact erases.call callable (owner :: values) after

/-- Lists of expressions do the same with one more unit of fuel. -/
theorem evaluateAll_succ (erases : ErasesWithin fuel) (values : List Expr) :
    evaluateAll (fuel + 1) (Expr.eraseAll values) machine.erase =
      (evaluateAll (fuel + 1) values machine).erase := by
  cases values with
  | nil => rfl
  | cons first rest =>
    refine Outcome.erase_andThen (erases.expression first machine) fun value between => ?_
    exact Outcome.erase_andThen (erases.expressions rest between) fun _ _ => rfl

/-- Optional expressions do the same with one more unit of fuel. -/
theorem evaluateOption_succ (erases : ErasesWithin fuel) (value : Option Expr) :
    evaluateOption (fuel + 1) (value.map Expr.erase) machine.erase =
      (evaluateOption (fuel + 1) value machine).erase := by
  cases value with
  | none => rfl
  | some value => exact erases.expression value machine

/-- Calls do the same with one more unit of fuel. -/
theorem invoke_succ (erases : ErasesWithin fuel) (callable : Callable) (arguments : List Value) :
    invoke (fuel + 1) callable.erase arguments machine.erase =
      (invoke (fuel + 1) callable arguments machine).erase := by
  cases callable with
  | native run => exact Outcome.erase_ofPair (machine.onHost (run · arguments))
  | method declared closure =>
    rw [Callable.erase, invoke, invoke, Machine.isLive_erase]
    split
    · rw [Machine.enterMethod_erase]
      dsimp only [Method.erase]
      rw [Machine.defineAll_erase]
      rcases (machine.enterMethod closure).defineAll
        ((declared.parameters.map Parameter.name).zip arguments) with ⟨refused, between⟩
      cases refused with
      | some name =>
        exact congrArg (Outcome.failed _) (between.leaveMethod_erase closure machine.active)
      | none =>
        refine Outcome.erase_andThen ?_ fun _ _ => rfl
        exact Outcome.erase_leaving (erases.statements declared.body between)
          fun after => after.leaveMethod_erase closure machine.active
    · rfl

/-- Lists of statements do the same with one more unit of fuel. -/
theorem executeAll_succ (erases : ErasesWithin fuel) (body : List Stmt) :
    executeAll (fuel + 1) (Stmt.eraseAll body) machine.erase =
      (executeAll (fuel + 1) body machine).erase := by
  cases body with
  | nil => rfl
  | cons first rest =>
    refine Outcome.erase_andThen (erases.statement first machine) fun flow between => ?_
    cases flow with
    | normal => exact erases.statements rest between
    | returned value => rfl

/-- Blocks do the same with one more unit of fuel. -/
theorem executeBlock_succ (erases : ErasesWithin fuel) (body : List Stmt) :
    executeBlock (fuel + 1) (Stmt.eraseAll body) machine.erase =
      (executeBlock (fuel + 1) body machine).erase := by
  rw [executeBlock, executeBlock, Machine.enter_erase]
  exact Outcome.erase_leaving (erases.statements body machine.enter)
    fun after => after.leave_erase machine.active

/-- Statements do the same with one more unit of fuel. -/
theorem execute_succ (erases : ErasesWithin fuel) (statement : Stmt) :
    execute (fuel + 1) statement.erase machine.erase =
      (execute (fuel + 1) statement machine).erase := by
  cases statement with
  | expression value => exact Outcome.erase_andThen (erases.expression value machine) fun _ _ => rfl
  | declaration declared =>
    refine Outcome.erase_andThen (erases.optional declared.value machine) fun value between => ?_
    refine Outcome.erase_andThen ?_ fun _ _ => rfl
    rw [Machine.define_erase]
    exact Outcome.erase_require _ _
  | assignment target value =>
    cases target with
    | «variable» name slot type =>
      refine Outcome.erase_andThen (erases.expression value machine) fun value between => ?_
      refine Outcome.erase_andThen ?_ fun _ _ => rfl
      rw [Machine.assign_erase]
      exact Outcome.erase_require _ _
    | member receiver name slot type =>
      refine Outcome.erase_andThen (erases.expression receiver machine) fun owner between => ?_
      refine Outcome.erase_andThen (erases.expression value between) fun value after => ?_
      refine Outcome.erase_andThen ?_ fun _ _ => rfl
      rw [Machine.assignField_erase]
      exact Outcome.erase_ofPair _
    | _ => rfl
  | conditional condition accepted rejected =>
    refine Outcome.erase_andThen (erases.expression condition machine) fun value between => ?_
    refine Outcome.erase_andThen (Outcome.erase_ofExcept between _) fun holds between => ?_
    cases holds with
    | true => exact erases.block accepted between
    | false => exact erases.block rejected between
  | iteration name value body =>
    refine Outcome.erase_andThen (erases.expression value machine) fun value between => ?_
    cases value with
    | iterable items => exact erases.items name items body between
    | _ => rfl
  | repetition condition body => exact erases.rounds condition body machine
  | result value => exact Outcome.erase_andThen (erases.expression value machine) fun _ _ => rfl

/-- Loops do the same with one more unit of fuel. -/
theorem iterate_succ (erases : ErasesWithin fuel) (name : String) (items : List Value)
    (body : List Stmt) :
    iterate (fuel + 1) name items (Stmt.eraseAll body) machine.erase =
      (iterate (fuel + 1) name items body machine).erase := by
  cases items with
  | nil => rfl
  | cons item items =>
    rw [iterate, iterate, Machine.enter_erase, Machine.define_erase]
    rcases machine.enter.define name item with ⟨success, between⟩
    cases success with
    | false => exact congrArg (Outcome.failed _) (between.leave_erase machine.active)
    | true =>
      refine Outcome.erase_andThen (Outcome.erase_leaving (erases.statements body between)
        fun after => after.leave_erase machine.active) fun flow after => ?_
      cases flow with
      | normal => exact erases.items name items body after
      | returned value => rfl

/-- Loops with a condition do the same with one more unit of fuel. -/
theorem repetition_succ (erases : ErasesWithin fuel) (condition : Expr) (body : List Stmt) :
    repetition (fuel + 1) condition.erase (Stmt.eraseAll body) machine.erase =
      (repetition (fuel + 1) condition body machine).erase := by
  refine Outcome.erase_andThen (erases.expression condition machine) fun value between => ?_
  refine Outcome.erase_andThen (Outcome.erase_ofExcept between _) fun holds between => ?_
  cases holds with
  | false => rfl
  | true =>
    refine Outcome.erase_andThen (erases.block body between) fun flow after => ?_
    cases flow with
    | normal => exact erases.rounds condition body after
    | returned value => rfl

/-- One more unit of fuel changes nothing. -/
theorem succ (erases : ErasesWithin fuel) : ErasesWithin (fuel + 1) where
  expression value machine := erases.evaluate_succ machine value
  expressions values machine := erases.evaluateAll_succ machine values
  optional value machine := erases.evaluateOption_succ machine value
  call callable arguments machine := erases.invoke_succ machine callable arguments
  statements body machine := erases.executeAll_succ machine body
  block body machine := erases.executeBlock_succ machine body
  statement statement machine := erases.execute_succ machine statement
  items name items body machine := erases.iterate_succ machine name items body
  rounds condition body machine := erases.repetition_succ machine condition body

end ErasesWithin

/-- With any fuel, every run does the same without slots. -/
theorem erasesWithin (fuel : Nat) : ErasesWithin fuel := by
  induction fuel with
  | zero => refine ⟨?_, ?_, ?_, ?_, ?_, ?_, ?_, ?_, ?_⟩ <;> intros <;> rfl
  | succ fuel ih => exact ih.succ

namespace Machine

variable (machine : Machine)

/-- Fields are defined in the same way. -/
theorem defineFields_erase (fuel : Nat) (fields : List Field) :
    defineFields fuel (fields.map Field.erase) machine.erase =
      (defineFields fuel fields machine).erase := by
  induction fields generalizing machine with
  | nil => rfl
  | cons first rest ih =>
    refine Outcome.erase_andThen ((erasesWithin fuel).optional first.value machine)
      fun value between => ?_
    refine Outcome.erase_andThen ?_ fun _ after => ih after
    rw [define_erase]
    exact Outcome.erase_require _ _

/-- Methods are defined in the same way. -/
theorem defineMethods_erase (methods : List Method) :
    defineMethods (methods.map Method.erase) machine.erase =
      (defineMethods methods machine).erase := by
  induction methods generalizing machine with
  | nil => rfl
  | cons first rest ih =>
    refine Outcome.erase_andThen ?_ fun _ after => ih after
    rw [defineMethod_erase]
    exact Outcome.erase_require _ _

/-- Programs do the same without slots. -/
theorem interpret_erase (fuel : Nat) (program : Program) :
    interpret fuel program.erase machine.erase = (interpret fuel program machine).erase := by
  refine Outcome.erase_andThen (machine.defineFields_erase fuel program.fields)
    fun _ between => ?_
  refine Outcome.erase_andThen (between.defineMethods_erase program.methods) fun _ after => ?_
  rw [findFunction?_erase]
  cases after.findFunction? "main" 0 with
  | none => rfl
  | some main => exact (erasesWithin fuel).call main [] after

end Machine

end LetDef
