import LetDef.Machine.Basic

/-!
# Running programs

Expressions are evaluated and statements executed by recursion on an amount of fuel, of which
every step takes one unit; a run that needs more ends in `Outcome.exhausted`, which is no error of
the program. Every body runs in a scope of its own, and the scope that was active before is active
again after it, whether the body ends or fails. A method runs inside the scope that it was defined
in, which it keeps alive while it runs.
-/
namespace LetDef

/-- How a statement ends. -/
inductive Flow where
  /-- The next statement follows. -/
  | normal
  /-- The method ends with a result. -/
  | returned (value : Value)

/-- The result of a method whose body ends so. -/
def Flow.result : Flow → Value
  | .normal => .nil
  | .returned value => value

/-- How a run ends. -/
inductive Outcome (α : Type) where
  /-- With a result. -/
  | done (value : α) (machine : Machine)
  /-- With an error. -/
  | failed (error : RuntimeError) (machine : Machine)
  /-- Not within the fuel. -/
  | exhausted

namespace Outcome

variable {α β : Type}

/-- Goes on after a result. -/
@[inline] def andThen (outcome : Outcome α) (go : α → Machine → Outcome β) : Outcome β :=
  match outcome with
  | .done value machine => go value machine
  | .failed error machine => .failed error machine
  | .exhausted => .exhausted

/-- Changes the state at the end, whether with a result or with an error. -/
@[inline] def leaving (outcome : Outcome α) (change : Machine → Machine) : Outcome α :=
  match outcome with
  | .done value machine => .done value (change machine)
  | .failed error machine => .failed error (change machine)
  | .exhausted => .exhausted

/-- A result or an error that leaves the state alone. -/
@[inline] def ofExcept (result : Except RuntimeError α) (machine : Machine) : Outcome α :=
  match result with
  | .ok value => .done value machine
  | .error error => .failed error machine

/-- A result or an error with the state after it. -/
@[inline] def ofPair (result : Except RuntimeError α × Machine) : Outcome α :=
  match result with
  | (.ok value, machine) => .done value machine
  | (.error error, machine) => .failed error machine

/-- A success, or else an error, with the state after it. -/
@[inline] def require (result : Bool × Machine) (error : RuntimeError) : Outcome Unit :=
  match result with
  | (true, machine) => .done () machine
  | (false, machine) => .failed error machine

end Outcome

open Outcome (ofExcept ofPair require)

/-- The truth value of the left operand that decides the result of `AND` or `OR`. -/
def BinaryOp.decisive (operator : BinaryOp) : Bool :=
  operator = .or

mutual

/-- The value of an expression. The left operand comes first, and the receiver of a call before
its arguments. -/
def evaluate : Nat → Expr → Machine → Outcome Value
  | 0, _, _ => .exhausted
  | _ + 1, .literal value _, machine => .done (.ofLiteral value) machine
  | fuel + 1, .group inner _, machine => evaluate fuel inner machine
  | fuel + 1, .binary operator left right _, machine =>
    (evaluate fuel left machine).andThen fun left machine =>
    if operator.isLogical then
      (ofExcept left.asBoolean machine).andThen fun condition machine =>
      if condition = operator.decisive then .done (.boolean condition) machine
      else
        (evaluate fuel right machine).andThen fun right machine =>
        (ofExcept right.asBoolean machine).andThen fun condition machine =>
        .done (.boolean condition) machine
    else
      (evaluate fuel right machine).andThen fun right machine =>
      ofExcept (Value.binary operator left right) machine
  | _ + 1, .variable name _ _, machine =>
    match machine.findVariable? name with
    | some value => .done value machine
    | none => .failed (.undefinedVariable name) machine
  | fuel + 1, .member receiver name _ _, machine =>
    (evaluate fuel receiver machine).andThen fun owner machine =>
    ofExcept (machine.field owner name) machine
  | fuel + 1, .call name arguments _ _, machine =>
    (evaluateAll fuel arguments machine).andThen fun values machine =>
    match machine.findFunction? name values.length with
    | some callable => invoke fuel callable values machine
    | none => .failed (.undefinedFunction name values.length) machine
  | fuel + 1, .memberCall receiver name arguments _ _, machine =>
    (evaluate fuel receiver machine).andThen fun owner machine =>
    (evaluateAll fuel arguments machine).andThen fun values machine =>
    (ofExcept (machine.method owner name values.length) machine).andThen fun callable machine =>
    invoke fuel callable (owner :: values) machine

/-- The values of expressions in order. -/
def evaluateAll : Nat → List Expr → Machine → Outcome (List Value)
  | 0, _, _ => .exhausted
  | _ + 1, [], machine => .done [] machine
  | fuel + 1, first :: rest, machine =>
    (evaluate fuel first machine).andThen fun value machine =>
    (evaluateAll fuel rest machine).andThen fun values machine =>
    .done (value :: values) machine

/-- The result of a call. A method takes its parameters from the arguments in order; arguments
beyond them are ignored. -/
def invoke : Nat → Callable → List Value → Machine → Outcome Value
  | 0, _, _, _ => .exhausted
  | _ + 1, .native run, arguments, machine => ofPair (machine.onHost (run · arguments))
  | fuel + 1, .method declared closure, arguments, machine =>
    if machine.store.isLive closure then
      let outer := machine.active
      let parameters := declared.parameters.map Parameter.name
      match (machine.enterMethod closure).defineAll (parameters.zip arguments) with
      | (some name, machine) =>
        .failed (.alreadyDefined name) (machine.leaveMethod closure outer)
      | (none, machine) =>
        ((executeAll fuel declared.body machine).leaving (·.leaveMethod closure outer)).andThen
          fun flow machine => .done flow.result machine
    else .failed (.scopeGone declared.name) machine

/-- How statements one after the other end. -/
def executeAll : Nat → List Stmt → Machine → Outcome Flow
  | 0, _, _ => .exhausted
  | _ + 1, [], machine => .done .normal machine
  | fuel + 1, first :: rest, machine =>
    (execute fuel first machine).andThen fun flow machine =>
    match flow with
    | .normal => executeAll fuel rest machine
    | .returned value => .done (.returned value) machine

/-- How statements in a new scope inside the active one end. -/
def executeBlock : Nat → List Stmt → Machine → Outcome Flow
  | 0, _, _ => .exhausted
  | fuel + 1, body, machine =>
    let outer := machine.active
    (executeAll fuel body machine.enter).leaving (·.leave outer)

/-- How a statement ends. -/
def execute : Nat → Stmt → Machine → Outcome Flow
  | 0, _, _ => .exhausted
  | fuel + 1, .expression value, machine =>
    (evaluate fuel value machine).andThen fun _ machine => .done .normal machine
  | fuel + 1, .declaration declared, machine =>
    (evaluateOption fuel declared.value machine).andThen fun value machine =>
    (require (machine.define declared.name value) (.alreadyDefined declared.name)).andThen
      fun () machine => .done .normal machine
  | fuel + 1, .assignment (.variable name _ _) value, machine =>
    (evaluate fuel value machine).andThen fun value machine =>
    (require (machine.assign name value) (.undefinedVariable name)).andThen
      fun () machine => .done .normal machine
  | fuel + 1, .assignment (.member receiver name _ _) value, machine =>
    (evaluate fuel receiver machine).andThen fun owner machine =>
    (evaluate fuel value machine).andThen fun value machine =>
    (ofPair (machine.assignField owner name value)).andThen
      fun () machine => .done .normal machine
  | _ + 1, .assignment _ _, machine => .failed .notTarget machine
  | fuel + 1, .conditional condition accepted rejected, machine =>
    (evaluate fuel condition machine).andThen fun value machine =>
    (ofExcept value.asBoolean machine).andThen fun holds machine =>
    executeBlock fuel (if holds then accepted else rejected) machine
  | fuel + 1, .iteration name value body, machine =>
    (evaluate fuel value machine).andThen fun value machine =>
    match value with
    | .iterable items => iterate fuel name items body machine
    | _ => .failed .notIterable machine
  | fuel + 1, .repetition condition body, machine => repetition fuel condition body machine
  | fuel + 1, .result value, machine =>
    (evaluate fuel value machine).andThen fun value machine => .done (.returned value) machine

/-- The value of an optional expression, `NIL` without one. -/
def evaluateOption : Nat → Option Expr → Machine → Outcome Value
  | 0, _, _ => .exhausted
  | _ + 1, none, machine => .done .nil machine
  | fuel + 1, some value, machine => evaluate fuel value machine

/-- How a loop over items ends. Every round has a scope of its own with the loop variable. -/
def iterate : Nat → String → List Value → List Stmt → Machine → Outcome Flow
  | 0, _, _, _, _ => .exhausted
  | _ + 1, _, [], _, machine => .done .normal machine
  | fuel + 1, name, item :: items, body, machine =>
    let outer := machine.active
    match machine.enter.define name item with
    | (false, machine) => .failed (.alreadyDefined name) (machine.leave outer)
    | (true, machine) =>
      ((executeAll fuel body machine).leaving (·.leave outer)).andThen fun flow machine =>
      match flow with
      | .normal => iterate fuel name items body machine
      | .returned value => .done (.returned value) machine

/-- How a loop with a condition ends. -/
def repetition : Nat → Expr → List Stmt → Machine → Outcome Flow
  | 0, _, _, _ => .exhausted
  | fuel + 1, condition, body, machine =>
    (evaluate fuel condition machine).andThen fun value machine =>
    (ofExcept value.asBoolean machine).andThen fun holds machine =>
    if holds then
      (executeBlock fuel body machine).andThen fun flow machine =>
      match flow with
      | .normal => repetition fuel condition body machine
      | .returned value => .done (.returned value) machine
    else .done .normal machine

end

namespace Machine

/-- Evaluates the first values of fields and defines the fields. -/
def defineFields (fuel : Nat) : List Field → Machine → Outcome Unit
  | [], machine => .done () machine
  | first :: rest, machine =>
    (evaluateOption fuel first.value machine).andThen fun value machine =>
    (require (machine.define first.name value) (.alreadyDefined first.name)).andThen
      fun () machine => defineFields fuel rest machine

/-- Defines methods. -/
def defineMethods : List Method → Machine → Outcome Unit
  | [], machine => .done () machine
  | first :: rest, machine =>
    (require (machine.defineMethod first) (.alreadyDefined first.name)).andThen
      fun () machine => defineMethods rest machine

/-- Runs a program: defines its fields and its methods and calls `main`. -/
def interpret (fuel : Nat) (program : Program) (machine : Machine) : Outcome Value :=
  (defineFields fuel program.fields machine).andThen fun () machine =>
  (defineMethods program.methods machine).andThen fun () machine =>
  match machine.findFunction? "main" 0 with
  | some main => invoke fuel main [] machine
  | none => .failed .noMain machine

end Machine

end LetDef
