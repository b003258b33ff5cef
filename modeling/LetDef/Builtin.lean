import LetDef.Program.Basic

/-!
# Builtins

Functions that every program can call unless its host withholds them. `Builtin.usedBy` lists those
that an analysed program calls, judged by the slots of its calls.
-/
namespace LetDef

/-- A builtin function. -/
inductive Builtin where
  /-- Writes the text of its argument and a line break to the output. -/
  | print
  deriving DecidableEq

namespace Builtin

/-- All builtins in order. -/
def all : List Builtin := [.print]

/-- The name written in programs. -/
def name : Builtin → String
  | .print => "print"

/-- The name written in generated Java. -/
def renderName : Builtin → String
  | .print => "System.out.println"

/-- The kind of the builtin. -/
def kind : Builtin → String
  | .print => "Print"

/-- The types of the parameters. -/
def parameters : Builtin → List Ty
  | .print => [.any]

/-- The type of the results. -/
def returns : Builtin → Ty
  | .print => .nil

/-- The number of parameters. -/
def arity (builtin : Builtin) : Nat :=
  builtin.parameters.length

/-- What the name of the builtin stands for in a program. -/
def signature (builtin : Builtin) : Signature :=
  ⟨builtin.name, builtin.renderName, builtin.parameters, builtin.returns⟩

/-- The builtin of a name and a number of parameters. -/
def find? (name : String) (arity : Nat) : Option Builtin :=
  all.find? fun builtin => builtin.name = name && builtin.arity = arity

/-- The function is the builtin, judged by its name in Java and its number of parameters. -/
def describes (builtin : Builtin) (signature : Signature) : Bool :=
  signature.renderName = builtin.renderName && signature.arity = builtin.arity

end Builtin

mutual

/-- The functions that the calls in an expression stand for, methods of objects apart. -/
def Expr.called : Expr → List Signature
  | .literal .. => []
  | .group inner _ => inner.called
  | .binary _ left right _ => left.called ++ right.called
  | .variable .. => []
  | .member receiver _ _ _ => receiver.called
  | .call _ arguments slot _ => Expr.calledInAll arguments ++ slot.toList
  | .memberCall receiver _ arguments _ _ => receiver.called ++ Expr.calledInAll arguments

/-- The functions that the calls in expressions stand for. -/
def Expr.calledInAll : List Expr → List Signature
  | [] => []
  | first :: rest => first.called ++ Expr.calledInAll rest

end

/-- The functions that the calls in an optional expression stand for. -/
def Expr.calledInOption : Option Expr → List Signature
  | none => []
  | some value => value.called

mutual

/-- The functions that the calls in a statement stand for. -/
def Stmt.called : Stmt → List Signature
  | .expression value => value.called
  | .declaration declared => Expr.calledInOption declared.value
  | .assignment target value => target.called ++ value.called
  | .conditional condition accepted rejected =>
    condition.called ++ Stmt.calledInAll accepted ++ Stmt.calledInAll rejected
  | .iteration _ value body => value.called ++ Stmt.calledInAll body
  | .repetition condition body => condition.called ++ Stmt.calledInAll body
  | .result value => value.called

/-- The functions that the calls in statements stand for. -/
def Stmt.calledInAll : List Stmt → List Signature
  | [] => []
  | first :: rest => first.called ++ Stmt.calledInAll rest

end

/-- The functions that the calls in a program stand for. -/
def Program.called (program : Program) : List Signature :=
  program.fields.flatMap (fun field => Expr.calledInOption field.value)
    ++ program.methods.flatMap fun method => Stmt.calledInAll method.body

/-- The builtins that an analysed program calls, in order. -/
def Builtin.usedBy (program : Program) : List Builtin :=
  Builtin.all.filter fun builtin => program.called.any builtin.describes

end LetDef
