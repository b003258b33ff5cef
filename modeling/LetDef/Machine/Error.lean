import LetDef.Value.Basic

/-!
# Errors of running programs

The reasons for which a run ends early, and their wording.
-/
namespace LetDef

/-- Why a run ends early. -/
inductive RuntimeError where
  /-- The scope already binds this name. -/
  | alreadyDefined (name : String)
  /-- The scope already has this builtin. -/
  | builtinDefined (name : String) (arity : Nat)
  /-- There is no method `main` without parameters. -/
  | noMain
  /-- The scope that a method was defined in is gone. -/
  | scopeGone (method : String)
  /-- A `FOR` loop has no list to run over. -/
  | notIterable
  /-- A condition is no truth value. -/
  | notBoolean (kind : Kind)
  /-- An operator does not take operands of these kinds. -/
  | operands (operator : BinaryOp) (left right : Kind)
  /-- A number is divided by zero. -/
  | divisionByZero
  /-- No variable of this name is in scope. -/
  | undefinedVariable (name : String)
  /-- No function of this name with this number of parameters is in scope. -/
  | undefinedFunction (name : String) (arity : Nat)
  /-- An assignment has a target that is no variable and no field. -/
  | notTarget
  /-- A value that is no object has no fields. -/
  | valueField (kind : Kind) (name : String)
  /-- An object has no field of this name. -/
  | objectField (typeName name : String)
  /-- A value that is no object has no methods. -/
  | valueMethod (kind : Kind) (name : String)
  /-- An object has no method of this name with this number of arguments. -/
  | objectMethod (typeName name : String) (arity : Nat)
  /-- The output does not take what is printed. -/
  | printFailed
  /-- A function of the host fails with words of its own. -/
  | host (words : String)

/-- The words of an output that takes no more. -/
def outputFull : String := "output full"

namespace RuntimeError

/-- The wording of the reason. -/
def reason : RuntimeError → String
  | .alreadyDefined name => "'" ++ name ++ "' is already defined in this scope"
  | .builtinDefined name arity =>
    "builtin '" ++ name ++ "/" ++ toString arity ++ "' is already defined"
  | .noMain => "main/0 is not defined"
  | .scopeGone method => "scope of method '" ++ method ++ "' no longer exists"
  | .notIterable => "FOR requires an iterable value"
  | .notBoolean kind => "expected Boolean, received " ++ kind.name
  | .operands operator left right =>
    "operator " ++ operator.symbol ++ " cannot be applied to " ++ left.name ++ " and "
      ++ right.name
  | .divisionByZero => "division by zero"
  | .undefinedVariable name => "undefined variable '" ++ name ++ "'"
  | .undefinedFunction name arity =>
    "undefined function '" ++ name ++ "/" ++ toString arity ++ "'"
  | .notTarget => "assignment target must be a variable or field"
  | .valueField kind name => kind.name ++ " value has no field '" ++ name ++ "'"
  | .objectField typeName name => typeName ++ " has no field '" ++ name ++ "'"
  | .valueMethod kind name => kind.name ++ " value has no method '" ++ name ++ "'"
  | .objectMethod typeName name arity =>
    typeName ++ " has no method '" ++ name ++ "/" ++ toString arity ++ "'"
  | .printFailed => "print failed: " ++ outputFull
  | .host words => words

/-- The full wording of an error of a run. -/
def message (error : RuntimeError) : String :=
  "runtime error: " ++ error.reason

end RuntimeError

end LetDef
