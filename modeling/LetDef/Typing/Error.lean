import LetDef.Decimal.Notation
import LetDef.Program.Operator
import LetDef.Ty.Basic

/-!
# Errors of the analysis

The reasons for which a program is refused before it runs, and their wording.
-/
namespace LetDef

/-- Why a program is refused. -/
inductive TypeError where
  /-- There is no type of this name. -/
  | unknownType (name : String)
  /-- There already is a type of this name. -/
  | typeDefined (name : String)
  /-- A place of one type does not take values of another. -/
  | notAssignable (target type : Ty)
  /-- An operator does not take operands of these types. -/
  | operands (operator : BinaryOp) (left right : Ty)
  /-- An integer literal needs more than 32 bits. -/
  | integerRange (value : Int)
  /-- A decimal literal is beyond the range of 64-bit floating-point numbers. -/
  | decimalRange (value : Decimal)
  /-- No variable of this name is in scope. -/
  | undefinedVariable (name : String)
  /-- No function of this name with this number of parameters is in scope. -/
  | undefinedFunction (name : String) (arity : Nat)
  /-- The type has no field of this name. -/
  | noField (type : Ty) (name : String)
  /-- The type has no method of this name with this number of arguments. -/
  | noMethod (type : Ty) (name : String) (arity : Nat)
  /-- The scope already binds this name. -/
  | alreadyDefined (name : String)
  /-- A declaration has neither a type nor a value. -/
  | undetermined (name : String)
  /-- A statement is an expression that is no call. -/
  | notCall
  /-- An assignment has a target that is no variable and no field. -/
  | notTarget
  /-- A group holds an expression without an operator of its own. -/
  | notBinary
  /-- A branch has no statements. -/
  | emptyBranch
  /-- A `FOR` loop has no statements. -/
  | emptyIteration
  /-- A `RETURN` stands outside of methods. -/
  | resultOutside
  /-- There is no method `main` without parameters. -/
  | noMain
  /-- The results of `main` are no integers. -/
  | mainResult (type : Ty)
  /-- A slot of the tree is already filled. -/
  | slotTaken

namespace TypeError

/-- The wording of the reason. -/
def reason : TypeError → String
  | .unknownType name => "unknown type '" ++ name ++ "'"
  | .typeDefined name => "type '" ++ name ++ "' is already defined"
  | .notAssignable target type => "expected " ++ target.name ++ ", received " ++ type.name
  | .operands operator left right =>
    "operator " ++ operator.symbol ++ " cannot be applied to " ++ left.name ++ " and "
      ++ right.name
  | .integerRange value =>
    "integer literal " ++ String.ofList (Text.Numeral.ofInt value) ++ " is out of 32-bit range"
  | .decimalRange value =>
    "decimal literal " ++ String.ofList value.display ++ " is out of 64-bit range"
  | .undefinedVariable name => "undefined variable '" ++ name ++ "'"
  | .undefinedFunction name arity =>
    "undefined function '" ++ name ++ "/" ++ toString arity ++ "'"
  | .noField type name => "type " ++ type.name ++ " has no field '" ++ name ++ "'"
  | .noMethod type name arity =>
    "type " ++ type.name ++ " has no method '" ++ name ++ "/" ++ toString arity ++ "'"
  | .alreadyDefined name => "'" ++ name ++ "' is already defined in this scope"
  | .undetermined name => "declaration of '" ++ name ++ "' needs a type or a value"
  | .notCall => "expression statement must be a function call"
  | .notTarget => "assignment target must be a variable or field"
  | .notBinary => "grouped expression must be a binary expression"
  | .emptyBranch => "IF body must not be empty"
  | .emptyIteration => "FOR body must not be empty"
  | .resultOutside => "RETURN outside of a method"
  | .noMain => "main/0 is not defined"
  | .mainResult type => "main/0 must return Integer, but returns " ++ type.name
  | .slotTaken => "annotation slot is already filled"

/-- The full wording of an error of the analysis. -/
def message (error : TypeError) : String :=
  "type error: " ++ error.reason

end TypeError

end LetDef
