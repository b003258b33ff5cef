import LetDef.Decimal.Arithmetic
import LetDef.Machine.Error

/-!
# Operations on values

What the operators make of two values. `AND` and `OR` look at their right operand only if the left
one leaves the result open, so their meaning is part of the evaluation of expressions; here they
take no operands.
-/
namespace LetDef.Value

/-- The truth value of a condition. -/
def asBoolean : Value → Except RuntimeError Bool
  | .boolean value => .ok value
  | value => .error (.notBoolean value.kind)

/-- The order of two numbers of one kind. -/
def order? : Value → Value → Option Ordering
  | .integer left, .integer right => some (Ord.compare left right)
  | .decimal left, .decimal right => some (left.compare right)
  | _, _ => none

/-- A comparison holds between values in this order. -/
def holds (operator : BinaryOp) (order : Ordering) : Bool :=
  match operator with
  | .less => order = .lt
  | .lessEqual => order ≠ .gt
  | .greater => order = .gt
  | .greaterEqual => order ≠ .lt
  | _ => false

/-- A quotient of integers, rounded toward zero. -/
def divideIntegers (left right : Int) : Except RuntimeError Value :=
  if right = 0 then .error .divisionByZero else .ok (.integer (left.tdiv right))

/-- A quotient of decimals, rounded to the scale of the dividend. -/
def divideDecimals (left right : Decimal) : Except RuntimeError Value :=
  if right.digits = 0 then .error .divisionByZero else .ok (.decimal (left.div right))

/-- The sum of two numbers of one kind, or the texts of two values one after the other if one of
them is a text. -/
def add (left right : Value) : Except RuntimeError Value :=
  match left, right with
  | .string _, _ | _, .string _ => .ok (.string (left.display ++ right.display))
  | .integer left, .integer right => .ok (.integer (left + right))
  | .decimal left, .decimal right => .ok (.decimal (left.add right))
  | _, _ => .error (.operands .add left.kind right.kind)

/-- The difference of two numbers of one kind. -/
def sub (left right : Value) : Except RuntimeError Value :=
  match left, right with
  | .integer left, .integer right => .ok (.integer (left - right))
  | .decimal left, .decimal right => .ok (.decimal (left.sub right))
  | _, _ => .error (.operands .sub left.kind right.kind)

/-- The product of two numbers of one kind. -/
def mul (left right : Value) : Except RuntimeError Value :=
  match left, right with
  | .integer left, .integer right => .ok (.integer (left * right))
  | .decimal left, .decimal right => .ok (.decimal (left.mul right))
  | _, _ => .error (.operands .mul left.kind right.kind)

/-- The quotient of two numbers of one kind. -/
def div (left right : Value) : Except RuntimeError Value :=
  match left, right with
  | .integer left, .integer right => divideIntegers left right
  | .decimal left, .decimal right => divideDecimals left right
  | _, _ => .error (.operands .div left.kind right.kind)

/-- The result of an operator between two values. Any two values can be equal or not; only numbers
of one kind have an order. -/
def binary (operator : BinaryOp) (left right : Value) : Except RuntimeError Value :=
  match operator with
  | .equal => .ok (.boolean (left.same right))
  | .notEqual => .ok (.boolean (!left.same right))
  | .less | .lessEqual | .greater | .greaterEqual =>
    match left.order? right with
    | some order => .ok (.boolean (holds operator order))
    | none => .error (.operands operator left.kind right.kind)
  | .add => left.add right
  | .sub => left.sub right
  | .mul => left.mul right
  | .div => left.div right
  | .and | .or => .error (.operands operator left.kind right.kind)

end LetDef.Value
