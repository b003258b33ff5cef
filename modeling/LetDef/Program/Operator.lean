/-!
# Binary operators

The operators of expressions, with the words that programs and generated Java write for them.
-/
namespace LetDef

/-- A binary operator. -/
inductive BinaryOp where
  /-- Both conditions hold. -/
  | and
  /-- One of the conditions holds. -/
  | or
  /-- The left operand is smaller. -/
  | less
  /-- The left operand is smaller or equal. -/
  | lessEqual
  /-- The left operand is larger. -/
  | greater
  /-- The left operand is larger or equal. -/
  | greaterEqual
  /-- The operands are equal. -/
  | equal
  /-- The operands differ. -/
  | notEqual
  /-- A sum, or the texts of the operands one after the other. -/
  | add
  /-- A difference. -/
  | sub
  /-- A product. -/
  | mul
  /-- A quotient. -/
  | div
  deriving DecidableEq

namespace BinaryOp

/-- The operator as programs write it. -/
def symbol : BinaryOp → String
  | .and => "AND"
  | .or => "OR"
  | .less => "<"
  | .lessEqual => "<="
  | .greater => ">"
  | .greaterEqual => ">="
  | .equal => "=="
  | .notEqual => "!="
  | .add => "+"
  | .sub => "-"
  | .mul => "*"
  | .div => "/"

/-- The operator as Java writes it. -/
def javaSymbol : BinaryOp → String
  | .and => "&&"
  | .or => "||"
  | operator => operator.symbol

/-- The name of the operator. -/
def name : BinaryOp → String
  | .and => "And"
  | .or => "Or"
  | .less => "Less"
  | .lessEqual => "LessEqual"
  | .greater => "Greater"
  | .greaterEqual => "GreaterEqual"
  | .equal => "Equal"
  | .notEqual => "NotEqual"
  | .add => "Add"
  | .sub => "Sub"
  | .mul => "Mul"
  | .div => "Div"

/-- The operator joins conditions. -/
def isLogical : BinaryOp → Bool
  | .and | .or => true
  | _ => false

/-- The operator compares its operands. -/
def isComparison : BinaryOp → Bool
  | .less | .lessEqual | .greater | .greaterEqual | .equal | .notEqual => true
  | _ => false

end BinaryOp

/-- A level of operators that bind equally strongly. -/
inductive Level where
  /-- `AND` and `OR`. -/
  | logical
  /-- The comparisons. -/
  | comparison
  /-- Sums and differences. -/
  | additive
  /-- Products and quotients. -/
  | multiplicative
  deriving DecidableEq

namespace Level

/-- The operators of a level. -/
def operators : Level → List BinaryOp
  | .logical => [.and, .or]
  | .comparison => [.less, .lessEqual, .greater, .greaterEqual, .equal, .notEqual]
  | .additive => [.add, .sub]
  | .multiplicative => [.mul, .div]

/-- The operator of a level that programs write as `literal`. -/
def operator? (level : Level) (literal : String) : Option BinaryOp :=
  level.operators.find? (·.symbol = literal)

/-- The level that binds next more strongly, if there is one. -/
def tighter? : Level → Option Level
  | .logical => some .comparison
  | .comparison => some .additive
  | .additive => some .multiplicative
  | .multiplicative => none

/-- How many levels bind more strongly. -/
def rank : Level → Nat
  | .logical => 3
  | .comparison => 2
  | .additive => 1
  | .multiplicative => 0

/-- At most three levels bind more strongly. -/
theorem rank_le (level : Level) : level.rank ≤ 3 := by
  cases level <;> decide

/-- Fewer levels bind more strongly than the next tighter one. -/
theorem rank_lt_of_tighter? {level tighter : Level} (next : level.tighter? = some tighter) :
    tighter.rank < level.rank := by
  cases level <;> simp [tighter?] at next <;> subst next <;> decide

end Level

end LetDef
