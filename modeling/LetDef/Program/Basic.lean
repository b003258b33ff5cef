import LetDef.Decimal.Basic
import LetDef.Program.Operator
import LetDef.Ty.Basic

/-!
# Programs

A program is a list of fields and a list of methods. Its tree has slots for what the analysis
finds out: the type of every expression, and the variable or function that a name stands for.
The parser leaves the slots empty; `Program.erase` empties them again.
-/
namespace LetDef

/-- A value written in a program. -/
inductive Literal where
  /-- The value `NIL`. -/
  | nil
  /-- A truth value. -/
  | boolean (value : Bool)
  /-- A whole number. -/
  | integer (value : Int)
  /-- A decimal number. -/
  | decimal (value : Decimal)
  /-- A character. -/
  | character (value : Char)
  /-- A text. -/
  | string (value : String)
  deriving DecidableEq

/-- An expression. -/
inductive Expr where
  /-- A value. -/
  | literal (value : Literal) (type : Option Ty)
  /-- An expression in parentheses. -/
  | group (inner : Expr) (type : Option Ty)
  /-- An operator between two expressions. -/
  | binary (operator : BinaryOp) (left right : Expr) (type : Option Ty)
  /-- A name alone. -/
  | variable (name : String) (slot : Option Variable) (type : Option Ty)
  /-- A field of an object. -/
  | member (receiver : Expr) (name : String) (slot : Option Variable) (type : Option Ty)
  /-- A call of a function. -/
  | call (name : String) (arguments : List Expr) (slot : Option Signature) (type : Option Ty)
  /-- A call of a method of an object. -/
  | memberCall (receiver : Expr) (name : String) (arguments : List Expr)
      (slot : Option Signature) (type : Option Ty)

/-- The slot for the type of an expression. -/
def Expr.type : Expr → Option Ty
  | .literal _ type | .group _ type | .binary _ _ _ type | .variable _ _ type
  | .member _ _ _ type | .call _ _ _ type | .memberCall _ _ _ _ type => type

/-- A declaration of a local variable. -/
structure Declaration where
  /-- The name of the variable. -/
  name : String
  /-- The type written for it, if any. -/
  typeName : Option String
  /-- The expression for its first value, if any. -/
  value : Option Expr
  /-- The slot for what the name stands for. -/
  slot : Option Variable

/-- A statement. -/
inductive Stmt where
  /-- An expression for its effect. -/
  | expression (value : Expr)
  /-- A declaration of a local variable. -/
  | declaration (declared : Declaration)
  /-- A new value for a variable or a field. -/
  | assignment (target value : Expr)
  /-- A choice; the second list is empty where nothing is written for it. -/
  | conditional (condition : Expr) (accepted rejected : List Stmt)
  /-- A loop over the integers of a value. -/
  | iteration (name : String) (value : Expr) (body : List Stmt)
  /-- A loop as long as a condition holds. -/
  | repetition (condition : Expr) (body : List Stmt)
  /-- The end of a method with a result. -/
  | result (value : Expr)

/-- A field of a program. -/
structure Field where
  /-- The name of the field. -/
  name : String
  /-- The type written for it. -/
  typeName : String
  /-- The expression for its first value, if any. -/
  value : Option Expr
  /-- The slot for what the name stands for. -/
  slot : Option Variable

/-- A parameter of a method, as it is written. -/
structure Parameter where
  /-- The name of the parameter. -/
  name : String
  /-- The type written for it. -/
  typeName : String
  deriving DecidableEq

/-- A method of a program. -/
structure Method where
  /-- The name of the method. -/
  name : String
  /-- The parameters in order. -/
  parameters : List Parameter
  /-- The type written for its results, if any. -/
  returnTypeName : Option String
  /-- The statements of its body. -/
  body : List Stmt
  /-- The slot for what the name stands for. -/
  slot : Option Signature

/-- A whole program. -/
structure Program where
  /-- The fields in order. -/
  fields : List Field
  /-- The methods in order. -/
  methods : List Method

/-- The program without fields and methods. -/
def Program.empty : Program := ⟨[], []⟩

mutual

/-- The expression with all slots empty. -/
def Expr.erase : Expr → Expr
  | .literal value _ => .literal value none
  | .group inner _ => .group inner.erase none
  | .binary operator left right _ => .binary operator left.erase right.erase none
  | .variable name _ _ => .variable name none none
  | .member receiver name _ _ => .member receiver.erase name none none
  | .call name arguments _ _ => .call name (Expr.eraseAll arguments) none none
  | .memberCall receiver name arguments _ _ =>
    .memberCall receiver.erase name (Expr.eraseAll arguments) none none

/-- The expressions with all slots empty. -/
def Expr.eraseAll : List Expr → List Expr
  | [] => []
  | first :: rest => first.erase :: Expr.eraseAll rest

end

/-- The declaration with all slots empty. -/
def Declaration.erase (declaration : Declaration) : Declaration :=
  ⟨declaration.name, declaration.typeName, declaration.value.map Expr.erase, none⟩

mutual

/-- The statement with all slots empty. -/
def Stmt.erase : Stmt → Stmt
  | .expression value => .expression value.erase
  | .declaration declared => .declaration declared.erase
  | .assignment target value => .assignment target.erase value.erase
  | .conditional condition accepted rejected =>
    .conditional condition.erase (Stmt.eraseAll accepted) (Stmt.eraseAll rejected)
  | .iteration name value body => .iteration name value.erase (Stmt.eraseAll body)
  | .repetition condition body => .repetition condition.erase (Stmt.eraseAll body)
  | .result value => .result value.erase

/-- The statements with all slots empty. -/
def Stmt.eraseAll : List Stmt → List Stmt
  | [] => []
  | first :: rest => first.erase :: Stmt.eraseAll rest

end

/-- The field with all slots empty. -/
def Field.erase (field : Field) : Field :=
  ⟨field.name, field.typeName, field.value.map Expr.erase, none⟩

/-- The method with all slots empty. -/
def Method.erase (method : Method) : Method :=
  ⟨method.name, method.parameters, method.returnTypeName, Stmt.eraseAll method.body, none⟩

/-- The program with all slots empty. -/
def Program.erase (program : Program) : Program :=
  ⟨program.fields.map Field.erase, program.methods.map Method.erase⟩

end LetDef
