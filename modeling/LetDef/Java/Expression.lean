import LetDef.Decimal.Notation
import LetDef.Program.Basic
import LetDef.Text.Escape

/-!
# Expressions in Java

The Java text of an expression follows its tree from left to right. Parentheses stand exactly
where the program has a group, whether or not Java ranks the operators as the language does. A name
is written as its slot says, or as the program has it where the slot is empty.
-/
namespace LetDef.Java

/-- A text between quotes, escaped. -/
def quoted (quote : Char) (text : List Char) : String :=
  String.ofList (quote :: Text.Escape.encode quote text ++ [quote])

/-- A literal. -/
def literal : Literal → String
  | .nil => "null"
  | .boolean true => "true"
  | .boolean false => "false"
  | .integer value => String.ofList (Text.Numeral.ofInt value)
  | .decimal value => String.ofList value.display
  | .character value => quoted '\'' [value]
  | .string value => quoted '"' value.toList

/-- The name of a variable. -/
def variableName (name : String) (slot : Option Variable) : String :=
  (slot.map Variable.renderName).getD name

/-- The name of a function. -/
def functionName (name : String) (slot : Option Signature) : String :=
  (slot.map Signature.renderName).getD name

mutual

/-- An expression. -/
def expression : Expr → String
  | .literal value _ => literal value
  | .group inner _ => "(" ++ expression inner ++ ")"
  | .binary operator left right _ =>
    expression left ++ " " ++ operator.javaSymbol ++ " " ++ expression right
  | .variable name slot _ => variableName name slot
  | .member receiver name slot _ => expression receiver ++ "." ++ variableName name slot
  | .call name arguments slot _ => functionName name slot ++ "(" ++ list arguments ++ ")"
  | .memberCall receiver name arguments slot _ =>
    expression receiver ++ "." ++ functionName name slot ++ "(" ++ list arguments ++ ")"

/-- Expressions separated by commas. -/
def list : List Expr → String
  | [] => ""
  | first :: rest => expression first ++ listAfter rest

/-- Expressions with a comma before each. -/
def listAfter : List Expr → String
  | [] => ""
  | first :: rest => ", " ++ expression first ++ listAfter rest

end

/-- The name in Java of a type written in a program. Only built-in types are renamed. -/
def typeName (name : String) : String :=
  ((Ty.builtins.find? (·.name = name)).map Ty.renderName).getD name

end LetDef.Java
