import LetDef.Decimal.Notation
import LetDef.Program.Basic
import LetDef.Text.Line
import LetDef.Text.Quoted

/-!
# Outlines

An outline shows a program as a tree, one part on a line of its own. It shows what is written in
the program, so every slot for findings of the analysis appears as empty.
-/
namespace LetDef

/-- A tree of texts. -/
inductive Outline where
  /-- A text without parts. -/
  | leaf (text : String)
  /-- Parts with their labels, between a text before them and a text after them. -/
  | branch (start : String) (parts : List (String × Outline)) (stop : String)

namespace Outline

open Text (Line)

mutual

/-- The lines of an outline at a depth, with a text before it and a text after it. -/
def lines (depth : Nat) (label tail : String) : Outline → List Line
  | .leaf text => [⟨depth, label ++ text ++ tail⟩]
  | .branch start parts stop =>
    ⟨depth, label ++ start⟩ :: partLines (depth + 1) parts ++ [⟨depth, stop ++ tail⟩]

/-- The lines of parts. A comma follows every part. -/
def partLines (depth : Nat) : List (String × Outline) → List Line
  | [] => []
  | (label, part) :: rest => part.lines depth label "," ++ partLines depth rest

end

/-- The text of an outline, without a line break at the end. -/
def render (outline : Outline) : String :=
  Line.render (outline.lines 0 "" "")

/-- A node with named parts. -/
def record (name : String) (parts : List (String × Outline)) : Outline :=
  .branch (name ++ " \x7b") (parts.map fun (label, part) => (label ++ ": ", part)) "\x7d"

/-- A node around one part. -/
def around (name : String) (part : Outline) : Outline :=
  .branch (name ++ "(") [("", part)] ")"

/-- Nodes in order. -/
def list : List Outline → Outline
  | [] => .leaf "[]"
  | items => .branch "[" (items.map ("", ·)) "]"

/-- A missing node, or an empty slot. -/
def absent : Outline := .leaf "None"

/-- A node that may be missing. -/
def option : Option Outline → Outline
  | none => absent
  | some part => around "Some" part

/-- A quoted text. -/
def text (text : String) : Outline := .leaf (Text.quoted text)

/-- The outline of a literal. -/
def literal : Literal → Outline
  | .nil => .leaf "Nil"
  | .boolean value => around "Boolean" (.leaf (if value then "true" else "false"))
  | .integer value => around "Integer" (.leaf (String.ofList (Text.Numeral.ofInt value)))
  | .decimal value =>
    around "Decimal" (.leaf ("BigDecimal(\"" ++ String.ofList value.exactText ++ "\")"))
  | .character value => around "Character" (.leaf (Text.quotedCharacter value))
  | .string value => around "String" (text value)

/-- The outline of an expression of some kind. -/
def ofKind (kind : Outline) : Outline :=
  record "Expr" [("kind", kind), ("ty", absent)]

/-- The outline of a name, alone or selected from an object. -/
def access (receiver : Option Outline) (name : String) : Outline :=
  ofKind (around "Access" (record "Access"
    [("receiver", option receiver), ("name", text name), ("variable", absent)]))

/-- The outline of a call of a function or of a method of an object. -/
def call (receiver : Option Outline) (name : String) (arguments : List Outline) : Outline :=
  ofKind (around "Function" (record "Call"
    [("receiver", option receiver), ("name", text name), ("arguments", list arguments),
      ("function", absent)]))

mutual

/-- The outline of an expression. -/
def expression : Expr → Outline
  | .literal value _ => ofKind (around "Literal" (literal value))
  | .group inner _ => ofKind (around "Group" (expression inner))
  | .binary operator left right _ =>
    ofKind (record "Binary"
      [("operator", .leaf operator.name), ("left", expression left), ("right", expression right)])
  | .variable name _ _ => access none name
  | .member receiver name _ _ => access (some (expression receiver)) name
  | .call name arguments _ _ => call none name (expressions arguments)
  | .memberCall receiver name arguments _ _ =>
    call (some (expression receiver)) name (expressions arguments)

/-- The outlines of expressions. -/
def expressions : List Expr → List Outline
  | [] => []
  | first :: rest => expression first :: expressions rest

end

/-- The outline of a declaration. -/
def declaration (declared : Declaration) : Outline :=
  record "Declaration"
    [("name", text declared.name), ("type_name", option (declared.typeName.map text)),
      ("value", option (declared.value.map expression)), ("variable", absent)]

mutual

/-- The outline of a statement. -/
def statement : Stmt → Outline
  | .expression value => around "Expression" (expression value)
  | .declaration declared => around "Declaration" (declaration declared)
  | .assignment target value =>
    record "Assignment" [("receiver", expression target), ("value", expression value)]
  | .conditional condition accepted rejected =>
    record "If"
      [("condition", expression condition), ("then_statements", list (statements accepted)),
        ("else_statements", list (statements rejected))]
  | .iteration name value body =>
    record "For"
      [("name", text name), ("value", expression value), ("statements", list (statements body))]
  | .repetition condition body =>
    record "While" [("condition", expression condition), ("statements", list (statements body))]
  | .result value => around "Return" (expression value)

/-- The outlines of statements. -/
def statements : List Stmt → List Outline
  | [] => []
  | first :: rest => statement first :: statements rest

end

/-- The outline of a field. -/
def field (field : Field) : Outline :=
  record "Field"
    [("name", text field.name), ("type_name", text field.typeName),
      ("value", option (field.value.map expression)), ("variable", absent)]

/-- The outline of a method. -/
def method (method : Method) : Outline :=
  record "Method"
    [("name", text method.name),
      ("parameters", list (method.parameters.map fun parameter => text parameter.name)),
      ("parameter_type_names",
        list (method.parameters.map fun parameter => text parameter.typeName)),
      ("return_type_name", option (method.returnTypeName.map text)),
      ("statements", list (statements method.body)), ("function", absent)]

/-- The outline of a program. -/
def program (program : Program) : Outline :=
  record "Source"
    [("fields", list (program.fields.map field)), ("methods", list (program.methods.map method))]

end Outline

end LetDef
