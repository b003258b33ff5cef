import LetDef.Java.Expression
import LetDef.Text.Line

/-!
# Programs in Java

A program becomes one class `Main`: its fields, an entry point that exits with the result of the
method `main`, and its methods, with blank lines between them. Types are written as the slots
say, or by the names in the program where the slots are empty.
-/
namespace LetDef.Java

open Text (Line)

/-- A variable with its type and, if there is one, its first value. -/
def variableText (type name : String) : Option Expr → String
  | none => type ++ " " ++ name ++ ";"
  | some value => type ++ " " ++ name ++ " = " ++ expression value ++ ";"

/-- The type of a declared variable; without any it is left to Java. -/
def declaredType (declaration : Declaration) : String :=
  match declaration.slot, declaration.typeName with
  | some slot, _ => slot.type.renderName
  | none, some name => typeName name
  | none, none => "var"

/-- A declaration. -/
def declarationText (declaration : Declaration) : String :=
  variableText (declaredType declaration) (variableName declaration.name declaration.slot)
    declaration.value

mutual

/-- The lines of a statement that stands in `depth` blocks. -/
def statement (depth : Nat) : Stmt → List Line
  | .expression value => [⟨depth, expression value ++ ";"⟩]
  | .declaration declared => [⟨depth, declarationText declared⟩]
  | .assignment target value =>
    [⟨depth, expression target ++ " = " ++ expression value ++ ";"⟩]
  | .conditional condition accepted rejected =>
    let head := "if (" ++ expression condition ++ ") "
    let body := statements (depth + 1) accepted
    if rejected.isEmpty then Line.block depth head body ""
    else
      let other := statements (depth + 1) rejected
      (Line.block depth head body " else \x7b") ++ other ++ [⟨depth, "\x7d"⟩]
  | .iteration name value body =>
    Line.block depth ("for (int " ++ name ++ " : " ++ expression value ++ ") ")
      (statements (depth + 1) body) ""
  | .repetition condition body =>
    Line.block depth ("while (" ++ expression condition ++ ") ")
      (statements (depth + 1) body) ""
  | .result value => [⟨depth, "return " ++ expression value ++ ";"⟩]

/-- The lines of statements one after the other. -/
def statements (depth : Nat) : List Stmt → List Line
  | [] => []
  | first :: rest => statement depth first ++ statements depth rest

end

/-- The type of a field. -/
def fieldType (field : Field) : String :=
  match field.slot with
  | some slot => slot.type.renderName
  | none => typeName field.typeName

/-- The line of a field. -/
def field (field : Field) : Line :=
  ⟨1, variableText (fieldType field) (variableName field.name field.slot) field.value⟩

/-- The type of the results of a method; without one the method has no result. -/
def returnType (method : Method) : String :=
  match method.slot with
  | some slot => slot.returns.renderName
  | none => (method.returnTypeName.map typeName).getD "Void"

/-- The types of the parameters of a method. -/
def parameterTypes (method : Method) : List String :=
  match method.slot with
  | some slot => slot.parameters.map Ty.renderName
  | none => method.parameters.map fun parameter => typeName parameter.typeName

/-- The parameters of a method with their types. -/
def parameters (method : Method) : String :=
  ", ".intercalate
    ((parameterTypes method).zipWith
      (fun type (parameter : Parameter) => type ++ " " ++ parameter.name)
      method.parameters)

/-- The lines of a method. -/
def method (method : Method) : List Line :=
  Line.block 1
    (returnType method ++ " " ++ functionName method.name method.slot
      ++ "(" ++ parameters method ++ ") ")
    (statements 2 method.body) ""

/-- The entry point of every program. -/
def entryPoint : List Line :=
  Line.block 1 "public static void main(String[] args) "
    [⟨2, "System.exit(new Main().main());"⟩] ""

/-- The lines of the fields and the blank line that separates them from what follows. -/
def fields (fields : List Field) : List Line :=
  if fields.isEmpty then [] else fields.map field ++ [Line.blank]

/-- The lines of a program. -/
def lines (program : Program) : List Line :=
  [⟨0, "public class Main \x7b"⟩, Line.blank] ++ fields program.fields ++ entryPoint
    ++ program.methods.flatMap (fun declared => Line.blank :: method declared)
    ++ [Line.blank, ⟨0, "\x7d"⟩]

/-- The Java text of a program. -/
def generate (program : Program) : String :=
  Line.render (lines program)

end LetDef.Java
