import LetDef.Compilation

/-!
# The Java class of a program

What Java reads in a Java text is a class with fields and methods, whose statements declare local
variables and open blocks. `Java.Class` is such a class as a tree, with every type and every name as
it is written, and `Java.Class.text` is its text. A program becomes the class `Java.classOf`, and
its Java text is the text of that class (`Java.text_classOf`). So the rules of Java on what may
stand in a class can be stated without the language that it is made from.
-/
namespace LetDef.Java

open Text (Line)

/-- A variable that is declared in Java, with its type. -/
structure Binder where
  /-- The type as it is written. -/
  type : String
  /-- The name as it is written. -/
  name : String

/-- An expression in Java. -/
inductive Term where
  /-- A literal. -/
  | literal (value : Literal)
  /-- An expression in parentheses. -/
  | group (inner : Term)
  /-- An operator between two expressions. -/
  | binary (operator : BinaryOp) (left right : Term)
  /-- A variable. -/
  | variable (name : String)
  /-- A field of an object. -/
  | member (receiver : Term) (name : String)
  /-- A call of a method. -/
  | call (name : String) (arguments : List Term)
  /-- A call of a method of an object. -/
  | memberCall (receiver : Term) (name : String) (arguments : List Term)

/-- A statement in Java. -/
inductive Command where
  /-- An expression for its effect. -/
  | expression (value : Term)
  /-- A declaration of a local variable. -/
  | declaration (binder : Binder) (value : Option Term)
  /-- An assignment. -/
  | assignment (target value : Term)
  /-- A choice; the second block is left out if it is empty. -/
  | conditional (condition : Term) (accepted rejected : List Command)
  /-- A loop that declares a variable for its body. -/
  | iteration (binder : Binder) (range : Term) (body : List Command)
  /-- A loop with a condition. -/
  | repetition (condition : Term) (body : List Command)
  /-- The end of a method with a result. -/
  | result (value : Term)

/-- A method in Java. -/
structure Routine where
  /-- The type of its results as it is written. -/
  returns : String
  /-- Its name as it is written. -/
  name : String
  /-- Its parameters. -/
  parameters : List Binder
  /-- The statements of its body. -/
  body : List Command

/-- A class in Java, the entry point apart. -/
structure Class where
  /-- The fields with their first values. -/
  fields : List (Binder × Option Term)
  /-- The methods. -/
  methods : List Routine

mutual

/-- The text of an expression. -/
def Term.text : Term → String
  | .literal value => Java.literal value
  | .group inner => "(" ++ inner.text ++ ")"
  | .binary operator left right => left.text ++ " " ++ operator.javaSymbol ++ " " ++ right.text
  | .variable name => name
  | .member receiver name => receiver.text ++ "." ++ name
  | .call name arguments => name ++ "(" ++ Term.listText arguments ++ ")"
  | .memberCall receiver name arguments =>
    receiver.text ++ "." ++ name ++ "(" ++ Term.listText arguments ++ ")"

/-- The text of expressions separated by commas. -/
def Term.listText : List Term → String
  | [] => ""
  | first :: rest => first.text ++ Term.listTextAfter rest

/-- The text of expressions with a comma before each. -/
def Term.listTextAfter : List Term → String
  | [] => ""
  | first :: rest => ", " ++ first.text ++ Term.listTextAfter rest

end

/-- The text of a declared variable. -/
def Binder.text (binder : Binder) : String :=
  binder.type ++ " " ++ binder.name

/-- The text of a variable with its first value, if there is one. -/
def Binder.line (binder : Binder) : Option Term → String
  | none => binder.text ++ ";"
  | some value => binder.text ++ " = " ++ value.text ++ ";"

mutual

/-- The lines of a statement that stands in `depth` blocks. -/
def Command.lines (depth : Nat) : Command → List Line
  | .expression value => [⟨depth, value.text ++ ";"⟩]
  | .declaration binder value => [⟨depth, binder.line value⟩]
  | .assignment target value => [⟨depth, target.text ++ " = " ++ value.text ++ ";"⟩]
  | .conditional condition accepted rejected =>
    let head := "if (" ++ condition.text ++ ") "
    let body := Command.linesAll (depth + 1) accepted
    if rejected.isEmpty then Line.block depth head body ""
    else
      Line.block depth head body " else \x7b" ++ Command.linesAll (depth + 1) rejected
        ++ [⟨depth, "\x7d"⟩]
  | .iteration binder range body =>
    Line.block depth ("for (" ++ binder.text ++ " : " ++ range.text ++ ") ")
      (Command.linesAll (depth + 1) body) ""
  | .repetition condition body =>
    Line.block depth ("while (" ++ condition.text ++ ") ") (Command.linesAll (depth + 1) body) ""
  | .result value => [⟨depth, "return " ++ value.text ++ ";"⟩]

/-- The lines of statements one after the other. -/
def Command.linesAll (depth : Nat) : List Command → List Line
  | [] => []
  | first :: rest => first.lines depth ++ Command.linesAll depth rest

end

/-- The lines of a method. -/
def Routine.lines (routine : Routine) : List Line :=
  Line.block 1
    (routine.returns ++ " " ++ routine.name ++ "("
      ++ ", ".intercalate (routine.parameters.map Binder.text) ++ ") ")
    (Command.linesAll 2 routine.body) ""

/-- The lines of a class: its fields, the entry point and its methods. -/
def Class.lines (declared : Class) : List Line :=
  [⟨0, "public class Main \x7b"⟩, Line.blank]
    ++ (if declared.fields.isEmpty then []
      else declared.fields.map (fun field => ⟨1, field.1.line field.2⟩) ++ [Line.blank])
    ++ entryPoint ++ declared.methods.flatMap (fun routine => Line.blank :: routine.lines)
    ++ [Line.blank, ⟨0, "\x7d"⟩]

/-- The text of a class. -/
def Class.text (declared : Class) : String :=
  Line.render declared.lines

mutual

/-- The Java expression that an expression becomes. -/
def term : Expr → Term
  | .literal value _ => .literal value
  | .group inner _ => .group (term inner)
  | .binary operator left right _ => .binary operator (term left) (term right)
  | .variable name slot _ => .variable (variableName name slot)
  | .member receiver name slot _ => .member (term receiver) (variableName name slot)
  | .call name arguments slot _ => .call (functionName name slot) (terms arguments)
  | .memberCall receiver name arguments slot _ =>
    .memberCall (term receiver) (functionName name slot) (terms arguments)

/-- The Java expressions that expressions become. -/
def terms : List Expr → List Term
  | [] => []
  | first :: rest => term first :: terms rest

end

mutual

/-- The Java statement that a statement becomes. -/
def command : Stmt → Command
  | .expression value => .expression (term value)
  | .declaration declared =>
    .declaration ⟨declaredType declared, variableName declared.name declared.slot⟩
      (declared.value.map term)
  | .assignment target value => .assignment (term target) (term value)
  | .conditional condition accepted rejected =>
    .conditional (term condition) (commands accepted) (commands rejected)
  | .iteration name value body => .iteration ⟨"int", name⟩ (term value) (commands body)
  | .repetition condition body => .repetition (term condition) (commands body)
  | .result value => .result (term value)

/-- The Java statements that statements become. -/
def commands : List Stmt → List Command
  | [] => []
  | first :: rest => command first :: commands rest

end

/-- The Java method that a method becomes. -/
def routine (method : Method) : Routine where
  returns := returnType method
  name := functionName method.name method.slot
  parameters := (parameterTypes method).zipWith (fun type parameter => ⟨type, parameter.name⟩)
    method.parameters
  body := commands method.body

/-- The Java field that a field becomes. -/
def classField (field : Field) : Binder × Option Term :=
  (⟨fieldType field, variableName field.name field.slot⟩, field.value.map term)

/-- The Java class that a program becomes. -/
def classOf (program : Program) : Class :=
  ⟨program.fields.map classField, program.methods.map routine⟩

mutual

/-- The Java expression has the text of the expression. -/
theorem text_term (value : Expr) : (term value).text = expression value := by
  cases value with
  | literal | «variable» => rfl
  | group inner => rw [term, Term.text, text_term inner, expression]
  | binary operator left right => rw [term, Term.text, text_term left, text_term right, expression]
  | member receiver => rw [term, Term.text, text_term receiver, expression]
  | call name arguments => rw [term, Term.text, listText_terms arguments, expression]
  | memberCall receiver name arguments =>
    rw [term, Term.text, text_term receiver, listText_terms arguments, expression]

/-- The Java expressions have the text of the expressions. -/
theorem listText_terms (values : List Expr) : Term.listText (terms values) = list values := by
  cases values with
  | nil => rfl
  | cons first rest =>
    rw [terms, Term.listText, text_term first, listTextAfter_terms rest, list]

/-- The Java expressions have the text of the expressions, with a comma before each. -/
theorem listTextAfter_terms (values : List Expr) :
    Term.listTextAfter (terms values) = listAfter values := by
  cases values with
  | nil => rfl
  | cons first rest =>
    rw [terms, Term.listTextAfter, text_term first, listTextAfter_terms rest, listAfter]

end

/-- A variable has the text of its declaration. -/
theorem line_map_term (type name : String) (value : Option Expr) :
    Binder.line ⟨type, name⟩ (value.map term) = variableText type name value := by
  cases value with
  | none => rfl
  | some value => rw [Option.map_some, Binder.line, text_term, variableText, Binder.text]

/-- No statements become no Java statements. -/
theorem isEmpty_commands (statements : List Stmt) :
    (commands statements).isEmpty = statements.isEmpty := by
  cases statements <;> rfl

mutual

/-- The Java statement has the lines of the statement. -/
theorem lines_command (depth : Nat) (stmt : Stmt) :
    (command stmt).lines depth = statement depth stmt := by
  cases stmt with
  | expression | assignment | result => simp only [command, Command.lines, text_term, statement]
  | declaration declared =>
    rw [command, Command.lines, line_map_term, statement, declarationText]
  | conditional condition accepted rejected =>
    simp only [command, Command.lines, text_term, isEmpty_commands,
      linesAll_commands (depth + 1) accepted, linesAll_commands (depth + 1) rejected, statement]
  | iteration name value body =>
    have head : "for (" ++ Binder.text ⟨"int", name⟩ = "for (int " ++ name := by
      rw [Binder.text, ← String.append_assoc, ← String.append_assoc]
      rfl
    rw [command, Command.lines, head, text_term, linesAll_commands (depth + 1) body, statement]
  | repetition condition body =>
    rw [command, Command.lines, text_term, linesAll_commands (depth + 1) body, statement]

/-- The Java statements have the lines of the statements. -/
theorem linesAll_commands (depth : Nat) (stmts : List Stmt) :
    Command.linesAll depth (commands stmts) = statements depth stmts := by
  cases stmts with
  | nil => rfl
  | cons first rest =>
    rw [commands, Command.linesAll, lines_command depth first, linesAll_commands depth rest,
      statements]

end

/-- The Java method has the lines of the method. -/
theorem lines_routine (declared : Method) : (routine declared).lines = method declared := by
  have texts : (routine declared).parameters.map Binder.text =
      (parameterTypes declared).zipWith
        (fun type (parameter : Parameter) => type ++ " " ++ parameter.name) declared.parameters :=
    List.map_zipWith
  rw [Routine.lines, texts, routine, linesAll_commands, method, parameters]

/-- The Java text of a program is the text of the class that it becomes. -/
theorem text_classOf (program : Program) : (classOf program).text = generate program := by
  have lines : (program.fields.map classField).map (fun field => Line.mk 1 (field.1.line field.2)) =
      program.fields.map field := by
    rw [List.map_map]
    exact List.map_congr_left fun declared _ => congrArg (Line.mk 1) (line_map_term _ _ _)
  rw [Class.text, Class.lines, classOf, List.isEmpty_map, lines, List.flatMap_map, generate,
    Java.lines, fields]
  simp only [lines_routine]

end LetDef.Java

namespace LetDef

/-- A text is compiled exactly if it is accepted, and then to what its program is compiled to. -/
theorem Compilation.ofText_eq_ok {text : String} {compilation : Compilation} :
    Compilation.ofText text = .ok compilation ↔
      ∃ program, Program.ofTextAnalyzed text = .ok program ∧ program.compile = compilation := by
  rw [ofText]
  cases Program.ofTextAnalyzed text with
  | error error => simp [Except.map]
  | ok program => simp [Except.map]

end LetDef
