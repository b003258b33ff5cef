import LetDef.Error
import LetDef.Java.Program
import LetDef.Machine.Evaluation
import LetDef.Typing.Analysis

/-!
# From a text to Java and to a result

The ways of a program without a host: reading it, analysing it, writing it in Java and running it.
-/
namespace LetDef

/-- The program that a text is. -/
def Program.ofText (text : String) : Except Error Program :=
  match Token.scan text with
  | .error error => .error (.lex error)
  | .ok tokens =>
    match Program.ofTokens tokens with
    | .error error => .error (.parse error)
    | .ok program => .ok program

/-- The program that a text is, with its slots filled by the analysis. -/
def Program.ofTextAnalyzed (text : String) : Except Error Program := do
  let program ← Program.ofText text
  let visit := program.analyze .fresh
  match visit.result with
  | .error error => .error (.type error)
  | .ok () => .ok visit.tree

/-- A program written in Java. -/
structure Compilation where
  /-- The Java text. -/
  java : String
  /-- The builtins that the program calls. -/
  builtins : List Builtin

/-- Writes a program in Java. -/
def Program.compile (program : Program) : Compilation :=
  ⟨Java.generate program, Builtin.usedBy program⟩

/-- Analyses the program that a text is and writes it in Java. -/
def Compilation.ofText (text : String) : Except Error Compilation :=
  (Program.ofTextAnalyzed text).map Program.compile

/-- What a run of a program without a host leaves behind. -/
structure Execution where
  /-- The result of `main`, or why there is none. -/
  result : Except Error Value
  /-- The text written before the end. -/
  output : String

/-- What a run leaves behind, unless it needs more fuel. -/
def Outcome.execution? : Outcome Value → Option Execution
  | .done value machine => some ⟨.ok value, machine.host.output.text⟩
  | .failed error machine => some ⟨.error (.runtime error), machine.host.output.text⟩
  | .exhausted => none

/-- Analyses and runs the program that a text is, within some fuel. -/
def Execution.ofText? (fuel : Nat) (text : String) : Option Execution :=
  match Program.ofTextAnalyzed text with
  | .error error => some ⟨.error error, ""⟩
  | .ok program => (Machine.interpret fuel program (.fresh none)).execution?

end LetDef
