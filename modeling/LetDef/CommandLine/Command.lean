import LetDef.CommandLine.Directory
import LetDef.CommandLine.Options
import LetDef.Compilation
import LetDef.Program.Outline

/-!
# Commands

A command reads a source text, writes it in another form and, if it is told to, runs the program.
What it needs of its surroundings is a `World`, of which `Desk.world` is one in memory. A failure
ends the command at once: what has been written before stays.
-/
namespace LetDef.CommandLine

/-- What a command needs of its surroundings. -/
structure World (m : Type → Type) where
  /-- Reads standard input. -/
  readInput : m (Except FileError String)
  /-- Reads a file. -/
  readFile : String → m (Except FileError String)
  /-- Makes a directory with all directories on the way to it. -/
  makePath : String → m (Except FileError Unit)
  /-- Writes a file. -/
  writeFile : String → String → m (Except FileError Unit)
  /-- Writes to standard output. -/
  print : String → m Unit

/-- Why a command ends early. -/
inductive Failure where
  /-- The program is at fault. -/
  | program (error : Error)
  /-- A file is at fault; the text says what was tried. -/
  | file (attempt : String) (error : FileError)
  /-- The run needs more fuel. -/
  | exhausted

/-- The report about a failure. -/
def Failure.report : Failure → String
  | .program error => "Error: " ++ error.message ++ "\n"
  | .file attempt error =>
    "Error: " ++ attempt ++ "\n\nCaused by:\n    " ++ error.message ++ "\n"
  | .exhausted => "Error: the run takes too long\n"

/-- The line of a token. -/
def tokenLine (token : Token) : String :=
  token.kind.name ++ " " ++ Text.quoted token.literal ++ " @" ++ toString token.index ++ "\n"

/-- A source text in the form that is asked for. -/
def Emission.render (emission : Emission) (source : String) : Except Error String :=
  match emission with
  | .java => (Compilation.ofText source).map (·.java ++ "\n")
  | .tokens =>
    match Token.scan source with
    | .ok found => .ok (String.join (found.map tokenLine))
    | .error error => .error (.lex error)
  | .outline => (Program.ofText source).map fun program => (Outline.program program).render ++ "\n"

/-- The name and the number of this version. -/
def versionText : String := "plc-cli 0.1.0\n"

/-- The options with their meaning. -/
def helpText : String :=
  "Compile PLC programs to Java or run them directly\n\nUsage: plc-cli [OPTIONS]\n\nOptions:\n"
    ++ "  -i, --input <PATH>   Source file; read from stdin when omitted\n"
    ++ "  -o, --output <PATH>  Output file; written to stdout when omitted\n"
    ++ "      --emit <FORMAT>  Output format: java, tokens, ast\n"
    ++ "      --run            Interpret the program after emitting it\n"
    ++ "  -v, --verbose...     Raise log verbosity\n"
    ++ "  -h, --help           Print help\n"
    ++ "  -V, --version        Print version\n"

section

variable {m : Type → Type} [Monad m]

/-- Goes on with what an attempt yields. -/
def attempt {α : Type} (described : String) (action : m (Except FileError α)) :
    ExceptT Failure m α := do
  match ← action with
  | .ok value => pure value
  | .error error => throw (.file described error)

/-- Reads the source text. -/
def readSource (world : World m) : Option String → ExceptT Failure m String
  | some path => attempt ("failed to read input file " ++ path) (world.readFile path)
  | none => attempt "failed to read source from stdin" world.readInput

/-- Makes the directory that is to hold a file, unless that is the current one. -/
def makeParent (world : World m) (path : String) : ExceptT Failure m Unit :=
  match Path.parent? path with
  | none | some "" => pure ()
  | some parent => attempt ("failed to create directory " ++ parent) (world.makePath parent)

/-- Writes the result. -/
def writeResult (world : World m) (text : String) : Option String → ExceptT Failure m Unit
  | some path => do
    makeParent world path
    attempt ("failed to write output file " ++ path) (world.writeFile path text)
  | none => world.print text

/-- Goes on with what does not fail because of the program. -/
def sound {α : Type} : Except Error α → ExceptT Failure m α
  | .ok value => pure value
  | .error error => throw (.program error)

/-- Runs the program of a source text and writes what it writes, and its result. -/
def runSource (fuel : Nat) (world : World m) (source : String) : ExceptT Failure m Unit :=
  match Execution.ofText? fuel source with
  | none => throw .exhausted
  | some execution => do
    world.print execution.output
    let value ← sound execution.result
    world.print ("Program exited with " ++ value.display ++ "\n")

/-- Carries out a command. -/
def Options.execute (fuel : Nat) (world : World m) (options : Options) :
    ExceptT Failure m Unit := do
  let source ← readSource world options.input
  let text ← sound (options.emission.render source)
  writeResult world text options.output
  if options.run then runSource fuel world source

/-- How a command ends: its exit status, and the report of its failure, if any. -/
structure Ending where
  /-- The exit status. -/
  status : Nat
  /-- The report of the failure. -/
  report : Option String
  deriving DecidableEq

/-- Carries out what is asked for. -/
def Invocation.perform (fuel : Nat) (world : World m) : Invocation → m Ending
  | .execute options => do
    match ← (options.execute fuel world).run with
    | .ok () => pure ⟨0, none⟩
    | .error failure => pure ⟨1, some failure.report⟩
  | .version => do
    world.print versionText
    pure ⟨0, none⟩
  | .help => do
    world.print helpText
    pure ⟨0, none⟩
  | .refused => pure ⟨2, none⟩

end

/-- Surroundings in memory. -/
structure Desk where
  /-- The bytes of standard input. -/
  input : ByteArray
  /-- The current directory. -/
  directory : Directory
  /-- What has been written to standard output. -/
  printed : String

namespace Desk

/-- The text of bytes. -/
def decode (bytes : ByteArray) : Except FileError String :=
  match String.fromUTF8? bytes with
  | some text => .ok text
  | none => .error .notText

/-- A desk is all that a command needs. -/
def world : World (StateM Desk) where
  readInput := fun desk => (decode desk.input, desk)
  readFile path := fun desk => (desk.directory.read path, desk)
  makePath path := fun desk =>
    let (directory, result) := desk.directory.makePath path
    (result, { desk with directory })
  writeFile path text := fun desk =>
    match desk.directory.write path text with
    | .ok directory => (.ok (), { desk with directory })
    | .error error => (.error error, desk)
  print text := fun desk => ((), { desk with printed := desk.printed ++ text })

end Desk

end LetDef.CommandLine
