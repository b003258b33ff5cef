import LetDef.CommandLine.Command

/-!
# The command

The command with the files and the streams of a real system around it.
-/
namespace LetDef.CommandLine

/-- An amount of fuel that no run uses up. -/
def ample : Nat := Nat.pow 10 18

/-- The cause that an error of the system stands for. -/
def FileError.ofSystem : IO.Error → FileError
  | .noFileOrDirectory _ _ _ => .notFound
  | .alreadyExists _ _ _ => .alreadyExists
  | .inappropriateType _ 20 _ => .notDirectory
  | .inappropriateType _ 21 _ => .isDirectory
  | .invalidArgument _ 36 _ => .nameTooLong
  | error => .other (toString error)

/-- The result of an action, or the cause for which there is none. -/
def observe {α : Type} (action : IO α) : IO (Except FileError α) := do
  try
    return .ok (← action)
  catch error =>
    return .error (.ofSystem error)

/-- The text of bytes that an action yields. -/
def observeText (action : IO ByteArray) : IO (Except FileError String) := do
  return (← observe action).bind Desk.decode

/-- All bytes of a stream after those that have been read. -/
partial def readAll (stream : IO.FS.Stream) (before : ByteArray) : IO ByteArray := do
  let more ← stream.read 65536
  if more.isEmpty then return before
  readAll stream (before ++ more)

/-- A path leads to a directory. -/
def isFolder (path : String) : IO Bool := do
  try
    (← IO.FS.realPath path).isDir
  catch _ =>
    return false

/-- Makes a directory, unless it is there. -/
def makeFolder (path : String) : IO (Except FileError Unit) := do
  match ← observe (IO.FS.createDir path) with
  | .error .alreadyExists =>
    return if ← isFolder path then .ok () else .error .alreadyExists
  | result => return result

/-- Makes a directory and all directories on the way to it, as far as they are missing. -/
partial def makePath (path : String) : IO (Except FileError Unit) := do
  match ← makeFolder path, Path.parent? path with
  | .error .notFound, some parent =>
    match ← makePath parent with
    | .ok () => makeFolder path
    | failed => return failed
  | result, _ => return result

/-- The real system. -/
def system : World IO where
  readInput := observeText do readAll (← IO.getStdin) .empty
  readFile path := observeText (IO.FS.readBinFile path)
  makePath := makePath
  writeFile path text := observe (IO.FS.writeFile path text)
  print text := do
    let output ← IO.getStdout
    output.putStr text
    output.flush

/-- What is reported about words that make no sense. -/
def refusal : String := "error: unexpected arguments\n\n" ++ helpText

/-- Carries out what the words of a command ask for. The result is its exit status. -/
def command (arguments : List String) : IO UInt32 := do
  let invocation := Invocation.ofArguments arguments
  let ending ← invocation.perform ample system
  match ending.report with
  | some report => IO.eprint report
  | none => if invocation = .refused then IO.eprint refusal
  return ending.status.toUInt32

end LetDef.CommandLine

/-- The command with its words. -/
def main (arguments : List String) : IO UInt32 :=
  LetDef.CommandLine.command arguments
