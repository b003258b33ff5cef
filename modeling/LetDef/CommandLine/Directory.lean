import LetDef.CommandLine.Path
import LetDef.Scope.Bindings

/-!
# Directories in memory

A directory holds files and further directories under names. The operations answer the same
errors as those of a file system: a name on the way that is missing, or that names a file, a last
name that names the wrong thing, and a name or path that is too long. Paths lead from the working
directory, or from the outermost one if they begin with a slash. The directory above the outermost
one is that one itself.
-/
namespace LetDef.CommandLine

/-- Why a file or directory cannot be used. -/
inductive FileError where
  /-- A name on the path is missing. -/
  | notFound
  /-- There is a file where a directory is to be made. -/
  | alreadyExists
  /-- A name on the way is that of a file. -/
  | notDirectory
  /-- The path is that of a directory. -/
  | isDirectory
  /-- A name on the path, or the path, has too many bytes. -/
  | nameTooLong
  /-- The bytes are not a text. -/
  | notText
  /-- Another reason. -/
  | other (reason : String)
  deriving DecidableEq

/-- The wording of an error. -/
def FileError.message : FileError → String
  | .notFound => "No such file or directory (os error 2)"
  | .alreadyExists => "File exists (os error 17)"
  | .notDirectory => "Not a directory (os error 20)"
  | .isDirectory => "Is a directory (os error 21)"
  | .nameTooLong => "File name too long (os error 36)"
  | .notText => "stream did not contain valid UTF-8"
  | .other reason => reason

/-- What is under the names of paths. -/
structure Directory where
  /-- The texts of the files by the names on the way to them. -/
  files : Bindings (List String) String
  /-- The names on the way to the directories, the outermost one apart. -/
  folders : List (List String)

/-- Something with a path. -/
inductive Entry where
  /-- A file with its text. -/
  | file (text : String)
  /-- A directory. -/
  | folder

namespace Directory

/-- The names on the way to the working directory. Its own name is empty, as no part of a path
is. -/
def home : List String := [""]

/-- Nothing but the working directory, with nothing in it. -/
def empty : Directory := ⟨.empty, [home]⟩

/-- What has these names on the way to it. -/
def find? (directory : Directory) (names : List String) : Option Entry :=
  match directory.files.get? names with
  | some text => some (.file text)
  | none => if names.isEmpty || directory.folders.contains names then some .folder else none

/-- What a path names has to be a directory. -/
def expectFolder (directory : Directory) (names : List String) : Except FileError Unit :=
  match directory.find? names with
  | none => .error .notFound
  | some (.file _) => .error .notDirectory
  | some .folder => .ok ()

/-- The place that a part of a path leads to from a directory. -/
def step (names : List String) (part : String) : Except FileError (List String) :=
  if part = "." then .ok names
  else if part = ".." then .ok names.dropLast
  else if Path.nameLimit < part.utf8ByteSize then .error .nameTooLong
  else .ok (names ++ [part])

/-- The place that parts of a path lead to. Everything on the way has to be a directory; the place
itself may be missing. -/
def follow (directory : Directory) (names : List String) :
    List String → Except FileError (List String)
  | [] => .ok names
  | part :: rest => do
    directory.expectFolder names
    directory.follow (← step names part) rest

/-- The directory that parts of a path lead to. -/
def enter (directory : Directory) (names parts : List String) :
    Except FileError (List String) := do
  let found ← directory.follow names parts
  directory.expectFolder found
  return found

/-- The parts of a path that is not too long. -/
def partsOf (path : String) : Except FileError (List String) :=
  if Path.lengthLimit < path.utf8ByteSize then .error .nameTooLong else .ok (Path.parts path)

/-- The names on the way to the directory that a path leads from. -/
def start (path : String) : List String :=
  if Path.isAbsolute path then [] else home

/-- The text of a file. -/
def read (directory : Directory) (path : String) : Except FileError String := do
  let names ← directory.follow (start path) (← partsOf path)
  match directory.find? names with
  | none => .error .notFound
  | some .folder => .error .isDirectory
  | some (.file text) => if Path.namesDirectory path then .error .notDirectory else .ok text

/-- Writes a file, whether there is one or not. A path that ends with a slash is refused as soon
as the directory around what it names is found. -/
def write (directory : Directory) (path text : String) : Except FileError Directory := do
  let parts ← partsOf path
  if Path.namesDirectory path then
    let _ ← directory.enter (start path) parts.dropLast
    .error .isDirectory
  else
    let names ← directory.follow (start path) parts
    match directory.find? names with
    | some .folder => .error .isDirectory
    | _ => .ok { directory with files := directory.files.bind names text }

/-- Makes the directory of a name in the directory that parts of a path lead to, unless it is
there. -/
def makeFolder (directory : Directory) (names before : List String) (name : String) :
    Except FileError Directory := do
  let made ← step (← directory.enter names before) name
  match directory.find? made with
  | none => .ok { directory with folders := made :: directory.folders }
  | some .folder => .ok directory
  | some (.file _) => .error .alreadyExists

/-- Makes the directory that parts of a path lead to; the last part stands first. Only if something
on the way is missing, the directory around it is made before. What has been made stays, also if
the rest cannot be made. -/
def makeAll (directory : Directory) (names : List String) :
    List String → Directory × Except FileError Unit
  | [] => (directory, .ok ())
  | last :: before =>
    match directory.makeFolder names before.reverse last with
    | .ok made => (made, .ok ())
    | .error .notFound =>
      match directory.makeAll names before with
      | (around, .ok ()) =>
        match around.makeFolder names before.reverse last with
        | .ok made => (made, .ok ())
        | .error error => (around, .error error)
      | failed => failed
    | .error error => (directory, .error error)

/-- Makes a directory and all directories on the way to it, as far as they are missing. -/
def makePath (directory : Directory) (path : String) : Directory × Except FileError Unit :=
  match partsOf path with
  | .ok parts => directory.makeAll (start path) parts.reverse
  | .error error => (directory, .error error)

/-- Adds a file with the directories on the way to it, as far as that is possible. -/
def add (directory : Directory) (path text : String) : Directory :=
  let around :=
    match Path.parent? path with
    | none => directory
    | some parent => (directory.makePath parent).1
  (around.write path text).toOption.getD around

/-- The directory of some files with their paths. -/
def ofFiles (files : List (String × String)) : Directory :=
  files.foldl (fun directory (path, text) => directory.add path text) .empty

end Directory

end LetDef.CommandLine
