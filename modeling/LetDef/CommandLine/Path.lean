/-!
# Paths

A path is a text whose parts are separated by slashes. `Path.parent?` names the directory that
holds what a path names, and `Path.parts` lists the names on the way to it. The bytes of a name
and of a path are limited.
-/
namespace LetDef.CommandLine.Path

/-- The most bytes of one name. -/
def nameLimit : Nat := 255

/-- The most bytes of a path. -/
def lengthLimit : Nat := 4095

/-- The text without slashes and parts `.` at its beginning, read backwards. A part that is the
whole text stays. -/
def trimmed : List Char → List Char
  | '/' :: rest => trimmed rest
  | '.' :: '/' :: rest => trimmed rest
  | text => text

/-- The text of the directory that holds what a path names, empty for the current directory. The
root directory is held by none. -/
def parent? (path : String) : Option String :=
  match trimmed path.toList.reverse with
  | [] => none
  | last =>
    let before := last.dropWhile (· ≠ '/')
    match trimmed before with
    | [] => some (if before.isEmpty then "" else "/")
    | held => some (String.ofList held.reverse)

/-- The names between slashes, the last one first, for a text read backwards. -/
def split (name : List Char) : List Char → List (List Char)
  | [] => [name]
  | '/' :: rest => name :: split [] rest
  | char :: rest => split (char :: name) rest

/-- The names on the way to what a path names. -/
def parts (path : String) : List String :=
  (((split [] path.toList.reverse).filter (!·.isEmpty)).map String.ofList).reverse

/-- The path begins with a slash, so that it leads from the outermost directory. -/
def isAbsolute (path : String) : Bool :=
  path.toList.head? = some '/'

/-- The path ends with a slash, which only the path of a directory may do. -/
def namesDirectory (path : String) : Bool :=
  path.toList.getLast? = some '/'

end LetDef.CommandLine.Path
