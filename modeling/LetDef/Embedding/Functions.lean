import LetDef.Machine.Basic

/-!
# Functions of a host

A small set of functions that a host can give to programs: they inspect their arguments, make
lists, write to the output and read and write the fields of objects.
-/
namespace LetDef.HostFunction

/-- A function that acts on its arguments alone. -/
def pure (run : List Value → Except RuntimeError Value) : HostFunction :=
  fun host arguments => (run arguments, host)

/-- The largest number that `range` takes. -/
def rangeLimit : Int := 10000

/-- The list of the integers from zero below its argument. -/
def range : HostFunction :=
  pure fun
    | [.integer count] =>
      if rangeLimit < count then .error (.host "range too large") else .ok (.range count.toNat)
    | _ => .error (.host "range expects an Integer")

/-- The first argument. -/
def identity : HostFunction :=
  pure fun arguments => .ok (arguments.headD .nil)

/-- The number of arguments. -/
def count : HostFunction :=
  pure fun arguments => .ok (.integer arguments.length)

/-- The list of the arguments. -/
def list : HostFunction :=
  pure fun arguments => .ok (.iterable arguments)

/-- The name of the kind of the first argument. -/
def kind : HostFunction :=
  pure fun arguments =>
    .ok (.string ((arguments.head?.map fun value => value.kind.name).getD "none"))

/-- Writes the texts of the arguments on one line. -/
def echo : HostFunction := fun host arguments =>
  let line := "<" ++ "|".intercalate (arguments.map Value.display) ++ ">\n"
  match host with
  | ⟨output, fields⟩ =>
    match output.write line with
    | (true, output) => (.ok .nil, ⟨output, fields⟩)
    | (false, output) => (.error (.host outputFull), ⟨output, fields⟩)

/-- The words of a function that needs an object and the name of a field. -/
def needsField : RuntimeError := .host "expected object and name"

/-- A field of an object, `NIL` if there is none of that name. -/
def get : HostFunction := fun host arguments =>
  match arguments with
  | .object _ id :: .string name :: _ => (.ok ((host.field? id name).getD .nil), host)
  | _ => (.error needsField, host)

/-- Overwrites a field of an object, and whether there is one of that name. -/
def set : HostFunction := fun host arguments =>
  match arguments with
  | .object _ id :: .string name :: rest =>
    match host.assign id name (rest.headD .nil) with
    | (assigned, host) => (.ok (.boolean assigned), host)
  | _ => (.error needsField, host)

/-- Always fails. -/
def fail : HostFunction :=
  pure fun _ => .error (.host "host failure")

/-- The function of a name; a name that stands for none fails when it is called. -/
def named : String → HostFunction
  | "range" => range
  | "identity" => identity
  | "count" => count
  | "list" => list
  | "kind" => kind
  | "echo" => echo
  | "get" => get
  | "set" => set
  | _ => fail

end LetDef.HostFunction
