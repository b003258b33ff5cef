import LetDef.Builtin
import LetDef.Machine.Output
import LetDef.Scope.Store
import LetDef.Value.Operation

/-!
# The state of a run

A `Machine` holds the scopes of a run as the analysis holds its own: a base scope of the host or
with the builtins, a global scope inside it, and the active scope. Functions are methods of the
program, which remember the scope they were defined in without owning it, or functions of the
host, which act on the output and on the fields of objects alone.
-/
namespace LetDef

/-- What functions of the host act on. -/
structure Host where
  /-- What has been written. -/
  output : Output
  /-- The fields of the objects by their numbers. -/
  fields : Array (Bindings String Value)

/-- A function of the host: what it makes of its surroundings and its arguments. -/
abbrev HostFunction : Type :=
  Host → List Value → Except RuntimeError Value × Host

/-- Something that can be called. -/
inductive Callable where
  /-- A function of the host. -/
  | native (run : HostFunction)
  /-- A method of a program and the scope that it was defined in. -/
  | method (declared : Method) (closure : FrameId)

/-- A one-line description of a callable. -/
def Callable.describe : Callable → String
  | .native _ => "Native(" ++ Text.quoted "fn" ++ ")"
  | .method declared _ => "Method(" ++ Text.quoted declared.name ++ ")"

namespace Host

/-- Writes the texts of the arguments, each on a line of its own. -/
def print (host : Host) : List Value → Except RuntimeError Value × Host
  | [] => (.ok .nil, host)
  | first :: rest =>
    match host with
    | ⟨output, fields⟩ =>
      match output.write (first.display ++ "\n") with
      | (true, output) => print ⟨output, fields⟩ rest
      | (false, output) => (.error .printFailed, ⟨output, fields⟩)

/-- A field of an object. -/
def field? (host : Host) (id : Nat) (name : String) : Option Value :=
  host.fields[id]?.bind fun fields => fields.get? name

/-- Overwrites a field of an object, and whether there is one of that name. -/
def assign (host : Host) (id : Nat) (name : String) (value : Value) : Bool × Host :=
  if (host.field? id name).isSome then
    match host with
    | ⟨output, fields⟩ => (true, ⟨output, fields.modify id (·.bind name value)⟩)
  else (false, host)

end Host

/-- What calling a builtin does. -/
def Builtin.callable : Builtin → Callable
  | .print => .native Host.print

/-- The state of a run. -/
structure Machine where
  /-- All scopes. -/
  store : Store Value Callable
  /-- The output and the fields of objects. -/
  host : Host
  /-- The methods of the objects by their numbers. -/
  methods : Array (Bindings (String × Nat) Callable)
  /-- The scope around the global one. -/
  base : FrameId
  /-- The scope of fields and methods. -/
  globals : FrameId
  /-- The scope in which names are looked up and defined. -/
  active : FrameId

/-- Gives a scope the builtins, and the first one that it already has, if any. -/
def Builtin.defineCallables (store : Store Value Callable) (scope : FrameId) :
    List Builtin → Option Builtin × Store Value Callable
  | [] => (none, store)
  | first :: rest =>
    match store.defineFunction scope first.name first.arity first.callable with
    | (true, store) => defineCallables store scope rest
    | (false, store) => (some first, store)

namespace Machine

/-- A machine inside a base scope, of which it takes one ownership. The global scope has two
owners: the machine and its active place. -/
def inside (store : Store Value Callable) (base : FrameId) (host : Host)
    (methods : Array (Bindings (String × Nat) Callable)) : Machine :=
  let (globals, store) := store.child base
  ⟨store.retain globals, host, methods, base, globals, globals⟩

/-- A machine for programs without a host. -/
def fresh (limit : Option Nat) : Machine :=
  let (base, store) := Store.empty.root
  let (_, store) := Builtin.defineCallables store base Builtin.all
  inside store base ⟨.empty limit, #[]⟩ #[]

/-- Gives up the scopes that the machine owns. -/
def close (machine : Machine) : Store Value Callable :=
  ((machine.store.release machine.active).release machine.globals).release machine.base

/-- Changes the scopes. -/
@[inline] def onStore {α : Type} (machine : Machine)
    (change : Store Value Callable → α × Store Value Callable) : α × Machine :=
  match machine with
  | ⟨store, host, methods, base, globals, active⟩ =>
    match change store with
    | (value, store) => (value, ⟨store, host, methods, base, globals, active⟩)

/-- Changes what functions of the host act on. -/
@[inline] def onHost {α : Type} (machine : Machine) (change : Host → α × Host) : α × Machine :=
  match machine with
  | ⟨store, host, methods, base, globals, active⟩ =>
    match change host with
    | (value, host) => (value, ⟨store, host, methods, base, globals, active⟩)

/-- The nearest variable of a name. -/
def findVariable? (machine : Machine) (name : String) : Option Value :=
  machine.store.findVariable? machine.active name

/-- The nearest function of a name and a number of arguments. -/
def findFunction? (machine : Machine) (name : String) (arity : Nat) : Option Callable :=
  machine.store.findFunction? machine.active name arity

/-- Adds a variable to the active scope, and whether that was possible. -/
def define (machine : Machine) (name : String) (value : Value) : Bool × Machine :=
  let active := machine.active
  machine.onStore (·.defineVariable active name value)

/-- Adds variables to the active scope, and the first name that it already binds, if any. -/
def defineAll (machine : Machine) : List (String × Value) → Option String × Machine
  | [] => (none, machine)
  | (name, value) :: rest =>
    match machine.define name value with
    | (true, machine) => machine.defineAll rest
    | (false, machine) => (some name, machine)

/-- Adds a method to the active scope, and whether that was possible. The method remembers that
scope. -/
def defineMethod (machine : Machine) (declared : Method) : Bool × Machine :=
  let active := machine.active
  machine.onStore
    (·.defineFunction active declared.name declared.parameters.length (.method declared active))

/-- Overwrites the nearest variable of a name, and whether there was one. -/
def assign (machine : Machine) (name : String) (value : Value) : Bool × Machine :=
  let active := machine.active
  machine.onStore (·.assignVariable active name value)

/-- A field of a value, which has to be an object. -/
def field (machine : Machine) (owner : Value) (name : String) : Except RuntimeError Value :=
  match owner with
  | .object typeName id =>
    match machine.host.field? id name with
    | some value => .ok value
    | none => .error (.objectField typeName name)
  | owner => .error (.valueField owner.kind name)

/-- Overwrites a field of a value, which has to be an object. -/
def assignField (machine : Machine) (owner : Value) (name : String) (value : Value) :
    Except RuntimeError Unit × Machine :=
  match owner with
  | .object typeName id =>
    match machine.onHost (·.assign id name value) with
    | (true, machine) => (.ok (), machine)
    | (false, machine) => (.error (.objectField typeName name), machine)
  | owner => (.error (.valueField owner.kind name), machine)

/-- A method of a value, which has to be an object. The object is one more argument. -/
def method (machine : Machine) (owner : Value) (name : String) (arity : Nat) :
    Except RuntimeError Callable :=
  match owner with
  | .object typeName id =>
    match machine.methods[id]?.bind fun methods => methods.get? (name, arity + 1) with
    | some callable => .ok callable
    | none => .error (.objectMethod typeName name arity)
  | owner => .error (.valueMethod owner.kind name)

/-- Makes a new scope inside the active one and enters it. -/
def enter (machine : Machine) : Machine :=
  match machine with
  | ⟨store, host, methods, base, globals, active⟩ =>
    match store.child active with
    | (active, store) => ⟨store, host, methods, base, globals, active⟩

/-- Makes a new scope inside the one that a method was defined in, which it owns from then on, and
enters it. -/
def enterMethod (machine : Machine) (closure : FrameId) : Machine :=
  match machine with
  | ⟨store, host, methods, base, globals, _⟩ =>
    match (store.retain closure).child closure with
    | (active, store) => ⟨store, host, methods, base, globals, active⟩

/-- Gives up the active scope and goes back to another. -/
def leave (machine : Machine) (scope : FrameId) : Machine :=
  match machine with
  | ⟨store, host, methods, base, globals, active⟩ =>
    ⟨store.release active, host, methods, base, globals, scope⟩

/-- Gives up the active scope of a method and the scope that the method was defined in, and goes
back to another. -/
def leaveMethod (machine : Machine) (closure scope : FrameId) : Machine :=
  match machine.leave scope with
  | ⟨store, host, methods, base, globals, active⟩ =>
    ⟨store.release closure, host, methods, base, globals, active⟩

end Machine

end LetDef
