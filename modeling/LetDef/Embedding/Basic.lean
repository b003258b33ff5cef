import LetDef.Embedding.Types
import LetDef.Machine.Evaluation
import LetDef.Typing.Analysis

/-!
# Embeddings

What a host puts around programs: object types, objects, variables and functions that programs
see, and a limit for their output. Every variable and function can be known to the analysis, to
runs, or to both.
-/
namespace LetDef

/-- An object of a host. -/
structure ObjectDeclaration where
  /-- The name of its type. -/
  typeName : String
  /-- Its fields with their values in order. -/
  fields : List (String × Value)
  /-- Its methods in order, by name and number of arguments, the object included. -/
  methods : List (String × Nat × HostFunction)

/-- A variable of a host. -/
structure VariableDeclaration where
  /-- The name written in programs. -/
  name : String
  /-- The name written in generated Java. -/
  renderName : String
  /-- The key of its type, if the analysis knows it. -/
  type : Option String
  /-- Its value, if runs know it. -/
  value : Option Value

/-- A function of a host. -/
structure FunctionDeclaration where
  /-- The name written in programs. -/
  name : String
  /-- The name written in generated Java. -/
  renderName : String
  /-- The number of arguments that it is found under. -/
  arity : Nat
  /-- The keys of the types of its parameters. -/
  parameters : List String
  /-- The key of the type of its results, if the analysis knows it. -/
  returns : Option String
  /-- What it does, if runs know it. -/
  native : Option HostFunction

/-- When the builtins are defined in the scopes of a host. -/
inductive BuiltinPlace where
  /-- Before everything else. -/
  | first
  /-- After everything else. -/
  | last
  /-- Not at all. -/
  | absent

/-- The scopes of a host. -/
structure ParentDeclaration where
  /-- When the builtins are defined. -/
  builtins : BuiltinPlace
  /-- The variables in order. -/
  hostVariables : List VariableDeclaration
  /-- The functions in order. -/
  hostFunctions : List FunctionDeclaration

/-- What a host puts around programs. -/
structure Embedding where
  /-- The object types in order. -/
  types : List TypeDeclaration
  /-- The objects in order, which are numbered from zero. -/
  objects : List ObjectDeclaration
  /-- How many bytes a step may write. -/
  outputLimit : Option Nat
  /-- The scopes of the host. Without them programs see the builtins alone. -/
  parent : Option ParentDeclaration

/-- The scopes of a host, for the analysis and for runs. -/
structure Surroundings where
  /-- The scopes of the analysis. -/
  analysis : Store Variable Signature
  /-- The scopes of runs. -/
  runtime : Store Value Callable

namespace Embedding

/-- Binds names that have to be different. -/
def bindAll {κ α : Type} [DecidableEq κ] (name : κ → String) :
    Bindings κ α → List (κ × α) → Except EmbeddingError (Bindings κ α)
  | bindings, [] => .ok bindings
  | bindings, (key, value) :: rest =>
    if bindings.contains key then .error (.redefined (name key))
    else bindAll name (bindings.bind key value) rest

/-- The fields of an object. -/
def objectFields (declaration : ObjectDeclaration) :
    Except EmbeddingError (Bindings String Value) :=
  bindAll id .empty declaration.fields

/-- The methods of an object. -/
def objectMethods (declaration : ObjectDeclaration) :
    Except EmbeddingError (Bindings (String × Nat) Callable) :=
  bindAll Prod.fst .empty
    (declaration.methods.map fun (name, arity, run) => ((name, arity), .native run))

/-- The fields and the methods of an object. -/
def objectMembers (declaration : ObjectDeclaration) :
    Except EmbeddingError (Bindings String Value × Bindings (String × Nat) Callable) := do
  let fields ← objectFields declaration
  let methods ← objectMethods declaration
  .ok (fields, methods)

/-- Requires that a name could be defined. -/
def defined {α : Type} (name : String) : Bool × α → Except EmbeddingError α
  | (true, value) => .ok value
  | (false, _) => .error (.redefined name)

/-- Defines a variable in the scopes that know it. -/
def addVariable (space : TypeSpace) (scope : FrameId) (around : Surroundings)
    (declaration : VariableDeclaration) : Except EmbeddingError Surroundings := do
  let analysis ←
    match declaration.type with
    | some key =>
      let type ← space.get key
      defined declaration.name
        (around.analysis.defineVariable scope declaration.name
          ⟨declaration.name, declaration.renderName, type⟩)
    | none => .ok around.analysis
  let runtime ←
    match declaration.value with
    | some value =>
      defined declaration.name
        (around.runtime.defineVariable scope declaration.name value)
    | none => .ok around.runtime
  .ok ⟨analysis, runtime⟩

/-- Defines a function in the scopes that know it. -/
def addFunction (space : TypeSpace) (scope : FrameId) (around : Surroundings)
    (declaration : FunctionDeclaration) : Except EmbeddingError Surroundings := do
  let analysis ←
    match declaration.returns with
    | some key =>
      let parameters ← declaration.parameters.mapM space.get
      let returns ← space.get key
      defined declaration.name
        (around.analysis.defineFunction scope declaration.name declaration.arity
          ⟨declaration.name, declaration.renderName, parameters, returns⟩)
    | none => .ok around.analysis
  let runtime ←
    match declaration.native with
    | some run =>
      defined declaration.name
        (around.runtime.defineFunction scope declaration.name declaration.arity (.native run))
    | none => .ok around.runtime
  .ok ⟨analysis, runtime⟩

/-- Requires that all builtins could be defined. -/
def builtinsDefined {α : Type} : Option Builtin × α → Except EmbeddingError α
  | (none, value) => .ok value
  | (some builtin, _) => .error (.error (.runtime (.builtinDefined builtin.name builtin.arity)))

/-- Defines the builtins in both scopes. -/
def addBuiltins (scope : FrameId) (around : Surroundings) :
    Except EmbeddingError Surroundings := do
  let analysis ← builtinsDefined (Builtin.defineSignatures around.analysis scope Builtin.all)
  let runtime ← builtinsDefined (Builtin.defineCallables around.runtime scope Builtin.all)
  .ok ⟨analysis, runtime⟩

/-- The scopes of a host, which are the first of their stores. -/
def surroundings (space : TypeSpace) (declaration : ParentDeclaration) :
    Except EmbeddingError (FrameId × Surroundings) := do
  let (scope, analysis) := Store.empty.root
  let (_, runtime) := Store.empty.root
  let bare : Surroundings := ⟨analysis, runtime⟩
  let start ←
    match declaration.builtins with
    | .first => addBuiltins scope bare
    | .last | .absent => .ok bare
  let withVariables ← declaration.hostVariables.foldlM (addVariable space scope) start
  let withFunctions ← declaration.hostFunctions.foldlM (addFunction space scope) withVariables
  let done ←
    match declaration.builtins with
    | .last => addBuiltins scope withFunctions
    | .first | .absent => .ok withFunctions
  .ok (scope, done)

end Embedding

end LetDef
