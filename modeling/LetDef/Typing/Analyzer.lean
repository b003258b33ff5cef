import LetDef.Builtin
import LetDef.Scope.Store
import LetDef.Typing.Rules

/-!
# The state of the analysis

An `Analyzer` holds the scopes that the analysis looks names up in. The base scope belongs to the
host or holds the builtins, the global scope inside it holds the fields and methods of programs,
and the active scope is where names are defined at the moment. A `Visit` is the outcome of
analysing one construct: the construct with the slots that could be filled, a result or the first
error, and the state, which is kept also after an error.
-/
namespace LetDef

/-- What the analysis knows. -/
structure Analyzer where
  /-- All scopes. -/
  store : Store Variable Signature
  /-- The scope around the global one. -/
  base : FrameId
  /-- The scope of fields and methods. -/
  globals : FrameId
  /-- The scope in which names are defined. -/
  active : FrameId
  /-- The type of the results of the method being analysed, if any. -/
  returns : Option Ty
  /-- The types that programs can name. -/
  types : TypeTable
  /-- The members of the object types. -/
  members : Array Members

/-- Gives a scope the builtins, and the first one that it already has, if any. -/
def Builtin.defineSignatures (store : Store Variable Signature) (scope : FrameId) :
    List Builtin → Option Builtin × Store Variable Signature
  | [] => (none, store)
  | first :: rest =>
    match store.defineFunction scope first.name first.arity first.signature with
    | (true, store) => defineSignatures store scope rest
    | (false, store) => (some first, store)

namespace Analyzer

/-- An analyzer inside a base scope, of which it takes one ownership. The global scope has two
owners: the analyzer and its active place. -/
def inside (store : Store Variable Signature) (base : FrameId) (types : TypeTable)
    (members : Array Members) : Analyzer :=
  let (globals, store) := store.child base
  ⟨store.retain globals, base, globals, globals, none, types, members⟩

/-- An analyzer for programs without a host. -/
def fresh : Analyzer :=
  let (base, store) := Store.empty.root
  let (_, store) := Builtin.defineSignatures store base Builtin.all
  inside store base .builtins #[]

/-- Gives up the scopes that the analyzer owns. -/
def close (analyzer : Analyzer) : Store Variable Signature :=
  ((analyzer.store.release analyzer.active).release analyzer.globals).release analyzer.base

/-- The nearest variable of a name. -/
def findVariable? (analyzer : Analyzer) (name : String) : Option Variable :=
  analyzer.store.findVariable? analyzer.active name

/-- The nearest function of a name and a number of arguments. -/
def findFunction? (analyzer : Analyzer) (name : String) (arity : Nat) : Option Signature :=
  analyzer.store.findFunction? analyzer.active name arity

/-- Adds a variable to the active scope. -/
def define (analyzer : Analyzer) (entry : Variable) : Except TypeError Unit × Analyzer :=
  match analyzer.store.defineVariable analyzer.active entry.name entry with
  | (true, store) => (.ok (), { analyzer with store })
  | (false, store) => (.error (.alreadyDefined entry.name), { analyzer with store })

/-- Adds a function to the active scope. -/
def defineFunction (analyzer : Analyzer) (function : Signature) :
    Except TypeError Unit × Analyzer :=
  match analyzer.store.defineFunction analyzer.active function.name function.arity function with
  | (true, store) => (.ok (), { analyzer with store })
  | (false, store) => (.error (.alreadyDefined function.name), { analyzer with store })

/-- Adds variables to the active scope, up to the first whose name it already binds. -/
def defineAll (analyzer : Analyzer) : List Variable → Except TypeError Unit × Analyzer
  | [] => (.ok (), analyzer)
  | first :: rest =>
    match analyzer.define first with
    | (.ok (), analyzer) => analyzer.defineAll rest
    | (.error error, analyzer) => (.error error, analyzer)

/-- Makes a field that was selected from an object known under its name in the active scope,
unless the scope itself binds that name. -/
def share (analyzer : Analyzer) (name : String) (field : Variable) : Analyzer :=
  { analyzer with
    store := (analyzer.store.defineVariable analyzer.active name field).2 }

/-- Makes a new scope inside the active one and enters it. -/
def enter (analyzer : Analyzer) : Analyzer :=
  let (active, store) := analyzer.store.child analyzer.active
  { analyzer with store, active }

/-- Gives up the active scope and goes back to another. -/
def leave (analyzer : Analyzer) (scope : FrameId) : Analyzer :=
  { analyzer with store := analyzer.store.release analyzer.active, active := scope }

end Analyzer

/-- The outcome of analysing a construct of type `τ`. -/
structure Visit (τ α : Type) where
  /-- The construct with the slots that have been filled. -/
  tree : τ
  /-- The result, or the first error. -/
  result : Except TypeError α
  /-- The state afterwards. -/
  analyzer : Analyzer

namespace Visit

variable {τ σ α β : Type}

/-- Goes on after a success; after an error only builds the construct around the part. -/
@[inline] def next (visit : Visit τ α) (build : τ → σ) (go : τ → α → Analyzer → Visit σ β) :
    Visit σ β :=
  match visit.result with
  | .ok value => go visit.tree value visit.analyzer
  | .error error => ⟨build visit.tree, .error error, visit.analyzer⟩

/-- Goes on after a check that has succeeded. -/
@[inline] def check (tree : τ) (result : Except TypeError α) (analyzer : Analyzer)
    (go : α → Visit τ β) : Visit τ β :=
  match result with
  | .ok value => go value
  | .error error => ⟨tree, .error error, analyzer⟩

/-- Goes on after a step of the state that has succeeded. -/
@[inline] def step (tree : τ) (outcome : Except TypeError α × Analyzer)
    (go : α → Analyzer → Visit τ β) : Visit τ β :=
  match outcome with
  | (.ok value, analyzer) => go value analyzer
  | (.error error, analyzer) => ⟨tree, .error error, analyzer⟩

/-- Fills a slot, which must be empty. -/
@[inline] def fill {ρ : Type} (build : Option ρ → τ) (slot : Option ρ) (found : ρ)
    (analyzer : Analyzer) (go : Option ρ → Visit τ α) : Visit τ α :=
  match slot with
  | none => go (some found)
  | some held => ⟨build (some held), .error .slotTaken, analyzer⟩

/-- Ends with a success. -/
@[inline] def done (tree : τ) (value : α) (analyzer : Analyzer) : Visit τ α :=
  ⟨tree, .ok value, analyzer⟩

/-- Ends with an error. -/
@[inline] def stop (tree : τ) (error : TypeError) (analyzer : Analyzer) : Visit τ α :=
  ⟨tree, .error error, analyzer⟩

end Visit

/-- Analyses something in a new scope inside the active one, and goes back to that in any case. -/
@[inline] def Analyzer.within {τ α : Type} (analyzer : Analyzer)
    (body : Analyzer → Visit τ α) : Visit τ α :=
  let visit := body analyzer.enter
  ⟨visit.tree, visit.result, visit.analyzer.leave analyzer.active⟩

end LetDef
