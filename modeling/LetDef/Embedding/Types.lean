import LetDef.Error
import LetDef.Scope.Store
import LetDef.Typing.Rules

/-!
# Object types of a host

A host declares object types together, so that their fields and methods can refer to each other
by keys of the host's choice; the keys may differ from the names that programs write. Types exist
before their members are looked at.
-/
namespace LetDef

/-- Why an embedding cannot be built. -/
inductive EmbeddingError where
  /-- A scope or type already binds this name. -/
  | redefined (name : String)
  /-- Another error. -/
  | error (error : Error)

/-- A field of a declared object type. -/
structure FieldDeclaration where
  /-- The name written in programs. -/
  name : String
  /-- The name written in generated Java. -/
  renderName : String
  /-- The key or built-in name of its type. -/
  type : String

/-- A method of a declared object type. -/
structure MethodDeclaration where
  /-- The name written in programs. -/
  name : String
  /-- The name written in generated Java. -/
  renderName : String
  /-- The number of arguments that it is found under, the object included. -/
  arity : Nat
  /-- The keys or built-in names of the types of its parameters, the object included. -/
  parameters : List String
  /-- The key or built-in name of the type of its results. -/
  returns : String

/-- A declared object type. -/
structure TypeDeclaration where
  /-- The key that declarations use for it. -/
  key : String
  /-- The name written in programs. -/
  name : String
  /-- The name written in generated Java. -/
  renderName : String
  /-- Its fields in order. -/
  fields : List FieldDeclaration
  /-- Its methods in order. -/
  methods : List MethodDeclaration

/-- The object types of a host. -/
structure TypeSpace where
  /-- The types in order with their keys. -/
  types : List (String × Ty)
  /-- The members of the types. -/
  members : Array Members

namespace TypeSpace

/-- The types of declarations in order with their keys. -/
def keyed (declarations : List TypeDeclaration) : List (String × Ty) :=
  declarations.zipIdx.map fun (declared, index) =>
    (declared.key, .object ⟨declared.name, declared.renderName, index⟩)

/-- The type of a key. Built-in names come first; of two types with one key the first counts. -/
def find (types : List (String × Ty)) (key : String) : Except EmbeddingError Ty :=
  match Ty.builtins.find? (·.name = key) with
  | some type => .ok type
  | none =>
    match types.find? (·.1 = key) with
    | some (_, type) => .ok type
    | none => .error (.error (.type (.unknownType key)))

/-- Adds a field. -/
def addField (types : List (String × Ty)) (members : Members) (field : FieldDeclaration) :
    Except EmbeddingError Members := do
  let type ← find types field.type
  let found : Variable := ⟨field.name, field.renderName, type⟩
  if members.fields.contains field.name then .error (.redefined field.name)
  else .ok ⟨members.fields.bind field.name found, members.methods⟩

/-- Adds a method. -/
def addMethod (types : List (String × Ty)) (members : Members) (method : MethodDeclaration) :
    Except EmbeddingError Members := do
  let parameters ← method.parameters.mapM (find types)
  let returns ← find types method.returns
  let key := (method.name, method.arity)
  let found : Signature := ⟨method.name, method.renderName, parameters, returns⟩
  if members.methods.contains key then .error (.redefined method.name)
  else .ok ⟨members.fields, members.methods.bind key found⟩

/-- The members of a declared type. -/
def membersOf (types : List (String × Ty)) (declared : TypeDeclaration) :
    Except EmbeddingError Members := do
  let withFields ← declared.fields.foldlM (addField types) .empty
  declared.methods.foldlM (addMethod types) withFields

/-- The object types of some declarations. -/
def ofDeclarations (declarations : List TypeDeclaration) : Except EmbeddingError TypeSpace := do
  let types := keyed declarations
  let members ← declarations.mapM (membersOf types)
  .ok ⟨types, members.toArray⟩

/-- The type of a key. -/
def get (space : TypeSpace) (key : String) : Except EmbeddingError Ty :=
  find space.types key

/-- The built-in types and all types of the host, which have to have different names. -/
def table (space : TypeSpace) : Except TypeError TypeTable :=
  (space.types.map Prod.snd).foldlM TypeTable.register .builtins

end TypeSpace

/-- A one-line description of a type. -/
def Ty.describe : Ty → String
  | .object type => "Object(ObjectType(" ++ Text.quoted type.name ++ "))"
  | type => type.name

/-- A one-line description of the members of a type. -/
def Members.describe (members : Members) : String :=
  Store.describe members.fields.keys members.methods.size

end LetDef
