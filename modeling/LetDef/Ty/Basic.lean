/-!
# Types

The language has nine built-in types; a host that embeds it may add object types, which have
fields and methods. Types are named: two object types of one name are the same type
(`Ty.same`), whatever their members.
-/
namespace LetDef

/-- A type that a host adds. -/
structure ObjectType where
  /-- The name written in programs. -/
  name : String
  /-- The name written in generated Java. -/
  renderName : String
  /-- Which of the host's member tables holds its fields and methods. -/
  members : Nat
  deriving DecidableEq

/-- A type of the language. -/
inductive Ty where
  /-- Every value. -/
  | any
  /-- The value `NIL` alone. -/
  | nil
  /-- Integers, decimals, characters and strings. -/
  | comparable
  /-- Truth values. -/
  | boolean
  /-- Whole numbers. -/
  | integer
  /-- Decimal numbers. -/
  | decimal
  /-- Single characters. -/
  | character
  /-- Texts. -/
  | string
  /-- What a `FOR` loop runs over. -/
  | integerIterable
  /-- A type that a host adds. -/
  | object (type : ObjectType)
  deriving DecidableEq

namespace Ty

/-- The built-in types in the order in which they are listed. -/
def builtins : List Ty :=
  [.any, .nil, .comparable, .boolean, .integer, .decimal, .character, .string, .integerIterable]

/-- The name written in programs. -/
def name : Ty → String
  | .any => "Any"
  | .nil => "Nil"
  | .comparable => "Comparable"
  | .boolean => "Boolean"
  | .integer => "Integer"
  | .decimal => "Decimal"
  | .character => "Character"
  | .string => "String"
  | .integerIterable => "IntegerIterable"
  | .object type => type.name

/-- The name written in generated Java. -/
def renderName : Ty → String
  | .any => "Object"
  | .nil => "Void"
  | .comparable => "Comparable"
  | .boolean => "boolean"
  | .integer => "int"
  | .decimal => "double"
  | .character => "char"
  | .string => "String"
  | .integerIterable => "Iterable<Integer>"
  | .object type => type.renderName

/-- Two types are the same: equal built-in types, or object types of one name. -/
def same : Ty → Ty → Bool
  | .object left, .object right => left.name = right.name
  | left, right => left = right

/-- The built-in types whose values can be compared with each other. -/
def isPrimitive : Ty → Bool
  | .integer | .decimal | .character | .string => true
  | _ => false

end Ty

/-- How a type relates to the type of a place that is to hold its values. -/
inductive Assignability where
  /-- Both are the same type. -/
  | equal
  /-- The place takes more than this type. -/
  | widening
  /-- The place does not take this type. -/
  | notAssignable
  deriving DecidableEq

namespace Ty

/-- How `type` relates to a place of type `target`. Only `Any` and `Comparable` take other
types. -/
def assignability (target type : Ty) : Assignability :=
  if target.same type then .equal
  else
    match target with
    | .any => .widening
    | .comparable => if type.isPrimitive then .widening else .notAssignable
    | _ => .notAssignable

/-- A place of type `target` takes values of type `type`. -/
def isAssignable (target type : Ty) : Bool :=
  target.assignability type ≠ .notAssignable

end Ty

/-- What a name of a variable stands for in a program. -/
structure Variable where
  /-- The name written in programs. -/
  name : String
  /-- The name written in generated Java. -/
  renderName : String
  /-- The type of the values it holds. -/
  type : Ty
  deriving DecidableEq

/-- What a name of a function and a number of arguments stand for in a program. -/
structure Signature where
  /-- The name written in programs. -/
  name : String
  /-- The name written in generated Java. -/
  renderName : String
  /-- The types of the parameters in order. -/
  parameters : List Ty
  /-- The type of the results. -/
  returns : Ty
  deriving DecidableEq

/-- The number of parameters. -/
def Signature.arity (signature : Signature) : Nat :=
  signature.parameters.length

/-- A variable whose name in Java is its name. -/
def Variable.named (name : String) (type : Ty) : Variable :=
  ⟨name, name, type⟩

/-- A function whose name in Java is its name. -/
def Signature.named (name : String) (parameters : List Ty) (returns : Ty) : Signature :=
  ⟨name, name, parameters, returns⟩

end LetDef
