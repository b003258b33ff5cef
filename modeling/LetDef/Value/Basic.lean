import LetDef.Decimal.Equality
import LetDef.Decimal.Notation
import LetDef.Program.Basic

/-!
# Values

What expressions evaluate to. Every value has a kind, which error messages name, and a text. Two
values are the same (`Value.same`) if they are of one kind and equal as what they denote: decimals
by `Decimal.same`, lists item by item, objects only if they are one object.
-/
namespace LetDef

/-- The kind of a value. -/
inductive Kind where
  /-- `NIL`. -/
  | nil
  /-- A truth value. -/
  | boolean
  /-- A whole number. -/
  | integer
  /-- A decimal number. -/
  | decimal
  /-- A character. -/
  | character
  /-- A text. -/
  | string
  /-- A list. -/
  | iterable
  /-- An object of the host. -/
  | object
  deriving DecidableEq

/-- The name of a kind in error messages. -/
def Kind.name : Kind → String
  | .nil => "Nil"
  | .boolean => "Boolean"
  | .integer => "Integer"
  | .decimal => "Decimal"
  | .character => "Character"
  | .string => "String"
  | .iterable => "IntegerIterable"
  | .object => "Object"

/-- A value of a running program. -/
inductive Value where
  /-- `NIL`. -/
  | nil
  /-- A truth value. -/
  | boolean (value : Bool)
  /-- A whole number of any size. -/
  | integer (value : Int)
  /-- A decimal number of any size. -/
  | decimal (value : Decimal)
  /-- A character. -/
  | character (value : Char)
  /-- A text. -/
  | string (value : String)
  /-- A list, which loops run over. -/
  | iterable (items : List Value)
  /-- An object of the host, by the name of its type and its number. -/
  | object (typeName : String) (id : Nat)

namespace Value

/-- The value of a literal. -/
def ofLiteral : Literal → Value
  | .nil => .nil
  | .boolean value => .boolean value
  | .integer value => .integer value
  | .decimal value => .decimal value
  | .character value => .character value
  | .string value => .string value

/-- The list of the integers `0`, `1` and so on below `count`. -/
def range (count : Nat) : Value :=
  .iterable ((List.range count).map fun (value : Nat) => .integer value)

/-- The kind of a value. -/
def kind : Value → Kind
  | .nil => .nil
  | .boolean _ => .boolean
  | .integer _ => .integer
  | .decimal _ => .decimal
  | .character _ => .character
  | .string _ => .string
  | .iterable _ => .iterable
  | .object _ _ => .object

mutual

/-- The text of a value. -/
def display : Value → String
  | .nil => "NIL"
  | .boolean true => "true"
  | .boolean false => "false"
  | .integer value => String.ofList (Text.Numeral.ofInt value)
  | .decimal value => String.ofList value.display
  | .character value => String.singleton value
  | .string value => value
  | .iterable items => "[" ++ displayItems items ++ "]"
  | .object typeName _ => typeName

/-- The texts of the items of a list. -/
def displayItems : List Value → String
  | [] => ""
  | first :: rest => first.display ++ displayAfter rest

/-- The texts of the items of a list with a comma before each. -/
def displayAfter : List Value → String
  | [] => ""
  | first :: rest => ", " ++ first.display ++ displayAfter rest

end

mutual

/-- Two values are the same. -/
def same : Value → Value → Bool
  | .nil, .nil => true
  | .boolean left, .boolean right => left = right
  | .integer left, .integer right => left = right
  | .decimal left, .decimal right => left.same right
  | .character left, .character right => left = right
  | .string left, .string right => left = right
  | .iterable left, .iterable right => sameItems left right
  | .object _ left, .object _ right => left = right
  | _, _ => false

/-- Two lists have the same items in the same order. -/
def sameItems : List Value → List Value → Bool
  | [], [] => true
  | left :: lefts, right :: rights => left.same right && sameItems lefts rights
  | _, _ => false

end

end Value

end LetDef
