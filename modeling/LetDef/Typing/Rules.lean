import LetDef.Decimal.Binary64
import LetDef.Program.Basic
import LetDef.Scope.Bindings
import LetDef.Typing.Error

/-!
# Typing rules

The rules that need no scope: which types there are, which members a type has, what a place
takes, and the types of literals and of operators.
-/
namespace LetDef

/-- The types that programs can name. -/
structure TypeTable where
  /-- The types by their names. -/
  types : Bindings String Ty

namespace TypeTable

/-- The table of the built-in types. -/
def builtins : TypeTable :=
  ⟨Ty.builtins.foldl (fun table type => table.bind type.name type) .empty⟩

/-- The type of a name. -/
def get (table : TypeTable) (name : String) : Except TypeError Ty :=
  match table.types.get? name with
  | some type => .ok type
  | none => .error (.unknownType name)

/-- Adds a type under its own name, which must be free. -/
def register (table : TypeTable) (type : Ty) : Except TypeError TypeTable :=
  if table.types.contains type.name then .error (.typeDefined type.name)
  else .ok ⟨table.types.bind type.name type⟩

end TypeTable

/-- The fields and methods of an object type. A method takes the object as its first argument. -/
structure Members where
  /-- The fields by name. -/
  fields : Bindings String Variable
  /-- The methods by name and number of arguments, the object included. -/
  methods : Bindings (String × Nat) Signature

/-- No fields and no methods. -/
def Members.empty : Members := ⟨.empty, .empty⟩

/-- The members of a type. Only object types have any. -/
def Ty.membersIn (tables : Array Members) : Ty → Members
  | .object type => tables[type.members]?.getD .empty
  | _ => .empty

namespace Typing

/-- A place of type `target` has to take values of type `type`. -/
def require (target type : Ty) : Except TypeError Unit :=
  if target.isAssignable type then .ok () else .error (.notAssignable target type)

/-- The arguments of a call have to suit the parameters in front; what is left over on either side
is not looked at. -/
def requireAll : List Ty → List Ty → Except TypeError Unit
  | parameter :: parameters, argument :: arguments => do
    require parameter argument
    requireAll parameters arguments
  | _, _ => .ok ()

/-- The number of the integers that are not negative and can be stored in 32 bits. -/
def integerLimit : Nat :=
  Nat.pow 2 31

/-- The type of a literal. Numbers must fit the numbers of Java. -/
def literalType : Literal → Except TypeError Ty
  | .nil => .ok .nil
  | .boolean _ => .ok .boolean
  | .integer value =>
    if -integerLimit ≤ value && value < integerLimit then .ok .integer
    else .error (.integerRange value)
  | .decimal value =>
    if value.exceedsBinary64 then .error (.decimalRange value) else .ok .decimal
  | .character _ => .ok .character
  | .string _ => .ok .string

/-- The type of a sum, difference, product or quotient. A sum with a string is a string. -/
def arithmeticType (operator : BinaryOp) (left right : Ty) : Except TypeError Ty :=
  if operator = .add && (left = .string || right = .string) then .ok .string
  else if left = .integer && right = .integer then .ok .integer
  else if left = .decimal && right = .decimal then .ok .decimal
  else .error (.operands operator left right)

/-- The type of an operator between operands of two types. -/
def binaryType (operator : BinaryOp) (left right : Ty) : Except TypeError Ty :=
  if operator.isLogical then do
    require .boolean left
    require .boolean right
    .ok .boolean
  else if operator.isComparison then
    if left.same right && left.isPrimitive then .ok .boolean
    else .error (.operands operator left right)
  else arithmeticType operator left right

end Typing

end LetDef
