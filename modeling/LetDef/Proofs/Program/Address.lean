import LetDef.Program.Basic

/-!
# Places in programs

An address leads from a whole program to one construct in it. Two constructs that look alike have
different addresses, so that an address tells which construct of a program is meant.
-/
namespace LetDef

/-- A step from a construct to one of its parts. -/
inductive Turn where
  /-- To the fields of a program. -/
  | fields
  /-- To the methods of a program. -/
  | methods
  /-- To the first construct of a list. -/
  | first
  /-- To the constructs after the first one of a list. -/
  | rest
  /-- To the value of a field, a declaration, an assignment, a loop or a statement. -/
  | value
  /-- To the target of an assignment. -/
  | target
  /-- To the condition of a choice or of a loop. -/
  | condition
  /-- To the statements for a condition that holds. -/
  | accepted
  /-- To the statements for a condition that does not hold. -/
  | rejected
  /-- To the body of a method or of a loop. -/
  | body
  /-- To what a group encloses. -/
  | inner
  /-- To a left operand. -/
  | left
  /-- To a right operand. -/
  | right
  /-- To the object that a field or a method is selected from. -/
  | receiver
  /-- To the arguments of a call. -/
  | arguments
  deriving DecidableEq

/-- The steps that lead to a construct from the whole program, the last one first. -/
abbrev Address : Type := List Turn

/-- The construct lies in a method, or is one. -/
def Address.inMethod (address : Address) : Bool :=
  Turn.methods ∈ address

/-- What lies at a part of a construct lies in a method if the construct does. -/
theorem Address.inMethod_append {turns : List Turn} (inside : Turn.methods ∉ turns)
    (address : Address) : Address.inMethod (turns ++ address) = address.inMethod := by
  simp [Address.inMethod, inside]

/-- Calls of this name with this number of arguments go to the method. -/
def Method.answers (method : Method) (name : String) (arity : Nat) : Bool :=
  method.name = name && method.parameters.length = arity

/-- A method answers to its own name and the number of its parameters alone. -/
theorem Method.answers_iff {method : Method} {name : String} {arity : Nat} :
    method.answers name arity ↔ method.name = name ∧ method.parameters.length = arity := by
  simp [Method.answers]

namespace Program

/-- The address of the methods from the one of a number on. -/
def methodsFrom (index : Nat) : Address :=
  List.replicate index .rest ++ [.methods]

/-- The address of the method of a number. -/
def methodAddress (index : Nat) : Address :=
  .first :: methodsFrom index

/-- The first method of a program that calls of a name with a number of arguments go to. -/
def method? (program : Program) (name : String) (arity : Nat) : Option Method :=
  program.methods.find? (·.answers name arity)

/-- The address of the method of a program that is called as the given one is. -/
def addressOf (program : Program) (declared : Method) : Address :=
  methodAddress (program.methods.findIdx (·.answers declared.name declared.parameters.length))

/-- Where no two methods answer the same calls, the number of a method is the place at which its
calls find it. -/
theorem findIdx_answers {methods : List Method}
    (distinct : methods.Pairwise fun earlier later =>
      ¬ later.answers earlier.name earlier.parameters.length)
    {position : Nat} {declared : Method} (found : methods[position]? = some declared) :
    methods.findIdx (·.answers declared.name declared.parameters.length) = position := by
  obtain ⟨inside, rfl⟩ := List.getElem?_eq_some_iff.mp found
  rw [List.findIdx_eq inside]
  refine ⟨Method.answers_iff.mpr ⟨rfl, rfl⟩, fun earlier before => ?_⟩
  have other := List.pairwise_iff_getElem.mp distinct earlier position
    (Nat.lt_trans before inside) inside before
  rw [Bool.eq_false_iff]
  intro answers
  obtain ⟨name, arity⟩ := Method.answers_iff.mp answers
  exact other (Method.answers_iff.mpr ⟨name.symm, arity.symm⟩)

/-- A method lies in itself. -/
theorem inMethod_addressOf (program : Program) (declared : Method) :
    (program.addressOf declared).inMethod = true := by
  simp [Address.inMethod, addressOf, methodAddress, methodsFrom]

end Program

end LetDef
