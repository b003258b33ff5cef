import LetDef.Proofs.Typing.Bodies
import LetDef.Value.Operation

/-!
# Which values a type admits

A type demands a kind of values, and every type admits `NIL`, since variables that were never given
a value hold it. What a place takes by its type it also takes by the values (`Ty.Admits.assign`).
An operator between operands of admitted values gives an admitted value (`Typing.admits_binary`),
or it fails for one of a few reasons (`Typing.binary_error`): division by zero, `NIL` as an operand,
or an order between characters or texts.
-/
namespace LetDef

/-- The values of a type, `NIL` apart. -/
def Ty.Holds : Ty → Value → Prop
  | .any, _ => True
  | .nil, _ => False
  | .comparable, value =>
    value.kind = .integer ∨ value.kind = .decimal ∨ value.kind = .character ∨ value.kind = .string
  | .boolean, value => value.kind = .boolean
  | .integer, value => value.kind = .integer
  | .decimal, value => value.kind = .decimal
  | .character, value => value.kind = .character
  | .string, value => value.kind = .string
  | .integerIterable, value =>
    ∃ items, value = .iterable items ∧ ∀ item ∈ items, item.kind = .integer
  | .object _, value => value.kind = .object

/-- The values that a variable or an expression of a type may have. -/
def Ty.Admits (type : Ty) (value : Value) : Prop :=
  value = .nil ∨ type.Holds value

namespace Ty

variable {type target : Ty} {value : Value}

/-- Every type admits `NIL`. -/
theorem admits_nil (type : Ty) : type.Admits .nil := .inl rfl

/-- What a place takes by its type it takes by its values. -/
theorem Admits.assign (takes : target.isAssignable type) (admits : type.Admits value) :
    target.Admits value := by
  rcases admits with missing | holds
  · exact .inl missing
  · refine .inr ?_
    by_cases same : target.same type = true
    · cases target <;> cases type <;> simp [Ty.same] at same <;> exact holds
    · cases target with
      | any => trivial
      | comparable =>
        cases type <;> simp [isAssignable, assignability, isPrimitive, same] at takes <;>
          simp only [Holds] at holds ⊢ <;> simp [holds]
      | _ => simp [isAssignable, assignability, same] at takes

/-- A truth value or `NIL`. -/
theorem admits_boolean_iff :
    Ty.boolean.Admits value ↔ value = .nil ∨ ∃ truth, value = .boolean truth := by
  cases value <;> simp [Admits, Holds, Value.kind]

/-- A whole number or `NIL`. -/
theorem admits_integer_iff :
    Ty.integer.Admits value ↔ value = .nil ∨ ∃ number, value = .integer number := by
  cases value <;> simp [Admits, Holds, Value.kind]

/-- A decimal number or `NIL`. -/
theorem admits_decimal_iff :
    Ty.decimal.Admits value ↔ value = .nil ∨ ∃ number, value = .decimal number := by
  cases value <;> simp [Admits, Holds, Value.kind]

/-- A character or `NIL`. -/
theorem admits_character_iff :
    Ty.character.Admits value ↔ value = .nil ∨ ∃ character, value = .character character := by
  cases value <;> simp [Admits, Holds, Value.kind]

/-- A text or `NIL`. -/
theorem admits_string_iff :
    Ty.string.Admits value ↔ value = .nil ∨ ∃ text, value = .string text := by
  cases value <;> simp [Admits, Holds, Value.kind]

end Ty

/-- The value is a number by which nothing can be divided. -/
def Value.isZero : Value → Bool
  | .integer value => value = 0
  | .decimal value => value.digits = 0
  | _ => false

/-- The operator orders its operands. -/
def BinaryOp.isOrder : BinaryOp → Bool
  | .less | .lessEqual | .greater | .greaterEqual => true
  | _ => false

/-- Both values are characters, or both are texts. -/
def Value.bothTextual : Value → Value → Bool
  | .character _, .character _ | .string _, .string _ => true
  | _, _ => false

namespace Typing

/-- A literal is of its type. -/
theorem admits_literal {value : Literal} {type : Ty} (typed : literalType value = .ok type) :
    type.Admits (.ofLiteral value) := by
  cases value with
  | nil => exact .inl rfl
  | integer value =>
    simp only [literalType] at typed
    split at typed
    · cases typed
      exact .inr rfl
    · contradiction
  | decimal value =>
    simp only [literalType] at typed
    split at typed
    · contradiction
    · cases typed
      exact .inr rfl
  | boolean value =>
    cases typed
    exact .inr rfl
  | character value =>
    cases typed
    exact .inr rfl
  | string value =>
    cases typed
    exact .inr rfl

/-- `AND` and `OR` take conditions. -/
theorem binaryType_of_isLogical {operator : BinaryOp} {left right type : Ty}
    (logical : operator.isLogical) (typed : binaryType operator left right = .ok type) :
    type = .boolean ∧ Ty.boolean.isAssignable left ∧ Ty.boolean.isAssignable right := by
  simp only [binaryType, logical, if_true] at typed
  cases first : require .boolean left with
  | error error =>
    rw [first] at typed
    contradiction
  | ok done =>
    rw [first] at typed
    cases second : require .boolean right with
    | error error =>
      rw [second] at typed
      contradiction
    | ok done =>
      rw [second] at typed
      injection typed with same
      exact ⟨same.symm, require_eq_ok.mp first, require_eq_ok.mp second⟩

/-- A comparison takes two primitive types that are the same. -/
theorem binaryType_of_isComparison {operator : BinaryOp} {left right type : Ty}
    (compares : operator.isComparison) (typed : binaryType operator left right = .ok type) :
    type = .boolean ∧ left = right ∧ left.isPrimitive := by
  have other : operator.isLogical = false := by cases operator <;> first | rfl | cases compares
  simp only [binaryType, other, compares, Bool.false_eq_true, if_false, if_true] at typed
  split at typed
  next suits =>
    injection typed with same
    cases left <;> cases right <;> simp_all [Ty.same, Ty.isPrimitive]
  next => contradiction

/-- Arithmetic takes two whole numbers or two decimal numbers, and a sum also takes a text. -/
theorem arithmeticType_eq_ok {operator : BinaryOp} {left right type : Ty}
    (typed : arithmeticType operator left right = .ok type) :
    (operator = .add ∧ (left = .string ∨ right = .string) ∧ type = .string) ∨
      (left = .integer ∧ right = .integer ∧ type = .integer) ∨
      (left = .decimal ∧ right = .decimal ∧ type = .decimal) := by
  simp only [arithmeticType] at typed
  split at typed
  next suits => simp_all
  next =>
    split at typed
    next suits => simp_all
    next =>
      split at typed
      next suits => simp_all
      next => contradiction

/-- What an operator other than `AND`, `OR` and the comparisons makes of types is arithmetic. -/
theorem binaryType_of_not_isComparison {operator : BinaryOp} {left right : Ty}
    (other : operator.isLogical = false) (neither : operator.isComparison = false) :
    binaryType operator left right = arithmeticType operator left right := by
  simp only [binaryType, other, neither, Bool.false_eq_true, if_false]

variable {operator : BinaryOp} {left right type : Ty} {first second value : Value}
variable {error : RuntimeError}

/-- Sums of admitted values are admitted. -/
theorem admits_add (typed : arithmeticType .add left right = .ok type)
    (admitted : left.Admits first) (admittedRight : right.Admits second)
    (computed : first.add second = .ok value) : type.Admits value := by
  rcases arithmeticType_eq_ok typed with ⟨_, textual, rfl⟩ | ⟨rfl, rfl, rfl⟩ | ⟨rfl, rfl, rfl⟩
  · rcases textual with rfl | rfl
    · rcases Ty.admits_string_iff.mp admitted with rfl | ⟨text, rfl⟩ <;> cases second <;>
        simp [Value.add] at computed <;> exact .inr (computed ▸ rfl)
    · rcases Ty.admits_string_iff.mp admittedRight with rfl | ⟨text, rfl⟩ <;> cases first <;>
        simp [Value.add] at computed <;> exact .inr (computed ▸ rfl)
  · rcases Ty.admits_integer_iff.mp admitted with rfl | ⟨number, rfl⟩ <;>
      rcases Ty.admits_integer_iff.mp admittedRight with rfl | ⟨other, rfl⟩ <;>
      simp [Value.add] at computed
    exact .inr (computed ▸ rfl)
  · rcases Ty.admits_decimal_iff.mp admitted with rfl | ⟨number, rfl⟩ <;>
      rcases Ty.admits_decimal_iff.mp admittedRight with rfl | ⟨other, rfl⟩ <;>
      simp [Value.add] at computed
    exact .inr (computed ▸ rfl)

/-- The operands of arithmetic without texts: one of them is `NIL`, or both are numbers of the kind
of the result. -/
theorem operands_of_arithmeticType (numeric : operator ≠ .add)
    (typed : arithmeticType operator left right = .ok type)
    (admitted : left.Admits first) (admittedRight : right.Admits second) :
    first = .nil ∨ second = .nil ∨
      (∃ one other, first = .integer one ∧ second = .integer other ∧ type = .integer) ∨
      ∃ one other, first = .decimal one ∧ second = .decimal other ∧ type = .decimal := by
  rcases arithmeticType_eq_ok typed with ⟨sum, _⟩ | ⟨rfl, rfl, rfl⟩ | ⟨rfl, rfl, rfl⟩
  · exact absurd sum numeric
  · rcases Ty.admits_integer_iff.mp admitted with rfl | ⟨one, rfl⟩
    · exact .inl rfl
    · rcases Ty.admits_integer_iff.mp admittedRight with rfl | ⟨other, rfl⟩
      · exact .inr (.inl rfl)
      · exact .inr (.inr (.inl ⟨one, other, rfl, rfl, rfl⟩))
  · rcases Ty.admits_decimal_iff.mp admitted with rfl | ⟨one, rfl⟩
    · exact .inl rfl
    · rcases Ty.admits_decimal_iff.mp admittedRight with rfl | ⟨other, rfl⟩
      · exact .inr (.inl rfl)
      · exact .inr (.inr (.inr ⟨one, other, rfl, rfl, rfl⟩))

/-- Differences, products and quotients of admitted values are admitted. -/
theorem admits_arithmetic (other : operator.isLogical = false)
    (neither : operator.isComparison = false)
    (typed : arithmeticType operator left right = .ok type) (admitted : left.Admits first)
    (admittedRight : right.Admits second)
    (computed : Value.binary operator first second = .ok value) : type.Admits value := by
  by_cases sum : operator = .add
  · subst sum
    exact admits_add typed admitted admittedRight computed
  · rcases operands_of_arithmeticType sum typed admitted admittedRight with
      rfl | rfl | ⟨one, two, rfl, rfl, rfl⟩ | ⟨one, two, rfl, rfl, rfl⟩
    · cases operator <;> cases second <;> cases computed <;> contradiction
    · cases operator <;> cases first <;> cases computed <;> contradiction
    · cases operator with
      | sub | mul =>
        cases computed
        exact .inr rfl
      | div =>
        simp only [Value.binary, Value.div, Value.divideIntegers] at computed
        split at computed
        · contradiction
        · cases computed
          exact .inr rfl
      | add => exact absurd rfl sum
      | and | or => cases other
      | _ => cases neither
    · cases operator with
      | sub | mul =>
        cases computed
        exact .inr rfl
      | div =>
        simp only [Value.binary, Value.div, Value.divideDecimals] at computed
        split at computed
        · contradiction
        · cases computed
          exact .inr rfl
      | add => exact absurd rfl sum
      | and | or => cases other
      | _ => cases neither

/-- An operator between admitted values gives an admitted value. -/
theorem admits_binary (typed : binaryType operator left right = .ok type)
    (admitted : left.Admits first) (admittedRight : right.Admits second)
    (computed : Value.binary operator first second = .ok value) : type.Admits value := by
  cases logical : operator.isLogical with
  | true => cases operator <;> cases logical <;> contradiction
  | false =>
    cases compares : operator.isComparison with
    | true =>
      obtain ⟨rfl, _, _⟩ := binaryType_of_isComparison compares typed
      refine Ty.admits_boolean_iff.mpr (.inr ?_)
      cases operator with
      | equal | notEqual =>
        cases computed
        exact ⟨_, rfl⟩
      | less | lessEqual | greater | greaterEqual =>
        simp only [Value.binary] at computed
        split at computed
        · cases computed
          exact ⟨_, rfl⟩
        · contradiction
      | _ => cases compares
    | false =>
      rw [binaryType_of_not_isComparison logical compares] at typed
      exact admits_arithmetic logical compares typed admitted admittedRight computed

/-- A sum of admitted values fails only if one of them is `NIL`. -/
theorem add_error (typed : arithmeticType .add left right = .ok type)
    (admitted : left.Admits first) (admittedRight : right.Admits second)
    (failed : first.add second = .error error) : first = .nil ∨ second = .nil := by
  rcases arithmeticType_eq_ok typed with ⟨_, textual, rfl⟩ | ⟨rfl, rfl, rfl⟩ | ⟨rfl, rfl, rfl⟩
  · rcases textual with rfl | rfl
    · rcases Ty.admits_string_iff.mp admitted with rfl | ⟨text, rfl⟩
      · exact .inl rfl
      · cases second <;> simp [Value.add] at failed
    · rcases Ty.admits_string_iff.mp admittedRight with rfl | ⟨text, rfl⟩
      · exact .inr rfl
      · cases first <;> simp [Value.add] at failed
  · rcases Ty.admits_integer_iff.mp admitted with rfl | ⟨number, rfl⟩
    · exact .inl rfl
    · rcases Ty.admits_integer_iff.mp admittedRight with rfl | ⟨other, rfl⟩
      · exact .inr rfl
      · simp [Value.add] at failed
  · rcases Ty.admits_decimal_iff.mp admitted with rfl | ⟨number, rfl⟩
    · exact .inl rfl
    · rcases Ty.admits_decimal_iff.mp admittedRight with rfl | ⟨other, rfl⟩
      · exact .inr rfl
      · simp [Value.add] at failed

/-- Arithmetic on admitted values fails only by dividing by zero, or if one of them is `NIL`. -/
theorem arithmetic_error (other : operator.isLogical = false)
    (neither : operator.isComparison = false)
    (typed : arithmeticType operator left right = .ok type) (admitted : left.Admits first)
    (admittedRight : right.Admits second)
    (failed : Value.binary operator first second = .error error) :
    first = .nil ∨ second = .nil ∨
      (operator = .div ∧ second.isZero ∧ error = .divisionByZero) := by
  by_cases sum : operator = .add
  · subst sum
    rcases add_error typed admitted admittedRight failed with missing | missing
    · exact .inl missing
    · exact .inr (.inl missing)
  · rcases operands_of_arithmeticType sum typed admitted admittedRight with
      missing | missing | ⟨one, two, rfl, rfl, rfl⟩ | ⟨one, two, rfl, rfl, rfl⟩
    · exact .inl missing
    · exact .inr (.inl missing)
    · cases operator with
      | sub | mul => cases failed
      | div =>
        simp only [Value.binary, Value.div, Value.divideIntegers] at failed
        split at failed
        next zero =>
          cases failed
          exact .inr (.inr ⟨rfl, by simpa [Value.isZero] using zero, rfl⟩)
        next => contradiction
      | add => exact absurd rfl sum
      | and | or => cases other
      | _ => cases neither
    · cases operator with
      | sub | mul => cases failed
      | div =>
        simp only [Value.binary, Value.div, Value.divideDecimals] at failed
        split at failed
        next zero =>
          cases failed
          exact .inr (.inr ⟨rfl, by simpa [Value.isZero] using zero, rfl⟩)
        next => contradiction
      | add => exact absurd rfl sum
      | and | or => cases other
      | _ => cases neither

/-- A comparison of admitted values fails only if one of them is `NIL`, or if it orders two
characters or two texts. -/
theorem comparison_error (compares : operator.isComparison)
    (typed : binaryType operator left right = .ok type) (admitted : left.Admits first)
    (admittedRight : right.Admits second)
    (failed : Value.binary operator first second = .error error) :
    first = .nil ∨ second = .nil ∨ (operator.isOrder ∧ first.bothTextual second) := by
  obtain ⟨_, rfl, primitive⟩ := binaryType_of_isComparison compares typed
  have orders : operator.isOrder := by
    cases operator with
    | less | lessEqual | greater | greaterEqual => rfl
    | equal | notEqual => cases failed
    | _ => cases compares
  have unordered : first.order? second = none := by
    cases operator with
    | less | lessEqual | greater | greaterEqual =>
      simp only [Value.binary] at failed
      split at failed
      · contradiction
      · assumption
    | _ => cases orders
  cases left with
  | integer =>
    rcases Ty.admits_integer_iff.mp admitted with rfl | ⟨one, rfl⟩
    · exact .inl rfl
    · rcases Ty.admits_integer_iff.mp admittedRight with rfl | ⟨two, rfl⟩
      · exact .inr (.inl rfl)
      · cases unordered
  | decimal =>
    rcases Ty.admits_decimal_iff.mp admitted with rfl | ⟨one, rfl⟩
    · exact .inl rfl
    · rcases Ty.admits_decimal_iff.mp admittedRight with rfl | ⟨two, rfl⟩
      · exact .inr (.inl rfl)
      · cases unordered
  | character =>
    rcases Ty.admits_character_iff.mp admitted with rfl | ⟨one, rfl⟩
    · exact .inl rfl
    · rcases Ty.admits_character_iff.mp admittedRight with rfl | ⟨two, rfl⟩
      · exact .inr (.inl rfl)
      · exact .inr (.inr ⟨orders, rfl⟩)
  | string =>
    rcases Ty.admits_string_iff.mp admitted with rfl | ⟨one, rfl⟩
    · exact .inl rfl
    · rcases Ty.admits_string_iff.mp admittedRight with rfl | ⟨two, rfl⟩
      · exact .inr (.inl rfl)
      · exact .inr (.inr ⟨orders, rfl⟩)
  | _ => cases primitive

/-- An operator between admitted values fails only by dividing by zero, if one of them is `NIL`, or
if it orders two characters or two texts. -/
theorem binary_error (logical : operator.isLogical = false)
    (typed : binaryType operator left right = .ok type) (admitted : left.Admits first)
    (admittedRight : right.Admits second)
    (failed : Value.binary operator first second = .error error) :
    first = .nil ∨ second = .nil ∨ (operator = .div ∧ second.isZero ∧ error = .divisionByZero) ∨
      (operator.isOrder ∧ first.bothTextual second) := by
  cases compares : operator.isComparison with
  | true =>
    rcases comparison_error compares typed admitted admittedRight failed with
      missing | missing | textual
    · exact .inl missing
    · exact .inr (.inl missing)
    · exact .inr (.inr (.inr textual))
  | false =>
    rw [binaryType_of_not_isComparison logical compares] at typed
    rcases arithmetic_error logical compares typed admitted admittedRight failed with
      missing | missing | zero
    · exact .inl missing
    · exact .inr (.inl missing)
    · exact .inr (.inr (.inl zero))

end Typing

end LetDef
