import LetDef.Proofs.Run.Outcome
import LetDef.Proofs.Typing.Acceptance
import LetDef.Proofs.Typing.Admission

/-!
# Operators

The types that an operator is accepted with and the values that it is evaluated with are told apart
in two separate tables. They agree on values other than `NIL`, with one exception that both tables
make on purpose: types may be compared by `<`, `<=`, `>` and `>=` wherever they may be compared at
all, but only numbers have an order (`BinaryOp.refuses`).
-/
namespace LetDef

/-- The operator orders two values that have no order. -/
def BinaryOp.refuses (operator : BinaryOp) (first second : Value) : Bool :=
  operator.isOrder && first.bothTextual second

/-- The operator divides by a number that nothing can be divided by. -/
def BinaryOp.dividesByZero (operator : BinaryOp) (second : Value) : Bool :=
  operator = .div && second.isZero

namespace Ty

variable {type left right : Ty} {value first second : Value}

/-- A type that takes conditions only is the type of conditions. -/
theorem eq_boolean_of_isAssignable (takes : Ty.boolean.isAssignable type) : type = .boolean := by
  cases type <;> simp [isAssignable, assignability, same] at takes
  rfl

/-- A value of the type of conditions is a truth value. -/
theorem Holds.exists_boolean (holds : Ty.boolean.Holds value) :
    ∃ truth, value = .boolean truth := by
  rcases admits_boolean_iff.mp (.inr holds) with rfl | found
  · contradiction
  · exact found

end Ty

namespace Typing

variable {operator : BinaryOp} {left right type : Ty} {first second : Value}

/-- Two values without an order are no operands of an operator that orders. -/
theorem binary_of_refuses (refused : operator.refuses first second) :
    Value.binary operator first second = .error (.operands operator first.kind second.kind) := by
  rw [BinaryOp.refuses, Bool.and_eq_true] at refused
  obtain ⟨orders, textual⟩ := refused
  have unordered : first.order? second = none := by
    cases first <;> cases second <;> first | rfl | cases textual
  cases operator with
  | less | lessEqual | greater | greaterEqual =>
    simp only [Value.binary]
    rw [unordered]
  | _ => cases orders

/-- A number is not divided by zero. -/
theorem binary_of_dividesByZero (typed : binaryType operator left right = .ok type)
    (admitted : left.Admits first) (present : first ≠ .nil) (admittedRight : right.Admits second)
    (divides : operator.dividesByZero second) :
    Value.binary operator first second = .error .divisionByZero := by
  rw [BinaryOp.dividesByZero, Bool.and_eq_true, decide_eq_true_iff] at divides
  obtain ⟨rfl, zero⟩ := divides
  rw [binaryType_of_not_isComparison rfl rfl] at typed
  have numeric : BinaryOp.div ≠ .add := by decide
  rcases operands_of_arithmeticType numeric typed admitted admittedRight with
    missing | missing | ⟨one, other, rfl, rfl, _⟩ | ⟨one, other, rfl, rfl, _⟩
  · exact absurd missing present
  · rw [missing] at zero
    cases zero
  · have nothing : other = 0 := of_decide_eq_true zero
    simp only [Value.binary, Value.div, Value.divideIntegers, nothing, if_true]
  · have nothing : other.digits = 0 := of_decide_eq_true zero
    simp only [Value.binary, Value.div, Value.divideDecimals, nothing, if_true]

/-- Any other operator between values of its types has a value of its type. -/
theorem exists_binary (logical : operator.isLogical = false)
    (typed : binaryType operator left right = .ok type)
    (admitted : left.Admits first) (present : first ≠ .nil)
    (admittedRight : right.Admits second) (presentRight : second ≠ .nil)
    (accepts : operator.refuses first second = false)
    (divides : operator.dividesByZero second = false) :
    ∃ value, Value.binary operator first second = .ok value ∧ type.Admits value := by
  cases computed : Value.binary operator first second with
  | ok value => exact ⟨value, rfl, admits_binary typed admitted admittedRight computed⟩
  | error error =>
    rcases binary_error logical typed admitted admittedRight computed with
      missing | missing | ⟨rfl, zero, _⟩ | ⟨orders, textual⟩
    · exact absurd missing present
    · exact absurd missing presentRight
    · simp [BinaryOp.dividesByZero, zero] at divides
    · simp [BinaryOp.refuses, orders, textual] at accepts

/-- No operator has the value `NIL`. -/
theorem binary_ne_nil : Value.binary operator first second ≠ .ok .nil := by
  intro computed
  cases operator with
  | equal | notEqual | and | or => cases computed
  | less | lessEqual | greater | greaterEqual =>
    simp only [Value.binary] at computed
    split at computed <;> cases computed
  | add | sub | mul =>
    simp only [Value.binary, Value.add, Value.sub, Value.mul] at computed
    split at computed <;> cases computed
  | div =>
    simp only [Value.binary, Value.div, Value.divideIntegers, Value.divideDecimals] at computed
    split at computed
    · split at computed <;> cases computed
    · split at computed <;> cases computed
    · cases computed

end Typing

section

variable {operator : BinaryOp} {left right type : Ty} {first second : Value}
variable {fuel : Nat} {one other : Expr} {slot : Option Ty} {machine between after : Machine}

/-- An operator that needs both of its operands is evaluated by their values. -/
theorem evaluate_binary (logical : operator.isLogical = false)
    (evaluated : evaluate fuel one machine = .done first between)
    (evaluatedRight : evaluate fuel other between = .done second after) :
    evaluate (fuel + 1) (.binary operator one other slot) machine =
      .ofExcept (Value.binary operator first second) after := by
  simp only [evaluate, evaluated, Outcome.andThen, logical, Bool.false_eq_true, if_false,
    evaluatedRight]

/-- `AND` and `OR` between truth values have a truth value. -/
theorem evaluate_logical {truth otherTruth : Bool} (logical : operator.isLogical)
    (evaluated : evaluate fuel one machine = .done (.boolean truth) between)
    (evaluatedRight : evaluate fuel other between = .done (.boolean otherTruth) after) :
    ∃ result final, evaluate (fuel + 1) (.binary operator one other slot) machine =
      .done (.boolean result) final := by
  by_cases decided : truth = operator.decisive
  · refine ⟨truth, between, ?_⟩
    simp only [evaluate, evaluated, Outcome.andThen, logical, if_true, Value.asBoolean,
      Outcome.ofExcept, decided]
  · refine ⟨otherTruth, after, ?_⟩
    simp only [evaluate, evaluated, Outcome.andThen, logical, if_true, Value.asBoolean,
      Outcome.ofExcept, if_neg decided, evaluatedRight]

/-- An operator that is accepted between two types, evaluated with values of these types other than
`NIL`, has a value of the type that the analysis gives it, with two exceptions: a division by zero
fails as such, and an order between two characters or two texts fails for the kinds of its
operands. -/
theorem binary_holds_unless_refuses_or_dividesByZero
    (typed : Typing.binaryType operator left right = .ok type)
    (holds : left.Holds first) (present : first ≠ .nil)
    (holdsRight : right.Holds second) (presentRight : second ≠ .nil)
    (evaluated : evaluate fuel one machine = .done first between)
    (evaluatedRight : evaluate fuel other between = .done second after) :
    (operator.refuses first second →
      evaluate (fuel + 1) (.binary operator one other slot) machine =
        .failed (.operands operator first.kind second.kind) after) ∧
    (operator.dividesByZero second →
      evaluate (fuel + 1) (.binary operator one other slot) machine =
        .failed .divisionByZero after) ∧
    (operator.refuses first second = false → operator.dividesByZero second = false →
      ∃ value final, evaluate (fuel + 1) (.binary operator one other slot) machine =
        .done value final ∧ type.Holds value) := by
  cases logical : operator.isLogical with
  | true =>
    obtain ⟨rfl, takes, takesRight⟩ := Typing.binaryType_of_isLogical logical typed
    rw [Ty.eq_boolean_of_isAssignable takes] at holds
    rw [Ty.eq_boolean_of_isAssignable takesRight] at holdsRight
    obtain ⟨truth, rfl⟩ := holds.exists_boolean
    obtain ⟨otherTruth, rfl⟩ := holdsRight.exists_boolean
    obtain ⟨result, final, ended⟩ := evaluate_logical logical evaluated evaluatedRight
    refine ⟨fun refused => ?_, fun divides => ?_, fun _ _ => ⟨_, final, ended, rfl⟩⟩
    · simp [BinaryOp.refuses, Value.bothTextual] at refused
    · simp [BinaryOp.dividesByZero, Value.isZero] at divides
  | false =>
    have operands : evaluate (fuel + 1) (.binary operator one other slot) machine =
        .ofExcept (Value.binary operator first second) after :=
      evaluate_binary logical evaluated evaluatedRight
    refine ⟨fun refused => ?_, fun divides => ?_, fun accepts divides => ?_⟩
    · rw [operands, Typing.binary_of_refuses refused, Outcome.ofExcept]
    · rw [operands, Typing.binary_of_dividesByZero typed (.inr holds) present (.inr holdsRight)
        divides, Outcome.ofExcept]
    · obtain ⟨value, computed, admitted⟩ := Typing.exists_binary logical typed (.inr holds) present
        (.inr holdsRight) presentRight accepts divides
      refine ⟨value, after, ?_, ?_⟩
      · rw [operands, computed, Outcome.ofExcept]
      · rcases admitted with rfl | holds
        · exact absurd computed Typing.binary_ne_nil
        · exact holds

end

/-- A number before a text makes a text. -/
theorem binary_holds_unless_refuses_or_dividesByZero_sum :
    Typing.binaryType .add .integer .string = .ok .string ∧
      ∃ value final, evaluate 2 (.binary .add (.literal (.integer 1) none)
        (.literal (.string "a") none) none) (.fresh none) = .done value final ∧
        Ty.string.Holds value := by
  have typed : Typing.binaryType .add .integer .string = .ok .string := rfl
  have evaluated : evaluate 1 (.literal (.integer 1) none) (.fresh none) =
      .done (.integer 1) (.fresh none) := by simp only [evaluate, Value.ofLiteral]
  have evaluatedRight : evaluate 1 (.literal (.string "a") none) (.fresh none) =
      .done (.string "a") (.fresh none) := by simp only [evaluate, Value.ofLiteral]
  have holds : Ty.integer.Holds (.integer 1) := rfl
  have holdsRight : Ty.string.Holds (.string "a") := rfl
  exact ⟨typed, (binary_holds_unless_refuses_or_dividesByZero typed holds Value.noConfusion
    holdsRight Value.noConfusion evaluated evaluatedRight).2.2 rfl rfl⟩

/-- A program that compares two characters by `<`. -/
def orderedText : String :=
  "DEF main(): Integer DO IF 'a' < 'b' DO RETURN 1; END RETURN 0; END"

/-- Characters may be compared by `<`, and a run that does so fails, but not by dividing by zero. -/
theorem binary_holds_unless_refuses_or_dividesByZero_characters :
    Typing.binaryType .less .character .character = .ok .boolean ∧
      Ty.character.Holds (.character 'a') ∧ Ty.character.Holds (.character 'b') ∧
      evaluate 2 (.binary .less (.literal (.character 'a') none) (.literal (.character 'b') none)
        none) (.fresh none) = .failed (.operands .less .character .character) (.fresh none) ∧
      ∃ program, Program.ofTextAnalyzed orderedText = .ok program ∧
        (Machine.interpret 9 program (.fresh none)).error?.map RuntimeError.reason =
          some "operator < cannot be applied to Character and Character" := by
  have evaluated : evaluate 2 (.binary .less (.literal (.character 'a') none)
      (.literal (.character 'b') none) none) (.fresh none) =
      .failed (.operands .less .character .character) (.fresh none) := by
    simp only [evaluate, Value.ofLiteral, Outcome.andThen, BinaryOp.isLogical, Bool.false_eq_true,
      if_false, Value.binary, Value.order?, Value.kind, Outcome.ofExcept]
  have computed : (Program.ofTextAnalyzed orderedText).toOption.any fun program =>
      (Machine.interpret 9 program (.fresh none)).error?.map RuntimeError.reason =
        some "operator < cannot be applied to Character and Character" := by decide +kernel
  obtain ⟨program, accepted, failed⟩ := exists_ok_of_any computed
  exact ⟨rfl, rfl, rfl, evaluated, program, accepted, of_decide_eq_true failed⟩

end LetDef
