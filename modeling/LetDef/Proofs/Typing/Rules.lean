import LetDef.Proofs.Typing.Acceptance
import LetDef.Proofs.Typing.Admission
import LetDef.Proofs.Typing.Judgment

/-!
# What the analysis checks without a scope

The rules that need no context hold exactly where the analysis finds them to: which types have
names, what a place takes, the types of literals and of operators, and what a method stands for.
-/
namespace LetDef

namespace Ty

variable {target type : Ty}

/-- Only object types can be the same without being equal, and then have one name. -/
theorem same_iff : target.same type = true ↔ target = type ∨
    ∃ left right, target = .object left ∧ type = .object right ∧ left.name = right.name := by
  cases target <;> cases type <;> simp [same]
  rintro rfl
  rfl

/-- The types whose values can be compared with each other. -/
theorem isPrimitive_iff :
    type.isPrimitive = true ↔ type ∈ [Ty.integer, .decimal, .character, .string] := by
  cases type <;> simp [isPrimitive]

/-- A place takes what the analysis lets it take. -/
theorem takes_iff : target.Takes type ↔ target.isAssignable type = true := by
  constructor
  · intro takes
    cases takes with
    | same => exact isAssignable_self target
    | object name => simp [isAssignable, assignability, same, name]
    | any =>
      rw [isAssignable, assignability]
      split <;> rfl
    | comparable basic =>
      rw [isAssignable, assignability, if_pos (isPrimitive_iff.mpr basic)]
      split <;> rfl
  · intro takes
    by_cases equal : target.same type = true
    · obtain rfl | ⟨left, right, rfl, rfl, name⟩ := same_iff.mp equal
      · exact .same
      · exact .object name
    · cases target with
      | any => exact .any
      | comparable =>
        rw [isAssignable, assignability, if_neg equal] at takes
        by_cases basic : type.isPrimitive = true
        · exact .comparable (isPrimitive_iff.mp basic)
        · simp [basic] at takes
      | _ => simp [isAssignable, assignability, equal] at takes

/-- A condition takes truth values only, and other types but `Any` and `Comparable` take
themselves only. -/
theorem takes_builtin_iff (builtin : target ∈ [Ty.boolean, .integerIterable]) :
    target.Takes type ↔ type = target := by
  constructor
  · intro takes
    cases takes with
    | same => rfl
    | object | any | comparable => simp at builtin
  · rintro rfl
    exact .same

/-- Places take as many values one by one as the analysis lets them. -/
theorem takesAll_iff {targets types : List Ty} (sizes : targets.length = types.length) :
    TakesAll targets types ↔ Typing.requireAll targets types = .ok () := by
  induction targets generalizing types with
  | nil =>
    rw [List.length_eq_zero_iff.mp sizes.symm]
    exact ⟨fun _ => rfl, fun _ => .nil⟩
  | cons target targets ih =>
    cases types with
    | nil => contradiction
    | cons type types =>
      have rest := ih (Nat.succ.inj sizes)
      rw [Typing.requireAll]
      constructor
      · rintro (_ | ⟨first, others⟩)
        rw [Typing.require_eq_ok.mpr (takes_iff.mp first)]
        exact rest.mp others
      · intro suits
        cases required : Typing.require target type with
        | error error =>
          rw [required] at suits
          contradiction
        | ok done =>
          rw [required] at suits
          exact .cons (takes_iff.mpr (Typing.require_eq_ok.mp required)) (rest.mpr suits)

end Ty

/-- Of entries that are bound one after the other, the last one of a key counts. -/
theorem Bindings.get?_foldl_bind {α : Type} (key : α → String) (entries : List α)
    (bindings : Bindings String α) (name : String) :
    (entries.foldl (fun table entry => table.bind (key entry) entry) bindings).get? name =
      (entries.reverse.find? fun entry => key entry = name).or (bindings.get? name) := by
  induction entries generalizing bindings with
  | nil => rfl
  | cons first rest ih =>
    rw [List.foldl_cons, ih, List.reverse_cons, List.find?_append, Option.or_assoc, get?_bind]
    congr 1
    by_cases same : name = key first
    · simp [same]
    · simp [same, Ne.symm same]

/-- The names that are known are those of the built-in types. -/
theorem Ty.named_iff {name : String} {type : Ty} :
    Ty.Named name type ↔ TypeTable.builtins.get name = .ok type := by
  have found : TypeTable.builtins.types.get? name =
      Ty.builtins.reverse.find? fun type => type.name = name := by
    rw [TypeTable.builtins, Bindings.get?_foldl_bind, Bindings.get?_empty, Option.or_none]
  have distinct : ∀ one ∈ Ty.builtins, ∀ other ∈ Ty.builtins, one.name = other.name →
    one = other := by decide
  rw [TypeTable.get, found]
  constructor
  · rintro ⟨member, rfl⟩
    cases held : Ty.builtins.reverse.find? fun other => other.name = type.name with
    | none =>
      have other := List.find?_eq_none.mp held type (List.mem_reverse.mpr member)
      simp at other
    | some other =>
      have same : other.name = type.name := by simpa using List.find?_some held
      have listed := List.mem_reverse.mp (List.mem_of_find?_eq_some held)
      rw [distinct other listed type member same]
  · intro known
    split at known
    next held =>
      cases known
      exact ⟨List.mem_reverse.mp (List.mem_of_find?_eq_some held), by
        simpa using List.find?_some held⟩
    next => contradiction

/-- The types of literals. -/
theorem Literal.hasType_iff {value : Literal} {type : Ty} :
    value.HasType type ↔ Typing.literalType value = .ok type := by
  have limit : (Typing.integerLimit : Int) = 2147483648 := rfl
  constructor
  · intro typed
    cases typed with
    | integer lower upper =>
      rw [Typing.literalType, limit, if_pos]
      rw [Bool.and_eq_true, decide_eq_true_eq, decide_eq_true_eq]
      exact ⟨lower, upper⟩
    | decimal finite => rw [Typing.literalType, if_neg finite]
    | nil | boolean | character | string => rfl
  · intro typed
    cases value with
    | integer value =>
      rw [Typing.literalType, limit] at typed
      split at typed
      next fits =>
        cases typed
        rw [Bool.and_eq_true, decide_eq_true_eq, decide_eq_true_eq] at fits
        exact .integer fits.1 fits.2
      next => contradiction
    | decimal value =>
      rw [Typing.literalType] at typed
      split at typed
      next => contradiction
      next finite =>
        cases typed
        exact .decimal finite
    | nil =>
      cases typed
      exact .nil
    | boolean value =>
      cases typed
      exact .boolean
    | character value =>
      cases typed
      exact .character
    | string value =>
      cases typed
      exact .string

namespace BinaryOp

variable {operator : BinaryOp} {left right type : Ty}

/-- The operators that join conditions. -/
theorem isLogical_iff : operator.isLogical = true ↔ operator ∈ [BinaryOp.and, .or] := by
  cases operator <;> simp [isLogical]

/-- The operators that compare. -/
theorem isComparison_iff : operator.isComparison = true ↔
    operator ∈ [BinaryOp.less, .lessEqual, .greater, .greaterEqual, .equal, .notEqual] := by
  cases operator <;> simp [isComparison]

/-- The operators that compute. -/
theorem computes_iff : operator ∈ [BinaryOp.add, .sub, .mul, .div] ↔
    ¬ operator.isLogical ∧ ¬ operator.isComparison := by
  cases operator <;> simp [isLogical, isComparison]

/-- The types of operators that compute. -/
theorem hasType_iff_of_computes (computes : operator ∈ [BinaryOp.add, .sub, .mul, .div]) :
    operator.HasType left right type ↔
      Typing.arithmeticType operator left right = .ok type := by
  obtain ⟨notLogical, notComparison⟩ := computes_iff.mp computes
  constructor
  · intro typed
    rw [Typing.arithmeticType]
    cases typed with
    | logical joins => exact absurd (isLogical_iff.mpr joins) notLogical
    | comparison compares => exact absurd (isComparison_iff.mpr compares) notComparison
    | textBefore | textBehind => simp
    | integer | decimal => simp
  · intro typed
    rcases Typing.arithmeticType_eq_ok typed with ⟨rfl, rfl | rfl, rfl⟩ | ⟨rfl, rfl, rfl⟩ |
      ⟨rfl, rfl, rfl⟩
    · exact .textBefore
    · exact .textBehind
    · exact .integer computes
    · exact .decimal computes

/-- The types of operators. -/
theorem hasType_iff :
    operator.HasType left right type ↔ Typing.binaryType operator left right = .ok type := by
  by_cases logical : operator.isLogical = true
  · have joins := isLogical_iff.mp logical
    constructor
    · intro typed
      rw [Typing.binaryType, if_pos logical]
      cases typed with
      | logical => rfl
      | comparison compares => cases operator <;> simp at joins compares
      | textBefore | textBehind => simp at joins
      | integer computes | decimal computes => exact absurd logical (computes_iff.mp computes).1
    · intro typed
      obtain ⟨rfl, first, second⟩ := Typing.binaryType_of_isLogical logical typed
      obtain rfl := (Ty.takes_builtin_iff List.mem_cons_self).mp (Ty.takes_iff.mpr first)
      obtain rfl := (Ty.takes_builtin_iff List.mem_cons_self).mp (Ty.takes_iff.mpr second)
      exact .logical joins
  · by_cases comparison : operator.isComparison = true
    · have compares := isComparison_iff.mp comparison
      constructor
      · intro typed
        rw [Typing.binaryType, if_neg logical, if_pos comparison]
        cases typed with
        | logical joins => exact absurd (isLogical_iff.mpr joins) logical
        | comparison _ basic =>
          rw [Ty.same_iff.mpr (.inl rfl), Ty.isPrimitive_iff.mpr basic]
          rfl
        | textBefore | textBehind => simp at compares
        | integer computes | decimal computes =>
          exact absurd comparison (computes_iff.mp computes).2
      · intro typed
        obtain ⟨rfl, rfl, basic⟩ := Typing.binaryType_of_isComparison comparison typed
        exact .comparison compares (Ty.isPrimitive_iff.mp basic)
    · rw [Typing.binaryType_of_not_isComparison (Bool.eq_false_iff.mpr logical)
        (Bool.eq_false_iff.mpr comparison)]
      exact hasType_iff_of_computes (computes_iff.mpr ⟨logical, comparison⟩)

end BinaryOp

/-- The types that the analysis finds for parameters are those that are written. -/
theorem Parameter.haveTypes_iff {parameters : List Parameter} {types : List Ty} :
    Parameter.HaveTypes parameters types ↔
      List.Forall₂ (fun parameter type => TypeTable.builtins.get parameter.typeName = .ok type)
        parameters types := by
  constructor
  · intro typed
    induction typed with
    | nil => exact .nil
    | cons named _ ih => exact .cons (Ty.named_iff.mp named) ih
  · intro found
    induction found with
    | nil => exact .nil
    | cons known _ ih => exact .cons (Ty.named_iff.mpr known) ih

/-- A method stands for what the analysis finds written for it. -/
theorem Method.stands_iff {method : Method} {function : Signature} :
    method.Stands function ↔ method.signatureIn .builtins = .ok function := by
  rw [Method.signatureIn_eq_ok_iff]
  constructor
  · intro stands
    cases stands with
    | silent parameters unwritten =>
      exact ⟨_, none, Parameter.haveTypes_iff.mp parameters, unwritten ▸ rfl, rfl⟩
    | returning parameters written named =>
      refine ⟨_, some _, Parameter.haveTypes_iff.mp parameters, ?_, rfl⟩
      rw [written]
      exact TypeTable.getOption_some_eq_ok.mpr ⟨_, Ty.named_iff.mp named, rfl⟩
  · rintro ⟨types, returns, found, known, rfl⟩
    have parameters := Parameter.haveTypes_iff.mpr found
    cases written : method.returnTypeName with
    | none =>
      rw [written] at known
      cases known
      exact .silent parameters written
    | some name =>
      rw [written] at known
      obtain ⟨type, named, rfl⟩ := TypeTable.getOption_some_eq_ok.mp known
      exact .returning parameters written (Ty.named_iff.mpr named)

end LetDef
