import LetDef.Proofs.Decimal.Rounding

/-!
# Scales that can be stored

A decimal is stored with a signed scale of 64 bits, so that not every decimal can be stored
(`Decimal.Storable`). The scale of a sum or a difference lies between those of its terms, and a
quotient has the scale of its dividend. So what the operators make of decimals that can be stored
can be stored as well, unless it is a product (`Value.storable_binary`), which has the sum of the
scales of its factors (`Decimal.ProductFits`).
-/
namespace LetDef

namespace Decimal

/-- The number can be stored with its scale. -/
def Storable (number : Decimal) : Prop :=
  isScale number.scale

instance (number : Decimal) : Decidable number.Storable :=
  inferInstanceAs (Decidable (isScale number.scale))

variable {left right number : Decimal}

/-- The scales that can be stored lie between the ends of 64 bits. -/
theorem storable_iff :
    number.Storable ↔ -(scaleLimit : Int) ≤ number.scale ∧ number.scale < scaleLimit := by
  rw [Storable, isScale, Bool.and_eq_true, decide_eq_true_iff, decide_eq_true_iff]

/-- A number with a scale between those of two numbers can be stored if they can. -/
theorem Storable.between (one : left.Storable) (other : right.Storable)
    (above : min left.scale right.scale ≤ number.scale)
    (below : number.scale ≤ max left.scale right.scale) : number.Storable := by
  rw [storable_iff] at one other ⊢
  omega

/-- A term that is zero lends no more places than it has beyond those of the other term. -/
theorem scale_extend_lentPlaces (zero other : Decimal) :
    other.scale ≤ (other.extend (lentPlaces zero other)).scale ∧
      (other.extend (lentPlaces zero other)).scale ≤ max zero.scale other.scale := by
  simp only [extend, lentPlaces]
  omega

/-- The scale of a sum lies between those of its terms. -/
theorem scale_add (left right : Decimal) :
    min left.scale right.scale ≤ (left.add right).scale ∧
      (left.add right).scale ≤ max left.scale right.scale := by
  by_cases rightZero : right.digits = 0
  · have sum : left.add right = left.extend (lentPlaces right left) := by
      rw [add, if_pos rightZero]
    have lent := scale_extend_lentPlaces right left
    rw [sum]
    omega
  by_cases leftZero : left.digits = 0
  · have sum : left.add right = right.extend (lentPlaces left right) := by
      rw [add, if_neg rightZero, if_pos leftZero]
    have lent := scale_extend_lentPlaces left right
    rw [sum]
    omega
  · have scale : (left.add right).scale = max left.scale right.scale := by
      rw [add, if_neg rightZero, if_neg leftZero]
    rw [scale]
    omega

/-- The scale of the product of two numbers can be stored. It is the sum of their scales, also if
one of them is zero; but where one of them is written as one, it is the scale that the other has
without its trailing zeros. -/
def ProductFits (left right : Decimal) : Prop :=
  if left.isOne then right.normalized.Storable
  else if right.isOne then left.normalized.Storable
  else isScale (left.scale + right.scale)

/-- A product can be stored exactly if its scale fits. -/
theorem storable_mul_iff : (left.mul right).Storable ↔ left.ProductFits right := by
  rw [mul, ProductFits]
  by_cases one : left.isOne
  · rw [if_pos one, if_pos one]
  by_cases other : right.isOne
  · rw [if_neg one, if_pos other, if_neg one, if_pos other]
  · rw [if_neg one, if_neg other, if_neg one, if_neg other, Storable]

end Decimal

namespace Value

mutual

/-- The decimals in a value. -/
def decimals : Value → List Decimal
  | .decimal value => [value]
  | .iterable items => decimalsInAll items
  | .nil | .boolean _ | .integer _ | .character _ | .string _ | .object _ _ => []

/-- The decimals in values. -/
def decimalsInAll : List Value → List Decimal
  | [] => []
  | first :: rest => first.decimals ++ decimalsInAll rest

end

/-- The decimals in values are those in each of them. -/
theorem mem_decimalsInAll {items : List Value} {number : Decimal} :
    number ∈ decimalsInAll items ↔ ∃ item ∈ items, number ∈ item.decimals := by
  induction items with
  | nil => simp [decimalsInAll]
  | cons first rest ih => simp [decimalsInAll, ih]

/-- The decimals in the value can be stored with their scales. -/
def Storable (value : Value) : Prop :=
  ∀ number ∈ value.decimals, number.Storable

instance (value : Value) : Decidable value.Storable :=
  inferInstanceAs (Decidable (∀ number ∈ value.decimals, number.Storable))

variable {number : Decimal} {value first second : Value}

/-- A value without decimals can be stored. -/
theorem storable_of_eq_nil (none : value.decimals = []) : value.Storable := by
  intro number listed
  rw [none] at listed
  cases listed

/-- A decimal is a value that can be stored if it can be stored. -/
@[simp] theorem storable_decimal : (Value.decimal number).Storable ↔ number.Storable := by
  simp only [Storable, decimals, List.forall_mem_singleton]

/-- The items of a list can be stored if the list can. -/
theorem Storable.item {items : List Value} (stored : (Value.iterable items).Storable)
    {item : Value} (member : item ∈ items) : item.Storable :=
  fun number listed => stored number (mem_decimalsInAll.mpr ⟨item, member, listed⟩)

/-- A sum can be stored if its terms can. -/
theorem storable_add (one : first.Storable) (other : second.Storable)
    (computed : first.add second = .ok value) : value.Storable := by
  unfold add at computed
  split at computed <;> cases computed
  case h_4.refl left right =>
    obtain ⟨above, below⟩ := Decimal.scale_add left right
    rw [storable_decimal] at one other ⊢
    exact one.between other above below
  all_goals exact storable_of_eq_nil rfl

/-- A difference can be stored if its terms can. -/
theorem storable_sub (one : first.Storable) (other : second.Storable)
    (computed : first.sub second = .ok value) : value.Storable := by
  unfold sub at computed
  split at computed <;> cases computed
  case h_1.refl => exact storable_of_eq_nil rfl
  case h_2.refl left right =>
    rw [storable_decimal] at one other ⊢
    exact one.between other min_le_max le_rfl

/-- A quotient can be stored if its dividend can. -/
theorem storable_div (one : first.Storable) (computed : first.div second = .ok value) :
    value.Storable := by
  unfold div divideIntegers divideDecimals at computed
  split at computed
  next =>
    split at computed <;> cases computed
    exact storable_of_eq_nil rfl
  next left right =>
    split at computed <;> cases computed
    rw [storable_decimal] at one ⊢
    rwa [Decimal.Storable, Decimal.scale_div]
  next => cases computed

/-- What an operator makes of values that can be stored can be stored, if it is no product of
decimals whose scale does not fit. -/
theorem storable_binary {operator : BinaryOp} (one : first.Storable) (other : second.Storable)
    (product : ∀ left right, operator = .mul → first = .decimal left → second = .decimal right →
      left.ProductFits right)
    (computed : Value.binary operator first second = .ok value) : value.Storable := by
  cases operator with
  | equal | notEqual =>
    cases computed
    exact storable_of_eq_nil rfl
  | less | lessEqual | greater | greaterEqual =>
    simp only [binary] at computed
    split at computed <;> cases computed
    exact storable_of_eq_nil rfl
  | add => exact storable_add one other computed
  | sub => exact storable_sub one other computed
  | mul =>
    replace computed : first.mul second = .ok value := computed
    unfold mul at computed
    split at computed <;> cases computed
    case h_1.refl => exact storable_of_eq_nil rfl
    case h_2.refl left right =>
      have fits := product left right rfl rfl rfl
      exact storable_decimal.mpr (Decimal.storable_mul_iff.mpr fits)
  | div => exact storable_div one computed
  | and | or => cases computed

end Value

end LetDef
