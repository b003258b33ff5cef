import LetDef.Proofs.Agreement.Operators
import LetDef.Proofs.Decimal.Rounding

/-!
# Products divided by a factor

Products of decimals are exact (`Decimal.number_mul`), but their scale is not always the sum of
those of the factors: a factor one gives the other factor without its trailing zeros, and that may
count tens or hundreds. A quotient is rounded at the scale of its dividend, so a product divided by
its second factor is the first factor again unless one was multiplied by a multiple of ten: less
than a ten of such units is left, and it is rounded away
(`mul_div_cancels_iff_not_one_mul_tenfold`).
-/
namespace LetDef

namespace Decimal

variable {value left right : Decimal}

/-- The number is a multiple of ten. -/
def IsTenfold (value : Decimal) : Prop :=
  ∃ units : ℤ, value.number = 10 * units

/-- A number with its digits multiplied by ten and one place more is the same number. -/
theorem number_tenfold (digits scale : ℤ) :
    number ⟨10 * digits, scale⟩ = number ⟨digits, scale - 1⟩ := by
  rw [number, number]
  push_cast
  rw [neg_sub, sub_eq_add_neg, zpow_one_add₀ (by norm_num)]
  ring

/-- Removing trailing zeros with their places leaves the number, and no trailing zero. -/
theorem dropZeros_spec (sign : ℤ) (digits : ℕ) (filled : digits ≠ 0) (scale : ℤ) :
    number ⟨sign * (dropZeros digits scale).1, (dropZeros digits scale).2⟩ =
        number ⟨sign * digits, scale⟩ ∧ ¬ 10 ∣ (dropZeros digits scale).1 := by
  fun_induction dropZeros digits scale with
  | case1 digits scale divisible ih =>
    have whole : (digits : ℤ) = 10 * (digits / 10 : ℕ) := by omega
    obtain ⟨same, ends⟩ := ih (by omega)
    refine ⟨?_, ends⟩
    rw [same, ← number_tenfold, whole, mul_left_comm]
  | case2 digits scale ends =>
    exact ⟨rfl, fun divides => ends ⟨filled, Nat.mod_eq_zero_of_dvd divides⟩⟩

/-- The number without trailing zeros is the same number. -/
theorem number_normalized (value : Decimal) : value.normalized.number = value.number := by
  rw [normalized]
  by_cases zero : value.digits = 0
  · rw [if_pos zero, number, number, zero]
    simp only [Int.cast_zero, zero_mul]
  · rw [if_neg zero]
    have same := (dropZeros_spec value.digits.sign value.digits.natAbs
      (Int.natAbs_ne_zero.mpr zero) value.scale).1
    rwa [Int.sign_mul_natAbs] at same

/-- A number in its own units. -/
theorem number_mul_scale (value : Decimal) : value.number * 10 ^ value.scale = value.digits := by
  rw [number, mul_assoc, ← zpow_add₀ (by norm_num), neg_add_cancel, zpow_zero, mul_one]

/-- A number that does not end in a zero counts tens, or more, exactly if it is a multiple of
ten. -/
theorem scale_lt_zero_iff (ends : ¬ 10 ∣ value.digits) : value.scale < 0 ↔ value.IsTenfold := by
  constructor
  · intro tens
    obtain ⟨places, scale⟩ := Int.eq_ofNat_of_zero_le (show 0 ≤ -value.scale - 1 by omega)
    refine ⟨value.digits * 10 ^ places, ?_⟩
    have shift : -value.scale = places + 1 := by omega
    rw [number, shift, zpow_add_one₀ (by norm_num), zpow_natCast]
    push_cast
    ring
  · rintro ⟨units, tenfold⟩
    by_contra whole
    obtain ⟨places, scale⟩ := Int.eq_ofNat_of_zero_le (not_lt.mp whole)
    have digits := number_mul_scale value
    rw [tenfold, scale, zpow_natCast] at digits
    refine ends ⟨units * 10 ^ places, ?_⟩
    rw [← mul_assoc]
    exact_mod_cast digits.symm

/-- Without its trailing zeros a number other than zero does not end in a zero. -/
theorem not_dvd_normalized (filled : value.digits ≠ 0) : ¬ 10 ∣ value.normalized.digits := by
  have ends := (dropZeros_spec value.digits.sign value.digits.natAbs
    (Int.natAbs_ne_zero.mpr filled) value.scale).2
  rw [normalized, if_neg filled]
  dsimp only
  rw [← Int.natAbs_dvd_natAbs, Int.natAbs_mul, Int.natAbs_sign_of_ne_zero filled, one_mul,
    Int.natAbs_natCast]
  exact ends

/-- A number that is written as one is one. -/
theorem number_of_isOne (one : value.isOne) : value.number = 1 := by
  rw [isOne, Bool.and_eq_true, Bool.and_eq_true, decide_eq_true_iff, decide_eq_true_iff,
    decide_eq_true_iff] at one
  obtain ⟨⟨places, _⟩, digits⟩ := one
  rw [number, digits, Int.cast_natCast, cast_powerOfTen, Int.toNat_of_nonneg places,
    ← zpow_add₀ (by norm_num), add_neg_cancel, zpow_zero]

/-- Products are exact. -/
theorem number_mul (left right : Decimal) :
    (left.mul right).number = left.number * right.number := by
  rw [mul]
  split
  next one => rw [number_normalized, number_of_isOne one, one_mul]
  split
  next one => rw [number_normalized, number_of_isOne one, mul_one]
  · rw [number, number, number, neg_add, zpow_add₀ (by norm_num)]
    push_cast
    ring

/-- A quotient that is a whole number of units of its dividend is exact. -/
theorem number_div_of_whole (filled : right.digits ≠ 0) {units : ℤ}
    (whole : left.number / right.number * 10 ^ left.scale = units) :
    (left.div right).number = left.number / right.number := by
  have rounds := @rounds_div left right filled
  rw [whole] at rounds
  rw [number, scale_div, (Rounds.self units).unique rounds, ← whole, mul_assoc,
    ← zpow_add₀ (by norm_num), add_neg_cancel, zpow_zero, mul_one]

/-- A quotient of less than half a unit of its dividend is zero. -/
theorem number_div_of_small (filled : right.digits ≠ 0)
    (small : |left.number / right.number * 10 ^ left.scale| < 1 / 2) :
    (left.div right).number = 0 := by
  have nothing : Rounds (left.number / right.number * 10 ^ left.scale) 0 := by
    apply Rounds.of_distance
    · rw [Int.cast_zero, sub_zero]
      exact small.le
    · rw [Int.cast_zero, sub_zero]
      exact fun tie => absurd tie small.ne
  rw [number, nothing.unique (rounds_div filled), Int.cast_zero, zero_mul]

/-- The exact quotient of a product and its second factor. -/
theorem number_mul_div (filled : right.digits ≠ 0) :
    (left.mul right).number / right.number = left.number := by
  rw [number_mul, mul_div_cancel_right₀ _ (number_ne_zero filled)]

/-- One times a number that is a multiple of ten, divided by that number, is zero. -/
theorem number_div_of_isTenfold (filled : right.digits ≠ 0) (one : left.isOne)
    (tenfold : right.IsTenfold) : ((left.mul right).div right).number = 0 := by
  apply number_div_of_small filled
  rw [number_mul_div filled, number_of_isOne one, one_mul, mul, if_pos one]
  have tens : right.normalized.scale < 0 := by
    rwa [scale_lt_zero_iff (not_dvd_normalized filled), IsTenfold, number_normalized]
  have small : (10 : ℚ) ^ right.normalized.scale ≤ 10 ^ (-1 : ℤ) :=
    zpow_le_zpow_right₀ (by norm_num) (by omega)
  rw [abs_of_pos (zpow_pos (by norm_num) _)]
  refine small.trans_lt ?_
  norm_num

/-- A product divided by its second factor is the first one, unless that is one and the second a
multiple of ten. -/
theorem number_div_of_not (filled : right.digits ≠ 0) (places : 0 < right.scale)
    (other : ¬ (left.isOne ∧ right.IsTenfold)) :
    ((left.mul right).div right).number = left.number := by
  -- It is enough that the first factor is a whole number of units of the product.
  have whole : ∃ units : ℤ, left.number * 10 ^ (left.mul right).scale = units := by
    rw [mul]
    split
    next one =>
      have units : ¬ right.normalized.scale < 0 := by
        rw [scale_lt_zero_iff (not_dvd_normalized filled), IsTenfold, number_normalized]
        exact fun tenfold => other ⟨one, tenfold⟩
      obtain ⟨count, scale⟩ := Int.eq_ofNat_of_zero_le (not_lt.mp units)
      refine ⟨10 ^ count, ?_⟩
      rw [number_of_isOne one, scale, one_mul, zpow_natCast]
      push_cast
      rfl
    split
    next one => exact ⟨_, number_normalized left ▸ number_mul_scale left.normalized⟩
    · obtain ⟨count, scale⟩ := Int.eq_ofNat_of_zero_le places.le
      refine ⟨left.digits * 10 ^ count, ?_⟩
      rw [zpow_add₀ (by norm_num), ← mul_assoc, number_mul_scale, scale, zpow_natCast]
      push_cast
      rfl
  obtain ⟨units, whole⟩ := whole
  rw [number_div_of_whole filled, number_mul_div filled]
  rw [number_mul_div filled, whole]

end Decimal

section

variable {left right : Decimal} {fuel : Nat} {one other again : Expr}
variable {product group quotient : Option Ty} {machine middle between after : Machine}

/-- A literal is evaluated to its number. -/
theorem evaluate_decimal (fuel : Nat) (value : Decimal) (slot : Option Ty) (machine : Machine) :
    evaluate (fuel + 1) (.literal (.decimal value) slot) machine =
      .done (.decimal value) machine := by
  rw [evaluate, Value.ofLiteral]

/-- A product divided by its second factor is evaluated to the quotient of the product. -/
theorem evaluate_mul_div (filled : right.digits ≠ 0)
    (evaluated : evaluate fuel one machine = .done (.decimal left) middle)
    (evaluatedRight : evaluate fuel other middle = .done (.decimal right) between)
    (evaluatedAgain : evaluate (fuel + 2) again between = .done (.decimal right) after) :
    evaluate (fuel + 3)
        (.binary .div (.group (.binary .mul one other product) group) again quotient) machine =
      .done (.decimal ((left.mul right).div right)) after := by
  have multiplied : evaluate (fuel + 2) (.group (.binary .mul one other product) group) machine =
      .done (.decimal (left.mul right)) between := by
    rw [evaluate, evaluate_binary rfl evaluated evaluatedRight]
    rfl
  rw [evaluate_binary rfl multiplied evaluatedAgain, Decimal.binary_div filled]
  rfl

/-- The product of two decimals, divided by the second one, is evaluated to a decimal. If the second
one is not zero and has places, as every literal has, this is zero where the first one is one and
the second one a multiple of ten, and everywhere else it is the first number. -/
theorem mul_div_cancels_iff_not_one_mul_tenfold (filled : right.digits ≠ 0)
    (places : 0 < right.scale)
    (evaluated : evaluate fuel one machine = .done (.decimal left) middle)
    (evaluatedRight : evaluate fuel other middle = .done (.decimal right) between)
    (evaluatedAgain : evaluate (fuel + 2) again between = .done (.decimal right) after) :
    ∃ value, evaluate (fuel + 3)
        (.binary .div (.group (.binary .mul one other product) group) again quotient) machine =
        .done (.decimal value) after ∧
      (value.number = left.number ↔ ¬ (left.isOne ∧ right.IsTenfold)) ∧
      (left.isOne → right.IsTenfold → value.number = 0) := by
  refine ⟨(left.mul right).div right, ?_, ⟨?_, ?_⟩, ?_⟩
  · exact evaluate_mul_div filled evaluated evaluatedRight evaluatedAgain
  · rintro same ⟨isOne, tenfold⟩
    rw [Decimal.number_div_of_isTenfold filled isOne tenfold, Decimal.number_of_isOne isOne] at same
    exact zero_ne_one same
  · exact Decimal.number_div_of_not filled places
  · exact Decimal.number_div_of_isTenfold filled

end

/-- One times a number with a trailing zero, divided by it, is one. -/
theorem mul_div_cancels_iff_not_one_mul_tenfold_one :
    (⟨-30, 2⟩ : Decimal).digits ≠ 0 ∧ 0 < (⟨-30, 2⟩ : Decimal).scale ∧
      ∃ value, evaluate 4 (.binary .div (.group (.binary .mul (.literal (.decimal ⟨10, 1⟩) none)
          (.literal (.decimal ⟨-30, 2⟩) none) none) none) (.literal (.decimal ⟨-30, 2⟩) none) none)
          (.fresh none) = .done (.decimal value) (.fresh none) ∧
        value.number = (⟨10, 1⟩ : Decimal).number := by
  have filled : (⟨-30, 2⟩ : Decimal).digits ≠ 0 := by decide
  have places : 0 < (⟨-30, 2⟩ : Decimal).scale := by decide
  obtain ⟨value, computed, cancels, _⟩ := mul_div_cancels_iff_not_one_mul_tenfold filled places
    (evaluate_decimal 0 ⟨10, 1⟩ none (.fresh none)) (evaluate_decimal 0 ⟨-30, 2⟩ none (.fresh none))
    (evaluate_decimal 2 ⟨-30, 2⟩ none (.fresh none))
  refine ⟨filled, places, value, computed, cancels.mpr ?_⟩
  rintro ⟨_, units, tenfold⟩
  norm_num [Decimal.number] at tenfold
  have scaled : (-3 : ℚ) = 100 * units := by linarith
  have whole : -3 = 100 * units := by exact_mod_cast scaled
  omega

/-- A program that multiplies one by ten and divides it by ten again. -/
def cancelledText : String :=
  "DEF main(): Integer DO IF (1.0 * 10.0) / 10.0 == 1.0 DO RETURN 1; END RETURN 0; END"

/-- One times ten, divided by ten, is zero, and a run of a program that is accepted finds it to be
different from one. -/
theorem mul_div_cancels_iff_not_one_mul_tenfold_ten :
    evaluate 4 (.binary .div (.group (.binary .mul (.literal (.decimal ⟨10, 1⟩) none)
        (.literal (.decimal ⟨100, 1⟩) none) none) none) (.literal (.decimal ⟨100, 1⟩) none) none)
        (.fresh none) = .done (.decimal ⟨0, -1⟩) (.fresh none) ∧
      (⟨0, -1⟩ : Decimal).number ≠ (⟨10, 1⟩ : Decimal).number ∧
      ∃ program value after, Program.ofTextAnalyzed cancelledText = .ok program ∧
        Machine.interpret 9 program (.fresh none) = .done value after ∧
        value.same (.integer 0) := by
  have filled : (⟨100, 1⟩ : Decimal).digits ≠ 0 := by decide
  have nothing : (Decimal.mul ⟨10, 1⟩ ⟨100, 1⟩).div ⟨100, 1⟩ = ⟨0, -1⟩ := by decide +kernel
  have computed : (Program.ofTextAnalyzed cancelledText).toOption.any fun program =>
      (Machine.interpret 9 program (.fresh none)).value?.any (·.same (.integer 0)) := by
    decide +kernel
  obtain ⟨program, accepted, yields⟩ := exists_ok_of_any computed
  obtain ⟨value, after, ended, same⟩ := Outcome.exists_of_any yields
  refine ⟨?_, ?_, program, value, after, accepted, ended, same⟩
  · rw [evaluate_mul_div filled (evaluate_decimal 0 _ none _) (evaluate_decimal 0 _ none _)
      (evaluate_decimal 2 _ none _), nothing]
  · norm_num [Decimal.number]

end LetDef
