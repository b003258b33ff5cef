import LetDef.Value.Operation
import Mathlib.Algebra.Order.Round
import Mathlib.Data.Rat.Floor
import Mathlib.Tactic.FieldSimp
import Mathlib.Tactic.Linarith

/-!
# Quotients of decimals

A decimal denotes a rational number (`Decimal.number`). The digits of a quotient are the whole
number nearest to the exact quotient in units of the dividend, and of two equally near ones the even
one (`div_rounds_half_even`). They are found from a quotient that is rounded toward zero: what it
leaves out tells whether the next whole number away from zero is nearer, and the signs of both
numbers tell where that is.
-/
namespace LetDef

/-- The number that a decimal denotes. -/
def Decimal.number (value : Decimal) : ℚ :=
  value.digits * 10 ^ (-value.scale)

/-- The whole number is nearest to an exact one; of two equally near ones it is the even one. -/
structure Rounds (exact : ℚ) (units : ℤ) : Prop where
  /-- No other whole number is nearer. -/
  nearest : ∀ other : ℤ, |exact - units| ≤ |exact - other|
  /-- It is even if another whole number is as near. -/
  even : ∀ other : ℤ, other ≠ units → |exact - other| = |exact - units| → Even units

namespace Rounds

variable {exact part : ℚ} {units other quotient step : ℤ}

/-- Two whole numbers are one apart at least. -/
theorem one_le_abs_sub (apart : other ≠ units) : (1 : ℚ) ≤ |(units : ℚ) - other| := by
  have whole : (1 : ℤ) ≤ |units - other| := Int.one_le_abs (sub_ne_zero.mpr apart.symm)
  exact_mod_cast whole

/-- The distances of two whole numbers from an exact one make one at least. -/
theorem one_le_distances (exact : ℚ) (apart : other ≠ units) :
    1 ≤ |exact - units| + |exact - other| := by
  have triangle := abs_sub_le (units : ℚ) exact other
  rw [abs_sub_comm (units : ℚ) exact] at triangle
  exact (one_le_abs_sub apart).trans triangle

/-- A whole number at most a half away is nearest; if it is a half away, it has to be even. -/
theorem of_distance (near : |exact - units| ≤ 1 / 2)
    (tie : |exact - units| = 1 / 2 → Even units) : Rounds exact units := by
  refine ⟨fun other => ?_, fun other apart same => tie ?_⟩
  · by_cases apart : other = units
    · rw [apart]
    · have apart := one_le_distances exact apart
      linarith
  · have apart := one_le_distances exact apart
    linarith

/-- A nearest whole number is at most a half away. -/
theorem distance_le (rounds : Rounds exact units) : |exact - units| ≤ 1 / 2 :=
  (rounds.nearest (round exact)).trans (abs_sub_round exact)

/-- There is one such whole number. -/
theorem unique (rounds : Rounds exact units) (also : Rounds exact other) : other = units := by
  by_contra apart
  have same : |exact - other| = |exact - units| :=
    le_antisymm (also.nearest units) (rounds.nearest other)
  -- Both are even and at most one apart, so they are the same.
  have even := rounds.even other apart same
  have evenOther := also.even units (Ne.symm apart) same.symm
  have close : |(units : ℚ) - other| ≤ 1 := by
    have triangle := abs_sub_le (units : ℚ) exact other
    rw [abs_sub_comm (units : ℚ) exact] at triangle
    have near := rounds.distance_le
    linarith
  have whole : |units - other| ≤ 1 := by exact_mod_cast close
  obtain ⟨half, rfl⟩ := even
  obtain ⟨otherHalf, rfl⟩ := evenOther
  rw [abs_le] at whole
  omega

/-- A whole number is nearest to itself. -/
theorem self (units : ℤ) : Rounds units units := by
  apply of_distance
  · norm_num
  · norm_num

/-- A quotient stays where it is if it leaves out less than a half, or a half and is even. -/
theorem stay (small : |part| ≤ 1 / 2) (tie : |part| = 1 / 2 → Even quotient) :
    Rounds (quotient + part) quotient := by
  apply of_distance
  · rwa [add_sub_cancel_left]
  · rwa [add_sub_cancel_left]

/-- A quotient moves by one toward what it leaves out if that is more than a half, or a half and the
quotient is odd. -/
theorem move (toward : |part - step| = 1 - |part|) (odd : Odd step) (large : 1 / 2 ≤ |part|)
    (tie : |part| = 1 / 2 → ¬ Even quotient) : Rounds (quotient + part) (quotient + step : ℤ) := by
  have distance : |(quotient : ℚ) + part - (quotient + step : ℤ)| = 1 - |part| := by
    rw [← toward]
    push_cast
    ring_nf
  apply of_distance
  · rw [distance]
    linarith
  · intro half
    rw [distance] at half
    have tied : |part| = 1 / 2 := by linarith
    exact (Int.not_even_iff_odd.mp (tie tied)).add_odd odd

end Rounds

namespace Decimal

variable {dividend divisor quotient remainder : ℤ}

/-- What a quotient rounded toward zero leaves out. -/
theorem div_eq_tdiv_add (filled : divisor ≠ 0) :
    (dividend : ℚ) / divisor = dividend.tdiv divisor + (dividend.tmod divisor : ℚ) / divisor := by
  have present : (divisor : ℚ) ≠ 0 := Int.cast_ne_zero.mpr filled
  have whole : (dividend : ℚ) = divisor * dividend.tdiv divisor + dividend.tmod divisor := by
    exact_mod_cast (Int.mul_tdiv_add_tmod dividend divisor).symm
  rw [div_eq_iff present, add_mul, div_mul_cancel₀ _ present, mul_comm (_ : ℚ) (divisor : ℚ)]
  exact whole

/-- The magnitude of what is left out. -/
theorem abs_part (remainder divisor : ℤ) :
    |(remainder : ℚ) / divisor| = (remainder.natAbs : ℚ) / divisor.natAbs := by
  rw [abs_div, Nat.cast_natAbs, Nat.cast_natAbs, Int.cast_abs, Int.cast_abs]

/-- A quotient moves away from zero exactly if it leaves out more than a half, or a half and is
odd. -/
theorem roundsAway_iff (filled : divisor ≠ 0) :
    roundsAway quotient remainder divisor ↔
      1 / 2 < |(remainder : ℚ) / divisor| ∨
        |(remainder : ℚ) / divisor| = 1 / 2 ∧ ¬ Even quotient := by
  have positive : (0 : ℚ) < divisor.natAbs := by
    exact_mod_cast Int.natAbs_pos.mpr filled
  have above : 1 / 2 < |(remainder : ℚ) / divisor| ↔ divisor.natAbs < 2 * remainder.natAbs := by
    rw [abs_part, div_lt_div_iff₀ two_pos positive, one_mul, mul_comm (_ : ℚ) 2]
    exact_mod_cast Iff.rfl
  have tied : |(remainder : ℚ) / divisor| = 1 / 2 ↔ 2 * remainder.natAbs = divisor.natAbs := by
    rw [abs_part, div_eq_div_iff positive.ne' two_ne_zero, one_mul, mul_comm (_ : ℚ) 2]
    exact_mod_cast Iff.rfl
  have parity : quotient.tmod 2 ≠ 0 ↔ ¬ Even quotient := by
    rw [even_iff_two_dvd, Int.dvd_iff_tmod_eq_zero]
  rw [above, tied, ← parity, roundsAway]
  split
  next greater =>
    have greater := Nat.compare_eq_gt.mp greater
    simp only [greater, true_or]
  next less =>
    have less := Nat.compare_eq_lt.mp less
    simp only [Bool.false_eq_true, false_iff]
    omega
  next equal =>
    have equal := Nat.compare_eq_eq.mp equal
    simp only [equal, decide_eq_true_eq, lt_self_iff_false, true_and, false_or]

/-- What is left over has the sign of the dividend. -/
theorem tmod_neg_iff (left : dividend.tmod divisor ≠ 0) :
    dividend.tmod divisor < 0 ↔ dividend < 0 := by
  constructor
  · intro below
    by_contra above
    have side := Int.tmod_nonneg divisor (not_lt.mp above)
    omega
  · intro below
    have side := Int.tmod_nonneg divisor (Int.neg_nonneg_of_nonpos below.le)
    rw [Int.neg_tmod] at side
    omega

/-- What is left out is above zero exactly if dividend and divisor are on one side of zero. -/
theorem part_pos_iff (filled : divisor ≠ 0) (left : dividend.tmod divisor ≠ 0) :
    0 < (dividend.tmod divisor : ℚ) / divisor ↔ (dividend < 0 ↔ divisor < 0) := by
  have sign := tmod_neg_iff left
  rw [div_pos_iff, Int.cast_pos, Int.cast_pos, Int.cast_lt_zero, Int.cast_lt_zero]
  omega

/-- The digits of a quotient are the whole number that is nearest to the exact one. -/
theorem rounds_nearestEven (filled : divisor ≠ 0) :
    Rounds ((dividend : ℚ) / divisor) (nearestEven dividend divisor) := by
  have away := @roundsAway_iff divisor (dividend.tdiv divisor) (dividend.tmod divisor) filled
  rw [div_eq_tdiv_add filled, nearestEven]
  by_cases exact : dividend.tmod divisor = 0
  · rw [if_pos exact, exact, Int.cast_zero, zero_div, add_zero]
    exact .self _
  rw [if_neg exact]
  have side := part_pos_iff filled exact
  have inside : |(dividend.tmod divisor : ℚ) / divisor| < 1 := by
    rw [abs_part, div_lt_one (by exact_mod_cast Int.natAbs_pos.mpr filled)]
    have less := Nat.mod_lt dividend.natAbs (Int.natAbs_pos.mpr filled)
    rw [← Int.natAbs_tmod] at less
    exact_mod_cast less
  have present : (dividend.tmod divisor : ℚ) / divisor ≠ 0 :=
    div_ne_zero (Int.cast_ne_zero.mpr exact) (Int.cast_ne_zero.mpr filled)
  generalize (dividend.tmod divisor : ℚ) / divisor = part at away side inside present ⊢
  cases moves : roundsAway (dividend.tdiv divisor) (dividend.tmod divisor) divisor with
  | false =>
    rw [if_pos (by rfl)]
    rw [moves, Bool.false_eq_true, false_iff, not_or, not_lt, not_and, not_not] at away
    exact .stay away.1 away.2
  | true =>
    rw [if_neg (by decide)]
    have large : 1 / 2 ≤ |part| := (away.mp moves).elim le_of_lt fun tie => tie.1.ge
    have tie : |part| = 1 / 2 → ¬ Even (dividend.tdiv divisor) := fun half =>
      (away.mp moves).elim (fun more => absurd half more.ne') And.right
    by_cases apart : decide (dividend < 0) ≠ decide (divisor < 0)
    · rw [if_pos apart]
      have below : part < 0 := by
        refine lt_of_le_of_ne (not_lt.mp fun above => apart ?_) present
        exact decide_eq_decide.mpr (side.mp above)
      refine .move ?_ (by decide) large tie
      rw [abs_of_neg below] at inside ⊢
      push_cast
      rw [abs_of_pos (by linarith)]
      ring
    · rw [if_neg apart]
      have above : 0 < part := side.mpr (decide_eq_decide.mp (not_not.mp apart))
      refine .move ?_ (by decide) large tie
      rw [abs_of_pos above] at inside ⊢
      push_cast
      rw [abs_of_neg (by linarith)]
      ring

variable {left right : Decimal}

/-- A decimal is zero if it has no digits other than zero. -/
theorem number_ne_zero (filled : left.digits ≠ 0) : left.number ≠ 0 :=
  mul_ne_zero (Int.cast_ne_zero.mpr filled) (zpow_ne_zero _ (by norm_num))

/-- The exact quotient in units of the dividend. -/
theorem exact_quotient (filled : right.digits ≠ 0) :
    left.number / right.number * 10 ^ left.scale =
      left.digits * 10 ^ right.scale / (right.digits : ℚ) := by
  have present : (right.digits : ℚ) ≠ 0 := Int.cast_ne_zero.mpr filled
  rw [number, number, zpow_neg, zpow_neg]
  field_simp

/-- A power of ten as it is counted. -/
theorem cast_powerOfTen (places : ℕ) : ((powerOfTen places : ℕ) : ℚ) = 10 ^ (places : ℤ) := by
  rw [powerOfTen, zpow_natCast]
  exact Nat.cast_pow 10 places

/-- The digits of the quotient are the whole number that is nearest to the exact quotient in units
of the dividend. -/
theorem rounds_div (filled : right.digits ≠ 0) :
    Rounds (left.number / right.number * 10 ^ left.scale) (left.div right).digits := by
  rw [exact_quotient filled, div]
  by_cases places : 0 ≤ right.scale
  · rw [if_pos places]
    have rounds := @rounds_nearestEven (left.digits * powerOfTen right.scale.toNat) _ filled
    rwa [Int.cast_mul, Int.cast_natCast, cast_powerOfTen, Int.toNat_of_nonneg places] at rounds
  · rw [if_neg places]
    have tens : (powerOfTen (-right.scale).toNat : ℤ) ≠ 0 := by
      exact_mod_cast (Nat.pow_pos (by decide)).ne'
    have rounds := @rounds_nearestEven left.digits _ (mul_ne_zero filled tens)
    rw [Int.cast_mul, Int.cast_natCast, cast_powerOfTen, Int.toNat_of_nonneg (by omega), zpow_neg,
      ← div_div, div_inv_eq_mul] at rounds
    rwa [mul_div_right_comm]

/-- A quotient has the scale of its dividend. -/
theorem scale_div (left right : Decimal) : (left.div right).scale = left.scale := by
  rw [div]
  split <;> rfl

/-- The operator divides decimals, unless the divisor is zero. -/
theorem binary_div (filled : right.digits ≠ 0) :
    Value.binary .div (.decimal left) (.decimal right) = .ok (.decimal (left.div right)) := by
  simp only [Value.binary, Value.div, Value.divideDecimals, if_neg filled]

end Decimal

/-- A decimal divided by another one that is not zero is a decimal at the scale of the dividend. Its
digits are the one whole number that is nearest to the exact quotient in units of that scale and
even if another one is as near. -/
theorem div_rounds_half_even {left right : Decimal} (filled : right.digits ≠ 0) :
    Value.binary .div (.decimal left) (.decimal right) = .ok (.decimal (left.div right)) ∧
      (left.div right).scale = left.scale ∧
      ∀ units, Rounds (left.number / right.number * 10 ^ left.scale) units ↔
        units = (left.div right).digits := by
  have rounds := @Decimal.rounds_div left right filled
  refine ⟨Decimal.binary_div filled, Decimal.scale_div left right,
    fun units => ⟨rounds.unique, ?_⟩⟩
  rintro rfl
  exact rounds

/-- A hundred and fifty in tens, divided by minus ten in tens, is minus one and a half tens, and of
the two nearest numbers of tens minus two is even. -/
theorem div_rounds_half_even_tie :
    (⟨-1, -1⟩ : Decimal).digits ≠ 0 ∧ Decimal.div ⟨15, -1⟩ ⟨-1, -1⟩ = ⟨-2, -1⟩ ∧
      Rounds ((⟨15, -1⟩ : Decimal).number / (⟨-1, -1⟩ : Decimal).number * 10 ^ (-1 : ℤ)) (-2) := by
  have filled : (⟨-1, -1⟩ : Decimal).digits ≠ 0 := by decide
  have computed : Decimal.div ⟨15, -1⟩ ⟨-1, -1⟩ = ⟨-2, -1⟩ := by decide
  have nearest := ((@div_rounds_half_even ⟨15, -1⟩ _ filled).2.2 (-2)).mpr
  rw [computed] at nearest
  exact ⟨filled, computed, nearest rfl⟩

end LetDef
