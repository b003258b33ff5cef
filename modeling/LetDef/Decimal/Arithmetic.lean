import LetDef.Decimal.Basic

/-!
# Arithmetic on decimals

Sums, differences and products are exact. A sum has the larger scale of its terms, a product the
sum of the scales of its factors, with two exceptions: a term zero lends at most fifteen places
(`add`), and a factor one returns the other factor with its trailing zeros removed (`mul`). A
quotient is rounded to the scale of the dividend, a half to the even neighbour (`div`).
-/
namespace LetDef.Decimal

/-- The same number with more places. -/
def extend (value : Decimal) (places : Nat) : Decimal :=
  ⟨value.digits * powerOfTen places, value.scale + places⟩

/-- How many places a term that is zero adds to the other term. -/
def lentPlaces (zero other : Decimal) : Nat :=
  min (zero.scale - other.scale).toNat 15

/-- The sum of two numbers. -/
def add (left right : Decimal) : Decimal :=
  if right.digits = 0 then left.extend (lentPlaces right left)
  else if left.digits = 0 then right.extend (lentPlaces left right)
  else
    let scale := max left.scale right.scale
    ⟨left.unitsAt scale + right.unitsAt scale, scale⟩

/-- The difference of two numbers. -/
def sub (left right : Decimal) : Decimal :=
  let scale := max left.scale right.scale
  ⟨left.unitsAt scale - right.unitsAt scale, scale⟩

/-- Removes the trailing zeros of a count of units, together with their places. -/
def dropZeros (digits : Nat) (scale : Int) : Nat × Int :=
  if _divisible : digits ≠ 0 ∧ digits % 10 = 0 then dropZeros (digits / 10) (scale - 1)
  else (digits, scale)
  termination_by digits

/-- The same number with the fewest digits. Zero has no places. -/
def normalized (value : Decimal) : Decimal :=
  if value.digits = 0 then ⟨0, 0⟩
  else
    let (digits, scale) := dropZeros value.digits.natAbs value.scale
    ⟨value.digits.sign * digits, scale⟩

/-- The number is one, written with at most 38 places. -/
def isOne (value : Decimal) : Bool :=
  0 ≤ value.scale && value.scale ≤ 38 && value.digits = powerOfTen value.scale.toNat

/-- The product of two numbers. -/
def mul (left right : Decimal) : Decimal :=
  if left.isOne then right.normalized
  else if right.isOne then left.normalized
  else ⟨left.digits * right.digits, left.scale + right.scale⟩

/-- A quotient rounded toward zero is further from the exact one than the next integer is, or as far
and odd. -/
def roundsAway (quotient remainder divisor : Int) : Bool :=
  match Ord.compare (2 * remainder.natAbs) divisor.natAbs with
  | .gt => true
  | .lt => false
  | .eq => quotient.tmod 2 ≠ 0

/-- The integer nearest to a quotient, of two equally near ones the even one; the divisor is not
zero. The quotient is rounded toward zero and then moved away from it by one if need be, in the
direction that the signs tell, since it may be zero itself. -/
def nearestEven (dividend divisor : Int) : Int :=
  let quotient := dividend.tdiv divisor
  let remainder := dividend.tmod divisor
  if remainder = 0 then quotient
  else if !roundsAway quotient remainder divisor then quotient
  else if decide (dividend < 0) ≠ decide (divisor < 0) then quotient - 1
  else quotient + 1

/-- The quotient of two numbers at the scale of the dividend; the divisor is not zero. -/
def div (left right : Decimal) : Decimal :=
  if 0 ≤ right.scale then
    ⟨nearestEven (left.digits * powerOfTen right.scale.toNat) right.digits, left.scale⟩
  else ⟨nearestEven left.digits (right.digits * powerOfTen (-right.scale).toNat), left.scale⟩

end LetDef.Decimal
