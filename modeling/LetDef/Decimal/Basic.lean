/-!
# Decimal numbers

A decimal is a number of units of some power of ten: `⟨250, 2⟩` is 2.50. Two decimals may denote
the same number with different scales, and the scale decides how a number is displayed and
divided, so decimals keep it. `Decimal.compare` orders decimals by the numbers they denote.
-/
namespace LetDef

/-- The number `digits * 10 ^ (-scale)`, kept with its scale. -/
structure Decimal where
  /-- The units counted. -/
  digits : Int
  /-- How many places after the point one unit stands; negative for tens, hundreds and so on. -/
  scale : Int
  deriving DecidableEq

namespace Decimal

/-- The number one followed by a number of zeros. -/
def powerOfTen (places : Nat) : Nat :=
  Nat.pow 10 places

/-- The units that the number has at a scale which is at least its own. -/
def unitsAt (value : Decimal) (scale : Int) : Int :=
  value.digits * powerOfTen (scale - value.scale).toNat

/-- The number of digits before the point, negative if zeros follow the point, of a number that
is not zero. -/
def magnitude (value : Decimal) : Int :=
  (Nat.toDigits 10 value.digits.natAbs).length - value.scale

/-- Compares two positive numbers. Different magnitudes decide; numbers of one magnitude have
scales that differ by less than their digits, so aligning them costs little. -/
def comparePositive (left right : Decimal) : Ordering :=
  (Ord.compare left.magnitude right.magnitude).then
    (let scale := max left.scale right.scale
     Ord.compare (left.unitsAt scale) (right.unitsAt scale))

/-- The number with the opposite sign. -/
def neg (value : Decimal) : Decimal :=
  ⟨-value.digits, value.scale⟩

/-- The order of the numbers that two decimals denote. -/
def compare (left right : Decimal) : Ordering :=
  (Ord.compare left.digits.sign right.digits.sign).then
    (if left.digits = 0 then .eq
     else if 0 < left.digits then comparePositive left right
     else comparePositive right.neg left.neg)

end Decimal

end LetDef
