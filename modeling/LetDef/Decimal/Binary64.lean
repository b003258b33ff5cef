import LetDef.Decimal.Arithmetic

/-!
# The range of binary64

A decimal fits the format binary64 of IEEE 754 if its conversion to it stays finite
(`Decimal.exceedsBinary64`). A whole number is converted to the nearest value. For any other number
the conversion takes about its first twenty-five digits, or up to eighteen more, and multiplies
them by a power of ten, both of which are rounded: close to the largest finite value the rounding
decides, and a number that is nearest to a finite value can be beyond the range.
-/
namespace LetDef

/-- A value of binary64 that is a natural number, or the positive infinity. -/
inductive Binary64 where
  /-- A natural number below 2 ^ 1024 whose binary digits after the first 53 are zeros. -/
  | finite (value : Nat)
  /-- What is beyond the largest finite value. -/
  | infinite
  deriving DecidableEq

namespace Binary64

/-- The most binary digits of a finite value. -/
def lengthLimit : Nat := 1024

/-- The nearest value to a natural number; of two equally near ones the one with the even
significand. -/
def ofNat (value : Nat) : Binary64 :=
  let unit := Nat.pow 2 (value.log2 - 52)
  let nearest := (Decimal.nearestEven value unit).toNat * unit
  if nearest < Nat.pow 2 lengthLimit then .finite nearest else .infinite

/-- The product of two positive values, rounded. -/
def mul : Binary64 → Binary64 → Binary64
  | .finite left, .finite right => ofNat (left * right)
  | _, _ => .infinite

/-- A value times a power of another one. The power is found by repeated squaring, and every
product is rounded. -/
def mulPower (value base : Binary64) (exponent : Nat) : Binary64 :=
  let next := if exponent % 2 = 1 then value.mul base else value
  if _more : 2 ≤ exponent then next.mulPower (base.mul base) (exponent / 2) else next
  termination_by exponent

/-- A power of ten. -/
def powerOfTen (exponent : Nat) : Binary64 :=
  mulPower (.finite 1) (.finite 10) exponent

end Binary64

namespace Decimal

/-- How many of its last digits a number loses before it is converted: nineteen at a time, as long
as twenty-five of the digits that its length in binary suggests remain. -/
def lostDigits (digits : Nat) : Nat :=
  ((digits.log2 + 2) * 30102999566398119521 / powerOfTen 20 - 25) / 19 * 19

/-- The largest exponent of ten, of either sign, that the conversion takes. -/
def largestExponent : Nat := 2147483647

/-- The conversion of a number to binary64 does not stay finite. -/
def exceedsBinary64 (value : Decimal) : Bool :=
  let digits := value.digits.natAbs
  let lost := lostDigits digits
  let exponent := lost - value.scale
  if digits = 0 then false
  else if value.scale = 0 then Binary64.ofNat digits = .infinite
  else if largestExponent < exponent.natAbs then true
  else if exponent < 0 then false
  else
    (Binary64.ofNat (digits / powerOfTen lost)).mul (.powerOfTen exponent.toNat) = .infinite

end Decimal

end LetDef
