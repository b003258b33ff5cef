import LetDef.Decimal.Basic

/-!
# Equality of decimals

Two decimals of one scale are equal if their digits are. For different scales the digits of the
number with fewer places are multiplied by the power of ten between the scales. Below twenty
places this is done limb by limb, and each limb of the product is compared at once with that of the
other number (`isProduct?`); a limb whose product needs more than a word leaves the answer to
`Decimal.compare`.

Product and carry are added in a word, so a carry beyond the word is lost. Between scales ten
places apart this happens to limbs next to 2 ^ 64 / 10 ^ 10, and `same` then differs from
`compare`.
-/
namespace LetDef.Decimal

/-- The digits of a number in base 2 ^ 32, the lowest first. -/
def limbs (value : Nat) : List UInt32 :=
  if _positive : value ≠ 0 then value.toUInt32 :: limbs (value / UInt32.size) else []
  termination_by value
  decreasing_by exact Nat.div_lt_self (Nat.pos_of_ne_zero _positive) (by decide)

/-- The limbs in the first list are those of a factor times the number whose limbs are in the
second list, plus a carry. The answer is open if the product of the factor and a limb needs more
than a word. -/
def isProduct? (factor : Nat) (carry : UInt64) : List UInt32 → List UInt32 → Option Bool
  | [], [] => some (carry = 0)
  | [], _ :: _ => some false
  | limb :: rest, [] =>
    if limb.toUInt64 = carry then isProduct? factor 0 rest [] else some false
  | limb :: rest, other :: others =>
    if factor * other.toNat < UInt64.size then
      let sum := (factor * other.toNat).toUInt64 + carry
      if limb = sum.toUInt32 then isProduct? factor (sum >>> 32) rest others else some false
    else none

/-- Two decimals of one sign are equal, where the first one has more places. A number whose bits
are too few for the product is different from it. -/
def sameExtended (long short : Decimal) : Bool :=
  let places := (long.scale - short.scale).toNat
  let (units, others) := (long.digits.natAbs, short.digits.natAbs)
  if 20 ≤ places then compare long short = .eq
  else if units.log2 < others.log2 + (powerOfTen places).log2 then false
  else (isProduct? (powerOfTen places) 0 (limbs units) (limbs others)).getD
    (compare long short = .eq)

/-- Two decimals are equal. -/
def same (left right : Decimal) : Bool :=
  if left.digits.sign ≠ right.digits.sign then false
  else if left.digits = 0 then true
  else if left.scale = right.scale then left.digits = right.digits
  else if left.scale < right.scale then right.sameExtended left
  else left.sameExtended right

end LetDef.Decimal
