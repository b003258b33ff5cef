import LetDef.Decimal.Basic
import LetDef.Text.Numeral

/-!
# Decimals in writing

`Decimal.display` writes a number with all its places; numbers below a millionth whose zeros
outnumber their digits, and numbers with more than fifteen zeros left out, are written with an
exponent. `Decimal.ofText?` reads digits with an optional point and an optional exponent.
-/
namespace LetDef.Decimal

/-- Digits with the point after all but the last `places`. -/
def pointed (digits : List Char) (places : Nat) : List Char :=
  if places < digits.length then
    digits.take (digits.length - places) ++ '.' :: digits.drop (digits.length - places)
  else '0' :: '.' :: List.replicate (places - digits.length) '0' ++ digits

/-- Digits with the point after the first, if there are more. -/
def leading : List Char → List Char
  | [] => []
  | [digit] => [digit]
  | digit :: rest => digit :: '.' :: rest

/-- The digits of a number without its sign, at its scale. Small numbers are scientific when more
than five zeros stand between the point and the digits; numbers that lack more than fifteen zeros
are written as their units and an exponent. -/
def magnitudeText (digits : List Char) (scale : Int) : List Char :=
  if 0 < scale && 5 < scale - digits.length then
    leading digits ++ 'E' :: '-' :: Text.Numeral.ofInt (scale - digits.length + 1)
  else if 15 < -scale then digits ++ 'e' :: '+' :: Text.Numeral.ofInt (-scale)
  else if scale ≤ 0 then digits ++ List.replicate (-scale).toNat '0'
  else pointed digits scale.toNat

/-- The number as it is displayed. Zero has no places. -/
def display (value : Decimal) : List Char :=
  let scale := if value.digits = 0 then 0 else value.scale
  let text := magnitudeText (Text.Numeral.ofNat value.digits.natAbs) scale
  if value.digits < 0 then '-' :: text else text

/-- The units and the exponent of a number, which determine it exactly. -/
def exactText (value : Decimal) : List Char :=
  Text.Numeral.ofInt value.digits ++ 'e' :: Text.Numeral.ofInt (-value.scale)

/-- The mark between a number and its exponent. -/
def isExponentMark (char : Char) : Bool :=
  char = 'e' || char = 'E'

/-- The exponent at the end of a text that begins with an exponent mark or is empty. -/
def exponent? : List Char → Option Int
  | [] => some 0
  | _ :: text => Text.Numeral.plainInteger? text

/-- The number of the scales that are not negative and can be stored in 64 bits. -/
def scaleLimit : Nat :=
  Nat.pow 2 63

/-- A scale that can be stored in 64 bits. -/
def isScale (scale : Int) : Bool :=
  -scaleLimit ≤ scale && scale < scaleLimit

/-- Reads a number: digits with at most one sign, one point and underscores, then at most one
exponent. The places are the characters after the point, underscores apart. -/
def ofText? (text : List Char) : Option Decimal := do
  let base := text.takeWhile (!isExponentMark ·)
  let exponent ← exponent? (text.dropWhile (!isExponentMark ·))
  let whole := base.takeWhile (· != '.')
  let fraction := (base.dropWhile (· != '.')).drop 1
  let digits ← Text.Numeral.integer? (whole ++ fraction)
  let scale := ((fraction.filter (· != '_')).length : Int) - exponent
  if isScale scale then some ⟨digits, scale⟩ else none

end LetDef.Decimal
