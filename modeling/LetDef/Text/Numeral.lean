import LetDef.Text.Ascii

/-!
# Integers in decimal notation

`ofNat` and `ofInt` write a number with the fewest digits. `natural?` and `integer?` read one;
they accept more than is written: leading zeros, underscores anywhere after the first digit, and
one plus sign where no minus sign stands.
-/
namespace LetDef.Text.Numeral

/-- The digits of a number, most significant first, without leading zeros. -/
def ofNat (value : Nat) : List Char :=
  Nat.toDigits 10 value

/-- The digits of a number after its sign, which only a negative number has. -/
def ofInt (value : Int) : List Char :=
  if value < 0 then '-' :: ofNat value.natAbs else ofNat value.natAbs

/-- Reads further digits after those that make `value`; underscores count for nothing. -/
def naturalFrom? (value : Nat) : List Char → Option Nat
  | [] => some value
  | char :: rest =>
    if char = '_' then naturalFrom? value rest
    else if isDigit char then naturalFrom? (10 * value + digitValue char) rest
    else none

/-- Reads a number without a sign. It starts with a digit. -/
def natural? : List Char → Option Nat
  | [] => none
  | char :: rest => if char = '_' then none else naturalFrom? 0 (char :: rest)

/-- Reads a number with at most one sign. -/
def integer? : List Char → Option Int
  | '-' :: rest => (natural? rest).map fun value => -(value : Int)
  | '+' :: rest => (natural? rest).map fun value => (value : Int)
  | text => (natural? text).map fun value => (value : Int)

/-- Reads a number with at most one sign and no underscores. -/
def plainInteger? (text : List Char) : Option Int :=
  if text.contains '_' then none else integer? text

end LetDef.Text.Numeral
