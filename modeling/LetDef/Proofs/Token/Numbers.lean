import LetDef.Proofs.Program.Grammar
import LetDef.Proofs.Token.Spacing
import LetDef.Text.Numeral

/-!
# Numbers and the tokens that they are written as

A number is written as its digits, behind a minus sign if it is negative (`signsOf`). The digits
denote it again, whatever zeros stand in front of them. A text that begins with a sign or none and
digits begins with a number token, which ends where digits and places do (`scanFrom_signed`).
-/
namespace LetDef

open Lexeme Text

/-- The sign in front of a number that is written. -/
def Text.Numeral.signsOf (value : Int) : List Char :=
  if value < 0 then ['-'] else []

namespace Text.Numeral

/-- The sign of a number is one or none. -/
theorem isSigns_signsOf (value : Int) : IsSigns (signsOf value) := by
  rw [signsOf]
  split
  · exact .inr (.inr rfl)
  · exact .inl rfl

/-- A number is written as its sign and the digits of its magnitude. -/
theorem ofInt_eq (value : Int) : ofInt value = signsOf value ++ ofNat value.natAbs := by
  rw [ofInt, signsOf]
  split <;> rfl

/-- A number is written in digits, of which there is one at least. -/
theorem isDigits_ofNat (value : Nat) : IsDigits (ofNat value) := by
  refine ⟨Nat.toDigits_ne_nil, fun char member => ?_⟩
  have digital : char.isDigit = true :=
    Nat.isDigit_of_mem_toDigits (by decide) (Nat.le_refl 10) member
  simpa [isDigit, Char.isDigit, Char.le_def] using digital

/-- The digits of a number denote it. -/
theorem foldl_ofNat (value : Nat) :
    (ofNat value).foldl (fun value digit => 10 * value + digitValue digit) 0 = value :=
  Nat.ofDigitChars_ten_toDigits

/-- Zeros in front of digits do not count. -/
theorem foldl_zeros (zeros : Nat) (digits : List Char) :
    (List.replicate zeros '0' ++ digits).foldl
      (fun value digit => 10 * value + digitValue digit) 0 =
      digits.foldl (fun value digit => 10 * value + digitValue digit) 0 := by
  induction zeros with
  | zero => rfl
  | succ zeros ih => rwa [List.replicate_succ, List.cons_append, List.foldl_cons]

/-- The digits of a number denote it behind its sign, whatever zeros stand between them. -/
theorem signedValue_zeros (value : Int) (zeros : Nat) :
    signedValue (signsOf value) (List.replicate zeros '0' ++ ofNat value.natAbs) = value := by
  rw [signedValue, foldl_zeros, foldl_ofNat, signsOf]
  by_cases negative : value < 0
  · simp only [if_pos negative, if_true]
    omega
  · have other : ([] : List Char) ≠ ['-'] := by decide
    simp only [if_neg negative, if_neg other]
    omega

end Text.Numeral

namespace Lexeme

variable {signs digits places rest text : List Char}

/-- Where a run of digits begins. -/
theorem IsDigits.startsDigit_append (whole : IsDigits digits) (rest : List Char) :
    startsDigit (digits ++ rest) = true := by
  obtain ⟨digit, more, rfl, isDigit⟩ := whole.exists_cons
  exact isDigit

/-- Digits end where no digit follows. -/
theorem takeWhile_digits (whole : IsDigits digits) (ends : startsDigit rest = false) :
    (digits ++ rest).takeWhile isDigit = digits := by
  cases rest with
  | nil => rw [List.takeWhile_append_of_pos whole.digits, List.takeWhile_nil, List.append_nil]
  | cons next later => exact takeWhile_append_cons whole.digits ends

/-- What follows digits is left where no digit follows. -/
theorem dropWhile_digits (whole : IsDigits digits) (ends : startsDigit rest = false) :
    (digits ++ rest).dropWhile isDigit = rest := by
  cases rest with
  | nil => rw [List.dropWhile_append_of_pos whole.digits, List.dropWhile_nil]
  | cons next later => exact dropWhile_append_cons whole.digits ends

/-- Digits alone are a whole number. -/
theorem unsigned_digits (whole : IsDigits digits) (ends : startsDigit rest = false)
    (pointless : startsFraction rest = false) :
    unsigned (digits ++ rest) = ⟨.integer, digits, rest⟩ := by
  simp only [unsigned, takeWhile_digits whole ends, dropWhile_digits whole ends, pointless,
    Bool.false_eq_true, if_false]

/-- Digits, a point and places are a decimal number. -/
theorem unsigned_places (whole : IsDigits digits) (fraction : IsDigits places)
    (ends : startsDigit rest = false) :
    unsigned (digits ++ '.' :: (places ++ rest)) = ⟨.decimal, digits ++ '.' :: places, rest⟩ := by
  obtain ⟨digit, more, rfl, isDigit⟩ := fraction.exists_cons
  have point : startsDigit ('.' :: (digit :: more ++ rest)) = false := rfl
  have begins : startsFraction ('.' :: (digit :: more ++ rest)) = true := isDigit
  simp only [unsigned, takeWhile_digits whole point, dropWhile_digits whole point, begins, if_true,
    List.drop_one, List.tail_cons, takeWhile_digits fraction ends, dropWhile_digits fraction ends]

/-- A digit begins no name. -/
theorem isNameStart_of_isDigit {digit : Char} (digital : isDigit digit = true) :
    isNameStart digit = false := by
  simp only [isDigit, isNameStart, isLetter, Bool.and_eq_true, Bool.or_eq_false_iff,
    Bool.and_eq_false_iff, decide_eq_true_eq, decide_eq_false_iff_not, Char.le_def,
    UInt32.le_iff_toNat_le] at digital ⊢
  have low : '0'.val.toNat = 48 := rfl
  have high : '9'.val.toNat = 57 := rfl
  have small : 'a'.val.toNat = 97 := rfl
  have capital : 'A'.val.toNat = 65 := rfl
  refine ⟨⟨.inl (by omega), .inl (by omega)⟩, ?_⟩
  rintro rfl
  have underscore : '_'.val.toNat = 95 := rfl
  omega

/-- A number token begins a text that begins with digits behind a sign or none. -/
theorem scanFrom_signed (signed : IsSigns signs) (begins : startsDigit text = true)
    (index : Nat) :
    Token.scanFrom index (signs ++ text) =
      (Token.scanFrom (index + Text.utf8Length (signs ++ (unsigned text).chars))
        (unsigned text).rest).map
        (⟨(unsigned text).kind, String.ofList (signs ++ (unsigned text).chars), index⟩ :: ·) := by
  rcases signed.eq_nil_or with rfl | ⟨sign, rfl, isSign⟩
  · cases text with
    | nil => contradiction
    | cons digit rest =>
      have digital : isDigit digit = true := begins
      have solid := isBlank_of_isNamePart (isNamePart_of_isDigit digital)
      have read : first digit rest = .ok (unsigned (digit :: rest)) := by
        simp only [first, isNameStart_of_isDigit digital, digital, Bool.false_eq_true, if_false,
          if_true]
      rw [List.nil_append, scanFrom_cons solid, read, List.nil_append]
  · have solid : isBlank sign = false :=
      (isSigns_of_isSign isSign).isBlank_eq_false (List.mem_singleton_self sign)
    have unnamed : isNameStart sign = false := by
      simp only [Lexeme.isSign, Bool.or_eq_true, decide_eq_true_eq] at isSign
      rcases isSign with rfl | rfl <;> rfl
    have read : first sign text = .ok ((unsigned text).cons sign) := by
      simp only [first, unnamed, isDigit_of_isSign isSign, isSign, begins, Bool.and_self,
        Bool.false_eq_true, if_false, if_true]
    rw [List.singleton_append, scanFrom_cons solid, read]
    rfl

/-- Digits behind a sign or none are one token. -/
theorem scan_digits (signed : IsSigns signs) (whole : IsDigits digits) :
    Token.scan (String.ofList (signs ++ digits)) =
      .ok [⟨.integer, String.ofList (signs ++ digits), 0⟩] := by
  have alone : unsigned (digits ++ []) = ⟨.integer, digits, []⟩ := unsigned_digits whole rfl rfl
  rw [List.append_nil] at alone
  have begins := whole.startsDigit_append []
  rw [List.append_nil] at begins
  rw [Token.scan, String.toList_ofList, scanFrom_signed signed begins, alone, Token.scanFrom]
  rfl

/-- Digits and places behind a sign or none are one token. -/
theorem scan_places (signed : IsSigns signs) (whole : IsDigits digits)
    (fraction : IsDigits places) :
    Token.scan (String.ofList (signs ++ digits ++ '.' :: places)) =
      .ok [⟨.decimal, String.ofList (signs ++ digits ++ '.' :: places), 0⟩] := by
  have alone : unsigned (digits ++ '.' :: (places ++ [])) =
      ⟨.decimal, digits ++ '.' :: places, []⟩ := unsigned_places whole fraction rfl
  rw [List.append_nil] at alone
  have begins := whole.startsDigit_append ('.' :: places)
  rw [Token.scan, String.toList_ofList, List.append_assoc, scanFrom_signed signed begins, alone,
    Token.scanFrom]
  rfl

end Lexeme

end LetDef
