import LetDef.Proofs.Java.Emission
import LetDef.Proofs.Program.Layout
import LetDef.Proofs.Program.Literals
import LetDef.Proofs.Program.Parsing
import LetDef.Proofs.Token.Numbers
import LetDef.Proofs.Typing.Acceptance

/-!
# Numbers in Java, read again

The Java text of a number is read again as a token. A whole number comes back as it is. A decimal
number comes back as it is, with all its places, exactly if it is written with all its places
(`Decimal.isPlain`); zero is written without any and comes back as a whole number, and a number
with more than five zeros behind its point is written with an exponent, which the language does
not have: the text falls into a number and a name.
-/
namespace LetDef

open Lexeme Text

/-- The number is not zero, and at most five zeros stand between its point and its digits. -/
def Decimal.isPlain (value : Decimal) : Bool :=
  value.digits ≠ 0 && value.scale - (Numeral.ofNat value.digits.natAbs).length ≤ 5

/-- The Java text of the literal is one token of the class, and that is a literal of the same
value. -/
def Literal.Relexes (value : Literal) (kind : TokenKind) : Prop :=
  ∃ token, Token.scan (Java.literal value) = .ok [token] ∧ token.kind = kind ∧
    Literal.ofToken token = .ok (some value)

/-- The text of a literal is one token, which denotes the literal. -/
theorem Literal.relexes_of_denotes {value : Literal} {kind : TokenKind}
    (scanned : Token.scan (Java.literal value) = .ok [⟨kind, Java.literal value, 0⟩])
    (denotes : Token.Denotes ⟨kind, Java.literal value, 0⟩ value) : value.Relexes kind :=
  ⟨_, scanned, rfl, denotes.ofToken_eq⟩

/-- Whole numbers are read again. -/
theorem Literal.relexes_integer (number : Int) : (Literal.integer number).Relexes .integer := by
  have signed := Numeral.isSigns_signsOf number
  have whole := Numeral.isDigits_ofNat number.natAbs
  have value : signedValue (Numeral.signsOf number) (Numeral.ofNat number.natAbs) = number :=
    Numeral.signedValue_zeros number 0
  have written : Java.literal (.integer number) =
      String.ofList (Numeral.signsOf number ++ Numeral.ofNat number.natAbs) := by
    rw [Java.literal, Numeral.ofInt_eq]
  refine Literal.relexes_of_denotes ?_ ?_
  · rw [written]
    exact scan_digits signed whole
  · have denotes : Token.Denotes ⟨.integer, Java.literal (.integer number), 0⟩
        (.integer (signedValue (Numeral.signsOf number) (Numeral.ofNat number.natAbs))) :=
      .integer rfl signed whole (by rw [written, String.toList_ofList])
    rwa [value] at denotes

namespace Decimal

variable {value : Decimal}

/-- A number that is not zero is written as its sign and its digits at its scale. -/
theorem display_of_ne_zero (filled : value.digits ≠ 0) :
    value.display = Numeral.signsOf value.digits ++
      magnitudeText (Numeral.ofNat value.digits.natAbs) value.scale := by
  simp only [display, if_neg filled, Numeral.signsOf]
  split <;> rfl

/-- Zero is written without places. -/
theorem display_of_eq_zero (zero : value.digits = 0) : value.display = ['0'] := by
  rw [display, zero]
  rfl

/-- Digits with a point among them or in front of them: the digits behind the point are as many as
there are to be, and no others than zeros are added. -/
theorem pointed_spec {digits : List Char} (whole : IsDigits digits) {places : Nat}
    (fraction : 0 < places) :
    ∃ zeros front back, pointed digits places = front ++ '.' :: back ∧ IsDigits front ∧
      IsDigits back ∧ back.length = places ∧
        front ++ back = List.replicate zeros '0' ++ digits := by
  by_cases fewer : places < digits.length
  · refine ⟨0, digits.take (digits.length - places), digits.drop (digits.length - places), ?_,
      ⟨?_, ?_⟩, ⟨?_, ?_⟩, ?_, ?_⟩
    · rw [pointed, if_pos fewer]
    · apply List.ne_nil_of_length_pos
      rw [List.length_take]
      omega
    · exact fun char member => whole.digits char (List.mem_of_mem_take member)
    · apply List.ne_nil_of_length_pos
      rw [List.length_drop]
      omega
    · exact fun char member => whole.digits char (List.mem_of_mem_drop member)
    · rw [List.length_drop]
      omega
    · rw [List.take_append_drop]
      rfl
  · refine ⟨places - digits.length + 1, ['0'],
      List.replicate (places - digits.length) '0' ++ digits, ?_, ⟨?_, ?_⟩, ⟨?_, ?_⟩, ?_, ?_⟩
    · rw [pointed, if_neg fewer]
      rfl
    · exact List.cons_ne_nil _ _
    · exact List.forall_mem_singleton.mpr rfl
    · exact List.append_ne_nil_of_right_ne_nil _ whole.filled
    · refine List.forall_mem_append.mpr ⟨fun char member => ?_, whole.digits⟩
      rw [List.eq_of_mem_replicate member]
      rfl
    · rw [List.length_append, List.length_replicate]
      omega
    · rw [List.replicate_succ, List.singleton_append, List.cons_append]

/-- A number with places that is plain is written with them. -/
theorem magnitudeText_of_isPlain (plain : value.isPlain) (fraction : 0 < value.scale) :
    magnitudeText (Numeral.ofNat value.digits.natAbs) value.scale =
      pointed (Numeral.ofNat value.digits.natAbs) value.scale.toNat := by
  rw [isPlain, Bool.and_eq_true, decide_eq_true_iff, decide_eq_true_iff] at plain
  rw [magnitudeText, if_neg (by simp only [Bool.and_eq_true, decide_eq_true_eq]; omega),
    if_neg (by omega), if_neg (by omega)]

/-- A number that is neither zero nor plain is written with an exponent. -/
theorem magnitudeText_of_not_isPlain (filled : value.digits ≠ 0) (tiny : value.isPlain = false)
    (fraction : 0 < value.scale) :
    ∃ power, IsDigits power ∧ magnitudeText (Numeral.ofNat value.digits.natAbs) value.scale =
      leading (Numeral.ofNat value.digits.natAbs) ++ 'E' :: '-' :: power := by
  have small : 5 < value.scale - (Numeral.ofNat value.digits.natAbs).length := by
    rw [isPlain, decide_eq_true filled, Bool.true_and, decide_eq_false_iff_not] at tiny
    omega
  refine ⟨Numeral.ofNat (value.scale - (Numeral.ofNat value.digits.natAbs).length + 1).natAbs,
    Numeral.isDigits_ofNat _, ?_⟩
  rw [magnitudeText, if_pos (by simp only [Bool.and_eq_true, decide_eq_true_eq]; omega),
    Numeral.ofInt, if_neg (by omega)]

end Decimal

namespace Lexeme

variable {signs digits power : List Char}

/-- An exponent is a name. -/
theorem scanFrom_exponent (power : List Char) (whole : IsDigits power) (index : Nat) :
    Token.scanFrom index ('E' :: '-' :: power) =
      .ok [⟨.identifier, String.ofList ('E' :: '-' :: power), index⟩] := by
  have parts : ∀ char ∈ 'E' :: '-' :: power, isNamePart char = true := by
    refine List.forall_mem_cons.mpr ⟨by decide, List.forall_mem_cons.mpr ⟨by decide, ?_⟩⟩
    exact fun char member => isNamePart_of_isDigit (whole.digits char member)
  have taken := @List.takeWhile_append_of_pos _ _ _ [] parts
  have dropped := @List.dropWhile_append_of_pos _ _ _ [] parts
  rw [List.append_nil, List.takeWhile_nil, List.append_nil] at taken
  rw [List.append_nil, List.dropWhile_nil] at dropped
  have read : first 'E' ('-' :: power) = .ok ⟨.identifier, 'E' :: '-' :: power, []⟩ := by
    have start : isNameStart 'E' = true := by decide
    rw [first, if_pos start, name, taken, dropped]
  have solid : isBlank 'E' = false := by decide
  rw [scanFrom_cons solid, read]
  simp only [Token.scanFrom]
  rfl

/-- A number with an exponent is two tokens, the second of which is a name. -/
theorem scan_scientific (signed : IsSigns signs) (whole : IsDigits digits)
    (exponent : IsDigits power) :
    ∃ number mark, Token.scan
        (String.ofList (signs ++ (Decimal.leading digits ++ 'E' :: '-' :: power))) =
      .ok [number, mark] ∧ mark.kind = .identifier := by
  obtain ⟨digit, rest, rfl, digital⟩ := whole.exists_cons
  have single : IsDigits [digit] :=
    ⟨List.cons_ne_nil _ _, List.forall_mem_singleton.mpr digital⟩
  rw [Token.scan, String.toList_ofList]
  cases rest with
  | nil =>
    have alone : unsigned ([digit] ++ 'E' :: '-' :: power) =
        ⟨.integer, [digit], 'E' :: '-' :: power⟩ := unsigned_digits single rfl rfl
    rw [Decimal.leading, scanFrom_signed signed (single.startsDigit_append _), alone,
      scanFrom_exponent power exponent]
    exact ⟨_, _, rfl, rfl⟩
  | cons next later =>
    have places : IsDigits (next :: later) :=
      ⟨List.cons_ne_nil _ _, (List.forall_mem_cons.mp whole.digits).2⟩
    have alone : unsigned ([digit] ++ '.' :: (next :: later ++ 'E' :: '-' :: power)) =
        ⟨.decimal, [digit] ++ '.' :: (next :: later), 'E' :: '-' :: power⟩ :=
      unsigned_places single places rfl
    have joined : Decimal.leading (digit :: next :: later) ++ 'E' :: '-' :: power =
        [digit] ++ '.' :: (next :: later ++ 'E' :: '-' :: power) := rfl
    rw [joined, scanFrom_signed signed (single.startsDigit_append _), alone,
      scanFrom_exponent power exponent]
    exact ⟨_, _, rfl, rfl⟩

end Lexeme

namespace Literal

variable {number : Decimal}

/-- Zero with places is read again as a whole number. -/
theorem scan_decimal_of_eq_zero (zero : number.digits = 0) :
    Token.scan (Java.literal (.decimal number)) = .ok [⟨.integer, "0", 0⟩] := by
  rw [Java.literal, Decimal.display_of_eq_zero zero]
  exact Token.scan_of_toOption (by decide +kernel)

/-- A number that is neither zero nor plain is read again as two tokens. -/
theorem scan_decimal_of_not_isPlain (filled : number.digits ≠ 0) (tiny : number.isPlain = false)
    (fraction : 0 < number.scale) :
    ∃ first mark, Token.scan (Java.literal (.decimal number)) = .ok [first, mark] ∧
      mark.kind = .identifier := by
  obtain ⟨power, exponent, scientific⟩ :=
    Decimal.magnitudeText_of_not_isPlain filled tiny fraction
  rw [Java.literal, Decimal.display_of_ne_zero filled, scientific]
  exact scan_scientific (Numeral.isSigns_signsOf _) (Numeral.isDigits_ofNat _) exponent

/-- A plain number with places is read again. -/
theorem relexes_decimal (plain : number.isPlain) (fraction : 0 < number.scale)
    (stored : Decimal.isScale number.scale) : (Literal.decimal number).Relexes .decimal := by
  have filled : number.digits ≠ 0 := by
    rw [Decimal.isPlain, Bool.and_eq_true, decide_eq_true_iff] at plain
    exact plain.1
  have signed := Numeral.isSigns_signsOf number.digits
  have positive : 0 < number.scale.toNat := by omega
  obtain ⟨zeros, front, back, pointed, whole, places, size, joined⟩ :=
    Decimal.pointed_spec (Numeral.isDigits_ofNat number.digits.natAbs) positive
  have written : Java.literal (.decimal number) =
      String.ofList (Numeral.signsOf number.digits ++ front ++ '.' :: back) := by
    rw [Java.literal, Decimal.display_of_ne_zero filled,
      Decimal.magnitudeText_of_isPlain plain fraction, pointed, List.append_assoc]
  have scale : (back.length : Int) = number.scale := by
    rw [size]
    omega
  have value : signedValue (Numeral.signsOf number.digits) (front ++ back) = number.digits := by
    rw [joined, Numeral.signedValue_zeros]
  refine relexes_of_denotes ?_ ?_
  · rw [written]
    exact scan_places signed whole places
  · have denotes : Token.Denotes ⟨.decimal, Java.literal (.decimal number), 0⟩
        (.decimal ⟨signedValue (Numeral.signsOf number.digits) (front ++ back), back.length⟩) :=
      .decimal rfl signed whole places (by rwa [scale])
        (by rw [written, String.toList_ofList])
    rwa [value, scale] at denotes

/-- A number with places is read again as a decimal number exactly if it is plain. -/
theorem relexes_decimal_iff (fraction : 0 < number.scale) (stored : Decimal.isScale number.scale) :
    (Literal.decimal number).Relexes .decimal ↔ number.isPlain := by
  refine ⟨fun ⟨token, scanned, kind, _⟩ => ?_, fun plain => relexes_decimal plain fraction stored⟩
  by_cases zero : number.digits = 0
  · rw [scan_decimal_of_eq_zero zero] at scanned
    cases scanned
    contradiction
  · cases plain : number.isPlain with
    | true => rfl
    | false =>
      obtain ⟨first, mark, scannedTwo, _⟩ := scan_decimal_of_not_isPlain zero plain fraction
      rw [scannedTwo] at scanned
      cases scanned

/-- A decimal number that a token denotes has places, as many as can be counted. -/
theorem scale_of_writes {token : Token} (writes : token.Writes (.decimal number)) :
    0 < number.scale ∧ Decimal.isScale number.scale := by
  rcases writes with keyword | denotes
  · unfold ofKeyword? at keyword
    split at keyword
    · cases keyword
    split at keyword
    · cases keyword
    split at keyword <;> cases keyword
  · cases denotes with
    | decimal _ _ _ fraction stored _ =>
      exact ⟨Int.natCast_pos.mpr (List.length_pos_iff.mpr fraction.filled), stored⟩

end Literal

/-- Each literal of the program that a text is is written by one of its tokens. -/
theorem Program.exists_writes {text : String} {program : Program}
    (read : Program.ofText text = .ok program) {value : Literal} {slot : Option Ty}
    (member : .literal value slot ∈ program.expressions) : ∃ token : Token, token.Writes value := by
  obtain ⟨tokens, scanned, parsed⟩ := Program.ofText_eq_ok.mp read
  have derives := Parser.program_isProgram (Token.allShaped_of_scan scanned)
    (Program.ofTokens_eq_ok.mp parsed)
  obtain ⟨tree, outermost, inside⟩ := List.mem_flatMap.mp member
  obtain ⟨token, _, writes⟩ := derives.spelled tree outermost value slot inside
  exact ⟨token, writes⟩

/-- The expression is a literal of the value. -/
def Expr.writes (value : Literal) : Expr → Bool
  | .literal found _ => found = value
  | _ => false

/-- A literal of the value stands in the program. -/
def Program.writes (program : Program) (value : Literal) : Bool :=
  program.expressions.any (·.writes value)

/-- A value that is written in a program has a literal there. -/
theorem Program.exists_literal {program : Program} {value : Literal}
    (written : program.writes value) : ∃ slot, .literal value slot ∈ program.expressions := by
  obtain ⟨tree, member, same⟩ := List.any_eq_true.mp written
  unfold Expr.writes at same
  split at same
  next found slot =>
    obtain rfl := of_decide_eq_true same
    exact ⟨slot, member⟩
  next => contradiction

/-- The Java text of a program holds that of each of its literals. A whole number is read again from
its text as one token of the same value. A decimal number is read again from its text as one token
of its class, which has the same value and the same places, exactly if it is plain; zero is read as
a whole number, and any other number that is not plain as two tokens, the second of which is a
name. -/
theorem decimal_relexes_iff_isPlain {text : String} {program : Program}
    (read : Program.ofText text = .ok program) {value : Literal} {slot : Option Ty}
    (member : .literal value slot ∈ program.expressions) :
    Java.Occurs (Java.literal value) (Java.generate program) ∧
    (∀ number, value = .integer number → value.Relexes .integer) ∧
    ∀ number, value = .decimal number →
      (value.Relexes .decimal ↔ number.isPlain) ∧
      (number.digits = 0 → Token.scan (Java.literal value) = .ok [⟨.integer, "0", 0⟩]) ∧
      (number.digits ≠ 0 → number.isPlain = false →
        ∃ first mark, Token.scan (Java.literal value) = .ok [first, mark] ∧
          mark.kind = .identifier) := by
  refine ⟨Java.Occurs.generate member, ?_, ?_⟩
  · rintro number rfl
    exact Literal.relexes_integer number
  · rintro number rfl
    obtain ⟨token, writes⟩ := Program.exists_writes read member
    obtain ⟨fraction, stored⟩ := Literal.scale_of_writes writes
    exact ⟨Literal.relexes_decimal_iff fraction stored, Literal.scan_decimal_of_eq_zero,
      fun filled tiny => Literal.scan_decimal_of_not_isPlain filled tiny fraction⟩

/-- A field with minus a half, which is written with a place more than it needs. -/
def halfText : String :=
  "LET x: Decimal = -0.50;"

/-- Minus a half, written with a place more than it needs, is read again with both of them. -/
theorem decimal_relexes_iff_isPlain_half :
    ∃ program slot, Program.ofText halfText = .ok program ∧
      .literal (.decimal ⟨-50, 2⟩) slot ∈ program.expressions ∧
      (Literal.decimal ⟨-50, 2⟩).Relexes .decimal := by
  have computed : (Program.ofText halfText).toOption.any (·.writes (.decimal ⟨-50, 2⟩)) := by
    decide +kernel
  obtain ⟨program, read, written⟩ := exists_ok_of_any computed
  obtain ⟨slot, member⟩ := Program.exists_literal written
  have plain : Decimal.isPlain ⟨-50, 2⟩ := by decide +kernel
  have relexes := (decimal_relexes_iff_isPlain read member).2.2 _ rfl
  exact ⟨program, slot, read, member, relexes.1.mpr plain⟩

/-- A program with zero and with a ten millionth. -/
def tinyText : String :=
  "LET x: Decimal = 0.0; LET y: Decimal = 0.0000001; DEF main(): Integer DO RETURN 0; END"

/-- In a program that is compiled, zero with a place has a Java text that is a whole number, and the
Java text of a ten millionth falls into a number and a name. -/
theorem decimal_relexes_iff_isPlain_tiny :
    ∃ (program : Program) (one other : Option Ty),
      Compilation.ofText tinyText = .ok program.compile ∧
      .literal (.decimal ⟨0, 1⟩) one ∈ program.expressions ∧
      .literal (.decimal ⟨1, 7⟩) other ∈ program.expressions ∧
      Token.scan (Java.literal (.decimal ⟨0, 1⟩)) = .ok [⟨.integer, "0", 0⟩] ∧
      Token.scan (Java.literal (.decimal ⟨1, 7⟩)) =
        .ok [⟨.integer, "1", 0⟩, ⟨.identifier, "E-7", 1⟩] := by
  have computed : (Program.ofTextAnalyzed tinyText).toOption.any fun program =>
      program.writes (.decimal ⟨0, 1⟩) && program.writes (.decimal ⟨1, 7⟩) := by decide +kernel
  obtain ⟨program, analyzed, passed⟩ := exists_ok_of_any computed
  rw [Bool.and_eq_true] at passed
  obtain ⟨one, zero⟩ := Program.exists_literal passed.1
  obtain ⟨other, tiny⟩ := Program.exists_literal passed.2
  refine ⟨program, one, other, ?_, zero, tiny, ?_, ?_⟩
  · rw [Compilation.ofText, analyzed]
    rfl
  · exact Literal.scan_decimal_of_eq_zero rfl
  · exact Token.scan_of_toOption (by decide +kernel)

end LetDef
