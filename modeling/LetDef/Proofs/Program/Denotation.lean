import LetDef.Proofs.Program.Grammar

/-!
# What literals denote

The reader of a literal computes its value from the text of the token. It finds the value that a
token denotes (`Token.Denotes.ofToken_eq`), and on words of the lexical classes it finds no other
(`Token.Shaped.denotes_of_ofToken`).
-/
namespace LetDef

open Lexeme Text

section Numbers

variable {signs digits places : List Char}

/-- A digit is none of the other characters. -/
theorem ne_of_isDigit {digit char : Char} (digital : isDigit digit = true)
    (other : isDigit char = false) : digit ≠ char := by
  rintro rfl
  exact Bool.noConfusion (digital.symm.trans other)

/-- Digits are read as the number that they make behind those before them. -/
theorem naturalFrom?_of_digits (digits : List Char) (each : ∀ char ∈ digits, isDigit char = true)
    (value : Nat) : Numeral.naturalFrom? value digits =
      some (digits.foldl (fun value digit => 10 * value + digitValue digit) value) := by
  induction digits generalizing value with
  | nil => rfl
  | cons digit rest ih =>
    obtain ⟨isDigit, others⟩ := List.forall_mem_cons.mp each
    have plain : digit ≠ '_' := ne_of_isDigit isDigit rfl
    rw [Numeral.naturalFrom?, if_neg plain, if_pos isDigit, ih others, List.foldl_cons]

/-- Digits behind a sign or none are read as their number, once plus signs are left out. -/
theorem integer?_of_signed (signed : IsSigns signs) (whole : IsDigits digits) :
    Numeral.integer? ((signs ++ digits).dropWhile (· = '+')) = some (signedValue signs digits) := by
  obtain ⟨digit, rest, rfl, isDigit⟩ := whole.exists_cons
  have noPlus : digit ≠ '+' := ne_of_isDigit isDigit rfl
  have noMinus : digit ≠ '-' := ne_of_isDigit isDigit rfl
  have plain : digit ≠ '_' := ne_of_isDigit isDigit rfl
  have natural := naturalFrom?_of_digits (digit :: rest) whole.digits 0
  have unsigned : Numeral.integer? (digit :: rest) = some (signedValue [] (digit :: rest)) := by
    unfold Numeral.integer?
    split
    next same => exact absurd (List.cons.inj same).1 noMinus
    next same => exact absurd (List.cons.inj same).1 noPlus
    · rw [Numeral.natural?, if_neg plain, natural]
      rfl
  rcases signed with rfl | rfl | rfl
  · rw [List.nil_append, List.dropWhile_cons_of_neg (by simpa using noPlus), unsigned]
  · rw [List.singleton_append, List.dropWhile_cons_of_pos (by decide),
      List.dropWhile_cons_of_neg (by simpa using noPlus), unsigned]
    rfl
  · rw [List.singleton_append, List.dropWhile_cons_of_neg (by decide), Numeral.integer?,
      Numeral.natural?, if_neg plain, natural]
    rfl

/-- What a number without letters begins with is no exponent mark and no point. -/
theorem plain_of_signed {char : Char} (signed : IsSigns signs)
    (each : ∀ digit ∈ digits, isDigit digit = true) (member : char ∈ signs ++ digits) :
    Decimal.isExponentMark char = false ∧ char ≠ '.' ∧ char ≠ '_' := by
  have plain : char = '+' ∨ char = '-' ∨ isDigit char = true := by
    rcases List.mem_append.mp member with sign | digit
    · rcases signed with rfl | rfl | rfl <;> simp_all
    · exact .inr (.inr (each char digit))
  refine ⟨?_, ?_, ?_⟩
  · rw [Decimal.isExponentMark, Bool.or_eq_false_iff, decide_eq_false_iff_not,
      decide_eq_false_iff_not]
    constructor <;> rintro rfl <;> revert plain <;> decide
  · rintro rfl
    revert plain
    decide
  · rintro rfl
    revert plain
    decide

/-- Leaving out plus signs in front of a number leaves what follows its first digit. -/
theorem dropWhile_signed (signed : IsSigns signs) (whole : IsDigits digits) (rest : List Char) :
    (signs ++ digits ++ rest).dropWhile (· = '+') =
      (signs ++ digits).dropWhile (· = '+') ++ rest := by
  obtain ⟨digit, later, rfl, isDigit⟩ := whole.exists_cons
  have noPlus : digit ≠ '+' := ne_of_isDigit isDigit rfl
  have stays : decide (digit = '+') = false := decide_eq_false noPlus
  rcases signed with rfl | rfl | rfl <;> simp [stays]

/-- Digits and places behind a sign or none are read as their number, once plus signs are left out,
if the places can be counted in 64 bits. -/
theorem ofText?_of_signed (signed : IsSigns signs) (whole : IsDigits digits)
    (fraction : IsDigits places) :
    Decimal.ofText? ((signs ++ digits ++ '.' :: places).dropWhile (· = '+')) =
      if Decimal.isScale places.length then
        some ⟨signedValue signs (digits ++ places), places.length⟩
      else none := by
  have joined : IsDigits (digits ++ places) :=
    ⟨List.append_ne_nil_of_left_ne_nil whole.filled _,
      List.forall_mem_append.mpr ⟨whole.digits, fraction.digits⟩⟩
  have number := integer?_of_signed signed joined
  rw [← List.append_assoc, dropWhile_signed signed whole] at number
  rw [dropWhile_signed signed whole]
  have inFront : ∀ char ∈ (signs ++ digits).dropWhile (· = '+'),
      Decimal.isExponentMark char = false ∧ char ≠ '.' ∧ char ≠ '_' := fun char member =>
    plain_of_signed signed whole.digits ((List.dropWhile_sublist _).subset member)
  have behind : ∀ char ∈ places,
      Decimal.isExponentMark char = false ∧ char ≠ '.' ∧ char ≠ '_' := fun char member =>
    @plain_of_signed [] places char (.inl rfl) fraction.digits member
  generalize (signs ++ digits).dropWhile (· = '+') = front at number inFront
  have unmarked : ∀ char ∈ front ++ '.' :: places, (!Decimal.isExponentMark char) = true := by
    intro char member
    rcases List.mem_append.mp member with before | after
    · rw [(inFront char before).1, Bool.not_false]
    · rcases List.mem_cons.mp after with rfl | after
      · rfl
      · rw [(behind char after).1, Bool.not_false]
  have base : (front ++ '.' :: places).takeWhile (!Decimal.isExponentMark ·) =
      front ++ '.' :: places := by
    have taken := @List.takeWhile_append_of_pos _ _ _ [] unmarked
    rwa [List.append_nil, List.takeWhile_nil, List.append_nil] at taken
  have noExponent : (front ++ '.' :: places).dropWhile (!Decimal.isExponentMark ·) = [] := by
    have dropped := @List.dropWhile_append_of_pos _ _ _ [] unmarked
    rwa [List.append_nil, List.dropWhile_nil] at dropped
  have pointless : ∀ char ∈ front, (char != '.') = true := fun char member =>
    bne_iff_ne.mpr (inFront char member).2.1
  have point : ('.' != '.') = false := rfl
  have counted : places.filter (· != '_') = places :=
    List.filter_eq_self.mpr fun char member => bne_iff_ne.mpr (behind char member).2.2
  have noPower : Decimal.exponent? [] = some 0 := rfl
  rw [Decimal.ofText?, base, noExponent, noPower, takeWhile_append_cons pointless point,
    dropWhile_append_cons pointless point, List.drop_one, List.tail_cons, Option.bind_eq_bind,
    Option.bind_some]
  dsimp only
  rw [number, counted, Option.bind_some, Int.sub_zero]

end Numbers

section Characters

variable {excluded content rest : List Char} {value : Char}

/-- What stands for a character is read as that character. -/
theorem Lexeme.Means.decode_append (means : Means excluded content value)
    (backslash : '\\' ∈ excluded) (rest : List Char) :
    Escape.decode (content ++ rest) = value :: Escape.decode rest := by
  cases means with
  | escape => simp [Escape.decode]
  | plain free =>
    have other : value ≠ '\\' := fun same => free (same ▸ backslash)
    cases rest with
    | nil => rfl
    | cons next later =>
      rw [List.singleton_append, Escape.decode, if_neg other]

/-- What stands for characters one after the other is read as those characters. -/
theorem decode_of_means {items : List (List Char × Char)} (backslash : '\\' ∈ excluded)
    (each : ∀ item ∈ items, Means excluded item.1 item.2) :
    Escape.decode (items.flatMap (·.1)) = items.map (·.2) := by
  induction items with
  | nil => rfl
  | cons item items ih =>
    obtain ⟨means, others⟩ := List.forall_mem_cons.mp each
    rw [List.flatMap_cons, means.decode_append backslash, ih others, List.map_cons]

/-- What stands for a character may stand in a literal. -/
theorem Lexeme.Means.item (means : Means excluded content value) :
    Item excluded content := by
  cases means with
  | escape marked => exact .escape marked
  | plain free => exact .plain free

/-- What may stand in a literal stands for a character. -/
theorem Lexeme.Item.exists_means (one : Item excluded content) :
    ∃ value, Means excluded content value := by
  cases one with
  | escape marked => exact ⟨_, .escape marked⟩
  | plain free => exact ⟨_, .plain free⟩

/-- What may stand in a literal one after the other stands for characters. -/
theorem exists_means_of_items {contents : List (List Char)}
    (each : ∀ content ∈ contents, Item excluded content) :
    ∃ items : List (List Char × Char), (∀ item ∈ items, Means excluded item.1 item.2) ∧
      contents.flatten = items.flatMap (·.1) := by
  induction contents with
  | nil => exact ⟨[], by simp, rfl⟩
  | cons content contents ih =>
    obtain ⟨one, others⟩ := List.forall_mem_cons.mp each
    obtain ⟨value, means⟩ := one.exists_means
    obtain ⟨items, meanings, same⟩ := ih others
    refine ⟨(content, value) :: items, List.forall_mem_cons.mpr ⟨means, meanings⟩, ?_⟩
    rw [List.flatten_cons, List.flatMap_cons, same]

end Characters

namespace Token

variable {token : Token} {value : Literal}

/-- The inside of a literal in quotes. -/
theorem content_eq {quote : Char} {inside : List Char}
    (written : token.literal.toList = quote :: (inside ++ [quote])) :
    token.content = Escape.decode inside := by
  rw [content, written, List.drop_one, List.tail_cons, List.dropLast_concat]

/-- The value that a token denotes is read. -/
theorem Denotes.ofToken_eq (denotes : token.Denotes value) :
    Literal.ofToken token = .ok (some value) := by
  cases denotes with
  | integer kind signed whole written =>
    simp only [Literal.ofToken, kind, numeral, written, integer?_of_signed signed whole]
  | decimal kind signed whole fraction stored written =>
    simp only [Literal.ofToken, kind, numeral, written, ofText?_of_signed signed whole fraction,
      stored, if_true]
  | character kind one written =>
    have decoded := one.decode_append (by decide) []
    rw [List.append_nil] at decoded
    simp only [Literal.ofToken, kind, content_eq written, decoded, Escape.decode]
  | string kind each written =>
    simp only [Literal.ofToken, kind, content_eq written, decode_of_means (by decide) each]

/-- A token that denotes a value is a word of its class. -/
theorem Denotes.shaped (denotes : token.Denotes value) : token.Shaped := by
  unfold Shaped
  cases denotes with
  | integer kind signed whole written =>
    rw [kind, written]
    exact .integer signed whole
  | decimal kind signed whole fraction _ written =>
    rw [kind, written]
    exact .decimal signed whole fraction
  | character kind one written =>
    rw [kind, written]
    exact .character one.item
  | string kind each written =>
    rw [kind, written, List.flatMap_def]
    exact .string (List.forall_mem_map.mpr fun item member => (each item member).item)

/-- A literal that is a word of its class denotes a value, unless it has more places than can be
counted. -/
theorem Shaped.exists_denotes (shaped : token.Shaped)
    (valued : token.kind ∈ [TokenKind.integer, .decimal, .character, .string]) :
    (∃ value, token.Denotes value) ∨
      (token.kind = .decimal ∧ Literal.ofToken token = .error .invalidDecimal ∧
        Decimal.scaleLimit ≤ token.literal.toList.length) := by
  unfold Shaped at shaped
  generalize written : token.literal.toList = word at shaped
  cases kind : token.kind with
  | identifier | operator =>
    rw [kind] at valued
    simp at valued
  | integer =>
    rw [kind] at shaped
    cases shaped with
    | integer signed digits => exact .inl ⟨_, .integer kind signed digits written⟩
  | decimal =>
    rw [kind] at shaped
    cases shaped with
    | @decimal signs digits places signed first fraction =>
      cases stored : Decimal.isScale places.length with
      | true => exact .inl ⟨_, .decimal kind signed first fraction stored written⟩
      | false =>
        refine .inr ⟨rfl, ?_, ?_⟩
        · simp only [Literal.ofToken, kind, numeral, written,
            ofText?_of_signed signed first fraction, stored, Bool.false_eq_true, if_false]
        · rw [Decimal.isScale, Bool.and_eq_false_iff, decide_eq_false_iff_not,
            decide_eq_false_iff_not] at stored
          simp only [List.length_append, List.length_cons]
          omega
  | character =>
    rw [kind] at shaped
    cases shaped with
    | character one =>
      obtain ⟨_, means⟩ := one.exists_means
      exact .inl ⟨_, .character kind means written⟩
  | string =>
    rw [kind] at shaped
    cases shaped with
    | string each =>
      obtain ⟨items, meanings, same⟩ := exists_means_of_items each
      exact .inl ⟨_, .string kind meanings (same ▸ written)⟩

/-- The value that is read from a token that is a word of its class is the one it denotes. -/
theorem Shaped.denotes_of_ofToken (shaped : token.Shaped)
    (read : Literal.ofToken token = .ok (some value)) : token.Denotes value := by
  have valued : token.kind ∈ [TokenKind.integer, .decimal, .character, .string] := by
    cases kind : token.kind <;> simp [Literal.ofToken, kind] at read ⊢
  rcases shaped.exists_denotes valued with ⟨other, denotes⟩ | ⟨_, failed, _⟩
  · have same := denotes.ofToken_eq.symm.trans read
    injection same with same
    injection same with same
    exact same ▸ denotes
  · rw [failed] at read
    contradiction

end Token

end LetDef
