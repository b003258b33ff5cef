import LetDef.Java.Program
import LetDef.Proofs.Java.Quoting
import LetDef.Proofs.Token.Numbers

/-!
# Names in front of parentheses

What a Java text calls, seen from the text alone: `Java.heads` reads it character by character,
passes over what stands in quotes, and lists the names directly in front of a parenthesis. A text
whose parts are read from outside of quotes, with no name begun, has the names of its parts one
after the other (`Java.Scans.append`).
-/
namespace LetDef.Java

open Text (isLetter isDigit Line)

/-- A character of the names that are written in Java, or the point between two of them. -/
def isNamePart (char : Char) : Bool :=
  isLetter char || isDigit char || char = '_' || char = '.'

/-- Where the reader of a Java text is. -/
inductive Place where
  /-- Outside of quotes, behind this part of a name. -/
  | code (name : List Char)
  /-- Between two of these quotes. -/
  | quoted (quote : Char)
  /-- Behind a backslash between two of these quotes. -/
  | escaped (quote : Char)
  deriving DecidableEq

namespace Place

/-- Where the reader is behind one more character. -/
def step : Place → Char → Place
  | .code name, char =>
    if char = '"' || char = '\'' then .quoted char
    else if isNamePart char then .code (name ++ [char])
    else .code []
  | .quoted quote, char =>
    if char = '\\' then .escaped quote else if char = quote then .code [] else .quoted quote
  | .escaped quote, _ => .quoted quote

/-- Where the reader is behind a text. -/
def after (place : Place) (text : List Char) : Place :=
  text.foldl step place

/-- The name that the reader is behind, if a parenthesis comes next. -/
def head : Place → Char → List String
  | .code name, char => if char = '(' && !name.isEmpty then [String.ofList name] else []
  | _, _ => []

/-- The names in a text that stand directly in front of a parenthesis. -/
def heads (place : Place) : List Char → List String
  | [] => []
  | char :: rest => place.head char ++ (place.step char).heads rest

/-- Behind two texts the reader is where the second one leads from behind the first one. -/
theorem after_append (place : Place) (one two : List Char) :
    place.after (one ++ two) = (place.after one).after two :=
  List.foldl_append

/-- The names in two texts are those in the first one and then those in the second one. -/
theorem heads_append (place : Place) (one two : List Char) :
    place.heads (one ++ two) = place.heads one ++ (place.after one).heads two := by
  induction one generalizing place with
  | nil => rfl
  | cons first rest ih =>
    rw [List.cons_append, heads, heads, ih, List.append_assoc]
    rfl

end Place

/-- The names of a Java text that stand directly in front of a parenthesis, outside of quotes. -/
def heads (text : String) : List String :=
  Place.heads (.code []) text.toList

example : heads "f(\"g(\", System.out.println('\\'', h (1)))" = ["f", "System.out.println"] := by
  decide +kernel

/-- Outside of quotes the text has these names in front of parentheses, and `last` is the part of a
name at its end. -/
structure Scans (text : String) (names : List String) (last : List Char) : Prop where
  /-- It ends outside of quotes. -/
  ends : Place.after (.code []) text.toList = .code last
  /-- It has these names. -/
  heads : heads text = names

/-- Outside of quotes the text has these names in front of parentheses, and it ends there. -/
def Shows (text : String) (names : List String) : Prop :=
  ∃ last, Scans text names last

/-- Behind a name or none, the text has no name in front of a parenthesis, and it ends without
having begun one. -/
def Gap (text : String) : Prop :=
  ∀ name, Place.after (.code name) text.toList = .code [] ∧
    Place.heads (.code name) text.toList = []

/-- Quotes and the opening parenthesis. -/
def marks : List Char := ['"', '\'', '(']

/-- There are neither quotes nor an opening parenthesis in the text. -/
def Calm (text : String) : Prop :=
  ∀ char ∈ text.toList, char ∉ marks

instance (text : String) : Decidable (Calm text) :=
  List.decidableBAll (fun char => char ∉ marks) text.toList

/-- Without marks are two texts one after the other if each is. -/
theorem Calm.append {one two : String} (first : Calm one) (second : Calm two) :
    Calm (one ++ two) := by
  rw [Calm, String.toList_append]
  exact List.forall_mem_append.mpr ⟨first, second⟩

/-- What holds of texts one after the other if it holds of each, holds of texts that are joined. -/
theorem of_intercalate {holds : String → Prop} (empty : holds "")
    (append : ∀ {one two}, holds one → holds two → holds (one ++ two)) {separator : String}
    (apart : holds separator) {texts : List String} (each : ∀ text ∈ texts, holds text) :
    holds (separator.intercalate texts) := by
  induction texts with
  | nil => exact empty
  | cons first rest ih =>
    obtain ⟨begun, others⟩ := List.forall_mem_cons.mp each
    cases rest with
    | nil =>
      rw [String.intercalate_singleton]
      exact begun
    | cons second later =>
      rw [String.intercalate_cons_cons]
      exact append (append begun apart) (ih others)

/-- Without marks are texts that are joined if each of them is, and what stands between them. -/
theorem Calm.intercalate {separator : String} (apart : Calm separator) {texts : List String}
    (calm : ∀ text ∈ texts, Calm text) : Calm (separator.intercalate texts) :=
  of_intercalate (List.forall_mem_nil _) Calm.append apart calm

section Texts

variable {one two between text : String} {names more : List String} {last : List Char}

/-- A text that is read ends outside of quotes. -/
theorem Scans.shows (scans : Scans one names last) : Shows one names :=
  ⟨last, scans⟩

/-- A text goes on where another one ends without having begun a name. -/
theorem Scans.append (first : Scans one names []) (second : Scans two more last) :
    Scans (one ++ two) (names ++ more) last where
  ends := by rw [String.toList_append, Place.after_append, first.ends, second.ends]
  heads := by
    rw [Java.heads, String.toList_append, Place.heads_append, first.ends]
    exact congrArg₂ _ first.heads second.heads

/-- A text goes on where another one ends without having begun a name. -/
theorem Shows.after (second : Shows two more) (first : Scans one names []) :
    Shows (one ++ two) (names ++ more) :=
  second.imp fun _ scans => first.append scans

/-- Behind a gap no name has begun. -/
theorem Shows.gap (first : Shows one names) (gap : Gap between) :
    Scans (one ++ between) names [] := by
  obtain ⟨last, ends, has⟩ := first
  obtain ⟨done, none⟩ := gap last
  refine ⟨?_, ?_⟩
  · rw [String.toList_append, Place.after_append, ends, done]
  · rw [Java.heads, String.toList_append, Place.heads_append, ends, none, List.append_nil]
    exact has

/-- A gap has no names. -/
theorem Gap.scans (gap : Gap between) : Scans between [] [] :=
  ⟨(gap []).1, (gap []).2⟩

/-- A character that is no quote does not begin a literal. -/
theorem Place.exists_step_code {char : Char} (noMark : char ≠ '"') (noApostrophe : char ≠ '\'')
    (name : List Char) :
    ∃ next, (Place.code name).step char = .code next ∧ next ⊆ name ++ [char] := by
  by_cases part : isNamePart char = true
  · exact ⟨name ++ [char], by simp [step, noMark, noApostrophe, part], List.Subset.refl _⟩
  · exact ⟨[], by simp [step, noMark, noApostrophe, part], List.nil_subset _⟩

/-- A text without quotes and parentheses is read behind any part of a name: there is no name in
front of a parenthesis, and the part of a name at its end is made of these characters. -/
theorem Calm.spec {chars : List Char} (calm : ∀ char ∈ chars, char ∉ marks) (name : List Char) :
    ∃ last, Place.after (.code name) chars = .code last ∧ Place.heads (.code name) chars = [] ∧
      last ⊆ name ++ chars := by
  induction chars generalizing name with
  | nil => exact ⟨name, rfl, rfl, List.subset_append_left name []⟩
  | cons char rest ih =>
    obtain ⟨plain, others⟩ := List.forall_mem_cons.mp calm
    simp only [marks, List.mem_cons, List.not_mem_nil, or_false, not_or] at plain
    obtain ⟨noMark, noApostrophe, noParenthesis⟩ := plain
    have quiet : Place.head (.code name) char = [] := by simp [Place.head, noParenthesis]
    obtain ⟨next, begun, few⟩ := Place.exists_step_code noMark noApostrophe name
    obtain ⟨last, ends, none, fewer⟩ := ih others next
    refine ⟨last, ?_, ?_, fun other member => ?_⟩
    · rw [Place.after, List.foldl_cons, begun]
      exact ends
    · rw [Place.heads, quiet, begun, none]
      rfl
    · rcases List.mem_append.mp (fewer member) with early | late
      · have among := few early
        simp only [List.mem_append, List.mem_singleton] at among
        simp only [List.mem_append, List.mem_cons]
        exact among.imp_right .inl
      · simp [late]

/-- A text without quotes and parentheses has no names in front of parentheses. -/
theorem Calm.shows (calm : Calm text) : Shows text [] := by
  obtain ⟨last, ends, none, _⟩ := Calm.spec calm []
  exact ⟨last, ends, none⟩

/-- A function is in front of the parenthesis behind it. -/
theorem Calm.scansHead (calm : Calm text) : Scans (text ++ "(") (heads (text ++ "(")) [] := by
  obtain ⟨last, ends, _⟩ := Calm.spec calm []
  refine ⟨?_, rfl⟩
  rw [String.toList_append, Place.after_append, ends]
  rfl

end Texts

/-- A quote begins a literal. -/
theorem Place.step_code {quote : Char} (quotes : quote ∈ ['\'', '"']) (name : List Char) :
    (Place.code name).step quote = .quoted quote := by
  simp only [List.mem_cons, List.not_mem_nil, or_false] at quotes
  rcases quotes with rfl | rfl <;> rfl

/-- The quote that begins a literal ends it. -/
theorem Place.step_quoted {quote : Char} (quotes : quote ∈ ['\'', '"']) :
    (Place.quoted quote).step quote = .code [] := by
  simp only [List.mem_cons, List.not_mem_nil, or_false] at quotes
  rcases quotes with rfl | rfl <;> rfl

/-- Between quotes a text that is escaped for them is passed over. -/
theorem Place.after_escaped {quote : Char} {text : List Char}
    (escaped : Lexeme.Escaped quote text) :
    (Place.quoted quote).after text = .quoted quote ∧ (Place.quoted quote).heads text = [] := by
  induction escaped with
  | nil => exact ⟨rfl, rfl⟩
  | mark _ _ ih => exact ih
  | @plain char rest ordinary _ ih =>
    have passed : (Place.quoted quote).step char = .quoted quote := by
      simp [step, Lexeme.ne_of_not_mem ordinary]
    rw [after, List.foldl_cons, heads, passed]
    exact ih

/-- A text in quotes has no names in front of parentheses, whatever it is. -/
theorem scans_quoted {quote : Char} (quotes : quote ∈ ['\'', '"']) (text : List Char) :
    Scans (quoted quote text) [] [] := by
  obtain ⟨ends, none⟩ := Place.after_escaped (Lexeme.escaped_encode quotes text)
  have opened := Place.step_code quotes []
  refine ⟨?_, ?_⟩
  · rw [toList_quoted, Place.after, List.foldl_cons, opened, ← Place.after, Place.after_append,
      ends]
    exact Place.step_quoted quotes
  · have quiet : Place.head (.code []) quote = [] := by simp [Place.head]
    rw [heads, toList_quoted, Place.heads, quiet, opened, Place.heads_append, none, ends]
    rfl

section Numbers

variable {digits : List Char}

/-- A character of a number as it is displayed. -/
def isNumeral (char : Char) : Bool :=
  isDigit char || char = '-' || char = '+' || char = '.' || char = 'e' || char = 'E'

/-- A digit is a character of a number. -/
theorem isNumeral_of_isDigit {char : Char} (digital : isDigit char = true) :
    isNumeral char = true := by
  simp [isNumeral, digital]

/-- The digits of a number. -/
theorem isNumeral_ofNat (value : Nat) : ∀ char ∈ Text.Numeral.ofNat value, isNumeral char = true :=
  fun char member => isNumeral_of_isDigit ((Text.Numeral.isDigits_ofNat value).digits char member)

/-- A number with its sign. -/
theorem isNumeral_ofInt (value : Int) :
    ∀ char ∈ Text.Numeral.ofInt value, isNumeral char = true := by
  have digital := isNumeral_ofNat value.natAbs
  rw [Text.Numeral.ofInt]
  split
  · exact List.forall_mem_cons.mpr ⟨rfl, digital⟩
  · exact digital

/-- A number of zeros. -/
theorem isNumeral_zeros (count : Nat) :
    ∀ char ∈ List.replicate count '0', isNumeral char = true := by
  intro char member
  rw [List.eq_of_mem_replicate member]
  rfl

/-- Digits with a point. -/
theorem isNumeral_pointed (digital : ∀ char ∈ digits, isNumeral char = true) (places : Nat) :
    ∀ char ∈ Decimal.pointed digits places, isNumeral char = true := by
  rw [Decimal.pointed]
  split
  · refine List.forall_mem_append.mpr ⟨fun char member => ?_, List.forall_mem_cons.mpr ⟨rfl, ?_⟩⟩
    · exact digital char (List.mem_of_mem_take member)
    · exact fun char member => digital char (List.mem_of_mem_drop member)
  · refine List.forall_mem_append.mpr ⟨List.forall_mem_cons.mpr ⟨rfl, ?_⟩, digital⟩
    exact List.forall_mem_cons.mpr ⟨rfl, isNumeral_zeros _⟩

/-- Digits with the point behind the first. -/
theorem isNumeral_leading (digital : ∀ char ∈ digits, isNumeral char = true) :
    ∀ char ∈ Decimal.leading digits, isNumeral char = true := by
  match digits with
  | [] => exact digital
  | [_] => exact digital
  | first :: second :: rest =>
    obtain ⟨begun, others⟩ := List.forall_mem_cons.mp digital
    exact List.forall_mem_cons.mpr ⟨begun, List.forall_mem_cons.mpr ⟨rfl, others⟩⟩

/-- A decimal number as it is displayed. -/
theorem isNumeral_display (value : Decimal) : ∀ char ∈ value.display, isNumeral char = true := by
  have digital := isNumeral_ofNat value.digits.natAbs
  have magnitude : ∀ scale,
      ∀ char ∈ Decimal.magnitudeText (Text.Numeral.ofNat value.digits.natAbs) scale,
        isNumeral char = true := by
    intro scale
    rw [Decimal.magnitudeText]
    split
    · refine List.forall_mem_append.mpr ⟨isNumeral_leading digital, ?_⟩
      exact List.forall_mem_cons.mpr ⟨rfl, List.forall_mem_cons.mpr ⟨rfl, isNumeral_ofInt _⟩⟩
    split
    · refine List.forall_mem_append.mpr ⟨digital, ?_⟩
      exact List.forall_mem_cons.mpr ⟨rfl, List.forall_mem_cons.mpr ⟨rfl, isNumeral_ofInt _⟩⟩
    split
    · exact List.forall_mem_append.mpr ⟨digital, isNumeral_zeros _⟩
    · exact isNumeral_pointed digital _
  simp only [Decimal.display]
  split
  · exact List.forall_mem_cons.mpr ⟨rfl, magnitude _⟩
  · exact magnitude _

/-- A decimal number is displayed with a digit. -/
theorem display_ne_nil (value : Decimal) : value.display ≠ [] := by
  have filled := (Text.Numeral.isDigits_ofNat value.digits.natAbs).filled
  have magnitude : ∀ scale,
      Decimal.magnitudeText (Text.Numeral.ofNat value.digits.natAbs) scale ≠ [] := by
    intro scale
    rw [Decimal.magnitudeText]
    split
    · exact List.append_ne_nil_of_right_ne_nil _ (List.cons_ne_nil _ _)
    split
    · exact List.append_ne_nil_of_left_ne_nil filled _
    split
    · exact List.append_ne_nil_of_left_ne_nil filled _
    rw [Decimal.pointed]
    split
    · exact List.append_ne_nil_of_right_ne_nil _ (List.cons_ne_nil _ _)
    · exact List.append_ne_nil_of_right_ne_nil _ filled
  simp only [Decimal.display]
  split
  · exact List.cons_ne_nil _ _
  · exact magnitude _

/-- Characters of numbers are no marks. -/
theorem not_mem_marks_of_isNumeral {char : Char} (numeral : isNumeral char = true) :
    char ∉ marks := by
  intro member
  simp only [marks, List.mem_cons, List.not_mem_nil, or_false] at member
  rcases member with rfl | rfl | rfl <;> contradiction

end Numbers

/-- A literal has no names in front of parentheses. -/
theorem shows_literal (value : Literal) : Shows (literal value) [] := by
  cases value with
  | nil => exact Calm.shows (by decide)
  | boolean value => cases value <;> exact Calm.shows (by decide)
  | integer value =>
    apply Calm.shows
    rw [Calm, literal, String.toList_ofList]
    exact fun char member => not_mem_marks_of_isNumeral (isNumeral_ofInt value char member)
  | decimal value =>
    apply Calm.shows
    rw [Calm, literal, String.toList_ofList]
    exact fun char member => not_mem_marks_of_isNumeral (isNumeral_display value char member)
  | character value => exact ⟨[], scans_quoted (by decide) [value]⟩
  | string value => exact ⟨[], scans_quoted (by decide) value.toList⟩

section Lines

variable {lines others : List Line} {names more : List String}

/-- Each line is read from outside of quotes and ends there, and together they have these names in
front of parentheses. -/
structure ShowsLines (lines : List Line) (names : List String) : Prop where
  /-- Each line ends outside of quotes. -/
  each : ∀ line ∈ lines, Shows line.text (heads line.text)
  /-- They have these names. -/
  heads : lines.flatMap (heads ·.text) = names

/-- A line with its names. -/
theorem Shows.line {text : String} (shows : Shows text names) (depth : Nat) :
    ShowsLines [⟨depth, text⟩] names := by
  obtain ⟨last, scans⟩ := shows
  refine ⟨List.forall_mem_singleton.mpr ⟨last, scans.ends, rfl⟩, ?_⟩
  rw [List.flatMap_singleton]
  exact scans.heads

/-- No lines have no names. -/
theorem showsLines_nil : ShowsLines [] [] :=
  ⟨List.forall_mem_nil _, rfl⟩

/-- Lines have the names of some of them and then those of the others. -/
theorem ShowsLines.append (first : ShowsLines lines names) (second : ShowsLines others more) :
    ShowsLines (lines ++ others) (names ++ more) where
  each := List.forall_mem_append.mpr ⟨first.each, second.each⟩
  heads := by rw [List.flatMap_append, first.heads, second.heads]

/-- A line without names in front of lines. -/
theorem ShowsLines.behind (shows : ShowsLines lines names) {line : Line}
    (quiet : Shows line.text []) : ShowsLines (line :: lines) names :=
  (quiet.line line.depth).append shows

/-- A block has the names of what is before it and then those of its lines. -/
theorem ShowsLines.block {depth : Nat} {head tail : String} (body : ShowsLines lines more)
    (before : Scans head names []) (behind : Shows tail []) :
    ShowsLines (Line.block depth head lines tail) (names ++ more) := by
  rw [Line.block]
  split
  next empty =>
    obtain rfl := List.isEmpty_iff.mp empty
    obtain rfl : [] = more := body.heads
    have braces : Gap "\x7b\x7d" := fun _ => ⟨rfl, rfl⟩
    have whole := (behind.after (before.append braces.scans)).line depth
    simpa only [List.append_nil] using whole
  next =>
    have opening : Gap "\x7b" := fun _ => ⟨rfl, rfl⟩
    have closing : Gap "\x7d" := fun _ => ⟨rfl, rfl⟩
    have first := (before.append opening.scans).shows.line depth
    have last := (behind.after closing.scans).line depth
    have all := (first.append body).append last
    simpa only [List.append_nil, List.singleton_append, List.nil_append] using all

/-- An indentation has no names. -/
theorem scans_indentation (depth : Nat) : Scans (Line.indentation depth) [] [] := by
  induction depth with
  | zero => exact ⟨rfl, rfl⟩
  | succ depth ih =>
    have unit : Gap Line.indentUnit := fun _ => ⟨rfl, rfl⟩
    have more : Line.indentation (depth + 1) = Line.indentUnit ++ Line.indentation depth := by
      rw [Line.indentation, List.replicate_succ, String.join_cons, ← Line.indentation]
    rw [more]
    exact unit.scans.append ih

/-- Lines one under the other have the names of the lines. -/
theorem ShowsLines.render (shows : ShowsLines lines names) : Shows (Line.render lines) names := by
  have broken : Gap "\n" := fun _ => ⟨rfl, rfl⟩
  obtain ⟨each, rfl⟩ := shows
  rw [Line.render]
  induction lines with
  | nil => exact (Calm.shows (by decide))
  | cons first rest ih =>
    obtain ⟨begun, others⟩ := List.forall_mem_cons.mp each
    have line : Shows first.indented (Java.heads first.text) := begun.after (scans_indentation _)
    cases rest with
    | nil =>
      rw [List.map_singleton, String.intercalate_singleton, List.flatMap_singleton]
      exact line
    | cons second later =>
      rw [List.map_cons, List.map_cons, String.intercalate_cons_cons, List.flatMap_cons]
      exact (ih others).after (line.gap broken)

end Lines

end LetDef.Java
