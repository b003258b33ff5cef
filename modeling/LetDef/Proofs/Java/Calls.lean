import LetDef.Builtin
import LetDef.Proofs.Java.Heads
import LetDef.Proofs.Program.Binders
import LetDef.Proofs.Program.Expressions
import LetDef.Proofs.Typing.Judgment

/-!
# What the Java text of a program calls

The names in front of parentheses in the Java text of a derived program are, in their order, those
of the calls in its fields, of the entry point, and of its methods with the calls in their bodies,
where a call is written with the name of the function in its slot (`Program.Judged.heads_generate`).
Names that programs bind have no point in them, so the text calls a builtin exactly if one of the
slots holds it (`Program.Known.mem_heads_iff`).
-/
namespace LetDef

open Java (Calm Gap Scans Shows ShowsLines)
open Text (Line)

/-- The function in the slot of a call. -/
def Expr.function? : Expr → Option Signature
  | .call _ _ slot _ | .memberCall _ _ _ slot _ => slot
  | _ => none

/-- The names in front of the parenthesis behind the name of a call. -/
def Expr.head : Expr → List String
  | .call name _ slot _ => Java.heads (Java.functionName name slot ++ "(")
  | _ => []

/-- The names in front of the parentheses of the calls in an expression. -/
def Expr.heads (value : Expr) : List String :=
  value.within.flatMap Expr.head

/-- The names in front of the parenthesis behind the name of a method, and of those of the calls in
its body. -/
def Method.heads (method : Method) : List String :=
  Java.heads (Java.functionName method.name method.slot ++ "(") ++
    (Stmt.outermostAll method.body).flatMap Expr.heads

/-- The names in front of the parentheses of the entry point. -/
def Java.entryHeads : List String :=
  ["main", "System.exit", "Main", ".main"]

/-- The names in front of the parentheses of fields, of the entry point and of methods. -/
def Program.heads (program : Program) : List String :=
  (program.fields.flatMap (·.value.toList)).flatMap Expr.heads ++ Java.entryHeads ++
    program.methods.flatMap Method.heads

section Words

variable {name : String}

/-- The characters of an identifier are neither marks nor points. -/
theorem not_mem_of_identifier (word : TokenKind.identifier.Word name.toList) :
    ∀ char ∈ name.toList, char ∉ Java.marks ∧ char ≠ '.' := by
  intro char member
  have part := word.isNamePart char member
  refine ⟨fun marked => ?_, ?_⟩
  · simp only [Java.marks, List.mem_cons, List.not_mem_nil, or_false] at marked
    rcases marked with rfl | rfl | rfl <;> contradiction
  · rintro rfl
    contradiction

/-- An identifier has no marks. -/
theorem calm_of_identifier (word : TokenKind.identifier.Word name.toList) : Calm name :=
  fun char member => (not_mem_of_identifier word char member).1

/-- There is no point in the names in front of the parenthesis behind an identifier. -/
theorem not_mem_of_mem_heads (word : TokenKind.identifier.Word name.toList) :
    ∀ head ∈ Java.heads (name ++ "("), '.' ∉ head.toList := by
  obtain ⟨last, ends, none, few⟩ := Calm.spec (calm_of_identifier word) []
  intro head member pointed
  rw [Java.heads, String.toList_append, Java.Place.heads_append, none, ends] at member
  have found : head ∈ Java.Place.head (.code last) '(' := by simpa [Java.Place.heads] using member
  rw [Java.Place.head] at found
  split at found
  · obtain rfl := List.mem_singleton.mp found
    rw [String.toList_ofList] at pointed
    exact (not_mem_of_identifier word '.' (few pointed)).2 rfl
  · exact absurd found List.not_mem_nil

end Words

/-- Built-in types have names without marks. -/
theorem Ty.calm_builtins : ∀ type ∈ Ty.builtins, Calm type.renderName := by decide

/-- The variable is written as an identifier, and its type without marks. -/
structure Variable.Plain (entry : Variable) : Prop where
  /-- It is an identifier. -/
  word : TokenKind.identifier.Word entry.renderName.toList
  /-- Its type has no marks. -/
  type : Calm entry.type.renderName

/-- The function is written as an identifier, and the type of its results without marks. -/
structure Signature.Plain (function : Signature) : Prop where
  /-- It is an identifier. -/
  word : TokenKind.identifier.Word function.renderName.toList
  /-- The type of its results has no marks. -/
  returns : Calm function.returns.renderName

/-- The function is a builtin, or it is plain. -/
def Signature.Known (function : Signature) : Prop :=
  (∃ builtin : Builtin, function = builtin.signature) ∨ function.Plain

namespace Signature.Known

variable {function : Signature}

/-- A function that is known has no marks in its name. -/
theorem calm (known : function.Known) : Calm function.renderName := by
  rcases known with ⟨builtin, rfl⟩ | plain
  · cases builtin
    decide
  · exact calm_of_identifier plain.word

/-- A function that is known has no marks in the type of its results. -/
theorem returns (known : function.Known) : Calm function.returns.renderName := by
  rcases known with ⟨builtin, rfl⟩ | plain
  · cases builtin
    decide
  · exact plain.returns

/-- What looks like a builtin is it. -/
theorem describes_iff (known : function.Known) (builtin : Builtin) :
    builtin.describes function ↔ function = builtin.signature := by
  constructor
  · intro described
    rcases known with ⟨other, rfl⟩ | plain
    · cases other
      cases builtin
      rfl
    · rw [Builtin.describes, Bool.and_eq_true, decide_eq_true_eq] at described
      have word := plain.word
      rw [described.1] at word
      cases builtin
      exact absurd rfl (not_mem_of_identifier word '.' (by decide)).2
  · rintro rfl
    cases builtin
    decide

/-- A call is written as one of a builtin exactly if it is one. -/
theorem mem_heads_iff (known : function.Known) (builtin : Builtin) :
    builtin.renderName ∈ Java.heads (function.renderName ++ "(") ↔
      function = builtin.signature := by
  constructor
  · intro member
    rcases known with ⟨other, rfl⟩ | plain
    · cases other
      cases builtin
      rfl
    · have pointless := not_mem_of_mem_heads plain.word _ member
      cases builtin
      exact absurd (by decide) pointless
  · rintro rfl
    cases builtin
    decide +kernel

end Signature.Known

/-- What the expression calls is known, if it is a call; and it is no member of an object. -/
def Expr.Known : Expr → Prop
  | .call _ _ slot _ => ∃ function, slot = some function ∧ function.Known
  | .member .. | .memberCall .. => False
  | .literal .. | .group .. | .binary .. | .variable .. => True

/-- A known expression calls a builtin in Java exactly if its slot holds that. -/
theorem Expr.Known.mem_head_iff {value : Expr} (known : value.Known) (builtin : Builtin) :
    builtin.renderName ∈ value.head ↔ value.function? = some builtin.signature := by
  cases value with
  | call name arguments slot type =>
    obtain ⟨function, rfl, known⟩ := known
    exact (known.mem_heads_iff builtin).trans Option.some_inj.symm
  | member | memberCall => exact known.elim
  | literal | group | binary | «variable» => simp [head, function?]

/-- Its name in Java is an identifier, and what it calls is known. -/
structure Method.Known (method : Method) : Prop where
  /-- Its name is an identifier. -/
  word : TokenKind.identifier.Word (Java.functionName method.name method.slot).toList
  /-- The calls are known. -/
  known : ∀ value ∈ Stmt.outermostAll method.body, ∀ part ∈ value.within, part.Known

/-- In Java the expression has the names of its calls in front of parentheses, and what they call is
known. -/
structure Expr.Shown (tree : Expr) : Prop where
  /-- The text has the names of the calls. -/
  shows : Shows (Java.expression tree) tree.heads
  /-- The calls are known. -/
  known : ∀ part ∈ tree.within, part.Known

namespace Java

variable {values : List Expr}

/-- The names of calls in expressions are those in each of them. -/
theorem heads_withinAll (values : List Expr) :
    (Expr.withinAll values).flatMap Expr.head = values.flatMap Expr.heads := by
  induction values with
  | nil => rfl
  | cons first rest ih =>
    rw [Expr.withinAll, List.flatMap_append, ih, List.flatMap_cons, Expr.heads]

/-- Further expressions add the names of their calls. -/
theorem shows_listAfter (shown : ∀ value ∈ values, value.Shown) {text : String}
    {names : List String} (shows : Shows text names) :
    Shows (text ++ listAfter values) (names ++ values.flatMap Expr.heads) := by
  have comma : Gap ", " := fun _ => ⟨rfl, rfl⟩
  induction values generalizing text names with
  | nil => simpa [listAfter] using shows
  | cons first rest ih =>
    obtain ⟨begun, others⟩ := List.forall_mem_cons.mp shown
    have further := ih others (begun.shows.after (shows.gap comma))
    simpa [listAfter, List.flatMap_cons, String.append_assoc] using further

/-- Expressions between commas have the names of their calls. -/
theorem shows_list (shown : ∀ value ∈ values, value.Shown) :
    Shows (list values) (values.flatMap Expr.heads) := by
  cases values with
  | nil => exact Calm.shows (by decide)
  | cons first rest =>
    obtain ⟨begun, others⟩ := List.forall_mem_cons.mp shown
    exact shows_listAfter others begun.shows

end Java

/-- The types that derived expressions have are written without marks. -/
theorem Literal.HasType.calm {value : Literal} {type : Ty} (typed : value.HasType type) :
    Calm type.renderName := by
  cases typed <;> decide

/-- The types that derived expressions have are written without marks. -/
theorem BinaryOp.HasType.calm {operator : BinaryOp} {left right type : Ty}
    (typed : operator.HasType left right type) : Calm type.renderName := by
  cases typed <;> decide

/-- The types that have names are written without marks. -/
theorem Ty.Named.calm {name : String} {type : Ty} (named : Ty.Named name type) :
    Calm type.renderName :=
  Ty.calm_builtins type named.1

namespace Context

variable {context : Context} {name : String}

/-- All variables and methods in scope are plain. -/
structure Plain (context : Context) : Prop where
  /-- The variables are plain. -/
  entries : ∀ frame ∈ context.inner :: context.outer, ∀ held ∈ frame, held.Plain
  /-- The methods are plain. -/
  methods : ∀ held ∈ context.methods, held.Plain

/-- At the beginning nothing is in scope but builtins. -/
theorem plain_start : start.Plain :=
  ⟨List.forall_mem_singleton.mpr (List.forall_mem_nil _), List.forall_mem_nil _⟩

namespace Plain

/-- A new frame has no variables. -/
theorem enter (plain : context.Plain) : context.enter.Plain :=
  ⟨List.forall_mem_cons.mpr ⟨List.forall_mem_nil _, plain.entries⟩, plain.methods⟩

/-- A plain variable may be added. -/
theorem bind (plain : context.Plain) {entry : Variable} (added : entry.Plain) :
    (context.bind entry).Plain := by
  obtain ⟨inner, outer⟩ := List.forall_mem_cons.mp plain.entries
  exact ⟨List.forall_mem_cons.mpr ⟨List.forall_mem_cons.mpr ⟨added, inner⟩, outer⟩, plain.methods⟩

/-- Plain variables may be added. -/
theorem bindAll {entries : List Variable} {context : Context} (plain : context.Plain)
    (added : ∀ entry ∈ entries, entry.Plain) : (context.bindAll entries).Plain := by
  induction entries generalizing context with
  | nil => exact plain
  | cons first rest ih =>
    obtain ⟨begun, others⟩ := List.forall_mem_cons.mp added
    exact ih (plain.bind begun) others

/-- A plain method may be added. -/
theorem define (plain : context.Plain) {function : Signature} (added : function.Plain) :
    (context.define function).Plain :=
  ⟨plain.entries, List.forall_mem_cons.mpr ⟨added, plain.methods⟩⟩

/-- The results of the method around do not matter. -/
theorem returning (plain : context.Plain) (type : Ty) : (context.returning type).Plain :=
  ⟨plain.entries, plain.methods⟩

/-- The variable that is found is plain. -/
theorem of_findVariable? (plain : context.Plain) {entry : Variable}
    (found : context.findVariable? name = some entry) : entry.Plain := by
  obtain ⟨frame, listed, held⟩ := List.exists_of_findSome?_eq_some found
  exact plain.entries frame listed entry (List.mem_of_find?_eq_some held)

/-- The function that is found is known. -/
theorem of_findFunction? (plain : context.Plain) {arity : Nat} {function : Signature}
    (found : context.findFunction? name arity = some function) : function.Known := by
  rw [findFunction?, Option.or_eq_some_iff] at found
  rcases found with held | ⟨_, given⟩
  · exact .inr (plain.methods function (List.mem_of_find?_eq_some held))
  · obtain ⟨builtin, _, rfl⟩ := Option.map_eq_some_iff.mp given
    exact .inl ⟨builtin, rfl⟩

mutual

/-- A derived expression is shown in Java, and its type is written without marks. -/
theorem elaborates (plain : context.Plain) {source tree : Expr} {type : Ty}
    (derived : Elaborates context source tree type) : tree.Shown ∧ Calm type.renderName := by
  have space : Gap " " := fun _ => ⟨rfl, rfl⟩
  have opening : Scans "(" [] [] := ⟨rfl, rfl⟩
  have closing : Gap ")" := fun _ => ⟨rfl, rfl⟩
  cases derived with
  | literal typed =>
    exact ⟨⟨Java.shows_literal _, List.forall_mem_singleton.mpr trivial⟩, typed.calm⟩
  | @group operator left right tree type inner =>
    obtain ⟨shown, calm⟩ := elaborates plain inner
    refine ⟨⟨?_, List.forall_mem_cons.mpr ⟨trivial, shown.known⟩⟩, calm⟩
    have joined := ((shown.shows.after opening).gap closing).shows
    simpa [Java.expression, Expr.heads, Expr.within, Expr.head] using joined
  | @binary operator left right leftTree rightTree leftType rightType type first second typed =>
    obtain ⟨shownLeft, _⟩ := elaborates plain first
    obtain ⟨shownRight, _⟩ := elaborates plain second
    refine ⟨⟨?_, List.forall_mem_cons.mpr ⟨trivial,
      List.forall_mem_append.mpr ⟨shownLeft.known, shownRight.known⟩⟩⟩, typed.calm⟩
    have symbol : Calm operator.javaSymbol := by cases operator <;> decide
    have joined :=
      shownRight.shows.after ((symbol.shows.after (shownLeft.shows.gap space)).gap space)
    simpa [Java.expression, Expr.heads, Expr.within, Expr.head] using joined
  | «variable» found =>
    have entry := plain.of_findVariable? found
    refine ⟨⟨?_, List.forall_mem_singleton.mpr trivial⟩, entry.type⟩
    exact (calm_of_identifier entry.word).shows
  | @call name sources trees types function arguments found suits =>
    have known := plain.of_findFunction? found
    have shown := elaboratesAll plain arguments
    refine ⟨⟨?_, List.forall_mem_cons.mpr ⟨⟨function, rfl, known⟩, ?_⟩⟩, known.returns⟩
    · have joined := (((Java.shows_list shown).after known.calm.scansHead).gap closing).shows
      simpa [Java.expression, Java.functionName, Expr.heads, Expr.within, Expr.head,
        Java.heads_withinAll] using joined
    · intro part member
      obtain ⟨tree, listed, inside⟩ := Expr.mem_withinAll.mp member
      exact (shown tree listed).known part inside

/-- Derived expressions are shown in Java. -/
theorem elaboratesAll (plain : context.Plain) {sources trees : List Expr} {types : List Ty}
    (derived : ElaboratesAll context sources trees types) : ∀ tree ∈ trees, tree.Shown := by
  cases derived with
  | nil => exact List.forall_mem_nil _
  | cons first rest =>
    exact List.forall_mem_cons.mpr ⟨(elaborates plain first).1, elaboratesAll plain rest⟩

end

/-- A first value is shown in Java, and the type of its variable is written without marks. -/
theorem initial (plain : context.Plain) {written : Option String} {source tree : Option Expr}
    {type : Ty} (derived : context.Initial written source tree type) :
    (∀ value ∈ tree.toList, value.Shown) ∧ Calm type.renderName := by
  cases derived with
  | inferred value =>
    obtain ⟨shown, calm⟩ := plain.elaborates value
    exact ⟨List.forall_mem_singleton.mpr shown, calm⟩
  | empty named => exact ⟨List.forall_mem_nil _, named.calm⟩
  | checked named value suits =>
    exact ⟨List.forall_mem_singleton.mpr (plain.elaborates value).1, named.calm⟩

end Plain

end Context

/-- The lines have the names of the calls in these expressions in front of parentheses, and what is
called is known. -/
structure Java.Writes (lines : List Line) (values : List Expr) : Prop where
  /-- The lines have the names of the calls. -/
  shows : ShowsLines lines (values.flatMap Expr.heads)
  /-- The calls are known. -/
  known : ∀ value ∈ values, ∀ part ∈ value.within, part.Known

namespace Java

variable {lines others : List Line} {values more : List Expr} {value : Expr}

/-- No lines are written for no expressions. -/
theorem writes_nil : Writes [] [] :=
  ⟨showsLines_nil, List.forall_mem_nil _⟩

/-- Lines are written for what each part of them is written for. -/
theorem Writes.append (first : Writes lines values) (second : Writes others more) :
    Writes (lines ++ others) (values ++ more) where
  shows := by
    rw [List.flatMap_append]
    exact first.shows.append second.shows
  known := List.forall_mem_append.mpr ⟨first.known, second.known⟩

/-- A line that is written for expressions. -/
theorem Writes.line (shown : ∀ value ∈ values, value.Shown) {text : String}
    (shows : Shows text (values.flatMap Expr.heads)) (depth : Nat) :
    Writes [⟨depth, text⟩] values :=
  ⟨shows.line depth, fun value member => (shown value member).known⟩

/-- A block that is written for an expression in front of it and for what its lines are written
for. -/
theorem Writes.block (body : Writes lines values) (shown : value.Shown) {head tail : String}
    (before : Scans head value.heads []) (behind : Shows tail []) (depth : Nat) :
    Writes (Line.block depth head lines tail) (value :: values) where
  shows := by
    rw [List.flatMap_cons]
    exact body.shows.block before behind
  known := List.forall_mem_cons.mpr ⟨shown.known, body.known⟩

/-- A line without an expression. -/
theorem Writes.before (writes : Writes lines values) {line : Line} (quiet : Shows line.text []) :
    Writes (lines ++ [line]) values := by
  have alone : Writes [line] [] := ⟨quiet.line line.depth, List.forall_mem_nil _⟩
  simpa using writes.append alone

/-- A variable is written with the calls in its first value. -/
theorem shows_variableText {type name : String} (calm : Calm type) (calmName : Calm name)
    {initial : Option Expr} (shown : ∀ value ∈ initial.toList, value.Shown) :
    Shows (variableText type name initial) (initial.toList.flatMap Expr.heads) := by
  have space : Gap " " := fun _ => ⟨rfl, rfl⟩
  have equals : Gap " = " := fun _ => ⟨rfl, rfl⟩
  have stop : Gap ";" := fun _ => ⟨rfl, rfl⟩
  have named : Shows (type ++ " " ++ name) [] := calmName.shows.after (calm.shows.gap space)
  cases initial with
  | none => exact (named.gap stop).shows
  | some value =>
    have content := List.forall_mem_singleton.mp shown
    have joined := ((content.shows.after (named.gap equals)).gap stop).shows
    simpa [variableText] using joined

end Java

namespace Context.Plain

open Java (Writes writes_nil)

variable {depth : Nat}

mutual

/-- The lines of a derived statement are written for its expressions, if the names that it binds are
identifiers, and what follows it sees plain variables. -/
theorem checks {context behind : Context} (plain : context.Plain) {source tree : Stmt}
    (words : ∀ name ∈ source.binders, TokenKind.identifier.Word name.toList)
    (derived : Checks context source tree behind) (depth : Nat) :
    Writes (Java.statement depth tree) tree.outermost ∧ behind.Plain := by
  have stop : Gap ";" := fun _ => ⟨rfl, rfl⟩
  have closing : Gap ") " := fun _ => ⟨rfl, rfl⟩
  have nothing : Shows "" [] := Calm.shows (by decide)
  cases derived with
  | expression value =>
    obtain ⟨shown, _⟩ := plain.elaborates value
    have text := (shown.shows.gap stop).shows
    exact ⟨.line (List.forall_mem_singleton.mpr shown) (by simpa using text) depth, plain⟩
  | @declaration _ name written source tree type initial free =>
    obtain ⟨shown, calm⟩ := plain.initial initial
    have word := words name List.mem_cons_self
    have text := Java.shows_variableText calm (calm_of_identifier word) shown
    exact ⟨.line shown text depth, plain.bind ⟨word, calm⟩⟩
  | assignment target value suits =>
    obtain ⟨shownTarget, _⟩ := plain.elaborates target
    obtain ⟨shown, _⟩ := plain.elaborates value
    have equals : Gap " = " := fun _ => ⟨rfl, rfl⟩
    have text := ((shown.shows.after (shownTarget.shows.gap equals)).gap stop).shows
    refine ⟨.line ?_ (by simpa [Stmt.outermost] using text) depth, plain⟩
    exact List.forall_mem_cons.mpr ⟨shownTarget, List.forall_mem_singleton.mpr shown⟩
  | @conditional _ test condition yes accepted no rejected _ _ holds filled first second =>
    obtain ⟨shown, _⟩ := plain.elaborates holds
    obtain ⟨wordsYes, wordsNo⟩ := List.forall_mem_append.mp words
    obtain ⟨writesYes, _⟩ := checksAll plain.enter wordsYes first (depth + 1)
    obtain ⟨writesNo, _⟩ := checksAll plain.enter wordsNo second (depth + 1)
    refine ⟨?_, plain⟩
    have head : Scans ("if (" ++ Java.expression condition ++ ") ") condition.heads [] :=
      (shown.shows.after ⟨rfl, rfl⟩).gap closing
    rw [Java.statement]
    split
    next empty =>
      obtain rfl := List.isEmpty_iff.mp empty
      rw [Stmt.outermost, Stmt.outermostAll, List.append_nil]
      exact writesYes.block shown head nothing depth
    next =>
      have otherwise : Shows " else \x7b" [] := Calm.shows (by decide)
      have closed : Shows "\x7d" [] := Calm.shows (by decide)
      have branch := writesYes.block shown head otherwise depth
      exact (branch.append writesNo).before closed
  | @iteration _ name range value statements body _ runs filled inside =>
    obtain ⟨shown, _⟩ := plain.elaborates runs
    obtain ⟨word, wordsBody⟩ := List.forall_mem_cons.mp words
    have counter : (Variable.named name .integer).Plain :=
      ⟨word, Ty.calm_builtins .integer (by decide)⟩
    obtain ⟨writes, _⟩ := checksAll (plain.enter.bind counter) wordsBody inside (depth + 1)
    have between : Gap " : " := fun _ => ⟨rfl, rfl⟩
    have named : Shows ("for (int " ++ name) [] :=
      (calm_of_identifier word).shows.after (⟨rfl, rfl⟩ : Scans "for (int " [] [])
    have head := (shown.shows.after (named.gap between)).gap closing
    exact ⟨writes.block shown head nothing depth, plain⟩
  | @repetition _ test condition statements body _ holds inside =>
    obtain ⟨shown, _⟩ := plain.elaborates holds
    obtain ⟨writes, _⟩ := checksAll plain.enter words inside (depth + 1)
    have head : Scans ("while (" ++ Java.expression condition ++ ") ") condition.heads [] :=
      (shown.shows.after ⟨rfl, rfl⟩).gap closing
    exact ⟨writes.block shown head nothing depth, plain⟩
  | result value inMethod suits =>
    obtain ⟨shown, _⟩ := plain.elaborates value
    have word : Scans "return " [] [] := ⟨rfl, rfl⟩
    have text := ((shown.shows.after word).gap stop).shows
    exact ⟨.line (List.forall_mem_singleton.mpr shown) (by simpa using text) depth, plain⟩

/-- The lines of derived statements are written for their expressions. -/
theorem checksAll {context behind : Context} (plain : context.Plain) {sources trees : List Stmt}
    (words : ∀ name ∈ Stmt.bindersAll sources, TokenKind.identifier.Word name.toList)
    (derived : ChecksAll context sources trees behind) (depth : Nat) :
    Writes (Java.statements depth trees) (Stmt.outermostAll trees) ∧ behind.Plain := by
  cases derived with
  | nil => exact ⟨writes_nil, plain⟩
  | cons first rest =>
    obtain ⟨wordsFirst, wordsRest⟩ := List.forall_mem_append.mp words
    obtain ⟨writesFirst, between⟩ := checks plain wordsFirst first depth
    obtain ⟨writesRest, after⟩ := checksAll between wordsRest rest depth
    exact ⟨writesFirst.append writesRest, after⟩

end

/-- The line of a derived field is written for its first value, if its name is an identifier. -/
theorem checksField {context behind : Context} (plain : context.Plain) {source tree : Field}
    (word : TokenKind.identifier.Word source.name.toList)
    (derived : ChecksField context source tree behind) :
    Writes [Java.field tree] tree.value.toList ∧ behind.Plain := by
  cases derived with
  | field initial free =>
    obtain ⟨shown, calm⟩ := plain.initial initial
    have text := Java.shows_variableText calm (calm_of_identifier word) shown
    exact ⟨.line shown text 1, plain.bind ⟨word, calm⟩⟩

/-- The lines of derived fields are written for their first values. -/
theorem checksFields {context behind : Context} (plain : context.Plain)
    {sources trees : List Field}
    (words : ∀ field ∈ sources, TokenKind.identifier.Word field.name.toList)
    (derived : InTurn ChecksField context sources trees behind) :
    Writes (trees.map Java.field) (trees.flatMap (·.value.toList)) ∧ behind.Plain := by
  induction derived with
  | nil => exact ⟨writes_nil, plain⟩
  | cons first _ ih =>
    obtain ⟨word, others⟩ := List.forall_mem_cons.mp words
    obtain ⟨writesFirst, between⟩ := plain.checksField word first
    obtain ⟨writesRest, after⟩ := ih between others
    exact ⟨writesFirst.append writesRest, after⟩

/-- The parameters of a method are written without marks, and in its body they are plain. -/
theorem parameters {declared : List Parameter} {types : List Ty}
    (words : ∀ name ∈ declared.map Parameter.name, TokenKind.identifier.Word name.toList)
    (typed : Parameter.HaveTypes declared types) :
    (∀ text ∈ (types.map Ty.renderName).zipWith
      (fun type (parameter : Parameter) => type ++ " " ++ parameter.name) declared, Calm text) ∧
    ∀ entry ∈ declared.zipWith (fun parameter type => Variable.named parameter.name type) types,
      entry.Plain := by
  induction typed with
  | nil => exact ⟨List.forall_mem_nil _, List.forall_mem_nil _⟩
  | @cons parameter _ type _ named _ ih =>
    obtain ⟨word, others⟩ := List.forall_mem_cons.mp words
    obtain ⟨texts, entries⟩ := ih others
    have space : Calm " " := by decide
    have text := (named.calm.append space).append (calm_of_identifier word)
    exact ⟨List.forall_mem_cons.mpr ⟨text, texts⟩,
      List.forall_mem_cons.mpr ⟨⟨word, named.calm⟩, entries⟩⟩

/-- The lines of a derived method have the names in front of its parentheses, its name is an
identifier, and what it calls is known. -/
theorem checksMethod {context behind : Context} (plain : context.Plain) {source tree : Method}
    (words : ∀ name ∈ source.binders, TokenKind.identifier.Word name.toList)
    (derived : ChecksMethod context source tree behind) :
    ShowsLines (Java.method tree) tree.heads ∧ tree.Known ∧ behind.Plain := by
  cases derived with
  | @method function body inside stands empty undefined distinct checked =>
    obtain ⟨word, wordsInside⟩ := List.forall_mem_cons.mp words
    obtain ⟨wordsParameters, wordsBody⟩ := List.forall_mem_append.mp wordsInside
    obtain ⟨types, returns, rfl, typed, calm⟩ : ∃ types returns,
        function = .named source.name types returns ∧
        Parameter.HaveTypes source.parameters types ∧ Calm returns.renderName := by
      cases stands with
      | silent parameters => exact ⟨_, _, rfl, parameters, by decide⟩
      | returning parameters _ named => exact ⟨_, _, rfl, parameters, named.calm⟩
    obtain ⟨texts, entries⟩ := parameters wordsParameters typed
    have added : (Signature.named source.name types returns).Plain := ⟨word, calm⟩
    have named := plain.define added
    have entered := (named.enter.bindAll entries).returning returns
    obtain ⟨writes, _⟩ := entered.checksAll wordsBody checked 2
    refine ⟨?_, ?_, named⟩
    · have space : Gap " " := fun _ => ⟨rfl, rfl⟩
      have closing : Gap ") " := fun _ => ⟨rfl, rfl⟩
      have comma : Calm ", " := by decide
      have nothing : Shows "" [] := Calm.shows (by decide)
      have named := (calm.shows.gap space).append (calm_of_identifier word).scansHead
      have head := ((comma.intercalate texts).shows.after named).gap closing
      rw [List.nil_append, List.append_nil, ← String.append_assoc] at head
      exact writes.shows.block head nothing
    · exact ⟨word, writes.known⟩

/-- The lines of derived methods, with an empty line before each, have the names in front of their
parentheses. -/
theorem checksMethods {context behind : Context} (plain : context.Plain)
    {sources trees : List Method}
    (words : ∀ name ∈ sources.flatMap Method.binders, TokenKind.identifier.Word name.toList)
    (derived : InTurn ChecksMethod context sources trees behind) :
    ShowsLines (trees.flatMap fun declared => Line.blank :: Java.method declared)
      (trees.flatMap Method.heads) ∧ ∀ declared ∈ trees, declared.Known := by
  induction derived with
  | nil => exact ⟨Java.showsLines_nil, List.forall_mem_nil _⟩
  | cons first _ ih =>
    rw [List.flatMap_cons] at words
    obtain ⟨wordsFirst, others⟩ := List.forall_mem_append.mp words
    obtain ⟨shows, known, between⟩ := plain.checksMethod wordsFirst first
    obtain ⟨showsRest, knownRest⟩ := ih between others
    have empty : Shows Line.blank.text [] := Calm.shows (by decide)
    exact ⟨(shows.behind empty).append showsRest, List.forall_mem_cons.mpr ⟨known, knownRest⟩⟩

end Context.Plain

/-- The lines of the entry point have its names. -/
theorem Java.showsLines_entryPoint : ShowsLines entryPoint entryHeads := by
  have ends : ∀ line ∈ entryPoint, Place.after (.code []) line.text.toList = .code [] := by
    decide +kernel
  exact ⟨fun line member => ⟨[], ends line member, rfl⟩, by decide +kernel⟩

/-- The lines of fields, and the empty one behind them, are written for their first values. -/
theorem Java.Writes.fields {declared : List Field} {values : List Expr}
    (writes : Writes (declared.map field) values) : Writes (fields declared) values := by
  rw [Java.fields]
  split
  next empty =>
    rw [List.isEmpty_iff.mp empty] at writes
    exact writes
  next => exact writes.before (Calm.shows (by decide))

namespace Program

variable {source tree : Program}

/-- The calls of a program are known, and the names of its methods are identifiers. -/
structure Known (program : Program) : Prop where
  /-- The calls are known. -/
  calls : ∀ part ∈ program.expressions, part.Known
  /-- Its methods are known. -/
  methods : ∀ declared ∈ program.methods, declared.Known

/-- The Java text of a derived program has the names in front of parentheses that its fields, the
entry point and its methods have, and what it calls is known. -/
theorem Judged.heads_generate (judged : source.Judged tree)
    (words : ∀ name ∈ source.binders, TokenKind.identifier.Word name.toList) :
    Java.heads (Java.generate tree) = tree.heads ∧ tree.Known := by
  obtain ⟨loaded, final, fields, methods, _⟩ := judged
  obtain ⟨wordsFields, wordsMethods⟩ := List.forall_mem_append.mp words
  obtain ⟨writes, plain⟩ := Context.plain_start.checksFields
    (fun field listed => wordsFields field.name (List.mem_map_of_mem listed)) fields
  obtain ⟨shows, known⟩ := plain.checksMethods wordsMethods methods
  constructor
  · have first : Shows "public class Main \x7b" [] := Calm.shows (by decide)
    have empty : Shows Line.blank.text [] := Calm.shows (by decide)
    have last : Shows "\x7d" [] := Calm.shows (by decide)
    have opened : ShowsLines [⟨0, "public class Main \x7b"⟩, Line.blank] [] :=
      (first.line 0).append (empty.line 0)
    have closed : ShowsLines [Line.blank, ⟨0, "\x7d"⟩] [] := (empty.line 0).append (last.line 0)
    have lines := (((opened.append writes.fields.shows).append Java.showsLines_entryPoint).append
      shows).append closed
    obtain ⟨_, _, has⟩ := lines.render
    rw [List.nil_append, List.append_nil] at has
    exact has
  · refine ⟨fun part member => ?_, known⟩
    obtain ⟨value, outermost, inside⟩ := List.mem_flatMap.mp member
    rcases List.mem_append.mp outermost with listed | listed
    · exact writes.known value listed part inside
    · obtain ⟨declared, among, found⟩ := List.mem_flatMap.mp listed
      exact (known declared among).known value found part inside

/-- Where the names of methods are identifiers, a builtin is written in front of a parenthesis
exactly where a call is. -/
theorem Known.mem_heads (known : tree.Known) (builtin : Builtin) :
    builtin.renderName ∈ tree.heads ↔ builtin.renderName ∈ tree.expressions.flatMap Expr.head := by
  have pointed : '.' ∈ builtin.renderName.toList := by
    cases builtin
    decide
  have apart : builtin.renderName ∉ Java.entryHeads := by
    cases builtin
    decide
  have bodies : builtin.renderName ∈ tree.methods.flatMap Method.heads ↔
      builtin.renderName ∈ (tree.methods.flatMap fun declared =>
        Stmt.outermostAll declared.body).flatMap Expr.heads := by
    rw [List.flatMap_assoc, List.mem_flatMap, List.mem_flatMap]
    refine exists_congr fun declared => and_congr_right fun listed => ?_
    rw [Method.heads, List.mem_append]
    refine or_iff_right fun member => ?_
    exact not_mem_of_mem_heads (known.methods declared listed).word _ member pointed
  have parts : tree.expressions.flatMap Expr.head = tree.outermost.flatMap Expr.heads :=
    List.flatMap_assoc
  rw [parts, heads, outermost, List.flatMap_append, List.mem_append, List.mem_append, bodies,
    List.mem_append]
  exact or_congr_left (or_iff_left apart)

/-- A builtin is written in front of a parenthesis exactly if the slot of a call holds it. -/
theorem Known.mem_heads_iff (known : tree.Known) (builtin : Builtin) :
    builtin.renderName ∈ tree.heads ↔
      ∃ node ∈ tree.expressions, node.function? = some builtin.signature := by
  rw [known.mem_heads, List.mem_flatMap]
  exact exists_congr fun node =>
    and_congr_right fun member => (known.calls node member).mem_head_iff builtin

end Program

end LetDef
