import LetDef.Proofs.Java.Names
import LetDef.Proofs.Java.Rows

/-!
# Indentation of the Java text of a program

The fields, the methods and the statements of a program alone say how its Java text is laid out
(`Program.layout`): how many lines there are, how many blocks are open in front of each, and where
blocks open and close. Names and types in it are words, and literals are escaped, so that neither
opens or closes a block or breaks a line. So the Java text of a compiled program is read as rows
that are laid out like this and that are indented by their blocks
(`compiled_rows_indented_as_layout`).
-/
namespace LetDef

namespace Java

open Text (Line)

/-- A text without signs that does not begin with a space is neat. -/
theorem neat_of_plain {text : String} (plain : Plain text)
    (begins : text.toList.head?.any (· ≠ ' ')) : Neat text := by
  refine ⟨level_of_plain plain, ?_⟩
  cases written : text.toList with
  | nil =>
    rw [written] at begins
    contradiction
  | cons first rest =>
    have noBrace : first ≠ '\x7d' := by
      rintro rfl
      exact plain '\x7d' (written ▸ List.mem_cons_self) (by decide)
    rw [written] at begins
    simpa [noBrace] using begins

/-- A text of other characters than signs and spaces is neat. -/
theorem neat_of_visible {text : String} (filled : text.toList ≠ [])
    (visible : ∀ char ∈ text.toList, char ∉ ' ' :: signs) : Neat text := by
  have plain : Plain text :=
    fun char member sign => visible char member (List.mem_cons_of_mem _ sign)
  refine neat_of_plain plain ?_
  obtain ⟨first, rest, written⟩ := List.exists_cons_of_ne_nil filled
  have noSpace : first ≠ ' ' := by
    rintro rfl
    exact visible ' ' (written ▸ List.mem_cons_self) List.mem_cons_self
  rw [written]
  simpa using noSpace

/-- An identifier is neat. -/
theorem neat_of_identifier {name : String} (word : TokenKind.identifier.Word name.toList) :
    Neat name := by
  refine neat_of_visible word.ne_nil fun char member sign => ?_
  have part := word.isNamePart char member
  simp only [signs, List.mem_cons, List.not_mem_nil, or_false] at sign
  rcases sign with rfl | rfl | rfl | rfl | rfl | rfl | rfl <;> contradiction

/-- A number is neat. -/
theorem neat_of_numerals {chars : List Char} (filled : chars ≠ [])
    (numeral : ∀ char ∈ chars, isNumeral char = true) : Neat (String.ofList chars) := by
  refine neat_of_visible ?_ ?_ <;> rw [String.toList_ofList]
  · exact filled
  · intro char member sign
    have part := numeral char member
    simp only [signs, List.mem_cons, List.not_mem_nil, or_false] at sign
    rcases sign with rfl | rfl | rfl | rfl | rfl | rfl | rfl <;> contradiction

/-- What is escaped has no line break. -/
theorem not_mem_breaks_of_escaped {quote : Char} {chars : List Char}
    (escaped : Lexeme.Escaped quote chars) : ∀ char ∈ chars, char ∉ breaks := by
  induction escaped with
  | nil => exact List.forall_mem_nil _
  | @mark mark rest marked _ ih =>
    refine List.forall_mem_cons.mpr ⟨by decide, List.forall_mem_cons.mpr ⟨fun broken => ?_, ih⟩⟩
    simp only [breaks, List.mem_cons, List.not_mem_nil, or_false] at broken
    rcases broken with rfl | rfl <;> contradiction
  | @plain char rest ordinary _ ih =>
    refine List.forall_mem_cons.mpr ⟨fun broken => ordinary (List.mem_cons_of_mem _ ?_), ih⟩
    simp only [breaks, List.mem_cons, List.not_mem_nil, or_false] at broken
    rcases broken with rfl | rfl <;> decide

/-- A text in quotes is neat, whatever it is. -/
theorem neat_quoted {quote : Char} (quotes : quote ∈ ['\'', '"']) (text : List Char) :
    Neat (quoted quote text) := by
  have apart : quote ∉ breaks ∧ quote ≠ ' ' ∧ quote ≠ '\x7d' := by
    simp only [List.mem_cons, List.not_mem_nil, or_false] at quotes
    rcases quotes with rfl | rfl <;> decide
  have inside := not_mem_breaks_of_escaped (Lexeme.escaped_encode quotes text)
  refine ⟨⟨leads_quoted quotes text, ?_⟩, ?_⟩
  · rw [Unbroken, toList_quoted]
    exact List.forall_mem_cons.mpr ⟨apart.1,
      List.forall_mem_append.mpr ⟨inside, List.forall_mem_singleton.mpr apart.1⟩⟩
  · rw [toList_quoted]
    simp [apart.2]

/-- A literal is neat. -/
theorem neat_literal (value : Literal) : Neat (literal value) := by
  cases value with
  | nil => exact neat_of_plain (by decide) (by decide)
  | boolean value => cases value <;> exact neat_of_plain (by decide) (by decide)
  | integer value =>
    refine neat_of_numerals ?_ (isNumeral_ofInt value)
    rw [Text.Numeral.ofInt_eq]
    exact List.append_ne_nil_of_right_ne_nil _ (Text.Numeral.isDigits_ofNat _).filled
  | decimal value => exact neat_of_numerals (display_ne_nil value) (isNumeral_display value)
  | character value => exact neat_quoted (by decide) [value]
  | string value => exact neat_quoted (by decide) value.toList

/-- An operator is level. -/
theorem level_javaSymbol (operator : BinaryOp) : Level operator.javaSymbol := by
  cases operator <;> exact level_of_plain (by decide)

/-- A closing parenthesis is level. -/
theorem level_parenthesis : Level ")" :=
  level_of_plain (by decide)

mutual

/-- An expression is neat if the names in it are. -/
theorem Term.neat : ∀ value : Term, (∀ name ∈ value.names, Neat name) → Neat value.text
  | .literal value, _ => neat_literal value
  | .group inner, named => by
    have opening : Neat "(" := neat_of_plain (by decide) (by decide)
    exact (opening.append (Term.neat inner named).toLevel).append level_parenthesis
  | .binary operator left right, named => by
    obtain ⟨namedLeft, namedRight⟩ := List.forall_mem_append.mp named
    have space : Level " " := level_of_plain (by decide)
    exact ((((Term.neat left namedLeft).append space).append (level_javaSymbol operator)).append
      space).append (Term.neat right namedRight).toLevel
  | .variable name, named => named name List.mem_cons_self
  | .member receiver name, named => by
    obtain ⟨namedReceiver, namedMember⟩ := List.forall_mem_append.mp named
    have point : Level "." := level_of_plain (by decide)
    have last := namedMember name List.mem_cons_self
    exact ((Term.neat receiver namedReceiver).append point).append last.toLevel
  | .call name arguments, named => by
    obtain ⟨namedCall, namedArguments⟩ := List.forall_mem_cons.mp named
    have opening : Level "(" := level_of_plain (by decide)
    exact ((namedCall.append opening).append (Term.levelList arguments namedArguments)).append
      level_parenthesis
  | .memberCall receiver name arguments, named => by
    obtain ⟨namedReceiver, namedRest⟩ := List.forall_mem_append.mp named
    obtain ⟨namedCall, namedArguments⟩ := List.forall_mem_cons.mp namedRest
    have point : Level "." := level_of_plain (by decide)
    have opening : Level "(" := level_of_plain (by decide)
    exact (((((Term.neat receiver namedReceiver).append point).append namedCall.toLevel).append
      opening).append (Term.levelList arguments namedArguments)).append level_parenthesis

/-- Expressions with commas between them are level if the names in them are neat. -/
theorem Term.levelList : ∀ values : List Term, (∀ name ∈ Term.namesAll values, Neat name) →
    Level (Term.listText values)
  | [], _ => level_of_plain (by decide)
  | first :: rest, named => by
    obtain ⟨namedFirst, namedRest⟩ := List.forall_mem_append.mp named
    exact (Term.neat first namedFirst).toLevel.append (Term.levelListAfter rest namedRest)

/-- Expressions with commas in front of them are level if the names in them are neat. -/
theorem Term.levelListAfter : ∀ values : List Term, (∀ name ∈ Term.namesAll values, Neat name) →
    Level (Term.listTextAfter values)
  | [], _ => level_of_plain (by decide)
  | first :: rest, named => by
    obtain ⟨namedFirst, namedRest⟩ := List.forall_mem_append.mp named
    have comma : Level ", " := level_of_plain (by decide)
    exact (comma.append (Term.neat first namedFirst).toLevel).append
      (Term.levelListAfter rest namedRest)

end

/-- A statement is a neat text and a semicolon. -/
theorem Neat.laidStatement {text : String} (neat : Neat text) (depth : Nat) :
    Laid depth depth [⟨depth, text ++ ";"⟩] [⟨depth, .statement⟩] := by
  have semicolon : Level ";" := level_of_plain (by decide)
  exact (neat.append semicolon).laid .statement (isSuffix_append _ _) depth

/-- A variable is declared in a statement. -/
theorem Binder.laid {binder : Binder} {value : Option Term} (type : Neat binder.type)
    (names : ∀ name ∈ binder.names value, Neat name) (depth : Nat) :
    Laid depth depth [⟨depth, binder.line value⟩] [⟨depth, .statement⟩] := by
  obtain ⟨name, within⟩ := List.forall_mem_cons.mp names
  have space : Level " " := level_of_plain (by decide)
  have declared : Neat binder.text := (type.append space).append name.toLevel
  cases value with
  | none => exact declared.laidStatement depth
  | some value =>
    have equals : Level " = " := level_of_plain (by decide)
    have first : Neat value.text := Term.neat value fun name member =>
      within name (List.mem_flatMap_of_mem (List.mem_singleton_self value) member)
    exact ((declared.append equals).append first.toLevel).laidStatement depth

end Java

open Java (Laid Neat Slot)

mutual

/-- How the lines of a statement that stands in `depth` blocks are laid out. -/
def Stmt.layout (depth : Nat) : Stmt → List Slot
  | .expression _ | .declaration _ | .assignment _ _ | .result _ => [⟨depth, .statement⟩]
  | .conditional _ accepted rejected =>
    if rejected.isEmpty then Slot.block depth (Stmt.layoutAll (depth + 1) accepted)
    else
      Slot.branches depth (Stmt.layoutAll (depth + 1) accepted)
        (Stmt.layoutAll (depth + 1) rejected)
  | .iteration _ _ body | .repetition _ body =>
    Slot.block depth (Stmt.layoutAll (depth + 1) body)

/-- How the lines of statements are laid out. -/
def Stmt.layoutAll (depth : Nat) : List Stmt → List Slot
  | [] => []
  | first :: rest => first.layout depth ++ Stmt.layoutAll depth rest

end

/-- How the lines of a method are laid out. -/
def Method.layout (method : Method) : List Slot :=
  Slot.block 1 (Stmt.layoutAll 2 method.body)

/-- How the lines of a program are laid out: its fields, the entry point and its methods, in one
block. -/
def Program.layout (program : Program) : List Slot :=
  [⟨0, .opening⟩, ⟨1, .blank⟩]
    ++ (if program.fields.isEmpty then []
      else program.fields.map (fun _ => ⟨1, .statement⟩) ++ [⟨1, .blank⟩])
    ++ Slot.block 1 [⟨2, .statement⟩]
    ++ program.methods.flatMap (fun method => ⟨1, .blank⟩ :: method.layout)
    ++ [⟨1, .blank⟩, ⟨1, .closing⟩]

mutual

/-- A statement is laid out so if the names and types in it are neat. -/
theorem Stmt.laid : ∀ (stmt : Stmt) (depth : Nat), (∀ name ∈ (Java.command stmt).names, Neat name) →
    (∀ type ∈ (Java.command stmt).types, Neat type) →
    Laid depth depth (Java.statement depth stmt) (stmt.layout depth)
  | .expression value, depth, named, _ => by
    have text := Java.Term.neat (Java.term value) named
    rw [Java.text_term] at text
    exact text.laidStatement depth
  | .declaration declared, depth, named, typed => by
    have line := Java.Binder.laid (typed _ List.mem_cons_self) named depth
    rw [Java.line_map_term] at line
    exact line
  | .assignment target value, depth, named, _ => by
    obtain ⟨namedTarget, namedValue⟩ := List.forall_mem_append.mp named
    have place := Java.Term.neat (Java.term target) namedTarget
    have assigned := Java.Term.neat (Java.term value) namedValue
    have equals : Java.Level " = " := Java.level_of_plain (by decide)
    rw [Java.text_term] at place assigned
    exact ((place.append equals).append assigned.toLevel).laidStatement depth
  | .conditional condition accepted rejected, depth, named, typed => by
    obtain ⟨namedCondition, namedBlocks⟩ := List.forall_mem_append.mp named
    obtain ⟨namedAccepted, namedRejected⟩ := List.forall_mem_append.mp namedBlocks
    obtain ⟨typedAccepted, typedRejected⟩ := List.forall_mem_append.mp typed
    have test := Java.Term.neat (Java.term condition) namedCondition
    rw [Java.text_term] at test
    have keyword : Neat "if (" := Java.neat_of_plain (by decide) (by decide)
    have head : Neat ("if (" ++ Java.expression condition ++ ")") :=
      (keyword.append test.toLevel).append Java.level_parenthesis
    have first := Stmt.laidAll accepted (depth + 1) namedAccepted typedAccepted
    have second := Stmt.laidAll rejected (depth + 1) namedRejected typedRejected
    rw [Java.statement, Stmt.layout]
    split
    · exact first.block head
    · exact first.branches second head
  | .iteration name value body, depth, named, typed => by
    obtain ⟨namedCounter, namedRest⟩ := List.forall_mem_cons.mp named
    obtain ⟨namedRange, namedBody⟩ := List.forall_mem_append.mp namedRest
    obtain ⟨_, typedBody⟩ := List.forall_mem_cons.mp typed
    have range := Java.Term.neat (Java.term value) namedRange
    rw [Java.text_term] at range
    have keyword : Neat "for (int " := Java.neat_of_plain (by decide) (by decide)
    have colon : Java.Level " : " := Java.level_of_plain (by decide)
    have head : Neat ("for (int " ++ name ++ " : " ++ Java.expression value ++ ")") :=
      (((keyword.append namedCounter.toLevel).append colon).append range.toLevel).append
        Java.level_parenthesis
    exact (Stmt.laidAll body (depth + 1) namedBody typedBody).block head
  | .repetition condition body, depth, named, typed => by
    obtain ⟨namedCondition, namedBody⟩ := List.forall_mem_append.mp named
    have test := Java.Term.neat (Java.term condition) namedCondition
    rw [Java.text_term] at test
    have keyword : Neat "while (" := Java.neat_of_plain (by decide) (by decide)
    have head : Neat ("while (" ++ Java.expression condition ++ ")") :=
      (keyword.append test.toLevel).append Java.level_parenthesis
    exact (Stmt.laidAll body (depth + 1) namedBody typed).block head
  | .result value, depth, named, _ => by
    have returned := Java.Term.neat (Java.term value) named
    rw [Java.text_term] at returned
    have keyword : Neat "return " := Java.neat_of_plain (by decide) (by decide)
    exact (keyword.append returned.toLevel).laidStatement depth

/-- Statements are laid out so if the names and types in them are neat. -/
theorem Stmt.laidAll : ∀ (stmts : List Stmt) (depth : Nat),
    (∀ name ∈ Java.Command.namesAll (Java.commands stmts), Neat name) →
    (∀ type ∈ Java.Command.typesAll (Java.commands stmts), Neat type) →
    Laid depth depth (Java.statements depth stmts) (Stmt.layoutAll depth stmts)
  | [], _, _, _ => Java.laid_nil
  | first :: rest, depth, named, typed => by
    obtain ⟨namedFirst, namedRest⟩ := List.forall_mem_append.mp named
    obtain ⟨typedFirst, typedRest⟩ := List.forall_mem_append.mp typed
    exact (Stmt.laid first depth namedFirst typedFirst).append
      (Stmt.laidAll rest depth namedRest typedRest)

end

/-- A method is laid out so if the names and types in it are neat. -/
theorem Method.laid {method : Method} (named : ∀ name ∈ (Java.routine method).names, Neat name)
    (typed : ∀ type ∈ (Java.routine method).types, Neat type) :
    Laid 1 1 (Java.method method) method.layout := by
  obtain ⟨namedMethod, namedRest⟩ := List.forall_mem_cons.mp named
  obtain ⟨namedParameters, namedBody⟩ := List.forall_mem_append.mp namedRest
  obtain ⟨typedMethod, typedRest⟩ := List.forall_mem_cons.mp typed
  obtain ⟨typedParameters, typedBody⟩ := List.forall_mem_append.mp typedRest
  have space : Java.Level " " := Java.level_of_plain (by decide)
  have opening : Java.Level "(" := Java.level_of_plain (by decide)
  have comma : Java.Level ", " := Java.level_of_plain (by decide)
  have parameters : Java.Level
      (", ".intercalate ((Java.routine method).parameters.map Java.Binder.text)) := by
    refine comma.intercalate (List.forall_mem_map.mpr fun binder listed => ?_)
    have type := typedParameters binder.type (List.mem_map_of_mem listed)
    have name := namedParameters binder.name (List.mem_map_of_mem listed)
    exact (type.toLevel.append space).append name.toLevel
  have head : Neat ((Java.routine method).returns ++ " " ++ (Java.routine method).name ++ "(" ++
      ", ".intercalate ((Java.routine method).parameters.map Java.Binder.text) ++ ")") :=
    ((((typedMethod.append space).append namedMethod.toLevel).append opening).append
      parameters).append Java.level_parenthesis
  have body := Stmt.laidAll method.body 2 namedBody typedBody
  rw [← Java.linesAll_commands] at body
  rw [← Java.lines_routine]
  exact body.block head

/-- A program is laid out so if the names and types in it are neat. -/
theorem Program.laid {program : Program}
    (named : ∀ name ∈ (Java.classOf program).names, Neat name)
    (typed : ∀ type ∈ (Java.classOf program).types, Neat type) :
    Laid 0 0 (Java.lines program) program.layout := by
  obtain ⟨namedFields, namedMethods⟩ := List.forall_mem_append.mp named
  obtain ⟨typedFields, typedMethods⟩ := List.forall_mem_append.mp typed
  have opened : Laid 0 1 [⟨0, "public class Main \x7b"⟩, Text.Line.blank]
      [⟨0, .opening⟩, ⟨1, .blank⟩] := by
    have head : Neat "public class Main" := Java.neat_of_plain (by decide) (by decide)
    exact (head.laidOpening .opening (Java.isSuffix_append _ _) 0).append (Java.laid_blank 1)
  have fields : Laid 1 1 (Java.fields program.fields)
      (if program.fields.isEmpty then []
        else program.fields.map (fun _ => ⟨1, .statement⟩) ++ [⟨1, .blank⟩]) := by
    rw [Java.fields]
    split
    · exact Java.laid_nil
    · rw [List.map_eq_flatMap, List.map_eq_flatMap]
      refine (Java.laid_flatMap fun field listed => ?_).append (Java.laid_blank 1)
      have became : Java.classField field ∈ (Java.classOf program).fields :=
        List.mem_map_of_mem listed
      have line := Java.Binder.laid (typedFields _ (List.mem_map_of_mem became))
        (fun name within => namedFields name (List.mem_flatMap_of_mem became within)) 1
      rw [Java.classField, Java.line_map_term] at line
      exact line
  have entry : Laid 1 1 Java.entryPoint (Slot.block 1 [⟨2, .statement⟩]) := by
    have head : Neat ("public static void main(String[] args" ++ ")") :=
      Java.neat_of_plain (by decide) (by decide)
    have exit : Neat "System.exit(new Main().main())" :=
      Java.neat_of_plain (by decide) (by decide)
    exact (exit.laidStatement 2).block head
  have methods : Laid 1 1
      (program.methods.flatMap fun method => Text.Line.blank :: Java.method method)
      (program.methods.flatMap fun method => ⟨1, .blank⟩ :: method.layout) := by
    refine Java.laid_flatMap fun method listed => ?_
    have became : Java.routine method ∈ (Java.classOf program).methods := List.mem_map_of_mem listed
    have lines := Method.laid
      (fun name within => namedMethods name (List.mem_flatMap_of_mem became within))
      (fun type within => typedMethods type (List.mem_flatMap_of_mem became within))
    exact (Java.laid_blank 1).append lines
  have closed : Laid 1 0 [Text.Line.blank, ⟨0, "\x7d"⟩] [⟨1, .blank⟩, ⟨1, .closing⟩] :=
    (Java.laid_blank 1).append (Java.laid_closing 0)
  exact (((opened.append fields).append entry).append methods).append closed

/-- A block that stands in a number of blocks. -/
theorem Java.Slot.le_of_mem_block {depth : Nat} {body : List Slot}
    (inner : ∀ slot ∈ body, depth + 1 ≤ slot.blocks) :
    ∀ slot ∈ Slot.block depth body, depth ≤ slot.blocks := by
  have wider : ∀ slot ∈ body, depth ≤ slot.blocks :=
    fun slot listed => Nat.le_of_succ_le (inner slot listed)
  rw [Slot.block]
  split
  · exact List.forall_mem_singleton.mpr (Nat.le_refl depth)
  · exact List.forall_mem_append.mpr ⟨List.forall_mem_cons.mpr ⟨Nat.le_refl depth, wider⟩,
      List.forall_mem_singleton.mpr (Nat.le_succ depth)⟩

/-- Two blocks that stand in a number of blocks. -/
theorem Java.Slot.le_of_mem_branches {depth : Nat} {first second : List Slot}
    (innerFirst : ∀ slot ∈ first, depth + 1 ≤ slot.blocks)
    (innerSecond : ∀ slot ∈ second, depth + 1 ≤ slot.blocks) :
    ∀ slot ∈ Slot.branches depth first second, depth ≤ slot.blocks := by
  have widerFirst : ∀ slot ∈ first, depth ≤ slot.blocks :=
    fun slot listed => Nat.le_of_succ_le (innerFirst slot listed)
  have widerSecond : ∀ slot ∈ second, depth ≤ slot.blocks :=
    fun slot listed => Nat.le_of_succ_le (innerSecond slot listed)
  have last : ∀ shape, ∀ slot ∈ [Slot.mk (depth + 1) shape], depth ≤ slot.blocks :=
    fun shape => List.forall_mem_singleton.mpr (Nat.le_succ depth)
  refine List.forall_mem_append.mpr ⟨List.forall_mem_append.mpr ⟨?_, widerSecond⟩, last _⟩
  split
  · exact List.forall_mem_singleton.mpr (Nat.le_refl depth)
  · exact List.forall_mem_append.mpr
      ⟨List.forall_mem_cons.mpr ⟨Nat.le_refl depth, widerFirst⟩, last _⟩

mutual

/-- The lines of a statement stand in the blocks that the statement stands in. -/
theorem Stmt.le_of_mem_layout : ∀ (stmt : Stmt) (depth : Nat),
    ∀ slot ∈ stmt.layout depth, depth ≤ slot.blocks
  | .expression _, depth | .declaration _, depth | .assignment _ _, depth | .result _, depth =>
    List.forall_mem_singleton.mpr (Nat.le_refl depth)
  | .conditional _ accepted rejected, depth => by
    have first := Stmt.le_of_mem_layoutAll accepted (depth + 1)
    have second := Stmt.le_of_mem_layoutAll rejected (depth + 1)
    rw [Stmt.layout]
    split
    · exact Slot.le_of_mem_block first
    · exact Slot.le_of_mem_branches first second
  | .iteration _ _ body, depth | .repetition _ body, depth =>
    Slot.le_of_mem_block (Stmt.le_of_mem_layoutAll body (depth + 1))

/-- The lines of statements stand in the blocks that the statements stand in. -/
theorem Stmt.le_of_mem_layoutAll : ∀ (stmts : List Stmt) (depth : Nat),
    ∀ slot ∈ Stmt.layoutAll depth stmts, depth ≤ slot.blocks
  | [], _ => List.forall_mem_nil _
  | first :: rest, depth => List.forall_mem_append.mpr
    ⟨Stmt.le_of_mem_layout first depth, Stmt.le_of_mem_layoutAll rest depth⟩

end

/-- All lines of a program but the first one stand in a block. -/
theorem Program.pos_of_mem_layout (program : Program) :
    ∀ slot ∈ program.layout.tail, 0 < slot.blocks := by
  have blank : ∀ shape, ∀ slot ∈ [Slot.mk 1 shape], 0 < slot.blocks :=
    fun shape => List.forall_mem_singleton.mpr Nat.one_pos
  have fields : ∀ slot ∈ (if program.fields.isEmpty then []
      else program.fields.map (fun _ => Slot.mk 1 .statement) ++ [⟨1, .blank⟩]),
        0 < slot.blocks := by
    split
    · exact List.forall_mem_nil _
    · exact List.forall_mem_append.mpr
        ⟨List.forall_mem_map.mpr fun _ _ => Nat.one_pos, blank _⟩
  have entry : ∀ slot ∈ Slot.block 1 [⟨2, .statement⟩], 0 < slot.blocks := by decide
  have methods : ∀ slot ∈ program.methods.flatMap fun method => ⟨1, .blank⟩ :: method.layout,
      0 < slot.blocks := by
    intro slot member
    obtain ⟨method, _, within⟩ := List.mem_flatMap.mp member
    rcases List.mem_cons.mp within with rfl | inside
    · exact Nat.one_pos
    · exact Slot.le_of_mem_block (Stmt.le_of_mem_layoutAll method.body 2) slot inside
  have closed : ∀ slot ∈ [Slot.mk 1 .blank, ⟨1, .closing⟩], 0 < slot.blocks := by decide
  have all := List.forall_mem_append.mpr ⟨List.forall_mem_append.mpr ⟨List.forall_mem_append.mpr
    ⟨List.forall_mem_append.mpr ⟨blank .blank, fields⟩, entry⟩, methods⟩, closed⟩
  exact all

/-- The names and types in the class of a derived program are neat. -/
theorem Program.Judged.neat {source tree : Program} (judged : source.Judged tree)
    (words : ∀ name ∈ source.binders, TokenKind.identifier.Word name.toList) :
    (∀ name ∈ (Java.classOf tree).names, Neat name) ∧
      ∀ type ∈ (Java.classOf tree).types, Neat type := by
  have supplied := judged.supplied
  constructor
  · intro name written
    rcases supplied.names name written with bound | ⟨builtin, rfl⟩
    · exact Java.neat_of_identifier (words name bound)
    · cases builtin
      exact Java.neat_of_plain (by decide) (by decide)
  · intro type written
    obtain ⟨builtin, listed, rfl⟩ := supplied.types type written
    have plain : ∀ builtin ∈ Ty.builtins, Java.Plain builtin.renderName ∧
        builtin.renderName.toList.head?.any (· ≠ ' ') := by decide
    exact Java.neat_of_plain (plain builtin listed).1 (plain builtin listed).2

/-- The Java text of a program whose text is compiled is read as rows whose blocks are balanced. In
every row there is either nothing or something behind four spaces for each open block, one fewer in
front of a closing brace, and in front of all rows but the first one a block is open. How many rows
there are, how many blocks are open in front of each, and which of them end in a semicolon, open a
block, close one or hold an empty one, follows from the fields, the methods and the statements of
the program. There are no line breaks but those between the rows. -/
theorem compiled_rows_indented_as_layout {text : String} {compilation : Compilation}
    (compiled : Compilation.ofText text = .ok compilation) :
    ∃ program rows, Program.ofTextAnalyzed text = .ok program ∧
      Java.rows? compilation.java = some rows ∧ (∀ row ∈ rows, row.Indented) ∧
      (∀ row ∈ rows.tail, 0 < row.blocks) ∧ List.Forall₂ Slot.Fits program.layout rows ∧
      '\r' ∉ compilation.java.toList := by
  obtain ⟨program, analyzed, rfl⟩ := Compilation.ofText_eq_ok.mp compiled
  obtain ⟨source, read, judged⟩ := Program.exists_judged analyzed
  obtain ⟨named, typed⟩ := judged.neat (Program.binders_ofText read)
  have laid := Program.laid named typed
  obtain ⟨rows, found, fits, indented⟩ := laid.rows?_render (List.cons_ne_nil _ _)
  have later := List.forall₂_drop 1 fits
  rw [List.drop_one, List.drop_one] at later
  exact ⟨program, rows, analyzed, found, indented,
    Java.pos_of_fits later program.pos_of_mem_layout, fits, laid.not_mem_render⟩

/-- A program with a brace and a line break in a string and with an empty block. -/
def bracedText : String :=
  "LET s: String = \"\x7d\n\"; DEF main(): Integer DO WHILE FALSE DO END RETURN 0; END"

/-- The layout of the Java text of the program. -/
def bracedLayout : List Slot :=
  [⟨0, .opening⟩, ⟨1, .blank⟩, ⟨1, .statement⟩, ⟨1, .blank⟩, ⟨1, .opening⟩, ⟨2, .statement⟩,
    ⟨2, .closing⟩, ⟨1, .blank⟩, ⟨1, .opening⟩, ⟨2, .empty⟩, ⟨2, .statement⟩, ⟨2, .closing⟩,
    ⟨1, .blank⟩, ⟨1, .closing⟩]

/-- A text with braces and a line break in a string, and with an empty block, has fourteen rows. -/
theorem compiled_rows_indented_as_layout_quoted :
    ∃ program rows, Program.ofTextAnalyzed bracedText = .ok program ∧
      Java.rows? program.compile.java = some rows ∧ (∀ row ∈ rows, row.Indented) ∧
      List.Forall₂ Slot.Fits program.layout rows ∧ program.layout = bracedLayout := by
  have computed : (Program.ofTextAnalyzed bracedText).toOption.any fun program =>
      program.layout = bracedLayout := by decide +kernel
  obtain ⟨program, analyzed, shape⟩ := exists_ok_of_any computed
  obtain ⟨found, rows, same, read, indented, _, fits, _⟩ :=
    compiled_rows_indented_as_layout (Compilation.ofText_eq_ok.mpr ⟨program, analyzed, rfl⟩)
  obtain rfl : program = found := Except.ok.inj (analyzed.symm.trans same)
  exact ⟨program, rows, analyzed, read, indented, fits, of_decide_eq_true shape⟩

end LetDef
