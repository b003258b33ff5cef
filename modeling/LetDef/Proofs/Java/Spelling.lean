import LetDef.Java.Program
import LetDef.Proofs.Typing.Decision
import LetDef.Proofs.Typing.Native

/-!
# Java without annotations

The Java text of a program depends on two kinds of annotations only: the types of local variables
for which none is written, and the calls that stand for builtins. `Program.spell` empties the slots
of a program and writes names in their place, as a `Spelling` says. If nothing is written in their
place, an accepted program is the one that was read; if those two are, its Java text is the one that
it has with its slots (`generate_spell_explicit_eq_generate`).
-/
namespace LetDef

/-- What is written in a program where its slots are emptied. -/
structure Spelling where
  /-- The name of a call, from its own name and its slot. -/
  call : String → Option Signature → String
  /-- The type for a local variable, from the one that is written, if any, and its slot. -/
  declared : Option String → Option Variable → Option String

namespace Spelling

/-- Nothing is written but what was written before. -/
def plain : Spelling where
  call name _ := name
  declared written _ := written

/-- A call that stands for a builtin gets the name of that in Java, and a local variable without a
type gets the name of the type in its slot. -/
def explicit : Spelling where
  call name slot :=
    ((Builtin.all.find? fun builtin => slot = some builtin.signature).map Builtin.renderName).getD
      name
  declared written slot := written.or (slot.map (·.type.name))

end Spelling

mutual

/-- The expression with all slots empty, spelled in this way. -/
def Expr.spell (spelling : Spelling) : Expr → Expr
  | .literal value _ => .literal value none
  | .group inner _ => .group (inner.spell spelling) none
  | .binary operator left right _ =>
    .binary operator (left.spell spelling) (right.spell spelling) none
  | .variable name _ _ => .variable name none none
  | .member receiver name _ _ => .member (receiver.spell spelling) name none none
  | .call name arguments slot _ =>
    .call (spelling.call name slot) (Expr.spellAll spelling arguments) none none
  | .memberCall receiver name arguments _ _ =>
    .memberCall (receiver.spell spelling) name (Expr.spellAll spelling arguments) none none

/-- The expressions with all slots empty, spelled in this way. -/
def Expr.spellAll (spelling : Spelling) : List Expr → List Expr
  | [] => []
  | first :: rest => first.spell spelling :: Expr.spellAll spelling rest

end

/-- The declaration with all slots empty, spelled in this way. -/
def Declaration.spell (spelling : Spelling) (declaration : Declaration) : Declaration :=
  ⟨declaration.name, spelling.declared declaration.typeName declaration.slot,
    declaration.value.map (Expr.spell spelling), none⟩

mutual

/-- The statement with all slots empty, spelled in this way. -/
def Stmt.spell (spelling : Spelling) : Stmt → Stmt
  | .expression value => .expression (value.spell spelling)
  | .declaration declared => .declaration (declared.spell spelling)
  | .assignment target value => .assignment (target.spell spelling) (value.spell spelling)
  | .conditional condition accepted rejected =>
    .conditional (condition.spell spelling) (Stmt.spellAll spelling accepted)
      (Stmt.spellAll spelling rejected)
  | .iteration name value body =>
    .iteration name (value.spell spelling) (Stmt.spellAll spelling body)
  | .repetition condition body =>
    .repetition (condition.spell spelling) (Stmt.spellAll spelling body)
  | .result value => .result (value.spell spelling)

/-- The statements with all slots empty, spelled in this way. -/
def Stmt.spellAll (spelling : Spelling) : List Stmt → List Stmt
  | [] => []
  | first :: rest => first.spell spelling :: Stmt.spellAll spelling rest

end

/-- The field with all slots empty, spelled in this way. -/
def Field.spell (spelling : Spelling) (field : Field) : Field :=
  ⟨field.name, field.typeName, field.value.map (Expr.spell spelling), none⟩

/-- The method with all slots empty, spelled in this way. -/
def Method.spell (spelling : Spelling) (method : Method) : Method :=
  ⟨method.name, method.parameters, method.returnTypeName, Stmt.spellAll spelling method.body, none⟩

/-- The program with all slots empty, spelled in this way. -/
def Program.spell (spelling : Spelling) (program : Program) : Program :=
  ⟨program.fields.map (Field.spell spelling), program.methods.map (Method.spell spelling)⟩

section Empty

variable (spelling : Spelling)

mutual

/-- A spelled expression has no annotations. -/
theorem Expr.erase_spell (value : Expr) : (value.spell spelling).erase = value.spell spelling := by
  cases value with
  | literal | «variable» => rfl
  | group inner => rw [Expr.spell, Expr.erase, Expr.erase_spell inner]
  | binary operator left right =>
    rw [Expr.spell, Expr.erase, Expr.erase_spell left, Expr.erase_spell right]
  | member receiver => rw [Expr.spell, Expr.erase, Expr.erase_spell receiver]
  | call name arguments => rw [Expr.spell, Expr.erase, Expr.eraseAll_spellAll arguments]
  | memberCall receiver name arguments =>
    rw [Expr.spell, Expr.erase, Expr.erase_spell receiver, Expr.eraseAll_spellAll arguments]

/-- Spelled expressions have no annotations. -/
theorem Expr.eraseAll_spellAll (values : List Expr) :
    Expr.eraseAll (Expr.spellAll spelling values) = Expr.spellAll spelling values := by
  cases values with
  | nil => rfl
  | cons first rest =>
    rw [Expr.spellAll, Expr.eraseAll, Expr.erase_spell first, Expr.eraseAll_spellAll rest]

end

/-- A spelled first value has no annotations. -/
theorem Expr.map_erase_spell (value : Option Expr) :
    (value.map (Expr.spell spelling)).map Expr.erase = value.map (Expr.spell spelling) := by
  cases value with
  | none => rfl
  | some value => rw [Option.map_some, Option.map_some, Expr.erase_spell]

mutual

/-- A spelled statement has no annotations. -/
theorem Stmt.erase_spell (statement : Stmt) :
    (statement.spell spelling).erase = statement.spell spelling := by
  cases statement with
  | expression | assignment | result => simp only [Stmt.spell, Stmt.erase, Expr.erase_spell]
  | declaration declared =>
    rw [Stmt.spell, Stmt.erase, Declaration.spell, Declaration.erase, Expr.map_erase_spell]
  | conditional condition accepted rejected =>
    rw [Stmt.spell, Stmt.erase, Expr.erase_spell, Stmt.eraseAll_spellAll accepted,
      Stmt.eraseAll_spellAll rejected]
  | iteration name value body =>
    rw [Stmt.spell, Stmt.erase, Expr.erase_spell, Stmt.eraseAll_spellAll body]
  | repetition condition body =>
    rw [Stmt.spell, Stmt.erase, Expr.erase_spell, Stmt.eraseAll_spellAll body]

/-- Spelled statements have no annotations. -/
theorem Stmt.eraseAll_spellAll (statements : List Stmt) :
    Stmt.eraseAll (Stmt.spellAll spelling statements) = Stmt.spellAll spelling statements := by
  cases statements with
  | nil => rfl
  | cons first rest =>
    rw [Stmt.spellAll, Stmt.eraseAll, Stmt.erase_spell first, Stmt.eraseAll_spellAll rest]

end

/-- A spelled program has no annotations. -/
theorem Program.erase_spell (program : Program) :
    (program.spell spelling).erase = program.spell spelling := by
  have fields : ∀ field : Field, (field.spell spelling).erase = field.spell spelling := fun field =>
    by rw [Field.spell, Field.erase, Expr.map_erase_spell]
  have methods : ∀ method : Method, (method.spell spelling).erase = method.spell spelling :=
    fun method => by rw [Method.spell, Method.erase, Stmt.eraseAll_spellAll]
  simp only [Program.spell, Program.erase, List.map_map, Function.comp_def, fields, methods]

end Empty

namespace Java

open Spelling (plain explicit)

/-- The name of a built-in type is written as that type. -/
theorem typeName_of_mem_builtins : ∀ type ∈ Ty.builtins, typeName type.name = type.renderName := by
  decide

/-- The name that is written for a type is written as that type. -/
theorem typeName_of_named {name : String} {type : Ty} (named : Ty.Named name type) :
    typeName name = type.renderName :=
  named.2 ▸ typeName_of_mem_builtins type named.1

/-- Expressions with the same texts have the same text behind others. -/
theorem listAfter_congr {values others : List Expr}
    (same : values.map expression = others.map expression) :
    listAfter values = listAfter others := by
  induction values generalizing others with
  | nil =>
    obtain rfl := List.map_eq_nil_iff.mp same.symm
    rfl
  | cons first rest ih =>
    obtain ⟨second, later, rfl, head, tail⟩ := List.map_eq_cons_iff.mp same.symm
    rw [listAfter, listAfter, head, ih tail.symm]

/-- Expressions with the same texts have the same text together. -/
theorem list_congr {values others : List Expr}
    (same : values.map expression = others.map expression) : list values = list others := by
  cases values with
  | nil =>
    obtain rfl := List.map_eq_nil_iff.mp same.symm
    rfl
  | cons first rest =>
    obtain ⟨second, later, rfl, head, tail⟩ := List.map_eq_cons_iff.mp same.symm
    rw [list, list, head, listAfter_congr tail.symm]

/-- A declared variable is written by the text of its first value. -/
theorem variableText_congr {type name : String} {value other : Option Expr}
    (same : value.map expression = other.map expression) :
    variableText type name value = variableText type name other := by
  cases value <;> cases other <;> simp_all [variableText]

/-- The types that are written for parameters are the same in Java with slots and without. -/
theorem map_typeName_of_haveTypes {declared : List Parameter} {types : List Ty}
    (typed : Parameter.HaveTypes declared types) :
    declared.map (fun parameter => typeName parameter.typeName) = types.map Ty.renderName := by
  induction typed with
  | nil => rfl
  | cons named _ ih => rw [List.map_cons, List.map_cons, ih, typeName_of_named named]

/-- Without its slot a method is written with the type, the name and the parameters of what it
stands for. -/
theorem head_of_stands {declared bare : Method} {function : Signature}
    (stands : declared.Stands function) (empty : bare.slot = none)
    (sameParameters : bare.parameters = declared.parameters)
    (sameReturns : bare.returnTypeName = declared.returnTypeName) :
    returnType bare = function.returns.renderName ∧ function.renderName = declared.name ∧
      parameterTypes bare = function.parameters.map Ty.renderName := by
  simp only [returnType, parameterTypes, empty, sameParameters, sameReturns]
  cases stands with
  | silent typed unwritten =>
    rw [unwritten]
    exact ⟨rfl, rfl, map_typeName_of_haveTypes typed⟩
  | returning typed written named =>
    rw [written]
    exact ⟨typeName_of_named named, rfl, map_typeName_of_haveTypes typed⟩

end Java

open Spelling (plain explicit)

/-- Without its slots a construct is what it was derived from, and spelled out it has the same text
in Java as with its slots. -/
structure Respells {τ α : Type} (spell : Spelling → τ → τ) (text : τ → α) (source tree : τ) :
    Prop where
  /-- Without its slots it is what it was derived from. -/
  plain : spell plain tree = source
  /-- Spelled out, it has the same text. -/
  explicit : text (spell explicit tree) = text tree

/-- Constructs respell one after the other if each of them does. -/
theorem Respells.all {τ α : Type} {spell : Spelling → τ → τ} {text : τ → α} {sources trees : List τ}
    (each : List.Forall₂ (Respells spell text) sources trees) :
    Respells (fun spelling => List.map (spell spelling)) (List.map text) sources trees := by
  induction each with
  | nil => exact ⟨rfl, rfl⟩
  | cons first _ ih =>
    refine ⟨?_, ?_⟩
    · rw [List.map_cons, first.plain, ih.plain]
    · rw [List.map_cons, List.map_cons, List.map_cons, first.explicit, ih.explicit]

/-- What is spelled has statements where there were some. -/
theorem Stmt.isEmpty_spellAll (spelling : Spelling) (statements : List Stmt) :
    (Stmt.spellAll spelling statements).isEmpty = statements.isEmpty := by
  cases statements <;> rfl

/-- A call of a builtin is spelled out with its name in Java. -/
theorem Spelling.call_builtin (name : String) (builtin : Builtin) :
    explicit.call name (some builtin.signature) = builtin.renderName := by
  cases builtin
  rfl

/-- A call that stands for no builtin is spelled out as it was. -/
theorem Spelling.call_of_ne {function : Signature}
    (other : ∀ builtin : Builtin, function ≠ builtin.signature) (name : String) :
    explicit.call name (some function) = name := by
  have none : Builtin.all.find? (fun builtin => some function = some builtin.signature) = none :=
    List.find?_eq_none.mpr fun builtin _ => by simp [other builtin]
  simp only [explicit, none, Option.map_none, Option.getD_none]

namespace Context.Native

variable {context behind : Context} {bound : String → Prop}

mutual

/-- A derived expression has the same Java text without its slots. -/
theorem respells (native : context.Native bound) {source tree : Expr} {type : Ty}
    (derived : Elaborates context source tree type) :
    Respells Expr.spell Java.expression source tree := by
  cases derived with
  | literal typed => exact ⟨rfl, rfl⟩
  | group inner =>
    have within := respells native inner
    refine ⟨?_, ?_⟩
    · rw [Expr.spell, within.plain]
    · rw [Expr.spell, Java.expression, Java.expression, within.explicit]
  | binary first second typed =>
    have left := respells native first
    have right := respells native second
    refine ⟨?_, ?_⟩
    · rw [Expr.spell, left.plain, right.plain]
    · rw [Expr.spell, Java.expression, Java.expression, left.explicit, right.explicit]
  | «variable» found =>
    obtain ⟨entry, rfl⟩ := native.of_findVariable? found
    exact ⟨rfl, entry.renderName.symm⟩
  | @call name sources trees types function arguments found suits =>
    have given := respellsAll native arguments
    refine ⟨?_, ?_⟩
    · rw [Expr.spell, given.plain]
      rfl
    · -- A method is native, so no builtin is in the slot although it may have the name of one.
      have written : explicit.call name (some function) = function.renderName := by
        rcases native.of_findFunction? found with ⟨builtin, rfl⟩ | ⟨known, rfl⟩
        · exact Spelling.call_builtin name builtin
        · exact (Spelling.call_of_ne known.ne_builtin _).trans known.renderName.symm
      rw [Expr.spell, Java.expression, Java.expression, Java.list_congr given.explicit, written]
      rfl

/-- Derived expressions have the same Java texts without their slots. -/
theorem respellsAll (native : context.Native bound) {sources trees : List Expr} {types : List Ty}
    (derived : ElaboratesAll context sources trees types) :
    Respells Expr.spellAll (List.map Java.expression) sources trees := by
  cases derived with
  | nil => exact ⟨rfl, rfl⟩
  | cons first rest =>
    have one := respells native first
    have others := respellsAll native rest
    refine ⟨?_, ?_⟩
    · rw [Expr.spellAll, one.plain, others.plain]
    · rw [Expr.spellAll, List.map_cons, List.map_cons, one.explicit, others.explicit]

end

/-- A first value has the same Java text without its slots. -/
theorem respells_initial (native : context.Native bound) {written : Option String}
    {source tree : Option Expr} {type : Ty} (derived : context.Initial written source tree type) :
    Respells (fun spelling => Option.map (Expr.spell spelling)) (Option.map Java.expression) source
      tree := by
  have some : ∀ {source tree type}, Elaborates context source tree type →
      Respells (fun spelling => Option.map (Expr.spell spelling)) (Option.map Java.expression)
        (some source) (some tree) := fun derived =>
    have value := native.respells derived
    ⟨congrArg Option.some value.plain, congrArg Option.some value.explicit⟩
  cases derived with
  | inferred value => exact some value
  | empty named => exact ⟨rfl, rfl⟩
  | checked named value suits => exact some value

/-- The type of a declared variable is written in Java by the name that is written for it, or else
by that of the type in its slot. -/
theorem declaredType_spell (native : context.Native bound) {name : String}
    {written : Option String} {source tree : Option Expr} {type : Ty}
    (derived : context.Initial written source tree type) :
    Java.declaredType
      ((Declaration.mk name written tree (some (.named name type))).spell explicit) =
        type.renderName := by
  cases derived with
  | inferred value => exact Java.typeName_of_mem_builtins type (native.type_mem value)
  | empty named => exact Java.typeName_of_named named
  | checked named value suits => exact Java.typeName_of_named named

mutual

/-- The lines of a derived statement are the same without its slots. -/
theorem respells_stmt {context behind : Context} (native : context.Native fun _ => True)
    {source tree : Stmt} (derived : Checks context source tree behind) :
    Respells Stmt.spell (fun statement depth => Java.statement depth statement) source tree := by
  have inside := native.enter
  cases derived with
  | expression value =>
    have called := native.respells value
    refine ⟨?_, funext fun depth => ?_⟩
    · rw [Stmt.spell, called.plain]
    · rw [Stmt.spell, Java.statement, Java.statement, called.explicit]
  | @declaration _ name written source tree type initial free =>
    have first := native.respells_initial initial
    refine ⟨?_, funext fun depth => ?_⟩
    · rw [Stmt.spell, Declaration.spell, first.plain]
      rfl
    · rw [Stmt.spell, Java.statement, Java.statement, Java.declarationText, Java.declarationText,
        native.declaredType_spell initial]
      exact congrArg (fun text => [Text.Line.mk depth text])
        (Java.variableText_congr first.explicit)
  | assignment target value suits =>
    have place := native.respells target
    have found := native.respells value
    refine ⟨?_, funext fun depth => ?_⟩
    · rw [Stmt.spell, place.plain, found.plain]
    · rw [Stmt.spell, Java.statement, Java.statement, place.explicit, found.explicit]
  | conditional holds filled first second =>
    have test := native.respells holds
    have yes := respells_stmts inside first
    have no := respells_stmts inside second
    refine ⟨?_, funext fun depth => ?_⟩
    · rw [Stmt.spell, test.plain, yes.plain, no.plain]
    · rw [Stmt.spell, Java.statement, Java.statement, test.explicit, Stmt.isEmpty_spellAll,
        congrFun yes.explicit (depth + 1), congrFun no.explicit (depth + 1)]
  | iteration runs filled body =>
    have range := native.respells runs
    have steps := respells_stmts (native.iteration trivial) body
    refine ⟨?_, funext fun depth => ?_⟩
    · rw [Stmt.spell, range.plain, steps.plain]
    · rw [Stmt.spell, Java.statement, Java.statement, range.explicit,
        congrFun steps.explicit (depth + 1)]
  | repetition holds body =>
    have test := native.respells holds
    have steps := respells_stmts inside body
    refine ⟨?_, funext fun depth => ?_⟩
    · rw [Stmt.spell, test.plain, steps.plain]
    · rw [Stmt.spell, Java.statement, Java.statement, test.explicit,
        congrFun steps.explicit (depth + 1)]
  | result value inMethod suits =>
    have found := native.respells value
    refine ⟨?_, funext fun depth => ?_⟩
    · rw [Stmt.spell, found.plain]
    · rw [Stmt.spell, Java.statement, Java.statement, found.explicit]

/-- The lines of derived statements are the same without their slots. -/
theorem respells_stmts {context behind : Context} (native : context.Native fun _ => True)
    {sources trees : List Stmt} (derived : ChecksAll context sources trees behind) :
    Respells Stmt.spellAll (fun statements depth => Java.statements depth statements) sources
      trees := by
  cases derived with
  | nil => exact ⟨rfl, rfl⟩
  | cons first rest =>
    have one := respells_stmt native first
    have others := respells_stmts (native.checks (fun _ _ => trivial) first) rest
    refine ⟨?_, funext fun depth => ?_⟩
    · rw [Stmt.spellAll, one.plain, others.plain]
    · rw [Stmt.spellAll, Java.statements, Java.statements, congrFun one.explicit depth,
        congrFun others.explicit depth]

end

/-- The line of a derived field is the same without its slots. -/
theorem respells_field (native : context.Native fun _ => True) {source tree : Field}
    (derived : ChecksField context source tree behind) :
    Respells Field.spell Java.field source tree ∧ behind.Native fun _ => True := by
  refine ⟨?_, native.checksField trivial derived⟩
  cases derived with
  | @field name written source tree type initial free =>
    have first := native.respells_initial initial
    have typed : Java.typeName written = type.renderName := by
      cases initial with
      | empty named | checked named => exact Java.typeName_of_named named
    refine ⟨?_, ?_⟩
    · rw [Field.spell, first.plain]
    · simp only [Java.field, Field.spell, Java.fieldType, typed]
      exact congrArg (Text.Line.mk 1) (Java.variableText_congr first.explicit)

/-- The lines of a derived method are the same without its slots. -/
theorem respells_method (native : context.Native fun _ => True) {source tree : Method}
    (derived : ChecksMethod context source tree behind) :
    Respells Method.spell Java.method source tree ∧ behind.Native fun _ => True := by
  cases derived with
  | @method function body inside stands empty undefined distinct checked =>
    have added : function.Native fun _ => True := stands.native trivial
    have statements := respells_stmts (native.inMethod stands trivial fun _ _ => trivial) checked
    refine ⟨⟨?_, ?_⟩, native.define added⟩
    · rw [Method.spell, statements.plain, ← empty]
    · let tree : Method := { source with body, slot := some function }
      let bare := tree.spell explicit
      have without : bare.slot = none := rfl
      obtain ⟨returns, named, types⟩ := Java.head_of_stands stands without rfl rfl
      have called : Java.functionName bare.name bare.slot = function.renderName := named.symm
      have lines : Java.statements 2 bare.body = Java.statements 2 body :=
        congrFun statements.explicit 2
      show Java.method bare = Java.method tree
      rw [Java.method, Java.parameters, returns, types, called, lines]
      rfl

end Context.Native

/-- The Java text of a program whose text is accepted depends on the text that was read, on the
inferred types of local variables and on which calls stand for builtins. Without its slots the
program is the one that was read. If it is spelled out, that is, if further each local variable for
which no type is written gets the name of the type in its slot, and each call with a builtin in its
slot gets the name of that in Java, it is a program without annotations, and its Java text is the
same as before. -/
theorem generate_spell_explicit_eq_generate {text : String} {program : Program}
    (analyzed : Program.ofTextAnalyzed text = .ok program) :
    Program.ofText text = .ok (program.spell plain) ∧
      (program.spell explicit).erase = program.spell explicit ∧
      Java.generate (program.spell explicit) = Java.generate program := by
  obtain ⟨source, read, loaded, final, fields, methods, _⟩ := Program.exists_judged analyzed
  obtain ⟨eachField, native⟩ := fields.forall_native Context.native_start
    fun _ native derived => native.respells_field derived
  obtain ⟨eachMethod, _⟩ := methods.forall_native native
    fun _ native derived => native.respells_method derived
  have respellsFields := Respells.all eachField
  have respellsMethods := Respells.all eachMethod
  refine ⟨?_, Program.erase_spell explicit program, ?_⟩
  · rw [read, Program.spell, respellsFields.plain, respellsMethods.plain]
  · have sameFields : Java.fields (program.fields.map (Field.spell explicit)) =
        Java.fields program.fields := by
      rw [Java.fields, Java.fields, List.isEmpty_map, respellsFields.explicit]
    have sameMethods := congrArg (List.flatMap (Text.Line.blank :: ·)) respellsMethods.explicit
    simp only [List.flatMap_map] at sameMethods
    simp only [Java.generate, Java.lines, Program.spell, List.flatMap_map, sameFields, sameMethods]

/-- A program with an inferred type and calls of a builtin and of a method that is named like it. -/
def inferredText : String :=
  "DEF print(): Integer DO RETURN 1; END " ++
    "DEF main(): Integer DO LET x = print(); print(x); RETURN x; END"

/-- A program with an inferred type and calls of a builtin and of a method that is named like it has
the same Java text spelled out, and another one without annotations otherwise. -/
theorem generate_spell_explicit_eq_generate_inferred :
    ∃ program, Program.ofTextAnalyzed inferredText = .ok program ∧
      Program.ofText inferredText = .ok (program.spell plain) ∧
      Java.generate (program.spell explicit) = Java.generate program ∧
      Java.generate (program.spell plain) ≠ Java.generate program := by
  have computed : (Program.ofTextAnalyzed inferredText).toOption.any fun program =>
      Java.generate (program.spell plain) ≠ Java.generate program := by
    decide +kernel
  obtain ⟨program, analyzed, differ⟩ := exists_ok_of_any computed
  obtain ⟨read, _, same⟩ := generate_spell_explicit_eq_generate analyzed
  exact ⟨program, analyzed, read, same, of_decide_eq_true differ⟩

end LetDef
