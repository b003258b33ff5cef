import LetDef.Proofs.Typing.Bodies

/-!
# What is accepted for any host

The lemmas of `LetDef.Proofs.Typing.Inversion` say what an accepted tree comes from where no type
has members. `Expr.Passes` and `Stmt.Passes` say it for every host, from the source on: which parts
the analysis has accepted, one after the other, and in which states, which change from one part to
the next.
-/
namespace LetDef

open Visit (next_eq_ok check_eq_ok step_eq_ok fill_eq_ok done_eq_ok stop_eq_ok typed_eq_ok)

/-- What the analysis has accepted of an expression: the tree that it becomes and the state behind
it. -/
inductive Expr.Passes (analyzer : Analyzer) : Expr → Expr → Analyzer → Prop where
  | literal {value slot type} : Passes analyzer (.literal value slot) (.literal value type) analyzer
  | group {inner part slot type found after} (operated : inner.isBinary)
    (passed : inner.analyze analyzer = ⟨part, .ok found, after⟩) :
    Passes analyzer (.group inner slot) (.group part type) after
  | binary {operator left right first second slot type leftType rightType between after}
    (passed : left.analyze analyzer = ⟨first, .ok leftType, between⟩)
    (passedRight : right.analyze between = ⟨second, .ok rightType, after⟩) :
    Passes analyzer (.binary operator left right slot) (.binary operator first second type) after
  | «variable» {name found type} (known : analyzer.findVariable? name = some found) :
    Passes analyzer (.variable name none none) (.variable name (some found) type) analyzer
  | member {receiver part name slot typeSlot found type owner between}
    (passed : receiver.analyze analyzer = ⟨part, .ok owner, between⟩) :
    Passes analyzer (.member receiver name slot typeSlot) (.member part name (some found) type)
      (between.share name found)
  | call {name arguments trees slot typeSlot found type types after}
    (passed : Expr.analyzeAll arguments analyzer = ⟨trees, .ok types, after⟩) :
    Passes analyzer (.call name arguments slot typeSlot) (.call name trees found type) after
  | memberCall {receiver part name arguments trees slot typeSlot found type types owner between
      after}
    (passed : Expr.analyzeAll arguments analyzer = ⟨trees, .ok types, between⟩)
    (passedReceiver : receiver.analyze between = ⟨part, .ok owner, after⟩) :
    Passes analyzer (.memberCall receiver name arguments slot typeSlot)
      (.memberCall part name trees found type) after

/-- An expression that is accepted passes. -/
theorem Expr.passes_of_analyze {source tree : Expr} {type : Ty} {analyzer after : Analyzer}
    (analyzed : source.analyze analyzer = ⟨tree, .ok type, after⟩) :
    source.Passes analyzer tree after := by
  cases source with
  | literal value slot =>
    simp only [Expr.analyze, check_eq_ok, typed_eq_ok] at analyzed
    obtain ⟨_, _, _, rfl, _, rfl⟩ := analyzed
    exact .literal
  | group inner slot =>
    rw [Expr.analyze] at analyzed
    split at analyzed
    · rw [stop_eq_ok] at analyzed
      contradiction
    next operated =>
      simp only [next_eq_ok, typed_eq_ok] at analyzed
      obtain ⟨_, _, _, passed, _, rfl, _, rfl⟩ := analyzed
      exact .group (by simpa using operated) passed
  | binary operator left right slot =>
    simp only [Expr.analyze, next_eq_ok, check_eq_ok, typed_eq_ok] at analyzed
    obtain ⟨_, _, _, passed, _, _, _, passedRight, _, _, _, rfl, _, rfl⟩ := analyzed
    exact .binary passed passedRight
  | «variable» name slot typeSlot =>
    rw [Expr.analyze] at analyzed
    split at analyzed
    · rw [stop_eq_ok] at analyzed
      contradiction
    next found known =>
      simp only [fill_eq_ok, typed_eq_ok] at analyzed
      obtain ⟨rfl, rfl, rfl, _, rfl⟩ := analyzed
      exact .variable known
  | member receiver name slot typeSlot =>
    simp only [Expr.analyze, next_eq_ok] at analyzed
    obtain ⟨_, owner, between, passed, analyzed⟩ := analyzed
    split at analyzed
    · rw [stop_eq_ok] at analyzed
      contradiction
    next found known =>
      simp only [fill_eq_ok, typed_eq_ok] at analyzed
      obtain ⟨_, _, rfl, _, rfl⟩ := analyzed
      exact .member passed
  | call name arguments slot typeSlot =>
    simp only [Expr.analyze, next_eq_ok] at analyzed
    obtain ⟨_, types, between, passed, analyzed⟩ := analyzed
    split at analyzed
    · rw [stop_eq_ok] at analyzed
      contradiction
    next found known =>
      simp only [check_eq_ok, fill_eq_ok, typed_eq_ok] at analyzed
      obtain ⟨_, _, _, _, rfl, _, rfl⟩ := analyzed
      exact .call passed
  | memberCall receiver name arguments slot typeSlot =>
    simp only [Expr.analyze, next_eq_ok] at analyzed
    obtain ⟨_, types, between, passed, _, owner, last, passedReceiver, analyzed⟩ := analyzed
    split at analyzed
    · rw [stop_eq_ok] at analyzed
      contradiction
    next found known =>
      simp only [check_eq_ok, fill_eq_ok, typed_eq_ok] at analyzed
      obtain ⟨_, _, _, _, rfl, _, rfl⟩ := analyzed
      exact .memberCall passed passedReceiver

/-- Accepted expressions are accepted one after the other. -/
theorem Expr.analyzeAll_cons_eq_ok {first : Expr} {rest trees : List Expr} {types : List Ty}
    {analyzer after : Analyzer}
    (analyzed : Expr.analyzeAll (first :: rest) analyzer = ⟨trees, .ok types, after⟩) :
    ∃ tree others type otherTypes between, trees = tree :: others ∧
      first.analyze analyzer = ⟨tree, .ok type, between⟩ ∧
      Expr.analyzeAll rest between = ⟨others, .ok otherTypes, after⟩ := by
  simp only [Expr.analyzeAll, next_eq_ok, done_eq_ok] at analyzed
  obtain ⟨tree, type, between, passed, others, otherTypes, _, passedRest, rfl, _, rfl⟩ := analyzed
  exact ⟨tree, others, type, otherTypes, between, rfl, passed, passedRest⟩

/-- No expressions become none. -/
theorem Expr.analyzeAll_nil_eq_ok {trees : List Expr} {types : List Ty} {analyzer after : Analyzer}
    (analyzed : Expr.analyzeAll [] analyzer = ⟨trees, .ok types, after⟩) :
    trees = [] ∧ after = analyzer := by
  simp only [Expr.analyzeAll, done_eq_ok] at analyzed
  exact ⟨analyzed.1.symm, analyzed.2.2.symm⟩

/-- What is accepted where an expression is written. -/
theorem Expr.analyzeOption_some_eq_ok {value : Expr} {tree : Option Expr} {type : Option Ty}
    {analyzer after : Analyzer}
    (analyzed : Expr.analyzeOption (some value) analyzer = ⟨tree, .ok type, after⟩) :
    ∃ part found, tree = some part ∧ value.analyze analyzer = ⟨part, .ok found, after⟩ := by
  simp only [Expr.analyzeOption, next_eq_ok, done_eq_ok] at analyzed
  obtain ⟨part, found, _, passed, rfl, _, rfl⟩ := analyzed
  exact ⟨part, found, rfl, passed⟩

/-- Where no expression is written there is none in the tree. -/
theorem Expr.analyzeOption_none_eq_ok {tree : Option Expr} {type : Option Ty}
    {analyzer after : Analyzer}
    (analyzed : Expr.analyzeOption none analyzer = ⟨tree, .ok type, after⟩) :
    tree = none ∧ after = analyzer := by
  simp only [Expr.analyzeOption, done_eq_ok] at analyzed
  exact ⟨analyzed.1.symm, analyzed.2.2.symm⟩

/-- An accepted declaration has an accepted value, if any, and adds its variable. -/
theorem Declaration.analyze_eq_ok {declared tree : Declaration} {analyzer after : Analyzer}
    (analyzed : declared.analyze analyzer = ⟨tree, .ok (), after⟩) :
    ∃ written valueType type between, tree.name = declared.name ∧
      analyzer.types.getOption declared.typeName = .ok written ∧
      Expr.analyzeOption declared.value analyzer = ⟨tree.value, .ok valueType, between⟩ ∧
      between.define (.named declared.name type) = (.ok (), after) := by
  simp only [Declaration.analyze, next_eq_ok, check_eq_ok, step_eq_ok, fill_eq_ok, done_eq_ok]
    at analyzed
  obtain ⟨written, known, _, valueType, between, passed, type, _, _, _, defined, _, rfl, _, rfl⟩ :=
    analyzed
  exact ⟨written, valueType, type, between, rfl, known, passed, defined⟩

/-- An accepted field has an accepted value, if any, and adds its variable. -/
theorem Field.analyze_eq_ok {field tree : Field} {analyzer after : Analyzer}
    (analyzed : field.analyze analyzer = ⟨tree, .ok (), after⟩) :
    ∃ written valueType type between, tree.name = field.name ∧
      analyzer.types.get field.typeName = .ok written ∧
      Expr.analyzeOption field.value analyzer = ⟨tree.value, .ok valueType, between⟩ ∧
      between.define (.named field.name type) = (.ok (), after) := by
  simp only [Field.analyze, next_eq_ok, check_eq_ok, step_eq_ok, fill_eq_ok, done_eq_ok]
    at analyzed
  obtain ⟨written, known, _, valueType, between, passed, type, _, _, _, defined, _, rfl, _, rfl⟩ :=
    analyzed
  exact ⟨written, valueType, type, between, rfl, known, passed, defined⟩

/-- What the analysis has accepted of a statement: the tree that it becomes and the state behind
it. -/
inductive Stmt.Passes (analyzer : Analyzer) : Stmt → Stmt → Analyzer → Prop where
  | expression {value tree type after} (called : value.isCall)
    (passed : value.analyze analyzer = ⟨tree, .ok type, after⟩) :
    Passes analyzer (.expression value) (.expression tree) after
  | declaration {declared tree after}
    (passed : declared.analyze analyzer = ⟨tree, .ok (), after⟩) :
    Passes analyzer (.declaration declared) (.declaration tree) after
  | assignment {target value place content targetType valueType between after}
    (placed : target.isPlace)
    (passed : target.analyze analyzer = ⟨place, .ok targetType, between⟩)
    (passedValue : value.analyze between = ⟨content, .ok valueType, after⟩) :
    Passes analyzer (.assignment target value) (.assignment place content) after
  | conditional {condition test yes no accepted rejected type between later after}
    (passed : condition.analyze analyzer = ⟨test, .ok type, between⟩)
    (suits : Ty.boolean.isAssignable type) (filled : yes.isEmpty = false)
    (passedYes : between.within (Stmt.analyzeAll yes) = ⟨accepted, .ok (), later⟩)
    (passedNo : later.within (Stmt.analyzeAll no) = ⟨rejected, .ok (), after⟩) :
    Passes analyzer (.conditional condition yes no) (.conditional test accepted rejected) after
  | iteration {name value range statements body type between entered inner}
    (passed : value.analyze analyzer = ⟨range, .ok type, between⟩)
    (suits : Ty.integerIterable.isAssignable type) (filled : statements.isEmpty = false)
    (defined : between.enter.define (.named name .integer) = (.ok (), entered))
    (passedBody : Stmt.analyzeAll statements entered = ⟨body, .ok (), inner⟩) :
    Passes analyzer (.iteration name value statements) (.iteration name range body)
      (inner.leave between.active)
  | repetition {condition test statements body type between after}
    (passed : condition.analyze analyzer = ⟨test, .ok type, between⟩)
    (suits : Ty.boolean.isAssignable type)
    (passedBody : between.within (Stmt.analyzeAll statements) = ⟨body, .ok (), after⟩) :
    Passes analyzer (.repetition condition statements) (.repetition test body) after
  | result {value tree type after}
    (passed : value.analyze analyzer = ⟨tree, .ok type, after⟩) :
    Passes analyzer (.result value) (.result tree) after

/-- A statement that is accepted passes. -/
theorem Stmt.passes_of_analyze {source tree : Stmt} {analyzer after : Analyzer}
    (analyzed : source.analyze analyzer = ⟨tree, .ok (), after⟩) :
    source.Passes analyzer tree after := by
  cases source with
  | expression value =>
    rw [Stmt.analyze] at analyzed
    split at analyzed
    · rw [stop_eq_ok] at analyzed
      contradiction
    next called =>
      simp only [next_eq_ok, done_eq_ok] at analyzed
      obtain ⟨_, _, _, passed, rfl, _, rfl⟩ := analyzed
      exact .expression (by simpa using called) passed
  | declaration declared =>
    simp only [Stmt.analyze, next_eq_ok, done_eq_ok] at analyzed
    obtain ⟨_, _, _, passed, rfl, _, rfl⟩ := analyzed
    exact .declaration passed
  | assignment target value =>
    rw [Stmt.analyze] at analyzed
    split at analyzed
    · rw [stop_eq_ok] at analyzed
      contradiction
    next placed =>
      simp only [next_eq_ok, check_eq_ok, done_eq_ok] at analyzed
      obtain ⟨_, _, _, passed, _, _, _, passedValue, _, _, rfl, _, rfl⟩ := analyzed
      exact .assignment (by simpa using placed) passed passedValue
  | conditional condition yes no =>
    simp only [Stmt.analyze, next_eq_ok, check_eq_ok] at analyzed
    obtain ⟨_, _, _, passed, _, suits, analyzed⟩ := analyzed
    split at analyzed
    · rw [stop_eq_ok] at analyzed
      contradiction
    next filled =>
      simp only [next_eq_ok, done_eq_ok] at analyzed
      obtain ⟨_, _, _, passedYes, _, _, _, passedNo, rfl, _, rfl⟩ := analyzed
      exact .conditional passed (Typing.require_eq_ok.mp suits) (Bool.eq_false_iff.mpr filled)
        passedYes passedNo
  | iteration name value statements =>
    simp only [Stmt.analyze, next_eq_ok, check_eq_ok] at analyzed
    obtain ⟨_, _, _, passed, _, suits, analyzed⟩ := analyzed
    split at analyzed
    · rw [stop_eq_ok] at analyzed
      contradiction
    next filled =>
      simp only [next_eq_ok, done_eq_ok, Analyzer.within_eq_ok, step_eq_ok] at analyzed
      obtain ⟨_, _, _, ⟨_, ⟨_, _, defined, passedBody⟩, rfl⟩, rfl, _, rfl⟩ := analyzed
      exact .iteration passed (Typing.require_eq_ok.mp suits) (Bool.eq_false_iff.mpr filled) defined
        passedBody
  | repetition condition statements =>
    simp only [Stmt.analyze, next_eq_ok, check_eq_ok, done_eq_ok] at analyzed
    obtain ⟨_, _, _, passed, _, suits, _, _, _, passedBody, rfl, _, rfl⟩ := analyzed
    exact .repetition passed (Typing.require_eq_ok.mp suits) passedBody
  | result value =>
    simp only [Stmt.analyze, next_eq_ok] at analyzed
    obtain ⟨_, _, _, passed, analyzed⟩ := analyzed
    split at analyzed
    · rw [stop_eq_ok] at analyzed
      contradiction
    next returns known =>
      simp only [check_eq_ok, done_eq_ok] at analyzed
      obtain ⟨_, _, rfl, _, rfl⟩ := analyzed
      exact .result passed

end LetDef
