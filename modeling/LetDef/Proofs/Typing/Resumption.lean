import LetDef.Proofs.Scope.Preservation
import LetDef.Typing.Analysis

/-!
# What the analysis leaves of its state

However the analysis of a construct ends, the same scope is active as before, the same type is
expected of results, and the store is preserved (`Analyzer.Resumes`). A body that fails somewhere
inside has left all scopes that it entered, and a method whose body fails no longer expects its
type. This holds for all trees, also for those whose slots are filled, and for every analyzer.
-/
namespace LetDef

open Visit (fill check step done stop typed)

/-- The analyzer is where it was, and its store is preserved. -/
structure Analyzer.Resumes (before after : Analyzer) : Prop where
  /-- The base scope stays. -/
  base : after.base = before.base
  /-- The global scope stays. -/
  globals : after.globals = before.globals
  /-- The active scope is the same. -/
  active : after.active = before.active
  /-- The same type is expected of results. -/
  returns : after.returns = before.returns
  /-- The types that can be named stay. -/
  types : after.types = before.types
  /-- The object types keep their members. -/
  members : after.members = before.members
  /-- The store is preserved. -/
  store : before.store.Preserves after.store

namespace Analyzer.Resumes

variable {analyzer before middle after : Analyzer}

/-- Nothing need happen. -/
theorem refl (analyzer : Analyzer) : analyzer.Resumes analyzer :=
  ⟨rfl, rfl, rfl, rfl, rfl, rfl, Store.Preserves.refl _⟩

/-- An analyzer that is twice where it was is where it was. -/
theorem trans (first : before.Resumes middle) (second : middle.Resumes after) :
    before.Resumes after where
  base := second.base.trans first.base
  globals := second.globals.trans first.globals
  active := second.active.trans first.active
  returns := second.returns.trans first.returns
  types := second.types.trans first.types
  members := second.members.trans first.members
  store := first.store.trans second.store

/-- The scopes may change as long as the store is preserved. -/
theorem ofStore {store : Store Variable Signature} (preserves : analyzer.store.Preserves store) :
    analyzer.Resumes { analyzer with store } :=
  ⟨rfl, rfl, rfl, rfl, rfl, rfl, preserves⟩

/-- Work in a new scope, which is given up at the end. -/
theorem ofEntered (inner : analyzer.enter.Resumes after) :
    analyzer.Resumes (after.leave analyzer.active) where
  base := inner.base
  globals := inner.globals
  active := rfl
  returns := inner.returns
  types := inner.types
  members := inner.members
  store := by
    show analyzer.store.Preserves (after.store.release after.active)
    have entered : after.active = analyzer.store.frames.size := inner.active
    rw [entered]
    exact inner.store.ofChild

/-- Work that expects another type of results, if the type is put back at the end. -/
theorem ofReturning {type : Option Ty} (inner : { before with returns := type }.Resumes after) :
    before.Resumes { after with returns := before.returns } :=
  ⟨inner.base, inner.globals, inner.active, rfl, inner.types, inner.members, inner.store⟩

end Analyzer.Resumes

namespace Analyzer

variable (analyzer : Analyzer)

/-- Defining a variable leaves the analyzer where it was. -/
theorem resumes_define (entry : Variable) : analyzer.Resumes (analyzer.define entry).2 := by
  have preserves := analyzer.store.preserves_defineVariable analyzer.active entry.name entry
  unfold define
  split
  next store defined =>
    rw [defined] at preserves
    exact Resumes.ofStore preserves
  next store refused =>
    rw [refused] at preserves
    exact Resumes.ofStore preserves

/-- Defining a function leaves the analyzer where it was. -/
theorem resumes_defineFunction (function : Signature) :
    analyzer.Resumes (analyzer.defineFunction function).2 := by
  have preserves :=
    analyzer.store.preserves_defineFunction analyzer.active function.name function.arity function
  unfold defineFunction
  split
  next store defined =>
    rw [defined] at preserves
    exact Resumes.ofStore preserves
  next store refused =>
    rw [refused] at preserves
    exact Resumes.ofStore preserves

/-- Defining variables leaves the analyzer where it was. -/
theorem resumes_defineAll (entries : List Variable) :
    analyzer.Resumes (analyzer.defineAll entries).2 := by
  induction entries generalizing analyzer with
  | nil => exact Resumes.refl analyzer
  | cons first rest ih =>
    have defined := analyzer.resumes_define first
    unfold defineAll
    split
    next between found =>
      rw [found] at defined
      exact defined.trans (ih between)
    next error between found =>
      rw [found] at defined
      exact defined

/-- Making a field known leaves the analyzer where it was. -/
theorem resumes_share (name : String) (field : Variable) :
    analyzer.Resumes (analyzer.share name field) :=
  Resumes.ofStore (analyzer.store.preserves_defineVariable analyzer.active name field)

end Analyzer

namespace Visit

variable {τ σ ρ α β : Type} {analyzer : Analyzer}

/-- The visit, which began in `analyzer`, ends where it began. -/
def Resumes (visit : Visit τ α) (analyzer : Analyzer) : Prop :=
  analyzer.Resumes visit.analyzer

/-- The state of a visit that ends where it began. -/
theorem Resumes.of_eq {visit : Visit τ α} {tree : τ} {result : Except TypeError α}
    {after : Analyzer} (resumes : visit.Resumes analyzer) (same : visit = ⟨tree, result, after⟩) :
    analyzer.Resumes after := by
  rw [same] at resumes
  exact resumes

/-- An end with a success ends where it began. -/
theorem resumes_done (tree : τ) (value : α) : (done tree value analyzer).Resumes analyzer :=
  Analyzer.Resumes.refl analyzer

/-- An end with an error ends where it began. -/
theorem resumes_stop (tree : τ) (error : TypeError) :
    (stop (α := α) tree error analyzer).Resumes analyzer :=
  Analyzer.Resumes.refl analyzer

/-- If a part and what follows it end where they began, so do both together. -/
theorem resumes_next {visit : Visit τ α} {build : τ → σ} {go : τ → α → Analyzer → Visit σ β}
    (first : visit.Resumes analyzer)
    (second : ∀ part value after, (go part value after).Resumes after) :
    (visit.next build go).Resumes analyzer := by
  obtain ⟨part, result, between⟩ := visit
  cases result with
  | ok value => exact first.trans (second part value between)
  | error error => exact first

/-- A check with what follows it ends where it began, if that does. -/
theorem resumes_check {tree : τ} {result : Except TypeError α} {go : α → Visit τ β}
    (second : ∀ value, (go value).Resumes analyzer) :
    (check tree result analyzer go).Resumes analyzer := by
  cases result with
  | ok value => exact second value
  | error error => exact Analyzer.Resumes.refl analyzer

/-- If a step and what follows it end where they began, so do both together. -/
theorem resumes_step {tree : τ} {outcome : Except TypeError α × Analyzer}
    {go : α → Analyzer → Visit τ β} (first : analyzer.Resumes outcome.2)
    (second : ∀ value after, (go value after).Resumes after) :
    (step tree outcome go).Resumes analyzer := by
  obtain ⟨result, between⟩ := outcome
  cases result with
  | ok value => exact first.trans (second value between)
  | error error => exact first

/-- Filling a slot with what follows ends where it began, if that does. -/
theorem resumes_fill {build : Option ρ → τ} {slot : Option ρ} {found : ρ}
    {go : Option ρ → Visit τ α} (second : ∀ slot, (go slot).Resumes analyzer) :
    (fill build slot found analyzer go).Resumes analyzer := by
  cases slot with
  | none => exact second (some found)
  | some held => exact Analyzer.Resumes.refl analyzer

/-- Filling the slot for a type ends where it began. -/
theorem resumes_typed {build : Option Ty → Expr} {slot : Option Ty} {type : Ty} :
    (typed build slot type analyzer).Resumes analyzer :=
  resumes_fill fun _ => resumes_done _ _

/-- What happens in a new scope ends in the one around it. -/
theorem resumes_within {body : Analyzer → Visit τ α}
    (inner : (body analyzer.enter).Resumes analyzer.enter) :
    (analyzer.within body).Resumes analyzer :=
  inner.ofEntered

end Visit

open Visit (resumes_done resumes_stop resumes_next resumes_check resumes_step resumes_fill
  resumes_typed resumes_within)

mutual

/-- Analysing an expression ends where it began. -/
theorem Expr.resumes_analyze (value : Expr) (analyzer : Analyzer) :
    (value.analyze analyzer).Resumes analyzer := by
  cases value with
  | literal value type => exact resumes_check fun _ => resumes_typed
  | group inner type =>
    have resumesInner := Expr.resumes_analyze inner
    rw [Expr.analyze]
    split
    · exact resumes_stop _ _
    · exact resumes_next (resumesInner analyzer) fun _ _ _ => resumes_typed
  | binary operator left right type =>
    have resumesLeft := Expr.resumes_analyze left
    have resumesRight := Expr.resumes_analyze right
    exact resumes_next (resumesLeft analyzer) fun _ _ between =>
      resumes_next (resumesRight between) fun _ _ _ => resumes_check fun _ => resumes_typed
  | «variable» name slot type =>
    rw [Expr.analyze]
    split
    · exact resumes_stop _ _
    · exact resumes_fill fun _ => resumes_typed
  | member receiver name slot type =>
    have resumesReceiver := Expr.resumes_analyze receiver
    refine resumes_next (resumesReceiver analyzer) fun _ owner between => ?_
    split
    · exact resumes_stop _ _
    next found known =>
      have shared := between.resumes_share name found
      exact shared.trans (resumes_fill fun _ => resumes_typed)
  | call name arguments slot type =>
    have resumesArguments := Expr.resumes_analyzeAll arguments
    refine resumes_next (resumesArguments analyzer) fun _ types between => ?_
    split
    · exact resumes_stop _ _
    · exact resumes_check fun _ => resumes_fill fun _ => resumes_typed
  | memberCall receiver name arguments slot type =>
    have resumesArguments := Expr.resumes_analyzeAll arguments
    have resumesReceiver := Expr.resumes_analyze receiver
    refine resumes_next (resumesArguments analyzer) fun _ types between =>
      resumes_next (resumesReceiver between) fun _ owner after => ?_
    split
    · exact resumes_stop _ _
    · exact resumes_check fun _ => resumes_fill fun _ => resumes_typed

/-- Analysing expressions ends where it began. -/
theorem Expr.resumes_analyzeAll (values : List Expr) (analyzer : Analyzer) :
    (Expr.analyzeAll values analyzer).Resumes analyzer := by
  cases values with
  | nil => exact resumes_done _ _
  | cons first rest =>
    have resumesFirst := Expr.resumes_analyze first
    have resumesRest := Expr.resumes_analyzeAll rest
    exact resumes_next (resumesFirst analyzer) fun _ _ between =>
      resumes_next (resumesRest between) fun _ _ _ => resumes_done _ _

end

/-- Analysing an optional expression ends where it began. -/
theorem Expr.resumes_analyzeOption (value : Option Expr) (analyzer : Analyzer) :
    (Expr.analyzeOption value analyzer).Resumes analyzer := by
  cases value with
  | none => exact resumes_done _ _
  | some value =>
    exact resumes_next (value.resumes_analyze analyzer) fun _ _ _ => resumes_done _ _

/-- Analysing a declaration ends where it began. -/
theorem Declaration.resumes_analyze (declaration : Declaration) (analyzer : Analyzer) :
    (declaration.analyze analyzer).Resumes analyzer :=
  resumes_check fun _ =>
    resumes_next (Expr.resumes_analyzeOption declaration.value analyzer) fun _ _ between =>
      resumes_check fun _ => resumes_step (between.resumes_define _) fun _ _ =>
        resumes_fill fun _ => resumes_done _ _

mutual

/-- Analysing a statement ends where it began. -/
theorem Stmt.resumes_analyze (statement : Stmt) (analyzer : Analyzer) :
    (statement.analyze analyzer).Resumes analyzer := by
  cases statement with
  | expression value =>
    rw [Stmt.analyze]
    split
    · exact resumes_stop _ _
    · exact resumes_next (value.resumes_analyze analyzer) fun _ _ _ => resumes_done _ _
  | declaration declared =>
    exact resumes_next (declared.resumes_analyze analyzer) fun _ _ _ => resumes_done _ _
  | assignment target value =>
    rw [Stmt.analyze]
    split
    · exact resumes_stop _ _
    · exact resumes_next (target.resumes_analyze analyzer) fun _ _ between =>
        resumes_next (value.resumes_analyze between) fun _ _ _ =>
          resumes_check fun _ => resumes_done _ _
  | conditional condition accepted rejected =>
    have resumesAccepted := Stmt.resumes_analyzeAll accepted
    have resumesRejected := Stmt.resumes_analyzeAll rejected
    refine resumes_next (condition.resumes_analyze analyzer) fun _ _ between =>
      resumes_check fun _ => ?_
    split
    · exact resumes_stop _ _
    · exact resumes_next (resumes_within (resumesAccepted between.enter)) fun _ _ after =>
        resumes_next (resumes_within (resumesRejected after.enter)) fun _ _ _ => resumes_done _ _
  | iteration name value body =>
    have resumesBody := Stmt.resumes_analyzeAll body
    refine resumes_next (value.resumes_analyze analyzer) fun _ _ between =>
      resumes_check fun _ => ?_
    split
    · exact resumes_stop _ _
    · have inner : (step body (between.enter.define (.named name .integer)) fun () analyzer =>
          Stmt.analyzeAll body analyzer).Resumes between.enter :=
        resumes_step (between.enter.resumes_define _) fun _ after => resumesBody after
      exact resumes_next (resumes_within inner) fun _ _ _ => resumes_done _ _
  | repetition condition body =>
    have resumesBody := Stmt.resumes_analyzeAll body
    exact resumes_next (condition.resumes_analyze analyzer) fun _ _ between =>
      resumes_check fun _ =>
        resumes_next (resumes_within (resumesBody between.enter)) fun _ _ _ => resumes_done _ _
  | result value =>
    refine resumes_next (value.resumes_analyze analyzer) fun _ _ between => ?_
    split
    · exact resumes_stop _ _
    · exact resumes_check fun _ => resumes_done _ _

/-- Analysing statements ends where it began. -/
theorem Stmt.resumes_analyzeAll (body : List Stmt) (analyzer : Analyzer) :
    (Stmt.analyzeAll body analyzer).Resumes analyzer := by
  cases body with
  | nil => exact resumes_done _ _
  | cons first rest =>
    have resumesFirst := Stmt.resumes_analyze first
    have resumesRest := Stmt.resumes_analyzeAll rest
    exact resumes_next (resumesFirst analyzer) fun _ _ between =>
      resumes_next (resumesRest between) fun _ _ _ => resumes_done _ _

end

/-- Analysing a field ends where it began. -/
theorem Field.resumes_analyze (field : Field) (analyzer : Analyzer) :
    (field.analyze analyzer).Resumes analyzer :=
  resumes_check fun _ =>
    resumes_next (Expr.resumes_analyzeOption field.value analyzer) fun _ _ between =>
      resumes_check fun _ => resumes_step (between.resumes_define _) fun _ _ =>
        resumes_fill fun _ => resumes_done _ _

/-- Analysing the body of a method ends where it began, and there no other type is expected than
before. -/
theorem Method.resumes_analyzeBody (method : Method) (found : Signature) (analyzer : Analyzer) :
    (method.analyzeBody found analyzer).Resumes analyzer := by
  have parameters :=
    analyzer.enter.resumes_defineAll (method.parameterVariables found.parameters)
  refine resumes_within (resumes_step parameters fun _ between => ?_)
  have body := Stmt.resumes_analyzeAll method.body { between with returns := some found.returns }
  exact body.ofReturning

/-- Analysing a method ends where it began. -/
theorem Method.resumes_analyze (method : Method) (analyzer : Analyzer) :
    (method.analyze analyzer).Resumes analyzer :=
  resumes_check fun found => resumes_step (analyzer.resumes_defineFunction found) fun _ between =>
    resumes_fill fun slot =>
      resumes_next (Method.resumes_analyzeBody { method with slot } found between)
        fun _ _ _ => resumes_done _ _

/-- Analysing constructs one after the other ends where it began, if analysing each does. -/
theorem Visit.resumes_each {τ : Type} {analyze : τ → Analyzer → Visit τ Unit}
    (resumes : ∀ part analyzer, (analyze part analyzer).Resumes analyzer) (parts : List τ)
    (analyzer : Analyzer) : (Visit.each analyze parts analyzer).Resumes analyzer := by
  induction parts generalizing analyzer with
  | nil => exact resumes_done _ _
  | cons first rest ih =>
    exact resumes_next (resumes first analyzer) fun _ _ between =>
      resumes_next (ih between) fun _ _ _ => resumes_done _ _

/-- Analysing a program ends where it began. -/
theorem Program.resumes_analyze (program : Program) (analyzer : Analyzer) :
    (program.analyze analyzer).Resumes analyzer :=
  resumes_next (Visit.resumes_each Field.resumes_analyze program.fields analyzer) fun _ _ between =>
    resumes_next (Visit.resumes_each Method.resumes_analyze program.methods between) fun _ _ _ =>
      resumes_check fun _ => resumes_done _ _

end LetDef
