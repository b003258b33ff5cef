import LetDef.Typing.Analysis

/-!
# What a success of the analysis says

Each combinator of `Visit` ends in a success exactly if its parts do. The analysis fills slots and
changes nothing else: with the slots emptied again, the tree it ends with is the tree it began with,
whether it succeeds or not.
-/
namespace LetDef

namespace Visit

variable {τ σ ρ α β : Type}

/-- A visit goes on to a success exactly if its first part succeeds and what follows does. -/
theorem next_eq_ok {visit : Visit τ α} {build : τ → σ} {go : τ → α → Analyzer → Visit σ β}
    {tree : σ} {value : β} {after : Analyzer} :
    visit.next build go = ⟨tree, .ok value, after⟩ ↔
      ∃ part found between, visit = ⟨part, .ok found, between⟩ ∧
        go part found between = ⟨tree, .ok value, after⟩ := by
  obtain ⟨part, result, between⟩ := visit
  cases result with
  | error error => simp [next]
  | ok found =>
    constructor
    · intro went
      exact ⟨part, found, between, rfl, went⟩
    · rintro ⟨_, _, _, same, went⟩
      cases same
      exact went

/-- A check is passed exactly if it succeeds. -/
theorem check_eq_ok {tree result : τ} {checked : Except TypeError α} {analyzer : Analyzer}
    {go : α → Visit τ β} {value : β} {after : Analyzer} :
    check tree checked analyzer go = ⟨result, .ok value, after⟩ ↔
      ∃ found, checked = .ok found ∧ go found = ⟨result, .ok value, after⟩ := by
  cases checked with
  | ok found => simp [check]
  | error error => simp [check]

/-- A step is passed exactly if it succeeds. -/
theorem step_eq_ok {tree result : τ} {outcome : Except TypeError α × Analyzer}
    {go : α → Analyzer → Visit τ β} {value : β} {after : Analyzer} :
    step tree outcome go = ⟨result, .ok value, after⟩ ↔
      ∃ found between, outcome = (.ok found, between) ∧
        go found between = ⟨result, .ok value, after⟩ := by
  obtain ⟨stepped, between⟩ := outcome
  cases stepped with
  | error error => simp [step]
  | ok found =>
    constructor
    · intro went
      exact ⟨found, between, rfl, went⟩
    · rintro ⟨_, _, same, went⟩
      cases same
      exact went

/-- A slot is filled exactly if it is empty. -/
theorem fill_eq_ok {build : Option ρ → τ} {slot : Option ρ} {found : ρ} {analyzer : Analyzer}
    {go : Option ρ → Visit τ α} {tree : τ} {value : α} {after : Analyzer} :
    fill build slot found analyzer go = ⟨tree, .ok value, after⟩ ↔
      slot = none ∧ go (some found) = ⟨tree, .ok value, after⟩ := by
  cases slot with
  | none => simp [fill]
  | some held => simp [fill]

/-- An end is the success that it says. -/
theorem done_eq_ok {tree result : τ} {value found : α} {analyzer after : Analyzer} :
    done tree value analyzer = ⟨result, .ok found, after⟩ ↔
      tree = result ∧ value = found ∧ analyzer = after := by
  simp [done]

/-- An end with an error is not a success. -/
theorem stop_eq_ok {tree result : τ} {error : TypeError} {found : α} {analyzer after : Analyzer} :
    stop tree error analyzer = ⟨result, .ok found, after⟩ ↔ False := by
  simp [stop]

/-- The slot for a type is filled exactly if it is empty. -/
theorem typed_eq_ok {build : Option Ty → Expr} {slot : Option Ty} {type found : Ty}
    {analyzer after : Analyzer} {tree : Expr} :
    typed build slot type analyzer = ⟨tree, .ok found, after⟩ ↔
      slot = none ∧ build (some type) = tree ∧ type = found ∧ analyzer = after := by
  simp only [typed, fill_eq_ok, done_eq_ok]

variable {κ : Type} {keep : σ → κ} {kept : κ}

/-- What both the tree built around a part and the tree of what follows keep, the whole keeps. -/
theorem keep_next {visit : Visit τ α} {build : τ → σ} {go : τ → α → Analyzer → Visit σ β}
    (built : keep (build visit.tree) = kept)
    (went : ∀ value after, keep (go visit.tree value after).tree = kept) :
    keep (visit.next build go).tree = kept := by
  obtain ⟨part, result, between⟩ := visit
  cases result with
  | ok value => exact went value between
  | error error => exact built

/-- What both the tree at a check and the tree of what follows keep, the whole keeps. -/
theorem keep_check {tree : σ} {checked : Except TypeError α} {analyzer : Analyzer}
    {go : α → Visit σ β} (here : keep tree = kept) (went : ∀ value, keep (go value).tree = kept) :
    keep (check tree checked analyzer go).tree = kept := by
  cases checked with
  | ok value => exact went value
  | error error => exact here

/-- What both the tree at a step and the tree of what follows keep, the whole keeps. -/
theorem keep_step {tree : σ} {outcome : Except TypeError α × Analyzer}
    {go : α → Analyzer → Visit σ β} (here : keep tree = kept)
    (went : ∀ value after, keep (go value after).tree = kept) :
    keep (step tree outcome go).tree = kept := by
  obtain ⟨stepped, between⟩ := outcome
  cases stepped with
  | ok value => exact went value between
  | error error => exact here

/-- What the tree keeps with any slot, and the tree of what follows as well, the whole keeps. -/
theorem keep_fill {build : Option ρ → σ} {slot : Option ρ} {found : ρ} {analyzer : Analyzer}
    {go : Option ρ → Visit σ α} (here : ∀ slot, keep (build slot) = kept)
    (went : ∀ slot, keep (go slot).tree = kept) :
    keep (fill build slot found analyzer go).tree = kept := by
  cases slot with
  | none => exact went (some found)
  | some held => exact here (some held)

/-- What the tree keeps with any type in its slot, the whole keeps. -/
theorem keep_typed {keep : Expr → κ} {build : Option Ty → Expr} {slot : Option Ty} {type : Ty}
    {analyzer : Analyzer} (here : ∀ slot, keep (build slot) = kept) :
    keep (typed build slot type analyzer).tree = kept :=
  keep_fill here here

end Visit

open Visit (done stop step keep_next keep_check keep_step keep_fill keep_typed)

mutual

/-- Analysing an expression fills slots only. -/
theorem Expr.erase_analyze (value : Expr) (analyzer : Analyzer) :
    (value.analyze analyzer).tree.erase = value.erase := by
  cases value with
  | literal value type => exact keep_check rfl fun _ => keep_typed fun _ => rfl
  | group inner type =>
    have kept := Expr.erase_analyze inner analyzer
    rw [Expr.analyze]
    split
    · rfl
    · refine keep_next ?_ fun _ _ => keep_typed fun _ => ?_
      all_goals simp only [Expr.erase, kept]
  | binary operator left right type =>
    have kept := Expr.erase_analyze left analyzer
    refine keep_next ?_ fun leftType between => ?_
    · simp only [Expr.erase, kept]
    · have keptRight := Expr.erase_analyze right between
      refine keep_next ?_ fun rightType after => keep_check ?_ fun _ => keep_typed fun _ => ?_
      all_goals simp only [Expr.erase, kept, keptRight]
  | «variable» name slot type =>
    rw [Expr.analyze]
    split
    · rfl
    · exact keep_fill (fun _ => rfl) fun _ => keep_typed fun _ => rfl
  | member receiver name slot type =>
    have kept := Expr.erase_analyze receiver analyzer
    refine keep_next ?_ fun owner between => ?_
    · simp only [Expr.erase, kept]
    · split
      · simp only [stop, Expr.erase, kept]
      · refine keep_fill (fun _ => ?_) fun _ => keep_typed fun _ => ?_
        all_goals simp only [Expr.erase, kept]
  | call name arguments slot type =>
    have kept := Expr.eraseAll_analyzeAll arguments analyzer
    refine keep_next ?_ fun types between => ?_
    · simp only [Expr.erase, kept]
    · split
      · simp only [stop, Expr.erase, kept]
      · refine keep_check ?_ fun _ => keep_fill (fun _ => ?_) fun _ => keep_typed fun _ => ?_
        all_goals simp only [Expr.erase, kept]
  | memberCall receiver name arguments slot type =>
    have kept := Expr.eraseAll_analyzeAll arguments analyzer
    refine keep_next ?_ fun types between => ?_
    · simp only [Expr.erase, kept]
    · have keptReceiver := Expr.erase_analyze receiver between
      refine keep_next ?_ fun owner after => ?_
      · simp only [Expr.erase, kept, keptReceiver]
      · split
        · simp only [stop, Expr.erase, kept, keptReceiver]
        · refine keep_check ?_ fun _ => keep_fill (fun _ => ?_) fun _ => keep_typed fun _ => ?_
          all_goals simp only [Expr.erase, kept, keptReceiver]

/-- Analysing expressions fills slots only. -/
theorem Expr.eraseAll_analyzeAll (values : List Expr) (analyzer : Analyzer) :
    Expr.eraseAll (Expr.analyzeAll values analyzer).tree = Expr.eraseAll values := by
  cases values with
  | nil => rfl
  | cons first rest =>
    have kept := Expr.erase_analyze first analyzer
    refine keep_next ?_ fun type between => ?_
    · simp only [Expr.eraseAll, kept]
    · have keptRest := Expr.eraseAll_analyzeAll rest between
      refine keep_next ?_ fun types after => ?_
      all_goals simp only [done, Expr.eraseAll, kept, keptRest]

end

/-- Analysing an optional expression fills slots only. -/
theorem Expr.erase_analyzeOption (value : Option Expr) (analyzer : Analyzer) :
    (Expr.analyzeOption value analyzer).tree.map Expr.erase = value.map Expr.erase := by
  cases value with
  | none => rfl
  | some value =>
    have kept := Expr.erase_analyze value analyzer
    refine keep_next ?_ fun _ _ => ?_
    all_goals simp only [done, Option.map_some, kept]

/-- Analysing a declaration fills slots only. -/
theorem Declaration.erase_analyze (declaration : Declaration) (analyzer : Analyzer) :
    (declaration.analyze analyzer).tree.erase = declaration.erase := by
  have kept := Expr.erase_analyzeOption declaration.value analyzer
  refine keep_check rfl fun _ => keep_next ?_ fun _ _ => keep_check ?_ fun _ =>
    keep_step ?_ fun _ _ => keep_fill (fun _ => ?_) fun _ => ?_
  all_goals simp only [done, Declaration.erase, kept]

/-- Going back to a scope changes no tree. -/
@[simp] theorem Analyzer.tree_within {τ α : Type} (analyzer : Analyzer)
    (body : Analyzer → Visit τ α) :
    (analyzer.within body).tree = (body analyzer.enter).tree := rfl

mutual

/-- Analysing a statement fills slots only. -/
theorem Stmt.erase_analyze (statement : Stmt) (analyzer : Analyzer) :
    (statement.analyze analyzer).tree.erase = statement.erase := by
  cases statement with
  | expression value =>
    have kept := Expr.erase_analyze value analyzer
    rw [Stmt.analyze]
    split
    · rfl
    · refine keep_next ?_ fun _ _ => ?_
      all_goals simp only [done, Stmt.erase, kept]
  | declaration declared =>
    have kept := Declaration.erase_analyze declared analyzer
    refine keep_next ?_ fun _ _ => ?_
    all_goals simp only [done, Stmt.erase, kept]
  | assignment target value =>
    have kept := Expr.erase_analyze target analyzer
    rw [Stmt.analyze]
    split
    · rfl
    · refine keep_next ?_ fun targetType between => ?_
      · simp only [Stmt.erase, kept]
      · have keptValue := Expr.erase_analyze value between
        refine keep_next ?_ fun _ _ => keep_check ?_ fun _ => ?_
        all_goals simp only [done, Stmt.erase, kept, keptValue]
  | conditional condition accepted rejected =>
    have kept := Expr.erase_analyze condition analyzer
    refine keep_next ?_ fun type between => keep_check ?_ fun _ => ?_
    · simp only [Stmt.erase, kept]
    · simp only [Stmt.erase, kept]
    · split
      · simp only [stop, Stmt.erase, kept]
      · have keptAccepted := Stmt.eraseAll_analyzeAll accepted between.enter
        refine keep_next ?_ fun _ after => ?_
        · simp only [Analyzer.tree_within, Stmt.erase, kept, keptAccepted]
        · have keptRejected := Stmt.eraseAll_analyzeAll rejected after.enter
          refine keep_next ?_ fun _ _ => ?_
          all_goals
            simp only [done, Analyzer.tree_within, Stmt.erase, kept, keptAccepted, keptRejected]
  | iteration name value body =>
    have kept := Expr.erase_analyze value analyzer
    refine keep_next ?_ fun type between => keep_check ?_ fun _ => ?_
    · simp only [Stmt.erase, kept]
    · simp only [Stmt.erase, kept]
    · split
      · simp only [stop, Stmt.erase, kept]
      · have keptBody : Stmt.eraseAll (between.within fun analyzer =>
            step body (analyzer.define (.named name .integer)) fun () analyzer =>
            Stmt.analyzeAll body analyzer).tree = Stmt.eraseAll body :=
          keep_step rfl fun _ inner => Stmt.eraseAll_analyzeAll body inner
        refine keep_next ?_ fun _ _ => ?_
        all_goals simp only [done, Stmt.erase, kept, keptBody]
  | repetition condition body =>
    have kept := Expr.erase_analyze condition analyzer
    refine keep_next ?_ fun type between => keep_check ?_ fun _ => ?_
    · simp only [Stmt.erase, kept]
    · simp only [Stmt.erase, kept]
    · have keptBody := Stmt.eraseAll_analyzeAll body between.enter
      refine keep_next ?_ fun _ _ => ?_
      all_goals simp only [done, Analyzer.tree_within, Stmt.erase, kept, keptBody]
  | result value =>
    have kept := Expr.erase_analyze value analyzer
    refine keep_next ?_ fun type between => ?_
    · simp only [Stmt.erase, kept]
    · split
      · simp only [stop, Stmt.erase, kept]
      · refine keep_check ?_ fun _ => ?_
        all_goals simp only [done, Stmt.erase, kept]

/-- Analysing statements fills slots only. -/
theorem Stmt.eraseAll_analyzeAll (body : List Stmt) (analyzer : Analyzer) :
    Stmt.eraseAll (Stmt.analyzeAll body analyzer).tree = Stmt.eraseAll body := by
  cases body with
  | nil => rfl
  | cons first rest =>
    have kept := Stmt.erase_analyze first analyzer
    refine keep_next ?_ fun _ between => ?_
    · simp only [Stmt.eraseAll, kept]
    · have keptRest := Stmt.eraseAll_analyzeAll rest between
      refine keep_next ?_ fun _ after => ?_
      all_goals simp only [done, Stmt.eraseAll, kept, keptRest]

end

/-- Analysing a field fills slots only. -/
theorem Field.erase_analyze (field : Field) (analyzer : Analyzer) :
    (field.analyze analyzer).tree.erase = field.erase := by
  have kept := Expr.erase_analyzeOption field.value analyzer
  refine keep_check rfl fun _ => keep_next ?_ fun _ _ => keep_check ?_ fun _ =>
    keep_step ?_ fun _ _ => keep_fill (fun _ => ?_) fun _ => ?_
  all_goals simp only [done, Field.erase, kept]

/-- Analysing the body of a method fills slots only. -/
theorem Method.eraseAll_analyzeBody (method : Method) (found : Signature) (analyzer : Analyzer) :
    Stmt.eraseAll (method.analyzeBody found analyzer).tree = Stmt.eraseAll method.body :=
  keep_step rfl fun _ between =>
    Stmt.eraseAll_analyzeAll method.body { between with returns := some found.returns }

/-- Analysing a method fills slots only. -/
theorem Method.erase_analyze (method : Method) (analyzer : Analyzer) :
    (method.analyze analyzer).tree.erase = method.erase := by
  refine keep_check rfl fun found => keep_step rfl fun _ between =>
    keep_fill (fun _ => rfl) fun slot => ?_
  have kept := Method.eraseAll_analyzeBody { method with slot } found between
  refine keep_next ?_ fun _ _ => ?_
  all_goals simp only [done, Method.erase, kept]

/-- Analysing constructs one after the other fills slots only, if analysing each does. -/
theorem Visit.map_each {τ : Type} {analyze : τ → Analyzer → Visit τ Unit} {erase : τ → τ}
    (keeps : ∀ part analyzer, erase (analyze part analyzer).tree = erase part) (parts : List τ)
    (analyzer : Analyzer) :
    (Visit.each analyze parts analyzer).tree.map erase = parts.map erase := by
  induction parts generalizing analyzer with
  | nil => rfl
  | cons first rest ih =>
    have kept := keeps first analyzer
    refine keep_next ?_ fun _ between => ?_
    · simp only [List.map_cons, kept]
    · have keptRest := ih between
      refine keep_next ?_ fun _ _ => ?_
      all_goals simp only [done, List.map_cons, kept, keptRest]

/-- Analysing a program fills slots only. -/
theorem Program.erase_analyze (program : Program) (analyzer : Analyzer) :
    (program.analyze analyzer).tree.erase = program.erase := by
  have keptFields := Visit.map_each Field.erase_analyze program.fields analyzer
  refine keep_next ?_ fun _ between => ?_
  · simp only [Program.erase, keptFields]
  · have keptMethods := Visit.map_each Method.erase_analyze program.methods between
    refine keep_next ?_ fun _ after => keep_check ?_ fun _ => ?_
    all_goals simp only [done, Program.erase, keptFields, keptMethods]

end LetDef
