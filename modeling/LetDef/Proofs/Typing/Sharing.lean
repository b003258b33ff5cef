import LetDef.Proofs.Run.Effect
import LetDef.Proofs.Typing.Acceptance
import LetDef.Proofs.Typing.Passage
import LetDef.Proofs.Typing.Resumption

/-!
# Names that selections make known

Where a host has object types, analysing an expression changes the state: a field that is selected
becomes known under its name alone in the active scope (`Spot.Shares`). An expression adds such
names to the active scope and no others, a statement adds them and the name that it declares, and
the scopes around the active one stay as they are (`Analyzer.Gains`). So between two methods the
scopes are as they were after the fields (`Analyzer.Extends`), whatever is selected in their bodies.
-/
namespace LetDef

open Store (Evolves)

/-- The analysis adds the name of a field that is selected here to a scope, which does not bind the
name yet. -/
inductive Spot.Shares : Spot → FrameId → String → Prop where
  | member {receiver name slot type analyzer tree owner between}
    (analyzed : receiver.analyze analyzer = ⟨tree, .ok owner, between⟩)
    (new : between.store.localVariable? between.active name = none) :
    Shares (.expression (.member receiver name slot type) analyzer) between.active name

/-- Somewhere in the program, the analysis adds the name of a selected field to the scope. -/
def Program.Shares (source : Program) (first : Analyzer) (scope : FrameId) (name : String) : Prop :=
  ∃ site spot, source.Visits first site spot ∧ spot.Shares scope name

/-- The second assignment gives values to the same names as the first, to `names`, and to no others
than `shared` ones. -/
def Bindings.Gains (shared : String → Prop) (names : List String)
    (one two : Bindings String Variable) : Prop :=
  ∀ name, ((one.get? name).isSome ∨ name ∈ names → (two.get? name).isSome) ∧
    ((two.get? name).isSome → (one.get? name).isSome ∨ name ∈ names ∨ shared name)

namespace Analyzer

variable {shared : FrameId → String → Prop} {names more : List String}
variable {analyzer before middle after : Analyzer}

/-- The scopes that were there are as they were, except that the active one has gained `names` and
perhaps some `shared` ones. -/
def Gains (shared : FrameId → String → Prop) (names : List String) (before : Analyzer) :
    Analyzer → Prop :=
  Evolves (fun id one two =>
    if id = before.active then one.Gains (shared id) names two else two = one) before

/-- No scope but the active one has changed. -/
theorem Gains.grows (gains : before.Gains shared names after) : before.Grows after :=
  { gains with
    store := gains.store.mono fun id _ one two changed other => by rwa [if_neg other] at changed }

/-- Where nothing has changed nothing is gained. -/
theorem Extends.gains (extension : before.Extends after) : before.Gains shared [] after :=
  { extension with
    store := extension.store.mono fun id _ one two same => by
      subst same
      split
      · exact fun name => ⟨fun held => held.resolve_right List.not_mem_nil, .inl⟩
      · rfl }

/-- What is gained twice is gained. -/
theorem Gains.trans (first : before.Gains shared names middle)
    (second : middle.Gains shared more after) : before.Gains shared (names ++ more) after := by
  refine Evolves.trans first second fun id one two three changed later => ?_
  rw [first.active] at later
  split at changed
  next active =>
    rw [if_pos active] at later ⊢
    intro name
    obtain ⟨kept, gained⟩ := changed name
    obtain ⟨keptLater, gainedLater⟩ := later name
    rw [List.mem_append]
    refine ⟨fun held => keptLater ?_, fun held => ?_⟩
    · rcases held with held | listed | listed
      · exact .inl (kept (.inl held))
      · exact .inl (kept (.inr listed))
      · exact .inr listed
    · rcases gainedLater held with held | listed | added
      · rcases gained held with held | listed | added
        · exact .inl held
        · exact .inr (.inl (.inl listed))
        · exact .inr (.inr added)
      · exact .inr (.inl (.inr listed))
      · exact .inr (.inr added)
  next inactive =>
    rw [if_neg inactive] at later ⊢
    exact later.trans changed

/-- What binds a name in the active scope gains it, as a name that is listed or as one that is
shared. -/
theorem gains_bindVariable {name : String} {entry : Variable}
    (listed : ∀ other ∈ names, other = name) (reason : name ∈ names ∨ shared analyzer.active name) :
    analyzer.Gains shared names { analyzer with
      store := analyzer.store.bindVariable analyzer.active name entry } := by
  refine ⟨rfl, rfl, rfl, rfl, rfl, rfl, Store.evolves_bindVariable _ _ _ _ ?_ ?_⟩
  · intro other own inactive
    rw [if_neg inactive]
  · intro frame _
    rw [if_pos rfl]
    intro other
    rw [Bindings.get?_bind]
    by_cases same : other = name
    · rw [if_pos same]
      exact ⟨fun _ => rfl, fun _ => .inr (same ▸ reason)⟩
    · rw [if_neg same]
      exact ⟨fun held => held.resolve_right fun member => same (listed other member), .inl⟩

/-- A variable that is defined is gained. -/
theorem Gains.ofDefine {entry : Variable} (defined : analyzer.define entry = (.ok (), after)) :
    analyzer.Gains shared [entry.name] after := by
  obtain ⟨_, rfl⟩ := define_eq_ok.mp defined
  exact gains_bindVariable (fun _ => List.mem_singleton.mp) (.inl List.mem_cons_self)

/-- Variables that are defined are gained. -/
theorem Gains.ofDefineAll {entries : List Variable}
    (defined : analyzer.defineAll entries = (.ok (), after)) :
    analyzer.Gains shared (entries.map Variable.name) after := by
  induction entries generalizing analyzer with
  | nil =>
    injection defined with _ same
    exact same ▸ Extends.refl.gains
  | cons first rest ih =>
    cases begun : analyzer.define first with
    | mk result between =>
      simp only [defineAll, begun] at defined
      cases result with
      | error error => cases defined
      | ok done => exact (Gains.ofDefine begun).trans (ih defined)

/-- A field that is made known is gained as a shared name, unless the active scope binds its
name. -/
theorem gains_share {name : String} {field : Variable}
    (new : analyzer.store.localVariable? analyzer.active name = none →
      shared analyzer.active name) : analyzer.Gains shared [] (analyzer.share name field) := by
  rw [share, Store.defineVariable]
  cases bound : analyzer.store.localVariable? analyzer.active name with
  | some held => exact Extends.refl.gains
  | none =>
    refine gains_bindVariable (fun other member => ?_) (.inr (new bound))
    exact absurd member List.not_mem_nil

end Analyzer

section Walk

variable {source : Program} {first : Analyzer}

open Analyzer (Gains Extends)

mutual

/-- An expression gains names of fields that are selected in it. -/
theorem Expr.gains_analyze (value : Expr) {address : Address} {analyzer after : Analyzer}
    {tree : Expr} {type : Ty} (visits : source.Visits first address (.expression value analyzer))
    (analyzed : value.analyze analyzer = ⟨tree, .ok type, after⟩) :
    analyzer.Gains (source.Shares first) [] after := by
  have passes := Expr.passes_of_analyze analyzed
  cases value with
  | literal =>
    cases passes
    exact Extends.refl.gains
  | group inner =>
    cases passes with
    | group operated passed => exact Expr.gains_analyze inner (visits.step (.inner operated)) passed
  | binary operator left right =>
    cases passes with
    | binary passed passedRight =>
      have begun := Expr.gains_analyze left (visits.step .left) passed
      exact begun.trans (Expr.gains_analyze right (visits.step (.right passed)) passedRight)
  | «variable» =>
    cases passes
    exact Extends.refl.gains
  | member receiver name =>
    cases passes with
    | member passed =>
      have begun := Expr.gains_analyze receiver (visits.step .memberReceiver) passed
      exact begun.trans (Analyzer.gains_share fun new => ⟨_, _, visits, .member passed new⟩)
  | call name arguments =>
    cases passes with
    | call passed => exact Expr.gains_analyzeAll arguments (visits.step .arguments) passed
  | memberCall receiver name arguments =>
    cases passes with
    | memberCall passed passedReceiver =>
      have begun := Expr.gains_analyzeAll arguments (visits.step .memberArguments) passed
      exact begun.trans
        (Expr.gains_analyze receiver (visits.step (.callReceiver passed)) passedReceiver)

/-- Expressions gain names of fields that are selected in them. -/
theorem Expr.gains_analyzeAll (values : List Expr) {address : Address} {analyzer after : Analyzer}
    {trees : List Expr} {types : List Ty}
    (visits : source.Visits first address (.expressions values analyzer))
    (analyzed : Expr.analyzeAll values analyzer = ⟨trees, .ok types, after⟩) :
    analyzer.Gains (source.Shares first) [] after := by
  cases values with
  | nil =>
    obtain ⟨_, rfl⟩ := Expr.analyzeAll_nil_eq_ok analyzed
    exact Extends.refl.gains
  | cons value rest =>
    obtain ⟨_, _, _, _, _, _, passed, passedRest⟩ := Expr.analyzeAll_cons_eq_ok analyzed
    have begun := Expr.gains_analyze value (visits.step .firstValue) passed
    exact begun.trans (Expr.gains_analyzeAll rest (visits.step (.restValues passed)) passedRest)

end

/-- An optional expression gains names of fields that are selected in it. -/
theorem Expr.gains_analyzeOption {value tree : Option Expr} {address : Address}
    {analyzer after : Analyzer} {type : Option Ty}
    (visits : source.Visits first address (.optional value analyzer))
    (analyzed : Expr.analyzeOption value analyzer = ⟨tree, .ok type, after⟩) :
    analyzer.Gains (source.Shares first) [] after := by
  cases value with
  | none =>
    obtain ⟨_, rfl⟩ := Expr.analyzeOption_none_eq_ok analyzed
    exact Extends.refl.gains
  | some value =>
    obtain ⟨_, _, _, passed⟩ := Expr.analyzeOption_some_eq_ok analyzed
    exact Expr.gains_analyze value (visits.step .someValue) passed

/-- Statements in a scope of their own change no scope that was there before, if all they do is to
add names to their own. -/
theorem Analyzer.extends_of_within {body trees : List Stmt} {analyzer after : Analyzer}
    (analyzed : analyzer.within (Stmt.analyzeAll body) = ⟨trees, .ok (), after⟩)
    (gains : ∀ {inner}, Stmt.analyzeAll body analyzer.enter = ⟨trees, .ok (), inner⟩ →
      ∃ names, analyzer.enter.Gains (source.Shares first) names inner) :
    analyzer.Extends after := by
  obtain ⟨inner, passed, rfl⟩ := Analyzer.within_eq_ok.mp analyzed
  obtain ⟨_, gained⟩ := gains passed
  exact gained.grows.leave

mutual

/-- A statement gains the name that it declares and names of fields that are selected in it. -/
theorem Stmt.gains_analyze (statement : Stmt) {address : Address} {analyzer after : Analyzer}
    {tree : Stmt} (visits : source.Visits first address (.statement statement analyzer))
    (analyzed : statement.analyze analyzer = ⟨tree, .ok (), after⟩) :
    analyzer.Gains (source.Shares first) tree.declared after := by
  have passes := Stmt.passes_of_analyze analyzed
  cases statement with
  | expression value =>
    cases passes with
    | expression called passed =>
      exact Expr.gains_analyze value (visits.step (.effect called)) passed
  | declaration declared =>
    cases passes with
    | declaration passed =>
      obtain ⟨_, _, _, _, name, known, passedValue, defined⟩ := Declaration.analyze_eq_ok passed
      have begun := Expr.gains_analyzeOption (visits.step (.firstContent known)) passedValue
      rw [Stmt.declared, name]
      exact begun.trans (Gains.ofDefine defined)
  | assignment target value =>
    cases passes with
    | assignment placed passed passedValue =>
      have begun := Expr.gains_analyze target (visits.step (.target placed)) passed
      exact begun.trans
        (Expr.gains_analyze value (visits.step (.content placed passed)) passedValue)
  | conditional condition yes no =>
    cases passes with
    | conditional passed suits filled passedYes passedNo =>
      have begun := Expr.gains_analyze condition (visits.step .choice) passed
      have visitsYes := visits.step (.accepted passed suits filled)
      have taken := Analyzer.extends_of_within passedYes
        (Stmt.gains_analyzeAll yes (visitsYes.step .blockBody))
      have visitsNo := visits.step (.rejected passed suits filled passedYes)
      have left := Analyzer.extends_of_within passedNo
        (Stmt.gains_analyzeAll no (visitsNo.step .blockBody))
      exact begun.trans (taken.trans left).gains
  | iteration name value statements =>
    cases passes with
    | iteration passed suits filled defined passedBody =>
      have begun := Expr.gains_analyze value (visits.step .range) passed
      have entered : Gains (source.Shares first) [name] _ _ := Gains.ofDefine defined
      obtain ⟨_, round⟩ := Stmt.gains_analyzeAll statements
        (visits.step (.itemBody passed suits filled defined)) passedBody
      exact begun.trans (entered.trans round).grows.leave.gains
  | repetition condition statements =>
    cases passes with
    | repetition passed suits passedBody =>
      have begun := Expr.gains_analyze condition (visits.step .roundCondition) passed
      have visitsRound := visits.step (.roundBody passed suits)
      have round := Analyzer.extends_of_within passedBody
        (Stmt.gains_analyzeAll statements (visitsRound.step .blockBody))
      exact begun.trans round.gains
  | result value =>
    cases passes with
    | result passed => exact Expr.gains_analyze value (visits.step .answer) passed

/-- Statements gain the names that they declare and names of fields that are selected in them. -/
theorem Stmt.gains_analyzeAll (body : List Stmt) {address : Address} {analyzer after : Analyzer}
    {trees : List Stmt} (visits : source.Visits first address (.statements body analyzer))
    (analyzed : Stmt.analyzeAll body analyzer = ⟨trees, .ok (), after⟩) :
    ∃ names, analyzer.Gains (source.Shares first) names after := by
  replace analyzed : analyzer.AcceptsAll body trees after := analyzed
  cases body with
  | nil =>
    cases trees with
    | nil =>
      obtain ⟨_, rfl⟩ := analyzed.nil
      exact ⟨[], Extends.refl.gains⟩
    | cons first rest =>
      obtain ⟨_, _, _, same, _⟩ := analyzed.cons
      contradiction
  | cons statement rest =>
    cases trees with
    | nil =>
      obtain ⟨same, _⟩ := analyzed.nil
      contradiction
    | cons tree others =>
      obtain ⟨_, _, _, same, passed, passedRest⟩ := analyzed.cons
      cases same
      have begun := Stmt.gains_analyze statement (visits.step .firstStatement) passed
      obtain ⟨names, ended⟩ :=
        Stmt.gains_analyzeAll rest (visits.step (.restStatements passed)) passedRest
      exact ⟨_, begun.trans ended⟩

end

/-- Statements in a scope of their own change no scope that was there before. -/
theorem Stmt.extends_within (body : List Stmt) {address : Address} {analyzer after : Analyzer}
    {trees : List Stmt} (visits : source.Visits first address (.block body analyzer))
    (analyzed : analyzer.within (Stmt.analyzeAll body) = ⟨trees, .ok (), after⟩) :
    analyzer.Extends after :=
  Analyzer.extends_of_within analyzed (Stmt.gains_analyzeAll body (visits.step .blockBody))

/-- A field gains its name and names of fields of objects that are selected in its value. -/
theorem Field.gains_analyze {field tree : Field} {rest : List Field} {address : Address}
    {analyzer after : Analyzer}
    (visits : source.Visits first address (.fields (field :: rest) analyzer))
    (analyzed : field.analyze analyzer = ⟨tree, .ok (), after⟩) :
    analyzer.Gains (source.Shares first) [tree.name] after := by
  obtain ⟨_, _, _, _, name, written, passed, defined⟩ := Field.analyze_eq_ok analyzed
  have begun := Expr.gains_analyzeOption (visits.step (.fieldValue written)) passed
  rw [name]
  exact begun.trans (Gains.ofDefine defined)

/-- A method whose name has been defined changes no scope that was there before. -/
theorem Method.Accepted.extends_named {method tree : Method} {address : Address}
    {before after : Analyzer} (accepted : method.Accepted tree before after)
    (visits : source.Visits first address (.method method before)) :
    accepted.named.Extends after := by
  have leads : Spot.Leads (.method method before) [.body] (.statements method.body
      { accepted.entered with returns := some accepted.signature.returns }) :=
    .methodBody accepted.known accepted.defined accepted.empty accepted.distinct
  obtain ⟨_, body⟩ := Stmt.gains_analyzeAll method.body (visits.step leads) accepted.body
  have left := (accepted.grows_of_body body.grows).leave
  rw [← accepted.after_eq] at left
  exact left

end Walk

end LetDef
