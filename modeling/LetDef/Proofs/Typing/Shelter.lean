import LetDef.Proofs.Scope.Shelter
import LetDef.Proofs.Typing.Resumption
import LetDef.Proofs.Typing.Walk

/-!
# The scopes of the analysis are kept alive

The analysis arrives at every construct in the scope of the construct around it or in a new scope
inside that. The scopes that it will go back to are held by the constructs that it is inside, so at
every spot the frames from the active scope to the global and the base scope are owned
(`Spot.Arrives.sheltered`). This holds for all programs and in all states, after errors as well.
-/
namespace LetDef

/-- The scopes that an analyzer stands in. -/
def Analyzer.position (analyzer : Analyzer) : Position Variable Signature :=
  ⟨analyzer.store, analyzer.base, analyzer.globals, analyzer.active⟩

/-- An analyzer that is where it was stands in the same scopes. -/
theorem Analyzer.Resumes.position {before after : Analyzer} (resumes : before.Resumes after) :
    before.position.Resumes after.position :=
  ⟨resumes.base, resumes.globals, resumes.active, resumes.store⟩

/-- Work where the analyzer was goes on in the same scope. -/
theorem Analyzer.Resumes.leads {before after : Analyzer} (resumes : before.Resumes after) :
    Entry.same.Leads before.position after.position :=
  ⟨.refl _, nofun, resumes.position⟩

/-- Work in a new scope has begun there. -/
theorem Analyzer.Resumes.leadsScope {before between after : Analyzer}
    (begun : before.Resumes between) (resumes : between.enter.Resumes after) :
    Entry.scope.Leads before.position after.position :=
  ⟨begun.position, nofun, resumes.position⟩

namespace Spot

/-- The state in which the analysis arrives at a spot. -/
def analyzer : Spot → Analyzer
  | program _ analyzer | fields _ analyzer | methods _ analyzer | method _ analyzer
  | expression _ analyzer | expressions _ analyzer | optional _ analyzer | statements _ analyzer
  | block _ analyzer | statement _ analyzer => analyzer

/-- The state in which the analysis leaves a spot. -/
def last : Spot → Analyzer
  | program source analyzer => (source.analyze analyzer).analyzer
  | fields sources analyzer => (Visit.each Field.analyze sources analyzer).analyzer
  | methods sources analyzer => (Visit.each Method.analyze sources analyzer).analyzer
  | method source analyzer => (source.analyze analyzer).analyzer
  | expression source analyzer => (source.analyze analyzer).analyzer
  | expressions sources analyzer => (Expr.analyzeAll sources analyzer).analyzer
  | optional source analyzer => (Expr.analyzeOption source analyzer).analyzer
  | statements sources analyzer => (Stmt.analyzeAll sources analyzer).analyzer
  | block sources analyzer => (analyzer.within (Stmt.analyzeAll sources)).analyzer
  | statement source analyzer => (source.analyze analyzer).analyzer

/-- The way from a spot to one inside it: the body of a method, of a block and of a loop over items
has a scope of its own. -/
def entry : Spot → Spot → Entry
  | method .., statements .. => .scope
  | block .., statements .. => .scope
  | statement .., statements .. => .scope
  | _, _ => .same

/-- An analysis that began with the first spot has come to this one, while these frames are held. -/
inductive Arrives (first : Spot) : List FrameId → Spot → Prop where
  | start : Arrives first [] first
  | step {held spot turns part} (before : Arrives first held spot) (leads : spot.Leads turns part) :
    Arrives first ((spot.entry part).saves spot.analyzer.active ++ held) part

/-- The analysis passes this state at the spot itself, having gone on in this way: when it arrives
and when it leaves, and where the scope for a method or for a loop has got its variables, or some of
them. -/
inductive Traverses : Spot → Entry → Analyzer → Prop where
  | beginning {spot} : Traverses spot .same spot.analyzer
  | ending {spot} : Traverses spot .same spot.last
  | parameters {source analyzer signature between result inner}
    (found : source.signatureIn analyzer.types = .ok signature)
    (named : analyzer.defineFunction signature = (.ok (), between))
    (defined : between.enter.defineAll (source.parameterVariables signature.parameters) =
      (result, inner)) : Traverses (.method source analyzer) .scope inner
  | item {name value body analyzer tree found between result entered}
    (analyzed : value.analyze analyzer = ⟨tree, .ok found, between⟩)
    (defined : between.enter.define (.named name .integer) = (result, entered)) :
    Traverses (.statement (.iteration name value body) analyzer) .scope entered

variable {spot part first : Spot} {turns : List Turn} {entry : Entry} {held : List FrameId}

/-- The analysis leaves a spot where it came to it. -/
theorem resumes_last (spot : Spot) : spot.analyzer.Resumes spot.last := by
  cases spot with
  | program source analyzer => exact source.resumes_analyze analyzer
  | fields sources analyzer => exact Visit.resumes_each Field.resumes_analyze sources analyzer
  | methods sources analyzer => exact Visit.resumes_each Method.resumes_analyze sources analyzer
  | method source analyzer => exact source.resumes_analyze analyzer
  | expression source analyzer => exact source.resumes_analyze analyzer
  | expressions sources analyzer => exact Expr.resumes_analyzeAll sources analyzer
  | optional source analyzer => exact Expr.resumes_analyzeOption source analyzer
  | statements sources analyzer => exact Stmt.resumes_analyzeAll sources analyzer
  | block sources analyzer =>
    exact Visit.resumes_within (Stmt.resumes_analyzeAll sources analyzer.enter)
  | statement source analyzer => exact source.resumes_analyze analyzer

/-- Where the scope of a method has got its parameters, or some of them, that is active. -/
theorem leadsScope_of_parameters {source : Method} {signature : Signature}
    {analyzer between inner : Analyzer} {result : Except TypeError Unit}
    (named : analyzer.defineFunction signature = (.ok (), between))
    (defined : between.enter.defineAll (source.parameterVariables signature.parameters) =
      (result, inner)) : Entry.scope.Leads analyzer.position inner.position := by
  have begun := analyzer.resumes_defineFunction signature
  rw [named] at begun
  have entered :=
    between.enter.resumes_defineAll (source.parameterVariables signature.parameters)
  rw [defined] at entered
  exact begun.leadsScope entered

/-- Where the scope of a loop has got its variable, that is active. -/
theorem leadsScope_of_item {name : String} {value tree : Expr} {type : Ty}
    {analyzer between inner : Analyzer} {result : Except TypeError Unit}
    (analyzed : value.analyze analyzer = ⟨tree, .ok type, between⟩)
    (defined : between.enter.define (.named name .integer) = (result, inner)) :
    Entry.scope.Leads analyzer.position inner.position := by
  have entered := between.enter.resumes_define (.named name .integer)
  rw [defined] at entered
  exact ((value.resumes_analyze analyzer).of_eq analyzed).leadsScope entered

/-- The analysis arrives at a spot in the scope of the one around it, or in a new scope inside
that. -/
theorem Leads.entry_leads (leads : spot.Leads turns part) :
    (spot.entry part).Leads spot.analyzer.position part.analyzer.position := by
  cases leads
  case methods analyzed =>
    exact ((Visit.resumes_each Field.resumes_analyze _ _).of_eq analyzed).leads
  case fieldsRest analyzed => exact ((Field.resumes_analyze _ _).of_eq analyzed).leads
  case restMethods analyzed => exact ((Method.resumes_analyze _ _).of_eq analyzed).leads
  case methodBody _ named _ defined =>
    -- The type that is expected of results is no part of the position.
    have entered := leadsScope_of_parameters named defined
    exact entered
  case right analyzed => exact ((Expr.resumes_analyze _ _).of_eq analyzed).leads
  case callReceiver analyzed => exact ((Expr.resumes_analyzeAll _ _).of_eq analyzed).leads
  case restValues analyzed => exact ((Expr.resumes_analyze _ _).of_eq analyzed).leads
  case restStatements analyzed => exact ((Stmt.resumes_analyze _ _).of_eq analyzed).leads
  case blockBody => exact (Analyzer.Resumes.refl _).leadsScope (.refl _)
  case content _ analyzed => exact ((Expr.resumes_analyze _ _).of_eq analyzed).leads
  case accepted analyzed _ _ => exact ((Expr.resumes_analyze _ _).of_eq analyzed).leads
  case rejected analyzed _ _ passed =>
    have begun := (Expr.resumes_analyze _ _).of_eq analyzed
    exact (begun.trans ((Visit.resumes_within (Stmt.resumes_analyzeAll _ _)).of_eq passed)).leads
  case itemBody analyzed _ _ defined => exact leadsScope_of_item analyzed defined
  case roundBody analyzed _ => exact ((Expr.resumes_analyze _ _).of_eq analyzed).leads
  -- The other spots are come to in the state of the spot around them.
  all_goals exact (Analyzer.Resumes.refl _).leads

/-- A state that the analysis passes at a spot is in the scope in which it has come there, or in a
new one that it has entered. -/
theorem Traverses.leads {state : Analyzer} (traverses : spot.Traverses entry state) :
    entry.Leads spot.analyzer.position state.position := by
  cases traverses with
  | beginning => exact (Analyzer.Resumes.refl _).leads
  | ending => exact (resumes_last spot).leads
  | parameters _ named defined => exact leadsScope_of_parameters named defined
  | item analyzed defined => exact leadsScope_of_item analyzed defined

/-- No way of the analysis leads into the closure of a method, so the surroundings of every spot
begin at the global scope. -/
theorem home_entry (spot part : Spot) (home : FrameId) : (spot.entry part).home home = home := by
  cases spot <;> cases part <;> rfl

/-- Wherever an analysis that began at rest has come to, its scopes are sheltered. -/
theorem Arrives.sheltered (arrives : first.Arrives held spot)
    (founded : first.analyzer.position.Founded) :
    spot.analyzer.position.Sheltered spot.analyzer.position.globals held := by
  induction arrives with
  | start => exact founded.sheltered
  | step _ leads ih =>
    have sheltered := ih.lead leads.entry_leads
    rw [home_entry] at sheltered
    exact leads.entry_leads.globals ▸ sheltered

/-- Wherever an analysis that began at rest has come to, the states that it passes are sheltered,
with surroundings that begin at the global scope. -/
theorem Arrives.sheltered_of_traverses {state : Analyzer} (arrives : first.Arrives held spot)
    (founded : first.analyzer.position.Founded) (traverses : spot.Traverses entry state) :
    state.position.Sheltered state.position.globals
      (entry.saves spot.analyzer.active ++ held) := by
  have sheltered := (arrives.sheltered founded).lead traverses.leads
  have around : entry.home spot.analyzer.position.globals = spot.analyzer.position.globals := by
    cases traverses <;> rfl
  rw [around] at sheltered
  exact traverses.leads.globals ▸ sheltered

end Spot

end LetDef
