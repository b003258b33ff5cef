import LetDef.Proofs.Typing.Elaboration

/-!
# The analysis decides the typing rules

A program without a host is accepted exactly if it is well typed by the rules of
`LetDef.Proofs.Typing.Judgment`, and the analysis fills the slots of its tree as the derivation does
(`analyze_succeeds_iff_judged`). Fields and methods are defined one after the other in the global
scope, which one context after the other describes.
-/
namespace LetDef

open Visit (next_eq_ok check_eq_ok done_eq_ok)

namespace Context

/-- The context describes a state in which the global scope is active. -/
structure Surveys (context : Context) (analyzer : Analyzer) : Prop where
  /-- The state is described. -/
  describes : context.Describes analyzer
  /-- The global scope is active. -/
  resting : analyzer.active = analyzer.globals

/-- At the beginning the context of the rules surveys the state of the analysis. -/
theorem surveys_start : start.Surveys .fresh :=
  ⟨describes_start, rfl⟩

namespace Surveys

/-- What the analysis accepts one after the other is derived so, if each part is. -/
theorem inTurn {τ : Type} {analyze : τ → Analyzer → Visit τ Unit}
    {checks : Context → τ → τ → Context → Prop} {sources trees : List τ} {context : Context}
    {analyzer after : Analyzer} (surveys : context.Surveys analyzer)
    (passed : Visit.each analyze sources analyzer = ⟨trees, .ok (), after⟩)
    (each : ∀ {context : Context} {analyzer after : Analyzer} {source tree : τ},
      context.Surveys analyzer → analyze source analyzer = ⟨tree, .ok (), after⟩ →
      ∃ behind, checks context source tree behind ∧ behind.Surveys after) :
    ∃ behind, InTurn checks context sources trees behind ∧ behind.Surveys after := by
  induction trees generalizing sources context analyzer with
  | nil =>
    obtain ⟨rfl, rfl⟩ := Visit.each_nil_eq_ok passed
    exact ⟨context, .nil, surveys⟩
  | cons first rest ih =>
    obtain ⟨_, _, between, rfl, analyzed, passedRest⟩ := Visit.each_eq_ok passed
    obtain ⟨_, checked, reached⟩ := each surveys analyzed
    obtain ⟨behind, checkedRest, surveysEnd⟩ := ih reached passedRest
    exact ⟨behind, .cons checked checkedRest, surveysEnd⟩

/-- What is derived one after the other is accepted so, if each part is. -/
theorem exists_each {τ : Type} {analyze : τ → Analyzer → Visit τ Unit}
    {checks : Context → τ → τ → Context → Prop} {sources trees : List τ}
    {context behind : Context} {analyzer : Analyzer} (surveys : context.Surveys analyzer)
    (derived : InTurn checks context sources trees behind)
    (each : ∀ {context behind : Context} {analyzer : Analyzer} {source tree : τ},
      context.Surveys analyzer → checks context source tree behind →
      ∃ after, analyze source analyzer = ⟨tree, .ok (), after⟩ ∧ behind.Surveys after) :
    ∃ after, Visit.each analyze sources analyzer = ⟨trees, .ok (), after⟩ ∧
      behind.Surveys after := by
  induction derived generalizing analyzer with
  | nil => exact ⟨analyzer, rfl, surveys⟩
  | cons first _ ih =>
    obtain ⟨between, analyzed, reached⟩ := each surveys first
    obtain ⟨after, passed, surveysEnd⟩ := ih reached
    refine ⟨after, ?_, surveysEnd⟩
    rw [Visit.each, next_eq_ok]
    refine ⟨_, (), between, analyzed, next_eq_ok.mpr ?_⟩
    exact ⟨_, (), after, passed, done_eq_ok.mpr ⟨rfl, rfl, rfl⟩⟩

variable {context behind : Context} {analyzer after : Analyzer}

/-- A variable that has been added to the global scope is surveyed. -/
theorem bind (surveys : context.Surveys analyzer) {entry : Variable}
    (defined : analyzer.define entry = (.ok (), after)) : (context.bind entry).Surveys after := by
  have grown := Analyzer.Grows.ofDefine defined
  refine ⟨surveys.describes.bind defined, ?_⟩
  rw [grown.active, grown.globals]
  exact surveys.resting

/-- A field that the analysis accepts is derived. -/
theorem checksField (surveys : context.Surveys analyzer) {source tree : Field}
    (analyzed : source.analyze analyzer = ⟨tree, .ok (), after⟩) :
    ∃ behind, ChecksField context source tree behind ∧ behind.Surveys after := by
  obtain ⟨name, written, source, slot⟩ := source
  obtain ⟨value, type, rfl, initial, defined, rfl⟩ := surveys.describes.field_iff.mp analyzed
  exact ⟨_, .field initial (surveys.describes.free_of_define defined), surveys.bind defined⟩

/-- A derived field is accepted by the analysis. -/
theorem exists_field (surveys : context.Surveys analyzer) {source tree : Field}
    (derived : ChecksField context source tree behind) :
    ∃ after, source.analyze analyzer = ⟨tree, .ok (), after⟩ ∧ behind.Surveys after := by
  cases derived with
  | @field name written value tree type initial free =>
    obtain ⟨after, defined⟩ := surveys.describes.exists_define (.named name type) free
    exact ⟨after, surveys.describes.field_iff.mpr ⟨tree, type, rfl, initial, defined, rfl⟩,
      surveys.bind defined⟩

/-- A method whose name has been added is surveyed. -/
theorem define (surveys : context.Surveys analyzer) {function : Signature}
    (defined : analyzer.defineFunction function = (.ok (), after)) :
    (context.define function).Surveys after := by
  obtain ⟨describes, resting⟩ := surveys.describes.define surveys.resting defined
  exact ⟨describes, resting⟩

/-- After a method the state is surveyed as it is where its name has been added. -/
theorem pass (surveys : context.Surveys analyzer) {source tree : Method}
    (accepted : source.Accepted tree analyzer after) :
    (context.define accepted.signature).Surveys after := by
  have named := surveys.define accepted.defined
  have extension := accepted.extends_after surveys.describes.standing.bare
  refine ⟨named.describes.extend extension, ?_⟩
  rw [extension.active, extension.globals]
  exact named.resting

/-- The parameters of a method have the names that are written. -/
theorem map_name_parameterVariables {method : Method} {function : Signature}
    (stands : method.Stands function) :
    (method.parameterVariables function.parameters).map Variable.name =
      method.parameters.map Parameter.name := by
  obtain ⟨_, _, sizes⟩ := Method.signatureIn_eq_ok (Method.stands_iff.mp stands)
  exact Method.map_name_parameterVariables sizes

/-- A method that the analysis accepts is derived. -/
theorem checksMethod (surveys : context.Surveys analyzer) {source tree : Method}
    (analyzed : source.analyze analyzer = ⟨tree, .ok (), after⟩) :
    ∃ behind, ChecksMethod context source tree behind ∧ behind.Surveys after := by
  obtain ⟨function, named, entered, body, ended, known, defined, empty, added, accepts, rfl,
    left⟩ := Method.analyze_eq_ok.mp analyzed
  have stands : source.Stands function :=
    Method.stands_iff.mpr (surveys.describes.types ▸ known)
  -- Methods are added to the active scope, which is the global one here.
  obtain ⟨unbound, _⟩ := Analyzer.defineFunction_eq_ok.mp defined
  rw [surveys.resting] at unbound
  have undefined := surveys.describes.undefined_iff.mpr unbound
  obtain ⟨distinct, _, begun⟩ := (surveys.define defined).describes.enter.bindAll added
  rw [map_name_parameterVariables stands] at distinct
  obtain ⟨_, checked, _⟩ := (begun.returning function.returns).checksAll body accepts
  refine ⟨_, .method stands empty undefined distinct checked, ?_⟩
  exact surveys.pass (⟨function, named, entered, ended, known, defined, empty, added, accepts, rfl,
    rfl, rfl, left⟩ : source.Accepted { source with body, slot := some function } analyzer after)

/-- A derived method is accepted by the analysis. -/
theorem exists_method (surveys : context.Surveys analyzer) {source tree : Method}
    (derived : ChecksMethod context source tree behind) :
    ∃ after, source.analyze analyzer = ⟨tree, .ok (), after⟩ ∧ behind.Surveys after := by
  cases derived with
  | @method function body inside stands empty undefined distinct checked =>
    have known : source.signatureIn analyzer.types = .ok function :=
      surveys.describes.types ▸ Method.stands_iff.mp stands
    have unbound := surveys.describes.undefined_iff.mp undefined
    rw [← surveys.resting] at unbound
    have defined := Analyzer.defineFunction_eq_ok.mpr ⟨unbound, rfl⟩
    have named := surveys.define defined
    rw [← map_name_parameterVariables stands] at distinct
    obtain ⟨entered, added⟩ := named.describes.enter.exists_defineAll distinct
      fun _ _ => List.forall_mem_nil _
    obtain ⟨_, _, begun⟩ := named.describes.enter.bindAll added
    obtain ⟨ended, accepts, _⟩ := (begun.returning function.returns).exists_acceptsAll checked
    have analyzed := Method.analyze_eq_ok.mpr ⟨function, _, entered, body, ended, known, defined,
      empty, added, accepts, rfl, rfl⟩
    refine ⟨_, analyzed, ?_⟩
    exact surveys.pass (⟨function, _, entered, ended, known, defined, empty, added, accepts, rfl,
      rfl, rfl, rfl⟩ : source.Accepted { source with body, slot := some function } analyzer _)

/-- There is a method to begin with where the rules find one. -/
theorem checkMain_eq_ok (surveys : context.Surveys analyzer) :
    analyzer.checkMain = .ok () ↔
      ∃ main, context.findFunction? "main" 0 = some main ∧ Ty.integer.Takes main.returns := by
  have found := surveys.describes.findFunction?_eq "main" 0
  rw [Analyzer.findFunction?, surveys.resting] at found
  rw [Analyzer.checkMain, found]
  cases context.findFunction? "main" 0 with
  | none => simp
  | some main =>
    simp only [Option.some.injEq, exists_eq_left', Ty.takes_iff]
    split <;> simp_all

end Surveys

end Context

/-- A program is accepted and becomes this tree exactly if the rules derive it with this tree. -/
theorem Program.judged_iff {source tree : Program} :
    source.Judged tree ↔ ∃ after, source.analyze .fresh = ⟨tree, .ok (), after⟩ := by
  simp only [Program.analyze, next_eq_ok, check_eq_ok, done_eq_ok]
  constructor
  · rintro ⟨_, _, checkedFields, checkedMethods, main⟩
    obtain ⟨loaded, passedFields, surveys⟩ :=
      Context.surveys_start.exists_each checkedFields fun surveys => surveys.exists_field
    obtain ⟨final, passedMethods, surveysEnd⟩ :=
      surveys.exists_each checkedMethods fun surveys => surveys.exists_method
    exact ⟨final, tree.fields, (), loaded, passedFields, tree.methods, (), final, passedMethods, (),
      surveysEnd.checkMain_eq_ok.mpr main, rfl, trivial, rfl⟩
  · rintro ⟨after, fields, _, loaded, passedFields, methods, _, final, passedMethods, _, main, rfl,
      _⟩
    obtain ⟨_, checkedFields, surveys⟩ :=
      Context.surveys_start.inTurn passedFields fun surveys => surveys.checksField
    obtain ⟨_, checkedMethods, surveysEnd⟩ :=
      surveys.inTurn passedMethods fun surveys => surveys.checksMethod
    exact ⟨_, _, checkedFields, checkedMethods, surveysEnd.checkMain_eq_ok.mp main⟩

/-- An accepted program is derived. -/
theorem Acceptance.judged (accepted : Acceptance) : accepted.source.Judged accepted.program := by
  refine Program.judged_iff.mpr ⟨accepted.final, ?_⟩
  simp only [Program.analyze, accepted.fields, accepted.methods, accepted.main, Visit.next,
    Visit.check, Visit.done]

/-- A text that is accepted is read as a program that is derived with the slots that it gets. -/
theorem Program.exists_judged {text : String} {program : Program}
    (analyzed : Program.ofTextAnalyzed text = .ok program) :
    ∃ source, Program.ofText text = .ok source ∧ source.Judged program := by
  obtain ⟨accepted, read, rfl⟩ := Acceptance.exists_of_ofTextAnalyzed analyzed
  exact ⟨accepted.source, read, accepted.judged⟩

/-- The analysis of a program without a host succeeds exactly if the rules derive the program, and
then its slots hold what the derivation gives, of which there is no other. -/
theorem analyze_succeeds_iff_judged (source : Program) :
    ((source.analyze .fresh).result = .ok () ↔ ∃ tree, source.Judged tree) ∧
      ∀ tree, source.Judged tree → (source.analyze .fresh).tree = tree := by
  refine ⟨⟨fun succeeds => ?_, ?_⟩, fun tree judged => ?_⟩
  · generalize analyzed : source.analyze .fresh = visit at succeeds
    obtain ⟨tree, result, after⟩ := visit
    obtain rfl : result = .ok () := succeeds
    exact ⟨tree, Program.judged_iff.mpr ⟨after, analyzed⟩⟩
  · rintro ⟨tree, judged⟩
    obtain ⟨after, analyzed⟩ := Program.judged_iff.mp judged
    rw [analyzed]
  · obtain ⟨after, analyzed⟩ := Program.judged_iff.mp judged
    rw [analyzed]

end LetDef
