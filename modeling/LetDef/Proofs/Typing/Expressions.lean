import LetDef.Proofs.Program.Expressions
import LetDef.Proofs.Typing.Acceptance

/-!
# The types of the expressions of accepted programs

The analysis gives a type to every expression of an accepted program, the ones in methods that are
never called and in fields included (`Acceptance.typed`).
-/
namespace LetDef

/-- In some state in which no type has members, the expression comes of one that is accepted. -/
def Expr.Typed (tree : Expr) : Prop :=
  ∃ (analyzer : Analyzer) (source : Expr) (type : Ty), analyzer.members = #[] ∧
    analyzer.Types source tree type

namespace Analyzer

variable {analyzer after : Analyzer}

mutual

/-- All expressions in an accepted one are. -/
theorem Types.within {analyzer : Analyzer} (bare : analyzer.members = #[]) {source : Expr}
    (tree : Expr) {type : Ty} (types : analyzer.Types source tree type) :
    ∀ part ∈ tree.within, part.Typed := by
  have whole : tree.Typed := ⟨analyzer, source, type, bare, types⟩
  cases tree with
  | literal value slot => exact List.forall_mem_singleton.mpr whole
  | group inner slot =>
    obtain ⟨_, _, _, typesInner, _⟩ := types.group bare
    exact List.forall_mem_cons.mpr ⟨whole, Types.within bare inner typesInner⟩
  | binary operator left right slot =>
    obtain ⟨_, _, _, _, _, typesLeft, typesRight, _⟩ := types.binary bare
    have first := Types.within bare left typesLeft
    have second := Types.within bare right typesRight
    exact List.forall_mem_cons.mpr ⟨whole, List.forall_mem_append.mpr ⟨first, second⟩⟩
  | «variable» name slot typeSlot => exact List.forall_mem_singleton.mpr whole
  | member receiver name slot typeSlot => exact absurd types (Types.not_member bare)
  | call name arguments slot typeSlot =>
    obtain ⟨_, _, _, _, typesAll, _⟩ := types.call bare
    exact List.forall_mem_cons.mpr ⟨whole, TypesAll.within bare arguments typesAll⟩
  | memberCall receiver name arguments slot typeSlot =>
    exact absurd types (Types.not_memberCall bare)

/-- All expressions in accepted ones are. -/
theorem TypesAll.within {analyzer : Analyzer} (bare : analyzer.members = #[])
    {sources : List Expr} (trees : List Expr) {types : List Ty}
    (accepted : analyzer.TypesAll sources trees types) :
    ∀ part ∈ Expr.withinAll trees, part.Typed := by
  cases trees with
  | nil => exact List.forall_mem_nil _
  | cons first rest =>
    obtain ⟨_, _, _, _, _, _, typesFirst, typesRest⟩ := accepted.cons bare
    have begun := Types.within bare first typesFirst
    exact List.forall_mem_append.mpr ⟨begun, TypesAll.within bare rest typesRest⟩

end

/-- An expression that is written and accepted is typed. -/
theorem TypesOption.typed (bare : analyzer.members = #[]) {source tree : Option Expr}
    {type : Option Ty} (accepted : analyzer.TypesOption source tree type) :
    ∀ value ∈ tree.toList, ∀ part ∈ value.within, part.Typed := by
  cases tree with
  | none => exact List.forall_mem_nil _
  | some tree =>
    obtain ⟨_, _, _, _, types⟩ := accepted.some bare
    exact List.forall_mem_singleton.mpr (types.within bare tree)

mutual

/-- All expressions of an accepted statement are typed. -/
theorem Accepts.typed {analyzer after : Analyzer} (bare : analyzer.members = #[]) {source : Stmt}
    (tree : Stmt) (accepts : analyzer.Accepts source tree after) :
    ∀ value ∈ tree.outermost, ∀ part ∈ value.within, part.Typed := by
  cases tree with
  | expression value =>
    obtain ⟨_, _, _, _, types, _⟩ := accepts.expression bare
    exact List.forall_mem_singleton.mpr (types.within bare value)
  | declaration declared =>
    obtain ⟨_, _, _, _, _, types, _⟩ := accepts.declaration bare
    exact types.typed bare
  | assignment target value =>
    obtain ⟨_, _, _, _, _, _, typesTarget, typesValue, _⟩ := accepts.assignment bare
    have first := typesTarget.within bare target
    have second := typesValue.within bare value
    exact List.forall_mem_cons.mpr ⟨first, List.forall_mem_singleton.mpr second⟩
  | conditional condition accepted rejected =>
    obtain ⟨_, _, _, _, between, _, types, _, _, yes, no⟩ := accepts.conditional bare
    have first := types.within bare condition
    have left : between.members = #[] := (yes.extends bare).members.trans bare
    obtain ⟨_, acceptsYes, _⟩ := yes
    obtain ⟨_, acceptsNo, _⟩ := no
    have second := AcceptsAll.typed (members_enter bare) accepted acceptsYes
    have third := AcceptsAll.typed (members_enter left) rejected acceptsNo
    exact List.forall_mem_cons.mpr ⟨first, List.forall_mem_append.mpr ⟨second, third⟩⟩
  | iteration name value body =>
    obtain ⟨_, _, _, entered, _, _, types, _, _, defined, acceptsBody, _⟩ := accepts.iteration bare
    have first := types.within bare value
    have inside : entered.members = #[] := (Grows.ofDefine defined).members.trans bare
    exact List.forall_mem_cons.mpr ⟨first, AcceptsAll.typed inside body acceptsBody⟩
  | repetition condition body =>
    obtain ⟨_, _, _, _, types, _, ⟨_, acceptsBody, _⟩⟩ := accepts.repetition bare
    have first := types.within bare condition
    have second := AcceptsAll.typed (members_enter bare) body acceptsBody
    exact List.forall_mem_cons.mpr ⟨first, second⟩
  | result value =>
    obtain ⟨_, _, _, _, types, _⟩ := accepts.result bare
    exact List.forall_mem_singleton.mpr (types.within bare value)

/-- All expressions of accepted statements are typed. -/
theorem AcceptsAll.typed {analyzer after : Analyzer} (bare : analyzer.members = #[])
    {sources : List Stmt} (trees : List Stmt) (accepts : analyzer.AcceptsAll sources trees after) :
    ∀ value ∈ Stmt.outermostAll trees, ∀ part ∈ value.within, part.Typed := by
  cases trees with
  | nil => exact List.forall_mem_nil _
  | cons first rest =>
    obtain ⟨_, _, between, _, acceptsFirst, acceptsRest⟩ := accepts.cons
    have begun := Accepts.typed bare first acceptsFirst
    have reached : between.members = #[] :=
      (Accepts.grows bare first acceptsFirst).1.members.trans bare
    exact List.forall_mem_append.mpr ⟨begun, AcceptsAll.typed reached rest acceptsRest⟩

end

end Analyzer

namespace Acceptance

variable {analyzer after : Analyzer}

/-- All expressions of accepted fields are typed. -/
theorem typed_fields {sources trees : List Field} (blank : analyzer.Blank)
    (passed : Visit.each Field.analyze sources analyzer = ⟨trees, .ok (), after⟩) :
    ∀ declared ∈ trees, ∀ value ∈ declared.value.toList, ∀ part ∈ value.within, part.Typed := by
  induction trees generalizing sources analyzer with
  | nil => exact List.forall_mem_nil _
  | cons first rest ih =>
    obtain ⟨_, _, between, _, analyzed, passedRest⟩ := Visit.each_eq_ok passed
    obtain ⟨_, _, _, _, types, _⟩ := Analyzer.field_eq_ok blank.standing.bare analyzed
    have begun := types.typed blank.standing.bare
    exact List.forall_mem_cons.mpr ⟨begun, ih (blank.pass analyzed) passedRest⟩

/-- All expressions of an accepted program are typed. -/
theorem typed (accepted : Acceptance) : ∀ part ∈ accepted.program.expressions, part.Typed := by
  intro part member
  obtain ⟨value, outermost, inside⟩ := List.mem_flatMap.mp member
  rcases List.mem_append.mp outermost with outermost | outermost
  · obtain ⟨declared, listed, written⟩ := List.mem_flatMap.mp outermost
    have typed := typed_fields Analyzer.fresh_blank accepted.fields declared listed
    exact typed value written part inside
  · obtain ⟨declared, listed, written⟩ := List.mem_flatMap.mp outermost
    obtain ⟨source, before, after, _, rests, ⟨method⟩⟩ := accepted.exists_method listed
    have bare : { method.entered with returns := some method.signature.returns }.members = #[] :=
      method.members_entered rests.standing.bare
    exact method.body.typed bare declared.body value written part inside

end Acceptance

end LetDef
