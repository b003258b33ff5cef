import LetDef.Proofs.Typing.Resumption
import LetDef.Proofs.Typing.Signatures
import LetDef.Proofs.Typing.Visit

/-!
# What the analysis writes

The analysis fills the slots of a tree whose slots are empty: each of them at most once, whether it
succeeds or not, and all of them if it succeeds, at every depth (`analyze_fills_empty_slots_only`).
What it fills in fits together: a name has the type of what it stands for, a call that of the
results of the function, an expression in parentheses that of the one inside, and a method the types
that are written for it.
-/
namespace LetDef

open Visit (fill check step done stop typed)

mutual

/-- All slots of the expression are filled, and its types fit what its names stand for. -/
def Expr.Annotated : Expr → Prop
  | .literal _ type => type.isSome
  | .group inner type => inner.Annotated ∧ type.isSome ∧ type = inner.type
  | .binary _ left right type => left.Annotated ∧ right.Annotated ∧ type.isSome
  | .variable _ slot type => ∃ found, slot = some found ∧ type = some found.type
  | .member receiver _ slot type =>
    receiver.Annotated ∧ ∃ found, slot = some found ∧ type = some found.type
  | .call _ arguments slot type =>
    Expr.AnnotatedAll arguments ∧ ∃ found, slot = some found ∧ type = some found.returns
  | .memberCall receiver _ arguments slot type =>
    receiver.Annotated ∧ Expr.AnnotatedAll arguments ∧
      ∃ found, slot = some found ∧ type = some found.returns

/-- All slots of the expressions are filled. -/
def Expr.AnnotatedAll : List Expr → Prop
  | [] => True
  | first :: rest => first.Annotated ∧ Expr.AnnotatedAll rest

end

/-- All slots of the declaration are filled. -/
def Declaration.Annotated (declaration : Declaration) : Prop :=
  (∀ value, declaration.value = some value → value.Annotated) ∧ declaration.slot.isSome

mutual

/-- All slots of the statement are filled. -/
def Stmt.Annotated : Stmt → Prop
  | .expression value => value.Annotated
  | .declaration declared => declared.Annotated
  | .assignment target value => target.Annotated ∧ value.Annotated
  | .conditional condition accepted rejected =>
    condition.Annotated ∧ Stmt.AnnotatedAll accepted ∧ Stmt.AnnotatedAll rejected
  | .iteration _ value body => value.Annotated ∧ Stmt.AnnotatedAll body
  | .repetition condition body => condition.Annotated ∧ Stmt.AnnotatedAll body
  | .result value => value.Annotated

/-- All slots of the statements are filled. -/
def Stmt.AnnotatedAll : List Stmt → Prop
  | [] => True
  | first :: rest => first.Annotated ∧ Stmt.AnnotatedAll rest

end

/-- All slots of the field are filled. -/
def Field.Annotated (field : Field) : Prop :=
  (∀ value, field.value = some value → value.Annotated) ∧ field.slot.isSome

/-- The signature has the types that the table knows by the names written for the method. -/
structure Method.Means (method : Method) (types : TypeTable) (signature : Signature) : Prop where
  /-- Each parameter has the type of the name written for it. -/
  parameters : List.Forall₂ (fun parameter type => types.get parameter.typeName = .ok type)
    method.parameters signature.parameters
  /-- The results have the type of the name written for them. -/
  returns : ∀ name, method.returnTypeName = some name → types.get name = .ok signature.returns
  /-- Without a name the results are `NIL`. -/
  silent : method.returnTypeName = none → signature.returns = .nil

/-- All slots of the method are filled, and it has the types written for it. -/
def Method.Annotated (method : Method) (types : TypeTable) : Prop :=
  (∃ signature, method.slot = some signature ∧ method.Means types signature) ∧
    Stmt.AnnotatedAll method.body

/-- All slots of the program are filled, and its methods have the types written for them. -/
structure Program.Annotated (program : Program) (types : TypeTable) : Prop where
  /-- The fields are annotated. -/
  fields : ∀ field ∈ program.fields, field.Annotated
  /-- The methods are annotated. -/
  methods : ∀ method ∈ program.methods, method.Annotated types

section Refusals

/-- A result that is not the refusal to write into a slot that is filled. -/
def WritesOnce {α : Type} (result : Except TypeError α) : Prop :=
  result ≠ .error .slotTaken

variable {α β : Type}

/-- A success refuses nothing. -/
@[simp] theorem writesOnce_ok (value : α) : WritesOnce (.ok value) := by
  intro taken
  cases taken

/-- Only one error is the refusal. -/
@[simp] theorem writesOnce_error (error : TypeError) :
    WritesOnce (α := α) (.error error) ↔ error ≠ .slotTaken := by
  simp only [WritesOnce, ne_eq, Except.error.injEq]

/-- Two steps of which neither refuses to write. -/
theorem WritesOnce.bind {result : Except TypeError α} {go : α → Except TypeError β}
    (first : WritesOnce result) (second : ∀ value, WritesOnce (go value)) :
    WritesOnce (result >>= go) := by
  cases result with
  | ok value => exact second value
  | error error => exact (writesOnce_error error).mpr ((writesOnce_error error).mp first)

/-- A result that is changed. -/
theorem WritesOnce.map {result : Except TypeError α} (change : α → β)
    (first : WritesOnce result) : WritesOnce (result.map change) := by
  cases result with
  | ok value => exact writesOnce_ok (change value)
  | error error => exact (writesOnce_error error).mpr ((writesOnce_error error).mp first)

/-- Steps one after the other of which none refuses to write. -/
theorem writesOnce_mapM {step : α → Except TypeError β} (each : ∀ item, WritesOnce (step item))
    (items : List α) : WritesOnce (items.mapM step) := by
  induction items with
  | nil => exact writesOnce_ok []
  | cons first rest ih =>
    rw [List.mapM_cons]
    exact (each first).bind fun _ => ih.bind fun _ => writesOnce_ok _

/-- What a place takes is not about slots. -/
theorem writesOnce_require (target type : Ty) : WritesOnce (Typing.require target type) := by
  unfold Typing.require
  split <;> simp

/-- What places take is not about slots. -/
theorem writesOnce_requireAll (targets types : List Ty) :
    WritesOnce (Typing.requireAll targets types) := by
  induction targets generalizing types with
  | nil => exact writesOnce_ok ()
  | cons target targets ih =>
    cases types with
    | nil => exact writesOnce_ok ()
    | cons type types => exact (writesOnce_require target type).bind fun _ => ih types

/-- The type of a literal is not about slots. -/
theorem writesOnce_literalType (value : Literal) : WritesOnce (Typing.literalType value) := by
  cases value with
  | integer value =>
    rw [Typing.literalType]
    split <;> simp
  | decimal value =>
    rw [Typing.literalType]
    split <;> simp
  | _ => exact writesOnce_ok _

/-- The type of an operator is not about slots. -/
theorem writesOnce_binaryType (operator : BinaryOp) (left right : Ty) :
    WritesOnce (Typing.binaryType operator left right) := by
  unfold Typing.binaryType
  split
  · exact (writesOnce_require .boolean left).bind fun _ =>
      (writesOnce_require .boolean right).bind fun _ => writesOnce_ok _
  · split
    · split <;> simp
    · unfold Typing.arithmeticType
      split
      · simp
      · split
        · simp
        · split <;> simp

/-- The type of a name is not about slots. -/
theorem TypeTable.writesOnce_get (table : TypeTable) (name : String) :
    WritesOnce (table.get name) := by
  unfold TypeTable.get
  split <;> simp

/-- The type of an optional name is not about slots. -/
theorem TypeTable.writesOnce_getOption (table : TypeTable) (name : Option String) :
    WritesOnce (table.getOption name) := by
  cases name with
  | none => exact writesOnce_ok none
  | some name => exact (table.writesOnce_get name).map some

/-- The type of a declared variable is not about slots. -/
theorem Declaration.writesOnce_typeOf (name : String) (written value : Option Ty) :
    WritesOnce (Declaration.typeOf name written value) := by
  cases written with
  | none => cases value <;> simp [Declaration.typeOf]
  | some written =>
    cases value with
    | none => exact writesOnce_ok written
    | some value => exact (writesOnce_require written value).map _

/-- What a method stands for is not about slots. -/
theorem Method.writesOnce_signatureIn (method : Method) (types : TypeTable) :
    WritesOnce (method.signatureIn types) := by
  rw [Method.signatureIn]
  refine WritesOnce.bind ?_ fun _ => ?_
  · exact writesOnce_mapM (fun parameter : Parameter => types.writesOnce_get parameter.typeName) _
  · exact (types.writesOnce_getOption method.returnTypeName).bind fun _ => writesOnce_ok _

/-- Defining a variable is not about slots. -/
theorem Analyzer.writesOnce_define (analyzer : Analyzer) (entry : Variable) :
    WritesOnce (analyzer.define entry).1 := by
  unfold Analyzer.define
  split <;> simp

/-- Defining a function is not about slots. -/
theorem Analyzer.writesOnce_defineFunction (analyzer : Analyzer) (function : Signature) :
    WritesOnce (analyzer.defineFunction function).1 := by
  unfold Analyzer.defineFunction
  split <;> simp

/-- Defining variables is not about slots. -/
theorem Analyzer.writesOnce_defineAll (analyzer : Analyzer) (entries : List Variable) :
    WritesOnce (analyzer.defineAll entries).1 := by
  induction entries generalizing analyzer with
  | nil => exact writesOnce_ok ()
  | cons first rest ih =>
    have defined := analyzer.writesOnce_define first
    unfold Analyzer.defineAll
    split
    next between _ => exact ih between
    next error between found =>
      rw [found, writesOnce_error] at defined
      exact (writesOnce_error error).mpr defined

/-- Whether there is a method `main` is not about slots. -/
theorem Analyzer.writesOnce_checkMain (analyzer : Analyzer) : WritesOnce analyzer.checkMain := by
  unfold Analyzer.checkMain
  split
  · simp
  · split <;> simp

end Refusals

namespace Visit

variable {τ σ ρ α β : Type} {filled : σ → β → Prop}

/-- The visit refuses to write into no slot, and if it succeeds, its tree and its result are like
this. -/
def Fills (visit : Visit τ α) (filled : τ → α → Prop) : Prop :=
  WritesOnce visit.result ∧ ∀ value, visit.result = .ok value → filled visit.tree value

/-- An end with a success. -/
theorem fills_done {tree : σ} {value : β} {analyzer : Analyzer} (whole : filled tree value) :
    (done tree value analyzer).Fills filled := by
  refine ⟨writesOnce_ok value, fun other same => ?_⟩
  cases same
  exact whole

/-- An end with an error that is not about slots. -/
theorem fills_stop {tree : σ} {error : TypeError} {analyzer : Analyzer}
    (other : error ≠ .slotTaken) :
    (stop tree error analyzer).Fills filled :=
  ⟨(writesOnce_error error).mpr other, fun _ succeeded => nomatch succeeded⟩

/-- What follows a part begins where that has succeeded. -/
theorem fills_next {visit : Visit τ α} {build : τ → σ} {go : τ → α → Analyzer → Visit σ β}
    {part : τ → α → Prop} (first : visit.Fills part)
    (second : ∀ tree value, part tree value → (go tree value visit.analyzer).Fills filled) :
    (visit.next build go).Fills filled := by
  obtain ⟨tree, result, between⟩ := visit
  cases result with
  | ok value => exact second tree value (first.2 value rfl)
  | error error => exact fills_stop ((writesOnce_error error).mp first.1)

/-- What follows a check begins where that has succeeded. -/
theorem fills_check {tree : σ} {result : Except TypeError α} {analyzer : Analyzer}
    {go : α → Visit σ β} (checked : WritesOnce result)
    (second : ∀ value, result = .ok value → (go value).Fills filled) :
    (check tree result analyzer go).Fills filled := by
  cases result with
  | ok value => exact second value rfl
  | error error => exact fills_stop ((writesOnce_error error).mp checked)

/-- What follows a step begins where that has succeeded. -/
theorem fills_step {tree : σ} {outcome : Except TypeError α × Analyzer}
    {go : α → Analyzer → Visit σ β} (stepped : WritesOnce outcome.1)
    (second : ∀ value, (go value outcome.2).Fills filled) :
    (step tree outcome go).Fills filled := by
  obtain ⟨result, between⟩ := outcome
  cases result with
  | ok value => exact second value
  | error error => exact fills_stop ((writesOnce_error error).mp stepped)

/-- An empty slot is filled. -/
theorem fills_fill {build : Option ρ → σ} {found : ρ} {analyzer : Analyzer}
    {go : Option ρ → Visit σ β} (second : (go (some found)).Fills filled) :
    (fill build none found analyzer go).Fills filled :=
  second

/-- An empty slot for a type is filled. -/
theorem fills_typed {build : Option Ty → Expr} {type : Ty} {analyzer : Analyzer}
    {filled : Expr → Ty → Prop} (whole : filled (build (some type)) type) :
    (typed build none type analyzer).Fills filled :=
  fills_done whole

end Visit

open Visit (fills_done fills_stop fills_next fills_check fills_step fills_fill fills_typed)

mutual

/-- The analysis fills all slots of an expression, if they are empty, and ends with its type. -/
theorem Expr.fills_analyze (value : Expr) (analyzer : Analyzer) (bare : value.erase = value) :
    (value.analyze analyzer).Fills fun tree type => tree.Annotated ∧ tree.type = some type := by
  cases value with
  | literal value type =>
    cases bare
    exact fills_check (writesOnce_literalType value) fun _ _ => fills_typed ⟨rfl, rfl⟩
  | group inner type =>
    rw [Expr.erase, Expr.group.injEq] at bare
    obtain ⟨bareInner, rfl⟩ := bare
    have fillsInner := Expr.fills_analyze inner
    rw [Expr.analyze]
    split
    · exact fills_stop nofun
    · refine fills_next (fillsInner analyzer bareInner) fun _ _ ⟨whole, same⟩ => ?_
      exact fills_typed ⟨⟨whole, rfl, same.symm⟩, rfl⟩
  | binary operator left right type =>
    rw [Expr.erase, Expr.binary.injEq] at bare
    obtain ⟨-, bareLeft, bareRight, rfl⟩ := bare
    have fillsLeft := Expr.fills_analyze left
    have fillsRight := Expr.fills_analyze right
    refine fills_next (fillsLeft analyzer bareLeft) fun _ leftType ⟨wholeLeft, _⟩ =>
      fills_next (fillsRight _ bareRight) fun _ rightType ⟨wholeRight, _⟩ => ?_
    exact fills_check (writesOnce_binaryType operator leftType rightType) fun _ _ =>
      fills_typed ⟨⟨wholeLeft, wholeRight, rfl⟩, rfl⟩
  | «variable» name slot type =>
    cases bare
    rw [Expr.analyze]
    split
    · exact fills_stop nofun
    · exact fills_fill (fills_typed ⟨⟨_, rfl, rfl⟩, rfl⟩)
  | member receiver name slot type =>
    rw [Expr.erase, Expr.member.injEq] at bare
    obtain ⟨bareReceiver, -, rfl, rfl⟩ := bare
    have fillsReceiver := Expr.fills_analyze receiver
    refine fills_next (fillsReceiver analyzer bareReceiver) fun _ owner ⟨whole, _⟩ => ?_
    split
    · exact fills_stop nofun
    · exact fills_fill (fills_typed ⟨⟨whole, _, rfl, rfl⟩, rfl⟩)
  | call name arguments slot type =>
    rw [Expr.erase, Expr.call.injEq] at bare
    obtain ⟨-, bareArguments, rfl, rfl⟩ := bare
    have fillsArguments := Expr.fills_analyzeAll arguments
    refine fills_next (fillsArguments analyzer bareArguments) fun _ types whole => ?_
    split
    · exact fills_stop nofun
    next found _ =>
      exact fills_check (writesOnce_requireAll found.parameters types) fun _ _ =>
        fills_fill (fills_typed ⟨⟨whole, _, rfl, rfl⟩, rfl⟩)
  | memberCall receiver name arguments slot type =>
    rw [Expr.erase, Expr.memberCall.injEq] at bare
    obtain ⟨bareReceiver, -, bareArguments, rfl, rfl⟩ := bare
    have fillsArguments := Expr.fills_analyzeAll arguments
    have fillsReceiver := Expr.fills_analyze receiver
    refine fills_next (fillsArguments analyzer bareArguments) fun _ types wholeArguments =>
      fills_next (fillsReceiver _ bareReceiver) fun _ owner ⟨whole, _⟩ => ?_
    split
    · exact fills_stop nofun
    next found _ =>
      exact fills_check (writesOnce_requireAll (found.parameters.drop 1) types) fun _ _ =>
        fills_fill (fills_typed ⟨⟨whole, wholeArguments, _, rfl, rfl⟩, rfl⟩)

/-- The analysis fills all slots of expressions, if they are empty. -/
theorem Expr.fills_analyzeAll (values : List Expr) (analyzer : Analyzer)
    (bare : Expr.eraseAll values = values) :
    (Expr.analyzeAll values analyzer).Fills fun trees _ => Expr.AnnotatedAll trees := by
  cases values with
  | nil => exact fills_done trivial
  | cons first rest =>
    rw [Expr.eraseAll, List.cons.injEq] at bare
    have fillsFirst := Expr.fills_analyze first
    have fillsRest := Expr.fills_analyzeAll rest
    exact fills_next (fillsFirst analyzer bare.1) fun _ _ ⟨whole, _⟩ =>
      fills_next (fillsRest _ bare.2) fun _ _ others => fills_done ⟨whole, others⟩

end

/-- The analysis fills all slots of an optional expression, if they are empty. -/
theorem Expr.fills_analyzeOption (value : Option Expr) (analyzer : Analyzer)
    (bare : value.map Expr.erase = value) :
    (Expr.analyzeOption value analyzer).Fills fun tree _ =>
      ∀ inner, tree = some inner → inner.Annotated := by
  cases value with
  | none => exact fills_done nofun
  | some value =>
    have fillsValue := value.fills_analyze analyzer (Option.some.inj bare)
    rw [Expr.analyzeOption]
    refine fills_next fillsValue fun _ _ ⟨whole, _⟩ => fills_done fun inner same => ?_
    exact Option.some.inj same ▸ whole

/-- The analysis fills all slots of a declaration, if they are empty. -/
theorem Declaration.fills_analyze (declaration : Declaration) (analyzer : Analyzer)
    (bare : declaration.erase = declaration) :
    (declaration.analyze analyzer).Fills fun tree _ => tree.Annotated := by
  obtain ⟨name, typeName, value, slot⟩ := declaration
  rw [Declaration.erase, Declaration.mk.injEq] at bare
  obtain ⟨-, -, bareValue, rfl⟩ := bare
  refine fills_check (analyzer.types.writesOnce_getOption typeName) fun written _ =>
    fills_next (Expr.fills_analyzeOption value analyzer bareValue) fun _ valueType whole => ?_
  exact fills_check (Declaration.writesOnce_typeOf name written valueType) fun type _ =>
    fills_step (Analyzer.writesOnce_define _ (.named name type)) fun _ =>
      fills_fill (fills_done ⟨whole, rfl⟩)

/-- What is analysed in a new scope is filled as it is there. -/
theorem Analyzer.fills_within {τ α : Type} {filled : τ → α → Prop} {analyzer : Analyzer}
    {body : Analyzer → Visit τ α} (inner : (body analyzer.enter).Fills filled) :
    (analyzer.within body).Fills filled :=
  inner

open Analyzer (fills_within)

mutual

/-- The analysis fills all slots of a statement, if they are empty. -/
theorem Stmt.fills_analyze (statement : Stmt) (analyzer : Analyzer)
    (bare : statement.erase = statement) :
    (statement.analyze analyzer).Fills fun tree _ => tree.Annotated := by
  cases statement with
  | expression value =>
    rw [Stmt.erase, Stmt.expression.injEq] at bare
    rw [Stmt.analyze]
    split
    · exact fills_stop nofun
    · exact fills_next (value.fills_analyze analyzer bare) fun _ _ ⟨whole, _⟩ => fills_done whole
  | declaration declared =>
    rw [Stmt.erase, Stmt.declaration.injEq] at bare
    rw [Stmt.analyze]
    exact fills_next (declared.fills_analyze analyzer bare) fun _ _ whole => fills_done whole
  | assignment target value =>
    rw [Stmt.erase, Stmt.assignment.injEq] at bare
    rw [Stmt.analyze]
    split
    · exact fills_stop nofun
    · refine fills_next (target.fills_analyze analyzer bare.1) fun _ type ⟨wholeTarget, _⟩ =>
        fills_next (value.fills_analyze _ bare.2) fun _ valueType ⟨whole, _⟩ => ?_
      exact fills_check (writesOnce_require type valueType) fun _ _ =>
        fills_done ⟨wholeTarget, whole⟩
  | conditional condition accepted rejected =>
    rw [Stmt.erase, Stmt.conditional.injEq] at bare
    obtain ⟨bareCondition, bareAccepted, bareRejected⟩ := bare
    have fillsAccepted := Stmt.fills_analyzeAll accepted
    have fillsRejected := Stmt.fills_analyzeAll rejected
    rw [Stmt.analyze]
    refine fills_next (condition.fills_analyze analyzer bareCondition) fun _ type ⟨whole, _⟩ =>
      fills_check (writesOnce_require .boolean type) fun _ _ => ?_
    split
    · exact fills_stop nofun
    · exact fills_next (fills_within (fillsAccepted _ bareAccepted)) fun _ _ wholeAccepted =>
        fills_next (fills_within (fillsRejected _ bareRejected)) fun _ _ wholeRejected =>
          fills_done ⟨whole, wholeAccepted, wholeRejected⟩
  | iteration name value body =>
    rw [Stmt.erase, Stmt.iteration.injEq] at bare
    obtain ⟨-, bareValue, bareBody⟩ := bare
    have fillsBody := Stmt.fills_analyzeAll body
    rw [Stmt.analyze]
    refine fills_next (value.fills_analyze analyzer bareValue) fun _ type ⟨whole, _⟩ =>
      fills_check (writesOnce_require .integerIterable type) fun _ _ => ?_
    split
    · exact fills_stop nofun
    · refine fills_next (fills_within (fills_step ?_ fun _ => fillsBody _ bareBody))
        fun _ _ wholeBody => fills_done ⟨whole, wholeBody⟩
      exact Analyzer.writesOnce_define _ (.named name .integer)
  | repetition condition body =>
    rw [Stmt.erase, Stmt.repetition.injEq] at bare
    have fillsBody := Stmt.fills_analyzeAll body
    rw [Stmt.analyze]
    exact fills_next (condition.fills_analyze analyzer bare.1) fun _ type ⟨whole, _⟩ =>
      fills_check (writesOnce_require .boolean type) fun _ _ =>
        fills_next (fills_within (fillsBody _ bare.2)) fun _ _ wholeBody =>
          fills_done ⟨whole, wholeBody⟩
  | result value =>
    rw [Stmt.erase, Stmt.result.injEq] at bare
    rw [Stmt.analyze]
    refine fills_next (value.fills_analyze analyzer bare) fun _ type ⟨whole, _⟩ => ?_
    split
    · exact fills_stop nofun
    next returns _ =>
      exact fills_check (writesOnce_require returns type) fun _ _ => fills_done whole

/-- The analysis fills all slots of statements, if they are empty. -/
theorem Stmt.fills_analyzeAll (body : List Stmt) (analyzer : Analyzer)
    (bare : Stmt.eraseAll body = body) :
    (Stmt.analyzeAll body analyzer).Fills fun trees _ => Stmt.AnnotatedAll trees := by
  cases body with
  | nil => exact fills_done trivial
  | cons first rest =>
    rw [Stmt.eraseAll, List.cons.injEq] at bare
    have fillsFirst := Stmt.fills_analyze first
    have fillsRest := Stmt.fills_analyzeAll rest
    exact fills_next (fillsFirst analyzer bare.1) fun _ _ whole =>
      fills_next (fillsRest _ bare.2) fun _ _ others => fills_done ⟨whole, others⟩

end

/-- The analysis fills all slots of a field, if they are empty. -/
theorem Field.fills_analyze (field : Field) (analyzer : Analyzer) (bare : field.erase = field) :
    (field.analyze analyzer).Fills fun tree _ => tree.Annotated := by
  obtain ⟨name, typeName, value, slot⟩ := field
  rw [Field.erase, Field.mk.injEq] at bare
  obtain ⟨-, -, bareValue, rfl⟩ := bare
  refine fills_check (analyzer.types.writesOnce_get typeName) fun written _ =>
    fills_next (Expr.fills_analyzeOption value analyzer bareValue) fun _ valueType whole => ?_
  exact fills_check (Declaration.writesOnce_typeOf name (some written) valueType) fun type _ =>
    fills_step (Analyzer.writesOnce_define _ (.named name type)) fun _ =>
      fills_fill (fills_done ⟨whole, rfl⟩)

/-- What a method stands for has the types written for the method. -/
theorem Method.means_of_signatureIn {method : Method} {types : TypeTable} {signature : Signature}
    (known : method.signatureIn types = .ok signature) : method.Means types signature := by
  obtain ⟨_, returns, typed, found, rfl⟩ := Method.signatureIn_eq_ok_iff.mp known
  refine ⟨typed, fun name written => ?_, fun unwritten => ?_⟩
  · rw [written] at found
    obtain ⟨type, named, rfl⟩ := TypeTable.getOption_some_eq_ok.mp found
    exact named
  · rw [unwritten] at found
    cases found
    rfl

/-- The analysis fills all slots of a method, if they are empty. -/
theorem Method.fills_analyze (method : Method) (analyzer : Analyzer)
    (bare : method.erase = method) :
    (method.analyze analyzer).Fills fun tree _ => tree.Annotated analyzer.types := by
  obtain ⟨name, parameters, returnTypeName, body, slot⟩ := method
  rw [Method.erase, Method.mk.injEq] at bare
  obtain ⟨-, -, -, bareBody, rfl⟩ := bare
  refine fills_check (Method.writesOnce_signatureIn _ analyzer.types) fun signature known =>
    fills_step (analyzer.writesOnce_defineFunction signature) fun _ => fills_fill ?_
  have means := Method.means_of_signatureIn known
  have inner : (Method.analyzeBody ⟨name, parameters, returnTypeName, body, some signature⟩
      signature (analyzer.defineFunction signature).2).Fills
      fun trees _ => Stmt.AnnotatedAll trees := by
    refine fills_within (fills_step (Analyzer.writesOnce_defineAll _ _) fun _ => ?_)
    have whole := fun between => Stmt.fills_analyzeAll body between bareBody
    exact ⟨(whole _).1, (whole _).2⟩
  exact fills_next inner fun _ _ whole =>
    fills_done ⟨⟨signature, rfl, means.parameters, means.returns, means.silent⟩, whole⟩

/-- If the analysis fills all slots of each construct, it does so for all of them one after the
other, and all of them by the same table of types. -/
theorem Visit.fills_each {τ : Type} {analyze : τ → Analyzer → Visit τ Unit} {erase : τ → τ}
    (filled : TypeTable → τ → Prop)
    (fills : ∀ part analyzer, erase part = part →
      (analyze part analyzer).Fills fun tree _ => filled analyzer.types tree)
    (resumes : ∀ part analyzer, (analyze part analyzer).Resumes analyzer) (parts : List τ)
    (analyzer : Analyzer) (bare : parts.map erase = parts) :
    (Visit.each analyze parts analyzer).Fills fun trees _ =>
      ∀ tree ∈ trees, filled analyzer.types tree := by
  induction parts generalizing analyzer with
  | nil => exact fills_done nofun
  | cons first rest ih =>
    rw [List.map_cons, List.cons.injEq] at bare
    rw [Visit.each]
    refine fills_next (fills first analyzer bare.1) fun _ _ whole =>
      fills_next (ih _ bare.2) fun _ _ others => fills_done ?_
    rw [(resumes first analyzer).types] at others
    exact List.forall_mem_cons.mpr ⟨whole, others⟩

/-- The analysis fills all slots of a program, if they are empty. -/
theorem Program.fills_analyze (program : Program) (analyzer : Analyzer)
    (bare : program.erase = program) :
    (program.analyze analyzer).Fills fun tree _ => tree.Annotated analyzer.types := by
  obtain ⟨fields, methods⟩ := program
  rw [Program.erase, Program.mk.injEq] at bare
  have fillsFields := Visit.fills_each (fun _ tree => tree.Annotated) Field.fills_analyze
    Field.resumes_analyze fields analyzer bare.1
  refine fills_next fillsFields fun trees _ wholeFields => ?_
  have fillsMethods := fun between => Visit.fills_each (fun types tree => tree.Annotated types)
    Method.fills_analyze Method.resumes_analyze methods between bare.2
  refine fills_next (fillsMethods _) fun _ _ wholeMethods =>
    fills_check (Analyzer.writesOnce_checkMain _) fun _ _ => fills_done ⟨wholeFields, ?_⟩
  have resumes := Visit.resumes_each Field.resumes_analyze fields analyzer
  rw [resumes.types] at wholeMethods
  exact wholeMethods

/-- The analysis of a program with empty slots, whatever the analyzer knows, writes into no slot
that is filled and changes nothing but slots, whether it succeeds or not; and if it succeeds, every
slot of the program is filled, with types that fit. -/
theorem analyze_fills_empty_slots_only (program : Program) (analyzer : Analyzer)
    (bare : program.erase = program) :
    (program.analyze analyzer).result ≠ .error .slotTaken ∧
    (program.analyze analyzer).tree.erase = program ∧
    ((program.analyze analyzer).result = .ok () →
      (program.analyze analyzer).tree.Annotated analyzer.types) := by
  obtain ⟨once, whole⟩ := program.fills_analyze analyzer bare
  exact ⟨once, (program.erase_analyze analyzer).trans bare, whole ()⟩

/-- A program with a branch and its alternative inside a loop inside a method. -/
def Program.counting : Program :=
  let sum := Expr.variable "sum" none none
  let next := Expr.binary .add sum (.literal (.integer 1) none) none
  ⟨[⟨"limit", "Integer", some (.literal (.integer 3) none), none⟩],
    [⟨"main", [], some "Integer",
      [.declaration ⟨"sum", none, some (.literal (.integer 0) none), none⟩,
        .repetition (.binary .less sum (.variable "limit" none none) none)
          [.conditional (.binary .equal sum (.literal (.integer 1) none) none)
            [.expression (.call "print" [.group next none] none none)]
            [.expression (.call "print" [sum] none none)],
          .assignment sum next],
        .result sum], none⟩]⟩

/-- The program is accepted. -/
theorem Program.accepted_counting : (Program.counting.analyze .fresh).result = .ok () := by
  have accepted : (Program.counting.analyze .fresh).result.isOk := by decide +kernel
  cases ended : (Program.counting.analyze .fresh).result with
  | error error =>
    rw [ended] at accepted
    contradiction
  | ok done => rfl

/-- All slots of the program are filled. -/
theorem analyze_fills_empty_slots_only_counting :
    Program.counting.erase = Program.counting ∧
    (Program.counting.analyze .fresh).result = .ok () ∧
    (Program.counting.analyze .fresh).tree.erase = Program.counting ∧
    (Program.counting.analyze .fresh).tree.Annotated .builtins := by
  have bare : Program.counting.erase = Program.counting := rfl
  obtain ⟨_, same, whole⟩ := analyze_fills_empty_slots_only Program.counting .fresh bare
  exact ⟨bare, Program.accepted_counting, same, whole Program.accepted_counting⟩

end LetDef
