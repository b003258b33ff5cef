import LetDef.Typing.Analyzer

/-!
# Analysing programs

The analysis walks over a program once, from its first field to its last method. It looks every
name up in the scopes of the `Analyzer`, checks the typing rules and fills the slots of the tree;
the first violation ends it. Fields and methods are defined one after the other, so each sees only
itself and those before it.
-/
namespace LetDef

open Visit (fill check step done stop)

/-- Fills the slot for the type of an expression and ends with the type. -/
@[inline] def Visit.typed (build : Option Ty → Expr) (slot : Option Ty) (type : Ty)
    (analyzer : Analyzer) : Visit Expr Ty :=
  fill build slot type analyzer fun slot => done (build slot) type analyzer

/-- The expression is an operator between two expressions. -/
def Expr.isBinary : Expr → Bool
  | .binary .. => true
  | _ => false

/-- The expression is a call. -/
def Expr.isCall : Expr → Bool
  | .call .. | .memberCall .. => true
  | _ => false

/-- The expression names a variable or a field. -/
def Expr.isPlace : Expr → Bool
  | .variable .. | .member .. => true
  | _ => false

mutual

/-- The type of an expression. The arguments of a call come before its receiver. A field that is
selected becomes known under its name alone in the active scope. -/
def Expr.analyze : Expr → Analyzer → Visit Expr Ty
  | .literal value type, analyzer =>
    check (.literal value type) (Typing.literalType value) analyzer fun found =>
    Visit.typed (.literal value) type found analyzer
  | .group inner type, analyzer =>
    if !inner.isBinary then stop (.group inner type) .notBinary analyzer
    else
      (inner.analyze analyzer).next (.group · type) fun inner found analyzer =>
      Visit.typed (.group inner) type found analyzer
  | .binary operator left right type, analyzer =>
    (left.analyze analyzer).next (.binary operator · right type) fun left leftType analyzer =>
    (right.analyze analyzer).next (.binary operator left · type) fun right rightType analyzer =>
    check (.binary operator left right type) (Typing.binaryType operator leftType rightType)
      analyzer fun found =>
    Visit.typed (.binary operator left right) type found analyzer
  | .variable name slot type, analyzer =>
    match analyzer.findVariable? name with
    | none => stop (.variable name slot type) (.undefinedVariable name) analyzer
    | some found =>
      fill (.variable name · type) slot found analyzer fun slot =>
      Visit.typed (.variable name slot) type found.type analyzer
  | .member receiver name slot type, analyzer =>
    (receiver.analyze analyzer).next (.member · name slot type) fun receiver owner analyzer =>
    match (owner.membersIn analyzer.members).fields.get? name with
    | none => stop (.member receiver name slot type) (.noField owner name) analyzer
    | some found =>
      let analyzer := analyzer.share name found
      fill (.member receiver name · type) slot found analyzer fun slot =>
      Visit.typed (.member receiver name slot) type found.type analyzer
  | .call name arguments slot type, analyzer =>
    (Expr.analyzeAll arguments analyzer).next (.call name · slot type)
      fun arguments types analyzer =>
    match analyzer.findFunction? name types.length with
    | none =>
      stop (.call name arguments slot type) (.undefinedFunction name types.length) analyzer
    | some found =>
      check (.call name arguments slot type) (Typing.requireAll found.parameters types)
        analyzer fun () =>
      fill (.call name arguments · type) slot found analyzer fun slot =>
      Visit.typed (.call name arguments slot) type found.returns analyzer
  | .memberCall receiver name arguments slot type, analyzer =>
    (Expr.analyzeAll arguments analyzer).next (.memberCall receiver name · slot type)
      fun arguments types analyzer =>
    (receiver.analyze analyzer).next (.memberCall · name arguments slot type)
      fun receiver owner analyzer =>
    match (owner.membersIn analyzer.members).methods.get? (name, types.length + 1) with
    | none =>
      stop (.memberCall receiver name arguments slot type) (.noMethod owner name types.length)
        analyzer
    | some found =>
      check (.memberCall receiver name arguments slot type)
        (Typing.requireAll (found.parameters.drop 1) types) analyzer fun () =>
      fill (.memberCall receiver name arguments · type) slot found analyzer fun slot =>
      Visit.typed (.memberCall receiver name arguments slot) type found.returns analyzer

/-- The types of expressions in order. -/
def Expr.analyzeAll : List Expr → Analyzer → Visit (List Expr) (List Ty)
  | [], analyzer => done [] [] analyzer
  | first :: rest, analyzer =>
    (first.analyze analyzer).next (· :: rest) fun first type analyzer =>
    (Expr.analyzeAll rest analyzer).next (first :: ·) fun rest types analyzer =>
    done (first :: rest) (type :: types) analyzer

end

/-- The type of an optional expression. -/
def Expr.analyzeOption : Option Expr → Analyzer → Visit (Option Expr) (Option Ty)
  | none, analyzer => done none none analyzer
  | some value, analyzer =>
    (value.analyze analyzer).next some fun value type analyzer =>
    done (some value) (some type) analyzer

/-- The type written for a variable, if one is written. -/
def TypeTable.getOption (table : TypeTable) : Option String → Except TypeError (Option Ty)
  | none => .ok none
  | some name => (table.get name).map some

/-- The type of a declared variable: the one written for it, which must take its first value, or
else that of its first value. -/
def Declaration.typeOf (name : String) : Option Ty → Option Ty → Except TypeError Ty
  | some written, some value => (Typing.require written value).map fun () => written
  | some written, none => .ok written
  | none, some value => .ok value
  | none, none => .error (.undetermined name)

/-- Analyses a declaration and defines its variable. -/
def Declaration.analyze (declaration : Declaration) (analyzer : Analyzer) :
    Visit Declaration Unit :=
  check declaration (analyzer.types.getOption declaration.typeName) analyzer fun written =>
  (Expr.analyzeOption declaration.value analyzer).next
    (fun value => { declaration with value }) fun value valueType analyzer =>
  let declaration := { declaration with value }
  check declaration (Declaration.typeOf declaration.name written valueType) analyzer fun type =>
  let found := Variable.named declaration.name type
  step declaration (analyzer.define found) fun () analyzer =>
  fill (fun slot => { declaration with slot }) declaration.slot found analyzer fun slot =>
  done { declaration with slot } () analyzer

mutual

/-- Analyses a statement. Every body has a scope of its own. -/
def Stmt.analyze : Stmt → Analyzer → Visit Stmt Unit
  | .expression value, analyzer =>
    if !value.isCall then stop (.expression value) .notCall analyzer
    else
      (value.analyze analyzer).next .expression fun value _ analyzer =>
      done (.expression value) () analyzer
  | .declaration declared, analyzer =>
    (declared.analyze analyzer).next .declaration fun declared () analyzer =>
    done (.declaration declared) () analyzer
  | .assignment target value, analyzer =>
    if !target.isPlace then stop (.assignment target value) .notTarget analyzer
    else
      (target.analyze analyzer).next (.assignment · value) fun target targetType analyzer =>
      (value.analyze analyzer).next (.assignment target ·) fun value valueType analyzer =>
      check (.assignment target value) (Typing.require targetType valueType) analyzer fun () =>
      done (.assignment target value) () analyzer
  | .conditional condition accepted rejected, analyzer =>
    (condition.analyze analyzer).next (.conditional · accepted rejected)
      fun condition type analyzer =>
    check (.conditional condition accepted rejected) (Typing.require .boolean type) analyzer
      fun () =>
    if accepted.isEmpty then
      stop (.conditional condition accepted rejected) .emptyBranch analyzer
    else
      (analyzer.within (Stmt.analyzeAll accepted)).next (.conditional condition · rejected)
        fun accepted () analyzer =>
      (analyzer.within (Stmt.analyzeAll rejected)).next (.conditional condition accepted ·)
        fun rejected () analyzer =>
      done (.conditional condition accepted rejected) () analyzer
  | .iteration name value body, analyzer =>
    (value.analyze analyzer).next (.iteration name · body) fun value type analyzer =>
    check (.iteration name value body) (Typing.require .integerIterable type) analyzer fun () =>
    if body.isEmpty then stop (.iteration name value body) .emptyIteration analyzer
    else
      (analyzer.within fun analyzer =>
        step body (analyzer.define (.named name .integer)) fun () analyzer =>
        Stmt.analyzeAll body analyzer).next (.iteration name value ·) fun body () analyzer =>
      done (.iteration name value body) () analyzer
  | .repetition condition body, analyzer =>
    (condition.analyze analyzer).next (.repetition · body) fun condition type analyzer =>
    check (.repetition condition body) (Typing.require .boolean type) analyzer fun () =>
    (analyzer.within (Stmt.analyzeAll body)).next (.repetition condition ·)
      fun body () analyzer =>
    done (.repetition condition body) () analyzer
  | .result value, analyzer =>
    (value.analyze analyzer).next .result fun value type analyzer =>
    match analyzer.returns with
    | none => stop (.result value) .resultOutside analyzer
    | some returns =>
      check (.result value) (Typing.require returns type) analyzer fun () =>
      done (.result value) () analyzer

/-- Analyses statements one after the other. -/
def Stmt.analyzeAll : List Stmt → Analyzer → Visit (List Stmt) Unit
  | [], analyzer => done [] () analyzer
  | first :: rest, analyzer =>
    (first.analyze analyzer).next (· :: rest) fun first () analyzer =>
    (Stmt.analyzeAll rest analyzer).next (first :: ·) fun rest () analyzer =>
    done (first :: rest) () analyzer

end

/-- Analyses a field and defines it. Its first value does not see it. -/
def Field.analyze (field : Field) (analyzer : Analyzer) : Visit Field Unit :=
  check field (analyzer.types.get field.typeName) analyzer fun type =>
  (Expr.analyzeOption field.value analyzer).next (fun value => { field with value })
    fun value valueType analyzer =>
  let field := { field with value }
  check field (Declaration.typeOf field.name (some type) valueType) analyzer fun type =>
  let found := Variable.named field.name type
  step field (analyzer.define found) fun () analyzer =>
  fill (fun slot => { field with slot }) field.slot found analyzer fun slot =>
  done { field with slot } () analyzer

/-- What a method stands for, by the types written for it. -/
def Method.signatureIn (method : Method) (types : TypeTable) : Except TypeError Signature := do
  let parameters ← method.parameters.mapM fun parameter => types.get parameter.typeName
  let returns ← types.getOption method.returnTypeName
  .ok (.named method.name parameters (returns.getD .nil))

/-- The variables for the parameters of a method. -/
def Method.parameterVariables (method : Method) (types : List Ty) : List Variable :=
  method.parameters.zipWith (fun parameter type => .named parameter.name type) types

/-- Analyses the body of a method in a scope with its parameters. -/
def Method.analyzeBody (method : Method) (found : Signature) (analyzer : Analyzer) :
    Visit (List Stmt) Unit :=
  analyzer.within fun analyzer =>
  step method.body (analyzer.defineAll (method.parameterVariables found.parameters))
    fun () analyzer =>
  let visit := Stmt.analyzeAll method.body { analyzer with returns := some found.returns }
  ⟨visit.tree, visit.result, { visit.analyzer with returns := analyzer.returns }⟩

/-- Defines a method and analyses it. Its body sees it. -/
def Method.analyze (method : Method) (analyzer : Analyzer) : Visit Method Unit :=
  check method (method.signatureIn analyzer.types) analyzer fun found =>
  step method (analyzer.defineFunction found) fun () analyzer =>
  fill (fun slot => { method with slot }) method.slot found analyzer fun slot =>
  let method := { method with slot }
  (method.analyzeBody found analyzer).next (fun body => { method with body })
    fun body () analyzer =>
  done { method with body } () analyzer

/-- Analyses constructs one after the other. -/
def Visit.each {τ : Type} (analyze : τ → Analyzer → Visit τ Unit) :
    List τ → Analyzer → Visit (List τ) Unit
  | [], analyzer => done [] () analyzer
  | first :: rest, analyzer =>
    (analyze first analyzer).next (· :: rest) fun first () analyzer =>
    (Visit.each analyze rest analyzer).next (first :: ·) fun rest () analyzer =>
    done (first :: rest) () analyzer

/-- There has to be a method `main` without parameters whose results are integers. -/
def Analyzer.checkMain (analyzer : Analyzer) : Except TypeError Unit :=
  match analyzer.store.findFunction? analyzer.globals "main" 0 with
  | none => .error .noMain
  | some main =>
    if Ty.integer.isAssignable main.returns then .ok () else .error (.mainResult main.returns)

/-- Analyses a program. -/
def Program.analyze (program : Program) (analyzer : Analyzer) : Visit Program Unit :=
  (Visit.each Field.analyze program.fields analyzer).next (fun fields => { program with fields })
    fun fields () analyzer =>
  (Visit.each Method.analyze program.methods analyzer).next (fun methods => ⟨fields, methods⟩)
    fun methods () analyzer =>
  check ⟨fields, methods⟩ analyzer.checkMain analyzer fun () =>
  done ⟨fields, methods⟩ () analyzer

end LetDef
