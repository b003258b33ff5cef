import LetDef.Proofs.Program.Address
import LetDef.Typing.Analysis

/-!
# The walk of the analysis

The analysis comes to each construct of a program once, in a state that holds the scopes which are
open there. A `Spot` is a construct together with that state. `Spot.Leads` lists the spots to which
the analysis goes on directly from a spot; there is one rule for each place at which one of the
functions of `LetDef.Typing.Analysis` calls another. `Program.Visits` collects the spots of the
whole walk, each with the address of its construct.
-/
namespace LetDef

/-- A construct and the state in which the analysis comes to it. -/
inductive Spot where
  /-- A program. -/
  | program (source : Program) (analyzer : Analyzer)
  /-- The remaining fields of a program. -/
  | fields (sources : List Field) (analyzer : Analyzer)
  /-- The remaining methods of a program. -/
  | methods (sources : List Method) (analyzer : Analyzer)
  /-- A method. -/
  | method (source : Method) (analyzer : Analyzer)
  /-- An expression. -/
  | expression (source : Expr) (analyzer : Analyzer)
  /-- Expressions in order. -/
  | expressions (sources : List Expr) (analyzer : Analyzer)
  /-- An expression that may be missing. -/
  | optional (source : Option Expr) (analyzer : Analyzer)
  /-- Statements in order. -/
  | statements (sources : List Stmt) (analyzer : Analyzer)
  /-- Statements that get a scope of their own. -/
  | block (sources : List Stmt) (analyzer : Analyzer)
  /-- A statement. -/
  | statement (source : Stmt) (analyzer : Analyzer)

namespace Spot

/-- From the first spot the analysis goes on directly to the second. -/
inductive Leads : Spot → List Turn → Spot → Prop where
  | fields {source analyzer} :
    Leads (.program source analyzer) [.fields] (.fields source.fields analyzer)
  | methods {source analyzer trees between}
    (analyzed : Visit.each Field.analyze source.fields analyzer = ⟨trees, .ok (), between⟩) :
    Leads (.program source analyzer) [.methods] (.methods source.methods between)
  | fieldValue {first rest analyzer type}
    (written : analyzer.types.get first.typeName = .ok type) :
    Leads (.fields (first :: rest) analyzer) [.value, .first] (.optional first.value analyzer)
  | fieldsRest {first rest analyzer tree between}
    (analyzed : first.analyze analyzer = ⟨tree, .ok (), between⟩) :
    Leads (.fields (first :: rest) analyzer) [.rest] (.fields rest between)
  | firstMethod {first rest analyzer} :
    Leads (.methods (first :: rest) analyzer) [.first] (.method first analyzer)
  | restMethods {first rest analyzer tree between}
    (analyzed : first.analyze analyzer = ⟨tree, .ok (), between⟩) :
    Leads (.methods (first :: rest) analyzer) [.rest] (.methods rest between)
  | methodBody {source analyzer signature between inner}
    (found : source.signatureIn analyzer.types = .ok signature)
    (named : analyzer.defineFunction signature = (.ok (), between)) (empty : source.slot = none)
    (defined : between.enter.defineAll (source.parameterVariables signature.parameters) =
      (.ok (), inner)) :
    Leads (.method source analyzer) [.body]
      (.statements source.body { inner with returns := some signature.returns })
  | inner {inner type analyzer} (operated : inner.isBinary) :
    Leads (.expression (.group inner type) analyzer) [.inner] (.expression inner analyzer)
  | left {operator left right type analyzer} :
    Leads (.expression (.binary operator left right type) analyzer) [.left]
      (.expression left analyzer)
  | right {operator left right type analyzer tree found between}
    (analyzed : left.analyze analyzer = ⟨tree, .ok found, between⟩) :
    Leads (.expression (.binary operator left right type) analyzer) [.right]
      (.expression right between)
  | memberReceiver {receiver name slot type analyzer} :
    Leads (.expression (.member receiver name slot type) analyzer) [.receiver]
      (.expression receiver analyzer)
  | arguments {name arguments slot type analyzer} :
    Leads (.expression (.call name arguments slot type) analyzer) [.arguments]
      (.expressions arguments analyzer)
  | memberArguments {receiver name arguments slot type analyzer} :
    Leads (.expression (.memberCall receiver name arguments slot type) analyzer) [.arguments]
      (.expressions arguments analyzer)
  | callReceiver {receiver name arguments slot type analyzer trees found between}
    (analyzed : Expr.analyzeAll arguments analyzer = ⟨trees, .ok found, between⟩) :
    Leads (.expression (.memberCall receiver name arguments slot type) analyzer) [.receiver]
      (.expression receiver between)
  | firstValue {first rest analyzer} :
    Leads (.expressions (first :: rest) analyzer) [.first] (.expression first analyzer)
  | restValues {first rest analyzer tree found between}
    (analyzed : first.analyze analyzer = ⟨tree, .ok found, between⟩) :
    Leads (.expressions (first :: rest) analyzer) [.rest] (.expressions rest between)
  | someValue {value analyzer} :
    Leads (.optional (some value) analyzer) [] (.expression value analyzer)
  | firstStatement {first rest analyzer} :
    Leads (.statements (first :: rest) analyzer) [.first] (.statement first analyzer)
  | restStatements {first rest analyzer tree between}
    (analyzed : first.analyze analyzer = ⟨tree, .ok (), between⟩) :
    Leads (.statements (first :: rest) analyzer) [.rest] (.statements rest between)
  | blockBody {body analyzer} :
    Leads (.block body analyzer) [] (.statements body analyzer.enter)
  | effect {value analyzer} (called : value.isCall) :
    Leads (.statement (.expression value) analyzer) [.value] (.expression value analyzer)
  | firstContent {declared analyzer written}
    (known : analyzer.types.getOption declared.typeName = .ok written) :
    Leads (.statement (.declaration declared) analyzer) [.value]
      (.optional declared.value analyzer)
  | target {target value analyzer} (placed : target.isPlace) :
    Leads (.statement (.assignment target value) analyzer) [.target] (.expression target analyzer)
  | content {target value analyzer tree found between} (placed : target.isPlace)
    (analyzed : target.analyze analyzer = ⟨tree, .ok found, between⟩) :
    Leads (.statement (.assignment target value) analyzer) [.value] (.expression value between)
  | choice {condition accepted rejected analyzer} :
    Leads (.statement (.conditional condition accepted rejected) analyzer) [.condition]
      (.expression condition analyzer)
  | accepted {condition accepted rejected analyzer tree found between}
    (analyzed : condition.analyze analyzer = ⟨tree, .ok found, between⟩)
    (suits : Ty.boolean.isAssignable found) (filled : accepted.isEmpty = false) :
    Leads (.statement (.conditional condition accepted rejected) analyzer) [.accepted]
      (.block accepted between)
  | rejected {condition accepted rejected analyzer tree found between trees after}
    (analyzed : condition.analyze analyzer = ⟨tree, .ok found, between⟩)
    (suits : Ty.boolean.isAssignable found) (filled : accepted.isEmpty = false)
    (passed : between.within (Stmt.analyzeAll accepted) = ⟨trees, .ok (), after⟩) :
    Leads (.statement (.conditional condition accepted rejected) analyzer) [.rejected]
      (.block rejected after)
  | range {name value body analyzer} :
    Leads (.statement (.iteration name value body) analyzer) [.value] (.expression value analyzer)
  | itemBody {name value body analyzer tree found between entered}
    (analyzed : value.analyze analyzer = ⟨tree, .ok found, between⟩)
    (suits : Ty.integerIterable.isAssignable found) (filled : body.isEmpty = false)
    (defined : between.enter.define (.named name .integer) = (.ok (), entered)) :
    Leads (.statement (.iteration name value body) analyzer) [.body] (.statements body entered)
  | roundCondition {condition body analyzer} :
    Leads (.statement (.repetition condition body) analyzer) [.condition]
      (.expression condition analyzer)
  | roundBody {condition body analyzer tree found between}
    (analyzed : condition.analyze analyzer = ⟨tree, .ok found, between⟩)
    (suits : Ty.boolean.isAssignable found) :
    Leads (.statement (.repetition condition body) analyzer) [.body] (.block body between)
  | answer {value analyzer} :
    Leads (.statement (.result value) analyzer) [.value] (.expression value analyzer)

/-- Only the way to all methods leads from outside into a method. -/
theorem Leads.not_mem_turns {spot part : Spot} {turns : List Turn} (leads : spot.Leads turns part)
    (other : ∀ sources analyzer, part ≠ .methods sources analyzer) : Turn.methods ∉ turns := by
  cases leads with
  | methods => exact absurd rfl (other _ _)
  | _ => simp

/-- The analysis adds a variable of this name to the scope here. -/
inductive Binds : Spot → FrameId → String → Prop where
  | field {first rest analyzer tree after}
    (analyzed : Field.analyze first analyzer = ⟨tree, .ok (), after⟩) :
    Binds (.fields (first :: rest) analyzer) analyzer.active first.name
  | parameter {source analyzer signature between inner name}
    (found : source.signatureIn analyzer.types = .ok signature)
    (named : analyzer.defineFunction signature = (.ok (), between))
    (defined : between.enter.defineAll (source.parameterVariables signature.parameters) =
      (.ok (), inner)) (listed : name ∈ source.parameters.map Parameter.name) :
    Binds (.method source analyzer) between.enter.active name
  | declaration {declared analyzer tree after}
    (analyzed : Declaration.analyze declared analyzer = ⟨tree, .ok (), after⟩) :
    Binds (.statement (.declaration declared) analyzer) analyzer.active declared.name
  | iteration {name value body analyzer tree found between entered}
    (analyzed : value.analyze analyzer = ⟨tree, .ok found, between⟩)
    (defined : between.enter.define (.named name .integer) = (.ok (), entered)) :
    Binds (.statement (.iteration name value body) analyzer) between.enter.active name

end Spot

/-- The analysis of the program, from a state on, comes to this spot, whose construct has this
address. -/
inductive Program.Visits (program : Program) (analyzer : Analyzer) : Address → Spot → Prop where
  | start : Program.Visits program analyzer [] (.program program analyzer)
  | step {address spot turns part} (before : Program.Visits program analyzer address spot)
    (leads : spot.Leads turns part) : Program.Visits program analyzer (turns ++ address) part

end LetDef
