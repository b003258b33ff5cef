import LetDef.Typing.Analysis

/-!
# The typing rules

Which programs without a host are well typed, said by rules over contexts. A `Context` is what is in
scope at a place of a program; no rule changes it, and what follows a place is judged in a context
of its own: the ones after a branch or a loop are those before it. The rules relate a construct
whose slots are empty to the same construct with the slots that the derivation gives, so that an
expression is derived together with its type (`Elaborates`), a statement with the context behind it
(`Checks`), and a whole program (`Program.Judged`). There is no rule for fields and methods of
objects, since no built-in type has any.
-/
namespace LetDef

/-- A place of the first type takes values of the second one. -/
inductive Ty.Takes : Ty → Ty → Prop where
  | same {type} : Takes type type
  | object {left right : ObjectType} (name : left.name = right.name) :
    Takes (.object left) (.object right)
  | any {type} : Takes .any type
  | comparable {type} (basic : type ∈ [Ty.integer, .decimal, .character, .string]) :
    Takes .comparable type

/-- Places take values one by one. -/
inductive Ty.TakesAll : List Ty → List Ty → Prop where
  | nil : TakesAll [] []
  | cons {target type targets types} (first : Takes target type) (rest : TakesAll targets types) :
    TakesAll (target :: targets) (type :: types)

/-- The built-in type has this name. -/
def Ty.Named (name : String) (type : Ty) : Prop :=
  type ∈ Ty.builtins ∧ type.name = name

/-- The literal has this type. Integers have 32 bits. The conversion of decimals to binary64 stays
finite, which next to the largest finite value is not the same as being in its range, since the
conversion rounds on its way (`Decimal.exceedsBinary64`). -/
inductive Literal.HasType : Literal → Ty → Prop where
  | nil : HasType .nil .nil
  | boolean {value} : HasType (.boolean value) .boolean
  | integer {value} (lower : -2147483648 ≤ value) (upper : value < 2147483648) :
    HasType (.integer value) .integer
  | decimal {value} (finite : ¬ value.exceedsBinary64) : HasType (.decimal value) .decimal
  | character {value} : HasType (.character value) .character
  | string {value} : HasType (.string value) .string

/-- The operator takes operands of the first two types, and its results have the third one. -/
inductive BinaryOp.HasType : BinaryOp → Ty → Ty → Ty → Prop where
  | logical {operator} (joins : operator ∈ [BinaryOp.and, .or]) :
    HasType operator .boolean .boolean .boolean
  | comparison {operator type}
    (compares : operator ∈
      [BinaryOp.less, .lessEqual, .greater, .greaterEqual, .equal, .notEqual])
    (basic : type ∈ [Ty.integer, .decimal, .character, .string]) :
    HasType operator type type .boolean
  | textBefore {type} : HasType .add .string type .string
  | textBehind {type} : HasType .add type .string .string
  | integer {operator} (computes : operator ∈ [BinaryOp.add, .sub, .mul, .div]) :
    HasType operator .integer .integer .integer
  | decimal {operator} (computes : operator ∈ [BinaryOp.add, .sub, .mul, .div]) :
    HasType operator .decimal .decimal .decimal

/-- What is in scope at a place of a program. -/
structure Context where
  /-- The variables of the innermost frame, latest first. -/
  inner : List Variable
  /-- The variables of the frames around it, from the inside to the outside. -/
  outer : List (List Variable)
  /-- The methods, latest first. -/
  methods : List Signature
  /-- The type of the results of the method that the place is in, if it is in one. -/
  returns : Option Ty

namespace Context

/-- Nothing but the builtins is in scope. -/
def start : Context := ⟨[], [], [], none⟩

/-- The context in a new frame. -/
def enter (context : Context) : Context :=
  { context with inner := [], outer := context.inner :: context.outer }

/-- The context with one more variable in the innermost frame. -/
def bind (context : Context) (entry : Variable) : Context :=
  { context with inner := entry :: context.inner }

/-- The context with more variables in the innermost frame. -/
def bindAll (context : Context) (entries : List Variable) : Context :=
  entries.foldl bind context

/-- The context with one more method. -/
def define (context : Context) (method : Signature) : Context :=
  { context with methods := method :: context.methods }

/-- The context in a method with results of this type. -/
def returning (context : Context) (type : Ty) : Context :=
  { context with returns := some type }

/-- The nearest variable of a name. -/
def findVariable? (context : Context) (name : String) : Option Variable :=
  (context.inner :: context.outer).findSome? fun frame => frame.find? fun held => held.name = name

/-- The method of a name and a number of arguments, or else the builtin. -/
def findFunction? (context : Context) (name : String) (arity : Nat) : Option Signature :=
  (context.methods.find? fun held => held.name = name && held.arity = arity).or
    ((Builtin.find? name arity).map Builtin.signature)

/-- The innermost frame has no variable of this name. -/
def Free (context : Context) (name : String) : Prop :=
  ∀ held ∈ context.inner, held.name ≠ name

/-- There is no method of this name with this number of parameters. -/
def Undefined (context : Context) (name : String) (arity : Nat) : Prop :=
  ∀ held ∈ context.methods, ¬ (held.name = name ∧ held.arity = arity)

end Context

mutual

/-- In the context the expression is derived, with its slots filled and with its type. -/
inductive Elaborates (context : Context) : Expr → Expr → Ty → Prop where
  | literal {value type} (typed : value.HasType type) :
    Elaborates context (.literal value none) (.literal value (some type)) type
  | group {operator left right tree type}
    (inner : Elaborates context (.binary operator left right none) tree type) :
    Elaborates context (.group (.binary operator left right none) none) (.group tree (some type))
      type
  | binary {operator left right leftTree rightTree leftType rightType type}
    (first : Elaborates context left leftTree leftType)
    (second : Elaborates context right rightTree rightType)
    (typed : operator.HasType leftType rightType type) :
    Elaborates context (.binary operator left right none)
      (.binary operator leftTree rightTree (some type)) type
  | «variable» {name entry} (found : context.findVariable? name = some entry) :
    Elaborates context (.variable name none none) (.variable name (some entry) (some entry.type))
      entry.type
  | call {name sources trees types function} (arguments : ElaboratesAll context sources trees types)
    (found : context.findFunction? name types.length = some function)
    (suits : Ty.TakesAll function.parameters types) :
    Elaborates context (.call name sources none none)
      (.call name trees (some function) (some function.returns)) function.returns

/-- In the context the expressions are derived one by one. -/
inductive ElaboratesAll (context : Context) : List Expr → List Expr → List Ty → Prop where
  | nil : ElaboratesAll context [] [] []
  | cons {source tree type sources trees types} (first : Elaborates context source tree type)
    (rest : ElaboratesAll context sources trees types) :
    ElaboratesAll context (source :: sources) (tree :: trees) (type :: types)

end

/-- In the context a variable that is declared with this type, if one is written, and this first
value, if there is one, has the last type. -/
inductive Context.Initial (context : Context) :
    Option String → Option Expr → Option Expr → Ty → Prop where
  | inferred {source tree type} (value : Elaborates context source tree type) :
    Initial context none (some source) (some tree) type
  | empty {name type} (named : Ty.Named name type) : Initial context (some name) none none type
  | checked {name type source tree valueType} (named : Ty.Named name type)
    (value : Elaborates context source tree valueType) (suits : type.Takes valueType) :
    Initial context (some name) (some source) (some tree) type

mutual

/-- In the context the statement is derived, with its slots filled, and leads to a context. -/
inductive Checks : Context → Stmt → Stmt → Context → Prop where
  | expression {context name arguments tree type}
    (value : Elaborates context (.call name arguments none none) tree type) :
    Checks context (.expression (.call name arguments none none)) (.expression tree) context
  | declaration {context name written source tree type}
    (initial : context.Initial written source tree type) (free : context.Free name) :
    Checks context (.declaration ⟨name, written, source, none⟩)
      (.declaration ⟨name, written, tree, some (.named name type)⟩)
      (context.bind (.named name type))
  | assignment {context name place source tree type valueType}
    (target : Elaborates context (.variable name none none) place type)
    (value : Elaborates context source tree valueType) (suits : type.Takes valueType) :
    Checks context (.assignment (.variable name none none) source) (.assignment place tree) context
  | conditional {context test condition yes accepted no rejected afterYes afterNo}
    (holds : Elaborates context test condition .boolean) (filled : yes ≠ [])
    (first : ChecksAll context.enter yes accepted afterYes)
    (second : ChecksAll context.enter no rejected afterNo) :
    Checks context (.conditional test yes no) (.conditional condition accepted rejected) context
  | iteration {context name range value statements body after}
    (runs : Elaborates context range value .integerIterable) (filled : statements ≠ [])
    (inside : ChecksAll (context.enter.bind (.named name .integer)) statements body after) :
    Checks context (.iteration name range statements) (.iteration name value body) context
  | repetition {context test condition statements body after}
    (holds : Elaborates context test condition .boolean)
    (inside : ChecksAll context.enter statements body after) :
    Checks context (.repetition test statements) (.repetition condition body) context
  | result {context source tree type returns} (value : Elaborates context source tree type)
    (inMethod : context.returns = some returns) (suits : returns.Takes type) :
    Checks context (.result source) (.result tree) context

/-- In the context the statements are derived one after the other, and lead to a context. -/
inductive ChecksAll : Context → List Stmt → List Stmt → Context → Prop where
  | nil {context} : ChecksAll context [] [] context
  | cons {context between after source tree sources trees}
    (first : Checks context source tree between) (rest : ChecksAll between sources trees after) :
    ChecksAll context (source :: sources) (tree :: trees) after

end

/-- In the context the field is derived, with its slots filled, and leads to a context. Its first
value does not see it. -/
inductive ChecksField (context : Context) : Field → Field → Context → Prop where
  | field {name written source tree type}
    (initial : context.Initial (some written) source tree type) (free : context.Free name) :
    ChecksField context ⟨name, written, source, none⟩
      ⟨name, written, tree, some (.named name type)⟩ (context.bind (.named name type))

/-- These types are written for parameters. -/
inductive Parameter.HaveTypes : List Parameter → List Ty → Prop where
  | nil : HaveTypes [] []
  | cons {parameter parameters type types} (named : Ty.Named parameter.typeName type)
    (rest : HaveTypes parameters types) : HaveTypes (parameter :: parameters) (type :: types)

/-- The method stands for this: the types that are written for it, and `Nil` for its results if
nothing is written for them. -/
inductive Method.Stands (method : Method) : Signature → Prop where
  | silent {types} (parameters : Parameter.HaveTypes method.parameters types)
    (unwritten : method.returnTypeName = none) : Stands method (.named method.name types .nil)
  | returning {types name type} (parameters : Parameter.HaveTypes method.parameters types)
    (written : method.returnTypeName = some name) (named : Ty.Named name type) :
    Stands method (.named method.name types type)

/-- In the context the method is derived, with its slots filled, and leads to a context. It is in
scope in its own body, and its parameters are in one frame with the variables of the body. -/
inductive ChecksMethod (context : Context) (method : Method) : Method → Context → Prop where
  | method {function body inside} (stands : method.Stands function) (empty : method.slot = none)
    (undefined : context.Undefined function.name function.arity)
    (distinct : (method.parameters.map Parameter.name).Nodup)
    (checked : ChecksAll (((context.define function).enter.bindAll
      (method.parameterVariables function.parameters)).returning function.returns) method.body body
      inside) :
    ChecksMethod context method { method with body, slot := some function }
      (context.define function)

/-- Constructs are derived one after the other, each in the context behind the one before it. -/
inductive InTurn {τ : Type} (checks : Context → τ → τ → Context → Prop) :
    Context → List τ → List τ → Context → Prop where
  | nil {context} : InTurn checks context [] [] context
  | cons {context between after source tree sources trees}
    (first : checks context source tree between)
    (rest : InTurn checks between sources trees after) :
    InTurn checks context (source :: sources) (tree :: trees) after

/-- The program is derived, with its slots filled: its fields, then its methods, and behind these
there is a method `main` without parameters whose results are integers. -/
def Program.Judged (source tree : Program) : Prop :=
  ∃ loaded final, InTurn ChecksField .start source.fields tree.fields loaded ∧
    InTurn ChecksMethod loaded source.methods tree.methods final ∧
    ∃ main, final.findFunction? "main" 0 = some main ∧ Ty.integer.Takes main.returns

end LetDef
