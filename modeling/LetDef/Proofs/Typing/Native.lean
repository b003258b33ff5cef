import Mathlib.Data.List.Forall2
import LetDef.Proofs.Program.Binders
import LetDef.Proofs.Typing.Judgment

/-!
# What is in scope without a host

Without a host, every variable and every method in scope is written in Java under its own name, and
its types are built in (`Context.Native`); a function that is found and is no method is a builtin.
The derivation of a program goes through such contexts only, and the names in them are those that
the program binds.
-/
namespace LetDef

variable {bound : String → Prop}

/-- The variable has one of these names, also in Java, and its type is built in. -/
structure Variable.Native (bound : String → Prop) (entry : Variable) : Prop where
  /-- It has the same name in Java. -/
  renderName : entry.renderName = entry.name
  /-- The name is one of these. -/
  bound : bound entry.name
  /-- Its type is built in. -/
  type : entry.type ∈ Ty.builtins

/-- The function has one of these names, also in Java, and its types are built in. -/
structure Signature.Native (bound : String → Prop) (function : Signature) : Prop where
  /-- It has the same name in Java. -/
  renderName : function.renderName = function.name
  /-- The name is one of these. -/
  bound : bound function.name
  /-- The types of its parameters are built in. -/
  parameters : ∀ type ∈ function.parameters, type ∈ Ty.builtins
  /-- The type of its results is built in. -/
  returns : function.returns ∈ Ty.builtins

/-- A variable that has its name in Java is native if the name and the type are. -/
theorem Variable.native_named {name : String} {type : Ty} (known : bound name)
    (builtin : type ∈ Ty.builtins) : (Variable.named name type).Native bound :=
  ⟨rfl, known, builtin⟩

/-- The name of a native variable in Java is one of these. -/
theorem Variable.Native.bound_renderName {entry : Variable} (native : entry.Native bound) :
    bound entry.renderName :=
  native.renderName.symm ▸ native.bound

/-- The name of a native function in Java is one of these. -/
theorem Signature.Native.bound_renderName {function : Signature} (native : function.Native bound) :
    bound function.renderName :=
  native.renderName.symm ▸ native.bound

/-- A native function is no builtin, since the names of those have a point in Java. -/
theorem Signature.Native.ne_builtin {function : Signature} (native : function.Native bound)
    (builtin : Builtin) : function ≠ builtin.signature := by
  rintro rfl
  have same := native.renderName
  cases builtin
  exact absurd same (by decide)

/-- `Nil` is built in. -/
theorem Ty.nil_mem_builtins : Ty.nil ∈ builtins := by decide

/-- A literal has a built-in type. -/
theorem Literal.HasType.mem_builtins {value : Literal} {type : Ty} (typed : value.HasType type) :
    type ∈ Ty.builtins := by
  cases typed <;> decide

/-- The results of an operator have a built-in type. -/
theorem BinaryOp.HasType.mem_builtins {operator : BinaryOp} {left right type : Ty}
    (typed : operator.HasType left right type) : type ∈ Ty.builtins := by
  cases typed <;> decide

/-- The types that are written for parameters are built in. -/
theorem Parameter.HaveTypes.mem_builtins {parameters : List Parameter} {types : List Ty}
    (typed : Parameter.HaveTypes parameters types) : ∀ type ∈ types, type ∈ Ty.builtins := by
  induction typed with
  | nil => exact List.forall_mem_nil _
  | cons named _ ih => exact List.forall_mem_cons.mpr ⟨named.1, ih⟩

/-- What a method stands for has the types that are written for its parameters. -/
theorem Method.Stands.haveTypes {method : Method} {function : Signature}
    (stands : method.Stands function) :
    Parameter.HaveTypes method.parameters function.parameters := by
  cases stands with
  | silent parameters | returning parameters _ _ => exact parameters

/-- What a method stands for has its name, also in Java. -/
theorem Method.Stands.renderName_eq {method : Method} {function : Signature}
    (stands : method.Stands function) : function.renderName = method.name := by
  cases stands <;> rfl

/-- What a method stands for has its name and built-in types. -/
theorem Method.Stands.native {method : Method} {function : Signature}
    (stands : method.Stands function) (known : bound method.name) : function.Native bound := by
  cases stands with
  | silent parameters => exact ⟨rfl, known, parameters.mem_builtins, Ty.nil_mem_builtins⟩
  | returning parameters _ named => exact ⟨rfl, known, parameters.mem_builtins, named.1⟩

namespace Context

variable {context behind : Context}

/-- All variables and methods in scope are native. -/
structure Native (bound : String → Prop) (context : Context) : Prop where
  /-- The variables are native. -/
  entries : ∀ frame ∈ context.inner :: context.outer, ∀ held ∈ frame, held.Native bound
  /-- The methods are native. -/
  methods : ∀ held ∈ context.methods, held.Native bound

/-- At the beginning nothing is in scope but builtins. -/
theorem native_start : start.Native bound :=
  ⟨List.forall_mem_singleton.mpr (List.forall_mem_nil _), List.forall_mem_nil _⟩

namespace Native

/-- A new frame has no variables. -/
theorem enter (native : context.Native bound) : context.enter.Native bound :=
  ⟨List.forall_mem_cons.mpr ⟨List.forall_mem_nil _, native.entries⟩, native.methods⟩

/-- A native variable may be added. -/
theorem bind (native : context.Native bound) {entry : Variable} (added : entry.Native bound) :
    (context.bind entry).Native bound := by
  obtain ⟨inner, outer⟩ := List.forall_mem_cons.mp native.entries
  exact ⟨List.forall_mem_cons.mpr ⟨List.forall_mem_cons.mpr ⟨added, inner⟩, outer⟩, native.methods⟩

/-- Native variables may be added. -/
theorem bindAll {entries : List Variable} {context : Context} (native : context.Native bound)
    (added : ∀ entry ∈ entries, entry.Native bound) : (context.bindAll entries).Native bound := by
  induction entries generalizing context with
  | nil => exact native
  | cons first rest ih =>
    obtain ⟨begun, others⟩ := List.forall_mem_cons.mp added
    exact ih (native.bind begun) others

/-- A native method may be added. -/
theorem define (native : context.Native bound) {function : Signature}
    (added : function.Native bound) : (context.define function).Native bound :=
  ⟨native.entries, List.forall_mem_cons.mpr ⟨added, native.methods⟩⟩

/-- The variable that is found is native and has the name that is looked up. -/
theorem of_findVariable? (native : context.Native bound) {name : String} {entry : Variable}
    (found : context.findVariable? name = some entry) :
    entry.Native bound ∧ entry.name = name := by
  obtain ⟨frame, listed, held⟩ := List.exists_of_findSome?_eq_some found
  exact ⟨native.entries frame listed entry (List.mem_of_find?_eq_some held),
    of_decide_eq_true (List.find?_some (p := fun held : Variable => held.name = name) held)⟩

/-- The function that is found is a builtin, or it is native and has the name that is looked up. -/
theorem of_findFunction? (native : context.Native bound) {name : String} {arity : Nat}
    {function : Signature} (found : context.findFunction? name arity = some function) :
    (∃ builtin : Builtin, function = builtin.signature) ∨
      function.Native bound ∧ function.name = name := by
  rw [findFunction?, Option.or_eq_some_iff] at found
  rcases found with held | ⟨_, given⟩
  · have answers := List.find?_some held
    rw [Bool.and_eq_true, decide_eq_true_eq] at answers
    exact .inr ⟨native.methods function (List.mem_of_find?_eq_some held), answers.1⟩
  · obtain ⟨builtin, _, rfl⟩ := Option.map_eq_some_iff.mp given
    exact .inl ⟨builtin, rfl⟩

/-- A derived expression has a built-in type. -/
theorem type_mem (native : context.Native bound) : ∀ {source tree : Expr} {type : Ty},
    Elaborates context source tree type → type ∈ Ty.builtins
  | _, _, _, .literal typed => typed.mem_builtins
  | _, _, _, .group inner => type_mem native inner
  | _, _, _, .binary _ _ typed => typed.mem_builtins
  | _, _, _, .variable found => (native.of_findVariable? found).1.type
  | _, _, _, .call _ found _ => by
    rcases native.of_findFunction? found with ⟨builtin, rfl⟩ | ⟨known, _⟩
    · cases builtin
      decide
    · exact known.returns

/-- A declared variable has a built-in type. -/
theorem initial_mem (native : context.Native bound) {written : Option String}
    {source tree : Option Expr} {type : Ty} (derived : context.Initial written source tree type) :
    type ∈ Ty.builtins := by
  cases derived with
  | inferred value => exact native.type_mem value
  | empty named => exact named.1
  | checked named => exact named.1

/-- What is in scope behind a derived statement is native, if the names that it binds are of
these. -/
theorem checks (native : context.Native bound) {source tree : Stmt}
    (known : ∀ name ∈ source.binders, bound name) (derived : Checks context source tree behind) :
    behind.Native bound := by
  cases derived with
  | declaration initial free =>
    exact native.bind
      (Variable.native_named (known _ List.mem_cons_self) (native.initial_mem initial))
  | _ => exact native

/-- What is in scope behind a derived field is native, if its name is one of these. -/
theorem checksField (native : context.Native bound) {source tree : Field}
    (known : bound source.name) (derived : ChecksField context source tree behind) :
    behind.Native bound := by
  cases derived with
  | field initial free =>
    exact native.bind (Variable.native_named known (native.initial_mem initial))

/-- What is in scope in a loop is native, if the name of its variable is one of these. -/
theorem iteration (native : context.Native bound) {name : String} (known : bound name) :
    (context.enter.bind (.named name .integer)).Native bound :=
  native.enter.bind (Variable.native_named known (by decide))

/-- What is in scope in the body of a method is native, if its name and those of its parameters are
of these. -/
theorem inMethod (native : context.Native bound) {method : Method} {function : Signature}
    (stands : method.Stands function) (known : bound method.name)
    (knownParameters : ∀ parameter ∈ method.parameters, bound parameter.name) :
    (((context.define function).enter.bindAll (method.parameterVariables
      function.parameters)).returning function.returns).Native bound := by
  have added := stands.native known
  have entries : ∀ entry ∈ method.parameterVariables function.parameters, entry.Native bound := by
    intro entry listed
    rw [Method.parameterVariables, ← List.map_uncurry_zip_eq_zipWith] at listed
    obtain ⟨⟨parameter, type⟩, paired, rfl⟩ := List.mem_map.mp listed
    obtain ⟨listedParameter, listedType⟩ := List.of_mem_zip paired
    exact Variable.native_named (knownParameters parameter listedParameter)
      (added.parameters type listedType)
  have entered := (native.define added).enter.bindAll entries
  exact ⟨entered.entries, entered.methods⟩

end Native

end Context

/-- What holds of each derived construct, in a native context that it leads on from, holds of all
that are derived in turn. -/
theorem InTurn.forall_native {τ : Type} {checks : Context → τ → τ → Context → Prop}
    {holds : τ → τ → Prop} {context behind : Context} {sources trees : List τ}
    (derived : InTurn checks context sources trees behind) (native : context.Native bound)
    (each : ∀ {context source tree behind}, source ∈ sources → context.Native bound →
      checks context source tree behind → holds source tree ∧ behind.Native bound) :
    List.Forall₂ holds sources trees ∧ behind.Native bound := by
  induction derived with
  | nil => exact ⟨.nil, native⟩
  | cons first _ ih =>
    obtain ⟨one, between⟩ := each List.mem_cons_self native first
    obtain ⟨others, after⟩ :=
      ih between fun listed native derived => each (List.mem_cons_of_mem _ listed) native derived
    exact ⟨.cons one others, after⟩

end LetDef
