import LetDef.Proofs.Program.Address
import LetDef.Proofs.Program.Calls
import LetDef.Proofs.Typing.Judgment
import LetDef.Proofs.Typing.Rules

/-!
# The order of methods

A derived expression calls what is in scope, and methods come into scope one after the other. So
the first values of fields call builtins alone, and a method calls builtins, methods that come
before it, and itself (`Program.Judged.callees`). Where no method calls itself, and none hides a
builtin, every call goes backwards (`Program.Judged.precedes`).
-/
namespace LetDef

/-- There are as many types as derived expressions. -/
theorem ElaboratesAll.length_eq {context : Context} {sources trees : List Expr} {types : List Ty}
    (derived : ElaboratesAll context sources trees types) : trees.length = types.length := by
  induction trees generalizing sources types with
  | nil =>
    cases derived
    rfl
  | cons tree trees ih =>
    cases derived with
    | cons first rest => exact congrArg Nat.succ (ih rest)

/-- The builtins are `print` alone. -/
theorem Builtin.eq_print_of_find? {name : String} {arity : Nat} {builtin : Builtin}
    (found : Builtin.find? name arity = some builtin) : name = "print" ∧ arity = 1 := by
  have described := List.find?_some found
  simp only [Bool.and_eq_true, decide_eq_true_eq] at described
  cases builtin
  exact ⟨described.1.symm, described.2.symm⟩

namespace Context

variable {context behind : Context}

/-- All these calls are of something in scope. -/
def Covers (context : Context) (calls : List (String × Nat)) : Prop :=
  ∀ call ∈ calls, (context.findFunction? call.1 call.2).isSome

/-- What is in scope to be called depends on the methods alone. -/
theorem Covers.congr {other : Context} {calls : List (String × Nat)} (covers : context.Covers calls)
    (same : context.methods = other.methods) : other.Covers calls := by
  intro call member
  have found := covers call member
  rwa [findFunction?, same] at found

/-- Two lists of calls are of something in scope if each is. -/
theorem covers_append {one two : List (String × Nat)} :
    context.Covers (one ++ two) ↔ context.Covers one ∧ context.Covers two :=
  List.forall_mem_append

mutual

/-- What a derived expression calls is in scope. -/
theorem covers_of_elaborates {source tree : Expr} {type : Ty}
    (derived : Elaborates context source tree type) : context.Covers tree.callees := by
  cases derived with
  | literal typed => exact List.forall_mem_nil _
  | group inner =>
    have covers := covers_of_elaborates inner
    exact covers
  | binary first second typed =>
    exact covers_append.mpr ⟨covers_of_elaborates first, covers_of_elaborates second⟩
  | «variable» found => exact List.forall_mem_nil _
  | call arguments found suits =>
    refine List.forall_mem_cons.mpr ⟨?_, covers_of_elaboratesAll arguments⟩
    rw [arguments.length_eq, found]
    rfl

/-- What derived expressions call is in scope. -/
theorem covers_of_elaboratesAll {sources trees : List Expr} {types : List Ty}
    (derived : ElaboratesAll context sources trees types) :
    context.Covers (Expr.calleesAll trees) := by
  cases derived with
  | nil => exact List.forall_mem_nil _
  | cons first rest =>
    exact covers_append.mpr ⟨covers_of_elaborates first, covers_of_elaboratesAll rest⟩

end

/-- What the first value of a variable calls is in scope. -/
theorem covers_of_initial {written : Option String} {source tree : Option Expr} {type : Ty}
    (initial : context.Initial written source tree type) :
    context.Covers (Expr.calleesOption tree) := by
  cases initial with
  | inferred value => exact covers_of_elaborates value
  | empty named => exact List.forall_mem_nil _
  | checked named value suits => exact covers_of_elaborates value

mutual

/-- What a derived statement calls is in scope, and it brings no method into scope. -/
theorem covers_of_checks {context behind : Context} {source tree : Stmt}
    (derived : Checks context source tree behind) :
    context.Covers tree.callees ∧ context.methods = behind.methods := by
  cases derived with
  | expression value => exact ⟨covers_of_elaborates value, rfl⟩
  | declaration initial free => exact ⟨covers_of_initial initial, rfl⟩
  | assignment target value suits =>
    exact ⟨covers_append.mpr ⟨covers_of_elaborates target, covers_of_elaborates value⟩, rfl⟩
  | conditional holds filled first second =>
    refine ⟨covers_append.mpr ⟨covers_of_elaborates holds, covers_append.mpr ⟨?_, ?_⟩⟩, rfl⟩
    · exact (covers_of_checksAll first).congr rfl
    · exact (covers_of_checksAll second).congr rfl
  | iteration runs filled inside =>
    refine ⟨covers_append.mpr ⟨covers_of_elaborates runs, ?_⟩, rfl⟩
    exact (covers_of_checksAll inside).congr rfl
  | repetition holds inside =>
    refine ⟨covers_append.mpr ⟨covers_of_elaborates holds, ?_⟩, rfl⟩
    exact (covers_of_checksAll inside).congr rfl
  | result value inMethod suits => exact ⟨covers_of_elaborates value, rfl⟩

/-- What derived statements call is in scope. -/
theorem covers_of_checksAll {context behind : Context} {sources trees : List Stmt}
    (derived : ChecksAll context sources trees behind) :
    context.Covers (Stmt.calleesAll trees) := by
  cases derived with
  | nil => exact List.forall_mem_nil _
  | cons first rest =>
    obtain ⟨covers, same⟩ := covers_of_checks first
    exact covers_append.mpr ⟨covers, (covers_of_checksAll rest).congr same.symm⟩

end

/-- Variables bring no method into scope. -/
theorem methods_bindAll (entries : List Variable) (context : Context) :
    (context.bindAll entries).methods = context.methods := by
  induction entries generalizing context with
  | nil => rfl
  | cons first rest ih => exact ih (context.bind first)

/-- The methods in scope are some of these. -/
def Lists (context : Context) (methods : List Method) : Prop :=
  ∀ held ∈ context.methods, ∃ declared ∈ methods, declared.answers held.name held.arity

/-- A call of something in scope is one of a builtin or one that a method answers. -/
theorem Lists.answers {methods : List Method} {calls : List (String × Nat)}
    (lists : context.Lists methods) (covers : context.Covers calls) :
    ∀ call ∈ calls, (Builtin.find? call.1 call.2).isSome ∨
      ∃ declared ∈ methods, declared.answers call.1 call.2 := by
  intro call member
  obtain ⟨function, found⟩ := Option.isSome_iff_exists.mp (covers call member)
  rw [findFunction?, Option.or_eq_some_iff] at found
  rcases found with held | ⟨_, builtin⟩
  · have named := List.find?_some held
    obtain ⟨declared, listed, answers⟩ := lists function (List.mem_of_find?_eq_some held)
    simp only [Bool.and_eq_true, decide_eq_true_eq] at named
    exact .inr ⟨declared, listed, named.1 ▸ named.2 ▸ answers⟩
  · obtain ⟨_, known, _⟩ := Option.map_eq_some_iff.mp builtin
    exact .inl (Option.isSome_of_eq_some known)

/-- A derived method calls builtins, methods before it, and itself; and it comes into scope. -/
theorem Lists.pass {methods : List Method} {source tree : Method} (lists : context.Lists methods)
    (derived : ChecksMethod context source tree behind) :
    behind.Lists (methods ++ [tree]) ∧
      ∀ call ∈ tree.callees, (Builtin.find? call.1 call.2).isSome ∨
        ∃ target ∈ methods ++ [tree], target.answers call.1 call.2 := by
  cases derived with
  | @method function body inside stands empty undefined distinct checked =>
    obtain ⟨name, _, arity⟩ := Method.signatureIn_eq_ok (Method.stands_iff.mp stands)
    have more : (context.define function).Lists
        (methods ++ [{ source with body, slot := some function }]) := by
      refine List.forall_mem_cons.mpr ⟨⟨_, List.mem_append_right _ List.mem_cons_self, ?_⟩,
        fun held member => ?_⟩
      · exact Method.answers_iff.mpr ⟨name.symm, arity.symm⟩
      · obtain ⟨declared, listed, answers⟩ := lists held member
        exact ⟨declared, List.mem_append_left _ listed, answers⟩
    exact ⟨more, more.answers ((covers_of_checksAll checked).congr (methods_bindAll _ _))⟩

/-- Methods that are derived one after the other call builtins, methods before them, and
themselves. -/
theorem Lists.inTurn {methods sources trees : List Method} (lists : context.Lists methods)
    (derived : InTurn ChecksMethod context sources trees behind) {earlier later : List Method}
    {declared : Method} (split : trees = earlier ++ declared :: later) :
    ∀ call ∈ declared.callees, (Builtin.find? call.1 call.2).isSome ∨
      ∃ target ∈ methods ++ earlier ++ [declared], target.answers call.1 call.2 := by
  induction derived generalizing methods earlier with
  | nil => exact absurd split.symm (List.append_ne_nil_of_right_ne_nil _ (List.cons_ne_nil _ _))
  | @cons _ _ _ _ tree _ _ first _ ih =>
    obtain ⟨more, called⟩ := lists.pass first
    cases earlier with
    | nil =>
      obtain ⟨rfl, _⟩ := List.cons.inj split
      rwa [List.append_nil]
    | cons head earlier =>
      obtain ⟨rfl, others⟩ := List.cons.inj split
      have later := ih more others
      rwa [List.append_assoc methods] at later

end Context

/-- The first value of a derived field calls what is in scope, and it brings no method into
scope. -/
theorem ChecksField.covers {context behind : Context} {source tree : Field}
    (derived : ChecksField context source tree behind) :
    context.Covers (Expr.calleesOption tree.value) ∧ context.methods = behind.methods := by
  cases derived with
  | field initial free => exact ⟨Context.covers_of_initial initial, rfl⟩

/-- Fields that are derived one after the other call what is in scope at the beginning. -/
theorem InTurn.covers_fields {context behind : Context} {sources trees : List Field}
    (derived : InTurn ChecksField context sources trees behind) :
    (∀ field ∈ trees, context.Covers (Expr.calleesOption field.value)) ∧
      context.methods = behind.methods := by
  induction derived with
  | nil => exact ⟨List.forall_mem_nil _, rfl⟩
  | cons first _ ih =>
    obtain ⟨covers, same⟩ := first.covers
    refine ⟨List.forall_mem_cons.mpr ⟨covers, fun field member => ?_⟩, same.trans ih.2⟩
    exact (ih.1 field member).congr same.symm

namespace Program

variable {source tree : Program}

/-- In a derived program the first values of fields call builtins alone, and a method calls
builtins, methods before it, and itself. -/
theorem Judged.callees (judged : source.Judged tree) :
    (∀ field ∈ tree.fields, ∀ call ∈ Expr.calleesOption field.value,
      (Builtin.find? call.1 call.2).isSome) ∧
    ∀ earlier declared later, tree.methods = earlier ++ declared :: later →
      ∀ call ∈ declared.callees, (Builtin.find? call.1 call.2).isSome ∨
        ∃ target ∈ earlier ++ [declared], target.answers call.1 call.2 := by
  obtain ⟨loaded, _, fields, methods, _⟩ := judged
  obtain ⟨covers, same⟩ := fields.covers_fields
  have nothing : Context.start.Lists [] := List.forall_mem_nil _
  have loadedNothing : loaded.Lists [] := by
    rw [Context.Lists, ← same]
    exact nothing
  refine ⟨fun field member call called => ?_, fun earlier declared later split => ?_⟩
  · rcases nothing.answers (covers field member) call called with builtin | ⟨_, none, _⟩
    · exact builtin
    · cases none
  · exact loadedNothing.inTurn methods split

/-- The name calls something that comes before: a builtin that no method of the program hides, or
one of the `earlier` methods. -/
def Precedes (program : Program) (earlier : List Method) (call : String × Nat) : Prop :=
  (Builtin.find? call.1 call.2).isSome ∧ program.method? call.1 call.2 = none ∨
    ∃ target ∈ earlier, program.method? call.1 call.2 = some target

/-- Where no method hides a builtin or calls itself, methods call what comes before them. -/
theorem Judged.precedes (judged : source.Judged tree)
    (unshadowed : ∀ declared ∈ tree.methods, ¬ declared.answers "print" 1)
    (direct : ∀ declared ∈ tree.methods, declared.recurs = false) {earlier later : List Method}
    {declared : Method} (split : tree.methods = earlier ++ declared :: later) :
    ∀ call ∈ declared.callees, tree.Precedes earlier call := by
  intro call called
  have listed : declared ∈ tree.methods := split ▸ List.mem_append_right _ List.mem_cons_self
  rw [Precedes, method?]
  cases before : earlier.find? (·.answers call.1 call.2) with
  | some target =>
    refine .inr ⟨target, List.mem_of_find?_eq_some before, ?_⟩
    rw [split, List.find?_append, before]
    rfl
  | none =>
    have unanswered := List.find?_eq_none.mp before
    have itself : ¬ declared.answers call.1 call.2 := by
      intro answers
      obtain ⟨name, arity⟩ := Method.answers_iff.mp answers
      have recurs : declared.recurs :=
        decide_eq_true_iff.mpr (name.symm ▸ arity.symm ▸ called)
      rw [direct declared listed] at recurs
      contradiction
    rcases judged.callees.2 earlier declared later split call called with
      builtin | ⟨target, member, answers⟩
    · obtain ⟨_, found⟩ := Option.isSome_iff_exists.mp builtin
      obtain ⟨name, arity⟩ := Builtin.eq_print_of_find? found
      refine .inl ⟨builtin, List.find?_eq_none.mpr fun other member => ?_⟩
      rw [name, arity]
      exact unshadowed other member
    · rcases List.mem_append.mp member with front | last
      · exact absurd answers (unanswered target front)
      · exact absurd (List.mem_singleton.mp last ▸ answers) itself

end Program

end LetDef
