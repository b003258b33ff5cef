import LetDef.Compilation
import LetDef.Proofs.Typing.Bodies
import LetDef.Proofs.Typing.Signatures
import LetDef.Proofs.Typing.Walk

/-!
# Accepted programs

An `Acceptance` is a program without a host together with what the analysis made of it: the state
after its fields and the state after its methods. While the methods are analysed, the state `Rests`
between any two of them: the global scope is active, its variables are the fields, and its functions
are methods of the program. Every method is analysed in such a state (`Acceptance.exists_method`),
and no two of them answer the same calls (`Acceptance.method?_eq_some_iff`).
-/
namespace LetDef

open Visit (next_eq_ok check_eq_ok step_eq_ok fill_eq_ok done_eq_ok)

namespace Analyzer

variable {analyzer before after : Analyzer}

/-- The state of an analysis without a host: no type has members, and the base scope has the
builtins and nothing else. -/
structure Standing (analyzer : Analyzer) : Prop where
  /-- The scopes are nested. -/
  nested : analyzer.store.Nested analyzer.base analyzer.globals analyzer.active
  /-- No type has members. -/
  bare : analyzer.members = #[]
  /-- The base scope binds no variable. -/
  locals : ∀ name, analyzer.store.localVariable? analyzer.base name = none
  /-- The functions of the base scope are the builtins. -/
  functions : ∀ name arity, analyzer.store.localFunction? analyzer.base name arity =
    (Builtin.find? name arity).map Builtin.signature

/-- The scopes of an analyzer for programs without a host. -/
theorem frames_fresh : Analyzer.fresh.store.frames =
    #[⟨none, .empty, Bindings.empty.bind ("print", 1) Builtin.print.signature, 1⟩,
      ⟨some 0, .empty, .empty, 2⟩] := rfl

/-- The builtin of a key is the one that is bound to it. -/
theorem builtins_get? {F : Type} (function : Builtin → F) (name : String) (arity : Nat) :
    (Bindings.empty.bind ("print", 1) (function .print)).get? (name, arity) =
      (Builtin.find? name arity).map function := by
  rw [Bindings.get?_bind, Bindings.get?_empty, Builtin.find?, Builtin.all, List.find?_singleton]
  by_cases same : name = "print" ∧ arity = 1
  · obtain ⟨rfl, rfl⟩ := same
    rfl
  · rw [if_neg fun equal => same (Prod.mk.inj equal), if_neg]
    · rfl
    · intro described
      rw [Bool.and_eq_true] at described
      exact same ⟨(of_decide_eq_true described.1).symm, (of_decide_eq_true described.2).symm⟩

/-- The only builtin is `print`, which takes one argument. -/
theorem eq_of_builtin {name : String} {arity : Nat} {builtin : Builtin}
    (found : Builtin.find? name arity = some builtin) : name = "print" ∧ arity = 1 := by
  have described := List.find?_some found
  cases builtin
  rw [Bool.and_eq_true] at described
  exact ⟨(of_decide_eq_true described.1).symm, (of_decide_eq_true described.2).symm⟩

/-- An analyzer for programs without a host. -/
theorem fresh_standing : Analyzer.fresh.Standing where
  nested := Store.nested_of_frames frames_fresh
  bare := rfl
  locals := Store.localVariable?_of_frames frames_fresh _
  functions name arity := by
    rw [Store.localFunction?_of_frames frames_fresh]
    exact builtins_get? Builtin.signature name arity

/-- The state stands while only the active scope changes. -/
theorem Standing.grow (standing : before.Standing) (grown : before.Grows after) :
    after.Standing where
  nested := by
    rw [grown.base, grown.globals, grown.active]
    exact standing.nested.evolve grown.store
  bare := grown.members.trans standing.bare
  locals name := by
    have old : before.base < before.store.frames.size :=
      Nat.lt_trans standing.nested.base_lt (Store.lt_size_of_isLive standing.nested.liveGlobals)
    obtain ⟨own, later, same, ownName, laterName⟩ := grown.store.localVariable? old
    rw [grown.base, laterName, same standing.nested.active_ne_base.symm, ← ownName]
    exact standing.locals name
  functions name arity := by
    rw [grown.base, grown.store.localFunction?_eq]
    exact standing.functions name arity

/-- The state stands in a new scope. -/
theorem Standing.enter (standing : analyzer.Standing) : analyzer.enter.Standing where
  nested := standing.nested.child
  bare := standing.bare
  locals name := by
    have old : analyzer.base < analyzer.store.frames.size :=
      Nat.lt_trans standing.nested.base_lt (Store.lt_size_of_isLive standing.nested.liveGlobals)
    show (analyzer.store.child analyzer.active).2.localVariable? analyzer.base name = none
    rw [Store.localVariable?_child, if_neg (Nat.ne_of_lt old)]
    exact standing.locals name
  functions name arity :=
    (Store.localFunction?_child name arity).trans (standing.functions name arity)

/-- A function can be added exactly if the active scope does not have it. -/
theorem defineFunction_eq_ok {function : Signature} :
    analyzer.defineFunction function = (.ok (), after) ↔
      analyzer.store.localFunction? analyzer.active function.name function.arity = none ∧
        after = { analyzer with
          store := analyzer.store.bindFunction analyzer.active function.name function.arity
            function } := by
  rw [defineFunction, Store.defineFunction]
  cases bound : analyzer.store.localFunction? analyzer.active function.name function.arity with
  | none => simp [eq_comm]
  | some held => simp

/-- The state stands when the global scope gets a function. -/
theorem Standing.defineFunction {function : Signature} (standing : analyzer.Standing)
    (resting : analyzer.active = analyzer.globals)
    (defined : analyzer.defineFunction function = (.ok (), after)) :
    after.Standing ∧ after.active = after.globals := by
  obtain ⟨_, rfl⟩ := defineFunction_eq_ok.mp defined
  rw [resting]
  refine ⟨⟨?_, standing.bare, fun name => ?_, fun name arity => ?_⟩, rfl⟩
  · show (analyzer.store.bindFunction _ _ _ _).Nested analyzer.base analyzer.globals
      analyzer.globals
    exact standing.nested.atGlobals.bindFunction _ _ _
  · exact (Store.localVariable?_bindFunction name).trans (standing.locals name)
  · show (analyzer.store.bindFunction _ _ _ _).localFunction? analyzer.base name arity = _
    rw [Store.localFunction?_bindFunction (Store.lt_size_of_isLive standing.nested.liveGlobals),
      if_neg fun all => Nat.ne_of_lt standing.nested.base_lt all.1]
    exact standing.functions name arity

/-- Adding variables changes the active scope alone. -/
theorem Grows.ofDefineAll {entries : List Variable}
    (defined : analyzer.defineAll entries = (.ok (), after)) : analyzer.Grows after := by
  induction entries generalizing analyzer with
  | nil =>
    injection defined with _ same
    exact same ▸ Extends.refl.grows
  | cons first rest ih =>
    cases begun : analyzer.define first with
    | mk result between =>
      simp only [defineAll, begun] at defined
      cases result with
      | error error => cases defined
      | ok done => exact (Grows.ofDefine begun).trans (ih defined)

/-- An accepted field adds a variable whose type takes its first value. -/
theorem field_eq_ok (bare : analyzer.members = #[]) {source tree : Field}
    (accepts : source.analyze analyzer = ⟨tree, .ok (), after⟩) :
    ∃ valueType type, tree.name = source.name ∧ analyzer.types.get source.typeName = .ok type ∧
      analyzer.TypesOption source.value tree.value valueType ∧
      (∀ found, valueType = some found → type.isAssignable found) ∧
      analyzer.define (.named tree.name type) = (.ok (), after) := by
  simp only [Field.analyze, next_eq_ok, check_eq_ok, step_eq_ok, fill_eq_ok, done_eq_ok] at accepts
  obtain ⟨written, known, _, valueType, between, analyzed, type, typed, _, next, defined, _, same,
    _, rfl⟩ := accepts
  subst same
  obtain ⟨rfl, types⟩ := typesOption_of_analyze bare analyzed
  have found : written = type := by
    rcases Declaration.typeOf_eq_ok.mp typed with ⟨unwritten, _⟩ | ⟨⟨⟩, _⟩
    · contradiction
    · rfl
  exact ⟨valueType, type, rfl, found ▸ known, types, Declaration.isAssignable_of_typeOf typed,
    defined⟩

end Analyzer

/-- What a method stands for has its name, in Java as well, and a type for each of its
parameters. -/
theorem Method.signatureIn_eq_ok {method : Method} {types : TypeTable} {found : Signature}
    (known : method.signatureIn types = .ok found) :
    found.name = method.name ∧ found.renderName = method.name ∧
      found.arity = method.parameters.length := by
  obtain ⟨_, _, typed, _, rfl⟩ := Method.signatureIn_eq_ok_iff.mp known
  exact ⟨rfl, rfl, typed.length_eq.symm⟩

/-- The variables for parameters have their names, if there is a type for each. -/
theorem Method.map_name_parameterVariables {method : Method} {types : List Ty}
    (sizes : types.length = method.parameters.length) :
    (method.parameterVariables types).map Variable.name =
      method.parameters.map Parameter.name := by
  rw [Method.parameterVariables]
  generalize method.parameters = parameters at sizes
  induction parameters generalizing types with
  | nil => rfl
  | cons first rest ih =>
    cases types with
    | nil => contradiction
    | cons type types =>
      rw [List.zipWith_cons_cons, List.map_cons, List.map_cons, ih (Nat.succ.inj sizes)]
      rfl

/-- The variables for parameters have the types of these, if there is a type for each. -/
theorem Method.map_type_parameterVariables {method : Method} {types : List Ty}
    (sizes : types.length = method.parameters.length) :
    (method.parameterVariables types).map Variable.type = types := by
  rw [Method.parameterVariables]
  generalize method.parameters = parameters at sizes
  induction parameters generalizing types with
  | nil =>
    rw [List.length_eq_zero_iff.mp sizes]
    rfl
  | cons first rest ih =>
    cases types with
    | nil => contradiction
    | cons type types =>
      rw [List.zipWith_cons_cons, List.map_cons, ih (Nat.succ.inj sizes)]
      rfl

/-- A method is accepted exactly if it stands for something, its name is free, its slot is empty,
its parameters have different names and its body is accepted. -/
theorem Method.analyze_eq_ok {source tree : Method} {before after : Analyzer} :
    source.analyze before = ⟨tree, .ok (), after⟩ ↔
      ∃ signature named entered body ended, source.signatureIn before.types = .ok signature ∧
        before.defineFunction signature = (.ok (), named) ∧ source.slot = none ∧
        named.enter.defineAll (source.parameterVariables signature.parameters) =
          (.ok (), entered) ∧
        { entered with returns := some signature.returns }.AcceptsAll source.body body ended ∧
        tree = { source with body, slot := some signature } ∧
        after = { ended with returns := entered.returns }.leave named.active := by
  simp only [Method.analyze, Method.analyzeBody, next_eq_ok, check_eq_ok, step_eq_ok, fill_eq_ok,
    done_eq_ok, Analyzer.within_eq_ok]
  constructor
  · rintro ⟨signature, known, _, named, defined, empty, body, _, _, ⟨inner, ⟨_, entered, distinct,
      passed⟩, left⟩, same, _, rfl⟩
    generalize visited : Stmt.analyzeAll source.body
      { entered with returns := some signature.returns } = visit at passed
    obtain ⟨trees, result, ended⟩ := visit
    simp only [Visit.mk.injEq] at passed
    obtain ⟨rfl, rfl, rfl⟩ := passed
    exact ⟨signature, named, entered, trees, ended, known, defined, empty, distinct, visited,
      same.symm, left⟩
  · rintro ⟨signature, named, entered, body, ended, known, defined, empty, distinct, accepts, rfl,
      rfl⟩
    refine ⟨signature, known, (), named, defined, empty, body, (), _, ⟨_, ⟨(), entered, distinct,
      ?_⟩, rfl⟩, rfl, trivial, rfl⟩
    rw [Analyzer.AcceptsAll] at accepts
    simp only [accepts]

/-- An accepted method: what it stands for, and the states between which its body is accepted. -/
structure Method.Accepted (source tree : Method) (before after : Analyzer) where
  /-- What the method stands for. -/
  signature : Signature
  /-- The state in which the method can be called. -/
  named : Analyzer
  /-- The state in which the body begins. -/
  entered : Analyzer
  /-- The state in which the body ends. -/
  ended : Analyzer
  /-- It stands for what is written for it. -/
  known : source.signatureIn before.types = .ok signature
  /-- Its name is free. -/
  defined : before.defineFunction signature = (.ok (), named)
  /-- Its slot is free. -/
  empty : source.slot = none
  /-- Its parameters have different names. -/
  distinct : named.enter.defineAll (source.parameterVariables signature.parameters) =
    (.ok (), entered)
  /-- Its body is accepted. -/
  body : { entered with returns := some signature.returns }.AcceptsAll source.body tree.body ended
  /-- Its name stays. -/
  name : tree.name = source.name
  /-- Its parameters stay. -/
  parameters : tree.parameters = source.parameters
  /-- Its slot is filled. -/
  slot : tree.slot = some signature
  /-- Afterwards the scope of its body is given up. -/
  after_eq : after = { ended with returns := entered.returns }.leave named.active

namespace Method.Accepted

variable {source tree : Method} {before after : Analyzer}

/-- A method that the analysis passes is accepted. -/
theorem of_analyze (analyzed : source.analyze before = ⟨tree, .ok (), after⟩) :
    Nonempty (source.Accepted tree before after) := by
  obtain ⟨signature, named, entered, body, ended, known, defined, empty, distinct, accepts, rfl,
    left⟩ := Method.analyze_eq_ok.mp analyzed
  exact ⟨⟨signature, named, entered, ended, known, defined, empty, distinct, accepts, rfl, rfl, rfl,
    left⟩⟩

/-- Where the body ends, the scopes around it are as they were. -/
theorem grows_of_body (accepted : source.Accepted tree before after) {reached : Analyzer}
    (passed : { accepted.entered with returns := some accepted.signature.returns }.Grows reached) :
    accepted.named.enter.Grows { reached with returns := accepted.entered.returns } := by
  have restored : accepted.entered.Grows { reached with returns := accepted.entered.returns } :=
    ⟨passed.base, passed.globals, passed.active, rfl, passed.types, passed.members, passed.store⟩
  exact (Analyzer.Grows.ofDefineAll accepted.distinct).trans restored

/-- Where the body begins, no type has members. -/
theorem members_entered (accepted : source.Accepted tree before after)
    (bare : before.members = #[]) : accepted.entered.members = #[] := by
  obtain ⟨_, same⟩ := Analyzer.defineFunction_eq_ok.mp accepted.defined
  have named : accepted.named.members = #[] := by
    rw [same]
    exact bare
  exact (Analyzer.Grows.ofDefineAll accepted.distinct).members.trans (Analyzer.members_enter named)

/-- The scopes that are there when the body begins are as they were when it has ended. -/
theorem extends_after (accepted : source.Accepted tree before after)
    (bare : before.members = #[]) : accepted.named.Extends after := by
  have entered := accepted.members_entered bare
  have left := (accepted.grows_of_body
    (Analyzer.AcceptsAll.grows entered tree.body accepted.body)).leave
  rw [← accepted.after_eq] at left
  exact left

end Method.Accepted

/-- A program without a host and what the analysis made of it. -/
structure Acceptance where
  /-- The program as it was read. -/
  source : Program
  /-- The program with its slots filled. -/
  program : Program
  /-- The state after the fields. -/
  loaded : Analyzer
  /-- The state after the methods. -/
  final : Analyzer
  /-- The fields are accepted. -/
  fields : Visit.each Field.analyze source.fields .fresh = ⟨program.fields, .ok (), loaded⟩
  /-- The methods are accepted. -/
  methods : Visit.each Method.analyze source.methods loaded = ⟨program.methods, .ok (), final⟩
  /-- There is a method to begin with. -/
  main : final.checkMain = .ok ()

namespace Acceptance

/-- An accepted text is the text of an accepted program. -/
theorem exists_of_ofTextAnalyzed {text : String} {program : Program}
    (accepted : Program.ofTextAnalyzed text = .ok program) :
    ∃ acceptance : Acceptance, Program.ofText text = .ok acceptance.source ∧
      acceptance.program = program := by
  rw [Program.ofTextAnalyzed] at accepted
  cases read : Program.ofText text with
  | error error =>
    rw [read] at accepted
    contradiction
  | ok source =>
    rw [read] at accepted
    simp only [bind, Except.bind] at accepted
    generalize visited : source.analyze .fresh = visit at accepted
    obtain ⟨tree, result, after⟩ := visit
    cases result with
    | error error => contradiction
    | ok done =>
      injection accepted with same
      subst same
      simp only [Program.analyze, next_eq_ok, check_eq_ok, done_eq_ok] at visited
      obtain ⟨fields, _, loaded, passedFields, methods, _, final, passedMethods, _, main, rfl, _,
        rfl⟩ := visited
      exact ⟨⟨source, _, loaded, final, passedFields, passedMethods, main⟩, rfl, rfl⟩

/-- The analysis has filled slots only. -/
theorem erase_eq (accepted : Acceptance) : accepted.program.erase = accepted.source.erase := by
  have fields := Visit.map_each Field.erase_analyze accepted.source.fields .fresh
  have methods := Visit.map_each Method.erase_analyze accepted.source.methods accepted.loaded
  rw [accepted.fields] at fields
  rw [accepted.methods] at methods
  rw [Program.erase, fields, methods, Program.erase]

/-- The analysis comes to this spot of the program. -/
def Visits (accepted : Acceptance) : Address → Spot → Prop :=
  accepted.source.Visits .fresh

/-- No method has the name and the number of parameters of `print`. -/
def Unshadowed (accepted : Acceptance) : Prop :=
  ∀ declared ∈ accepted.program.methods, ¬ declared.answers "print" 1

/-- A method that answers to a builtin takes its place. -/
theorem not_unshadowed {accepted : Acceptance} {name : String} {arity : Nat} {builtin : Builtin}
    {declared : Method} (found : Builtin.find? name arity = some builtin)
    (member : declared ∈ accepted.program.methods) (answers : declared.answers name arity) :
    ¬ accepted.Unshadowed := by
  intro unshadowed
  obtain ⟨rfl, rfl⟩ := Analyzer.eq_of_builtin found
  exact unshadowed declared member answers

end Acceptance

/-- In the global scope the state has the fields of the program, and none but its methods. -/
structure Analyzer.Knows (analyzer : Analyzer) (accepted : Acceptance) : Prop where
  /-- It is the global scope of the fields. -/
  globals : analyzer.globals = accepted.loaded.globals
  /-- The variables are the fields. -/
  locals : ∀ name, analyzer.store.localVariable? analyzer.globals name =
    accepted.loaded.store.localVariable? accepted.loaded.globals name
  /-- The functions are methods. -/
  functions : ∀ name arity signature,
    analyzer.store.localFunction? analyzer.globals name arity = some signature →
      ∃ declared ∈ accepted.program.methods, declared.answers name arity ∧
        declared.slot = some signature

/-- The state is between two methods. -/
structure Analyzer.Rests (analyzer : Analyzer) (accepted : Acceptance) : Prop where
  /-- The state stands. -/
  standing : analyzer.Standing
  /-- The global scope is active. -/
  resting : analyzer.active = analyzer.globals
  /-- The global scope has the fields and methods. -/
  knows : analyzer.Knows accepted

namespace Analyzer

variable {accepted : Acceptance} {analyzer before after : Analyzer}

/-- The state knows what it knew when the global scope is as it was. -/
theorem Knows.carry (knows : before.Knows accepted) (globals : after.globals = before.globals)
    (locals : ∀ name, after.store.localVariable? before.globals name =
      before.store.localVariable? before.globals name)
    (functions : ∀ name arity, after.store.localFunction? before.globals name arity =
      before.store.localFunction? before.globals name arity) : after.Knows accepted where
  globals := globals.trans knows.globals
  locals name := by
    rw [globals, locals]
    exact knows.locals name
  functions name arity signature found := by
    rw [globals, functions] at found
    exact knows.functions name arity signature found

/-- A scope other than the active one binds what it did. -/
theorem Grows.localVariable?_eq (grown : before.Grows after) {id : FrameId}
    (old : id < before.store.frames.size) (other : id ≠ before.active) (name : String) :
    after.store.localVariable? id name = before.store.localVariable? id name := by
  obtain ⟨own, later, same, ownName, laterName⟩ := grown.store.localVariable? old
  rw [laterName, same other, ownName]

/-- A scope that was there binds what it did. -/
theorem Extends.localVariable?_eq (extension : before.Extends after) {id : FrameId}
    (old : id < before.store.frames.size) (name : String) :
    after.store.localVariable? id name = before.store.localVariable? id name := by
  obtain ⟨own, later, same, ownName, laterName⟩ := extension.store.localVariable? old
  rw [laterName, same, ownName]

/-- The state knows what it knew while only scopes inside the global one change. -/
theorem Knows.grow (knows : before.Knows accepted) (standing : before.Standing)
    (inner : before.active ≠ before.globals) (grown : before.Grows after) : after.Knows accepted :=
  knows.carry grown.globals
    (fun name => grown.localVariable?_eq (Store.lt_size_of_isLive standing.nested.liveGlobals)
      inner.symm name)
    fun name arity => grown.store.localFunction?_eq before.globals name arity

/-- The state knows what it knew while no scope changes. -/
theorem Knows.extend (knows : before.Knows accepted) (standing : before.Standing)
    (extension : before.Extends after) : after.Knows accepted :=
  knows.carry extension.globals
    (fun name =>
      extension.localVariable?_eq (Store.lt_size_of_isLive standing.nested.liveGlobals) name)
    fun name arity => extension.store.localFunction?_eq before.globals name arity

/-- The state knows what it knew in a new scope. -/
theorem Knows.enter (knows : analyzer.Knows accepted) (standing : analyzer.Standing) :
    analyzer.enter.Knows accepted := by
  have old := Store.lt_size_of_isLive standing.nested.liveGlobals
  refine knows.carry rfl (fun name => ?_) fun name arity => Store.localFunction?_child name arity
  show (analyzer.store.child analyzer.active).2.localVariable? analyzer.globals name = _
  rw [Store.localVariable?_child, if_neg (Nat.ne_of_lt old)]

variable {source tree : Method}

/-- Once its name is defined, a method of the program is one more that the state knows. -/
theorem Rests.named (rests : before.Rests accepted) (method : source.Accepted tree before after)
    (listed : tree ∈ accepted.program.methods) : method.named.Rests accepted := by
  obtain ⟨_, same⟩ := defineFunction_eq_ok.mp method.defined
  obtain ⟨name, _, arity⟩ := Method.signatureIn_eq_ok method.known
  have old := Store.lt_size_of_isLive rests.standing.nested.liveGlobals
  obtain ⟨standing, resting⟩ := rests.standing.defineFunction rests.resting method.defined
  refine ⟨standing, resting, ?_⟩
  rw [same, rests.resting]
  refine ⟨rests.knows.globals, fun name => ?_, ?_⟩
  · exact (Store.localVariable?_bindFunction name).trans (rests.knows.locals name)
  · intro called parameters signature found
    replace found : (before.store.bindFunction _ _ _ _).localFunction? before.globals called
      parameters = some signature := found
    rw [Store.localFunction?_bindFunction old] at found
    split at found
    next own =>
      injection found with found
      refine ⟨tree, listed, Method.answers_iff.mpr ⟨?_, ?_⟩, found ▸ method.slot⟩
      · rw [own.2.1, method.name, name]
      · rw [own.2.2, method.parameters, arity]
    next => exact rests.knows.functions called parameters signature found

/-- After a method of the program, the state is between two methods again. -/
theorem Rests.pass (rests : before.Rests accepted) (method : source.Accepted tree before after)
    (listed : tree ∈ accepted.program.methods) : after.Rests accepted := by
  have named := rests.named method listed
  have extension := method.extends_after rests.standing.bare
  refine ⟨named.standing.grow extension.grows, ?_, named.knows.extend named.standing extension⟩
  rw [extension.active, extension.globals]
  exact named.resting

end Analyzer

/-- Constructs are accepted one after the other. -/
theorem Visit.each_eq_ok {τ : Type} {analyze : τ → Analyzer → Visit τ Unit} {sources rest : List τ}
    {first : τ} {analyzer after : Analyzer}
    (passed : Visit.each analyze sources analyzer = ⟨first :: rest, .ok (), after⟩) :
    ∃ source later between, sources = source :: later ∧
      analyze source analyzer = ⟨first, .ok (), between⟩ ∧
      Visit.each analyze later between = ⟨rest, .ok (), after⟩ := by
  cases sources with
  | nil => simp only [Visit.each, done_eq_ok, reduceCtorEq, false_and] at passed
  | cons source later =>
    simp only [Visit.each, next_eq_ok, done_eq_ok] at passed
    obtain ⟨_, _, between, analyzed, _, _, ending, passedRest, same, _, rfl⟩ := passed
    injection same with same sameRest
    subst same sameRest
    exact ⟨source, later, between, rfl, analyzed, passedRest⟩

/-- Nothing to accept leads nowhere. -/
theorem Visit.each_nil_eq_ok {τ : Type} {analyze : τ → Analyzer → Visit τ Unit} {sources : List τ}
    {analyzer after : Analyzer}
    (passed : Visit.each analyze sources analyzer = ⟨[], .ok (), after⟩) :
    sources = [] ∧ after = analyzer := by
  cases sources with
  | nil =>
    simp only [Visit.each, done_eq_ok] at passed
    exact ⟨rfl, passed.2.2.symm⟩
  | cons source later =>
    simp only [Visit.each, next_eq_ok, done_eq_ok, reduceCtorEq, false_and, and_false,
      exists_false] at passed

/-- The state is among the fields: the global scope is active and has no function yet. -/
structure Analyzer.Blank (analyzer : Analyzer) : Prop where
  /-- The state stands. -/
  standing : analyzer.Standing
  /-- The global scope is active. -/
  resting : analyzer.active = analyzer.globals
  /-- The global scope has no function. -/
  functions : ∀ name arity, analyzer.store.localFunction? analyzer.globals name arity = none

/-- The analysis begins among the fields. -/
theorem Analyzer.fresh_blank : Analyzer.fresh.Blank where
  standing := Analyzer.fresh_standing
  resting := rfl
  functions := Store.localFunction?_of_frames Analyzer.frames_fresh _

/-- After a field the state is among the fields. -/
theorem Analyzer.Blank.pass {before after : Analyzer} {source tree : Field} (blank : before.Blank)
    (analyzed : source.analyze before = ⟨tree, .ok (), after⟩) : after.Blank := by
  obtain ⟨_, _, _, _, _, _, defined⟩ := Analyzer.field_eq_ok blank.standing.bare analyzed
  have grown := Analyzer.Grows.ofDefine defined
  refine ⟨blank.standing.grow grown, ?_, fun name arity => ?_⟩
  · rw [grown.active, grown.globals]
    exact blank.resting
  · rw [grown.globals, grown.store.localFunction?_eq]
    exact blank.functions name arity

namespace Acceptance

variable {accepted : Acceptance} {analyzer after : Analyzer}

/-- After all fields the state is among the fields. -/
theorem blank_after {sources trees : List Field} (blank : analyzer.Blank)
    (passed : Visit.each Field.analyze sources analyzer = ⟨trees, .ok (), after⟩) :
    after.Blank := by
  induction trees generalizing sources analyzer with
  | nil =>
    obtain ⟨_, rfl⟩ := Visit.each_nil_eq_ok passed
    exact blank
  | cons first rest ih =>
    obtain ⟨_, _, between, _, analyzed, passedRest⟩ := Visit.each_eq_ok passed
    exact ih (blank.pass analyzed) passedRest

/-- After the fields, the state is before the first method. -/
theorem rests_loaded (accepted : Acceptance) : accepted.loaded.Rests accepted := by
  have blank := blank_after Analyzer.fresh_blank accepted.fields
  refine ⟨blank.standing, blank.resting, rfl, fun _ => rfl, fun name arity signature found => ?_⟩
  rw [blank.functions] at found
  contradiction

/-- After all methods the state is between methods, and among these no two answer the same calls. -/
theorem rests_after {sources trees : List Method} (rests : analyzer.Rests accepted)
    (listed : ∀ declared ∈ trees, declared ∈ accepted.program.methods)
    (passed : Visit.each Method.analyze sources analyzer = ⟨trees, .ok (), after⟩) :
    after.Rests accepted ∧
      (∀ declared ∈ trees, analyzer.store.localFunction? analyzer.globals declared.name
        declared.parameters.length = none) ∧
      trees.Pairwise fun earlier later =>
        ¬ later.answers earlier.name earlier.parameters.length := by
  induction trees generalizing sources analyzer with
  | nil =>
    obtain ⟨_, rfl⟩ := Visit.each_nil_eq_ok passed
    exact ⟨rests, fun _ member => absurd member List.not_mem_nil, List.Pairwise.nil⟩
  | cons first rest ih =>
    obtain ⟨source, _, between, _, analyzed, passedRest⟩ := Visit.each_eq_ok passed
    obtain ⟨method⟩ := Method.Accepted.of_analyze analyzed
    have firstListed := listed first List.mem_cons_self
    obtain ⟨ended, free, distinct⟩ := ih (rests.pass method firstListed)
      (fun declared member => listed declared (List.mem_cons_of_mem first member)) passedRest
    obtain ⟨unbound, same⟩ := Analyzer.defineFunction_eq_ok.mp method.defined
    obtain ⟨name, _, arity⟩ := Method.signatureIn_eq_ok method.known
    have old := Store.lt_size_of_isLive rests.standing.nested.liveGlobals
    have extension := method.extends_after rests.standing.bare
    have globals : between.globals = analyzer.globals := by
      rw [extension.globals, same]
    have functions : ∀ called parameters,
        between.store.localFunction? between.globals called parameters =
          if called = first.name ∧ parameters = first.parameters.length then
            some method.signature
          else analyzer.store.localFunction? analyzer.globals called parameters := by
      intro called parameters
      rw [globals, extension.store.localFunction?_eq, same]
      show (analyzer.store.bindFunction analyzer.active _ _ _).localFunction? _ _ _ = _
      rw [rests.resting, Store.localFunction?_bindFunction old, name, arity, method.name,
        method.parameters]
      simp only [true_and]
    refine ⟨ended, ?_, ?_⟩
    · intro declared member
      rcases List.mem_cons.mp member with rfl | member
      · rw [method.name, method.parameters, ← name, ← arity, ← rests.resting]
        exact unbound
      · have unknown := free declared member
        rw [functions] at unknown
        split at unknown
        · contradiction
        · exact unknown
    · refine List.pairwise_cons.mpr ⟨fun declared member answers => ?_, distinct⟩
      have unknown := free declared member
      rw [functions, if_pos (Method.answers_iff.mp answers)] at unknown
      contradiction

/-- No two methods of an accepted program answer the same calls. -/
theorem methods_distinct (accepted : Acceptance) :
    accepted.program.methods.Pairwise fun earlier later =>
      ¬ later.answers earlier.name earlier.parameters.length :=
  (rests_after accepted.rests_loaded (fun _ member => member) accepted.methods).2.2

/-- A call goes to the one method of the program that answers it. -/
theorem method?_eq_some_iff (accepted : Acceptance) {name : String} {arity : Nat}
    {declared : Method} : accepted.program.method? name arity = some declared ↔
      declared ∈ accepted.program.methods ∧ declared.answers name arity := by
  constructor
  · intro found
    rw [Program.method?] at found
    have answers := List.find?_some found
    exact ⟨List.mem_of_find?_eq_some found, answers⟩
  · rintro ⟨member, answers⟩
    have distinct := accepted.methods_distinct
    rw [Program.method?]
    generalize accepted.program.methods = methods at member distinct
    induction methods with
    | nil => contradiction
    | cons first rest ih =>
      rw [List.pairwise_cons] at distinct
      rcases List.mem_cons.mp member with rfl | member
      · exact List.find?_cons_of_pos answers
      · obtain ⟨rfl, rfl⟩ := Method.answers_iff.mp answers
        rw [List.find?_cons_of_neg, ih member distinct.2]
        intro both
        obtain ⟨sameName, sameArity⟩ := Method.answers_iff.mp both
        refine distinct.1 declared member ?_
        rw [sameName, sameArity]
        exact answers

/-- The number of a method is the place at which its calls find it. -/
theorem findIdx_answers (accepted : Acceptance) {position : Nat} {declared : Method}
    (found : accepted.program.methods[position]? = some declared) :
    accepted.program.methods.findIdx (·.answers declared.name declared.parameters.length) =
      position :=
  Program.findIdx_answers accepted.methods_distinct found

/-- The analysis comes to every method, between methods, and accepts it. -/
theorem exists_method_from {sources trees : List Method} {index position : Nat} {declared : Method}
    (rests : analyzer.Rests accepted)
    (listed : ∀ declared ∈ trees, declared ∈ accepted.program.methods)
    (visits : accepted.Visits (Program.methodsFrom index) (.methods sources analyzer))
    (passed : Visit.each Method.analyze sources analyzer = ⟨trees, .ok (), after⟩)
    (found : trees[position]? = some declared) :
    ∃ source before after,
      accepted.Visits (Program.methodAddress (index + position)) (.method source before) ∧
      before.Rests accepted ∧ Nonempty (source.Accepted declared before after) := by
  induction trees generalizing sources analyzer index position with
  | nil => contradiction
  | cons first rest ih =>
    obtain ⟨source, later, between, rfl, analyzed, passedRest⟩ := Visit.each_eq_ok passed
    obtain ⟨method⟩ := Method.Accepted.of_analyze analyzed
    cases position with
    | zero =>
      injection found with same
      subst same
      exact ⟨source, analyzer, between, visits.step .firstMethod, rests, ⟨method⟩⟩
    | succ position =>
      have next : accepted.Visits (Program.methodsFrom (index + 1)) (.methods later between) :=
        visits.step (.restMethods analyzed)
      rw [Nat.add_comm position 1, ← Nat.add_assoc]
      exact ih (rests.pass method (listed first List.mem_cons_self))
        (fun declared member => listed declared (List.mem_cons_of_mem first member)) next passedRest
        found

/-- The analysis comes to every method of an accepted program, between methods, and accepts it. -/
theorem exists_method (accepted : Acceptance) {declared : Method}
    (member : declared ∈ accepted.program.methods) :
    ∃ source before after,
      accepted.Visits (accepted.program.addressOf declared) (.method source before) ∧
      before.Rests accepted ∧ Nonempty (source.Accepted declared before after) := by
  obtain ⟨position, found⟩ := List.mem_iff_getElem?.mp member
  have visits : accepted.Visits (Program.methodsFrom 0)
      (.methods accepted.source.methods accepted.loaded) :=
    Program.Visits.start.step (.methods accepted.fields)
  have met := exists_method_from accepted.rests_loaded (fun _ member => member) visits
    accepted.methods found
  rw [Program.addressOf, accepted.findIdx_answers found]
  rwa [Nat.zero_add] at met

/-- What a method stands for takes as many arguments as the calls that it answers have. -/
theorem length_parameters (accepted : Acceptance) {declared : Method} {signature : Signature}
    {name : String} {arity : Nat} (member : declared ∈ accepted.program.methods)
    (filled : declared.slot = some signature) (answers : declared.answers name arity) :
    signature.parameters.length = arity := by
  obtain ⟨source, _, _, _, _, ⟨method⟩⟩ := accepted.exists_method member
  obtain rfl := Option.some.inj (method.slot.symm.trans filled)
  obtain ⟨_, _, sizes⟩ := Method.signatureIn_eq_ok method.known
  rw [← (Method.answers_iff.mp answers).2, method.parameters]
  exact sizes

/-- There is a method to begin with, which takes no argument. -/
theorem exists_main (accepted : Acceptance) :
    ∃ declared ∈ accepted.program.methods, declared.answers "main" 0 := by
  have rests := (rests_after accepted.rests_loaded (fun _ member => member) accepted.methods).1
  have main := accepted.main
  rw [Analyzer.checkMain] at main
  split at main
  · contradiction
  next signature found =>
    rw [rests.standing.nested.atGlobals.findFunction?_eq, rests.standing.functions] at found
    have other : Builtin.find? "main" 0 = none := rfl
    rw [other, Option.map_none, Option.or_none] at found
    obtain ⟨declared, member, answers, _⟩ := rests.knows.functions "main" 0 signature found
    exact ⟨declared, member, answers⟩

end Acceptance

end LetDef
