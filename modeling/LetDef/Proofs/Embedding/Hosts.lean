import LetDef.Embedding.Session
import LetDef.Proofs.Embedding.Counterparts
import LetDef.Proofs.Program.Levels
import LetDef.Proofs.Typing.Signatures

/-!
# Sessions begin in the scopes of their host

The analyzer and the machine with which a session begins are in the scopes of one host, whatever the
host gives to programs (`Session.hosted_start`): each has a global scope of its own that binds no
variable yet, around it there is the scope of the host alone, and all that a run can call is a
function of the host. It remains to be asked of the embedding that the scope for runs binds the
variables which the scope for the analysis binds.
-/
namespace LetDef

namespace Store

variable {V F : Type} {new : F → Prop} {before middle after store : Store V F} {id : FrameId}

/-- The frames of `before` have the same place and as many owners as they had, and all functions
that have been added are `new` ones. -/
structure Widens (new : F → Prop) (before after : Store V F) : Prop where
  /-- No frame is lost or moved. -/
  preserves : before.Preserves after
  /-- What has been added is new. -/
  functions : ∀ id name arity function, after.localFunction? id name arity = some function →
    before.localFunction? id name arity = some function ∨ new function

/-- Nothing need be added. -/
theorem Widens.refl (store : Store V F) : store.Widens new store :=
  ⟨.refl store, fun _ _ _ _ found => .inl found⟩

/-- What is widened twice is widened. -/
theorem Widens.trans (first : before.Widens new middle) (second : middle.Widens new after) :
    before.Widens new after where
  preserves := first.preserves.trans second.preserves
  functions id name arity function found := by
    rcases second.functions id name arity function found with earlier | added
    · exact first.functions id name arity function earlier
    · exact .inr added

/-- A variable is no function. -/
theorem widens_defineVariable (store : Store V F) (id : FrameId) (name : String) (value : V) :
    store.Widens new (store.defineVariable id name value).2 where
  preserves := store.preserves_defineVariable id name value
  functions other own arity function found := by
    refine .inl ?_
    rw [defineVariable] at found
    split at found
    · exact found
    · have evolves : store.Evolves (fun _ _ _ => True) (store.bindVariable id name value) :=
        evolves_bindVariable store id name value (fun _ _ _ => trivial) fun _ _ => trivial
      rwa [evolves.localFunction?_eq] at found

/-- A function that is added is new. -/
theorem widens_defineFunction (store : Store V F) (id : FrameId) (name : String) (arity : Nat)
    {function : F} (added : new function) :
    store.Widens new (store.defineFunction id name arity function).2 where
  preserves := store.preserves_defineFunction id name arity function
  functions other own parameters held found := by
    rw [defineFunction] at found
    split at found
    · exact .inl found
    · rcases localFunction?_of_bindFunction found with earlier | rfl
      · exact .inl earlier
      · exact .inr added

end Store

namespace Builtin

/-- The analysis gets builtins as functions alone. -/
theorem widens_defineSignatures (store : Store Variable Signature) (scope : FrameId)
    (builtins : List Builtin) :
    store.Widens (fun _ => True) (defineSignatures store scope builtins).2 := by
  induction builtins generalizing store with
  | nil => exact .refl store
  | cons first rest ih =>
    have widens : store.Widens (fun _ => True)
        (store.defineFunction scope first.name first.arity first.signature).2 :=
      store.widens_defineFunction scope first.name first.arity trivial
    rw [defineSignatures]
    generalize store.defineFunction scope first.name first.arity first.signature = result at widens
    match result with
    | (true, between) => exact widens.trans (ih between)
    | (false, _) => exact widens

/-- Runs get builtins as functions of the host. -/
theorem widens_defineCallables (store : Store Value Callable) (scope : FrameId)
    (builtins : List Builtin) :
    store.Widens Callable.Foreign (defineCallables store scope builtins).2 := by
  induction builtins generalizing store with
  | nil => exact .refl store
  | cons first rest ih =>
    have foreign : first.callable.Foreign := by
      cases first
      trivial
    have widens : store.Widens Callable.Foreign
        (store.defineFunction scope first.name first.arity first.callable).2 :=
      store.widens_defineFunction scope first.name first.arity foreign
    rw [defineCallables]
    generalize store.defineFunction scope first.name first.arity first.callable = result at widens
    match result with
    | (true, between) => exact widens.trans (ih between)
    | (false, _) => exact widens

end Builtin

/-- The scopes of a host have been extended: none is lost, each keeps its place and its owners, and
runs find no new functions but those of the host. -/
structure Surroundings.Extends (before after : Surroundings) : Prop where
  /-- The scopes of the analysis are preserved. -/
  analysis : before.analysis.Widens (fun _ => True) after.analysis
  /-- The scopes of runs are preserved, and new functions are those of the host. -/
  runtime : before.runtime.Widens Callable.Foreign after.runtime

/-- Nothing need be added. -/
theorem Surroundings.Extends.refl (around : Surroundings) : around.Extends around :=
  ⟨.refl _, .refl _⟩

/-- What is extended twice is extended. -/
theorem Surroundings.Extends.trans {before middle after : Surroundings}
    (first : before.Extends middle) (second : middle.Extends after) : before.Extends after :=
  ⟨first.analysis.trans second.analysis, first.runtime.trans second.runtime⟩

namespace Embedding

open LetDef.Parser (bind_eq_ok)

variable {space : TypeSpace} {scope : FrameId} {around later : Surroundings}

/-- A name that has been defined is defined. -/
theorem defined_eq_ok {α : Type} {name : String} {result : Bool × α} {value : α} :
    defined name result = .ok value ↔ result = (true, value) := by
  obtain ⟨success, found⟩ := result
  cases success <;> simp [defined]

/-- Builtins that have been defined are defined. -/
theorem builtinsDefined_eq_ok {α : Type} {result : Option Builtin × α} {value : α} :
    builtinsDefined result = .ok value ↔ result = (none, value) := by
  obtain ⟨taken, found⟩ := result
  cases taken <;> simp [builtinsDefined]

/-- Defining a variable widens a store. -/
theorem widens_of_variable {V F : Type} {new : F → Prop} {store after : Store V F} {name : String}
    {value : V} (done : defined name (store.defineVariable scope name value) = .ok after) :
    store.Widens new after := by
  have widens : store.Widens new (store.defineVariable scope name value).2 :=
    store.widens_defineVariable scope name value
  rwa [defined_eq_ok.mp done] at widens

/-- Defining a new function widens a store. -/
theorem widens_of_function {V F : Type} {new : F → Prop} {store after : Store V F} {name : String}
    {arity : Nat} {function : F}
    (done : defined name (store.defineFunction scope name arity function) = .ok after)
    (added : new function) : store.Widens new after := by
  have widens := store.widens_defineFunction scope name arity added
  rwa [defined_eq_ok.mp done] at widens

/-- A variable extends the scopes that know it. -/
theorem extends_addVariable {declaration : VariableDeclaration}
    (added : addVariable space scope around declaration = .ok later) : around.Extends later := by
  obtain ⟨name, renderName, type, value⟩ := declaration
  cases type <;> cases value <;> simp only [addVariable, bind_eq_ok] at added
  case none.none =>
    obtain ⟨_, known, _, bound, same⟩ := added
    cases known
    cases bound
    cases same
    exact .refl around
  case none.some =>
    obtain ⟨_, known, _, bound, same⟩ := added
    cases known
    cases same
    exact ⟨.refl _, widens_of_variable bound⟩
  case some.none =>
    obtain ⟨_, _, _, known, _, bound, same⟩ := added
    cases bound
    cases same
    exact ⟨widens_of_variable known, .refl _⟩
  case some.some =>
    obtain ⟨_, _, _, known, _, bound, same⟩ := added
    cases same
    exact ⟨widens_of_variable known, widens_of_variable bound⟩

/-- A function extends the scopes that know it. -/
theorem extends_addFunction {declaration : FunctionDeclaration}
    (added : addFunction space scope around declaration = .ok later) : around.Extends later := by
  obtain ⟨name, renderName, arity, parameters, returns, native⟩ := declaration
  cases returns <;> cases native <;> simp only [addFunction, bind_eq_ok] at added
  case none.none =>
    obtain ⟨_, known, _, bound, same⟩ := added
    cases known
    cases bound
    cases same
    exact .refl around
  case none.some =>
    obtain ⟨_, known, _, bound, same⟩ := added
    cases known
    cases same
    exact ⟨.refl _, widens_of_function bound trivial⟩
  case some.none =>
    obtain ⟨_, _, _, _, _, known, _, bound, same⟩ := added
    cases bound
    cases same
    exact ⟨widens_of_function known trivial, .refl _⟩
  case some.some =>
    obtain ⟨_, _, _, _, _, known, _, bound, same⟩ := added
    cases same
    exact ⟨widens_of_function known trivial, widens_of_function bound trivial⟩

/-- The builtins extend both scopes. -/
theorem extends_addBuiltins (added : addBuiltins scope around = .ok later) :
    around.Extends later := by
  simp only [addBuiltins, bind_eq_ok, builtinsDefined_eq_ok] at added
  obtain ⟨_, known, _, bound, same⟩ := added
  cases same
  have analysis := Builtin.widens_defineSignatures around.analysis scope Builtin.all
  have runtime := Builtin.widens_defineCallables around.runtime scope Builtin.all
  rw [known] at analysis
  rw [bound] at runtime
  exact ⟨analysis, runtime⟩

/-- Declarations one after the other extend scopes if each does. -/
theorem extends_foldlM {δ : Type} {add : Surroundings → δ → Except EmbeddingError Surroundings}
    (each : ∀ {around later declaration}, add around declaration = .ok later →
      around.Extends later) {declarations : List δ}
    (added : declarations.foldlM add around = .ok later) : around.Extends later := by
  induction declarations generalizing around with
  | nil =>
    cases added
    exact .refl _
  | cons first rest ih =>
    obtain ⟨between, begun, ended⟩ := bind_eq_ok.mp added
    exact (each begun).trans (ih ended)

/-- The scopes of a host before anything is defined in them. -/
def bare : Surroundings :=
  ⟨Store.empty.root.2, Store.empty.root.2⟩

/-- The scopes of a host are the first ones, and they extend empty ones. -/
theorem extends_surroundings {declaration : ParentDeclaration}
    (made : surroundings space declaration = .ok (scope, around)) :
    scope = 0 ∧ bare.Extends around := by
  obtain ⟨place, hostVariables, hostFunctions⟩ := declaration
  cases place <;> simp only [surroundings, bind_eq_ok] at made
  case first =>
    obtain ⟨_, begun, _, addedVariables, _, addedFunctions, _, ended, same⟩ := made
    cases ended
    cases same
    exact ⟨rfl, (extends_addBuiltins begun).trans
      ((extends_foldlM extends_addVariable addedVariables).trans
        (extends_foldlM extends_addFunction addedFunctions))⟩
  case last =>
    obtain ⟨_, begun, _, addedVariables, _, addedFunctions, _, ended, same⟩ := made
    cases begun
    cases same
    exact ⟨rfl, (extends_foldlM extends_addVariable addedVariables).trans
      ((extends_foldlM extends_addFunction addedFunctions).trans (extends_addBuiltins ended))⟩
  case absent =>
    obtain ⟨_, begun, _, addedVariables, _, addedFunctions, _, ended, same⟩ := made
    cases begun
    cases ended
    cases same
    exact ⟨rfl, (extends_foldlM extends_addVariable addedVariables).trans
      (extends_foldlM extends_addFunction addedFunctions)⟩

/-- What has been bound together is one of the things that were to be bound. -/
theorem exists_of_bindAll {κ α : Type} [DecidableEq κ] {name : κ → String}
    {bindings done : Bindings κ α} {pairs : List (κ × α)} {key : κ} {value : α}
    (bound : bindAll name bindings pairs = .ok done) (held : done.get? key = some value) :
    bindings.get? key = some value ∨ ∃ pair ∈ pairs, pair.2 = value := by
  induction pairs generalizing bindings with
  | nil =>
    cases bound
    exact .inl held
  | cons first rest ih =>
    obtain ⟨own, given⟩ := first
    rw [bindAll] at bound
    split at bound
    · contradiction
    · rcases ih bound with earlier | ⟨pair, member, same⟩
      · rw [Bindings.get?_bind] at earlier
        split at earlier
        · exact .inr ⟨_, List.mem_cons_self, Option.some.inj earlier⟩
        · exact .inl earlier
      · exact .inr ⟨pair, List.mem_cons_of_mem _ member, same⟩

/-- The methods of an object are functions of the host. -/
theorem foreign_objectMembers {declaration : ObjectDeclaration}
    {members : Bindings String Value × Bindings (String × Nat) Callable}
    (made : objectMembers declaration = .ok members) {key : String × Nat} {callable : Callable}
    (held : members.2.get? key = some callable) : callable.Foreign := by
  simp only [objectMembers, bind_eq_ok] at made
  obtain ⟨fields, _, methods, bound, same⟩ := made
  cases same
  rcases exists_of_bindAll bound held with earlier | ⟨pair, member, rfl⟩
  · rw [Bindings.get?_empty] at earlier
    contradiction
  · obtain ⟨method, _, rfl⟩ := List.mem_map.mp member
    trivial

/-- The methods of the objects of an embedding are functions of the host. -/
theorem foreign_objects {declarations : List ObjectDeclaration}
    {objects : List (Bindings String Value × Bindings (String × Nat) Callable)}
    (made : declarations.mapM objectMembers = .ok objects) :
    ∀ methods ∈ (objects.map Prod.snd).toArray, ∀ key callable,
      methods.get? key = some callable → callable.Foreign := by
  simp only [List.mem_toArray, List.forall_mem_map]
  have each := mapM_eq_ok_iff.mp made
  clear made
  induction each with
  | nil => exact fun _ => nofun
  | cons first _ ih =>
    refine List.forall_mem_cons.mpr ⟨fun key callable held => ?_, ih⟩
    exact foreign_objectMembers first held

end Embedding

section Inside

variable {V F : Type} {store : Store V F} {base : FrameId}

/-- The global scope inside a base scope is alive. -/
theorem Store.isLive_global :
    ((store.child base).2.retain store.frames.size).isLive store.frames.size :=
  (isLive_retain isLive_child_self).trans isLive_child_self

/-- Around the global scope inside a base scope that stands alone there is that scope. -/
theorem Store.ancestors_global (live : store.isLive base) (alone : store.ancestors base = [base]) :
    ((store.child base).2.retain store.frames.size).ancestors store.frames.size =
      [store.frames.size, base] := by
  rw [ancestors_retain isLive_child_self, ancestors_child_self live, alone]

/-- The global scope binds no variable. -/
theorem Store.localVariable?_global (name : String) :
    ((store.child base).2.retain store.frames.size).localVariable? store.frames.size name =
      none := by
  rw [localVariable?_retain, localVariable?_child, if_pos rfl]

end Inside

/-- The scope of the host for runs binds the variables that the one for the analysis binds. -/
def Session.Covers (session : Session) : Prop :=
  ∀ name, (session.analyzer.store.localVariable? session.analyzer.base name).isSome →
    (session.machine.store.localVariable? session.machine.base name).isSome

/-- A key that has a value is one of the keys. -/
theorem Bindings.mem_keys_of_get? {κ α : Type} [DecidableEq κ] {bindings : Bindings κ α} {key : κ}
    (held : (bindings.get? key).isSome) : key ∈ bindings.keys := by
  obtain ⟨entries⟩ := bindings
  induction entries with
  | nil => contradiction
  | cons first rest ih =>
    rw [get?, valueIn] at held
    split at held
    next same => exact same ▸ List.mem_cons_self
    next => exact List.mem_cons_of_mem _ (ih held)

/-- The names of the variables of a frame. -/
def Store.names {V F : Type} (store : Store V F) (id : FrameId) : List String :=
  (store.frames[id]?.map (·.values.keys)).getD []

/-- What a frame binds is one of its names. -/
theorem Store.mem_names {V F : Type} {store : Store V F} {id : FrameId} {name : String}
    (binds : (store.localVariable? id name).isSome) : name ∈ store.names id := by
  rw [localVariable?] at binds
  rw [names]
  cases found : store.frames[id]? with
  | none =>
    rw [found] at binds
    contradiction
  | some frame =>
    rw [found] at binds
    exact Bindings.mem_keys_of_get? binds

/-- Whether a scope of the host covers another can be found out name by name. -/
instance (session : Session) : Decidable session.Covers :=
  decidable_of_iff
    (∀ name ∈ session.analyzer.store.names session.analyzer.base,
      (session.analyzer.store.localVariable? session.analyzer.base name).isSome →
        (session.machine.store.localVariable? session.machine.base name).isSome)
    ⟨fun listed name known => listed name (Store.mem_names known) known,
      fun covers name _ => covers name⟩

/-- Scopes of a host that are alive and stand alone, and functions that are all its own. -/
structure Surroundings.Ready (around : Surroundings) : Prop where
  /-- The scope of the analysis is alive. -/
  live : around.analysis.isLive 0
  /-- The scope of runs is alive. -/
  liveRun : around.runtime.isLive 0
  /-- There is no scope around the one of the analysis. -/
  alone : around.analysis.ancestors 0 = [0]
  /-- There is no scope around the one of runs. -/
  aloneRun : around.runtime.ancestors 0 = [0]
  /-- Runs find functions of the host alone. -/
  functions : ∀ id name arity callable,
    around.runtime.localFunction? id name arity = some callable → callable.Foreign

namespace Surroundings

variable {around : Surroundings}

/-- Extended scopes of a host are ready for programs. -/
theorem Extends.ready (extension : Embedding.bare.Extends around) : around.Ready where
  live := extension.analysis.preserves.isLive_eq (Nat.lt_succ_self 0)
  liveRun := extension.runtime.preserves.isLive_eq (Nat.lt_succ_self 0)
  alone := (extension.analysis.preserves.ancestors_eq (Nat.lt_succ_self 0)).trans
    (Store.ancestors_of_none rfl)
  aloneRun := (extension.runtime.preserves.ancestors_eq (Nat.lt_succ_self 0)).trans
    (Store.ancestors_of_none rfl)
  functions id name arity callable found := by
    rcases extension.runtime.functions id name arity callable found with earlier | foreign
    · cases id <;> cases earlier
    · exact foreign

/-- One more owner of each scope does not matter. -/
theorem Ready.retain (ready : around.Ready) :
    Ready ⟨around.analysis.retain 0, around.runtime.retain 0⟩ where
  live := (Store.isLive_retain ready.live).trans ready.live
  liveRun := (Store.isLive_retain ready.liveRun).trans ready.liveRun
  alone := (Store.ancestors_retain ready.live).trans ready.alone
  aloneRun := (Store.ancestors_retain ready.liveRun).trans ready.aloneRun
  functions id name arity callable found := by
    replace found : (around.runtime.retain 0).localFunction? id name arity = _ := found
    rw [Store.localFunction?_retain] at found
    exact ready.functions id name arity callable found

/-- An analyzer and a machine that are made inside scopes which are ready are hosted. -/
theorem Ready.hosted (ready : around.Ready) {types : TypeTable} {members : Array Members}
    {host : Host} {methods : Array (Bindings (String × Nat) Callable)}
    (foreign : ∀ object ∈ methods, ∀ key callable, object.get? key = some callable →
      callable.Foreign)
    (covered : ∀ name, ((Analyzer.inside around.analysis 0 types members).store.localVariable? 0
      name).isSome →
        ((Machine.inside around.runtime 0 host methods).store.localVariable? 0 name).isSome) :
    Hosted (.inside around.analysis 0 types members) (.inside around.runtime 0 host methods) where
  resting := rfl
  restingRun := rfl
  live := Store.isLive_global
  liveRun := Store.isLive_global
  around := Store.ancestors_global ready.live ready.alone
  aroundRun := Store.ancestors_global ready.liveRun ready.aloneRun
  empty := Store.localVariable?_global
  emptyRun := Store.localVariable?_global
  covered := covered
  functions id name arity callable found := by
    replace found : ((around.runtime.child 0).2.retain _).localFunction? id name arity = _ := found
    rw [Store.localFunction?_retain, Store.localFunction?_child] at found
    exact ready.functions id name arity callable found
  methods owner name arity callable found := by
    unfold Machine.method at found
    split at found
    next typeName id =>
      split at found
      next own held =>
        cases found
        obtain ⟨object, listed, held⟩ := Option.bind_eq_some_iff.mp held
        exact foreign object (Array.mem_of_getElem? listed) _ _ held
      next => contradiction
    next => contradiction

end Surroundings

/-- The scopes of programs without a host are ready as well: they have the builtins alone. -/
theorem Surroundings.ready_builtins : Ready
    ⟨(Builtin.defineSignatures Store.empty.root.2 0 Builtin.all).2,
      (Builtin.defineCallables Store.empty.root.2 0 Builtin.all).2⟩ :=
  Extends.ready ⟨Builtin.widens_defineSignatures _ _ _, Builtin.widens_defineCallables _ _ _⟩

/-- A session begins with an analyzer and a machine that are made inside scopes which are ready. -/
theorem Session.exists_ready {embedding : Embedding} {session : Session}
    (started : Session.start embedding = .ok session) :
    ∃ (around : Surroundings) (types : TypeTable) (members : Array Members) (host : Host)
      (methods : Array (Bindings (String × Nat) Callable)), around.Ready ∧
      session.analyzer = .inside around.analysis 0 types members ∧
      session.machine = .inside around.runtime 0 host methods ∧
      ∀ object ∈ methods, ∀ key callable, object.get? key = some callable → callable.Foreign := by
  obtain ⟨types, objects, limit, parent⟩ := embedding
  cases parent <;> simp only [Session.start, Parser.bind_eq_ok] at started
  case none =>
    obtain ⟨_, _, _, _, made, listed, _, alone, same⟩ := started
    cases alone
    cases same
    exact ⟨_, _, _, _, _, Surroundings.ready_builtins, rfl, rfl,
      Embedding.foreign_objects listed⟩
  case some declaration =>
    obtain ⟨_, _, _, _, made, listed, ⟨scope, around⟩, surrounded, _, there, same⟩ := started
    obtain ⟨rfl, extension⟩ := Embedding.extends_surroundings surrounded
    cases there
    cases same
    exact ⟨_, _, _, _, _, extension.ready.retain, rfl, rfl,
      Embedding.foreign_objects listed⟩

/-- A session of an embedding begins in the scopes of one host, if what its scope for runs binds
covers what its scope for the analysis binds. -/
theorem Session.hosted_start {embedding : Embedding} {session : Session}
    (started : Session.start embedding = .ok session) (covers : session.Covers) :
    Hosted session.analyzer session.machine := by
  obtain ⟨around, types, members, host, methods, ready, known, bound, foreign⟩ :=
    Session.exists_ready started
  rw [Session.Covers, known, bound] at covers
  rw [known, bound]
  exact ready.hosted foreign covers

end LetDef
