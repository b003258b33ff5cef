import LetDef.Proofs.Run.Frames
import LetDef.Proofs.Typing.Acceptance
import LetDef.Proofs.Typing.Admission

/-!
# Scopes of the analysis and scopes of a run

`Acceptance.Agrees` relates a state of the analysis to a state of a run: the same number of scopes
is looked up on both sides, scopes at the same depth bind the same names, and each variable holds a
value that its type admits. The relation is kept when either side changes as it may, when both enter
a scope or leave one, and when both define a variable.
-/
namespace LetDef

open Store (Evolves)
open Bindings (Adds)

namespace Machine

variable {machine before after : Machine} {scopes : FrameId → Prop} {names : List String}

/-- The state of a run without a host: there are no objects, and the base scope has the builtins and
nothing else. -/
structure Standing (machine : Machine) : Prop where
  /-- The scopes are nested. -/
  nested : machine.store.Nested machine.base machine.globals machine.active
  /-- There are no objects. -/
  bare : machine.methods = #[]
  /-- The base scope binds no variable. -/
  locals : ∀ name, machine.store.localVariable? machine.base name = none
  /-- The functions of the base scope are the builtins. -/
  functions : ∀ name arity, machine.store.localFunction? machine.base name arity =
    (Builtin.find? name arity).map Builtin.callable

/-- The scopes of a machine for programs without a host. -/
theorem frames_fresh (limit : Option Nat) : (Machine.fresh limit).store.frames =
    #[⟨none, .empty, Bindings.empty.bind ("print", 1) Builtin.print.callable, 1⟩,
      ⟨some 0, .empty, .empty, 2⟩] := rfl

/-- A machine for programs without a host. -/
theorem fresh_standing (limit : Option Nat) : (Machine.fresh limit).Standing where
  nested := Store.nested_of_frames (frames_fresh limit)
  bare := rfl
  locals := Store.localVariable?_of_frames (frames_fresh limit) _
  functions name arity := by
    rw [Store.localFunction?_of_frames (frames_fresh limit)]
    exact Analyzer.builtins_get? Builtin.callable name arity

/-- A scope binds the names that it bound, and the active one also the new ones. -/
theorem Becomes.isSome_localVariable? (becomes : before.Becomes scopes names after) {id : FrameId}
    (old : id < before.store.frames.size) (name : String) :
    (after.store.localVariable? id name).isSome =
      ((before.store.localVariable? id name).isSome ||
        name ∈ if id = before.active then names else []) := by
  obtain ⟨own, later, touched, ownName, laterName⟩ := becomes.store.localVariable? old
  rw [ownName, laterName]
  exact touched.1 name

/-- A scope out of reach binds what it did. -/
theorem Becomes.localVariable?_eq (becomes : before.Becomes scopes names after) {id : FrameId}
    (old : id < before.store.frames.size)
    (apart : id ∉ before.store.ancestors before.active) (outside : ¬ scopes id) (name : String) :
    after.store.localVariable? id name = before.store.localVariable? id name := by
  obtain ⟨own, later, touched, ownName, laterName⟩ := becomes.store.localVariable? old
  rw [ownName, laterName, touched.2 apart outside]

/-- The base scope is there. -/
theorem Standing.base_lt (standing : machine.Standing) :
    machine.base < machine.store.frames.size :=
  Nat.lt_trans standing.nested.base_lt (Store.lt_size_of_isLive standing.nested.liveGlobals)

/-- The state stands while a run changes its scopes. -/
theorem Standing.become (standing : before.Standing)
    (becomes : before.Becomes scopes names after) : after.Standing where
  nested := by
    rw [becomes.base, becomes.globals, becomes.active]
    exact standing.nested.evolve becomes.store
  bare := becomes.methods.trans standing.bare
  locals name := by
    have bound := becomes.isSome_localVariable? standing.base_lt name
    rw [standing.locals, if_neg standing.nested.active_ne_base.symm] at bound
    rw [becomes.base]
    simpa using bound
  functions name arity := by
    rw [becomes.base, becomes.store.localFunction?_eq]
    exact standing.functions name arity

/-- The state stands in a new scope. -/
theorem Standing.enter (standing : machine.Standing) : machine.enter.Standing where
  nested := standing.nested.child
  bare := standing.bare
  locals name := by
    show (machine.store.child machine.active).2.localVariable? machine.base name = none
    rw [Store.localVariable?_child, if_neg (Nat.ne_of_lt standing.base_lt)]
    exact standing.locals name
  functions name arity :=
    (Store.localFunction?_child name arity).trans (standing.functions name arity)

/-- The machine as if the global scope were active. -/
def atGlobals (machine : Machine) : Machine :=
  { machine with active := machine.globals }

/-- The state stands where the global scope is active. -/
theorem Standing.atGlobals (standing : machine.Standing) : machine.atGlobals.Standing :=
  ⟨standing.nested.atGlobals, standing.bare, standing.locals, standing.functions⟩

/-- The machine with one more owner of the global scope, which is active. -/
def retainGlobals (machine : Machine) : Machine :=
  { machine with store := machine.store.retain machine.globals, active := machine.globals }

/-- The scope of a method of the global scope is a new scope inside that. -/
theorem enterMethod_globals (machine : Machine) :
    machine.enterMethod machine.globals = machine.retainGlobals.enter := rfl

/-- The state stands with one more owner of the global scope. -/
theorem Standing.retainGlobals (standing : machine.Standing) : machine.retainGlobals.Standing where
  nested := standing.nested.atGlobals.retain standing.nested.liveGlobals
  bare := standing.bare
  locals name := (Store.localVariable?_retain name).trans (standing.locals name)
  functions name arity :=
    (Store.localFunction?_retain name arity).trans (standing.functions name arity)

/-- The global and the base scope. -/
def Outer (machine : Machine) (id : FrameId) : Prop :=
  id = machine.globals ∨ id = machine.base

/-- The functions of the global scope are all methods of the program. -/
def Loads (machine : Machine) (accepted : Acceptance) : Prop :=
  ∀ name arity, machine.store.localFunction? machine.globals name arity =
    (accepted.program.method? name arity).map (Callable.method · machine.globals)

end Machine

/-- The machine keeps the methods while a run changes scopes. -/
theorem Machine.Loads.become {accepted : Acceptance} {before after : Machine}
    {scopes : FrameId → Prop} {names : List String} (loads : before.Loads accepted)
    (becomes : before.Becomes scopes names after) : after.Loads accepted := by
  intro name arity
  rw [becomes.globals, becomes.store.localFunction?_eq]
  exact loads name arity

/-- The scopes that are looked up on both sides, those of the same depth side by side. -/
def pairedScopes (analyzer : Analyzer) (machine : Machine) : List (FrameId × FrameId) :=
  (analyzer.store.ancestors analyzer.active).zip (machine.store.ancestors machine.active)

namespace Acceptance

/-- The type admits the value, unless the program has a method of its own in the place of
`print`. -/
def Admits (accepted : Acceptance) (type : Ty) (value : Value) : Prop :=
  accepted.Unshadowed → type.Admits value

/-- The types admit the values one by one. -/
def AdmitsAll (accepted : Acceptance) : List Ty → List Value → Prop
  | [], [] => True
  | type :: types, value :: values => accepted.Admits type value ∧ accepted.AdmitsAll types values
  | _, _ => False

/-- There are as many values as types that admit them. -/
theorem AdmitsAll.length_eq {accepted : Acceptance} {types : List Ty} {values : List Value}
    (admitted : accepted.AdmitsAll types values) : values.length = types.length := by
  induction types generalizing values with
  | nil =>
    cases values with
    | nil => rfl
    | cons value values => exact admitted.elim
  | cons type types ih =>
    cases values with
    | nil => exact admitted.elim
    | cons value values => rw [List.length_cons, List.length_cons, ih admitted.2]

/-- Before the methods, neither side has functions in the global scope; from then on the analysis
knows some methods of the program, and the machine has all of them. -/
def InPhase (accepted : Acceptance) (analyzer : Analyzer) (machine : Machine) : Prop :=
  ((∀ name arity, analyzer.store.localFunction? analyzer.globals name arity = none) ∧
    ∀ name arity, machine.store.localFunction? machine.globals name arity = none) ∨
  (analyzer.Knows accepted ∧ machine.Loads accepted)

/-- A state of the analysis and a state of a run agree in their scopes. -/
structure Agrees (accepted : Acceptance) (analyzer : Analyzer) (machine : Machine) : Prop where
  /-- The analysis stands. -/
  standing : analyzer.Standing
  /-- The run stands. -/
  running : machine.Standing
  /-- As many scopes are looked up. -/
  depth : (analyzer.store.ancestors analyzer.active).length =
    (machine.store.ancestors machine.active).length
  /-- Scopes of the same depth bind the same names, to values that their types admit. -/
  values : ∀ pair ∈ pairedScopes analyzer machine, ∀ name,
    Option.Rel (fun entry value => accepted.Admits entry.type value)
      (analyzer.store.localVariable? pair.1 name) (machine.store.localVariable? pair.2 name)
  /-- Both are before the methods, or both after. -/
  phase : accepted.InPhase analyzer machine

end Acceptance

section Pairs

variable {analyzer later : Analyzer} {machine after : Machine} {scopes : FrameId → Prop}
variable {names : List String} {pair other : FrameId × FrameId}

/-- Of two scopes side by side, the first is looked up by the analysis and the second by the run. -/
theorem mem_of_mem_pairedScopes (member : pair ∈ pairedScopes analyzer machine) :
    pair.1 ∈ analyzer.store.ancestors analyzer.active ∧
      pair.2 ∈ machine.store.ancestors machine.active :=
  List.of_mem_zip member

/-- Scopes side by side are there. -/
theorem lt_size_of_mem_pairedScopes (live : analyzer.store.isLive analyzer.active)
    (liveRun : machine.store.isLive machine.active)
    (member : pair ∈ pairedScopes analyzer machine) :
    pair.1 < analyzer.store.frames.size ∧ pair.2 < machine.store.frames.size := by
  obtain ⟨first, second⟩ := mem_of_mem_pairedScopes member
  exact ⟨Nat.lt_of_le_of_lt (Store.le_of_mem_ancestors first) (Store.lt_size_of_isLive live),
    Nat.lt_of_le_of_lt (Store.le_of_mem_ancestors second) (Store.lt_size_of_isLive liveRun)⟩

/-- The active scopes are side by side. -/
theorem active_mem_pairedScopes (analyzer : Analyzer) (machine : Machine) :
    (analyzer.active, machine.active) ∈ pairedScopes analyzer machine := by
  obtain ⟨rest, first⟩ := analyzer.store.ancestors_eq_cons analyzer.active
  obtain ⟨others, second⟩ := machine.store.ancestors_eq_cons machine.active
  rw [pairedScopes, first, second, List.zip_cons_cons]
  exact List.mem_cons_self

/-- No scope is side by side with two others. -/
theorem pairedScopes_unique (member : pair ∈ pairedScopes analyzer machine)
    (otherMember : other ∈ pairedScopes analyzer machine) :
    pair.1 = other.1 ↔ pair.2 = other.2 := by
  rw [pairedScopes] at member otherMember
  have sorted := analyzer.store.ancestors_sorted analyzer.active
  have sortedRun := machine.store.ancestors_sorted machine.active
  generalize machine.store.ancestors machine.active = bound at *
  generalize analyzer.store.ancestors analyzer.active = known at *
  induction known generalizing bound with
  | nil => simp at member
  | cons first rest ih =>
    cases bound with
    | nil => simp at member
    | cons second others =>
      rw [List.zip_cons_cons, List.mem_cons] at member otherMember
      rw [List.pairwise_cons] at sorted sortedRun
      rcases member with rfl | member <;> rcases otherMember with rfl | otherMember
      · simp only
      · obtain ⟨behind, behindRun⟩ := List.of_mem_zip otherMember
        have one := Nat.ne_of_gt (sorted.1 _ behind)
        have two := Nat.ne_of_gt (sortedRun.1 _ behindRun)
        exact ⟨fun same => absurd same one, fun same => absurd same two⟩
      · obtain ⟨behind, behindRun⟩ := List.of_mem_zip member
        have one := Nat.ne_of_gt (sorted.1 _ behind)
        have two := Nat.ne_of_gt (sortedRun.1 _ behindRun)
        exact ⟨fun same => absurd same.symm one, fun same => absurd same.symm two⟩
      · exact ih others sortedRun.2 sorted.2 member otherMember

/-- The same scopes are side by side after the analysis has changed the active one. -/
theorem pairedScopes_grow (live : analyzer.store.isLive analyzer.active)
    (grown : analyzer.Grows later) :
    pairedScopes later machine = pairedScopes analyzer machine := by
  rw [pairedScopes, grown.active, grown.store.ancestors_eq (Store.lt_size_of_isLive live),
    pairedScopes]

/-- The same scopes are side by side after a run has changed them. -/
theorem pairedScopes_become (live : machine.store.isLive machine.active)
    (becomes : machine.Becomes scopes names after) :
    pairedScopes analyzer after = pairedScopes analyzer machine := by
  rw [pairedScopes, becomes.active, becomes.store.ancestors_eq (Store.lt_size_of_isLive live),
    pairedScopes]

/-- New scopes are side by side, in front of the others. -/
theorem pairedScopes_enter (live : analyzer.store.isLive analyzer.active)
    (liveRun : machine.store.isLive machine.active) :
    pairedScopes analyzer.enter machine.enter =
      (analyzer.enter.active, machine.enter.active) :: pairedScopes analyzer machine := by
  have first := Store.ancestors_child_self live
  have second := Store.ancestors_child_self liveRun
  show List.zip ((analyzer.store.child analyzer.active).2.ancestors analyzer.store.frames.size)
    ((machine.store.child machine.active).2.ancestors machine.store.frames.size) = _
  rw [first, second]
  rfl

/-- Owners do not matter to the scopes that are looked up. -/
theorem pairedScopes_retainGlobals (live : machine.store.isLive machine.globals) :
    pairedScopes analyzer machine.retainGlobals = pairedScopes analyzer machine.atGlobals := by
  show List.zip _ ((machine.store.retain machine.globals).ancestors machine.globals) = _
  rw [Store.ancestors_retain live]
  rfl

end Pairs

namespace Acceptance.Agrees

variable {accepted : Acceptance} {analyzer later : Analyzer} {machine after : Machine}
variable {scopes : FrameId → Prop} {names : List String}

/-- The active scope of the analysis is alive. -/
theorem live (agrees : accepted.Agrees analyzer machine) :
    analyzer.store.isLive analyzer.active :=
  agrees.standing.nested.live

/-- The active scope of the run is alive. -/
theorem liveRun (agrees : accepted.Agrees analyzer machine) :
    machine.store.isLive machine.active :=
  agrees.running.nested.live

/-- The global scopes are side by side, and so are the base scopes; the others are neither. -/
theorem pairedScopes_eq (agrees : accepted.Agrees analyzer machine) :
    ∃ inner, pairedScopes analyzer machine =
        inner ++ [(analyzer.globals, machine.globals), (analyzer.base, machine.base)] ∧
      ∀ pair ∈ inner, pair.1 ≠ analyzer.globals ∧ pair.2 ≠ machine.globals ∧
        pair.2 ≠ machine.base := by
  obtain ⟨known, first, knownOthers⟩ := agrees.standing.nested.exists_inner
  obtain ⟨bound, second, boundOthers⟩ := agrees.running.nested.exists_inner
  have depth := agrees.depth
  rw [first, second, List.length_append, List.length_append] at depth
  refine ⟨known.zip bound, ?_, fun pair member => ?_⟩
  · rw [pairedScopes, first, second, List.zip_append (Nat.add_right_cancel depth)]
    rfl
  · obtain ⟨knownMember, boundMember⟩ := List.of_mem_zip member
    exact ⟨(knownOthers _ knownMember).1, boundOthers _ boundMember⟩

/-- Scopes side by side bind the same names. -/
theorem isSome_eq (agrees : accepted.Agrees analyzer machine) {pair : FrameId × FrameId}
    (member : pair ∈ pairedScopes analyzer machine) (name : String) :
    (machine.store.localVariable? pair.2 name).isSome =
      (analyzer.store.localVariable? pair.1 name).isSome := by
  have related := agrees.values pair member name
  generalize analyzer.store.localVariable? pair.1 name = known at related ⊢
  generalize machine.store.localVariable? pair.2 name = bound at related ⊢
  cases related <;> rfl

/-- A state agrees with the run after the analysis has made scopes and left them. -/
theorem extend (agrees : accepted.Agrees analyzer machine) (extension : analyzer.Extends later) :
    accepted.Agrees later machine where
  standing := agrees.standing.grow extension.grows
  running := agrees.running
  depth := by
    have old := Store.lt_size_of_isLive agrees.live
    rw [extension.active, extension.store.ancestors_eq old]
    exact agrees.depth
  values pair member name := by
    rw [pairedScopes_grow agrees.live extension.grows] at member
    have old := (lt_size_of_mem_pairedScopes agrees.live agrees.liveRun member).1
    rw [extension.localVariable?_eq old]
    exact agrees.values pair member name
  phase := by
    rcases agrees.phase with ⟨none, blank⟩ | ⟨knows, loads⟩
    · refine .inl ⟨fun name arity => ?_, blank⟩
      rw [extension.globals, extension.store.localFunction?_eq]
      exact none name arity
    · exact .inr ⟨knows.extend agrees.standing extension, loads⟩

/-- The machine has the functions that it had. -/
theorem phase_become (phase : accepted.InPhase analyzer machine)
    (becomes : machine.Becomes scopes names after) : accepted.InPhase analyzer after := by
  rcases phase with ⟨none, blank⟩ | ⟨knows, loads⟩
  · refine .inl ⟨none, fun name arity => ?_⟩
    rw [becomes.globals, becomes.store.localFunction?_eq]
    exact blank name arity
  · exact .inr ⟨knows, loads.become becomes⟩

/-- A state agrees with the run after that has changed scopes without adding names, if the values
are admitted. -/
theorem become (agrees : accepted.Agrees analyzer machine)
    (becomes : machine.Becomes scopes [] after)
    (admitted : ∀ pair ∈ pairedScopes analyzer machine, ∀ name entry value,
      analyzer.store.localVariable? pair.1 name = some entry →
      after.store.localVariable? pair.2 name = some value → accepted.Admits entry.type value) :
    accepted.Agrees analyzer after where
  standing := agrees.standing
  running := agrees.running.become becomes
  depth := by
    have old := Store.lt_size_of_isLive agrees.liveRun
    rw [becomes.active, becomes.store.ancestors_eq old]
    exact agrees.depth
  values pair member name := by
    rw [pairedScopes_become agrees.liveRun becomes] at member
    have old := (lt_size_of_mem_pairedScopes agrees.live agrees.liveRun member).2
    have bound := becomes.isSome_localVariable? old name
    rw [ite_self, agrees.isSome_eq member] at bound
    cases known : analyzer.store.localVariable? pair.1 name with
    | none =>
      have unbound : after.store.localVariable? pair.2 name = none := by
        simpa [known] using bound
      rw [unbound]
      exact .none
    | some entry =>
      obtain ⟨value, held⟩ : ∃ value, after.store.localVariable? pair.2 name = some value := by
        simpa [known, Option.isSome_iff_exists] using bound
      rw [held]
      exact .some (admitted pair member name entry value known held)
  phase := phase_become agrees.phase becomes

/-- Both sides agree in a new scope on each. -/
theorem enter (agrees : accepted.Agrees analyzer machine) :
    accepted.Agrees analyzer.enter machine.enter where
  standing := agrees.standing.enter
  running := agrees.running.enter
  depth := by
    have first := Store.ancestors_child_self agrees.live
    have second := Store.ancestors_child_self agrees.liveRun
    show ((analyzer.store.child analyzer.active).2.ancestors analyzer.store.frames.size).length =
      ((machine.store.child machine.active).2.ancestors machine.store.frames.size).length
    rw [first, second, List.length_cons, List.length_cons, agrees.depth]
  values pair member name := by
    rw [pairedScopes_enter agrees.live agrees.liveRun] at member
    show Option.Rel _ ((analyzer.store.child analyzer.active).2.localVariable? pair.1 name)
      ((machine.store.child machine.active).2.localVariable? pair.2 name)
    rw [Store.localVariable?_child, Store.localVariable?_child]
    rcases List.mem_cons.mp member with rfl | member
    · have known : analyzer.enter.active = analyzer.store.frames.size := rfl
      have bound : machine.enter.active = machine.store.frames.size := rfl
      rw [if_pos known, if_pos bound]
      exact .none
    · have old := lt_size_of_mem_pairedScopes agrees.live agrees.liveRun member
      rw [if_neg (Nat.ne_of_lt old.1), if_neg (Nat.ne_of_lt old.2)]
      exact agrees.values pair member name
  phase := by
    rcases agrees.phase with ⟨none, blank⟩ | ⟨knows, loads⟩
    · exact .inl ⟨fun name arity => (Store.localFunction?_child name arity).trans (none name arity),
        fun name arity => (Store.localFunction?_child name arity).trans (blank name arity)⟩
    · exact .inr ⟨knows.enter agrees.standing,
        fun name arity => (Store.localFunction?_child name arity).trans (loads name arity)⟩

/-- Where the analysis can define a variable, so can the run. -/
theorem define (agrees : accepted.Agrees analyzer machine) {entry : Variable} {value : Value}
    (inner : machine.Loads accepted → analyzer.active ≠ analyzer.globals)
    (defined : analyzer.define entry = (.ok (), later))
    (admitted : accepted.Admits entry.type value) :
    ∃ after, machine.define entry.name value = (true, after) ∧ accepted.Agrees later after := by
  have grown := Analyzer.Grows.ofDefine defined
  obtain ⟨free, same⟩ := Analyzer.define_eq_ok.mp defined
  have unbound : machine.store.localVariable? machine.active entry.name = none := by
    have bound := agrees.isSome_eq (active_mem_pairedScopes analyzer machine) entry.name
    simpa [free] using bound
  obtain ⟨after, bound⟩ : ∃ after, machine.define entry.name value = (true, after) := by
    rw [Machine.define_eq, unbound]
    exact ⟨_, rfl⟩
  have becomes : machine.Becomes (fun _ => True) [entry.name] after :=
    Machine.Becomes.ofDefine bound
  rw [Machine.define_eq, unbound] at bound
  injection bound with _ sameMachine
  refine ⟨after, ?_, ?_⟩
  · rw [Machine.define_eq, unbound, ← sameMachine]
    rfl
  have oldActive := Store.lt_size_of_isLive agrees.live
  have oldRun := Store.lt_size_of_isLive agrees.liveRun
  refine ⟨agrees.standing.grow grown, agrees.running.become becomes, ?_, ?_, ?_⟩
  · rw [grown.active, grown.store.ancestors_eq oldActive, becomes.active,
      becomes.store.ancestors_eq oldRun]
    exact agrees.depth
  · intro pair member name
    rw [pairedScopes_grow agrees.live grown,
      pairedScopes_become agrees.liveRun becomes] at member
    have related := agrees.values pair member name
    rw [same, ← sameMachine]
    show Option.Rel _ ((analyzer.store.bindVariable _ _ _).localVariable? _ _)
      ((machine.store.bindVariable _ _ _).localVariable? _ _)
    rw [Store.localVariable?_bindVariable oldActive, Store.localVariable?_bindVariable oldRun]
    have both := pairedScopes_unique member (active_mem_pairedScopes analyzer machine)
    by_cases new : pair.2 = machine.active ∧ name = entry.name
    · rw [if_pos new, if_pos ⟨both.mpr new.1, new.2⟩]
      exact .some admitted
    · rw [if_neg new, if_neg fun known => new ⟨both.mp known.1, known.2⟩]
      exact related
  · refine phase_become ?_ becomes
    rcases agrees.phase with ⟨none, blank⟩ | ⟨knows, loads⟩
    · refine .inl ⟨fun name arity => ?_, blank⟩
      rw [grown.globals, grown.store.localFunction?_eq]
      exact none name arity
    · exact .inr ⟨knows.grow agrees.standing (inner loads) grown, loads⟩

/-- Where the analysis can define variables for parameters, the run can define them for
arguments. -/
theorem defineAll (agrees : accepted.Agrees analyzer machine) {entries : List Variable}
    {values : List Value} (inner : analyzer.active ≠ analyzer.globals)
    (defined : analyzer.defineAll entries = (.ok (), later))
    (admitted : accepted.AdmitsAll (entries.map Variable.type) values) :
    ∃ after, machine.defineAll ((entries.map Variable.name).zip values) = (none, after) ∧
      accepted.Agrees later after := by
  induction entries generalizing analyzer machine values with
  | nil =>
    injection defined with _ same
    exact ⟨machine, rfl, same ▸ agrees⟩
  | cons first rest ih =>
    cases values with
    | nil => exact admitted.elim
    | cons value values =>
      cases begun : analyzer.define first with
      | mk result between =>
        simp only [Analyzer.defineAll, begun] at defined
        cases result with
        | error error => cases defined
        | ok done =>
          have grown := Analyzer.Grows.ofDefine begun
          obtain ⟨next, bound, agreesNext⟩ := agrees.define (fun _ => inner) begun admitted.1
          have innerNext : between.active ≠ between.globals := by
            rw [grown.active, grown.globals]
            exact inner
          obtain ⟨after, boundRest, agreesAfter⟩ := ih agreesNext innerNext defined admitted.2
          refine ⟨after, ?_, agreesAfter⟩
          simp only [List.map_cons, List.zip_cons_cons, Machine.defineAll, bound]
          exact boundRest

/-- The methods that a machine in agreement can call were defined in the global scope. -/
theorem confined (agrees : accepted.Agrees analyzer machine) :
    machine.Confined machine.Outer where
  placed := Store.lt_size_of_isLive agrees.liveRun
  functions id name arity callable found := by
    by_cases atGlobals : id = machine.globals
    · subst atGlobals
      rcases agrees.phase with ⟨_, blank⟩ | ⟨_, loads⟩
      · rw [blank] at found
        contradiction
      · rw [loads] at found
        obtain ⟨declared, _, rfl⟩ := Option.map_eq_some_iff.mp found
        refine ⟨Store.lt_size_of_isLive agrees.running.nested.liveGlobals, fun id member => ?_⟩
        rw [agrees.running.nested.outer] at member
        simpa [Machine.Outer] using member
    · by_cases atBase : id = machine.base
      · subst atBase
        rw [agrees.running.functions] at found
        obtain ⟨builtin, _, rfl⟩ := Option.map_eq_some_iff.mp found
        cases builtin
        trivial
      · rw [agrees.running.nested.bare id atGlobals atBase] at found
        contradiction
  methods owner name arity callable found := by
    cases owner <;> simp [Machine.method, agrees.running.bare] at found

/-- Both sides agree again after work in a scope of its own. -/
theorem leave (agrees : accepted.Agrees analyzer machine) {innerAnalyzer : Analyzer}
    {innerMachine : Machine} (grown : analyzer.enter.Grows innerAnalyzer)
    (becomes : machine.enter.Becomes scopes names innerMachine)
    (inner : accepted.Agrees innerAnalyzer innerMachine) :
    accepted.Agrees analyzer (innerMachine.leave machine.active) := by
  refine agrees.become (Machine.Becomes.ofEntered becomes) fun pair member name entry value known
    held => ?_
  have old := lt_size_of_mem_pairedScopes agrees.live agrees.liveRun member
  have memberInner : pair ∈ pairedScopes innerAnalyzer innerMachine := by
    rw [pairedScopes_grow agrees.standing.enter.nested.live grown,
      pairedScopes_become agrees.running.enter.nested.live becomes,
      pairedScopes_enter agrees.live agrees.liveRun]
    exact List.mem_cons_of_mem _ member
  have knownInner : innerAnalyzer.store.localVariable? pair.1 name = some entry := by
    have apart : pair.1 ≠ analyzer.enter.active := Nat.ne_of_lt old.1
    have there : pair.1 < analyzer.enter.store.frames.size := by
      show pair.1 < (analyzer.store.child analyzer.active).2.frames.size
      rw [Store.size_child]
      exact Nat.lt_succ_of_lt old.1
    rw [grown.localVariable?_eq there apart]
    show (analyzer.store.child analyzer.active).2.localVariable? pair.1 name = some entry
    rw [Store.localVariable?_child, if_neg (Nat.ne_of_lt old.1)]
    exact known
  have heldInner : innerMachine.store.localVariable? pair.2 name = some value :=
    (Store.localVariable?_release name).symm.trans held
  have related := inner.values pair memberInner name
  rw [knownInner, heldInner] at related
  cases related with
  | some admitted => exact admitted

/-- A method is called where both sides agree in the global scope. -/
theorem callee (agrees : accepted.Agrees analyzer machine) (knows : analyzer.Knows accepted)
    (loads : machine.Loads accepted) {resting : Analyzer} (rests : resting.Rests accepted) :
    accepted.Agrees resting machine.atGlobals := by
  have first : resting.store.ancestors resting.active = [resting.globals, resting.base] := by
    rw [rests.resting]
    exact rests.standing.nested.outer
  have second : machine.atGlobals.store.ancestors machine.atGlobals.active =
      [machine.globals, machine.base] := agrees.running.nested.outer
  refine ⟨rests.standing, agrees.running.atGlobals, ?_, ?_, .inr ⟨rests.knows, loads⟩⟩
  · rw [first, second]
    rfl
  · intro pair member name
    have both : pairedScopes resting machine.atGlobals =
        [(resting.globals, machine.globals), (resting.base, machine.base)] := by
      rw [pairedScopes, first, second]
      rfl
    rw [both, List.mem_cons, List.mem_singleton] at member
    obtain ⟨inner, pairs, _⟩ := agrees.pairedScopes_eq
    rcases member with rfl | rfl
    · have related := agrees.values (analyzer.globals, machine.globals)
        (pairs ▸ List.mem_append_right _ List.mem_cons_self) name
      rw [rests.knows.locals, ← knows.locals]
      exact related
    · have unbound : machine.atGlobals.store.localVariable? machine.base name = none :=
        agrees.running.locals name
      rw [rests.standing.locals, unbound]
      exact .none

/-- Owners do not matter to the agreement. -/
theorem retainGlobals (agrees : accepted.Agrees analyzer machine.atGlobals) :
    accepted.Agrees analyzer machine.retainGlobals where
  standing := agrees.standing
  running := agrees.running.retainGlobals
  depth := by
    have live : machine.store.isLive machine.globals := agrees.running.nested.liveGlobals
    show _ = ((machine.store.retain machine.globals).ancestors machine.globals).length
    rw [Store.ancestors_retain live]
    exact agrees.depth
  values pair member name := by
    have live : machine.store.isLive machine.globals := agrees.running.nested.liveGlobals
    rw [pairedScopes_retainGlobals live] at member
    show Option.Rel _ _ ((machine.store.retain machine.globals).localVariable? pair.2 name)
    rw [Store.localVariable?_retain]
    exact agrees.values pair member name
  phase := by
    rcases agrees.phase with ⟨none, blank⟩ | ⟨knows, loads⟩
    · exact .inl ⟨none,
        fun name arity => (Store.localFunction?_retain name arity).trans (blank name arity)⟩
    · exact .inr ⟨knows,
        fun name arity => (Store.localFunction?_retain name arity).trans (loads name arity)⟩

/-- Both sides agree in the scope of a method. -/
theorem enterMethod (agrees : accepted.Agrees analyzer machine.atGlobals) :
    accepted.Agrees analyzer.enter (machine.enterMethod machine.globals) := by
  rw [Machine.enterMethod_globals]
  exact agrees.retainGlobals.enter

/-- After a call, both sides agree as they did before it, given what the global scope holds then. -/
theorem resume (agrees : accepted.Agrees analyzer machine) (knows : analyzer.Knows accepted)
    {resting : Analyzer} (rests : resting.Rests accepted)
    (becomes : machine.Becomes machine.Outer [] after)
    (inside : machine.atGlobals.Becomes machine.Outer [] after.atGlobals)
    (returned : accepted.Agrees resting after.atGlobals) : accepted.Agrees analyzer after := by
  refine agrees.become becomes fun pair member name entry value known held => ?_
  obtain ⟨inner, pairs, others⟩ := agrees.pairedScopes_eq
  have old := lt_size_of_mem_pairedScopes agrees.live agrees.liveRun member
  have related := agrees.values pair member name
  rw [pairs, List.mem_append, List.mem_cons, List.mem_singleton] at member
  rcases member with member | rfl | rfl
  · obtain ⟨_, notGlobals, notBase⟩ := others pair member
    have apart : pair.2 ∉ machine.atGlobals.store.ancestors machine.atGlobals.active := by
      have outer : machine.atGlobals.store.ancestors machine.atGlobals.active =
          [machine.globals, machine.base] := agrees.running.nested.outer
      rw [outer, List.mem_cons, List.mem_singleton]
      exact fun either => either.elim notGlobals notBase
    have same := inside.localVariable?_eq old.2 apart
      (fun outer => outer.elim notGlobals notBase) name
    replace same : after.store.localVariable? pair.2 name =
      machine.store.localVariable? pair.2 name := same
    rw [same] at held
    rw [known, held] at related
    cases related with
    | some admitted => exact admitted
  · have active := active_mem_pairedScopes resting after.atGlobals
    have returnedRelated := returned.values _ active name
    rw [rests.resting, rests.knows.locals, ← knows.locals, known] at returnedRelated
    have heldGlobals : after.atGlobals.store.localVariable? after.atGlobals.active name =
        some value := by
      show after.store.localVariable? after.globals name = some value
      rw [becomes.globals]
      exact held
    rw [heldGlobals] at returnedRelated
    cases returnedRelated with
    | some admitted => exact admitted
  · rw [agrees.standing.locals] at known
    contradiction

/-- The output and the fields of objects do not matter to the agreement. -/
theorem host (agrees : accepted.Agrees analyzer machine) (host : Host) :
    accepted.Agrees analyzer { machine with host } :=
  ⟨agrees.standing, ⟨agrees.running.nested, agrees.running.bare, agrees.running.locals,
    agrees.running.functions⟩, agrees.depth, agrees.values, agrees.phase⟩

/-- The type of the results does not matter to the agreement. -/
theorem returns (agrees : accepted.Agrees analyzer machine) (returns : Option Ty) :
    accepted.Agrees { analyzer with returns } machine := by
  refine ⟨⟨agrees.standing.nested, agrees.standing.bare, agrees.standing.locals,
    agrees.standing.functions⟩, agrees.running, agrees.depth, agrees.values, ?_⟩
  rcases agrees.phase with before | ⟨knows, loads⟩
  · exact .inl before
  · exact .inr ⟨⟨knows.globals, knows.locals, knows.functions⟩, loads⟩

/-- Where a machine has the methods, the analysis has the fields. -/
theorem knows (agrees : accepted.Agrees analyzer machine) (loads : machine.Loads accepted) :
    analyzer.Knows accepted := by
  rcases agrees.phase with ⟨_, blank⟩ | ⟨knows, _⟩
  · obtain ⟨declared, member, answers⟩ := accepted.exists_main
    have loaded := loads "main" 0
    rw [blank, accepted.method?_eq_some_iff.mpr ⟨member, answers⟩] at loaded
    contradiction
  · exact knows

end Acceptance.Agrees

end LetDef
