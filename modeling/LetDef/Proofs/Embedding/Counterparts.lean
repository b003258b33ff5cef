import LetDef.Proofs.Agreement.Scopes
import LetDef.Proofs.Embedding.Isolation
import LetDef.Proofs.Typing.Sharing

/-!
# Scopes side by side for any host

Where a host has object types, the scopes of the analysis and those of a run no longer bind the same
names: a selection makes a name known to the analysis alone. `HostedRun.Beside` says what still
holds of scopes at the same depth. A name that the run binds the analysis has bound for the same
reason (`Program.Counterparts`), unless only runs know it, from the host; and a name that the
analysis binds alone is one that a selection has made known there (`Program.Shares`). This is kept
by whatever the two sides do.
-/
namespace LetDef

/-- An analyzer and a machine in the scopes of one host, before any program. Whatever variable the
host gives the analysis it also gives runs. -/
structure Hosted (analyzer : Analyzer) (machine : Machine) : Prop where
  /-- The global scope of the analysis is active. -/
  resting : analyzer.active = analyzer.globals
  /-- The global scope of the run is active. -/
  restingRun : machine.active = machine.globals
  /-- The global scope of the analysis is alive. -/
  live : analyzer.store.isLive analyzer.globals
  /-- The global scope of the run is alive. -/
  liveRun : machine.store.isLive machine.globals
  /-- Around the global scope of the analysis there is its base scope alone. -/
  around : analyzer.store.ancestors analyzer.globals = [analyzer.globals, analyzer.base]
  /-- Around the global scope of the run there is its base scope alone. -/
  aroundRun : machine.store.ancestors machine.globals = [machine.globals, machine.base]
  /-- The global scope of the analysis binds no variable. -/
  empty : ∀ name, analyzer.store.localVariable? analyzer.globals name = none
  /-- The global scope of the run binds no variable. -/
  emptyRun : ∀ name, machine.store.localVariable? machine.globals name = none
  /-- The base scope of the run binds the variables of that of the analysis. -/
  covered : ∀ name, (analyzer.store.localVariable? analyzer.base name).isSome →
    (machine.store.localVariable? machine.base name).isSome
  /-- The run knows no functions but those of the host. -/
  functions : ∀ id name arity callable,
    machine.store.localFunction? id name arity = some callable → callable.Foreign
  /-- The methods of objects are functions of the host. -/
  methods : ∀ owner name arity callable, machine.method owner name arity = .ok callable →
    callable.Foreign

/-- A scope of the analysis and a scope of a run bind a name for one reason: they are the scopes of
the host and both bind it from the beginning, or one construct of the program has bound it in both,
where it was analysed and where a run of the program came to it. -/
inductive Program.Counterparts (source program : Program) (fuel : Nat) (first : Analyzer)
    (start : Machine) : FrameId → FrameId → String → Prop where
  | host {name} (known : (first.store.localVariable? first.base name).isSome)
    (bound : (start.store.localVariable? start.base name).isSome) :
    Counterparts source program fuel first start first.base start.base name
  | construct {site spot task known bound name} (visits : source.Visits first site spot)
    (reached : program.Reaches fuel start site task) (binds : spot.Binds known name)
    (bindsRun : task.Binds bound name) :
    Counterparts source program fuel first start known bound name

/-- A program that is accepted under a host, and a run of it there. -/
structure HostedRun where
  /-- The program as it was read. -/
  source : Program
  /-- The program with its slots filled. -/
  program : Program
  /-- The state before the program. -/
  first : Analyzer
  /-- The state after the fields. -/
  loaded : Analyzer
  /-- The state after the methods. -/
  last : Analyzer
  /-- The state in which the run begins. -/
  start : Machine
  /-- The fuel of the run. -/
  fuel : Nat
  /-- Both begin in the scopes of the host. -/
  hosted : Hosted first start
  /-- The fields are accepted. -/
  fields : Visit.each Field.analyze source.fields first = ⟨program.fields, .ok (), loaded⟩
  /-- The methods are accepted. -/
  methods : Visit.each Method.analyze source.methods loaded = ⟨program.methods, .ok (), last⟩

namespace HostedRun

/-- The analysis comes to this spot. -/
def Visits (run : HostedRun) : Address → Spot → Prop :=
  run.source.Visits run.first

/-- The run comes to this task. -/
def Reaches (run : HostedRun) : Address → Task → Prop :=
  run.program.Reaches run.fuel run.start

/-- The analysis adds the name of a selected field to the scope. -/
def Shares (run : HostedRun) : FrameId → String → Prop :=
  run.source.Shares run.first

/-- The scopes bind the name for one reason. -/
def Counterparts (run : HostedRun) : FrameId → FrameId → String → Prop :=
  run.source.Counterparts run.program run.fuel run.first run.start

/-- What is said of a name in scopes at the same depth, by whether the analysis and whether the run
binds it. If the run alone binds it, the host has given it to runs alone. -/
inductive Matches (run : HostedRun) (known bound : FrameId) (name : String) :
    Bool → Bool → Prop where
  | neither : Matches run known bound name false false
  | both (same : run.Counterparts known bound name) : Matches run known bound name true true
  | shared (shares : run.Shares known name) : Matches run known bound name true false
  | hidden (base : bound = run.start.base)
    (unknown : run.first.store.localVariable? run.first.base name = none)
    (given : (run.start.store.localVariable? run.start.base name).isSome) :
    Matches run known bound name false true

/-- A scope of the analysis may gain names that the run binds as well, for one reason, and shared
ones. -/
theorem Matches.gain {run : HostedRun} {known bound : FrameId} {name : String} {names : List String}
    {one two : Bindings String Variable} {holds : Bool}
    (before : run.Matches known bound name (one.get? name).isSome holds)
    (gained : one.Gains (run.Shares known) names two) (inner : bound ≠ run.start.base)
    (new : name ∈ names → run.Counterparts known bound name) :
    run.Matches known bound name (two.get? name).isSome (holds || name ∈ names) := by
  obtain ⟨kept, gained⟩ := gained name
  by_cases listed : name ∈ names
  · rw [kept (.inr listed), decide_eq_true listed, Bool.or_true]
    exact .both (new listed)
  · rw [decide_eq_false listed, Bool.or_false]
    generalize held : (one.get? name).isSome = knows at before
    cases before with
    | neither =>
      cases added : (two.get? name).isSome with
      | false => exact .neither
      | true =>
        rcases gained added with earlier | member | shares
        · rw [held] at earlier
          contradiction
        · contradiction
        · exact .shared shares
    | both same =>
      rw [kept (.inl held)]
      exact .both same
    | shared shares =>
      rw [kept (.inl held)]
      exact .shared shares
    | hidden base _ _ => exact absurd base inner

/-- The scopes of the analysis and of the run lie side by side. -/
structure Beside (run : HostedRun) (analyzer : Analyzer) (machine : Machine) : Prop where
  /-- The active scope of the analysis is alive. -/
  live : analyzer.store.isLive analyzer.active
  /-- The active scope of the run is alive. -/
  liveRun : machine.store.isLive machine.active
  /-- The base scope of the run is that of the host. -/
  base : machine.base = run.start.base
  /-- The active scope of the run is younger than that. -/
  inside : machine.base < machine.active
  /-- No scope that is looked up is older than the base scope. -/
  bottom : ∀ id ∈ machine.store.ancestors machine.active, machine.base ≤ id
  /-- As many scopes are looked up. -/
  depth : (analyzer.store.ancestors analyzer.active).length =
    (machine.store.ancestors machine.active).length
  /-- Scopes at the same depth match. -/
  pairs : ∀ pair ∈ pairedScopes analyzer machine, ∀ name, run.Matches pair.1 pair.2 name
    (analyzer.store.localVariable? pair.1 name).isSome
    (machine.store.localVariable? pair.2 name).isSome

namespace Beside

variable {run : HostedRun} {analyzer later : Analyzer} {machine after : Machine}
variable {scopes : FrameId → Prop} {names : List String}

/-- States are side by side as others are if the same scopes are looked up in them and these bind
the same names. -/
theorem carry (beside : run.Beside analyzer machine) (live : later.store.isLive later.active)
    (liveRun : after.store.isLive after.active) (base : after.base = machine.base)
    (inside : after.base < after.active)
    (path : later.store.ancestors later.active = analyzer.store.ancestors analyzer.active)
    (pathRun : after.store.ancestors after.active = machine.store.ancestors machine.active)
    (locals : ∀ id ∈ analyzer.store.ancestors analyzer.active, ∀ name,
      (later.store.localVariable? id name).isSome = (analyzer.store.localVariable? id name).isSome)
    (localsRun : ∀ id ∈ machine.store.ancestors machine.active, ∀ name,
      (after.store.localVariable? id name).isSome = (machine.store.localVariable? id name).isSome) :
    run.Beside later after where
  live := live
  liveRun := liveRun
  base := base.trans beside.base
  inside := inside
  bottom := by
    rw [pathRun, base]
    exact beside.bottom
  depth := by rw [path, pathRun, beside.depth]
  pairs pair member name := by
    rw [pairedScopes, path, pathRun] at member
    obtain ⟨first, second⟩ := List.of_mem_zip member
    rw [locals _ first, localsRun _ second]
    exact beside.pairs pair member name

/-- What both sides gain has to have one reason; then they are side by side afterwards. -/
theorem pass (beside : run.Beside analyzer machine)
    (gains : analyzer.Gains run.Shares names later)
    (becomes : machine.Becomes scopes names after)
    (new : ∀ name ∈ names, run.Counterparts analyzer.active machine.active name) :
    run.Beside later after where
  live := by
    rw [gains.active, gains.store.isLive_eq (Store.lt_size_of_isLive beside.live)]
    exact beside.live
  liveRun := by
    rw [becomes.active, becomes.store.isLive_eq (Store.lt_size_of_isLive beside.liveRun)]
    exact beside.liveRun
  base := becomes.base.trans beside.base
  inside := by
    rw [becomes.base, becomes.active]
    exact beside.inside
  bottom := by
    rw [becomes.active, becomes.store.ancestors_eq (Store.lt_size_of_isLive beside.liveRun),
      becomes.base]
    exact beside.bottom
  depth := by
    rw [gains.active, gains.store.ancestors_eq (Store.lt_size_of_isLive beside.live),
      becomes.active, becomes.store.ancestors_eq (Store.lt_size_of_isLive beside.liveRun)]
    exact beside.depth
  pairs pair member name := by
    rw [pairedScopes_grow beside.live gains.grows,
      pairedScopes_become beside.liveRun becomes] at member
    have old := lt_size_of_mem_pairedScopes beside.live beside.liveRun member
    have before := beside.pairs pair member name
    have paired := pairedScopes_unique member (active_mem_pairedScopes analyzer machine)
    rw [becomes.isSome_localVariable? old.2]
    by_cases active : pair.2 = machine.active
    · have known : pair.1 = analyzer.active := paired.mpr active
      obtain ⟨own, next, gained, ownName, nextName⟩ := gains.store.localVariable? old.1
      rw [if_pos known] at gained
      rw [ownName] at before
      rw [if_pos active, nextName]
      refine before.gain gained (fun base => ?_) fun listed => ?_
      · rw [← beside.base, active] at base
        exact Nat.ne_of_gt beside.inside base
      · rw [known, active]
        exact new name listed
    · have inactive : pair.1 ≠ analyzer.active := fun known => active (paired.mp known)
      rw [gains.grows.localVariable?_eq old.1 inactive, if_neg active, decide_eq_false
        List.not_mem_nil, Bool.or_false]
      exact before

/-- The type of the results does not matter. -/
theorem returns (beside : run.Beside analyzer machine) (returns : Option Ty) :
    run.Beside { analyzer with returns } machine :=
  ⟨beside.live, beside.liveRun, beside.base, beside.inside, beside.bottom, beside.depth,
    beside.pairs⟩

/-- New scopes on both sides lie side by side. -/
theorem enter (beside : run.Beside analyzer machine) :
    run.Beside analyzer.enter machine.enter := by
  have path : analyzer.enter.store.ancestors analyzer.enter.active =
      analyzer.enter.active :: analyzer.store.ancestors analyzer.active :=
    Store.ancestors_child_self beside.live
  have pathRun : machine.enter.store.ancestors machine.enter.active =
      machine.enter.active :: machine.store.ancestors machine.active :=
    Store.ancestors_child_self beside.liveRun
  have young : machine.active < machine.enter.active := Store.lt_size_of_isLive beside.liveRun
  have inside : machine.base < machine.enter.active := Nat.lt_trans beside.inside young
  refine ⟨Store.isLive_child_self, Store.isLive_child_self, beside.base, inside, ?_, ?_,
    fun pair member name => ?_⟩
  · rw [pathRun]
    exact List.forall_mem_cons.mpr ⟨Nat.le_of_lt inside, beside.bottom⟩
  · rw [path, pathRun, List.length_cons, List.length_cons, beside.depth]
  · show run.Matches _ _ _
      ((analyzer.store.child analyzer.active).2.localVariable? pair.1 name).isSome
      ((machine.store.child machine.active).2.localVariable? pair.2 name).isSome
    rw [Store.localVariable?_child, Store.localVariable?_child]
    rw [pairedScopes_enter beside.live beside.liveRun, List.mem_cons] at member
    rcases member with rfl | member
    · have fresh : analyzer.enter.active = analyzer.store.frames.size := rfl
      have freshRun : machine.enter.active = machine.store.frames.size := rfl
      rw [if_pos fresh, if_pos freshRun]
      exact .neither
    · have old := lt_size_of_mem_pairedScopes beside.live beside.liveRun member
      rw [if_neg (Nat.ne_of_lt old.1), if_neg (Nat.ne_of_lt old.2)]
      exact beside.pairs pair member name

/-- Seen from the global scope of the run, nothing has changed where names were added to a younger
one. -/
theorem outer (beside : run.Beside analyzer machine.atGlobals)
    (younger : machine.globals < machine.active) (becomes : machine.Becomes scopes names after) :
    run.Beside analyzer after.atGlobals := by
  have old : machine.globals < machine.store.frames.size := Store.lt_size_of_isLive beside.liveRun
  have path : after.store.ancestors after.globals = machine.store.ancestors machine.globals := by
    rw [becomes.globals, becomes.store.ancestors_eq old]
  refine beside.carry beside.live ?_ becomes.base ?_ rfl path (fun _ _ _ => rfl)
    fun id member name => ?_
  · show after.store.isLive after.globals
    rw [becomes.globals, becomes.store.isLive_eq old]
    exact beside.liveRun
  · show after.base < after.globals
    rw [becomes.base, becomes.globals]
    exact beside.inside
  · have low : id ≤ machine.globals := Store.le_of_mem_ancestors member
    have bound := becomes.isSome_localVariable? (Nat.lt_of_le_of_lt low old) name
    rw [if_neg (Nat.ne_of_lt (Nat.lt_of_le_of_lt low younger)), decide_eq_false List.not_mem_nil,
      Bool.or_false] at bound
    exact bound

/-- A new scope of the run does not matter to what is around its global scope. -/
theorem outer_enter (beside : run.Beside analyzer machine.atGlobals) :
    run.Beside analyzer machine.enter.atGlobals := by
  have old : machine.globals < machine.store.frames.size := Store.lt_size_of_isLive beside.liveRun
  refine beside.carry beside.live ((Store.isLive_child old).trans beside.liveRun) rfl beside.inside
    rfl (Store.ancestors_child old) (fun _ _ _ => rfl) fun id member name => ?_
  have low : id ≤ machine.globals := Store.le_of_mem_ancestors member
  show ((machine.store.child machine.active).2.localVariable? id name).isSome = _
  rw [Store.localVariable?_child, if_neg (Nat.ne_of_lt (Nat.lt_of_le_of_lt low old))]
  rfl

/-- Nor does one more owner of the global scope. -/
theorem retain (beside : run.Beside analyzer machine.atGlobals) :
    run.Beside analyzer machine.retainGlobals := by
  have live : machine.store.isLive machine.globals := beside.liveRun
  refine beside.carry beside.live ((Store.isLive_retain live).trans live) rfl beside.inside rfl
    (Store.ancestors_retain live) (fun _ _ _ => rfl) fun id _ name => ?_
  show ((machine.store.retain machine.globals).localVariable? id name).isSome = _
  rw [Store.localVariable?_retain]
  rfl

/-- At the beginning the scopes of the host lie side by side. -/
theorem start (run : HostedRun) : run.Beside run.first run.start := by
  have hosted := run.hosted
  have path := hosted.around
  have pathRun := hosted.aroundRun
  rw [← hosted.resting] at path
  rw [← hosted.restingRun] at pathRun
  have sorted := run.start.store.ancestors_sorted run.start.active
  rw [pathRun, hosted.restingRun] at sorted
  have inside : run.start.base < run.start.active := by
    rw [hosted.restingRun]
    simpa using sorted
  refine ⟨hosted.resting ▸ hosted.live, hosted.restingRun ▸ hosted.liveRun, rfl, inside, ?_, ?_,
    fun pair member name => ?_⟩
  · rw [pathRun]
    have itself := List.forall_mem_singleton.mpr (Nat.le_refl run.start.base)
    exact List.forall_mem_cons.mpr ⟨Nat.le_of_lt inside, itself⟩
  · rw [path, pathRun]
    rfl
  · rw [pairedScopes, path, pathRun, List.zip_cons_cons, List.zip_cons_cons, List.zip_nil_left,
      List.mem_cons, List.mem_singleton] at member
    rcases member with rfl | rfl
    · simp only [hosted.resting, hosted.restingRun, hosted.empty, hosted.emptyRun]
      exact .neither
    · have covered := hosted.covered name
      cases known : (run.first.store.localVariable? run.first.base name).isSome <;>
        cases bound : (run.start.store.localVariable? run.start.base name).isSome
      · exact .neither
      · have unknown := Option.isNone_iff_eq_none.mp (Option.isSome_eq_false_iff.mp known)
        exact .hidden rfl unknown bound
      · rw [covered known] at bound
        contradiction
      · exact .both (.host known bound)

end Beside

end HostedRun

end LetDef
