import LetDef.Proofs.Embedding.Counterparts

/-!
# Methods of a program under a host

Between two methods, the analysis looks names up in the scopes that it had after the fields
(`HostedRun.Rests`), and it comes to every method of the program in such a state
(`HostedRun.exists_method`). A run that has defined the methods can call them and functions of the
host, and no others (`HostedRun.Calls`). So wherever a method is called, the scope for its body lies
beside the one in which the analysis has taken it (`HostedRun.Calls.enterMethod`).
-/
namespace LetDef

namespace Machine

variable {scopes : FrameId → Prop} {machine after : Machine}

/-- Where the global scope is active, it is active. -/
theorem atGlobals_of_resting (machine : Machine) (resting : machine.active = machine.globals) :
    machine.atGlobals = machine := by
  cases machine
  cases resting
  rfl

/-- Definitions that all succeed add all their names to the active scope. -/
theorem Becomes.ofDefineAll_none {pairs : List (String × Value)}
    (placed : machine.active < machine.store.frames.size)
    (defined : machine.defineAll pairs = (none, after)) :
    machine.Becomes scopes (pairs.map Prod.fst) after := by
  induction pairs generalizing machine with
  | nil =>
    injection defined with _ same
    exact same ▸ Becomes.refl
  | cons pair rest ih =>
    obtain ⟨name, value⟩ := pair
    cases first : machine.define name value with
    | mk success between =>
      simp only [Machine.defineAll, first] at defined
      cases success with
      | false => cases defined
      | true =>
        have begun : machine.Becomes scopes [name] between := Becomes.ofDefine first
        have placedNext : between.active < between.store.frames.size := by
          rw [begun.active]
          exact Nat.lt_of_lt_of_le placed begun.store.size_le
        exact begun.trans placed (ih placedNext defined)

/-- Defining methods adds them to the active scope, each under its name and the number of its
parameters, and no variable. -/
theorem functions_defineMethods {methods : List Method}
    (placed : machine.active < machine.store.frames.size)
    (defined : defineMethods methods machine = .done () after) :
    (∀ id name, after.store.localVariable? id name = machine.store.localVariable? id name) ∧
    ∀ id name arity callable, after.store.localFunction? id name arity = some callable →
      machine.store.localFunction? id name arity = some callable ∨
        ∃ declared ∈ methods, declared.answers name arity ∧
          callable = .method declared machine.active := by
  induction methods generalizing machine with
  | nil =>
    cases defined
    exact ⟨fun _ _ => rfl, fun _ _ _ _ found => .inl found⟩
  | cons first rest ih =>
    cases added : machine.defineMethod first with
    | mk success between =>
      simp only [defineMethods, added] at defined
      have continues := Continues.ofDefineMethod added
      simp only [defineMethod, onStore, Store.defineFunction] at added
      split at added
      next bound =>
        cases added
        contradiction
      next bound =>
        cases added
        have placedNext : machine.active < (machine.store.bindFunction machine.active first.name
            first.parameters.length (.method first machine.active)).frames.size :=
          Nat.lt_of_lt_of_le placed continues.store.size_le
        obtain ⟨locals, functions⟩ := ih placedNext defined
        refine ⟨fun id name => (locals id name).trans (Store.localVariable?_bindFunction name),
          fun id name arity callable found => ?_⟩
        rcases functions id name arity callable found with
          earlier | ⟨declared, member, answers, same⟩
        · rw [Store.localFunction?_bindFunction placed] at earlier
          split at earlier
          next own =>
            have answers := Method.answers_iff.mpr ⟨own.2.1.symm, own.2.2.symm⟩
            exact .inr ⟨first, List.mem_cons_self, answers, (Option.some.inj earlier).symm⟩
          next => exact .inl earlier
        · exact .inr ⟨declared, List.mem_cons_of_mem first member, answers, same⟩

end Machine

namespace HostedRun

variable {run : HostedRun} {loaded : Bool} {address : Address}
variable {analyzer before after later : Analyzer} {machine next : Machine}
variable {source tree declared : Method} {scopes : FrameId → Prop} {names : List String}

/-- The state is between two methods: names are looked up in the scopes that were there after the
fields, and these bind what they did. -/
structure Rests (run : HostedRun) (analyzer : Analyzer) : Prop where
  /-- The active scope is alive. -/
  live : analyzer.store.isLive analyzer.active
  /-- The same scopes are looked up. -/
  path : analyzer.store.ancestors analyzer.active = run.loaded.store.ancestors run.loaded.active
  /-- They bind the same variables. -/
  locals : ∀ id ∈ run.loaded.store.ancestors run.loaded.active, ∀ name,
    analyzer.store.localVariable? id name = run.loaded.store.localVariable? id name

/-- After the fields the state is before the first method. -/
theorem rests_loaded (run : HostedRun) : run.Rests run.loaded := by
  have resumes := Visit.resumes_each Field.resumes_analyze run.source.fields run.first
  rw [Visit.Resumes, run.fields] at resumes
  refine ⟨?_, rfl, fun _ _ _ => rfl⟩
  have live : run.first.store.isLive run.first.active := run.hosted.resting ▸ run.hosted.live
  have active : run.loaded.active = run.first.active := resumes.active
  rw [active]
  exact (resumes.store.isLive_eq (Store.lt_size_of_isLive live)).trans live

/-- The name of a method is no variable. -/
theorem Rests.named (rests : run.Rests before) (method : source.Accepted tree before after) :
    run.Rests method.named := by
  obtain ⟨_, same⟩ := Analyzer.defineFunction_eq_ok.mp method.defined
  rw [same]
  refine ⟨Store.isLive_bindFunction.trans rests.live, Store.ancestors_bindFunction.trans rests.path,
    fun id around name => (Store.localVariable?_bindFunction name).trans ?_⟩
  exact rests.locals id around name

/-- Where no scope has changed the state is between two methods still. -/
theorem Rests.extend (rests : run.Rests before) (extension : before.Extends after) :
    run.Rests after := by
  have old := Store.lt_size_of_isLive rests.live
  refine ⟨?_, ?_, fun id around name => ?_⟩
  · rw [extension.active, extension.store.isLive_eq old]
    exact rests.live
  · rw [extension.active, extension.store.ancestors_eq old]
    exact rests.path
  · have low : id ≤ before.active := Store.le_of_mem_ancestors (rests.path ▸ around)
    rw [extension.localVariable?_eq (Nat.lt_of_le_of_lt low old)]
    exact rests.locals id around name

/-- The analysis comes to every method between methods, and accepts it. -/
theorem exists_method_from {sources trees : List Method} {index position : Nat}
    (rests : run.Rests analyzer)
    (visits : run.Visits (Program.methodsFrom index) (.methods sources analyzer))
    (passed : Visit.each Method.analyze sources analyzer = ⟨trees, .ok (), after⟩)
    (found : trees[position]? = some declared) :
    ∃ source before after,
      run.Visits (Program.methodAddress (index + position)) (.method source before) ∧
      run.Rests before ∧ Nonempty (source.Accepted declared before after) := by
  induction trees generalizing sources analyzer index position with
  | nil => contradiction
  | cons first rest ih =>
    obtain ⟨source, later, between, rfl, analyzed, passedRest⟩ := Visit.each_eq_ok passed
    obtain ⟨method⟩ := Method.Accepted.of_analyze analyzed
    have visitsFirst := visits.step .firstMethod
    cases position with
    | zero =>
      injection found with same
      subst same
      exact ⟨source, analyzer, between, visitsFirst, rests, ⟨method⟩⟩
    | succ position =>
      have visitsRest : run.Visits (Program.methodsFrom (index + 1)) (.methods later between) :=
        visits.step (.restMethods analyzed)
      rw [Nat.add_comm position 1, ← Nat.add_assoc]
      exact ih ((rests.named method).extend (method.extends_named visitsFirst)) visitsRest
        passedRest found

/-- Accepted methods are new to the active scope, and no two of them answer the same calls. -/
theorem distinct_from {sources trees : List Method}
    (live : analyzer.store.isLive analyzer.active)
    (visits : run.Visits address (.methods sources analyzer))
    (passed : Visit.each Method.analyze sources analyzer = ⟨trees, .ok (), after⟩) :
    (∀ declared ∈ trees, analyzer.store.localFunction? analyzer.active declared.name
      declared.parameters.length = none) ∧
      trees.Pairwise fun earlier later =>
        ¬ later.answers earlier.name earlier.parameters.length := by
  induction trees generalizing sources analyzer address with
  | nil => exact ⟨fun _ => nofun, List.Pairwise.nil⟩
  | cons first rest ih =>
    obtain ⟨source, later, between, rfl, analyzed, passedRest⟩ := Visit.each_eq_ok passed
    obtain ⟨method⟩ := Method.Accepted.of_analyze analyzed
    have extension := method.extends_named (visits.step .firstMethod)
    obtain ⟨unbound, same⟩ := Analyzer.defineFunction_eq_ok.mp method.defined
    obtain ⟨name, _, arity⟩ := Method.signatureIn_eq_ok method.known
    have old := Store.lt_size_of_isLive live
    have active : between.active = analyzer.active := by
      rw [extension.active, same]
    have liveNext : between.store.isLive between.active := by
      have resumes := (Method.resumes_analyze source analyzer).of_eq analyzed
      rw [active, resumes.store.isLive_eq old]
      exact live
    have functions : ∀ called parameters,
        between.store.localFunction? between.active called parameters =
          if called = first.name ∧ parameters = first.parameters.length then
            some method.signature
          else analyzer.store.localFunction? analyzer.active called parameters := by
      intro called parameters
      rw [active, extension.store.localFunction?_eq, same]
      show (analyzer.store.bindFunction analyzer.active _ _ _).localFunction? _ _ _ = _
      rw [Store.localFunction?_bindFunction old, name, arity, method.name, method.parameters]
      simp only [true_and]
    obtain ⟨free, distinct⟩ := ih liveNext (visits.step (.restMethods analyzed)) passedRest
    refine ⟨fun declared member => ?_, List.pairwise_cons.mpr ⟨fun declared member answers => ?_,
      distinct⟩⟩
    · rcases List.mem_cons.mp member with rfl | member
      · rw [method.name, method.parameters, ← name, ← arity]
        exact unbound
      · have unknown := free declared member
        rw [functions] at unknown
        split at unknown
        · contradiction
        · exact unknown
    · have unknown := free declared member
      rw [functions, if_pos (Method.answers_iff.mp answers)] at unknown
      contradiction

/-- The analysis comes to the methods. -/
theorem visits_methods (run : HostedRun) :
    run.Visits [.methods] (.methods run.source.methods run.loaded) :=
  Program.Visits.start.step (.methods run.fields)

/-- The analysis comes to every method of the program, between methods, and accepts it. -/
theorem exists_method (run : HostedRun) (member : declared ∈ run.program.methods) :
    ∃ source before after, run.Visits (run.program.addressOf declared) (.method source before) ∧
      run.Rests before ∧ Nonempty (source.Accepted declared before after) := by
  obtain ⟨position, found⟩ := List.mem_iff_getElem?.mp member
  have distinct := (distinct_from run.rests_loaded.live run.visits_methods run.methods).2
  have visits : run.Visits (Program.methodsFrom 0) (.methods run.source.methods run.loaded) :=
    run.visits_methods
  have met := exists_method_from run.rests_loaded visits run.methods found
  rw [Nat.zero_add] at met
  rwa [Program.addressOf, Program.findIdx_answers distinct found]

/-- The machine can call functions of the host and, once they are loaded, methods of the program, in
their places; and then its global scope lies beside that of the analysis after the fields. -/
structure Calls (run : HostedRun) (loaded : Bool) (machine : Machine) : Prop where
  /-- The functions of scopes are such. -/
  functions : ∀ id name arity callable,
    machine.store.localFunction? id name arity = some callable →
      callable.Foreign ∨ loaded = true ∧ ∃ declared ∈ run.program.methods,
        declared.answers name arity ∧ callable = .method declared machine.globals
  /-- The methods of objects are functions of the host. -/
  methods : ∀ owner name arity callable, machine.method owner name arity = .ok callable →
    callable.Foreign
  /-- The global scope has the fields. -/
  outer : loaded = true → run.Beside run.loaded machine.atGlobals

/-- The machine can call the same while its scopes gain no functions. -/
theorem Calls.carry (calls : run.Calls loaded machine) (globals : next.globals = machine.globals)
    (functions : ∀ id name arity,
      next.store.localFunction? id name arity = machine.store.localFunction? id name arity)
    (methods : next.methods = machine.methods)
    (outer : loaded = true → run.Beside run.loaded next.atGlobals) : run.Calls loaded next where
  functions id name arity callable found := by
    rw [functions] at found
    rw [globals]
    exact calls.functions id name arity callable found
  methods owner name arity callable found := by
    have same : next.method owner name arity = machine.method owner name arity := by
      cases owner <;> simp only [Machine.method, methods]
    exact calls.methods owner name arity callable (same ▸ found)
  outer := outer

/-- Before any program, a machine calls functions of the host alone. -/
theorem calls_start (run : HostedRun) : run.Calls false run.start :=
  ⟨fun id name arity callable found => .inl (run.hosted.functions id name arity callable found),
    run.hosted.methods, nofun⟩

/-- The states lie side by side, and the machine calls what it may; once the methods are loaded, it
is inside the global scope. -/
structure Meets (run : HostedRun) (loaded : Bool) (analyzer : Analyzer) (machine : Machine) :
    Prop where
  /-- The states lie side by side. -/
  beside : run.Beside analyzer machine
  /-- The machine calls what it may. -/
  calls : run.Calls loaded machine
  /-- The active scope is younger than the global one. -/
  younger : loaded = true → machine.globals < machine.active

namespace Meets

/-- The methods that the machine can call have been defined in a scope that is there. -/
theorem confined (meets : run.Meets loaded analyzer machine) :
    machine.Confined fun _ => True where
  placed := Store.lt_size_of_isLive meets.beside.liveRun
  functions id name arity callable found := by
    rcases meets.calls.functions id name arity callable found with foreign | ⟨there, _, _, _, rfl⟩
    · cases callable with
      | native => trivial
      | method => contradiction
    · have live : machine.store.isLive machine.globals := (meets.calls.outer there).liveRun
      exact ⟨Store.lt_size_of_isLive live, fun _ _ => trivial⟩
  methods owner name arity callable found := by
    have foreign := meets.calls.methods owner name arity callable found
    cases callable with
    | native => trivial
    | method => contradiction

/-- The states meet after both have changed, if what they gain has one reason. -/
theorem pass (meets : run.Meets loaded analyzer machine)
    (gains : analyzer.Gains run.Shares names later) (becomes : machine.Becomes scopes names next)
    (new : ∀ name ∈ names, run.Counterparts analyzer.active machine.active name) :
    run.Meets loaded later next where
  beside := meets.beside.pass gains becomes new
  calls := meets.calls.carry becomes.globals becomes.store.localFunction?_eq becomes.methods
    fun there => (meets.calls.outer there).outer (meets.younger there) becomes
  younger there := by
    rw [becomes.globals, becomes.active]
    exact meets.younger there

/-- The states meet after the run has changed scopes without adding names. -/
theorem keep (meets : run.Meets loaded analyzer machine)
    (becomes : machine.Becomes scopes [] next) : run.Meets loaded analyzer next :=
  meets.pass Analyzer.Extends.refl.gains becomes fun _ => nofun

/-- The states meet after the analysis has made names of selected fields known. -/
theorem share (meets : run.Meets loaded analyzer machine)
    (gains : analyzer.Gains run.Shares [] later) : run.Meets loaded later machine := by
  have becomes : machine.Becomes (fun _ => True) [] machine := Machine.Becomes.refl
  exact meets.pass gains becomes fun _ => nofun

/-- The type of the results does not matter. -/
theorem returns (meets : run.Meets loaded analyzer machine) (returns : Option Ty) :
    run.Meets loaded { analyzer with returns } machine :=
  ⟨meets.beside.returns returns, meets.calls, meets.younger⟩

/-- The states meet in a new scope on each side. -/
theorem enter (meets : run.Meets loaded analyzer machine) :
    run.Meets loaded analyzer.enter machine.enter where
  beside := meets.beside.enter
  calls := meets.calls.carry rfl (fun _ _ _ => Store.localFunction?_child _ _) rfl
    fun there => (meets.calls.outer there).outer_enter
  younger there :=
    Nat.lt_trans (meets.younger there) (Store.lt_size_of_isLive meets.beside.liveRun)

/-- At the start the states meet. -/
theorem start (run : HostedRun) : run.Meets false run.first run.start :=
  ⟨Beside.start run, run.calls_start, nofun⟩

end Meets

/-- Once its methods are defined, the machine can call them. -/
theorem Meets.load (meets : run.Meets false run.loaded machine)
    (resting : machine.active = machine.globals)
    (defined : Machine.defineMethods run.program.methods machine = .done () next) :
    run.Calls true next := by
  have placed := Store.lt_size_of_isLive meets.beside.liveRun
  obtain ⟨locals, functions⟩ := Machine.functions_defineMethods placed defined
  have continues := (Machine.continues_defineMethods run.program.methods machine).of_done defined
  refine ⟨fun id name arity callable found => ?_, fun owner name arity callable found => ?_,
    fun _ => ?_⟩
  · rcases functions id name arity callable found with earlier | ⟨declared, member, answers, same⟩
    · rcases meets.calls.functions id name arity callable earlier with foreign | ⟨there, _⟩
      · exact .inl foreign
      · contradiction
    · rw [continues.globals, ← resting]
      exact .inr ⟨rfl, declared, member, answers, same⟩
  · have same : next.method owner name arity = machine.method owner name arity := by
      cases owner <;> simp only [Machine.method, continues.methods]
    exact meets.calls.methods owner name arity callable (same ▸ found)
  · have atHome : run.Beside run.loaded machine.atGlobals :=
      (machine.atGlobals_of_resting resting).symm ▸ meets.beside
    have old : machine.globals < machine.store.frames.size := resting ▸ placed
    refine atHome.carry atHome.live ?_ continues.base ?_ rfl ?_ (fun _ _ _ => rfl)
      fun id _ name => ?_
    · show next.store.isLive next.globals
      rw [continues.globals, continues.store.isLive_eq old]
      exact atHome.liveRun
    · show next.base < next.globals
      rw [continues.base, continues.globals]
      exact atHome.inside
    · show next.store.ancestors next.globals = machine.store.ancestors machine.globals
      rw [continues.globals, continues.store.ancestors_eq old]
    · show (next.store.localVariable? id name).isSome = _
      rw [locals]
      rfl

/-- Wherever a method is called, the scope for its body lies beside that of the analysis. -/
theorem Calls.enterMethod (calls : run.Calls true machine) (rests : run.Rests analyzer) :
    run.Meets true analyzer.enter (machine.enterMethod machine.globals) := by
  have outer := calls.outer rfl
  have live : machine.store.isLive machine.globals := outer.liveRun
  have there : run.Beside analyzer machine.atGlobals :=
    outer.carry rests.live outer.liveRun rfl outer.inside rests.path rfl
      (fun id around name => by rw [rests.locals id around name]) fun _ _ _ => rfl
  have atHome : run.Beside run.loaded machine.retainGlobals.atGlobals := outer.retain
  rw [Machine.enterMethod_globals]
  refine ⟨there.retain.enter, ?_, fun _ => Store.lt_size_of_isLive there.retain.liveRun⟩
  exact calls.carry rfl (fun id name arity => machine.localFunction?_enterMethod machine.globals id
    name arity) rfl fun _ => atHome.outer_enter

end HostedRun

end LetDef
