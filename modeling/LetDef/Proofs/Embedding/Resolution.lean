import LetDef.Proofs.Embedding.Correspondence
import LetDef.Proofs.Embedding.Hosts
import LetDef.Proofs.Run.Breakage

/-!
# Resolution of variables under a host

Where a host has object types, the analysis makes the name of every selected field known in the
active scope, and runs do not. So a variable means the same to both except where the nearest scope
of the analysis that binds its name does so because of a selection: there a run goes on to the
scopes around it, and finds the counterpart of another variable, one that the host has given to runs
alone, or nothing (`Program.Resolves`). This is the only reason for which a variable can be missing
in a run of an accepted program, functions of the host apart (`session_mirrors_of_covers`).
-/
namespace LetDef

/-- Where a run finds a name, by the scopes that the analysis looks it up in, from the innermost one
outwards. It passes over scopes that do not bind the name and over scopes that bind it for a
selection, as if they did not. In the first other scope it finds the counterpart; if there is none,
it finds what the host has given to runs alone, if anything. -/
inductive Program.Resolves (source program : Program) (fuel : Nat) (first : Analyzer)
    (start : Machine) (analyzer : Analyzer) (name : String) :
    List FrameId → Option FrameId → Prop where
  | counterpart {known bound outer}
    (binds : (analyzer.store.localVariable? known name).isSome)
    (same : source.Counterparts program fuel first start known bound name) :
    Resolves source program fuel first start analyzer name (known :: outer) (some bound)
  | passed {scope outer found}
    (shares : (analyzer.store.localVariable? scope name).isSome → source.Shares first scope name)
    (later : Resolves source program fuel first start analyzer name outer found) :
    Resolves source program fuel first start analyzer name (scope :: outer) found
  | hidden (unknown : first.store.localVariable? first.base name = none)
    (given : (start.store.localVariable? start.base name).isSome) :
    Resolves source program fuel first start analyzer name [] (some start.base)
  | missing : Resolves source program fuel first start analyzer name [] none

namespace Program.Resolves

variable {source program : Program} {fuel : Nat} {first analyzer : Analyzer} {start : Machine}
variable {name : String} {scopes : List FrameId} {found : Option FrameId}

/-- If the nearest scope of the analysis that binds the name does so for another reason than a
selection, a run finds its counterpart. -/
theorem exists_counterpart
    (resolves : source.Resolves program fuel first start analyzer name scopes found)
    {known : FrameId} (nearest : scopes.find?
      (fun scope => (analyzer.store.localVariable? scope name).isSome) = some known)
    (own : ¬ source.Shares first known name) :
    ∃ bound, found = some bound ∧
      source.Counterparts program fuel first start known bound name := by
  induction resolves with
  | counterpart binds same =>
    rw [List.find?_cons, binds] at nearest
    cases nearest
    exact ⟨_, rfl, same⟩
  | @passed scope _ _ shares _ ih =>
    rw [List.find?_cons] at nearest
    cases binds : (analyzer.store.localVariable? scope name).isSome with
    | true =>
      rw [binds] at nearest
      cases nearest
      exact absurd (shares binds) own
    | false =>
      rw [binds] at nearest
      exact ih nearest
  | hidden => contradiction
  | missing => contradiction

/-- If a run finds nothing, the scopes of the analysis that bind the name do so for a selection. -/
theorem shares_of_missing
    (resolves : source.Resolves program fuel first start analyzer name scopes none) :
    ∀ scope ∈ scopes, (analyzer.store.localVariable? scope name).isSome →
      source.Shares first scope name := by
  generalize missing : none = found at resolves
  induction resolves with
  | counterpart => contradiction
  | passed shares _ ih => exact List.forall_mem_cons.mpr ⟨shares, ih missing⟩
  | hidden => contradiction
  | missing => exact fun _ => nofun

end Program.Resolves

/-- The analysis has come to the variable at this address and knew the name, and a run finds it in
`found` as it should: the scopes that only bind it for a selection are passed over, and unless the
analysis has found one of these the run finds the counterpart of what the analysis has found. -/
def Program.Consults (source program : Program) (fuel : Nat) (first : Analyzer) (start : Machine)
    (address : Address) (name : String) (found : Option FrameId) : Prop :=
  ∃ analyzer known,
    source.Visits first address (.expression (.variable name none none) analyzer) ∧
    analyzer.store.binder? analyzer.active name = some known ∧
    source.Resolves program fuel first start analyzer name
      (analyzer.store.ancestors analyzer.active) found ∧
    (¬ source.Shares first known name → ∃ bound, found = some bound ∧
      source.Counterparts program fuel first start known bound name)

/-- Somewhere the analysis has found the variable in a scope that binds its name for a selection. -/
def Program.FindsShared (source : Program) (first : Analyzer) (name : String) : Prop :=
  ∃ address analyzer known,
    source.Visits first address (.expression (.variable name none none) analyzer) ∧
    analyzer.store.binder? analyzer.active name = some known ∧ source.Shares first known name

/-- Where a run finds nothing, the analysis has found a scope that binds the name for a
selection. -/
theorem Program.Consults.findsShared {source program : Program} {fuel : Nat} {first : Analyzer}
    {start : Machine} {address : Address} {name : String}
    (consults : source.Consults program fuel first start address name none) :
    source.FindsShared first name := by
  obtain ⟨analyzer, known, visits, nearest, resolves, _⟩ := consults
  have binds := List.find?_some nearest
  exact ⟨address, analyzer, known, visits, nearest,
    resolves.shares_of_missing known (List.mem_of_find?_eq_some nearest) binds⟩

/-- In the run, a function of the host says that the variable is missing. -/
def Program.HostMisses (program : Program) (fuel : Nat) (start : Machine) (name : String) : Prop :=
  ∃ address left native arguments machine,
    program.Reaches fuel start address (.call left (.native native) arguments machine) ∧
    (native machine.host arguments).1 = .error (.undefinedVariable name)

namespace HostedRun

variable {run : HostedRun} {loaded : Bool} {address : Address} {analyzer : Analyzer}
variable {machine : Machine} {name : String}

/-- Where a run finds a name, by the scopes that the analysis looks it up in. -/
def Resolves (run : HostedRun) : Analyzer → String → List FrameId → Option FrameId → Prop :=
  run.source.Resolves run.program run.fuel run.first run.start

/-- The analysis and the run look a name up in matching scopes. -/
def Consults (run : HostedRun) : Address → String → Option FrameId → Prop :=
  run.source.Consults run.program run.fuel run.first run.start

/-- A run goes through matching scopes as it should. -/
theorem resolves_of_matches {known bound : List FrameId} (depth : known.length = bound.length)
    (sorted : bound.Pairwise (· > ·)) (bottom : ∀ id ∈ bound, run.start.base ≤ id)
    (pairs : ∀ pair ∈ known.zip bound, run.Matches pair.1 pair.2 name
      (analyzer.store.localVariable? pair.1 name).isSome
      (machine.store.localVariable? pair.2 name).isSome) :
    run.Resolves analyzer name known
      (bound.find? fun frame => (machine.store.localVariable? frame name).isSome) := by
  induction known generalizing bound with
  | nil =>
    rw [List.length_eq_zero_iff.mp depth.symm]
    exact .missing
  | cons scope known ih =>
    cases bound with
    | nil => contradiction
    | cons frame bound =>
      have here := pairs (scope, frame) List.mem_cons_self
      have later := ih (Nat.succ.inj depth) (List.pairwise_cons.mp sorted).2
        (List.forall_mem_cons.mp bottom).2 fun pair member =>
          pairs pair (List.mem_cons_of_mem _ member)
      rw [List.find?_cons]
      generalize binds : (analyzer.store.localVariable? scope name).isSome = knows at here
      generalize (machine.store.localVariable? frame name).isSome = holds at here ⊢
      cases here with
      | neither => exact .passed (fun known => nomatch binds.symm.trans known) later
      | both same => exact .counterpart binds same
      | shared shares => exact .passed (fun _ => shares) later
      | hidden base unknown given =>
        -- The base scope is the last one, so that nothing is left to look in.
        have last : bound = [] := by
          refine List.eq_nil_iff_forall_not_mem.mpr fun id member => ?_
          have older : id < run.start.base := base ▸ (List.pairwise_cons.mp sorted).1 id member
          exact absurd ((List.forall_mem_cons.mp bottom).2 id member) (Nat.not_le_of_gt older)
        obtain rfl : known = [] := List.length_eq_zero_iff.mp (by simpa [last] using depth)
        subst base
        exact .passed (fun known => nomatch binds.symm.trans known) (.hidden unknown given)

/-- Side by side with the analysis, a run finds a name where it should. -/
theorem Beside.resolves (beside : run.Beside analyzer machine) (name : String) :
    run.Resolves analyzer name (analyzer.store.ancestors analyzer.active)
      (machine.store.binder? machine.active name) :=
  resolves_of_matches beside.depth (machine.store.ancestors_sorted machine.active)
    (beside.base ▸ beside.bottom) fun pair member => beside.pairs pair member name

/-- Side by side with an analysis that has found a variable, a run finds what it should. -/
theorem Beside.consults (beside : run.Beside analyzer machine)
    (visits : run.Visits address (.expression (.variable name none none) analyzer))
    {entry : Variable} (found : analyzer.findVariable? name = some entry) :
    run.Consults address name (machine.store.binder? machine.active name) := by
  rw [Analyzer.findVariable?, Store.findVariable?_eq_binder?] at found
  obtain ⟨known, nearest, _⟩ := Option.bind_eq_some_iff.mp found
  have resolves := beside.resolves name
  exact ⟨analyzer, known, visits, nearest, resolves, resolves.exists_counterpart nearest⟩

/-- Where a run reads a variable, it finds it as it should. -/
theorem Reaches.consults_read {left : Nat} {slot : Option Variable} {type : Option Ty}
    (reached : run.Reaches address (.expression (left + 1) (.variable name slot type) machine)) :
    run.Consults address name (machine.store.binder? machine.active name) := by
  obtain ⟨_, visits, corresponds⟩ := reached.exists_spot
  cases corresponds with
  | expression analyzed meets =>
    cases Expr.passes_of_analyze analyzed with
    | «variable» known => exact meets.beside.consults visits known

/-- Where a run assigns to a variable, it finds it as it should. -/
theorem Reaches.consults_write {left : Nat} {slot : Option Variable} {type : Option Ty}
    {value : Expr} {content : Value} {between : Machine}
    (reached : run.Reaches address
      (.statement (left + 1) (.assignment (.variable name slot type) value) machine))
    (evaluated : evaluate left value machine = .done content between) :
    run.Consults (.target :: address) name (between.store.binder? between.active name) := by
  obtain ⟨_, visits, corresponds⟩ := reached.exists_spot
  cases corresponds with
  | statement analyzed meets =>
    cases Stmt.passes_of_analyze analyzed with
    | assignment placed passed =>
      have visitsTarget := visits.step (.target placed)
      cases Expr.passes_of_analyze passed with
      | «variable» known => exact (meets.evaluate evaluated).beside.consults visitsTarget known

/-- If a run fails because a variable is missing, a function of the host says so, or the analysis
has found the variable in a scope that binds its name for a selection. -/
theorem findsShared_of_missing {after : Machine}
    (failed : Machine.interpret run.fuel run.program run.start =
      .failed (.undefinedVariable name) after) :
    run.program.HostMisses run.fuel run.start name ∨
      run.source.FindsShared run.first name := by
  have begun : run.Reaches [] (.program run.fuel run.program run.start) := .start
  have ended : (Task.program run.fuel run.program run.start).error? =
    some (.undefinedVariable name) := congrArg Outcome.error? failed
  obtain ⟨address, task, reached, faults⟩ := begun.exists_fault ended
  replace reached : run.Reaches address task := reached
  cases faults.breaks.misses rfl with
  | foreign refused => exact .inl ⟨address, _, _, _, _, reached, refused⟩
  | read unbound =>
    have consults := reached.consults_read
    rw [unbound] at consults
    exact .inr consults.findsShared
  | write evaluated unbound =>
    have consults := reached.consults_write evaluated
    rw [unbound] at consults
    exact .inr consults.findsShared

/-- A program that is accepted under a host can be run there. -/
theorem exists_of_analyze {source program : Program} {first after : Analyzer} {start : Machine}
    (hosted : Hosted first start) (accepted : source.analyze first = ⟨program, .ok (), after⟩)
    (fuel : Nat) : ∃ run : HostedRun, run.source = source ∧ run.program = program ∧
      run.first = first ∧ run.start = start ∧ run.fuel = fuel := by
  simp only [Program.analyze, Visit.next_eq_ok, Visit.check_eq_ok, Visit.done_eq_ok] at accepted
  obtain ⟨fields, _, loaded, passedFields, methods, _, last, passedMethods, _, _, rfl, _, _⟩ :=
    accepted
  exact ⟨⟨source, ⟨fields, methods⟩, first, loaded, last, start, fuel, hosted, passedFields,
    passedMethods⟩, rfl, rfl, rfl, rfl, rfl⟩

end HostedRun

/-- A read finds what the binder holds. -/
theorem evaluate_variable_of_binder {machine : Machine} {name : String} {bound : FrameId}
    (finds : machine.store.binder? machine.active name = some bound) (left : Nat)
    (slot : Option Variable) (type : Option Ty) :
    ∃ value, machine.store.localVariable? bound name = some value ∧
      evaluate (left + 1) (.variable name slot type) machine = .done value machine := by
  have binds := List.find?_some finds
  obtain ⟨value, held⟩ := Option.isSome_iff_exists.mp binds
  refine ⟨value, held, ?_⟩
  rw [evaluate, Machine.findVariable?, Store.findVariable?_eq_binder?, finds, Option.bind_some,
    held]

/-- An assignment overwrites what the binder holds. -/
theorem execute_assignment_of_binder {left : Nat} {name : String} {slot : Option Variable}
    {type : Option Ty} {value : Expr} {content : Value} {machine between : Machine}
    {bound : FrameId} (evaluated : evaluate left value machine = .done content between)
    (finds : between.store.binder? between.active name = some bound) :
    execute (left + 1) (.assignment (.variable name slot type) value) machine =
      .done .normal { between with store := between.store.bindVariable bound name content } := by
  have assigned := Machine.assign_eq between name content
  rw [finds] at assigned
  rw [execute, evaluated, Outcome.done_andThen, assigned]
  rfl

/-- In a run, variables are the counterparts of those that the analysis has found, where it has not
found them for a selection. -/
structure Program.Mirrors (source program : Program) (fuel : Nat) (first : Analyzer)
    (start : Machine) : Prop where
  /-- A run in which a variable is missing fails so in a function of the host, or the analysis has
  found the variable for a selection. -/
  missing : ∀ name last,
    Machine.interpret fuel program start = .failed (.undefinedVariable name) last →
    program.HostMisses fuel start name ∨ source.FindsShared first name
  /-- Where the run reads a bare variable, it finds the counterpart of what the analysis found. -/
  read : ∀ address left name slot type machine,
    program.Reaches fuel start address
      (.expression (left + 1) (.variable name slot type) machine) →
    source.Consults program fuel first start address name
      (machine.store.binder? machine.active name)
  /-- If it finds anything there, it reads the value that this scope holds. -/
  value : ∀ address left name slot type machine,
    program.Reaches fuel start address
      (.expression (left + 1) (.variable name slot type) machine) →
    ∀ bound, machine.store.binder? machine.active name = some bound →
      ∃ value, machine.store.localVariable? bound name = some value ∧
        evaluate (left + 1) (.variable name slot type) machine = .done value machine
  /-- Where the run assigns to a bare variable, it finds the counterpart as well. -/
  write : ∀ address left name slot type value machine content between,
    program.Reaches fuel start address
      (.statement (left + 1) (.assignment (.variable name slot type) value) machine) →
    evaluate left value machine = .done content between →
    source.Consults program fuel first start (.target :: address) name
      (between.store.binder? between.active name)
  /-- If it finds anything there, it overwrites the value in this scope and nothing else. -/
  overwrite : ∀ address left name slot type value machine content between,
    program.Reaches fuel start address
      (.statement (left + 1) (.assignment (.variable name slot type) value) machine) →
    evaluate left value machine = .done content between →
    ∀ bound, between.store.binder? between.active name = some bound →
      execute (left + 1) (.assignment (.variable name slot type) value) machine =
        .done .normal { between with store := between.store.bindVariable bound name content }

/-- A session whose scope for runs covers the one for the analysis begins, the analysis accepts a
program, and the program is run. Wherever the run reads a bare variable or assigns to one, the
analysis has come to the same place and known the name there, and the run finds the counterpart of
what the analysis has found: the two are bound by one construct of the program, or both are the
host's. This fails only if the scope that the analysis has found binds the name because a field of
that name is selected in it. Then the run goes on outwards; and only so can a variable be missing in
a run, unless a function of the host itself says that one is. -/
theorem session_mirrors_of_covers {embedding : Embedding} {session : Session}
    (started : Session.start embedding = .ok session) (covers : session.Covers)
    {source program : Program} {after : Analyzer}
    (accepted : source.analyze session.analyzer = ⟨program, .ok (), after⟩) (fuel : Nat) :
    source.Mirrors program fuel session.analyzer session.machine := by
  have hosted := Session.hosted_start started covers
  generalize session.analyzer = first at *
  generalize session.machine = start at *
  obtain ⟨run, rfl, rfl, rfl, rfl, rfl⟩ := HostedRun.exists_of_analyze hosted accepted fuel
  exact {
    missing := fun _ _ failed => HostedRun.findsShared_of_missing failed
    read := fun _ _ _ _ _ _ reached => HostedRun.Reaches.consults_read reached
    value := fun _ left _ slot type _ _ _ finds => evaluate_variable_of_binder finds left slot type
    write := fun _ _ _ _ _ _ _ _ _ reached evaluated =>
      HostedRun.Reaches.consults_write reached evaluated
    overwrite := fun _ _ _ _ _ _ _ _ _ _ evaluated _ finds =>
      execute_assignment_of_binder evaluated finds }

/-- A variable of this name is missing. -/
def Outcome.misses {α : Type} (name : String) : Outcome α → Bool
  | .failed (.undefinedVariable missing) _ => missing = name
  | _ => false

/-- An outcome in which a variable is missing is that failure. -/
theorem Outcome.eq_failed_of_misses {α : Type} {name : String} {outcome : Outcome α}
    (misses : outcome.misses name) :
    ∃ last, outcome = .failed (.undefinedVariable name) last := by
  unfold Outcome.misses at misses
  split at misses
  next last => exact ⟨last, by rw [of_decide_eq_true misses]⟩
  next => contradiction

/-- An embedding with one object, a point with one coordinate, which is there as `p`. -/
def Embedding.pointed : Embedding where
  types := [⟨"Point", "Point", "Point", [⟨"x", "x", "Integer"⟩], []⟩]
  objects := [⟨"Point", [("x", .integer 3)], []⟩]
  outputLimit := none
  parent := some ⟨.first, [⟨"p", "p", some "Point", some (.object "Point" 0)⟩], []⟩

/-- A session with the point and a program that it accepts. -/
theorem Embedding.exists_pointed (text : String) (test : Outcome Value → Bool)
    (passed : (Session.start .pointed).toOption.any fun session =>
      (Program.ofText text).toOption.any fun source =>
        let visit := source.analyze session.analyzer
        decide session.Covers && (visit.result.toOption.isSome &&
          test (Machine.interpret 20 visit.tree session.machine))) :
    ∃ session source program after, Session.start .pointed = .ok session ∧ session.Covers ∧
      Program.ofText text = .ok source ∧
      source.analyze session.analyzer = ⟨program, .ok (), after⟩ ∧
      test (Machine.interpret 20 program session.machine) := by
  obtain ⟨session, started, passed⟩ := exists_ok_of_any passed
  obtain ⟨source, read, passed⟩ := exists_ok_of_any passed
  simp only [Bool.and_eq_true, decide_eq_true_eq] at passed
  obtain ⟨covers, accepted, tested⟩ := passed
  cases visited : source.analyze session.analyzer with
  | mk program result after =>
    rw [visited] at accepted tested
    cases result with
    | error error => contradiction
    | ok done => exact ⟨session, source, program, after, started, covers, read, visited, tested⟩

/-- A program that gives the coordinate of the point to a variable and reads that. -/
def coordinateText : String :=
  "DEF main(): Integer DO LET y: Integer = p.x; RETURN y; END"

/-- A program that reads the coordinate of the point and the variable that it gives it to is run to
its end, and every variable is found as it should be. -/
theorem session_mirrors_of_covers_point :
    ∃ session source program after, Session.start .pointed = .ok session ∧ session.Covers ∧
      Program.ofText coordinateText = .ok source ∧
      source.analyze session.analyzer = ⟨program, .ok (), after⟩ ∧
      (Machine.interpret 20 program session.machine).value?.any (·.same (.integer 3)) ∧
      ∀ address left name slot type machine,
        program.Reaches 20 session.machine address
          (.expression (left + 1) (.variable name slot type) machine) →
        source.Consults program 20 session.analyzer session.machine address name
          (machine.store.binder? machine.active name) := by
  obtain ⟨session, source, program, after, started, covers, read, accepted, yields⟩ :=
    Embedding.exists_pointed coordinateText (·.value?.any (·.same (.integer 3)))
      (by decide +kernel)
  exact ⟨session, source, program, after, started, covers, read, accepted, yields,
    (session_mirrors_of_covers started covers accepted 20).read⟩

/-- A program that reads the coordinate of the point and then a variable of that name, which it
does not declare. -/
def undeclaredText : String :=
  "DEF main(): Integer DO LET y: Integer = p.x; RETURN x; END"

/-- A program that reads the coordinate of the point and then a variable of that name, which it does
not declare, is accepted, and its run fails in finding the variable. -/
theorem session_mirrors_of_covers_shared :
    ∃ session source program after last, Session.start .pointed = .ok session ∧ session.Covers ∧
      Program.ofText undeclaredText = .ok source ∧
      source.analyze session.analyzer = ⟨program, .ok (), after⟩ ∧
      Machine.interpret 20 program session.machine = .failed (.undefinedVariable "x") last := by
  obtain ⟨session, source, program, after, started, covers, read, accepted, fails⟩ :=
    Embedding.exists_pointed undeclaredText (·.misses "x") (by decide +kernel)
  obtain ⟨last, failed⟩ := Outcome.eq_failed_of_misses fails
  exact ⟨session, source, program, after, last, started, covers, read, accepted, failed⟩

end LetDef
