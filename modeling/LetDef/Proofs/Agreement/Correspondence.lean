import LetDef.Proofs.Agreement.Loading

/-!
# Tasks of a run and spots of the analysis

Whatever a run of an accepted program comes to, the analysis has come to as well: at the address of
each task there is a spot with the same construct, in which the analysis was in a state that meets
the state of the task (`AcceptedRun.Reaches.exists_spot`). The proof follows the rules by which a
task starts others, with one lemma for each kind of task. A call leads to the spot of the method
that is called, which the analysis has visited between two methods, wherever the call stands.
-/
namespace LetDef

open Outcome (andThen_eq_done leaving_eq_done ofExcept_eq_done require_eq_done)

namespace AcceptedRun

/-- The spot and the task have one construct, which the analysis has accepted, and their states
meet, before the methods are loaded or after it. -/
inductive Corresponds (run : AcceptedRun) : Bool → Spot → Task → Prop where
  | program :
    Corresponds run false (.program run.accepted.source .fresh)
      (.program run.fuel run.accepted.program (.fresh run.limit))
  | fields {sources trees analyzer fuel machine} (blank : analyzer.Blank) (blankRun : machine.Blank)
    (passed : Visit.each Field.analyze sources analyzer = ⟨trees, .ok (), run.accepted.loaded⟩)
    (meets : run.Meets false analyzer machine) :
    Corresponds run false (.fields sources analyzer) (.fields fuel trees machine)
  | expression {loaded source tree type analyzer fuel machine}
    (types : analyzer.Types source tree type) (meets : run.Meets loaded analyzer machine) :
    Corresponds run loaded (.expression source analyzer) (.expression fuel tree machine)
  | expressions {loaded sources trees types analyzer fuel machine}
    (types : analyzer.TypesAll sources trees types) (meets : run.Meets loaded analyzer machine) :
    Corresponds run loaded (.expressions sources analyzer) (.expressions fuel trees machine)
  | optional {loaded source tree type analyzer fuel machine}
    (types : analyzer.TypesOption source tree type) (meets : run.Meets loaded analyzer machine) :
    Corresponds run loaded (.optional source analyzer) (.optional fuel tree machine)
  | builtin {loaded source analyzer fuel arguments machine} (builtin : Builtin) :
    Corresponds run loaded (.expression source analyzer)
      (.call fuel builtin.callable arguments machine)
  | method {source declared analyzer after fuel arguments machine}
    (method : source.Accepted declared analyzer after) (rests : analyzer.Rests run.accepted)
    (member : declared ∈ run.accepted.program.methods)
    (admitted : run.accepted.AdmitsAll method.signature.parameters arguments)
    (meets : run.Meets true analyzer machine.atGlobals) :
    Corresponds run true (.method source analyzer)
      (.call fuel (.method declared machine.globals) arguments machine)
  | statements {loaded sources trees last analyzer fuel machine}
    (accepts : analyzer.AcceptsAll sources trees last) (apart : analyzer.active ≠ analyzer.globals)
    (meets : run.Meets loaded analyzer machine) :
    Corresponds run loaded (.statements sources analyzer) (.statements fuel trees machine)
  | block {loaded sources trees last analyzer fuel machine}
    (accepts : analyzer.AcceptsBlock sources trees last)
    (meets : run.Meets loaded analyzer machine) :
    Corresponds run loaded (.block sources analyzer) (.block fuel trees machine)
  | statement {loaded source tree last analyzer fuel machine}
    (accepts : analyzer.Accepts source tree last)
    (apart : analyzer.active ≠ analyzer.globals) (meets : run.Meets loaded analyzer machine) :
    Corresponds run loaded (.statement source analyzer) (.statement fuel tree machine)
  | items {loaded source name range body last items analyzer fuel machine}
    (accepts : analyzer.Accepts source (.iteration name range body) last)
    (whole : ∀ item ∈ items, run.accepted.Admits .integer item)
    (meets : run.Meets loaded analyzer machine) :
    Corresponds run loaded (.statement source analyzer) (.items fuel name items body machine)
  | rounds {loaded source condition body last analyzer fuel machine}
    (accepts : analyzer.Accepts source (.repetition condition body) last)
    (meets : run.Meets loaded analyzer machine) :
    Corresponds run loaded (.statement source analyzer) (.rounds fuel condition body machine)

/-- The analysis comes to this spot, which lies in a method if the methods are loaded. -/
structure Passes (run : AcceptedRun) (loaded : Bool) (address : Address) (spot : Spot) : Prop where
  /-- The analysis comes to the spot. -/
  visits : run.accepted.Visits address spot
  /-- The spot lies in a method or not. -/
  inMethod : address.inMethod = loaded

/-- At this address the analysis came to a spot that corresponds to the task. -/
def Meeting (run : AcceptedRun) (address : Address) (task : Task) : Prop :=
  ∃ loaded spot, run.Passes loaded address spot ∧ run.Corresponds loaded spot task

variable {run : AcceptedRun} {loaded : Bool} {address : Address} {analyzer last : Analyzer}
variable {machine : Machine} {fuel : Nat} {move : Move} {part : Task}

/-- The analysis goes on inside a method, or outside. -/
theorem Passes.step {spot next : Spot} {turns : List Turn} (passes : run.Passes loaded address spot)
    (leads : spot.Leads turns next) (other : ∀ sources analyzer, next ≠ .methods sources analyzer) :
    run.Passes loaded (turns ++ address) next :=
  ⟨passes.visits.step leads,
    (Address.inMethod_append (leads.not_mem_turns other) address).trans passes.inMethod⟩

/-- Where the task leads and where the analysis leads, they lead together. -/
theorem Meeting.lead {spot next : Spot} {turns : List Turn}
    (passes : run.Passes loaded address spot) (leads : spot.Leads turns next)
    (corresponds : run.Corresponds loaded next part) :
    run.Meeting (run.accepted.program.destination address (.down turns)) part := by
  refine ⟨loaded, next, passes.step leads fun _ _ same => ?_, corresponds⟩
  subst same
  cases corresponds

/-- A call of a method of the program leads to its spot. -/
theorem Meeting.call {declared : Method} {arguments : List Value}
    (meets : run.Meets true analyzer machine)
    (member : declared ∈ run.accepted.program.methods)
    (admitted : ∀ signature, declared.slot = some signature →
      run.accepted.AdmitsAll signature.parameters arguments) :
    run.Meeting
      (run.accepted.program.destination address (.call (.method declared machine.globals)))
      (.call fuel (.method declared machine.globals) arguments machine) := by
  obtain ⟨source, before, after, visits, rests, ⟨method⟩⟩ := run.accepted.exists_method member
  exact ⟨true, _, ⟨visits, run.accepted.program.inMethod_addressOf declared⟩,
    .method method rests member (admitted _ method.slot) (meets.callee rests)⟩

/-- What an expression starts has its spot. -/
theorem meeting_expression {source tree : Expr} {type : Ty}
    (passes : run.Passes loaded address (.expression source analyzer))
    (types : analyzer.Types source tree type) (meets : run.Meets loaded analyzer machine)
    (starts : (Task.expression fuel tree machine).Starts move part) :
    run.Meeting (run.accepted.program.destination address move) part := by
  have bare := meets.agrees.standing.bare
  cases starts with
  | inner =>
    obtain ⟨_, rfl, operated, typesInner, _⟩ := types.group bare
    exact .lead passes (.inner operated) (.expression typesInner meets)
  | left =>
    obtain ⟨_, _, _, _, rfl, typesLeft, _, _, _⟩ := types.binary bare
    exact .lead passes .left (.expression typesLeft meets)
  | right evaluated _ =>
    obtain ⟨_, _, _, _, rfl, typesLeft, typesRight, _, _⟩ := types.binary bare
    exact .lead passes (.right typesLeft)
      (.expression typesRight (meets.evaluate typesLeft evaluated).2)
  | arguments =>
    obtain ⟨_, _, _, rfl, typesAll, _⟩ := types.call bare
    exact .lead passes .arguments (.expressions typesAll meets)
  | invocation evaluated resolved =>
    obtain ⟨_, argumentTypes, found, rfl, typesAll, known, suits, _⟩ := types.call bare
    obtain ⟨admitted, between⟩ := meets.evaluateAll typesAll evaluated
    rw [← admitted.length_eq] at known
    obtain ⟨callable, same, resolves⟩ := between.agrees.exists_callable known
    obtain rfl := Option.some.inj (resolved.symm.trans same)
    cases resolves with
    | @builtin builtin _ _ =>
      cases builtin
      exact ⟨_, _, passes, .builtin .print⟩
    | @method declared _ loads member answers filled =>
      refine .call (between.loaded_eq loads ▸ between) member fun signature held => ?_
      obtain rfl := Option.some.inj (filled.symm.trans held)
      refine admitted.assign ?_ suits
      rw [run.accepted.length_parameters member filled answers, admitted.length_eq]
    | @shadowing builtin declared isBuiltin loads member answers =>
      have shadowed := Acceptance.not_unshadowed isBuiltin member answers
      exact .call (between.loaded_eq loads ▸ between) member fun signature held =>
        Acceptance.admitsAll_of_shadowed shadowed
          (run.accepted.length_parameters member held answers).symm
  | memberReceiver => exact absurd types (Analyzer.Types.not_member bare)
  | callReceiver | memberArguments | memberInvocation =>
    exact absurd types (Analyzer.Types.not_memberCall bare)

/-- What expressions start has its spot. -/
theorem meeting_expressions {sources trees : List Expr} {types : List Ty}
    (passes : run.Passes loaded address (.expressions sources analyzer))
    (typesAll : analyzer.TypesAll sources trees types) (meets : run.Meets loaded analyzer machine)
    (starts : (Task.expressions fuel trees machine).Starts move part) :
    run.Meeting (run.accepted.program.destination address move) part := by
  have bare := meets.agrees.standing.bare
  cases starts with
  | firstValue =>
    obtain ⟨_, _, _, _, rfl, _, typesFirst, _⟩ := typesAll.cons bare
    exact .lead passes .firstValue (.expression typesFirst meets)
  | restValues evaluated =>
    obtain ⟨_, _, _, _, rfl, _, typesFirst, typesRest⟩ := typesAll.cons bare
    exact .lead passes (.restValues typesFirst)
      (.expressions typesRest (meets.evaluate typesFirst evaluated).2)

/-- What an optional expression starts has its spot. -/
theorem meeting_optional {source tree : Option Expr} {type : Option Ty}
    (passes : run.Passes loaded address (.optional source analyzer))
    (types : analyzer.TypesOption source tree type) (meets : run.Meets loaded analyzer machine)
    (starts : (Task.optional fuel tree machine).Starts move part) :
    run.Meeting (run.accepted.program.destination address move) part := by
  cases starts with
  | someValue =>
    obtain ⟨_, _, rfl, _, typesSome⟩ := types.some meets.agrees.standing.bare
    exact .lead passes .someValue (.expression typesSome meets)

/-- The names that a method takes its arguments by have one origin. -/
theorem origin_parameter {source declared : Method} {after : Analyzer} {arguments : List Value}
    {between : Machine} (passes : run.Passes loaded address (.method source analyzer))
    (reached : run.Reaches address
      (.call (fuel + 1) (.method declared machine.globals) arguments machine))
    (method : source.Accepted declared analyzer after)
    (admitted : run.accepted.AdmitsAll method.signature.parameters arguments)
    (live : machine.store.isLive machine.globals)
    (defined : (machine.enterMethod machine.globals).defineAll
      ((declared.parameters.map Parameter.name).zip arguments) = (none, between))
    {name : String} (listed : name ∈ declared.parameters.map Parameter.name) :
    run.Origin method.named.enter.active (machine.enterMethod machine.globals).active name := by
  obtain ⟨_, _, sizes⟩ := Method.signatureIn_eq_ok method.known
  refine ⟨address, _, _, passes.visits, reached,
    .parameter method.known method.defined method.distinct (method.parameters ▸ listed),
    .parameter live defined ?_⟩
  rw [List.map_fst_zip]
  · exact listed
  · rw [List.length_map, admitted.length_eq, method.parameters]
    exact Nat.le_of_eq sizes.symm

/-- What a call starts has its spot. -/
theorem meeting_method {source declared : Method} {after : Analyzer} {arguments : List Value}
    (passes : run.Passes true address (.method source analyzer))
    (reached : run.Reaches address
      (.call fuel (.method declared machine.globals) arguments machine))
    (method : source.Accepted declared analyzer after) (rests : analyzer.Rests run.accepted)
    (member : declared ∈ run.accepted.program.methods)
    (admitted : run.accepted.AdmitsAll method.signature.parameters arguments)
    (meets : run.Meets true analyzer machine.atGlobals)
    (starts : (Task.call fuel (.method declared machine.globals) arguments machine).Starts move
      part) : run.Meeting (run.accepted.program.destination address move) part := by
  cases starts with
  | methodBody live defined =>
    have named : run.Meets true method.named machine.atGlobals :=
      meets.callee (rests.named method member)
    obtain ⟨between, same, body, apart⟩ := named.exists_body admitted fun name listed =>
      origin_parameter passes reached method admitted live defined listed
    obtain rfl := (Prod.mk.inj (same.symm.trans defined)).2
    exact .lead passes (.methodBody method.known method.defined method.empty method.distinct)
      (.statements method.body apart body)

/-- What a declaration adds has one origin. -/
theorem origin_declared {source tree : Stmt} {flow : Flow} {after : Machine}
    (passes : run.Passes loaded address (.statement source analyzer))
    (reached : run.Reaches address (.statement fuel tree machine))
    (accepts : analyzer.Accepts source tree last) (meets : run.Meets loaded analyzer machine)
    (executed : execute fuel tree machine = .done flow after) {name : String}
    (listed : name ∈ tree.declared) : run.Origin analyzer.active machine.active name := by
  cases tree with
  | declaration declared =>
    obtain rfl := List.mem_singleton.mp listed
    obtain ⟨written, _, _, rfl, sameName, _⟩ := accepts.declaration meets.agrees.standing.bare
    cases fuel with
    | zero => contradiction
    | succ fuel =>
      obtain ⟨value, between, evaluated, executed⟩ := andThen_eq_done.mp executed
      obtain ⟨_, _, required, _⟩ := andThen_eq_done.mp executed
      have kept := (runsWithin machine.Outer fuel).optional declared.value machine
        meets.agrees.confined
      rw [evaluated] at kept
      have known : Spot.Binds (.statement (.declaration written) analyzer) analyzer.active
        declared.name := sameName ▸ .declaration accepts.declared.1
      have bound : Task.Binds (.statement (fuel + 1) (.declaration declared) machine)
        machine.active declared.name :=
        kept.active ▸ .declaration evaluated (require_eq_done.mp required)
      exact ⟨address, _, _, passes.visits, reached, known, bound⟩
  | _ => contradiction

/-- What statements start has its spot. -/
theorem meeting_statements {sources trees : List Stmt}
    (passes : run.Passes loaded address (.statements sources analyzer))
    (reached : run.Reaches address (.statements fuel trees machine))
    (accepts : analyzer.AcceptsAll sources trees last)
    (apart : analyzer.active ≠ analyzer.globals) (meets : run.Meets loaded analyzer machine)
    (starts : (Task.statements fuel trees machine).Starts move part) :
    run.Meeting (run.accepted.program.destination address move) part := by
  cases starts with
  | firstStatement =>
    obtain ⟨_, _, _, rfl, acceptsFirst, _⟩ := accepts.cons
    exact .lead passes .firstStatement (.statement acceptsFirst apart meets)
  | @restStatements fuel first _ _ between executed =>
    obtain ⟨source, _, next, rfl, acceptsFirst, acceptsRest⟩ := accepts.cons
    have grown := (Analyzer.Accepts.grows meets.agrees.standing.bare first acceptsFirst).1
    have passesFirst := passes.step .firstStatement fun _ _ => Spot.noConfusion
    have reachedFirst := reached.step .firstStatement
    have after := meets.execute acceptsFirst apart executed fun name listed =>
      origin_declared passesFirst reachedFirst acceptsFirst meets executed listed
    refine .lead passes (.restStatements acceptsFirst) (.statements acceptsRest ?_ after)
    rw [grown.active, grown.globals]
    exact apart

/-- What a block starts has its spot. -/
theorem meeting_block {sources trees : List Stmt}
    (passes : run.Passes loaded address (.block sources analyzer))
    (accepts : analyzer.AcceptsBlock sources trees last) (meets : run.Meets loaded analyzer machine)
    (starts : (Task.block fuel trees machine).Starts move part) :
    run.Meeting (run.accepted.program.destination address move) part := by
  cases starts with
  | blockBody =>
    obtain ⟨_, acceptsAll, _⟩ := accepts
    have apart : analyzer.enter.active ≠ analyzer.enter.globals :=
      Nat.ne_of_gt (Store.lt_size_of_isLive meets.agrees.standing.nested.liveGlobals)
    exact .lead passes .blockBody (.statements acceptsAll apart meets.enter)

/-- What a statement starts has its spot. -/
theorem meeting_statement {source tree : Stmt}
    (passes : run.Passes loaded address (.statement source analyzer))
    (accepts : analyzer.Accepts source tree last) (meets : run.Meets loaded analyzer machine)
    (starts : (Task.statement fuel tree machine).Starts move part) :
    run.Meeting (run.accepted.program.destination address move) part := by
  have bare := meets.agrees.standing.bare
  cases starts with
  | effect =>
    obtain ⟨_, _, rfl, called, types, _⟩ := accepts.expression bare
    exact .lead passes (.effect called) (.expression types meets)
  | firstContent =>
    obtain ⟨_, _, _, rfl, _, types, _⟩ := accepts.declaration bare
    obtain ⟨_, _, known⟩ := accepts.declared
    exact .lead passes (.firstContent known) (.optional types meets)
  | newContent =>
    obtain ⟨_, _, _, _, rfl, placed, typesTarget, typesValue, _⟩ := accepts.assignment bare
    exact .lead passes (.content placed typesTarget) (.expression typesValue meets)
  | targetReceiver | newField =>
    obtain ⟨_, _, _, _, _, _, typesTarget, _⟩ := accepts.assignment bare
    exact absurd typesTarget (Analyzer.Types.not_member bare)
  | choice =>
    obtain ⟨_, _, _, _, _, rfl, types, _⟩ := accepts.conditional bare
    exact .lead passes .choice (.expression types meets)
  | @branch _ _ _ _ _ _ _ holds evaluated _ =>
    obtain ⟨_, _, _, _, _, rfl, types, suits, filled, acceptsYes, acceptsNo⟩ :=
      accepts.conditional bare
    have between := (meets.evaluate types evaluated).2
    cases holds with
    | true => exact .lead passes (.accepted types suits filled) (.block acceptsYes between)
    | false =>
      have passed := Analyzer.within_eq_ok.mpr acceptsYes
      have beside := between.extend (acceptsYes.extends bare)
      exact .lead passes (.rejected types suits filled passed) (.block acceptsNo beside)
  | range =>
    obtain ⟨_, _, _, _, _, rfl, types, _⟩ := accepts.iteration bare
    exact .lead passes .range (.expression types meets)
  | items evaluated =>
    obtain ⟨_, _, _, _, _, _, types, takes, _⟩ := accepts.iteration bare
    obtain ⟨admits, between⟩ := meets.evaluate types evaluated
    refine ⟨_, _, passes, .items accepts (fun item member unshadowed => ?_) between⟩
    rcases (admits unshadowed).assign takes with missing | ⟨_, same, integers⟩
    · contradiction
    · injection same with same
      exact .inr (integers item (same ▸ member))
  | rounds => exact ⟨_, _, passes, .rounds accepts meets⟩
  | answer =>
    obtain ⟨_, _, _, rfl, types, _⟩ := accepts.result bare
    exact .lead passes .answer (.expression types meets)

/-- What the rounds of a loop start has its spot. -/
theorem meeting_items {source : Stmt} {name : String} {range : Expr} {items : List Value}
    {body : List Stmt} (passes : run.Passes loaded address (.statement source analyzer))
    (reached : run.Reaches address (.items fuel name items body machine))
    (accepts : analyzer.Accepts source (.iteration name range body) last)
    (whole : ∀ item ∈ items, run.accepted.Admits .integer item)
    (meets : run.Meets loaded analyzer machine)
    (starts : (Task.items fuel name items body machine).Starts move part) :
    run.Meeting (run.accepted.program.destination address move) part := by
  obtain ⟨_, _, _, entered, _, rfl, types, suits, filled, defined, acceptsBody, _⟩ :=
    accepts.iteration meets.agrees.standing.bare
  have apart : analyzer.enter.active ≠ analyzer.enter.globals :=
    Nat.ne_of_gt (Store.lt_size_of_isLive meets.agrees.standing.nested.liveGlobals)
  have begin : ∀ {fuel item rest between}, items = item :: rest →
      run.Reaches address (.items (fuel + 1) name (item :: rest) body machine) →
      machine.enter.define name item = (true, between) → run.Meets loaded entered between := by
    rintro fuel item rest between rfl reached bound
    obtain ⟨after, same, agrees⟩ := meets.agrees.enter.define (fun _ => apart) defined
      (whole item List.mem_cons_self)
    obtain rfl := (Prod.mk.inj (same.symm.trans bound)).2
    exact meets.enter.define defined bound agrees
      ⟨address, _, _, passes.visits, reached, .iteration types defined, .item bound⟩
  cases starts with
  | itemBody bound =>
    have begun := begin rfl reached bound
    have grown := Analyzer.Grows.ofDefine defined
    refine .lead passes (.itemBody types suits filled defined) (.statements acceptsBody ?_ begun)
    rw [grown.active, grown.globals]
    exact apart
  | @restItems fuel _ item rest _ _ between after bound executed =>
    have begun := begin rfl reached bound
    have becomes : machine.enter.Becomes machine.Outer [name] between :=
      Machine.Becomes.ofDefine bound
    obtain ⟨_, agrees⟩ := (soundWithin run.accepted fuel).enter_succ
      (Analyzer.Grows.ofDefine defined) acceptsBody meets.agrees begun.agrees becomes executed
    have confined := meets.agrees.confined.enter
    have kept := ((runsWithin machine.Outer fuel).statements body between
      (confined.become becomes)).after confined becomes
    rw [executed] at kept
    obtain ⟨_, kept⟩ := kept
    have remaining : ∀ other ∈ rest, run.accepted.Admits .integer other := fun other member =>
      whole other (List.mem_cons_of_mem item member)
    have met := meets.keep (Machine.Becomes.ofEntered kept) agrees
    exact ⟨_, _, passes, .items accepts remaining met⟩

/-- What the rounds of a loop with a condition start has its spot. -/
theorem meeting_rounds {source : Stmt} {condition : Expr} {body : List Stmt}
    (passes : run.Passes loaded address (.statement source analyzer))
    (accepts : analyzer.Accepts source (.repetition condition body) last)
    (meets : run.Meets loaded analyzer machine)
    (starts : (Task.rounds fuel condition body machine).Starts move part) :
    run.Meeting (run.accepted.program.destination address move) part := by
  obtain ⟨_, _, _, rfl, types, suits, acceptsBody⟩ :=
    accepts.repetition meets.agrees.standing.bare
  cases starts with
  | roundCondition => exact .lead passes .roundCondition (.expression types meets)
  | roundBody evaluated _ =>
    exact .lead passes (.roundBody types suits)
      (.block acceptsBody (meets.evaluate types evaluated).2)
  | restRounds evaluated _ executed =>
    have between := (meets.evaluate types evaluated).2
    exact ⟨_, _, passes, .rounds accepts (between.executeBlock acceptsBody executed)⟩

/-- A field can be defined, and after it the remaining ones have their spot. -/
theorem exists_field {sources rest : List Field} {first : Field} {value : Value}
    {between : Machine} (blank : analyzer.Blank) (blankRun : machine.Blank)
    (passes : run.Passes false address (.fields sources analyzer))
    (reached : run.Reaches address (.fields fuel (first :: rest) machine))
    (passed : Visit.each Field.analyze sources analyzer =
      ⟨first :: rest, .ok (), run.accepted.loaded⟩) (meets : run.Meets false analyzer machine)
    (evaluated : evaluateOption fuel first.value machine = .done value between) :
    ∃ after later next, between.define first.name value = (true, after) ∧
      run.Passes false (.rest :: address) (.fields later next) ∧ next.Blank ∧
      after.Blank ∧ run.Meets false next after ∧
      Visit.each Field.analyze later next = ⟨rest, .ok (), run.accepted.loaded⟩ := by
  obtain ⟨source, later, next, rfl, analyzed, passedRest⟩ := Visit.each_eq_ok passed
  obtain ⟨_, type, name, _, types, takes, known⟩ :=
    Analyzer.field_eq_ok meets.agrees.standing.bare analyzed
  obtain ⟨admits, metBetween⟩ := meets.evaluateOption types evaluated
  have kept := (runsWithin machine.Outer fuel).optional first.value machine meets.agrees.confined
  rw [evaluated] at kept
  have unloaded : ¬ between.Loads run.accepted := by
    intro loads
    obtain ⟨declared, member, answers⟩ := run.accepted.exists_main
    have loaded := loads "main" 0
    rw [(blankRun.become kept).functions,
      run.accepted.method?_eq_some_iff.mpr ⟨member, answers⟩] at loaded
    contradiction
  obtain ⟨after, defined, agrees⟩ := metBetween.agrees.define (fun loads => absurd loads unloaded)
    known (admits type takes)
  have origin : run.Origin analyzer.active between.active first.name :=
    ⟨address, _, _, passes.visits, reached, name ▸ .field analyzed, .field evaluated defined⟩
  have becomes : between.Becomes machine.Outer [first.name] after :=
    Machine.Becomes.ofDefine defined
  exact ⟨after, later, next, defined,
    passes.step (.fieldsRest analyzed) (fun _ _ => Spot.noConfusion),
    blank.pass analyzed,
    (blankRun.become kept).become becomes, metBetween.define known defined agrees origin,
    passedRest⟩

/-- After all fields, the state meets that of the analysis after them. -/
theorem meets_loaded {sources trees : List Field} {after : Machine} (blank : analyzer.Blank)
    (blankRun : machine.Blank) (passes : run.Passes false address (.fields sources analyzer))
    (reached : run.Reaches address (.fields fuel trees machine))
    (passed : Visit.each Field.analyze sources analyzer = ⟨trees, .ok (), run.accepted.loaded⟩)
    (meets : run.Meets false analyzer machine)
    (defined : Machine.defineFields fuel trees machine = .done () after) :
    run.Meets false run.accepted.loaded after ∧ after.Blank := by
  induction trees generalizing sources analyzer machine address with
  | nil =>
    obtain ⟨_, same⟩ := Visit.each_nil_eq_ok passed
    cases defined
    exact ⟨same ▸ meets, blankRun⟩
  | cons first rest ih =>
    obtain ⟨value, between, evaluated, defined⟩ := andThen_eq_done.mp defined
    obtain ⟨_, next, required, defined⟩ := andThen_eq_done.mp defined
    have bound := require_eq_done.mp required
    obtain ⟨_, later, known, same, passesRest, blankNext, blankAfter, meetsRest, passedRest⟩ :=
      exists_field blank blankRun passes reached passed meets evaluated
    obtain rfl := (Prod.mk.inj (same.symm.trans bound)).2
    exact ih blankNext blankAfter passesRest (reached.step (.fieldsRest evaluated bound)) passedRest
      meetsRest defined

/-- What fields start has its spot. -/
theorem meeting_fields {sources trees : List Field} (blank : analyzer.Blank)
    (blankRun : machine.Blank) (passes : run.Passes false address (.fields sources analyzer))
    (reached : run.Reaches address (.fields fuel trees machine))
    (passed : Visit.each Field.analyze sources analyzer = ⟨trees, .ok (), run.accepted.loaded⟩)
    (meets : run.Meets false analyzer machine)
    (starts : (Task.fields fuel trees machine).Starts move part) :
    run.Meeting (run.accepted.program.destination address move) part := by
  cases starts with
  | fieldValue =>
    obtain ⟨_, _, _, rfl, analyzed, _⟩ := Visit.each_eq_ok passed
    obtain ⟨_, _, _, written, types, _⟩ :=
      Analyzer.field_eq_ok meets.agrees.standing.bare analyzed
    exact .lead passes (.fieldValue written) (.optional types meets)
  | fieldsRest evaluated defined =>
    obtain ⟨_, _, _, same, passesRest, blankNext, blankAfter, meetsRest, passedRest⟩ :=
      exists_field blank blankRun passes reached passed meets evaluated
    obtain rfl := (Prod.mk.inj (same.symm.trans defined)).2
    exact ⟨_, _, passesRest, .fields blankNext blankAfter passedRest meetsRest⟩

/-- After its fields, a run defines its methods and finds `main`. -/
theorem exists_loaded {afterFields : Machine}
    (passes : run.Passes false address (.program run.accepted.source .fresh))
    (reached : run.Reaches address (.program run.fuel run.accepted.program (.fresh run.limit)))
    (computed : Machine.defineFields run.fuel run.accepted.program.fields (.fresh run.limit) =
      .done () afterFields) {main : Method} (member : main ∈ run.accepted.program.methods)
    (answers : main.answers "main" 0) :
    ∃ after, Machine.defineMethods run.accepted.program.methods afterFields = .done () after ∧
      run.Meets true run.accepted.loaded after ∧
      after.findFunction? "main" 0 = some (.method main after.globals) := by
  obtain ⟨loaded, blank⟩ := meets_loaded Analyzer.fresh_blank (Machine.fresh_blank run.limit)
    (passes.step .fields fun _ _ => Spot.noConfusion) (reached.step .fields) run.accepted.fields
    (Meets.start run) computed
  obtain ⟨after, methods, meets⟩ := loaded.exists_loads blank
  refine ⟨after, methods, meets, ?_⟩
  rw [Machine.findFunction?, meets.agrees.running.nested.findFunction?_eq, meets.loads,
    run.accepted.method?_eq_some_iff.mpr ⟨member, answers⟩]
  rfl

/-- What the program starts has its spot. -/
theorem meeting_program
    (passes : run.Passes false address (.program run.accepted.source .fresh))
    (reached : run.Reaches address (.program run.fuel run.accepted.program (.fresh run.limit)))
    (starts : (Task.program run.fuel run.accepted.program (.fresh run.limit)).Starts move part) :
    run.Meeting (run.accepted.program.destination address move) part := by
  cases starts with
  | fields =>
    exact .lead passes .fields (.fields Analyzer.fresh_blank (Machine.fresh_blank run.limit)
      run.accepted.fields (Meets.start run))
  | main fields methods found =>
    obtain ⟨declared, member, answers⟩ := run.accepted.exists_main
    obtain ⟨_, same, meets, called⟩ := exists_loaded passes reached fields member answers
    cases same.symm.trans methods
    obtain rfl := Option.some.inj (called.symm.trans found)
    refine .call meets member fun signature filled => ?_
    have sizes := run.accepted.length_parameters member filled answers
    rw [List.length_eq_zero_iff.mp sizes]
    trivial

/-- What a task starts has a spot if the task has one. -/
theorem Meeting.step {task : Task} (meeting : run.Meeting address task)
    (reached : run.Reaches address task) (starts : task.Starts move part) :
    run.Meeting (run.accepted.program.destination address move) part := by
  obtain ⟨loaded, spot, passes, corresponds⟩ := meeting
  cases corresponds with
  | program => exact meeting_program passes reached starts
  | fields blank blankRun passed meets =>
    exact meeting_fields blank blankRun passes reached passed meets starts
  | expression types meets => exact meeting_expression passes types meets starts
  | expressions types meets => exact meeting_expressions passes types meets starts
  | optional types meets => exact meeting_optional passes types meets starts
  | builtin builtin =>
    cases builtin
    cases starts
  | method method rests member admitted meets =>
    exact meeting_method passes reached method rests member admitted meets starts
  | statements accepts apart meets =>
    exact meeting_statements passes reached accepts apart meets starts
  | block accepts meets => exact meeting_block passes accepts meets starts
  | statement accepts _ meets => exact meeting_statement passes accepts meets starts
  | items accepts whole meets => exact meeting_items passes reached accepts whole meets starts
  | rounds accepts meets => exact meeting_rounds passes accepts meets starts

/-- The analysis has come to whatever a run comes to. -/
theorem Reaches.exists_spot {task : Task} (reached : run.Reaches address task) :
    run.Meeting address task := by
  induction reached with
  | start => exact ⟨false, _, ⟨.start, rfl⟩, .program⟩
  | step before starts ih => exact ih.step before starts

end AcceptedRun

end LetDef
