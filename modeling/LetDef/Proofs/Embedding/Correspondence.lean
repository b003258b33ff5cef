import LetDef.Proofs.Embedding.Methods

/-!
# Tasks of a run and spots of the analysis under a host

Whatever a run of an accepted program comes to under a host, the analysis has come to as well: at
the address of each task there is a spot with the same construct, and the scopes of both lie side by
side (`HostedRun.Reaches.exists_spot`). Nothing is said of values here, so that it does not matter
which function the analysis has found for a call: the body of a method is where its spot is, whoever
calls it.
-/
namespace LetDef

open Outcome (andThen_eq_done require_eq_done)

namespace HostedRun

/-- The spot and the task have one construct, which the analysis has accepted, and their states
meet. A function of the host has no construct. -/
inductive Corresponds (run : HostedRun) : Spot → Task → Prop where
  | program :
    Corresponds run (.program run.source run.first) (.program run.fuel run.program run.start)
  | fields {sources trees analyzer fuel machine} (resting : machine.active = machine.globals)
    (passed : Visit.each Field.analyze sources analyzer = ⟨trees, .ok (), run.loaded⟩)
    (meets : run.Meets false analyzer machine) :
    Corresponds run (.fields sources analyzer) (.fields fuel trees machine)
  | expression {loaded source tree type analyzer after fuel machine}
    (analyzed : source.analyze analyzer = ⟨tree, .ok type, after⟩)
    (meets : run.Meets loaded analyzer machine) :
    Corresponds run (.expression source analyzer) (.expression fuel tree machine)
  | expressions {loaded sources trees types analyzer after fuel machine}
    (analyzed : Expr.analyzeAll sources analyzer = ⟨trees, .ok types, after⟩)
    (meets : run.Meets loaded analyzer machine) :
    Corresponds run (.expressions sources analyzer) (.expressions fuel trees machine)
  | optional {loaded source tree type analyzer after fuel machine}
    (analyzed : Expr.analyzeOption source analyzer = ⟨tree, .ok type, after⟩)
    (meets : run.Meets loaded analyzer machine) :
    Corresponds run (.optional source analyzer) (.optional fuel tree machine)
  | foreign {spot native fuel arguments machine} :
    Corresponds run spot (.call fuel (.native native) arguments machine)
  | method {source declared analyzer after fuel arguments machine}
    (method : source.Accepted declared analyzer after) (rests : run.Rests analyzer)
    (sizes : declared.parameters.length = arguments.length) (calls : run.Calls true machine) :
    Corresponds run (.method source analyzer)
      (.call fuel (.method declared machine.globals) arguments machine)
  | statements {loaded sources trees analyzer after fuel machine}
    (analyzed : Stmt.analyzeAll sources analyzer = ⟨trees, .ok (), after⟩)
    (meets : run.Meets loaded analyzer machine) :
    Corresponds run (.statements sources analyzer) (.statements fuel trees machine)
  | block {loaded sources trees analyzer after fuel machine}
    (analyzed : analyzer.within (Stmt.analyzeAll sources) = ⟨trees, .ok (), after⟩)
    (meets : run.Meets loaded analyzer machine) :
    Corresponds run (.block sources analyzer) (.block fuel trees machine)
  | statement {loaded source tree analyzer after fuel machine}
    (analyzed : source.analyze analyzer = ⟨tree, .ok (), after⟩)
    (meets : run.Meets loaded analyzer machine) :
    Corresponds run (.statement source analyzer) (.statement fuel tree machine)
  | items {loaded source name range body items analyzer after fuel machine}
    (analyzed : Stmt.analyze source analyzer = ⟨.iteration name range body, .ok (), after⟩)
    (meets : run.Meets loaded analyzer machine) :
    Corresponds run (.statement source analyzer) (.items fuel name items body machine)
  | rounds {loaded source condition body analyzer after fuel machine}
    (analyzed : Stmt.analyze source analyzer = ⟨.repetition condition body, .ok (), after⟩)
    (meets : run.Meets loaded analyzer machine) :
    Corresponds run (.statement source analyzer) (.rounds fuel condition body machine)

/-- At this address the analysis came to a spot that corresponds to the task. -/
def Meeting (run : HostedRun) (address : Address) (task : Task) : Prop :=
  ∃ spot, run.Visits address spot ∧ run.Corresponds spot task

variable {run : HostedRun} {loaded : Bool} {address : Address} {analyzer after : Analyzer}
variable {machine between : Machine} {fuel : Nat} {move : Move} {part : Task}

/-- Where the task leads and where the analysis leads, they lead together. -/
theorem Meeting.lead {spot next : Spot} {turns : List Turn} (visits : run.Visits address spot)
    (leads : spot.Leads turns next) (corresponds : run.Corresponds next part) :
    run.Meeting (run.program.destination address (.down turns)) part :=
  ⟨next, visits.step leads, corresponds⟩

/-- The task goes on at the same construct. -/
theorem Meeting.stay {spot : Spot} (visits : run.Visits address spot)
    (corresponds : run.Corresponds spot part) :
    run.Meeting (run.program.destination address (.down [])) part :=
  ⟨spot, visits, corresponds⟩

/-- What a machine calls is a function of the host, or a method, whose spot the analysis has come
to. -/
theorem Meeting.call {spot : Spot} {callable : Callable} {arguments : List Value} {id : FrameId}
    {name : String} (visits : run.Visits address spot) (calls : run.Calls loaded machine)
    (found : machine.store.localFunction? id name arguments.length = some callable) :
    run.Meeting (run.program.destination address (.call callable))
      (.call fuel callable arguments machine) := by
  rcases calls.functions id name _ callable found with foreign | ⟨rfl, declared, member, answers,
    rfl⟩
  · cases callable with
    | native => exact ⟨spot, visits, .foreign⟩
    | method => contradiction
  · obtain ⟨source, before, after, visitsMethod, rests, ⟨method⟩⟩ := run.exists_method member
    exact ⟨_, visitsMethod, .method method rests (Method.answers_iff.mp answers).2 calls⟩

/-- The states meet after an expression. -/
theorem Meets.evaluate (meets : run.Meets loaded analyzer machine) {value : Expr} {result : Value}
    (evaluated : evaluate fuel value machine = .done result between) :
    run.Meets loaded analyzer between :=
  meets.keep (((runsWithin _ fuel).expression value machine meets.confined).of_done evaluated)

/-- The states meet after expressions. -/
theorem Meets.evaluateAll (meets : run.Meets loaded analyzer machine) {values : List Expr}
    {results : List Value} (evaluated : evaluateAll fuel values machine = .done results between) :
    run.Meets loaded analyzer between :=
  meets.keep (((runsWithin _ fuel).expressions values machine meets.confined).of_done evaluated)

/-- What an expression starts has its spot. -/
theorem meeting_expression {source tree : Expr} {type : Ty}
    (visits : run.Visits address (.expression source analyzer))
    (analyzed : source.analyze analyzer = ⟨tree, .ok type, after⟩)
    (meets : run.Meets loaded analyzer machine)
    (starts : (Task.expression fuel tree machine).Starts move part) :
    run.Meeting (run.program.destination address move) part := by
  cases Expr.passes_of_analyze analyzed with
  | literal | «variable» => cases starts
  | group operated passed =>
    cases starts with
    | inner => exact .lead visits (.inner operated) (.expression passed meets)
  | binary passed passedRight =>
    cases starts with
    | left => exact .lead visits .left (.expression passed meets)
    | right evaluated _ =>
      have gains := Expr.gains_analyze _ (visits.step .left) passed
      exact .lead visits (.right passed)
        (.expression passedRight ((meets.evaluate evaluated).share gains))
  | member passed =>
    cases starts with
    | memberReceiver => exact .lead visits .memberReceiver (.expression passed meets)
  | call passed =>
    cases starts with
    | arguments => exact .lead visits .arguments (.expressions passed meets)
    | invocation evaluated found =>
      obtain ⟨id, _, held⟩ := List.exists_of_findSome?_eq_some found
      exact .call visits (meets.evaluateAll evaluated).calls held
  | memberCall passed passedReceiver =>
    have gains := Expr.gains_analyzeAll _ (visits.step .memberArguments) passed
    cases starts with
    | callReceiver =>
      exact .lead visits (.callReceiver passed) (.expression passedReceiver (meets.share gains))
    | memberArguments evaluated =>
      exact .lead visits .memberArguments (.expressions passed (meets.evaluate evaluated))
    | @memberInvocation _ _ _ _ _ _ _ _ _ _ _ callable evaluated evaluatedAll found =>
      have met := (meets.evaluate evaluated).evaluateAll evaluatedAll
      have foreign := met.calls.methods _ _ _ _ found
      cases callable with
      | native => exact ⟨_, visits, .foreign⟩
      | method => contradiction

/-- What expressions start has its spot. -/
theorem meeting_expressions {sources trees : List Expr} {types : List Ty}
    (visits : run.Visits address (.expressions sources analyzer))
    (analyzed : Expr.analyzeAll sources analyzer = ⟨trees, .ok types, after⟩)
    (meets : run.Meets loaded analyzer machine)
    (starts : (Task.expressions fuel trees machine).Starts move part) :
    run.Meeting (run.program.destination address move) part := by
  cases sources with
  | nil =>
    obtain ⟨rfl, _⟩ := Expr.analyzeAll_nil_eq_ok analyzed
    cases starts
  | cons source rest =>
    obtain ⟨tree, others, _, _, _, rfl, passed, passedRest⟩ := Expr.analyzeAll_cons_eq_ok analyzed
    cases starts with
    | firstValue => exact .lead visits .firstValue (.expression passed meets)
    | restValues evaluated =>
      have gains := Expr.gains_analyze source (visits.step .firstValue) passed
      exact .lead visits (.restValues passed)
        (.expressions passedRest ((meets.evaluate evaluated).share gains))

/-- What an optional expression starts has its spot. -/
theorem meeting_optional {source tree : Option Expr} {type : Option Ty}
    (visits : run.Visits address (.optional source analyzer))
    (analyzed : Expr.analyzeOption source analyzer = ⟨tree, .ok type, after⟩)
    (meets : run.Meets loaded analyzer machine)
    (starts : (Task.optional fuel tree machine).Starts move part) :
    run.Meeting (run.program.destination address move) part := by
  cases source with
  | none =>
    obtain ⟨rfl, _⟩ := Expr.analyzeOption_none_eq_ok analyzed
    cases starts
  | some value =>
    obtain ⟨part, _, rfl, passed⟩ := Expr.analyzeOption_some_eq_ok analyzed
    cases starts with
    | someValue => exact .lead visits .someValue (.expression passed meets)

/-- What a call starts has its spot. -/
theorem meeting_method {source declared : Method} {arguments : List Value}
    (visits : run.Visits address (.method source analyzer))
    (reached : run.Reaches address
      (.call fuel (.method declared machine.globals) arguments machine))
    (method : source.Accepted declared analyzer after) (rests : run.Rests analyzer)
    (sizes : declared.parameters.length = arguments.length) (calls : run.Calls true machine)
    (starts : (Task.call fuel (.method declared machine.globals) arguments machine).Starts move
      part) : run.Meeting (run.program.destination address move) part := by
  cases starts with
  | methodBody live defined =>
    have entered := calls.enterMethod (rests.named method)
    obtain ⟨_, _, arity⟩ := Method.signatureIn_eq_ok method.known
    have names : (source.parameterVariables method.signature.parameters).map Variable.name =
        declared.parameters.map Parameter.name := by
      rw [method.parameters, Method.map_name_parameterVariables arity]
    have namesRun : ((declared.parameters.map Parameter.name).zip arguments).map Prod.fst =
        declared.parameters.map Parameter.name :=
      List.map_fst_zip (Nat.le_of_eq ((List.length_map _).trans sizes))
    have gains : method.named.enter.Gains run.Shares (declared.parameters.map Parameter.name)
        method.entered := names ▸ Analyzer.Gains.ofDefineAll method.distinct
    have becomes : (machine.enterMethod machine.globals).Becomes (fun _ => True)
        (declared.parameters.map Parameter.name) _ :=
      namesRun ▸ Machine.Becomes.ofDefineAll_none
        (Store.lt_size_of_isLive entered.beside.liveRun) defined
    have body := entered.pass gains becomes fun name listed =>
      .construct visits reached
        (.parameter method.known method.defined method.distinct (method.parameters ▸ listed))
        (.parameter live defined (namesRun.symm ▸ listed))
    exact .lead visits (.methodBody method.known method.defined method.empty method.distinct)
      (.statements method.body (body.returns _))

/-- What a statement declares it declares on both sides. -/
theorem counterparts_declared {source tree : Stmt} {flow : Flow}
    (visits : run.Visits address (.statement source analyzer))
    (reached : run.Reaches address (.statement fuel tree machine))
    (analyzed : source.analyze analyzer = ⟨tree, .ok (), after⟩)
    (meets : run.Meets loaded analyzer machine)
    (executed : execute fuel tree machine = .done flow between) {name : String}
    (listed : name ∈ tree.declared) : run.Counterparts analyzer.active machine.active name := by
  cases Stmt.passes_of_analyze analyzed with
  | @declaration declared tree _ passed =>
    obtain rfl := List.mem_singleton.mp listed
    obtain ⟨_, _, _, _, sameName, _⟩ := Declaration.analyze_eq_ok passed
    cases fuel with
    | zero => contradiction
    | succ fuel =>
      obtain ⟨value, next, evaluated, executed⟩ := andThen_eq_done.mp executed
      obtain ⟨_, _, required, _⟩ := andThen_eq_done.mp executed
      have kept :=
        ((runsWithin _ fuel).optional tree.value machine meets.confined).of_done evaluated
      have known : Spot.Binds (.statement (.declaration declared) analyzer) analyzer.active
        tree.name := sameName ▸ .declaration passed
      have bound : Task.Binds (.statement (fuel + 1) (.declaration tree) machine)
        machine.active tree.name :=
        kept.active ▸ .declaration evaluated (require_eq_done.mp required)
      exact .construct visits reached known bound
  | _ => contradiction

/-- What statements start has its spot. -/
theorem meeting_statements {sources trees : List Stmt}
    (visits : run.Visits address (.statements sources analyzer))
    (reached : run.Reaches address (.statements fuel trees machine))
    (analyzed : analyzer.AcceptsAll sources trees after)
    (meets : run.Meets loaded analyzer machine)
    (starts : (Task.statements fuel trees machine).Starts move part) :
    run.Meeting (run.program.destination address move) part := by
  cases starts with
  | firstStatement =>
    obtain ⟨_, _, _, rfl, passed, _⟩ := analyzed.cons
    exact .lead visits .firstStatement (.statement passed meets)
  | @restStatements fuel first _ _ _ executed =>
    obtain ⟨source, _, _, rfl, passed, passedRest⟩ := analyzed.cons
    have visitsFirst := visits.step .firstStatement
    have gains := Stmt.gains_analyze source visitsFirst passed
    have becomes :=
      ((runsWithin _ fuel).statement first machine meets.confined).of_done executed
    have met := meets.pass gains becomes fun name listed =>
      counterparts_declared visitsFirst (reached.step .firstStatement) passed meets executed listed
    exact .lead visits (.restStatements passed) (.statements passedRest met)

/-- What a block starts has its spot. -/
theorem meeting_block {sources trees : List Stmt}
    (visits : run.Visits address (.block sources analyzer))
    (analyzed : analyzer.within (Stmt.analyzeAll sources) = ⟨trees, .ok (), after⟩)
    (meets : run.Meets loaded analyzer machine)
    (starts : (Task.block fuel trees machine).Starts move part) :
    run.Meeting (run.program.destination address move) part := by
  cases starts with
  | blockBody =>
    obtain ⟨_, passed, _⟩ := Analyzer.within_eq_ok.mp analyzed
    exact .lead visits .blockBody (.statements passed meets.enter)

/-- What a statement starts has its spot. -/
theorem meeting_statement {source tree : Stmt}
    (visits : run.Visits address (.statement source analyzer))
    (analyzed : source.analyze analyzer = ⟨tree, .ok (), after⟩)
    (meets : run.Meets loaded analyzer machine)
    (starts : (Task.statement fuel tree machine).Starts move part) :
    run.Meeting (run.program.destination address move) part := by
  cases Stmt.passes_of_analyze analyzed with
  | expression called passed =>
    cases starts with
    | effect => exact .lead visits (.effect called) (.expression passed meets)
  | declaration passed =>
    obtain ⟨_, _, _, _, _, known, passedValue, _⟩ := Declaration.analyze_eq_ok passed
    cases starts with
    | firstContent => exact .lead visits (.firstContent known) (.optional passedValue meets)
  | assignment placed passed passedValue =>
    have gains := Expr.gains_analyze _ (visits.step (.target placed)) passed
    cases starts with
    | newContent =>
      exact .lead visits (.content placed passed) (.expression passedValue (meets.share gains))
    | targetReceiver =>
      cases Expr.passes_of_analyze passed with
      | member passedReceiver =>
        have visitsReceiver := (visits.step (.target placed)).step .memberReceiver
        exact ⟨_, visitsReceiver, .expression passedReceiver meets⟩
    | newField evaluated =>
      exact .lead visits (.content placed passed)
        (.expression passedValue ((meets.evaluate evaluated).share gains))
  | conditional passed suits filled passedYes passedNo =>
    have gains := Expr.gains_analyze _ (visits.step .choice) passed
    cases starts with
    | choice => exact .lead visits .choice (.expression passed meets)
    | @branch _ _ _ _ _ _ _ holds evaluated _ =>
      have met := (meets.evaluate evaluated).share gains
      cases holds with
      | true => exact .lead visits (.accepted passed suits filled) (.block passedYes met)
      | false =>
        have visitsYes := visits.step (.accepted passed suits filled)
        exact .lead visits (.rejected passed suits filled passedYes)
          (.block passedNo (met.share (Stmt.extends_within _ visitsYes passedYes).gains))
  | iteration passed suits filled defined passedBody =>
    cases starts with
    | range => exact .lead visits .range (.expression passed meets)
    | items evaluated => exact .stay visits (.items analyzed (meets.evaluate evaluated))
  | repetition passed suits passedBody =>
    cases starts with
    | rounds => exact .stay visits (.rounds analyzed meets)
  | result passed =>
    cases starts with
    | answer => exact .lead visits .answer (.expression passed meets)

/-- What the rounds of a loop start has its spot. -/
theorem meeting_items {source : Stmt} {name : String} {range : Expr} {items : List Value}
    {body : List Stmt} (visits : run.Visits address (.statement source analyzer))
    (reached : run.Reaches address (.items fuel name items body machine))
    (analyzed : source.analyze analyzer = ⟨.iteration name range body, .ok (), after⟩)
    (meets : run.Meets loaded analyzer machine)
    (starts : (Task.items fuel name items body machine).Starts move part) :
    run.Meeting (run.program.destination address move) part := by
  cases Stmt.passes_of_analyze analyzed with
  | iteration passed suits filled defined passedBody =>
    have gains := Expr.gains_analyze _ (visits.step .range) passed
    have entered := (meets.share gains).enter
    cases starts with
    | itemBody bound =>
      have becomes : machine.enter.Becomes (fun _ => True) [name] _ :=
        Machine.Becomes.ofDefine bound
      have met := entered.pass (Analyzer.Gains.ofDefine defined) becomes fun other listed =>
        List.mem_singleton.mp listed ▸
          .construct visits reached (.iteration passed defined) (.item bound)
      exact .lead visits (.itemBody passed suits filled defined) (.statements passedBody met)
    | @restItems fuel _ _ _ _ _ next _ bound executed =>
      have becomes : machine.enter.Becomes (fun _ => True) [name] next :=
        Machine.Becomes.ofDefine bound
      have confined := entered.confined
      have ran := (((runsWithin _ fuel).statements body next
        (confined.become becomes)).after confined becomes).of_done executed
      obtain ⟨_, ran⟩ := ran
      exact .stay visits (.items analyzed (meets.keep ran.ofEntered))

/-- What the rounds of a loop with a condition start has its spot. -/
theorem meeting_rounds {source : Stmt} {condition : Expr} {body : List Stmt}
    (visits : run.Visits address (.statement source analyzer))
    (analyzed : source.analyze analyzer = ⟨.repetition condition body, .ok (), after⟩)
    (meets : run.Meets loaded analyzer machine)
    (starts : (Task.rounds fuel condition body machine).Starts move part) :
    run.Meeting (run.program.destination address move) part := by
  cases Stmt.passes_of_analyze analyzed with
  | repetition passed suits passedBody =>
    have gains := Expr.gains_analyze _ (visits.step .roundCondition) passed
    cases starts with
    | roundCondition => exact .lead visits .roundCondition (.expression passed meets)
    | roundBody evaluated _ =>
      exact .lead visits (.roundBody passed suits)
        (.block passedBody ((meets.evaluate evaluated).share gains))
    | @restRounds fuel _ _ _ _ _ _ evaluated _ executed =>
      have met := meets.evaluate evaluated
      have ran := ((runsWithin _ fuel).block body _ met.confined).of_done executed
      exact .stay visits (.rounds analyzed (met.keep ran))

/-- After a field has been defined, the states meet again. -/
theorem meets_field {source first : Field} {later rest : List Field} {value : Value}
    {next : Machine} (resting : machine.active = machine.globals)
    (visits : run.Visits address (.fields (source :: later) analyzer))
    (reached : run.Reaches address (.fields fuel (first :: rest) machine))
    (analyzed : source.analyze analyzer = ⟨first, .ok (), after⟩)
    (meets : run.Meets loaded analyzer machine)
    (evaluated : evaluateOption fuel first.value machine = .done value between)
    (defined : between.define first.name value = (true, next)) :
    run.Meets loaded after next ∧ next.active = next.globals := by
  obtain ⟨_, _, _, _, name, _⟩ := Field.analyze_eq_ok analyzed
  have begun := ((runsWithin _ fuel).optional first.value machine meets.confined).of_done evaluated
  have added : between.Becomes (fun _ => True) [first.name] next :=
    Machine.Becomes.ofDefine defined
  have becomes := begun.trans meets.confined.placed added
  refine ⟨meets.pass (Field.gains_analyze visits analyzed) becomes fun other listed => ?_, ?_⟩
  · obtain rfl := List.mem_singleton.mp listed
    have known : Spot.Binds (.fields (source :: later) analyzer) analyzer.active first.name :=
      name ▸ .field analyzed
    have bound : Task.Binds (.fields fuel (first :: rest) machine) machine.active first.name :=
      begun.active ▸ .field evaluated defined
    exact .construct visits reached known bound
  · rw [becomes.active, becomes.globals]
    exact resting

/-- What fields start has its spot. -/
theorem meeting_fields {sources trees : List Field} (resting : machine.active = machine.globals)
    (visits : run.Visits address (.fields sources analyzer))
    (reached : run.Reaches address (.fields fuel trees machine))
    (passed : Visit.each Field.analyze sources analyzer = ⟨trees, .ok (), run.loaded⟩)
    (meets : run.Meets false analyzer machine)
    (starts : (Task.fields fuel trees machine).Starts move part) :
    run.Meeting (run.program.destination address move) part := by
  cases starts with
  | fieldValue =>
    obtain ⟨_, _, _, rfl, analyzed, _⟩ := Visit.each_eq_ok passed
    obtain ⟨_, _, _, _, _, written, passedValue, _⟩ := Field.analyze_eq_ok analyzed
    exact .lead visits (.fieldValue written) (.optional passedValue meets)
  | fieldsRest evaluated defined =>
    obtain ⟨_, _, _, rfl, analyzed, passedRest⟩ := Visit.each_eq_ok passed
    obtain ⟨met, rests⟩ := meets_field resting visits reached analyzed meets evaluated defined
    exact .lead visits (.fieldsRest analyzed) (.fields rests passedRest met)

/-- After all fields, the state meets that of the analysis after them. -/
theorem meets_loaded {sources trees : List Field} {next : Machine}
    (resting : machine.active = machine.globals)
    (visits : run.Visits address (.fields sources analyzer))
    (reached : run.Reaches address (.fields fuel trees machine))
    (passed : Visit.each Field.analyze sources analyzer = ⟨trees, .ok (), run.loaded⟩)
    (meets : run.Meets false analyzer machine)
    (defined : Machine.defineFields fuel trees machine = .done () next) :
    run.Meets false run.loaded next ∧ next.active = next.globals := by
  induction trees generalizing sources analyzer machine address with
  | nil =>
    obtain ⟨_, same⟩ := Visit.each_nil_eq_ok passed
    cases defined
    exact ⟨same ▸ meets, resting⟩
  | cons first rest ih =>
    obtain ⟨_, _, _, rfl, analyzed, passedRest⟩ := Visit.each_eq_ok passed
    obtain ⟨value, between, evaluated, defined⟩ := andThen_eq_done.mp defined
    obtain ⟨_, after, required, defined⟩ := andThen_eq_done.mp defined
    have bound := require_eq_done.mp required
    obtain ⟨met, rests⟩ := meets_field resting visits reached analyzed meets evaluated bound
    exact ih rests (visits.step (.fieldsRest analyzed)) (reached.step (.fieldsRest evaluated bound))
      passedRest met defined

/-- What the program starts has its spot. -/
theorem meeting_program (visits : run.Visits address (.program run.source run.first))
    (reached : run.Reaches address (.program run.fuel run.program run.start))
    (starts : (Task.program run.fuel run.program run.start).Starts move part) :
    run.Meeting (run.program.destination address move) part := by
  cases starts with
  | fields =>
    exact .lead visits .fields (.fields run.hosted.restingRun run.fields (Meets.start run))
  | main fields methods found =>
    obtain ⟨met, rests⟩ := meets_loaded run.hosted.restingRun (visits.step .fields)
      (reached.step .fields) run.fields (Meets.start run) fields
    obtain ⟨id, _, held⟩ := List.exists_of_findSome?_eq_some found
    exact .call visits (met.load rests methods) held

/-- What a task starts has a spot if the task has one. -/
theorem Meeting.step {task : Task} (meeting : run.Meeting address task)
    (reached : run.Reaches address task) (starts : task.Starts move part) :
    run.Meeting (run.program.destination address move) part := by
  obtain ⟨spot, visits, corresponds⟩ := meeting
  cases corresponds with
  | program => exact meeting_program visits reached starts
  | fields resting passed meets =>
    exact meeting_fields resting visits reached passed meets starts
  | expression analyzed meets => exact meeting_expression visits analyzed meets starts
  | expressions analyzed meets => exact meeting_expressions visits analyzed meets starts
  | optional analyzed meets => exact meeting_optional visits analyzed meets starts
  | foreign => cases starts
  | method method rests sizes calls =>
    exact meeting_method visits reached method rests sizes calls starts
  | statements analyzed meets => exact meeting_statements visits reached analyzed meets starts
  | block analyzed meets => exact meeting_block visits analyzed meets starts
  | statement analyzed meets => exact meeting_statement visits analyzed meets starts
  | items analyzed meets => exact meeting_items visits reached analyzed meets starts
  | rounds analyzed meets => exact meeting_rounds visits analyzed meets starts

/-- The analysis has come to whatever a run comes to. -/
theorem Reaches.exists_spot {task : Task} (reached : run.Reaches address task) :
    run.Meeting address task := by
  induction reached with
  | start => exact ⟨_, .start, .program⟩
  | step before starts ih => exact ih.step before starts

end HostedRun

end LetDef
