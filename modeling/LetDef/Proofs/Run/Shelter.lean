import LetDef.Proofs.Run.Resumption
import LetDef.Proofs.Run.Task
import LetDef.Proofs.Scope.Shelter

/-!
# The scopes of a run are kept alive

Every task begins in the scope of the task that starts it, in a new scope inside that, or in a new
scope inside the closure of a method (`Task.Starts.leads`). The frames that are left for the time
being are held by the task that goes back to them. So wherever a run has come to, the frames between
its active scope and the closure of the innermost call are owned, and so are the global and the base
scope (`Task.Arrives.sheltered`). No rule asks for a program that has been analysed.
-/
namespace LetDef

/-- The scopes that a machine stands in. -/
def Machine.position (machine : Machine) : Position Value Callable :=
  ⟨machine.store, machine.base, machine.globals, machine.active⟩

/-- A machine that continues stands in the same scopes. -/
theorem Machine.Continues.position {before after : Machine} (continues : before.Continues after) :
    before.position.Resumes after.position :=
  ⟨continues.base, continues.globals, continues.active, continues.store⟩

/-- A machine that is where it was stands in the same scopes. -/
theorem Machine.Resumes.position {before after : Machine} (resumes : before.Resumes after) :
    before.position.Resumes after.position :=
  resumes.continues.position

/-- A new scope has no functions of its own. -/
theorem Machine.localFunction?_enter (machine : Machine) (id : FrameId) (name : String)
    (arity : Nat) : machine.enter.store.localFunction? id name arity =
      machine.store.localFunction? id name arity :=
  Store.localFunction?_child name arity

/-- The scope of a method has no functions of its own. -/
theorem Machine.localFunction?_enterMethod (machine : Machine) (closure id : FrameId)
    (name : String) (arity : Nat) :
    (machine.enterMethod closure).store.localFunction? id name arity =
      machine.store.localFunction? id name arity :=
  (Store.localFunction?_child name arity).trans (Store.localFunction?_retain name arity)

/-- The global scope is the same, and the functions that have been added are methods that remember
it. -/
structure Machine.Extends (before after : Machine) : Prop where
  /-- The global scope stays. -/
  globals : after.globals = before.globals
  /-- Objects keep their methods. -/
  methods : after.methods = before.methods
  /-- The functions were there before or are methods that remember the global scope. -/
  functions : ∀ id name arity callable,
    after.store.localFunction? id name arity = some callable →
      before.store.localFunction? id name arity = some callable ∨
        ∃ declared, callable = .method declared before.globals

/-- Nothing need be added. -/
theorem Machine.Extends.refl (machine : Machine) : machine.Extends machine :=
  ⟨rfl, rfl, fun _ _ _ _ found => .inl found⟩

/-- Functions may be added twice. -/
theorem Machine.Extends.trans {before middle after : Machine} (first : before.Extends middle)
    (second : middle.Extends after) : before.Extends after where
  globals := second.globals.trans first.globals
  methods := second.methods.trans first.methods
  functions id name arity callable found := by
    rcases second.functions id name arity callable found with earlier | ⟨declared, added⟩
    · exact first.functions id name arity callable earlier
    · exact .inr ⟨declared, first.globals ▸ added⟩

/-- The callable is a function of the host, or a method that remembers this scope. -/
def Callable.Of (globals : FrameId) : Callable → Prop
  | .native _ => True
  | .method _ closure => closure = globals

/-- The machine knows no method that remembers another scope than its global one. -/
structure Machine.Closed (machine : Machine) : Prop where
  /-- The functions of its scopes are such. -/
  functions : ∀ id name arity callable,
    machine.store.localFunction? id name arity = some callable → callable.Of machine.globals
  /-- The methods of its objects are such. -/
  methods : ∀ owner name arity callable, machine.method owner name arity = .ok callable →
    callable.Of machine.globals

/-- What extends a closed machine is closed. -/
theorem Machine.Closed.extend {before after : Machine} (closed : before.Closed)
    (extended : before.Extends after) : after.Closed where
  functions id name arity callable found := by
    rw [extended.globals]
    rcases extended.functions id name arity callable found with earlier | ⟨declared, rfl⟩
    · exact closed.functions id name arity callable earlier
    · rfl
  methods owner name arity callable found := by
    have same : after.method owner name arity = before.method owner name arity := by
      cases owner <;> simp only [Machine.method, extended.methods]
    rw [extended.globals]
    exact closed.methods owner name arity callable (same ▸ found)

namespace Task

/-- The state in which a task begins. -/
def machine : Task → Machine
  | program _ _ machine | fields _ _ machine | expression _ _ machine | expressions _ _ machine
  | optional _ _ machine | call _ _ _ machine | statements _ _ machine | block _ _ machine
  | statement _ _ machine | items _ _ _ _ machine | rounds _ _ _ machine => machine

/-- The state in which a task ends, if it does. -/
def state? : Task → Option Machine
  | program fuel whole machine => (Machine.interpret fuel whole machine).state?
  | fields fuel remaining machine => (Machine.defineFields fuel remaining machine).state?
  | expression fuel value machine => (evaluate fuel value machine).state?
  | expressions fuel values machine => (evaluateAll fuel values machine).state?
  | optional fuel value machine => (evaluateOption fuel value machine).state?
  | call fuel callable arguments machine => (invoke fuel callable arguments machine).state?
  | statements fuel body machine => (executeAll fuel body machine).state?
  | block fuel body machine => (executeBlock fuel body machine).state?
  | statement fuel executed machine => (execute fuel executed machine).state?
  | items fuel name remaining body machine => (iterate fuel name remaining body machine).state?
  | rounds fuel condition body machine => (repetition fuel condition body machine).state?

/-- The way from a task into one that it starts: the body of a block, of a round over an item and of
a method have a scope of their own. -/
def entry : Task → Task → Entry
  | block .., statements .. => .scope
  | items .., statements .. => .scope
  | call _ (.method _ closure) _ _, statements .. => .method closure
  | _, _ => .same

/-- A run that began with the first task has come to this one, while these frames are held, and its
surroundings begin at `home`. -/
inductive Arrives (first : Task) : List FrameId → FrameId → Task → Prop where
  | start : Arrives first [] first.machine.globals first
  | step {held home task move part} (before : Arrives first held home task)
    (starts : task.Starts move part) :
    Arrives first ((task.entry part).saves task.machine.active ++ held)
      ((task.entry part).home home) part

/-- A task passes this state itself, having gone on in this way: at its beginning and at its end,
and where the scope for a method or for a round has got its variables, or some of them. -/
inductive Traverses : Task → Entry → Machine → Prop where
  | beginning {task} : Traverses task .same task.machine
  | ending {task machine} (ended : task.state? = some machine) : Traverses task .same machine
  | parameters {fuel declared closure arguments machine refused between}
    (live : machine.store.isLive closure)
    (defined : (machine.enterMethod closure).defineAll
      ((declared.parameters.map Parameter.name).zip arguments) = (refused, between)) :
    Traverses (.call (fuel + 1) (.method declared closure) arguments machine) (.method closure)
      between
  | item {fuel name item items body machine success between}
    (defined : machine.enter.define name item = (success, between)) :
    Traverses (.items (fuel + 1) name (item :: items) body machine) .scope between

variable {task part first : Task} {move : Move} {entry : Entry} {machine before after : Machine}
variable {held : List FrameId} {home : FrameId}

/-- The task is to run a program. -/
def IsProgram : Task → Prop
  | program .. => True
  | _ => False

/-- How the work of a task goes on in a state: where it was, in a new scope, or in the scope of a
method. Only the run of a whole program adds functions. -/
inductive Opens (task : Task) : Entry → Machine → Prop where
  | same {state} (resumes : task.machine.Resumes state) : Opens task .same state
  | loaded {state} (whole : task.IsProgram) (continues : task.machine.Continues state) :
    Opens task .same state
  | scope {state} (resumes : task.machine.enter.Resumes state) : Opens task .scope state
  | method {closure state} (live : task.machine.store.isLive closure)
    (resumes : (task.machine.enterMethod closure).Resumes state) :
    Opens task (.method closure) state

/-- The work goes on in the scope that its way leads to. -/
theorem Opens.leads {state : Machine} (opens : task.Opens entry state) :
    entry.Leads task.machine.position state.position := by
  cases opens with
  | same resumes => exact ⟨.refl _, nofun, resumes.position⟩
  | loaded _ continues => exact ⟨.refl _, nofun, continues.position⟩
  | scope resumes => exact ⟨.refl _, nofun, resumes.position⟩
  | method live resumes =>
    refine ⟨.refl _, fun other same => ?_, resumes.position⟩
    cases same
    exact live

/-- The work adds only methods that remember the global scope. -/
theorem Opens.extends {state : Machine} (opens : task.Opens entry state)
    (rests : task.IsProgram → task.machine.active = task.machine.globals) :
    task.machine.Extends state := by
  cases opens with
  | same resumes =>
    refine ⟨resumes.globals, resumes.methods, fun id name arity callable found => .inl ?_⟩
    rwa [resumes.store.localFunction?_eq] at found
  | loaded whole continues =>
    exact ⟨continues.globals, continues.methods, rests whole ▸ continues.functions⟩
  | scope resumes =>
    refine ⟨resumes.globals, resumes.methods, fun id name arity callable found => .inl ?_⟩
    rwa [resumes.store.localFunction?_eq, Machine.localFunction?_enter] at found
  | method live resumes =>
    refine ⟨resumes.globals, resumes.methods, fun id name arity callable found => .inl ?_⟩
    rwa [resumes.store.localFunction?_eq, Machine.localFunction?_enterMethod] at found

/-- A task that ends is where it was. -/
theorem opens_of_state? (ended : task.state? = some after) : task.Opens .same after := by
  cases task with
  | program fuel whole machine =>
    exact .loaded trivial ((Machine.continues_interpret fuel whole machine).state ended)
  | fields fuel remaining machine =>
    have grows : (Machine.defineFields fuel remaining machine).Grows _ machine :=
      effect_resumes.defineFields fuel remaining trivial
    obtain ⟨_, resumes⟩ := grows.state ended
    exact .same resumes
  | expression fuel value machine =>
    exact .same (((runsResuming fuel).expression value machine trivial).state ended)
  | expressions fuel values machine =>
    exact .same (((runsResuming fuel).expressions values machine trivial).state ended)
  | optional fuel value machine =>
    exact .same (((runsResuming fuel).optional value machine trivial).state ended)
  | call fuel callable arguments machine =>
    exact .same (((runsResuming fuel).call callable arguments machine trivial trivial).state ended)
  | statements fuel body machine =>
    obtain ⟨_, resumes⟩ := ((runsResuming fuel).statements body machine trivial).state ended
    exact .same resumes
  | block fuel body machine =>
    exact .same (((runsResuming fuel).block body machine trivial).state ended)
  | statement fuel executed machine =>
    exact .same (((runsResuming fuel).statement executed machine trivial).state ended)
  | items fuel name remaining body machine =>
    exact .same (((runsResuming fuel).items name remaining body machine trivial).state ended)
  | rounds fuel condition body machine =>
    exact .same (((runsResuming fuel).rounds condition body machine trivial).state ended)

/-- A task begins in the scope of the one that starts it, or in a new scope that this has
entered. -/
theorem Starts.opens (starts : task.Starts move part) :
    task.Opens (task.entry part) part.machine := by
  cases starts
  case main fields methods found =>
    have begun := (Machine.continues_defineFields _ _ _).of_done fields
    exact .loaded trivial (begun.trans ((Machine.continues_defineMethods _ _).of_done methods))
  case fieldsRest evaluated defined =>
    have begun := ((runsResuming _).optional _ _ trivial).of_done evaluated
    exact .same (begun.trans (Machine.Resumes.ofDefine defined))
  case right evaluated _ =>
    exact .same (((runsResuming _).expression _ _ trivial).of_done evaluated)
  case invocation evaluated _ =>
    exact .same (((runsResuming _).expressions _ _ trivial).of_done evaluated)
  case memberArguments evaluated =>
    exact .same (((runsResuming _).expression _ _ trivial).of_done evaluated)
  case memberInvocation evaluated evaluatedAll _ =>
    have begun := ((runsResuming _).expression _ _ trivial).of_done evaluated
    exact .same (begun.trans (((runsResuming _).expressions _ _ trivial).of_done evaluatedAll))
  case restValues evaluated =>
    exact .same (((runsResuming _).expression _ _ trivial).of_done evaluated)
  case methodBody live defined =>
    obtain ⟨_, _, resumes⟩ := effect_resumes.defineAll trivial defined
    exact .method live resumes
  case restStatements executed =>
    exact .same (((runsResuming _).statement _ _ trivial).of_done executed)
  case blockBody => exact .scope (Machine.Resumes.refl _)
  case newField evaluated =>
    exact .same (((runsResuming _).expression _ _ trivial).of_done evaluated)
  case branch evaluated _ =>
    exact .same (((runsResuming _).expression _ _ trivial).of_done evaluated)
  case items evaluated =>
    exact .same (((runsResuming _).expression _ _ trivial).of_done evaluated)
  case itemBody defined => exact .scope (Machine.Resumes.ofDefine defined)
  case restItems defined executed =>
    obtain ⟨_, ran⟩ := ((runsResuming _).statements _ _ trivial).of_done executed
    exact .same ((Machine.Resumes.ofDefine defined).trans ran).ofEntered
  case roundBody evaluated _ =>
    exact .same (((runsResuming _).expression _ _ trivial).of_done evaluated)
  case restRounds evaluated _ executed =>
    have begun := ((runsResuming _).expression _ _ trivial).of_done evaluated
    exact .same (begun.trans (((runsResuming _).block _ _ trivial).of_done executed))
  -- The other tasks begin in the state of the task that starts them.
  all_goals exact .same (Machine.Resumes.refl _)

/-- No task starts the run of a whole program. -/
theorem Starts.not_isProgram (starts : task.Starts move part) : ¬ part.IsProgram := by
  cases starts <;> exact not_false

/-- A state that a task passes is in the scope in which the task has begun, or in a new one that it
has entered. -/
theorem Traverses.opens {state : Machine} (traverses : task.Traverses entry state) :
    task.Opens entry state := by
  cases traverses with
  | beginning => exact .same (Machine.Resumes.refl _)
  | ending ended => exact opens_of_state? ended
  | parameters live defined =>
    obtain ⟨_, _, resumes⟩ := effect_resumes.defineAll trivial defined
    exact .method live resumes
  | item defined => exact .scope (Machine.Resumes.ofDefine defined)

/-- Where a run that began at rest runs a whole program, it is at rest. -/
theorem Arrives.rests (arrives : first.Arrives held home task)
    (founded : first.machine.position.Founded) (whole : task.IsProgram) :
    task.machine.active = task.machine.globals := by
  cases arrives with
  | start => exact founded.active
  | step _ starts => exact absurd whole starts.not_isProgram

/-- Wherever a run that began at rest has come to, its scopes are sheltered. -/
theorem Arrives.sheltered (arrives : first.Arrives held home task)
    (founded : first.machine.position.Founded) : task.machine.position.Sheltered home held := by
  induction arrives with
  | start => exact founded.sheltered
  | step _ starts ih => exact ih.lead starts.opens.leads

/-- Wherever a run that began at rest has come to, only methods that remember the global scope have
been added. -/
theorem Arrives.extends (arrives : first.Arrives held home task)
    (founded : first.machine.position.Founded) : first.machine.Extends task.machine := by
  induction arrives with
  | start => exact Machine.Extends.refl _
  | step before starts ih => exact ih.trans (starts.opens.extends (before.rests founded))

/-- What a task that carries out a call has to call. -/
def callable? : Task → Option Callable
  | call _ callable _ _ => some callable
  | _ => none

/-- A call that a task starts is one of something that its machine finds. -/
theorem Starts.found (starts : task.Starts move part) {callable : Callable}
    (calls : part.callable? = some callable) :
    (∃ name arity, part.machine.findFunction? name arity = some callable) ∨
      ∃ owner name arity, part.machine.method owner name arity = .ok callable := by
  cases starts
  case main found =>
    cases calls
    exact .inl ⟨_, _, found⟩
  case invocation found =>
    cases calls
    exact .inl ⟨_, _, found⟩
  case memberInvocation found =>
    cases calls
    exact .inr ⟨_, _, _, found⟩
  all_goals cases calls

/-- In a closed machine every call is one of a function of the host or of a method that remembers
the global scope. -/
theorem Arrives.calls (arrives : first.Arrives held home task)
    (founded : first.machine.position.Founded) (closed : first.machine.Closed)
    (begins : ∀ callable, first.callable? = some callable → callable.Of first.machine.globals)
    {callable : Callable} (calls : task.callable? = some callable) :
    callable.Of first.machine.globals := by
  cases arrives with
  | start => exact begins callable calls
  | step before starts =>
    have extended := (before.step starts).extends founded
    have closedThere := closed.extend extended
    rw [← extended.globals]
    rcases starts.found calls with ⟨name, arity, found⟩ | ⟨owner, name, arity, found⟩
    · obtain ⟨id, _, listed⟩ := List.exists_of_findSome?_eq_some found
      exact closedThere.functions id name arity callable listed
    · exact closedThere.methods owner name arity callable found

/-- The scope of a method is entered by a call of that method alone. -/
theorem exists_of_entry {closure : FrameId} (entered : task.entry part = .method closure) :
    ∃ declared, task.callable? = some (.method declared closure) := by
  unfold entry at entered
  split at entered
  · cases entered
  · cases entered
  · cases entered
    exact ⟨_, rfl⟩
  · cases entered

/-- In a closed machine the surroundings of every task begin at the global scope. -/
theorem Arrives.home_eq (arrives : first.Arrives held home task)
    (founded : first.machine.position.Founded) (closed : first.machine.Closed)
    (begins : ∀ callable, first.callable? = some callable → callable.Of first.machine.globals) :
    home = first.machine.globals := by
  induction arrives with
  | start => rfl
  | @step _ _ task _ part before _ ih =>
    cases entered : task.entry part with
    | same => exact ih
    | scope => exact ih
    | method closure =>
      obtain ⟨declared, calls⟩ := exists_of_entry entered
      exact before.calls founded closed begins calls

/-- In a closed machine the surroundings of every state that a task passes begin at the global
scope. -/
theorem Arrives.home_of_traverses (arrives : first.Arrives held home task)
    (founded : first.machine.position.Founded) (closed : first.machine.Closed)
    (begins : ∀ callable, first.callable? = some callable → callable.Of first.machine.globals)
    {state : Machine} (traverses : task.Traverses entry state) :
    entry.home home = first.machine.globals := by
  have around := arrives.home_eq founded closed begins
  cases traverses with
  | beginning => exact around
  | ending => exact around
  | parameters => exact arrives.calls founded closed begins rfl
  | item => exact around

end Task

end LetDef
