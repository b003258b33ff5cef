import LetDef.Machine.Evaluation
import LetDef.Proofs.Program.Address

/-!
# The tasks of a run

A run is made of tasks: evaluating one expression in one state of the machine, executing one
statement, carrying out one call. `Task.Starts` lists which tasks a task starts directly, in which
state each of them begins, and where its construct lies; there is one rule for each place at which
one of the functions of `LetDef.Machine.Evaluation` calls another. `Program.Reaches` collects the
tasks that a run of a program comes to, each with the address of its construct. A task has fuel, and
the tasks it starts have what is left of it, so that a run that never ends is seen through its
beginnings, which any amount of fuel allows.
-/
namespace LetDef

/-- Something that a run has to do, and the state in which it begins. -/
inductive Task where
  /-- To run a program. -/
  | program (fuel : Nat) (program : Program) (machine : Machine)
  /-- To define fields. -/
  | fields (fuel : Nat) (fields : List Field) (machine : Machine)
  /-- To evaluate an expression. -/
  | expression (fuel : Nat) (value : Expr) (machine : Machine)
  /-- To evaluate expressions in order. -/
  | expressions (fuel : Nat) (values : List Expr) (machine : Machine)
  /-- To evaluate an expression if there is one. -/
  | optional (fuel : Nat) (value : Option Expr) (machine : Machine)
  /-- To carry out a call. -/
  | call (fuel : Nat) (callable : Callable) (arguments : List Value) (machine : Machine)
  /-- To execute statements in order. -/
  | statements (fuel : Nat) (body : List Stmt) (machine : Machine)
  /-- To execute statements in a scope of their own. -/
  | block (fuel : Nat) (body : List Stmt) (machine : Machine)
  /-- To execute a statement. -/
  | statement (fuel : Nat) (statement : Stmt) (machine : Machine)
  /-- To go through the remaining items of a loop. -/
  | items (fuel : Nat) (name : String) (items : List Value) (body : List Stmt)
      (machine : Machine)
  /-- To go through the remaining rounds of a loop with a condition. -/
  | rounds (fuel : Nat) (condition : Expr) (body : List Stmt) (machine : Machine)

/-- Where the construct of a task lies, seen from the task that starts it. -/
inductive Move where
  /-- At a part of its construct; the last step comes first. -/
  | down (turns : List Turn)
  /-- At the function that is called. -/
  | call (callable : Callable)

/-- The right operand is evaluated: always, unless the left one decides a logical operator. -/
def BinaryOp.Continues (operator : BinaryOp) (left : Value) : Prop :=
  operator.isLogical = true →
    ∃ condition, left.asBoolean = .ok condition ∧ condition ≠ operator.decisive

namespace Task

/-- The second task is one that the first starts directly. -/
inductive Starts : Task → Move → Task → Prop where
  | fields {fuel program machine} :
    Starts (.program fuel program machine) (.down [.fields])
      (.fields fuel program.fields machine)
  | main {fuel program machine afterFields afterMethods main}
    (fields : Machine.defineFields fuel program.fields machine = .done () afterFields)
    (methods : Machine.defineMethods program.methods afterFields = .done () afterMethods)
    (found : afterMethods.findFunction? "main" 0 = some main) :
    Starts (.program fuel program machine) (.call main) (.call fuel main [] afterMethods)
  | fieldValue {fuel first rest machine} :
    Starts (.fields fuel (first :: rest) machine) (.down [.value, .first])
      (.optional fuel first.value machine)
  | fieldsRest {fuel first rest machine value between after}
    (evaluated : evaluateOption fuel first.value machine = .done value between)
    (defined : between.define first.name value = (true, after)) :
    Starts (.fields fuel (first :: rest) machine) (.down [.rest])
      (.fields fuel rest after)
  | inner {fuel inner type machine} :
    Starts (.expression (fuel + 1) (.group inner type) machine) (.down [.inner])
      (.expression fuel inner machine)
  | left {fuel operator left right type machine} :
    Starts (.expression (fuel + 1) (.binary operator left right type) machine) (.down [.left])
      (.expression fuel left machine)
  | right {fuel operator left right type machine value between}
    (evaluated : evaluate fuel left machine = .done value between)
    (continues : operator.Continues value) :
    Starts (.expression (fuel + 1) (.binary operator left right type) machine) (.down [.right])
      (.expression fuel right between)
  | memberReceiver {fuel receiver name slot type machine} :
    Starts (.expression (fuel + 1) (.member receiver name slot type) machine) (.down [.receiver])
      (.expression fuel receiver machine)
  | arguments {fuel name arguments slot type machine} :
    Starts (.expression (fuel + 1) (.call name arguments slot type) machine) (.down [.arguments])
      (.expressions fuel arguments machine)
  | invocation {fuel name arguments slot type machine values between callable}
    (evaluated : evaluateAll fuel arguments machine = .done values between)
    (found : between.findFunction? name values.length = some callable) :
    Starts (.expression (fuel + 1) (.call name arguments slot type) machine) (.call callable)
      (.call fuel callable values between)
  | callReceiver {fuel receiver name arguments slot type machine} :
    Starts (.expression (fuel + 1) (.memberCall receiver name arguments slot type) machine)
      (.down [.receiver]) (.expression fuel receiver machine)
  | memberArguments {fuel receiver name arguments slot type machine owner between}
    (evaluated : evaluate fuel receiver machine = .done owner between) :
    Starts (.expression (fuel + 1) (.memberCall receiver name arguments slot type) machine)
      (.down [.arguments]) (.expressions fuel arguments between)
  | memberInvocation {fuel receiver name arguments slot type machine owner between values after
      callable}
    (evaluated : evaluate fuel receiver machine = .done owner between)
    (evaluatedAll : evaluateAll fuel arguments between = .done values after)
    (found : after.method owner name values.length = .ok callable) :
    Starts (.expression (fuel + 1) (.memberCall receiver name arguments slot type) machine)
      (.call callable) (.call fuel callable (owner :: values) after)
  | firstValue {fuel first rest machine} :
    Starts (.expressions (fuel + 1) (first :: rest) machine) (.down [.first])
      (.expression fuel first machine)
  | restValues {fuel first rest machine value between}
    (evaluated : evaluate fuel first machine = .done value between) :
    Starts (.expressions (fuel + 1) (first :: rest) machine) (.down [.rest])
      (.expressions fuel rest between)
  | someValue {fuel value machine} :
    Starts (.optional (fuel + 1) (some value) machine) (.down [])
      (.expression fuel value machine)
  | methodBody {fuel declared closure arguments machine between}
    (live : machine.store.isLive closure)
    (defined : (machine.enterMethod closure).defineAll
      ((declared.parameters.map Parameter.name).zip arguments) = (none, between)) :
    Starts (.call (fuel + 1) (.method declared closure) arguments machine) (.down [.body])
      (.statements fuel declared.body between)
  | firstStatement {fuel first rest machine} :
    Starts (.statements (fuel + 1) (first :: rest) machine) (.down [.first])
      (.statement fuel first machine)
  | restStatements {fuel first rest machine between}
    (executed : execute fuel first machine = .done .normal between) :
    Starts (.statements (fuel + 1) (first :: rest) machine) (.down [.rest])
      (.statements fuel rest between)
  | blockBody {fuel body machine} :
    Starts (.block (fuel + 1) body machine) (.down [])
      (.statements fuel body machine.enter)
  | effect {fuel value machine} :
    Starts (.statement (fuel + 1) (.expression value) machine) (.down [.value])
      (.expression fuel value machine)
  | firstContent {fuel declared machine} :
    Starts (.statement (fuel + 1) (.declaration declared) machine) (.down [.value])
      (.optional fuel declared.value machine)
  | newContent {fuel name slot type value machine} :
    Starts (.statement (fuel + 1) (.assignment (.variable name slot type) value) machine)
      (.down [.value]) (.expression fuel value machine)
  | targetReceiver {fuel receiver name slot type value machine} :
    Starts (.statement (fuel + 1) (.assignment (.member receiver name slot type) value) machine)
      (.down [.receiver, .target]) (.expression fuel receiver machine)
  | newField {fuel receiver name slot type value machine owner between}
    (evaluated : evaluate fuel receiver machine = .done owner between) :
    Starts (.statement (fuel + 1) (.assignment (.member receiver name slot type) value) machine)
      (.down [.value]) (.expression fuel value between)
  | choice {fuel condition accepted rejected machine} :
    Starts (.statement (fuel + 1) (.conditional condition accepted rejected) machine)
      (.down [.condition]) (.expression fuel condition machine)
  | branch {fuel condition accepted rejected machine value between holds}
    (evaluated : evaluate fuel condition machine = .done value between)
    (decided : value.asBoolean = .ok holds) :
    Starts (.statement (fuel + 1) (.conditional condition accepted rejected) machine)
      (.down [if holds then .accepted else .rejected])
      (.block fuel (if holds then accepted else rejected) between)
  | range {fuel name value body machine} :
    Starts (.statement (fuel + 1) (.iteration name value body) machine) (.down [.value])
      (.expression fuel value machine)
  | items {fuel name value body machine items between}
    (evaluated : evaluate fuel value machine = .done (.iterable items) between) :
    Starts (.statement (fuel + 1) (.iteration name value body) machine) (.down [])
      (.items fuel name items body between)
  | rounds {fuel condition body machine} :
    Starts (.statement (fuel + 1) (.repetition condition body) machine) (.down [])
      (.rounds fuel condition body machine)
  | answer {fuel value machine} :
    Starts (.statement (fuel + 1) (.result value) machine) (.down [.value])
      (.expression fuel value machine)
  | itemBody {fuel name item items body machine between}
    (defined : machine.enter.define name item = (true, between)) :
    Starts (.items (fuel + 1) name (item :: items) body machine) (.down [.body])
      (.statements fuel body between)
  | restItems {fuel name item items body machine between after}
    (defined : machine.enter.define name item = (true, between))
    (executed : executeAll fuel body between = .done .normal after) :
    Starts (.items (fuel + 1) name (item :: items) body machine) (.down [])
      (.items fuel name items body (after.leave machine.active))
  | roundCondition {fuel condition body machine} :
    Starts (.rounds (fuel + 1) condition body machine) (.down [.condition])
      (.expression fuel condition machine)
  | roundBody {fuel condition body machine value between}
    (evaluated : evaluate fuel condition machine = .done value between)
    (holds : value.asBoolean = .ok true) :
    Starts (.rounds (fuel + 1) condition body machine) (.down [.body])
      (.block fuel body between)
  | restRounds {fuel condition body machine value between after}
    (evaluated : evaluate fuel condition machine = .done value between)
    (holds : value.asBoolean = .ok true)
    (executed : executeBlock fuel body between = .done .normal after) :
    Starts (.rounds (fuel + 1) condition body machine) (.down [])
      (.rounds fuel condition body after)

/-- A bound on the tasks that lie one below the other from here on. -/
def weight : Task → Nat
  | .program fuel whole _ => fuel + whole.fields.length + 2
  | .fields fuel remaining _ => fuel + remaining.length + 1
  | .expression fuel _ _ | .expressions fuel _ _ | .optional fuel _ _ | .call fuel _ _ _
  | .statements fuel _ _ | .block fuel _ _ | .statement fuel _ _ | .items fuel _ _ _ _
  | .rounds fuel _ _ _ => fuel

/-- The tasks that a task starts are smaller. -/
theorem Starts.weight_lt {task part : Task} {move : Move} (starts : task.Starts move part) :
    part.weight < task.weight := by
  cases starts <;> simp only [weight, List.length_cons] <;> omega

/-- The task adds a variable of this name to the scope here. -/
inductive Binds : Task → FrameId → String → Prop where
  | field {fuel first rest machine value between after}
    (evaluated : evaluateOption fuel first.value machine = .done value between)
    (defined : between.define first.name value = (true, after)) :
    Binds (.fields fuel (first :: rest) machine) between.active first.name
  | parameter {fuel declared closure arguments machine between name}
    (live : machine.store.isLive closure)
    (defined : (machine.enterMethod closure).defineAll
      ((declared.parameters.map Parameter.name).zip arguments) = (none, between))
    (listed : name ∈ ((declared.parameters.map Parameter.name).zip arguments).map Prod.fst) :
    Binds (.call (fuel + 1) (.method declared closure) arguments machine)
      (machine.enterMethod closure).active name
  | declaration {fuel declared machine value between after}
    (evaluated : evaluateOption fuel declared.value machine = .done value between)
    (defined : between.define declared.name value = (true, after)) :
    Binds (.statement (fuel + 1) (.declaration declared) machine) between.active declared.name
  | item {fuel name item items body machine between}
    (defined : machine.enter.define name item = (true, between)) :
    Binds (.items (fuel + 1) name (item :: items) body machine) machine.enter.active name

end Task

namespace Program

/-- The address of the construct of a task, by the address of the construct of the task that
starts it. A function of the host has no place in the program: it counts as part of the call. -/
def destination (program : Program) (address : Address) : Move → Address
  | .down turns => turns ++ address
  | .call (.native _) => address
  | .call (.method declared _) => program.addressOf declared

/-- A run of the program, from a state of the machine and with some fuel, comes to this task, whose
construct has this address. -/
inductive Reaches (program : Program) (fuel : Nat) (machine : Machine) :
    Address → Task → Prop where
  | start : Reaches program fuel machine [] (.program fuel program machine)
  | step {address task move part} (before : Reaches program fuel machine address task)
    (starts : task.Starts move part) :
    Reaches program fuel machine (program.destination address move) part

end Program

end LetDef
