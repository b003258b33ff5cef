import LetDef.Compilation
import LetDef.Embedding.Basic

/-!
# Sessions

A session keeps one analyzer, one machine and one current program over a sequence of commands.
Names that a command leaves defined are there for the next one, whether the command succeeds or
fails. Every command starts with an empty output of its own.
-/
namespace LetDef

/-- A program as a command gives it. -/
inductive ProgramSource where
  /-- A text. -/
  | text (text : String)
  /-- Tokens. -/
  | tokens (tokens : List Token)

/-- The program that a command gives. -/
def ProgramSource.read : ProgramSource → Except Error Program
  | .text written => Program.ofText written
  | .tokens given =>
    match Program.ofTokens given with
    | .ok program => .ok program
    | .error error => .error (.parse error)

/-- What a session is told to do. -/
inductive Session.Command where
  /-- Make a program the current one. -/
  | parse (source : ProgramSource)
  /-- Analyse a program and make it the current one. -/
  | analyze (source : ProgramSource)
  /-- Show the current program. -/
  | current
  /-- Write the current program in Java a number of times. -/
  | generate (times : Nat)
  /-- Run the current program. -/
  | interpret
  /-- Evaluate an expression. -/
  | evaluate (text : String)
  /-- Call a global function. -/
  | invoke (name : String) (arity : Nat) (arguments : List Value)
  /-- Keep a global function under a label. -/
  | hold (name : String) (arity : Nat) (label : String)
  /-- Call a function that has been kept. -/
  | invokeHeld (label : String) (arguments : List Value)
  /-- Look up a global variable. -/
  | variable (name : String)
  /-- Look up a global function. -/
  | function (name : String) (arity : Nat)
  /-- Overwrite a global variable. -/
  | assign (name : String) (value : Value)
  /-- Define a global variable. -/
  | define (name : String) (value : Value) (type : String)
  /-- Make a global function known to the analysis. -/
  | declare (name : String) (parameters : List String) (returns : String)
  /-- Look up a field of an object. -/
  | field (object : Nat) (name : String)
  /-- Describe the global scopes. -/
  | describe
  /-- Start with a new analyzer. -/
  | renewAnalyzer
  /-- Start with a new machine. -/
  | renewMachine

/-- What a session answers. -/
inductive Session.Answer where
  /-- It is done. -/
  | done
  /-- The program cannot be read, or a type is unknown. -/
  | refused (error : Error)
  /-- The analysis has ended, and whether the global scope is active again. -/
  | analyzed (result : Except TypeError Unit) (restored : Bool)
  /-- The current program. -/
  | program (program : Program)
  /-- The current program in Java. -/
  | java (compilation : Compilation)
  /-- A run has ended, and whether the global scope is active again. -/
  | outcome (result : Except RuntimeError Value) (restored : Bool)
  /-- There is no such function. -/
  | missing
  /-- A description. -/
  | text (text : String)
  /-- What a variable is to the analysis and to runs. -/
  | variable (binding : Option Variable) (value : Option Value)
  /-- What a function is to the analysis and to runs. -/
  | function (binding : Option Signature) (callable : Option String)
  /-- Whether it was possible. -/
  | flag (value : Bool)
  /-- Whether it was possible for runs and, with a known type, for the analysis. -/
  | defined (runtime : Bool) (analysis : Option Bool)
  /-- The value of a field, if there is one. -/
  | field (value : Option Value)
  /-- Descriptions of the global scopes. -/
  | scopes (analysis runtime : String)
  /-- The fuel did not suffice. -/
  | exhausted

/-- The state of a session. -/
structure Session where
  /-- The scope of the host for both stores, if it has one. -/
  parent : Option FrameId
  /-- The analyzer. -/
  analyzer : Analyzer
  /-- The machine. -/
  machine : Machine
  /-- The current program. -/
  program : Program
  /-- The functions that have been kept. -/
  held : Bindings String Callable

namespace Session

/-- A new analyzer over the scopes that there are. -/
def newAnalyzer (parent : Option FrameId) (store : Store Variable Signature) (types : TypeTable)
    (members : Array Members) : Analyzer :=
  match parent with
  | some scope => .inside (store.retain scope) scope types members
  | none =>
    let (base, store) := store.root
    let (_, store) := Builtin.defineSignatures store base Builtin.all
    .inside store base types members

/-- A new machine over the scopes that there are. -/
def newMachine (parent : Option FrameId) (store : Store Value Callable) (host : Host)
    (methods : Array (Bindings (String × Nat) Callable)) : Machine :=
  match parent with
  | some scope => .inside (store.retain scope) scope host methods
  | none =>
    let (base, store) := store.root
    let (_, store) := Builtin.defineCallables store base Builtin.all
    .inside store base host methods

/-- The session of an embedding. -/
def start (embedding : Embedding) : Except EmbeddingError Session := do
  let space ← TypeSpace.ofDeclarations embedding.types
  let types ← space.table.mapError fun error => .error (.type error)
  let objects ← embedding.objects.mapM Embedding.objectMembers
  let host : Host := ⟨.empty embedding.outputLimit, (objects.map Prod.fst).toArray⟩
  let (parent, around) ←
    match embedding.parent with
    | some declaration => do
      let (scope, around) ← Embedding.surroundings space declaration
      .ok (some scope, around)
    | none => .ok (none, ⟨Store.empty, Store.empty⟩)
  .ok
    ⟨parent, newAnalyzer parent around.analysis types space.members,
      newMachine parent around.runtime host (objects.map Prod.snd).toArray, .empty, .empty⟩

/-- The analyzer's global scope is active. -/
def analysisRestored (session : Session) : Bool :=
  session.analyzer.active = session.analyzer.globals

/-- The answer to a run and the session after it. -/
def ofOutcome (session : Session) (outcome : Outcome Value) : Answer × Session :=
  match outcome with
  | .done value machine =>
    (.outcome (.ok value) (machine.active = machine.globals), { session with machine })
  | .failed error machine =>
    (.outcome (.error error) (machine.active = machine.globals), { session with machine })
  | .exhausted => (.exhausted, session)

/-- Analyses a program. Only a program without errors becomes the current one. -/
def analyze (session : Session) (source : ProgramSource) : Answer × Session :=
  match source.read with
  | .error error => (.refused error, session)
  | .ok program =>
    let visit := program.analyze session.analyzer
    let session := { session with analyzer := visit.analyzer }
    match visit.result with
    | .ok () =>
      (.analyzed (.ok ()) session.analysisRestored, { session with program := visit.tree })
    | .error error => (.analyzed (.error error) session.analysisRestored, session)

/-- The text of a program that evaluates an expression. -/
def expressionProgram (text : String) : String :=
  "DEF f() DO RETURN " ++ text ++ "; END"

/-- The expression of the first statement of a program, if that returns one. -/
def returned? (program : Program) : Option Expr :=
  match program.methods.head?.bind (·.body.head?) with
  | some (.result value) => some value
  | _ => none

/-- Evaluates an expression that has not been analysed. -/
def evaluateText (fuel : Nat) (session : Session) (text : String) : Answer × Session :=
  match Program.ofText (expressionProgram text) with
  | .error error => (.refused error, session)
  | .ok program =>
    match returned? program with
    | some value => session.ofOutcome (evaluate fuel value session.machine)
    | none => (.missing, session)

/-- A global function. -/
def globalFunction? (session : Session) (name : String) (arity : Nat) : Option Callable :=
  session.machine.store.findFunction? session.machine.globals name arity

/-- Calls a function, if there is one. -/
def call (fuel : Nat) (session : Session) (callable : Option Callable)
    (arguments : List Value) : Answer × Session :=
  match callable with
  | some callable => session.ofOutcome (invoke fuel callable arguments session.machine)
  | none => (.missing, session)

/-- Keeps a global function, if there is one. -/
def hold (session : Session) (name : String) (arity : Nat) (label : String) :
    Answer × Session :=
  match session.globalFunction? name arity with
  | some callable =>
    (.text callable.describe, { session with held := session.held.bind label callable })
  | none => (.missing, session)

/-- Defines a global variable for runs. -/
def defineValue (session : Session) (name : String) (value : Value) : Bool × Session :=
  let machine := session.machine
  match machine.onStore (·.defineVariable machine.globals name value) with
  | (defined, machine) => (defined, { session with machine })

/-- Defines a global variable for the analysis. -/
def defineBinding (session : Session) (name : String) (type : Ty) : Bool × Session :=
  let analyzer := session.analyzer
  match analyzer.store.defineVariable analyzer.globals name (.named name type) with
  | (defined, store) => (defined, { session with analyzer := { analyzer with store } })

/-- Defines a global variable, for the analysis only if its type is known. -/
def define (session : Session) (name : String) (value : Value) (type : String) :
    Answer × Session :=
  let (runtime, session) := session.defineValue name value
  match session.analyzer.types.get type with
  | .ok type =>
    let (analysis, session) := session.defineBinding name type
    (.defined runtime (some analysis), session)
  | .error _ => (.defined runtime none, session)

/-- What a declared function stands for. -/
def signatureIn (types : TypeTable) (name : String) (parameters : List String)
    (returns : String) : Except TypeError Signature := do
  let parameters ← parameters.mapM types.get
  let returns ← types.get returns
  .ok (.named name parameters returns)

/-- Makes a global function known to the analysis. -/
def declare (session : Session) (name : String) (parameters : List String) (returns : String) :
    Answer × Session :=
  let analyzer := session.analyzer
  match signatureIn analyzer.types name parameters returns with
  | .error error => (.refused (.type error), session)
  | .ok signature =>
    match analyzer.store.defineFunction analyzer.globals name signature.arity signature with
    | (defined, store) => (.flag defined, { session with analyzer := { analyzer with store } })

/-- Overwrites a global variable. -/
def assign (session : Session) (name : String) (value : Value) : Answer × Session :=
  let machine := session.machine
  match machine.onStore (·.assignVariable machine.globals name value) with
  | (assigned, machine) => (.flag assigned, { session with machine })

/-- Starts with a new analyzer. -/
def renewAnalyzer (session : Session) : Session :=
  let old := session.analyzer
  let fresh := newAnalyzer session.parent old.store old.types old.members
  { session with analyzer := { fresh with store := { old with store := fresh.store }.close } }

/-- Starts with a new machine. -/
def renewMachine (session : Session) : Session :=
  let old := session.machine
  let fresh := newMachine session.parent old.store old.host old.methods
  { session with machine := { fresh with store := { old with store := fresh.store }.close } }

/-- The current program written in Java a number of times. -/
def compilation (session : Session) (times : Nat) : Compilation :=
  let once := session.program.compile
  ⟨String.join (List.replicate times once.java), once.builtins⟩

/-- The session with an empty output. -/
def clearOutput (session : Session) : Session :=
  let machine := session.machine
  let host := machine.host
  { session with
    machine := { machine with host := { host with output := .empty host.output.limit } } }

/-- Carries out a command. -/
def perform (fuel : Nat) (session : Session) : Command → Answer × Session
  | .parse source =>
    match source.read with
    | .ok program => (.done, { session with program })
    | .error error => (.refused error, session)
  | .analyze source => session.analyze source
  | .current => (.program session.program, session)
  | .generate times => (.java (session.compilation times), session)
  | .interpret => session.ofOutcome (session.machine.interpret fuel session.program)
  | .evaluate text => session.evaluateText fuel text
  | .invoke name arity arguments =>
    session.call fuel (session.globalFunction? name arity) arguments
  | .hold name arity label => session.hold name arity label
  | .invokeHeld label arguments => session.call fuel (session.held.get? label) arguments
  | .variable name =>
    (.variable (session.analyzer.store.findVariable? session.analyzer.globals name)
      (session.machine.store.findVariable? session.machine.globals name), session)
  | .function name arity =>
    (.function (session.analyzer.store.findFunction? session.analyzer.globals name arity)
      ((session.globalFunction? name arity).map Callable.describe), session)
  | .assign name value => session.assign name value
  | .define name value type => session.define name value type
  | .declare name parameters returns => session.declare name parameters returns
  | .field object name => (.field (session.machine.host.field? object name), session)
  | .describe =>
    (.scopes (session.analyzer.store.describeFrame session.analyzer.globals)
      (session.machine.store.describeFrame session.machine.globals), session)
  | .renewAnalyzer => (.done, session.renewAnalyzer)
  | .renewMachine => (.done, session.renewMachine)

/-- Carries out a command with an output of its own, and the text that it has written. -/
def step (fuel : Nat) (session : Session) (command : Command) : Answer × String × Session :=
  let (answer, session) := session.clearOutput.perform fuel command
  (answer, session.machine.host.output.text, session)

end Session

end LetDef
