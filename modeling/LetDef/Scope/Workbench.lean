import LetDef.Scope.Store

/-!
# Workbenches

A workbench keeps scopes of texts under labels and carries out steps on them. A label owns its
scope, a watch only remembers it, and the active scope has an owner of its own; the label `$`
always stands for the active scope. A guarded step makes another scope active while inner steps
run and then goes back to the scope before, also when an inner step fails.
-/
namespace LetDef

/-- Scopes under labels. -/
structure Workbench where
  /-- All scopes. -/
  store : Store String String
  /-- The scopes that labels own. -/
  handles : Bindings String FrameId
  /-- The scopes that watches remember. -/
  watches : Bindings String FrameId
  /-- The active scope. -/
  active : FrameId

namespace Workbench

/-- Something done with a scope. -/
inductive Action where
  /-- Let a label own the scope too. -/
  | copy (label : String)
  /-- Let a label own a new scope inside it. -/
  | child (label : String)
  /-- Let a label own the scope around it. -/
  | parent (label : String)
  /-- Let a watch remember it. -/
  | watch (label : String)
  /-- Define a variable. -/
  | defineVariable (name value : String)
  /-- Define a function. -/
  | defineFunction (name : String) (arity : Nat) (value : String)
  /-- Ask for a variable of the scope itself. -/
  | hasLocal (name : String)
  /-- Look up a variable. -/
  | findVariable (name : String)
  /-- Look up a function. -/
  | findFunction (name : String) (arity : Nat)
  /-- Overwrite a variable. -/
  | assign (name value : String)
  /-- Compare it with the scope of a label. -/
  | compare (label : String)
  /-- Describe it. -/
  | describe

/-- A step of a workbench. -/
inductive Step where
  /-- Let a label own a new scope that stands alone. -/
  | root (label : String)
  /-- Take a label away. -/
  | drop (label : String)
  /-- Let a label own what a watch remembers, if that is alive. -/
  | upgrade (watch label : String)
  /-- Do something with the scope of a label. -/
  | act (label : String) (action : Action)
  /-- Make the scope of a label, or a new scope inside it, active during inner steps. -/
  | guarded (label : String) (inside : Bool) (steps : List Step)
  /-- Fail. -/
  | fail

/-- The reply to a step. -/
inductive Reply where
  /-- Whether it was possible, or is so. -/
  | flag (value : Bool)
  /-- There is no such label. -/
  | noHandle
  /-- A watch has been set. -/
  | watching
  /-- A name has been defined. -/
  | defined
  /-- The scope itself already binds the name. -/
  | redefined (name : String)
  /-- What a name stands for. -/
  | found (value : Option String)
  /-- Whether two scopes are one, if there is a second. -/
  | sameness (value : Option Bool)
  /-- A description. -/
  | text (text : String)
  /-- A guarded step has begun. -/
  | entered
  /-- A guarded step has ended, and whether the scope before it is active again. -/
  | left (restored : Bool)
  /-- A step has failed. -/
  | failed
  /-- All guarded steps around a failure have ended, and whether the first scope is active
  again. -/
  | unwound (restored : Bool)

/-- What steps leave behind. -/
structure Progress where
  /-- The replies in order. -/
  replies : List Reply
  /-- No step has failed. -/
  completed : Bool
  /-- The workbench afterwards. -/
  bench : Workbench

/-- A workbench with one scope, which is active. -/
def fresh : Workbench :=
  let (active, store) := Store.empty.root
  ⟨store, .empty, .empty, active⟩

/-- The label of the active scope. -/
def activeLabel : String := "$"

/-- The scope of a label. -/
def find? (bench : Workbench) (label : String) : Option FrameId :=
  if label = activeLabel then some bench.active else bench.handles.get? label

/-- Takes an owner from a frame, if there is one. -/
def releaseOption (store : Store String String) : Option FrameId → Store String String
  | none => store
  | some id => store.release id

/-- Lets a label be one of the owners that a scope has, instead of what it owned before. -/
def hold (bench : Workbench) (label : String) (scope : FrameId) : Workbench :=
  { bench with
    store := releaseOption bench.store (bench.handles.get? label)
    handles := bench.handles.bind label scope }

/-- Lets a label own a scope that has owners already. -/
def share (bench : Workbench) (label : String) (scope : FrameId) : Workbench :=
  { bench with store := bench.store.retain scope }.hold label scope

/-- Takes a label away, and whether there was one. -/
def drop (bench : Workbench) (label : String) : Bool × Workbench :=
  match bench.handles.get? label with
  | none => (false, bench)
  | some scope =>
    (true, { bench with store := bench.store.release scope, handles := bench.handles.erase label })

/-- Lets a label own a scope, if there is one. -/
def shareOption (bench : Workbench) (label : String) : Option FrameId → Reply × Workbench
  | none => (.flag false, bench)
  | some scope => (.flag true, bench.share label scope)

/-- The scope that a watch remembers, if it is alive. -/
def watched? (bench : Workbench) (watch : String) : Option FrameId :=
  (bench.watches.get? watch).filter bench.store.isLive

/-- The reply to a definition. -/
def definition (bench : Workbench) (name : String) :
    Bool × Store String String → Reply × Workbench
  | (true, store) => (.defined, { bench with store })
  | (false, store) => (.redefined name, { bench with store })

/-- Does something with a scope. -/
def act (bench : Workbench) (scope : FrameId) : Action → Reply × Workbench
  | .copy label => (.flag true, bench.share label scope)
  | .child label =>
    let (inner, store) := bench.store.child scope
    (.flag true, { bench with store }.hold label inner)
  | .parent label => bench.shareOption label (bench.store.parent? scope)
  | .watch label => (.watching, { bench with watches := bench.watches.bind label scope })
  | .defineVariable name value =>
    bench.definition name (bench.store.defineVariable scope name value)
  | .defineFunction name arity value =>
    bench.definition name (bench.store.defineFunction scope name arity value)
  | .hasLocal name => (.flag (bench.store.localVariable? scope name).isSome, bench)
  | .findVariable name => (.found (bench.store.findVariable? scope name), bench)
  | .findFunction name arity => (.found (bench.store.findFunction? scope name arity), bench)
  | .assign name value =>
    let (assigned, store) := bench.store.assignVariable scope name value
    (.flag assigned, { bench with store })
  | .compare label => (.sameness ((bench.find? label).map fun other => scope = other), bench)
  | .describe => (.text (bench.store.describeFrame scope), bench)

/-- Makes a scope active, or a new scope inside it. The scope that was active before keeps its
owner. -/
def enter (bench : Workbench) (scope : FrameId) (inside : Bool) : Workbench :=
  if inside then
    let (active, store) := bench.store.child scope
    { bench with store, active }
  else { bench with store := bench.store.retain scope, active := scope }

/-- Gives up the active scope and goes back to another. -/
def leave (bench : Workbench) (scope : FrameId) : Workbench :=
  { bench with store := bench.store.release bench.active, active := scope }

/-- The progress of a step that does not fail. -/
def reply : Reply × Workbench → Progress
  | (reply, bench) => ⟨[reply], true, bench⟩

/-- The progress of a guarded step whose inner steps have run. -/
def unguard (outer : FrameId) (inner : Progress) : Progress :=
  let bench := inner.bench.leave outer
  if inner.completed then
    ⟨.entered :: inner.replies ++ [.left (bench.active = outer)], true, bench⟩
  else ⟨.entered :: inner.replies, false, bench⟩

mutual

/-- Carries out a step. -/
def run : Step → Workbench → Progress
  | .root label, bench =>
    let (scope, store) := bench.store.root
    reply (.flag true, { bench with store }.hold label scope)
  | .drop label, bench =>
    let (dropped, bench) := bench.drop label
    reply (.flag dropped, bench)
  | .upgrade watch label, bench => reply (bench.shareOption label (bench.watched? watch))
  | .act label action, bench =>
    match bench.find? label with
    | none => reply (.noHandle, bench)
    | some scope => reply (bench.act scope action)
  | .guarded label inside steps, bench =>
    match bench.find? label with
    | none => reply (.noHandle, bench)
    | some scope => unguard bench.active (runAll steps (bench.enter scope inside))
  | .fail, bench => ⟨[.failed], false, bench⟩

/-- Carries out steps up to the first that fails. -/
def runAll : List Step → Workbench → Progress
  | [], bench => ⟨[], true, bench⟩
  | first :: rest, bench =>
    match run first bench with
    | ⟨replies, false, bench⟩ => ⟨replies, false, bench⟩
    | ⟨replies, true, bench⟩ =>
      match runAll rest bench with
      | ⟨more, completed, bench⟩ => ⟨replies ++ more, completed, bench⟩

end

/-- The replies to the steps of a script, in which a failure ends one step and not the script. -/
def script (first : FrameId) (bench : Workbench) : List Step → List Reply
  | [] => []
  | step :: rest =>
    match run step bench with
    | ⟨replies, completed, bench⟩ =>
      let unwinding := if completed then [] else [.unwound (bench.active = first)]
      replies ++ unwinding ++ bench.script first rest

/-- The replies to the steps of a script on a workbench of its own. -/
def replies (steps : List Step) : List Reply :=
  fresh.script fresh.active steps

end Workbench

end LetDef
