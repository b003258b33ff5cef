import LetDef.Scope.Bindings
import LetDef.Text.Quoted

/-!
# Scopes

A scope is a frame: its own variables and functions, and a link to the frame around it. Frames
live in a `Store` and are named by their place in it. A frame is alive while it has an owner; a
link to the frame around it owns nothing, so that frame may be dead, and then everything beyond
it is out of reach. `ancestors` lists the frames that a name is looked up in: the frame itself and
the frames around it up to the first dead one. Every frame is younger than the frame around it, so
the list is finite.
-/
namespace LetDef

/-- The place of a frame in its store. -/
abbrev FrameId : Type := Nat

/-- One scope. -/
structure Frame (V F : Type) where
  /-- The frame around it. -/
  parent : Option FrameId
  /-- Its own variables. -/
  values : Bindings String V
  /-- Its own functions, told apart by name and number of arguments. -/
  functions : Bindings (String × Nat) F
  /-- How many owners it has. -/
  owners : Nat

/-- All frames that have been made. -/
structure Store (V F : Type) where
  /-- The frames in the order in which they were made. -/
  frames : Array (Frame V F)
  /-- Every frame is younger than the frame around it. -/
  ordered : ∀ (id parent : FrameId) (frame : Frame V F),
    frames[id]? = some frame → frame.parent = some parent → parent < id

namespace Store

variable {V F : Type}

/-- The store without frames. -/
def empty : Store V F := ⟨#[], by simp⟩

/-- The frame has an owner. -/
def isLive (store : Store V F) (id : FrameId) : Bool :=
  match store.frames[id]? with
  | some frame => 0 < frame.owners
  | none => false

/-- The frame around a frame, unless it is dead. -/
def parent? (store : Store V F) (id : FrameId) : Option FrameId :=
  match store.frames[id]? with
  | some frame => frame.parent.filter store.isLive
  | none => none

/-- The frame around a frame is older. -/
theorem parent?_lt {store : Store V F} {id parent : FrameId}
    (found : store.parent? id = some parent) : parent < id := by
  unfold parent? at found
  split at found
  next frame held =>
    exact store.ordered id parent frame held (Option.filter_eq_some_iff.mp found).1
  next => simp at found

/-- A frame and the frames around it, up to the first dead one. -/
def ancestors (store : Store V F) (id : FrameId) : List FrameId :=
  match _found : store.parent? id with
  | none => [id]
  | some parent => id :: store.ancestors parent
  termination_by id
  decreasing_by exact parent?_lt ‹store.parent? id = some parent›

/-- The value of a variable of the frame itself. -/
def localVariable? (store : Store V F) (id : FrameId) (name : String) : Option V :=
  store.frames[id]?.bind fun frame => frame.values.get? name

/-- A function of the frame itself. -/
def localFunction? (store : Store V F) (id : FrameId) (name : String) (arity : Nat) : Option F :=
  store.frames[id]?.bind fun frame => frame.functions.get? (name, arity)

/-- The nearest variable of a name. -/
def findVariable? (store : Store V F) (id : FrameId) (name : String) : Option V :=
  (store.ancestors id).findSome? (store.localVariable? · name)

/-- The nearest function of a name and a number of arguments. -/
def findFunction? (store : Store V F) (id : FrameId) (name : String) (arity : Nat) : Option F :=
  (store.ancestors id).findSome? (store.localFunction? · name arity)

/-- The nearest frame that binds a variable. -/
def binder? (store : Store V F) (id : FrameId) (name : String) : Option FrameId :=
  (store.ancestors id).find? fun frame => (store.localVariable? frame name).isSome

/-- Changes one frame, but not the frame around it. -/
def update (store : Store V F) (id : FrameId) (change : Frame V F → Frame V F)
    (keeps : ∀ frame, (change frame).parent = frame.parent) : Store V F :=
  ⟨store.frames.modify id change, by
    intro place parent frame held linked
    rw [Array.getElem?_modify] at held
    split at held
    · obtain ⟨before, found, rfl⟩ := Option.map_eq_some_iff.mp held
      exact store.ordered place parent before found (keeps before ▸ linked)
    · exact store.ordered place parent frame held linked⟩

/-- A new frame with one owner. It stands alone if there is no frame `parent`. -/
def add (store : Store V F) (parent : Option FrameId) : FrameId × Store V F :=
  let place := store.frames.size
  let around := parent.filter (· < place)
  (place, ⟨store.frames.push ⟨around, .empty, .empty, 1⟩, by
    intro id other frame held linked
    rw [Array.getElem?_push] at held
    split at held
    next same =>
      injection held with held
      subst held
      have older : other < store.frames.size := by
        simpa using (Option.filter_eq_some_iff.mp linked).2
      exact same ▸ older
    next => exact store.ordered id other frame held linked⟩)

/-- A new frame with one owner and no frame around it. -/
def root (store : Store V F) : FrameId × Store V F :=
  store.add none

/-- A new frame with one owner inside another. -/
def child (store : Store V F) (parent : FrameId) : FrameId × Store V F :=
  store.add (some parent)

/-- Adds an owner to a frame. -/
def retain (store : Store V F) (id : FrameId) : Store V F :=
  store.update id (fun frame => { frame with owners := frame.owners + 1 }) fun _ => rfl

/-- Takes an owner from a frame. -/
def release (store : Store V F) (id : FrameId) : Store V F :=
  store.update id (fun frame => { frame with owners := frame.owners - 1 }) fun _ => rfl

/-- Gives a value to a variable of the frame itself. -/
def bindVariable (store : Store V F) (id : FrameId) (name : String) (value : V) : Store V F :=
  store.update id (fun frame => { frame with values := frame.values.bind name value })
    fun _ => rfl

/-- Gives the frame itself a function. -/
def bindFunction (store : Store V F) (id : FrameId) (name : String) (arity : Nat)
    (function : F) : Store V F :=
  store.update id
    (fun frame => { frame with functions := frame.functions.bind (name, arity) function })
    fun _ => rfl

/-- Adds a variable to the frame itself, and whether that was possible: a frame binds a name only
once. -/
def defineVariable (store : Store V F) (id : FrameId) (name : String) (value : V) :
    Bool × Store V F :=
  if (store.localVariable? id name).isSome then (false, store)
  else (true, store.bindVariable id name value)

/-- Adds a function to the frame itself, and whether that was possible: a frame binds a name with
a number of arguments only once. -/
def defineFunction (store : Store V F) (id : FrameId) (name : String) (arity : Nat)
    (function : F) : Bool × Store V F :=
  if (store.localFunction? id name arity).isSome then (false, store)
  else (true, store.bindFunction id name arity function)

/-- Overwrites the nearest variable of a name, and whether there was one. -/
def assignVariable (store : Store V F) (id : FrameId) (name : String) (value : V) :
    Bool × Store V F :=
  match store.binder? id name with
  | none => (false, store)
  | some binder => (true, store.bindVariable binder name value)

/-- Names in ascending order. -/
def sortedNames (names : List String) : List String :=
  names.mergeSort fun left right => left ≤ right

/-- A one-line description of a frame: the names of its own variables in ascending order, and how
many functions it has. -/
def describe (names : List String) (functions : Nat) : String :=
  "Scope \x7b variables: [" ++ ", ".intercalate ((sortedNames names).map Text.quoted)
    ++ "], functions: " ++ toString functions ++ " \x7d"

/-- The description of a frame of the store. -/
def describeFrame (store : Store V F) (id : FrameId) : String :=
  match store.frames[id]? with
  | some frame => describe frame.values.keys frame.functions.size
  | none => describe [] 0

end Store

end LetDef
