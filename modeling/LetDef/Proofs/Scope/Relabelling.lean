import LetDef.Proofs.Scope.Ancestors

/-!
# Stores with other functions

Nothing that a store does depends on what its functions are. So if each function is replaced by
another (`Store.relabel`), every operation does the same as before, up to that replacement.
-/
namespace LetDef

namespace Bindings

variable {κ α : Type} [DecidableEq κ] (change : α → α)

/-- Replaces each value. -/
def relabel (bindings : Bindings κ α) : Bindings κ α :=
  ⟨bindings.entries.map fun entry => (entry.1, change entry.2)⟩

/-- A key has the replacement of its value. -/
@[simp] theorem get?_relabel (bindings : Bindings κ α) (key : κ) :
    (bindings.relabel change).get? key = (bindings.get? key).map change := by
  unfold get? relabel
  induction bindings.entries with
  | nil => rfl
  | cons entry rest ih =>
    simp only [List.map_cons, valueIn]
    split
    · rfl
    · exact ih

/-- Binding a key to a value that is then replaced is binding it to the replacement. -/
theorem relabel_bind (bindings : Bindings κ α) (key : κ) (value : α) :
    (bindings.bind key value).relabel change =
      (bindings.relabel change).bind key (change value) := by
  unfold bind relabel
  congr 1
  induction bindings.entries with
  | nil => rfl
  | cons entry rest ih =>
    simp only [List.map_cons, bindIn]
    split
    · rfl
    · rw [List.map_cons, ih]

end Bindings

/-- Replaces each function of a frame. -/
def Frame.relabel {V F : Type} (change : F → F) (frame : Frame V F) : Frame V F :=
  { frame with functions := frame.functions.relabel change }

namespace Store

variable {V F : Type} (change : F → F)

/-- Stores with the same frames are the same. -/
theorem eq_of_frames {one other : Store V F} (same : one.frames = other.frames) : one = other := by
  cases one
  cases other
  cases same
  rfl

/-- Replaces each function of the frames. -/
def relabel (store : Store V F) : Store V F :=
  ⟨store.frames.map (Frame.relabel change), by
    intro id parent frame held linked
    rw [Array.getElem?_map] at held
    obtain ⟨before, found, rfl⟩ := Option.map_eq_some_iff.mp held
    exact store.ordered id parent before found linked⟩

variable (store : Store V F) (id : FrameId)

/-- The frames are the relabelled ones. -/
theorem getElem?_relabel :
    (store.relabel change).frames[id]? = store.frames[id]?.map (Frame.relabel change) :=
  Array.getElem?_map

/-- There are as many frames. -/
@[simp] theorem size_relabel : (store.relabel change).frames.size = store.frames.size :=
  Array.size_map

/-- The same frames are alive. -/
@[simp] theorem isLive_relabel : (store.relabel change).isLive id = store.isLive id := by
  rw [isLive, isLive, getElem?_relabel]
  cases store.frames[id]? <;> rfl

/-- The same frames are around. -/
@[simp] theorem parent?_relabel : (store.relabel change).parent? id = store.parent? id := by
  have lives : (store.relabel change).isLive = store.isLive :=
    funext fun other => isLive_relabel change store other
  rw [parent?, parent?, getElem?_relabel, lives]
  cases store.frames[id]? <;> rfl

/-- A name is looked up in the same frames. -/
@[simp] theorem ancestors_relabel : (store.relabel change).ancestors id = store.ancestors id :=
  ancestors_congr fun other _ => parent?_relabel change store other

/-- The frames have the same variables. -/
@[simp] theorem localVariable?_relabel (name : String) :
    (store.relabel change).localVariable? id name = store.localVariable? id name := by
  rw [localVariable?, localVariable?, getElem?_relabel]
  cases store.frames[id]? <;> rfl

/-- The frames have the functions by which they have been replaced. -/
@[simp] theorem localFunction?_relabel (name : String) (arity : Nat) :
    (store.relabel change).localFunction? id name arity =
      (store.localFunction? id name arity).map change := by
  rw [localFunction?, localFunction?, getElem?_relabel]
  cases store.frames[id]? with
  | none => rfl
  | some frame => exact frame.functions.get?_relabel change (name, arity)

/-- The same variables are found. -/
@[simp] theorem findVariable?_relabel (name : String) :
    (store.relabel change).findVariable? id name = store.findVariable? id name := by
  simp only [findVariable?, ancestors_relabel, localVariable?_relabel]

/-- The same frame binds a variable. -/
@[simp] theorem binder?_relabel (name : String) :
    (store.relabel change).binder? id name = store.binder? id name := by
  simp only [binder?, ancestors_relabel, localVariable?_relabel]

/-- The functions are found by which others have been replaced. -/
@[simp] theorem findFunction?_relabel (name : String) (arity : Nat) :
    (store.relabel change).findFunction? id name arity =
      (store.findFunction? id name arity).map change := by
  simp only [findFunction?, ancestors_relabel, localFunction?_relabel]
  induction store.ancestors id with
  | nil => rfl
  | cons first rest ih =>
    rw [List.findSome?_cons, List.findSome?_cons]
    cases store.localFunction? first name arity with
    | none => exact ih
    | some function => rfl

/-- A change of one frame may be made before or after. -/
theorem relabel_update {former latter : Frame V F → Frame V F}
    {keeps : ∀ frame, (former frame).parent = frame.parent}
    {keepsLatter : ∀ frame, (latter frame).parent = frame.parent}
    (commutes : ∀ frame, (former frame).relabel change = latter (frame.relabel change)) :
    (store.update id former keeps).relabel change =
      (store.relabel change).update id latter keepsLatter := by
  apply eq_of_frames
  apply Array.ext_getElem?
  intro other
  rw [getElem?_relabel, getElem?_update, getElem?_update, getElem?_relabel]
  split
  · rw [Option.map_map, Option.map_map]
    exact congrArg (fun joined => Option.map joined store.frames[other]?) (funext commutes)
  · rfl

/-- An owner may be added before or after. -/
theorem relabel_retain : (store.retain id).relabel change = (store.relabel change).retain id :=
  relabel_update change store id fun _ => rfl

/-- An owner may be taken before or after. -/
theorem relabel_release : (store.release id).relabel change = (store.relabel change).release id :=
  relabel_update change store id fun _ => rfl

/-- A variable may be bound before or after. -/
theorem relabel_bindVariable (name : String) (value : V) :
    (store.bindVariable id name value).relabel change =
      (store.relabel change).bindVariable id name value :=
  relabel_update change store id fun _ => rfl

/-- A function may be given before, or its replacement after. -/
theorem relabel_bindFunction (name : String) (arity : Nat) (function : F) :
    (store.bindFunction id name arity function).relabel change =
      (store.relabel change).bindFunction id name arity (change function) :=
  relabel_update change store id fun frame => by
    rw [Frame.relabel, Frame.relabel, Bindings.relabel_bind]

/-- A frame may be made before or after. -/
theorem relabel_child (parent : FrameId) :
    (store.relabel change).child parent =
      ((store.child parent).1, (store.child parent).2.relabel change) := by
  refine Prod.ext (size_relabel change store) (eq_of_frames ?_)
  simp only [child, add, relabel, Array.map_push, Array.size_map]
  rfl

end Store

end LetDef
