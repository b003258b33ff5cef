import LetDef.Scope.Store

/-!
# The frames that a name is looked up in

What the operations of a store do to its frames, and what follows for the list of the frames that
a name is looked up in. That list runs strictly from younger to older frames, and it depends only
on the links and the liveness of frames that are no younger than its first.
-/
namespace LetDef

namespace Bindings

variable {κ α : Type} [DecidableEq κ]

/-- Both assignments give values to the same keys, except that the second may also bind `names`. -/
def Adds (names : List κ) (before after : Bindings κ α) : Prop :=
  ∀ key, (after.get? key).isSome = ((before.get? key).isSome || key ∈ names)

/-- An assignment binds the same keys as itself. -/
theorem Adds.refl (bindings : Bindings κ α) : Adds [] bindings bindings := by
  intro key
  simp

/-- Two steps add what either of them adds. -/
theorem Adds.trans {names more : List κ} {first second third : Bindings κ α}
    (added : Adds names first second) (later : Adds more second third) :
    Adds (names ++ more) first third := by
  intro key
  rw [later key, added key, Bool.or_assoc]
  simp

/-- Binding a key adds at most that key. -/
theorem adds_bind (bindings : Bindings κ α) (key : κ) (value : α) :
    Adds [key] bindings (bindings.bind key value) := by
  intro other
  by_cases same : other = key <;> simp [same]

/-- Binding a bound key adds no key. -/
theorem adds_rebind {bindings : Bindings κ α} {key : κ} (value : α)
    (bound : (bindings.get? key).isSome) : Adds [] bindings (bindings.bind key value) := by
  intro other
  by_cases same : other = key
  · simp [same, bound]
  · simp [same]

end Bindings

namespace Store

variable {V F : Type}

/-- A change of one frame leaves the others as they are. -/
theorem getElem?_update (store : Store V F) (id other : FrameId) (change : Frame V F → Frame V F)
    (keeps : ∀ frame, (change frame).parent = frame.parent) :
    (store.update id change keeps).frames[other]? =
      if id = other then store.frames[other]?.map change else store.frames[other]? := by
  simp only [update, Array.getElem?_modify]

/-- A change of one frame makes no new one. -/
@[simp] theorem size_update (store : Store V F) (id : FrameId) (change : Frame V F → Frame V F)
    (keeps : ∀ frame, (change frame).parent = frame.parent) :
    (store.update id change keeps).frames.size = store.frames.size := by
  simp [update]

/-- A new frame is one more. -/
@[simp] theorem size_child (store : Store V F) (parent : FrameId) :
    (store.child parent).2.frames.size = store.frames.size + 1 := by
  simp [child, add]

/-- A new frame binds nothing, and the older frames stay. -/
theorem getElem?_child (store : Store V F) (parent other : FrameId) :
    (store.child parent).2.frames[other]? =
      if other = store.frames.size then
        some ⟨(some parent).filter (· < store.frames.size), .empty, .empty, 1⟩
      else store.frames[other]? := by
  simp only [child, add, Array.getElem?_push]

/-- A frame that has an owner is a frame of the store. -/
theorem lt_size_of_isLive {store : Store V F} {id : FrameId} (live : store.isLive id) :
    id < store.frames.size := by
  unfold isLive at live
  split at live
  next frame held => exact (Array.getElem?_eq_some_iff.mp held).1
  next => contradiction

/-- The frame around a frame is alive. -/
theorem isLive_of_parent? {store : Store V F} {id parent : FrameId}
    (found : store.parent? id = some parent) : store.isLive parent := by
  unfold parent? at found
  split at found
  · exact (Option.filter_eq_some_iff.mp found).2
  · contradiction

/-- Behind a frame without a live one around it there is nothing. -/
theorem ancestors_of_none {store : Store V F} {id : FrameId} (none : store.parent? id = none) :
    store.ancestors id = [id] := by
  rw [ancestors]
  split
  next => rfl
  next parent found => rw [none] at found; contradiction

/-- Behind a frame are the frame around it and what is behind that. -/
theorem ancestors_of_some {store : Store V F} {id parent : FrameId}
    (found : store.parent? id = some parent) :
    store.ancestors id = id :: store.ancestors parent := by
  rw [ancestors]
  split
  next none => rw [none] at found; contradiction
  next other same =>
    rw [found] at same
    injection same with same
    rw [same]

/-- A lookup starts with the frame itself. -/
theorem ancestors_eq_cons (store : Store V F) (id : FrameId) :
    ∃ rest, store.ancestors id = id :: rest := by
  cases found : store.parent? id with
  | none => exact ⟨[], ancestors_of_none found⟩
  | some parent => exact ⟨store.ancestors parent, ancestors_of_some found⟩

/-- No frame is looked up before a younger one. -/
theorem le_of_mem_ancestors {store : Store V F} {id other : FrameId}
    (member : other ∈ store.ancestors id) : other ≤ id := by
  induction id using Nat.strongRecOn with
  | ind id ih =>
    cases found : store.parent? id with
    | none =>
      rw [ancestors_of_none found] at member
      exact Nat.le_of_eq (List.mem_singleton.mp member)
    | some parent =>
      rw [ancestors_of_some found] at member
      have older := parent?_lt found
      rcases List.mem_cons.mp member with same | behind
      · exact Nat.le_of_eq same
      · exact Nat.le_of_lt (Nat.lt_of_le_of_lt (ih parent older behind) older)

/-- The frames of a lookup come strictly from younger to older. -/
theorem ancestors_sorted (store : Store V F) (id : FrameId) :
    (store.ancestors id).Pairwise (· > ·) := by
  induction id using Nat.strongRecOn with
  | ind id ih =>
    cases found : store.parent? id with
    | none =>
      rw [ancestors_of_none found]
      exact List.pairwise_singleton _ _
    | some parent =>
      rw [ancestors_of_some found]
      have older := parent?_lt found
      refine List.pairwise_cons.mpr ⟨fun other behind => ?_, ih parent older⟩
      exact Nat.lt_of_le_of_lt (le_of_mem_ancestors behind) older

/-- A lookup depends only on the links from the frames that are no younger than its first. -/
theorem ancestors_congr {before after : Store V F} {id : FrameId}
    (same : ∀ other ≤ id, after.parent? other = before.parent? other) :
    after.ancestors id = before.ancestors id := by
  induction id using Nat.strongRecOn with
  | ind id ih =>
    cases found : before.parent? id with
    | none =>
      have missing := (same id (Nat.le_refl id)).trans found
      rw [ancestors_of_none found, ancestors_of_none missing]
    | some parent =>
      have older := parent?_lt found
      rw [ancestors_of_some found, ancestors_of_some ((same id (Nat.le_refl id)).trans found)]
      rw [ih parent older fun other low => same other (Nat.le_trans low (Nat.le_of_lt older))]

/-- A change that leaves the owners of a frame makes none dead or alive. -/
theorem isLive_update (store : Store V F) (id other : FrameId) {change : Frame V F → Frame V F}
    {keeps : ∀ frame, (change frame).parent = frame.parent}
    (owned : ∀ frame, (change frame).owners = frame.owners) :
    (store.update id change keeps).isLive other = store.isLive other := by
  rw [isLive, isLive, getElem?_update]
  by_cases same : id = other
  · rw [if_pos same]
    cases store.frames[other]? with
    | none => rfl
    | some frame => simp only [Option.map_some, owned]
  · rw [if_neg same]

/-- A change that leaves the owners of a frame leaves the frames around the frames. -/
theorem parent?_update (store : Store V F) (id other : FrameId) {change : Frame V F → Frame V F}
    {keeps : ∀ frame, (change frame).parent = frame.parent}
    (owned : ∀ frame, (change frame).owners = frame.owners) :
    (store.update id change keeps).parent? other = store.parent? other := by
  have lives : (store.update id change keeps).isLive = store.isLive :=
    funext fun other => isLive_update store id other owned
  rw [parent?, parent?, lives, getElem?_update]
  by_cases same : id = other
  · rw [if_pos same]
    cases store.frames[other]? with
    | none => rfl
    | some frame => simp only [Option.map_some, keeps]
  · rw [if_neg same]

/-- A change that leaves the owners of a frame changes no lookup. -/
theorem ancestors_update (store : Store V F) (id other : FrameId)
    {change : Frame V F → Frame V F} {keeps : ∀ frame, (change frame).parent = frame.parent}
    (owned : ∀ frame, (change frame).owners = frame.owners) :
    (store.update id change keeps).ancestors other = store.ancestors other :=
  ancestors_congr fun between _ => parent?_update store id between owned

/-- What is found first in a lookup is what the first frame binds that binds anything. -/
theorem findSome?_ancestors {α : Type} (store : Store V F) (id : FrameId)
    (bound : FrameId → Option α) : (store.ancestors id).findSome? bound =
      ((store.ancestors id).find? fun frame => (bound frame).isSome).bind bound := by
  induction store.ancestors id with
  | nil => rfl
  | cons first rest ih =>
    rw [List.findSome?_cons, List.find?_cons]
    cases found : bound first with
    | none => simpa using ih
    | some value => simp [found]

/-- The nearest variable of a name is the one of its binder. -/
theorem findVariable?_eq_binder? (store : Store V F) (id : FrameId) (name : String) :
    store.findVariable? id name =
      (store.binder? id name).bind fun binder => store.localVariable? binder name :=
  store.findSome?_ancestors id fun frame => store.localVariable? frame name

end Store

end LetDef
