import LetDef.Proofs.Scope.Ancestors

/-!
# What stays of a store

Whatever happens in a store, the frames that were there before keep the frame around them, and they
have as many owners at the end as at the beginning: a frame is given up by whoever took it, and no
other. `Store.Preserves` says so and leaves open what has become of the variables and functions. So
each of these frames is as alive as before, and a name is looked up through the same frames.
-/
namespace LetDef

namespace Store

variable {V F : Type} {before middle after store : Store V F} {id : FrameId}

/-- No frame is lost, and the frames of `before` have the same frame around them and as many
owners. -/
structure Preserves (before after : Store V F) : Prop where
  /-- No frame is lost. -/
  size_le : before.frames.size ≤ after.frames.size
  /-- Every frame is preserved. -/
  kept : ∀ (id : FrameId) (frame : Frame V F), before.frames[id]? = some frame →
    ∃ later, after.frames[id]? = some later ∧ later.parent = frame.parent ∧
      later.owners = frame.owners

namespace Preserves

/-- Nothing need happen. -/
theorem refl (store : Store V F) : store.Preserves store where
  size_le := Nat.le_refl _
  kept _ frame held := ⟨frame, held, rfl, rfl⟩

/-- What two steps preserve, both together preserve. -/
theorem trans (first : before.Preserves middle) (second : middle.Preserves after) :
    before.Preserves after where
  size_le := Nat.le_trans first.size_le second.size_le
  kept id frame held := by
    obtain ⟨between, heldBetween, parent, owners⟩ := first.kept id frame held
    obtain ⟨later, heldLater, laterParent, laterOwners⟩ := second.kept id between heldBetween
    exact ⟨later, heldLater, laterParent.trans parent, laterOwners.trans owners⟩

/-- A frame of the store stays alive or dead. -/
theorem isLive_eq (preserves : before.Preserves after) (old : id < before.frames.size) :
    after.isLive id = before.isLive id := by
  have held : before.frames[id]? = some before.frames[id] := Array.getElem?_eq_getElem old
  obtain ⟨later, heldLater, _, owners⟩ := preserves.kept id _ held
  simp only [isLive, held, heldLater, owners]

/-- The frame around a frame stays. -/
theorem parent?_eq (preserves : before.Preserves after) (old : id < before.frames.size) :
    after.parent? id = before.parent? id := by
  have held : before.frames[id]? = some before.frames[id] := Array.getElem?_eq_getElem old
  obtain ⟨later, heldLater, linked, _⟩ := preserves.kept id _ held
  simp only [parent?, held, heldLater, linked]
  cases around : before.frames[id].parent with
  | none => rfl
  | some parent =>
    have older := before.ordered id parent _ held around
    simp only [Option.filter, preserves.isLive_eq (Nat.lt_trans older old)]

/-- A frame is looked up through the same frames. -/
theorem ancestors_eq (preserves : before.Preserves after) (old : id < before.frames.size) :
    after.ancestors id = before.ancestors id :=
  ancestors_congr fun _ low => preserves.parent?_eq (Nat.lt_of_le_of_lt low old)

/-- What happens in a frame that is given up at the end is preserved around it. -/
theorem ofChild {parent : FrameId} (inner : (store.child parent).2.Preserves after) :
    store.Preserves (after.release store.frames.size) where
  size_le := by
    have := inner.size_le
    simp only [size_child] at this
    simp only [release, size_update]
    omega
  kept id frame held := by
    have old := (Array.getElem?_eq_some_iff.mp held).1
    have heldChild : (store.child parent).2.frames[id]? = some frame := by
      rw [getElem?_child, if_neg (Nat.ne_of_lt old), held]
    obtain ⟨later, heldLater, kept⟩ := inner.kept id frame heldChild
    refine ⟨later, ?_, kept⟩
    rw [release, getElem?_update, if_neg (Nat.ne_of_gt old), heldLater]

end Preserves

/-- A change of variables or functions preserves a store. -/
theorem preserves_update (store : Store V F) (id : FrameId) (change : Frame V F → Frame V F)
    (keeps : ∀ frame, (change frame).parent = frame.parent)
    (owned : ∀ frame, (change frame).owners = frame.owners) :
    store.Preserves (store.update id change keeps) where
  size_le := Nat.le_of_eq (size_update store id change keeps).symm
  kept other frame held := by
    rw [getElem?_update, held]
    by_cases same : id = other
    · rw [if_pos same]
      exact ⟨change frame, rfl, keeps frame, owned frame⟩
    · rw [if_neg same]
      exact ⟨frame, rfl, rfl, rfl⟩

/-- Adding a variable preserves a store. -/
theorem preserves_defineVariable (store : Store V F) (id : FrameId) (name : String) (value : V) :
    store.Preserves (store.defineVariable id name value).2 := by
  unfold defineVariable
  split
  · exact Preserves.refl store
  · apply preserves_update <;> exact fun _ => rfl

/-- Adding a function preserves a store. -/
theorem preserves_defineFunction (store : Store V F) (id : FrameId) (name : String) (arity : Nat)
    (function : F) : store.Preserves (store.defineFunction id name arity function).2 := by
  unfold defineFunction
  split
  · exact Preserves.refl store
  · apply preserves_update <;> exact fun _ => rfl

end Store

end LetDef
