import LetDef.Proofs.Scope.Evolution

/-!
# Who keeps a scope alive

A link to the frame around a frame owns nothing, so a frame is only as safe as its owners. At every
moment of an analysis or a run these are: the active place, the places that the scopes entered so
far go back to, the closure of each method that is being called, and the fields for the global and
the base scope. `Position.Sheltered` says that the counts of the frames cover all of them, and that
a lookup from the active scope passes no other frame until it is at the base scope, or at the frames
around the closure of the innermost call. An `Entry` is a way into the next scope; what it saves
shelters the work there.
-/
namespace LetDef

/-- The scopes that an analysis or a run stands in. -/
structure Position (V F : Type) where
  /-- All scopes. -/
  store : Store V F
  /-- The scope around the global one. -/
  base : FrameId
  /-- The scope of fields and methods. -/
  globals : FrameId
  /-- The scope in which names are looked up and defined. -/
  active : FrameId

/-- The same scopes are in their places, and the store is preserved. -/
structure Position.Resumes {V F : Type} (before after : Position V F) : Prop where
  /-- The base scope stays. -/
  base : after.base = before.base
  /-- The global scope stays. -/
  globals : after.globals = before.globals
  /-- The active scope is the same. -/
  active : after.active = before.active
  /-- The store is preserved. -/
  store : before.store.Preserves after.store

/-- Nothing need happen. -/
theorem Position.Resumes.refl {V F : Type} (position : Position V F) :
    position.Resumes position :=
  ⟨rfl, rfl, rfl, Store.Preserves.refl _⟩

/-- A way in which work goes on. -/
inductive Entry where
  /-- In the scope that is active. -/
  | same
  /-- In a new scope inside the active one. -/
  | scope
  /-- In a new scope inside the one that a method was defined in. -/
  | method (closure : FrameId)

namespace Entry

/-- The frames that are kept until the work there is done. -/
def saves (active : FrameId) : Entry → List FrameId
  | same => []
  | scope => [active]
  | method closure => [closure, active]

/-- The frame whose surroundings the work sees: the closure of the innermost call. -/
def home (around : FrameId) : Entry → FrameId
  | same | scope => around
  | method closure => closure

/-- The position in which the work begins. -/
def enter {V F : Type} (position : Position V F) : Entry → Position V F
  | same => position
  | scope =>
    { position with
      store := (position.store.child position.active).2
      active := (position.store.child position.active).1 }
  | method closure =>
    { position with
      store := ((position.store.retain closure).child closure).2
      active := ((position.store.retain closure).child closure).1 }

/-- From the first position the work has gone on in this way, and now stands at the second: it has
entered its scope from a position like the first, and closures only while they were alive. -/
inductive Leads {V F : Type} (entry : Entry) (before after : Position V F) : Prop where
  | intro {between} (begun : before.Resumes between)
    (live : ∀ closure, entry = .method closure → between.store.isLive closure)
    (ended : (entry.enter between).Resumes after)

/-- No way changes the global scope. -/
theorem Leads.globals {V F : Type} {entry : Entry} {before after : Position V F}
    (leads : entry.Leads before after) : after.globals = before.globals := by
  obtain ⟨begun, _, ended⟩ := leads
  rw [ended.globals, ← begun.globals]
  cases entry <;> rfl

end Entry

namespace Store

variable {V F : Type} {store before after : Store V F} {id : FrameId}

/-- How many owners a frame has. -/
def owners (store : Store V F) (id : FrameId) : Nat :=
  match store.frames[id]? with
  | some frame => frame.owners
  | none => 0

/-- A frame is alive as long as it has an owner. -/
theorem isLive_iff_owners : store.isLive id ↔ 0 < store.owners id := by
  unfold isLive owners
  cases store.frames[id]? <;> simp

/-- A frame has as many owners as before. -/
theorem Preserves.owners_eq (preserves : before.Preserves after) (old : id < before.frames.size) :
    after.owners id = before.owners id := by
  have held : before.frames[id]? = some before.frames[id] := Array.getElem?_eq_getElem old
  obtain ⟨later, heldLater, _, owners⟩ := preserves.kept id _ held
  simp only [Store.owners, held, heldLater, owners]

/-- A new frame has one owner. -/
theorem owners_child (parent : FrameId) :
    (store.child parent).2.owners id = if id = store.frames.size then 1 else store.owners id := by
  unfold owners
  rw [getElem?_child]
  by_cases new : id = store.frames.size
  · rw [if_pos new, if_pos new]
  · rw [if_neg new, if_neg new]

/-- One more owner is one more for that frame alone. -/
theorem owners_retain {held : FrameId} (old : held < store.frames.size) :
    (store.retain held).owners id = store.owners id + if held = id then 1 else 0 := by
  unfold owners
  rw [retain, getElem?_update]
  by_cases same : held = id
  · subst same
    rw [if_pos rfl, if_pos rfl, Array.getElem?_eq_getElem old]
    rfl
  · rw [if_neg same, if_neg same]
    rfl

/-- A new frame that stands alone has one owner. -/
theorem owners_root (id : FrameId) :
    store.root.2.owners id = if id = store.frames.size then 1 else store.owners id := by
  simp only [owners, root, add, Array.getElem?_push]
  by_cases new : id = store.frames.size
  · rw [if_pos new, if_pos new]
  · rw [if_neg new, if_neg new]

/-- One owner less is one less for that frame alone. -/
theorem owners_release {held : FrameId} :
    (store.release held).owners id = store.owners id - if held = id then 1 else 0 := by
  unfold owners
  rw [release, getElem?_update]
  by_cases same : held = id
  · subst same
    rw [if_pos rfl, if_pos rfl]
    cases store.frames[held]? <;> rfl
  · rw [if_neg same, if_neg same]
    rfl

/-- A change that leaves the owners of a frame leaves all owners. -/
theorem owners_update (held : FrameId) {change : Frame V F → Frame V F}
    {keeps : ∀ frame, (change frame).parent = frame.parent}
    (owned : ∀ frame, (change frame).owners = frame.owners) :
    (store.update held change keeps).owners id = store.owners id := by
  unfold owners
  rw [getElem?_update]
  by_cases same : held = id
  · rw [if_pos same]
    cases store.frames[id]? with
    | none => rfl
    | some frame => exact owned frame
  · rw [if_neg same]

/-- A variable that is bound leaves all owners. -/
theorem owners_bindVariable (held : FrameId) (name : String) (value : V) :
    (store.bindVariable held name value).owners id = store.owners id :=
  owners_update held fun _ => rfl

/-- A function that is bound leaves all owners. -/
theorem owners_bindFunction (held : FrameId) (name : String) (arity : Nat) (function : F) :
    (store.bindFunction held name arity function).owners id = store.owners id :=
  owners_update held fun _ => rfl

/-- The counts of the frames cover these owners, each as often as it is listed. -/
def Owned (store : Store V F) (owned : List FrameId) : Prop :=
  ∀ id, owned.count id ≤ store.owners id

namespace Owned

variable {owned : List FrameId}

/-- What has an owner is alive. -/
theorem isLive (covered : store.Owned owned) (member : id ∈ owned) : store.isLive id :=
  isLive_iff_owners.mpr (Nat.lt_of_lt_of_le (List.count_pos_iff.mpr member) (covered id))

/-- What is preserved keeps its owners. -/
theorem preserve (covered : before.Owned owned) (preserves : before.Preserves after) :
    after.Owned owned := by
  intro id
  by_cases member : id ∈ owned
  · rw [preserves.owners_eq (lt_size_of_isLive (covered.isLive member))]
    exact covered id
  · rw [List.count_eq_zero_of_not_mem member]
    exact Nat.zero_le _

/-- A new frame is one more owned frame. -/
theorem child (covered : store.Owned owned) (parent : FrameId) :
    (store.child parent).2.Owned (store.frames.size :: owned) := by
  intro id
  rw [owners_child]
  by_cases new : id = store.frames.size
  · have fresh : store.frames.size ∉ owned := fun member =>
      Nat.lt_irrefl _ (lt_size_of_isLive (covered.isLive member))
    have once : List.count store.frames.size (store.frames.size :: owned) = 1 := by
      rw [List.count_cons_self, List.count_eq_zero_of_not_mem fresh]
    rw [if_pos new, new]
    exact Nat.le_of_eq once
  · rw [if_neg new, List.count_cons_of_ne fun same => new same.symm]
    exact covered id

/-- One more owner may be counted. -/
theorem retain {held : FrameId} (covered : store.Owned owned) (live : store.isLive held) :
    (store.retain held).Owned (held :: owned) := by
  intro id
  rw [owners_retain (lt_size_of_isLive live), List.count_cons]
  have counted := covered id
  simp only [beq_iff_eq]
  omega

end Owned

end Store

open Store (lt_size_of_isLive ancestors_child ancestors_child_self ancestors_retain isLive_retain
  isLive_child_self size_update)

/-- The frames that work at a position needs are owned: those that it goes back to and the closures
of calls are `held`, and `home` is where its surroundings begin, the closure of the innermost call
or else the global scope. -/
structure Position.Sheltered {V F : Type} (position : Position V F) (home : FrameId)
    (held : List FrameId) : Prop where
  /-- The active place, what is held, and the two fields are owners. -/
  owned : position.store.Owned
    (position.active :: held ++ [position.globals, position.base])
  /-- From the active scope a lookup passes only frames that are active or held, until it is at
  `home`. -/
  around : ∃ inner ⊆ position.active :: held,
    position.store.ancestors position.active = inner ++ position.store.ancestors home
  /-- The surroundings begin at the global scope or at something held. -/
  home : home ∈ position.globals :: held
  /-- From the global scope a lookup comes to the base scope. -/
  outer : position.store.ancestors position.globals =
    position.globals :: position.store.ancestors position.base

/-- A lookup from the active scope passes frames that are active or held and the global scope, and
so it comes to the base scope. -/
def Position.Grounded {V F : Type} (position : Position V F) (held : List FrameId) : Prop :=
  ∃ inner ⊆ position.active :: held, position.store.ancestors position.active =
    inner ++ position.globals :: position.store.ancestors position.base

namespace Position.Sheltered

variable {V F : Type} {position before after : Position V F} {home id : FrameId}
variable {held : List FrameId}

/-- The owned frames are alive. -/
theorem isLive (sheltered : position.Sheltered home held)
    (member : id ∈ position.active :: held ++ [position.globals, position.base]) :
    position.store.isLive id :=
  sheltered.owned.isLive member

/-- The active scope is alive. -/
theorem isLive_active (sheltered : position.Sheltered home held) :
    position.store.isLive position.active :=
  sheltered.isLive (by simp)

/-- The global scope is alive. -/
theorem isLive_globals (sheltered : position.Sheltered home held) :
    position.store.isLive position.globals :=
  sheltered.isLive (by simp)

/-- The base scope is alive. -/
theorem isLive_base (sheltered : position.Sheltered home held) :
    position.store.isLive position.base :=
  sheltered.isLive (by simp)

/-- Where the surroundings begin is alive. -/
theorem isLive_home (sheltered : position.Sheltered home held) : position.store.isLive home := by
  refine sheltered.isLive ?_
  rcases List.mem_cons.mp sheltered.home with same | member
  · simp [same]
  · simp [member]

/-- What resumes stays sheltered. -/
theorem resume (sheltered : before.Sheltered home held) (resumes : before.Resumes after) :
    after.Sheltered home held where
  owned := by
    rw [resumes.base, resumes.globals, resumes.active]
    exact sheltered.owned.preserve resumes.store
  around := by
    obtain ⟨inner, listed, passed⟩ := sheltered.around
    rw [resumes.active]
    refine ⟨inner, listed, ?_⟩
    rw [resumes.store.ancestors_eq (lt_size_of_isLive sheltered.isLive_active),
      resumes.store.ancestors_eq (lt_size_of_isLive sheltered.isLive_home), passed]
  home := resumes.globals ▸ sheltered.home
  outer := by
    rw [resumes.base, resumes.globals,
      resumes.store.ancestors_eq (lt_size_of_isLive sheltered.isLive_globals),
      resumes.store.ancestors_eq (lt_size_of_isLive sheltered.isLive_base), sheltered.outer]

/-- Work in a new scope inside the active one is sheltered if that is held. -/
theorem enterScope (sheltered : position.Sheltered home held) :
    (Entry.scope.enter position).Sheltered home (position.active :: held) where
  owned := sheltered.owned.child position.active
  around := by
    obtain ⟨inner, listed, passed⟩ := sheltered.around
    refine ⟨position.store.frames.size :: inner, List.cons_subset_cons _ listed, ?_⟩
    show (position.store.child position.active).2.ancestors position.store.frames.size =
      _ ++ (position.store.child position.active).2.ancestors home
    rw [ancestors_child_self sheltered.isLive_active,
      ancestors_child (lt_size_of_isLive sheltered.isLive_home), passed, List.cons_append]
  home := by
    rcases List.mem_cons.mp sheltered.home with same | member
    · rw [same]
      exact List.mem_cons_self
    · simp [member]
  outer := by
    show (position.store.child position.active).2.ancestors position.globals =
      position.globals :: (position.store.child position.active).2.ancestors position.base
    rw [ancestors_child (lt_size_of_isLive sheltered.isLive_globals),
      ancestors_child (lt_size_of_isLive sheltered.isLive_base), sheltered.outer]

/-- Work in a new scope inside a live one, which is the closure of a method, is sheltered if that
and the active scope are held. -/
theorem enterMethod {closure : FrameId} (sheltered : position.Sheltered home held)
    (live : position.store.isLive closure) :
    ((Entry.method closure).enter position).Sheltered closure
      (closure :: position.active :: held) := by
  have sizes : (position.store.retain closure).frames.size = position.store.frames.size :=
    size_update _ _ _ _
  have stays : ∀ {id}, position.store.isLive id →
      ((position.store.retain closure).child closure).2.ancestors id =
        position.store.ancestors id := by
    intro id living
    rw [ancestors_child (sizes ▸ lt_size_of_isLive living), ancestors_retain live]
  have first : ((position.store.retain closure).child closure).2.ancestors
      (position.store.retain closure).frames.size =
        (position.store.retain closure).frames.size :: position.store.ancestors closure := by
    rw [ancestors_child_self ((isLive_retain live).trans live), ancestors_retain live]
  refine ⟨(sheltered.owned.retain live).child closure,
    ⟨[(position.store.retain closure).frames.size], ?_, ?_⟩, by simp, ?_⟩
  · exact List.cons_subset_cons _ (List.nil_subset _)
  · exact first.trans (congrArg _ (stays live).symm)
  · exact (stays sheltered.isLive_globals).trans
      (sheltered.outer.trans (congrArg _ (stays sheltered.isLive_base).symm))

/-- Work is sheltered by what the way into it saves. -/
theorem lead {entry : Entry} (sheltered : before.Sheltered home held)
    (leads : entry.Leads before after) :
    after.Sheltered (entry.home home) (entry.saves before.active ++ held) := by
  obtain ⟨begun, live, ended⟩ := leads
  have begins := sheltered.resume begun
  rw [← begun.active]
  refine resume ?_ ended
  cases entry with
  | same => exact begins
  | scope => exact begins.enterScope
  | method closure => exact begins.enterMethod (live closure rfl)

/-- Where the surroundings begin at the global scope, a lookup comes to the base scope. -/
theorem grounded (sheltered : position.Sheltered position.globals held) :
    position.Grounded held := by
  obtain ⟨inner, listed, passed⟩ := sheltered.around
  exact ⟨inner, listed, sheltered.outer ▸ passed⟩

end Position.Sheltered

/-- The global scope is active, and all that is needed there is owned. -/
structure Position.Founded {V F : Type} (position : Position V F) : Prop where
  /-- The global scope is active. -/
  active : position.active = position.globals
  /-- Its frames are owned. -/
  sheltered : position.Sheltered position.globals []

/-- What resumes stays founded. -/
theorem Position.Founded.resume {V F : Type} {before after : Position V F}
    (founded : before.Founded) (resumes : before.Resumes after) : after.Founded where
  active := by rw [resumes.active, resumes.globals, founded.active]
  sheltered := resumes.globals.symm ▸ founded.sheltered.resume resumes

/-- A new scope inside a live base scope, with one more owner, can be the global scope. -/
theorem Store.founded_child {V F : Type} {store : Store V F} {base : FrameId}
    (live : store.isLive base) :
    (Position.mk ((store.child base).2.retain store.frames.size) base store.frames.size
      store.frames.size).Founded := by
  have older := lt_size_of_isLive live
  have liveChild : (store.child base).2.isLive store.frames.size := isLive_child_self
  refine ⟨rfl, ?_, ⟨[], List.nil_subset _, rfl⟩, List.mem_cons_self, ?_⟩
  · have single : store.Owned [base] := by
      intro id
      by_cases same : id = base
      · rw [same, List.count_singleton_self]
        exact isLive_iff_owners.mp live
      · rw [List.count_eq_zero_of_not_mem (by simpa using same)]
        exact Nat.zero_le _
    exact (single.child base).retain liveChild
  · show ((store.child base).2.retain _).ancestors _ =
      _ :: ((store.child base).2.retain _).ancestors _
    rw [ancestors_retain liveChild, ancestors_retain liveChild, ancestors_child_self live,
      ancestors_child older]

end LetDef
