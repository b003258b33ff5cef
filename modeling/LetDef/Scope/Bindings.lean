/-!
# Bindings

A finite assignment of values to keys, in which every key has at most one value. `get?` is the
view through which everything else is described: `bind` gives a key a value, whether it had one
or not, and changes no other key.
-/
namespace LetDef

/-- Values bound to keys. -/
structure Bindings (κ α : Type) where
  /-- The keys with their values, latest first. -/
  entries : List (κ × α)

namespace Bindings

variable {κ α : Type} [DecidableEq κ]

/-- No key has a value. -/
def empty : Bindings κ α := ⟨[]⟩

/-- The value of a key in a list of entries. -/
def valueIn (key : κ) : List (κ × α) → Option α
  | [] => none
  | entry :: rest => if key = entry.1 then some entry.2 else valueIn key rest

/-- The value of a key. -/
def get? (bindings : Bindings κ α) (key : κ) : Option α :=
  valueIn key bindings.entries

/-- The key has a value. -/
def contains (bindings : Bindings κ α) (key : κ) : Bool :=
  (bindings.get? key).isSome

/-- Gives a value to a key in a list of entries, in its place if it is there. -/
def bindIn (key : κ) (value : α) : List (κ × α) → List (κ × α)
  | [] => [(key, value)]
  | entry :: rest =>
    if key = entry.1 then (key, value) :: rest else entry :: bindIn key value rest

/-- Gives a value to a key. -/
def bind (bindings : Bindings κ α) (key : κ) (value : α) : Bindings κ α :=
  ⟨bindIn key value bindings.entries⟩

/-- Takes the value of a key away. -/
def erase (bindings : Bindings κ α) (key : κ) : Bindings κ α :=
  ⟨bindings.entries.filter fun entry => key ≠ entry.1⟩

/-- The keys that have values. -/
def keys (bindings : Bindings κ α) : List κ :=
  bindings.entries.map Prod.fst

/-- How many keys have values. -/
def size (bindings : Bindings κ α) : Nat :=
  bindings.entries.length

/-- Without bindings, no key has a value. -/
@[simp] theorem get?_empty (key : κ) : (empty : Bindings κ α).get? key = none := rfl

/-- The first value of a key among the entries is the one that was given last. -/
theorem valueIn_bindIn (key other : κ) (value : α) (entries : List (κ × α)) :
    valueIn other (bindIn key value entries) =
      if other = key then some value else valueIn other entries := by
  induction entries with
  | nil => rfl
  | cons entry rest ih =>
    simp only [bindIn]
    split
    next found => simp only [valueIn, ← found]; split <;> rfl
    next found =>
      simp only [valueIn, ih]
      split
      next same => rw [if_neg fun equal => found (equal.symm.trans same)]
      next => rfl

/-- Binding a key changes that key alone. -/
@[simp] theorem get?_bind (bindings : Bindings κ α) (key other : κ) (value : α) :
    (bindings.bind key value).get? other =
      if other = key then some value else bindings.get? other :=
  valueIn_bindIn key other value bindings.entries

end Bindings

end LetDef
