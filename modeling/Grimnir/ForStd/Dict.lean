import Grimnir.ForStd.Table
import Mathlib.Logic.Function.Basic

/-!
# Python's `dict`

A `dict` is its items in insertion order, one for each key: a table whose key is the first
component.  Assigning to a key that is there keeps its place.

## Key results

- `get?_set` / `read_set`: assigning to a key changes what is under it, and nothing else
-/

/-- The items of a `dict`, in insertion order. -/
abbrev Dict (κ α : Type) := Table (κ × α) Prod.fst

namespace Dict

variable {κ α : Type} [DecidableEq κ]

/-- `d.get(k)`. -/
def get? (d : Dict κ α) (k : κ) : Option α := (d.find? k).map Prod.snd

/-- `d[k] = a`. -/
def set (d : Dict κ α) (k : κ) (a : α) : Dict κ α :=
  d.upsert (fun old new => (old.1, new.2)) (fun _ _ => rfl) (k, a)

/-- Assigning to a key changes what is under it, and nothing else. -/
theorem get?_set (d : Dict κ α) (k k' : κ) (a : α) :
    (d.set k a).get? k' = if k = k' then some a else d.get? k' := by
  unfold get? set
  rw [Table.find?_upsert]
  by_cases hk : k = k'
  · rw [if_pos hk, if_pos hk]
    cases d.find? k' <;> rfl
  · rw [if_neg hk, if_neg hk]

/-- What is read from a `dict` is updated at the key that is assigned to. -/
theorem read_set {β : Type} (read : Option α → β) (d : Dict κ α) (k : κ) (a : α) :
    (fun k' => read ((d.set k a).get? k')) =
      Function.update (fun k' => read (d.get? k')) k (read (some a)) := by
  funext k'
  rw [get?_set]
  by_cases hk : k = k'
  · rw [if_pos hk, ← hk, Function.update_self]
  · rw [if_neg hk, Function.update_of_ne (Ne.symm hk)]

end Dict
