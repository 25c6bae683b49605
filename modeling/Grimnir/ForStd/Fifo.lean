import Mathlib.Data.List.Basic

/-!
# Bounded queues

A first-in first-out queue of at most `cap` items.  A send to a full queue and a receive
from an empty one fail and leave the queue as it is, so one operation is one atomic step of
whoever calls it.

## Key results

- `items_of_send` / `items_of_receive`: what an operation that succeeds does
- `send_eq_none_iff` / `exists_send`: when a send fails, and when it does not
- `items_sendAll`: a list that fits is queued as it is
-/

/-- A queue of at most `cap` items, the oldest first. -/
structure Fifo (α : Type) (cap : Nat) where
  items : List α
  bounded : items.length ≤ cap

namespace Fifo

variable {α : Type} {cap : Nat} {q q' : Fifo α cap} {a : α}

def empty : Fifo α cap := ⟨[], Nat.zero_le _⟩

@[simp] theorem items_empty : (empty : Fifo α cap).items = [] := rfl

/-- Append an item, or fail when the queue is full. -/
def send (q : Fifo α cap) (a : α) : Option (Fifo α cap) :=
  if h : q.items.length < cap then
    some ⟨q.items ++ [a], by rw [List.length_append]; exact h⟩
  else none

/-- Take the oldest item, or fail when the queue is empty. -/
def receive (q : Fifo α cap) : Option (α × Fifo α cap) :=
  match h : q.items with
  | [] => none
  | a :: rest => some (a, ⟨rest, by
      have hle := q.bounded
      rw [h, List.length_cons] at hle
      exact Nat.le_of_succ_le hle⟩)

theorem items_of_send (h : q.send a = some q') : q'.items = q.items ++ [a] := by
  unfold send at h
  split at h
  · cases h; rfl
  · cases h

theorem send_eq_none_iff : q.send a = none ↔ q.items.length = cap := by
  have hle := q.bounded
  unfold send
  split
  · rename_i hlt
    simp only [reduceCtorEq, false_iff]
    omega
  · rename_i hfull
    simp only [true_iff]
    omega

/-- With room for one more item a send succeeds. -/
theorem exists_send (h : q.items.length < cap) (a : α) : ∃ q', q.send a = some q' :=
  ⟨_, dif_pos h⟩

theorem items_of_receive (h : q.receive = some (a, q')) : q.items = a :: q'.items := by
  unfold receive at h
  split at h
  · cases h
  · rename_i hitems
    cases h
    exact hitems

/-- A receive fails when the queue is empty. -/
theorem items_of_receive_eq_none (h : q.receive = none) : q.items = [] := by
  unfold receive at h
  split at h
  · rename_i hitems
    exact hitems
  · cases h

/-- Send the items of a list in turn; an item that finds the queue full is lost. -/
def sendAll (q : Fifo α cap) (as : List α) : Fifo α cap :=
  as.foldl (fun q a => (q.send a).getD q) q

/-- A list that fits is queued as it is. -/
theorem items_sendAll {as : List α} (h : q.items.length + as.length ≤ cap) :
    (q.sendAll as).items = q.items ++ as := by
  induction as generalizing q with
  | nil => rw [List.append_nil]; rfl
  | cons a as ih =>
    rw [List.length_cons] at h
    cases hsend : q.send a with
    | none =>
      -- the list fits, so no send of it fails
      have hfull := send_eq_none_iff.mp hsend
      omega
    | some q' =>
      have hitems := items_of_send hsend
      have hrest : q.sendAll (a :: as) = q'.sendAll as := by
        rw [sendAll, List.foldl_cons, hsend]
        rfl
      rw [hrest, ih (by rw [hitems, List.length_append, List.length_singleton]; omega), hitems,
        List.append_assoc, List.singleton_append]

end Fifo
