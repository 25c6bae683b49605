import Mathlib.Data.List.Basic

/-!
# Transactions whose statements may fail

A transaction is a sequence of statements over the tables `σ`.  Statements are named,
and a fault table decides which of them the server makes raise (a lock timeout, a
statement timeout, a lost permission).  An error discards everything the transaction
wrote, so rolling back needs no code; `savepoint` is the nested form, which resumes
from the tables as they were when it was opened.

## Key results

- `run_bind`, `run_read`, `run_write`: executing a transaction statement by statement
- `run_forM_write`: a loop of writes is a fold
- `Oblivious`: a transaction that goes through ignores the fault table
- `GoesThrough`: statement by statement, when a transaction runs to its end
- `transact_error`: a transaction that raises leaves the tables as they were
- `Oblivious.transact`: what a transaction keeps when it goes through, it keeps
-/

/-- A transaction over the tables `σ` with statements named by `κ`, raising `ε`. -/
abbrev Tx (κ ε σ : Type) := ReaderT (κ → Option ε) (StateT σ (Except ε))

namespace Tx

variable {κ ε σ α β : Type}

/-- No statement is made to fail. -/
def noFaults : κ → Option ε := fun _ => none

/-- Run a transaction up to its end or its first error. -/
def run (tx : Tx κ ε σ α) (faults : κ → Option ε) (s : σ) : Except ε (α × σ) :=
  tx faults s

/-- One statement, which may also raise on its own account (a violated constraint). -/
def execute (k : κ) (stmt : σ → Except ε (α × σ)) : Tx κ ε σ α := fun faults s =>
  match faults k with
  | some e => .error e
  | none => stmt s

/-- A statement that only reads. -/
def read (k : κ) (f : σ → α) : Tx κ ε σ α := execute k fun s => .ok (f s, s)

/-- A statement that only writes. -/
def write (k : κ) (f : σ → σ) : Tx κ ε σ Unit := execute k fun s => .ok ((), f s)

/-- `SAVEPOINT … ROLLBACK TO SAVEPOINT`: on an error, `handler` runs on the tables as
    they were before `tx`. -/
def savepoint (tx : Tx κ ε σ α) (handler : ε → Tx κ ε σ α) : Tx κ ε σ α := fun faults s =>
  match tx faults s with
  | .ok r => .ok r
  | .error e => handler e faults s

/-- Commit on success, roll back on an error. -/
def transact (tx : Tx κ ε σ α) (faults : κ → Option ε) (s : σ) : Except ε α × σ :=
  match tx.run faults s with
  | .ok (a, s') => (.ok a, s')
  | .error e => (.error e, s)

/-! ## Running statement by statement -/

variable {faults : κ → Option ε} {s s' : σ}

/-- Returning runs no statement. -/
@[simp] theorem run_pure (a : α) : (pure a : Tx κ ε σ α).run faults s = .ok (a, s) := rfl

/-- A sequence stops at the first statement that raises. -/
theorem run_bind (tx : Tx κ ε σ α) (f : α → Tx κ ε σ β) :
    (tx >>= f).run faults s =
      match tx.run faults s with
      | .ok (a, s') => (f a).run faults s'
      | .error e => .error e := by
  show (tx faults s >>= fun p => (f p.1) faults p.2) = _
  unfold run
  cases tx faults s <;> rfl

/-- A statement whose fault is set raises it. -/
theorem run_execute_of_some {k : κ} {e : ε} (h : faults k = some e)
    (stmt : σ → Except ε (α × σ)) : (execute k stmt).run faults s = .error e := by
  simp only [run, execute, h]

/-- A statement without a fault runs. -/
theorem run_execute_of_none {k : κ} (h : faults k = none) (stmt : σ → Except ε (α × σ)) :
    (execute k stmt).run faults s = stmt s := by
  simp only [run, execute, h]

/-- Without faults, a statement does what it says. -/
@[simp] theorem run_execute (k : κ) (stmt : σ → Except ε (α × σ)) :
    (execute k stmt).run noFaults s = stmt s := rfl

/-- Without faults, a read leaves the state as it is. -/
@[simp] theorem run_read (k : κ) (f : σ → α) :
    (read k f : Tx κ ε σ α).run noFaults s = .ok (f s, s) := rfl

/-- Without faults, a write is its function. -/
@[simp] theorem run_write (k : κ) (f : σ → σ) :
    (write k f : Tx κ ε σ Unit).run noFaults s = .ok ((), f s) := rfl

/-- A loop of writes applies them in order. -/
theorem run_forM_write (xs : List α) (k : α → κ) (f : α → σ → σ) :
    (forM xs fun x => write (k x) (f x) : Tx κ ε σ PUnit).run noFaults s =
      .ok (⟨⟩, xs.foldl (fun s x => f x s) s) := by
  induction xs generalizing s with
  | nil => rfl
  | cons x xs ih =>
    rw [List.forM_cons, run_bind, run_write, List.foldl_cons]
    exact ih

/-! ## Going through -/

/-- What goes through under faults does what it does without them. -/
def Oblivious (tx : Tx κ ε σ α) : Prop :=
  ∀ faults s r, tx.run faults s = .ok r → tx.run noFaults s = .ok r

/-- A single statement either raises its own fault or runs as without faults. -/
theorem oblivious_execute (k : κ) (stmt : σ → Except ε (α × σ)) :
    Oblivious (execute k stmt) := by
  intro faults s r h
  unfold run execute at h
  split at h
  · cases h
  · exact h

/-- A sequence of oblivious transactions is oblivious. -/
theorem Oblivious.bind {tx : Tx κ ε σ α} {f : α → Tx κ ε σ β} (htx : Oblivious tx)
    (hf : ∀ a, Oblivious (f a)) : Oblivious (tx >>= f) := by
  intro faults s r h
  rw [run_bind] at h ⊢
  cases hrun : tx.run faults s with
  | error e => rw [hrun] at h; exact nomatch h
  | ok p =>
    rw [hrun] at h
    -- the first part went through, so the fault table only matters to the second
    rw [htx faults s p hrun]
    exact hf p.1 faults p.2 r h

/-- So is a loop of them. -/
theorem oblivious_forM (xs : List α) {f : α → Tx κ ε σ PUnit} (hf : ∀ a, Oblivious (f a)) :
    Oblivious (forM xs f) := by
  induction xs with
  | nil => exact fun _ _ _ h => h
  | cons x xs ih =>
    rw [List.forM_cons]
    exact (hf x).bind fun _ => ih

/-! ## When a transaction goes through -/

/-- The transaction runs to its end. -/
def GoesThrough (tx : Tx κ ε σ α) (faults : κ → Option ε) (s : σ) : Prop :=
  ∃ r, tx.run faults s = .ok r

/-- A sequence goes through exactly when its first statement has no fault and succeeds and the
    rest goes through. -/
theorem goesThrough_execute_bind (k : κ) (stmt : σ → Except ε (α × σ)) (f : α → Tx κ ε σ β) :
    GoesThrough (execute k stmt >>= f) faults s ↔
      faults k = none ∧ ∃ a s', stmt s = .ok (a, s') ∧ GoesThrough (f a) faults s' := by
  unfold GoesThrough
  rw [run_bind]
  cases hk : faults k with
  | some e => simp [run_execute_of_some hk]
  | none =>
    rw [run_execute_of_none hk]
    cases hstmt : stmt s with
    | error e => simp
    | ok p => obtain ⟨a, s'⟩ := p; simp

/-- After a read, only its own fault and the rest matter. -/
@[simp] theorem goesThrough_read_bind (k : κ) (f : σ → α) (g : α → Tx κ ε σ β) :
    GoesThrough (read k f >>= g) faults s ↔
      faults k = none ∧ GoesThrough (g (f s)) faults s := by
  simp [read, goesThrough_execute_bind]

/-- After a write, only its own fault and the rest on the new state matter. -/
@[simp] theorem goesThrough_write_bind (k : κ) (f : σ → σ) (g : Unit → Tx κ ε σ β) :
    GoesThrough (write k f >>= g) faults s ↔
      faults k = none ∧ GoesThrough (g ()) faults (f s) := by
  rw [write, goesThrough_execute_bind]
  constructor
  · rintro ⟨hk, ⟨⟩, s', hs, hrest⟩
    cases hs
    exact ⟨hk, hrest⟩
  · rintro ⟨hk, hrest⟩
    exact ⟨hk, (), f s, rfl, hrest⟩

/-- A final write goes through exactly when it has no fault. -/
@[simp] theorem goesThrough_write (k : κ) (f : σ → σ) :
    GoesThrough (write k f : Tx κ ε σ Unit) faults s ↔ faults k = none := by
  unfold GoesThrough write
  cases hk : faults k with
  | some e => simp [run_execute_of_some hk]
  | none => simp [run_execute_of_none hk]

/-- A loop of writes goes through when none of them raises. -/
@[simp] theorem goesThrough_forM_write_bind (xs : List α) (k : α → κ) (f : α → σ → σ)
    (g : PUnit → Tx κ ε σ β) :
    GoesThrough ((forM xs fun x => write (k x) (f x)) >>= g) faults s ↔
      (∀ x ∈ xs, faults (k x) = none) ∧
        GoesThrough (g ⟨⟩) faults (xs.foldl (fun s x => f x s) s) := by
  induction xs generalizing s with
  | nil => simp
  | cons x xs ih => simp [List.forM_cons, bind_assoc, ih, and_assoc]

/-! ## Committing -/

/-- A transaction that returns is committed. -/
theorem transact_ok {tx : Tx κ ε σ α} {a : α} (h : tx.run faults s = .ok (a, s')) :
    tx.transact faults s = (.ok a, s') := by
  simp only [transact, h]

/-- A transaction that raises leaves the state as it was. -/
theorem transact_error {tx : Tx κ ε σ α} {e : ε} (h : (tx.transact faults s).1 = .error e) :
    (tx.transact faults s).2 = s := by
  unfold transact at h ⊢
  split
  · rename_i hrun
    simp only [hrun, reduceCtorEq] at h
  · rfl

/-- A transaction that commits ran to its end. -/
theorem run_of_transact_ok {tx : Tx κ ε σ α} {a : α} (h : (tx.transact faults s).1 = .ok a) :
    tx.run faults s = .ok (a, (tx.transact faults s).2) := by
  unfold transact at h ⊢
  split
  · rename_i hrun
    simp only [hrun, Except.ok.injEq] at h
    rw [hrun, h]
  · rename_i hrun
    simp only [hrun, reduceCtorEq] at h

/-- What holds of the tables before a transaction and after a run of it without faults
    holds after the transaction, whatever raises. -/
theorem Oblivious.transact {tx : Tx κ ε σ α} (htx : Oblivious tx) {P : σ → Prop} (hs : P s)
    (hrun : ∀ a s', tx.run noFaults s = .ok (a, s') → P s') : P (tx.transact faults s).2 := by
  cases h : (tx.transact faults s).1 with
  | ok a => exact hrun a _ (htx _ _ _ (run_of_transact_ok h))
  -- rolled back
  | error e =>
    rw [show (tx.transact faults s).2 = s from transact_error h]
    exact hs

end Tx
