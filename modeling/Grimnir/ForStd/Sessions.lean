import Mathlib.Data.List.Basic

/-!
# Sessions, transactions and an advisory lock

A database server with any number of sessions over the committed state `σ`.  A session has
one open transaction, which is the list of its writes; a commit applies them to what is
committed then.  A lost session loses its transaction and the lock.

A client sends one statement at a time.  The server carries it out, refuses it, or loses
the connection before the answer.

## Key results

- `call_rule`: what can come of a statement
- `spares_call`: a call leaves the other clients their transactions and their lock
-/

/-- A database server. -/
structure Server (σ ω : Type) where
  committed : σ
  /-- The writes of the open transaction of each session, oldest first. -/
  sessions : Nat → Option (List ω)
  /-- The session that holds the advisory lock. -/
  lock : Option Nat

/-- A statement of a client. -/
inductive Server.Statement (ω : Type) where
  /-- `SELECT pg_advisory_lock(…)`. -/
  | lock
  /-- `SELECT pg_advisory_unlock(…)`. -/
  | unlock
  | write (w : ω)
  | read
  | commit
  | rollback

/-- What becomes of a statement. -/
inductive Fate (ε : Type) where
  | served
  /-- The server refuses it, for a reason of its own. -/
  | refused (exc : ε)
  /-- It is carried out, but the connection is gone before the answer. -/
  | lost (exc : ε)

namespace Server

variable {σ ω ε : Type}

/-- What a statement does when it is carried out. -/
inductive Execution (σ ω ε : Type) where
  /-- The lock is taken. -/
  | blocked
  | raised (exc : ε)
  /-- The rows it reads, the writes it makes durable, and the server then. -/
  | done (view : σ) (durable : List ω) (server : Server σ ω)

variable (apply : ω → σ → Except ε σ)

/-- What a transaction sees. -/
def view (pending : List ω) (s : Server σ ω) : Except ε σ :=
  pending.foldlM (fun state w => apply w state) s.committed

def setSession (pid : Nat) (session : Option (List ω)) (s : Server σ ω) : Server σ ω :=
  { s with sessions := fun p => if p = pid then session else s.sessions p }

/-- A new session. -/
def connect (pid : Nat) (s : Server σ ω) : Server σ ω := s.setSession pid (some [])

/-- The session ends, and with it its transaction and its lock. -/
def disconnect (pid : Nat) (s : Server σ ω) : Server σ ω :=
  { s.setSession pid none with lock := if s.lock = some pid then none else s.lock }

/-- A statement of session `pid`, whose transaction has written `pending`. -/
def execute (pid : Nat) (pending : List ω) (s : Server σ ω) :
    Statement ω → Execution σ ω ε
  | .lock =>
    if s.lock = none ∨ s.lock = some pid then .done s.committed [] { s with lock := some pid }
    else .blocked
  | .unlock =>
    .done s.committed [] { s with lock := if s.lock = some pid then none else s.lock }
  | .write w =>
    match view apply (pending ++ [w]) s with
    | .error exc => .raised exc
    | .ok state => .done state [] (s.setSession pid (some (pending ++ [w])))
  | .read =>
    match view apply pending s with
    | .error exc => .raised exc
    | .ok state => .done state [] s
  | .commit =>
    match view apply pending s with
    | .error exc => .raised exc
    | .ok state => .done state pending { s.setSession pid (some []) with committed := state }
  | .rollback => .done s.committed [] (s.setSession pid (some []))

/-- A statement that raises leaves the transaction open.  A commit ends it all the same,
    and a rollback raises only when the connection is gone. -/
def refuse (pid : Nat) (s : Server σ ω) : Statement ω → Server σ ω
  | .commit => s.setSession pid (some [])
  | .rollback => s.disconnect pid
  | _ => s

/-- A client sends a statement: what it gets, what becomes durable, and the server then. -/
def call (pid : Nat) (stmt : Statement ω) (fate : Fate ε) (closed : ε) (s : Server σ ω) :
    Option (Except ε σ × List ω × Server σ ω) :=
  match s.sessions pid with
  | none => some (.error closed, [], s)
  | some pending =>
    match fate, execute apply pid pending s stmt with
    | .refused exc, _ => some (.error exc, [], s.refuse pid stmt)
    | .served, .blocked => none
    | .served, .raised exc => some (.error exc, [], s.refuse pid stmt)
    | .served, .done view durable s' => some (.ok view, durable, s')
    | .lost exc, .done _ durable s' => some (.error exc, durable, s'.disconnect pid)
    | .lost exc, _ => some (.error exc, [], s.disconnect pid)

/-! ## Frames -/

/-- The session that was set is the one there is. -/
@[simp] theorem sessions_setSession (pid : Nat) (session : Option (List ω)) (s : Server σ ω) :
    (s.setSession pid session).sessions pid = session := by
  simp only [setSession, if_true]

/-- The other processes keep their sessions. -/
theorem sessions_setSession_of_ne {pid p : Nat} (h : p ≠ pid) (session : Option (List ω))
    (s : Server σ ω) : (s.setSession pid session).sessions p = s.sessions p := by
  simp only [setSession, if_neg h]

/-- A disconnected process has no session. -/
@[simp] theorem sessions_disconnect (pid : Nat) (s : Server σ ω) :
    (s.disconnect pid).sessions pid = none := s.sessions_setSession pid none

/-- What the session of another client keeps: its transaction, and the lock if it has it. -/
structure Spares (p : Nat) (s s' : Server σ ω) : Prop where
  session : s'.sessions p = s.sessions p
  lock : s.lock = some p → s'.lock = some p

variable {pid p : Nat} {s s' : Server σ ω}

/-- Two steps that spare a process spare it together. -/
theorem Spares.trans {s'' : Server σ ω} (h : Spares p s s') (h' : Spares p s' s'') :
    Spares p s s'' := ⟨h'.session.trans h.session, fun hlock => h'.lock (h.lock hlock)⟩

/-- Setting the session of another process spares this one. -/
theorem spares_setSession (h : p ≠ pid) (session : Option (List ω)) (s : Server σ ω) :
    Spares p s (s.setSession pid session) :=
  ⟨sessions_setSession_of_ne h session s, fun hlock => hlock⟩

/-- So does its disconnecting, which frees at most its own lock. -/
theorem spares_disconnect (h : p ≠ pid) (s : Server σ ω) :
    Spares p s (s.disconnect pid) := by
  refine ⟨sessions_setSession_of_ne h none s, fun hlock => ?_⟩
  have hother : s.lock ≠ some pid := by
    rw [hlock]
    exact fun heq => h (Option.some.inj heq)
  exact (if_neg hother).trans hlock

/-- So does a refused statement of another process. -/
theorem spares_refuse (h : p ≠ pid) (stmt : Statement ω) (s : Server σ ω) :
    Spares p s (s.refuse pid stmt) := by
  cases stmt with
  | commit => exact spares_setSession h _ s
  | rollback => exact spares_disconnect h s
  | _ => exact ⟨rfl, fun hlock => hlock⟩

/-- So does an executed statement of another process. -/
theorem spares_execute (h : p ≠ pid) {pending durable : List ω} {stmt : Statement ω}
    {state : σ} (hdone : s.execute apply pid pending stmt = .done state durable s') :
    Spares p s s' := by
  have hlock : s.lock = some p → s.lock ≠ some pid := by
    intro hp
    rw [hp]
    exact fun heq => h (Option.some.inj heq)
  -- only `lock` looks at who holds the lock; the rest touch one session
  cases stmt with
  | lock =>
    simp only [execute] at hdone
    split at hdone
    · rename_i hfree
      cases hdone
      refine ⟨rfl, fun hp => ?_⟩
      -- free, or already held by the caller
      rcases hfree with hfree | hfree
      · rw [hfree] at hp
        cases hp
      · exact absurd hfree (hlock hp)
    · cases hdone
  | unlock =>
    cases hdone
    exact ⟨rfl, fun hp => (if_neg (hlock hp)).trans hp⟩
  | write w =>
    simp only [execute] at hdone
    split at hdone
    · cases hdone
    · cases hdone
      exact spares_setSession h _ s
  | read =>
    simp only [execute] at hdone
    split at hdone
    · cases hdone
    · cases hdone
      exact ⟨rfl, fun hp => hp⟩
  | commit =>
    simp only [execute] at hdone
    split at hdone
    · cases hdone
    · cases hdone
      exact ⟨sessions_setSession_of_ne h _ s, fun hp => hp⟩
  | rollback =>
    cases hdone
    exact spares_setSession h _ s

/-! ## What can come of a statement -/

variable {apply}

/-- The rule of a call. -/
theorem call_rule {R : Except ε σ → List ω → Server σ ω → Prop} {stmt : Statement ω}
    {fate : Fate ε} {closed : ε} {reply : Except ε σ} {durable : List ω}
    (hcall : s.call apply pid stmt fate closed = some (reply, durable, s'))
    (hdead : s.sessions pid = none → ∀ exc, R (.error exc) [] s)
    (hrefused : ∀ pending, s.sessions pid = some pending →
      ∀ exc, R (.error exc) [] (s.refuse pid stmt))
    (hlost : ∀ exc, R (.error exc) [] (s.disconnect pid))
    (hdone : ∀ pending state durable s₁, s.sessions pid = some pending →
      s.execute apply pid pending stmt = .done state durable s₁ →
        R (.ok state) durable s₁ ∧ ∀ exc, R (.error exc) durable (s₁.disconnect pid)) :
    R reply durable s' := by
  -- no connection, or one outcome per fate
  unfold call at hcall
  split at hcall
  · rename_i hnone
    cases hcall
    exact hdead hnone _
  · rename_i pending hsome
    -- a closed connection, a refusal, a loss, and the two that execute
    split at hcall
    · cases hcall
      exact hrefused pending hsome _
    · cases hcall
    · cases hcall
      exact hrefused pending hsome _
    · rename_i hexec
      cases hcall
      exact (hdone _ _ _ _ hsome hexec).1
    · rename_i hexec
      cases hcall
      exact (hdone _ _ _ _ hsome hexec).2 _
    · cases hcall
      exact hlost _

/-- A call of another client. -/
theorem spares_call (h : p ≠ pid) {stmt : Statement ω} {fate : Fate ε} {closed : ε}
    {reply : Except ε σ} {durable : List ω}
    (hcall : s.call apply pid stmt fate closed = some (reply, durable, s')) :
    Spares p s s' := by
  refine call_rule (R := fun _ _ s' => Spares p s s') hcall ?_ ?_ ?_ ?_
  · exact fun _ _ => ⟨rfl, fun hlock => hlock⟩
  · exact fun _ _ _ => spares_refuse h stmt s
  · exact fun _ => spares_disconnect h s
  · intro pending state durable s₁ _ hexec
    have hspares := spares_execute apply h hexec
    exact ⟨hspares, fun _ => hspares.trans (spares_disconnect h s₁)⟩

/-! ## Statement by statement -/

section Done

variable {pending durable : List ω} {state : σ}

/-- A lock that was taken changes nothing but the lock's owner. -/
theorem execute_lock_done
    (h : s.execute apply pid pending .lock = .done state durable s') :
    durable = [] ∧ s' = { s with lock := some pid } := by
  simp only [execute] at h
  split at h
  · cases h
    exact ⟨rfl, rfl⟩
  · cases h

/-- A write that was executed joins the pending writes of its own session. -/
theorem execute_write_done {w : ω}
    (h : s.execute apply pid pending (.write w) = .done state durable s') :
    durable = [] ∧ s' = s.setSession pid (some (pending ++ [w])) := by
  simp only [execute] at h
  split at h
  · cases h
  · cases h
    exact ⟨rfl, rfl⟩

/-- A read that was executed changes nothing and sees the committed state with its own pending
    writes. -/
theorem execute_read_done
    (h : s.execute apply pid pending .read = .done state durable s') :
    durable = [] ∧ s' = s ∧ view apply pending s = .ok state := by
  simp only [execute] at h
  split at h
  · cases h
  · rename_i hview
    cases h
    exact ⟨rfl, rfl, hview⟩

/-- A commit that was executed makes all pending writes durable, and only these. -/
theorem execute_commit_done
    (h : s.execute apply pid pending .commit = .done state durable s') :
    durable = pending ∧ s' = { s.setSession pid (some []) with committed := state } ∧
      view apply pending s = .ok state := by
  simp only [execute] at h
  split at h
  · cases h
  · rename_i hview
    cases h
    exact ⟨rfl, rfl, hview⟩

end Done

end Server
