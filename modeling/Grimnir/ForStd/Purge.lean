import Grimnir.ForStd.Machine

/-!
# Requests that leave no trace

An event that leaves the state as it is can be left out of a history: the other events are
answered as before and lead to the same state.  A server that refuses without touching its
state is therefore explained by the requests it accepted, and requests that it always refuses
cannot be noticed by anyone else.

## Key results

- `Run.replay_kept`: the kept events of a run, replayed alone, give the kept answers and the
  state of the run
- `Run.guarded`: what holds of every run of a machine that refuses without a trace
-/

namespace Machine

variable {σ ε ρ : Type} {m : Machine σ ε ρ}

/-- An answered event that is not kept leaves the state as it is. -/
def IdleUnless (m : Machine σ ε ρ) (keep : ε × ρ → Bool) : Prop :=
  ∀ s e, keep (e, (m.step s e).1) = false → (m.step s e).2 = s

/-- The kept events of a log, oldest first. -/
def keptEvents (keep : ε × ρ → Bool) (log : List (ε × ρ)) : List ε :=
  ((log.filter keep).map Prod.fst).reverse

variable {keep : ε × ρ → Bool}

private theorem keptEvents_cons_of_keep {x : ε × ρ} (hkeep : keep x = true) (log : List (ε × ρ)) :
    keptEvents keep (x :: log) = keptEvents keep log ++ [x.1] := by
  simp [keptEvents, hkeep]

private theorem keptEvents_cons_of_idle {x : ε × ρ} (hidle : keep x = false) (log : List (ε × ρ)) :
    keptEvents keep (x :: log) = keptEvents keep log := by
  simp [keptEvents, hidle]

/-- When it is the event that decides, the kept events are those of the history. -/
private theorem keptEvents_fst (p : ε → Bool) (log : List (ε × ρ)) :
    keptEvents (fun x => p x.1) log = ((log.map Prod.fst).filter p).reverse := by
  rw [keptEvents, List.filter_map]
  rfl

/-- The state and the kept answers are those of the kept events replayed alone. -/
def ExplainedBy (m : Machine σ ε ρ) (keep : ε × ρ → Bool) (s : σ) (c : Config σ ε ρ) : Prop :=
  m.replay ⟨[], s⟩ (keptEvents keep c.log) = ⟨c.log.filter keep, c.state⟩

/-- One more event: it is replayed when it is kept, and changes nothing otherwise. -/
theorem ExplainedBy.answer {s : σ} {c : Config σ ε ρ} (hc : m.ExplainedBy keep s c)
    (h : m.IdleUnless keep) (e : ε) : m.ExplainedBy keep s (m.answer c e) := by
  unfold ExplainedBy at hc ⊢
  rw [Machine.answer]
  dsimp only
  cases hkeep : keep (e, (m.step c.state e).1) with
  | true =>
    rw [keptEvents_cons_of_keep hkeep, replay_snoc, hc, List.filter_cons_of_pos hkeep,
      Machine.answer]
  | false =>
    rw [keptEvents_cons_of_idle hkeep, List.filter_cons_of_neg (by simp [hkeep]), hc,
      h c.state e hkeep]

variable {ok : Config σ ε ρ → ε → Prop} {s : σ} {c c' : Config σ ε ρ}

/-- The kept events of a run, replayed alone, are answered as in the run and lead to its
    state. -/
theorem Run.replay_kept (h : m.IdleUnless keep) (hrun : m.Run ok ⟨[], s⟩ c) :
    m.ExplainedBy keep s c :=
  hrun.invariant (I := m.ExplainedBy keep s) rfl fun _ e hc _ => hc.answer h e

/-- Two runs that differ only in events that change nothing end in the same state, with the
    same answers to the other events. -/
private theorem Run.eq_of_filter_eq {p : ε → Bool} (h : m.IdleUnless fun x => p x.1)
    (hrun : m.Run ok ⟨[], s⟩ c) (hrun' : m.Run ok ⟨[], s⟩ c')
    (hevents : (c'.log.map Prod.fst).filter p = (c.log.map Prod.fst).filter p) :
    c'.state = c.state ∧ (c'.log.filter fun x => p x.1) = c.log.filter fun x => p x.1 := by
  have hkept := hrun.replay_kept h
  have hkept' := hrun'.replay_kept h
  rw [ExplainedBy, keptEvents_fst] at hkept hkept'
  rw [hevents, hkept] at hkept'
  injection hkept' with hlog hstate
  exact ⟨hstate.symm, hlog.symm⟩

/-- The requests that do not show a key are refused, and whoever makes them learns nothing and
    changes nothing: neither they nor any other refused request leaves a trace. -/
structure Guarded (m : Machine σ ε ρ) (shows : ε → Bool) (accepted : ε × ρ → Bool) (s : σ)
    (c : Config σ ε ρ) : Prop where
  refused : ∀ x ∈ c.log, shows x.1 = false → accepted x = false
  /-- The accepted requests alone explain the state and the answers. -/
  explained : m.ExplainedBy accepted s c
  /-- With other requests in place of the keyless ones, or none, everything else is the same. -/
  unnoticed : ∀ c', m.Run (fun _ _ => True) ⟨[], s⟩ c' →
    (c'.log.map Prod.fst).filter shows = (c.log.map Prod.fst).filter shows →
      c'.state = c.state ∧ (c'.log.filter fun x => shows x.1) = c.log.filter fun x => shows x.1

/-- A machine that refuses without touching its state, and refuses every request without the
    key, is guarded in every run. -/
theorem Run.guarded {shows : ε → Bool} {accepted : ε × ρ → Bool} (hidle : m.IdleUnless accepted)
    (hrefuses : ∀ s e, shows e = false → accepted (e, (m.step s e).1) = false)
    (hrun : m.Run (fun _ _ => True) ⟨[], s⟩ c) : m.Guarded shows accepted s c := by
  have hkeyless : m.IdleUnless fun x => shows x.1 :=
    fun s e hshows => hidle s e (hrefuses s e hshows)
  have hrefused : ∀ x ∈ c.log, shows x.1 = false → accepted x = false := by
    refine hrun.invariant
      (I := fun c => ∀ x ∈ c.log, shows x.1 = false → accepted x = false)
      (fun x hx => absurd hx List.not_mem_nil) ?_
    intro c e hc _ x hx hshows
    rcases List.mem_cons.mp hx with rfl | hx
    · exact hrefuses c.state e hshows
    · exact hc x hx hshows
  exact ⟨hrefused, hrun.replay_kept hidle, fun _ hrun' => hrun.eq_of_filter_eq hkeyless hrun'⟩

end Machine
