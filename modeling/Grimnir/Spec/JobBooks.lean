import Grimnir.Spec.NornirRights
import Mathlib.Data.List.Perm.Basic

/-!
# The books of a fleet

A job has at most one model, uploaded by the daemon whose claim of the job succeeded, and a
complete job has one.  The books say where the right of the claim is, with the daemon, in a
request on its way or spent on a row, and what a completion rests on.

## Key results

- `Rights.wake`, `Evidence.wake`: a daemon that is woken keeps the books
- `Rights.served`, `Evidence.served`: so does serving a request
- `Rights.outside`, `Evidence.outside`: and what the other clients do
-/

namespace Grimnir.Nornir

open JobDb

variable {inst : Installation}

/-! ## The books -/

/-- The uploads for a job among the requests nobody waits for. -/
def lateUploads (late : List (Nat × FrekiCall)) (jobId : Nat) : Nat :=
  late.countP fun x => x.2.uploads jobId

/-- A daemon has stored a model of the job. -/
def Stored (log : FleetLog) (jobId : Nat) : Prop :=
  ∃ x ∈ uploads log, x.2.trainingJobId = some jobId

/-- No right is exercised twice: those left, those on their way and those spent are no more
    than the successful claims. -/
structure Rights (log : FleetLog) (s : Fleet) : Prop where
  owned : Owned (jobLog log) s.jobs
  upload : ∀ pid jobId, (s.lines pid).uploadRight jobId + lateUploads s.late jobId +
    modelCount s.models jobId ≤ claimCount (jobLog log) jobId
  report : ∀ pid jobId, reports log pid jobId + (s.lines pid).reportRight jobId ≤
    claimCount (jobLog log) jobId
  begun : ∀ pid jobId, executions log pid jobId +
    ((s.lines pid).pending.any (Pending.claims jobId)).toNat ≤ claimCount (jobLog log) jobId
  held : ∀ pid jobId, (s.lines pid).Holds jobId → Held (jobLog log) pid jobId
  heldLate : ∀ x ∈ s.late, ∀ jobId, x.2.about = some jobId → Held (jobLog log) x.1 jobId
  heldUpload : ∀ x ∈ uploads log, ∀ jobId, x.2.trainingJobId = some jobId →
    Held (jobLog log) x.1 jobId

/-- The rows of the registry are the uploads of the log, and a completion is sent, under way
    or written only when there is one. -/
structure Evidence (inst : Installation) (log : FleetLog) (s : Fleet) : Prop where
  stored : ∀ k ∈ modelKeys s.models, ∀ jobId, k.2 = some jobId →
    ∃ x ∈ uploads log, x.2.id = k.1 ∧ x.2.trainingJobId = some jobId
  kept : ∀ x ∈ uploads log, (x.2.id, x.2.trainingJobId) ∈ modelKeys s.models
  uploading : ∀ pid job trained,
    (s.lines pid).daemon.stage.job? = some (job, .uploading trained) → ∃ answer,
      (s.lines pid).pending =
        some ⟨.uploadModel (uploadForm (inst.daemons pid) job trained), answer⟩
  answered : ∀ pid form e, (s.lines pid).pending = some ⟨.uploadModel form, some e⟩ →
    (∃ error, e = .uploaded (.error error)) ∨ ∃ out, e = .uploaded (.ok out.id) ∧
      (pid, out) ∈ uploads log ∧ out.trainingJobId = form.trainingJobId
  completing : ∀ pid p, (s.lines pid).pending = some p → ∀ jobId,
    p.call.completes = some jobId → Stored log jobId
  completingLate : ∀ x ∈ s.late, ∀ jobId, x.2.completes = some jobId → Stored log jobId
  completed : ∀ k ∈ s.jobs.jobs, k.status = .complete → Stored log k.id
  sent : ∀ x ∈ log, ∀ pid jobId daemonId token,
    x.2.sent = some (pid, .completeJob jobId daemonId token) → ∃ out,
      x.2.received = some (pid, .uploaded (.ok out.id)) ∧ (pid, out) ∈ uploads log ∧
        out.trainingJobId = some jobId

/-! ## Moving a right -/

/-- Whoever can still upload for a job has to do with it. -/
private theorem holds_of_uploadRight {l : Line} {jobId : Nat} (h : 0 < l.uploadRight jobId) :
    l.Holds jobId := by
  unfold Line.uploadRight at h
  -- the right is that of a job in training, or of a call that is awaited
  by_cases htrains : trains jobId l.daemon.stage.job? = true
  · left
    unfold trains at htrains
    split at htrains
    · rename_i job hstage
      exact ⟨job, .training, hstage, of_decide_eq_true htrains⟩
    · cases htrains
  · right
    have hpending : l.pending.any (Pending.claims jobId) = true ∨
        l.pending.any (Pending.uploads jobId) = true := by
      -- without any of the three there would be no right
      by_contra hnone
      rw [not_or, Bool.not_eq_true, Bool.not_eq_true] at hnone
      rw [Bool.not_eq_true] at htrains
      rw [htrains, hnone.1, hnone.2] at h
      exact absurd h (by decide)
    -- the claim has succeeded, or the upload is not served yet
    rcases hpending with hclaims | huploads
    · obtain ⟨p, hp, hclaims⟩ := (Option.any_eq_true _ _).mp hclaims
      exact ⟨p, hp, .inr hclaims⟩
    · obtain ⟨p, hp, huploads⟩ := (Option.any_eq_true _ _).mp huploads
      refine ⟨p, hp, .inl ?_⟩
      rw [Pending.uploads, Bool.and_eq_true] at huploads
      exact about_of_uploads huploads.2

/-- With the daemon `pid` alone moving, its account speaks for all daemons: another one with
    a right to the job is its only holder. -/
private theorem Rights.upload_of_pid {log log' : FleetLog} {s s' : Fleet} (h : Rights log s)
    (pid : Nat) (hother : ∀ p, p ≠ pid → s'.lines p = s.lines p)
    (hclaims : ∀ jobId, claimCount (jobLog log) jobId ≤ claimCount (jobLog log') jobId)
    (hspent : ∀ jobId, lateUploads s'.late jobId + modelCount s'.models jobId ≤
      lateUploads s.late jobId + modelCount s.models jobId + (s.lines pid).uploadRight jobId)
    (hpid : ∀ jobId, (s'.lines pid).uploadRight jobId + lateUploads s'.late jobId +
      modelCount s'.models jobId ≤ claimCount (jobLog log') jobId) (p jobId : Nat) :
    (s'.lines p).uploadRight jobId + lateUploads s'.late jobId + modelCount s'.models jobId ≤
      claimCount (jobLog log') jobId := by
  by_cases hp : p = pid
  · rw [hp]
    exact hpid jobId
  · have hown := hpid jobId
    have hpast := h.upload p jobId
    have hmono := hclaims jobId
    have hmove := hspent jobId
    rw [hother p hp]
    by_cases hright : (s.lines p).uploadRight jobId = 0
    · omega
    · -- `p` holds the job, so `pid` has no right to it
      have hzero : (s.lines pid).uploadRight jobId = 0 := by
        by_contra hpos
        have hheld := h.held p jobId (holds_of_uploadRight (Nat.pos_of_ne_zero hright))
        have hheld' := h.held pid jobId (holds_of_uploadRight (Nat.pos_of_ne_zero hpos))
        exact hp (Held.unique h.owned hheld hheld')
      omega

/-! ## A daemon is woken -/

/-- How a daemon comes to be woken: the awaited call that is left, the event, the requests
    nobody waits for then and what the daemon receives. -/
inductive Ends (pid : Nat) (s : Fleet) : Option Pending → NornirEvent →
    List (Nat × FrekiCall) → Option (Nat × NornirEvent) → Prop where
  | own (e : NornirEvent) (h : e.endsCall = false) : Ends pid s (s.lines pid).pending e s.late none
  | reply (call : FrekiCall) (answer : NornirEvent)
      (h : (s.lines pid).pending = some ⟨call, some answer⟩) :
      Ends pid s none answer s.late (some (pid, answer))
  | lose (call : FrekiCall) (answer : Option NornirEvent) (error : CallError)
      (h : (s.lines pid).pending = some ⟨call, answer⟩) :
      Ends pid s none (call.failure error)
        (if answer.isNone then (pid, call) :: s.late else s.late)
        (some (pid, call.failure error))

section Wake
variable {pid : Nat} {s : Fleet} {pending : Option Pending} {e : NornirEvent}
  {late : List (Nat × FrekiCall)} {received : Option (Nat × NornirEvent)}

/-- A failed call claims nothing. -/
private theorem claims_failure (error : CallError) (call : FrekiCall) (jobId : Nat) :
    (call.failure error).claims jobId = false := by
  cases call <;> rfl

/-- Nor does an event that ends no call. -/
private theorem claims_of_endsCall {e : NornirEvent} (h : e.endsCall = false) (jobId : Nat) :
    e.claims jobId = false := by
  cases e with
  | claimed outcome => cases h
  | _ => rfl

/-- What ends an awaited call leaves no more rights than there were. -/
theorem Ends.uploadRight (h : Ends pid s pending e late received) (jobId : Nat) :
    (pending.any (Pending.claims jobId)).toNat + (pending.any (Pending.uploads jobId)).toNat +
        (e.claims jobId).toNat + lateUploads late jobId ≤
      ((s.lines pid).pending.any (Pending.claims jobId)).toNat +
        ((s.lines pid).pending.any (Pending.uploads jobId)).toNat +
        lateUploads s.late jobId := by
  cases h with
  -- the event ends no call, so nothing changes hands
  | own _ h =>
    rw [claims_of_endsCall h]
    exact Nat.le_refl _
  -- the answer of a claim becomes the event
  | reply call _ h =>
    rw [h]
    simp [Pending.claims, Pending.uploads]
  | lose call answer error h =>
    rw [h, claims_failure]
    -- the call is given up: whatever was not served goes on without the daemon
    cases answer with
    | none =>
      -- the upload is on its way without its daemon
      have hcount : lateUploads ((pid, call) :: s.late) jobId =
          lateUploads s.late jobId + (call.uploads jobId).toNat := by
        rw [lateUploads, List.countP_cons]
        cases call.uploads jobId <;> rfl
      show _ + lateUploads ((pid, call) :: s.late) jobId ≤ _
      simp only [hcount, Option.any_none, Option.any_some, Pending.claims, Pending.uploads,
        Option.isNone_none, Bool.true_and, Bool.toNat_false]
      omega
    | some answer => simp [Pending.claims, Pending.uploads]

/-- The end of a call passes its claim on at most once. -/
theorem Ends.claims (h : Ends pid s pending e late received) (jobId : Nat) :
    (pending.any (Pending.claims jobId)).toNat + (e.claims jobId).toNat ≤
      ((s.lines pid).pending.any (Pending.claims jobId)).toNat := by
  cases h with
  | own _ h =>
    rw [claims_of_endsCall h]
    exact Nat.le_refl _
  | reply call _ h =>
    rw [h]
    simp [Pending.claims]
  | lose call answer error h =>
    rw [claims_failure]
    simp

/-- An execution begins when the answer to a claim is received. -/
theorem Ends.begun (h : Ends pid s pending e late received) (p jobId : Nat) :
    (received.any fun q => q.1 = p && q.2.claims jobId).toNat +
        (pending.any (Pending.claims jobId)).toNat ≤
      ((s.lines pid).pending.any (Pending.claims jobId)).toNat := by
  have hone (b c : Bool) : (b && c).toNat ≤ c.toNat := by
    cases b <;> cases c <;> decide
  have hclaims := h.claims jobId
  cases h with
  | own _ h => exact Nat.le_of_eq (Nat.zero_add _)
  | reply call _ h =>
    have := hone (decide (pid = p)) (e.claims jobId)
    simp only [Option.any_some, Option.any_none, Bool.toNat_false] at hclaims ⊢
    omega
  | lose call answer error h =>
    simp [claims_failure]

/-- A job that the ended call was about is one the daemon has to do with. -/
theorem Ends.holds (h : Ends pid s pending e late received) {jobId : Nat}
    (hjob : (∃ p, pending = some p ∧ (p.call.about = some jobId ∨ p.claims jobId = true)) ∨
      e.claims jobId = true) : (s.lines pid).Holds jobId := by
  cases h with
  | own _ h =>
    rcases hjob with hpending | hclaims
    · exact .inr hpending
    · rw [claims_of_endsCall h] at hclaims
      cases hclaims
  | reply call _ h =>
    rcases hjob with ⟨p, hp, -⟩ | hclaims
    · cases hp
    · exact .inr ⟨_, h, .inr hclaims⟩
  | lose call answer error h =>
    rcases hjob with ⟨p, hp, -⟩ | hclaims
    · cases hp
    · rw [claims_failure] at hclaims
      cases hclaims

/-- A request given up was awaited. -/
theorem Ends.mem_late (h : Ends pid s pending e late received) {x : Nat × FrekiCall}
    (hx : x ∈ late) :
    x ∈ s.late ∨ x.1 = pid ∧ ∃ answer, (s.lines pid).pending = some ⟨x.2, answer⟩ := by
  cases h with
  | own _ h => exact .inl hx
  | reply call _ h => exact .inl hx
  | lose call answer error h =>
    split at hx
    · rcases List.mem_cons.mp hx with rfl | hx
      · exact .inr ⟨rfl, answer, h⟩
      · exact .inl hx
    · exact .inl hx

/-- What is still awaited was. -/
private theorem Ends.pending_eq (h : Ends pid s pending e late received) {p : Pending}
    (hp : pending = some p) : (s.lines pid).pending = some p := by
  cases h with
  | own _ h => exact hp
  | reply call _ h => cases hp
  | lose call answer error h => cases hp

/-- The success of an upload is received as the answer to the awaited call. -/
theorem Ends.uploaded (h : Ends pid s pending e late received) {modelId : Nat}
    (he : e = .uploaded (.ok modelId)) :
    received = some (pid, e) ∧ ∃ call, (s.lines pid).pending = some ⟨call, some e⟩ := by
  cases h with
  | own _ h =>
    rw [he] at h
    cases h
  | reply call _ h => exact ⟨rfl, call, h⟩
  | lose call answer error h => cases call <;> cases he

/-- The upload that a daemon awaits ends as an upload. -/
private theorem Evidence.ends_upload {log : FleetLog} (hev : Evidence inst log s)
    (h : Ends pid s pending e late received) {form : ModelForm} {answer : Option NornirEvent}
    (hpending : (s.lines pid).pending = some ⟨.uploadModel form, answer⟩) :
    pending = (s.lines pid).pending ∨ ∃ outcome, e = .uploaded outcome := by
  cases h with
  | own _ h => exact .inl rfl
  | reply call _ h =>
    rw [hpending] at h
    cases h
    rcases hev.answered pid form _ hpending with ⟨error, rfl⟩ | ⟨out, rfl, -⟩
    · exact .inr ⟨_, rfl⟩
    · exact .inr ⟨_, rfl⟩
  | lose call answer error h =>
    rw [hpending] at h
    cases h
    exact .inr ⟨_, rfl⟩

/-- The call that a daemon makes when it is woken, and the state after it. -/
theorem wake_moves (config : NornirConfig) (pid : Nat) (pending : Option Pending)
    (e : NornirEvent) (late : List (Nat × FrekiCall)) (s : Fleet) :
    ∃ call daemon, Move config (s.lines pid).daemon.stage.job? e call daemon.stage.job? ∧
      { s with late := late }.wake config pid pending e =
        (call.map fun c => (pid, c),
          { s.setLine pid ⟨daemon, nextPending pending e call⟩ with
            late := nextLate pid late e call }) :=
  ⟨_, _, (s.lines pid).daemon.step_moves e, wake_eq pid pending e _⟩

/-- A call that is abandoned adds no upload, since only heartbeats are made in the background.
    -/
private theorem lateUploads_nextLate {call : Option FrekiCall}
    (hcall : ∀ c ∈ call, e.inBackground = true → c.about = none) (jobId : Nat) :
    lateUploads (nextLate pid late e call) jobId = lateUploads late jobId := by
  unfold nextLate
  split
  · rfl
  · rename_i c
    split
    · rename_i hback
      simp [lateUploads, uploads_of_about (hcall c rfl hback)]
    · rfl

/-- A request nobody waits for was so before, or is about no job. -/
theorem mem_nextLate {call : Option FrekiCall}
    (hcall : ∀ c ∈ call, e.inBackground = true → c.about = none) {x : Nat × FrekiCall}
    (hx : x ∈ nextLate pid late e call) : x ∈ late ∨ x.2.about = none := by
  unfold nextLate at hx
  split at hx
  · exact .inl hx
  · rename_i c
    split at hx
    · rename_i hback
      rcases List.mem_cons.mp hx with rfl | hx
      · exact .inr (hcall c rfl hback)
      · exact .inl hx
    · exact .inl hx

/-- The line that was set is the one there is. -/
theorem lines_setLine_self (pid : Nat) (line : Line) (s : Fleet) :
    (s.setLine pid line).lines pid = line := if_pos rfl

/-- The other daemons keep their lines. -/
theorem lines_setLine_of_ne {p : Nat} (hp : p ≠ pid) (line : Line) (s : Fleet) :
    (s.setLine pid line).lines p = s.lines p := if_neg hp

/-- The reports of a daemon, with the call that another one or itself makes now. -/
private theorem reports_cons (x : FleetEvent) (log : FleetLog) (call : Option FrekiCall)
    (received : Option (Nat × NornirEvent)) (p jobId : Nat) :
    reports ((x, ⟨none, none, call.map fun c => (pid, c), received, none⟩) :: log) p jobId =
      reports log p jobId +
        if p = pid then (call.any (FrekiCall.reports jobId)).toNat else 0 := by
  rw [reports, List.countP_cons]
  show _ + _ = reports log p jobId + _
  congr 1
  cases call with
  | none => simp
  | some c =>
    by_cases hp : p = pid
    · subst hp
      cases hc : c.reports jobId <;> simp [hc]
    · simp [hp, Ne.symm hp]

/-- The executions that a daemon has begun, with what is received now. -/
private theorem executions_cons (x : FleetEvent) (log : FleetLog) (call : Option (Nat × FrekiCall))
    (received : Option (Nat × NornirEvent)) (p jobId : Nat) :
    executions ((x, ⟨none, none, call, received, none⟩) :: log) p jobId =
      executions log p jobId + (received.any fun q => q.1 = p && q.2.claims jobId).toNat := by
  rw [executions, List.countP_cons]
  show _ + _ = executions log p jobId + _
  congr 1
  cases received.any _ <;> rfl

/-- Only the daemon that is woken receives anything. -/
private theorem Ends.begun_of_ne (h : Ends pid s pending e late received) {p : Nat} (hp : p ≠ pid)
    (jobId : Nat) : (received.any fun q => q.1 = p && q.2.claims jobId) = false := by
  cases h with
  | own _ h => rfl
  | reply _ _ h => simp [Ne.symm hp]
  | lose _ _ _ h => simp [Ne.symm hp]

/-- A daemon that is woken keeps within its rights. -/
theorem Rights.wake {log : FleetLog} (h : Rights log s) (hends : Ends pid s pending e late received)
    (x : FleetEvent) {config : NornirConfig} {call : Option FrekiCall} {daemon : Daemon}
    (hmove : Move config (s.lines pid).daemon.stage.job? e call daemon.stage.job?) :
    Rights ((x, ⟨none, none, call.map fun c => (pid, c), received, none⟩) :: log)
      { s.setLine pid ⟨daemon, nextPending pending e call⟩ with
        late := nextLate pid late e call } := by
  -- what a daemon sends in the background is about no job
  have hback : ∀ c ∈ call, e.inBackground = true → c.about = none :=
    fun c hc => hmove.about_of_background hc
  have hlate (jobId : Nat) :
      lateUploads (nextLate pid late e call) jobId = lateUploads late jobId :=
    lateUploads_nextLate hback jobId
  -- only the line of the daemon that wakes has changed
  have hself := lines_setLine_self pid ⟨daemon, nextPending pending e call⟩ s
  have hother := fun p (hp : p ≠ pid) =>
    lines_setLine_of_ne hp ⟨daemon, nextPending pending e call⟩ s
  have hright := fun jobId => hmove.uploadRight pending jobId
  have hends' := fun jobId => hends.uploadRight jobId
  constructor
  case owned => exact h.owned
  -- the right to upload moves from the line to the requests nobody waits for, or is used up
  case upload =>
    refine h.upload_of_pid pid hother (fun _ => Nat.le_refl _) ?_ ?_
    · intro jobId
      have := hends' jobId
      show lateUploads (nextLate pid late e call) jobId + modelCount s.models jobId ≤ _
      rw [hlate, Line.uploadRight]
      omega
    · intro jobId
      have hpast := h.upload pid jobId
      have := hends' jobId
      have := hright jobId
      show ((s.setLine pid _).lines pid).uploadRight jobId +
        lateUploads (nextLate pid late e call) jobId + modelCount s.models jobId ≤
          claimCount (jobLog log) jobId
      rw [hself, hlate]
      dsimp only [Line.uploadRight] at hpast ⊢
      omega
  case report =>
    intro p jobId
    show reports (_ :: log) p jobId + ((s.setLine pid _).lines p).reportRight jobId ≤
      claimCount (jobLog log) jobId
    have hpast := h.report p jobId
    rw [reports_cons]
    -- the others report what they did
    by_cases hp : p = pid
    · -- what the call reports, the move has taken from the right
      subst hp
      have hstep := hmove.reportRight pending jobId
      have hpending := hends.claims jobId
      rw [hself, if_pos rfl]
      dsimp only [Line.reportRight] at hpast ⊢
      omega
    · rw [hother p hp, if_neg hp]
      exact hpast
  case begun =>
    intro p jobId
    show executions (_ :: log) p jobId +
      (((s.setLine pid _).lines p).pending.any (Pending.claims jobId)).toNat ≤
        claimCount (jobLog log) jobId
    have hpast := h.begun p jobId
    rw [executions_cons]
    by_cases hp : p = pid
    · -- what is received is no longer awaited
      subst hp
      have hstep := hends.begun p jobId
      have hnext : ((nextPending pending e call).any (Pending.claims jobId)).toNat ≤
          (pending.any (Pending.claims jobId)).toNat := nextPending_any fun _ _ => rfl
      rw [hself]
      dsimp only
      omega
    · rw [hother p hp, hends.begun_of_ne hp]
      exact hpast
  case held =>
    -- a job the daemon has to do with now is one it had to do with before
    intro p jobId hholds
    show Held (jobLog log) p jobId
    by_cases hp : p = pid
    · subst hp
      change ((s.setLine p _).lines p).Holds jobId at hholds
      rw [hself] at hholds
      rcases hmove.holds hholds with hstage | hjob
      · exact h.held p jobId (.inl hstage)
      · exact h.held p jobId (hends.holds hjob)
    · change ((s.setLine pid _).lines p).Holds jobId at hholds
      rw [hother p hp] at hholds
      exact h.held p jobId hholds
  case heldLate =>
    intro y hy jobId habout
    show Held (jobLog log) y.1 jobId
    -- an abandoned request was so before, or it is the call that has just ended
    rcases mem_nextLate hback hy with hy | hnone
    · rcases hends.mem_late hy with hy | ⟨rfl, answer, hpending⟩
      · exact h.heldLate y hy jobId habout
      · exact h.held y.1 jobId (.inr ⟨_, hpending, .inl habout⟩)
    · rw [hnone] at habout
      cases habout
  case heldUpload => exact h.heldUpload

/-- A completion is sent on the success of the upload. -/
theorem Evidence.completes {log : FleetLog} (h : Evidence inst log s)
    (hends : Ends pid s pending e late received) {call : Option FrekiCall} {daemon : Daemon}
    (hmove : Move (inst.daemons pid) (s.lines pid).daemon.stage.job? e call daemon.stage.job?)
    {c : FrekiCall} (hc : c ∈ call) {jobId : Nat} (hcompletes : c.completes = some jobId) :
    ∃ out, received = some (pid, .uploaded (.ok out.id)) ∧ (pid, out) ∈ uploads log ∧
      out.trainingJobId = some jobId := by
  obtain ⟨job, trained, modelId, hbefore, rfl, he⟩ := hmove.completes hc hcompletes
  obtain ⟨hreceived, call', hpending⟩ := hends.uploaded he
  obtain ⟨answer, hawaited⟩ := h.uploading pid job trained hbefore
  rw [hpending] at hawaited
  cases hawaited
  rcases h.answered pid _ e hpending with ⟨error, herror⟩ | ⟨out, hout, hmem, hjob⟩
  · rw [he] at herror
    cases herror
  · exact ⟨out, by rw [hreceived, hout], hmem, hjob⟩

/-- The awaited call is the old one, or the new one without an answer. -/
private theorem nextPending_eq_some {call : Option FrekiCall} {p : Pending}
    (h : nextPending pending e call = some p) :
    pending = some p ∨ ∃ c ∈ call, p = ⟨c, none⟩ := by
  unfold nextPending at h
  split at h
  · exact .inl h
  · rename_i c
    split at h
    · exact .inl h
    · cases h
      exact .inr ⟨c, rfl, rfl⟩

/-- What any daemon awaits after the step it awaited before, or calls now. -/
theorem Ends.of_pending (h : Ends pid s pending e late received) {call : Option FrekiCall}
    {daemon : Daemon} {p : Nat} {awaited : Pending}
    (hpending : ((s.setLine pid ⟨daemon, nextPending pending e call⟩).lines p).pending =
      some awaited) :
    (s.lines p).pending = some awaited ∨ p = pid ∧ ∃ c ∈ call, awaited = ⟨c, none⟩ := by
  by_cases hp : p = pid
  · subst hp
    rw [lines_setLine_self] at hpending
    exact (nextPending_eq_some hpending).imp h.pending_eq fun hnew => ⟨rfl, hnew⟩
  · rw [lines_setLine_of_ne hp] at hpending
    exact .inl hpending

/-- A daemon that is woken completes no job without a model. -/
theorem Evidence.wake {log : FleetLog} (h : Evidence inst log s)
    (hends : Ends pid s pending e late received) (x : FleetEvent) {call : Option FrekiCall}
    {daemon : Daemon}
    (hmove : Move (inst.daemons pid) (s.lines pid).daemon.stage.job? e call daemon.stage.job?) :
    Evidence inst ((x, ⟨none, none, call.map fun c => (pid, c), received, none⟩) :: log)
      { s.setLine pid ⟨daemon, nextPending pending e call⟩ with
        late := nextLate pid late e call } := by
  -- what a daemon sends in the background is about no job
  have hback : ∀ c ∈ call, e.inBackground = true → c.about = none :=
    fun c hc => hmove.about_of_background hc
  have hself := lines_setLine_self pid ⟨daemon, nextPending pending e call⟩ s
  have hother := fun p (hp : p ≠ pid) =>
    lines_setLine_of_ne hp ⟨daemon, nextPending pending e call⟩ s
  constructor
  case stored => exact h.stored
  case kept => exact h.kept
  -- whoever is uploading awaits the upload
  case uploading =>
    intro p job trained hstage
    change ((s.setLine pid _).lines p).daemon.stage.job? = _ at hstage
    show ∃ answer, ((s.setLine pid _).lines p).pending = _
    by_cases hp : p = pid
    · subst hp
      rw [hself] at hstage ⊢
      -- the upload is called now, or it was awaited and has not ended
      rcases hmove.uploading pending hstage with hnew | ⟨hold, hbefore, hne⟩
      · exact ⟨none, hnew⟩
      · obtain ⟨answer, hawaited⟩ := h.uploading p job trained hbefore
        rcases h.ends_upload hends hawaited with hsame | ⟨outcome, he⟩
        · exact ⟨answer, hold.trans (hsame.trans hawaited)⟩
        · exact absurd he (hne outcome)
    · rw [hother p hp] at hstage ⊢
      exact h.uploading p job trained hstage
  case answered =>
    -- an awaited call with an answer is an old one
    intro p form answer hpending
    rcases hends.of_pending hpending with hold | ⟨-, c, -, hnew⟩
    · exact h.answered p form answer hold
    · cases hnew
  case completing =>
    intro p awaited hpending jobId hcompletes
    -- a completion is sent when the upload was answered with the stored row
    rcases hends.of_pending hpending with hold | ⟨rfl, c, hc, rfl⟩
    · exact h.completing p awaited hold jobId hcompletes
    · obtain ⟨out, -, hmem, hjob⟩ := h.completes hends hmove hc hcompletes
      exact ⟨_, hmem, hjob⟩
  case completingLate =>
    intro y hy jobId hcompletes
    rcases mem_nextLate hback hy with hy | hnone
    · rcases hends.mem_late hy with hy | ⟨rfl, answer, hpending⟩
      · exact h.completingLate y hy jobId hcompletes
      · exact h.completing y.1 _ hpending jobId hcompletes
    · rw [about_of_completes hcompletes] at hnone
      cases hnone
  case completed => exact h.completed
  case sent =>
    -- the daemon sends its completion now, or it was sent before
    intro y hy p jobId daemonId token hsent
    rcases List.mem_cons.mp hy with rfl | hy
    · obtain ⟨c, hc, hpair⟩ := Option.map_eq_some_iff.mp hsent
      cases hpair
      exact h.completes hends hmove hc rfl
    · exact h.sent y hy p jobId daemonId token hsent

end Wake

/-! ## A request is served -/

/-- A request leaves the network: its daemon awaits the answer, or nobody does. -/
inductive Handed (pid : Nat) (call : FrekiCall) (answer : NornirEvent) (s s' : Fleet) : Prop where
  | awaited (h : (s.lines pid).pending = some ⟨call, none⟩)
      (hlines : s'.lines =
        (s.setLine pid ⟨(s.lines pid).daemon, some ⟨call, some answer⟩⟩).lines)
      (hlate : s'.late = s.late)
  | late (i : Nat) (h : s.late[i]? = some (pid, call)) (hlines : s'.lines = s.lines)
      (hlate : s'.late = s.late.eraseIdx i)

section Served
variable {pid : Nat} {call : FrekiCall} {answer : NornirEvent} {s s' : Fleet}

/-- Handing a call over leaves the other daemons alone. -/
theorem Handed.other (h : Handed pid call answer s s') {p : Nat} (hp : p ≠ pid) :
    s'.lines p = s.lines p := by
  cases h with
  | awaited h hlines hlate => rw [hlines, lines_setLine_of_ne hp]
  | late i h hlines hlate => rw [hlines]

/-- The daemon itself does not notice that its call is served. -/
theorem Handed.daemon (h : Handed pid call answer s s') :
    (s'.lines pid).daemon = (s.lines pid).daemon := by
  cases h with
  | awaited h hlines hlate => rw [hlines, lines_setLine_self]
  | late i h hlines hlate => rw [hlines]

/-- What is awaited afterwards was awaited before, or is the served call with its answer. -/
theorem Handed.pending (h : Handed pid call answer s s') :
    (s'.lines pid).pending = (s.lines pid).pending ∨
      (s.lines pid).pending = some ⟨call, none⟩ ∧
        (s'.lines pid).pending = some ⟨call, some answer⟩ := by
  cases h with
  | awaited h hlines hlate => exact .inr ⟨h, by rw [hlines, lines_setLine_self]⟩
  | late i h hlines hlate => exact .inl (by rw [hlines])

/-- Nor does any other. -/
theorem Handed.daemon_eq (h : Handed pid call answer s s') (p : Nat) :
    (s'.lines p).daemon = (s.lines p).daemon := by
  by_cases hp : p = pid
  · rw [hp, h.daemon]
  · rw [h.other hp]

/-- So for every daemon: the call with its answer is the only new thing that is awaited. -/
theorem Handed.of_pending (h : Handed pid call answer s s') {p : Nat} {awaited : Pending}
    (hpending : (s'.lines p).pending = some awaited) :
    (s.lines p).pending = some awaited ∨
      p = pid ∧ (s.lines p).pending = some ⟨call, none⟩ ∧ awaited = ⟨call, some answer⟩ := by
  by_cases hp : p = pid
  · subst hp
    rcases h.pending with hsame | ⟨hold, hnew⟩
    · exact .inl (hsame.symm.trans hpending)
    · exact .inr ⟨rfl, hold, Option.some.inj (hpending.symm.trans hnew)⟩
  · exact .inl (by rw [← h.other hp, hpending])

/-- What was awaited still is, answered or not. -/
private theorem Handed.pending_of (h : Handed pid call answer s s') {p : Nat} {c : FrekiCall}
    {a : Option NornirEvent} (hpending : (s.lines p).pending = some ⟨c, a⟩) :
    ∃ a', (s'.lines p).pending = some ⟨c, a'⟩ := by
  by_cases hp : p = pid
  · subst hp
    rcases h.pending with hsame | ⟨hold, hnew⟩
    · exact ⟨a, hsame.trans hpending⟩
    · rw [hold] at hpending
      cases hpending
      exact ⟨_, hnew⟩
  · exact ⟨a, by rw [h.other hp, hpending]⟩

/-- Serving a call adds no request that nobody waits for. -/
theorem Handed.mem_late (h : Handed pid call answer s s') {x : Nat × FrekiCall}
    (hx : x ∈ s'.late) : x ∈ s.late := by
  cases h with
  | awaited h hlines hlate => exact hlate ▸ hx
  | late i h hlines hlate => exact List.mem_of_mem_eraseIdx (hlate ▸ hx)

/-- The served call came from its daemon. -/
theorem Handed.held {log : FleetLog} (hrights : Rights log s) (h : Handed pid call answer s s')
    {jobId : Nat} (habout : call.about = some jobId) : Held (jobLog log) pid jobId := by
  cases h with
  | awaited h hlines hlate => exact hrights.held pid jobId (.inr ⟨_, h, .inl habout⟩)
  | late i h hlines hlate =>
    exact hrights.heldLate (pid, call) (List.mem_of_getElem? h) jobId habout

/-- A completion is sent only after the model was stored. -/
theorem Handed.stored {log : FleetLog} (hev : Evidence inst log s)
    (h : Handed pid call answer s s') {jobId : Nat} (hcompletes : call.completes = some jobId) :
    Stored log jobId := by
  cases h with
  | awaited h hlines hlate => exact hev.completing pid _ h jobId hcompletes
  | late i h hlines hlate =>
    exact hev.completingLate (pid, call) (List.mem_of_getElem? h) jobId hcompletes

/-- Serving a request that nobody waits for takes its upload off the count. -/
private theorem lateUploads_eraseIdx {late : List (Nat × FrekiCall)} {i : Nat}
    (h : late[i]? = some (pid, call)) (jobId : Nat) :
    lateUploads (late.eraseIdx i) jobId + (call.uploads jobId).toNat = lateUploads late jobId := by
  obtain ⟨hlt, hget⟩ := List.getElem?_eq_some_iff.mp h
  have hperm : ((pid, call) :: late.eraseIdx i).Perm late := by
    rw [← hget]
    exact List.getElem_cons_eraseIdx_perm hlt
  unfold lateUploads
  rw [← hperm.countP_eq, List.countP_cons]
  cases call.uploads jobId <;> rfl

/-- The right of an upload is used up when it is served. -/
theorem Handed.uploadRight (h : Handed pid call answer s s') (jobId : Nat) :
    (s'.lines pid).uploadRight jobId + lateUploads s'.late jobId + (call.uploads jobId).toNat ≤
      (s.lines pid).uploadRight jobId + lateUploads s.late jobId +
        (answer.claims jobId).toNat := by
  cases h with
  | awaited h hlines hlate =>
    rw [hlines, lines_setLine_self, hlate]
    simp only [Line.uploadRight, h, Option.any_some, Pending.claims, Pending.uploads,
      Option.any_none, Option.isNone_none, Option.isNone_some, Bool.true_and, Bool.false_and,
      Bool.toNat_false]
    omega
  | late i h hlines hlate =>
    have hcount := lateUploads_eraseIdx h jobId
    rw [hlines, hlate]
    omega

/-- Serving a call spends the upload right it stands for. -/
private theorem Handed.spent (h : Handed pid call answer s s') (jobId : Nat) :
    lateUploads s'.late jobId + (call.uploads jobId).toNat ≤
      lateUploads s.late jobId + (s.lines pid).uploadRight jobId := by
  cases h with
  | awaited h hlines hlate =>
    rw [hlate]
    simp only [Line.uploadRight, h, Option.any_some, Pending.uploads, Option.isNone_none,
      Bool.true_and]
    omega
  | late i h hlines hlate =>
    have hcount := lateUploads_eraseIdx h jobId
    rw [hlate]
    omega

/-- The answer is the only claim that any daemon may find. -/
theorem Handed.claims (h : Handed pid call answer s s') (p jobId : Nat) :
    ((s'.lines p).pending.any (Pending.claims jobId)).toNat ≤
      ((s.lines p).pending.any (Pending.claims jobId)).toNat + (answer.claims jobId).toNat := by
  by_cases hp : p = pid
  · subst hp
    rcases h.pending with hsame | ⟨-, hnew⟩
    · rw [hsame]
      omega
    · rw [hnew]
      simp only [Option.any_some, Pending.claims]
      omega
  · rw [h.other hp]
    omega

/-- Serving a call stores at most the models it uploads. -/
theorem ServeEffect.modelCount {secret : String} {jobs : JobDb} {models : ModelDb}
    {served : Served} (h : ServeEffect secret pid call jobs models served) (jobId : Nat) :
    Nornir.modelCount served.models jobId ≤
      Nornir.modelCount models jobId + (call.uploads jobId).toNat := by
  cases h with
  | quiet _ _ _ models' _ _ _ _ hkeys =>
    have hsame : Nornir.modelCount models' jobId = Nornir.modelCount models jobId := by
      rw [Nornir.modelCount, hkeys, Nornir.modelCount]
    exact hsame.le.trans (Nat.le_add_right _ _)
  | claimed => exact Nat.le_add_right _ _
  | uploaded form out models' hcall hjob hkeys =>
    rw [modelCount_append hkeys, hcall]
    exact Nat.le_refl _

/-- Serving a request keeps all daemons within their rights. -/
theorem Rights.served {log : FleetLog} (h : Rights log s) {secret : String} {served : Served}
    (heff : ServeEffect secret pid call s.jobs s.models served)
    (hhanded : Handed pid call served.answer s s') (hjobs : s'.jobs = served.jobs)
    (hmodels : s'.models = served.models) (x : FleetEvent) :
    Rights ((x, ⟨served.job, served.uploaded.map fun out => (pid, out), none, none, none⟩) :: log)
      s' := by
  -- the books count a claim when it is answered
  have hcount (jobId : Nat) : claimCount (served.job.toList ++ jobLog log) jobId =
      claimCount (jobLog log) jobId + (served.answer.claims jobId).toNat :=
    heff.claimCount (jobLog log) jobId
  constructor
  case owned =>
    rw [jobLog_cons, hjobs]
    exact heff.owned h.owned
  case upload =>
    -- a served upload turns the right to it into a row
    refine h.upload_of_pid pid (fun p hp => hhanded.other hp) ?_ ?_ ?_
    · intro jobId
      rw [jobLog_cons, hcount]
      exact Nat.le_add_right _ _
    · intro jobId
      have hspent := hhanded.spent jobId
      have hrow := heff.modelCount jobId
      rw [hmodels]
      omega
    · intro jobId
      have hpast := h.upload pid jobId
      have hright := hhanded.uploadRight jobId
      have hrow := heff.modelCount jobId
      rw [hmodels, jobLog_cons, hcount]
      omega
  -- the right to report is the same, but for the claim that was answered
  case report =>
    intro p jobId
    have hpast := h.report p jobId
    rw [jobLog_cons, hcount]
    show reports log p jobId + _ ≤ _
    have hclaims := hhanded.claims p jobId
    unfold Line.reportRight at hpast ⊢
    rw [hhanded.daemon_eq]
    omega
  case begun =>
    intro p jobId
    have hpast := h.begun p jobId
    rw [jobLog_cons, hcount]
    show executions log p jobId + _ ≤ _
    have hclaims := hhanded.claims p jobId
    omega
  -- whoever has to do with a job has made its claim
  case held =>
    intro p jobId hholds
    rw [jobLog_cons]
    rcases hholds with hstage | ⟨awaited, hpending, hjob⟩
    · rw [hhanded.daemon_eq] at hstage
      exact (h.held p jobId (.inl hstage)).append _
    · rcases hhanded.of_pending hpending with hold | ⟨rfl, -, rfl⟩
      · exact (h.held p jobId (.inr ⟨awaited, hold, hjob⟩)).append _
      · -- the answer of a claim is the right it gives
        rcases hjob with habout | hclaims
        · exact (hhanded.held h habout).append _
        · exact heff.held (jobLog log) hclaims
  case heldLate =>
    intro y hy jobId habout
    rw [jobLog_cons]
    exact (h.heldLate y (hhanded.mem_late hy) jobId habout).append _
  -- a row is stored for a job whose claim its daemon made
  case heldUpload =>
    intro y hy jobId hjob
    rw [jobLog_cons]
    rw [uploads_cons] at hy
    rcases List.mem_append.mp hy with hy | hy
    · cases heff with
      | quiet => cases hy
      | claimed => cases hy
      | uploaded form out models' hcall hform hkeys =>
        cases List.mem_singleton.mp hy
        refine (hhanded.held h ?_).append _
        rw [hcall]
        exact hform.symm.trans hjob
    · exact (h.heldUpload y hy jobId hjob).append _

/-- A stored model stays in the log. -/
theorem Stored.append {log : FleetLog} {jobId : Nat} (h : Stored log jobId)
    (x : FleetEvent × FleetResponse) : Stored (x :: log) jobId := by
  obtain ⟨y, hy, hjob⟩ := h
  refine ⟨y, ?_, hjob⟩
  rw [uploads_cons]
  exact List.mem_append_right _ hy

/-- Serving a request completes no job without a model. -/
theorem Evidence.served {log : FleetLog} (h : Evidence inst log s) {secret : String}
    {served : Served} (heff : ServeEffect secret pid call s.jobs s.models served)
    (hhanded : Handed pid call served.answer s s') (hjobs : s'.jobs = served.jobs)
    (hmodels : s'.models = served.models) (x : FleetEvent) :
    Evidence inst
      ((x, ⟨served.job, served.uploaded.map fun out => (pid, out), none, none, none⟩) :: log)
      s' := by
  -- what was stored stays in the log
  have hmono : ∀ y ∈ uploads log, y ∈ uploads
      ((x, ⟨served.job, served.uploaded.map fun out => (pid, out), none, none, none⟩) :: log) := by
    intro y hy
    rw [uploads_cons]
    exact List.mem_append_right _ hy
  constructor
  -- a new row is the upload that was served
  case stored =>
    intro k hk jobId hjob
    rw [hmodels] at hk
    cases heff with
    | quiet _ _ _ models' _ _ _ _ hkeys => exact h.stored k (hkeys ▸ hk) jobId hjob
    | claimed => exact h.stored k hk jobId hjob
    | uploaded form out models' hcall hform hkeys =>
      rw [hkeys] at hk
      rcases List.mem_append.mp hk with hk | hk
      · obtain ⟨y, hy, hrow⟩ := h.stored k hk jobId hjob
        exact ⟨y, hmono y hy, hrow⟩
      · cases List.mem_singleton.mp hk
        exact ⟨(pid, out), List.mem_cons_self, rfl, hform.trans hjob⟩
  -- every logged upload has its row still
  case kept =>
    intro y hy
    rw [uploads_cons] at hy
    rw [hmodels]
    cases heff with
    | quiet _ _ _ models' _ _ _ _ hkeys =>
      change _ ∈ modelKeys models'
      rw [hkeys]
      exact h.kept y hy
    | claimed => exact h.kept y hy
    | uploaded form out models' hcall hform hkeys =>
      rw [hkeys]
      rcases List.mem_append.mp hy with hy | hy
      · cases List.mem_singleton.mp hy
        rw [hform]
        exact List.mem_append_right _ (List.mem_singleton.mpr rfl)
      · exact List.mem_append_left _ (h.kept y hy)
  -- whoever is uploading still awaits the upload
  case uploading =>
    intro p job trained hstage
    rw [hhanded.daemon_eq] at hstage
    obtain ⟨answer', hawaited⟩ := h.uploading p job trained hstage
    exact hhanded.pending_of hawaited
  case answered =>
    intro p form e hpending
    -- an upload that has its answer was refused, or it is the row just stored
    rcases hhanded.of_pending hpending with hold | ⟨rfl, -, hnew⟩
    · rcases h.answered p form e hold with herror | ⟨out, hout, hmem, hjob⟩
      · exact .inl herror
      · exact .inr ⟨out, hout, hmono _ hmem, hjob⟩
    · cases hnew
      cases heff with
      | quiet answer job jobs' models' hjobs hclaims hupload hrefused hkeys =>
        exact .inl (hrefused form rfl)
      | claimed e p out hactor hid hclaim hcomplete hcall habout => exact absurd rfl (hcall form)
      | uploaded form' out models' hcall hform hkeys =>
        cases hcall
        exact .inr ⟨out, rfl, List.mem_cons_self, hform⟩
  case completing =>
    intro p awaited hpending jobId hcompletes
    -- a completion is awaited as it was sent
    rcases hhanded.of_pending hpending with hold | ⟨rfl, hold, rfl⟩
    · exact (h.completing p awaited hold jobId hcompletes).append _
    · exact (h.completing p _ hold jobId hcompletes).append _
  case completingLate =>
    intro y hy jobId hcompletes
    exact (h.completingLate y (hhanded.mem_late hy) jobId hcompletes).append _
  case completed =>
    intro k hk hstatus
    rw [hjobs] at hk
    refine Stored.append ?_ _
    -- a job is completed by a request that was sent after its upload
    cases heff with
    | quiet answer job jobs' models' hjobs' hclaims hupload hrefused hkeys =>
      rcases hjobs' with ⟨-, rfl⟩ | ⟨e, -, rfl, -, hcomplete⟩
      · exact h.completed k hk hstatus
      -- the row was complete before, or this request completed it
      · rcases complete_of_step hk hstatus with ⟨j, hj, hid, hdone⟩ | ⟨a, pr, body, now, he⟩
        · exact hid ▸ h.completed j hj hdone
        · exact hhanded.stored h (hcomplete a pr k.id body now he)
    | claimed e p out hactor hid hclaim hcomplete hcall habout =>
      rcases complete_of_step hk hstatus with ⟨j, hj, hid, hdone⟩ | ⟨a, pr, body, now, he⟩
      · exact hid ▸ h.completed j hj hdone
      -- a claim completes nothing
      · exact absurd he (hcomplete a pr k.id body now)
    | uploaded => exact h.completed k hk hstatus
  case sent =>
    intro y hy p jobId daemonId token hsent
    rcases List.mem_cons.mp hy with rfl | hy
    · cases hsent
    · obtain ⟨out, hreceived, hmem, hjob⟩ := h.sent y hy p jobId daemonId token hsent
      exact ⟨out, hreceived, hmono _ hmem, hjob⟩

end Served

/-! ## Other clients -/

section Client
variable {log : FleetLog} {s s' : Fleet}

/-- An event that no daemon has to do with, and that claims and completes no job and stores
    no model of one. -/
structure Outside (s s' : Fleet) (job : Option (JobEvent × Grimnir.JobResult)) : Prop where
  lines : s'.lines = s.lines
  late : s'.late = s.late
  owned : ∀ log, Owned log s.jobs → Owned (job.toList ++ log) s'.jobs
  unclaimed : ∀ x ∈ job, claimedBy x = none
  rows : ∀ k, k ∈ modelKeys s.models → k ∈ modelKeys s'.models
  newRows : ∀ k, k ∈ modelKeys s'.models → k.2 ≠ none → k ∈ modelKeys s.models
  count : ∀ jobId, modelCount s'.models jobId = modelCount s.models jobId
  completed : ∀ k ∈ s'.jobs.jobs, k.status = .complete →
    ∃ j ∈ s.jobs.jobs, j.id = k.id ∧ j.status = .complete

/-- Entries that claim nothing leave the claims as they were. -/
private theorem claims_append {job : Option (JobEvent × Grimnir.JobResult)}
    (h : ∀ x ∈ job, claimedBy x = none) (log : JobLog) :
    claims (job.toList ++ log) = claims log := by
  cases job with
  | none => rfl
  | some x =>
    show claims (x :: log) = _
    rw [claims_cons, h x rfl]
    rfl

/-- What clients and the reaper do leaves the daemons' rights as they were. -/
theorem Rights.outside (h : Rights log s) {job : Option (JobEvent × Grimnir.JobResult)}
    (hout : Outside s s' job) (x : FleetEvent) (row : Option ModelOut) :
    Rights ((x, { Fleet.quiet with job := job, clientRow := row }) :: log) s' := by
  -- an event from outside claims nothing
  have hclaims : claims (jobLog ((x, { Fleet.quiet with job := job, clientRow := row }) :: log)) =
      claims (jobLog log) := by
    rw [jobLog_cons]
    exact claims_append hout.unclaimed _
  have hheld (p jobId : Nat) (hheld : Held (jobLog log) p jobId) :
      Held (jobLog ((x, { Fleet.quiet with job := job, clientRow := row }) :: log)) p jobId := by
    unfold Held
    rw [hclaims]
    exact hheld
  -- no line and no abandoned request has changed
  constructor
  case owned =>
    rw [jobLog_cons]
    exact hout.owned _ h.owned
  case upload =>
    intro p jobId
    rw [claimCount, hclaims, hout.lines, hout.late, hout.count]
    exact h.upload p jobId
  case report =>
    intro p jobId
    rw [claimCount, hclaims, hout.lines]
    exact h.report p jobId
  case begun =>
    intro p jobId
    rw [claimCount, hclaims, hout.lines]
    exact h.begun p jobId
  case held =>
    intro p jobId hholds
    rw [hout.lines] at hholds
    exact hheld p jobId (h.held p jobId hholds)
  case heldLate =>
    intro y hy jobId habout
    rw [hout.late] at hy
    exact hheld y.1 jobId (h.heldLate y hy jobId habout)
  case heldUpload => exact fun y hy jobId hjob => hheld y.1 jobId (h.heldUpload y hy jobId hjob)

/-- It also leaves the evidence as it was. -/
theorem Evidence.outside (h : Evidence inst log s) {job : Option (JobEvent × Grimnir.JobResult)}
    (hout : Outside s s' job) (x : FleetEvent) (row : Option ModelOut) :
    Evidence inst ((x, { Fleet.quiet with job := job, clientRow := row }) :: log) s' := by
  -- the rows of the jobs, the lines and the abandoned requests are as they were
  constructor
  case stored =>
    intro k hk jobId hjob
    exact h.stored k (hout.newRows k hk (by rw [hjob]; exact Option.some_ne_none _)) jobId hjob
  case kept => exact fun y hy => hout.rows _ (h.kept y hy)
  case uploading =>
    rw [hout.lines]
    exact h.uploading
  case answered =>
    rw [hout.lines]
    exact h.answered
  case completing =>
    rw [hout.lines]
    exact h.completing
  case completingLate =>
    rw [hout.late]
    exact h.completingLate
  case completed =>
    intro k hk hstatus
    -- a job that is complete now was complete before
    obtain ⟨j, hj, hid, hdone⟩ := hout.completed k hk hstatus
    exact hid ▸ h.completed j hj hdone
  case sent =>
    intro y hy p jobId daemonId token hsent
    rcases List.mem_cons.mp hy with rfl | hy
    · cases hsent
    · exact h.sent y hy p jobId daemonId token hsent

/-- Nothing happens. -/
theorem Outside.refl (s : Fleet) : Outside s s none where
  lines := rfl
  late := rfl
  owned _ h := h
  unclaimed _ h := nomatch h
  rows _ h := h
  newRows _ h _ := h
  count _ := rfl
  completed k hk hstatus := ⟨k, hk, rfl, hstatus⟩

/-- A request to the job queue that neither claims nor completes. -/
theorem Outside.request (secret : String) (s : Fleet) (e : JobEvent)
    (hclaims : ∀ r, claimedBy (e, r) = none)
    (hcomplete : ∀ actor provided jobId body now,
      e ≠ .control .complete actor provided jobId body now) :
    Outside s { s with jobs := (s.jobs.step secret e).2 }
      (some (e, (s.jobs.step secret e).1)) where
  lines := rfl
  late := rfl
  owned _ h := h.effect (step_effect secret s.jobs e)
  unclaimed x hx := by
    cases hx
    exact hclaims _
  rows _ h := h
  newRows _ h _ := h
  count _ := rfl
  completed k hk hstatus := by
    rcases complete_of_step hk hstatus with hold | ⟨actor, provided, body, now, he⟩
    · exact hold
    · exact absurd he (hcomplete actor provided k.id body now)

/-- A change of the registry that adds at most a row without a job. -/
theorem Outside.registry (s : Fleet) {models : ModelDb}
    (hkeys : modelKeys models = modelKeys s.models ∨
      ∃ id, modelKeys models = modelKeys s.models ++ [(id, none)]) :
    Outside s { s with models := models } none where
  lines := rfl
  late := rfl
  owned _ h := h
  unclaimed _ h := nomatch h
  rows k hk := by
    -- a client's model, if it was stored, belongs to no job
    rcases hkeys with hkeys | ⟨id, hkeys⟩
    · exact hkeys ▸ hk
    · exact hkeys ▸ List.mem_append_left _ hk
  newRows k hk hjob := by
    rcases hkeys with hkeys | ⟨id, hkeys⟩
    · exact hkeys ▸ hk
    · rcases List.mem_append.mp (hkeys ▸ hk) with hk | hk
      · exact hk
      · cases List.mem_singleton.mp hk
        exact absurd rfl hjob
  count jobId := by
    rcases hkeys with hkeys | ⟨id, hkeys⟩
    · rw [modelCount, hkeys]
      rfl
    · rw [modelCount_append hkeys]
      rfl
  completed k hk hstatus := ⟨k, hk, rfl, hstatus⟩

/-- What the other clients do is outside, unless they upload the model of a job. -/
theorem clientStep_outside (inst : Installation) (s : Fleet) {e : ClientEvent}
    (h : e.leavesJobModels) : ∃ job row, Outside s (s.clientStep inst e).2 job ∧
      (s.clientStep inst e).1 = { Fleet.quiet with job := job, clientRow := row } := by
  -- one case for each request a client may make
  cases e with
  | createJob rooms spec now =>
    exact ⟨_, none, .request inst.mlControlSecret s (.createJob rooms spec now) (fun _ => rfl)
      (fun _ _ _ _ _ h => nomatch h), rfl⟩
  | cancel jobId now =>
    exact ⟨_, none, .request inst.mlControlSecret s (.cancel jobId now) (fun _ => rfl)
      (fun _ _ _ _ _ h => nomatch h), rfl⟩
  | reap timeout now =>
    exact ⟨_, none, .request inst.mlControlSecret s (.reap timeout now) (fun _ => rfl)
      (fun _ _ _ _ _ h => nomatch h), rfl⟩
  | upload provided form build now =>
    refine ⟨none, _, .registry s ?_, rfl⟩
    have hnone : form.trainingJobId = none := h
    rcases uploadModel_keys inst.py build inst.modelUploadSecret provided form
      (fun id => (s.jobs.jobs.find? id).isSome) now s.models with
      ⟨f, db', hres, hkeys⟩ | ⟨out, db', hres, -, hkeys⟩
    · rw [hres]
      exact .inl hkeys
    · rw [hres]
      exact .inr ⟨out.id, hnone ▸ hkeys⟩
  | activate modelId order =>
    exact ⟨none, none, .registry s (.inl (activateModel_keys modelId order s.models)), rfl⟩

end Client

end Grimnir.Nornir
