import Grimnir.Native.SyslogClient

/-!
# The DNS client stays in bounds

Whatever name is asked for and whatever bytes come back, no access of the client leaves its
buffer.  The functions are total: a walk over labels moves forward in the packet, the reader
of a name makes at most 32 rounds, and the loops over questions and answers count down.

## Key results

- `safe_skipLabels`, `safe_readLabels`: the two walkers over a name
- `safe_takeSrvRecord`: a target is terminated where it is used
- `dns_client_safe`: the whole lookup
-/

namespace Grimnir.Muninn

open CAccess

/-! ## Words -/

variable {buf : List UInt8} {i : Nat}

/-- Both bytes of the word are inside the buffer. -/
private theorem safe_readBe16 (h : i + 1 < buf.length) : Safe (readBe16 buf i) fun _ => True := by
  refine (safe_load (show i < buf.length by omega)).bind fun _ _ => ?_
  refine (safe_load h).bind fun _ _ => ?_
  exact Safe.pure trivial

/-- Both bytes are written inside the buffer. -/
private theorem safe_writeBe16 (h : i + 1 < buf.length) (value : UInt16) :
    Safe (writeBe16 buf i value) fun buf' => buf'.length = buf.length := by
  refine (safe_store (show i < buf.length by omega) _).bind ?_
  rintro _ rfl
  refine (safe_store (by rw [List.length_set]; exact h) _).mono ?_
  rintro _ rfl
  simp

/-! ## Names -/

/-- The loop goes back from the end of the string, and stops at its start. -/
private theorem safe_trimDots {value : List UInt8} {len : Nat} (hlen : len ≤ value.length)
    (hnul : 0 ∈ value) :
    Safe (trimDots value len) fun value' => value'.length = value.length ∧ 0 ∈ value' := by
  induction len generalizing value with
  | zero => exact Safe.pure ⟨rfl, hnul⟩
  | succ len ih =>
    refine (safe_load (show len < value.length by omega)).bind fun b _ => ?_
    split
    · refine (safe_store (show len < value.length by omega) 0).bind ?_
      rintro _ rfl
      have hset : 0 ∈ value.set len 0 := List.mem_set (by omega) 0
      have hnext := ih (by rw [List.length_set]; omega) hset
      rwa [List.length_set] at hnext
    · exact Safe.pure ⟨rfl, hnul⟩

/-- Trailing dots are overwritten by NULs, so the string stays terminated. -/
private theorem safe_trimTrailingDot {value : List UInt8} (hnul : 0 ∈ value) :
    Safe (trimTrailingDot value) fun value' => value'.length = value.length ∧ 0 ∈ value' := by
  refine (safe_strlen hnul).bind fun len hlen => ?_
  exact safe_trimDots (by omega) hnul

/-- What `encode_dns_name` leaves of its buffer. -/
def Encoded (buf : List UInt8) (r : List UInt8 × Option Nat) : Prop :=
  r.1.length = buf.length ∧ ∀ n ∈ r.2, n ≤ buf.length

/-- The closing zero is written only where there is room for it. -/
private theorem safe_closeName (buf : List UInt8) (offset : Nat) :
    Safe (closeName buf offset) (Encoded buf) := by
  unfold closeName
  split
  · exact Safe.pure ⟨rfl, by simp⟩
  · refine (safe_store (show offset < buf.length by omega) 0).bind ?_
    rintro _ rfl
    refine Safe.pure ⟨by simp, ?_⟩
    intro n hn
    cases hn
    omega

/-- Writing into a buffer of the same length is as good. -/
theorem Encoded.trans {buf buf' : List UInt8} (hlength : buf'.length = buf.length)
    {r : List UInt8 × Option Nat} (h : Encoded buf' r) : Encoded buf r := by
  rw [Encoded, hlength] at h
  exact h

/-- Each label and its length byte fit, or the name is refused. -/
private theorem safe_encodeLabels (buf : List UInt8) (offset : Nat) (label : List UInt8) :
    Safe (encodeLabels buf offset label) (Encoded buf) := by
  -- -- one round eats a label, so the induction is on the name's length
  induction hn : label.length using Nat.strongRecOn generalizing buf offset label with
  | ind n ih =>
    rw [encodeLabels]
    split
    · exact safe_closeName buf offset
    · rename_i hend
      simp only
      split
      · exact Safe.pure ⟨rfl, by simp⟩
      · rename_i hfits
        have hpos := List.length_pos_iff.mpr hend
        refine (safe_store (show offset < buf.length by omega) _).bind ?_
        rintro _ rfl
        refine (safe_copyTo (by rw [List.length_set]; omega)).bind fun buf' hbuf' => ?_
        have hlength : buf'.length = buf.length := by rw [hbuf'.2, List.length_set]
        split
        · exact (safe_closeName buf' _).mono fun r hr => hr.trans hlength
        -- the label and its dot are gone from the name
        · refine (ih _ ?_ buf' _ _ rfl).mono fun r hr => hr.trans hlength
          rw [List.length_drop]
          omega

/-- The labels that are skipped are followed inside the packet, and always forwards. -/
theorem safe_skipLabels (packet : List UInt8) (jumps current : Nat) :
    Safe (skipLabels packet jumps current) fun next =>
      ∀ n ∈ next, current < n ∧ n ≤ packet.length := by
  -- -- every round moves `current` forward, so the bytes ahead shrink
  induction hn : packet.length - current using Nat.strongRecOn generalizing current with
  | ind n ih =>
    rw [skipLabels]
    split
    · rename_i hin
      refine (safe_load hin).bind fun len _ => ?_
      split
      · refine Safe.pure ?_
        intro n hn
        cases hn
        omega
      · split
        -- a pointer takes two bytes and ends the name
        · split
          · exact Safe.pure (by simp)
          · refine Safe.pure ?_
            intro n hn
            cases hn
            omega
        · split
          · exact Safe.pure (by simp)
          · -- the next label starts behind this one
            refine (ih _ (by omega) _ rfl).mono fun next hnext => ?_
            intro n hn
            have := hnext n hn
            omega
    · exact Safe.pure (by simp)

/-- What a part of `dns_read_name` leaves: the place of the next byte is inside. -/
def Appended (out : List UInt8) (r : List UInt8 × Option Nat) : Prop :=
  r.1.length = out.length ∧ ∀ w ∈ r.2, w < out.length

/-- A dot is written where there is room. -/
private theorem safe_appendDot {out : List UInt8} {written : Nat} (hroom : written < out.length) :
    Safe (appendDot out written) (Appended out) := by
  unfold appendDot
  split
  · split
    · exact Safe.pure ⟨rfl, by simp⟩
    · refine (safe_store hroom dot).bind ?_
      rintro _ rfl
      refine Safe.pure ⟨by simp, ?_⟩
      intro w hw
      cases hw
      omega
  · refine Safe.pure ⟨rfl, ?_⟩
    intro w hw
    cases hw
    exact hroom

/-- A label inside the packet is copied only as far as there is room. -/
private theorem safe_appendLabel {packet out : List UInt8} {current len written : Nat}
    (hroom : written < out.length) (hlabel : current + 1 + len ≤ packet.length) :
    Safe (appendLabel packet current len out written) (Appended out) := by
  refine (safe_appendDot hroom).bind ?_
  rintro ⟨out', written'⟩ ⟨hlength, -⟩
  cases written' with
  | none => exact Safe.pure ⟨hlength, by simp⟩
  | some written' =>
    simp only at hlength ⊢
    split
    · exact Safe.pure ⟨hlength, by simp⟩
    · refine (safe_copyFrom hlabel).bind fun bytes hbytes => ?_
      refine (safe_copyTo (by omega)).bind fun out'' hout'' => ?_
      refine Safe.pure ⟨hout''.2.trans hlength, ?_⟩
      intro w hw
      cases hw
      omega

/-- What `dns_read_name` leaves of its buffer: a terminated string if it succeeds. -/
def NameRead (out : List UInt8) (r : List UInt8 × Option Nat) : Prop :=
  r.1.length = out.length ∧ (r.2 ≠ none → 0 ∈ r.1)

/-- A failure promises the length of the buffer only. -/
theorem NameRead.failed {out out' : List UInt8} (h : out'.length = out.length) :
    NameRead out (out', none) :=
  ⟨h, fun hne => absurd rfl hne⟩

/-- Reading into a buffer of the same length is as good. -/
theorem NameRead.trans {out out' : List UInt8} (hlength : out'.length = out.length)
    {r : List UInt8 × Option Nat} (h : NameRead out' r) : NameRead out r := by
  rw [NameRead, hlength] at h
  exact h

/-- The reader follows pointers for at most `rounds` rounds; there is always room for the
    closing `NUL`. -/
theorem safe_readLabels (packet : List UInt8) (rounds current : Nat) {out : List UInt8}
    {written : Nat} (hroom : written < out.length) (jumped : Option Nat) :
    Safe (readLabels packet rounds current out written jumped) (NameRead out) := by
  -- -- a pointer may jump back: only the count of rounds bounds the recursion
  induction rounds generalizing current out written jumped with
  | zero => exact Safe.pure (.failed rfl)
  | succ rounds ih =>
    rw [readLabels]
    split
    · rename_i hin
      refine (safe_load hin).bind fun len _ => ?_
      split
      · refine (safe_store hroom 0).bind ?_
        rintro _ rfl
        exact Safe.pure ⟨by simp, fun _ => List.mem_set hroom 0⟩
      · split
        -- a pointer may lead anywhere in the packet, also back; the rounds run out
        · split
          · exact Safe.pure (.failed rfl)
          · refine (safe_load (show current + 1 < packet.length by omega)).bind fun low _ => ?_
            simp only
            split
            · exact Safe.pure (.failed rfl)
            · exact ih _ hroom _
        · split
          · exact Safe.pure (.failed rfl)
          · rename_i hlabel
            refine (safe_appendLabel hroom (by omega)).bind ?_
            rintro ⟨out', written'⟩ ⟨hlength, hwritten⟩
            cases written' with
            | none => exact Safe.pure (.failed hlength)
            | some written' =>
              have hroom' : written' < out'.length := by
                rw [hlength]
                exact hwritten written' rfl
              exact (ih _ hroom' _).mono fun r hr => hr.trans hlength
    · exact Safe.pure (.failed rfl)

/-- `dns_read_name` stays inside the packet and inside `out`, whatever the packet holds. -/
private theorem safe_dnsReadName (packet : List UInt8) (offset : Nat) (out : List UInt8) :
    Safe (dnsReadName packet offset out) (NameRead out) := by
  unfold dnsReadName
  split
  · exact Safe.pure (.failed rfl)
  · exact safe_readLabels packet 32 offset (by omega) none

/-! ## The query -/

/-- The query is built inside its buffer. -/
theorem safe_buildQuery (queryId : UInt16) (serviceName : List UInt8) :
    Safe (buildQuery queryId serviceName) fun query => ∀ q ∈ query, q.2 ≤ q.1.length := by
  refine (safe_encodeLabels _ 0 serviceName).bind ?_
  rintro ⟨name, encodedLen⟩ ⟨hname, -⟩
  cases encodedLen with
  | none => exact Safe.pure (by simp)
  | some encodedLen =>
    have hpacket : ((List.replicate dnsPacketMax (0 : UInt8)).take dnsHeaderSize ++ name).length =
        dnsPacketMax := by
      simp only [List.length_append, List.length_take, List.length_replicate, hname,
        List.length_drop]
      decide
    simp only
    split
    · exact Safe.pure (by simp)
    · rename_i hfits
      rw [hpacket] at hfits
      have hheader : 5 < dnsPacketMax := by decide
      -- three fields of the header, then the two that follow the name
      refine (safe_writeBe16 (by omega) queryId).bind fun packet₁ h₁ => ?_
      refine (safe_writeBe16 (by omega) dnsFlagRd).bind fun packet₂ h₂ => ?_
      refine (safe_writeBe16 (by omega) 1).bind fun packet₃ h₃ => ?_
      refine (safe_writeBe16 (by omega) dnsTypeSrv).bind fun packet₄ h₄ => ?_
      refine (safe_writeBe16 (by omega) dnsClassIn).bind fun packet₅ h₅ => ?_
      refine Safe.pure ?_
      intro q hq
      cases hq
      simp only
      omega

/-! ## The response -/

/-- The target of the best record is a terminated string. -/
def Terminated (best : Option SrvRecord) : Prop := ∀ r ∈ best, 0 ∈ r.target

/-- Before the first record there is no target. -/
private theorem terminated_none : Terminated none := by
  intro r hr
  cases hr

/-- Either record's target is terminated, so that of the chosen one is. -/
theorem Terminated.choose {candidate : SrvRecord} {best : Option SrvRecord}
    (hcandidate : 0 ∈ candidate.target) (hbest : Terminated best) :
    Terminated (chooseSrvRecord candidate best).2 := by
  have hnew : Terminated (some candidate) := by
    intro r hr
    cases hr
    exact hcandidate
  cases best with
  | none => exact hnew
  | some best =>
    simp only [chooseSrvRecord]
    split
    · exact hnew
    · split
      · exact hnew
      · exact hbest

/-- The questions are skipped inside the response. -/
private theorem safe_skipQuestions (response : List UInt8) (questions offset : Nat) :
    Safe (skipQuestions response questions offset) fun _ => True := by
  induction questions generalizing offset with
  | zero => exact Safe.pure trivial
  | succ questions ih =>
    refine (safe_skipLabels response 0 offset).bind fun next _ => ?_
    cases next with
    | none => exact Safe.pure trivial
    | some next =>
      simp only
      split
      · exact Safe.pure trivial
      · exact ih _

/-- The target is read into a buffer of its own and used only if that succeeded. -/
theorem safe_takeSrvRecord {response : List UInt8} {offset : Nat}
    (hdata : offset + 7 ≤ response.length) {best : Option SrvRecord} (hbest : Terminated best) :
    Safe (takeSrvRecord response offset best) Terminated := by
  refine (safe_readBe16 (by omega)).bind fun priority _ => ?_
  refine (safe_readBe16 (by omega)).bind fun weight _ => ?_
  refine (safe_readBe16 (by omega)).bind fun port _ => ?_
  refine (safe_dnsReadName response (offset + 6) _).bind ?_
  rintro ⟨target, next⟩ ⟨-, hnul⟩
  cases next with
  | none => exact Safe.pure hbest
  | some next =>
    refine (safe_trimTrailingDot (hnul (Option.some_ne_none next))).bind fun target' htarget' => ?_
    exact Safe.pure (hbest.choose htarget'.2)

/-- An answer whose data lie inside the response is read inside it. -/
private theorem safe_considerAnswer {response : List UInt8} {type rrClass rdlength : UInt16}
    {offset : Nat} (hdata : offset + rdlength.toNat ≤ response.length) {best : Option SrvRecord}
    (hbest : Terminated best) :
    Safe (considerAnswer response type rrClass rdlength offset best) Terminated := by
  unfold considerAnswer
  split
  · rename_i hsrv
    have hlength : 7 ≤ rdlength.toNat := UInt16.le_iff_toNat_le.mp hsrv.2.2
    exact safe_takeSrvRecord (by omega) hbest
  · exact Safe.pure hbest

/-- So are all answers, by induction on their number. -/
private theorem safe_readAnswers (response : List UInt8) (answers offset : Nat)
    {best : Option SrvRecord} (hbest : Terminated best) :
    Safe (readAnswers response answers offset best) fun found =>
      ∀ best' ∈ found, Terminated best' := by
  have hdone : ∀ {b : Option SrvRecord}, Terminated b →
      ∀ best' ∈ some b, Terminated best' := by
    intro b hb best' hbest'
    cases hbest'
    exact hb
  -- -- one record a round; `best` stays terminated through all of them
  induction answers generalizing offset best with
  | zero => exact Safe.pure (hdone hbest)
  | succ answers ih =>
    rw [readAnswers]
    split
    · refine (safe_skipLabels response 0 offset).bind fun next _ => ?_
      cases next with
      | none => exact Safe.pure (by simp)
      | some next =>
        simp only
        split
        · exact Safe.pure (by simp)
        · -- the ten bytes of the header, then `rdlength` bytes of data
          refine (safe_readBe16 (by omega)).bind fun type _ => ?_
          refine (safe_readBe16 (by omega)).bind fun rrClass _ => ?_
          refine (safe_readBe16 (by omega)).bind fun rdlength _ => ?_
          split
          · exact Safe.pure (by simp)
          · exact (safe_considerAnswer (by omega) hbest).bind fun best' hbest' => ih _ hbest'
    · exact Safe.pure (hdone hbest)

/-- A response of any bytes is read inside itself. -/
theorem safe_readResponse (queryId : UInt16) (response : List UInt8) :
    Safe (readResponse queryId response) Terminated := by
  unfold readResponse
  split
  · exact Safe.pure terminated_none
  · rename_i hheader
    have hlength : 12 ≤ response.length := Nat.not_lt.mp hheader
    refine (safe_readBe16 (by omega)).bind fun responseId _ => ?_
    refine (safe_readBe16 (by omega)).bind fun flags _ => ?_
    refine (safe_readBe16 (by omega)).bind fun qdcount _ => ?_
    refine (safe_readBe16 (by omega)).bind fun ancount _ => ?_
    split
    · exact Safe.pure terminated_none
    -- -- past the header: the questions are skipped, then the answers read
    · refine (safe_skipQuestions response _ _).bind fun offset _ => ?_
      cases offset with
      | none => exact Safe.pure terminated_none
      | some offset =>
        refine (safe_readAnswers response _ offset terminated_none).bind fun found hfound => ?_
        cases found with
        | none => exact Safe.pure terminated_none
        | some best => exact Safe.pure (hfound best rfl)

/-! ## The lookup -/

/-- `snprintf` of a terminated string writes inside the buffer. -/
private theorem safe_snprintfString {src : List UInt8} (hnul : 0 ∈ src) (out : List UInt8) :
    Safe (snprintfString out src) fun out' => out'.length = out.length := by
  refine (safe_strlen hnul).bind fun len hlen => ?_
  split
  · exact Safe.pure rfl
  · refine (safe_copyFrom (by omega)).bind fun text htext => ?_
    refine (safe_copyTo (by omega)).bind fun out' hout' => ?_
    refine (safe_store (by omega) 0).mono ?_
    rintro _ rfl
    rw [List.length_set, hout'.2]

/-- The servers are asked in turn, each into a buffer of its own. -/
private theorem safe_askServers (queryId : UInt16) (query targetOut : List UInt8)
    (servers : List DnsServer) :
    Safe (askServers queryId query targetOut servers) fun _ => True := by
  induction servers with
  | nil => exact Safe.pure trivial
  | cons server servers ih =>
    rw [askServers]
    cases server query with
    -- no answer, or none that was accepted: the next server is asked
    | none => exact ih
    | some datagram =>
      refine (safe_readResponse queryId _).bind fun best hbest => ?_
      cases best with
      | none => exact ih
      | some best =>
        refine (safe_snprintfString (hbest best rfl) targetOut).bind fun target _ => ?_
        exact Safe.pure trivial

/-- The lookup of a service and each of its parts make no access outside a buffer, whatever
    the name and the bytes of the responses are; a name that was read is terminated, and so is
    the target of the record that is taken. -/
theorem dns_client_safe :
    (∀ queryId servers serviceName targetOut, ∃ found,
      querySrvRecord queryId servers serviceName targetOut = .ok found) ∧
    (∀ queryId serviceName, Safe (buildQuery queryId serviceName) fun query =>
      ∀ q ∈ query, q.2 ≤ q.1.length) ∧
    (∀ queryId response, Safe (readResponse queryId response) fun best =>
      ∀ r ∈ best, 0 ∈ r.target) ∧
    (∀ buf name, Safe (encodeDnsName buf name) fun r => r.1.length = buf.length) ∧
    (∀ packet offset, Safe (dnsSkipName packet offset) fun next =>
      ∀ n ∈ next, offset < n ∧ n ≤ packet.length) ∧
    ∀ packet offset out, Safe (dnsReadName packet offset out) fun r =>
      r.1.length = out.length ∧ (r.2 ≠ none → 0 ∈ r.1) := by
  refine ⟨?_, safe_buildQuery, safe_readResponse, ?_, ?_, safe_dnsReadName⟩
  · intro queryId servers serviceName targetOut
    have hsafe : Safe (querySrvRecord queryId servers serviceName targetOut) fun _ => True := by
      refine (safe_buildQuery queryId serviceName).bind fun query hquery => ?_
      cases query with
      | none => exact Safe.pure trivial
      | some query =>
        refine (safe_copyFrom ?_).bind fun bytes _ => safe_askServers queryId bytes _ servers
        rw [Nat.zero_add]
        exact hquery query rfl
    obtain ⟨found, hfound, -⟩ := hsafe
    exact ⟨found, hfound⟩
  · exact fun buf name => (safe_encodeLabels buf 0 name).mono fun r hr => hr.1
  · exact fun packet offset => safe_skipLabels packet 0 offset

end Grimnir.Muninn
