import Mathlib.Data.List.DropRight
import Grimnir.ForStd.FirstBest
import Grimnir.Spec.DnsNames

/-!
# The record that the DNS client takes

What `query_srv_record` makes of a response, against the format of the response: questions, then
answers, each behind a name.  The answers that are SRV records of the Internet with a target
that can be read are candidates, and the first of the best is taken.

## Key results

- `readAnswers_succ`: one round of the loop over the answers
- `walkers_agree`: the two walkers over a name stop at the same place, so the loop advances
- `readAnswers_outcome`: the loop scans the candidates
- `srv_selection`: the record taken from a response, and from the servers in turn
-/

namespace Grimnir.Muninn

open CAccess Dns

/-! ## Strings -/

/-- Of a terminated text the dots at its end are trimmed. -/
private theorem safe_trimDots_text {text : List UInt8} (htext : ∀ b ∈ text, b ≠ 0)
    (rest : List UInt8) : Safe (trimDots (text ++ 0 :: rest) text.length) fun value =>
      value.length = (text ++ 0 :: rest).length ∧ 0 ∈ value ∧
        cString value = text.rdropWhile (· == dot) := by
  -- by induction from the end of the text, as the loop goes
  induction text using List.reverseRecOn generalizing rest with
  | nil => exact Safe.pure ⟨rfl, by simp, rfl⟩
  | append_singleton text b ih =>
    have hplain : ∀ c ∈ text, c ≠ 0 := fun c hc => htext c (List.mem_append_left _ hc)
    rw [List.length_append, List.length_singleton, trimDots, load_eq (by simp), ok_bind]
    have hlast : ((text ++ [b]) ++ 0 :: rest).getD text.length 0 = b := by simp
    rw [hlast]
    -- a dot is overwritten by a NUL, and the loop goes on before it
    by_cases hdot : b = dot
    · have hset : ((text ++ [b]) ++ 0 :: rest).set text.length 0 = text ++ 0 :: 0 :: rest := by
        simp
      rw [if_pos hdot, List.rdropWhile_concat_pos (· == dot) text b (by simpa using hdot)]
      refine (safe_store (show text.length < _ by simp) 0).bind ?_
      rintro _ rfl
      rw [hset]
      refine (ih hplain (0 :: rest)).mono fun value hvalue => ?_
      simpa using hvalue
    · rw [if_neg hdot, List.rdropWhile_concat_neg (· == dot) text b (by simpa using hdot)]
      exact Safe.pure ⟨rfl, by simp, cString_append htext⟩

/-- `trim_trailing_dot` drops the dots at the end of the string. -/
theorem trimTrailingDot_text {value : List UInt8} (hnul : 0 ∈ value) :
    Safe (trimTrailingDot value) fun value' => value'.length = value.length ∧ 0 ∈ value' ∧
      cString value' = (cString value).rdropWhile (· == dot) := by
  obtain ⟨rest, hrest⟩ := cString_split hnul
  refine (safe_strlen hnul).bind ?_
  rintro _ ⟨rfl, -⟩
  have htrim := safe_trimDots_text (cString_plain value) rest
  rwa [← hrest] at htrim

/-- `snprintf` copies the string as far as there is room for it and its `NUL`. -/
theorem snprintfString_text {src : List UInt8} (hnul : 0 ∈ src) (out : List UInt8) :
    Safe (snprintfString out src) fun out' => out'.length = out.length ∧
      cString out' = (cString src).take (out.length - 1) := by
  refine (safe_strlen hnul).bind ?_
  rintro _ ⟨rfl, hlen⟩
  -- an empty buffer is left as it is
  split
  · rename_i hempty
    have hnil : out = [] := List.length_eq_zero_iff.mp hempty
    subst hnil
    exact Safe.pure ⟨rfl, rfl⟩
  · rename_i hsome
    -- the string is copied as far as it fits, and a NUL is written behind it
    refine (safe_copyFrom (by omega)).bind ?_
    rintro text ⟨htext, htextLen⟩
    refine (safe_copyTo (by omega)).bind ?_
    rintro _ ⟨rfl, hlength⟩
    refine (safe_store (by omega) 0).mono ?_
    rintro _ rfl
    refine ⟨by rw [List.length_set, hlength], ?_⟩
    obtain ⟨rest, hrest⟩ := cString_split hnul
    -- what is copied are the first bytes of the string
    have hcopied : text = (cString src).take (out.length - 1) := by
      rw [htext, List.drop_zero, hrest, List.take_append_of_le_length (by
        rw [cString_append (cString_plain src)]; exact Nat.min_le_left _ _),
        cString_append (cString_plain src), Nat.min_comm, ← List.take_take, List.take_length]
    -- the NUL comes right behind what was copied
    have hjoin : (overwrite out 0 text).set text.length 0 =
        text ++ 0 :: out.drop (text.length + 1) := by
      rw [set_eq_overwrite (by omega)]
      have happend := @overwrite_append out text 0 (by omega) [0]
      rw [Nat.zero_add] at happend
      rw [happend]
      simp [overwrite]
    rw [hjoin, cString_append, hcopied]
    intro b hb
    rw [hcopied] at hb
    exact cString_plain src b (List.mem_of_mem_take hb)

/-! ## The format of a response -/

/-- The sixteen bits at `i`, the high byte first. -/
def be16 (buf : List UInt8) (i : Nat) : UInt16 :=
  ((buf.getD i 0).toUInt16 <<< 8) ||| (buf.getD (i + 1) 0).toUInt16

/-- Inside the buffer the word is the two bytes that are there. -/
private theorem readBe16_eq {buf : List UInt8} {i : Nat} (h : i + 1 < buf.length) :
    readBe16 buf i = .ok (be16 buf i) := by
  unfold readBe16
  rw [load_eq (Nat.lt_of_succ_lt h), load_eq h]
  rfl

/-- `count` questions from `offset` on end before `next`: a name and four bytes each. -/
inductive Questions (response : List UInt8) : Nat → Nat → Nat → Prop where
  | done (offset : Nat) : Questions response 0 offset offset
  | question {count offset header next : Nat} (hname : EndsAt response offset header)
      (hheader : header + 4 ≤ response.length) (rest : Questions response count (header + 4) next) :
      Questions response (count + 1) offset next

/-- Where the data of an answer ends whose header follows its name at `header`. -/
def answerEnd (response : List UInt8) (header : Nat) : Nat :=
  header + 10 + (be16 response (header + 8)).toNat

/-- The answers from `offset` on, each as the offset of its header: at most `count` of them, as
    many as are there. -/
inductive Answers (response : List UInt8) : Nat → Nat → List Nat → Prop where
  | done (offset : Nat) : Answers response 0 offset []
  | short {count offset : Nat} (hend : response.length ≤ offset) :
      Answers response (count + 1) offset []
  | answer {count offset header : Nat} {headers : List Nat} (hname : EndsAt response offset header)
      (hdata : answerEnd response header ≤ response.length)
      (rest : Answers response count (answerEnd response header) headers) :
      Answers response (count + 1) offset (header :: headers)

/-- The questions end in one place. -/
theorem Questions.unique {response : List UInt8} {count offset next next' : Nat}
    (h : Questions response count offset next) (h' : Questions response count offset next') :
    next = next' := by
  induction h with
  | done offset =>
    cases h'
    rfl
  | question hname hheader rest ih =>
    cases h' with
    | question hname' _ rest' =>
      cases hname.unique hname'
      exact ih rest'

/-- The answers begin in one way. -/
theorem Answers.unique {response : List UInt8} {count offset : Nat} {headers headers' : List Nat}
    (h : Answers response count offset headers) (h' : Answers response count offset headers') :
    headers = headers' := by
  induction h generalizing headers' with
  | done offset =>
    cases h'
    rfl
  | short hend =>
    cases h' with
    | short _ => rfl
    | answer hname' _ _ => exact absurd hname'.lt_length (Nat.not_lt.mpr hend)
  | answer hname hdata rest ih =>
    cases h' with
    | short hend' => exact absurd hname.lt_length (Nat.not_lt.mpr hend')
    | answer hname' _ rest' =>
      cases hname.unique hname'
      rw [ih rest']

/-- An SRV record, with the text of its target. -/
structure Srv where
  priority : UInt16
  weight : UInt16
  port : UInt16
  target : List UInt8
  deriving DecidableEq

/-- The record that the client holds. -/
def SrvRecord.srv (r : SrvRecord) : Srv := ⟨r.priority, r.weight, r.port, cString r.target⟩

/-- The target at `offset`, where one can be read: a C string without dots at its end. -/
def targetAt (response : List UInt8) (offset : Nat) : Option (List UInt8) :=
  match spell response 32 offset with
  | none => none
  | some ls =>
    if (text ls).length < dnsMaxNameLen then some ((cString (text ls)).rdropWhile (· == dot))
    else none

/-- The record of the answer with its header at `header`. -/
def record (response : List UInt8) (header : Nat) : Option Srv :=
  if be16 response header = dnsTypeSrv ∧ be16 response (header + 2) = dnsClassIn ∧
      be16 response (header + 8) ≥ 7 then
    (targetAt response (header + 16)).map fun target =>
      ⟨be16 response (header + 10), be16 response (header + 12), be16 response (header + 14),
        target⟩
  else none

/-- A lower priority, or the same and a greater weight. -/
def Better (r s : Srv) : Prop :=
  r.priority < s.priority ∨ r.priority = s.priority ∧ s.weight < r.weight

instance : DecidableRel Better := fun r s =>
  inferInstanceAs (Decidable (r.priority < s.priority ∨
    r.priority = s.priority ∧ s.weight < r.weight))

/-- A response to the query with the records of its answers. -/
def Accepted (queryId : UInt16) (response : List UInt8) (records : List Srv) : Prop :=
  dnsHeaderSize ≤ response.length ∧ be16 response 0 = queryId ∧
    be16 response 2 &&& dnsRcodeMask = 0 ∧ ∃ offset headers,
      Questions response (be16 response 4).toNat dnsHeaderSize offset ∧
      Answers response (be16 response 6).toNat offset headers ∧
      records = headers.filterMap (record response)

/-- The response offers its first best record. -/
def Offers (queryId : UInt16) (response : List UInt8) (r : Srv) : Prop :=
  ∃ records, Accepted queryId response records ∧ FirstBest Better records r

/-- A response is accepted with one list of records. -/
theorem Accepted.unique {queryId : UInt16} {response : List UInt8} {records records' : List Srv}
    (h : Accepted queryId response records) (h' : Accepted queryId response records') :
    records = records' := by
  obtain ⟨-, -, -, offset, headers, hquestions, hanswers, rfl⟩ := h
  obtain ⟨-, -, -, offset', headers', hquestions', hanswers', rfl⟩ := h'
  cases hquestions.unique hquestions'
  rw [hanswers.unique hanswers']

/-! ## The loop over the answers -/

/-- The candidate of an answer, if it has one: whatever the best record is so far. -/
private theorem considerAnswer_candidate {response : List UInt8} {header : Nat}
    (hdata : answerEnd response header ≤ response.length) :
    ∃ candidate : Option SrvRecord, candidate.map SrvRecord.srv = record response header ∧
      (∀ r ∈ candidate, 0 ∈ r.target) ∧
      ∀ best, considerAnswer response (be16 response header) (be16 response (header + 2))
        (be16 response (header + 8)) (header + 10) best =
          .ok (candidate.elim best fun r => (chooseSrvRecord r best).2) := by
  unfold record considerAnswer
  unfold answerEnd at hdata
  -- only an `SRV` record of class `IN` with room for its fields is read
  by_cases hsrv : be16 response header = dnsTypeSrv ∧ be16 response (header + 2) = dnsClassIn ∧
      be16 response (header + 8) ≥ 7
  · have hlength : 7 ≤ (be16 response (header + 8)).toNat := UInt16.le_iff_toNat_le.mp hsrv.2.2
    simp only [if_pos hsrv, takeSrvRecord]
    rw [readBe16_eq (by omega), readBe16_eq (by omega), readBe16_eq (by omega)]
    simp only [ok_bind]
    -- the target is read by the reader of names
    obtain ⟨⟨out', next⟩, hread, houtcome⟩ :=
      dnsReadName_outcome response (header + 10 + 6) (List.replicate dnsMaxNameLen 0)
    rw [hread, targetAt]
    have hwritten : ∀ ls, continued 0 ls = text ls := fun ls => if_pos rfl
    cases houtcome with
    -- a target that was read has its dots trimmed
    | read ls next hspell hroom hend =>
      rw [hwritten, List.length_replicate, Nat.zero_add] at hroom
      rw [hwritten, show overwrite (List.replicate dnsMaxNameLen 0) 0 (text ls ++ [0]) =
        text ls ++ 0 :: (List.replicate dnsMaxNameLen 0).drop ((text ls).length + 1) by
          simp [overwrite]]
      obtain ⟨target, htrim, -, hnul, htarget⟩ :=
        @trimTrailingDot_text (text ls ++ 0 :: (List.replicate dnsMaxNameLen 0).drop
          ((text ls).length + 1)) (by simp)
      rw [cString_nul] at htarget
      simp only [ok_bind, htrim, hspell, if_pos hroom, Option.map_some]
      refine ⟨some ⟨_, _, _, target⟩, ?_, ?_, fun best => rfl⟩
      · rw [← htarget]
        rfl
      · intro r hr
        cases hr
        exact hnul
    -- a target that is refused makes no candidate
    | refused out' hrefused =>
      refine ⟨none, ?_, by simp, fun best => rfl⟩
      cases hspell : spell response 32 (header + 16) with
      | none => rfl
      -- it could be spelled, but it does not fit the buffer
      | some ls =>
        have hfull := hrefused ls hspell
        rw [hwritten, List.length_replicate, Nat.zero_add] at hfull
        simp only [if_neg (Nat.not_lt.mpr hfull), Option.map_none]
  -- any other record leaves the best one as it was
  · simp only [if_neg hsrv]
    exact ⟨none, rfl, by simp, fun best => rfl⟩

/-- One round of the loop over the answers: the end of the packet, a malformed answer, or an
    answer and its candidate. -/
theorem readAnswers_succ (response : List UInt8) (answers offset : Nat)
    (best : Option SrvRecord) :
    (response.length ≤ offset ∧
      readAnswers response (answers + 1) offset best = .ok (some best)) ∨
    (offset < response.length ∧
      (∀ header, EndsAt response offset header → response.length < answerEnd response header) ∧
      readAnswers response (answers + 1) offset best = .ok none) ∨
    ∃ header, EndsAt response offset header ∧ answerEnd response header ≤ response.length ∧
      readAnswers response (answers + 1) offset best =
        (considerAnswer response (be16 response header) (be16 response (header + 2))
          (be16 response (header + 8)) (header + 10) best >>=
        readAnswers response answers (answerEnd response header)) := by
  rw [readAnswers]
  -- the answers end with the response
  by_cases hin : offset < response.length
  · right
    rw [if_pos hin]
    obtain ⟨found, hskip, hfound⟩ := dnsSkipName_endsAt response offset
    rw [hskip, ok_bind]
    -- the owner's name is skipped, or it is malformed
    cases found with
    | none =>
      left
      exact ⟨hin, fun header h => absurd ((hfound header).mpr h) (by simp), rfl⟩
    | some header =>
      have hname := (hfound header).mp rfl
      -- the answer ends where the name and its header say, whichever way the name is read
      have hmalformed : response.length < answerEnd response header →
          ∀ header', EndsAt response offset header' →
            response.length < answerEnd response header' :=
        fun hlong header' h => hname.unique h ▸ hlong
      dsimp only
      -- the header has to lie inside the response,
      by_cases hheader : header + 10 > response.length
      · left
        rw [if_pos hheader]
        exact ⟨hin, hmalformed (Nat.lt_of_lt_of_le hheader (Nat.le_add_right _ _)), rfl⟩
      · rw [if_neg hheader, readBe16_eq (by omega), readBe16_eq (by omega), readBe16_eq (by omega)]
        simp only [ok_bind]
        -- and so have the data behind it
        by_cases hdata : header + 10 + (be16 response (header + 8)).toNat > response.length
        · left
          rw [if_pos hdata]
          exact ⟨hin, hmalformed hdata, rfl⟩
        · right
          rw [if_neg hdata]
          exact ⟨header, hname, Nat.not_lt.mp hdata, rfl⟩
  · left
    rw [if_neg hin]
    exact ⟨Nat.not_lt.mp hin, rfl⟩

/-- A name that is read is skipped to the same place, behind its start and within the packet.
    A round of the loop over the answers ends the loop or moves forward in the packet. -/
theorem walkers_agree :
    (∀ (packet : List UInt8) (offset : Nat) (out out' : List UInt8) (next : Nat),
      dnsReadName packet offset out = .ok (out', some next) →
      dnsSkipName packet offset = .ok (some next) ∧ offset < next ∧ next ≤ packet.length) ∧
    ∀ (response : List UInt8) (answers offset : Nat) (best : Option SrvRecord),
      readAnswers response (answers + 1) offset best = .ok none ∨
      (response.length ≤ offset ∧
        readAnswers response (answers + 1) offset best = .ok (some best)) ∨
      ∃ header offset' best', dnsSkipName response offset = .ok (some header) ∧
        offset' = answerEnd response header ∧ offset < offset' ∧ offset' ≤ response.length ∧
        readAnswers response (answers + 1) offset best =
          readAnswers response answers offset' best' := by
  constructor
  -- the reader of names ends where the skipper does
  · intro packet offset out out' next hread
    cases (dnsReadName_outcome packet offset out).of_eq hread with
    | read ls next _ _ hend =>
      obtain ⟨found, hskip, hfound⟩ := dnsSkipName_endsAt packet offset
      rw [hskip, (hfound _).mpr hend]
      exact ⟨rfl, hend.advances⟩
  -- each round of the answers advances behind an answer
  · intro response answers offset best
    rcases readAnswers_succ response answers offset best with hdone | ⟨-, -, hmalformed⟩ | hround
    · exact .inr (.inl hdone)
    · exact .inl hmalformed
    · obtain ⟨header, hname, hdata, hround⟩ := hround
      obtain ⟨found, hskip, hfound⟩ := dnsSkipName_endsAt response offset
      rw [(hfound header).mpr hname] at hskip
      obtain ⟨candidate, -, -, hconsider⟩ := considerAnswer_candidate hdata
      rw [hconsider, ok_bind] at hround
      have hadvance : offset < answerEnd response header :=
        Nat.lt_of_lt_of_le hname.advances.1 (by unfold answerEnd; omega)
      exact .inr (.inr ⟨header, _, _, hskip, rfl, hadvance, hdata, hround⟩)

/-- The label `a` at 1, with a pointer to the root at 0 behind it. -/
theorem walkers_agree_pointer :
    dnsSkipName [0, 1, 0x61, 0xC0, 0] 1 = .ok (some 5) ∧ 1 < 5 ∧
      5 ≤ [0, 1, 0x61, 0xC0, (0 : UInt8)].length :=
  walkers_agree.1 _ 1 (List.replicate 4 0) [0x61, 0, 0, 0] 5 (by rfl)

/-! ## The choice -/

/-- The better record is one by a strict order. -/
private theorem better_ranking : Ranking Better where
  asymm := by
    intro r s h
    unfold Better at h ⊢
    simp only [UInt16.lt_iff_toNat_lt, ← UInt16.toNat_inj] at h ⊢
    omega
  not_trans := by
    intro r s t h h'
    unfold Better at h h' ⊢
    simp only [UInt16.lt_iff_toNat_lt, ← UInt16.toNat_inj] at h h' ⊢
    omega

/-- Two records tie exactly when priority and weight are the same. -/
private theorem tied_iff (r s : Srv) :
    Tied Better r s ↔ s.priority = r.priority ∧ s.weight = r.weight := by
  unfold Tied Better
  simp only [UInt16.lt_iff_toNat_lt, ← UInt16.toNat_inj]
  omega

/-- `choose_srv_record` keeps the better one. -/
private theorem chooseSrvRecord_keep (r : SrvRecord) (best : Option SrvRecord) :
    (chooseSrvRecord r best).2.map SrvRecord.srv =
      keepBetter Better (best.map SrvRecord.srv) r.srv := by
  cases best with
  | none => rfl
  | some best =>
    simp only [chooseSrvRecord, Option.map_some, keepBetter]
    by_cases hpriority : r.priority < best.priority
    · rw [if_pos hpriority, if_pos (.inl hpriority)]
      rfl
    · rw [if_neg hpriority]
      by_cases hweight : r.priority = best.priority ∧ r.weight > best.weight
      · rw [if_pos hweight, if_pos (.inr hweight)]
        rfl
      · have hworse : ¬Better r.srv best.srv := not_or.mpr ⟨hpriority, hweight⟩
        rw [if_neg hweight, if_neg hworse]
        rfl

/-- What the loop over the answers ends with. -/
inductive AnswersOutcome (response : List UInt8) (answers offset : Nat)
    (best : Option SrvRecord) : Option (Option SrvRecord) → Prop where
  | malformed (h : ∀ headers, ¬Answers response answers offset headers) :
      AnswersOutcome response answers offset best none
  | read (headers : List Nat) (h : Answers response answers offset headers)
      (best' : Option SrvRecord) (hbest : best'.map SrvRecord.srv =
        (headers.filterMap (record response)).foldl (keepBetter Better) (best.map SrvRecord.srv)) :
      AnswersOutcome response answers offset best (some best')

/-- The loop over the answers, by induction on how many are to come. -/
theorem readAnswers_outcome (response : List UInt8) (answers offset : Nat)
    (best : Option SrvRecord) :
    Safe (readAnswers response answers offset best)
      (AnswersOutcome response answers offset best) := by
  -- by induction on the answers that are left
  induction answers generalizing offset best with
  | zero => exact Safe.pure (.read [] (.done offset) best rfl)
  | succ answers ih =>
    rcases readAnswers_succ response answers offset best with
      ⟨hend, hround⟩ | ⟨hin, hlong, hround⟩ | ⟨header, hname, hdata, hround⟩
    -- the response ends before the announced answers
    · rw [hround]
      exact Safe.pure (.read [] (.short hend) best rfl)
    -- a malformed answer leaves no list of headers at all
    · rw [hround]
      refine Safe.pure (.malformed fun headers h => ?_)
      cases h with
      | short hend => omega
      | answer hname hdata _ => exact absurd hdata (Nat.not_le.mpr (hlong _ hname))
    -- the answer is considered, and the loop goes on behind it
    · obtain ⟨candidate, hrecord, -, hconsider⟩ := considerAnswer_candidate hdata
      rw [hround, hconsider, ok_bind]
      refine (ih _ _).mono fun found hfound => ?_
      cases hfound with
      | malformed hnone =>
        refine .malformed fun headers h => ?_
        cases h with
        | short hend => exact absurd hname.lt_length (Nat.not_lt.mpr hend)
        | answer hname' _ rest =>
          cases hname.unique hname'
          exact hnone _ rest
      | read headers h best' hbest =>
        refine .read (header :: headers) (.answer hname hdata h) best' ?_
        -- keeping the better one step by step is a fold over the records
        rw [hbest, List.filterMap_cons, ← hrecord]
        cases candidate with
        | none => rfl
        | some r =>
          rw [Option.map_some, List.foldl_cons, ← chooseSrvRecord_keep]
          rfl

/-- The loop over the questions finds where they end. -/
private theorem skipQuestions_questions (response : List UInt8) (questions offset : Nat) :
    Safe (skipQuestions response questions offset) fun found =>
      ∀ next, found = some next ↔ Questions response questions offset next := by
  -- by induction on the questions that are left
  induction questions generalizing offset with
  | zero =>
    refine Safe.pure fun next => ?_
    constructor
    · intro h
      cases h
      exact .done offset
    · intro h
      cases h
      rfl
  | succ questions ih =>
    rw [skipQuestions]
    -- the question's name is skipped, and four bytes behind it
    obtain ⟨found, hskip, hfound⟩ := dnsSkipName_endsAt response offset
    rw [hskip, ok_bind]
    cases found with
    | none =>
      refine Safe.pure fun next => ?_
      constructor
      · intro h
        cases h
      · intro h
        cases h with
        | question hname _ _ => exact absurd ((hfound _).mpr hname) (by simp)
    | some header =>
      have hname := (hfound header).mp rfl
      dsimp only
      -- without room for the four bytes there is no such question
      by_cases hheader : header + 4 > response.length
      · rw [if_pos hheader]
        refine Safe.pure fun next => ?_
        constructor
        · intro h
          cases h
        · intro h
          cases h with
          | question hname' hheader' _ =>
            cases hname.unique hname'
            omega
      · rw [if_neg hheader]
        refine (ih _).mono fun found' hfound' next => ?_
        rw [hfound']
        constructor
        · exact .question hname (Nat.not_lt.mp hheader)
        · intro h
          cases h with
          | question hname' _ rest =>
            cases hname.unique hname'
            exact rest

/-! ## One response -/

/-- What is not accepted offers nothing. -/
private theorem not_offers {queryId : UInt16} {response : List UInt8}
    (h : ∀ records r, Accepted queryId response records → ¬FirstBest Better records r)
    (r : Srv) :
    (none : Option SrvRecord).map SrvRecord.srv = some r ↔ Offers queryId response r := by
  constructor
  · intro hnone
    cases hnone
  · rintro ⟨records, haccepted, hfirst⟩
    exact absurd hfirst (h records r haccepted)

/-- The client takes from a response exactly what it offers. -/
private theorem readResponse_offers (queryId : UInt16) (response : List UInt8) :
    Safe (readResponse queryId response) fun best =>
      ∀ r, best.map SrvRecord.srv = some r ↔ Offers queryId response r := by
  have hsize : dnsHeaderSize = 12 := rfl
  unfold readResponse
  -- a response shorter than its header offers nothing
  by_cases hheader : response.length < dnsHeaderSize
  · rw [if_pos hheader]
    refine Safe.pure (not_offers fun records r h _ => ?_)
    exact absurd h.1 (Nat.not_le.mpr hheader)
  rw [if_neg hheader, readBe16_eq (by omega), readBe16_eq (by omega), readBe16_eq (by omega),
    readBe16_eq (by omega)]
  simp only [ok_bind]
  -- the id, the response code and the number of answers are checked first
  by_cases hbad : be16 response 0 ≠ queryId ∨ be16 response 2 &&& dnsRcodeMask ≠ 0 ∨
      be16 response 6 = 0
  · rw [if_pos hbad]
    refine Safe.pure (not_offers ?_)
    -- each check that fails is one that an accepted response passes
    rintro _ r ⟨-, hid, hrcode, offset, headers, -, hanswers, rfl⟩ hfirst
    rcases hbad with hid' | hrcode' | hcount
    · exact hid' hid
    · exact hrcode' hrcode
    · rw [hcount] at hanswers
      cases hanswers
      exact absurd hfirst.mem List.not_mem_nil
  rw [if_neg hbad]
  obtain ⟨hid, hrcode, -⟩ : be16 response 0 = queryId ∧ be16 response 2 &&& dnsRcodeMask = 0 ∧
      ¬be16 response 6 = 0 := by simpa using hbad
  obtain ⟨found, hskip, hfound⟩ :=
    skipQuestions_questions response (be16 response 4).toNat dnsHeaderSize
  rw [hskip, ok_bind]
  -- the questions end somewhere, or the response is refused
  cases found with
  | none =>
    refine Safe.pure (not_offers ?_)
    rintro _ r ⟨-, -, -, offset, headers, hquestions, -, rfl⟩ -
    exact absurd ((hfound offset).mpr hquestions) (by simp)
  | some offset =>
    have hquestions := (hfound offset).mp rfl
    obtain ⟨best, hread, houtcome⟩ :=
      readAnswers_outcome response (be16 response 6).toNat offset none
    simp only [hread, ok_bind]
    -- the answers can be walked, or the response is refused
    cases houtcome with
    | malformed hmalformed =>
      refine Safe.pure (not_offers ?_)
      rintro _ r ⟨-, -, -, offset', headers, hquestions', hanswers, rfl⟩ -
      cases hquestions.unique hquestions'
      exact hmalformed headers hanswers
    | read headers hanswers best hbest =>
      refine Safe.pure fun r => ?_
      have haccepted : Accepted queryId response (headers.filterMap (record response)) :=
        ⟨Nat.not_lt.mp hheader, hid, hrcode, offset, headers, hquestions, hanswers, rfl⟩
      -- folding with the client's comparison leaves the first best record
      rw [hbest, Option.map_none, foldl_keepBetter better_ranking]
      constructor
      · exact fun hfirst => ⟨_, haccepted, hfirst⟩
      · rintro ⟨records, haccepted', hfirst⟩
        rwa [haccepted.unique haccepted']

/-! ## The servers in turn -/

/-- The server answers the query with a response that offers the record. -/
def Answered (queryId : UInt16) (query : List UInt8) (server : DnsServer) (r : Srv) : Prop :=
  ∃ datagram, server query = some datagram ∧ Offers queryId (datagram.take dnsPacketMax) r

/-- What a lookup with the query yields: the record of the first server that offers one, its
    target as far as the caller has room. -/
inductive Taken (queryId : UInt16) (targetOut query : List UInt8) :
    List DnsServer → Option (List UInt8 × UInt16) → Prop where
  | nothing {servers : List DnsServer}
      (h : ∀ server ∈ servers, ∀ r, ¬Answered queryId query server r) :
      Taken queryId targetOut query servers none
  | taken {before after : List DnsServer} {server : DnsServer} {r : Srv} {target : List UInt8}
      (hbefore : ∀ server' ∈ before, ∀ r', ¬Answered queryId query server' r')
      (h : Answered queryId query server r) (hlength : target.length = targetOut.length)
      (htarget : cString target = r.target.take (targetOut.length - 1)) :
      Taken queryId targetOut query (before ++ server :: after) (some (target, r.port))

/-- A server that offers nothing is passed over. -/
theorem Taken.pass {queryId : UInt16} {targetOut query : List UInt8} {server : DnsServer}
    {servers : List DnsServer} {found : Option (List UInt8 × UInt16)}
    (hserver : ∀ r, ¬Answered queryId query server r)
    (h : Taken queryId targetOut query servers found) :
    Taken queryId targetOut query (server :: servers) found := by
  cases h with
  | nothing hrest => exact .nothing (List.forall_mem_cons.mpr ⟨hserver, hrest⟩)
  | taken hbefore hanswered hlength htarget =>
    rw [← List.cons_append]
    exact .taken (List.forall_mem_cons.mpr ⟨hserver, hbefore⟩) hanswered hlength htarget

/-- The loop over the servers, by induction on those that are left. -/
private theorem askServers_taken (queryId : UInt16) (query targetOut : List UInt8)
    (servers : List DnsServer) :
    Safe (askServers queryId query targetOut servers) (Taken queryId targetOut query servers) := by
  -- by induction on the servers that are left
  induction servers with
  | nil => exact Safe.pure (.nothing (by simp))
  | cons server servers ih =>
    rw [askServers]
    -- a server that does not answer is passed over
    cases hserver : server query with
    | none =>
      refine ih.mono fun found hfound => hfound.pass ?_
      rintro r ⟨datagram, hdatagram, -⟩
      cases hserver.symm.trans hdatagram
    | some datagram =>
      obtain ⟨best, hread, hoffers⟩ :=
        readResponse_offers queryId (datagram.take dnsPacketMax)
      dsimp only
      rw [hread, ok_bind]
      -- so is one whose answer offers nothing
      cases best with
      | none =>
        refine ih.mono fun found hfound => hfound.pass ?_
        rintro r ⟨datagram', hdatagram', hr⟩
        cases hserver.symm.trans hdatagram'
        exact absurd ((hoffers r).mpr hr) (by simp)
      | some best =>
        -- the target is terminated, so it is copied as far as the caller has room
        have hnul := (safe_readResponse queryId _).of_eq hread best rfl
        obtain ⟨target, hcopy, hlength, htarget⟩ := snprintfString_text hnul targetOut
        dsimp only
        rw [hcopy, ok_bind]
        have hanswered : Answered queryId query server best.srv :=
          ⟨datagram, hserver, (hoffers _).mp rfl⟩
        have htaken : Taken queryId targetOut query ([] ++ server :: servers)
            (some (target, best.srv.port)) := .taken (by simp) hanswered hlength htarget
        exact Safe.pure htaken

/-- From a response the client takes the first best record of those that can be read, and nothing
    from one that is not accepted; from the servers it takes what the first of them offers.  The
    choice depends on the records only, and on their order only where they are tied with it. -/
theorem srv_selection :
    (∀ queryId response, ∃ best, readResponse queryId response = .ok best ∧
      ∀ r, best.map SrvRecord.srv = some r ↔ Offers queryId response r) ∧
    (∀ queryId servers serviceName targetOut, ∃ query found,
      buildQuery queryId serviceName = .ok query ∧
      querySrvRecord queryId servers serviceName targetOut = .ok found ∧
      query.elim (found = none) fun q => Taken queryId targetOut (q.1.take q.2) servers found) ∧
    ∀ queryId queryId' response response' records records' r,
      Accepted queryId response records → Accepted queryId' response' records' →
      records.Perm records' →
      (records.filter fun s => s.priority = r.priority ∧ s.weight = r.weight) =
        (records'.filter fun s => s.priority = r.priority ∧ s.weight = r.weight) →
      Offers queryId response r → Offers queryId' response' r := by
  refine ⟨readResponse_offers, ?_, ?_⟩
  · intro queryId servers serviceName targetOut
    obtain ⟨query, hbuild, hlen⟩ := safe_buildQuery queryId serviceName
    unfold querySrvRecord
    rw [hbuild, ok_bind]
    cases query with
    -- a name that cannot be encoded is not asked for
    | none => exact ⟨none, none, rfl, rfl, rfl⟩
    | some query =>
      obtain ⟨packet, queryLen⟩ := query
      have hroom : 0 + queryLen ≤ packet.length := by
        rw [Nat.zero_add]
        exact hlen _ rfl
      obtain ⟨bytes, hcopy, rfl, -⟩ := safe_copyFrom hroom
      obtain ⟨found, hask, htaken⟩ := askServers_taken queryId _ targetOut servers
      dsimp only
      rw [hcopy, ok_bind]
      exact ⟨_, found, rfl, hask, htaken⟩
  -- the first best record does not depend on the order, but for ties
  · rintro queryId queryId' response response' records records' r haccepted haccepted' hperm htied
      ⟨records₀, haccepted₀, hfirst⟩
    cases haccepted₀.unique haccepted
    refine ⟨records', haccepted', hfirst.perm better_ranking hperm ?_⟩
    simpa only [tied_iff] using htied

/-- A response to the query 7: a record of priority 2, an address, and a record of priority 1. -/
def responseBehind : List UInt8 :=
  [0, 7, 0, 0, 0, 0, 0, 3, 0, 0, 0, 0,
    0, 0, 33, 0, 1, 0, 0, 0, 0, 0, 7, 0, 2, 0, 0, 0, 9, 0,
    0, 0, 1, 0, 1, 0, 0, 0, 0, 0, 4, 10, 0, 0, 1,
    0, 0, 33, 0, 1, 0, 0, 0, 0, 0, 9, 0, 1, 0, 0, 0, 8, 1, 0x61, 0]

/-- The record of priority 1, then the other one. -/
def responseInFront : List UInt8 :=
  [0, 7, 0, 0, 0, 0, 0, 2, 0, 0, 0, 0,
    0, 0, 33, 0, 1, 0, 0, 0, 0, 0, 9, 0, 1, 0, 0, 0, 8, 1, 0x61, 0,
    0, 0, 33, 0, 1, 0, 0, 0, 0, 0, 7, 0, 2, 0, 0, 0, 9, 0]

/-- The order of the answers does not matter to the record of priority 1. -/
theorem srv_selection_reordered : Offers 7 responseInFront ⟨1, 0, 8, [0x61]⟩ := by
  have hanswers : Answers responseBehind 3 12 [13, 31, 46] :=
    .answer (.root (by decide)) (by decide) (.answer (.root (by decide)) (by decide)
      (.answer (.root (by decide)) (by decide) (.done 65)))
  have hanswers' : Answers responseInFront 2 12 [13, 33] :=
    .answer (.root (by decide)) (by decide) (.answer (.root (by decide)) (by decide) (.done 50))
  have hbehind : Accepted 7 responseBehind [⟨2, 0, 9, []⟩, ⟨1, 0, 8, [0x61]⟩] :=
    ⟨by decide, by decide, by decide, 12, [13, 31, 46], .done 12, hanswers, by rfl⟩
  have hinFront : Accepted 7 responseInFront [⟨1, 0, 8, [0x61]⟩, ⟨2, 0, 9, []⟩] :=
    ⟨by decide, by decide, by decide, 12, [13, 33], .done 12, hanswers', by rfl⟩
  exact srv_selection.2.2 7 7 responseBehind responseInFront _ _ _ hbehind hinFront
    (List.Perm.swap _ _ _) (by decide)
    ⟨_, hbehind, [⟨2, 0, 9, []⟩], [], rfl, by decide, by simp⟩

end Grimnir.Muninn
