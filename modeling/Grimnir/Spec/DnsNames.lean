import Grimnir.ForStd.DnsName
import Grimnir.Spec.DnsSafety

/-!
# The names of the DNS client

The three loops over names against the wire format.  `encode_dns_name` writes it or refuses
the name.  `dns_skip_name` finds where a name ends, `dns_read_name` also spells it out, in at
most 32 rounds: pointers and labels alike take one.

## Key results

- `encodeDnsName_outcome`, `dnsSkipName_endsAt`, `dnsReadName_outcome`: what each loop computes
- `nameRoundTrips_iff`: an encoded name is read back exactly when it has at most 31 labels
- `long_name_unread`: 32 labels of one letter
-/

namespace Grimnir.Muninn

open CAccess Dns

/-- The client and the library mean the same byte. -/
private theorem dot_eq : dot = period := rfl

/-! ## `encode_dns_name` -/

/-- What the encoder leaves when it is at `offset` of `buf` with the labels `ls` to come. -/
inductive EncodeOutcome (buf : List UInt8) (offset : Nat) (ls : List (List UInt8)) :
    List UInt8 × Option Nat → Prop where
  | encoded (hfits : ∀ l ∈ ls, Fits l) (hroom : offset + (wire ls).length ≤ buf.length) :
      EncodeOutcome buf offset ls
        (overwrite buf offset (wire ls), some (offset + (wire ls).length))
  | refused (buf' : List UInt8)
      (h : (∃ l ∈ ls, ¬Fits l) ∨ buf.length < offset + (wire ls).length) :
      EncodeOutcome buf offset ls (buf', none)

/-- With no label to come, the name is closed by a zero. -/
private theorem closeName_outcome (buf : List UInt8) (offset : Nat) :
    Safe (closeName buf offset) (EncodeOutcome buf offset []) := by
  unfold closeName
  split
  · exact Safe.pure (.refused _ (.inr (Nat.lt_succ_of_le (by assumption))))
  · rename_i hroom
    refine (safe_store (show offset < buf.length by omega) 0).bind ?_
    rintro _ rfl
    rw [set_eq_overwrite (by omega)]
    exact Safe.pure (.encoded (by simp) (by simp [wire]; omega))

/-- One label and what comes after it. -/
theorem EncodeOutcome.cons {buf l : List UInt8} {ls : List (List UInt8)} {offset : Nat}
    (hfits : Fits l) (hroom : offset + 1 + l.length ≤ buf.length) {r : List UInt8 × Option Nat}
    (h : EncodeOutcome (overwrite buf offset (UInt8.ofNat l.length :: l))
      (offset + 1 + l.length) ls r) :
    EncodeOutcome buf offset (l :: ls) r := by
  have hlength := length_wire_cons l ls
  have hpiece : (UInt8.ofNat l.length :: l).length = 1 + l.length := by
    rw [List.length_cons, Nat.add_comm]
  have hbuf : (overwrite buf offset (UInt8.ofNat l.length :: l)).length = buf.length :=
    length_overwrite (by omega)
  -- the labels to come were encoded behind this one, or refused
  cases h with
  | encoded hrest hfit =>
    -- the label and what follows it are one piece of the buffer
    have hwire : overwrite (overwrite buf offset (UInt8.ofNat l.length :: l))
        (offset + 1 + l.length) (wire ls) = overwrite buf offset (wire (l :: ls)) := by
      rw [Nat.add_assoc, ← hpiece, overwrite_append (by omega), wire_cons]
      rfl
    have hend : offset + 1 + l.length + (wire ls).length = offset + (wire (l :: ls)).length := by
      omega
    rw [hwire, hend]
    exact .encoded (List.forall_mem_cons.mpr ⟨hfits, hrest⟩) (by omega)
  -- what is refused later is refused for the same reason here
  | refused buf' hrest =>
    refine .refused _ ?_
    cases hrest with
    | inl hbad =>
      obtain ⟨l', hl', hunfit⟩ := hbad
      exact .inl ⟨l', List.mem_cons_of_mem l hl', hunfit⟩
    | inr hlong => exact .inr (by omega)

/-- A name without a period is one label. -/
private theorem takeWhile_of_not_mem {name : List UInt8} (h : period ∉ name) :
    name.takeWhile (· != dot) = name := by
  apply List.takeWhile_eq_self_iff.mpr
  intro b hb
  rw [bne_iff_ne]
  rintro rfl
  exact h hb

/-- The first label ends before the first period. -/
private theorem takeWhile_append_period {l : List UInt8} (h : period ∉ l) (name : List UInt8) :
    (l ++ period :: name).takeWhile (· != dot) = l := by
  rw [List.takeWhile_append_of_pos]
  · simp [dot_eq]
  · intro b hb
    rw [bne_iff_ne]
    rintro rfl
    exact h hb

/-- A label that cannot go on the wire, or not into the buffer. -/
theorem EncodeOutcome.refuse {buf l : List UInt8} {offset : Nat} (ls : List (List UInt8))
    (h : l.length = 0 ∨ l.length > dnsMaxLabelLen ∨ offset + l.length + 1 ≥ buf.length) :
    EncodeOutcome buf offset (l :: ls) (buf, none) := by
  refine .refused buf ?_
  rcases h with hempty | hlong | hroom
  · exact .inl ⟨l, List.mem_cons_self, fun hfits =>
      hfits.1 (List.length_eq_zero_iff.mp hempty)⟩
  · exact .inl ⟨l, List.mem_cons_self, fun hfits => absurd hfits.2 (Nat.not_le_of_gt hlong)⟩
  · right
    have hrest := length_flatMap_period ls
    rw [length_wire_cons]
    omega

/-- A label that passes the three tests, its length byte and its bytes. -/
private theorem putLabel {buf l : List UInt8} {offset : Nat}
    (h : ¬(l.length = 0 ∨ l.length > dnsMaxLabelLen ∨ offset + l.length + 1 ≥ buf.length)) :
    Fits l ∧ offset + 1 + l.length < buf.length ∧
      overwrite (buf.set offset (UInt8.ofNat l.length)) (offset + 1) l =
        overwrite buf offset (UInt8.ofNat l.length :: l) := by
  have hmax : dnsMaxLabelLen = 63 := rfl
  have hbyte : offset + [UInt8.ofNat l.length].length ≤ buf.length := by
    rw [List.length_singleton]
    omega
  refine ⟨⟨?_, by omega⟩, by omega, ?_⟩
  · rintro rfl
    exact h (.inl rfl)
  · rw [set_eq_overwrite (by omega)]
    exact overwrite_append hbyte l

/-- The encoder, by induction on the bytes of the name that are left. -/
private theorem encodeLabels_outcome (buf : List UInt8) (offset : Nat) (label : List UInt8) :
    Safe (encodeLabels buf offset label) (EncodeOutcome buf offset (labels label)) := by
  -- by induction on the labels of the name
  induction label using name_induction generalizing buf offset with
  | nil =>
    rw [encodeLabels, dif_pos rfl]
    exact closeName_outcome buf offset
  | last label hne hdot =>
    rw [encodeLabels, dif_neg hne, takeWhile_of_not_mem hdot, labels_of_not_mem hne hdot]
    dsimp only
    -- the label is refused for its length, or for the room it needs
    split
    · rename_i hbad
      exact Safe.pure (.refuse [] hbad)
    · rename_i hok
      -- its length and its bytes are written, and the name is closed behind them
      obtain ⟨hfits, hroom, hput⟩ := putLabel hok
      refine (safe_store (show offset < buf.length by omega) _).bind ?_
      rintro _ rfl
      refine (safe_copyTo (by rw [List.length_set]; omega)).bind fun buf' hbuf' => ?_
      rw [if_pos rfl, hbuf'.1, hput]
      exact (closeName_outcome _ _).mono fun r hr => hr.cons hfits (Nat.le_of_lt hroom)
  | label l name hl ih =>
    have hne : l ++ period :: name ≠ [] := by simp
    have hlonger : (l ++ period :: name).length ≠ l.length := by simp
    -- what follows the period is encoded next
    have hrest : (l ++ period :: name).drop (l.length + 1) = name := by
      rw [List.drop_append]
      simp
    rw [encodeLabels, dif_neg hne, takeWhile_append_period hl, labels_append_cons hl]
    dsimp only
    split
    · rename_i hbad
      exact Safe.pure (.refuse _ hbad)
    -- the label fits, and the rest of the name is encoded behind it
    · rename_i hok
      obtain ⟨hfits, hroom, hput⟩ := putLabel hok
      refine (safe_store (show offset < buf.length by omega) _).bind ?_
      rintro _ rfl
      refine (safe_copyTo (by rw [List.length_set]; omega)).bind fun buf' hbuf' => ?_
      rw [hbuf'.1, hput, hrest]
      exact (ih _ _).mono fun r hr => hr.cons hfits (Nat.le_of_lt hroom)

/-- `encode_dns_name` writes the wire form of the labels, or refuses the name. -/
theorem encodeDnsName_outcome (buf name : List UInt8) :
    Safe (encodeDnsName buf name) (EncodeOutcome buf 0 (labels name)) :=
  encodeLabels_outcome buf 0 name

/-! ## `dns_skip_name` -/

/-- The reader finds the end of a name exactly where it is. -/
private theorem skipLabels_endsAt (packet : List UInt8) {jumps : Nat} (hjumps : jumps ≤ 15)
    (current : Nat) :
    Safe (skipLabels packet jumps current) fun found =>
      ∀ next, found = some next ↔ EndsAt packet current next := by
  -- by induction on the bytes of the packet that are left
  induction hn : packet.length - current using Nat.strongRecOn generalizing current with
  | ind n ih =>
    rw [skipLabels]
    split
    · rename_i hin
      refine (safe_load hin).bind fun len hlen => ?_
      -- the byte read decides whether the name ends here
      have hstep := fun next => @endsAt_iff packet current next len hlen
      split
      -- a zero ends the name
      · rename_i hzero
        refine Safe.pure fun next => ?_
        rw [hstep, if_pos hzero, Option.some_inj, eq_comm]
      · rename_i hzero
        simp only [if_neg hzero] at hstep
        split
        -- a pointer: the name ends behind it
        · rename_i hpointer
          simp only [if_pos hpointer] at hstep
          -- a pointer whose second byte is outside the packet ends nowhere
          split
          · rename_i hlast
            refine Safe.pure fun next => ?_
            rw [hstep]
            constructor
            · intro h
              cases h
            · omega
          · rename_i hlast
            refine Safe.pure fun next => ?_
            rw [hstep, Option.some_inj]
            omega
        · rename_i hpointer
          simp only [if_neg hpointer] at hstep
          split
          -- neither a pointer nor a label that fits ends a name
          · rename_i hbad
            refine Safe.pure fun next => ?_
            rw [hstep]
            constructor
            · intro h
              cases h
            · rintro ⟨hplain, hfits, -⟩
              cases hbad with
              | inl hne => exact absurd hplain hne
              | inr hout => omega
          -- the name goes on behind the label
          · rename_i hok
            obtain ⟨hplain, hfits⟩ := not_or.mp hok
            refine (ih _ (by omega) _ rfl).mono fun found hfound next => ?_
            rw [hfound, hstep]
            constructor
            · exact fun hrest => ⟨not_not.mp hplain, by omega, hrest⟩
            · exact fun h => h.2.2
    -- no name begins outside the packet
    · rename_i hout
      refine Safe.pure fun next => ?_
      constructor
      · intro h
        cases h
      · exact fun h => absurd h.lt_length hout

/-- `dns_skip_name` finds the end of the name. -/
theorem dnsSkipName_endsAt (packet : List UInt8) (offset : Nat) :
    Safe (dnsSkipName packet offset) fun found =>
      ∀ next, found = some next ↔ EndsAt packet offset next :=
  skipLabels_endsAt packet (Nat.zero_le 15) offset

/-! ## `dns_read_name` -/

/-- What the reader still writes for `ls` when it has written `written` bytes: a dot comes
    before every label but the first of all. -/
def continued (written : Nat) (ls : List (List UInt8)) : List UInt8 :=
  if written = 0 then text ls else ls.flatMap (period :: ·)

/-- Nothing is written for no label. -/
private theorem continued_nil (written : Nat) : continued written [] = [] := by
  unfold continued
  split <;> rfl

/-- The labels are written one after the other. -/
private theorem continued_cons {l : List UInt8} (hl : l ≠ []) (written : Nat)
    (ls : List (List UInt8)) : continued written (l :: ls) = continued written [l] ++
      continued (written + (continued written [l]).length) ls := by
  have hpos := List.length_pos_iff.mpr hl
  by_cases hwritten : written = 0
  · have hfirst : continued written [l] = l := by simp [continued, hwritten, text_cons]
    have hlater : written + l.length ≠ 0 := by omega
    rw [hfirst, continued, continued, if_pos hwritten, if_neg hlater, text_cons]
  · have hlater : written + (continued written [l]).length ≠ 0 := by omega
    simp only [continued, if_neg hwritten] at hlater ⊢
    rw [if_neg hlater]
    simp

/-- What the reader leaves when it has `rounds` left at `current`. -/
inductive ReadOutcome (packet : List UInt8) (rounds current : Nat) (out : List UInt8)
    (written : Nat) (jumped : Option Nat) : List UInt8 × Option Nat → Prop where
  | read (ls : List (List UInt8)) (next : Nat) (hspell : spell packet rounds current = some ls)
      (hroom : written + (continued written ls).length < out.length)
      (hend : EndsAt packet current next) :
      ReadOutcome packet rounds current out written jumped
        (overwrite out written (continued written ls ++ [0]), some (jumped.getD next))
  | refused (out' : List UInt8)
      (h : ∀ ls, spell packet rounds current = some ls →
        out.length ≤ written + (continued written ls).length) :
      ReadOutcome packet rounds current out written jumped (out', none)

/-- A dot goes before each label but the first. -/
private theorem safe_appendDot_text {out : List UInt8} {written : Nat}
    (hroom : written < out.length) : Safe (appendDot out written) fun r =>
      if written = 0 then r = (out, some written)
      else if out.length ≤ written + 1 then r.2 = none
      else r = (overwrite out written [period], some (written + 1)) := by
  unfold appendDot
  by_cases hwritten : written = 0
  · rw [if_neg (not_not.mpr hwritten)]
    exact Safe.pure (by rw [if_pos hwritten])
  · rw [if_pos hwritten]
    by_cases hfull : out.length ≤ written + 1
    · rw [if_pos hfull]
      exact Safe.pure (by rw [if_neg hwritten, if_pos hfull])
    · rw [if_neg hfull]
      refine (safe_store hroom dot).bind ?_
      rintro _ rfl
      rw [set_eq_overwrite hroom]
      exact Safe.pure (by rw [if_neg hwritten, if_neg hfull]; rfl)

/-- The bytes of a label are copied when they have room. -/
private theorem safe_copyLabel {packet out l : List UInt8} {current len written : Nat}
    (hlabel : current + 1 + len ≤ packet.length)
    (hl : (packet.drop (current + 1)).take len = l) :
    Safe (if written + len ≥ out.length then return (out, none)
        else do
          let out ← copyTo out written (← copyFrom packet (current + 1) len)
          return (out, some (written + len))) fun r =>
      if written + l.length < out.length
      then r = (overwrite out written l, some (written + l.length))
      else r.2 = none := by
  have hlen : l.length = len := by
    rw [← hl, List.length_take, List.length_drop]
    omega
  rw [hlen]
  by_cases hfull : written + len ≥ out.length
  · rw [if_pos hfull]
    exact Safe.pure (by rw [if_neg (Nat.not_lt.mpr hfull)])
  · rw [if_neg hfull]
    refine (safe_copyFrom hlabel).bind ?_
    rintro bytes ⟨rfl, -⟩
    rw [hl]
    refine (safe_copyTo (by omega)).bind ?_
    rintro out' ⟨rfl, -⟩
    exact Safe.pure (by rw [if_pos (Nat.not_le.mp hfull)])

/-- A label is appended, with a dot before it unless it is the first one. -/
private theorem safe_appendLabel_text {packet out l : List UInt8} {current len written : Nat}
    (hroom : written < out.length) (hlabel : current + 1 + len ≤ packet.length)
    (hl : (packet.drop (current + 1)).take len = l) :
    Safe (appendLabel packet current len out written) fun r =>
      if written + (continued written [l]).length < out.length
      then r = (overwrite out written (continued written [l]),
        some (written + (continued written [l]).length))
      else r.2 = none := by
  refine (safe_appendDot_text hroom).bind ?_
  rintro ⟨out', written'⟩ hdot
  by_cases hwritten : written = 0
  · -- the first label
    rw [if_pos hwritten] at hdot
    cases hdot
    have htext : continued written [l] = l := by simp [continued, hwritten, text_cons]
    rw [htext]
    exact safe_copyLabel hlabel hl
  -- every label but the first needs a dot before it
  · rw [if_neg hwritten] at hdot
    have htext : continued written [l] = period :: l := by simp [continued, hwritten]
    rw [htext, List.length_cons]
    -- the dot alone fills the buffer
    by_cases hfull : out.length ≤ written + 1
    · rw [if_pos hfull] at hdot
      dsimp only at hdot
      subst hdot
      exact Safe.pure (by rw [if_neg (by omega)])
    · rw [if_neg hfull] at hdot
      cases hdot
      have hdotRoom : written + [period].length ≤ out.length := by
        rw [List.length_singleton]
        omega
      refine (safe_copyLabel hlabel hl).mono fun r hr => ?_
      -- the dot and the label are one piece
      have hjoin : overwrite (overwrite out written [period]) (written + 1) l =
          overwrite out written (period :: l) := overwrite_append hdotRoom l
      have hend : written + 1 + l.length = written + (l.length + 1) := by omega
      rw [hjoin, hend, length_overwrite hdotRoom] at hr
      exact hr

/-- No name begins past the packet. -/
private theorem spell_eq_none {packet : List UInt8} {i : Nat} (h : packet.length ≤ i)
    (steps : Nat) : spell packet steps i = none := by
  cases steps with
  | zero => rfl
  | succ steps => rw [spell, List.getElem?_eq_none h]

/-- Where no name can be spelled, any failure is right. -/
private theorem ReadOutcome.unspelled {packet out : List UInt8} {rounds current written : Nat}
    {jumped : Option Nat} (h : spell packet rounds current = none) (out' : List UInt8) :
    ReadOutcome packet rounds current out written jumped (out', none) := by
  refine .refused out' ?_
  intro ls hls
  rw [h] at hls
  cases hls

/-- A pointer is followed; the first one says where the name ends. -/
theorem ReadOutcome.pointer {packet out : List UInt8} {rounds current target written : Nat}
    {jumped : Option Nat}
    (hspell : spell packet (rounds + 1) current = spell packet rounds target)
    (hend : EndsAt packet current (current + 2)) {r : List UInt8 × Option Nat}
    (h : ReadOutcome packet rounds target out written (some (jumped.getD (current + 2))) r) :
    ReadOutcome packet (rounds + 1) current out written jumped r := by
  cases h with
  | read ls next hls hroom _ => exact .read ls (current + 2) (hspell.trans hls) hroom hend
  | refused out' h => exact .refused out' fun ls hls => h ls (hspell.symm.trans hls)

/-- A label and what comes after it. -/
theorem ReadOutcome.label {packet out l : List UInt8} {rounds current next₀ written : Nat}
    {jumped : Option Nat} (hl : l ≠ [])
    (hspell : spell packet (rounds + 1) current = (spell packet rounds next₀).map (l :: ·))
    (hend : ∀ next, EndsAt packet next₀ next → EndsAt packet current next)
    (hroom : written + (continued written [l]).length < out.length)
    {r : List UInt8 × Option Nat}
    (h : ReadOutcome packet rounds next₀ (overwrite out written (continued written [l]))
      (written + (continued written [l]).length) jumped r) :
    ReadOutcome packet (rounds + 1) current out written jumped r := by
  have hlength : (overwrite out written (continued written [l])).length = out.length :=
    length_overwrite (Nat.le_of_lt hroom)
  -- the labels behind this one were read, or refused
  cases h with
  | read ls next hls hfits hnext =>
    rw [hls] at hspell
    have htext := continued_cons hl written ls
    have hlong := congrArg List.length htext
    rw [List.length_append] at hlong
    -- they were written behind this one
    have hjoin : overwrite (overwrite out written (continued written [l]))
        (written + (continued written [l]).length)
        (continued (written + (continued written [l]).length) ls ++ [0]) =
          overwrite out written (continued written (l :: ls) ++ [0]) := by
      rw [overwrite_append (Nat.le_of_lt hroom), htext, List.append_assoc]
    rw [hjoin]
    exact .read (l :: ls) next hspell (by omega) (hend next hnext)
  -- a name that is refused further on is refused as a whole
  | refused out' h =>
    refine .refused out' ?_
    intro ls hls
    rw [hspell] at hls
    -- it is spelled with this label first
    obtain ⟨rest, hrest, rfl⟩ := Option.map_eq_some_iff.mp hls
    have hlong := congrArg List.length (continued_cons hl written rest)
    rw [List.length_append] at hlong
    have hfull := h rest hrest
    omega

/-- A label that has no room. -/
theorem ReadOutcome.full {packet out l : List UInt8} {rounds current next₀ written : Nat}
    {jumped : Option Nat} (hl : l ≠ [])
    (hspell : spell packet (rounds + 1) current = (spell packet rounds next₀).map (l :: ·))
    (hfull : out.length ≤ written + (continued written [l]).length) (out' : List UInt8) :
    ReadOutcome packet (rounds + 1) current out written jumped (out', none) := by
  refine .refused out' ?_
  intro ls hls
  rw [hspell] at hls
  obtain ⟨rest, -, rfl⟩ := Option.map_eq_some_iff.mp hls
  have hlong := congrArg List.length (continued_cons hl written rest)
  rw [List.length_append] at hlong
  omega

/-- A label has no room, or is appended and the rest is to be read behind it. -/
private theorem safe_labelStep {packet out : List UInt8} {current written : Nat} {len : UInt8}
    (hlen : packet[current]? = some len) (hzero : len ≠ 0) (hplain : len &&& 0xC0 = 0)
    (hfits : current + 1 + len.toNat ≤ packet.length) (hroom : written < out.length)
    (rounds : Nat) (jumped : Option Nat) :
    Safe (appendLabel packet current len.toNat out written) fun appended =>
      (appended.2 = none ∧
        ∀ out', ReadOutcome packet (rounds + 1) current out written jumped (out', none)) ∨
      ∃ out' written', appended = (out', some written') ∧ written' < out'.length ∧
        ∀ r, ReadOutcome packet rounds (current + 1 + len.toNat) out' written' jumped r →
          ReadOutcome packet (rounds + 1) current out written jumped r := by
  have hspell := spell_label hlen hzero hplain hfits rounds
  have hl : (packet.drop (current + 1)).take len.toNat ≠ [] := by
    have hpos : len.toNat ≠ 0 := fun h => hzero (UInt8.toNat_inj.mp h)
    rw [ne_eq, ← List.length_eq_zero_iff, List.length_take, List.length_drop]
    omega
  refine (safe_appendLabel_text hroom hfits rfl).mono fun appended happended => ?_
  split at happended
  · rename_i hlabel
    cases happended
    refine .inr ⟨_, _, rfl, ?_, fun r hr => ?_⟩
    · rwa [length_overwrite (Nat.le_of_lt hlabel)]
    · exact hr.label hl hspell (fun next hnext => .label hlen hzero hplain hfits hnext) hlabel
  · rename_i hlabel
    exact .inl ⟨happended, .full hl hspell (Nat.not_lt.mp hlabel)⟩

/-- The reader, by induction on the rounds it has left. -/
private theorem readLabels_outcome (packet : List UInt8) (rounds current : Nat) {out : List UInt8}
    {written : Nat} (hroom : written < out.length) (jumped : Option Nat) :
    Safe (readLabels packet rounds current out written jumped)
      (ReadOutcome packet rounds current out written jumped) := by
  -- by induction on the rounds that are left
  induction rounds generalizing current out written jumped with
  | zero => exact Safe.pure (.unspelled rfl out)
  | succ rounds ih =>
    rw [readLabels]
    by_cases hin : current < packet.length
    · rw [if_pos hin]
      refine (safe_load hin).bind fun len hlen => ?_
      -- the root ends the name, and the text is closed by a NUL
      by_cases hzero : len = 0
      · subst hzero
        rw [if_pos rfl]
        refine (safe_store hroom 0).bind ?_
        rintro _ rfl
        have hspell : spell packet (rounds + 1) current = some [] := by simp [spell, hlen]
        have htext : out.set written 0 = overwrite out written (continued written [] ++ [0]) := by
          rw [continued_nil, set_eq_overwrite hroom]
          rfl
        rw [htext]
        exact Safe.pure (.read [] _ hspell (by simpa [continued_nil] using hroom) (.root hlen))
      rw [if_neg hzero]
      -- a pointer is followed; it ends the name where it stands
      by_cases hpointer : len &&& 0xC0 = 0xC0
      · rw [if_pos hpointer]
        -- its second byte has to be in the packet,
        by_cases hlast : current + 1 ≥ packet.length
        · rw [if_pos hlast]
          have hspell : spell packet (rounds + 1) current = none := by
            simp [spell, hlen, hzero, hpointer, hlast]
          exact Safe.pure (.unspelled hspell out)
        rw [if_neg hlast]
        refine (safe_load (show current + 1 < packet.length by omega)).bind fun low hlow => ?_
        have hspell : spell packet (rounds + 1) current =
            spell packet rounds (pointer len low) := by
          simp [spell, hlen, hzero, hpointer, hlow]
        dsimp only
        -- and so has its target
        by_cases hout : pointer len low ≥ packet.length
        · rw [if_pos (show (((len &&& 0x3F).toUInt16 <<< 8) ||| low.toUInt16).toNat ≥ _ from hout)]
          exact Safe.pure (.unspelled (hspell.trans (spell_eq_none hout rounds)) out)
        · rw [if_neg (show ¬(((len &&& 0x3F).toUInt16 <<< 8) ||| low.toUInt16).toNat ≥ _ from hout)]
          have hend : EndsAt packet current (current + 2) := .pointer hlen hpointer (by omega)
          exact (ih _ hroom _).mono fun r hr => hr.pointer hspell hend
      rw [if_neg hpointer]
      -- a byte of another kind spells nothing, and neither does a label that does not fit
      by_cases hbad : len &&& 0xC0 ≠ 0 ∨ current + 1 + len.toNat > packet.length
      · rw [if_pos hbad]
        have hspell : spell packet (rounds + 1) current = none := by
          rw [spell, hlen]
          simp only [if_neg hzero, if_neg hpointer, if_pos hbad]
        exact Safe.pure (.unspelled hspell out)
      rw [if_neg hbad]
      obtain ⟨hplain, hfits⟩ := not_or.mp hbad
      -- a label is appended, and the reader goes on behind it
      refine (safe_labelStep hlen hzero (not_not.mp hplain) (Nat.not_lt.mp hfits) hroom rounds
        jumped).bind ?_
      rintro ⟨out', written'⟩ (⟨hnone, hfull⟩ | ⟨_, _, happended, hroom', hrest⟩)
      · dsimp only at hnone
        subst hnone
        exact Safe.pure (hfull out')
      · cases happended
        exact (ih _ hroom' jumped).mono hrest
    -- a name does not begin outside the packet
    · rw [if_neg hin]
      exact Safe.pure (.unspelled (spell_eq_none (Nat.not_lt.mp hin) _) out)

/-- `dns_read_name` spells out the name and finds where it ends. -/
theorem dnsReadName_outcome (packet : List UInt8) (offset : Nat) (out : List UInt8) :
    Safe (dnsReadName packet offset out) (ReadOutcome packet 32 offset out 0 none) := by
  unfold dnsReadName
  by_cases hempty : out.length = 0
  · rw [if_pos hempty]
    exact Safe.pure (.refused out fun ls _ => by omega)
  · rw [if_neg hempty]
    exact readLabels_outcome packet 32 offset (by omega) none

/-! ## The round trip -/

/-- The name is read from its encoding, wherever in a packet that is. -/
def ReadsBack (name encoding : List UInt8) : Prop :=
  ∀ before after out : List UInt8, out.length = dnsMaxNameLen →
    ∃ out', dnsReadName (before ++ (encoding ++ after)) before.length out =
        .ok (out', some (before.length + encoding.length)) ∧
      0 ∈ out' ∧ cString out' = withoutTrailingDot name

/-- A name is encoded into `buf` or refused for its labels or its length, and an encoding of
    at most 255 bytes is read back. -/
def NameRoundTrips (buf name : List UInt8) : Prop :=
  ∃ buf' encodedLen, encodeDnsName buf name = .ok (buf', encodedLen) ∧
    (encodedLen = none ↔ (∃ l ∈ labels name, l = [] ∨ 63 < l.length) ∨
      buf.length < (wire (labels name)).length) ∧
    ∀ n ∈ encodedLen, n ≤ 255 → ReadsBack name (buf'.take n)

/-- A label is refused for being empty or for being too long. -/
private theorem not_fits_iff {l : List UInt8} : ¬Fits l ↔ l = [] ∨ 63 < l.length := by
  rw [Fits, not_and_or, not_not, Nat.not_le]

/-- Labels on the wire are read back as long as the rounds suffice for them and their end. -/
private theorem readsBack_wire {name : List UInt8} (hname : ∀ b ∈ name, b ≠ 0)
    (hfits : ∀ l ∈ labels name, Fits l) (hlength : (wire (labels name)).length ≤ 255) :
    ReadsBack name (wire (labels name)) ↔ (labels name).length ≤ 31 := by
  have hspell := fun before after => spell_wire hfits before after 32
  constructor
  -- a name of 32 labels takes the reader one round more than it has
  · intro h
    obtain ⟨out', hread, -⟩ := h [] [] (List.replicate dnsMaxNameLen 0) List.length_replicate
    have houtcome := (dnsReadName_outcome _ _ _).of_eq hread
    by_contra hlong
    have hnone := hspell [] []
    rw [if_neg (by omega)] at hnone
    cases houtcome with
    -- a result would spell the name all the same
    | read ls next hls hroom hend => exact absurd (hnone.symm.trans hls) (by simp)
  -- with 31 labels at most the rounds are enough
  · intro hle before after out hout
    have hsome := hspell before after
    rw [if_pos (by omega)] at hsome
    have htext := length_text_lt (labels name)
    have hmax : dnsMaxNameLen = 256 := rfl
    obtain ⟨⟨out', next⟩, hread, houtcome⟩ :=
      dnsReadName_outcome (before ++ (wire (labels name) ++ after)) before.length out
    cases houtcome with
    | read ls next hls hroom hend =>
      cases hsome.symm.trans hls
      cases hend.unique (endsAt_wire hfits before after)
      -- what is written is the text of the name, and its NUL
      have hwritten : overwrite out 0 (continued 0 (labels name) ++ [0]) =
          text (labels name) ++ 0 :: out.drop ((text (labels name)).length + 1) := by
        simp [overwrite, continued]
      -- a name without NUL bytes is read up to the closing one
      have hplain : ∀ b ∈ text (labels name), b ≠ 0 := by
        rw [text_labels]
        intro b hb
        apply hname b
        unfold withoutTrailingDot at hb
        split at hb
        · exact List.dropLast_subset name hb
        · exact hb
      refine ⟨_, hread, ?_, ?_⟩
      · rw [hwritten]
        simp
      · rw [hwritten, cString_append hplain, text_labels]
    -- the text of a name of 255 bytes fits the buffer
    | refused out' h =>
      have hfull := h _ hsome
      have hfirst : continued 0 (labels name) = text (labels name) := if_pos rfl
      rw [hfirst] at hfull
      omega

/-- What the encoder left is the wire form. -/
private theorem take_overwrite (buf src : List UInt8) :
    (overwrite buf 0 src).take src.length = src := by
  simp [overwrite]

/-- A name of more than 31 labels is encoded all the same, and then not read back. -/
private theorem not_nameRoundTrips {buf name : List UInt8} (hname : ∀ b ∈ name, b ≠ 0)
    (hfits : ∀ l ∈ labels name, Fits l)
    (hshort : (wire (labels name)).length ≤ min buf.length 255)
    (hlong : 31 < (labels name).length) : ¬NameRoundTrips buf name := by
  rintro ⟨buf', encodedLen, hencode, -, hread⟩
  cases (encodeDnsName_outcome buf name).of_eq hencode with
  | encoded _ hroom =>
    rw [Nat.zero_add] at hread
    have hback := hread _ rfl (by omega)
    rw [take_overwrite] at hback
    have hle := (readsBack_wire hname hfits (by omega)).mp hback
    omega
  | refused buf' hrefused =>
    rcases hrefused with ⟨l, hl, hunfit⟩ | hfull
    · exact hunfit (hfits l hl)
    · omega

/-- A name is encoded or refused as it should be, and read back exactly when it has at most
    31 labels. -/
theorem nameRoundTrips_iff (buf : List UInt8) {name : List UInt8} (hname : ∀ b ∈ name, b ≠ 0) :
    NameRoundTrips buf name ↔ ((∀ l ∈ labels name, Fits l) →
      (wire (labels name)).length ≤ min buf.length 255 → (labels name).length ≤ 31) := by
  constructor
  -- too many labels in a short encoding refute the round trip
  · intro h hfits hshort
    by_contra hlong
    exact not_nameRoundTrips hname hfits hshort (by omega) h
  intro hle
  obtain ⟨⟨buf', encodedLen⟩, hencode, houtcome⟩ := encodeDnsName_outcome buf name
  refine ⟨buf', encodedLen, hencode, ?_⟩
  simp only [← not_fits_iff]
  -- the name was encoded, or refused for a label or its length
  cases houtcome with
  | encoded hfits hroom =>
    rw [Nat.zero_add] at hroom ⊢
    constructor
    · refine ⟨fun h => absurd h (Option.some_ne_none _), ?_⟩
      rintro (⟨l, hl, hbad⟩ | hlong)
      · exact absurd (hfits l hl) hbad
      · omega
    -- the encoding stands alone in its buffer, and is read back from any place
    · intro n hn hshort
      cases hn
      rw [take_overwrite]
      exact (readsBack_wire hname hfits hshort).mpr (hle hfits (by omega))
  | refused buf' h =>
    rw [Nat.zero_add] at h
    exact ⟨⟨fun _ => h, fun _ => rfl⟩, fun n hn => absurd hn (Option.not_mem_none n)⟩

/-- `a.b.` in a buffer of 500 bytes. -/
theorem nameRoundTrips_iff_two :
    NameRoundTrips (List.replicate 500 0) [0x61, 0x2E, 0x62, 0x2E] ↔
      ((∀ l ∈ labels [0x61, 0x2E, 0x62, 0x2E], Fits l) →
        (wire (labels [0x61, 0x2E, 0x62, 0x2E])).length ≤
          min (List.replicate 500 (0 : UInt8)).length 255 →
        (labels [0x61, 0x2E, 0x62, 0x2E]).length ≤ 31) :=
  nameRoundTrips_iff (List.replicate 500 0) (by simp)

/-- 32 labels of one letter are 65 bytes on the wire, which are not read back. -/
theorem long_name_unread :
    ¬∀ buf name : List UInt8, (∀ b ∈ name, b ≠ 0) → NameRoundTrips buf name := by
  intro h
  -- 32 labels of one byte: short enough, but one too many
  have hlabels : labels (text (List.replicate 32 [0x61])) = List.replicate 32 [0x61] :=
    labels_text fun l hl => by
      rw [List.eq_of_mem_replicate hl]
      decide
  have hplain : ∀ b ∈ text (List.replicate 32 [(0x61 : UInt8)]), b ≠ 0 := by
    intro b hb
    rcases mem_text hb with rfl | ⟨l, hl, hbl⟩
    · decide
    · rw [List.eq_of_mem_replicate hl, List.mem_singleton] at hbl
      rw [hbl]
      decide
  refine not_nameRoundTrips hplain ?_ ?_ ?_ (h (List.replicate 500 0) _ hplain)
  · rw [hlabels]
    intro l hl
    rw [List.eq_of_mem_replicate hl]
    exact ⟨by decide, by decide⟩
  -- they take 65 bytes on the wire
  · have hwire : (wire (List.replicate 32 [(0x61 : UInt8)])).length = 65 := by decide
    rw [hlabels, hwire, List.length_replicate]
    decide
  · rw [hlabels, List.length_replicate]
    decide

end Grimnir.Muninn
