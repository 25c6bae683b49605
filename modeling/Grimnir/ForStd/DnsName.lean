import Mathlib.Data.List.Basic

/-!
# Domain names on the wire

A name is its labels.  As text they stand between dots, in a packet each follows its length
and an empty label ends the name; the end may also be a pointer to an earlier place.

`spell` reads the labels of a name, `EndsAt` says where the name ends in the packet.  The
reader makes a bounded number of steps, since pointers may form a loop.

## Key results

- `text_labels`: the labels of a name joined by dots are the name without its trailing dot
- `spell_wire`: the labels on the wire are read back, one step for each and one for the end
- `endsAt_wire`: they end where the wire form does
- `EndsAt.unique`, `EndsAt.advances`: a name has one end, behind its start and in the packet
-/

namespace Dns

/-- The character `.`. -/
def period : UInt8 := 0x2E

/-- The labels of a name in text form; a dot at the end adds none. -/
def labels (name : List UInt8) : List (List UInt8) :=
  let pieces := name.splitOn period
  if pieces.getLast? = some [] then pieces.dropLast else pieces

/-- The text form of a name. -/
def text (ls : List (List UInt8)) : List UInt8 := [period].intercalate ls

/-- The name without the dot at its end, if it has one there. -/
def withoutTrailingDot (name : List UInt8) : List UInt8 :=
  if name.getLast? = some period then name.dropLast else name

/-- The name in a packet. -/
def wire (ls : List (List UInt8)) : List UInt8 :=
  ls.flatMap (fun l => UInt8.ofNat l.length :: l) ++ [0]

/-- A label that the wire format can hold. -/
def Fits (l : List UInt8) : Prop := l ≠ [] ∧ l.length ≤ 63

/-- The offset that a compression pointer holds. -/
def pointer (len low : UInt8) : Nat := (((len &&& 0x3F).toUInt16 <<< 8) ||| low.toUInt16).toNat

/-- The labels of the name at `i`, read in at most `steps` steps. -/
def spell (packet : List UInt8) : Nat → Nat → Option (List (List UInt8))
  | 0, _ => none
  | steps + 1, i =>
    match packet[i]? with
    | none => none
    | some len =>
      if len = 0 then some []
      else if len &&& 0xC0 = 0xC0 then
        match packet[i + 1]? with
        | none => none
        | some low => spell packet steps (pointer len low)
      else if len &&& 0xC0 ≠ 0 ∨ i + 1 + len.toNat > packet.length then none
      else (spell packet steps (i + 1 + len.toNat)).map
        ((packet.drop (i + 1)).take len.toNat :: ·)

/-- The name at `i` ends before `next`. -/
inductive EndsAt (packet : List UInt8) : Nat → Nat → Prop where
  | root {i : Nat} (h : packet[i]? = some 0) : EndsAt packet i (i + 1)
  | pointer {i : Nat} {len : UInt8} (h : packet[i]? = some len) (hpointer : len &&& 0xC0 = 0xC0)
      (hlow : i + 1 < packet.length) : EndsAt packet i (i + 2)
  | label {i next : Nat} {len : UInt8} (h : packet[i]? = some len) (hlen : len ≠ 0)
      (hplain : len &&& 0xC0 = 0) (hfits : i + 1 + len.toNat ≤ packet.length)
      (rest : EndsAt packet (i + 1 + len.toNat) next) : EndsAt packet i next

/-! ## Text -/

/-- The root has no labels. -/
theorem labels_nil : labels [] = [] := rfl

/-- A name without a dot is one label. -/
theorem labels_of_not_mem {name : List UInt8} (hne : name ≠ []) (h : period ∉ name) :
    labels name = [name] := by
  unfold labels
  rw [List.splitOn_eq_singleton h]
  simp [hne]

/-- The first label ends at the first dot. -/
theorem labels_append_cons {l : List UInt8} (h : period ∉ l) (name : List UInt8) :
    labels (l ++ period :: name) = l :: labels name := by
  have hne := List.splitOn_ne_nil period name
  obtain ⟨first, rest, hpieces⟩ := List.exists_cons_of_ne_nil hne
  unfold labels
  rw [List.splitOn_append_cons_self_of_not_mem h, hpieces]
  simp only [List.getLast?_cons_cons, List.dropLast_cons_cons]
  split <;> rfl

/-- A nonempty name has a label. -/
theorem labels_ne_nil {name : List UInt8} (h : name ≠ []) : labels name ≠ [] := by
  by_cases hdot : period ∈ name
  · obtain ⟨l, rest, rfl, hl⟩ := List.eq_append_cons_of_mem hdot
    rw [labels_append_cons hl]
    exact List.cons_ne_nil _ _
  · rw [labels_of_not_mem h hdot]
    exact List.cons_ne_nil _ _

/-- Names label by label. -/
theorem name_induction {motive : List UInt8 → Prop} (nil : motive [])
    (last : ∀ name, name ≠ [] → period ∉ name → motive name)
    (label : ∀ l name, period ∉ l → motive name → motive (l ++ period :: name))
    (name : List UInt8) : motive name := by
  induction hn : name.length using Nat.strongRecOn generalizing name with
  | ind n ih =>
    by_cases hempty : name = []
    · exact hempty ▸ nil
    by_cases hdot : period ∈ name
    · obtain ⟨l, rest, rfl, hl⟩ := List.eq_append_cons_of_mem hdot
      refine label l rest hl (ih rest.length ?_ rest rfl)
      simp only [List.length_append, List.length_cons] at hn
      omega
    · exact last name hempty hdot

/-- Labels are joined by periods. -/
theorem text_cons_of_ne_nil (l : List UInt8) {ls : List (List UInt8)} (h : ls ≠ []) :
    text (l :: ls) = l ++ period :: text ls := by
  unfold text
  rw [List.intercalate_cons_of_ne_nil h]
  simp

/-- The labels of a name joined by dots are the name without its trailing dot. -/
theorem text_labels (name : List UInt8) : text (labels name) = withoutTrailingDot name := by
  -- the induction follows the labels: nothing, a last label, a label and its dot
  induction name using name_induction with
  | nil => rfl
  | last name hne hdot =>
    have hlast : name.getLast? ≠ some period := fun h => hdot (List.mem_of_getLast? h)
    rw [labels_of_not_mem hne hdot, withoutTrailingDot, if_neg hlast]
    simp [text]
  | label l name hl ih =>
    rw [labels_append_cons hl]
    by_cases hname : name = []
    · -- the dot at the end of `l` is the last character
      subst hname
      simp [labels_nil, text, withoutTrailingDot]
    · have hlabels := labels_ne_nil hname
      have hlast : (l ++ period :: name).getLast? = name.getLast? := by
        rw [List.getLast?_append_of_ne_nil _ (List.cons_ne_nil _ _),
          List.getLast?_cons_of_ne_nil hname]
      have hdrop : (l ++ period :: name).dropLast = l ++ period :: name.dropLast := by
        rw [List.dropLast_append_of_ne_nil (List.cons_ne_nil _ _),
          List.dropLast_cons_of_ne_nil hname]
      rw [text_cons_of_ne_nil l hlabels, ih]
      unfold withoutTrailingDot
      rw [hlast, hdrop]
      split <;> rfl

/-- Each label after the first is preceded by its period. -/
theorem text_cons (l : List UInt8) (ls : List (List UInt8)) :
    text (l :: ls) = l ++ ls.flatMap (period :: ·) := by
  induction ls generalizing l with
  | nil => simp [text]
  | cons l' ls ih =>
    rw [text_cons_of_ne_nil l (List.cons_ne_nil l' ls), ih, List.flatMap_cons]
    simp

/-- The characters of a name are dots and those of its labels. -/
theorem mem_text {b : UInt8} {ls : List (List UInt8)} (h : b ∈ text ls) :
    b = period ∨ ∃ l ∈ ls, b ∈ l := by
  cases ls with
  | nil => cases h
  | cons l ls =>
    rw [text_cons, List.mem_append, List.mem_flatMap] at h
    rcases h with hfirst | ⟨l', hl', hb⟩
    · exact .inr ⟨l, List.mem_cons_self, hfirst⟩
    · cases hb with
      | head => exact .inl rfl
      | tail _ hb => exact .inr ⟨l', List.mem_cons_of_mem l hl', hb⟩

/-- Labels without dots are the labels of their text. -/
theorem labels_text {ls : List (List UInt8)} (h : ∀ l ∈ ls, l ≠ [] ∧ period ∉ l) :
    labels (text ls) = ls := by
  induction ls with
  | nil => rfl
  | cons l ls ih =>
    obtain ⟨⟨hne, hdot⟩, hrest⟩ := List.forall_mem_cons.mp h
    by_cases hls : ls = []
    · subst hls
      rw [text_cons]
      simpa using labels_of_not_mem hne hdot
    · rw [text_cons_of_ne_nil l hls, labels_append_cons hdot, ih hrest]

/-! ## The wire format -/

/-- On the wire each label is preceded by its length. -/
theorem wire_cons (l : List UInt8) (ls : List (List UInt8)) :
    wire (l :: ls) = UInt8.ofNat l.length :: (l ++ wire ls) := by
  simp [wire]

/-- A label takes its own length and one byte for it. -/
theorem length_wire_cons (l : List UInt8) (ls : List (List UInt8)) :
    (wire (l :: ls)).length = 1 + l.length + (wire ls).length := by
  rw [wire_cons]
  simp only [List.length_cons, List.length_append]
  omega

/-- Written with periods, the labels take as much as on the wire, less the final zero byte. -/
theorem length_flatMap_period (ls : List (List UInt8)) :
    (ls.flatMap (period :: ·)).length + 1 = (wire ls).length := by
  induction ls with
  | nil => rfl
  | cons l ls ih =>
    rw [length_wire_cons, List.flatMap_cons, List.length_append, List.length_cons]
    omega

/-- The text of a name is shorter than its wire form. -/
theorem length_text_lt (ls : List (List UInt8)) : (text ls).length < (wire ls).length := by
  cases ls with
  | nil => exact Nat.zero_lt_one
  | cons l ls =>
    have hrest := length_flatMap_period ls
    rw [text_cons, length_wire_cons, List.length_append]
    omega

/-- The length byte of a label is neither the end of a name nor a pointer. -/
theorem Fits.lengthByte {l : List UInt8} (h : Fits l) :
    (UInt8.ofNat l.length).toNat = l.length ∧ UInt8.ofNat l.length ≠ 0 ∧
      UInt8.ofNat l.length &&& 0xC0 = 0 := by
  have hplain : ∀ n < 64, UInt8.ofNat n &&& 0xC0 = 0 := by decide
  have hpos := List.length_pos_iff.mpr h.1
  have hle := h.2
  have htoNat : (UInt8.ofNat l.length).toNat = l.length := by
    rw [UInt8.toNat_ofNat']
    omega
  refine ⟨htoNat, ?_, hplain _ (by omega)⟩
  intro hzero
  rw [hzero] at htoNat
  exact absurd htoNat (by simp; omega)

/-- The step of `spell` over a label. -/
theorem spell_label {packet : List UInt8} {i : Nat} {len : UInt8} (h : packet[i]? = some len)
    (hlen : len ≠ 0) (hplain : len &&& 0xC0 = 0) (hfits : i + 1 + len.toNat ≤ packet.length)
    (steps : Nat) : spell packet (steps + 1) i =
      (spell packet steps (i + 1 + len.toNat)).map
        ((packet.drop (i + 1)).take len.toNat :: ·) := by
  have hpointer : len &&& 0xC0 ≠ 0xC0 := by
    rw [hplain]
    decide
  rw [spell, h]
  simp only [if_neg hlen, if_neg hpointer]
  rw [if_neg]
  rintro (hne | hout)
  · exact hne hplain
  · omega

/-- The labels on the wire are read back, one step for each and one for the end. -/
theorem spell_wire {ls : List (List UInt8)} (hfits : ∀ l ∈ ls, Fits l) (before after : List UInt8)
    (steps : Nat) : spell (before ++ (wire ls ++ after)) steps before.length =
      if ls.length < steps then some ls else none := by
  induction ls generalizing before steps with
  -- the root byte needs one step of its own
  | nil =>
    cases steps with
    | zero => rfl
    | succ steps => simp [spell, wire]
  | cons l ls ih =>
    obtain ⟨hbyte, hlen, hplain⟩ := (hfits l List.mem_cons_self).lengthByte
    -- no step is left for a label that is there
    cases steps with
    | zero => rfl
    | succ steps =>
      have hpacket : before ++ (wire (l :: ls) ++ after) =
          (before ++ UInt8.ofNat l.length :: l) ++ (wire ls ++ after) := by
        simp [wire_cons]
      have hget : (before ++ (wire (l :: ls) ++ after))[before.length]? =
          some (UInt8.ofNat l.length) := by
        simp [wire_cons]
      have hnext : (before ++ UInt8.ofNat l.length :: l).length = before.length + 1 + l.length := by
        simp only [List.length_append, List.length_cons]
        omega
      have hlabel : ((before ++ (wire (l :: ls) ++ after)).drop (before.length + 1)).take
          l.length = l := by
        have hsplit : before ++ (wire (l :: ls) ++ after) =
            (before ++ [UInt8.ofNat l.length]) ++ (l ++ (wire ls ++ after)) := by
          simp [wire_cons]
        rw [hsplit, List.drop_left' (by simp), List.take_left]
      -- the rest is spelled in the same packet, one label further on
      have hrest := ih (fun l' hl' => hfits l' (List.mem_cons_of_mem l hl'))
        (before ++ UInt8.ofNat l.length :: l) steps
      rw [hnext, ← hpacket] at hrest
      have hroom : before.length + 1 + (UInt8.ofNat l.length).toNat ≤
          (before ++ (wire (l :: ls) ++ after)).length := by
        rw [hbyte, hpacket, List.length_append, hnext]
        omega
      rw [spell_label hget hlen hplain hroom, hbyte, hlabel, hrest]
      simp only [List.length_cons, Nat.add_lt_add_iff_right]
      split <;> rfl

/-- A name on the wire ends where its wire form does. -/
theorem endsAt_wire {ls : List (List UInt8)} (hfits : ∀ l ∈ ls, Fits l)
    (before after : List UInt8) :
    EndsAt (before ++ (wire ls ++ after)) before.length (before.length + (wire ls).length) := by
  induction ls generalizing before with
  -- the root byte, or one label and the end of the rest
  | nil => exact .root (by simp [wire])
  | cons l ls ih =>
    obtain ⟨hbyte, hlen, hplain⟩ := (hfits l List.mem_cons_self).lengthByte
    have hpacket : before ++ (wire (l :: ls) ++ after) =
        (before ++ UInt8.ofNat l.length :: l) ++ (wire ls ++ after) := by
      simp [wire_cons]
    have hnext : (before ++ UInt8.ofNat l.length :: l).length = before.length + 1 + l.length := by
      simp only [List.length_append, List.length_cons]
      omega
    have hrest := ih (fun l' hl' => hfits l' (List.mem_cons_of_mem l hl'))
      (before ++ UInt8.ofNat l.length :: l)
    rw [hnext, ← hpacket] at hrest
    have hend : before.length + (wire (l :: ls)).length =
        before.length + 1 + l.length + (wire ls).length := by
      rw [length_wire_cons]
      omega
    rw [hend]
    refine .label (by simp [wire_cons]) hlen hplain ?_ (hbyte.symm ▸ hrest)
    rw [hbyte, hpacket, List.length_append, hnext]
    omega

/-! ## The end of a name -/

variable {packet : List UInt8}

/-- One step towards the end of a name. -/
theorem endsAt_iff {i next : Nat} {len : UInt8} (h : packet[i]? = some len) :
    EndsAt packet i next ↔
      if len = 0 then next = i + 1
      else if len &&& 0xC0 = 0xC0 then i + 1 < packet.length ∧ next = i + 2
      else len &&& 0xC0 = 0 ∧ i + 1 + len.toNat ≤ packet.length ∧
        EndsAt packet (i + 1 + len.toNat) next := by
  -- the three cases of an end are told apart by the two high bits of `len`
  constructor
  · intro hend
    cases hend with
    | root h' =>
      cases h.symm.trans h'
      rw [if_pos rfl]
    | pointer h' hpointer hlow =>
      cases h.symm.trans h'
      have hlen : len ≠ 0 := by
        rintro rfl
        exact absurd hpointer (by decide)
      rw [if_neg hlen, if_pos hpointer]
      exact ⟨hlow, rfl⟩
    | label h' hlen hplain hfits rest =>
      cases h.symm.trans h'
      have hpointer : len &&& 0xC0 ≠ 0xC0 := by
        rw [hplain]
        decide
      rw [if_neg hlen, if_neg hpointer]
      exact ⟨hplain, hfits, rest⟩
  · intro hstep
    split at hstep
    · rename_i hzero
      subst hzero hstep
      exact .root h
    · rename_i hlen
      split at hstep
      · rename_i hpointer
        obtain ⟨hlow, rfl⟩ := hstep
        exact .pointer h hpointer hlow
      · obtain ⟨hplain, hfits, rest⟩ := hstep
        exact .label h hlen hplain hfits rest

/-- A name ends inside its packet, so it also begins inside it. -/
theorem EndsAt.lt_length {i next : Nat} (h : EndsAt packet i next) : i < packet.length := by
  cases h with
  | root h => exact (List.getElem?_eq_some_iff.mp h).1
  | pointer h _ _ => exact (List.getElem?_eq_some_iff.mp h).1
  | label h _ _ _ _ => exact (List.getElem?_eq_some_iff.mp h).1

/-- The end of a name lies behind its start and inside the packet. -/
theorem EndsAt.advances {i next : Nat} (h : EndsAt packet i next) :
    i < next ∧ next ≤ packet.length := by
  induction h with
  | root h =>
    have := (List.getElem?_eq_some_iff.mp h).1
    omega
  | pointer h hpointer hlow => omega
  | label h hlen hplain hfits rest ih => omega

/-- A name has one end. -/
theorem EndsAt.unique {i next next' : Nat} (h : EndsAt packet i next)
    (h' : EndsAt packet i next') : next = next' := by
  induction h generalizing next' with
  | root h =>
    have hstep := (endsAt_iff h).mp h'
    rw [if_pos rfl] at hstep
    exact hstep.symm
  | pointer h hpointer hlow =>
    have hstep := (endsAt_iff h).mp h'
    split at hstep
    · rename_i hzero
      rw [hzero] at hpointer
      exact absurd hpointer (by decide)
    · exact hstep.2.symm
  | label h hlen hplain hfits rest ih =>
    have hstep := (endsAt_iff h).mp h'
    rw [if_neg hlen, if_neg (by rw [hplain]; decide)] at hstep
    exact ih hstep.2.2

end Dns
