import Grimnir.ForStd.Blocks
import Mathlib.Data.List.SplitBy
import Mathlib.Order.Lattice

/-!
# Spans of a log

`splitBy r` cuts a log where `r` does not relate an entry to the next one.  The lemmas say what
one more entry at the end of the log does: it starts a span of its own, or it goes to the last
span.

## Key results

- `splitBy_concat`: the two cases
- `forall_tail_of_mem_splitBy` / `eq_of_mem_splitBy`: what a span has in common
- `SpansCut.append`: spans cut into blocks, kept up entry by entry
- `le_or_le_of_adjacent` / `exists_adjacent_of_between`: what lies between two neighbours
-/

namespace List

variable {α β : Type} {r : α → α → Bool} {l s : List α} {a : α}

/-- A single item is a span of its own. -/
theorem splitBy_singleton (a : α) : [a].splitBy r = [[a]] :=
  splitBy_of_isChain (cons_ne_nil a []) (isChain_singleton a)

/-- An entry that the last one is not related to starts a span. -/
theorem splitBy_concat_new (h : ∀ x ∈ l.getLast?, r x a = false) :
    (l ++ [a]).splitBy r = l.splitBy r ++ [[a]] := by
  rw [splitBy_append_cons [] h, splitBy_singleton]

/-- An entry that the last one is related to goes to the last span. -/
theorem splitBy_concat_same {x : α} (hx : x ∈ l.getLast?) (h : r x a = true) :
    ∃ spans s, l.splitBy r = spans ++ [s] ∧ s.getLast? = some x ∧
      (l ++ [a]).splitBy r = spans ++ [s ++ [a]] := by
  have hl : l ≠ [] := by
    intro hnil
    rw [hnil] at hx
    cases hx
  obtain ⟨spans, s, hsplit⟩ : ∃ spans s, l.splitBy r = spans ++ [s] :=
    ⟨_, _, (dropLast_append_getLast (splitBy_ne_nil.mpr hl)).symm⟩
  have hmem : ∀ m ∈ spans ++ [s], m ∈ l.splitBy r := fun m hm => hsplit ▸ hm
  -- the last span is not empty, so it ends with the last entry
  have hs : s ≠ [] := ne_nil_of_mem_splitBy (hmem s (by simp))
  have hflat : spans.flatten ++ s = l := by
    rw [← flatten_splitBy r l, hsplit]
    simp
  have hlast : s.getLast? = some x := by
    rw [← hflat, getLast?_append_of_ne_nil _ hs] at hx
    exact hx
  have hchain := isChain_getLast_head_splitBy r l
  rw [hsplit] at hchain
  refine ⟨spans, s, hsplit, hlast, ?_⟩
  -- joined, nonempty, related within and broken between: these determine the spans
  rw [splitBy_eq_iff]
  refine ⟨?_, ?_, ?_, ?_⟩
  · rw [← hflat]
    simp
  · intro hnil
    rw [mem_append, mem_singleton] at hnil
    cases hnil with
    | inl hin => exact nil_notMem_splitBy r l (hmem [] (mem_append_left _ hin))
    | inr heq => simp at heq
  · intro m hm
    rw [mem_append, mem_singleton] at hm
    cases hm with
    | inl hin => exact isChain_of_mem_splitBy (hmem m (mem_append_left _ hin))
    | inr heq =>
      rw [heq, isChain_append]
      refine ⟨isChain_of_mem_splitBy (hmem s (by simp)), isChain_singleton a, ?_⟩
      intro y hy b hb
      rw [hlast] at hy
      cases hy
      cases hb
      exact h
  · -- the last span starts as before
    rw [isChain_append] at hchain ⊢
    refine ⟨hchain.1, isChain_singleton _, ?_⟩
    intro y hy b hb
    cases hb
    obtain ⟨hne, hne', hbreak⟩ := hchain.2.2 y hy s rfl
    refine ⟨hne, append_ne_nil_of_left_ne_nil hs _, ?_⟩
    rwa [head_append_of_ne_nil hs]

/-- What one more entry does: it starts a span, or it goes to the last one. -/
theorem splitBy_concat (r : α → α → Bool) (l : List α) (a : α) :
    ((∀ x ∈ l.getLast?, r x a = false) ∧ (l ++ [a]).splitBy r = l.splitBy r ++ [[a]]) ∨
      ∃ x spans s, x ∈ l.getLast? ∧ r x a = true ∧ l.splitBy r = spans ++ [s] ∧
        (l ++ [a]).splitBy r = spans ++ [s ++ [a]] := by
  cases hlast : l.getLast? with
  | none =>
    have hnone : ∀ x ∈ l.getLast?, r x a = false := by simp [hlast]
    exact .inl ⟨by simp, splitBy_concat_new hnone⟩
  | some x =>
    cases hr : r x a with
    | false =>
      have hfalse : ∀ y ∈ l.getLast?, r y a = false := by
        intro y hy
        rw [hlast] at hy
        cases hy
        exact hr
      rw [hlast] at hfalse
      exact .inl ⟨hfalse, splitBy_concat_new (by rw [hlast]; exact hfalse)⟩
    | true =>
      obtain ⟨spans, s, hsplit, -, hconcat⟩ := splitBy_concat_same hlast hr
      exact .inr ⟨x, spans, s, rfl, hr, hsplit, hconcat⟩

/-- What `r` says of the later one of two entries holds behind the first entry of a span. -/
theorem forall_tail_of_mem_splitBy {p : α → Prop} (hp : ∀ x y, r x y = true → p y)
    (h : s ∈ l.splitBy r) : ∀ y ∈ s.tail, p y := by
  have hchain := isChain_of_mem_splitBy h
  clear h
  induction s with
  | nil => simp
  | cons x s ih =>
    cases s with
    | nil => simp
    | cons y s =>
      rw [isChain_cons_cons] at hchain
      intro z hz
      cases hz with
      | head => exact hp x y hchain.1
      | tail _ hin => exact ih hchain.2 z hin

/-- What `r` says two entries have in common, all entries of a span have. -/
theorem eq_of_mem_splitBy {f : α → β} (hf : ∀ x y, r x y = true → f x = f y)
    (h : s ∈ l.splitBy r) : ∀ x ∈ s, ∀ y ∈ s, f x = f y := by
  have hchain := isChain_of_mem_splitBy h
  -- along the chain `f` keeps the value of the first entry
  have hall : ∀ (s : List α) (x : α), (x :: s).IsChain (fun x y => r x y = true) →
      ∀ y ∈ s, f x = f y := by
    intro s
    induction s with
    | nil => simp
    | cons y s ih =>
      intro x hchain z hz
      rw [isChain_cons_cons] at hchain
      have hxy := hf x y hchain.1
      cases hz with
      | head => exact hxy
      | tail _ hin => exact hxy.trans (ih y hchain.2 z hin)
  cases s with
  | nil => simp
  | cons x s =>
    have hfirst : ∀ y ∈ x :: s, f x = f y := by
      intro y hy
      cases hy with
      | head => rfl
      | tail _ hin => exact hall s x hchain y hin
    intro y hy z hz
    exact (hfirst y hy).symm.trans (hfirst z hz)

/-! ## Spans cut into blocks -/

/-- `bs` are the blocks of the spans of `l`, and `rest` is what the last span leaves over. -/
structure SpansCut (r : α → α → Bool) (w : Nat) (l : List α) (bs : List (List α))
    (rest : List α) : Prop where
  blocks : bs = (l.splitBy r).flatMap (List.blocks w)
  empty : l = [] → rest = []
  last : ∀ s ∈ (l.splitBy r).getLast?, ∃ cs, CutInto w s cs rest

/-- Nothing has been cut of the empty list. -/
theorem SpansCut.nil (r : α → α → Bool) (w : Nat) : SpansCut r w [] [] [] :=
  ⟨rfl, fun _ => rfl, fun _ hs => (nomatch hs)⟩

/-- What the last span leaves over is kept for a related entry, and dropped for another. -/
theorem SpansCut.append {w : Nat} (hw : 0 < w) {bs : List (List α)} {rest kept : List α}
    (h : SpansCut r w l bs rest) (a : α)
    (hkept : ∀ x ∈ l.getLast?, kept = if r x a then rest else []) (hnil : l = [] → kept = []) :
    SpansCut r w (l ++ [a]) (bs ++ (pushItem w kept a).1) (pushItem w kept a).2 := by
  cases splitBy_concat r l a with
  | inl hnew =>
    -- a new span starts with nothing left over
    obtain ⟨hbreak, hsplit⟩ := hnew
    have hempty : kept = [] := by
      cases hlast : l.getLast? with
      | none => exact hnil (getLast?_eq_none_iff.mp hlast)
      | some x => rw [hkept x hlast, hbreak x hlast, if_neg Bool.false_ne_true]
    have hcut : CutInto w [a] (pushItem w kept a).1 (pushItem w kept a).2 := by
      rw [hempty]
      exact (CutInto.nil hw).append hw a
    constructor
    · rw [hsplit, flatMap_append, ← h.blocks, flatMap_cons, flatMap_nil, append_nil,
        hcut.blocks_eq hw]
    · intro hcontra
      exact absurd hcontra (append_ne_nil_of_right_ne_nil l (cons_ne_nil a []))
    · intro s hs
      rw [hsplit, getLast?_append_cons] at hs
      cases hs
      exact ⟨_, hcut⟩
  | inr hsame =>
    obtain ⟨x, spans, s, hx, hrel, hold, hsplit⟩ := hsame
    -- the last span grows, and so does what it left over
    have hrest : kept = rest := by rw [hkept x hx, if_pos hrel]
    obtain ⟨cs, hcut⟩ := h.last s (by rw [hold, getLast?_append_cons]; rfl)
    have hgrown := hcut.append hw a
    rw [hrest]
    constructor
    · rw [h.blocks, hsplit, hold, flatMap_append, flatMap_append, flatMap_cons, flatMap_nil,
        append_nil, flatMap_cons, flatMap_nil, append_nil, hgrown.blocks_eq hw,
        hcut.blocks_eq hw, append_assoc]
    · intro hcontra
      exact absurd hcontra (append_ne_nil_of_right_ne_nil l (cons_ne_nil a []))
    · intro t ht
      rw [hsplit, getLast?_append_cons] at ht
      cases ht
      exact ⟨_, hgrown⟩

/-- A span is a contiguous piece of the log. -/
theorem infix_of_mem_splitBy (h : s ∈ l.splitBy r) : s <:+: l := by
  obtain ⟨before, after, hsplit⟩ := append_of_mem h
  refine ⟨before.flatten, after.flatten, ?_⟩
  rw [← flatten_splitBy r l, hsplit]
  simp

/-- The entries of a contiguous piece are entries of the log, from some place on. -/
theorem exists_getElem?_of_infix (h : s <:+: l) :
    ∃ k, ∀ (i : Nat) a, s[i]? = some a → l[k + i]? = some a := by
  obtain ⟨before, after, rfl⟩ := h
  refine ⟨before.length, fun i a ha => ?_⟩
  have hi : i < s.length := (getElem?_eq_some_iff.mp ha).1
  rw [append_assoc, getElem?_append_right (Nat.le_add_right _ _), Nat.add_sub_cancel_left,
    getElem?_append_left hi]
  exact ha

/-! ## Neighbours -/

section Ascending

variable {κ : Type} [LinearOrder κ] {f : α → κ}

/-- Nothing lies between two neighbours of an ascending list. -/
theorem le_or_le_of_adjacent (h : l.Pairwise fun a b => f a < f b) {n : Nat} {a b x : α}
    (ha : l[n]? = some a) (hb : l[n + 1]? = some b) (hx : x ∈ l) : f x ≤ f a ∨ f b ≤ f x := by
  obtain ⟨m, hm⟩ := getElem?_of_mem hx
  rw [getElem?_eq_some_iff] at ha hb hm
  obtain ⟨hn, rfl⟩ := ha
  obtain ⟨hn', rfl⟩ := hb
  obtain ⟨hm', rfl⟩ := hm
  have hlt := pairwise_iff_getElem.mp h
  -- no place is between the `n`-th and the next one
  by_cases hle : m ≤ n
  · cases Nat.lt_or_eq_of_le hle with
    | inl hbefore => exact .inl (le_of_lt (hlt m n hm' hn hbefore))
    | inr heq => exact .inl (le_of_eq (by simp only [heq]))
  · cases Nat.lt_or_eq_of_le (show n + 1 ≤ m by omega) with
    | inl hbehind => exact .inr (le_of_lt (hlt (n + 1) m hn' hm' hbehind))
    | inr heq => exact .inr (le_of_eq (by simp only [heq]))

/-- The first item of a sorted list is the smallest. -/
theorem head_le_of_mem (h : l.Pairwise fun a b => f a < f b) {a x : α} (ha : a ∈ l.head?)
    (hx : x ∈ l) : f a ≤ f x := by
  cases l with
  | nil => cases hx
  | cons b l =>
    cases ha
    cases hx with
    | head => exact le_rfl
    | tail _ hin => exact le_of_lt (rel_of_pairwise_cons h hin)

/-- The last item of a sorted list is the largest. -/
theorem le_getLast_of_mem (h : l.Pairwise fun a b => f a < f b) {a x : α}
    (ha : a ∈ l.getLast?) (hx : x ∈ l) : f x ≤ f a := by
  obtain ⟨l', rfl⟩ := getLast?_eq_some_iff.mp ha
  cases mem_append.mp hx with
  | inl hin => exact le_of_lt ((pairwise_append.mp h).2.2 x hin a (mem_singleton.mpr rfl))
  | inr hin => exact le_of_eq (congrArg f (mem_singleton.mp hin))

/-- What lies within a list is the key of one of its entries, or between two neighbours. -/
theorem exists_adjacent_of_between {k : κ} (hfirst : ∀ a ∈ l.head?, f a ≤ k)
    (hlast : ∀ a ∈ l.getLast?, k ≤ f a) (hl : l ≠ []) :
    (∃ a ∈ l, f a = k) ∨ ∃ n a b, l[n]? = some a ∧ l[n + 1]? = some b ∧ f a < k ∧ k < f b := by
  -- walk until the next entry lies beyond `k`
  induction l with
  | nil => exact absurd rfl hl
  | cons a l ih =>
    cases lt_or_eq_of_le (hfirst a rfl) with
    | inr heq => exact .inl ⟨a, mem_cons_self, heq⟩
    | inl hlt =>
      cases l with
      | nil => exact absurd (hlast a rfl) (not_le.mpr hlt)
      | cons b l =>
        cases lt_or_ge k (f b) with
        | inl hnext => exact .inr ⟨0, a, b, rfl, rfl, hlt, hnext⟩
        | inr hle =>
          -- the rest of the list still has `k` within it
          have hhead : ∀ c ∈ (b :: l).head?, f c ≤ k := by
            intro c hc
            cases hc
            exact hle
          cases ih hhead hlast (cons_ne_nil b l) with
          | inl hmem =>
            obtain ⟨c, hc, heq⟩ := hmem
            exact .inl ⟨c, mem_cons_of_mem a hc, heq⟩
          | inr hbetween =>
            obtain ⟨n, c, d, hc, hd, hcd⟩ := hbetween
            exact .inr ⟨n + 1, c, d, hc, hd, hcd⟩

end Ascending

end List
