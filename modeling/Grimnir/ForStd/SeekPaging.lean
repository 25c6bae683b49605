import Mathlib.Data.Finset.Card
import Mathlib.Data.List.Sort
import Mathlib.Order.Defs.LinearOrder

/-!
# Seek paging

A collection that changes is read page by page, in the order of a key.  A page holds the
first `n` rows beyond a cursor; when there is one more, the key of its last row is the
cursor of the next page.  The reader sees the collection as it is at each request: `view k`
are its rows at the `k`-th one, in ascending order.  Several rows may have one key; those
that a page leaves of its last row's key are lost.

## Key results

- `ascending_rows`: what is read of distinct keys is strictly ascending
- `mem_rows_of_present`: a complete read holds every key that was there at every request
- `rows_of_constant` / `getElem?_of_constant`: a collection of distinct keys that does not
  change is read in full, cut into pages
- `perm_rows_iff`: whatever its keys are, it is read in full exactly when no two rows of one
  key are on both sides of a cut
- `complete_of_card`: a read of finitely many keys ends
-/

namespace SeekPaging

/-- A page, and the cursor of the next one. -/
structure Page (α κ : Type) where
  rows : List α
  next : Option κ

variable {α κ : Type} [LinearOrder κ] (key : α → κ)

/-- Strictly ascending keys. -/
def Ascending (rows : List α) : Prop := rows.Pairwise fun a b => key a < key b

/-- Ascending keys, equal ones next to each other. -/
def Sorted (rows : List α) : Prop := rows.Pairwise fun a b => key a ≤ key b

/-- The key lies behind the cursor. -/
def Beyond (cursor : Option κ) (x : κ) : Prop := ∀ c ∈ cursor, c < x

instance (cursor : Option κ) (x : κ) : Decidable (Beyond cursor x) :=
  inferInstanceAs (Decidable (∀ c ∈ cursor, c < x))

/-- Past a cursor is strictly past it. -/
theorem beyond_some {c x : κ} : Beyond (some c) x ↔ c < x := by
  simp [Beyond]

/-- What is past a key that is past the cursor is itself past the cursor. -/
theorem Beyond.trans {cursor : Option κ} {c x : κ} (h : Beyond cursor c) (hlt : c < x) :
    Beyond cursor x :=
  fun d hd => lt_trans (h d hd) hlt

/-- The rows behind a cursor. -/
def beyond (cursor : Option κ) (rows : List α) : List α :=
  rows.filter fun a => Beyond cursor (key a)

/-- Without a cursor no row is left out. -/
theorem beyond_none (rows : List α) : beyond key none rows = rows := by
  apply List.filter_eq_self.mpr
  intro a _
  simp [Beyond]

/-- Rows up to the cursor do not lie behind it. -/
theorem beyond_append_of_le {key : α → κ} {c : κ} {old new : List α}
    (h : ∀ a ∈ old, key a ≤ c) : beyond key (some c) (old ++ new) = beyond key (some c) new := by
  have hold : beyond key (some c) old = [] := by
    apply List.filter_eq_nil_iff.mpr
    intro a ha
    simpa [Beyond] using h a ha
  rw [beyond, List.filter_append, ← beyond, hold, List.nil_append, ← beyond]

/-- The page behind a cursor: one row more than it holds is looked up. -/
def page (n : Nat) (cursor : Option κ) (rows : List α) : Page α κ :=
  let found := (beyond key cursor rows).take (n + 1)
  { rows := found.take n
    next := if n < found.length then (found.take n).getLast?.map key else none }

/-- The pages of a read, for at most `fuel` requests from the `k`-th one on. -/
def pages (n : Nat) (view : Nat → List α) : Nat → Nat → Option κ → List (Page α κ)
  | 0, _, _ => []
  | fuel + 1, k, cursor =>
    let p := page key n cursor (view k)
    match p.next with
    | none => [p]
    | some c => p :: pages n view fuel (k + 1) (some c)

/-- The read has reached its last page. -/
def Complete (ps : List (Page α κ)) : Prop := ∃ p ∈ ps.getLast?, p.next = none

/-- The rows of the pages. -/
def rows (ps : List (Page α κ)) : List α := ps.flatMap (·.rows)

variable {key} {n : Nat} {cursor : Option κ} {l : List α}

/-! ## One page -/

/-- A page holds the first `n` rows past the cursor. -/
theorem page_rows : (page key n cursor l).rows = (beyond key cursor l).take n := by
  show ((beyond key cursor l).take (n + 1)).take n = _
  rw [List.take_take, Nat.min_eq_left (Nat.le_succ n)]

/-- The rows past a cursor keep their order. -/
theorem Ascending.beyond (h : Ascending key l) : Ascending key (beyond key cursor l) :=
  h.filter _

/-- The next cursor is the key of the last row, and there is one exactly when rows remain. -/
theorem page_next : (page key n cursor l).next =
    if n < (beyond key cursor l).length then ((beyond key cursor l).take n).getLast?.map key
    else none := by
  have hlen :
      n < ((beyond key cursor l).take (n + 1)).length ↔ n < (beyond key cursor l).length := by
    rw [List.length_take]
    omega
  show (if n < ((beyond key cursor l).take (n + 1)).length then
    (((beyond key cursor l).take (n + 1)).take n).getLast?.map key else none) = _
  simp only [hlen, List.take_take, Nat.min_eq_left (Nat.le_succ n)]

/-- Without a next cursor the page holds all rows that are left. -/
theorem page_next_eq_none (hn : 0 < n) :
    (page key n cursor l).next = none ↔ (beyond key cursor l).length ≤ n := by
  rw [page_next]
  split
  · rename_i hmore
    constructor
    · intro hnone
      rw [Option.map_eq_none_iff, List.getLast?_eq_none_iff, List.take_eq_nil_iff] at hnone
      cases hnone with
      | inl hzero => omega
      | inr hnil =>
        rw [hnil, List.length_nil] at hmore
        omega
    · intro hle
      omega
  · rename_i hmore
    exact ⟨fun _ => by omega, fun _ => rfl⟩

/-- The next cursor is the key of the last row. -/
theorem getLast?_of_page_next {c : κ} (hnext : (page key n cursor l).next = some c) :
    ∃ last, (page key n cursor l).rows.getLast? = some last ∧ key last = c := by
  rw [page_next] at hnext
  split at hnext
  · rw [page_rows]
    exact Option.map_eq_some_iff.mp hnext
  · cases hnext

/-- A next cursor is given only when more than `n` rows are past this one. -/
theorem lt_length_of_page_next {c : κ} (hnext : (page key n cursor l).next = some c) :
    n < (beyond key cursor l).length := by
  rw [page_next] at hnext
  split at hnext
  · assumption
  · cases hnext

/-- The next cursor is the key before the cut. -/
theorem getElem?_of_page_next (hn : 0 < n) {c : κ}
    (hnext : (page key n cursor l).next = some c) :
    ((beyond key cursor l).map key)[n - 1]? = some c := by
  have hlt := lt_length_of_page_next hnext
  obtain ⟨last, hlast, rfl⟩ := getLast?_of_page_next hnext
  rw [page_rows, List.getLast?_eq_getElem?, List.length_take, Nat.min_eq_left (le_of_lt hlt),
    List.getElem?_take_of_lt (by omega)] at hlast
  rw [List.getElem?_map, hlast, Option.map_some]

/-- A row of a page is a row of the table past the cursor. -/
theorem mem_of_mem_page {a : α} (h : a ∈ (page key n cursor l).rows) :
    a ∈ l ∧ Beyond cursor (key a) := by
  rw [page_rows] at h
  obtain ⟨hmem, hcursor⟩ := List.mem_filter.mp (List.mem_of_mem_take h)
  exact ⟨hmem, of_decide_eq_true hcursor⟩

/-- The next cursor lies behind the one before. -/
theorem beyond_of_page_next {c : κ} (hnext : (page key n cursor l).next = some c) :
    Beyond cursor c := by
  obtain ⟨last, hlast, rfl⟩ := getLast?_of_page_next hnext
  exact (mem_of_mem_page (List.mem_of_getLast? hlast)).2

/-- The rows past a cursor stay sorted. -/
theorem Sorted.beyond (h : Sorted key l) : Sorted key (beyond key cursor l) :=
  h.filter _

/-- Strictly ascending rows are sorted. -/
theorem Ascending.sorted (h : Ascending key l) : Sorted key l :=
  h.imp le_of_lt

/-- The next cursor parts the rows of the page from those that it leaves. -/
theorem Sorted.page_next (h : Sorted key l) {c : κ}
    (hnext : (page key n cursor l).next = some c) :
    (∀ a ∈ (page key n cursor l).rows, key a ≤ c) ∧
      ∀ a ∈ (SeekPaging.beyond key cursor l).drop n, c ≤ key a := by
  obtain ⟨last, hlast, rfl⟩ := getLast?_of_page_next hnext
  rw [page_rows] at hlast ⊢
  obtain ⟨init, hinit⟩ := List.getLast?_eq_some_iff.mp hlast
  have hsorted : Sorted key (SeekPaging.beyond key cursor l) := h.beyond
  rw [Sorted, ← List.take_append_drop n (SeekPaging.beyond key cursor l), hinit,
    List.pairwise_append] at hsorted
  obtain ⟨htake, -, hcross⟩ := hsorted
  constructor
  · intro a ha
    rw [hinit] at ha
    cases List.mem_append.mp ha with
    | inl hin => exact (List.pairwise_append.mp htake).2.2 a hin last (List.mem_singleton_self _)
    | inr hin => rw [List.mem_singleton.mp hin]
  · intro a ha
    exact hcross last (List.mem_append_right _ (List.mem_singleton_self _)) a ha

/-- Behind the next cursor are the rows of greater keys that the page leaves. -/
theorem Sorted.beyond_page_next (h : Sorted key l) {c : κ}
    (hnext : (page key n cursor l).next = some c) :
    SeekPaging.beyond key (some c) l =
      SeekPaging.beyond key (some c) ((SeekPaging.beyond key cursor l).drop n) := by
  have hcursor := beyond_of_page_next hnext
  -- past the new cursor is also past the old one
  have hfilter : SeekPaging.beyond key (some c) l =
      SeekPaging.beyond key (some c) (SeekPaging.beyond key cursor l) := by
    unfold SeekPaging.beyond
    rw [List.filter_filter]
    apply List.filter_congr
    intro a _
    rw [Bool.eq_iff_iff, Bool.and_eq_true, decide_eq_true_eq, decide_eq_true_eq, beyond_some]
    exact ⟨fun hlt => ⟨hlt, hcursor.trans hlt⟩, fun hlt => hlt.1⟩
  -- no row of the page is past its own cursor
  have hpage : SeekPaging.beyond key (some c) ((SeekPaging.beyond key cursor l).take n) = [] := by
    apply List.filter_eq_nil_iff.mpr
    intro a ha hlt
    rw [← page_rows] at ha
    exact absurd (beyond_some.mp (of_decide_eq_true hlt)) (not_lt.mpr ((h.page_next hnext).1 a ha))
  rw [hfilter]
  conv_lhs => rw [← List.take_append_drop n (SeekPaging.beyond key cursor l)]
  unfold SeekPaging.beyond at hpage ⊢
  rw [List.filter_append, hpage, List.nil_append]

/-- Of distinct keys, what lies behind the next cursor is what the page leaves. -/
theorem Ascending.beyond_page_next (h : Ascending key l) {c : κ}
    (hnext : (page key n cursor l).next = some c) :
    SeekPaging.beyond key (some c) l = (SeekPaging.beyond key cursor l).drop n := by
  obtain ⟨last, hlast, rfl⟩ := getLast?_of_page_next hnext
  rw [page_rows] at hlast
  obtain ⟨init, hinit⟩ := List.getLast?_eq_some_iff.mp hlast
  have hasc : Ascending key (SeekPaging.beyond key cursor l) := h.beyond
  rw [Ascending, ← List.take_append_drop n (SeekPaging.beyond key cursor l), hinit,
    List.pairwise_append] at hasc
  rw [h.sorted.beyond_page_next hnext]
  apply List.filter_eq_self.mpr
  intro a ha
  exact decide_eq_true (beyond_some.mpr
    (hasc.2.2 last (List.mem_append_right _ (List.mem_singleton_self _)) a ha))

/-! ## A table in the order of its keys -/

variable (key) in
/-- Sorting by the key sorts. -/
theorem pairwise_sorted (l : List α) :
    (l.insertionSort fun a b => key a ≤ key b).Pairwise fun a b => key a ≤ key b := by
  have : Std.Total fun a b : α => key a ≤ key b := ⟨fun a b => le_total _ _⟩
  have : IsTrans α fun a b => key a ≤ key b := ⟨fun a b c => le_trans⟩
  exact List.pairwise_insertionSort _ l

/-- Sorted rows of distinct keys are strictly ascending. -/
theorem Sorted.ascending (h : Sorted key l) (hnodup : (l.map key).Nodup) : Ascending key l := by
  refine List.Pairwise.imp₂ ?_ h (List.pairwise_map.mp hnodup)
  intro a b hle hne
  exact lt_of_le_of_ne hle hne

/-- Sorting rows of distinct keys makes the keys strictly ascend. -/
theorem ascending_sorted (hnodup : (l.map key).Nodup) :
    Ascending key (l.insertionSort fun a b => key a ≤ key b) := by
  have hperm := List.perm_insertionSort (fun a b => key a ≤ key b) l
  exact Sorted.ascending (pairwise_sorted key l) ((hperm.map key).nodup_iff.mpr hnodup)

/-- Inserting a row into those that a filter keeps. -/
theorem filter_orderedInsert {p : α → Bool} {a : α} (h : Sorted key l) :
    (l.orderedInsert (fun a b => key a ≤ key b) a).filter p =
      if p a then (l.filter p).orderedInsert (fun a b => key a ≤ key b) a else l.filter p := by
  -- by induction on the list; the new item goes before the first key that is not smaller
  induction l with
  | nil => by_cases hp : p a = true <;> simp [hp]
  | cons b l ih =>
    obtain ⟨hb, hl⟩ := List.pairwise_cons.mp h
    by_cases hle : key a ≤ key b
    · rw [List.orderedInsert_cons, if_pos hle, List.filter_cons]
      by_cases hp : p a = true
      · rw [if_pos hp, if_pos hp]
        -- what is kept starts with a key that is no smaller
        cases hkept : (b :: l).filter p with
        | nil => rfl
        | cons d kept =>
          have hd : d ∈ b :: l := (List.mem_filter.mp (hkept ▸ List.mem_cons_self)).1
          have had : key a ≤ key d := by
            cases hd with
            | head => exact hle
            | tail _ hin => exact le_trans hle (hb d hin)
          rw [List.orderedInsert_cons, if_pos had]
      · rw [if_neg hp, if_neg hp]
    -- the item goes further back, behind `b`
    · rw [List.orderedInsert_cons, if_neg hle, List.filter_cons, List.filter_cons, ih hl]
      by_cases hp : p a = true
      · by_cases hpb : p b = true
        · simp only [if_pos hp, if_pos hpb, List.orderedInsert_cons, if_neg hle]
        · simp only [if_pos hp, if_neg hpb]
      · simp only [if_neg hp]

/-- It makes no difference whether the rows behind a cursor are taken before sorting. -/
theorem beyond_sorted :
    beyond key cursor (l.insertionSort fun a b => key a ≤ key b) =
      (beyond key cursor l).insertionSort fun a b => key a ≤ key b := by
  unfold beyond
  induction l with
  | nil => rfl
  | cons a l ih =>
    rw [List.insertionSort_cons, filter_orderedInsert (pairwise_sorted key l), ih,
      List.filter_cons]
    split
    · rw [List.insertionSort_cons]
    · rfl

/-! ## A whole read -/

variable {view : Nat → List α}

/-- A page without a next cursor is the last. -/
theorem pages_of_none {fuel k : Nat} (h : (page key n cursor (view k)).next = none) :
    pages key n view (fuel + 1) k cursor = [page key n cursor (view k)] := by
  rw [pages]
  simp only [h]

/-- A page with a next cursor is followed by the page of that cursor. -/
theorem pages_of_some {fuel k : Nat} {c : κ} (h : (page key n cursor (view k)).next = some c) :
    pages key n view (fuel + 1) k cursor =
      page key n cursor (view k) :: pages key n view fuel (k + 1) (some c) := by
  rw [pages]
  simp only [h]

/-- What is read lies behind the cursor. -/
theorem beyond_of_mem_rows {fuel k : Nat} {a : α}
    (ha : a ∈ rows (pages key n view fuel k cursor)) : Beyond cursor (key a) := by
  induction fuel generalizing k cursor with
  | zero => cases ha
  | succ fuel ih =>
    cases hnext : (page key n cursor (view k)).next with
    | none =>
      rw [pages_of_none hnext] at ha
      simp only [rows, List.flatMap_cons, List.flatMap_nil, List.append_nil] at ha
      exact (mem_of_mem_page ha).2
    | some c =>
      rw [pages_of_some hnext] at ha
      simp only [rows, List.flatMap_cons] at ha ih
      cases List.mem_append.mp ha with
      | inl hin => exact (mem_of_mem_page hin).2
      | inr hin => exact (beyond_of_page_next hnext).trans (beyond_some.mp (ih hin))

/-- What is read of distinct keys is strictly ascending. -/
theorem ascending_rows (hview : ∀ k, Ascending key (view k)) (fuel k : Nat) (cursor : Option κ) :
    Ascending key (rows (pages key n view fuel k cursor)) := by
  -- by induction on the fuel, which every page uses up by one
  induction fuel generalizing k cursor with
  | zero => exact List.Pairwise.nil
  | succ fuel ih =>
    have hpage : Ascending key (page key n cursor (view k)).rows := by
      rw [page_rows]
      exact (hview k).beyond.take
    cases hnext : (page key n cursor (view k)).next with
    -- the last page is the whole read
    | none =>
      rw [pages_of_none hnext]
      simp only [rows, List.flatMap_cons, List.flatMap_nil, List.append_nil]
      exact hpage
    | some c =>
      rw [pages_of_some hnext]
      show ((page key n cursor (view k)).rows ++ rows _).Pairwise _
      refine List.pairwise_append.mpr ⟨hpage, ih (k + 1) (some c), ?_⟩
      -- the next pages are about keys past the cursor
      intro a ha b hb
      exact lt_of_le_of_lt (((hview k).sorted.page_next hnext).1 a ha)
        (beyond_some.mp (beyond_of_mem_rows hb))

/-- The `i`-th page is a page of the `i`-th view. -/
theorem exists_page {fuel k i : Nat} {p : Page α κ}
    (h : (pages key n view fuel k cursor)[i]? = some p) :
    ∃ cursor, p = page key n cursor (view (k + i)) := by
  induction fuel generalizing k cursor i with
  | zero => cases h
  | succ fuel ih =>
    cases hnext : (page key n cursor (view k)).next with
    | none =>
      rw [pages_of_none hnext] at h
      cases i with
      | zero => exact ⟨cursor, (Option.some.inj h).symm⟩
      | succ i => cases h
    | some c =>
      rw [pages_of_some hnext] at h
      cases i with
      | zero => exact ⟨cursor, (Option.some.inj h).symm⟩
      | succ i =>
        have hrest : (pages key n view fuel (k + 1) (some c))[i]? = some p := h
        obtain ⟨cursor', hp⟩ := ih hrest
        exact ⟨cursor', by rw [hp, Nat.add_assoc, Nat.add_comm 1 i]⟩

/-- A row that was paged was in the table when some page was read. -/
theorem mem_view_of_mem_rows {fuel k : Nat} {a : α}
    (ha : a ∈ rows (pages key n view fuel k cursor)) : ∃ i, a ∈ view i := by
  obtain ⟨p, hp, hap⟩ := List.mem_flatMap.mp ha
  obtain ⟨i, hi⟩ := List.getElem?_of_mem hp
  obtain ⟨cursor', rfl⟩ := exists_page hi
  exact ⟨k + i, (mem_of_mem_page hap).1⟩

omit [LinearOrder κ] in
/-- A page with a next cursor is not the last one. -/
theorem complete_cons {p : Page α κ} {ps : List (Page α κ)} {c : κ} (h : p.next = some c) :
    Complete (p :: ps) ↔ Complete ps := by
  unfold Complete
  cases ps with
  | nil =>
    constructor
    · intro hcomplete
      obtain ⟨q, hq, hnone⟩ := hcomplete
      obtain rfl : p = q := Option.some.inj hq
      rw [h] at hnone
      cases hnone
    · intro hcomplete
      obtain ⟨q, hq, -⟩ := hcomplete
      cases hq
  | cons q ps => rw [List.getLast?_cons_cons]

/-- A key behind the cursor is on the page, or it lies behind the next cursor. -/
theorem mem_page_or_beyond (hview : Sorted key l) {c : κ}
    (hnext : (page key n cursor l).next = some c) {a : α} (ha : a ∈ l)
    (hcursor : Beyond cursor (key a)) :
    (∃ b ∈ (page key n cursor l).rows, key b = key a) ∨ c < key a := by
  have hmem : a ∈ beyond key cursor l := List.mem_filter.mpr ⟨ha, decide_eq_true hcursor⟩
  rw [← List.take_append_drop n (beyond key cursor l), List.mem_append] at hmem
  cases hmem with
  | inl htake =>
    rw [page_rows]
    exact .inl ⟨a, htake, rfl⟩
  | inr hdrop =>
    cases lt_or_eq_of_le ((hview.page_next hnext).2 a hdrop) with
    | inl hlt => exact .inr hlt
    | inr heq =>
      -- the page leaves the row, but its last one has the same key
      obtain ⟨last, hlast, hkey⟩ := getLast?_of_page_next hnext
      exact .inl ⟨last, List.mem_of_getLast? hlast, hkey.trans heq⟩

/-- A complete read holds every key that was there at every request. -/
theorem mem_rows_of_present (hn : 0 < n) (hview : ∀ k, Sorted key (view k)) {fuel k : Nat}
    (hcomplete : Complete (pages key n view fuel k cursor)) {x : κ} (hx : Beyond cursor x)
    (hpresent : ∀ i < (pages key n view fuel k cursor).length, ∃ a ∈ view (k + i), key a = x) :
    ∃ a ∈ rows (pages key n view fuel k cursor), key a = x := by
  -- by induction on the fuel; the key is followed from page to page
  induction fuel generalizing k cursor with
  | zero =>
    obtain ⟨p, hp, -⟩ := hcomplete
    cases hp
  | succ fuel ih =>
    cases hnext : (page key n cursor (view k)).next with
    | none =>
      -- the last page holds all that is past its cursor
      rw [pages_of_none hnext] at hpresent ⊢
      obtain ⟨a, ha, rfl⟩ := hpresent 0 (by simp)
      have hmem : a ∈ (page key n cursor (view k)).rows := by
        rw [page_rows, List.take_of_length_le ((page_next_eq_none hn).mp hnext)]
        exact List.mem_filter.mpr ⟨ha, decide_eq_true hx⟩
      exact ⟨a, by simpa [rows] using hmem, rfl⟩
    | some c =>
      rw [pages_of_some hnext] at hcomplete hpresent ⊢
      obtain ⟨a, ha, rfl⟩ := hpresent 0 (by simp)
      -- the key is on this page, or it lies behind the next cursor
      cases mem_page_or_beyond (hview k) hnext ha hx with
      | inl hpage =>
        obtain ⟨b, hb, hkey⟩ := hpage
        exact ⟨b, List.mem_append_left _ hb, hkey⟩
      | inr hlt =>
        -- the key was present during the next pages too
        obtain ⟨b, hb, hkey⟩ := ih ((complete_cons hnext).mp hcomplete) (beyond_some.mpr hlt) (by
          intro i hi
          have hlater := hpresent (i + 1) (by simpa using hi)
          rwa [← Nat.add_assoc, Nat.add_right_comm] at hlater)
        exact ⟨b, List.mem_append_right _ hb, hkey⟩

/-! ## A collection that does not change -/

/-- A complete read holds all rows behind the cursor. -/
theorem rows_of_constant (hn : 0 < n) (hasc : Ascending key l) {fuel k : Nat}
    (hcomplete : Complete (pages key n (fun _ => l) fuel k cursor)) :
    rows (pages key n (fun _ => l) fuel k cursor) = beyond key cursor l := by
  induction fuel generalizing k cursor with
  | zero =>
    obtain ⟨p, hp, -⟩ := hcomplete
    cases hp
  | succ fuel ih =>
    cases hnext : (page key n cursor l).next with
    | none =>
      rw [pages_of_none hnext]
      show (page key n cursor l).rows ++ [] = _
      rw [List.append_nil, page_rows,
        List.take_of_length_le ((page_next_eq_none hn).mp hnext)]
    | some c =>
      rw [pages_of_some hnext] at hcomplete ⊢
      show (page key n cursor l).rows ++ rows (pages key n (fun _ => l) fuel (k + 1) (some c)) = _
      rw [ih ((complete_cons hnext).mp hcomplete), hasc.beyond_page_next hnext, page_rows,
        List.take_append_drop]

/-- A read that is not complete holds the first of them. -/
theorem rows_prefix_of_constant (hasc : Ascending key l) (fuel k : Nat)
    (cursor : Option κ) :
    rows (pages key n (fun _ => l) fuel k cursor) <+: beyond key cursor l := by
  induction fuel generalizing k cursor with
  | zero => exact List.nil_prefix
  | succ fuel ih =>
    cases hnext : (page key n cursor l).next with
    | none =>
      rw [pages_of_none hnext]
      show (page key n cursor l).rows ++ [] <+: _
      rw [List.append_nil, page_rows]
      exact List.take_prefix n _
    | some c =>
      rw [pages_of_some hnext]
      show (page key n cursor l).rows ++ rows (pages key n (fun _ => l) fuel (k + 1) (some c)) <+: _
      -- the later pages hold the first rows of what this one leaves
      have hrest := ih (k + 1) (some c)
      rw [hasc.beyond_page_next hnext] at hrest
      have hall := (List.prefix_append_right_inj (page key n cursor l).rows).mpr hrest
      rwa [page_rows, List.take_append_drop, ← page_rows] at hall

/-! ## Rows of one key -/

/-- At no cut into pieces of `n` the keys on both sides are the same. -/
def CleanCuts (n : Nat) (ks : List κ) : Prop :=
  ∀ m, 0 < m → m * n < ks.length → ks[m * n - 1]? ≠ ks[m * n]?

omit [LinearOrder κ] in
/-- Where all rows fit into one page, no page boundary can split a key. -/
theorem cleanCuts_of_length_le {ks : List κ} (h : ks.length ≤ n) :
    CleanCuts n ks := by
  intro m hm hlt
  have hle : 1 * n ≤ m * n := Nat.mul_le_mul_right n hm
  omega

omit [LinearOrder κ] in
/-- The first cut, and those of what is behind it. -/
theorem cleanCuts_iff (hn : 0 < n) {ks : List κ} (h : n < ks.length) :
    CleanCuts n ks ↔ ks[n - 1]? ≠ ks[n]? ∧ CleanCuts n (ks.drop n) := by
  -- the pieces of the rest are the later pieces of the whole
  have hcut : ∀ m, 0 < m → (ks.drop n)[m * n - 1]? = ks[(m + 1) * n - 1]? ∧
      (ks.drop n)[m * n]? = ks[(m + 1) * n]? := by
    intro m hm
    have hle : 1 * n ≤ m * n := Nat.mul_le_mul_right n hm
    rw [List.getElem?_drop, List.getElem?_drop, Nat.succ_mul]
    constructor
    · congr 1
      omega
    · congr 1
      omega
  constructor
  -- the first cut is at `n`, the others are those of the rest
  · intro hclean
    constructor
    · have hfirst := hclean 1 Nat.one_pos (by omega)
      rwa [Nat.one_mul] at hfirst
    · intro m hm hlt
      rw [List.length_drop] at hlt
      rw [(hcut m hm).1, (hcut m hm).2]
      apply hclean (m + 1) (Nat.succ_pos m)
      rw [Nat.succ_mul]
      omega
  -- a cut of the whole is the first one or one of the rest
  · intro hclean m hm hlt
    obtain ⟨hfirst, hrest⟩ := hclean
    cases m with
    | zero => omega
    | succ m =>
      cases Nat.eq_zero_or_pos m with
      | inl hzero =>
        rw [hzero, Nat.zero_add, Nat.one_mul]
        exact hfirst
      | inr hpos =>
        rw [← (hcut m hpos).1, ← (hcut m hpos).2]
        apply hrest m hpos
        rw [Nat.succ_mul] at hlt
        rw [List.length_drop]
        omega

/-- Sorted rows are known up to the order of those of one key. -/
theorem Sorted.map_key_eq {l' : List α} (h : Sorted key l) (h' : Sorted key l')
    (hperm : l.Perm l') : l.map key = l'.map key :=
  (hperm.map key).eq_of_pairwise (fun _ _ _ _ => le_antisymm) (List.pairwise_map.mpr h)
    (List.pairwise_map.mpr h')

/-- A cursor before the first row leaves out nothing. -/
theorem Sorted.beyond_eq_self {a : α} (h : Sorted key (a :: l)) {c : κ} (hlt : c < key a) :
    SeekPaging.beyond key (some c) (a :: l) = a :: l := by
  apply List.filter_eq_self.mpr
  intro b hb
  apply decide_eq_true
  apply beyond_some.mpr
  cases hb with
  | head => exact hlt
  | tail _ hin => exact lt_of_lt_of_le hlt ((List.pairwise_cons.mp h).1 b hin)

/-- A complete read holds all rows behind the cursor, each of them once, exactly when no two
    rows of one key are on both sides of a cut.  It makes no difference in which order the
    rows of one key are found, and it may change from page to page.  The reader may see less
    of a row than there is, as long as it tells the keys apart. -/
theorem perm_rows_iff {β : Type} (f : α → β) (hf : ∀ a b, f a = f b → key a = key b)
    (hn : 0 < n) (hview : ∀ k, Sorted key (view k)) (hperm : ∀ k, (view k).Perm l)
    (hl : Sorted key l) {fuel k : Nat} (hcomplete : Complete (pages key n view fuel k cursor)) :
    ((rows (pages key n view fuel k cursor)).map f).Perm ((beyond key cursor l).map f) ↔
      CleanCuts n ((beyond key cursor l).map key) := by
  -- by induction on the fuel, page by page
  induction fuel generalizing k cursor with
  | zero =>
    obtain ⟨p, hp, -⟩ := hcomplete
    cases hp
  | succ fuel ih =>
    -- whatever the order among equal keys, the same rows are past a cursor
    have hbeyond : ∀ cursor, (beyond key cursor (view k)).Perm (beyond key cursor l) :=
      fun cursor => (hperm k).filter _
    have hkeys : ∀ cursor, (beyond key cursor (view k)).map key =
        (beyond key cursor l).map key :=
      fun cursor => (hview k).beyond.map_key_eq hl.beyond (hbeyond cursor)
    rw [← hkeys cursor, ← ((hbeyond cursor).map f).congr_right]
    cases hnext : (page key n cursor (view k)).next with
    -- the last page returns all that is left, and cuts nothing
    | none =>
      have hle := (page_next_eq_none hn).mp hnext
      rw [pages_of_none hnext]
      simp only [rows, List.flatMap_cons, List.flatMap_nil, List.append_nil]
      rw [page_rows, List.take_of_length_le hle]
      simp only [List.Perm.refl, true_iff]
      exact cleanCuts_of_length_le (by rwa [List.length_map])
    | some c =>
      have hlt := lt_length_of_page_next hnext
      obtain ⟨d, rest, hdrop⟩ := List.exists_cons_of_length_pos
        (l := (beyond key cursor (view k)).drop n) (by rw [List.length_drop]; omega)
      -- the first row that the page leaves out decides whether the cut is clean
      have hbehind : ((beyond key cursor (view k)).map key)[n]? = some (key d) := by
        have hget : (beyond key cursor (view k))[n]? = some d := by
          rw [← List.head?_drop, hdrop, List.head?_cons]
        rw [List.getElem?_map, hget, Option.map_some]
      rw [pages_of_some hnext] at hcomplete ⊢
      rw [cleanCuts_iff hn (by rwa [List.length_map]), getElem?_of_page_next hn hnext, hbehind,
        ← List.map_drop]
      show (((page key n cursor (view k)).rows ++ rows _).map f).Perm _ ↔ _
      conv_lhs => rw [← List.take_append_drop n (beyond key cursor (view k)), page_rows]
      rw [List.map_append, List.map_append, List.perm_append_left_iff, hdrop]
      have hih := ih ((complete_cons hnext).mp hcomplete)
      cases lt_or_eq_of_le (((hview k).page_next hnext).2 d (by rw [hdrop]; simp)) with
      | inl hltd =>
        -- the page leaves greater keys only, and the rest of the read is about them
        have hdsorted : Sorted key (d :: rest) := by
          rw [← hdrop]
          exact (hview k).beyond.drop
        have hsame : beyond key (some c) (view k) = d :: rest := by
          rw [(hview k).beyond_page_next hnext, hdrop, hdsorted.beyond_eq_self hltd]
        rw [← hkeys (some c), ← ((hbeyond (some c)).map f).congr_right, hsame] at hih
        rw [hih]
        simp [ne_of_lt hltd]
      | inr heq =>
        -- the first row that the page leaves is lost
        constructor
        · intro hall
          obtain ⟨a, ha, hsame⟩ := List.mem_map.mp (hall.mem_iff.mpr List.mem_cons_self)
          have hbehind := beyond_some.mp (beyond_of_mem_rows ha)
          exact absurd (heq.trans (hf a d hsame).symm) (ne_of_lt hbehind)
        · intro hclean
          exact absurd (congrArg some heq) hclean.1

/-! ## The end of a read -/

/-- A read of finitely many keys ends. -/
theorem complete_of_card {keys : Finset κ}
    (hkeys : ∀ k, ∀ a ∈ view k, key a ∈ keys) {fuel : Nat} (k : Nat)
    (hfuel : (keys.filter (Beyond cursor)).card < fuel) :
    Complete (pages key n view fuel k cursor) := by
  -- by induction on the fuel; each page uses up one of the keys at least
  induction fuel generalizing k cursor with
  | zero => omega
  | succ fuel ih =>
    cases hnext : (page key n cursor (view k)).next with
    | none =>
      rw [pages_of_none hnext]
      exact ⟨_, rfl, hnext⟩
    | some c =>
      rw [pages_of_some hnext, complete_cons hnext]
      apply ih
      have hcursor := beyond_of_page_next hnext
      obtain ⟨a, hlast, rfl⟩ := getLast?_of_page_next hnext
      have ha : a ∈ view k := (mem_of_mem_page (List.mem_of_getLast? hlast)).1
      -- fewer keys are left: the cursor's own is no longer among them
      have hless : keys.filter (Beyond (some (key a))) ⊂ keys.filter (Beyond cursor) := by
        rw [Finset.ssubset_iff_of_subset]
        · refine ⟨key a, Finset.mem_filter.mpr ⟨hkeys k a ha, hcursor⟩, ?_⟩
          intro hmem
          exact lt_irrefl _ (beyond_some.mp (Finset.mem_filter.mp hmem).2)
        · intro x hx
          obtain ⟨hin, hlt⟩ := Finset.mem_filter.mp hx
          exact Finset.mem_filter.mpr ⟨hin, hcursor.trans (beyond_some.mp hlt)⟩
      have hcard := Finset.card_lt_card hless
      omega

end SeekPaging
