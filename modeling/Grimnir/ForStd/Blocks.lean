import Mathlib.Data.List.Basic
import Mathlib.Data.List.Induction
import Mathlib.Logic.Function.Basic

/-!
# Consecutive blocks of a list

`blocks w l` cuts `l` into consecutive blocks of `w` elements and drops the incomplete
last one.

## Key results

- `blocks_of_lt` / `blocks_append`: an incomplete block, and a complete one
- `blocks_eq_iff`: two block lengths cut a list alike exactly when they are equal or no block
  of either is complete
- `getElem?_flatMap_of_length`: the entries of a list put together from blocks
- `CutInto.append` / `CutInto.blocks_eq`: complete blocks with what is left over, kept up item
  by item
- `flatten_blocks_sublist`: the blocks of lists leave out items only
- `chunkByKey_key`: a loop with one buffer for each key cuts each key's items into blocks
-/

namespace List

variable {α : Type}

/-- The consecutive blocks of `w` elements, without the incomplete last one. -/
def blocks (w : Nat) (l : List α) : List (List α) :=
  (List.range (l.length / w)).map fun k => (l.drop (k * w)).take w

variable {w v : Nat} {l b : List α}

/-- An incomplete block is dropped. -/
theorem blocks_of_lt (h : l.length < w) : l.blocks w = [] := by
  rw [blocks, Nat.div_eq_of_lt h]
  rfl

/-- A complete block comes first. -/
theorem blocks_append (hw : 0 < w) (hb : b.length = w) :
    (b ++ l).blocks w = b :: l.blocks w := by
  have hdiv : (b ++ l).length / w = l.length / w + 1 := by
    rw [length_append, hb, Nat.add_div_left _ hw]
  rw [blocks, hdiv, range_succ_eq_map, map_cons, map_map, Nat.zero_mul, drop_zero,
    take_left' hb, blocks]
  congr 1
  -- every later block moves by one
  apply map_congr_left
  intro k _
  show ((b ++ l).drop ((k + 1) * w)).take w = (l.drop (k * w)).take w
  rw [Nat.succ_mul, Nat.add_comm, ← hb, ← drop_drop, drop_left]

/-- The `k`-th block is there when `l` has the items for it. -/
theorem mem_blocks_iff (hw : 0 < w) :
    b ∈ l.blocks w ↔ ∃ k, (k + 1) * w ≤ l.length ∧ b = (l.drop (k * w)).take w := by
  unfold blocks
  simp only [mem_map, mem_range, ← Nat.succ_le_iff, Nat.le_div_iff_mul_le hw, eq_comm]

/-- Every block is complete. -/
theorem length_of_mem_blocks (hw : 0 < w) (h : b ∈ l.blocks w) : b.length = w := by
  obtain ⟨k, hfit, rfl⟩ := (mem_blocks_iff hw).mp h
  rw [length_take, length_drop]
  rw [Nat.succ_mul] at hfit
  omega

/-- The entries of a block. -/
theorem getElem?_block {k j : Nat} (hj : j < w) :
    ((l.drop (k * w)).take w)[j]? = l[k * w + j]? := by
  rw [getElem?_take_of_lt hj, getElem?_drop]

/-- Pieces of one width make up a list of their number times the width. -/
theorem length_flatMap_of_length {β : Type} {f : β → List α} {xs : List β}
    (h : ∀ x ∈ xs, (f x).length = w) : (xs.flatMap f).length = xs.length * w := by
  induction xs with
  | nil => simp
  | cons x xs ih =>
    obtain ⟨hx, hxs⟩ := forall_mem_cons.mp h
    rw [flatMap_cons, length_append, hx, ih hxs, length_cons, Nat.succ_mul, Nat.add_comm]

/-- The entries of a list that is put together from blocks. -/
theorem getElem?_flatMap_of_length {β : Type} {f : β → List α} {xs : List β}
    (h : ∀ x ∈ xs, (f x).length = w) {k j : Nat} (hj : j < w) :
    (xs.flatMap f)[k * w + j]? = xs[k]?.bind fun x => (f x)[j]? := by
  induction xs generalizing k with
  | nil => simp
  | cons x xs ih =>
    obtain ⟨hx, hxs⟩ := forall_mem_cons.mp h
    rw [flatMap_cons]
    cases k with
    | zero =>
      rw [Nat.zero_mul, Nat.zero_add, getElem?_append_left (by omega)]
      rfl
    | succ k =>
      have hindex : (k + 1) * w + j - w = k * w + j := by
        rw [Nat.succ_mul]
        omega
      rw [getElem?_append_right (by rw [hx, Nat.succ_mul]; omega), hx, hindex, ih hxs]
      rfl

/-- Two places next to each other in one block: the second one starts no block. -/
theorem block_of_adjacent {k j : Nat} (hj : j + 1 < w) :
    (k * w + j + 1) % w ≠ 0 ∧ (k * w + j + 1) / w = k := by
  constructor
  · rw [Nat.add_assoc, Nat.mul_add_mod_self_right, Nat.mod_eq_of_lt hj]
    exact Nat.succ_ne_zero j
  · apply Nat.div_eq_of_lt_le
    · omega
    · rw [Nat.succ_mul]
      omega

/-- Two neighbours that no block boundary separates lie in one block, next to each other. -/
theorem exists_adjacent_of_mod {i : Nat} (hw : 0 < w) (h : (i + 1) % w ≠ 0) :
    ∃ j, j + 1 < w ∧ (i + 1) / w * w + j = i := by
  have hsplit := Nat.div_add_mod (i + 1) w
  have hlt := Nat.mod_lt (i + 1) hw
  rw [Nat.mul_comm] at hsplit
  exact ⟨(i + 1) % w - 1, by omega, by omega⟩

/-- There is no full block exactly when the list is shorter than one. -/
theorem blocks_eq_nil_iff (hw : 0 < w) : l.blocks w = [] ↔ l.length < w := by
  constructor
  · intro h
    rw [blocks, map_eq_nil_iff, range_eq_nil, Nat.div_eq_zero_iff] at h
    omega
  · exact blocks_of_lt

/-- Two block lengths cut a list alike exactly when they are equal or no block of either is
    complete. -/
theorem blocks_eq_iff (hw : 0 < w) (hv : 0 < v) :
    l.blocks w = l.blocks v ↔ w = v ∨ l.length < min w v := by
  constructor
  · intro h
    cases hb : l.blocks w with
    | nil =>
      have hlw := (blocks_eq_nil_iff hw).mp hb
      have hlv := (blocks_eq_nil_iff hv).mp (h ▸ hb)
      exact .inr (by omega)
    | cons b bs =>
      have hmem : b ∈ l.blocks w := by
        rw [hb]
        exact mem_cons_self
      -- one block is common to both, and it has both lengths
      exact .inl ((length_of_mem_blocks hw hmem).symm.trans
        (length_of_mem_blocks hv (h ▸ hmem)))
  · rintro (rfl | hlt)
    · rfl
    · rw [blocks_of_lt (show l.length < w by omega), blocks_of_lt (show l.length < v by omega)]

/-! ## Blocks and what is left over -/

/-- `l` is the blocks `bs`, which are complete, and `rest`, which is not. -/
structure CutInto (w : Nat) (l : List α) (bs : List (List α)) (rest : List α) : Prop where
  joined : l = bs.flatten ++ rest
  complete : ∀ b ∈ bs, b.length = w
  short : rest.length < w

variable {bs : List (List α)} {rest : List α}

/-- The empty list is cut into no block and nothing is left over. -/
theorem CutInto.nil (hw : 0 < w) : CutInto w ([] : List α) [] [] :=
  ⟨rfl, fun _ hb => (nomatch hb), hw⟩

/-- There is one way to cut. -/
theorem CutInto.blocks_eq (hw : 0 < w) (h : CutInto w l bs rest) : l.blocks w = bs := by
  obtain ⟨rfl, hcomplete, hshort⟩ := h
  induction bs with
  | nil => exact blocks_of_lt hshort
  | cons b bs ih =>
    rw [flatten_cons, append_assoc, blocks_append hw (hcomplete b mem_cons_self),
      ih fun b' hb' => hcomplete b' (mem_cons_of_mem b hb')]

/-- What one more item does to the rest: it completes a block, or it does not. -/
def pushItem (w : Nat) (rest : List α) (a : α) : List (List α) × List α :=
  if w ≤ (rest ++ [a]).length then ([rest ++ [a]], []) else ([], rest ++ [a])

/-- One more item is pushed onto the rest, and completes a block exactly when it fills it. -/
theorem CutInto.append (hw : 0 < w) (h : CutInto w l bs rest) (a : α) :
    CutInto w (l ++ [a]) (bs ++ (pushItem w rest a).1) (pushItem w rest a).2 := by
  obtain ⟨rfl, hcomplete, hshort⟩ := h
  unfold pushItem
  split
  · rename_i hfull
    rw [length_append, length_singleton] at hfull
    constructor
    · simp
    · intro b hb
      cases mem_append.mp hb with
      | inl hin => exact hcomplete b hin
      | inr hin =>
        rw [mem_singleton.mp hin, length_append, length_singleton]
        omega
    · exact hw
  · rename_i hmore
    constructor
    · simp
    · simpa using hcomplete
    · exact Nat.not_le.mp hmore

/-- Every list is cut. -/
theorem exists_cutInto (hw : 0 < w) (l : List α) : ∃ bs rest, CutInto w l bs rest := by
  induction l using List.reverseRecOn with
  | nil => exact ⟨[], [], .nil hw⟩
  | append_singleton l a ih =>
    obtain ⟨bs, rest, h⟩ := ih
    exact ⟨_, _, h.append hw a⟩

/-- The blocks of lists, one after the other, leave out items only. -/
theorem flatten_blocks_sublist (hw : 0 < w) (ls : List (List α)) :
    (ls.flatMap (blocks w)).flatten <+ ls.flatten := by
  induction ls with
  | nil => exact Sublist.refl _
  | cons l ls ih =>
    obtain ⟨bs, rest, h⟩ := exists_cutInto hw l
    rw [flatMap_cons, flatten_append, flatten_cons, h.blocks_eq hw]
    refine Sublist.append ?_ ih
    rw [h.joined]
    exact sublist_append_left _ _

/-! ## A buffer for each key -/

section ByKey
variable {κ : Type} [DecidableEq κ]

/-- Append each item to the buffer of its key; a buffer that reaches `w` items is handed on
    and emptied. -/
def chunkByKey (w : Nat) : (κ → List α) → List (κ × α) → List (κ × List α)
  | _, [] => []
  | bufs, (k, a) :: items =>
    if w ≤ (bufs k ++ [a]).length then
      (k, bufs k ++ [a]) :: chunkByKey w (Function.update bufs k []) items
    else chunkByKey w (Function.update bufs k (bufs k ++ [a])) items

/-- The items of one key. -/
def ofKey (k : κ) (items : List (κ × α)) : List α :=
  (items.filter (·.1 = k)).map Prod.snd

/-- An item of the key comes first among the items of that key. -/
theorem ofKey_cons_self (k : κ) (a : α) (items : List (κ × α)) :
    ofKey k ((k, a) :: items) = a :: ofKey k items := by
  simp [ofKey]

/-- An item of another key is left out. -/
theorem ofKey_cons_ne {k k' : κ} (h : k' ≠ k) (a : α) (items : List (κ × α)) :
    ofKey k ((k', a) :: items) = ofKey k items := by
  simp [ofKey, h]

/-- Replacing one buffer by a short one leaves all buffers short. -/
theorem length_update_lt {bufs : κ → List α} (hbufs : ∀ k, (bufs k).length < w) (k : κ)
    (hb : b.length < w) : ∀ j, (Function.update bufs k b j).length < w := by
  intro j
  by_cases hj : j = k
  · subst hj
    rwa [Function.update_self]
  · rw [Function.update_of_ne hj]
    exact hbufs j

/-- What the loop hands on for a key are the blocks of that key's items, whatever the items
    of the other keys. -/
theorem chunkByKey_key {bufs : κ → List α} (hbufs : ∀ k, (bufs k).length < w)
    (items : List (κ × α)) (k : κ) :
    ofKey k (chunkByKey w bufs items) = (bufs k ++ ofKey k items).blocks w := by
  have hw : 0 < w := Nat.lt_of_le_of_lt (Nat.zero_le _) (hbufs k)
  -- the buffers stay shorter than a block
  induction items generalizing bufs with
  | nil =>
    rw [show ofKey k ([] : List (κ × α)) = [] from rfl, append_nil, blocks_of_lt (hbufs k)]
    rfl
  | cons item items ih =>
    obtain ⟨k', a⟩ := item
    have happend : bufs k' ++ a :: ofKey k' items = (bufs k' ++ [a]) ++ ofKey k' items :=
      append_cons _ _ _
    unfold chunkByKey
    split
    · rename_i hfull
      -- the buffer is one short of a block, so the new item completes it
      have hblock : (bufs k' ++ [a]).length = w := by
        have hshort := hbufs k'
        rw [length_append, length_singleton] at hfull ⊢
        omega
      have hupdate := length_update_lt hbufs k' (b := []) hw
      by_cases hk : k' = k
      · subst hk
        rw [ofKey_cons_self, ofKey_cons_self, ih hupdate, Function.update_self, nil_append,
          happend, blocks_append hw hblock]
      · rw [ofKey_cons_ne hk, ofKey_cons_ne hk, ih hupdate, Function.update_of_ne (Ne.symm hk)]
    · rename_i hshort
      have hupdate := length_update_lt hbufs k' (Nat.not_le.mp hshort)
      by_cases hk : k' = k
      · subst hk
        rw [ofKey_cons_self, ih hupdate, Function.update_self, happend]
      · rw [ofKey_cons_ne hk, ih hupdate, Function.update_of_ne (Ne.symm hk)]

end ByKey

end List
