import Grimnir.ForStd.SeekPaging
import Mathlib.Data.List.Count
import Mathlib.Data.List.Perm.Subperm

/-!
# Identity maps

A session of an object-relational mapper holds one object for each identity.  Of the rows of a
statement that share an identity the first one becomes the object, and the others stand for
this object again, whatever else they hold.  What is loaded is as long as what was found, and
shows the same identities.

## Key results

- `load_eq_self`: rows that differ have different identities, so they are loaded as they are
- `subperm_load_iff`: what is loaded is among some rows exactly when these hold each object as
  often as its identity was found
- `perm_map_load_iff`: nothing is lost of rows of one identity exactly when they look alike
- `load_rows`: a paged read may be loaded page by page
-/

namespace IdentityMap

variable {α κ : Type} [DecidableEq κ] (identity : α → κ)

/-- The object that a row stands for: the first row of its identity. -/
def object (rows : List α) (r : α) : α := (rows.find? fun x => identity x = identity r).getD r

/-- The objects of the rows that one statement found. -/
def load (rows : List α) : List α := rows.map (object identity rows)

/-- Rows of one identity are the same row. -/
def Unambiguous (rows : List α) : Prop :=
  ∀ a ∈ rows, ∀ b ∈ rows, identity a = identity b → a = b

/-! ## The objects -/

/-- An object has the identity of its rows. -/
theorem identity_object (rows : List α) (r : α) :
    identity (object identity rows r) = identity r := by
  unfold object
  cases hfound : rows.find? fun x => identity x = identity r with
  | none => rfl
  | some x => simpa using List.find?_some hfound

variable {identity} {rows : List α}

/-- An object is one of the rows. -/
theorem object_mem {r : α} (h : r ∈ rows) : object identity rows r ∈ rows := by
  unfold object
  cases hfound : rows.find? fun x => identity x = identity r with
  | none => exact h
  | some x => exact List.mem_of_find?_eq_some hfound

/-- Rows of one identity have one object. -/
theorem object_congr {a b : α} (ha : a ∈ rows) (h : identity a = identity b) :
    object identity rows a = object identity rows b := by
  unfold object
  rw [h]
  cases hfound : rows.find? fun x => identity x = identity b with
  | none => exact absurd (decide_eq_true h) (List.find?_eq_none.mp hfound a ha)
  | some x => rfl

@[simp] theorem length_load (rows : List α) : (load identity rows).length = rows.length :=
  List.length_map _

/-- What depends on the identity alone is the same for what is loaded. -/
theorem map_load {β : Type} {f : α → β} (hf : ∀ a b, identity a = identity b → f a = f b)
    (rows : List α) : (load identity rows).map f = rows.map f := by
  rw [load, List.map_map]
  exact List.map_congr_left fun r _ => hf _ _ (identity_object identity rows r)

theorem mem_of_mem_load {x : α} (h : x ∈ load identity rows) : x ∈ rows := by
  obtain ⟨r, hr, rfl⟩ := List.mem_map.mp h
  exact object_mem hr

/-- Rows that differ have different identities, so they are loaded as they are. -/
theorem load_eq_self (h : Unambiguous identity rows) : load identity rows = rows := by
  conv => rhs; rw [← List.map_id rows]
  exact List.map_congr_left fun r hr => h _ (object_mem hr) _ hr (identity_object identity rows r)

omit [DecidableEq κ] in
/-- Distinct identities. -/
theorem unambiguous_of_nodup (h : (rows.map identity).Nodup) : Unambiguous identity rows :=
  fun _ ha _ hb hab => List.inj_on_of_nodup_map h ha hb hab

/-- The rows behind the first ones do not change the objects of these. -/
theorem object_append {r : α} (h : r ∈ rows) (more : List α) :
    object identity (rows ++ more) r = object identity rows r := by
  unfold object
  rw [List.find?_append]
  cases hfound : rows.find? fun x => identity x = identity r with
  | none => exact absurd (decide_eq_true rfl) (List.find?_eq_none.mp hfound r h)
  | some x => rfl

/-- The first objects are those of the first rows. -/
theorem take_load (n : Nat) (rows : List α) :
    (load identity rows).take n = load identity (rows.take n) := by
  rw [load, ← List.map_take]
  apply List.map_congr_left
  intro r hr
  conv => lhs; rw [← List.take_append_drop n rows]
  exact object_append hr _

/-- Rows without a common identity may be loaded one part after the other. -/
theorem load_append {more : List α} (h : ∀ a ∈ rows, ∀ b ∈ more, identity a ≠ identity b) :
    load identity (rows ++ more) = load identity rows ++ load identity more := by
  rw [load, List.map_append]
  congr 1
  · exact List.map_congr_left fun r hr => object_append hr more
  · apply List.map_congr_left
    intro r hr
    have hnone : rows.find? (fun x => identity x = identity r) = none :=
      List.find?_eq_none.mpr fun a ha hsame => h a ha r hr (of_decide_eq_true hsame)
    unfold object
    rw [List.find?_append, hnone, Option.none_or]

/-! ## How often an object is loaded -/

section Count
variable [DecidableEq α]

/-- The first row of an identity is loaded for each row of it, and no other row is. -/
theorem count_load (r : α) : (load identity rows).count r =
    if object identity rows r = r then rows.countP fun x => identity x = identity r else 0 := by
  rw [load, List.count, List.countP_map]
  split
  · rename_i hfirst
    apply List.countP_congr
    intro x hx
    simp only [Function.comp, beq_iff_eq, decide_eq_true_eq]
    constructor
    · intro hobject
      rw [← hobject, identity_object identity]
    · intro hsame
      rw [object_congr hx hsame, hfirst]
  · rename_i hlater
    apply List.countP_eq_zero.mpr
    intro x hx hobject
    have hobject' : object identity rows x = r := by simpa using hobject
    have hsame : identity x = identity r := by rw [← hobject', identity_object identity]
    exact hlater ((object_congr hx hsame).symm.trans hobject')

/-- What is loaded is among some rows exactly when these hold each object as often as its
    identity was found. -/
theorem subperm_load_iff {l : List α} : (load identity rows).Subperm l ↔
    ∀ r ∈ rows, object identity rows r = r →
      (rows.countP fun x => identity x = identity r) ≤ l.count r := by
  rw [List.subperm_ext_iff]
  constructor
  · intro h r hr hfirst
    have hloaded : r ∈ load identity rows := List.mem_map.mpr ⟨r, hr, hfirst⟩
    have hcount := h r hloaded
    rwa [count_load, if_pos hfirst] at hcount
  · intro h r hloaded
    rw [count_load]
    split
    · rename_i hfirst
      exact h r (mem_of_mem_load hloaded) hfirst
    · exact Nat.zero_le _

end Count

/-- Nothing is lost of rows of one identity exactly when they look alike to the reader, who
    sees the identity. -/
theorem perm_map_load_iff {β : Type} {f : α → β}
    (hf : ∀ a b, f a = f b → identity a = identity b) :
    ((load identity rows).map f).Perm (rows.map f) ↔
      ∀ a ∈ rows, ∀ b ∈ rows, identity a = identity b → f a = f b := by
  classical
  constructor
  · intro hperm
    -- among the rows of its identity only the object is loaded
    have hobject : ∀ a ∈ rows, f (object identity rows a) = f a := by
      intro a ha
      obtain ⟨x, hx, hxa⟩ := List.mem_map.mp
        (hperm.mem_iff.mpr (List.mem_map_of_mem ha))
      obtain ⟨r, hr, rfl⟩ := List.mem_map.mp hx
      have hsame : identity r = identity a := by
        rw [← hf _ _ hxa, identity_object identity]
      rw [← hxa, object_congr hr hsame]
    intro a ha b hb hab
    rw [← hobject a ha, ← hobject b hb, object_congr ha hab]
  · intro halike
    have hsame : (load identity rows).map f = rows.map f := by
      rw [load, List.map_map]
      exact List.map_congr_left fun r hr =>
        halike _ (object_mem hr) _ hr (identity_object identity rows r)
    rw [hsame]

/-! ## Page by page -/

section Pages
open SeekPaging

variable {μ : Type} [LinearOrder μ] {key : α → μ} {n : Nat} {view : Nat → List α}

/-- Pages have no key in common, so a paged read may be loaded page by page. -/
theorem load_rows (hkey : ∀ a b, identity a = identity b → key a = key b)
    (hview : ∀ k, Sorted key (view k)) (fuel k : Nat) (cursor : Option μ) :
    load identity (SeekPaging.rows (pages key n view fuel k cursor)) =
      (pages key n view fuel k cursor).flatMap fun p => load identity p.rows := by
  induction fuel generalizing k cursor with
  | zero => rfl
  | succ fuel ih =>
    cases hnext : (page key n cursor (view k)).next with
    | none =>
      rw [pages_of_none hnext]
      simp [SeekPaging.rows]
    | some c =>
      rw [pages_of_some hnext, List.flatMap_cons, ← ih]
      apply load_append
      intro a ha b hb hab
      -- what is read later lies behind the cursor
      have hle := ((hview k).page_next hnext).1 a ha
      have hlt := beyond_some.mp (beyond_of_mem_rows hb)
      rw [hkey a b hab] at hle
      exact absurd hlt (not_lt.mpr hle)

end Pages

end IdentityMap
