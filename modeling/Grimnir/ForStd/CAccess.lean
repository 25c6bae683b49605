import Mathlib.Data.List.TakeWhile

/-!
# C code with every access checked

An object in memory is a list of bytes.  `load`, `store`, `copyFrom` and `copyTo` fault where C
would leave the object; a function that is `Safe` on every input never does.  The rules follow
the shape of the code: one for each kind of access, one for a sequence and one for weakening.

## Key results

- `Safe.bind`: the sequence rule
- `safe_load`, `safe_store`, `safe_copyFrom`, `safe_copyTo`: an access within the object
- `safe_strlen`: a terminated string has a length below the size of its buffer
-/

namespace CAccess

/-- An access outside the object. -/
inductive Fault where
  | read
  | write
  deriving DecidableEq, Repr

/-- `buf[i]`. -/
def load (buf : List UInt8) (i : Nat) : Except Fault UInt8 :=
  match buf[i]? with
  | some b => .ok b
  | none => .error .read

/-- `buf[i] = b`. -/
def store (buf : List UInt8) (i : Nat) (b : UInt8) : Except Fault (List UInt8) :=
  if i < buf.length then .ok (buf.set i b) else .error .write

/-- The `len` bytes from `buf + offset` on. -/
def copyFrom (buf : List UInt8) (offset len : Nat) : Except Fault (List UInt8) :=
  if offset + len ≤ buf.length then .ok ((buf.drop offset).take len) else .error .read

/-- The buffer with `src` at `offset`. -/
def overwrite (dst : List UInt8) (offset : Nat) (src : List UInt8) : List UInt8 :=
  dst.take offset ++ (src ++ dst.drop (offset + src.length))

/-- `memcpy(dst + offset, src, len)`. -/
def copyTo (dst : List UInt8) (offset : Nat) (src : List UInt8) : Except Fault (List UInt8) :=
  if offset + src.length ≤ dst.length then .ok (overwrite dst offset src) else .error .write

/-- The string that starts at `buf`, without its `NUL`. -/
def cString (buf : List UInt8) : List UInt8 := buf.takeWhile (· != 0)

/-- `strlen(buf)`; a scan that finds no `NUL` leaves the object. -/
def strlen (buf : List UInt8) : Except Fault Nat :=
  if 0 ∈ buf then .ok (cString buf).length else .error .read

/-! ## Safety -/

variable {α β : Type} {P : α → Prop} {Q : β → Prop}

/-- The code does not fault, and its result satisfies `P`. -/
def Safe (m : Except Fault α) (P : α → Prop) : Prop := ∃ a, m = .ok a ∧ P a

/-- Returning a value makes no access. -/
theorem Safe.pure {a : α} (h : P a) : Safe (.ok a) P := ⟨a, rfl, h⟩

/-- A safe computation is safe for any weaker property of its result. -/
theorem Safe.mono {P' : α → Prop} {m : Except Fault α} (h : Safe m P) (himp : ∀ a, P a → P' a) :
    Safe m P' := by
  obtain ⟨a, hm, ha⟩ := h
  exact ⟨a, hm, himp a ha⟩

/-- A sequence is safe when its first part is and the rest is safe from every result of it. -/
theorem Safe.bind {m : Except Fault α} {k : α → Except Fault β} (h : Safe m P)
    (hk : ∀ a, P a → Safe (k a) Q) : Safe (m >>= k) Q := by
  obtain ⟨a, rfl, ha⟩ := h
  exact hk a ha

/-- A sequence that begins with a returned value is its rest. -/
theorem ok_bind (a : α) (k : α → Except Fault β) : (Except.ok a >>= k) = k a := rfl

/-- What a function returns satisfies its postcondition. -/
theorem Safe.of_eq {m : Except Fault α} (h : Safe m P) {a : α} (hm : m = .ok a) : P a := by
  obtain ⟨a', hm', ha'⟩ := h
  cases hm.symm.trans hm'
  exact ha'

/-! ## Accesses -/

variable {buf dst src : List UInt8} {i offset len : Nat}

/-- Reading inside the buffer is safe and gives the byte that is there. -/
theorem safe_load (h : i < buf.length) : Safe (load buf i) fun b => buf[i]? = some b := by
  unfold load
  rw [List.getElem?_eq_getElem h]
  exact ⟨buf[i], rfl, rfl⟩

/-- Inside the buffer a read is a look-up. -/
theorem load_eq (h : i < buf.length) : load buf i = .ok (buf.getD i 0) := by
  rw [load, List.getD_eq_getElem?_getD, List.getElem?_eq_getElem h]
  rfl

/-- Writing inside the buffer is safe and changes that byte. -/
theorem safe_store (h : i < buf.length) (b : UInt8) :
    Safe (store buf i b) fun buf' => buf' = buf.set i b :=
  ⟨_, if_pos h, rfl⟩

/-- The buffer up to a byte that was stored. -/
theorem take_set (h : i < buf.length) (b : UInt8) :
    (buf.set i b).take (i + 1) = buf.take i ++ [b] := by
  rw [List.take_add_one, List.take_set_of_le (Nat.le_refl i), List.getElem?_set_self h]
  rfl

/-- Copying out a range that lies in the buffer is safe and gives its bytes. -/
theorem safe_copyFrom (h : offset + len ≤ buf.length) :
    Safe (copyFrom buf offset len) fun bytes =>
      bytes = (buf.drop offset).take len ∧ bytes.length = len := by
  refine ⟨_, if_pos h, rfl, ?_⟩
  rw [List.length_take, List.length_drop]
  omega

/-- Overwriting a range that lies in the buffer keeps its length. -/
theorem length_overwrite (h : offset + src.length ≤ dst.length) :
    (overwrite dst offset src).length = dst.length := by
  simp only [overwrite, List.length_append, List.length_take, List.length_drop]
  omega

/-- Copying into a range that lies in the buffer is safe and keeps its length. -/
theorem safe_copyTo (h : offset + src.length ≤ dst.length) :
    Safe (copyTo dst offset src) fun dst' =>
      dst' = overwrite dst offset src ∧ dst'.length = dst.length :=
  ⟨_, if_pos h, rfl, length_overwrite h⟩

/-- A stored byte is a piece of one byte. -/
theorem set_eq_overwrite (h : i < buf.length) (b : UInt8) : buf.set i b = overwrite buf i [b] := by
  rw [List.set_eq_take_append_cons_drop, if_pos h]
  rfl

/-- Two pieces, one behind the other, are one piece. -/
theorem overwrite_append (h : offset + src.length ≤ dst.length) (src' : List UInt8) :
    overwrite (overwrite dst offset src) (offset + src.length) src' =
      overwrite dst offset (src ++ src') := by
  have hprefix : (dst.take offset ++ src).length = offset + src.length := by
    rw [List.length_append, List.length_take]
    omega
  have hdst : overwrite dst offset src =
      (dst.take offset ++ src) ++ dst.drop (offset + src.length) := by
    simp [overwrite]
  have hrest : (overwrite dst offset src).drop (offset + src.length + src'.length) =
      dst.drop (offset + (src ++ src').length) := by
    rw [hdst, List.drop_append, hprefix, List.drop_drop, List.length_append,
      List.drop_eq_nil_of_le (by omega), List.nil_append]
    congr 1
    omega
  rw [overwrite, hrest, hdst, List.take_append_of_le_length (by omega), ← hprefix, List.take_length,
    overwrite]
  simp

/-! ## Strings -/

/-- A buffer that holds a NUL has its string before it. -/
theorem cString_length_lt (h : 0 ∈ buf) : (cString buf).length < buf.length := by
  unfold cString
  induction buf with
  | nil => cases h
  | cons b buf ih =>
    by_cases hb : b = 0
    · simp [hb]
    · have hmem : 0 ∈ buf := (List.mem_cons.mp h).resolve_left (Ne.symm hb)
      have hkept : (b != 0) = true := by simp [hb]
      simp only [List.takeWhile_cons, hkept, if_true, List.length_cons]
      exact Nat.succ_lt_succ (ih hmem)

/-- `strlen` of a buffer that holds a NUL stays inside it. -/
theorem safe_strlen (h : 0 ∈ buf) :
    Safe (strlen buf) fun n => n = (cString buf).length ∧ n < buf.length :=
  ⟨_, if_pos h, rfl, cString_length_lt h⟩

/-- A string up to its first `NUL`. -/
theorem cString_append {text rest : List UInt8} (h : ∀ b ∈ text, b ≠ 0) :
    cString (text ++ 0 :: rest) = text := by
  unfold cString
  rw [List.takeWhile_append_of_pos (fun b hb => by simp [h b hb])]
  simp

/-- The string that was stored with a `NUL` behind it ends there or before. -/
theorem cString_nul (text rest : List UInt8) : cString (text ++ 0 :: rest) = cString text := by
  unfold cString
  induction text with
  | nil => rfl
  | cons b text ih =>
    rw [List.cons_append, List.takeWhile_cons, List.takeWhile_cons, ih]

/-- A C string holds no NUL. -/
theorem cString_plain (buf : List UInt8) : ∀ b ∈ cString buf, b ≠ 0 := by
  intro b hb
  simpa using List.mem_takeWhile_imp hb

/-- A buffer that holds a string is the string, a `NUL` and a rest. -/
theorem cString_split (h : 0 ∈ buf) : ∃ rest, buf = cString buf ++ 0 :: rest := by
  obtain ⟨text, rest, rfl, htext⟩ := List.eq_append_cons_of_mem h
  refine ⟨rest, ?_⟩
  rw [cString_append fun b hb => ne_of_mem_of_not_mem hb htext]

/-- The first byte of a buffer that holds a string. -/
theorem head_cString (h : 0 ∈ buf) : buf[0]? = some ((cString buf).headD 0) := by
  cases buf with
  | nil => cases h
  | cons b buf =>
    by_cases hb : b = 0
    · simp [cString, hb]
    · simp [cString, hb]

end CAccess
