import Mathlib.Logic.Equiv.Prod

/-!
# Packed little-endian layouts

A `Format α` lays out a value of type `α` in a fixed number of bytes, without padding: the
formats of Python's `struct` module under `<`, and a packed C struct on a little-endian
CPU.  Both directions are total and inverse to each other, so composing formats never
loses a round trip.

## Key results

- `Format.unpackFrom_pack`: unpacking at the offset where a value was packed gives it back
- `Format.toList_pack_array`: an array is packed element by element
- `Format.exists_pack_append`: a buffer that is long enough starts with a packed value
-/

namespace Struct

/-- A list of length `n`. -/
abbrev Sized (α : Type) (n : Nat) := { l : List α // l.length = n }

/-- A block of `n` bytes. -/
abbrev Bytes (n : Nat) := Sized UInt8 n

/-- The same element everywhere. -/
def Sized.replicate {α : Type} (n : Nat) (a : α) : Sized α n :=
  ⟨List.replicate n a, List.length_replicate⟩

/-- A layout of `α` in `size` bytes. -/
structure Format (α : Type) where
  size : Nat
  pack : α → Bytes size
  unpack : Bytes size → α
  unpack_pack : ∀ a, unpack (pack a) = a
  pack_unpack : ∀ bs, pack (unpack bs) = bs

/-- `struct.error`. -/
structure Error where
  message : String
  deriving DecidableEq, Repr

/-! ## The parts of a block -/

/-- The first `m` bytes. -/
def Bytes.fst {m n : Nat} (bs : Bytes (m + n)) : Bytes m :=
  ⟨bs.1.take m, by rw [List.length_take, bs.2]; omega⟩

/-- The bytes from `m` on. -/
def Bytes.snd {m n : Nat} (bs : Bytes (m + n)) : Bytes n :=
  ⟨bs.1.drop m, by rw [List.length_drop, bs.2]; omega⟩

/-- Two blocks, one after the other. -/
def Bytes.join {m n : Nat} (as : Bytes m) (bs : Bytes n) : Bytes (m + n) :=
  ⟨as.1 ++ bs.1, by rw [List.length_append, as.2, bs.2]⟩

/-- The first part of joined bytes. -/
@[simp] theorem Bytes.fst_join {m n : Nat} (as : Bytes m) (bs : Bytes n) :
    (as.join bs).fst = as :=
  Subtype.ext (List.take_left' as.2)

/-- The second part of joined bytes. -/
@[simp] theorem Bytes.snd_join {m n : Nat} (as : Bytes m) (bs : Bytes n) :
    (as.join bs).snd = bs :=
  Subtype.ext (List.drop_left' as.2)

/-- Splitting bytes and joining the parts gives them back. -/
@[simp] theorem Bytes.join_fst_snd {m n : Nat} (bs : Bytes (m + n)) :
    bs.fst.join bs.snd = bs :=
  Subtype.ext (List.take_append_drop m bs.1)

namespace Format

variable {α β : Type}

/-! ## Building formats -/

/-- `ns`: a field of `n` bytes. -/
def chars (n : Nat) : Format (Bytes n) where
  size := n
  pack bs := bs
  unpack bs := bs
  unpack_pack _ := rfl
  pack_unpack _ := rfl

/-- The same layout for another type. -/
def map (f : Format α) (e : α ≃ β) : Format β where
  size := f.size
  pack b := f.pack (e.symm b)
  unpack bs := e (f.unpack bs)
  unpack_pack b := by rw [f.unpack_pack, Equiv.apply_symm_apply]
  pack_unpack bs := by rw [Equiv.symm_apply_apply, f.pack_unpack]

/-- One field after the other. -/
def seq (f : Format α) (g : Format β) : Format (α × β) where
  size := f.size + g.size
  pack p := (f.pack p.1).join (g.pack p.2)
  unpack bs := (f.unpack bs.fst, g.unpack bs.snd)
  unpack_pack p := by simp only [Bytes.fst_join, Bytes.snd_join, unpack_pack]
  pack_unpack bs := by simp only [pack_unpack, Bytes.join_fst_snd]

/-- `H`: an unsigned 16-bit integer. -/
def u16 : Format UInt16 where
  size := 2
  pack x := ⟨[UInt8.ofNat x.toNat, UInt8.ofNat (x.toNat / 256)], rfl⟩
  unpack
    | ⟨[a, b], _⟩ => UInt16.ofNat (a.toNat + 256 * b.toNat)
  unpack_pack x := by
    have hx := x.toNat_lt
    apply UInt16.toNat_inj.mp
    simp only [UInt16.toNat_ofNat', UInt8.toNat_ofNat']
    omega
  pack_unpack bs := by
    obtain ⟨_ | ⟨a, _ | ⟨b, _ | ⟨c, l⟩⟩⟩, h⟩ := bs <;> simp only [List.length] at h <;>
      try omega
    have ha := a.toNat_lt
    have hb := b.toNat_lt
    apply Subtype.ext
    simp only [List.cons.injEq, and_true, ← UInt8.toNat_inj, UInt16.toNat_ofNat',
      UInt8.toNat_ofNat']
    omega

/-- `h`: a signed 16-bit integer. -/
def i16 : Format Int16 := u16.map ⟨Int16.ofUInt16, Int16.toUInt16, fun _ => rfl, fun _ => rfl⟩

/-- `I`: an unsigned 32-bit integer. -/
def u32 : Format UInt32 where
  size := 4
  pack x := ⟨[UInt8.ofNat x.toNat, UInt8.ofNat (x.toNat / 256),
    UInt8.ofNat (x.toNat / 65536), UInt8.ofNat (x.toNat / 16777216)], rfl⟩
  unpack
    | ⟨[a, b, c, d], _⟩ =>
      UInt32.ofNat (a.toNat + 256 * b.toNat + 65536 * c.toNat + 16777216 * d.toNat)
  unpack_pack x := by
    have hx := x.toNat_lt
    apply UInt32.toNat_inj.mp
    simp only [UInt32.toNat_ofNat', UInt8.toNat_ofNat']
    omega
  pack_unpack bs := by
    obtain ⟨_ | ⟨a, _ | ⟨b, _ | ⟨c, _ | ⟨d, _ | ⟨e, l⟩⟩⟩⟩⟩, h⟩ := bs <;>
      simp only [List.length] at h <;> try omega
    have ha := a.toNat_lt
    have hb := b.toNat_lt
    have hc := c.toNat_lt
    have hd := d.toNat_lt
    apply Subtype.ext
    simp only [List.cons.injEq, and_true, ← UInt8.toNat_inj, UInt32.toNat_ofNat',
      UInt8.toNat_ofNat']
    omega

/-- `f`: a `float32`, as its word. -/
abbrev f32 : Format UInt32 := u32

/-- A vector is its head and its tail. -/
def consEquiv (n : Nat) : α × Sized α n ≃ Sized α (n + 1) where
  toFun p := ⟨p.1 :: p.2.1, congrArg (· + 1) p.2.2⟩
  invFun
    | ⟨a :: l, h⟩ => (a, ⟨l, Nat.succ.inj h⟩)
  left_inv _ := rfl
  right_inv
    | ⟨_ :: _, _⟩ => rfl

/-- `n` values, one after the other. -/
def array (f : Format α) : (n : Nat) → Format (Sized α n)
  | 0 =>
    { size := 0
      pack := fun _ => ⟨[], rfl⟩
      unpack := fun _ => ⟨[], rfl⟩
      unpack_pack := fun v => Subtype.ext (List.length_eq_zero_iff.mp v.2).symm
      pack_unpack := fun bs => Subtype.ext (List.length_eq_zero_iff.mp bs.2).symm }
  | n + 1 => (f.seq (f.array n)).map (consEquiv n)

/-- An array takes its items' sizes together. -/
@[simp] theorem size_array (f : Format α) (n : Nat) : (f.array n).size = n * f.size := by
  induction n with
  | zero => exact (Nat.zero_mul _).symm
  | succ n ih =>
    show f.size + (f.array n).size = (n + 1) * f.size
    rw [ih, Nat.succ_mul]
    omega

/-- An array is packed element by element. -/
theorem toList_pack_array (f : Format α) {n : Nat} (v : Sized α n) :
    ((f.array n).pack v).1 = v.1.flatMap fun a => (f.pack a).1 := by
  induction n with
  | zero =>
    obtain ⟨l, hl⟩ := v
    rw [List.length_eq_zero_iff] at hl
    subst hl
    rfl
  | succ n ih =>
    obtain ⟨_ | ⟨a, l⟩, hl⟩ := v
    · simp at hl
    · show (f.pack a).1 ++ ((f.array n).pack ⟨l, _⟩).1 = _
      rw [ih, List.flatMap_cons]

/-- Packed items take their common size each. -/
theorem length_flatMap_pack (f : Format α) (l : List α) :
    (l.flatMap fun a => (f.pack a).1).length = l.length * f.size := by
  have hpack := congrArg List.length (f.toList_pack_array ⟨l, rfl⟩)
  rw [← hpack, ((f.array l.length).pack ⟨l, rfl⟩).2, size_array]

/-- The first bytes of packed values are the first values packed. -/
theorem take_flatMap_pack (f : Format α) (l : List α) (n : Nat) (hn : n ≤ l.length) :
    (l.flatMap fun a => (f.pack a).1).take (n * f.size) =
      (l.take n).flatMap fun a => (f.pack a).1 := by
  have hsplit : (l.flatMap fun a => (f.pack a).1) =
      ((l.take n).flatMap fun a => (f.pack a).1) ++ (l.drop n).flatMap fun a => (f.pack a).1 := by
    rw [← List.flatMap_append, List.take_append_drop]
  have hlen : ((l.take n).flatMap fun a => (f.pack a).1).length = n * f.size := by
    rw [length_flatMap_pack, List.length_take, Nat.min_eq_left hn]
  rw [hsplit, List.take_left' hlen]

/-! ## Unpacking from a buffer -/

/-- `struct.unpack_from(fmt, buffer, offset)`. -/
def unpackFrom (f : Format α) (buffer : List UInt8) (offset : Nat) : Except Error α :=
  if h : offset + f.size ≤ buffer.length then
    .ok (f.unpack ⟨(buffer.drop offset).take f.size, by
      rw [List.length_take, List.length_drop]; omega⟩)
  else
    .error ⟨s!"unpack_from requires a buffer of at least {offset + f.size} bytes for " ++
      s!"unpacking {f.size} bytes at offset {offset} (actual buffer size is {buffer.length})"⟩

/-- Unpacking at the offset where a value was packed gives it back. -/
theorem unpackFrom_pack (f : Format α) (a : α) {before after : List UInt8} {offset : Nat}
    (hoffset : before.length = offset) :
    f.unpackFrom (before ++ ((f.pack a).1 ++ after)) offset = .ok a := by
  have hlen : offset + f.size ≤ (before ++ ((f.pack a).1 ++ after)).length := by
    rw [List.length_append, List.length_append, (f.pack a).2]
    omega
  have hpart : ((before ++ ((f.pack a).1 ++ after)).drop offset).take f.size =
      (f.pack a).1 := by
    rw [List.drop_left' hoffset, List.take_left' (f.pack a).2]
  unfold unpackFrom
  rw [dif_pos hlen]
  simp only [hpart]
  rw [show (⟨(f.pack a).1, _⟩ : Bytes f.size) = f.pack a from rfl, f.unpack_pack]

/-- Unpacking succeeds wherever the bytes are there. -/
theorem unpackFrom_ok (f : Format α) {buffer : List UInt8} {offset : Nat}
    (h : offset + f.size ≤ buffer.length) : ∃ a, f.unpackFrom buffer offset = .ok a := by
  unfold unpackFrom
  rw [dif_pos h]
  exact ⟨_, rfl⟩

/-- A buffer that is long enough starts with a packed value. -/
theorem exists_pack_append (f : Format α) {buffer : List UInt8} (h : f.size ≤ buffer.length) :
    ∃ a, buffer = (f.pack a).1 ++ buffer.drop f.size := by
  have hlen : (buffer.take f.size).length = f.size := by
    rw [List.length_take, Nat.min_eq_left h]
  refine ⟨f.unpack ⟨buffer.take f.size, hlen⟩, ?_⟩
  rw [f.pack_unpack, List.take_append_drop]

/-! ## Integers by their bytes -/

/-- `int.from_bytes(data, "little")`. -/
def littleEndian : List UInt8 → Nat
  | [] => 0
  | b :: data => b.toNat + 256 * littleEndian data

/-- The little-endian integer in the `size` bytes at `offset`. -/
def field (buffer : List UInt8) (offset size : Nat) : Nat :=
  littleEndian ((buffer.drop offset).take size)

/-- A packed 16-bit word is read back as its number. -/
@[simp] theorem littleEndian_pack_u16 (x : UInt16) :
    littleEndian (u16.pack x).1 = x.toNat := by
  have hx := x.toNat_lt
  simp only [u16, littleEndian, UInt8.toNat_ofNat']
  omega

/-- A packed 32-bit word is read back as its number. -/
@[simp] theorem littleEndian_pack_u32 (x : UInt32) :
    littleEndian (u32.pack x).1 = x.toNat := by
  have hx := x.toNat_lt
  simp only [u32, littleEndian, UInt8.toNat_ofNat']
  omega

/-- The first field of a packed pair. -/
theorem field_seq_zero (f : Format α) (g : Format β) (p : α × β) (after : List UInt8) :
    field (((f.seq g).pack p).1 ++ after) 0 f.size = littleEndian (f.pack p.1).1 := by
  unfold field
  rw [List.drop_zero]
  show littleEndian ((((f.pack p.1).1 ++ (g.pack p.2).1) ++ after).take f.size) = _
  rw [List.append_assoc, List.take_left' (f.pack p.1).2]

/-- The fields of a packed pair from its second part on. -/
theorem field_seq_add (f : Format α) (g : Format β) (p : α × β) (after : List UInt8)
    (offset size : Nat) :
    field (((f.seq g).pack p).1 ++ after) (f.size + offset) size =
      field ((g.pack p.2).1 ++ after) offset size := by
  unfold field
  show (((((f.pack p.1).1 ++ (g.pack p.2).1) ++ after).drop _).take _ |> littleEndian) = _
  rw [List.append_assoc, ← List.drop_drop, List.drop_left' (f.pack p.1).2]

end Format

/-- What `struct.pack` writes into an `ns` field: the value cut or padded with zeros. -/
def Bytes.pad (n : Nat) (data : List UInt8) : Bytes n :=
  ⟨(data ++ List.replicate n 0).take n, by simp⟩

/-- A value that fits is followed by zeros. -/
theorem Bytes.toList_pad {n : Nat} {data : List UInt8} (h : data.length ≤ n) :
    (Bytes.pad n data).1 = data ++ List.replicate (n - data.length) 0 := by
  show (data ++ List.replicate n 0).take n = _
  rw [List.take_append, List.take_of_length_le h, List.take_replicate, Nat.min_eq_left]
  omega

end Struct
