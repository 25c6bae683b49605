import Grimnir.ForStd.Struct

/-!
# Byte buffers of a C program

`store`, `memset` and `strncpy` on a buffer of known length.  A write carries the proof that
it stays inside the buffer, so no call of these models an overrun.

## Key results

- `take_store`: a buffer up to the end of a write is what stood before it and what was written
- `strncpy_memset`: the field that `memset` and `strncpy` leave, as text and padding
-/

namespace CMemory

open Struct

/-- `memcpy(dst + offset, src, len)`. -/
def store {n : Nat} (dst : Bytes n) (offset : Nat) (src : List UInt8)
    (h : offset + src.length ≤ n) : Bytes n :=
  ⟨dst.1.take offset ++ (src ++ dst.1.drop (offset + src.length)), by
    simp only [List.length_append, List.length_take, List.length_drop, dst.2]
    omega⟩

/-- `memset(dst, c, sizeof dst)`. -/
def memset (n : Nat) (c : UInt8) : Bytes n := .replicate n c

/-- `strncpy(dst, src, count)` for the C string with the characters `src`: at most `count` of
    them, then `NUL`s up to `count`; the bytes after `count` stay. -/
def strncpy {n : Nat} (dst : Bytes n) (src : List UInt8) (count : Nat) (h : count ≤ n) :
    Bytes n :=
  store dst 0 (src.take count ++ List.replicate (count - src.length) 0) (by
    simp only [List.length_append, List.length_take, List.length_replicate]
    omega)

/-- A buffer up to the end of a write is what stood before it and what was written. -/
theorem take_store {n stop : Nat} (dst : Bytes n) (offset : Nat) (src : List UInt8)
    (h : offset + src.length ≤ n) (hstop : stop = offset + src.length) :
    (store dst offset src h).1.take stop = dst.1.take offset ++ src := by
  have hbefore : (dst.1.take offset).length = offset := by
    rw [List.length_take, dst.2]
    omega
  show (dst.1.take offset ++ (src ++ _)).take stop = _
  rw [← List.append_assoc, List.take_left']
  rw [List.length_append, hbefore, hstop]

/-- The field that `memset` and `strncpy` leave: the text and its padding. -/
theorem strncpy_memset {n : Nat} (src : List UInt8) (count : Nat) (h : count ≤ n) :
    (strncpy (memset n 0) src count h).1 =
      src.take count ++ List.replicate (n - (src.take count).length) 0 := by
  have hlen : (src.take count).length = min count src.length := List.length_take
  simp only [strncpy, store, memset, Sized.replicate, List.take_zero, List.nil_append,
    List.drop_replicate, List.append_assoc, List.replicate_append_replicate,
    List.length_append, List.length_replicate, hlen]
  congr 2
  omega

end CMemory
