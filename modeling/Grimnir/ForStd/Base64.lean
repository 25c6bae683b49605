import Mathlib.Data.List.Basic

/-!
# Base64 with the URL-safe alphabet

`base64.urlsafe_b64encode` and `base64.urlsafe_b64decode`.  The decoder is the lenient one
of `binascii.a2b_base64`: bytes outside the alphabet are skipped, and it stops at the first
complete padding.

## Key results

- `urlsafeB64decode_encode`: decoding what was encoded gives it back
-/

namespace Base64

/-- `=`. -/
def pad : UInt8 := 61

/-- The character of a six-bit value. -/
def digit (v : Nat) : UInt8 :=
  if v < 26 then UInt8.ofNat (65 + v)
  else if v < 52 then UInt8.ofNat (97 + (v - 26))
  else if v < 62 then UInt8.ofNat (48 + (v - 52))
  else if v = 62 then 45
  else 95

/-- The six-bit value of a character.  The translation of `-` and `_` leaves `+` and `/`
    in the alphabet. -/
def value? (c : UInt8) : Option Nat :=
  let n := c.toNat
  if 65 ≤ n ∧ n ≤ 90 then some (n - 65)
  else if 97 ≤ n ∧ n ≤ 122 then some (n - 97 + 26)
  else if 48 ≤ n ∧ n ≤ 57 then some (n - 48 + 52)
  else if n = 43 ∨ n = 45 then some 62
  else if n = 47 ∨ n = 95 then some 63
  else none

/-- A printed digit has its value. -/
private theorem value?_digit {v : Nat} (h : v < 64) : value? (digit v) = some v := by
  have hall : ∀ v < 64, value? (digit v) = some v := by decide
  exact hall v h

/-- No digit is the padding character. -/
private theorem digit_ne_pad {v : Nat} (h : v < 64) : digit v ≠ pad := by
  have hall : ∀ v < 64, digit v ≠ pad := by decide
  exact hall v h

/-- `base64.urlsafe_b64encode`. -/
def urlsafeB64encode : List UInt8 → List UInt8
  | a :: b :: c :: rest =>
    digit (a.toNat / 4) :: digit (a.toNat % 4 * 16 + b.toNat / 16) ::
      digit (b.toNat % 16 * 4 + c.toNat / 64) :: digit (c.toNat % 64) :: urlsafeB64encode rest
  | [a, b] =>
    [digit (a.toNat / 4), digit (a.toNat % 4 * 16 + b.toNat / 16), digit (b.toNat % 16 * 4), pad]
  | [a] => [digit (a.toNat / 4), digit (a.toNat % 4 * 16), pad, pad]
  | [] => []

/-- The loop of `binascii.a2b_base64`: `pos` characters of a group have been read, `left` are
    their bits that are still to be written, and `pads` counts the paddings since the last
    character.  The error is the position where the data ends. -/
def a2b (pos left pads : Nat) : List UInt8 → Except Nat (List UInt8)
  | [] => if pos = 0 then .ok [] else .error pos
  | c :: rest =>
    if c = pad then
      if 2 ≤ pos ∧ 4 ≤ pos + (pads + 1) then .ok []
      else a2b pos left (if 2 ≤ pos then pads + 1 else pads) rest
    else
      match value? c with
      | none => a2b pos left pads rest
      | some v =>
        match pos with
        | 0 => a2b 1 v 0 rest
        | 1 => (UInt8.ofNat (left * 4 + v / 16) :: ·) <$> a2b 2 (v % 16) 0 rest
        | 2 => (UInt8.ofNat (left * 16 + v / 4) :: ·) <$> a2b 3 (v % 4) 0 rest
        | _ => (UInt8.ofNat (left * 64 + v) :: ·) <$> a2b 0 0 0 rest

/-- `base64.urlsafe_b64decode`, with the text of `binascii.Error`. -/
def urlsafeB64decode (data : List UInt8) : Except String (List UInt8) :=
  (a2b 0 0 0 data).mapError fun pos =>
    if pos = 1 then
      s!"Invalid base64-encoded string: number of data characters " ++
        s!"({(data.filter fun c => (value? c).isSome).length}) " ++
        "cannot be 1 more than a multiple of 4"
    else "Incorrect padding"

section Step

variable {v : Nat} (left pads : Nat) (rest : List UInt8)

/-- The first digit of a group only sets six bits aside. -/
private theorem a2b_zero (h : v < 64) : a2b 0 left pads (digit v :: rest) = a2b 1 v 0 rest := by
  simp [a2b, digit_ne_pad h, value?_digit h]

/-- The second digit completes the first byte of a group. -/
private theorem a2b_one (h : v < 64) : a2b 1 left pads (digit v :: rest) =
    (UInt8.ofNat (left * 4 + v / 16) :: ·) <$> a2b 2 (v % 16) 0 rest := by
  simp [a2b, digit_ne_pad h, value?_digit h]

/-- The third digit completes the second byte. -/
private theorem a2b_two (h : v < 64) : a2b 2 left pads (digit v :: rest) =
    (UInt8.ofNat (left * 16 + v / 4) :: ·) <$> a2b 3 (v % 4) 0 rest := by
  simp [a2b, digit_ne_pad h, value?_digit h]

/-- The fourth digit completes the third byte and the group. -/
private theorem a2b_three (h : v < 64) : a2b 3 left pads (digit v :: rest) =
    (UInt8.ofNat (left * 64 + v) :: ·) <$> a2b 0 0 0 rest := by
  simp [a2b, digit_ne_pad h, value?_digit h]

end Step

/-- A byte is determined by its number. -/
private theorem ofNat_eq {n : Nat} {b : UInt8} (h : n = b.toNat) : UInt8.ofNat n = b := by
  rw [h, UInt8.ofNat_toNat]

/-- Decoding undoes encoding, three bytes at a time and then the padded rest. -/
private theorem a2b_urlsafeB64encode (data : List UInt8) :
    a2b 0 0 0 (urlsafeB64encode data) = .ok data := by
  -- three bytes at a time, as the encoder goes
  induction data using urlsafeB64encode.induct with
  | case1 a b c rest ih =>
    have ha := a.toNat_lt
    have hb := b.toNat_lt
    have hc := c.toNat_lt
    rw [urlsafeB64encode, a2b_zero _ _ _ (by omega), a2b_one _ _ _ (by omega),
      a2b_two _ _ _ (by omega), a2b_three _ _ _ (by omega), ih]
    rw [ofNat_eq (show _ = a.toNat by omega), ofNat_eq (show _ = b.toNat by omega),
      ofNat_eq (show _ = c.toNat by omega)]
    rfl
  -- two bytes are left: three digits and one pad
  | case2 a b =>
    have ha := a.toNat_lt
    have hb := b.toNat_lt
    have hend : ∀ left, a2b 3 left 0 [pad] = .ok [] := fun _ => rfl
    rw [urlsafeB64encode, a2b_zero _ _ _ (by omega), a2b_one _ _ _ (by omega),
      a2b_two _ _ _ (by omega), hend, ofNat_eq (show _ = a.toNat by omega),
      ofNat_eq (show _ = b.toNat by omega)]
    rfl
  -- one byte is left: two digits and two pads
  | case3 a =>
    have ha := a.toNat_lt
    have hend : ∀ left, a2b 2 left 0 [pad, pad] = .ok [] := fun _ => rfl
    rw [urlsafeB64encode, a2b_zero _ _ _ (by omega), a2b_one _ _ _ (by omega), hend,
      ofNat_eq (show _ = a.toNat by omega)]
    rfl
  | case4 => rfl

/-- The digits are ASCII. -/
private theorem digit_lt (v : Nat) : digit v < 128 := by
  unfold digit
  split
  · rw [UInt8.lt_iff_toNat_lt, UInt8.toNat_ofNat']
    show _ < 128
    omega
  · split
    · rw [UInt8.lt_iff_toNat_lt, UInt8.toNat_ofNat']
      show _ < 128
      omega
    · split
      · rw [UInt8.lt_iff_toNat_lt, UInt8.toNat_ofNat']
        show _ < 128
        omega
      · split <;> decide

/-- Encoded data is ASCII. -/
theorem lt_of_mem_urlsafeB64encode {data : List UInt8} {c : UInt8}
    (h : c ∈ urlsafeB64encode data) : c < 128 := by
  have hpad : pad < 128 := by decide
  -- by the encoder's own cases: what it writes is a digit or the pad
  induction data using urlsafeB64encode.induct with
  | case1 a b d rest ih =>
    simp only [urlsafeB64encode, List.mem_cons] at h
    rcases h with rfl | rfl | rfl | rfl | h
    · exact digit_lt _
    · exact digit_lt _
    · exact digit_lt _
    · exact digit_lt _
    · exact ih h
  | case2 a b =>
    simp only [urlsafeB64encode, List.mem_cons, List.not_mem_nil, or_false] at h
    rcases h with rfl | rfl | rfl | rfl
    · exact digit_lt _
    · exact digit_lt _
    · exact digit_lt _
    · exact hpad
  | case3 a =>
    simp only [urlsafeB64encode, List.mem_cons, List.not_mem_nil, or_false] at h
    rcases h with rfl | rfl | rfl | rfl
    · exact digit_lt _
    · exact digit_lt _
    · exact hpad
    · exact hpad
  | case4 => cases h

/-- Decoding what was encoded gives it back. -/
theorem urlsafeB64decode_encode (data : List UInt8) :
    urlsafeB64decode (urlsafeB64encode data) = .ok data := by
  rw [urlsafeB64decode, a2b_urlsafeB64encode]
  rfl

end Base64
