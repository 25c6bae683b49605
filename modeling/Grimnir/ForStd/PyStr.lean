import Mathlib.Data.List.DropRight

/-!
# Python's strings

`strip` removes the characters for which `str.isspace` holds from both ends.  The table
of white space is Python's (Unicode `WS`, `B` and `S` classes and the `Zs` category).
`decodeAscii` and `hex` are `bytes.decode("ascii", errors="replace")` and the `x` format.

## Key results

- `strip_strip`: stripping twice is stripping once
- `decodeAscii_encodeAscii_take`: ASCII text survives its encoding
- `rstrip_append_replicate_of_getLast`: stripping a field takes the padding off, and nothing
  else
- `rstrip_append_padding`: padding a stripped field gives it back
-/

namespace PyStr

/-- `str.isspace` of one character. -/
def isSpace (c : Char) : Bool :=
  let n := c.toNat
  (9 ≤ n && n ≤ 13) || (28 ≤ n && n ≤ 32) || n == 0x85 || n == 0xA0 || n == 0x1680 ||
    (0x2000 ≤ n && n ≤ 0x200A) || n == 0x2028 || n == 0x2029 || n == 0x202F ||
    n == 0x205F || n == 0x3000

/-- Drop the elements satisfying `p` from both ends. -/
def stripList {α : Type} (p : α → Bool) (l : List α) : List α :=
  (l.dropWhile p).rdropWhile p

/-- `str.strip()`. -/
def strip (s : String) : String := String.ofList (stripList isSpace s.toList)

theorem stripList_stripList {α : Type} (p : α → Bool) (l : List α) :
    stripList p (stripList p l) = stripList p l := by
  have hfront : (stripList p l).dropWhile p = stripList p l := by
    rw [List.dropWhile_eq_self_iff]
    intro hlen
    have hpre : stripList p l <+: l.dropWhile p := List.rdropWhile_prefix p _
    have hlen' : 0 < (l.dropWhile p).length := lt_of_lt_of_le hlen hpre.length_le
    rw [hpre.getElem hlen]
    exact List.dropWhile_get_zero_not p l hlen'
  unfold stripList at hfront ⊢
  rw [hfront, List.rdropWhile_idempotent]

@[simp] theorem strip_strip (s : String) : strip (strip s) = strip s := by
  simp only [strip, String.toList_ofList, stripList_stripList]

/-- Stripping adds no character. -/
theorem mem_of_mem_strip {c : Char} {s : String} (h : c ∈ (strip s).toList) : c ∈ s.toList := by
  rw [strip, String.toList_ofList] at h
  have hfront := (List.rdropWhile_prefix isSpace (s.toList.dropWhile isSpace)).subset h
  exact (List.dropWhile_suffix isSpace).subset hfront

/-! ## Bytes -/

/-- `data.rstrip(bytes([b]))`. -/
def rstrip (b : UInt8) (data : List UInt8) : List UInt8 := data.rdropWhile (· == b)

/-- `data.decode("ascii", errors="replace")`: every byte outside ASCII becomes U+FFFD. -/
def decodeAscii (data : List UInt8) : String :=
  String.ofList (data.map fun b => if b < 128 then Char.ofNat b.toNat else Char.ofNat 0xFFFD)

/-- The bytes of an ASCII text. -/
def encodeAscii (text : String) : List UInt8 := text.toList.map fun c => UInt8.ofNat c.toNat

/-- `format(n, "0{width}x")`. -/
def hex (width n : Nat) : String :=
  String.ofList ((Nat.toDigits 16 n).leftpad width '0')

/-- `format(n, "0{width}X")`. -/
def hexUpper (width n : Nat) : String :=
  String.ofList (((Nat.toDigits 16 n).map Char.toUpper).leftpad width '0')

/-- A byte has two hexadecimal digits. -/
theorem hex_byte (b : UInt8) :
    hex 2 b.toNat =
      String.ofList [Nat.digitChar (b.toNat / 16), Nat.digitChar (b.toNat % 16)] := by
  have hall : ∀ n < 256,
      hex 2 n = String.ofList [Nat.digitChar (n / 16), Nat.digitChar (n % 16)] := by
    decide +kernel
  exact hall b.toNat b.toNat_lt

/-- ASCII text survives its encoding, as long as it is. -/
theorem decodeAscii_encodeAscii_take {text : String} (h : ∀ c ∈ text.toList, c.toNat < 128)
    (n : Nat) :
    decodeAscii ((encodeAscii text).take n) = String.ofList (text.toList.take n) := by
  unfold decodeAscii encodeAscii
  rw [← List.map_take, List.map_map]
  congr 1
  conv_rhs => rw [← List.map_id (text.toList.take n)]
  apply List.map_congr_left
  intro c hc
  have hlt := h c (List.mem_of_mem_take hc)
  have hbyte : (UInt8.ofNat c.toNat).toNat = c.toNat := by
    rw [UInt8.toNat_ofNat']
    omega
  have hascii : UInt8.ofNat c.toNat < 128 := by
    rw [UInt8.lt_iff_toNat_lt, hbyte]
    exact hlt
  show (if UInt8.ofNat c.toNat < 128 then _ else _) = c
  rw [if_pos hascii, hbyte, Char.ofNat_toNat]

/-- ASCII text survives its encoding. -/
theorem decodeAscii_encodeAscii {text : String} (h : ∀ c ∈ text.toList, c.toNat < 128) :
    decodeAscii (encodeAscii text) = text := by
  have htake := decodeAscii_encodeAscii_take h (encodeAscii text).length
  rwa [List.take_length, encodeAscii, List.length_map, List.take_length,
    String.ofList_toList] at htake

/-- ASCII bytes survive their decoding. -/
theorem encodeAscii_decodeAscii {data : List UInt8} (h : ∀ b ∈ data, b < 128) :
    encodeAscii (decodeAscii data) = data := by
  have hchar : ∀ n < 128, (Char.ofNat n).toNat = n := by decide
  unfold encodeAscii decodeAscii
  rw [String.toList_ofList, List.map_map]
  conv_rhs => rw [← List.map_id data]
  apply List.map_congr_left
  intro b hb
  have hlt : b.toNat < 128 := UInt8.lt_iff_toNat_lt.mp (h b hb)
  show UInt8.ofNat (if b < 128 then _ else _ : Char).toNat = b
  rw [if_pos (h b hb), hchar _ hlt, UInt8.ofNat_toNat]

/-- Stripping a padded field takes the padding off, and nothing else when the text does
    not end in the padding byte. -/
theorem rstrip_append_replicate_of_getLast {b : UInt8} {text : List UInt8}
    (h : text.getLast? ≠ some b) (n : Nat) :
    rstrip b (text ++ List.replicate n b) = text := by
  induction n with
  | zero =>
    rw [List.replicate_zero, List.append_nil]
    apply List.rdropWhile_eq_self_iff.mpr
    intro hne hlast
    rw [beq_iff_eq] at hlast
    exact h (by rw [List.getLast?_eq_some_getLast hne, hlast])
  | succ n ih =>
    rw [List.replicate_succ', ← List.append_assoc, rstrip, List.rdropWhile_concat_pos]
    · exact ih
    · exact beq_self_eq_true b

theorem rstrip_append_replicate {b : UInt8} {text : List UInt8} (h : b ∉ text) (n : Nat) :
    rstrip b (text ++ List.replicate n b) = text :=
  rstrip_append_replicate_of_getLast (fun hlast => h (List.mem_of_getLast? hlast)) n

/-- Padding a stripped field gives it back. -/
theorem rstrip_append_padding (b : UInt8) (data : List UInt8) :
    rstrip b data ++ List.replicate (data.length - (rstrip b data).length) b = data := by
  induction data using List.reverseRecOn with
  | nil => rfl
  | append_singleton data last ih =>
    unfold rstrip at ih ⊢
    by_cases hlast : last = b
    · subst hlast
      have hle : (data.rdropWhile (· == last)).length ≤ data.length :=
        (List.rdropWhile_prefix _ _).length_le
      have hstrip : (data ++ [last]).rdropWhile (· == last) = data.rdropWhile (· == last) :=
        List.rdropWhile_concat_pos _ _ _ (by simp)
      rw [hstrip, List.length_append, List.length_singleton, Nat.succ_sub hle,
        List.replicate_succ', ← List.append_assoc, ih]
    · rw [List.rdropWhile_concat_neg _ _ _ (by simpa using hlast), Nat.sub_self,
        List.replicate_zero, List.append_nil]

/-! ## Hexadecimal text -/

/-- The value of a lower-case hexadecimal digit. -/
def digitValue (c : Char) : Nat := if c.isDigit then c.toNat - 48 else c.toNat - 87

/-- `bytes.fromhex`, on lower-case digits without separators. -/
def fromHex : List Char → List UInt8
  | high :: low :: rest => UInt8.ofNat (16 * digitValue high + digitValue low) :: fromHex rest
  | _ => []

theorem digitValue_digitChar {n : Nat} (h : n < 16) : digitValue (Nat.digitChar n) = n := by
  have hall : ∀ n < 16, digitValue (Nat.digitChar n) = n := by decide
  exact hall n h

/-- The digits of a byte are read back. -/
theorem fromHex_hex_append (b : UInt8) (rest : List Char) :
    fromHex ((hex 2 b.toNat).toList ++ rest) = b :: fromHex rest := by
  have hlt := b.toNat_lt
  rw [hex_byte, String.toList_ofList]
  show UInt8.ofNat (16 * digitValue _ + digitValue _) :: fromHex rest = _
  rw [digitValue_digitChar (by omega), digitValue_digitChar (by omega), Nat.div_add_mod,
    UInt8.ofNat_toNat]

end PyStr
