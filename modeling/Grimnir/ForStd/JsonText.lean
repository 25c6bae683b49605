import Grimnir.ForStd.Json
import Mathlib.Data.List.Basic

/-!
# Reading and writing JSON text

`json.loads` on bytes: `detect_encoding`, the decoder of that encoding and the scanner of
the `json` package.  `json.dumps` is given for strings, integers and flat objects.  A lone
surrogate, which a Python string can hold, is read as U+FFFD.  The double that a numeral
denotes and the limits of the interpreter are parameters.

## Key results

- `scanString_dumpsString`: the scanner reads a dumped string back
- `scanNumber_dumpsInt`: the scanner reads a dumped integer back
- `decodeText_ascii`: ASCII text that starts with two characters other than NUL is UTF-8
-/

namespace Json

/-! ## Text of bytes -/

/-- The character of a code point. -/
def charOf (n : Nat) : Char := if n.isValidChar then Char.ofNat n else Char.ofNat 0xFFFD

/-- A continuation byte of UTF-8. -/
def isTail (b : UInt8) : Bool := 0x80 ≤ b && b ≤ 0xBF

/-- `bytes.decode("utf-8", "surrogatepass")`. -/
def utf8 : List UInt8 → Option (List Char)
  | [] => some []
  | a :: rest =>
    if a < 0x80 then (charOf a.toNat :: ·) <$> utf8 rest
    else match rest with
    | [] => none
    | b :: rest =>
      if 0xC2 ≤ a && a ≤ 0xDF && isTail b then
        (charOf ((a.toNat - 0xC0) * 64 + (b.toNat - 0x80)) :: ·) <$> utf8 rest
      else match rest with
      | [] => none
      | c :: rest =>
        if 0xE0 ≤ a && a ≤ 0xEF && (a ≠ 0xE0 || 0xA0 ≤ b) && isTail b && isTail c then
          (charOf ((a.toNat - 0xE0) * 4096 + (b.toNat - 0x80) * 64 + (c.toNat - 0x80)) :: ·) <$>
            utf8 rest
        else match rest with
        | [] => none
        | d :: rest =>
          if 0xF0 ≤ a && a ≤ 0xF4 && (a ≠ 0xF0 || 0x90 ≤ b) && (a ≠ 0xF4 || b ≤ 0x8F) &&
              isTail b && isTail c && isTail d then
            (charOf ((a.toNat - 0xF0) * 262144 + (b.toNat - 0x80) * 4096 +
              (c.toNat - 0x80) * 64 + (d.toNat - 0x80)) :: ·) <$> utf8 rest
          else none

/-- The 16-bit units of a block of bytes. -/
def units16 (bigEndian : Bool) : List UInt8 → Option (List Nat)
  | [] => some []
  | [_] => none
  | a :: b :: rest =>
    (((if bigEndian then a.toNat * 256 + b.toNat else b.toNat * 256 + a.toNat)) :: ·) <$>
      units16 bigEndian rest

/-- The 32-bit units of a block of bytes. -/
def units32 (bigEndian : Bool) : List UInt8 → Option (List Nat)
  | [] => some []
  | a :: b :: c :: d :: rest =>
    let unit := if bigEndian then ((a.toNat * 256 + b.toNat) * 256 + c.toNat) * 256 + d.toNat
      else ((d.toNat * 256 + c.toNat) * 256 + b.toNat) * 256 + a.toNat
    if unit ≤ 0x10FFFF then (unit :: ·) <$> units32 bigEndian rest else none
  | _ => none

/-- Surrogate pairs joined to the characters they stand for. -/
def joinSurrogates : List Nat → List Char
  | hi :: lo :: rest =>
    if 0xD800 ≤ hi ∧ hi ≤ 0xDBFF ∧ 0xDC00 ≤ lo ∧ lo ≤ 0xDFFF then
      charOf (0x10000 + (hi - 0xD800) * 1024 + (lo - 0xDC00)) :: joinSurrogates rest
    else charOf hi :: joinSurrogates (lo :: rest)
  | [n] => [charOf n]
  | [] => []

def utf16 (bigEndian : Bool) (data : List UInt8) : Option (List Char) :=
  joinSurrogates <$> units16 bigEndian data

def utf32 (bigEndian : Bool) (data : List UInt8) : Option (List Char) :=
  (List.map charOf) <$> units32 bigEndian data

/-- `s.decode(detect_encoding(s), "surrogatepass")`: a byte order mark decides, then the
    place of the zero bytes among the first four. -/
def decodeText (data : List UInt8) : Option (List Char) :=
  if [0x00, 0x00, 0xFE, 0xFF].isPrefixOf data then utf32 true (data.drop 4)
  else if [0xFF, 0xFE, 0x00, 0x00].isPrefixOf data then utf32 false (data.drop 4)
  else if [0xFE, 0xFF].isPrefixOf data then utf16 true (data.drop 2)
  else if [0xFF, 0xFE].isPrefixOf data then utf16 false (data.drop 2)
  else if [0xEF, 0xBB, 0xBF].isPrefixOf data then utf8 (data.drop 3)
  else
    match data with
    | a :: b :: c :: d :: _ =>
      if a = 0 then if b = 0 then utf32 true data else utf16 true data
      else if b = 0 then if c = 0 ∧ d = 0 then utf32 false data else utf16 false data
      else utf8 data
    | [a, b] => if a = 0 then utf16 true data else if b = 0 then utf16 false data else utf8 data
    | _ => utf8 data

/-! ## Scanning -/

def isSpace (c : Char) : Bool := c = ' ' || c = '\t' || c = '\n' || c = '\r'

def hexValue? (c : Char) : Option Nat :=
  if c.isDigit then some (c.toNat - 48)
  else if 'a' ≤ c && c ≤ 'f' then some (c.toNat - 87)
  else if 'A' ≤ c && c ≤ 'F' then some (c.toNat - 55)
  else none

/-- What a one-letter escape stands for. -/
def escape? (c : Char) : Option Nat :=
  if c = '"' then some 34 else if c = '\\' then some 92 else if c = '/' then some 47
  else if c = 'b' then some 8 else if c = 'f' then some 12 else if c = 'n' then some 10
  else if c = 'r' then some 13 else if c = 't' then some 9 else none

/-- `scanstring`, after the opening quote: the units of the string and the text behind the
    closing quote. -/
def scanString : List Char → Option (List Nat × List Char)
  | [] => none
  | c :: rest =>
    if c = '"' then some ([], rest)
    else if c = '\\' then
      match rest with
      | 'u' :: a :: b :: c :: d :: rest => do
        let n := (((← hexValue? a) * 16 + (← hexValue? b)) * 16 + (← hexValue? c)) * 16 +
          (← hexValue? d)
        let (s, rest) ← scanString rest
        some (n :: s, rest)
      | e :: rest => do
        let n ← escape? e
        let (s, rest) ← scanString rest
        some (n :: s, rest)
      | [] => none
    else if c.toNat < 32 then none
    else do
      let (s, rest) ← scanString rest
      some (c.toNat :: s, rest)

/-- `(\.\d+)?` of `NUMBER_RE`. -/
def fraction : List Char → List Char
  | '.' :: rest =>
    let digits := rest.takeWhile Char.isDigit
    if digits = [] then [] else '.' :: digits
  | _ => []

/-- `([eE][-+]?\d+)?` of `NUMBER_RE`. -/
def exponent : List Char → List Char
  | e :: rest =>
    if e = 'e' ∨ e = 'E' then
      let sign := rest.takeWhile fun c => c = '-' ∨ c = '+'
      let digits := (rest.drop sign.length).takeWhile Char.isDigit
      if sign.length ≤ 1 ∧ digits ≠ [] then e :: sign ++ digits else []
    else []
  | [] => []

/-- The limits of an interpreter; `none` is no limit. -/
structure Limits where
  /-- How many objects and arrays the scanner enters one inside the other. -/
  maxDepth : Option Nat
  /-- How many digits an integer may have as text. -/
  maxDigits : Option Nat
  depth_pos : ∀ d ∈ maxDepth, 1 ≤ d

/-- `n` is within a limit. -/
def within (limit : Option Nat) (n : Nat) : Prop := ∀ d ∈ limit, n ≤ d

/-- Where no limit is set, every number is within it. -/
theorem within_none (n : Nat) : within none n := fun d h => absurd h (Option.not_mem_none d)

instance (limit : Option Nat) (n : Nat) : Decidable (within limit n) :=
  match limit with
  | none => .isTrue (within_none n)
  | some d => decidable_of_iff (n ≤ d) (by simp [within])

/-- An interpreter without limits. -/
def Limits.unlimited : Limits := ⟨none, none, within_none 1⟩

/-- Why the scanner gives up: a `ValueError`, or the `RecursionError` of a nested container. -/
inductive ScanError where
  | value
  | recursion
  deriving DecidableEq

/-- A part of the scanner that raises a `ValueError`. -/
def orValue {α : Type} : Option α → Except ScanError α
  | some a => .ok a
  | none => .error .value

section Scan

variable (limits : Limits) (floatOfText : List Char → UInt64)

/-- `NUMBER_RE`: an integer, unless it has too many digits, or the double of a numeral with a
    fraction or an exponent. -/
def scanNumber (text : List Char) : Option (Json × List Char) :=
  let sign := if text.head? = some '-' then ['-'] else []
  let body := text.drop sign.length
  let digits := body.takeWhile Char.isDigit
  match digits.head? with
  | none => none
  | some first =>
    let whole := if first = '0' then ['0'] else digits
    let rest := body.drop whole.length
    let frac := fraction rest
    let exp := exponent (rest.drop frac.length)
    if frac ++ exp = [] then
      let n : Nat := Nat.ofDigitChars 10 whole 0
      if within limits.maxDigits whole.length then
        some (.int (if sign = [] then n else -n), rest)
      else none
    else
      some (.float (floatOfText (sign ++ whole ++ frac ++ exp)),
        rest.drop (frac ++ exp).length)

/-- `_Py_EnterRecursiveCall`, with `depth` objects and arrays entered. -/
def enter (depth : Nat) : Except ScanError Unit :=
  if within limits.maxDepth (depth + 1) then .ok () else .error .recursion

mutual

/-- `scan_once`, inside of `depth` objects and arrays.  `fuel` bounds the calls; each one
    consumes a character. -/
def scanValue : Nat → Nat → List Char → Except ScanError (Json × List Char)
  | 0, _, _ => .error .value
  | fuel + 1, depth, text =>
    match text with
    | '"' :: rest => do
      let (s, rest) ← orValue (scanString rest)
      return (.str (String.ofList (joinSurrogates s)), rest)
    | '\x7b' :: rest => do
      enter limits depth
      match rest.dropWhile isSpace with
      | '\x7d' :: rest => return (.obj [], rest)
      | rest =>
        let (members, rest) ← scanMembers fuel (depth + 1) rest
        -- the last of two members with one key counts
        return (.obj members.reverse, rest)
    | '[' :: rest => do
      enter limits depth
      match rest.dropWhile isSpace with
      | ']' :: rest => return (.arr [], rest)
      | rest =>
        let (items, rest) ← scanItems fuel (depth + 1) rest
        return (.arr items, rest)
    | 'n' :: 'u' :: 'l' :: 'l' :: rest => return (.null, rest)
    | 't' :: 'r' :: 'u' :: 'e' :: rest => return (.bool true, rest)
    | 'f' :: 'a' :: 'l' :: 's' :: 'e' :: rest => return (.bool false, rest)
    | 'N' :: 'a' :: 'N' :: rest => return (.float 0x7FF8000000000000, rest)
    | 'I' :: 'n' :: 'f' :: 'i' :: 'n' :: 'i' :: 't' :: 'y' :: rest =>
      return (.float 0x7FF0000000000000, rest)
    | '-' :: 'I' :: 'n' :: 'f' :: 'i' :: 'n' :: 'i' :: 't' :: 'y' :: rest =>
      return (.float 0xFFF0000000000000, rest)
    | _ => orValue (scanNumber limits floatOfText text)

/-- The members of an object, up to its closing brace. -/
def scanMembers : Nat → Nat → List Char → Except ScanError (List (String × Json) × List Char)
  | 0, _, _ => .error .value
  | fuel + 1, depth, text =>
    match text with
    | '"' :: rest => do
      let (key, rest) ← orValue (scanString rest)
      match rest.dropWhile isSpace with
      | ':' :: rest =>
        let (value, rest) ← scanValue fuel depth (rest.dropWhile isSpace)
        let member := (String.ofList (joinSurrogates key), value)
        match rest.dropWhile isSpace with
        | '\x7d' :: rest => return ([member], rest)
        | ',' :: rest =>
          let (members, rest) ← scanMembers fuel depth (rest.dropWhile isSpace)
          return (member :: members, rest)
        | _ => throw .value
      | _ => throw .value
    | _ => .error .value

/-- The items of an array, up to its closing bracket. -/
def scanItems : Nat → Nat → List Char → Except ScanError (List Json × List Char)
  | 0, _, _ => .error .value
  | fuel + 1, depth, text => do
    let (item, rest) ← scanValue fuel depth text
    match rest.dropWhile isSpace with
    | ']' :: rest => return ([item], rest)
    | ',' :: rest =>
      let (items, rest) ← scanItems fuel depth (rest.dropWhile isSpace)
      return (item :: items, rest)
    | _ => throw .value

end

/-- What `json.loads` raises: the kind of a `ValueError`, or a `RecursionError`. -/
inductive LoadsError where
  | valueError (message : String)
  | recursionError
  deriving DecidableEq

/-- `json.loads` of bytes. -/
def loads (data : List UInt8) : Except LoadsError Json :=
  match decodeText data with
  | none => .error (.valueError "codec can't decode bytes")
  | some text =>
    match scanValue limits floatOfText (text.length + 1) 0 (text.dropWhile isSpace) with
    | .error .value => .error (.valueError "Expecting value")
    | .error .recursion => .error .recursionError
    | .ok (doc, rest) =>
      if rest.dropWhile isSpace = [] then .ok doc else .error (.valueError "Extra data")

end Scan

/-! ## Writing -/

/-- `\uXXXX`. -/
def escapeUnit (n : Nat) : List Char :=
  ['\\', 'u', Nat.digitChar (n / 4096 % 16), Nat.digitChar (n / 256 % 16),
    Nat.digitChar (n / 16 % 16), Nat.digitChar (n % 16)]

/-- One character of `json.dumps` of a string, under `ensure_ascii`. -/
def dumpsChar (c : Char) : List Char :=
  if c = '"' then ['\\', '"'] else if c = '\\' then ['\\', '\\']
  else if c = '\n' then ['\\', 'n'] else if c = '\r' then ['\\', 'r']
  else if c = '\t' then ['\\', 't'] else if c.toNat = 12 then ['\\', 'f']
  else if c.toNat = 8 then ['\\', 'b']
  else if 32 ≤ c.toNat ∧ c.toNat < 127 then [c]
  else if c.toNat < 0x10000 then escapeUnit c.toNat
  else escapeUnit (0xD800 + (c.toNat - 0x10000) / 1024) ++
    escapeUnit (0xDC00 + (c.toNat - 0x10000) % 1024)

/-- `json.dumps` of a string. -/
def dumpsString (s : String) : List Char := '"' :: s.toList.flatMap dumpsChar ++ ['"']

/-- `json.dumps` of an integer. -/
def dumpsInt (n : Int) : List Char := n.repr.toList

/-- The digits of an integer. -/
def digitCount (n : Int) : Nat := (Nat.toDigits 10 n.natAbs).length

/-- `json.dumps` of an object whose values are dumped. -/
def dumpsObject (members : List (String × List Char)) : List Char :=
  '\x7b' :: [',', ' '].intercalate (members.map fun m => dumpsString m.1 ++ [':', ' '] ++ m.2) ++
    ['\x7d']

/-! ## Reading what was written -/

/-- A character is read back from its code point. -/
private theorem charOf_toNat (c : Char) : charOf c.toNat = c := by
  have hvalid : c.toNat.isValidChar := c.valid
  rw [charOf, if_pos hvalid, Char.ofNat_toNat]

/-- The units of a character in a string. -/
def unitsOf (c : Char) : List Nat :=
  if c.toNat < 0x10000 then [c.toNat]
  else [0xD800 + (c.toNat - 0x10000) / 1024, 0xDC00 + (c.toNat - 0x10000) % 1024]

/-- A unit that is no high surrogate stands for a character by itself. -/
private theorem joinSurrogates_cons {n : Nat} (h : n < 0xD800 ∨ 0xDBFF < n) (units : List Nat) :
    joinSurrogates (n :: units) = charOf n :: joinSurrogates units := by
  cases units with
  | nil => rfl
  | cons lo units =>
    rw [joinSurrogates, if_neg]
    omega

/-- The units of a character, one or a surrogate pair, are joined to that character. -/
private theorem joinSurrogates_unitsOf_append (c : Char) (units : List Nat) :
    joinSurrogates (unitsOf c ++ units) = c :: joinSurrogates units := by
  have hvalid : c.toNat < 0xD800 ∨ 0xDFFF < c.toNat ∧ c.toNat < 0x110000 := c.valid
  unfold unitsOf
  split
  · show joinSurrogates (c.toNat :: units) = _
    rw [joinSurrogates_cons (by omega), charOf_toNat]
  · have hjoin : 0x10000 + (0xD800 + (c.toNat - 0x10000) / 1024 - 0xD800) * 1024 +
        (0xDC00 + (c.toNat - 0x10000) % 1024 - 0xDC00) = c.toNat := by omega
    show joinSurrogates (_ :: _ :: units) = _
    rw [joinSurrogates, if_pos (by omega), hjoin, charOf_toNat]

/-- Splitting a text into UTF-16 units and joining them gives the text back. -/
private theorem joinSurrogates_unitsOf (s : List Char) :
    joinSurrogates (s.flatMap unitsOf) = s := by
  induction s with
  | nil => rfl
  | cons c s ih => rw [List.flatMap_cons, joinSurrogates_unitsOf_append, ih]

/-- A printed hexadecimal digit has its value. -/
private theorem hexValue?_digitChar {n : Nat} (h : n < 16) :
    hexValue? (Nat.digitChar n) = some n := by
  have hall : ∀ n < 16, hexValue? (Nat.digitChar n) = some n := by decide
  exact hall n h

/-- The closing quote ends the string. -/
@[simp] theorem scanString_quote (rest : List Char) :
    scanString ('"' :: rest) = some ([], rest) := by
  rw [scanString.eq_def]
  exact if_pos rfl

/-- A printable character other than the quote and the backslash stands for itself. -/
private theorem scanString_plain {c : Char} (hquote : c ≠ '"') (hback : c ≠ '\\') (h : 32 ≤ c.toNat)
    (text : List Char) :
    scanString (c :: text) = (scanString text).map fun p => (c.toNat :: p.1, p.2) := by
  rw [scanString.eq_def]
  simp only [hquote, hback, if_false, if_neg (Nat.not_lt.mpr h)]
  cases scanString text <;> rfl

/-- A two-character escape stands for its control character. -/
private theorem scanString_escape {e : Char} {n : Nat} (hu : e ≠ 'u') (h : escape? e = some n)
    (text : List Char) :
    scanString ('\\' :: e :: text) = (scanString text).map fun p => (n :: p.1, p.2) := by
  rw [scanString.eq_def]
  simp only [Char.reduceEq, if_false, if_true]
  split
  · rename_i heq
    cases heq
    exact absurd rfl hu
  · rename_i heq
    cases heq
    rw [h]
    cases scanString text <;> rfl
  · rename_i heq
    cases heq

/-- A `\uXXXX` escape stands for its unit. -/
private theorem scanString_escapeUnit {n : Nat} (h : n < 0x10000) (text : List Char) :
    scanString (escapeUnit n ++ text) =
      (scanString text).map fun p => (n :: p.1, p.2) := by
  have hsum : ((n / 4096 % 16 * 16 + n / 256 % 16) * 16 + n / 16 % 16) * 16 + n % 16 = n := by
    omega
  have hdigit : ∀ k, hexValue? (Nat.digitChar (k % 16)) = some (k % 16) :=
    fun k => hexValue?_digitChar (Nat.mod_lt k (by omega))
  rw [escapeUnit, List.cons_append, scanString.eq_def]
  simp only [Char.reduceEq, if_false, if_true, List.cons_append, List.nil_append, hdigit]
  cases scanString text with
  | none => rfl
  | some p => exact congrArg (fun k => some (k :: p.1, p.2)) hsum

/-- The scanner reads a dumped character back. -/
private theorem scanString_dumpsChar (c : Char) (text : List Char) :
    scanString (dumpsChar c ++ text) =
      (scanString text).map fun p => (unitsOf c ++ p.1, p.2) := by
  have hvalid : c.toNat < 0xD800 ∨ 0xDFFF < c.toNat ∧ c.toNat < 0x110000 := c.valid
  -- the escapes with a letter of their own come first
  by_cases hletter : c ∈ ['"', '\\', '\n', '\r', '\t', '\x0c', '\x08']
  · simp only [List.mem_cons, List.not_mem_nil, or_false] at hletter
    rcases hletter with rfl | rfl | rfl | rfl | rfl | rfl | rfl <;>
      exact scanString_escape (by decide) (by decide) text
  · simp only [List.mem_cons, List.not_mem_nil, or_false, not_or] at hletter
    obtain ⟨hquote, hback, hn, hr, ht, hf, hb⟩ := hletter
    have hff : c.toNat ≠ 12 := fun h => hf (Char.toNat_inj.mp h)
    have hbs : c.toNat ≠ 8 := fun h => hb (Char.toNat_inj.mp h)
    simp only [dumpsChar, unitsOf, hquote, hback, hn, hr, ht, hff, hbs, if_false]
    -- printable ASCII stands for itself
    by_cases hplain : 32 ≤ c.toNat ∧ c.toNat < 127
    · rw [if_pos hplain, if_pos (by omega)]
      exact scanString_plain hquote hback hplain.1 text
    · rw [if_neg hplain]
      -- one unit, or a surrogate pair
      by_cases hbmp : c.toNat < 0x10000
      · rw [if_pos hbmp, if_pos hbmp]
        exact scanString_escapeUnit hbmp text
      · rw [if_neg hbmp, if_neg hbmp, List.append_assoc, scanString_escapeUnit (by omega),
          scanString_escapeUnit (by omega), Option.map_map]
        rfl

/-- The scanner reads a dumped string back. -/
theorem scanString_dumpsString (s : String) (rest : List Char) :
    ∃ units, scanString (s.toList.flatMap dumpsChar ++ '"' :: rest) = some (units, rest) ∧
      String.ofList (joinSurrogates units) = s := by
  refine ⟨s.toList.flatMap unitsOf, ?_, by rw [joinSurrogates_unitsOf, String.ofList_toList]⟩
  induction s.toList with
  | nil => exact scanString_quote rest
  | cons c s ih =>
    rw [List.flatMap_cons, List.append_assoc, scanString_dumpsChar, ih]
    rfl

/-- Nothing at the start of `rest` continues a numeral. -/
def EndsNumeral (rest : List Char) : Prop :=
  ∀ c ∈ rest.head?, c.isDigit = false ∧ c ≠ '.' ∧ c ≠ 'e' ∧ c ≠ 'E'

/-- A numeral ends where no digit, point or exponent follows. -/
theorem endsNumeral_cons {c : Char} {rest : List Char}
    (h : c.isDigit = false ∧ c ≠ '.' ∧ c ≠ 'e' ∧ c ≠ 'E') : EndsNumeral (c :: rest) := by
  intro d hd
  cases hd
  exact h

/-- A positive number is printed without a leading zero. -/
theorem head?_toDigits {n : Nat} (h : 0 < n) : (Nat.toDigits 10 n).head? ≠ some '0' := by
  induction n using Nat.strongRecOn with
  | ind n ih =>
    by_cases hten : n < 10
    · rw [Nat.toDigits_of_lt_base hten]
      simp
      omega
    · rw [Nat.toDigits_of_base_le (by omega) (by omega), List.head?_append_of_ne_nil]
      · exact ih (n / 10) (by omega) (by omega)
      · exact Nat.toDigits_ne_nil

/-- The digits read are those printed, up to the end of the numeral. -/
private theorem takeWhile_toDigits_append (n : Nat) {rest : List Char} (h : EndsNumeral rest) :
    (Nat.toDigits 10 n ++ rest).takeWhile Char.isDigit = Nat.toDigits 10 n := by
  have hdigits : ∀ c ∈ Nat.toDigits 10 n, c.isDigit = true :=
    fun c hc => Nat.isDigit_of_mem_toDigits (by omega) (by omega) hc
  rw [List.takeWhile_append_of_pos hdigits]
  cases rest with
  | nil => simp
  | cons c rest =>
    rw [List.takeWhile_cons_of_neg, List.append_nil]
    rw [(h c rfl).1]
    decide

/-- After the end of a numeral there is no fraction. -/
private theorem fraction_of_endsNumeral {rest : List Char} (h : EndsNumeral rest) :
    fraction rest = [] := by
  unfold fraction
  split
  · exact absurd rfl (h '.' rfl).2.1
  · rfl

/-- After the end of a numeral there is no exponent. -/
theorem exponent_of_endsNumeral {rest : List Char} (h : EndsNumeral rest) :
    exponent rest = [] := by
  cases rest with
  | nil => rfl
  | cons c rest =>
    have hc := h c rfl
    rw [exponent, if_neg]
    simp [hc]

/-- The scanner reads the digits of a number back, with its sign. -/
private theorem scanNumber_toDigits {limits : Limits} (floatOfText : List Char → UInt64)
    (negative : Bool)
    {n : Nat} (hdigits : within limits.maxDigits (Nat.toDigits 10 n).length) {rest : List Char}
    (h : EndsNumeral rest) :
    scanNumber limits floatOfText
        ((if negative then ['-'] else []) ++ (Nat.toDigits 10 n ++ rest)) =
      some (.int (if negative then -n else n), rest) := by
  -- the numeral begins with a digit, so without a sign there is none
  obtain ⟨first, tail, hcons⟩ : ∃ first tail, Nat.toDigits 10 n = first :: tail :=
    List.exists_cons_of_ne_nil Nat.toDigits_ne_nil
  have hfirst : first.isDigit = true :=
    Nat.isDigit_of_mem_toDigits (by omega) (by omega) (hcons ▸ List.mem_cons_self)
  have hsign : (if ((if negative then ['-'] else []) ++ (Nat.toDigits 10 n ++ rest)).head? =
      some '-' then ['-'] else []) = if negative then ['-'] else [] := by
    cases negative with
    | true => rfl
    | false =>
      rw [hcons]
      apply if_neg
      intro heq
      cases heq
      cases hfirst
  -- a numeral with more than one digit has no leading zero
  have hwhole : (if first = '0' then ['0'] else Nat.toDigits 10 n) = Nat.toDigits 10 n := by
    split
    · rename_i hzero
      have hn : n = 0 := by
        apply Nat.eq_zero_of_not_pos
        intro hpos
        exact head?_toDigits hpos (by rw [hcons, hzero]; rfl)
      rw [hn]
      rfl
    · rfl
  -- neither a fraction nor an exponent follows
  unfold scanNumber
  simp only [hsign, List.drop_left, takeWhile_toDigits_append n h]
  rw [show (Nat.toDigits 10 n).head? = some first by rw [hcons]; rfl]
  simp only [hwhole, List.drop_left, fraction_of_endsNumeral h, List.length_nil, List.drop_zero,
    exponent_of_endsNumeral h, List.append_nil, if_true, if_pos hdigits,
    Nat.ofDigitChars_ten_toDigits]
  cases negative <;> rfl

/-- The scanner reads a dumped integer back. -/
theorem scanNumber_dumpsInt {limits : Limits} (floatOfText : List Char → UInt64) {n : Int}
    (hdigits : within limits.maxDigits (digitCount n)) {rest : List Char} (h : EndsNumeral rest) :
    scanNumber limits floatOfText (dumpsInt n ++ rest) = some (.int n, rest) := by
  unfold digitCount at hdigits
  rw [dumpsInt, Int.repr_eq_if]
  split
  · rename_i hn
    have hnat : n.natAbs = n.toNat := by omega
    have hscan := scanNumber_toDigits floatOfText false (hnat ▸ hdigits) h
    simp only [Bool.false_eq_true, if_false, List.nil_append] at hscan
    rw [Nat.toList_repr, hscan, Int.toNat_of_nonneg hn]
  · rename_i hn
    have hnat : n.natAbs = (-n).toNat := by omega
    have hscan := scanNumber_toDigits floatOfText true (hnat ▸ hdigits) h
    simp only [if_true] at hscan
    rw [String.toList_append, Nat.toList_repr, List.append_assoc]
    show scanNumber limits floatOfText (['-'] ++ _) = _
    rw [hscan]
    congr 3
    omega

section Documents

variable (limits : Limits) (floatOfText : List Char → UInt64)

/-- A dumped string is read back, whatever text follows. -/
theorem scanValue_dumpsString (fuel depth : Nat) (s : String) (rest : List Char) :
    scanValue limits floatOfText (fuel + 1) depth (dumpsString s ++ rest) = .ok (.str s, rest) := by
  obtain ⟨units, hscan, hs⟩ := scanString_dumpsString s rest
  have htext : dumpsString s ++ rest = '"' :: (s.toList.flatMap dumpsChar ++ '"' :: rest) := by
    simp [dumpsString]
  rw [htext, scanValue, hscan, ← hs]
  rfl

/-- A value that begins with a digit is a number. -/
theorem scanValue_of_digit (fuel depth : Nat) {c : Char} (tail : List Char)
    (h : c.isDigit = true) : scanValue limits floatOfText (fuel + 1) depth (c :: tail) =
      orValue (scanNumber limits floatOfText (c :: tail)) := by
  -- no document other than a numeral starts with a digit
  rw [scanValue] <;>
    · intro rest heq
      cases heq
      exact absurd h (by decide)

/-- A value that begins with a minus and a digit is a number. -/
theorem scanValue_of_minus (fuel depth : Nat) {c : Char} (tail : List Char)
    (h : c.isDigit = true) : scanValue limits floatOfText (fuel + 1) depth ('-' :: c :: tail) =
      orValue (scanNumber limits floatOfText ('-' :: c :: tail)) := by
  rw [scanValue] <;>
    · intro rest heq
      cases heq
      try exact absurd h (by decide)

/-- A dumped integer of a length the decoder admits is read back. -/
theorem scanValue_dumpsInt (fuel depth : Nat) {n : Int}
    (hwithin : within limits.maxDigits (digitCount n)) {rest : List Char} (h : EndsNumeral rest) :
    scanValue limits floatOfText (fuel + 1) depth (dumpsInt n ++ rest) = .ok (.int n, rest) := by
  -- the numeral is scanned as its integer
  have hscan : orValue (scanNumber limits floatOfText (dumpsInt n ++ rest)) =
      .ok (.int n, rest) := by
    rw [scanNumber_dumpsInt floatOfText hwithin h]
    rfl
  rw [← hscan]
  have hdigits : ∀ n, ∃ c tail, Nat.toDigits 10 n = c :: tail ∧ c.isDigit = true := by
    intro n
    obtain ⟨c, tail, hcons⟩ := List.exists_cons_of_ne_nil (Nat.toDigits_ne_nil (n := n) (b := 10))
    exact ⟨c, tail, hcons, Nat.isDigit_of_mem_toDigits (by omega) (by omega)
      (hcons ▸ List.mem_cons_self)⟩
  -- the printed integer begins with a minus exactly when it is negative
  rw [dumpsInt, Int.repr_eq_if]
  split
  · obtain ⟨c, tail, hcons, hc⟩ := hdigits n.toNat
    rw [Nat.toList_repr, hcons]
    exact scanValue_of_digit limits floatOfText fuel depth _ hc
  · obtain ⟨c, tail, hcons, hc⟩ := hdigits (-n).toNat
    rw [String.toList_append, Nat.toList_repr, hcons]
    exact scanValue_of_minus limits floatOfText fuel depth _ hc

variable {fuel depth : Nat} (key : String) {text : List Char} {doc : Json}

/-- A member followed by the closing brace. -/
theorem scanMembers_last {rest : List Char} (hspace : text.dropWhile isSpace = text)
    (h : scanValue limits floatOfText fuel depth text = .ok (doc, '\x7d' :: rest)) :
    scanMembers limits floatOfText (fuel + 1) depth (dumpsString key ++ ':' :: ' ' :: text) =
      .ok ([(key, doc)], rest) := by
  obtain ⟨units, hscan, hkey⟩ := scanString_dumpsString key (':' :: ' ' :: text)
  have htext : dumpsString key ++ ':' :: ' ' :: text =
      '"' :: (key.toList.flatMap dumpsChar ++ '"' :: ':' :: ' ' :: text) := by
    simp [dumpsString]
  have hblank : (' ' :: text).dropWhile isSpace = text := hspace
  rw [htext, scanMembers, hscan, ← hkey]
  show (do
    let (value, rest) ← scanValue limits floatOfText fuel depth ((' ' :: text).dropWhile isSpace)
    _) = _
  rw [hblank, h]
  rfl

/-- A member followed by another one. -/
theorem scanMembers_cons {text' rest : List Char} {members : List (String × Json)}
    (hspace : text.dropWhile isSpace = text)
    (h : scanValue limits floatOfText fuel depth text = .ok (doc, ',' :: ' ' :: text'))
    (hspace' : text'.dropWhile isSpace = text')
    (hmembers : scanMembers limits floatOfText fuel depth text' = .ok (members, rest)) :
    scanMembers limits floatOfText (fuel + 1) depth (dumpsString key ++ ':' :: ' ' :: text) =
      .ok ((key, doc) :: members, rest) := by
  obtain ⟨units, hscan, hkey⟩ := scanString_dumpsString key (':' :: ' ' :: text)
  have htext : dumpsString key ++ ':' :: ' ' :: text =
      '"' :: (key.toList.flatMap dumpsChar ++ '"' :: ':' :: ' ' :: text) := by
    simp [dumpsString]
  have hblank : (' ' :: text).dropWhile isSpace = text := hspace
  have hblank' : (' ' :: text').dropWhile isSpace = text' := hspace'
  rw [htext, scanMembers, hscan, ← hkey]
  show (do
    let (value, rest) ← scanValue limits floatOfText fuel depth ((' ' :: text).dropWhile isSpace)
    _) = _
  rw [hblank, h]
  show (do
    let (members, rest) ← scanMembers limits floatOfText fuel depth
      ((' ' :: text').dropWhile isSpace)
    _) = _
  rw [hblank', hmembers]
  rfl

/-- An object is read up to its closing brace. -/
theorem scanValue_object {rest : List Char} {members : List (String × Json)}
    (hspace : text.dropWhile isSpace = text) (hbrace : text.head? ≠ some '\x7d')
    (henter : within limits.maxDepth (depth + 1))
    (h : scanMembers limits floatOfText fuel (depth + 1) text = .ok (members, rest)) :
    scanValue limits floatOfText (fuel + 1) depth ('\x7b' :: text) =
      .ok (.obj members.reverse, rest) := by
  rw [scanValue, enter, if_pos henter]
  simp only [hspace]
  split
  · exact absurd rfl hbrace
  · rw [h]
    rfl

end Documents

/-! ## ASCII text -/

/-- ASCII bytes decode to their characters. -/
private theorem utf8_ascii {text : List Char} (h : ∀ c ∈ text, c.toNat < 128) :
    utf8 (text.map fun c => UInt8.ofNat c.toNat) = some text := by
  induction text with
  | nil => rfl
  | cons c text ih =>
    have hc : c.toNat < 128 := h c List.mem_cons_self
    have hbyte : (UInt8.ofNat c.toNat).toNat = c.toNat := by
      rw [UInt8.toNat_ofNat']
      omega
    have hlt : UInt8.ofNat c.toNat < 0x80 := by
      rw [UInt8.lt_iff_toNat_lt, hbyte]
      exact hc
    rw [List.map_cons, utf8.eq_def]
    simp only [hlt, if_true, hbyte, charOf_toNat, ih fun c hc => h c (List.mem_cons_of_mem _ hc)]
    rfl

/-- A byte-order mark of another first byte is not at the start of the text. -/
private theorem isPrefixOf_of_ne {a x : UInt8} (h : x ≠ a) (mark rest : List UInt8) :
    (x :: mark).isPrefixOf (a :: rest) = false := by
  rw [List.isPrefixOf_cons_cons, beq_eq_false_iff_ne.mpr h, Bool.false_and]

/-- Neither a byte order mark nor a zero byte at the start. -/
private theorem decodeText_utf8 {a b : UInt8} (rest : List UInt8) (ha : a ≠ 0) (hlt : a < 0x80)
    (hb : b ≠ 0) : decodeText (a :: b :: rest) = utf8 (a :: b :: rest) := by
  have hsmall : a.toNat < 128 := UInt8.lt_iff_toNat_lt.mp hlt
  have hmark (x : UInt8) (hx : 128 ≤ x.toNat) : x ≠ a := by
    rintro rfl
    omega
  unfold decodeText
  rw [isPrefixOf_of_ne ha.symm, isPrefixOf_of_ne (hmark 0xFF (by decide)),
    isPrefixOf_of_ne (hmark 0xFE (by decide)), isPrefixOf_of_ne (hmark 0xFF (by decide)),
    isPrefixOf_of_ne (hmark 0xEF (by decide))]
  simp only [Bool.false_eq_true, if_false]
  rcases rest with _ | ⟨c, _ | ⟨d, rest⟩⟩
  · show (if a = 0 then _ else if b = 0 then _ else utf8 [a, b]) = _
    rw [if_neg ha, if_neg hb]
  · rfl
  · show (if a = 0 then _ else if b = 0 then _ else utf8 (a :: b :: c :: d :: rest)) = _
    rw [if_neg ha, if_neg hb]

/-- ASCII text that starts with two characters other than NUL is read as it is. -/
theorem decodeText_ascii {a b : Char} {text : List Char}
    (h : ∀ c ∈ a :: b :: text, c.toNat < 128) (ha : a.toNat ≠ 0) (hb : b.toNat ≠ 0) :
    decodeText ((a :: b :: text).map fun c => UInt8.ofNat c.toNat) = some (a :: b :: text) := by
  have hltA : a.toNat < 128 := h a (by simp)
  have hltB : b.toNat < 128 := h b (by simp)
  rw [← utf8_ascii h]
  apply decodeText_utf8
  · rw [ne_eq, ← UInt8.toNat_inj, UInt8.toNat_ofNat', UInt8.toNat_zero]
    omega
  · rw [UInt8.lt_iff_toNat_lt, UInt8.toNat_ofNat']
    show _ < 128
    omega
  · rw [ne_eq, ← UInt8.toNat_inj, UInt8.toNat_ofNat', UInt8.toNat_zero]
    omega

/-- A hexadecimal digit is ASCII. -/
private theorem ascii_digitChar {n : Nat} (h : n < 16) : (Nat.digitChar n).toNat < 128 := by
  have hall : ∀ n < 16, (Nat.digitChar n).toNat < 128 := by decide
  exact hall n h

/-- An escaped unit is ASCII. -/
private theorem ascii_escapeUnit {n : Nat} {c : Char} (h : c ∈ escapeUnit n) : c.toNat < 128 := by
  simp only [escapeUnit, List.mem_cons, List.not_mem_nil, or_false] at h
  rcases h with rfl | rfl | rfl | rfl | rfl | rfl
  · decide
  · decide
  all_goals exact ascii_digitChar (Nat.mod_lt _ (by omega))

/-- Each character is dumped in ASCII, escaped where it has to be. -/
private theorem ascii_dumpsChar {x c : Char} (h : c ∈ dumpsChar x) : c.toNat < 128 := by
  unfold dumpsChar at h
  split_ifs at h
  all_goals try
    · simp only [List.mem_cons, List.not_mem_nil, or_false] at h
      rcases h with rfl | rfl <;> decide
  · rw [List.mem_singleton.mp h]
    omega
  · exact ascii_escapeUnit h
  · cases List.mem_append.mp h with
    | inl h => exact ascii_escapeUnit h
    | inr h => exact ascii_escapeUnit h

/-- A dumped string is ASCII. -/
private theorem ascii_dumpsString {s : String} {c : Char} (h : c ∈ dumpsString s) :
    c.toNat < 128 := by
  simp only [dumpsString, List.mem_append, List.mem_cons, List.not_mem_nil, or_false,
    List.mem_flatMap] at h
  rcases h with (rfl | ⟨x, -, hx⟩) | rfl
  · decide
  · exact ascii_dumpsChar hx
  · decide

/-- A dumped integer is ASCII. -/
private theorem ascii_dumpsInt {n : Int} {c : Char} (h : c ∈ dumpsInt n) : c.toNat < 128 := by
  have hdigit : ∀ m, ∀ c ∈ Nat.toDigits 10 m, c.toNat < 128 := by
    intro m c hc
    have hd : c.isDigit = true := Nat.isDigit_of_mem_toDigits (by omega) (by omega) hc
    have hle : c.toNat ≤ 57 := by
      simp only [Char.isDigit, Bool.and_eq_true, decide_eq_true_eq] at hd
      exact hd.2
    omega
  rw [dumpsInt, Int.repr_eq_if] at h
  split at h
  · rw [Nat.toList_repr] at h
    exact hdigit _ c h
  · rw [String.toList_append, Nat.toList_repr, List.mem_append] at h
    cases h with
    | inl h =>
      obtain rfl : c = '-' := by simpa using h
      decide
    | inr h => exact hdigit _ c h

/-- `text` is ASCII, does not start with a blank, and the scanner reads `doc` from it. -/
structure Dumped (limits : Limits) (text : List Char) (doc : Json) : Prop where
  ascii : ∀ c ∈ text, c.toNat < 128
  blank : ∀ rest, (text ++ rest).dropWhile isSpace = text ++ rest
  scan : ∀ floatOfText fuel depth rest, EndsNumeral rest →
    scanValue limits floatOfText (fuel + 1) depth (text ++ rest) = .ok (doc, rest)

variable {limits : Limits}

/-- A dumped string is read back from its bytes. -/
theorem dumped_string (s : String) : Dumped limits (dumpsString s) (.str s) where
  ascii _ h := ascii_dumpsString h
  blank _ := rfl
  scan floatOfText fuel depth rest _ :=
    scanValue_dumpsString limits floatOfText fuel depth s rest

/-- A dumped integer within the digit limit is read back from its bytes. -/
theorem dumped_int {n : Int} (hwithin : within limits.maxDigits (digitCount n)) :
    Dumped limits (dumpsInt n) (.int n) where
  ascii _ h := ascii_dumpsInt h
  blank rest := by
    -- a digit is no blank
    have hdigits : ∀ m tail, (Nat.toDigits 10 m ++ tail).dropWhile isSpace =
        Nat.toDigits 10 m ++ tail := by
      intro m tail
      obtain ⟨c, digits, hcons⟩ :=
        List.exists_cons_of_ne_nil (Nat.toDigits_ne_nil (n := m) (b := 10))
      have hc : c.isDigit = true :=
        Nat.isDigit_of_mem_toDigits (by omega) (by omega) (hcons ▸ List.mem_cons_self)
      rw [hcons, List.cons_append]
      apply List.dropWhile_cons_of_neg
      unfold isSpace
      simp only [Bool.or_eq_true, decide_eq_true_eq]
      rintro (((rfl | rfl) | rfl) | rfl) <;> cases hc
    rw [dumpsInt, Int.repr_eq_if]
    split
    · rw [Nat.toList_repr]
      exact hdigits _ rest
    · rw [String.toList_append]
      rfl
  scan floatOfText fuel depth rest h :=
    scanValue_dumpsInt limits floatOfText fuel depth hwithin h

/-- The members of a dumped object, behind its opening brace. -/
def dumpsMembers (members : List (String × List Char)) : List Char :=
  [',', ' '].intercalate (members.map fun m => dumpsString m.1 ++ [':', ' '] ++ m.2)

/-- The text of one member. -/
theorem dumpsMembers_singleton (key : String) (value rest : List Char) :
    dumpsMembers [(key, value)] ++ rest = dumpsString key ++ ':' :: ' ' :: (value ++ rest) := by
  simp [dumpsMembers]

/-- The text of a member that others follow. -/
theorem dumpsMembers_cons_cons (key : String) (value : List Char) (m : String × List Char)
    (members : List (String × List Char)) (rest : List Char) :
    dumpsMembers ((key, value) :: m :: members) ++ rest =
      dumpsString key ++ ':' :: ' ' ::
        (value ++ ',' :: ' ' :: (dumpsMembers (m :: members) ++ rest)) := by
  unfold dumpsMembers
  rw [List.map_cons, List.map_cons, List.intercalate_cons_cons]
  simp

/-- The scanner reads the members of a dumped object. -/
private theorem scanMembers_dumpsMembers (floatOfText : List Char → UInt64) (fuel depth : Nat)
    {members : List (String × List Char)} {docs : List Json} (rest : List Char)
    (h : List.Forall₂ (fun m doc => Dumped limits m.2 doc) members docs) (hne : members ≠ []) :
    scanMembers limits floatOfText (members.length + fuel + 1) depth
        (dumpsMembers members ++ '\x7d' :: rest) =
      .ok (List.zipWith (fun m doc => (m.1, doc)) members docs, rest) := by
  -- by induction on the members
  induction h with
  | nil => exact absurd rfl hne
  | @cons m doc members docs hm hmembers ih =>
    obtain ⟨key, value⟩ := m
    cases hmembers with
    -- the last member is followed by the closing brace
    | nil =>
      have hfuel : [(key, value)].length + fuel + 1 = fuel + 1 + 1 := by
        rw [List.length_singleton]
        omega
      rw [hfuel, dumpsMembers_singleton]
      exact scanMembers_last limits floatOfText key (hm.blank _)
        (hm.scan floatOfText fuel depth _ (endsNumeral_cons (by decide)))
    -- any other one by a comma, and the members after it
    | @cons m' doc' members' docs' hm' hmembers' =>
      have hfuel : ((key, value) :: m' :: members').length + fuel + 1 =
          (m' :: members').length + fuel + 1 + 1 := by
        simp only [List.length_cons]
        omega
      have hblank : (dumpsMembers (m' :: members') ++ '\x7d' :: rest).dropWhile isSpace =
          dumpsMembers (m' :: members') ++ '\x7d' :: rest := by
        cases members' with
        | nil => rw [dumpsMembers_singleton]; rfl
        | cons m'' members' => rw [dumpsMembers_cons_cons]; rfl
      rw [hfuel, dumpsMembers_cons_cons]
      exact scanMembers_cons limits floatOfText key (hm.blank _)
        (hm.scan floatOfText _ depth _ (endsNumeral_cons (by decide))) hblank
        (ih (List.cons_ne_nil m' members'))

/-- Members start with the quote of the first key. -/
theorem exists_dumpsMembers (m : String × List Char) (members : List (String × List Char)) :
    ∃ tail, dumpsMembers (m :: members) = '"' :: tail := by
  rw [← List.append_nil (dumpsMembers (m :: members))]
  cases members with
  | nil =>
    rw [dumpsMembers_singleton]
    exact ⟨_, rfl⟩
  | cons m' members =>
    rw [dumpsMembers_cons_cons]
    exact ⟨_, rfl⟩

/-- The text is at least as long as the number of members, so fuel for the text is fuel for the
    members. -/
private theorem length_le_dumpsMembers (members : List (String × List Char)) :
    members.length ≤ (dumpsMembers members).length := by
  induction members with
  | nil => exact Nat.zero_le _
  | cons m members ih =>
    cases members with
    | nil =>
      obtain ⟨tail, htail⟩ := exists_dumpsMembers m []
      rw [htail]
      simp
    | cons m' members =>
      obtain ⟨key, value⟩ := m
      have hcons := congrArg List.length (dumpsMembers_cons_cons key value m' members [])
      simp only [List.append_nil, List.length_append, List.length_cons] at hcons ih ⊢
      omega

/-- Members whose values are ASCII are dumped in ASCII. -/
private theorem ascii_dumpsMembers {members : List (String × List Char)}
    (h : ∀ m ∈ members, ∀ c ∈ m.2, c.toNat < 128) :
    ∀ c ∈ dumpsMembers members, c.toNat < 128 := by
  -- by induction on the members
  induction members with
  | nil => intro c hc; cases hc
  | cons m members ih =>
    have hm := h m List.mem_cons_self
    intro c hc
    rw [← List.append_nil (dumpsMembers (m :: members))] at hc
    cases members with
    -- the last member ends with its value
    | nil =>
      rw [dumpsMembers_singleton] at hc
      simp only [List.append_nil, List.mem_append, List.mem_cons] at hc
      rcases hc with hc | rfl | rfl | hc
      · exact ascii_dumpsString hc
      · decide
      · decide
      · exact hm c hc
    -- any other one with the separator
    | cons m' members =>
      rw [dumpsMembers_cons_cons] at hc
      simp only [List.append_nil, List.mem_append, List.mem_cons] at hc
      rcases hc with hc | rfl | rfl | hc | rfl | rfl | hc
      · exact ascii_dumpsString hc
      · decide
      · decide
      · exact hm c hc
      · decide
      · decide
      · exact ih (fun m hm => h m (List.mem_cons_of_mem _ hm)) c hc

/-- A dumped object is ASCII. -/
private theorem ascii_dumpsObject {members : List (String × List Char)}
    (h : ∀ m ∈ members, ∀ c ∈ m.2, c.toNat < 128) :
    ∀ c ∈ dumpsObject members, c.toNat < 128 := by
  intro c hc
  change c ∈ '\x7b' :: (dumpsMembers members ++ ['\x7d']) at hc
  simp only [List.mem_cons, List.mem_append, List.not_mem_nil, or_false] at hc
  rcases hc with rfl | hc | rfl
  · decide
  · exact ascii_dumpsMembers h c hc
  · decide

/-- Each member of a list that is dumped member by member has its document. -/
private theorem exists_dumped {members : List (String × List Char)} {docs : List Json}
    (h : List.Forall₂ (fun m doc => Dumped limits m.2 doc) members docs)
    {m : String × List Char} (hm : m ∈ members) : ∃ doc, Dumped limits m.2 doc := by
  induction h with
  | nil => cases hm
  | @cons m' doc members docs hm' _ ih =>
    cases List.mem_cons.mp hm with
    | inl heq => exact ⟨doc, heq ▸ hm'⟩
    | inr hmem => exact ih hmem

/-- `json.loads` reads a dumped object back. -/
theorem loads_dumpsObject (floatOfText : List Char → UInt64)
    {members : List (String × List Char)} {docs : List Json}
    (h : List.Forall₂ (fun m doc => Dumped limits m.2 doc) members docs) (hne : members ≠ []) :
    loads limits floatOfText ((dumpsObject members).map fun c => UInt8.ofNat c.toNat) =
      .ok (.obj (List.zipWith (fun m doc => (m.1, doc)) members docs).reverse) := by
  -- an object with a member begins with a brace and a quote
  obtain ⟨m, members', rfl⟩ := List.exists_cons_of_ne_nil hne
  obtain ⟨tail, htail⟩ := exists_dumpsMembers m members'
  have hascii : ∀ c ∈ dumpsObject (m :: members'), c.toNat < 128 := by
    apply ascii_dumpsObject
    intro m' hm'
    obtain ⟨doc, hdoc⟩ := exists_dumped h hm'
    exact hdoc.ascii
  have htext : dumpsObject (m :: members') = '\x7b' :: '"' :: (tail ++ ['\x7d']) := by
    show '\x7b' :: (dumpsMembers (m :: members') ++ ['\x7d']) = _
    rw [htail]
    rfl
  -- so its bytes are read as ASCII, without a byte-order mark
  have hdecode : decodeText ((dumpsObject (m :: members')).map fun c => UInt8.ofNat c.toNat) =
      some (dumpsObject (m :: members')) := by
    rw [htext] at hascii ⊢
    exact decodeText_ascii hascii (by decide) (by decide)
  -- the text is longer than the number of members, so there is fuel enough
  obtain ⟨fuel, hfuel⟩ : ∃ fuel, (dumpsObject (m :: members')).length =
      (m :: members').length + fuel + 1 := by
    have hle := length_le_dumpsMembers (m :: members')
    have hlen : (dumpsObject (m :: members')).length =
        (dumpsMembers (m :: members')).length + 2 := by
      show ('\x7b' :: (dumpsMembers (m :: members') ++ ['\x7d'])).length = _
      simp
    exact ⟨(dumpsObject (m :: members')).length - (m :: members').length - 1, by omega⟩
  -- the members are read one by one up to the closing brace
  have hscan := scanValue_object limits floatOfText
    (show (dumpsMembers (m :: members') ++ ['\x7d']).dropWhile isSpace = _ by rw [htail]; rfl)
    (show (dumpsMembers (m :: members') ++ ['\x7d']).head? ≠ some '\x7d' by rw [htail]; simp)
    limits.depth_pos (scanMembers_dumpsMembers floatOfText fuel 1 [] h hne)
  have hblank : (dumpsObject (m :: members')).dropWhile isSpace = dumpsObject (m :: members') := rfl
  unfold loads
  simp only [hdecode, hblank, hfuel]
  rw [show dumpsObject (m :: members') = '\x7b' :: (dumpsMembers (m :: members') ++ ['\x7d'])
    from rfl, hscan]
  rfl

end Json
