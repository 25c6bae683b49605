import Grimnir.ForStd.Except
import Grimnir.ForStd.JsonText
import Mathlib.Data.List.TakeWhile

/-!
# Dumping and loading any document

`json.dumps` of a whole document, in the separators and escapes of its defaults.  The text of a
float is a parameter: `float.__repr__` writes the shortest numeral that reads back as the same
double.

## Key results

- `plain_dumps`: a dumped document is one line of printable ASCII
- `loadsStr_dumps`: `json.loads` reads any dumped document back
-/

namespace Json

/-- A printable ASCII character. -/
def Plain (c : Char) : Prop := 32 ≤ c.toNat ∧ c.toNat < 127

instance (c : Char) : Decidable (Plain c) :=
  inferInstanceAs (Decidable (32 ≤ c.toNat ∧ c.toNat < 127))

/-! ## Floats -/

/-- The exponent bits of a double that is neither an infinity nor a NaN are not all set. -/
def IsFinite (word : UInt64) : Prop := word.toNat / 2 ^ 52 % 2 ^ 11 ≠ 2 ^ 11 - 1

instance (word : UInt64) : Decidable (IsFinite word) :=
  inferInstanceAs (Decidable (word.toNat / 2 ^ 52 % 2 ^ 11 ≠ 2 ^ 11 - 1))

/-- A numeral of `NUMBER_RE` with a fraction or an exponent. -/
def Numeral (text : List Char) : Prop :=
  ∃ (negative : Bool) (first : Char) (digits frac exp : List Char),
    text = (if negative then ['-'] else []) ++ (first :: digits ++ (frac ++ exp)) ∧
      (∀ c ∈ first :: digits, c.isDigit = true) ∧ (first = '0' → digits = []) ∧
      fraction frac = frac ∧ exponent exp = exp ∧ frac ++ exp ≠ []

/-- `float.__repr__` and what `float` makes of a numeral. -/
structure FloatText where
  repr : UInt64 → List Char
  parse : List Char → UInt64
  numeral : ∀ word, IsFinite word → Numeral (repr word)
  parse_repr : ∀ word, IsFinite word → parse (repr word) = word

/-- `floatstr` of the encoder. -/
def FloatText.dumps (ft : FloatText) (word : UInt64) : List Char :=
  if IsFinite word then ft.repr word
  else if word = 0x7FF0000000000000 then ['I', 'n', 'f', 'i', 'n', 'i', 't', 'y']
  else if word = 0xFFF0000000000000 then ['-', 'I', 'n', 'f', 'i', 'n', 'i', 't', 'y']
  else ['N', 'a', 'N']

/-- The double that a dumped one reads back as: all NaNs have one text. -/
def readWord (word : UInt64) : UInt64 :=
  if IsFinite word ∨ word = 0x7FF0000000000000 ∨ word = 0xFFF0000000000000 then word
  else 0x7FF8000000000000

/-! ## Documents -/

mutual

/-- `json.dumps`. -/
def dumps (ft : FloatText) : Json → List Char
  | .null => ['n', 'u', 'l', 'l']
  | .bool true => ['t', 'r', 'u', 'e']
  | .bool false => ['f', 'a', 'l', 's', 'e']
  | .int n => dumpsInt n
  | .float word => ft.dumps word
  | .str s => dumpsString s
  | .arr items => '[' :: [',', ' '].intercalate (dumpsItems ft items) ++ [']']
  | .obj members => dumpsObject (dumpsValues ft members)

/-- The texts of the items of an array. -/
def dumpsItems (ft : FloatText) : List Json → List (List Char)
  | [] => []
  | item :: items => dumps ft item :: dumpsItems ft items

/-- The members of an object with the texts of their values. -/
def dumpsValues (ft : FloatText) : List (String × Json) → List (String × List Char)
  | [] => []
  | (key, value) :: members => (key, dumps ft value) :: dumpsValues ft members

end

mutual

/-- A document as it is read back: the scanner lists the members of an object the last one
    first. -/
def readBack : Json → Json
  | .float word => .float (readWord word)
  | .arr items => .arr (readItems items)
  | .obj members => .obj (readValues members).reverse
  | doc => doc

def readItems : List Json → List Json
  | [] => []
  | item :: items => readBack item :: readItems items

def readValues : List (String × Json) → List (String × Json)
  | [] => []
  | (key, value) :: members => (key, readBack value) :: readValues members

end

mutual

/-- The interpreter's limits admit the document inside of `depth` objects and arrays. -/
def Fits (limits : Limits) (depth : Nat) : Json → Prop
  | .int n => within limits.maxDigits (digitCount n)
  | .arr items => within limits.maxDepth (depth + 1) ∧ FitItems limits (depth + 1) items
  | .obj members => within limits.maxDepth (depth + 1) ∧ FitValues limits (depth + 1) members
  | _ => True

def FitItems (limits : Limits) (depth : Nat) : List Json → Prop
  | [] => True
  | item :: items => Fits limits depth item ∧ FitItems limits depth items

def FitValues (limits : Limits) (depth : Nat) : List (String × Json) → Prop
  | [] => True
  | (_, value) :: members => Fits limits depth value ∧ FitValues limits depth members

end

mutual

/-- Without limits any document fits. -/
theorem fits_unlimited : ∀ (depth : Nat) (doc : Json), Fits .unlimited depth doc
  | _, .null => trivial
  | _, .bool _ => trivial
  | _, .int _ => within_none _
  | _, .float _ => trivial
  | _, .str _ => trivial
  | depth, .arr items => ⟨within_none _, fitItems_unlimited (depth + 1) items⟩
  | depth, .obj members => ⟨within_none _, fitValues_unlimited (depth + 1) members⟩

/-- Without limits, every list of items fits. -/
private theorem fitItems_unlimited : ∀ (depth : Nat) (items : List Json),
    FitItems .unlimited depth items
  | _, [] => trivial
  | depth, item :: items => ⟨fits_unlimited depth item, fitItems_unlimited depth items⟩

/-- Without limits, every list of members fits. -/
private theorem fitValues_unlimited : ∀ (depth : Nat) (members : List (String × Json)),
    FitValues .unlimited depth members
  | _, [] => trivial
  | depth, (_, value) :: members =>
    ⟨fits_unlimited depth value, fitValues_unlimited depth members⟩

end

/-! ## One printable line -/

/-- Decides that each character of a text is plain. -/
theorem plain_of_all {text : List Char} (h : text.all (fun c => decide (Plain c)) = true) :
    ∀ c ∈ text, Plain c :=
  fun c hc => of_decide_eq_true (List.all_eq_true.mp h c hc)

/-- A digit is neither a control character nor outside ASCII. -/
private theorem plain_of_isDigit {c : Char} (h : c.isDigit = true) : Plain c := by
  simp only [Char.isDigit, Bool.and_eq_true, decide_eq_true_eq] at h
  have hlow : 48 ≤ c.toNat := h.1
  have hhigh : c.toNat ≤ 57 := h.2
  exact ⟨by omega, by omega⟩

/-- So is a hexadecimal digit. -/
private theorem plain_digitChar {n : Nat} (h : n < 16) : Plain (Nat.digitChar n) := by
  have hall : ∀ n < 16, Plain (Nat.digitChar n) := by decide
  exact hall n h

/-- An escaped unit holds plain characters only. -/
private theorem plain_escapeUnit {n : Nat} {c : Char} (h : c ∈ escapeUnit n) : Plain c := by
  simp only [escapeUnit, List.mem_cons, List.not_mem_nil, or_false] at h
  rcases h with rfl | rfl | rfl | rfl | rfl | rfl
  · decide
  · decide
  all_goals exact plain_digitChar (Nat.mod_lt _ (by omega))

/-- Each character is dumped as plain ones: those that are not are escaped. -/
private theorem plain_dumpsChar {x c : Char} (h : c ∈ dumpsChar x) : Plain c := by
  unfold dumpsChar at h
  split_ifs at h
  all_goals try
    · simp only [List.mem_cons, List.not_mem_nil, or_false] at h
      rcases h with rfl | rfl <;> decide
  · rename_i hplain
    rw [List.mem_singleton.mp h]
    exact hplain
  · exact plain_escapeUnit h
  · cases List.mem_append.mp h with
    | inl h => exact plain_escapeUnit h
    | inr h => exact plain_escapeUnit h

/-- A dumped string holds plain characters only. -/
private theorem plain_dumpsString {s : String} {c : Char} (h : c ∈ dumpsString s) : Plain c := by
  simp only [dumpsString, List.mem_append, List.mem_cons, List.not_mem_nil, or_false,
    List.mem_flatMap] at h
  rcases h with (rfl | ⟨x, -, hx⟩) | rfl
  · decide
  · exact plain_dumpsChar hx
  · decide

/-- The digits of a number are plain. -/
private theorem plain_toDigits {n : Nat} {c : Char} (h : c ∈ Nat.toDigits 10 n) : Plain c :=
  plain_of_isDigit (Nat.isDigit_of_mem_toDigits (by omega) (by omega) h)

/-- So is a dumped integer. -/
private theorem plain_dumpsInt {n : Int} {c : Char} (h : c ∈ dumpsInt n) : Plain c := by
  rw [dumpsInt, Int.repr_eq_if] at h
  split at h
  · rw [Nat.toList_repr] at h
    exact plain_toDigits h
  · rw [String.toList_append, Nat.toList_repr, List.mem_append] at h
    cases h with
    | inl h =>
      obtain rfl : c = '-' := by simpa using h
      decide
    | inr h => exact plain_toDigits h

/-- The fraction of a numeral is plain. -/
private theorem plain_fraction {text : List Char} {c : Char} (h : c ∈ fraction text) : Plain c := by
  unfold fraction at h
  split at h
  · dsimp only at h
    split at h
    · cases h
    · rcases List.mem_cons.mp h with rfl | h
      · decide
      · exact plain_of_isDigit (List.mem_takeWhile_imp h)
  · cases h

/-- The exponent of a numeral is plain. -/
private theorem plain_exponent {text : List Char} {c : Char} (h : c ∈ exponent text) : Plain c := by
  unfold exponent at h
  split at h
  · rename_i e rest
    split at h
    · rename_i he
      dsimp only at h
      split at h
      · rcases List.mem_append.mp h with h | h
        · rcases List.mem_cons.mp h with rfl | h
          · rcases he with rfl | rfl <;> decide
          · have hsign := List.mem_takeWhile_imp h
            simp only [decide_eq_true_eq] at hsign
            rcases hsign with rfl | rfl <;> decide
        · exact plain_of_isDigit (List.mem_takeWhile_imp h)
      · cases h
    · cases h
  · cases h

/-- Every numeral is plain text. -/
theorem Numeral.plain {text : List Char} (h : Numeral text) : ∀ c ∈ text, Plain c := by
  obtain ⟨negative, first, digits, frac, exp, rfl, hdigits, -, hfrac, hexp, -⟩ := h
  intro c hc
  rcases List.mem_append.mp hc with hc | hc
  · cases negative with
    | false => cases hc
    | true =>
      obtain rfl := List.mem_singleton.mp hc
      decide
  · rcases List.mem_append.mp hc with hc | hc
    · exact plain_of_isDigit (hdigits c hc)
    · rcases List.mem_append.mp hc with hc | hc
      · rw [← hfrac] at hc
        exact plain_fraction hc
      · rw [← hexp] at hc
        exact plain_exponent hc

variable {ft : FloatText}

/-- Every dumped float is plain text, NaN and the infinities among them. -/
theorem FloatText.plain_dumps (word : UInt64) : ∀ c ∈ ft.dumps word, Plain c := by
  unfold FloatText.dumps
  split
  · exact (ft.numeral word ‹_›).plain
  · split
    · exact plain_of_all rfl
    · split
      · exact plain_of_all rfl
      · exact plain_of_all rfl

/-- Separating plain texts by commas leaves them plain. -/
private theorem plain_intercalate {texts : List (List Char)}
    (h : ∀ text ∈ texts, ∀ c ∈ text, Plain c) : ∀ c ∈ [',', ' '].intercalate texts, Plain c := by
  -- by induction on the texts
  induction texts with
  | nil => exact fun c hc => absurd hc List.not_mem_nil
  | cons text texts ih =>
    have htext := h text List.mem_cons_self
    have htexts := ih fun text htext => h text (List.mem_cons_of_mem _ htext)
    cases texts with
    | nil =>
      rw [List.intercalate_singleton]
      exact htext
    | cons text' texts =>
      rw [List.intercalate_cons_cons]
      -- a character is one of a text or of the separator
      intro c hc
      simp only [List.mem_append, List.mem_cons, List.not_mem_nil, or_false] at hc
      rcases hc with (hc | rfl | rfl) | hc
      · exact htext c hc
      · decide
      · decide
      · exact htexts c hc

/-- An object of plain values is plain text. -/
private theorem plain_dumpsObject {members : List (String × List Char)}
    (h : ∀ m ∈ members, ∀ c ∈ m.2, Plain c) : ∀ c ∈ dumpsObject members, Plain c := by
  have hmembers : ∀ c ∈ [',', ' '].intercalate
      (members.map fun m => dumpsString m.1 ++ [':', ' '] ++ m.2), Plain c := by
    refine plain_intercalate ?_
    intro text htext c hc
    obtain ⟨m, hm, rfl⟩ := List.mem_map.mp htext
    simp only [List.mem_append, List.mem_cons, List.not_mem_nil, or_false] at hc
    rcases hc with (hc | rfl | rfl) | hc
    · exact plain_dumpsString hc
    · decide
    · decide
    · exact h m hm c hc
  intro c hc
  simp only [dumpsObject, List.mem_append, List.mem_cons, List.not_mem_nil, or_false] at hc
  rcases hc with (rfl | hc) | rfl
  · decide
  · exact hmembers c hc
  · decide

mutual

/-- A dumped document is one line of printable ASCII. -/
theorem plain_dumps : ∀ (doc : Json), ∀ c ∈ dumps ft doc, Plain c
  | .null => plain_of_all rfl
  | .bool true => plain_of_all rfl
  | .bool false => plain_of_all rfl
  | .int n => fun _ hc => plain_dumpsInt hc
  | .float word => ft.plain_dumps word
  | .str s => fun _ hc => plain_dumpsString hc
  | .arr items => by
    have hitems := plain_intercalate (plain_dumpsItems items)
    intro c hc
    simp only [dumps, List.mem_append, List.mem_cons, List.not_mem_nil, or_false] at hc
    rcases hc with (rfl | hc) | rfl
    · decide
    · exact hitems c hc
    · decide
  | .obj members => by
    rw [dumps]
    exact plain_dumpsObject (plain_dumpsValues members)

/-- The dumped items of an array are plain texts, by recursion on the items. -/
private theorem plain_dumpsItems :
    ∀ (items : List Json), ∀ text ∈ dumpsItems ft items, ∀ c ∈ text, Plain c
  | [] => fun _ h => absurd h List.not_mem_nil
  | item :: items => by
    intro text htext
    rcases List.mem_cons.mp htext with rfl | htext
    · exact plain_dumps item
    · exact plain_dumpsItems items text htext

/-- The dumped values of an object are plain texts, by recursion on the members. -/
private theorem plain_dumpsValues : ∀ (members : List (String × Json)),
    ∀ m ∈ dumpsValues ft members, ∀ c ∈ m.2, Plain c
  | [] => fun _ h => absurd h List.not_mem_nil
  | (_, value) :: members => by
    intro m hm
    rcases List.mem_cons.mp hm with rfl | hm
    · exact plain_dumps value
    · exact plain_dumpsValues members m hm

end

/-! ## Reading a float back -/

/-- What follows a fraction is neither a digit nor a point. -/
private theorem fraction_append {frac rest : List Char} (hfrac : fraction frac = frac)
    (hdigit : ∀ c ∈ rest.head?, c.isDigit = false) (hpoint : ∀ c ∈ rest.head?, c ≠ '.') :
    fraction (frac ++ rest) = frac := by
  -- without a fraction of its own, the text must not begin one
  cases frac with
  | nil =>
    cases rest with
    | nil => rfl
    | cons c rest =>
      have hc := hpoint c rfl
      rw [List.nil_append, fraction]
      intro rest' heq
      cases heq
      exact hc rfl
  -- the digits of the fraction end where the text does
  | cons c digits =>
    unfold fraction at hfrac
    split at hfrac
    · rename_i rest' heq
      cases heq
      dsimp only at hfrac
      split at hfrac
      · cases hfrac
      · rename_i hne
        injection hfrac with _ hdigits
        have hall : ∀ c ∈ digits, c.isDigit = true := by
          rw [← hdigits]
          exact fun c hc => List.mem_takeWhile_imp hc
        have htake : (digits ++ rest).takeWhile Char.isDigit = digits := by
          rw [List.takeWhile_append_of_pos hall]
          cases rest with
          | nil => simp
          | cons c rest =>
            rw [List.takeWhile_cons_of_neg (by rw [hdigit c rfl]; decide), List.append_nil]
        rw [List.cons_append, fraction, htake, if_neg (hdigits ▸ hne)]
    · cases hfrac

/-- What follows an exponent is not a digit. -/
private theorem exponent_append {exp rest : List Char} (hexp : exponent exp = exp) (hne : exp ≠ [])
    (hdigit : ∀ c ∈ rest.head?, c.isDigit = false) : exponent (exp ++ rest) = exp := by
  -- an exponent is its letter, a sign and digits
  cases exp with
  | nil => exact absurd rfl hne
  | cons e text =>
    rw [exponent] at hexp
    split at hexp
    · rename_i he
      dsimp only at hexp
      split at hexp
      · rename_i hparts
        have htext := (List.cons.inj hexp).2
        change _ ++ _ = text at htext
        -- the sign and the digits that were read are the whole exponent
        generalize hsign : (text.takeWhile fun c => decide (c = '-' ∨ c = '+')) = sign at *
        generalize hdigits : (text.drop sign.length).takeWhile Char.isDigit = digits at *
        obtain ⟨hlen, hdigitsNe⟩ := hparts
        have hall : ∀ c ∈ digits, c.isDigit = true := by
          rw [← hdigits]
          exact fun c hc => List.mem_takeWhile_imp hc
        have hsigns : ∀ c ∈ sign, decide (c = '-' ∨ c = '+') = true := by
          rw [← hsign]
          exact fun c hc =>
            List.mem_takeWhile_imp (p := fun c => decide (c = '-' ∨ c = '+')) hc
        obtain ⟨first, tail, rfl⟩ := List.exists_cons_of_ne_nil hdigitsNe
        have hfirst : first.isDigit = true := hall first List.mem_cons_self
        have hfirst' : decide (first = '-' ∨ first = '+') = false := by
          apply decide_eq_false
          rintro (rfl | rfl) <;> cases hfirst
        -- the sign ends at the first digit,
        have hsign' : ((text ++ rest).takeWhile fun c => decide (c = '-' ∨ c = '+')) = sign := by
          rw [← htext, List.append_assoc, List.takeWhile_append_of_pos hsigns, List.cons_append,
            List.takeWhile_cons_of_neg (by rw [hfirst']; decide), List.append_nil]
        -- and the digits end where the text behind them begins
        have hdigits' : ((text ++ rest).drop sign.length).takeWhile Char.isDigit =
            first :: tail := by
          rw [← htext, List.append_assoc, List.drop_left, List.takeWhile_append_of_pos hall]
          cases rest with
          | nil => simp
          | cons c rest =>
            rw [List.takeWhile_cons_of_neg (by rw [hdigit c rfl]; decide), List.append_nil]
        rw [List.cons_append, exponent, if_pos he, hsign']
        dsimp only
        rw [hdigits', if_pos ⟨hlen, hdigitsNe⟩, ← htext]
        rfl
      · cases hexp
    · cases hexp

/-- An exponent starts with its letter. -/
private theorem head?_exponent {exp : List Char} (hexp : exponent exp = exp) :
    ∀ c ∈ exp.head?, c = 'e' ∨ c = 'E' := by
  intro c hc
  cases exp with
  | nil => cases hc
  | cons e text =>
    cases hc
    rw [exponent] at hexp
    split at hexp
    · assumption
    · cases hexp

/-- The scanner reads a numeral with a fraction or an exponent as a float. -/
private theorem scanNumber_numeral {limits : Limits} (floatOfText : List Char → UInt64)
    {text : List Char} (htext : Numeral text) {rest : List Char} (hrest : EndsNumeral rest) :
    scanNumber limits floatOfText (text ++ rest) = some (.float (floatOfText text), rest) := by
  obtain ⟨negative, first, digits, frac, exp, rfl, hdigits, hzero, hfrac, hexp, hne⟩ := htext
  have hfirst : first.isDigit = true := hdigits first List.mem_cons_self
  have hminus : first ≠ '-' := by
    rintro rfl
    cases hfirst
  -- what follows the fraction
  have hhead : ∀ c ∈ (exp ++ rest).head?, c.isDigit = false ∧ c ≠ '.' := by
    intro c hc
    cases exp with
    | nil => exact ⟨(hrest c hc).1, (hrest c hc).2.1⟩
    | cons e exp =>
      cases hc
      rcases head?_exponent hexp c rfl with rfl | rfl <;> decide
  have hfrac' : fraction (frac ++ (exp ++ rest)) = frac :=
    fraction_append hfrac (fun c hc => (hhead c hc).1) fun c hc => (hhead c hc).2
  have hexp' : exponent (exp ++ rest) = exp := by
    by_cases hnil : exp = []
    · rw [hnil, List.nil_append]
      exact exponent_of_endsNumeral hrest
    · exact exponent_append hexp hnil fun c hc => (hrest c hc).1
  -- what follows the digits
  have hbehind : ∀ c ∈ (frac ++ (exp ++ rest)).head?, c.isDigit = false := by
    intro c hc
    cases frac with
    | nil => exact (hhead c hc).1
    | cons p frac =>
      cases hc
      unfold fraction at hfrac
      split at hfrac
      · rename_i heq
        cases heq
        rfl
      · cases hfrac
  -- the digits end before the fraction
  have htake : (first :: digits ++ (frac ++ (exp ++ rest))).takeWhile Char.isDigit =
      first :: digits := by
    rw [List.takeWhile_append_of_pos hdigits]
    cases hcons : frac ++ (exp ++ rest) with
    | nil => simp
    | cons c tail =>
      have hc := hbehind c (by rw [hcons]; rfl)
      rw [List.takeWhile_cons_of_neg (by rw [hc]; decide), List.append_nil]
  -- a leading zero stands alone
  have hwhole : (if first = '0' then ['0'] else first :: digits) = first :: digits := by
    split
    · rename_i heq
      rw [hzero heq, heq]
    · rfl
  have hassoc : (if negative then ['-'] else []) ++ (first :: digits ++ (frac ++ exp)) ++ rest =
      (if negative then ['-'] else []) ++ (first :: digits ++ (frac ++ (exp ++ rest))) := by
    simp only [List.append_assoc]
  -- a numeral without a sign begins with a digit
  have hsign : (if ((if negative then ['-'] else []) ++
      (first :: digits ++ (frac ++ (exp ++ rest)))).head? = some '-' then ['-'] else []) =
        if negative then ['-'] else [] := by
    cases negative with
    | true => rfl
    | false => exact if_neg fun heq => hminus (Option.some.inj heq)
  rw [hassoc]
  unfold scanNumber
  simp only [hsign, List.drop_left, htake]
  rw [show (first :: digits).head? = some first from rfl]
  simp only [hwhole, List.drop_left, hfrac', hexp', if_neg hne]
  rw [← List.append_assoc frac, List.drop_left]
  simp only [List.append_assoc]

/-! ## Reading a document back -/

/-- How a dumped document starts: not with a blank or a closing bracket. -/
def Starts (text : List Char) : Prop :=
  ∃ c tail, text = c :: tail ∧ isSpace c = false ∧ c ≠ ']' ∧ c ≠ '\x7d'

/-- Whether a text starts a value is decided by its first character. -/
theorem Starts.append {text : List Char} (h : Starts text) (rest : List Char) :
    Starts (text ++ rest) := by
  obtain ⟨c, tail, rfl, hc⟩ := h
  exact ⟨c, tail ++ rest, rfl, hc⟩

/-- A value begins with no blank, so skipping blanks skips nothing. -/
theorem Starts.dropWhile {text : List Char} (h : Starts text) :
    text.dropWhile isSpace = text := by
  obtain ⟨c, tail, rfl, hspace, -⟩ := h
  exact List.dropWhile_cons_of_neg (by rw [hspace]; decide)

/-- A digit starts a value. -/
private theorem starts_of_isDigit {c : Char} (h : c.isDigit = true) (tail : List Char) :
    Starts (c :: tail) := by
  refine ⟨c, tail, rfl, ?_, ?_, ?_⟩
  · by_contra hspace
    simp only [isSpace, Bool.not_eq_false, Bool.or_eq_true, decide_eq_true_eq] at hspace
    rcases hspace with ((rfl | rfl) | rfl) | rfl <;> cases h
  · rintro rfl
    cases h
  · rintro rfl
    cases h

/-- A minus starts a value. -/
private theorem starts_minus (tail : List Char) : Starts ('-' :: tail) :=
  ⟨'-', tail, rfl, rfl, by decide, by decide⟩

/-- A dumped integer starts a value. -/
private theorem starts_dumpsInt (n : Int) : Starts (dumpsInt n) := by
  have hdigits : ∀ m, Starts (Nat.toDigits 10 m) := by
    intro m
    obtain ⟨c, tail, hcons⟩ := List.exists_cons_of_ne_nil (Nat.toDigits_ne_nil (n := m) (b := 10))
    rw [hcons]
    exact starts_of_isDigit (Nat.isDigit_of_mem_toDigits (by omega) (by omega)
      (hcons ▸ List.mem_cons_self)) tail
  rw [dumpsInt, Int.repr_eq_if]
  split
  · rw [Nat.toList_repr]
    exact hdigits _
  · rw [String.toList_append]
    exact starts_minus _

/-- A numeral starts a value. -/
private theorem Numeral.starts {text : List Char} (h : Numeral text) : Starts text := by
  obtain ⟨negative, first, digits, frac, exp, rfl, hdigits, -⟩ := h
  cases negative with
  | true => exact starts_minus _
  | false => exact starts_of_isDigit (hdigits first List.mem_cons_self) _

/-- A dumped float starts a value. -/
private theorem FloatText.starts_dumps (word : UInt64) : Starts (ft.dumps word) := by
  unfold FloatText.dumps
  split
  · exact (ft.numeral word ‹_›).starts
  · split
    · exact ⟨'I', _, rfl, rfl, by decide, by decide⟩
    · split
      · exact starts_minus _
      · exact ⟨'N', _, rfl, rfl, by decide, by decide⟩

/-- Every dumped document starts a value, by cases on the document. -/
private theorem starts_dumps (doc : Json) : Starts (dumps ft doc) := by
  cases doc with
  | null => exact ⟨'n', _, rfl, rfl, by decide, by decide⟩
  | bool b =>
    cases b with
    | true => exact ⟨'t', _, rfl, rfl, by decide, by decide⟩
    | false => exact ⟨'f', _, rfl, rfl, by decide, by decide⟩
  | int n => exact starts_dumpsInt n
  | float word => exact ft.starts_dumps word
  | str s => exact ⟨'"', _, rfl, rfl, by decide, by decide⟩
  | arr items => exact ⟨'[', _, rfl, rfl, by decide, by decide⟩
  | obj members => exact ⟨'\x7b', _, rfl, rfl, by decide, by decide⟩

/-- So do the items of a nonempty array. -/
private theorem starts_dumpsItems (item : Json) (items : List Json) :
    Starts ([',', ' '].intercalate (dumpsItems ft (item :: items))) := by
  cases items with
  | nil =>
    rw [dumpsItems, dumpsItems, List.intercalate_singleton]
    exact starts_dumps item
  | cons item' items =>
    rw [dumpsItems, dumpsItems, List.intercalate_cons_cons, List.append_assoc]
    exact (starts_dumps item).append _

section Scanned

variable (limits : Limits) (fuel depth : Nat)

/-- The scanner reads a dumped float back. -/
private theorem scanValue_dumpsFloat (word : UInt64) {rest : List Char} (h : EndsNumeral rest) :
    scanValue limits ft.parse (fuel + 1) depth (ft.dumps word ++ rest) =
      .ok (.float (readWord word), rest) := by
  unfold FloatText.dumps readWord
  -- a finite double is printed as a numeral, and read back from it
  by_cases hfinite : IsFinite word
  · rw [if_pos hfinite, if_pos (.inl hfinite)]
    have hscan : orValue (scanNumber limits ft.parse (ft.repr word ++ rest)) =
        .ok (.float word, rest) := by
      rw [scanNumber_numeral ft.parse (ft.numeral word hfinite) h, ft.parse_repr word hfinite]
      rfl
    rw [← hscan]
    -- the numeral begins with a sign or a digit, so it is scanned as a number
    obtain ⟨negative, first, digits, frac, exp, heq, hdigits, -⟩ := ft.numeral word hfinite
    have hfirst : first.isDigit = true := hdigits first List.mem_cons_self
    rw [heq]
    cases negative with
    | true => exact scanValue_of_minus limits ft.parse fuel depth _ hfirst
    | false => exact scanValue_of_digit limits ft.parse fuel depth _ hfirst
  -- the three constants that are not finite are read by their names
  · rw [if_neg hfinite]
    by_cases hinf : word = 0x7FF0000000000000
    · rw [if_pos hinf, if_pos (.inr (.inl hinf)), hinf]
      rfl
    · rw [if_neg hinf]
      by_cases hneg : word = 0xFFF0000000000000
      · rw [if_pos hneg, if_pos (.inr (.inr hneg)), hneg]
        rfl
      · rw [if_neg hneg, if_neg (by rintro (h | h | h) <;> contradiction)]
        rfl

variable {limits fuel depth} {floatOfText : List Char → UInt64} {text rest : List Char}
  {doc : Json}

/-- The last item of an array. -/
private theorem scanItems_last
    (h : scanValue limits floatOfText fuel depth text = .ok (doc, ']' :: rest)) :
    scanItems limits floatOfText (fuel + 1) depth text = .ok ([doc], rest) := by
  rw [scanItems, h]
  rfl

/-- An item that is followed by another one. -/
private theorem scanItems_cons {text' : List Char} {docs : List Json}
    (h : scanValue limits floatOfText fuel depth text = .ok (doc, ',' :: ' ' :: text'))
    (hstarts : Starts text')
    (hitems : scanItems limits floatOfText fuel depth text' = .ok (docs, rest)) :
    scanItems limits floatOfText (fuel + 1) depth text = .ok (doc :: docs, rest) := by
  have hblank : (' ' :: text').dropWhile isSpace = text' := hstarts.dropWhile
  have hrest : scanItems limits floatOfText fuel depth ((' ' :: text').dropWhile isSpace) =
      .ok (docs, rest) := by
    rw [hblank]
    exact hitems
  rw [scanItems]
  exact Except.bind_eq_ok.mpr ⟨_, h, Except.bind_eq_ok.mpr ⟨_, hrest, rfl⟩⟩

/-- An array is read up to its closing bracket. -/
private theorem scanValue_array {docs : List Json} (hstarts : Starts text)
    (henter : within limits.maxDepth (depth + 1))
    (h : scanItems limits floatOfText fuel (depth + 1) text = .ok (docs, rest)) :
    scanValue limits floatOfText (fuel + 1) depth ('[' :: text) = .ok (.arr docs, rest) := by
  rw [scanValue, enter, if_pos henter]
  simp only [hstarts.dropWhile]
  split
  · obtain ⟨c, tail, heq, -, hclose, -⟩ := hstarts
    cases heq
    exact absurd rfl hclose
  · rw [h]
    rfl

end Scanned

variable {limits : Limits}

mutual

/-- The scanner reads a dumped document back. -/
private theorem scan_dumps : ∀ (doc : Json) (fuel depth : Nat) (rest : List Char),
    Fits limits depth doc → (dumps ft doc).length ≤ fuel → EndsNumeral rest →
      scanValue limits ft.parse (fuel + 1) depth (dumps ft doc ++ rest) = .ok (readBack doc, rest)
  | .null, _, _, _ => fun _ _ _ => rfl
  | .bool true, _, _, _ => fun _ _ _ => rfl
  | .bool false, _, _, _ => fun _ _ _ => rfl
  | .int n, fuel, depth, rest => fun hfits _ hrest =>
    scanValue_dumpsInt limits ft.parse fuel depth hfits hrest
  | .float word, fuel, depth, rest => fun _ _ hrest =>
    scanValue_dumpsFloat limits fuel depth word hrest
  | .str s, fuel, depth, rest => fun _ _ _ =>
    scanValue_dumpsString limits ft.parse fuel depth s rest
  | .arr items, fuel, depth, rest => by
    have ih := scan_dumpsItems items
    intro hfits hfuel _
    rw [Fits] at hfits
    -- an empty array is closed at once
    cases items with
    | nil =>
      change scanValue limits ft.parse (fuel + 1) depth ('[' :: ']' :: rest) = _
      rw [scanValue, enter, if_pos hfits.1]
      rfl
    -- the items are one level deeper, with one unit of fuel less
    | cons item items =>
      simp only [dumps, List.length_cons, List.length_append, List.length_nil] at hfuel
      obtain ⟨fuel, rfl⟩ : ∃ k, fuel = k + 1 := ⟨fuel - 1, by omega⟩
      have htext : dumps ft (.arr (item :: items)) ++ rest =
          '[' :: ([',', ' '].intercalate (dumpsItems ft (item :: items)) ++ ']' :: rest) := by
        simp [dumps]
      rw [htext, readBack]
      refine scanValue_array ?_ hfits.1
        (ih fuel (depth + 1) rest (List.cons_ne_nil item items) hfits.2 (by omega))
      exact (starts_dumpsItems item items).append _
  | .obj members, fuel, depth, rest => by
    have ih := scan_dumpsValues members
    intro hfits hfuel _
    rw [Fits] at hfits
    -- an empty object is closed at once
    cases members with
    | nil =>
      change scanValue limits ft.parse (fuel + 1) depth ('\x7b' :: '\x7d' :: rest) = _
      rw [scanValue, enter, if_pos hfits.1]
      rfl
    -- the members are one level deeper, with one unit of fuel less
    | cons m members =>
      obtain ⟨tail, htail⟩ := exists_dumpsMembers (m.1, dumps ft m.2) (dumpsValues ft members)
      have hlen : (dumps ft (.obj (m :: members))).length =
          (dumpsMembers (dumpsValues ft (m :: members))).length + 2 := by
        change ('\x7b' :: (dumpsMembers (dumpsValues ft (m :: members)) ++ ['\x7d'])).length = _
        simp
      obtain ⟨fuel, rfl⟩ : ∃ k, fuel = k + 1 := ⟨fuel - 1, by omega⟩
      have htext : dumps ft (.obj (m :: members)) ++ rest =
          '\x7b' :: (dumpsMembers (dumpsValues ft (m :: members)) ++ '\x7d' :: rest) := by
        change '\x7b' :: (dumpsMembers (dumpsValues ft (m :: members)) ++ ['\x7d']) ++ rest = _
        simp
      have hvalues : dumpsValues ft (m :: members) =
          (m.1, dumps ft m.2) :: dumpsValues ft members := rfl
      rw [htext, readBack]
      refine scanValue_object limits ft.parse ?_ ?_ hfits.1
        (ih fuel (depth + 1) rest (List.cons_ne_nil m members) hfits.2 (by omega))
      · rw [hvalues, htail]
        rfl
      · rw [hvalues, htail]
        simp

/-- Reading the dumped items of a nonempty array gives them back, up to the closing bracket. -/
private theorem scan_dumpsItems : ∀ (items : List Json) (fuel depth : Nat) (rest : List Char),
    items ≠ [] → FitItems limits depth items →
      ([',', ' '].intercalate (dumpsItems ft items)).length + 1 ≤ fuel →
        scanItems limits ft.parse (fuel + 1) depth
          ([',', ' '].intercalate (dumpsItems ft items) ++ ']' :: rest) =
            .ok (readItems items, rest)
  | [], _, _, _ => fun hne _ _ => absurd rfl hne
  | item :: items, fuel, depth, rest => by
    have hitem := scan_dumps item
    have ih := scan_dumpsItems items
    intro _ hfits hfuel
    obtain ⟨fuel, rfl⟩ : ∃ k, fuel = k + 1 := ⟨fuel - 1, by omega⟩
    cases items with
    | nil =>
      simp only [dumpsItems, List.intercalate_singleton] at hfuel ⊢
      exact scanItems_last (hitem fuel depth _ hfits.1 (by omega) (endsNumeral_cons (by decide)))
    | cons item' items =>
      simp only [dumpsItems, List.intercalate_cons_cons, List.length_append, List.length_cons,
        List.length_nil] at hfuel
      have htext : [',', ' '].intercalate (dumpsItems ft (item :: item' :: items)) ++ ']' :: rest =
          dumps ft item ++ ',' :: ' ' ::
            ([',', ' '].intercalate (dumpsItems ft (item' :: items)) ++ ']' :: rest) := by
        simp [dumpsItems, List.intercalate_cons_cons]
      rw [htext]
      refine scanItems_cons
        (hitem fuel depth _ hfits.1 (by omega) (endsNumeral_cons (by decide))) ?_
        (ih fuel depth rest (List.cons_ne_nil item' items) hfits.2 ?_)
      · exact (starts_dumpsItems item' items).append _
      · simp only [dumpsItems]
        omega

/-- Reading the dumped members of a nonempty object gives them back, up to the closing brace. -/
private theorem scan_dumpsValues : ∀ (members : List (String × Json)) (fuel depth : Nat)
    (rest : List Char), members ≠ [] → FitValues limits depth members →
      (dumpsMembers (dumpsValues ft members)).length + 1 ≤ fuel →
        scanMembers limits ft.parse (fuel + 1) depth
          (dumpsMembers (dumpsValues ft members) ++ '\x7d' :: rest) =
            .ok (readValues members, rest)
  | [], _, _, _ => fun hne _ _ => absurd rfl hne
  | (key, value) :: members, fuel, depth, rest => by
    have hvalue := scan_dumps value
    have ih := scan_dumpsValues members
    intro _ hfits hfuel
    obtain ⟨fuel, rfl⟩ : ∃ k, fuel = k + 1 := ⟨fuel - 1, by omega⟩
    have hblank : ∀ rest, (dumps ft value ++ rest).dropWhile isSpace = dumps ft value ++ rest :=
      fun rest => ((starts_dumps value).append rest).dropWhile
    -- the last member is followed by the closing brace
    cases members with
    | nil =>
      have hlen := congrArg List.length (dumpsMembers_singleton key (dumps ft value) [])
      simp only [List.append_nil, List.length_append, List.length_cons] at hlen
      have hfuel' : (dumpsMembers [(key, dumps ft value)]).length + 1 ≤ fuel + 1 := hfuel
      change scanMembers limits ft.parse (fuel + 1 + 1) depth
        (dumpsMembers [(key, dumps ft value)] ++ '\x7d' :: rest) = _
      rw [dumpsMembers_singleton]
      exact scanMembers_last limits ft.parse key (hblank _)
        (hvalue fuel depth _ hfits.1 (by omega) (endsNumeral_cons (by decide)))
    -- any other one by a comma, and the members after it
    | cons m members =>
      obtain ⟨key', value'⟩ := m
      have hlen := congrArg List.length (dumpsMembers_cons_cons key (dumps ft value)
        (key', dumps ft value') (dumpsValues ft members) [])
      simp only [List.append_nil, List.length_append, List.length_cons] at hlen
      have hfuel' : (dumpsMembers ((key, dumps ft value) :: (key', dumps ft value') ::
          dumpsValues ft members)).length + 1 ≤ fuel + 1 := hfuel
      change scanMembers limits ft.parse (fuel + 1 + 1) depth
        (dumpsMembers ((key, dumps ft value) :: (key', dumps ft value') ::
          dumpsValues ft members) ++ '\x7d' :: rest) = _
      rw [dumpsMembers_cons_cons]
      refine scanMembers_cons limits ft.parse key (hblank _)
        (hvalue fuel depth _ hfits.1 (by omega) (endsNumeral_cons (by decide))) ?_
        (ih fuel depth rest (List.cons_ne_nil _ members) hfits.2 ?_)
      · obtain ⟨tail, htail⟩ := exists_dumpsMembers (key', dumps ft value') (dumpsValues ft members)
        rw [htail]
        rfl
      · change (dumpsMembers ((key', dumps ft value') :: dumpsValues ft members)).length + 1 ≤ fuel
        omega

end

/-- `json.loads` of a `str`. -/
def loadsStr (limits : Limits) (floatOfText : List Char → UInt64) (text : List Char) :
    Except LoadsError Json :=
  match scanValue limits floatOfText (text.length + 1) 0 (text.dropWhile isSpace) with
  | .error .value => .error (.valueError "Expecting value")
  | .error .recursion => .error .recursionError
  | .ok (doc, rest) =>
    if rest.dropWhile isSpace = [] then .ok doc else .error (.valueError "Extra data")

/-- `json.loads` reads any dumped document back. -/
theorem loadsStr_dumps (doc : Json) (hfits : Fits limits 0 doc) :
    loadsStr limits ft.parse (dumps ft doc) = .ok (readBack doc) := by
  have hscan : scanValue limits ft.parse ((dumps ft doc).length + 1) 0 (dumps ft doc ++ []) =
      .ok (readBack doc, []) :=
    scan_dumps doc _ 0 [] hfits (Nat.le_refl _) fun c hc => absurd hc (by simp)
  rw [List.append_nil] at hscan
  unfold loadsStr
  simp only [(starts_dumps doc).dropWhile, hscan]
  rfl

/-! ## Members -/

/-- Members are read back one by one, under their own keys. -/
private theorem readValues_eq (members : List (String × Json)) :
    readValues members = members.map fun m => (m.1, readBack m.2) := by
  induction members with
  | nil => rfl
  | cons m members ih =>
    rw [readValues, ih]
    rfl

/-- Where no key repeats, a look-up does not depend on the members' order. -/
private theorem lookup_reverse {members : List (String × Json)}
    (hkeys : (members.map Prod.fst).Nodup)
    (key : String) : lookup members.reverse key = lookup members key := by
  unfold lookup
  induction members with
  | nil => rfl
  | cons m members ih =>
    obtain ⟨hnew, hkeys⟩ := List.nodup_cons.mp hkeys
    rw [List.reverse_cons, List.lookup_append, ih hkeys]
    by_cases hkey : key = m.1
    -- the key is not met again
    · have hnone : members.lookup key = none := by
        rw [List.lookup_eq_none_iff]
        intro m' hm'
        rw [bne_iff_ne, hkey]
        intro heq
        exact hnew (heq ▸ List.mem_map_of_mem hm')
      rw [hnone, hkey, Option.none_or, List.lookup_cons, List.lookup_cons, beq_self_eq_true]
    · have hbeq : (key == m.1) = false := beq_eq_false_iff_ne.mpr hkey
      rw [List.lookup_cons, List.lookup_cons, hbeq, List.lookup_nil, Option.or_none]

/-- The members of an object with distinct keys are looked up as they were dumped. -/
theorem lookup_readValues {members : List (String × Json)} (hkeys : (members.map Prod.fst).Nodup)
    (key : String) :
    lookup (readValues members).reverse key = (lookup members key).map readBack := by
  have hkeys' : ((readValues members).map Prod.fst).Nodup := by
    rw [readValues_eq, List.map_map]
    exact hkeys
  rw [lookup_reverse hkeys', readValues_eq]
  unfold lookup
  induction members with
  | nil => rfl
  | cons m members ih =>
    rw [List.map_cons, List.lookup_cons, List.lookup_cons]
    cases key == m.1 with
    | true => rfl
    | false =>
      refine ih (List.nodup_cons.mp hkeys).2 ?_
      rw [readValues_eq, List.map_map]
      exact (List.nodup_cons.mp hkeys).2

end Json
