import Grimnir.Spec.CursorCodec

/-!
# What the cursor's decoder catches

`_decode_cursor` turns `ValueError` and `KeyError` into a 422.  The layers of a cursor raise
more: `TypeError` for a document of another shape, `OverflowError` for an infinite receiver and
`RecursionError` for a document that is nested too deep.  The conditions here say when none of
these is raised.  On the way back a cursor keeps its instant unless the offset of its time is
less than a second, which `fromisoformat` takes for UTC.

## Key results

- `caught_cursorOfJson_iff`: the documents whose reading raises nothing else
- `cursorCodec_iff`: the round trip and the answers, each with its exact condition
- `list_cursor`: the cursor of an empty list
-/

namespace Grimnir

open Except

/-- The exceptions that the `except` clause of `_decode_cursor` names. -/
def PyError.Caught : PyError → Prop
  | .valueError _ => True
  | .keyError _ => True
  | _ => False

/-- `_decode_cursor` returns a pair or raises `HTTPException(422)`. -/
def Answers (limits : Json.Limits) (numerals : Numerals) (cursor : String) : Prop :=
  (∃ time receiverId, decodeCursorIn limits numerals cursor = .ok (time, receiverId)) ∨
    ∃ detail, decodeCursorIn limits numerals cursor = .error (.http ⟨422, detail⟩)

/-- An encoded cursor is decoded to the same instant and receiver. -/
def CursorRoundTrips (limits : Json.Limits) (numerals : Numerals) (time : Datetime)
    (receiverId : Int) : Prop :=
  ∃ cursor time', encodeCursorIn limits time receiverId = .ok cursor ∧
    decodeCursorIn limits numerals cursor = .ok (time', receiverId) ∧
    time'.timestamp = time.timestamp

/-- A value that `int` takes, or rejects with a `ValueError`. -/
def IntOrValueError : Json → Prop
  | .int _ | .bool _ | .str _ => True
  | .float word => ¬(Json.truncate word = none ∧ word.toNat % 2 ^ 52 = 0)
  | .null | .arr _ | .obj _ => False

/-- An object whose `"t"` is a string and, where that is a time, whose `"r"` is such a value;
    either may be missing. -/
def CursorShaped (numerals : Numerals) (doc : Json) : Prop :=
  ∃ members, doc = .obj members ∧ ∀ t, Json.lookup members "t" = some t →
    ∃ s, t = .str s ∧ (numerals.fromisoformat s ≠ none →
      ∀ r, Json.lookup members "r" = some r → IntOrValueError r)

/-- The bytes of the cursor, if it has any, are not nested too deep for the scanner, and their
    document, if there is one, has the shape of a cursor. -/
def Answerable (limits : Json.Limits) (numerals : Numerals) (cursor : String) : Prop :=
  ∀ payload, cursorPayload cursor = .ok payload →
    Json.loads limits numerals.floatOfText payload ≠ .error .recursionError ∧
    ∀ doc, Json.loads limits numerals.floatOfText payload = .ok doc → CursorShaped numerals doc

/-! ## Layer by layer -/

/-- Whatever `b64decode` and UTF-8 raise is caught. -/
private theorem caught_cursorPayload (cursor : String) :
    RaisesOnly PyError.Caught (cursorPayload cursor) := by
  unfold cursorPayload asciiBytes
  refine raisesOnly_bind.mpr ⟨?_, fun data _ => ?_⟩
  · split
    · exact raisesOnly_ok _
    · exact (raisesOnly_error _).mpr trivial
  · exact raisesOnly_mapError.mpr fun _ _ => trivial

/-- `json.loads` raises what is caught, unless the document is nested too deeply. -/
private theorem caught_loads_iff {x : Except Json.LoadsError Json} :
    RaisesOnly PyError.Caught (x.mapError loadsError) ↔ x ≠ .error .recursionError := by
  rw [raisesOnly_mapError]
  constructor
  · intro h heq
    exact h _ heq
  · intro h e he
    cases e with
    | valueError message => trivial
    | recursionError => exact absurd he h

/-- `int` raises a `ValueError` at most exactly when it is given a string or a number other than
    an infinity. -/
private theorem caught_toInt_iff (numerals : Numerals) (doc : Json) :
    RaisesOnly PyError.Caught (toInt numerals doc) ↔ IntOrValueError doc := by
  unfold toInt
  -- which documents `int` converts, and what it raises on the others
  cases doc with
  | null => exact raisesOnly_error _
  | bool b => exact iff_of_true (raisesOnly_ok _) trivial
  | int n => exact iff_of_true (raisesOnly_ok _) trivial
  | float word =>
    simp only [Json.toInt, IntOrValueError]
    -- an infinite float is an `OverflowError`, a NaN a `ValueError`
    cases Json.truncate word with
    | some n => exact iff_of_true (raisesOnly_ok n) fun h => Option.some_ne_none n h.1
    | none =>
      rw [raisesOnly_error, intError]
      by_cases hzero : word.toNat % 2 ^ 52 = 0
      · rw [if_pos hzero]
        exact iff_of_false id fun h => h ⟨rfl, hzero⟩
      · rw [if_neg hzero]
        exact iff_of_true trivial fun h => hzero h.2
  | str s =>
    simp only [Json.toInt, IntOrValueError]
    cases numerals.intOfStr s with
    | some n => exact iff_of_true (raisesOnly_ok n) trivial
    | none => exact iff_of_true ((raisesOnly_error _).mpr trivial) trivial
  | arr items => exact raisesOnly_error _
  | obj members => exact raisesOnly_error _

/-- `fromisoformat` raises what is caught exactly when it is given a string. -/
private theorem caught_fromIsoformat_iff (numerals : Numerals) (doc : Json) :
    RaisesOnly PyError.Caught (fromIsoformat numerals doc) ↔ ∃ s, doc = .str s := by
  cases doc with
  | str s =>
    refine iff_of_true ?_ ⟨s, rfl⟩
    simp only [fromIsoformat]
    split
    · exact raisesOnly_ok _
    · exact (raisesOnly_error _).mpr trivial
  | _ =>
    refine iff_of_false (fun h => (raisesOnly_error _).mp h) ?_
    rintro ⟨s, h⟩
    cases h

/-- A key of an object is there or raises a `KeyError`. -/
private theorem caught_getItem_obj (members : List (String × Json)) (key : String) :
    RaisesOnly PyError.Caught (getItem (.obj members) key) := by
  simp only [getItem]
  split
  · exact raisesOnly_ok _
  · exact (raisesOnly_error _).mpr trivial

/-- Indexing an object is looking its key up. -/
private theorem getItem_obj_eq_ok {members : List (String × Json)} {key : String} {value : Json} :
    getItem (.obj members) key = .ok value ↔ Json.lookup members key = some value := by
  simp only [getItem]
  cases Json.lookup members key with
  | some value' => simp
  | none => simp

/-- On a string `fromisoformat` is what the interpreter reads. -/
private theorem fromIsoformat_str_eq_ok {numerals : Numerals} {s : String} {time : Datetime} :
    fromIsoformat numerals (.str s) = .ok time ↔ numerals.fromisoformat s = some time := by
  simp only [fromIsoformat]
  cases numerals.fromisoformat s with
  | some time' => simp
  | none => simp

/-- The documents whose reading raises nothing but what is caught. -/
theorem caught_cursorOfJson_iff (numerals : Numerals) (doc : Json) :
    RaisesOnly PyError.Caught (cursorOfJson numerals doc) ↔ CursorShaped numerals doc := by
  unfold cursorOfJson CursorShaped
  simp only [raisesOnly_bind, caught_fromIsoformat_iff, caught_toInt_iff]
  -- the members are read in the source's order: `t` first, then `r`
  cases doc with
  | obj members =>
    constructor
    · rintro ⟨-, htime⟩
      refine ⟨members, rfl, fun t ht => ?_⟩
      obtain ⟨⟨s, rfl⟩, hreceiver⟩ := htime t (getItem_obj_eq_ok.mpr ht)
      refine ⟨s, rfl, fun hs r hr => ?_⟩
      obtain ⟨time, htime⟩ := Option.ne_none_iff_exists'.mp hs
      exact ((hreceiver time (fromIsoformat_str_eq_ok.mpr htime)).2 r (getItem_obj_eq_ok.mpr hr)).1
    · rintro ⟨_, heq, hshape⟩
      cases heq
      refine ⟨caught_getItem_obj members "t", fun t ht => ?_⟩
      obtain ⟨s, rfl, hreceiver⟩ := hshape t (getItem_obj_eq_ok.mp ht)
      refine ⟨⟨s, rfl⟩, fun time htime => ⟨caught_getItem_obj members "r", fun r hr => ?_⟩⟩
      have hs : numerals.fromisoformat s ≠ none := by
        rw [fromIsoformat_str_eq_ok.mp htime]
        exact Option.some_ne_none time
      exact ⟨hreceiver hs r (getItem_obj_eq_ok.mp hr), fun n _ => raisesOnly_ok _⟩
  | _ =>
    -- subscripting anything else is a `TypeError`
    refine iff_of_false (fun h => (raisesOnly_error _).mp h.1) ?_
    rintro ⟨members, h, -⟩
    cases h

/-- A cursor is read, or raises what is caught, exactly when it is answerable. -/
private theorem caught_readCursor_iff (limits : Json.Limits) (numerals : Numerals)
    (cursor : String) : RaisesOnly PyError.Caught (readCursor limits numerals cursor) ↔
      Answerable limits numerals cursor := by
  unfold readCursor Answerable
  simp only [raisesOnly_bind, caught_loads_iff, caught_cursorOfJson_iff, mapError_eq_ok]
  exact and_iff_right (caught_cursorPayload cursor)

/-! ## The decoder -/

/-- A request is answered, with a page or a 422, exactly when nothing else is raised. -/
private theorem answers_iff_caught (limits : Json.Limits) (numerals : Numerals) (cursor : String) :
    Answers limits numerals cursor ↔
      RaisesOnly PyError.Caught (readCursor limits numerals cursor) := by
  unfold Answers decodeCursorIn
  cases readCursor limits numerals cursor with
  | ok pair => exact iff_of_true (.inl ⟨pair.1, pair.2, rfl⟩) (raisesOnly_ok pair)
  | error e =>
    rw [raisesOnly_error]
    cases e with
    | valueError message => exact iff_of_true (.inr ⟨_, rfl⟩) trivial
    | keyError key => exact iff_of_true (.inr ⟨_, rfl⟩) trivial
    | _ =>
      refine iff_of_false ?_ id
      rintro (⟨time, receiverId, h⟩ | ⟨detail, h⟩)
      · cases h
      · cases h

/-- A cursor is read back exactly when its integer fits the limits and its offset is kept. -/
private theorem cursorRoundTrips_iff (limits : Json.Limits) (numerals : Numerals) (time : Datetime)
    (receiverId : Int) : CursorRoundTrips limits numerals time receiverId ↔
      Json.within limits.maxDigits (Json.digitCount receiverId) ∧ time.OffsetKept := by
  unfold CursorRoundTrips encodeCursorIn
  by_cases hwithin : Json.within limits.maxDigits (Json.digitCount receiverId)
  · obtain ⟨time', hread, hinstant⟩ := time.exists_timestamp_fromisoformat
    have hdecoded := decodeCursorIn_of_fromisoformat numerals hwithin hread
    rw [if_pos hwithin, and_iff_right hwithin, ← hinstant]
    constructor
    · rintro ⟨cursor, time'', hcursor, hdecode, hsame⟩
      rw [← Except.ok.inj hcursor, hdecoded] at hdecode
      rwa [(Prod.mk.inj (Except.ok.inj hdecode)).1]
    · intro hsame
      exact ⟨_, time', rfl, hdecoded, hsame⟩
  · rw [if_neg hwithin]
    refine iff_of_false ?_ fun h => hwithin h.1
    rintro ⟨cursor, time', h, -⟩
    cases h

/-- A cursor survives its encoding unless its receiver has more digits than the interpreter
    writes or the offset of its time is less than a second, and any text is answered as long as
    its document has the shape of a cursor. -/
theorem cursorCodec_iff (limits : Json.Limits) (numerals : Numerals) :
    (∀ time receiverId, CursorRoundTrips limits numerals time receiverId ↔
      Json.within limits.maxDigits (Json.digitCount receiverId) ∧ time.OffsetKept) ∧
    ∀ cursor, Answers limits numerals cursor ↔ Answerable limits numerals cursor :=
  ⟨cursorRoundTrips_iff limits numerals, fun cursor =>
    (answers_iff_caught limits numerals cursor).trans
      (caught_readCursor_iff limits numerals cursor)⟩

/-- `"W10="` is an empty list, and to subscript it with a string is a `TypeError`. -/
theorem list_cursor :
    ¬∀ limits numerals, (∀ time receiverId, CursorRoundTrips limits numerals time receiverId) ∧
      ∀ cursor, Answers limits numerals cursor := by
  intro h
  have hread : readCursor .unlimited ⟨fun _ => 0, fun _ => none, fun _ => none⟩ "W10=" =
      .error (.typeError "list indices must be integers or slices, not str") := by
    rfl
  have hanswers := (answers_iff_caught _ _ _).mp
    ((h .unlimited ⟨fun _ => 0, fun _ => none, fun _ => none⟩).2 "W10=")
  rw [hread, raisesOnly_error] at hanswers
  exact hanswers

end Grimnir
