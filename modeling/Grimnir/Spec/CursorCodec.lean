import Grimnir.ForStd.Except
import Grimnir.Native.TrainingData

/-!
# The cursor survives its encoding

Each layer of the cursor is read back by the layer that the decoder has for it: ASCII text,
base64, a JSON object, an ISO 8601 time and an integer.

## Key results

- `decodeCursorIn_of_fromisoformat`: a decoded cursor has the receiver that was encoded and the
  time that is read from the text of its time
- `decodeCursor_encodeCursor`: with an offset of no less than a second this is the same time
-/

namespace Grimnir

private theorem asciiBytes_decodeAscii {data : List UInt8} (h : ∀ b ∈ data, b < 128) :
    asciiBytes (PyStr.decodeAscii data) = .ok data := by
  have hchar : ∀ n < 128, (Char.ofNat n).toNat = n := by decide
  have hall : ((PyStr.decodeAscii data).toList.all fun c => c.toNat < 128) = true := by
    rw [List.all_eq_true]
    intro c hc
    rw [PyStr.decodeAscii, String.toList_ofList] at hc
    obtain ⟨b, hb, rfl⟩ := List.mem_map.mp hc
    have hlt : b.toNat < 128 := UInt8.lt_iff_toNat_lt.mp (h b hb)
    rw [if_pos (h b hb), hchar _ hlt, decide_eq_true hlt]
  rw [asciiBytes, if_pos hall, PyStr.encodeAscii_decodeAscii h]

/-- The JSON object of a cursor. -/
def cursorMembers (time : Datetime) (receiverId : Int) : List (String × List Char) :=
  [("t", Json.dumpsString (String.ofList time.isoformat)), ("r", Json.dumpsInt receiverId)]

private theorem dumped_cursorMembers {limits : Json.Limits} (time : Datetime) {receiverId : Int}
    (hwithin : Json.within limits.maxDigits (Json.digitCount receiverId)) :
    List.Forall₂ (fun m doc => Json.Dumped limits m.2 doc) (cursorMembers time receiverId)
      [.str (String.ofList time.isoformat), .int receiverId] :=
  .cons (Json.dumped_string _) (.cons (Json.dumped_int hwithin) .nil)

/-- The text of a time is ASCII. -/
theorem fromisoformat_isoformat (numerals : Numerals) (time : Datetime) :
    numerals.fromisoformat (String.ofList time.isoformat) =
      Datetime.fromisoformat time.isoformat := by
  have hascii : (time.isoformat.all fun c => c.toNat < 128) = true := by
    rw [List.all_eq_true]
    intro c hc
    exact decide_eq_true (time.ascii_isoformat hc)
  rw [Numerals.fromisoformat, String.toList_ofList, if_pos hascii]

/-- A decoded cursor has the receiver that was encoded and the time that is read from the text of
    its time. -/
theorem decodeCursorIn_of_fromisoformat {limits : Json.Limits} (numerals : Numerals)
    {time time' : Datetime} {receiverId : Int}
    (hwithin : Json.within limits.maxDigits (Json.digitCount receiverId))
    (htime : Datetime.fromisoformat time.isoformat = some time') :
    decodeCursorIn limits numerals (encodeCursor time receiverId) = .ok (time', receiverId) := by
  have hascii : asciiBytes (encodeCursor time receiverId) =
      .ok (Base64.urlsafeB64encode
        (PyStr.encodeAscii (String.ofList (Json.dumpsObject (cursorMembers time receiverId))))) :=
    asciiBytes_decodeAscii fun b hb => Base64.lt_of_mem_urlsafeB64encode hb
  have hpayload : cursorPayload (encodeCursor time receiverId) =
      .ok (PyStr.encodeAscii
        (String.ofList (Json.dumpsObject (cursorMembers time receiverId)))) := by
    unfold cursorPayload
    exact Except.bind_eq_ok.mpr ⟨_, hascii,
      Except.mapError_eq_ok.mpr (Base64.urlsafeB64decode_encode _)⟩
  have hload : Json.loads limits numerals.floatOfText (PyStr.encodeAscii
      (String.ofList (Json.dumpsObject (cursorMembers time receiverId)))) =
        .ok (.obj [("r", .int receiverId), ("t", .str (String.ofList time.isoformat))]) := by
    rw [PyStr.encodeAscii, String.toList_ofList]
    exact Json.loads_dumpsObject numerals.floatOfText (dumped_cursorMembers time hwithin)
      (List.cons_ne_nil _ _)
  have hread' : fromIsoformat numerals (.str (String.ofList time.isoformat)) = .ok time' := by
    rw [fromIsoformat, fromisoformat_isoformat, htime]
  have hread : readCursor limits numerals (encodeCursor time receiverId) =
      .ok (time', receiverId) := by
    unfold readCursor cursorOfJson
    refine Except.bind_eq_ok.mpr ⟨_, hpayload, Except.bind_eq_ok.mpr ⟨_,
      Except.mapError_eq_ok.mpr hload, ?_⟩⟩
    refine Except.bind_eq_ok.mpr ⟨.str (String.ofList time.isoformat), rfl,
      Except.bind_eq_ok.mpr ⟨time', hread', ?_⟩⟩
    rfl
  rw [decodeCursorIn, hread]
  rfl

/-- Without limits every cursor is read back, but for an offset of less than a second. -/
theorem decodeCursor_encodeCursor (numerals : Numerals) {time : Datetime} (h : time.OffsetKept)
    (receiverId : Int) :
    decodeCursor numerals (encodeCursor time receiverId) = .ok (time, receiverId) :=
  decodeCursorIn_of_fromisoformat numerals (Json.within_none _)
    (Datetime.fromisoformat_isoformat h)

end Grimnir
