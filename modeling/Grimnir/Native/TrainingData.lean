import Grimnir.ForStd.Base64
import Grimnir.ForStd.Datetime
import Grimnir.ForStd.IdentityMap
import Grimnir.ForStd.JsonText
import Grimnir.Native.Labels

/-!
# `freki/routers/training_data.py` and the client's export loop

A page of the export is one `SELECT` with a limit one above the page size; the extra row
only says that there is a next page.  Its rows are the objects of a session, and the response
is JSON without NaN and infinities.  The cursor is the key of the page's last row, as base64
of a JSON object.  `FrekiClient.iter_training_data` requests pages until a cursor is missing;
any writer may run between two requests.

A page crosses HTTP as it is, so a time in it stands as its instant.
-/

namespace Grimnir

/-! ## Python's exceptions -/

/-- The exceptions that decoding a cursor can raise. -/
inductive PyError where
  | valueError (message : String)
  | keyError (key : String)
  | typeError (message : String)
  | overflowError (message : String)
  | recursionError (message : String)
  deriving DecidableEq, Repr

/-- What Python makes of texts: the double of a numeral, `int(s)`, and `datetime.fromisoformat`
    of a text that is not ASCII. -/
structure Numerals where
  floatOfText : List Char → UInt64
  intOfStr : String → Option Int
  datetimeOfText : String → Option Datetime

/-- `datetime.fromisoformat` of a string; `none` where it raises `ValueError`. -/
def Numerals.fromisoformat (numerals : Numerals) (s : String) : Option Datetime :=
  if s.toList.all fun c => c.toNat < 128 then Datetime.fromisoformat s.toList
  else numerals.datetimeOfText s

/-- What `int(doc)` raises where it has no value. -/
def intError : Json → PyError
  | .float word =>
    if word.toNat % 2 ^ 52 = 0 then .overflowError "cannot convert float infinity to integer"
    else .valueError "cannot convert float NaN to integer"
  | .str s => .valueError s!"invalid literal for int() with base 10: '{s}'"
  | _ => .typeError "int() argument must be a string, a bytes-like object or a real number"

/-! ## Cursor helpers -/

/-- `_encode_cursor` of an integer that has a text. -/
def encodeCursor (time : Datetime) (receiverId : Int) : String :=
  let payload := Json.dumpsObject
    [("t", Json.dumpsString (String.ofList time.isoformat)), ("r", Json.dumpsInt receiverId)]
  PyStr.decodeAscii (Base64.urlsafeB64encode (PyStr.encodeAscii (String.ofList payload)))

/-- `_encode_cursor`; the `repr` of an integer with too many digits raises. -/
def encodeCursorIn (limits : Json.Limits) (time : Datetime) (receiverId : Int) :
    Except PyError String :=
  if Json.within limits.maxDigits (Json.digitCount receiverId) then
    .ok (encodeCursor time receiverId)
  else .error (.valueError "Exceeds the limit for integer string conversion")

/-- `cursor.encode("ascii")`. -/
def asciiBytes (cursor : String) : Except PyError (List UInt8) :=
  if cursor.toList.all fun c => c.toNat < 128 then .ok (PyStr.encodeAscii cursor)
  else .error (.valueError "'ascii' codec can't encode characters: ordinal not in range(128)")

/-- `obj[key]`. -/
def getItem (doc : Json) (key : String) : Except PyError Json :=
  match doc with
  | .obj members =>
    match Json.lookup members key with
    | some value => .ok value
    | none => .error (.keyError key)
  | .arr _ => .error (.typeError "list indices must be integers or slices, not str")
  | .str _ => .error (.typeError "string indices must be integers, not 'str'")
  | _ => .error (.typeError "object is not subscriptable")

/-- `datetime.fromisoformat(doc)`. -/
def fromIsoformat (numerals : Numerals) (doc : Json) : Except PyError Datetime :=
  match doc with
  | .str s =>
    match numerals.fromisoformat s with
    | some time => .ok time
    | none => .error (.valueError s!"Invalid isoformat string: '{s}'")
  | _ => .error (.typeError "fromisoformat: argument must be str")

/-- `int(doc)`. -/
def toInt (numerals : Numerals) (doc : Json) : Except PyError Int :=
  match doc.toInt numerals.intOfStr with
  | some n => .ok n
  | none => .error (intError doc)

/-- What `json.loads` raises. -/
def loadsError : Json.LoadsError → PyError
  | .valueError message => .valueError message
  | .recursionError => .recursionError "maximum recursion depth exceeded"

/-- `base64.urlsafe_b64decode(cursor.encode("ascii"))`. -/
def cursorPayload (cursor : String) : Except PyError (List UInt8) := do
  (Base64.urlsafeB64decode (← asciiBytes cursor)).mapError .valueError

/-- `datetime.fromisoformat(obj["t"]), int(obj["r"])`. -/
def cursorOfJson (numerals : Numerals) (obj : Json) : Except PyError (Datetime × Int) := do
  return (← fromIsoformat numerals (← getItem obj "t"), ← toInt numerals (← getItem obj "r"))

/-- The `try` block of `_decode_cursor`. -/
def readCursor (limits : Json.Limits) (numerals : Numerals) (cursor : String) :
    Except PyError (Datetime × Int) := do
  let payload ← cursorPayload cursor
  let obj ← (Json.loads limits numerals.floatOfText payload).mapError loadsError
  cursorOfJson numerals obj

/-- The `except` clause of `_decode_cursor`: only `ValueError` and `KeyError` are caught. -/
def cursorFailure : PyError → Failure
  | .valueError message => .http ⟨422, s!"Invalid cursor: {message}"⟩
  | .keyError key => .http ⟨422, s!"Invalid cursor: '{key}'"⟩
  | .typeError message => .uncaught s!"TypeError: {message}"
  | .overflowError message => .uncaught s!"OverflowError: {message}"
  | .recursionError message => .uncaught s!"RecursionError: {message}"

/-- `_decode_cursor`. -/
def decodeCursorIn (limits : Json.Limits) (numerals : Numerals) (cursor : String) :
    Except Failure (Datetime × Int) :=
  (readCursor limits numerals cursor).mapError cursorFailure

/-- `_decode_cursor` of an interpreter without limits. -/
def decodeCursor (numerals : Numerals) (cursor : String) : Except Failure (Datetime × Int) :=
  decodeCursorIn .unlimited numerals cursor

/-! ## The query -/

/-- `(time, receiver_id)`, as `ORDER BY` and the row comparison take it. -/
def TrainingSample.orderKey (t : TrainingSample) : Int ×ₗ Int := toLex t.key

/-- `(time, receiver_id) > (cursor_time, cursor_receiver_id)`. -/
def isAfter (cursor : Timestamp × Int) (t : TrainingSample) : Bool :=
  cursor.1 < t.time || (t.time = cursor.1 && cursor.2 < t.receiverId)

/-- The rows that `_training_query` selects.  The cursor is one more condition of the
    `WHERE` clause, so it applies before the limit. -/
def trainingQuery (rows : List TrainingSample) (window : Window) (roomList : List String)
    (cursor : Option (Timestamp × Int)) (pageSize : Nat) : List TrainingSample :=
  ((rows.filter fun t => window.contains t.time && roomList.contains t.label &&
    cursor.all fun c => isAfter c t).insertionSort
      fun a b => a.orderKey ≤ b.orderKey).take (pageSize + 1)

/-- The labelled row of a row of `csi_samples`; `label IN (…)` drops a `NULL` label. -/
def CsiSample.labelled (r : CsiSample) : Option TrainingSample :=
  r.label.map fun label => { toCsiRow := r.toCsiRow, label := label }

/-! ## The endpoint -/

def maxPageSize : Nat := 5000

def maxRooms : Nat := 32

/-- `TrainingSampleOut`. -/
structure TrainingSampleOut where
  time : Timestamp
  receiverId : Int
  transmitterMac : String
  rssi : Int
  channel : Int
  bandwidth : Int
  antennaCount : Int
  subcarrierCount : Int
  amplitude : List UInt32
  phase : List UInt32
  label : String
  deriving DecidableEq, Repr

/-- `TrainingSampleOut.model_validate`. -/
def TrainingSampleOut.modelValidate (s : TrainingSample) : TrainingSampleOut :=
  ⟨s.time, s.receiverId, s.transmitterMac, s.rssi, s.channel, s.bandwidth, s.antennaCount,
    s.subcarrierCount, s.amplitude, s.phase, s.label⟩

def TrainingSampleOut.key (row : TrainingSampleOut) : Timestamp × Int :=
  (row.time, row.receiverId)

/-- The `REAL` is neither a NaN nor an infinity: the bits of its exponent are not all set. -/
def isFiniteReal (word : UInt32) : Bool := word.toNat / 2 ^ 23 % 256 ≠ 255

/-- All floats of the row are finite. -/
def TrainingSampleOut.isFinite (row : TrainingSampleOut) : Bool :=
  row.amplitude.all isFiniteReal && row.phase.all isFiniteReal

/-- `TrainingDataPage`. -/
structure TrainingDataPage where
  rows : List TrainingSampleOut
  nextCursor : Option String
  deriving DecidableEq, Repr

/-- `JSONResponse.render` raises `ValueError` for a NaN or an infinity (`allow_nan=False`). -/
def notCompliant : Failure :=
  .uncaught "ValueError: Out of range float values are not JSON compliant"

def TrainingDataPage.isFinite (page : TrainingDataPage) : Bool := page.rows.all (·.isFinite)

/-- The response that FastAPI makes of a page. -/
def TrainingDataPage.render (page : TrainingDataPage) : Except Failure TrainingDataPage :=
  if page.isFinite then .ok page else .error notCompliant

/-- The query parameters of `GET /api/training-data`. -/
structure TrainingDataQuery where
  timeStart : Timestamp
  timeEnd : Timestamp
  rooms : String
  cursor : Option String
  pageSize : Int
  deriving DecidableEq, Repr

/-- The statements of the endpoint. -/
inductive ExportStatement where
  | selectTrainingSamples
  | selectCsiSamples
  deriving DecidableEq, Repr

/-- `[r.strip() for r in rooms.split(",") if r.strip()]`. -/
def roomList (rooms : String) : List String :=
  ((rooms.toList.splitOn ',').map fun r => PyStr.strip (String.ofList r)).filter (· ≠ "")

/-- A time that the driver can send: one in the range of `datetime`, in UTC. -/
def fitsDatetime (t : Timestamp) : Bool := Datetime.minTimestamp ≤ t && t ≤ Datetime.maxTimestamp

/-- What the driver raises for another one. -/
def dateOutOfRange : DBAPIError :=
  ⟨false, "invalid input for query argument: (date value out of range)"⟩

/-- What FastAPI checks of the query parameters. -/
def TrainingDataQuery.validate (q : TrainingDataQuery) : Except Failure Unit :=
  if q.rooms.length < 1 then
    .error (.http ⟨422, "rooms: String should have at least 1 character"⟩)
  else if q.pageSize < 1 then
    .error (.http ⟨422, "page_size: Input should be greater than or equal to 1"⟩)
  else if (maxPageSize : Int) < q.pageSize then
    .error (.http ⟨422, s!"page_size: Input should be less than or equal to {maxPageSize}"⟩)
  else .ok ()

/-- The rows of a `SELECT`, under a fault table. -/
def TrainingDataQuery.select (q : TrainingDataQuery) (cursor : Option (Timestamp × Int))
    (k : ExportStatement) (faults : ExportStatement → Option DBAPIError)
    (rows : List TrainingSample) : Except DBAPIError (List TrainingSample) :=
  match faults k with
  | some exc => .error exc
  | none =>
    -- the driver encodes the parameters before it sends the statement
    if fitsDatetime q.timeStart && fitsDatetime q.timeEnd && cursor.all (fitsDatetime ·.1) then
      .ok (trainingQuery rows ⟨q.timeStart, q.timeEnd⟩ (roomList q.rooms) cursor q.pageSize.toNat)
    else .error dateOutOfRange

/-- The page of the rows that were found, of which there may be one too many. -/
def pageOf (samples : List TrainingSample) (pageSize : Nat) : Except Failure TrainingDataPage :=
  let page := samples.take pageSize
  let rows := page.map TrainingSampleOut.modelValidate
  -- the row beyond the page says no more than that there is one
  if pageSize < samples.length then
    match page.getLast? with
    | none => .ok ⟨rows, none⟩
    | some last =>
      match Datetime.ofTimestamp? last.time with
      | some time => .ok ⟨rows, some (encodeCursor time last.receiverId)⟩
      | none => .error (.uncaught "OverflowError: date value out of range")
  else .ok ⟨rows, none⟩

/-- The key that the `cursor` parameter stands for. -/
def TrainingDataQuery.cursorKey (q : TrainingDataQuery) (numerals : Numerals) :
    Except Failure (Option (Timestamp × Int)) :=
  match q.cursor with
  | none => .ok none
  | some cursor => (decodeCursor numerals cursor).map fun (time, receiverId) =>
    some (time.timestamp, receiverId)

/-- The two `execute`s of `get_training_data`: `csi_samples` stands in for a table that the
    role may not read.  A session identifies a `TrainingSample` by its unique key, and a
    `CsiSample` by columns that several rows may share. -/
def TrainingDataQuery.samples (q : TrainingDataQuery) (cursor : Option (Timestamp × Int))
    (faults : ExportStatement → Option DBAPIError) (db : LabelDb) :
    Except Failure (List TrainingSample) :=
  match q.select cursor .selectTrainingSamples faults db.trainingSamples.rows with
  | .ok samples => .ok (IdentityMap.load TrainingSample.key samples)
  | .error exc =>
    if isTrainingSamplesPermissionError exc then
      match q.select cursor .selectCsiSamples faults
          (db.csiSamples.filterMap CsiSample.labelled) with
      | .ok samples => .ok (IdentityMap.load (·.identity) samples)
      | .error exc => .error (.internal exc)
    else .error (.internal exc)

/-- `get_training_data`, up to the response. -/
def getTrainingData (numerals : Numerals) (q : TrainingDataQuery)
    (faults : ExportStatement → Option DBAPIError) (db : LabelDb) :
    Except Failure TrainingDataPage := do
  q.validate
  if q.timeEnd ≤ q.timeStart then
    throw (.http ⟨422, "time_end must be after time_start"⟩)
  if roomList q.rooms = [] then
    throw (.http ⟨422, "rooms must not be empty"⟩)
  if maxRooms < (roomList q.rooms).length then
    throw (.http ⟨422, s!"rooms must have at most {maxRooms} entries"⟩)
  let cursor ← q.cursorKey numerals
  let samples ← q.samples cursor faults db
  let page ← pageOf samples q.pageSize.toNat
  page.render

/-! ## The client -/

/-- How an export stands: all pages read, ended by a refused request, or still going. -/
inductive Ending where
  | finished
  | failed (failure : Failure)
  | running
  deriving DecidableEq, Repr

/-- The pages that an export has read. -/
structure Export where
  pages : List TrainingDataPage
  ending : Ending
  deriving DecidableEq, Repr

/-- The rows that the generator has yielded. -/
def Export.rows (e : Export) : List TrainingSampleOut := e.pages.flatMap (·.rows)

/-- The loop of `iter_training_data`, for at most `fuel` requests: `serve k` answers the
    `k`-th request of the export. -/
def exportFrom (serve : Nat → Option String → Except Failure TrainingDataPage) :
    Nat → Nat → Option String → Export
  | 0, _, _ => ⟨[], .running⟩
  | fuel + 1, k, cursor =>
    match serve k cursor with
    | .error failure => ⟨[], .failed failure⟩
    | .ok page =>
      match page.nextCursor with
      | none => ⟨[page], .finished⟩
      | some next =>
        let rest := exportFrom serve fuel (k + 1) (some next)
        ⟨page :: rest.pages, rest.ending⟩

/-- The arguments of `iter_training_data`. -/
structure ExportArgs where
  timeStart : Timestamp
  timeEnd : Timestamp
  rooms : List String
  pageSize : Int := 2000
  deriving DecidableEq, Repr

/-- The request for the page behind a cursor. -/
def ExportArgs.query (args : ExportArgs) (cursor : Option String) : TrainingDataQuery where
  timeStart := args.timeStart
  timeEnd := args.timeEnd
  rooms := ",".intercalate args.rooms
  cursor := cursor
  pageSize := args.pageSize

/-- `FrekiClient.iter_training_data`, for at most `fuel` requests, when the `k`-th request
    reads the tables `dbs k`. -/
def iterTrainingData (numerals : Numerals) (args : ExportArgs)
    (faults : ExportStatement → Option DBAPIError) (dbs : Nat → LabelDb) (fuel : Nat) : Export :=
  exportFrom (fun k cursor => getTrainingData numerals (args.query cursor) faults (dbs k))
    fuel 0 none

end Grimnir
