import Grimnir.Native.CsiStreamText
import Grimnir.Spec.StreamDelivery

/-!
# From a commit to Völva's row

Freki writes each row of the CSI stream as one line of JSON in one event; keepalives are
comments.  Völva decodes the text, however it is cut on its way, and loads the rows.

## Key results

- `inline_streamBlocks`: no line ends inside of what is written
- `reads_streamText`: the messages of a connection are the rows handed out
- `stream_reaches_volva`: the messages of a consumer that keeps up are the committed rows
-/

namespace Grimnir

open EventStream SeekPaging

variable {ft : Json.FloatText} {limits : Json.Limits}

/-! ## Lines -/

/-- Plain text holds no line break. -/
theorem not_mem_of_plain {text : List Char} (h : ∀ c ∈ text, Json.Plain c) :
    '\n' ∉ text ∧ '\r' ∉ text := by
  constructor
  · intro hmem
    exact absurd (h _ hmem) (by decide)
  · intro hmem
    exact absurd (h _ hmem) (by decide)

/-- No line ends inside of a block. -/
private theorem inline_blocks (now : Datetime) (output : StreamOutput) :
    ∀ b ∈ output.blocks ft now, b.Inline := by
  intro b hb
  -- a data line is one JSON text, the tail a comment
  cases output with
  | nothing => cases hb
  | data row =>
    change b ∈ (row.serialize ft).toList at hb
    unfold CsiSample.serialize at hb
    cases htime : Datetime.ofTimestamp? row.time with
    | none =>
      rw [htime] at hb
      cases hb
    | some time =>
      rw [htime] at hb
      obtain rfl := List.mem_singleton.mp hb
      exact not_mem_of_plain (Json.plain_dumps _)
  | tail =>
    obtain rfl := List.mem_singleton.mp hb
    refine not_mem_of_plain ?_
    intro c hc
    simp only [List.mem_cons] at hc
    rcases hc with rfl | rfl | rfl | rfl | rfl | hc
    · decide
    · decide
    · decide
    · decide
    · decide
    · exact now.plain_isoformat c hc

/-- Every block that is written is one of single lines. -/
theorem inline_streamBlocks (clock : Nat → Datetime) (log : List (StreamEvent × StreamOutput)) :
    ∀ b ∈ streamBlocks ft clock log, b.Inline := by
  induction log with
  | nil => exact fun b hb => absurd hb List.not_mem_nil
  | cons x log ih =>
    intro b hb
    rcases List.mem_append.mp hb with hb | hb
    · exact ih b hb
    · exact inline_blocks _ _ b hb

/-! ## Rows -/

/-- The driver represents the time of the row, and the interpreter's limits admit its JSON. -/
def CsiSample.Readable (limits : Json.Limits) (r : CsiSample) : Prop :=
  ∃ time, Datetime.ofTimestamp? r.time = some time ∧ Json.Fits limits 0 (.obj (r.payload time))

/-- The message is a dictionary with the row's columns; a NaN stays a NaN. -/
def ReadsRow (r : CsiSample) (message : Except Json.LoadsError Json) : Prop :=
  ∃ time members, Datetime.ofTimestamp? r.time = some time ∧ message = .ok (.obj members) ∧
    ∀ key, Json.lookup members key = (Json.lookup (r.payload time) key).map Json.readBack

/-- The members of a payload have distinct keys. -/
private theorem nodup_payload (r : CsiSample) (time : Datetime) :
    ((r.payload time).map Prod.fst).Nodup := by
  simp [CsiSample.payload]

/-- A serialized row is loaded as it was. -/
private theorem readsRow_dumps {r : CsiSample} {time : Datetime}
    (htime : Datetime.ofTimestamp? r.time = some time)
    (hfits : Json.Fits limits 0 (.obj (r.payload time))) :
    ReadsRow r (Json.loadsStr limits ft.parse (Json.dumps ft (.obj (r.payload time)))) :=
  ⟨time, (Json.readValues (r.payload time)).reverse, htime, Json.loadsStr_dumps _ hfits,
    Json.lookup_readValues (nodup_payload r time)⟩

/-- The messages of blocks that were written. -/
def blockMessages (limits : Json.Limits) (ft : Json.FloatText) (blocks : List Block) :
    List (Except Json.LoadsError Json) :=
  ((blocks.filterMap Block.event).filter fun e => e.type = messageType ∨ e.type = []).map
    fun e => Json.loadsStr limits ft.parse e.data

/-- Blocks of single lines are read one by one. -/
private theorem messages_write {blocks : List Block} (h : ∀ b ∈ blocks, b.Inline) :
    Volva.messages limits ft (blocks.flatMap Block.write) = blockMessages limits ft blocks := by
  rw [Volva.messages, decode_blocks h]
  rfl

/-- The messages of two runs of blocks, one after the other. -/
private theorem blockMessages_append (blocks blocks' : List Block) :
    blockMessages limits ft (blocks ++ blocks') =
      blockMessages limits ft blocks ++ blockMessages limits ft blocks' := by
  unfold blockMessages
  rw [List.filterMap_append, List.filter_append, List.map_append]

/-- However the text is cut, the messages of a first part are the first messages. -/
private theorem messages_prefix {text text' : List Char} (h : text' <+: text) :
    Volva.messages limits ft text' <+: Volva.messages limits ft text := by
  obtain ⟨rest, rfl⟩ := h
  obtain ⟨events, hevents⟩ := decode_append text' rest
  unfold Volva.messages
  rw [hevents, List.filter_append, List.map_append]
  exact List.prefix_append _ _

/-- The messages of a connection are the rows handed out, in their order. -/
theorem reads_streamText (clock : Nat → Datetime) (log : List (StreamEvent × StreamOutput))
    (h : ∀ r ∈ emitted log, r.Readable limits) :
    List.Forall₂ ReadsRow (emitted log) (Volva.messages limits ft (streamText ft clock log)) := by
  rw [streamText, messages_write (inline_streamBlocks clock log)]
  -- the log is newest first, so the last block is the newest entry's
  induction log with
  | nil => exact .nil
  | cons x log ih =>
    obtain ⟨e, output⟩ := x
    rw [streamBlocks, blockMessages_append]
    cases output with
    | nothing =>
      have hnone : blockMessages limits ft (StreamOutput.nothing.blocks ft (clock log.length)) =
          [] := rfl
      rw [hnone, List.append_nil]
      exact ih h
    | tail =>
      have hnone : blockMessages limits ft (StreamOutput.tail.blocks ft (clock log.length)) =
          [] := rfl
      rw [hnone, List.append_nil]
      exact ih h
    -- one message for the row, after those of the log before
    | data row =>
      have hlog := ih fun r hr => h r (List.mem_append_left _ hr)
      obtain ⟨time, htime, hfits⟩ := h row (List.mem_append_right _ List.mem_cons_self)
      have hrow : blockMessages limits ft ((StreamOutput.data row).blocks ft (clock log.length)) =
          [Json.loadsStr limits ft.parse (Json.dumps ft (.obj (row.payload time)))] := by
        unfold blockMessages
        change ((((row.serialize ft).toList.filterMap Block.event).filter _).map _) = _
        unfold CsiSample.serialize
        rw [htime]
        rfl
      rw [hrow, emitted]
      exact List.rel_append hlog (.cons (readsRow_dumps htime hfits) .nil)

/-- End to end: a consumer that keeps up loads, from whatever part of the text has arrived, the
    first of the rows that were committed since it connected, in the order of their keys; from
    the whole text it has all but those that Freki has read and not yet handed out. -/
theorem stream_reaches_volva (ft : Json.FloatText) (limits : Json.Limits)
    (clock : Nat → Datetime) (maxBatch : Nat) {table : List CsiSample} (hrows : table ≠ [])
    (loopTime : Int) {c : Config StreamSystem StreamEvent StreamOutput}
    (hrun : streamMachine.Run (TellsApart maxBatch) (connect table loopTime) c)
    (hopen : c.state.stream.await ≠ .closed) (hreadable : ∀ r ∈ emitted c.log, r.Readable limits) :
    ∃ rows : List CsiSample,
      List.Forall₂ ReadsRow rows (Volva.messages limits ft (streamText ft clock c.log)) ∧
      (rows ++ pending c.state.stream).Perm (committedAtPoll c.log) ∧
      Sorted CsiSample.orderKey (rows ++ pending c.state.stream) ∧
      ∀ text, text <+: streamText ft clock c.log →
        Volva.messages limits ft text <+: Volva.messages limits ft (streamText ft clock c.log) := by
  have hI := inStep_of_run hrows hrun hopen
  exact ⟨emitted c.log, reads_streamText clock c.log hreadable, hI.delivered, hI.sorted,
    fun _ htext => messages_prefix htext⟩

/-! ## A connection -/

/-- Digits and `.0` are a numeral. -/
private theorem numeral_toDigits (n : Nat) : Json.Numeral (Nat.toDigits 10 n ++ ['.', '0']) := by
  obtain ⟨first, digits, hcons⟩ :=
    List.exists_cons_of_ne_nil (Nat.toDigits_ne_nil (n := n) (b := 10))
  refine ⟨false, first, digits, ['.', '0'], [], ?_, ?_, ?_, rfl, rfl, List.cons_ne_nil _ _⟩
  · rw [hcons]
    rfl
  · rw [← hcons]
    exact fun c hc => Nat.isDigit_of_mem_toDigits (by omega) (by omega) hc
  · intro hzero
    have hn : n = 0 := by
      by_contra hn
      refine Json.head?_toDigits (Nat.pos_of_ne_zero hn) ?_
      rw [hcons, hzero]
      rfl
    subst hn
    exact (List.cons.inj hcons).2.symm

/-- Zero is `0.0`; any other double gets the digits of its word. -/
def wordText : Json.FloatText where
  repr word := Nat.toDigits 10 word.toNat ++ ['.', '0']
  parse text := UInt64.ofNat (Nat.ofDigitChars 10 (text.takeWhile Char.isDigit) 0)
  numeral word _ := numeral_toDigits word.toNat
  parse_repr word _ := by
    have hdigits : ∀ c ∈ Nat.toDigits 10 word.toNat, c.isDigit = true :=
      fun c hc => Nat.isDigit_of_mem_toDigits (by omega) (by omega) hc
    have htake : (Nat.toDigits 10 word.toNat ++ ['.', '0']).takeWhile Char.isDigit =
        Nat.toDigits 10 word.toNat := by
      rw [List.takeWhile_append_of_pos hdigits]
      exact List.append_nil _
    rw [htake, Nat.ofDigitChars_ten_toDigits, UInt64.ofNat_toNat]

/-- Without limits only the time matters. -/
private theorem readable_unlimited {r : CsiSample} (hmin : Datetime.minTimestamp ≤ r.time)
    (hmax : r.time ≤ Datetime.maxTimestamp) : r.Readable .unlimited := by
  obtain ⟨time, htime, -⟩ := Datetime.exists_ofTimestamp hmin hmax
  exact ⟨time, htime, Json.fits_unlimited _ _⟩

/-- The epoch is a date. -/
private theorem epochFields_valid :
    (⟨1970, 1, 1, 0, 0, 0, 0, some 0⟩ : Datetime.Fields).Valid := by decide

/-- The epoch. -/
def epoch : Datetime := ⟨⟨1970, 1, 1, 0, 0, 0, 0, some 0⟩, epochFields_valid⟩

/-- The log of the two commits that share a time. -/
def sharedTimeLog : List (StreamEvent × StreamOutput) :=
  (streamMachine.replay (connect [tailRow 10] 0) sharedTimeEvents).log

/-- Rows that share a time reach the subscriber. -/
theorem sharedTime_reaches_volva :
    ∃ rows : List CsiSample,
      List.Forall₂ ReadsRow rows
        (Volva.messages .unlimited wordText (streamText wordText (fun _ => epoch) sharedTimeLog)) ∧
      rows.Perm (committedAtPoll sharedTimeLog) := by
  have htimes : ∀ r ∈ emitted sharedTimeLog,
      Datetime.minTimestamp ≤ r.time ∧ r.time ≤ Datetime.maxTimestamp := by decide
  have hreadable : ∀ r ∈ emitted sharedTimeLog, r.Readable .unlimited :=
    fun r hr => readable_unlimited (htimes r hr).1 (htimes r hr).2
  obtain ⟨rows, hreads, hperm, -, -⟩ := stream_reaches_volva wordText .unlimited (fun _ => epoch) 2
    (List.cons_ne_nil (tailRow 10) []) 0 (Machine.run_of_admits sharedTime_polls.1)
    (by simp [sharedTime_open]) hreadable
  have hrows : (rows ++ []).Perm (committedAtPoll sharedTimeLog) := hperm
  rw [List.append_nil] at hrows
  exact ⟨rows, hreads, hrows⟩

end Grimnir
