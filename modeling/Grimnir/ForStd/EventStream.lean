import Mathlib.Data.List.TakeWhile

/-!
# Event streams

The `text/event-stream` format: lines that end in a line feed, a carriage return or both, fields
that build up an event, and a blank line that dispatches it.  The decoder takes one character
at a time, so it does not matter how the text is cut on its way.

## Key results

- `decode_append`: a longer text adds events and takes none back
- `decode_blocks`: what a sequence of written blocks is decoded to
-/

namespace EventStream

/-- A dispatched event. -/
structure Event where
  type : List Char
  data : List Char
  deriving DecidableEq, Repr

/-- The decoder between two characters. -/
structure Decoder where
  /-- The line that has not ended. -/
  line : List Char
  /-- The last character was a carriage return. -/
  afterReturn : Bool
  /-- The event type buffer. -/
  type : List Char
  /-- The data buffer. -/
  data : List Char
  deriving DecidableEq, Repr

def Decoder.start : Decoder := ⟨[], false, [], []⟩

/-- The type of an event that names none. -/
def messageType : List Char := ['m', 'e', 's', 's', 'a', 'g', 'e']

namespace Decoder

/-- A blank line. -/
def dispatch (d : Decoder) : Option Event × Decoder :=
  let reset : Decoder := { d with line := [], type := [], data := [] }
  if d.data = [] then (none, reset)
  else (some ⟨if d.type = [] then messageType else d.type, d.data.dropLast⟩, reset)

/-- The name of the field on a line. -/
def fieldName (line : List Char) : List Char := line.takeWhile (· ≠ ':')

/-- The value behind the colon, without one leading blank. -/
def fieldValue (line : List Char) : List Char :=
  match (line.dropWhile (· ≠ ':')).drop 1 with
  | ' ' :: value => value
  | value => value

/-- A line that is not blank.  A comment is a field without a name. -/
def field (line : List Char) (d : Decoder) : Decoder :=
  if fieldName line = ['d', 'a', 't', 'a'] then
    { d with line := [], data := d.data ++ fieldValue line ++ ['\n'] }
  else if fieldName line = ['e', 'v', 'e', 'n', 't'] then
    { d with line := [], type := fieldValue line }
  else { d with line := [] }

/-- The end of the current line. -/
def endLine (d : Decoder) : Option Event × Decoder :=
  if d.line = [] then d.dispatch else (none, d.field d.line)

/-- One character. -/
def step (d : Decoder) (c : Char) : Option Event × Decoder :=
  if c = '\n' then
    -- the second half of a line end
    if d.afterReturn then (none, { d with afterReturn := false }) else d.endLine
  else if c = '\r' then
    let (event, d) := { d with afterReturn := false }.endLine
    (event, { d with afterReturn := true })
  else (none, { d with line := d.line ++ [c], afterReturn := false })

/-- The events of a text and the decoder behind it. -/
def run (d : Decoder) : List Char → List Event × Decoder
  | [] => ([], d)
  | c :: text =>
    let (event, d) := d.step c
    let (events, d) := run d text
    (event.toList ++ events, d)

private theorem run_append (d : Decoder) (text text' : List Char) :
    d.run (text ++ text') =
      ((d.run text).1 ++ ((d.run text).2.run text').1, ((d.run text).2.run text').2) := by
  induction text generalizing d with
  | nil => rfl
  | cons c text ih => simp only [List.cons_append, run, ih, List.append_assoc]

end Decoder

/-- The events of a stream. -/
def decode (text : List Char) : List Event := (Decoder.start.run text).1

/-- A longer text adds events and takes none back: what was decoded from a stream that breaks
    off is a prefix of what it would have been. -/
theorem decode_append (text text' : List Char) :
    ∃ events, decode (text ++ text') = decode text ++ events := by
  unfold decode
  rw [Decoder.run_append]
  exact ⟨_, rfl⟩

/-! ## Writing -/

/-- What a server writes at once. -/
inductive Block where
  /-- `data: …` -/
  | message (data : List Char)
  /-- `event: …` and `data: …` -/
  | named (type data : List Char)
  /-- `: …` -/
  | comment (text : List Char)

namespace Block

/-- `data: …` -/
def dataLine (data : List Char) : List Char := ['d', 'a', 't', 'a', ':', ' '] ++ data

/-- `event: …` -/
def eventLine (type : List Char) : List Char := ['e', 'v', 'e', 'n', 't', ':', ' '] ++ type

/-- The text of a block, up to its blank line. -/
def write : Block → List Char
  | .message data => dataLine data ++ ['\n', '\n']
  | .named type data => eventLine type ++ '\n' :: (dataLine data ++ ['\n', '\n'])
  | .comment text => ':' :: ' ' :: text ++ ['\n', '\n']

/-- The event that a block stands for. -/
def event : Block → Option Event
  | .message data => some ⟨messageType, data⟩
  | .named type data => some ⟨if type = [] then messageType else type, data⟩
  | .comment _ => none

/-- No line ends inside of the block. -/
def Inline : Block → Prop
  | .message data => '\n' ∉ data ∧ '\r' ∉ data
  | .named type data => ('\n' ∉ type ∧ '\r' ∉ type) ∧ '\n' ∉ data ∧ '\r' ∉ data
  | .comment text => '\n' ∉ text ∧ '\r' ∉ text

end Block

/-! ## Reading what was written -/

namespace Decoder

/-- A text without line ends is added to the current line. -/
private theorem run_inline (d : Decoder) {text : List Char} (hlf : '\n' ∉ text) (hcr : '\r' ∉ text)
    (hreturn : d.afterReturn = false) :
    d.run text = ([], { d with line := d.line ++ text }) := by
  induction text generalizing d with
  | nil => simp [run]
  | cons c text ih =>
    have hc : c ≠ '\n' := fun h => hlf (h ▸ List.mem_cons_self)
    have hc' : c ≠ '\r' := fun h => hcr (h ▸ List.mem_cons_self)
    have hstep : d.step c = (none, { d with line := d.line ++ [c] }) := by
      simp only [step, if_neg hc, if_neg hc']
      rw [← hreturn]
    have htext := ih { d with line := d.line ++ [c] }
      (fun h => hlf (List.mem_cons_of_mem _ h)) (fun h => hcr (List.mem_cons_of_mem _ h)) hreturn
    rw [run, hstep]
    dsimp only at htext ⊢
    rw [htext]
    simp

/-- A whole line. -/
private theorem run_line (d : Decoder) {text : List Char} (hlf : '\n' ∉ text) (hcr : '\r' ∉ text)
    (hreturn : d.afterReturn = false) (hline : d.line = []) :
    d.run (text ++ ['\n']) =
      (({ d with line := text } : Decoder).endLine.1.toList,
        ({ d with line := text } : Decoder).endLine.2) := by
  rw [run_append, run_inline d hlf hcr hreturn, hline, List.nil_append]
  simp only [run, step, if_true, hreturn, Bool.false_eq_true, if_false, List.append_nil,
    List.nil_append]

/-- The line that names the type of the event. -/
private theorem run_eventLine {type : List Char} (hlf : '\n' ∉ type) (hcr : '\r' ∉ type) :
    start.run (Block.eventLine type ++ ['\n']) = ([], { start with type := type }) := by
  have hlf' : '\n' ∉ Block.eventLine type := by simpa [Block.eventLine] using hlf
  have hcr' : '\r' ∉ Block.eventLine type := by simpa [Block.eventLine] using hcr
  rw [run_line start hlf' hcr' rfl rfl]
  rfl

/-- The data line and the blank line behind it. -/
private theorem run_dataLine (type : List Char) {data : List Char} (hlf : '\n' ∉ data)
    (hcr : '\r' ∉ data) :
    ({ start with type := type } : Decoder).run (Block.dataLine data ++ ['\n', '\n']) =
      ([⟨if type = [] then messageType else type, data⟩], start) := by
  have hlf' : '\n' ∉ Block.dataLine data := by simpa [Block.dataLine] using hlf
  have hcr' : '\r' ∉ Block.dataLine data := by simpa [Block.dataLine] using hcr
  have htext : Block.dataLine data ++ ['\n', '\n'] =
      Block.dataLine data ++ ['\n'] ++ ['\n'] := by simp
  -- the data buffer ends in a line feed, which dispatching takes off
  have hdispatch : ({ start with type := type, data := data ++ ['\n'] } : Decoder).dispatch =
      (some ⟨if type = [] then messageType else type, data⟩, start) := by
    have hne : data ++ ['\n'] ≠ [] := by simp
    simp only [dispatch, if_neg hne, List.dropLast_concat]
    rfl
  rw [htext, run_append, run_line { start with type := type } hlf' hcr' rfl rfl]
  change ([] ++ (({ start with type := type, data := data ++ ['\n'] } : Decoder).run ['\n']).1,
    (({ start with type := type, data := data ++ ['\n'] } : Decoder).run ['\n']).2) = _
  change ([] ++ (({ start with type := type, data := data ++ ['\n'] } : Decoder).dispatch.1.toList
      ++ []), ({ start with type := type, data := data ++ ['\n'] } : Decoder).dispatch.2) = _
  rw [hdispatch]
  rfl

/-- A comment is skipped, and the blank line behind it dispatches nothing. -/
private theorem run_comment {text : List Char} (hlf : '\n' ∉ text) (hcr : '\r' ∉ text) :
    start.run (':' :: ' ' :: text ++ ['\n', '\n']) = ([], start) := by
  have hlf' : '\n' ∉ ':' :: ' ' :: text := by simpa using hlf
  have hcr' : '\r' ∉ ':' :: ' ' :: text := by simpa using hcr
  have htext : ':' :: ' ' :: text ++ ['\n', '\n'] = ':' :: ' ' :: text ++ ['\n'] ++ ['\n'] := by
    simp
  rw [htext, run_append, run_line start hlf' hcr' rfl rfl]
  rfl

/-- The decoder between two blocks. -/
private theorem run_block {b : Block} (h : b.Inline) :
    start.run b.write = (b.event.toList, start) := by
  cases b with
  | message data => exact run_dataLine [] h.1 h.2
  | comment text => exact run_comment h.1 h.2
  | named type data =>
    obtain ⟨⟨htype, htype'⟩, hdata, hdata'⟩ := h
    have htext : (Block.named type data).write =
        (Block.eventLine type ++ ['\n']) ++ (Block.dataLine data ++ ['\n', '\n']) := by
      simp [Block.write]
    rw [htext, run_append, run_eventLine htype htype']
    dsimp only
    rw [run_dataLine type hdata hdata']
    rfl

end Decoder

/-- The blocks that are events come out as these events, in their order. -/
theorem decode_blocks {blocks : List Block} (h : ∀ b ∈ blocks, b.Inline) :
    decode (blocks.flatMap Block.write) = blocks.filterMap Block.event := by
  have hrun : Decoder.start.run (blocks.flatMap Block.write) =
      (blocks.filterMap Block.event, Decoder.start) := by
    induction blocks with
    | nil => rfl
    | cons b blocks ih =>
      rw [List.flatMap_cons, Decoder.run_append, Decoder.run_block (h b List.mem_cons_self),
        ih fun b hb => h b (List.mem_cons_of_mem _ hb), List.filterMap_cons]
      cases b.event <;> rfl
  rw [decode, hrun]

end EventStream
