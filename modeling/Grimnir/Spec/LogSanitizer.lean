import Grimnir.Native.SyslogClient
import Mathlib.Data.List.DropRight

/-!
# Control sequences in log lines

`sanitize_log_line` leaves an escape at the first byte from `@` to `~`.  The `[` that opens a
control sequence is such a byte, so the rest of the sequence is kept as text.

## Key results

- `safe_sanitizeLogLine`: the text that every line leaves, cut to the buffer and trimmed
- `shown_coded`: of a control sequence all but its first two bytes is kept
- `sanitizes_iff`: a line comes out like its text alone exactly when it has no control sequence
- `coloured_error_demoted`: a red `E` line is sent as informational
-/

namespace Grimnir.Muninn

open CAccess

/-! ## What the scanner keeps -/

/-- The bytes that are written. -/
def keep (ch : UInt8) : Bool := isprint ch || ch = 0x09

/-- The bytes of a line that the scanner keeps, given whether it is in an escape. -/
def shown : Bool → List UInt8 → List UInt8
  | _, [] => []
  | true, ch :: src => if 0x40 ≤ ch ∧ ch ≤ 0x7E then shown false src else shown true src
  | false, ch :: src =>
    if ch = 0x1B then shown true src
    else if keep ch then ch :: shown false src
    else shown false src

/-- The text that is left of a line in a buffer of `n` bytes. -/
def sanitized (n : Nat) (input : List UInt8) : List UInt8 :=
  ((shown false input).take (n - 1)).rdropWhile isspace

/-- The scanner only leaves bytes out. -/
private theorem length_shown_le (inEscape : Bool) (input : List UInt8) :
    (shown inEscape input).length ≤ input.length := by
  induction input generalizing inEscape with
  | nil => simp [shown]
  | cons ch src ih =>
    have htrue := ih true
    have hfalse := ih false
    cases inEscape with
    | true =>
      simp only [shown, List.length_cons]
      split <;> omega
    | false =>
      simp only [shown, List.length_cons]
      split
      · omega
      · split
        · simp only [List.length_cons]
          omega
        · omega

/-- What the scanner keeps is printable or a tab. -/
private theorem keep_of_mem_shown {inEscape : Bool} {input : List UInt8} {ch : UInt8}
    (h : ch ∈ shown inEscape input) : keep ch = true := by
  -- the induction is on the input, for both states of the escape flag
  induction input generalizing inEscape with
  | nil => simp [shown] at h
  | cons first src ih =>
    cases inEscape with
    | true =>
      simp only [shown] at h
      split at h
      · exact ih h
      · exact ih h
    | false =>
      simp only [shown] at h
      split at h
      · exact ih h
      · split at h
        · rename_i hkeep
          cases List.mem_cons.mp h with
          | inl hfirst => rw [hfirst]; exact hkeep
          | inr hrest => exact ih hrest
        · exact ih h

/-! ## The loops -/

/-- A byte that is kept passes the three tests of the loop. -/
private theorem keep_char {ch : UInt8} (h : keep ch = true) :
    ch ≠ 0x0D ∧ ch ≠ 0x0A ∧ ¬(isprint ch = false ∧ ch ≠ 0x09) := by
  refine ⟨?_, ?_, ?_⟩
  · rintro rfl
    exact absurd h (by decide)
  · rintro rfl
    exact absurd h (by decide)
  · rintro ⟨hprint, htab⟩
    simp [keep, hprint, htab] at h

/-- A byte that is not kept is neither printable nor a tab. -/
private theorem not_keep_char {ch : UInt8} (h : ¬keep ch = true) :
    isprint ch = false ∧ ch ≠ 0x09 := by
  simpa [keep] using h

/-- The loop from any state: what is written so far, and what the rest of the line adds. -/
private theorem safe_sanitizeLoop (input : List UInt8) (inEscape : Bool) {written : Nat}
    {output : List UInt8} (hroom : written < output.length) :
    Safe (sanitizeLoop ⟨inEscape, written, output⟩ input) fun s =>
      s.output.length = output.length ∧ s.written < output.length ∧
        s.output.take s.written =
          (output.take written ++ shown inEscape input).take (output.length - 1) := by
  -- the loop's three moves: the flag clears, the byte is kept, the byte is skipped
  induction input generalizing inEscape written output with
  | nil =>
    refine Safe.pure ⟨rfl, hroom, ?_⟩
    rw [shown, List.append_nil, List.take_take, Nat.min_eq_right (by omega)]
  | cons ch src ih =>
    cases inEscape with
    | true =>
      simp only [sanitizeLoop, shown, if_true]
      split
      · exact ih false hroom
      · exact ih true hroom
    | false =>
      simp only [sanitizeLoop, shown, Bool.false_eq_true, if_false]
      by_cases hescape : ch = 0x1B
      · -- the escape itself is dropped
        simpa only [if_pos hescape] using ih true hroom
      simp only [if_neg hescape]
      by_cases hkeep : keep ch = true
      · obtain ⟨hcr, hlf, hprint⟩ := keep_char hkeep
        simp only [hcr, hlf, or_self, if_false, Bool.not_eq_true', hprint, hkeep, if_true]
        by_cases hfull : written + 1 ≥ output.length
        · -- no room is left but for the closing `NUL`
          rw [if_pos hfull]
          refine Safe.pure ⟨rfl, hroom, ?_⟩
          have hlength : (output.take written).length = output.length - 1 := by
            rw [List.length_take]
            omega
          rw [← hlength, List.take_left]
        · rw [if_neg hfull]
          refine (safe_store hroom ch).bind ?_
          rintro _ rfl
          have hnext := @ih false (written + 1) (output.set written ch)
            (by rw [List.length_set]; omega)
          simpa only [List.length_set, take_set hroom, List.append_assoc,
            List.singleton_append] using hnext
      -- a byte that is neither kept nor an escape leaves the output alone
      · have hskip := not_keep_char hkeep
        simp only [Bool.not_eq_true', hskip, ne_eq, not_false_iff, and_self, if_true, hkeep,
          ite_self]
        exact ih false hroom

/-- Trailing white space goes. -/
private theorem safe_trimSpace {output : List UInt8} {written : Nat} (h : written ≤ output.length) :
    Safe (trimSpace output written) fun kept =>
      kept ≤ written ∧ output.take kept = (output.take written).rdropWhile isspace := by
  induction written with
  | zero => exact Safe.pure ⟨Nat.le_refl 0, by simp⟩
  | succ written ih =>
    refine (safe_load (show written < output.length by omega)).bind fun ch hch => ?_
    have htake : output.take (written + 1) = output.take written ++ [ch] := by
      rw [List.take_add_one, hch]
      rfl
    rw [htake, List.rdropWhile_concat]
    split
    · exact (ih (by omega)).mono fun kept hkept => ⟨by omega, hkept.2⟩
    · refine Safe.pure ⟨Nat.le_refl _, htake⟩

/-- What every line leaves in a buffer with room for the closing `NUL`. -/
theorem safe_sanitizeLogLine (input : List UInt8) {output : List UInt8}
    (hroom : 0 < output.length) :
    Safe (sanitizeLogLine input output) fun out => out.length = output.length ∧ 0 ∈ out ∧
      -- both sides run to an end, and the texts are the specification's
      cString out = sanitized output.length input := by
  unfold sanitizeLogLine
  rw [if_neg (by omega)]
  refine (safe_sanitizeLoop input false hroom).bind fun s hs => ?_
  obtain ⟨hlength, hwritten, htext⟩ := hs
  refine (safe_trimSpace (by omega)).bind fun kept hkept => ?_
  obtain ⟨hkept, htrim⟩ := hkept
  refine (safe_store (by omega) 0).mono ?_
  rintro _ rfl
  rw [List.take_zero, List.nil_append] at htext
  rw [htext] at htrim
  have hout : s.output.set kept 0 =
      sanitized output.length input ++ 0 :: s.output.drop (kept + 1) := by
    rw [List.set_eq_take_append_cons_drop, if_pos (by omega), htrim]
    rfl
  refine ⟨by rw [List.length_set, hlength], ?_, ?_⟩
  · rw [hout]
    simp
  · rw [hout]
    apply cString_append
    intro ch hch
    -- no `NUL` is written before the last one
    have hshown := List.mem_of_mem_take ((List.rdropWhile_prefix isspace _).subset hch)
    have hkeep := keep_of_mem_shown hshown
    rintro rfl
    exact absurd hkeep (by decide)

/-! ## Lines with control sequences -/

/-- A piece of a line: text, or a complete control sequence. -/
inductive LinePiece where
  | text (bytes : List UInt8) (plain : ∀ b ∈ bytes, b ≠ 0 ∧ b ≠ 0x1B)
  | control (parameters intermediates : List UInt8) (final : UInt8)
      (hparameters : ∀ b ∈ parameters, 0x30 ≤ b ∧ b ≤ 0x3F)
      (hintermediates : ∀ b ∈ intermediates, 0x20 ≤ b ∧ b ≤ 0x2F)
      (hfinal : 0x40 ≤ final ∧ final ≤ 0x7E)

/-- The bytes of the text. -/
def LinePiece.plain : LinePiece → List UInt8
  | .text bytes _ => bytes
  | .control _ _ _ _ _ _ => []

/-- What comes after `ESC [`. -/
def LinePiece.body : LinePiece → List UInt8
  | .text _ _ => []
  | .control parameters intermediates final _ _ _ => parameters ++ intermediates ++ [final]

/-- The bytes of the piece. -/
def LinePiece.coded : LinePiece → List UInt8
  | .text bytes _ => bytes
  | .control parameters intermediates final _ _ _ =>
    0x1B :: 0x5B :: (parameters ++ intermediates ++ [final])

def LinePiece.IsText : LinePiece → Prop
  | .text _ _ => True
  | .control _ _ _ _ _ _ => False

/-- The line, and its text alone. -/
def codedLine (pieces : List LinePiece) : List UInt8 := pieces.flatMap LinePiece.coded

def plainLine (pieces : List LinePiece) : List UInt8 := pieces.flatMap LinePiece.plain

/-- What a sanitised line is: a terminated string in its buffer, of printable bytes and tabs,
    with no white space at the end, which stays what it is. -/
structure CleanLine (n : Nat) (out : List UInt8) : Prop where
  terminated : out.length = n ∧ 0 ∈ out
  printable : ∀ ch ∈ cString out, isprint ch = true ∨ ch = 0x09
  trimmed : ∀ ch ∈ (cString out).getLast?, isspace ch = false
  again : ∀ output : List UInt8, output.length = n →
    Safe (sanitizeLogLine (cString out) output) fun out' => cString out' = cString out

/-- In buffers of `n` bytes the line comes out clean and like its text alone, with the same
    severity. -/
def Sanitizes (pieces : List LinePiece) (n : Nat) : Prop :=
  ∀ output plainOutput : List UInt8, output.length = n → plainOutput.length = n →
    ∃ out plain, sanitizeLogLine (codedLine pieces) output = .ok out ∧
      sanitizeLogLine (plainLine pieces) plainOutput = .ok plain ∧
      cString out = cString plain ∧ CleanLine n out ∧
      syslogSeverityFromLine out = syslogSeverityFromLine plain

/-! ### What is kept of them -/

/-- Text without an escape is filtered byte by byte. -/
private theorem shown_append_of_plain {bytes : List UInt8} (h : ∀ b ∈ bytes, b ≠ 0x1B)
    (rest : List UInt8) : shown false (bytes ++ rest) = bytes.filter keep ++ shown false rest := by
  induction bytes with
  | nil => rfl
  | cons b bytes ih =>
    have htail := ih fun c hc => h c (List.mem_cons_of_mem b hc)
    simp only [List.cons_append, shown, if_neg (h b List.mem_cons_self), htail]
    by_cases hkeep : keep b = true <;> simp [hkeep]

/-- The printable ASCII bytes are kept. -/
private theorem keep_of_range {ch : UInt8} (h : 0x20 ≤ ch ∧ ch ≤ 0x7E) : keep ch = true := by
  simp [keep, isprint, h]

/-- All of the body is printable. -/
private theorem body_range (piece : LinePiece) : ∀ b ∈ piece.body, 0x20 ≤ b ∧ b ≤ 0x7E := by
  cases piece with
  | text bytes plain => simp [LinePiece.body]
  | control parameters intermediates final hparameters hintermediates hfinal =>
    intro b hb
    simp only [LinePiece.body, List.mem_append, List.mem_singleton] at hb
    rcases hb with (hb | hb) | rfl
    · have := hparameters b hb
      exact ⟨UInt8.le_trans (show (0x20 : UInt8) ≤ 0x30 by decide) this.1,
        UInt8.le_trans this.2 (show (0x3F : UInt8) ≤ 0x7E by decide)⟩
    · have := hintermediates b hb
      exact ⟨this.1, UInt8.le_trans this.2 (show (0x2F : UInt8) ≤ 0x7E by decide)⟩
    · exact ⟨UInt8.le_trans (show (0x20 : UInt8) ≤ 0x40 by decide) hfinal.1, hfinal.2⟩

/-- Of a control sequence the body is kept: the escape is left at its `[`. -/
theorem shown_coded (piece : LinePiece) (rest : List UInt8) :
    shown false (piece.coded ++ rest) =
      piece.plain.filter keep ++ piece.body ++ shown false rest := by
  have hrange := body_range piece
  cases piece with
  | text bytes plain =>
    simpa [LinePiece.coded, LinePiece.plain, LinePiece.body] using
      shown_append_of_plain (fun b hb => (plain b hb).2) rest
  | control parameters intermediates final hparameters hintermediates hfinal =>
    simp only [LinePiece.coded, LinePiece.plain, LinePiece.body, List.cons_append, List.filter_nil,
      List.nil_append] at hrange ⊢
    -- `ESC` enters the escape, `[` ends it, and the body is read as text
    rw [shown, if_pos rfl, shown, if_pos (by decide), shown_append_of_plain]
    · rw [List.filter_eq_self.mpr fun b hb => keep_of_range (hrange b hb)]
    · rintro b hb rfl
      exact absurd (hrange _ hb).1 (by decide)

/-- Of a coloured line its text is shown, and what follows each complete sequence. -/
private theorem shown_codedLine (pieces : List LinePiece) :
    shown false (codedLine pieces) =
      pieces.flatMap fun piece => piece.plain.filter keep ++ piece.body := by
  induction pieces with
  | nil => rfl
  | cons piece pieces ih =>
    rw [codedLine, List.flatMap_cons, shown_coded, List.flatMap_cons, ← ih, codedLine]

/-- Of the text alone, its kept bytes are shown. -/
private theorem shown_plainLine (pieces : List LinePiece) :
    shown false (plainLine pieces) = pieces.flatMap fun piece => piece.plain.filter keep := by
  induction pieces with
  | nil => rfl
  | cons piece pieces ih =>
    have hplain : ∀ b ∈ piece.plain, b ≠ 0x1B := by
      cases piece with
      | text bytes plain => exact fun b hb => (plain b hb).2
      | control _ _ _ _ _ _ => simp [LinePiece.plain]
    rw [plainLine, List.flatMap_cons, shown_append_of_plain hplain, List.flatMap_cons, ← ih,
      plainLine]

/-! ## Every line -/

/-- A sanitised line is left as it is. -/
private theorem sanitized_sanitized (n : Nat) (input : List UInt8) :
    sanitized n (sanitized n input) = sanitized n input := by
  have hkeep : ∀ b ∈ sanitized n input, keep b = true := fun b hb =>
    keep_of_mem_shown (List.mem_of_mem_take ((List.rdropWhile_prefix isspace _).subset hb))
  have hshown : shown false (sanitized n input) = sanitized n input := by
    have hplain : ∀ b ∈ sanitized n input, b ≠ 0x1B := by
      rintro b hb rfl
      exact absurd (hkeep _ hb) (by decide)
    have hall := shown_append_of_plain hplain []
    rwa [List.append_nil, shown, List.append_nil, List.filter_eq_self.mpr hkeep] at hall
  have hlength : (sanitized n input).length ≤ n - 1 :=
    le_trans (List.rdropWhile_prefix isspace _).length_le (List.length_take_le _ _)
  unfold sanitized at hshown hlength ⊢
  rw [hshown, List.take_of_length_le hlength, List.rdropWhile_idempotent]

/-- Whatever the line, what it leaves is clean. -/
private theorem cleanLine_sanitizeLogLine {n : Nat} (hn : 1 ≤ n) {input out : List UInt8}
    (hlength : out.length = n) (hterminated : 0 ∈ out) (htext : cString out = sanitized n input) :
    CleanLine n out where
  terminated := ⟨hlength, hterminated⟩
  printable ch hch := by
    rw [htext] at hch
    have hshown := List.mem_of_mem_take ((List.rdropWhile_prefix isspace _).subset hch)
    simpa [keep] using keep_of_mem_shown hshown
  trimmed ch hch := by
    rw [htext] at hch
    obtain ⟨hne, hlast⟩ := List.mem_getLast?_eq_getLast hch
    rw [hlast]
    exact Bool.eq_false_iff.mpr (List.rdropWhile_last_not isspace _ hne)
  again output houtput := by
    refine (safe_sanitizeLogLine (cString out) (by omega)).mono fun out' hout' => ?_
    rw [hout'.2.2, houtput, htext, sanitized_sanitized]

/-- Lines with one text have one severity. -/
private theorem severity_congr {out plain : List UInt8} (hout : 0 ∈ out) (hplain : 0 ∈ plain)
    (h : cString out = cString plain) :
    syslogSeverityFromLine out = syslogSeverityFromLine plain := by
  have hfirst : load out 0 = load plain 0 := by
    unfold load
    rw [head_cString hout, head_cString hplain, h]
  unfold syslogSeverityFromLine
  rw [hfirst]

/-- The line comes out like its text alone when both leave the same. -/
private theorem sanitizes_iff_sanitized {n : Nat} (hn : 1 ≤ n) (pieces : List LinePiece) :
    Sanitizes pieces n ↔ sanitized n (codedLine pieces) = sanitized n (plainLine pieces) := by
  constructor
  · intro h
    have hlength : (List.replicate n (0 : UInt8)).length = n := List.length_replicate
    obtain ⟨out, plain, hout, hplain, hsame, -⟩ := h _ _ hlength hlength
    have hcoded := (safe_sanitizeLogLine (codedLine pieces) (hlength.symm ▸ hn)).of_eq hout
    have htext := (safe_sanitizeLogLine (plainLine pieces) (hlength.symm ▸ hn)).of_eq hplain
    rw [hlength] at hcoded htext
    rw [← hcoded.2.2, ← htext.2.2, hsame]
  -- the specification's texts agree, so the runs do
  · intro hsame output plainOutput houtput hplainOutput
    obtain ⟨out, hout, hlength, hterminated, hcoded⟩ :=
      safe_sanitizeLogLine (codedLine pieces) (show 0 < output.length by omega)
    obtain ⟨plain, hplain, -, hplainTerminated, htext⟩ :=
      safe_sanitizeLogLine (plainLine pieces) (show 0 < plainOutput.length by omega)
    rw [houtput] at hlength hcoded
    rw [hplainOutput, ← hsame, ← hcoded] at htext
    exact ⟨out, plain, hout, hplain, htext.symm,
      cleanLine_sanitizeLogLine hn hlength hterminated hcoded,
      severity_congr hterminated hplainTerminated htext.symm⟩

/-! ## What a control sequence leaves -/

/-- The bytes that are no white space; trimming keeps them. -/
def marks (bytes : List UInt8) : Nat := bytes.countP fun ch => !isspace ch

/-- Trimming white space loses no mark. -/
private theorem marks_rdropWhile (bytes : List UInt8) :
    marks (bytes.rdropWhile isspace) = marks bytes := by
  induction bytes using List.reverseRecOn with
  | nil => simp
  | append_singleton bytes ch ih =>
    rw [List.rdropWhile_concat]
    split
    · rename_i hspace
      rw [ih]
      simp [marks, hspace]
    · rfl

/-- The codes add their bodies' marks to those of the text. -/
private theorem marks_shown_codedLine (pieces : List LinePiece) :
    marks (shown false (codedLine pieces)) =
      marks (shown false (plainLine pieces)) + marks (pieces.flatMap LinePiece.body) := by
  rw [shown_codedLine, shown_plainLine]
  induction pieces with
  | nil => rfl
  | cons piece pieces ih =>
    simp only [List.flatMap_cons, marks, List.countP_append] at ih ⊢
    omega

/-- The final byte of a sequence is no white space. -/
private theorem not_isspace_of_final {ch : UInt8} (h : 0x40 ≤ ch ∧ ch ≤ 0x7E) :
    isspace ch = false := by
  have hfinal := UInt8.le_iff_toNat_le.mp h.1
  simp only [isspace, Bool.or_eq_false_iff, decide_eq_false_iff_not, Bool.and_eq_false_imp,
    decide_eq_true_eq]
  constructor
  · rintro rfl
    exact absurd hfinal (by decide)
  · intro _ hle
    have hspace := UInt8.le_iff_toNat_le.mp hle
    exact absurd (le_trans hfinal hspace) (by decide)

/-- Every control sequence leaves its final byte. -/
private theorem marks_body_eq_zero {pieces : List LinePiece} :
    marks (pieces.flatMap LinePiece.body) = 0 ↔ ∀ piece ∈ pieces, piece.IsText := by
  simp only [marks, List.countP_eq_zero, List.mem_flatMap]
  constructor
  · intro h piece hpiece
    cases piece with
    | text bytes plain => trivial
    | control parameters intermediates final hparameters hintermediates hfinal =>
      have hfinalByte := h final ⟨_, hpiece, by simp [LinePiece.body]⟩
      have hspace : isspace final = false := not_isspace_of_final hfinal
      simp [hspace] at hfinalByte
  · rintro h b ⟨piece, hpiece, hb⟩
    cases piece with
    | text bytes plain => simp [LinePiece.body] at hb
    | control _ _ _ _ _ _ => exact absurd (h _ hpiece) id

/-- A line without sequences is its text. -/
private theorem codedLine_eq_plainLine {pieces : List LinePiece}
    (h : ∀ piece ∈ pieces, piece.IsText) : codedLine pieces = plainLine pieces := by
  apply List.flatMap_congr
  intro piece hpiece
  cases piece with
  | text bytes plain => rfl
  | control _ _ _ _ _ _ => exact absurd (h _ hpiece) id

/-- The text is no longer than the line. -/
private theorem length_plainLine_le (pieces : List LinePiece) :
    (plainLine pieces).length ≤ (codedLine pieces).length := by
  induction pieces with
  | nil => simp [plainLine, codedLine]
  | cons piece pieces ih =>
    have hpiece : piece.plain.length ≤ piece.coded.length := by
      cases piece <;> simp [LinePiece.plain, LinePiece.coded]
    simp only [plainLine, codedLine, List.flatMap_cons, List.length_append] at ih ⊢
    omega

/-- A buffer that the line fits into cuts nothing off. -/
private theorem marks_sanitized {n : Nat} {input : List UInt8} (h : input.length < n) :
    marks (sanitized n input) = marks (shown false input) := by
  have hshown := length_shown_le false input
  unfold sanitized
  rw [marks_rdropWhile, List.take_of_length_le (by omega)]

/-- In a buffer with room for the whole line it comes out like its text alone exactly when it
    has no control sequence. -/
private theorem isText_iff_of_room {pieces : List LinePiece} {n : Nat}
    (hroom : (codedLine pieces).length < n) :
    Sanitizes pieces n ↔ ∀ piece ∈ pieces, piece.IsText := by
  rw [sanitizes_iff_sanitized (by omega)]
  constructor
  · intro hsame
    have hplain := length_plainLine_le pieces
    -- a final byte is no white space, so the two lines differ in their marks
    have hmarks := congrArg marks hsame
    rw [marks_sanitized hroom, marks_sanitized (by omega), marks_shown_codedLine] at hmarks
    exact marks_body_eq_zero.mp (by omega)
  · intro htext
    rw [codedLine_eq_plainLine htext]

/-- Every line comes out clean; in buffers of every size it comes out like its text alone, and
    with the severity of the text, exactly when it has no control sequence, and then one
    buffer with room for the line is enough to tell. -/
theorem sanitizes_iff (pieces : List LinePiece) :
    ((∀ n, 1 ≤ n → Sanitizes pieces n) ↔ ∀ piece ∈ pieces, piece.IsText) ∧
      (∀ n, (codedLine pieces).length < n →
        (Sanitizes pieces n ↔ ∀ piece ∈ pieces, piece.IsText)) ∧
      ∀ output : List UInt8, 1 ≤ output.length →
        Safe (sanitizeLogLine (codedLine pieces) output) (CleanLine output.length) := by
  refine ⟨⟨?_, ?_⟩, fun n hroom => isText_iff_of_room hroom, fun output hn =>
    (safe_sanitizeLogLine (codedLine pieces) hn).mono fun out hout =>
      cleanLine_sanitizeLogLine hn hout.1 hout.2.1 hout.2.2⟩
  · intro hall
    have hroom := Nat.lt_succ_self (codedLine pieces).length
    exact (isText_iff_of_room hroom).mp (hall _ (Nat.succ_le_succ (Nat.zero_le _)))
  · intro htext n hn
    rw [sanitizes_iff_sanitized hn, codedLine_eq_plainLine htext]

/-- `E (5) wifi` in red, as ESP-IDF colours it. -/
def colouredError : List LinePiece :=
  [.control [0x30, 0x3B, 0x33, 0x31] [] 0x6D (by simp) (by simp) (by simp),
    .text [0x45, 0x20, 0x28, 0x35, 0x29, 0x20, 0x77, 0x69, 0x66, 0x69] (by simp)]

/-- The line starts with `0;31m`, and its severity is 6 where that of the text is 3. -/
theorem coloured_error_demoted :
    ¬∀ (pieces : List LinePiece) (n : Nat), 1 ≤ n → Sanitizes pieces n := by
  intro h
  obtain ⟨out, plain, hout, hplain, -, -, hseverity⟩ :=
    h colouredError 32 (by decide) (List.replicate 32 0) (List.replicate 32 0) (by simp) (by simp)
  -- the `ESC` goes and its parameters stay in front of the level letter
  have hcoded : sanitizeLogLine (codedLine colouredError) (List.replicate 32 0) =
      .ok ([0x30, 0x3B, 0x33, 0x31, 0x6D] ++ plainLine colouredError ++ List.replicate 17 0) := by
    decide
  have htext : sanitizeLogLine (plainLine colouredError) (List.replicate 32 0) =
      .ok (plainLine colouredError ++ List.replicate 22 0) := by
    decide
  rw [hcoded] at hout
  rw [htext] at hplain
  cases hout
  cases hplain
  have hdemoted : syslogSeverityFromLine ([0x30, 0x3B, 0x33, 0x31, 0x6D] ++
      plainLine colouredError ++ List.replicate 17 0) = .ok 6 := by decide
  have herror : syslogSeverityFromLine (plainLine colouredError ++ List.replicate 22 0) =
      .ok 3 := by decide
  rw [hdemoted, herror] at hseverity
  exact absurd hseverity (by decide)

end Grimnir.Muninn
