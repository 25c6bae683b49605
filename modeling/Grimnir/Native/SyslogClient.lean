import Grimnir.ForStd.CAccess

/-!
# `firmware/muninn/main/syslog_client.c`

The DNS lookup of the syslog server and the lines that are sent to it.  Every access to a
buffer is checked, so a function that would leave one faults.  A `size_t` of a buffer that is
passed with its pointer is the length of the buffer here, and a `-1` is `none`.  Offsets stay
below 2^17, so a `size_t` is a natural number.

DNS servers are parameters: one is a function from the query to what `recvfrom` returns.
-/

namespace Grimnir.Muninn

open CAccess

/-! ## DNS names -/

/-- `DNS_PACKET_MAX`. -/
def dnsPacketMax : Nat := 512

/-- `DNS_HEADER_SIZE`. -/
def dnsHeaderSize : Nat := 12

/-- `DNS_TYPE_SRV`. -/
def dnsTypeSrv : UInt16 := 33

/-- `DNS_CLASS_IN`. -/
def dnsClassIn : UInt16 := 1

/-- `DNS_FLAG_RD`. -/
def dnsFlagRd : UInt16 := 0x0100

/-- `DNS_RCODE_MASK`. -/
def dnsRcodeMask : UInt16 := 0x000F

/-- `DNS_MAX_LABEL_LEN`. -/
def dnsMaxLabelLen : Nat := 63

/-- `DNS_MAX_NAME_LEN`. -/
def dnsMaxNameLen : Nat := 256

/-- The character `.`. -/
def dot : UInt8 := 0x2E

/-- `read_be16(buf + i)`. -/
def readBe16 (buf : List UInt8) (i : Nat) : Except Fault UInt16 := do
  let high ← load buf i
  let low ← load buf (i + 1)
  return (high.toUInt16 <<< 8) ||| low.toUInt16

/-- `write_be16(buf + i, value)`. -/
def writeBe16 (buf : List UInt8) (i : Nat) (value : UInt16) : Except Fault (List UInt8) := do
  let buf ← store buf i (value >>> 8).toUInt8
  store buf (i + 1) (value &&& 0xFF).toUInt8

/-- The loop of `trim_trailing_dot`. -/
def trimDots (value : List UInt8) : Nat → Except Fault (List UInt8)
  | 0 => return value
  | len + 1 => do
    if (← load value len) = dot then
      trimDots (← store value len 0) len
    else
      return value

/-- `trim_trailing_dot`. -/
def trimTrailingDot (value : List UInt8) : Except Fault (List UInt8) := do
  trimDots value (← strlen value)

/-- The end of `encode_dns_name`: the closing empty label. -/
def closeName (buf : List UInt8) (offset : Nat) : Except Fault (List UInt8 × Option Nat) :=
  if offset ≥ buf.length then
    return (buf, none)
  else do
    let buf ← store buf offset 0
    return (buf, some (offset + 1))

/-- The loop of `encode_dns_name` from `label` on. -/
def encodeLabels (buf : List UInt8) (offset : Nat) (label : List UInt8) :
    Except Fault (List UInt8 × Option Nat) :=
  if hend : label = [] then
    closeName buf offset
  else
    -- up to the next dot, or to the end of the name
    let text := label.takeWhile (· != dot)
    if text.length = 0 ∨ text.length > dnsMaxLabelLen ∨ offset + text.length + 1 ≥ buf.length then
      return (buf, none)
    else do
      let buf ← store buf offset (UInt8.ofNat text.length)
      let offset := offset + 1
      let buf ← copyTo buf offset text
      let offset := offset + text.length
      if label.length = text.length then
        closeName buf offset
      else
        encodeLabels buf offset (label.drop (text.length + 1))
termination_by label.length
decreasing_by
  have := List.length_pos_iff.mpr hend
  rw [List.length_drop]
  omega

/-- `encode_dns_name` for the C string `name`: the buffer, and the length of the encoding. -/
def encodeDnsName (buf name : List UInt8) : Except Fault (List UInt8 × Option Nat) :=
  encodeLabels buf 0 name

/-- The loop of `dns_skip_name`. -/
def skipLabels (packet : List UInt8) (jumps current : Nat) : Except Fault (Option Nat) :=
  if current < packet.length then do
    let len ← load packet current
    if len = 0 then
      return some (current + 1)
    else if len &&& 0xC0 = 0xC0 then
      -- a compression pointer ends the name
      if current + 1 ≥ packet.length ∨ jumps + 1 > 16 then return none
      else return some (current + 2)
    else if len &&& 0xC0 ≠ 0 ∨ current + 1 + len.toNat > packet.length then
      return none
    else
      skipLabels packet jumps (current + 1 + len.toNat)
  else
    return none
termination_by packet.length - current

/-- `dns_skip_name`: `next_offset`. -/
def dnsSkipName (packet : List UInt8) (offset : Nat) : Except Fault (Option Nat) :=
  skipLabels packet 0 offset

/-- `dns_read_name` adds a dot, unless the label is the first one. -/
def appendDot (out : List UInt8) (written : Nat) : Except Fault (List UInt8 × Option Nat) :=
  if written ≠ 0 then
    if written + 1 ≥ out.length then
      return (out, none)
    else do
      let out ← store out written dot
      return (out, some (written + 1))
  else
    return (out, some written)

/-- `dns_read_name` adds the label of `len` bytes at `current`. -/
def appendLabel (packet : List UInt8) (current len : Nat) (out : List UInt8) (written : Nat) :
    Except Fault (List UInt8 × Option Nat) := do
  match ← appendDot out written with
  | (out, none) => return (out, none)
  | (out, some written) =>
    if written + len ≥ out.length then
      return (out, none)
    else
      let out ← copyTo out written (← copyFrom packet (current + 1) len)
      return (out, some (written + len))

/-- The loop of `dns_read_name`, with the rounds that are left: the output, and `next_offset`.
    `jumped` holds what a first pointer has set `next_offset` to. -/
def readLabels (packet : List UInt8) :
    Nat → Nat → List UInt8 → Nat → Option Nat → Except Fault (List UInt8 × Option Nat)
  | 0, _, out, _, _ => return (out, none)
  | rounds + 1, current, out, written, jumped =>
    if current < packet.length then do
      let len ← load packet current
      if len = 0 then
        let out ← store out written 0
        return (out, some (jumped.getD (current + 1)))
      else if len &&& 0xC0 = 0xC0 then
        if current + 1 ≥ packet.length then
          return (out, none)
        else
          let low ← load packet (current + 1)
          let pointer := ((len &&& 0x3F).toUInt16 <<< 8) ||| low.toUInt16
          if pointer.toNat ≥ packet.length then
            return (out, none)
          else
            readLabels packet rounds pointer.toNat out written (jumped.getD (current + 2))
      else if len &&& 0xC0 ≠ 0 ∨ current + 1 + len.toNat > packet.length then
        return (out, none)
      else
        match ← appendLabel packet current len.toNat out written with
        | (out, none) => return (out, none)
        | (out, some written) =>
          readLabels packet rounds (current + 1 + len.toNat) out written jumped
    else
      return (out, none)

/-- `dns_read_name`. -/
def dnsReadName (packet : List UInt8) (offset : Nat) (out : List UInt8) :
    Except Fault (List UInt8 × Option Nat) :=
  if out.length = 0 then return (out, none) else readLabels packet 32 offset out 0 none

/-! ## SRV records -/

/-- `srv_record_t`. -/
structure SrvRecord where
  priority : UInt16
  weight : UInt16
  port : UInt16
  target : List UInt8

/-- `choose_srv_record`; `best` is `none` while `have_best` is false. -/
def chooseSrvRecord (candidate : SrvRecord) : Option SrvRecord → Bool × Option SrvRecord
  | none => (true, some candidate)
  | some best =>
    if candidate.priority < best.priority then (true, some candidate)
    else if candidate.priority = best.priority ∧ candidate.weight > best.weight then
      (true, some candidate)
    else (false, some best)

/-- The query that `query_srv_record` sends, with its length. -/
def buildQuery (queryId : UInt16) (serviceName : List UInt8) :
    Except Fault (Option (List UInt8 × Nat)) := do
  let packet := List.replicate dnsPacketMax 0
  let queryLen := dnsHeaderSize
  match ← encodeDnsName (packet.drop queryLen) serviceName with
  | (_, none) => return none
  | (name, some encodedLen) =>
    let packet := packet.take queryLen ++ name
    let queryLen := queryLen + encodedLen
    if queryLen + 4 > packet.length then
      return none
    else
      let packet ← writeBe16 packet 0 queryId
      let packet ← writeBe16 packet 2 dnsFlagRd
      let packet ← writeBe16 packet 4 1
      let packet ← writeBe16 packet queryLen dnsTypeSrv
      let packet ← writeBe16 packet (queryLen + 2) dnsClassIn
      return some (packet, queryLen + 4)

/-- The loop over the questions, with those that are left: the offset after them, or `none`
    for a malformed one. -/
def skipQuestions (response : List UInt8) : Nat → Nat → Except Fault (Option Nat)
  | 0, offset => return some offset
  | questions + 1, offset => do
    match ← dnsSkipName response offset with
    | none => return none
    | some offset =>
      if offset + 4 > response.length then return none
      else skipQuestions response questions (offset + 4)

/-- An answer of type `SRV` with its data at `offset`. -/
def takeSrvRecord (response : List UInt8) (offset : Nat) (best : Option SrvRecord) :
    Except Fault (Option SrvRecord) := do
  let priority ← readBe16 response offset
  let weight ← readBe16 response (offset + 2)
  let port ← readBe16 response (offset + 4)
  match ← dnsReadName response (offset + 6) (List.replicate dnsMaxNameLen 0) with
  | (_, none) => return best
  | (target, some _) =>
    let target ← trimTrailingDot target
    return (chooseSrvRecord ⟨priority, weight, port, target⟩ best).2

/-- An answer whose header was read; others than SRV records of the Internet are skipped. -/
def considerAnswer (response : List UInt8) (type rrClass rdlength : UInt16) (offset : Nat)
    (best : Option SrvRecord) : Except Fault (Option SrvRecord) :=
  if type = dnsTypeSrv ∧ rrClass = dnsClassIn ∧ rdlength ≥ 7 then
    takeSrvRecord response offset best
  else
    return best

/-- The loop over the answers, with those that are left: the best record, or `none` for a
    malformed answer. -/
def readAnswers (response : List UInt8) :
    Nat → Nat → Option SrvRecord → Except Fault (Option (Option SrvRecord))
  | 0, _, best => return some best
  | answers + 1, offset, best =>
    if offset < response.length then do
      match ← dnsSkipName response offset with
      | none => return none
      | some offset =>
        if offset + 10 > response.length then
          return none
        else
          let type ← readBe16 response offset
          let rrClass ← readBe16 response (offset + 2)
          let rdlength ← readBe16 response (offset + 8)
          let offset := offset + 10
          if offset + rdlength.toNat > response.length then
            return none
          else
            let best ← considerAnswer response type rrClass rdlength offset best
            readAnswers response answers (offset + rdlength.toNat) best
    else
      return some best

/-- What `query_srv_record` takes from the bytes that one server sent. -/
def readResponse (queryId : UInt16) (response : List UInt8) :
    Except Fault (Option SrvRecord) := do
  if response.length < dnsHeaderSize then
    return none
  else
    let responseId ← readBe16 response 0
    let flags ← readBe16 response 2
    let qdcount ← readBe16 response 4
    let ancount ← readBe16 response 6
    if responseId ≠ queryId ∨ flags &&& dnsRcodeMask ≠ 0 ∨ ancount = 0 then
      return none
    else
      match ← skipQuestions response qdcount.toNat dnsHeaderSize with
      | none => return none
      | some offset =>
        match ← readAnswers response ancount.toNat offset none with
        | none => return none
        | some best => return best

/-- `snprintf(out, sizeof out, "%s", src)`. -/
def snprintfString (out src : List UInt8) : Except Fault (List UInt8) := do
  let len ← strlen src
  if out.length = 0 then
    return out
  else
    let text ← copyFrom src 0 (min len (out.length - 1))
    let out ← copyTo out 0 text
    store out text.length 0

/-- What a DNS server sends back for a query; `none` where there is no server to ask, no socket,
    or no answer in time. -/
abbrev DnsServer := List UInt8 → Option (List UInt8)

/-- The loop over the DNS servers. -/
def askServers (queryId : UInt16) (query : List UInt8) (targetOut : List UInt8) :
    List DnsServer → Except Fault (Option (List UInt8 × UInt16))
  | [] => return none
  | server :: servers =>
    match server query with
    | none => askServers queryId query targetOut servers
    | some datagram => do
      -- `recvfrom` drops what the buffer has no room for
      match ← readResponse queryId (datagram.take dnsPacketMax) with
      | none => askServers queryId query targetOut servers
      | some best => return some (← snprintfString targetOut best.target, best.port)

/-- `query_srv_record`, with the `query_id` that `esp_random` gave: the target and the port. -/
def querySrvRecord (queryId : UInt16) (servers : List DnsServer)
    (serviceName targetOut : List UInt8) : Except Fault (Option (List UInt8 × UInt16)) := do
  match ← buildQuery queryId serviceName with
  | none => return none
  | some (packet, queryLen) =>
    askServers queryId (← copyFrom packet 0 queryLen) targetOut servers

/-! ## Log lines -/

/-- `isprint` in the C locale. -/
def isprint (ch : UInt8) : Bool := 0x20 ≤ ch && ch ≤ 0x7E

/-- `isspace` in the C locale. -/
def isspace (ch : UInt8) : Bool := ch = 0x20 || (0x09 ≤ ch && ch ≤ 0x0D)

/-- The variables of `sanitize_log_line`. -/
structure Sanitizer where
  inEscape : Bool
  written : Nat
  output : List UInt8

/-- Its loop over the line. -/
def sanitizeLoop (s : Sanitizer) : List UInt8 → Except Fault Sanitizer
  | [] => return s
  | ch :: src =>
    if s.inEscape then
      if 0x40 ≤ ch ∧ ch ≤ 0x7E then sanitizeLoop { s with inEscape := false } src
      else sanitizeLoop s src
    else if ch = 0x1B then
      sanitizeLoop { s with inEscape := true } src
    else if ch = 0x0D ∨ ch = 0x0A then
      sanitizeLoop s src
    else if !isprint ch ∧ ch ≠ 0x09 then
      sanitizeLoop s src
    -- the last byte is kept for the `NUL`
    else if s.written + 1 ≥ s.output.length then
      return s
    else do
      let output ← store s.output s.written ch
      sanitizeLoop { s with output := output, written := s.written + 1 } src

/-- The loop that drops white space at the end. -/
def trimSpace (output : List UInt8) : Nat → Except Fault Nat
  | 0 => return 0
  | written + 1 => do
    if isspace (← load output written) then trimSpace output written
    else return written + 1

/-- `sanitize_log_line` for the C string `input`. -/
def sanitizeLogLine (input output : List UInt8) : Except Fault (List UInt8) :=
  if output.length = 0 then
    return output
  else do
    let s ← sanitizeLoop ⟨false, 0, output⟩ input
    let written ← trimSpace s.output s.written
    store s.output written 0

/-- `syslog_severity_from_line`. -/
def syslogSeverityFromLine (line : List UInt8) : Except Fault Nat := do
  let first ← load line 0
  -- `E`, `W`, and `D` or `V`
  if first = 0x45 then return 3
  else if first = 0x57 then return 4
  else if first = 0x44 ∨ first = 0x56 then return 7
  else return 6

end Grimnir.Muninn
