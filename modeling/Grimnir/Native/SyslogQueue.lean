import Grimnir.ForStd.Fifo
import Grimnir.ForStd.Machine
import Grimnir.Native.Muninn
import Grimnir.Native.SyslogClient

/-!
# `firmware/muninn/main/syslog_client.c`: from a log call to a datagram

`syslog_init_task` looks for the server, makes the queue, starts `syslog_send_task` and installs
`syslog_vprintf`.  From then on a task that logs prints its line as before and puts it, cleaned
up, on the queue.  One event runs a task up to its next access to what the tasks share.
-/

namespace Grimnir.Muninn

open CAccess

/-- `SYSLOG_QUEUE_LEN`. -/
def syslogQueueLen : Nat := 32

/-- `SYSLOG_LINE_MAX`. -/
def syslogLineMax : Nat := 256

/-- `SYSLOG_PACKET_MAX`. -/
def syslogPacketMax : Nat := 384

/-- `SYSLOG_FACILITY_USER`. -/
def syslogFacilityUser : Nat := 1

/-- `SYSLOG_APP_NAME`. -/
def syslogAppName : String := "muninn"

/-- The settings that the client reads, the strings without their `NUL`. -/
structure SyslogConfig where
  discoveryDomain : List UInt8
  aggregatorHost : List UInt8
  receiverName : ReceiverName

/-! ## Strings -/

/-- The string in a buffer. -/
def readString (buf : List UInt8) : Except Fault (List UInt8) := do
  copyFrom buf 0 (← strlen buf)

/-- `snprintf(out, sizeof out, …)` of a format that renders as `text`: the buffer, and what is
    returned. -/
def snprintf (out text : List UInt8) : Except Fault (List UInt8 × Nat) :=
  if out.length = 0 then
    return (out, text.length)
  else do
    let kept := text.take (out.length - 1)
    let out ← copyTo out 0 kept
    return (← store out kept.length 0, text.length)

/-! ## The server -/

/-- `isdigit`. -/
def isdigit (ch : UInt8) : Bool := 0x30 ≤ ch && ch ≤ 0x39

/-- The loop of `is_ipv4_literal`. -/
def countDots (dots : Nat) : List UInt8 → Option Nat
  | [] => some dots
  | ch :: host =>
    if ch = dot then countDots (dots + 1) host
    else if !isdigit ch then none
    else countDots dots host

/-- `is_ipv4_literal`. -/
def isIpv4Literal (host : List UInt8) : Bool := host ≠ [] && countDots 0 host = some 3

/-- `get_syslog_domain`: the buffer, or `false`. -/
def getSyslogDomain (config : SyslogConfig) (out : List UInt8) :
    Except Fault (Option (List UInt8)) := do
  if config.discoveryDomain ≠ [] then
    let out ← trimTrailingDot (← snprintfString out (config.discoveryDomain ++ [0]))
    return if (← load out 0) ≠ 0 then some out else none
  else if isIpv4Literal config.aggregatorHost then
    return none
  else
    -- from the first dot on
    match config.aggregatorHost.dropWhile (· != dot) with
    | [] => return none
    | [_] => return none
    | _ :: domain =>
      let out ← trimTrailingDot (← snprintfString out (domain ++ [0]))
      return if (← load out 0) ≠ 0 then some out else none

/-- An IPv4 address and a port. -/
abbrev SyslogEndpoint := UInt32 × UInt16

/-- What `getaddrinfo` finds for a host name: its first IPv4 address. -/
abbrev AddrInfo := List UInt8 → Option UInt32

/-- `resolve_syslog_endpoint`. -/
def resolveSyslogEndpoint (config : SyslogConfig) (queryId : UInt16) (servers : List DnsServer)
    (getaddrinfo : AddrInfo) : Except Fault (Option SyslogEndpoint) := do
  match ← getSyslogDomain config (.replicate dnsMaxNameLen 0) with
  | none => return none
  | some domain =>
    let text := PyStr.encodeAscii "_syslog._udp." ++ (← readString domain)
    let (serviceName, _) ← snprintf (.replicate dnsMaxNameLen 0) text
    match ← querySrvRecord queryId servers (← readString serviceName)
      (.replicate dnsMaxNameLen 0) with
    | none => return none
    | some (target, port) =>
      return (getaddrinfo (← readString target)).map fun address => (address, port)

/-! ## Lines and packets -/

/-- The line that `syslog_vprintf` makes of a text, if it is to be queued. -/
def renderLine (text : List UInt8) : Except Fault (Option (List UInt8)) := do
  let (rendered, written) ← snprintf (.replicate syslogLineMax 0) text
  if 0 < written then
    let line ← sanitizeLogLine (← readString rendered) (.replicate syslogLineMax 0)
    return if (← load line 0) ≠ 0 then some line else none
  else
    return none

/-- The text of a packet. -/
def packetText (priority : Nat) (receiverName line : List UInt8) : List UInt8 :=
  PyStr.encodeAscii ("<" ++ toString priority ++ ">1 - ") ++ receiverName ++
    PyStr.encodeAscii (" " ++ syslogAppName ++ " - - - ") ++ line

/-- What `syslog_send_task` makes of a line: the packet buffer, and what it sends. -/
def formatPacket (receiverName line packet : List UInt8) :
    Except Fault (List UInt8 × Option (List UInt8)) := do
  let severity ← syslogSeverityFromLine line
  let priority := syslogFacilityUser * 8 + severity
  let (packet, packetLen) ←
    snprintf packet (packetText priority (← readString receiverName) (← readString line))
  if packetLen = 0 then
    return (packet, none)
  else
    let packetLen := if packetLen ≥ packet.length then packet.length - 1 else packetLen
    return (packet, some (← copyFrom packet 0 packetLen))

/-! ## The tasks -/

/-- Where the setup stands. -/
inductive SetupPoint where
  /-- `syslog_client_start` has not been called. -/
  | idle
  | resolving
  /-- At `socket`. -/
  | opening
  /-- At `xQueueCreate`. -/
  | creatingQueue
  /-- At `xTaskCreate(syslog_send_task)`. -/
  | creatingTask
  /-- At `esp_log_set_vprintf`. -/
  | hooking
  /-- At the assignment of what it returned. -/
  | storing
  | ended
  deriving DecidableEq, Repr

/-- Where `syslog_send_task` stands. -/
inductive SenderPoint where
  /-- There is no such task. -/
  | absent
  | receiving
  /-- With a line in hand. -/
  | sending (line : List UInt8)

/-- What the tasks share, and where each stands.  The tasks that log are those of `τ`. -/
structure SyslogSystem (τ : Type) where
  setup : SetupPoint
  receiverName : List UInt8
  addr : SyslogEndpoint
  sock : Int
  queue : Option (Fifo (List UInt8) syslogQueueLen)
  /-- `syslog_vprintf` is installed. -/
  hooked : Bool
  /-- `s_orig_vprintf` is set. -/
  origVprintf : Bool
  /-- The line that a task is about to put on the queue. -/
  callers : τ → Option (List UInt8)
  sender : SenderPoint
  packet : List UInt8

inductive SyslogEvent (τ : Type) where
  /-- `syslog_client_start`; the task may not be created. -/
  | start (created : Bool)
  | resolve (queryId : UInt16) (servers : List DnsServer) (getaddrinfo : AddrInfo)
  | openSocket (sock : Int)
  | createQueue (ok : Bool)
  | createTask (ok : Bool)
  | hook
  | store
  /-- A task logs what renders as `text`; `none` is an error of `vsnprintf`.  `mayQueue` says
      that the scheduler runs and no interrupt is served. -/
  | log (task : τ) (text : Option (List UInt8)) (mayQueue : Bool)
  /-- The task's `xQueueSend`. -/
  | enqueue (task : τ)
  | runSender

inductive SyslogOutput where
  | silent
  | fault (f : Fault)
  | found (addr : SyslogEndpoint)
  | printed (text : Option (List UInt8))
  | queued (line : List UInt8)
  | dropped (line : List UInt8)
  | sendto (addr : SyslogEndpoint) (datagram : List UInt8)

namespace SyslogSystem

variable {τ : Type} [DecidableEq τ]

/-- A log call of a task: `syslog_vprintf` up to its `xQueueSend`, or what was there before it was
    installed. -/
def syslogVprintf (s : SyslogSystem τ) (task : τ) (text : Option (List UInt8)) (mayQueue : Bool) :
    SyslogOutput × SyslogSystem τ :=
  if (s.callers task).isSome then
    (.silent, s)
  else if s.hooked && s.queue.isSome && mayQueue then
    -- `s_orig_vprintf` prints, or `vprintf` as long as it is not set
    match text with
    | none => (.printed none, s)
    | some rendered =>
      match renderLine rendered with
      | .error f => (.fault f, s)
      | .ok line => (.printed text, { s with callers := Function.update s.callers task line })
  else
    (.printed text, s)

/-- A task's `xQueueSend`, which does not wait. -/
def xQueueSend (s : SyslogSystem τ) (task : τ) : SyslogOutput × SyslogSystem τ :=
  match s.callers task, s.queue with
  | some line, some queue =>
    let callers := Function.update s.callers task none
    match queue.send line with
    | some queue => (.queued line, { s with queue := some queue, callers := callers })
    | none => (.dropped line, { s with callers := callers })
  | _, _ => (.silent, s)

/-- `syslog_send_task`, up to its next `xQueueReceive` or `sendto`. -/
def syslogSendTask (s : SyslogSystem τ) : SyslogOutput × SyslogSystem τ :=
  match s.sender with
  | .absent => (.silent, s)
  | .receiving =>
    match s.queue.bind Fifo.receive with
    | none => (.silent, s)
    | some (line, queue) => (.silent, { s with queue := some queue, sender := .sending line })
  | .sending line =>
    match formatPacket s.receiverName line s.packet with
    | .error f => (.fault f, s)
    | .ok (packet, none) => (.silent, { s with packet := packet, sender := .receiving })
    | .ok (packet, some datagram) =>
      -- the result of `sendto` is dropped
      (.sendto s.addr datagram, { s with packet := packet, sender := .receiving })

/-- One event.  What is not next for its task does not happen. -/
def step (config : SyslogConfig) (s : SyslogSystem τ) :
    SyslogEvent τ → SyslogOutput × SyslogSystem τ
  | .start created =>
    if s.setup = .idle then
      match snprintfString s.receiverName
        (PyStr.encodeAscii config.receiverName.text ++ [0]) with
      | .error f => (.fault f, s)
      | .ok receiverName =>
        (.silent,
          { s with receiverName := receiverName, setup := if created then .resolving else .ended })
    else (.silent, s)
  | .resolve queryId servers getaddrinfo =>
    if s.setup = .resolving then
      match resolveSyslogEndpoint config queryId servers getaddrinfo with
      | .error f => (.fault f, s)
      | .ok none => (.silent, { s with setup := .ended })
      | .ok (some addr) => (.found addr, { s with addr := addr, setup := .opening })
    else (.silent, s)
  | .openSocket sock =>
    if s.setup = .opening then
      (.silent, { s with sock := sock, setup := if sock < 0 then .ended else .creatingQueue })
    else (.silent, s)
  | .createQueue ok =>
    if s.setup = .creatingQueue then
      if ok then (.silent, { s with queue := some .empty, setup := .creatingTask })
      else (.silent, { s with sock := -1, setup := .ended })
    else (.silent, s)
  | .createTask ok =>
    -- the result is not looked at
    if s.setup = .creatingTask then
      (.silent, { s with sender := if ok then .receiving else .absent, setup := .hooking })
    else (.silent, s)
  | .hook => if s.setup = .hooking then (.silent, { s with hooked := true, setup := .storing })
    else (.silent, s)
  | .store =>
    if s.setup = .storing then (.silent, { s with origVprintf := true, setup := .ended })
    else (.silent, s)
  | .log task text mayQueue => s.syslogVprintf task text mayQueue
  | .enqueue task => s.xQueueSend task
  | .runSender => s.syslogSendTask

/-- After a reset the static variables are zero. -/
def boot : SyslogSystem τ where
  setup := .idle
  receiverName := .replicate (receiverNameMaxLen + 1) 0
  addr := (0, 0)
  sock := -1
  queue := none
  hooked := false
  origVprintf := false
  callers _ := none
  sender := .absent
  packet := .replicate syslogPacketMax 0

end SyslogSystem

/-- The syslog client with the tasks that log. -/
def syslogMachine {τ : Type} [DecidableEq τ] (config : SyslogConfig) :
    Machine (SyslogSystem τ) (SyslogEvent τ) SyslogOutput :=
  ⟨SyslogSystem.step config⟩

end Grimnir.Muninn
