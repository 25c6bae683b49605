import Grimnir.ForStd.Component
import Grimnir.Native.SyslogQueue
import Grimnir.Spec.DnsSafety
import Grimnir.Spec.LogSanitizer
import Grimnir.Spec.SrvSelection
import Grimnir.Spec.WireAgreement

/-!
# What reaches the syslog server

Any number of tasks log while the client is being set up and while it runs.  No step of it leaves
a buffer, what is logged is printed whatever becomes of it, and the datagrams are the lines that
found room in the queue, in the order in which they came, whole and free of control characters.

## Key results

- `safe_resolveSyslogEndpoint`: the lookup of the server, for any settings and any responses
- `safe_renderLine`, `safe_formatPacket`: what becomes of a text, and of a line
- `forwarded_of_run`: what holds in every state of every run
-/

namespace Grimnir.Muninn

open CAccess

/-! ## Strings -/

/-- A string that ends inside its buffer ends at a NUL. -/
private theorem zero_mem_of_cString_length_lt {buf : List UInt8}
    (h : (cString buf).length < buf.length) : 0 ∈ buf := by
  by_contra hnone
  have hall : cString buf = buf := by
    rw [cString, List.takeWhile_eq_self_iff]
    intro b hb
    simpa using ne_of_mem_of_not_mem hb hnone
  rw [hall] at h
  exact Nat.lt_irrefl _ h

/-- Reading up to the NUL of a terminated buffer stays inside it. -/
private theorem safe_readString {buf : List UInt8} (h : 0 ∈ buf) :
    Safe (readString buf) fun text => text = cString buf := by
  refine (safe_strlen h).bind ?_
  rintro _ ⟨rfl, hlt⟩
  refine (safe_copyFrom (by omega)).mono ?_
  rintro text ⟨rfl, -⟩
  rw [List.drop_zero]
  exact (List.prefix_iff_eq_take.mp (List.takeWhile_prefix _)).symm

/-- What is written is the text as far as there is room for it, and a `NUL`. -/
private theorem safe_snprintf {out : List UInt8} (hroom : 0 < out.length) (text : List UInt8) :
    Safe (snprintf out text) fun r => r.1.length = out.length ∧ r.2 = text.length ∧
      ∃ rest, r.1 = text.take (out.length - 1) ++ 0 :: rest := by
  have hkept : (text.take (out.length - 1)).length ≤ out.length - 1 := List.length_take_le _ _
  rw [snprintf, if_neg (by omega)]
  refine (safe_copyTo (by omega)).bind ?_
  rintro _ ⟨rfl, hlength⟩
  refine (safe_store (by omega) 0).bind ?_
  rintro _ rfl
  refine Safe.pure ⟨by rw [List.length_set, hlength], rfl,
    out.drop ((text.take (out.length - 1)).length + 1), ?_⟩
  rw [set_eq_overwrite (by omega)]
  have happend := @overwrite_append out (text.take (out.length - 1)) 0 (by omega) [0]
  rw [Nat.zero_add] at happend
  rw [happend]
  simp [overwrite]

/-! ## The server -/

/-- `snprintf` of a string leaves a string. -/
private theorem terminated_snprintfString {src : List UInt8} (hnul : 0 ∈ src) {out : List UInt8}
    (hroom : 0 < out.length) : Safe (snprintfString out src) fun out' => 0 ∈ out' := by
  refine (snprintfString_text hnul out).mono ?_
  rintro out' ⟨hlength, htext⟩
  apply zero_mem_of_cString_length_lt
  rw [htext, hlength, List.length_take]
  omega

/-- A domain that is copied and trimmed, if it is not empty then. -/
private theorem safe_copyDomain (domain : List UInt8) {out : List UInt8} (hroom : 0 < out.length) :
    Safe (do
      let out ← trimTrailingDot (← snprintfString out (domain ++ [0]))
      return if (← load out 0) ≠ 0 then some out else none) fun r => ∀ out ∈ r, 0 ∈ out := by
  refine (terminated_snprintfString (by simp) hroom).bind fun out hout => ?_
  refine (trimTrailingDot_text hout).bind ?_
  rintro trimmed ⟨-, hnul, -⟩
  refine (safe_load (List.length_pos_of_mem hnul)).bind fun first _ => Safe.pure ?_
  split
  · rintro _ ⟨⟩
    exact hnul
  · exact fun _ h => absurd h (by simp)

/-- The domain is written into its buffer, with its NUL. -/
private theorem safe_getSyslogDomain (config : SyslogConfig) {out : List UInt8}
    (hroom : 0 < out.length) :
    Safe (getSyslogDomain config out) fun r => ∀ out ∈ r, 0 ∈ out := by
  have hnone : ∀ out' ∈ (none : Option (List UInt8)), 0 ∈ out' := fun _ h => absurd h (by simp)
  unfold getSyslogDomain
  split
  · exact safe_copyDomain config.discoveryDomain hroom
  · split
    · exact Safe.pure hnone
    · split
      · exact Safe.pure hnone
      · exact Safe.pure hnone
      · exact safe_copyDomain _ hroom

/-- The target that a server gives is a string. -/
private theorem terminated_askServers (queryId : UInt16) (query : List UInt8)
    {targetOut : List UInt8} (hroom : 0 < targetOut.length) (servers : List DnsServer) :
    Safe (askServers queryId query targetOut servers) fun r => ∀ x ∈ r, 0 ∈ x.1 := by
  have hnone : ∀ x ∈ (none : Option (List UInt8 × UInt16)), 0 ∈ x.1 :=
    fun _ h => absurd h (by simp)
  induction servers with
  | nil => exact Safe.pure hnone
  | cons server servers ih =>
    rw [askServers]
    cases server query with
    | none => exact ih
    | some datagram =>
      refine (safe_readResponse queryId _).bind fun best hbest => ?_
      cases best with
      | none => exact ih
      | some best =>
        refine (terminated_snprintfString (hbest best rfl) hroom).bind fun target htarget => ?_
        refine Safe.pure ?_
        rintro _ ⟨⟩
        exact htarget

/-- Whatever the servers answer, the target that is found is terminated. -/
private theorem safe_querySrvRecord (queryId : UInt16) (servers : List DnsServer)
    (serviceName : List UInt8) {targetOut : List UInt8} (hroom : 0 < targetOut.length) :
    Safe (querySrvRecord queryId servers serviceName targetOut) fun r => ∀ x ∈ r, 0 ∈ x.1 := by
  refine (safe_buildQuery queryId serviceName).bind fun query hquery => ?_
  cases query with
  | none => exact Safe.pure fun _ h => absurd h (by simp)
  | some query =>
    refine (safe_copyFrom ?_).bind fun bytes _ =>
      terminated_askServers queryId bytes hroom servers
    rw [Nat.zero_add]
    exact hquery query rfl

/-- The lookup of the server stays in its buffers, whatever the settings are and whatever the
    servers answer. -/
theorem safe_resolveSyslogEndpoint (config : SyslogConfig) (queryId : UInt16)
    (servers : List DnsServer) (getaddrinfo : AddrInfo) :
    Safe (resolveSyslogEndpoint config queryId servers getaddrinfo) fun _ => True := by
  have hroom : 0 < (List.replicate dnsMaxNameLen (0 : UInt8)).length := by
    rw [List.length_replicate]
    decide
  -- each call gets a buffer of `DNS_MAX_NAME_LEN` bytes with a NUL in it
  refine (safe_getSyslogDomain config hroom).bind fun domain hdomain => ?_
  cases domain with
  | none => exact Safe.pure trivial
  | some domain =>
    refine (safe_readString (hdomain domain rfl)).bind fun text _ => ?_
    refine (safe_snprintf hroom _).bind ?_
    rintro ⟨serviceName, written⟩ ⟨-, -, rest, hserviceName⟩
    -- `snprintf` terminates the service name
    have hnul : 0 ∈ serviceName := by
      dsimp only at hserviceName
      rw [hserviceName]
      simp
    refine (safe_readString hnul).bind fun name _ => ?_
    refine (safe_querySrvRecord queryId servers name hroom).bind fun found hfound => ?_
    cases found with
    | none => exact Safe.pure trivial
    | some x =>
      exact (safe_readString (hfound x rfl)).bind fun target _ => Safe.pure trivial

/-! ## Lines and packets -/

/-- What is sent of a text. -/
def lineOf (text : List UInt8) : List UInt8 :=
  sanitized syslogLineMax (cString (text.take (syslogLineMax - 1)))

/-- The severity that the first letter of a line stands for. -/
def severityOf (line : List UInt8) : Nat :=
  let first := line.headD 0
  if first = 0x45 then 3
  else if first = 0x57 then 4
  else if first = 0x44 ∨ first = 0x56 then 7
  else 6

/-- The message for a line. -/
def syslogMessage (name : ReceiverName) (line : List UInt8) : List UInt8 :=
  packetText (syslogFacilityUser * 8 + severityOf line) (PyStr.encodeAscii name.text) line

/-- A buffer that holds the line of a text. -/
structure LineBuffer (text line : List UInt8) : Prop where
  terminated : 0 ∈ line
  shows : cString line = lineOf text
  nonempty : lineOf text ≠ []

/-- A line fits its buffer with the NUL. -/
private theorem length_lineOf_lt (text : List UInt8) : (lineOf text).length < syslogLineMax := by
  have hle : (lineOf text).length ≤ syslogLineMax - 1 :=
    le_trans (List.rdropWhile_prefix isspace _).length_le (List.length_take_le _ _)
  unfold syslogLineMax at hle ⊢
  omega

/-- A text is rendered and cleaned up in its buffers, and only an empty line is not queued. -/
theorem safe_renderLine (text : List UInt8) :
    Safe (renderLine text) fun r => ∀ line ∈ r, LineBuffer text line := by
  have hnone : ∀ line ∈ (none : Option (List UInt8)), LineBuffer text line :=
    fun _ h => absurd h (by simp)
  have hbuffer : (List.replicate syslogLineMax (0 : UInt8)).length = syslogLineMax :=
    List.length_replicate
  have hroom : 0 < (List.replicate syslogLineMax (0 : UInt8)).length := by
    rw [hbuffer]
    decide
  -- `vsnprintf` into the line buffer, which cuts the text off
  refine (safe_snprintf hroom text).bind ?_
  rintro ⟨rendered, written⟩ ⟨-, -, rest, hrendered⟩
  dsimp only at hrendered ⊢
  rw [hbuffer] at hrendered
  split
  -- the buffer was terminated, so the sanitizer reads a string
  · refine (safe_readString (by rw [hrendered]; simp)).bind ?_
    rintro _ rfl
    refine (safe_sanitizeLogLine (cString rendered) hroom).bind ?_
    rintro line ⟨-, hnul, hline⟩
    rw [hbuffer, hrendered, cString_nul] at hline
    -- a line is queued only if something is left of it
    refine (safe_load (List.length_pos_of_mem hnul)).bind fun first hfirst => Safe.pure ?_
    split
    · rename_i hne
      rintro _ ⟨⟩
      refine ⟨hnul, hline, fun hempty => hne ?_⟩
      -- its first byte is the first one of the line
      rw [head_cString hnul, hline] at hfirst
      rw [lineOf] at hempty
      rw [hempty] at hfirst
      exact (Option.some.inj hfirst).symm
    · exact hnone
  · exact Safe.pure hnone

/-- The severity is read from the line alone, not from what lies behind it. -/
private theorem severity_eq {line : List UInt8} (hnul : 0 ∈ line) :
    syslogSeverityFromLine line = .ok (severityOf (cString line)) := by
  have hload : load line 0 = .ok ((cString line).headD 0) := by
    rw [load, head_cString hnul]
  unfold syslogSeverityFromLine severityOf
  rw [hload, ok_bind]
  dsimp only
  split
  · rfl
  · split
    · rfl
    · split <;> rfl

/-- The header of a message has at most 22 bytes beside the name. -/
private theorem length_syslogMessage (name : ReceiverName) (line : List UInt8) :
    (syslogMessage name line).length = 22 + name.text.length + line.length := by
  have hpriority : (PyStr.encodeAscii
      ("<" ++ toString (syslogFacilityUser * 8 + severityOf line) ++ ">1 - ")).length = 8 := by
    unfold severityOf
    dsimp only
    split
    · decide
    · split
      · decide
      · split <;> decide
  have happ : (PyStr.encodeAscii (" " ++ syslogAppName ++ " - - - ")).length = 14 := by decide
  have hname : (PyStr.encodeAscii name.text).length = name.text.length := by
    rw [PyStr.encodeAscii, List.length_map, String.length_toList]
  rw [syslogMessage, packetText, List.length_append, List.length_append, List.length_append,
    hpriority, happ, hname]
  omega

/-- A message always fits its packet. -/
private theorem syslogMessage_fits (name : ReceiverName) {line : List UInt8}
    (h : line.length < syslogLineMax) : (syslogMessage name line).length < syslogPacketMax := by
  have hname := name.accepted
  have hlength := length_syslogMessage name line
  unfold syslogLineMax at h
  unfold receiverNameMaxLen at hname
  unfold syslogPacketMax
  omega

/-- What is sent for a line is the whole message and no more, whatever the packet buffer held. -/
theorem safe_formatPacket {name : ReceiverName} {receiverName line packet : List UInt8}
    (hname : 0 ∈ receiverName) (htext : cString receiverName = PyStr.encodeAscii name.text)
    (hnul : 0 ∈ line) (hline : (cString line).length < syslogLineMax)
    (hpacket : packet.length = syslogPacketMax) :
    Safe (formatPacket receiverName line packet) fun r => r.1.length = syslogPacketMax ∧
      r.2 = some (syslogMessage name (cString line)) := by
  -- the longest message fits the packet, so `snprintf` cuts nothing off
  have hfits := syslogMessage_fits name hline
  have hroom : 0 < packet.length := by
    rw [hpacket]
    decide
  rw [formatPacket, severity_eq hnul, ok_bind]
  refine (safe_readString hname).bind ?_
  rintro _ rfl
  refine (safe_readString hnul).bind ?_
  rintro _ rfl
  rw [htext]
  change Safe (snprintf packet (syslogMessage name (cString line)) >>= _) _
  refine (safe_snprintf hroom _).bind ?_
  rintro ⟨written, packetLen⟩ ⟨hlength, rfl, rest, hwritten⟩
  -- the length that `snprintf` returns is the message's own
  have hpos : (syslogMessage name (cString line)).length ≠ 0 := by
    rw [length_syslogMessage]
    omega
  dsimp only at hlength hwritten ⊢
  rw [if_neg hpos, if_neg (by omega)]
  refine (safe_copyFrom (by omega)).bind ?_
  rintro datagram ⟨rfl, -⟩
  -- so the packet holds the whole message, and all of it is sent
  have hwhole : (syslogMessage name (cString line)).take (packet.length - 1) =
      syslogMessage name (cString line) := List.take_of_length_le (by omega)
  rw [hwhole] at hwritten
  refine Safe.pure ⟨hlength.trans hpacket, congrArg some ?_⟩
  rw [List.drop_zero, hwritten, List.take_left]

/-! ## The history -/

def SyslogEvent.text? {τ : Type} : SyslogEvent τ → Option (τ × List UInt8)
  | .log task text _ => text.map fun text => (task, text)
  | _ => none

def SyslogOutput.queued? : SyslogOutput → Option (List UInt8)
  | .queued line => some line
  | _ => none

def SyslogOutput.sent? : SyslogOutput → Option (SyslogEndpoint × List UInt8)
  | .sendto addr datagram => some (addr, datagram)
  | _ => none

def SyslogOutput.found? : SyslogOutput → Option SyslogEndpoint
  | .found addr => some addr
  | _ => none

/-- A log of the client, newest first. -/
abbrev SyslogLog (τ : Type) := List (SyslogEvent τ × SyslogOutput)

section History

variable {τ : Type}

/-- The texts that the tasks logged, the oldest first. -/
def loggedBy (log : SyslogLog τ) : List (τ × List UInt8) :=
  (log.filterMap fun x => x.1.text?).reverse

/-- The lines that found room in the queue, the oldest first. -/
def queuedLines (log : SyslogLog τ) : List (List UInt8) :=
  (log.filterMap fun x => x.2.queued?).reverse

/-- The datagrams with their destinations, the oldest first. -/
def syslogSends (log : SyslogLog τ) : List (SyslogEndpoint × List UInt8) :=
  (log.filterMap fun x => x.2.sent?).reverse

/-- The servers that were found. -/
def foundServers (log : SyslogLog τ) : List SyslogEndpoint := log.filterMap fun x => x.2.found?

/-- One more event logs its text. -/
private theorem loggedBy_cons (x : SyslogEvent τ × SyslogOutput) (log : SyslogLog τ) :
    loggedBy (x :: log) = loggedBy log ++ x.1.text?.toList := by
  cases htext : x.1.text? <;> simp [loggedBy, htext]

/-- One more event queues its line. -/
private theorem queuedLines_cons (x : SyslogEvent τ × SyslogOutput) (log : SyslogLog τ) :
    queuedLines (x :: log) = queuedLines log ++ x.2.queued?.toList := by
  cases hqueued : x.2.queued? <;> simp [queuedLines, hqueued]

/-- One more event sends its datagram. -/
private theorem syslogSends_cons (x : SyslogEvent τ × SyslogOutput) (log : SyslogLog τ) :
    syslogSends (x :: log) = syslogSends log ++ x.2.sent?.toList := by
  cases hsent : x.2.sent? <;> simp [syslogSends, hsent]

/-- One more event finds its server. -/
private theorem foundServers_cons (x : SyslogEvent τ × SyslogOutput) (log : SyslogLog τ) :
    foundServers (x :: log) = x.2.found?.toList ++ foundServers log := by
  cases hfound : x.2.found? <;> simp [foundServers, hfound]

end History

/-! ## The setup -/

/-- How far the setup has come. -/
def SetupPoint.rank : SetupPoint → Nat
  | .idle => 0
  | .resolving => 1
  | .opening => 2
  | .creatingQueue => 3
  | .creatingTask => 4
  | .hooking => 5
  | .storing => 6
  | .ended => 7

/-- The lines in the hand of `syslog_send_task`. -/
def SenderPoint.hand : SenderPoint → List (List UInt8)
  | .sending line => [line]
  | _ => []

/-- The task exists. -/
def SenderPoint.Alive : SenderPoint → Prop
  | .absent => False
  | _ => True

/-- What the setup has left, at each of its steps. -/
structure SetUp {τ : Type} (config : SyslogConfig) (log : SyslogLog τ) (s : SyslogSystem τ) :
    Prop where
  packet : s.packet.length = syslogPacketMax
  nameRoom : s.receiverName.length = receiverNameMaxLen + 1
  named : 1 ≤ s.setup.rank → 0 ∈ s.receiverName ∧
    cString s.receiverName = PyStr.encodeAscii config.receiverName.text
  unfound : s.setup.rank ≤ 1 → foundServers log = []
  found : 2 ≤ s.setup.rank → s.setup.rank ≤ 4 → foundServers log = [s.addr]
  noQueue : s.setup.rank ≤ 3 → s.queue = none
  noTask : s.setup.rank ≤ 4 → s.sender = .absent
  alive : s.sender.Alive → foundServers log = [s.addr]

namespace SetUp

variable {τ : Type} {config : SyslogConfig} {log : SyslogLog τ} {s s' : SyslogSystem τ}
variable {e : SyslogEvent τ} {output : SyslogOutput} {line : List UInt8}

/-- Nothing is set up at boot. -/
theorem boot (config : SyslogConfig) : SetUp (τ := τ) config [] .boot where
  packet := List.length_replicate
  nameRoom := List.length_replicate
  named h := absurd h (Nat.not_succ_le_zero 0)
  unfound _ := rfl
  found h := absurd h (Nat.not_succ_le_zero 1)
  noQueue _ := rfl
  noTask _ := rfl
  alive h := h.elim

/-- An event that finds no server and starts no task. -/
theorem quiet (h : SetUp config log s) (hfound : output.found? = none)
    (hlater : s.setup.rank ≤ s'.setup.rank) (hstarted : 1 ≤ s'.setup.rank → 1 ≤ s.setup.rank)
    (hresolved : 2 ≤ s'.setup.rank → s'.setup.rank ≤ 4 → 2 ≤ s.setup.rank)
    (hname : s'.receiverName = s.receiverName) (haddr : s'.addr = s.addr)
    (hpacket : s'.packet.length = s.packet.length)
    (hqueue : s'.setup.rank ≤ 3 → s.queue = none → s'.queue = none)
    (hsender : s.sender = .absent → s'.sender = .absent)
    (halive : s'.sender.Alive → s.sender.Alive) : SetUp config ((e, output) :: log) s' := by
  have hlog : foundServers ((e, output) :: log) = foundServers log := by
    rw [foundServers_cons, hfound]
    rfl
  constructor
  · exact hpacket.trans h.packet
  · rw [hname]
    exact h.nameRoom
  · rw [hname]
    exact fun hrank => h.named (hstarted hrank)
  · rw [hlog]
    exact fun hrank => h.unfound (hlater.trans hrank)
  · rw [hlog, haddr]
    exact fun hlow hhigh => h.found (hresolved hlow hhigh) (hlater.trans hhigh)
  · exact fun hrank => hqueue hrank (h.noQueue (hlater.trans hrank))
  · exact fun hrank => hsender (h.noTask (hlater.trans hrank))
  · rw [hlog, haddr]
    exact fun hlive => h.alive (halive hlive)

/-- An event that is not next. -/
theorem idle (h : SetUp config log s) : SetUp config ((e, .silent) :: log) s :=
  h.quiet rfl (Nat.le_refl _) id (fun hlow _ => hlow) rfl rfl rfl (fun _ => id) id id

variable [DecidableEq τ]

/-- The setup goes on from where the name is kept. -/
theorem start (h : SetUp config log s) (created : Bool) :
    SetUp config ((.start created, (s.step config (.start created)).1) :: log)
      (s.step config (.start created)).2 := by
  simp only [SyslogSystem.step]
  split
  -- the name is copied when the setup begins
  · rename_i hidle
    have hrank : s.setup.rank = 0 := by rw [hidle]; rfl
    have hnul : 0 ∈ PyStr.encodeAscii config.receiverName.text ++ [0] := by simp
    obtain ⟨receiverName, hcopied, hlength, htext⟩ := snprintfString_text hnul s.receiverName
    have hname := config.receiverName.accepted
    -- a name of the admitted length fits its field whole
    have hwhole : (PyStr.encodeAscii config.receiverName.text).length ≤ receiverNameMaxLen := by
      rw [PyStr.encodeAscii, List.length_map, String.length_toList]
      omega
    rw [cString_append fun b hb =>
        ne_of_mem_of_not_mem hb (zero_not_mem_encodeAscii config.receiverName),
      h.nameRoom, Nat.add_sub_cancel, List.take_of_length_le hwhole] at htext
    rw [hcopied]
    have hlow : s.setup.rank ≤ 1 := hrank.trans_le (Nat.zero_le 1)
    have hfresh : foundServers log = [] := h.unfound hlow
    -- the fields of `SetUp`, of which only the name is new
    constructor
    · exact h.packet
    · exact hlength.trans h.nameRoom
    · refine fun _ => ⟨zero_mem_of_cString_length_lt ?_, htext⟩
      dsimp only
      rw [htext, hlength, h.nameRoom]
      omega
    · exact fun _ => hfresh
    -- with or without its task, the setup has found no server yet
    · intro hmid hhigh
      cases created
      · exact absurd hhigh (by decide : ¬ 7 ≤ 4)
      · exact absurd hmid (by decide : ¬ 2 ≤ 1)
    · exact fun _ => h.noQueue (hlow.trans (by decide))
    · exact fun _ => h.noTask (hlow.trans (by decide))
    · exact h.alive
  · exact h.idle

/-- The lookup is made once. -/
theorem resolve (h : SetUp config log s) (queryId : UInt16) (servers : List DnsServer)
    (getaddrinfo : AddrInfo) :
    SetUp config ((.resolve queryId servers getaddrinfo,
        (s.step config (.resolve queryId servers getaddrinfo)).1) :: log)
      (s.step config (.resolve queryId servers getaddrinfo)).2 := by
  simp only [SyslogSystem.step]
  split
  -- the setup waits for the name server
  · rename_i hresolving
    have hrank : s.setup.rank = 1 := by rw [hresolving]; rfl
    obtain ⟨addr, hresolved, -⟩ :=
      safe_resolveSyslogEndpoint config queryId servers getaddrinfo
    rw [hresolved]
    cases addr with
    | none =>
      -- without an address the setup is given up, and nothing is sent
      exact h.quiet rfl (hrank.trans_le (by decide : 1 ≤ 7)) (fun _ => hrank.ge)
        (fun _ hhigh => absurd hhigh (by decide : ¬ 7 ≤ 4)) rfl rfl rfl (fun _ => id) id id
    | some addr =>
      -- the sender is created later, so nothing is in its hand
      have hnone : s.sender = .absent := h.noTask (hrank.trans_le (by decide))
      have hlog : foundServers ((.resolve queryId servers getaddrinfo, .found addr) :: log) =
          [addr] := by
        rw [foundServers_cons, h.unfound hrank.le]
        rfl
      constructor
      -- the server that was found is the one that the log names
      · exact h.packet
      · exact h.nameRoom
      · exact fun _ => h.named hrank.ge
      · exact fun hlow => absurd hlow (by decide : ¬ 2 ≤ 1)
      · exact fun _ _ => hlog
      · exact fun _ => h.noQueue (hrank.trans_le (by decide))
      · exact fun _ => hnone
      · exact fun _ => hlog
  · exact h.idle

/-- A line in the sender's hand is sent whole, to the server. -/
private theorem sendLine (h : SetUp config log s) (hsender : s.sender = .sending line)
    (hnul : 0 ∈ line) (hline : (cString line).length < syslogLineMax) :
    ∃ packet, packet.length = syslogPacketMax ∧ s.step config .runSender =
      (.sendto s.addr (syslogMessage config.receiverName (cString line)),
        { s with packet := packet, sender := .receiving }) := by
  have hrank : 1 ≤ s.setup.rank := by
    by_contra hlow
    have habsent := h.noTask (by omega)
    rw [hsender] at habsent
    cases habsent
  obtain ⟨hname, htext⟩ := h.named hrank
  obtain ⟨⟨packet, datagram⟩, hformat, hlength, hdatagram⟩ :=
    safe_formatPacket hname htext hnul hline h.packet
  dsimp only at hlength hdatagram
  subst hdatagram
  refine ⟨packet, hlength, ?_⟩
  rw [SyslogSystem.step, SyslogSystem.syslogSendTask, hsender]
  dsimp only
  rw [hformat]

/-- Every event keeps what the setup has left. -/
theorem step (h : SetUp config log s)
    (hhand : ∀ line, s.sender = .sending line →
      0 ∈ line ∧ (cString line).length < syslogLineMax)
    (e : SyslogEvent τ) : SetUp config ((e, (s.step config e).1) :: log) (s.step config e).2 := by
  -- one case for each event; the ones that come out of turn are answered by silence
  cases e with
  | start created => exact h.start created
  | resolve queryId servers getaddrinfo => exact h.resolve queryId servers getaddrinfo
  | openSocket sock =>
    simp only [SyslogSystem.step]
    -- a socket, or the end of the setup
    split
    · rename_i hopening
      have hrank : s.setup.rank = 2 := by rw [hopening]; rfl
      refine h.quiet rfl ?_ (fun _ => hrank.ge.trans' (by decide)) (fun _ _ => hrank.ge) rfl rfl
        rfl (fun _ => id) id id
      rw [hrank]
      dsimp only
      split <;> decide
    · exact h.idle
  | createQueue ok =>
    simp only [SyslogSystem.step]
    -- the queue is created, or the setup ends without one
    split
    · rename_i hcreating
      have hrank : s.setup.rank = 3 := by rw [hcreating]; rfl
      split
      · exact h.quiet rfl (hrank.trans_le (by decide : 3 ≤ 4))
          (fun _ => hrank.ge.trans' (by decide)) (fun _ _ => hrank.ge.trans' (by decide)) rfl rfl
          rfl (fun hlow => absurd hlow (by decide : ¬ 4 ≤ 3)) id id
      · exact h.quiet rfl (hrank.trans_le (by decide : 3 ≤ 7))
          (fun _ => hrank.ge.trans' (by decide)) (fun _ _ => hrank.ge.trans' (by decide)) rfl rfl
          rfl (fun _ => id) id id
    · exact h.idle
  | createTask ok =>
    simp only [SyslogSystem.step]
    split
    -- the sender begins to wait, and the server it will send to is the one found
    · rename_i hcreating
      have hrank : s.setup.rank = 4 := by rw [hcreating]; rfl
      have hfound := h.found (hrank.ge.trans' (by decide)) hrank.le
      constructor
      · exact h.packet
      · exact h.nameRoom
      · exact fun _ => h.named (hrank.ge.trans' (by decide))
      · exact fun hlow => absurd hlow (by decide : ¬ 5 ≤ 1)
      · exact fun _ hhigh => absurd hhigh (by decide : ¬ 5 ≤ 4)
      · exact fun hlow => absurd hlow (by decide : ¬ 5 ≤ 3)
      · exact fun hlow => absurd hlow (by decide : ¬ 5 ≤ 4)
      · exact fun _ => hfound
    · exact h.idle
  | hook =>
    simp only [SyslogSystem.step]
    split
    · rename_i hhooking
      have hrank : s.setup.rank = 5 := by rw [hhooking]; rfl
      exact h.quiet rfl (hrank.trans_le (by decide : 5 ≤ 6))
        (fun _ => hrank.ge.trans' (by decide)) (fun _ _ => hrank.ge.trans' (by decide)) rfl rfl rfl
        (fun _ => id) id id
    · exact h.idle
  | store =>
    simp only [SyslogSystem.step]
    split
    · rename_i hstoring
      have hrank : s.setup.rank = 6 := by rw [hstoring]; rfl
      exact h.quiet rfl (hrank.trans_le (by decide : 6 ≤ 7))
        (fun _ => hrank.ge.trans' (by decide)) (fun _ _ => hrank.ge.trans' (by decide)) rfl rfl rfl
        (fun _ => id) id id
    · exact h.idle
  | log task text mayQueue =>
    -- a text that is printed or fails to be rendered changes no part of the setup
    have hsame : ∀ {output : SyslogOutput} {callers : τ → Option (List UInt8)},
        output.found? = none →
        SetUp config ((.log task text mayQueue, output) :: log) { s with callers := callers } :=
      fun hfound => h.quiet hfound (Nat.le_refl _) id (fun hlow _ => hlow) rfl rfl rfl
        (fun _ => id) id id
    simp only [SyslogSystem.step, SyslogSystem.syslogVprintf]
    split
    · exact h.idle
    · split
      · split
        · exact hsame rfl
        · split
          · exact hsame rfl
          · exact hsame rfl
      · exact hsame rfl
  -- the queue was there before, so it still is
  | enqueue task =>
    rw [SyslogSystem.step, SyslogSystem.xQueueSend]
    split
    · rename_i queue _ hqueue
      have hsome : ¬ s.queue = none := by rw [hqueue]; simp
      dsimp only
      split
      · exact h.quiet rfl (Nat.le_refl _) id (fun hlow _ => hlow) rfl rfl rfl
          (fun _ hnone => absurd hnone hsome) id id
      · exact h.quiet rfl (Nat.le_refl _) id (fun hlow _ => hlow) rfl rfl rfl (fun _ => id) id id
    · exact h.idle
  -- the sender never gives up what the setup has made
  | runSender =>
    cases hsender : s.sender with
    | absent =>
      rw [SyslogSystem.step, SyslogSystem.syslogSendTask, hsender]
      exact h.idle
    | receiving =>
      rw [SyslogSystem.step, SyslogSystem.syslogSendTask, hsender]
      dsimp only
      split
      · exact h.idle
      · rename_i hreceive
        have hsome : ¬ s.queue = none := by
          intro hnone
          rw [hnone] at hreceive
          cases hreceive
        refine h.quiet rfl (Nat.le_refl _) id (fun hlow _ => hlow) rfl rfl rfl
          (fun _ hnone => absurd hnone hsome) ?_ ?_
        · rw [hsender]
          exact fun hnone => nomatch hnone
        · rw [hsender]
          exact id
    -- the packet keeps its length, whatever is written into it
    | sending line =>
      obtain ⟨hnul, hline⟩ := hhand line hsender
      obtain ⟨packet, hlength, hstep⟩ := h.sendLine hsender hnul hline
      rw [hstep]
      refine h.quiet rfl (Nat.le_refl _) id (fun hlow _ => hlow) rfl rfl
        (hlength.trans h.packet.symm) (fun _ => id) ?_ ?_
      · rw [hsender]
        exact fun hnone => nomatch hnone
      · rw [hsender]
        exact id

end SetUp

/-! ## The lines -/

section Lines

variable {τ : Type} [DecidableEq τ] {config : SyslogConfig} {log : SyslogLog τ}
variable {s s' : SyslogSystem τ} {sent waiting : List (τ × List UInt8)}

/-- The lines that found room in the queue and were not sent, the oldest first. -/
def SyslogSystem.unsent (s : SyslogSystem τ) : List (List UInt8) :=
  s.sender.hand ++ s.queue.elim [] Fifo.items

/-- The texts whose lines were sent, those whose lines wait, and what they have to do with what
    the tasks logged. -/
structure Forwards (config : SyslogConfig) (log : SyslogLog τ) (s : SyslogSystem τ)
    (sent waiting : List (τ × List UInt8)) : Prop where
  sends : (syslogSends log).map (·.2) =
    sent.map fun x => syslogMessage config.receiverName (lineOf x.2)
  waits : List.Forall₂ (fun x line => LineBuffer x.2 line) waiting s.unsent
  queued : (queuedLines log).map cString = (sent ++ waiting).map fun x => lineOf x.2
  /-- Of each task in order, the line in its hand last. -/
  inOrder : ∀ task, ∃ inHand, List.Forall₂ LineBuffer inHand (s.callers task).toList ∧
    (List.ofTag task (sent ++ waiting) ++ inHand).Sublist (List.ofTag task (loggedBy log))

namespace Forwards

/-- Nothing was logged at boot. -/
theorem boot (config : SyslogConfig) : Forwards (τ := τ) config [] .boot [] [] where
  sends := rfl
  waits := .nil
  queued := rfl
  inOrder _ := ⟨[], .nil, List.Sublist.refl _⟩

variable {e : SyslogEvent τ} {output : SyslogOutput}

omit [DecidableEq τ] in
/-- An event that sends nothing leaves the datagrams as they were. -/
private theorem syslogSends_quiet (hsent : output.sent? = none) :
    syslogSends ((e, output) :: log) = syslogSends log := by
  rw [syslogSends_cons, hsent]
  exact List.append_nil _

omit [DecidableEq τ] in
/-- An event that queues nothing leaves the lines as they were. -/
private theorem queuedLines_quiet (hqueued : output.queued? = none) :
    queuedLines ((e, output) :: log) = queuedLines log := by
  rw [queuedLines_cons, hqueued]
  exact List.append_nil _

/-- An event that moves no line. -/
theorem quiet (h : Forwards config log s sent waiting) (hsent : output.sent? = none)
    (hqueued : output.queued? = none) (hunsent : s'.unsent = s.unsent)
    (hcallers : s'.callers = s.callers) :
    Forwards config ((e, output) :: log) s' sent waiting where
  sends := by
    rw [syslogSends_quiet hsent]
    exact h.sends
  waits := by
    rw [hunsent]
    exact h.waits
  queued := by
    rw [queuedLines_quiet hqueued]
    exact h.queued
  inOrder task := by
    obtain ⟨inHand, hinHand, hsublist⟩ := h.inOrder task
    rw [hcallers]
    refine ⟨inHand, hinHand, hsublist.trans ?_⟩
    rw [loggedBy_cons, List.ofTag_append]
    exact List.sublist_append_left _ _

/-- A task gets a line in its hand, or none. -/
theorem take (h : Forwards config log s sent waiting) {task : τ} {text : List UInt8}
    {mayQueue : Bool} {line : Option (List UInt8)}
    (hsent : output.sent? = none) (hqueued : output.queued? = none)
    (hfree : s.callers task = none) (hline : ∀ x ∈ line, LineBuffer text x) :
    Forwards config ((.log task (some text) mayQueue, output) :: log)
      { s with callers := Function.update s.callers task line } sent waiting where
  sends := by
    rw [syslogSends_quiet hsent]
    exact h.sends
  waits := h.waits
  queued := by
    rw [queuedLines_quiet hqueued]
    exact h.queued
  -- the task has logged one more text, which may be in its hand now
  inOrder task' := by
    obtain ⟨inHand, hinHand, hsublist⟩ := h.inOrder task'
    have hlog : loggedBy ((.log task (some text) mayQueue, output) :: log) =
        loggedBy log ++ [(task, text)] := loggedBy_cons _ _
    rw [hlog, List.ofTag_append task' (loggedBy log)]
    dsimp only
    -- only the task that logs has another text in its hand
    by_cases htask : task' = task
    · subst htask
      rw [hfree] at hinHand
      cases hinHand
      rw [List.append_nil] at hsublist
      rw [Function.update_self, List.ofTag_cons_self, List.ofTag_nil]
      cases line with
      -- a text that is not queued is left out of the order
      | none =>
        refine ⟨[], .nil, ?_⟩
        rw [List.append_nil]
        exact hsublist.trans (List.sublist_append_left _ _)
      | some line =>
        exact ⟨[text], .cons (hline line rfl) .nil, hsublist.append (List.Sublist.refl _)⟩
    · rw [Function.update_of_ne htask]
      exact ⟨inHand, hinHand, hsublist.trans (List.sublist_append_left _ _)⟩

/-- The line in a task's hand finds room in the queue. -/
theorem queue (h : Forwards config log s sent waiting) {task : τ} {line : List UInt8}
    {queue queue' : Fifo (List UInt8) syslogQueueLen} (hline : s.callers task = some line)
    (hqueue : s.queue = some queue) (hsend : queue.send line = some queue') :
    ∃ text, Forwards config ((.enqueue task, .queued line) :: log)
      { s with queue := some queue', callers := Function.update s.callers task none } sent
      (waiting ++ [(task, text)]) := by
  -- what the task had in its hand is one text, whose line is queued
  obtain ⟨inHand, hinHand, hsublist⟩ := h.inOrder task
  rw [hline] at hinHand
  obtain ⟨text, rfl, htext⟩ : ∃ text, inHand = [text] ∧ LineBuffer text line := by
    cases hinHand with
    | cons htext hrest =>
      cases hrest
      exact ⟨_, rfl, htext⟩
  have hlog : loggedBy ((.enqueue task, .queued line) :: log) = loggedBy log :=
    (loggedBy_cons _ _).trans (List.append_nil _)
  refine ⟨text, ?_, ?_, ?_, ?_⟩
  · rw [syslogSends_quiet rfl]
    exact h.sends
  -- the line is the last of those that wait
  · have hunsent : s.sender.hand ++ queue'.items = s.unsent ++ [line] := by
      rw [SyslogSystem.unsent, hqueue]
      dsimp only [Option.elim]
      rw [Fifo.items_of_send hsend, List.append_assoc]
    change List.Forall₂ _ _ (s.sender.hand ++ queue'.items)
    rw [hunsent]
    exact List.rel_append h.waits (.cons htext .nil)
  -- the lines queued so far are those of the texts sent and waiting
  · rw [queuedLines_cons, List.map_append, h.queued, ← List.append_assoc]
    have hmap : (sent ++ waiting ++ [(task, text)]).map (fun x => lineOf x.2) =
        (sent ++ waiting).map (fun x => lineOf x.2) ++ [lineOf text] := List.map_append
    rw [hmap, ← htext.shows]
    rfl
  -- a task's texts keep their order among those that were queued
  · intro task'
    rw [hlog, ← List.append_assoc, List.ofTag_append]
    dsimp only
    by_cases htask : task' = task
    · subst htask
      rw [Function.update_self, List.ofTag_cons_self, List.ofTag_nil]
      refine ⟨[], .nil, ?_⟩
      rw [List.append_nil]
      exact hsublist
    · obtain ⟨inHand', hinHand', hsublist'⟩ := h.inOrder task'
      rw [Function.update_of_ne htask, List.ofTag_cons_of_ne (Ne.symm htask), List.ofTag_nil,
        List.append_nil]
      exact ⟨inHand', hinHand', hsublist'⟩

/-- The line in a task's hand finds no room. -/
theorem drop (h : Forwards config log s sent waiting) {task : τ} {line : List UInt8} :
    Forwards config ((.enqueue task, .dropped line) :: log)
      { s with callers := Function.update s.callers task none } sent waiting where
  sends := by
    rw [syslogSends_quiet rfl]
    exact h.sends
  waits := h.waits
  queued := by
    rw [queuedLines_quiet rfl]
    exact h.queued
  inOrder task' := by
    obtain ⟨inHand, hinHand, hsublist⟩ := h.inOrder task'
    have hlog : loggedBy ((.enqueue task, .dropped line) :: log) = loggedBy log :=
      (loggedBy_cons _ _).trans (List.append_nil _)
    rw [hlog]
    dsimp only
    -- the text that was dropped is left out of the order
    by_cases htask : task' = task
    · subst htask
      rw [Function.update_self]
      refine ⟨[], .nil, ?_⟩
      rw [List.append_nil]
      exact (List.sublist_append_left _ _).trans hsublist
    · rw [Function.update_of_ne htask]
      exact ⟨inHand, hinHand, hsublist⟩

/-- The line in the sender's hand is the oldest that waits. -/
theorem hand (h : Forwards config log s sent waiting) {line : List UInt8}
    (hsender : s.sender = .sending line) : ∃ x rest, waiting = x :: rest ∧
      LineBuffer x.2 line ∧ List.Forall₂ (fun x line => LineBuffer x.2 line) rest
        (s.queue.elim [] Fifo.items) := by
  have hwaits := h.waits
  rw [SyslogSystem.unsent, hsender] at hwaits
  cases hwaits with
  | cons hx hrest => exact ⟨_, _, rfl, hx, hrest⟩

/-- It is in its buffer. -/
private theorem buffered (h : Forwards config log s sent waiting) {line : List UInt8}
    (hsender : s.sender = .sending line) :
    0 ∈ line ∧ (cString line).length < syslogLineMax := by
  obtain ⟨x, -, -, hx, -⟩ := h.hand hsender
  refine ⟨hx.terminated, ?_⟩
  rw [hx.shows]
  exact length_lineOf_lt _

/-- The oldest line that waits is sent. -/
theorem send (h : Forwards config log s sent waiting) {line : List UInt8}
    (hsender : s.sender = .sending line) {packet : List UInt8} :
    ∃ sent waiting, Forwards config
      ((.runSender, .sendto s.addr (syslogMessage config.receiverName (cString line))) :: log)
      { s with packet := packet, sender := .receiving } sent waiting := by
  obtain ⟨x, rest, rfl, hx, hrest⟩ := h.hand hsender
  refine ⟨sent ++ [x], rest, ?_, hrest, ?_, ?_⟩
  · rw [syslogSends_cons, List.map_append, h.sends, List.map_append]
    exact congrArg (_ ++ [syslogMessage config.receiverName ·]) hx.shows
  · rw [queuedLines_quiet rfl, List.append_assoc]
    exact h.queued
  · intro task
    obtain ⟨inHand, hinHand, hsublist⟩ := h.inOrder task
    have hlog : ∀ output, loggedBy ((.runSender, output) :: log) = loggedBy log :=
      fun _ => (loggedBy_cons _ _).trans (List.append_nil _)
    rw [hlog, List.append_assoc]
    exact ⟨inHand, hinHand, hsublist⟩

/-- Every event carries the lines on. -/
theorem step (h : Forwards config log s sent waiting) (hsetUp : SetUp config log s)
    (e : SyslogEvent τ) : ∃ sent waiting,
      Forwards config ((e, (s.step config e).1) :: log) (s.step config e).2 sent waiting := by
  have hidle : ∀ {e : SyslogEvent τ}, Forwards config ((e, .silent) :: log) s sent waiting :=
    h.quiet rfl rfl rfl rfl
  -- one case for each event; only logging, queueing and sending move a text
  cases e with
  | start created =>
    refine ⟨sent, waiting, ?_⟩
    simp only [SyslogSystem.step]
    split
    · split
      · exact h.quiet rfl rfl rfl rfl
      · exact h.quiet rfl rfl rfl rfl
    · exact hidle
  | resolve queryId servers getaddrinfo =>
    refine ⟨sent, waiting, ?_⟩
    simp only [SyslogSystem.step]
    split
    · split
      · exact h.quiet rfl rfl rfl rfl
      · exact h.quiet rfl rfl rfl rfl
      · exact h.quiet rfl rfl rfl rfl
    · exact hidle
  | openSocket sock =>
    refine ⟨sent, waiting, ?_⟩
    simp only [SyslogSystem.step]
    split
    · exact h.quiet rfl rfl rfl rfl
    · exact hidle
  | createQueue ok =>
    refine ⟨sent, waiting, ?_⟩
    simp only [SyslogSystem.step]
    split
    -- the queue is created empty
    · rename_i hcreating
      have hnone : s.queue = none := hsetUp.noQueue (by rw [hcreating]; decide)
      split
      · refine h.quiet rfl rfl ?_ rfl
        rw [SyslogSystem.unsent, SyslogSystem.unsent, hnone]
        rfl
      · exact h.quiet rfl rfl rfl rfl
    · exact hidle
  | createTask ok =>
    refine ⟨sent, waiting, ?_⟩
    simp only [SyslogSystem.step]
    split
    -- the sender is created with nothing in its hand
    · rename_i hcreating
      have habsent : s.sender = .absent := hsetUp.noTask (by rw [hcreating]; decide)
      refine h.quiet rfl rfl ?_ rfl
      rw [SyslogSystem.unsent, SyslogSystem.unsent, habsent]
      cases ok <;> rfl
    · exact hidle
  | hook =>
    refine ⟨sent, waiting, ?_⟩
    simp only [SyslogSystem.step]
    split
    · exact h.quiet rfl rfl rfl rfl
    · exact hidle
  | store =>
    refine ⟨sent, waiting, ?_⟩
    simp only [SyslogSystem.step]
    split
    · exact h.quiet rfl rfl rfl rfl
    · exact hidle
  | log task text mayQueue =>
    refine ⟨sent, waiting, ?_⟩
    simp only [SyslogSystem.step, SyslogSystem.syslogVprintf]
    split
    · exact hidle
    -- a task logs when its last call has returned
    · rename_i hbusy
      have hfree : s.callers task = none := by simpa using hbusy
      split
      · split
        · exact h.quiet rfl rfl rfl rfl
        · rename_i text
          obtain ⟨line, hrender, hline⟩ := safe_renderLine text
          rw [hrender]
          exact h.take rfl rfl hfree hline
      · exact h.quiet rfl rfl rfl rfl
  | enqueue task =>
    simp only [SyslogSystem.step, SyslogSystem.xQueueSend]
    split
    -- the line finds room in the queue or is dropped
    · rename_i hline hqueue
      split
      · rename_i hsend
        obtain ⟨text, hqueued⟩ := h.queue hline hqueue hsend
        exact ⟨_, _, hqueued⟩
      · exact ⟨_, _, h.drop⟩
    · exact ⟨_, _, hidle⟩
  | runSender =>
    cases hsender : s.sender with
    | absent =>
      rw [SyslogSystem.step, SyslogSystem.syslogSendTask, hsender]
      exact ⟨_, _, hidle⟩
    | receiving =>
      rw [SyslogSystem.step, SyslogSystem.syslogSendTask, hsender]
      dsimp only
      split
      · exact ⟨_, _, hidle⟩
      -- a line goes from the queue into the sender's hand
      · rename_i line queue' hreceive
        obtain ⟨queue, hqueue, hreceive⟩ := Option.bind_eq_some_iff.mp hreceive
        refine ⟨_, _, h.quiet rfl rfl ?_ rfl⟩
        rw [SyslogSystem.unsent, SyslogSystem.unsent, hqueue, hsender]
        exact (Fifo.items_of_receive hreceive).symm
    | sending line =>
      -- the line in the hand is sent whole
      obtain ⟨hnul, hline⟩ := h.buffered hsender
      obtain ⟨packet, -, hstep⟩ := hsetUp.sendLine hsender hnul hline
      rw [hstep]
      exact h.send hsender

end Forwards

end Lines

/-! ## Runs -/

section Runs

variable {τ : Type} [DecidableEq τ] {config : SyslogConfig} {log : SyslogLog τ}
variable {s : SyslogSystem τ} {sent waiting : List (τ × List UInt8)}
variable {c : Config (SyslogSystem τ) (SyslogEvent τ) SyslogOutput}

/-- What a step may answer; no fault is among it. -/
inductive SyslogAnswer (config : SyslogConfig) (s : SyslogSystem τ) :
    SyslogEvent τ → SyslogOutput → Prop where
  | silent {e : SyslogEvent τ} : SyslogAnswer config s e .silent
  | found {queryId : UInt16} {servers : List DnsServer} {getaddrinfo : AddrInfo}
      {addr : SyslogEndpoint} (h : s.setup = .resolving) :
      SyslogAnswer config s (.resolve queryId servers getaddrinfo) (.found addr)
  | printed {task : τ} {text : Option (List UInt8)} {mayQueue : Bool} :
      SyslogAnswer config s (.log task text mayQueue) (.printed text)
  | queued {task : τ} {line : List UInt8} (h : s.callers task = some line) :
      SyslogAnswer config s (.enqueue task) (.queued line)
  | dropped {task : τ} {line : List UInt8} {queue : Fifo (List UInt8) syslogQueueLen}
      (h : s.callers task = some line) (hqueue : s.queue = some queue)
      (hfull : queue.items.length = syslogQueueLen) :
      SyslogAnswer config s (.enqueue task) (.dropped line)
  | sendto {line : List UInt8} (h : s.sender = .sending line) :
      SyslogAnswer config s .runSender
        (.sendto s.addr (syslogMessage config.receiverName (cString line)))

/-- Creating the task faults on nothing. -/
private theorem answer_start (s : SyslogSystem τ) (created : Bool) :
    SyslogAnswer config s (.start created) (s.step config (.start created)).1 := by
  have hnul : 0 ∈ PyStr.encodeAscii config.receiverName.text ++ [0] := by simp
  obtain ⟨receiverName, hcopied, -⟩ := snprintfString_text hnul s.receiverName
  simp only [SyslogSystem.step]
  split
  · rw [hcopied]
    exact .silent
  · exact .silent

/-- The answer to each event. -/
theorem Forwards.answer (h : Forwards config log s sent waiting) (hsetUp : SetUp config log s)
    (e : SyslogEvent τ) : SyslogAnswer config s e (s.step config e).1 := by
  -- no step faults, since every buffer is terminated and long enough
  cases e with
  | start created => exact answer_start s created
  | resolve queryId servers getaddrinfo =>
    simp only [SyslogSystem.step]
    split
    · rename_i hresolving
      obtain ⟨addr, hresolved, -⟩ :=
        safe_resolveSyslogEndpoint config queryId servers getaddrinfo
      rw [hresolved]
      cases addr with
      | none => exact .silent
      | some addr => exact .found hresolving
    · exact .silent
  | createQueue ok =>
    simp only [SyslogSystem.step]
    split
    · split <;> exact .silent
    · exact .silent
  | log task text mayQueue =>
    simp only [SyslogSystem.step, SyslogSystem.syslogVprintf]
    split
    · exact .silent
    · split
      · split
        · exact .printed
        · rename_i text
          obtain ⟨line, hrender, -⟩ := safe_renderLine text
          rw [hrender]
          exact .printed
      · exact .printed
  | enqueue task =>
    simp only [SyslogSystem.step, SyslogSystem.xQueueSend]
    split
    · rename_i hline hqueue
      split
      · exact .queued hline
      -- a line is dropped only when the queue is full
      · rename_i hsend
        exact .dropped hline hqueue (Fifo.send_eq_none_iff.mp hsend)
    · exact .silent
  | runSender =>
    cases hsender : s.sender with
    | absent =>
      rw [SyslogSystem.step, SyslogSystem.syslogSendTask, hsender]
      exact .silent
    | receiving =>
      rw [SyslogSystem.step, SyslogSystem.syslogSendTask, hsender]
      dsimp only
      split <;> exact .silent
    | sending line =>
      obtain ⟨hnul, hline⟩ := h.buffered hsender
      obtain ⟨packet, -, hstep⟩ := hsetUp.sendLine hsender hnul hline
      rw [hstep]
      exact .sendto hsender
  | _ =>
    simp only [SyslogSystem.step]
    split <;> exact .silent

omit [DecidableEq τ] in
/-- The server that was found stays the only one. -/
private theorem SetUp.found_cons (h : SetUp config log s) {addr : SyslogEndpoint}
    (hfound : foundServers log = [addr]) {e : SyslogEvent τ} {output : SyslogOutput}
    (hanswer : SyslogAnswer config s e output) :
    foundServers ((e, output) :: log) = [addr] := by
  rw [foundServers_cons]
  cases hanswer with
  | found hresolving =>
    have hlow : s.setup.rank ≤ 1 := by rw [hresolving]; decide
    rw [h.unfound hlow] at hfound
    cases hfound
  | _ => exact hfound

/-- A log call of a task that is not in another one prints its text. -/
private theorem printed_of_free {task : τ} (hfree : s.callers task = none)
    (text : Option (List UInt8))
    (mayQueue : Bool) : (s.step config (.log task text mayQueue)).1 = .printed text := by
  simp only [SyslogSystem.step, SyslogSystem.syslogVprintf, hfree]
  rw [if_neg (by simp)]
  split
  · cases text with
    | none => rfl
    | some text =>
      obtain ⟨line, hrender, -⟩ := safe_renderLine text
      dsimp only
      rw [hrender]
  · rfl

/-- What holds of the client and of its past. -/
structure Forwarded (config : SyslogConfig)
    (c : Config (SyslogSystem τ) (SyslogEvent τ) SyslogOutput) : Prop where
  /-- No step that comes next faults, and a line is dropped where the queue is full. -/
  answers : ∀ e, SyslogAnswer config c.state e (c.state.step config e).1
  printed : ∀ task, c.state.callers task = none → ∀ text mayQueue,
    (c.state.step config (.log task text mayQueue)).1 = .printed text
  /-- All datagrams go to the one server that was found. -/
  addressed : ∀ x ∈ syslogSends c.log, foundServers c.log = [x.1]
  /-- No message was cut. -/
  whole : ∀ x ∈ syslogSends c.log, x.2.length < syslogPacketMax
  forwards : ∃ sent waiting, Forwards config c.log c.state sent waiting

/-- The invariant of a run. -/
structure Running (config : SyslogConfig)
    (c : Config (SyslogSystem τ) (SyslogEvent τ) SyslogOutput) : Prop where
  setUp : SetUp config c.log c.state
  forwards : ∃ sent waiting, Forwards config c.log c.state sent waiting
  addressed : ∀ x ∈ syslogSends c.log, foundServers c.log = [x.1]

/-- The invariant at boot. -/
theorem Running.boot (config : SyslogConfig) : Running (τ := τ) config ⟨[], .boot⟩ where
  setUp := .boot config
  forwards := ⟨[], [], .boot config⟩
  addressed _ h := absurd h List.not_mem_nil

/-- One event. -/
theorem Running.next (h : Running config c) (e : SyslogEvent τ) :
    Running config ((syslogMachine config).answer c e) := by
  obtain ⟨sent, waiting, hforwards⟩ := h.forwards
  have hanswer := hforwards.answer h.setUp e
  refine ⟨h.setUp.step (fun line hsender => hforwards.buffered hsender) e,
    hforwards.step h.setUp e, ?_⟩
  intro x hx
  change x ∈ syslogSends ((e, (c.state.step config e).1) :: c.log) at hx
  refine h.setUp.found_cons ?_ hanswer
  rw [syslogSends_cons, List.mem_append] at hx
  rcases hx with hbefore | hnow
  · exact h.addressed x hbefore
  · generalize (c.state.step config e).1 = output at hanswer hnow
    cases hanswer with
    | sendto hsender =>
      cases List.mem_singleton.mp hnow
      exact h.setUp.alive (by rw [hsender]; trivial)
    | _ => cases hnow

/-- The invariant says what has become of the logged texts. -/
private theorem Running.forwarded (h : Running config c) : Forwarded config c := by
  obtain ⟨sent, waiting, hforwards⟩ := h.forwards
  refine ⟨fun e => hforwards.answer h.setUp e, fun task hfree text mayQueue =>
    printed_of_free hfree text mayQueue, h.addressed, ?_, h.forwards⟩
  intro x hx
  have hmessage := List.mem_map_of_mem (f := (·.2)) hx
  rw [hforwards.sends] at hmessage
  obtain ⟨y, -, hy⟩ := List.mem_map.mp hmessage
  rw [← hy]
  exact syslogMessage_fits config.receiverName (length_lineOf_lt y.2)

/-- In every state of every run, whatever the DNS servers answer and however the tasks that log
    interleave with the client's own. -/
theorem forwarded_of_run (hrun : (syslogMachine config).Run (fun _ _ => True) ⟨[], .boot⟩ c) :
    Forwarded config c :=
  (hrun.invariant (Running.boot config) fun _ e h _ => h.next e).forwarded

end Runs

def atticSyslog : SyslogConfig where
  discoveryDomain := PyStr.encodeAscii "lan."
  aggregatorHost := []
  receiverName := ⟨"attic", by simp, by decide⟩

/-- A response to query 7 with one `SRV` record: port 514 of host `a`. -/
def srvResponse : List UInt8 :=
  [0, 7, 0x80, 0, 0, 0, 0, 1, 0, 0, 0, 0] ++
    [0, 0, 33, 0, 1, 0, 0, 0, 0, 0, 9, 0, 0, 0, 0, 2, 2, 1, 0x61, 0]

/-- Two tasks log while the client is set up, and the line of the second overtakes that of the
    first. -/
def overtakenRun : List (SyslogEvent Bool) :=
  [.log false (some (PyStr.encodeAscii "I boot")) true, .start true,
    .resolve 7 [fun _ => none, fun _ => some srvResponse] (fun _ => some 0x0A000001),
    .openSocket 4, .createQueue true, .createTask true, .hook,
    .log false (some (PyStr.encodeAscii "E one\n")) true,
    .log true (some (PyStr.encodeAscii "two")) true, .enqueue true, .runSender, .store,
    .enqueue false, .runSender, .runSender, .runSender]

example : (syslogSends ((syslogMachine atticSyslog).replay ⟨[], .boot⟩ overtakenRun).log).map
    (·.2) = ["<14>1 - attic muninn - - - two", "<11>1 - attic muninn - - - E one"].map
      PyStr.encodeAscii := by decide +kernel

/-- A run in which the second line overtakes the first. -/
theorem forwarded_of_overtakenRun :
    Forwarded atticSyslog ((syslogMachine atticSyslog).replay ⟨[], .boot⟩ overtakenRun) := by
  have hrun : (syslogMachine atticSyslog).Run (fun _ _ => True) ⟨[], .boot⟩
      ((syslogMachine atticSyslog).replay ⟨[], .boot⟩ overtakenRun) :=
    Machine.run_of_admits ⟨trivial, trivial, trivial, trivial, trivial, trivial, trivial, trivial,
      trivial, trivial, trivial, trivial, trivial, trivial, trivial, trivial, trivial⟩
  exact forwarded_of_run hrun

end Grimnir.Muninn
