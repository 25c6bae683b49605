import Grimnir.ForStd.CMemory
import Grimnir.ForStd.PyStr

/-!
# `firmware/muninn/main/main.c`: capturing and sending CSI

`csiCallback` fills a queue entry from what the Wi-Fi driver reports, `udpSendTask` is one
round of the send loop with an open socket: it takes an entry and hands the bytes of the
static packet buffer to `sendto`.  The CPU is little-endian, so a multi-byte value lies in
memory as its `Struct` format packs it.  `sqrtf` and `atan2f` are parameters.
-/

namespace Grimnir.Muninn

open Struct Struct.Format CMemory

/-- `PACKET_MAGIC`. -/
def packetMagic : UInt32 := 0x43534921

/-- `PACKET_VERSION`. -/
def packetVersion : UInt16 := 2

/-- `MAX_SUBCARRIERS`. -/
def maxSubcarriers : Nat := 128

/-- `MAX_ANTENNAS`. -/
def maxAntennas : Nat := 4

/-- `HEADER_SIZE`. -/
def headerSize : Nat := 60

/-- `RECEIVER_NAME_MAX_LEN`. -/
def receiverNameMaxLen : Nat := 32

theorem receiverNameMaxLen_pred_le : receiverNameMaxLen - 1 ≤ receiverNameMaxLen :=
  Nat.sub_le _ _

/-- The entries of a sample array. -/
abbrev maxValues : Nat := maxAntennas * maxSubcarriers

/-- A `RECEIVER_NAME` of ASCII characters that the `_Static_assert` accepts; its `sizeof`
    counts the closing `NUL`. -/
structure ReceiverName where
  text : String
  ascii : ∀ c ∈ text.toList, c.toNat ≠ 0 ∧ c.toNat < 128
  accepted : text.length + 1 ≤ receiverNameMaxLen + 1

/-! ## Capturing -/

/-- `csi_entry_t`, with the counts inside the arrays. -/
structure CsiEntry where
  txMac : Bytes 6
  rssi : Int8
  noiseFloor : Int8
  channel : UInt16
  bandwidthMhz : UInt16
  antennaCount : UInt16
  subcarrierCount : UInt16
  timestampUs : UInt32
  amplitude : Sized UInt32 maxValues
  phase : Sized UInt32 maxValues
  fits : antennaCount.toNat * subcarrierCount.toNat ≤ maxValues

/-- `antenna_count * subcarrier_count`. -/
def CsiEntry.nValues (entry : CsiEntry) : Nat :=
  entry.antennaCount.toNat * entry.subcarrierCount.toNat

/-- `wifi_second_chan_t`. -/
inductive SecondChannel where
  | none
  | above
  | below
  deriving DecidableEq, Repr

/-- What `csi_callback` reads of a `wifi_csi_info_t`. -/
structure WifiCsiInfo where
  mac : Bytes 6
  rssi : Int8
  noiseFloor : Int8
  channel : UInt8
  cwb : UInt8
  secondaryChannel : SecondChannel
  len : UInt16
  buf : Sized Int8 len.toNat

/-- The C library's single-precision functions on an (imaginary, real) pair, as words:
    `sqrtf((float)(real * real) + (float)(imag * imag))` and `atan2f(imag, real)`. -/
structure Libm where
  magnitude : Int8 → Int8 → UInt32
  angle : Int8 → Int8 → UInt32

/-- `antennas`, before it is clamped. -/
def WifiCsiInfo.reportedAntennas (info : WifiCsiInfo) : Nat :=
  if info.secondaryChannel = .none then 1 else 2

/-- `antennas`. -/
def WifiCsiInfo.antennas (info : WifiCsiInfo) : Nat :=
  if info.reportedAntennas > maxAntennas then maxAntennas else info.reportedAntennas

/-- `subcarriers`. -/
def WifiCsiInfo.subcarriers (info : WifiCsiInfo) : Nat :=
  let subcarriers := info.len.toNat / 2 / info.reportedAntennas
  if subcarriers > maxSubcarriers then maxSubcarriers else subcarriers

/-- The loop over `i < total && i * 2 + 1 < info->len`, filling a zeroed array from the pair
    at `i * 2`. -/
def WifiCsiInfo.fill (info : WifiCsiInfo) (value : Int8 → Int8 → UInt32) :
    Sized UInt32 maxValues :=
  let total := info.antennas * info.subcarriers
  ((List.range total).takeWhile fun i => i * 2 + 1 < info.len.toNat).foldl
    (fun array i =>
      ⟨array.1.set i (value (info.buf.1.getD (i * 2) 0) (info.buf.1.getD (i * 2 + 1) 0)), by
        rw [List.length_set, array.2]⟩)
    (.replicate maxValues 0)

theorem WifiCsiInfo.antennas_eq (info : WifiCsiInfo) :
    info.antennas = 1 ∨ info.antennas = 2 := by
  unfold antennas reportedAntennas
  cases info.secondaryChannel
  · exact .inl rfl
  · exact .inr rfl
  · exact .inr rfl

theorem WifiCsiInfo.subcarriers_le (info : WifiCsiInfo) :
    info.subcarriers ≤ maxSubcarriers := by
  simp only [subcarriers]
  split
  · exact le_refl _
  · rename_i hle
    exact not_lt.mp hle

/-- The counts of a captured frame stay inside the arrays. -/
theorem WifiCsiInfo.fits (info : WifiCsiInfo) :
    (UInt16.ofNat info.antennas).toNat * (UInt16.ofNat info.subcarriers).toNat ≤ maxValues := by
  have ha := info.antennas_eq
  have hs := info.subcarriers_le
  have hmod : (UInt16.ofNat info.subcarriers).toNat ≤ maxSubcarriers := by
    rw [UInt16.toNat_ofNat']
    exact le_trans (Nat.mod_le _ _) hs
  have hant : (UInt16.ofNat info.antennas).toNat ≤ maxAntennas := by
    rcases ha with ha | ha <;> rw [ha] <;> decide
  exact Nat.mul_le_mul hant hmod

/-- `csi_callback` with a free queue entry, `now` being `esp_timer_get_time()`: frames of
    other transmitters and empty ones are dropped. -/
def csiCallback (libm : Libm) (huginnMac : Bytes 6) (info : WifiCsiInfo) (now : Nat) :
    Option CsiEntry :=
  if info.len = 0 then none
  else if info.mac ≠ huginnMac then none
  else some
    { txMac := info.mac
      rssi := info.rssi
      noiseFloor := info.noiseFloor
      channel := info.channel.toUInt16
      bandwidthMhz := if info.cwb = 1 then 40 else 20
      antennaCount := UInt16.ofNat info.antennas
      subcarrierCount := UInt16.ofNat info.subcarriers
      timestampUs := UInt32.ofNat now
      amplitude := info.fill libm.magnitude
      phase := info.fill libm.angle
      fits := info.fits }

/-! ## Sending -/

/-- `csi_packet_header_t`, a packed struct. -/
structure CsiPacketHeader where
  magic : UInt32
  version : UInt16
  receiverName : Bytes receiverNameMaxLen
  txMac : Bytes 6
  rssi : Int16
  noiseFloor : Int16
  channel : UInt16
  bandwidthMhz : UInt16
  antennaCount : UInt16
  subcarrierCount : UInt16
  timestampUs : UInt32

/-- The struct as the tuple of its members, in the order of their declaration. -/
def CsiPacketHeader.members :
    UInt32 × UInt16 × Bytes receiverNameMaxLen × Bytes 6 × Int16 × Int16 × UInt16 × UInt16 ×
      UInt16 × UInt16 × UInt32 ≃ CsiPacketHeader where
  toFun
    | (magic, version, receiverName, txMac, rssi, noiseFloor, channel, bandwidthMhz,
        antennaCount, subcarrierCount, timestampUs) =>
      ⟨magic, version, receiverName, txMac, rssi, noiseFloor, channel, bandwidthMhz,
        antennaCount, subcarrierCount, timestampUs⟩
  invFun hdr :=
    (hdr.magic, hdr.version, hdr.receiverName, hdr.txMac, hdr.rssi, hdr.noiseFloor,
      hdr.channel, hdr.bandwidthMhz, hdr.antennaCount, hdr.subcarrierCount, hdr.timestampUs)
  left_inv _ := rfl
  right_inv _ := rfl

/-- The layout of the struct. -/
def CsiPacketHeader.layout : Format CsiPacketHeader :=
  (u32.seq <| u16.seq <| (chars receiverNameMaxLen).seq <| (chars 6).seq <| i16.seq <|
    i16.seq <| u16.seq <| u16.seq <| u16.seq <| u16.seq u32).map members

/-- `sizeof(pkt_buf)`. -/
def pktBufSize : Nat := headerSize + maxValues * 4 * 2

/-- The bytes of an array of `float`s, each given as its word. -/
def arrayBytes (array : List UInt32) : List UInt8 := array.flatMap fun word => (f32.pack word).1

/-- The header that `udp_send_task` writes over the one that `pkt_buf` holds. -/
def writeHeader (hdr : CsiPacketHeader) (name : ReceiverName) (entry : CsiEntry) :
    CsiPacketHeader :=
  let hdr := { hdr with magic := packetMagic }
  let hdr := { hdr with version := packetVersion }
  let hdr := { hdr with receiverName := memset receiverNameMaxLen 0 }
  let hdr := { hdr with
    receiverName := strncpy hdr.receiverName (PyStr.encodeAscii name.text)
      (receiverNameMaxLen - 1) receiverNameMaxLen_pred_le }
  let hdr := { hdr with txMac := entry.txMac }
  let hdr := { hdr with rssi := entry.rssi.toInt16 }
  let hdr := { hdr with noiseFloor := entry.noiseFloor.toInt16 }
  let hdr := { hdr with channel := entry.channel }
  let hdr := { hdr with bandwidthMhz := entry.bandwidthMhz }
  let hdr := { hdr with antennaCount := entry.antennaCount }
  let hdr := { hdr with subcarrierCount := entry.subcarrierCount }
  { hdr with timestampUs := entry.timestampUs }

theorem length_take_arrayBytes {n : Nat} (array : Sized UInt32 maxValues) (h : n ≤ maxValues) :
    ((arrayBytes array.1).take (n * 4)).length = n * 4 := by
  rw [List.length_take, arrayBytes, length_flatMap_pack, array.2]
  exact Nat.min_eq_left (Nat.mul_le_mul_right 4 h)

/-- Both copies end inside the packet buffer. -/
theorem copy_inBounds {n offset : Nat} (array : Sized UInt32 maxValues) (hn : n ≤ maxValues)
    (hoffset : offset ≤ headerSize + n * 4) :
    offset + ((arrayBytes array.1).take (n * 4)).length ≤ pktBufSize := by
  rw [length_take_arrayBytes array hn]
  unfold pktBufSize
  omega

/-- One round of `udp_send_task`: the datagram handed to `sendto` and the packet buffer as
    the round leaves it. -/
def udpSendTask (name : ReceiverName) (pktBuf : Bytes pktBufSize) (entry : CsiEntry) :
    List UInt8 × Bytes pktBufSize :=
  let nValues := entry.nValues
  let pktLen := headerSize + nValues * 4 * 2
  let hdr := CsiPacketHeader.layout.unpack ⟨pktBuf.1.take headerSize, by
    rw [List.length_take, pktBuf.2]; rfl⟩
  let pktBuf := store pktBuf 0 (CsiPacketHeader.layout.pack (writeHeader hdr name entry)).1 (by
    rw [(CsiPacketHeader.layout.pack _).2]; decide)
  let pktBuf := store pktBuf headerSize ((arrayBytes entry.amplitude.1).take (nValues * 4))
    (copy_inBounds entry.amplitude entry.fits (Nat.le_add_right _ _))
  let pktBuf := store pktBuf (headerSize + nValues * 4)
    ((arrayBytes entry.phase.1).take (nValues * 4))
    (copy_inBounds entry.phase entry.fits (le_refl _))
  (pktBuf.1.take pktLen, pktBuf)

end Grimnir.Muninn
