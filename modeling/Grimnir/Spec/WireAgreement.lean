import Grimnir.Native.Muninn
import Grimnir.Spec.ParserCorrect
import Mathlib.Algebra.Group.Nat.Defs
import Mathlib.Data.List.TakeDrop

/-!
# Muninn's datagrams and Geri's parser

`CsiEntry.reading` is the packet a queue entry stands for.  The datagram that
`udp_send_task` builds does not depend on what `pkt_buf` held before, and Geri reads it as
that packet except for the receiver name: `strncpy` copies `sizeof - 1` characters, so of a
name that fills the field the last character is lost.

## Key results

- `parsePacket_udpSendTask`: what Geri reads of any datagram Muninn sends
- `agrees_iff`: Geri reads the entry's packet exactly for names below 32 characters
-/

namespace Grimnir.Muninn

open Struct Struct.Format CMemory Geri

/-- A MAC as six pairs of lower-case hexadecimal digits with colons between them. -/
def macText (mac : Bytes 6) : String :=
  ":".intercalate (mac.1.map fun b =>
    String.ofList [Nat.digitChar (b.toNat / 16), Nat.digitChar (b.toNat % 16)])

/-- The packet that an entry stands for, sent by the receiver `name`. -/
def CsiEntry.reading (entry : CsiEntry) (name : String) : CsiPacket where
  receiverName := name
  transmitterMac := macText entry.txMac
  rssi := entry.rssi.toInt
  noiseFloor := entry.noiseFloor.toInt
  channel := entry.channel.toNat
  bandwidthMhz := entry.bandwidthMhz.toNat
  antennaCount := entry.antennaCount.toNat
  subcarrierCount := entry.subcarrierCount.toNat
  timestampUs := entry.timestampUs.toNat
  amplitude := entry.amplitude.1.take entry.nValues
  phase := entry.phase.1.take entry.nValues

/-! ## The bytes of a datagram -/

/-- The firmware's struct and the parser's format are one layout. -/
private theorem pack_layout (hdr : CsiPacketHeader) :
    (CsiPacketHeader.layout.pack hdr).1 =
      ((headerFormat nameWidthV2).pack (CsiPacketHeader.members.symm hdr)).1 := rfl

private theorem take_arrayBytes {n : Nat} (array : Sized UInt32 maxValues) (h : n ≤ maxValues) :
    (arrayBytes array.1).take (n * 4) = arrayBytes (array.1.take n) :=
  take_flatMap_pack f32 array.1 n (by rw [array.2]; exact h)

/-- The header of the datagram for an entry. -/
def CsiEntry.header (entry : CsiEntry) (name : ReceiverName) : CsiPacketHeader where
  magic := packetMagic
  version := packetVersion
  receiverName := strncpy (memset receiverNameMaxLen 0) (PyStr.encodeAscii name.text)
    (receiverNameMaxLen - 1) receiverNameMaxLen_pred_le
  txMac := entry.txMac
  rssi := entry.rssi.toInt16
  noiseFloor := entry.noiseFloor.toInt16
  channel := entry.channel
  bandwidthMhz := entry.bandwidthMhz
  antennaCount := entry.antennaCount
  subcarrierCount := entry.subcarrierCount
  timestampUs := entry.timestampUs

/-- Every member of the header in `pkt_buf` is written. -/
private theorem writeHeader_eq (hdr : CsiPacketHeader) (name : ReceiverName) (entry : CsiEntry) :
    writeHeader hdr name entry = entry.header name := rfl

/-- What is sent: the header and the two arrays, and no byte of the earlier content of
    `pkt_buf`. -/
theorem udpSendTask_datagram (name : ReceiverName) (pktBuf : Bytes pktBufSize)
    (entry : CsiEntry) : (udpSendTask name pktBuf entry).1 =
      (CsiPacketHeader.layout.pack (entry.header name)).1 ++
        arrayBytes (entry.amplitude.1.take entry.nValues ++ entry.phase.1.take entry.nValues) := by
  have hfits : entry.nValues ≤ maxValues := entry.fits
  have hamplitude := length_take_arrayBytes entry.amplitude hfits
  have hphase := length_take_arrayBytes entry.phase hfits
  simp only [udpSendTask]
  -- the datagram ends where the last write ends, so the three writes are peeled off in turn
  rw [take_store _ _ _ _ (by rw [hphase]; omega), take_store _ _ _ _ (by rw [hamplitude]),
    take_store _ _ _ _ (by rw [(CsiPacketHeader.layout.pack _).2]; rfl), writeHeader_eq,
    List.take_zero, List.nil_append, take_arrayBytes _ hfits, take_arrayBytes _ hfits,
    List.append_assoc]
  unfold arrayBytes
  rw [← List.flatMap_append]

/-! ## What Geri reads -/

/-- The parser reads the MAC as it is written. -/
private theorem transmitterMac_eq (mac : Bytes 6) : transmitterMac mac.1 = macText mac := by
  unfold transmitterMac macText
  congr 1
  exact List.map_congr_left fun b _ => PyStr.hex_byte b

theorem zero_not_mem_encodeAscii (name : ReceiverName) :
    (0 : UInt8) ∉ PyStr.encodeAscii name.text := by
  unfold PyStr.encodeAscii
  intro hmem
  obtain ⟨c, hc, hzero⟩ := List.mem_map.mp hmem
  -- a C string has no `NUL` inside
  have hrange := name.ascii c hc
  rw [← UInt8.toNat_inj, UInt8.toNat_ofNat', UInt8.toNat_zero] at hzero
  omega

/-- The name field holds at most 31 characters of the name. -/
private theorem receiverName_field (name : ReceiverName) (entry : CsiEntry) :
    receiverName (entry.header name).receiverName.1 =
      String.ofList (name.text.toList.take (receiverNameMaxLen - 1)) := by
  have hfield : (entry.header name).receiverName.1 =
      (PyStr.encodeAscii name.text).take (receiverNameMaxLen - 1) ++ List.replicate _ 0 :=
    strncpy_memset _ (receiverNameMaxLen - 1) receiverNameMaxLen_pred_le
  have hzero : (0 : UInt8) ∉ (PyStr.encodeAscii name.text).take (receiverNameMaxLen - 1) :=
    fun hmem => zero_not_mem_encodeAscii name (List.mem_of_mem_take hmem)
  rw [receiverName, hfield, PyStr.rstrip_append_replicate hzero]
  exact PyStr.decodeAscii_encodeAscii_take (fun c hc => (name.ascii c hc).2) _

/-- Geri reads every datagram that Muninn sends, with the name cut at 31 characters. -/
theorem parsePacket_udpSendTask (name : ReceiverName) (pktBuf : Bytes pktBufSize)
    (entry : CsiEntry) : parsePacket (udpSendTask name pktBuf entry).1 =
      .ok (entry.reading (String.ofList (name.text.toList.take (receiverNameMaxLen - 1)))) := by
  have hamplitude : (entry.amplitude.1.take entry.nValues).length = entry.nValues := by
    rw [List.length_take, entry.amplitude.2]
    exact Nat.min_eq_left entry.fits
  have hphase : (entry.phase.1.take entry.nValues).length = entry.nValues := by
    rw [List.length_take, entry.phase.2]
    exact Nat.min_eq_left entry.fits
  have hparse := parsePacket_pack (CsiPacketHeader.members.symm (entry.header name))
    (entry.amplitude.1.take entry.nValues ++ entry.phase.1.take entry.nValues) [] rfl rfl
    (by
      rw [List.length_append, hamplitude, hphase]
      show entry.nValues + entry.nValues = entry.nValues * 2
      omega)
  rw [List.append_nil] at hparse
  rw [udpSendTask_datagram, pack_layout]
  -- field by field; the sample arrays are split where they were joined
  refine hparse.trans (congrArg Except.ok ?_)
  show CsiPacket.mk (receiverName (entry.header name).receiverName.1)
    (transmitterMac entry.txMac.1) entry.rssi.toInt16.toInt entry.noiseFloor.toInt16.toInt
    _ _ _ _ _ (List.take entry.nValues _) (List.drop entry.nValues _) = _
  rw [receiverName_field, transmitterMac_eq, Int8.toInt_toInt16, Int8.toInt_toInt16,
    List.take_left' hamplitude, List.drop_left' hamplitude]
  rfl

/-- Geri reads an entry's own packet exactly when the name leaves room for a `NUL` in its
    field. -/
theorem agrees_iff (name : ReceiverName) (pktBuf : Bytes pktBufSize) (entry : CsiEntry) :
    parsePacket (udpSendTask name pktBuf entry).1 = .ok (entry.reading name.text) ↔
      name.text.length < receiverNameMaxLen := by
  have hname : String.ofList (name.text.toList.take (receiverNameMaxLen - 1)) = name.text ↔
      name.text.length < receiverNameMaxLen := by
    rw [← String.toList_inj, String.toList_ofList, List.take_eq_self_iff, String.length_toList]
    unfold receiverNameMaxLen
    omega
  rw [parsePacket_udpSendTask, ← hname]
  constructor
  · intro h
    exact congrArg CsiPacket.receiverName (Except.ok.inj h)
  · intro h
    rw [h]

/-- A name of 32 characters, which the `_Static_assert` accepts. -/
def fullName : ReceiverName where
  text := "grimnir-rx-kitchen-north-wall-32"
  ascii := by simp
  accepted := by decide

/-- An entry without samples. -/
def emptyEntry : CsiEntry where
  txMac := ⟨[0xaa, 0xbb, 0xcc, 0x01, 0x02, 0x04], rfl⟩
  rssi := -40
  noiseFloor := -95
  channel := 6
  bandwidthMhz := 40
  antennaCount := 1
  subcarrierCount := 0
  timestampUs := 1000
  amplitude := .replicate maxValues 0
  phase := .replicate maxValues 0
  fits := by decide

/-- Geri reads a name of 32 characters without its last one. -/
theorem full_name_cut :
    parsePacket (udpSendTask fullName (memset pktBufSize 0) emptyEntry).1 =
        .ok (emptyEntry.reading "grimnir-rx-kitchen-north-wall-3") ∧
      parsePacket (udpSendTask fullName (memset pktBufSize 0) emptyEntry).1 ≠
        .ok (emptyEntry.reading fullName.text) := by
  have hcut : String.ofList (fullName.text.toList.take (receiverNameMaxLen - 1)) =
      "grimnir-rx-kitchen-north-wall-3" := by decide
  rw [parsePacket_udpSendTask, hcut]
  refine ⟨rfl, fun h => ?_⟩
  have hname := congrArg CsiPacket.receiverName (Except.ok.inj h)
  exact absurd hname (by decide)

end Grimnir.Muninn
