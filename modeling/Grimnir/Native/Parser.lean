import Grimnir.ForStd.PyStr
import Grimnir.ForStd.Struct

/-!
# `geri/parser.py`: the CSI datagram

`parsePacket` keeps the order of the source's checks and the texts of its errors.  A
`float32` is its word.  The two header formats differ in the width of the receiver name
only, so `headerFormat` takes that width.
-/

namespace Grimnir.Geri

open Struct Struct.Format

/-- `PACKET_MAGIC`, the text `CSI!`. -/
def packetMagic : UInt32 := 0x43534921

/-- The fields of a header, in their order: magic, version, receiver name, transmitter MAC,
    rssi, noise floor, channel, bandwidth, antenna count, subcarrier count, timestamp. -/
abbrev Header (width : Nat) :=
  UInt32 × UInt16 × Bytes width × Bytes 6 × Int16 × Int16 × UInt16 × UInt16 × UInt16 × UInt16 ×
    UInt32

/-- `<IH{width}s6shhHHHHI`. -/
def headerFormat (width : Nat) : Format (Header width) :=
  u32.seq <| u16.seq <| (chars width).seq <| (chars 6).seq <| i16.seq <| i16.seq <|
    u16.seq <| u16.seq <| u16.seq <| u16.seq u32

/-- The width of the receiver name in `HEADER_FORMAT_V1`. -/
def nameWidthV1 : Nat := 16

/-- The width of the receiver name in `HEADER_FORMAT_V2`. -/
def nameWidthV2 : Nat := 32

/-- `HEADER_SIZE_V1`, from `struct.calcsize`. -/
def headerSizeV1 : Nat := (headerFormat nameWidthV1).size

/-- `HEADER_BY_VERSION`, as the name width of each version's format. -/
def headerByVersion (version : UInt16) : Option Nat :=
  if version = 1 then some nameWidthV1 else if version = 2 then some nameWidthV2 else none

/-- `CSIPacket`. -/
structure CsiPacket where
  receiverName : String
  transmitterMac : String
  rssi : Int
  noiseFloor : Int
  channel : Nat
  bandwidthMhz : Nat
  antennaCount : Nat
  subcarrierCount : Nat
  timestampUs : Nat
  amplitude : List UInt32
  phase : List UInt32
  deriving DecidableEq, Repr

/-- What can leave `parse_packet` instead of a packet: its own `ParseError`, or the
    `struct.error` of an `unpack_from`. -/
inductive ParseFailure where
  | parseError (message : String)
  | structError (error : Struct.Error)
  deriving DecidableEq, Repr

/-- An `unpack_from` in `parse_packet`, which does not catch `struct.error`. -/
def unpack {α : Type} (f : Format α) (data : List UInt8) (offset : Nat) :
    Except ParseFailure α :=
  (f.unpackFrom data offset).mapError .structError

/-- `receiver_name_raw.rstrip(b"\x00").decode("ascii", errors="replace")`. -/
def receiverName (raw : List UInt8) : String := PyStr.decodeAscii (PyStr.rstrip 0 raw)

/-- `":".join(f"{b:02x}" for b in mac_bytes)`. -/
def transmitterMac (mac : List UInt8) : String :=
  ":".intercalate (mac.map fun b => PyStr.hex 2 b.toNat)

/-- The packet of a header and its values. -/
def packetOf {width : Nat} : Header width → List UInt32 → CsiPacket
  | (_, _, nameRaw, mac, rssi, noiseFloor, channel, bandwidthMhz, antennaCount,
      subcarrierCount, timestampUs), flat =>
    let nValues := antennaCount.toNat * subcarrierCount.toNat
    { receiverName := receiverName nameRaw.1
      transmitterMac := transmitterMac mac.1
      rssi := rssi.toInt
      noiseFloor := noiseFloor.toInt
      channel := channel.toNat
      bandwidthMhz := bandwidthMhz.toNat
      antennaCount := antennaCount.toNat
      subcarrierCount := subcarrierCount.toNat
      timestampUs := timestampUs.toNat
      amplitude := flat.take nValues
      phase := flat.drop nValues }

/-- `antenna_count * subcarrier_count`. -/
def Header.nValues {width : Nat} : Header width → Nat
  | (_, _, _, _, _, _, _, _, antennaCount, subcarrierCount, _) =>
    antennaCount.toNat * subcarrierCount.toNat

/-- `parse_packet`. -/
def parsePacket (data : List UInt8) : Except ParseFailure CsiPacket := do
  if data.length < headerSizeV1 then
    throw (.parseError s!"Packet too short: {data.length} < {headerSizeV1}")
  let (magic, version) ← unpack (u32.seq u16) data 0
  if magic ≠ packetMagic then
    throw (.parseError s!"Bad magic: 0x{PyStr.hexUpper 8 magic.toNat}")
  match headerByVersion version with
  | none => throw (.parseError s!"Unknown version: {version.toNat}")
  | some width =>
    let format := headerFormat width
    if data.length < format.size then
      throw (.parseError s!"Packet too short: {data.length} < {format.size}")
    let header ← unpack format data 0
    let nValues := header.nValues
    let expectedSize := format.size + nValues * 4 * 2
    if data.length < expectedSize then
      throw (.parseError
        s!"Packet too short for {nValues} subcarriers: {data.length} < {expectedSize}")
    let flat ← unpack (f32.array (nValues * 2)) data format.size
    return packetOf header flat.1

end Grimnir.Geri
