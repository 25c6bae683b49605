import Grimnir.Spec.ParserCorrect
import Mathlib.Algebra.Group.Int.Defs
import Mathlib.Algebra.Group.Nat.Defs

/-!
# The grammar of the CSI datagram

A `Datagram` is a header of a known version followed by as many values as it announces.
The parser accepts the byte strings that start with one, and reads nothing behind it.  On
the other side stands the table of offsets that the protocol documents; both describe the
same byte strings.  Re-encoding a packet, as the parser's tests do, inverts the parser on
every packet whose name is ASCII.

## Key results

- `parsePacket_ok_iff`: a packet is returned for the byte strings that start with a datagram
- `wellFormed_iff`: these are the byte strings that the table of offsets describes
- `parsePacket_error`: every failure is a `ParseError`
- `datagram_grammar`: acceptance, extent and both round trips
-/

namespace Grimnir.Geri

open Struct Struct.Format

/-! ## The documented layout -/

/-- The header sizes of the two versions. -/
def headerSize : Nat → Option Nat
  | 1 => some 44
  | 2 => some 60
  | _ => none

/-- The bytes that a datagram with a header of `size` bytes announces: the header, and for
    every antenna and subcarrier an amplitude and a phase. -/
def extent (size : Nat) (data : List UInt8) : Nat :=
  size + 8 * (field data (size - 8) 2 * field data (size - 6) 2)

/-- The validation rules for a datagram with a header of `size` bytes. -/
structure WellFormed (size : Nat) (data : List UInt8) : Prop where
  minimum : 44 ≤ data.length
  magic : field data 0 4 = 0x43534921
  version : headerSize (field data 4 2) = some size
  complete : extent size data ≤ data.length

/-! ## The encoder -/

/-- The width of the receiver name in a version's header. -/
def nameWidth (version : UInt16) : Nat := if version = 1 then nameWidthV1 else nameWidthV2

/-- The header of a packet.  `struct.pack` pads the name with zeros. -/
def packetHeader (version : UInt16) (pkt : CsiPacket) : Header (nameWidth version) :=
  (packetMagic, version, .pad _ (PyStr.encodeAscii pkt.receiverName),
    .pad 6 (PyStr.fromHex (pkt.transmitterMac.toList.filter (· ≠ ':'))),
    .ofInt pkt.rssi, .ofInt pkt.noiseFloor, .ofNat pkt.channel, .ofNat pkt.bandwidthMhz,
    .ofNat pkt.antennaCount, .ofNat pkt.subcarrierCount, .ofNat pkt.timestampUs)

/-- The encoding of a packet in a version's layout, as `_build_packet` of the parser's
    tests writes it. -/
def encodePacket (version : UInt16) (pkt : CsiPacket) : List UInt8 :=
  ((headerFormat (nameWidth version)).pack (packetHeader version pkt)).1 ++
    (pkt.amplitude ++ pkt.phase).flatMap fun word => (f32.pack word).1

/-- A packet that a version's layout can hold. -/
structure Encodable (version : UInt16) (pkt : CsiPacket) : Prop where
  known : version = 1 ∨ version = 2
  ascii : ∀ c ∈ pkt.receiverName.toList, c.toNat < 128
  noTrailingNul : pkt.receiverName.toList.getLast? ≠ some (Char.ofNat 0)
  fits : pkt.receiverName.length ≤ nameWidth version
  mac : ∃ mac : Bytes 6, pkt.transmitterMac = transmitterMac mac.1
  rssi : -2 ^ 15 ≤ pkt.rssi ∧ pkt.rssi < 2 ^ 15
  noiseFloor : -2 ^ 15 ≤ pkt.noiseFloor ∧ pkt.noiseFloor < 2 ^ 15
  channel : pkt.channel < 2 ^ 16
  bandwidthMhz : pkt.bandwidthMhz < 2 ^ 16
  antennaCount : pkt.antennaCount < 2 ^ 16
  subcarrierCount : pkt.subcarrierCount < 2 ^ 16
  timestampUs : pkt.timestampUs < 2 ^ 32
  amplitude : pkt.amplitude.length = pkt.antennaCount * pkt.subcarrierCount
  phase : pkt.phase.length = pkt.antennaCount * pkt.subcarrierCount

/-! ## The grammar -/

/-- A header of a known version and the values it announces. -/
structure Datagram where
  width : Nat
  header : Header width
  values : List UInt32
  magic : header.1 = packetMagic
  known : headerByVersion header.2.1 = some width
  counted : values.length = header.nValues * 2

namespace Datagram

/-- The bytes of a datagram. -/
def bytes (g : Datagram) : List UInt8 :=
  ((headerFormat g.width).pack g.header).1 ++ g.values.flatMap fun word => (f32.pack word).1

/-- The packet of a datagram. -/
def packet (g : Datagram) : CsiPacket := packetOf g.header g.values

/-- The bytes of the receiver name. -/
def name (g : Datagram) : List UInt8 := g.header.2.2.1.1

/-- A datagram is its header, and eight bytes for each value pair. -/
private theorem length_bytes (g : Datagram) :
    g.bytes.length = g.width + 28 + 8 * g.header.nValues := by
  have hvalues := length_flatMap_pack f32 g.values
  have hsize : (f32 : Format UInt32).size = 4 := rfl
  rw [bytes, List.length_append, ((headerFormat g.width).pack g.header).2, size_headerFormat,
    hvalues, g.counted, hsize]
  omega

/-- A packed header is followed by a datagram's values when there are bytes enough. -/
private theorem exists_of_pack {width : Nat} (header : Header width) {data rest : List UInt8}
    (hdata : data = ((headerFormat width).pack header).1 ++ rest)
    (hmagic : header.1 = packetMagic) (hknown : headerByVersion header.2.1 = some width)
    (hlen : 8 * header.nValues ≤ rest.length) :
    ∃ (g : Datagram) (after : List UInt8), g.width = width ∧ data = g.bytes ++ after := by
  have hsize : (f32.array (header.nValues * 2)).size ≤ rest.length := by
    have hword : (f32 : Format UInt32).size = 4 := rfl
    rw [size_array, hword]
    omega
  obtain ⟨values, hvalues⟩ := (f32.array (header.nValues * 2)).exists_pack_append hsize
  refine ⟨⟨width, header, values.1, hmagic, hknown, values.2⟩,
    rest.drop (f32.array (header.nValues * 2)).size, rfl, ?_⟩
  rw [bytes, ← toList_pack_array f32 values, List.append_assoc, ← hvalues]
  exact hdata

/-- A datagram is parsed to its packet, whatever bytes follow. -/
private theorem parsePacket_append (g : Datagram) (rest : List UInt8) :
    parsePacket (g.bytes ++ rest) = .ok g.packet := by
  unfold bytes
  rw [List.append_assoc]
  exact parsePacket_pack g.header g.values rest g.magic g.known g.counted

end Datagram

/-- Unpacking succeeds wherever the bytes are there. -/
private theorem unpack_ok {α : Type} (f : Format α) {data : List UInt8} {offset : Nat}
    (h : offset + f.size ≤ data.length) : ∃ a, unpack f data offset = .ok a := by
  obtain ⟨a, ha⟩ := f.unpackFrom_ok h
  exact ⟨a, by rw [unpack, ha]; rfl⟩

/-- Every `unpack_from` of `parsePacket` finds its bytes, so what fails is a check. -/
theorem parsePacket_error {data : List UInt8} {failure : ParseFailure}
    (h : parsePacket data = .error failure) : ∃ message, failure = .parseError message := by
  unfold parsePacket at h
  -- every check of the parser that fails has its own message
  split at h
  · exact ⟨_, (Except.error.inj h).symm⟩
  · rename_i hmin
    -- ten bytes of the start are there, so `unpack` cannot raise
    have hv1 : 0 + (u32.seq u16).size ≤ data.length := by
      have hsize : headerSizeV1 = 44 := rfl
      have hstart : (u32.seq u16).size = 6 := rfl
      omega
    obtain ⟨⟨magic, version⟩, hstart⟩ := unpack_ok _ hv1
    simp only [hstart, bind, Except.bind] at h
    split at h
    · exact ⟨_, (Except.error.inj h).symm⟩
    · split at h
      · exact ⟨_, (Except.error.inj h).symm⟩
      · rename_i width hversion
        split at h
        · exact ⟨_, (Except.error.inj h).symm⟩
        · rename_i hsize
          have hheader : 0 + (headerFormat width).size ≤ data.length := by omega
          obtain ⟨header, hunpack⟩ := unpack_ok _ hheader
          simp only [hunpack] at h
          split at h
          · exact ⟨_, (Except.error.inj h).symm⟩
          · rename_i hexpected
            -- the last check leaves room for the two arrays
            have hflat : (headerFormat width).size + (f32.array (header.nValues * 2)).size ≤
                data.length := by
              have hword : (f32 : Format UInt32).size = 4 := rfl
              rw [size_array, hword]
              omega
            obtain ⟨flat, hvalues⟩ := unpack_ok _ hflat
            simp only [hvalues] at h
            cases h

/-- A packet is returned for the byte strings that start with a datagram. -/
theorem parsePacket_ok_iff {data : List UInt8} {pkt : CsiPacket} :
    parsePacket data = .ok pkt ↔
      ∃ (g : Datagram) (rest : List UInt8), data = g.bytes ++ rest ∧ pkt = g.packet := by
  constructor
  · intro h
    obtain ⟨magic, version, width, header, flat, hstart, hmagic, hversion, hheader, hlen, -, -⟩ :=
      parsePacket_ok h
    obtain ⟨packed, hdata⟩ := (headerFormat width).exists_pack_append
      (show (headerFormat width).size ≤ data.length by omega)
    -- the header is the one packed at the start, and so are its magic and version
    obtain rfl : packed = header := by
      rw [hdata, unpack_pack_zero] at hheader
      exact Except.ok.inj hheader
    obtain ⟨rest, hpacked⟩ := pack_headerFormat packed
    have hfirst : (packed.1, packed.2.1) = (magic, version) := by
      rw [hdata, hpacked, List.append_assoc, unpack_pack_zero (u32.seq u16) (packed.1, packed.2.1)]
        at hstart
      exact Except.ok.inj hstart
    obtain ⟨rfl, rfl⟩ := Prod.mk.inj hfirst
    obtain ⟨g, rest, -, hg⟩ := Datagram.exists_of_pack packed hdata hmagic hversion
      (by rw [List.length_drop]; omega)
    refine ⟨g, rest, hg, ?_⟩
    -- the rest of the bytes are the datagram and what follows it
    rw [hg, g.parsePacket_append] at h
    exact (Except.ok.inj h).symm
  · intro h
    obtain ⟨g, rest, rfl, rfl⟩ := h
    exact g.parsePacket_append rest

/-! ## The table of offsets -/

section Fields

variable {width : Nat} (header : Header width) (rest : List UInt8)

/-- The magic is in the first four bytes. -/
private theorem field_magic : field (((headerFormat width).pack header).1 ++ rest) 0 4 =
    header.1.toNat := by
  rw [← littleEndian_pack_u32]
  exact field_seq_zero u32 _ header rest

/-- The version is in the next two bytes. -/
private theorem field_version : field (((headerFormat width).pack header).1 ++ rest) 4 2 =
    header.2.1.toNat := by
  rw [← littleEndian_pack_u16]
  exact (field_seq_add u32 _ header rest 0 2).trans (field_seq_zero u16 _ header.2 rest)

/-- The format from the antenna count on follows `width + 20` bytes. -/
private theorem field_counts (offset size : Nat) :
    field (((headerFormat width).pack header).1 ++ rest) (width + 20 + offset) size =
      field (((u16.seq (u16.seq u32)).pack header.2.2.2.2.2.2.2.2).1 ++ rest) offset size := by
  have hoffset : width + 20 + offset =
      4 + (2 + (width + (6 + (2 + (2 + (2 + (2 + offset))))))) := by omega
  rw [hoffset]
  calc
    _ = _ := field_seq_add u32 _ header rest _ size
    _ = _ := field_seq_add u16 _ header.2 rest _ size
    _ = _ := field_seq_add (chars width) _ header.2.2 rest _ size
    _ = _ := field_seq_add (chars 6) _ header.2.2.2 rest _ size
    _ = _ := field_seq_add i16 _ header.2.2.2.2 rest _ size
    _ = _ := field_seq_add i16 _ header.2.2.2.2.2 rest _ size
    _ = _ := field_seq_add u16 _ header.2.2.2.2.2.2 rest _ size
    _ = _ := field_seq_add u16 _ header.2.2.2.2.2.2.2 rest _ size

/-- The number of antennas is behind the name. -/
private theorem field_antennaCount :
    field (((headerFormat width).pack header).1 ++ rest) (width + 20) 2 =
    header.2.2.2.2.2.2.2.2.1.toNat := by
  rw [← littleEndian_pack_u16]
  exact (field_counts header rest 0 2).trans (field_seq_zero u16 _ _ rest)

/-- The number of subcarriers is behind that of antennas. -/
private theorem field_subcarrierCount :
    field (((headerFormat width).pack header).1 ++ rest) (width + 22) 2 =
      header.2.2.2.2.2.2.2.2.2.1.toNat := by
  rw [← littleEndian_pack_u16]
  calc
    _ = _ := field_counts header rest 2 2
    _ = _ := field_seq_add u16 _ _ rest 0 2
    _ = _ := field_seq_zero u16 _ _ rest

/-- The announced extent of a datagram, from its table of offsets. -/
private theorem extent_pack : extent (width + 28) (((headerFormat width).pack header).1 ++ rest) =
    width + 28 + 8 * header.nValues := by
  have hantenna : width + 28 - 8 = width + 20 := by omega
  have hsubcarrier : width + 28 - 6 = width + 22 := by omega
  rw [extent, hantenna, hsubcarrier, field_antennaCount, field_subcarrierCount]
  rfl

end Fields

/-- The table of header sizes and the table of formats agree. -/
private theorem headerSize_iff (version : UInt16) (size : Nat) :
    headerSize version.toNat = some size ↔
      ∃ width, headerByVersion version = some width ∧ size = width + 28 := by
  have hone : version = 1 ↔ version.toNat = 1 := UInt16.toNat_inj.symm
  have htwo : version = 2 ↔ version.toNat = 2 := UInt16.toNat_inj.symm
  unfold headerSize headerByVersion nameWidthV1 nameWidthV2
  simp only [hone, htwo]
  split
  · rename_i hversion
    simp [hversion, eq_comm]
  · rename_i hversion
    simp [hversion, eq_comm]
  · rename_i h1 h2
    simp [show version.toNat ≠ 1 from h1, show version.toNat ≠ 2 from h2]

/-- The header of any known version is at least 28 bytes. -/
private theorem headerSize_ge {version size : Nat} (h : headerSize version = some size) :
    28 ≤ size := by
  unfold headerSize at h
  split at h <;> cases h <;> omega

/-- A datagram announces its own length. -/
private theorem Datagram.extent_bytes (g : Datagram) (rest : List UInt8) :
    extent (g.width + 28) (g.bytes ++ rest) = g.bytes.length := by
  rw [g.length_bytes, bytes, List.append_assoc, extent_pack]

/-- A datagram meets the validation rules, whatever bytes follow. -/
private theorem Datagram.wellFormed (g : Datagram) (rest : List UInt8) :
    WellFormed (g.width + 28) (g.bytes ++ rest) := by
  have hmin : headerSizeV1 ≤ g.width + 28 := by
    rw [← size_headerFormat]
    exact headerSizeV1_le g.known
  have hv1 : headerSizeV1 = 44 := rfl
  have hlen := g.length_bytes
  have hbytes : g.bytes ++ rest = ((headerFormat g.width).pack g.header).1 ++
      ((g.values.flatMap fun word => (f32.pack word).1) ++ rest) := List.append_assoc ..
  constructor
  · rw [List.length_append]
    omega
  · rw [hbytes, field_magic, g.magic]
    rfl
  · rw [hbytes, field_version, headerSize_iff]
    exact ⟨g.width, g.known, rfl⟩
  · rw [g.extent_bytes, List.length_append]
    omega

/-- The byte strings that the table of offsets describes start with a datagram. -/
theorem wellFormed_iff {size : Nat} {data : List UInt8} :
    WellFormed size data ↔
      ∃ (g : Datagram) (rest : List UInt8), data = g.bytes ++ rest ∧ size = g.width + 28 := by
  constructor
  · intro h
    have hge := headerSize_ge h.version
    obtain ⟨width, rfl⟩ : ∃ width, size = width + 28 := ⟨size - 28, by omega⟩
    have hsize : (headerFormat width).size ≤ data.length := by
      rw [size_headerFormat]
      exact le_trans (Nat.le_add_right _ _) h.complete
    obtain ⟨header, hdata⟩ := (headerFormat width).exists_pack_append hsize
    -- the table's fields are those of the packed header
    have hmagic : header.1 = packetMagic := by
      apply UInt32.toNat_inj.mp
      rw [← field_magic header (data.drop (headerFormat width).size), ← hdata]
      exact h.magic
    obtain ⟨width', hknown, hwidth⟩ : ∃ width', headerByVersion header.2.1 = some width' ∧
        width + 28 = width' + 28 := by
      rw [← headerSize_iff, ← field_version header (data.drop (headerFormat width).size), ← hdata]
      exact h.version
    obtain rfl : width' = width := by omega
    have hextent := extent_pack header (data.drop (headerFormat width').size)
    rw [← hdata] at hextent
    have hcomplete := h.complete
    have hroom : 8 * header.nValues ≤ (data.drop (headerFormat width').size).length := by
      rw [List.length_drop, size_headerFormat]
      omega
    obtain ⟨g, rest, rfl, hg⟩ := Datagram.exists_of_pack header hdata hmagic hknown hroom
    exact ⟨g, rest, hg, rfl⟩
  · intro h
    obtain ⟨g, rest, rfl, rfl⟩ := h
    exact g.wellFormed rest

/-! ## Re-encoding -/

/-- A MAC address is read back from its text. -/
private theorem fromHex_transmitterMac (mac : List UInt8) :
    PyStr.fromHex ((transmitterMac mac).toList.filter (· ≠ ':')) = mac := by
  -- a hex pair has no colon, so the filter removes the separators only
  have hdigits : ∀ b : UInt8,
      (PyStr.hex 2 b.toNat).toList.filter (· ≠ ':') = (PyStr.hex 2 b.toNat).toList := by
    intro b
    have hlt := b.toNat_lt
    have hdigit : ∀ n < 16, Nat.digitChar n ≠ ':' := by decide
    rw [PyStr.hex_byte, String.toList_ofList]
    simp [hdigit (b.toNat / 16) (by omega), hdigit (b.toNat % 16) (by omega)]
  rw [transmitterMac, String.toList_intercalate, List.map_map]
  -- pair by pair, with the separator before each later one
  induction mac with
  | nil => rfl
  | cons b mac ih =>
    cases mac with
    | nil =>
      show PyStr.fromHex (((PyStr.hex 2 b.toNat).toList ++ []).filter (· ≠ ':')) = [b]
      rw [List.append_nil, hdigits, ← List.append_nil (PyStr.hex 2 b.toNat).toList,
        PyStr.fromHex_hex_append]
      rfl
    | cons c mac =>
      rw [List.map_cons, List.map_cons, List.intercalate_cons_cons, ← List.map_cons,
        List.filter_append, List.filter_append]
      show PyStr.fromHex ((PyStr.hex 2 b.toNat).toList.filter (· ≠ ':') ++ [] ++ _) = _
      rw [hdigits, List.append_nil, PyStr.fromHex_hex_append, ih]

/-- The two known versions have the header of their name width. -/
private theorem headerByVersion_nameWidth {version : UInt16} (h : version = 1 ∨ version = 2) :
    headerByVersion version = some (nameWidth version) := by
  cases h with
  | inl hone => rw [hone]; rfl
  | inr htwo => rw [htwo]; rfl

/-- The name width of a version is that of its header. -/
private theorem nameWidth_eq {version : UInt16} {width : Nat}
    (h : headerByVersion version = some width) : nameWidth version = width := by
  unfold headerByVersion at h
  unfold nameWidth
  split at h
  · rename_i hone
    rw [if_pos hone]
    exact Option.some.inj h
  · rename_i hone
    split at h
    · rw [if_neg hone]
      exact Option.some.inj h
    · cases h

/-- The datagram of a packet that a version's layout can hold. -/
def datagramOf (version : UInt16) (pkt : CsiPacket) (h : Encodable version pkt) : Datagram where
  width := nameWidth version
  header := packetHeader version pkt
  values := pkt.amplitude ++ pkt.phase
  magic := rfl
  known := headerByVersion_nameWidth h.known
  counted := by
    show (pkt.amplitude ++ pkt.phase).length =
      (UInt16.ofNat pkt.antennaCount).toNat * (UInt16.ofNat pkt.subcarrierCount).toNat * 2
    rw [List.length_append, h.amplitude, h.phase, UInt16.toNat_ofNat_of_lt' h.antennaCount,
      UInt16.toNat_ofNat_of_lt' h.subcarrierCount]
    omega

/-- The name field of a packet holds its name. -/
private theorem receiverName_pad {width : Nat} {name : String}
    (hascii : ∀ c ∈ name.toList, c.toNat < 128)
    (hlast : name.toList.getLast? ≠ some (Char.ofNat 0)) (hfits : name.length ≤ width) :
    receiverName (Bytes.pad width (PyStr.encodeAscii name)).1 = name := by
  have hlen : (PyStr.encodeAscii name).length ≤ width := by
    rw [PyStr.encodeAscii, List.length_map, String.length_toList]
    exact hfits
  have hzero : (PyStr.encodeAscii name).getLast? ≠ some 0 := by
    intro h
    rw [PyStr.encodeAscii, List.getLast?_map, Option.map_eq_some_iff] at h
    obtain ⟨c, hc, hbyte⟩ := h
    have hlt := hascii c (List.mem_of_getLast? hc)
    rw [← UInt8.toNat_inj, UInt8.toNat_ofNat', UInt8.toNat_zero] at hbyte
    have hnul : c.toNat = 0 := by omega
    exact hlast (by rw [hc, ← hnul, Char.ofNat_toNat])
  rw [receiverName, Bytes.toList_pad hlen, PyStr.rstrip_append_replicate_of_getLast hzero,
    PyStr.decodeAscii_encodeAscii hascii]

/-- The name field is rebuilt from the name that was read. -/
private theorem pad_receiverName {width : Nat} (raw : Bytes width) (hascii : ∀ b ∈ raw.1, b < 128) :
    Bytes.pad width (PyStr.encodeAscii (receiverName raw.1)) = raw := by
  have hstart : PyStr.rstrip 0 raw.1 <+: raw.1 := List.rdropWhile_prefix _ _
  have hname : PyStr.encodeAscii (receiverName raw.1) = PyStr.rstrip 0 raw.1 :=
    PyStr.encodeAscii_decodeAscii fun b hb => hascii b (hstart.subset hb)
  have hfits : (PyStr.rstrip 0 raw.1).length ≤ width := le_of_le_of_eq hstart.length_le raw.2
  have hpadding := PyStr.rstrip_append_padding 0 raw.1
  apply Subtype.ext
  rw [hname, Bytes.toList_pad hfits]
  rwa [raw.2] at hpadding

/-- A full field needs no padding. -/
private theorem Bytes.pad_self {n : Nat} (bs : Bytes n) : Bytes.pad n bs.1 = bs := by
  have hlen : bs.1.length = n := bs.2
  apply Subtype.ext
  rw [Bytes.toList_pad (le_of_eq hlen), hlen, Nat.sub_self, List.replicate_zero, List.append_nil]

/-- Parsing the encoding of a packet gives the packet back. -/
private theorem packet_datagramOf {version : UInt16} {pkt : CsiPacket} (h : Encodable version pkt) :
    (datagramOf version pkt h).packet = pkt := by
  obtain ⟨mac, hmac⟩ := h.mac
  have hname := receiverName_pad h.ascii h.noTrailingNul h.fits
  have hmacText : transmitterMac
      (Bytes.pad 6 (PyStr.fromHex (pkt.transmitterMac.toList.filter (· ≠ ':')))).1 =
        pkt.transmitterMac := by
    rw [hmac, fromHex_transmitterMac, Bytes.pad_self]
  have hrssi := Int16.toInt_ofInt_of_le h.rssi.1 h.rssi.2
  have hnoise := Int16.toInt_ofInt_of_le h.noiseFloor.1 h.noiseFloor.2
  have hchannel := UInt16.toNat_ofNat_of_lt' h.channel
  have hbandwidth := UInt16.toNat_ofNat_of_lt' h.bandwidthMhz
  have hantenna := UInt16.toNat_ofNat_of_lt' h.antennaCount
  have hsubcarrier := UInt16.toNat_ofNat_of_lt' h.subcarrierCount
  have htimestamp := UInt32.toNat_ofNat_of_lt' h.timestampUs
  show packetOf (packetHeader version pkt) (pkt.amplitude ++ pkt.phase) = pkt
  unfold packetOf packetHeader
  simp only [hname, hmacText, hrssi, hnoise, hchannel, hbandwidth, hantenna, hsubcarrier,
    htimestamp, ← h.amplitude, List.take_left, List.drop_left]

/-- Encoding the parsed packet gives the header back. -/
private theorem packetHeader_packetOf {version : UInt16} {header : Header (nameWidth version)}
    (values : List UInt32) (hmagic : header.1 = packetMagic) (hversion : header.2.1 = version)
    (hascii : ∀ b ∈ header.2.2.1.1, b < 128) :
    packetHeader version (packetOf header values) = header := by
  obtain ⟨magic, version', name, mac, rssi, noiseFloor, channel, bandwidthMhz, antennaCount,
    subcarrierCount, timestampUs⟩ := header
  obtain rfl : version' = version := hversion
  obtain rfl : magic = packetMagic := hmagic
  simp only [packetHeader, packetOf, pad_receiverName name hascii, fromHex_transmitterMac,
    Bytes.pad_self, Int16.ofInt_toInt, UInt16.ofNat_toNat, UInt32.ofNat_toNat]

/-- Re-encoding the packet of a datagram under its version gives its bytes back. -/
private theorem encodePacket_packet (g : Datagram) {version : UInt16}
    (hversion : g.header.2.1 = version)
    (hascii : ∀ b ∈ g.name, b < 128) : encodePacket version g.packet = g.bytes := by
  have hwidth : nameWidth version = g.width := by
    apply nameWidth_eq
    rw [← hversion]
    exact g.known
  obtain ⟨width, header, values, hmagic, hknown, hcounted⟩ := g
  obtain rfl : nameWidth version = width := hwidth
  have hvalues : (packetOf header values).amplitude ++ (packetOf header values).phase = values :=
    List.take_append_drop _ values
  unfold encodePacket Datagram.bytes Datagram.packet
  dsimp only
  rw [packetHeader_packetOf values hmagic hversion hascii, hvalues]

/-! ## The grammar of `parse_packet` -/

/-- The bytes of the name field under a header of `size` bytes. -/
def nameField (size : Nat) (data : List UInt8) : List UInt8 := (data.drop 6).take (size - 28)

/-- The name field of a datagram holds its name. -/
private theorem Datagram.nameField_bytes (g : Datagram) (rest : List UInt8) :
    nameField (g.width + 28) (g.bytes ++ rest) = g.name := by
  have hwidth : g.width + 28 - 28 = g.width := by omega
  have hname : g.name.length = g.width := g.header.2.2.1.2
  -- magic and version take six bytes, then the name follows
  have hheader : ∃ after, ((headerFormat g.width).pack g.header).1 =
      ((u32.seq u16).pack (g.header.1, g.header.2.1)).1 ++ (g.name ++ after) := by
    refine ⟨(((chars 6).seq <| i16.seq <| i16.seq <| u16.seq <| u16.seq <|
      u16.seq <| u16.seq u32).pack g.header.2.2.2).1, ?_⟩
    show (u32.pack g.header.1).1 ++ ((u16.pack g.header.2.1).1 ++ _) =
      ((u32.pack g.header.1).1 ++ (u16.pack g.header.2.1).1) ++ _
    rw [List.append_assoc]
    rfl
  have hstart : ((u32.seq u16).pack (g.header.1, g.header.2.1)).1.length = 6 :=
    ((u32.seq u16).pack (g.header.1, g.header.2.1)).2
  obtain ⟨after, hafter⟩ := hheader
  rw [nameField, hwidth, bytes, hafter, List.append_assoc, List.append_assoc,
    List.drop_left' hstart, List.append_assoc, List.take_left' hname]

/-- A datagram behind a well-formed byte string whose packet is known. -/
private theorem exists_datagram {size : Nat} {data : List UInt8} {pkt : CsiPacket}
    (h : parsePacket data = .ok pkt) (hwell : WellFormed size data) :
    ∃ (g : Datagram) (rest : List UInt8), data = g.bytes ++ rest ∧ size = g.width + 28 ∧
      pkt = g.packet := by
  obtain ⟨g, rest, hdata, hsize⟩ := wellFormed_iff.mp hwell
  rw [hdata, g.parsePacket_append] at h
  exact ⟨g, rest, hdata, hsize, (Except.ok.inj h).symm⟩

/-- The announced bytes of a datagram are the datagram. -/
private theorem Datagram.take_extent (g : Datagram) (rest : List UInt8) :
    (g.bytes ++ rest).take (extent (g.width + 28) (g.bytes ++ rest)) = g.bytes := by
  rw [g.extent_bytes, List.take_left]

/-- The parser answers with a packet or a `ParseError`. -/
private theorem parsePacket_cases (data : List UInt8) :
    (∃ pkt, parsePacket data = .ok pkt) ∨
      ∃ message, parsePacket data = .error (.parseError message) := by
  cases h : parsePacket data with
  | ok pkt => exact .inl ⟨pkt, rfl⟩
  | error failure =>
    obtain ⟨message, rfl⟩ := parsePacket_error h
    exact .inr ⟨message, rfl⟩

/-- A packet is returned for the byte strings that the table of offsets describes. -/
private theorem parsePacket_accepts_iff (data : List UInt8) :
    (∃ pkt, parsePacket data = .ok pkt) ↔ ∃ size, WellFormed size data := by
  constructor
  · intro h
    obtain ⟨pkt, h⟩ := h
    obtain ⟨g, rest, hdata, -⟩ := parsePacket_ok_iff.mp h
    exact ⟨g.width + 28, wellFormed_iff.mpr ⟨g, rest, hdata, rfl⟩⟩
  · intro h
    obtain ⟨size, h⟩ := h
    obtain ⟨g, rest, hdata, -⟩ := wellFormed_iff.mp h
    exact ⟨g.packet, parsePacket_ok_iff.mpr ⟨g, rest, hdata, rfl⟩⟩

/-- The packet is read from the announced extent. -/
private theorem parsePacket_of_take {size : Nat} {data other : List UInt8} {pkt : CsiPacket}
    (h : parsePacket data = .ok pkt) (hwell : WellFormed size data)
    (htake : other.take (extent size data) = data.take (extent size data)) :
    parsePacket other = .ok pkt := by
  obtain ⟨g, rest, rfl, rfl, rfl⟩ := exists_datagram h hwell
  rw [g.take_extent] at htake
  rw [← List.take_append_drop (extent (g.width + 28) (g.bytes ++ rest)) other, htake]
  exact g.parsePacket_append _

/-- Parsing the encoding of a packet gives the packet back. -/
private theorem parsePacket_encodePacket {version : UInt16} {pkt : CsiPacket}
    (h : Encodable version pkt) : parsePacket (encodePacket version pkt) = .ok pkt := by
  have hparse := (datagramOf version pkt h).parsePacket_append []
  rw [List.append_nil, packet_datagramOf h] at hparse
  exact hparse

/-- Encoding what was parsed gives the announced extent back. -/
private theorem encodePacket_parsePacket {size : Nat} {version : UInt16} {data : List UInt8}
    {pkt : CsiPacket} (h : parsePacket data = .ok pkt) (hwell : WellFormed size data)
    (hversion : version.toNat = field data 4 2) (hascii : ∀ b ∈ nameField size data, b < 128) :
    encodePacket version pkt = data.take (extent size data) := by
  obtain ⟨g, rest, rfl, rfl, rfl⟩ := exists_datagram h hwell
  have hfield : field (g.bytes ++ rest) 4 2 = g.header.2.1.toNat := by
    rw [Datagram.bytes, List.append_assoc, field_version]
  rw [hfield] at hversion
  rw [g.nameField_bytes] at hascii
  rw [g.take_extent]
  exact encodePacket_packet g (UInt16.toNat_inj.mp hversion).symm hascii

/-- What `parse_packet` does with a datagram: it returns a packet or raises a `ParseError`,
    and returns one for the byte strings that follow the layout of a known version.  What it
    returns is read from the announced extent.  The encoder inverts it. -/
theorem datagram_grammar :
    (∀ data, (∃ pkt, parsePacket data = .ok pkt) ∨
      ∃ message, parsePacket data = .error (.parseError message)) ∧
    (∀ data, (∃ pkt, parsePacket data = .ok pkt) ↔ ∃ size, WellFormed size data) ∧
    (∀ data pkt size, parsePacket data = .ok pkt → WellFormed size data →
      ∀ other : List UInt8, other.take (extent size data) = data.take (extent size data) →
        parsePacket other = .ok pkt) ∧
    (∀ version pkt, Encodable version pkt → parsePacket (encodePacket version pkt) = .ok pkt) ∧
    (∀ data pkt size (version : UInt16), parsePacket data = .ok pkt → WellFormed size data →
      version.toNat = field data 4 2 → (∀ b ∈ nameField size data, b < 128) →
        encodePacket version pkt = data.take (extent size data)) :=
  ⟨parsePacket_cases, parsePacket_accepts_iff,
    fun _ _ _ h hwell _ htake => parsePacket_of_take h hwell htake,
    fun _ _ h => parsePacket_encodePacket h,
    fun _ _ _ _ h hwell hversion hascii => encodePacket_parsePacket h hwell hversion hascii⟩

/-- The packet that `_build_packet` writes by default, with one value of each kind. -/
def groundPacket : CsiPacket where
  receiverName := "rx_ground"
  transmitterMac := "aa:bb:cc:dd:ee:ff"
  rssi := -47
  noiseFloor := -92
  channel := 6
  bandwidthMhz := 20
  antennaCount := 1
  subcarrierCount := 1
  timestampUs := 123456
  amplitude := [0x3f800000]
  phase := [0xbf000000]

/-- The tests' default packet can be encoded. -/
private theorem encodable_groundPacket : Encodable 2 groundPacket where
  known := .inr rfl
  ascii := by simp [groundPacket]
  noTrailingNul := by decide
  fits := by decide
  mac := ⟨⟨[0xaa, 0xbb, 0xcc, 0xdd, 0xee, 0xff], rfl⟩, by decide⟩
  rssi := by decide
  noiseFloor := by decide
  channel := by decide
  bandwidthMhz := by decide
  antennaCount := by decide
  subcarrierCount := by decide
  timestampUs := by decide
  amplitude := rfl
  phase := rfl

/-- Its encoding meets the validation rules. -/
private theorem wellFormed_groundPacket : WellFormed 60 (encodePacket 2 groundPacket) where
  minimum := by decide +kernel
  magic := by decide +kernel
  version := by decide +kernel
  complete := by decide +kernel

/-- The default packet is encoded and parsed back, with two bytes behind it. -/
theorem datagram_grammar_groundPacket :
    parsePacket (encodePacket 2 groundPacket ++ [1, 2]) = .ok groundPacket ∧
      encodePacket 2 groundPacket =
        (encodePacket 2 groundPacket).take (extent 60 (encodePacket 2 groundPacket)) := by
  have hparse := datagram_grammar.2.2.2.1 2 groundPacket encodable_groundPacket
  constructor
  · exact datagram_grammar.2.2.1 _ groundPacket 60 hparse wellFormed_groundPacket _
      (by decide +kernel)
  · exact datagram_grammar.2.2.2.2 _ groundPacket 60 2 hparse wellFormed_groundPacket
      (by decide +kernel) (by decide +kernel)

end Grimnir.Geri
