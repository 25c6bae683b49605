import Grimnir.ForStd.Except
import Grimnir.Native.Parser

/-!
# `parse_packet` reads what was packed

A datagram that packs a header of a known version and then as many values as the header
announces is parsed to exactly that header and those values, whatever follows them.

## Key results

- `parsePacket_pack`: the packet of a packed header and its packed values
-/

namespace Grimnir.Geri

open Struct Struct.Format

theorem size_headerFormat (width : Nat) : (headerFormat width).size = width + 28 := by
  show 4 + (2 + (width + (6 + (2 + (2 + (2 + (2 + (2 + (2 + 4))))))))) = width + 28
  omega

theorem headerSizeV1_le {version : UInt16} {width : Nat}
    (h : headerByVersion version = some width) :
    headerSizeV1 ≤ (headerFormat width).size := by
  rw [headerSizeV1, size_headerFormat, size_headerFormat]
  -- version 1 is the shortest header
  unfold headerByVersion at h
  split at h
  · cases h
    exact le_refl _
  · split at h
    · cases h
      decide
    · cases h

/-- A header starts with its magic and its version. -/
theorem pack_headerFormat {width : Nat} (header : Header width) :
    ∃ rest, ((headerFormat width).pack header).1 =
      ((u32.seq u16).pack (header.1, header.2.1)).1 ++ rest := by
  refine ⟨(((chars width).seq <| (chars 6).seq <| i16.seq <| i16.seq <| u16.seq <| u16.seq <|
    u16.seq <| u16.seq u32).pack header.2.2).1, ?_⟩
  show (u32.pack header.1).1 ++ ((u16.pack header.2.1).1 ++ _) =
    ((u32.pack header.1).1 ++ (u16.pack header.2.1).1) ++ _
  rw [List.append_assoc]

/-- `unpack` where a value was packed. -/
theorem unpack_pack {α : Type} (f : Format α) (a : α) {before : List UInt8} {offset : Nat}
    (after : List UInt8) (hoffset : before.length = offset) :
    unpack f (before ++ ((f.pack a).1 ++ after)) offset = .ok a := by
  unfold unpack
  rw [unpackFrom_pack f a hoffset]
  rfl

/-- `unpack` of a value packed at the start. -/
theorem unpack_pack_zero {α : Type} (f : Format α) (a : α) (after : List UInt8) :
    unpack f ((f.pack a).1 ++ after) 0 = .ok a := by
  have h := unpack_pack f a after (show ([] : List UInt8).length = 0 from rfl)
  rwa [List.nil_append] at h

/-- What `parsePacket` needs of a datagram to return a packet. -/
private theorem parsePacket_of_unpack {width : Nat} {data : List UInt8} {magic : UInt32}
    {version : UInt16} {header : Header width} {flat : Sized UInt32 (header.nValues * 2)}
    (hstart : unpack (u32.seq u16) data 0 = .ok (magic, version)) (hmagic : magic = packetMagic)
    (hversion : headerByVersion version = some width)
    (hheader : unpack (headerFormat width) data 0 = .ok header)
    (hlen : (headerFormat width).size + header.nValues * 4 * 2 ≤ data.length)
    (hflat : unpack (f32.array (header.nValues * 2)) data (headerFormat width).size = .ok flat) :
    parsePacket data = .ok (packetOf header flat.1) := by
  have hmin : headerSizeV1 ≤ (headerFormat width).size := headerSizeV1_le hversion
  have hv1 : ¬ data.length < headerSizeV1 := by omega
  have hsize : ¬ data.length < (headerFormat width).size := by omega
  have hexpected : ¬ data.length < (headerFormat width).size + header.nValues * 4 * 2 := by
    omega
  unfold parsePacket
  rw [if_neg hv1, hstart]
  simp only [bind, Except.bind, pure, Except.pure, ne_eq, hmagic, not_true_eq_false, if_false,
    hversion, if_neg hsize, hheader, if_neg hexpected, hflat]

/-- What a datagram has gone through when `parsePacket` returns a packet. -/
theorem parsePacket_ok {data : List UInt8} {pkt : CsiPacket} (h : parsePacket data = .ok pkt) :
    ∃ (magic : UInt32) (version : UInt16) (width : Nat) (header : Header width)
      (flat : Sized UInt32 (header.nValues * 2)),
      unpack (u32.seq u16) data 0 = .ok (magic, version) ∧ magic = packetMagic ∧
        headerByVersion version = some width ∧ unpack (headerFormat width) data 0 = .ok header ∧
        (headerFormat width).size + header.nValues * 4 * 2 ≤ data.length ∧
        unpack (f32.array (header.nValues * 2)) data (headerFormat width).size = .ok flat ∧
        pkt = packetOf header flat.1 := by
  -- check by check, in the order of the source
  unfold parsePacket at h
  split at h
  · cases h
  · obtain ⟨⟨magic, version⟩, hstart, h⟩ := Except.bind_eq_ok.mp h
    dsimp only at h
    -- magic, version, header, sizes, values
    split at h
    · cases h
    · rename_i hmagic
      split at h
      · cases h
      · rename_i width hversion
        split at h
        · cases h
        · obtain ⟨header, hheader, h⟩ := Except.bind_eq_ok.mp h
          split at h
          · cases h
          · rename_i hlen
            obtain ⟨flat, hflat, h⟩ := Except.bind_eq_ok.mp h
            exact ⟨magic, version, width, header, flat, hstart, not_not.mp hmagic, hversion,
              hheader, not_lt.mp hlen, hflat, (Except.ok.inj h).symm⟩

/-- The packet of a packed header and its packed values. -/
theorem parsePacket_pack {width : Nat} (header : Header width) (values : List UInt32)
    (after : List UInt8) (hmagic : header.1 = packetMagic)
    (hversion : headerByVersion header.2.1 = some width)
    (hvalues : values.length = header.nValues * 2) :
    parsePacket (((headerFormat width).pack header).1 ++
      ((values.flatMap fun word => (f32.pack word).1) ++ after)) =
        .ok (packetOf header values) := by
  have harray : (values.flatMap fun word => (f32.pack word).1) =
      ((f32.array (header.nValues * 2)).pack ⟨values, hvalues⟩).1 :=
    (toList_pack_array f32 ⟨values, hvalues⟩).symm
  have hbytes : (values.flatMap fun word => (f32.pack word).1).length =
      header.nValues * 2 * 4 := by
    rw [length_flatMap_pack, hvalues]
    rfl
  -- magic and version are read before the width of the name is known
  have hstart : unpack (u32.seq u16) (((headerFormat width).pack header).1 ++
      ((values.flatMap fun word => (f32.pack word).1) ++ after)) 0 =
        .ok (header.1, header.2.1) := by
    obtain ⟨rest, hrest⟩ := pack_headerFormat header
    rw [hrest, List.append_assoc]
    exact unpack_pack_zero (u32.seq u16) (header.1, header.2.1) _
  have hflat : unpack (f32.array (header.nValues * 2)) (((headerFormat width).pack header).1 ++
      ((values.flatMap fun word => (f32.pack word).1) ++ after)) (headerFormat width).size =
        .ok ⟨values, hvalues⟩ := by
    rw [harray]
    exact unpack_pack _ _ after ((headerFormat width).pack header).2
  -- what `unpack` reads is what was packed at that offset
  refine parsePacket_of_unpack hstart hmagic hversion (unpack_pack_zero _ header _) ?_ hflat
  rw [List.length_append, List.length_append, ((headerFormat width).pack header).2, hbytes]
  omega

end Grimnir.Geri
