import ConnectAlso.Core.Acl

/-!
# Which packets have an IPv4 header

`PacketInfo::parse` (`crates/core/src/lib.rs`) looks at the length of the fixed header and
at the version; the header length in the low half of the first byte only tells it where
the ports are. Here is what it accepts and where it reads, for all byte strings, beside
what a valid header is.
-/

namespace ConnectAlso.Core
open Misc

/-- The version in the first byte of a packet. -/
def version (packet : List UInt8) : Nat := (packet.headD 0).toNat / 16

/-- The header length in the first byte of a packet, in words of four bytes. -/
def ihl (packet : List UInt8) : Nat := (packet.headD 0).toNat % 16

/-- The packet starts with a whole IPv4 header. -/
def ValidHeader (packet : List UInt8) : Prop :=
  20 ≤ packet.length ∧ version packet = 4 ∧ 5 ≤ ihl packet ∧ 4 * ihl packet ≤ packet.length

instance (packet : List UInt8) : Decidable (ValidHeader packet) :=
  inferInstanceAs (Decidable (_ ∧ _ ∧ _ ∧ _))

/-- The ports of a TCP or UDP packet are the two words behind its header, which is no
    shorter than the fixed one; they are 0 where the packet ends before. -/
def PortsBehindHeader (packet : List UInt8) (info : PacketInfo) : Prop :=
  info.protocol = 6 ∨ info.protocol = 17 →
    if 4 * ihl packet + 4 ≤ packet.length then
      20 ≤ 4 * ihl packet ∧ info.srcPort = beU16 packet (4 * ihl packet) ∧
        info.dstPort = beU16 packet (4 * ihl packet + 2)
    else info.srcPort = 0 ∧ info.dstPort = 0

/-- The packet is parsed when its header is valid, and its ports are those behind the
    header. -/
def ParsesExactly (packet : List UInt8) : Prop :=
  ((PacketInfo.parse packet).isSome = true ↔ ValidHeader packet) ∧
    ∀ info, PacketInfo.parse packet = some info → PortsBehindHeader packet info

/-! ## The first byte -/

theorem shiftRight_four_eq_iff (b : UInt8) : b >>> 4 = 4 ↔ b.toNat / 16 = 4 := by
  rw [← UInt8.toNat_inj, UInt8.toNat_shiftRight]
  change b.toNat >>> (4 % 8) = 4 ↔ _
  rw [Nat.shiftRight_eq_div_pow]

/-- The product does not overflow. -/
theorem toNat_headerBytes (b : UInt8) : ((b &&& 0x0F) * 4).toNat = 4 * (b.toNat % 16) := by
  have hlow : (b &&& 0x0F).toNat = b.toNat % 16 := by
    rw [UInt8.toNat_and]
    exact Nat.and_two_pow_sub_one_eq_mod b.toNat 4
  rw [UInt8.toNat_mul, hlow]
  change b.toNat % 16 * 4 % 256 = _
  omega

theorem headD_eq_getElem {packet : List UInt8} (h : 0 < packet.length) :
    packet.headD 0 = packet[0] := by
  cases packet with
  | nil => exact absurd h (by decide)
  | cons b rest => rfl

/-! ## The parser -/

/-- The ports as the parser reads them, once the fixed header is there. -/
def portsRead (packet : List UInt8) (protocol : UInt8) : UInt16 × UInt16 :=
  if 24 ≤ packet.length ∧ (protocol = 6 ∨ protocol = 17) then
    if 4 * ihl packet + 4 ≤ packet.length then
      (beU16 packet (4 * ihl packet), beU16 packet (4 * ihl packet + 2))
    else (0, 0)
  else (0, 0)

/-- The parser refuses short packets and other versions, and nothing else. -/
theorem parse_isSome_iff (packet : List UInt8) :
    (PacketInfo.parse packet).isSome = true ↔ 20 ≤ packet.length ∧ version packet = 4 := by
  unfold PacketInfo.parse
  by_cases hlength : 20 ≤ packet.length
  · have hversion : packet[0] >>> 4 = 4 ↔ version packet = 4 := by
      rw [shiftRight_four_eq_iff, version, headD_eq_getElem (by omega)]
    rw [dif_pos hlength]
    by_cases hfour : packet[0] >>> 4 = 4
    · rw [if_neg (not_not_intro hfour)]
      exact ⟨fun _ => ⟨hlength, hversion.mp hfour⟩, fun _ => rfl⟩
    · rw [if_pos hfour]
      exact ⟨fun h => (by cases h), fun h => absurd (hversion.mpr h.2) hfour⟩
  · rw [dif_neg hlength]
    exact ⟨fun h => (by cases h), fun h => absurd h.1 hlength⟩

/-- Where the parser reads the ports. -/
theorem ports_of_parse {packet : List UInt8} {info : PacketInfo}
    (h : PacketInfo.parse packet = some info) :
    (info.srcPort, info.dstPort) = portsRead packet info.protocol := by
  obtain ⟨hlength, -⟩ := (parse_isSome_iff packet).mp (by rw [h]; rfl)
  have hihl : ((packet[0] &&& 0x0F) * 4).toNat = 4 * ihl packet := by
    rw [toNat_headerBytes, ihl, headD_eq_getElem (by omega)]
  unfold PacketInfo.parse at h
  rw [dif_pos hlength] at h
  split at h
  · cases h
  · obtain rfl := Option.some.inj h
    rw [portsRead, ← hihl]

/-- The ports of a TCP or UDP packet are those behind its header exactly when the header
    has at least the five words of the fixed one. -/
theorem portsBehindHeader_iff {packet : List UInt8} {info : PacketInfo}
    (h : PacketInfo.parse packet = some info) :
    PortsBehindHeader packet info ↔
      (info.protocol = 6 ∨ info.protocol = 17 → 5 ≤ ihl packet) := by
  obtain ⟨hlength, -⟩ := (parse_isSome_iff packet).mp (by rw [h]; rfl)
  refine imp_congr_right fun htransport => ?_
  have hports := ports_of_parse h
  unfold portsRead at hports
  by_cases hfour : 4 * ihl packet + 4 ≤ packet.length
  · rw [if_pos hfour]
    refine ⟨fun hbehind => by omega, fun hihl => ?_⟩
    rw [if_pos ⟨by omega, htransport⟩, if_pos hfour] at hports
    exact ⟨by omega, congrArg Prod.fst hports, congrArg Prod.snd hports⟩
  · rw [if_neg hfour, ite_self] at hports
    rw [if_neg hfour]
    exact ⟨fun _ => by omega, fun _ => ⟨congrArg Prod.fst hports, congrArg Prod.snd hports⟩⟩

/-- The parser is exact on a packet, save for one that is long enough for the fixed header
    and has version 4, but states a header length that is below five words or beyond the
    end of the packet: that one is accepted. -/
theorem parsesExactly_iff (packet : List UInt8) :
    ParsesExactly packet ↔
      ¬ (20 ≤ packet.length ∧ version packet = 4 ∧
        (ihl packet < 5 ∨ packet.length < 4 * ihl packet)) := by
  constructor
  · rintro ⟨hiff, -⟩ ⟨hlength, hversion, hihl⟩
    have hvalid := hiff.mp ((parse_isSome_iff packet).mpr ⟨hlength, hversion⟩)
    obtain ⟨-, -, hge, hle⟩ := hvalid
    omega
  · intro hheader
    have hiff : (PacketInfo.parse packet).isSome = true ↔ ValidHeader packet := by
      rw [parse_isSome_iff]
      constructor
      · rintro ⟨hlength, hversion⟩
        refine ⟨hlength, hversion, ?_⟩
        by_contra hihl
        exact hheader ⟨hlength, hversion, by omega⟩
      · exact fun hvalid => ⟨hvalid.1, hvalid.2.1⟩
    refine ⟨hiff, fun info h => (portsBehindHeader_iff h).mpr fun _ => ?_⟩
    exact (hiff.mp (by rw [h]; rfl)).2.2.1

/-- A TCP segment to port 22 of 10.0.0.2 under a header of four words. -/
def shortIhlPacket : List UInt8 :=
  [0x44, 0, 0, 24, 0, 0, 0, 0, 64, 6, 0, 0, 10, 0, 0, 1, 10, 0, 0, 2, 0, 0, 0, 22]

/-- It is accepted, and the ports are the destination address. -/
theorem not_parsesExactly_shortIhlPacket :
    ¬ ParsesExactly shortIhlPacket ∧
      (PacketInfo.parse shortIhlPacket).map (fun info => (info.srcPort, info.dstPort)) =
        some (2560, 2) := by
  refine ⟨fun h => ?_, by decide⟩
  have hvalid : ValidHeader shortIhlPacket := h.1.mp (by decide)
  exact absurd hvalid (by decide)

end ConnectAlso.Core
