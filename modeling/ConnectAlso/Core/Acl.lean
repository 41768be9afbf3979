import Mathlib.Tactic.IntervalCases
import ConnectAlso.Misc.FirstMatch
import ConnectAlso.Net.Address

/-!
# Access control lists

Packet headers, rules and their evaluation (`crates/core/src/lib.rs`). A rule is a
conjunction of constraints, each of which an empty string or a zero leaves open; the
rules are sorted by priority and the first one that matches decides.
-/

namespace ConnectAlso.Core
open Misc

/-- `AclRule`. -/
structure AclRule where
  priority : UInt32
  action : String
  srcIp : String
  dstIp : String
  protocol : String
  srcPort : UInt16
  dstPort : UInt16
  deriving DecidableEq, Repr

/-- `PacketInfo`. -/
structure PacketInfo where
  srcIp : Ipv4Addr
  dstIp : Ipv4Addr
  protocol : UInt8
  srcPort : UInt16
  dstPort : UInt16
  deriving DecidableEq, Repr

/-- `PacketInfo::parse`. -/
def PacketInfo.parse (packet : List UInt8) : Option PacketInfo :=
  if hlength : 20 ≤ packet.length then
    if packet[0] >>> 4 ≠ 4 then none
    else
      let src : Ipv4Addr := ⟨packet[12], packet[13], packet[14], packet[15]⟩
      let dst : Ipv4Addr := ⟨packet[16], packet[17], packet[18], packet[19]⟩
      let protocol := packet[9]
      let ports : UInt16 × UInt16 :=
        if 24 ≤ packet.length ∧ (protocol = 6 ∨ protocol = 17) then
          let ihl := ((packet[0] &&& 0x0F) * 4).toNat
          if ihl + 4 ≤ packet.length then (beU16 packet ihl, beU16 packet (ihl + 2)) else (0, 0)
        else (0, 0)
      some { srcIp := src, dstIp := dst, protocol, srcPort := ports.1, dstPort := ports.2 }
  else none

/-- The check of `src_ip` in `matches`, and again of `dst_ip`: a text that is not an
    address excludes nothing. -/
def ipAllows (text : String) (ip : Ipv4Addr) : Bool :=
  if text = "" then true
  else
    match Ipv4Addr.parse text with
    | some addr => addr = ip
    | none => true

/-- The number of a protocol that a rule can name. -/
def protocolNumber (protocol : String) : Option UInt8 :=
  if protocol = "tcp" then some 6
  else if protocol = "udp" then some 17
  else if protocol = "icmp" then some 1
  else none

/-- The check of `protocol` in `matches`: an unknown name excludes every packet. -/
def protocolAllows (text : String) (protocol : UInt8) : Bool :=
  if text = "" then true
  else
    match protocolNumber text with
    | some number => protocol = number
    | none => false

/-- The check of `src_port` in `matches`, and again of `dst_port`. -/
def portAllows (set port : UInt16) : Bool := set = 0 || port = set

/-- `AclRule::matches`. -/
def AclRule.matches (rule : AclRule) (pkt : PacketInfo) : Bool :=
  ipAllows rule.srcIp pkt.srcIp && ipAllows rule.dstIp pkt.dstIp &&
    protocolAllows rule.protocol pkt.protocol &&
    portAllows rule.srcPort pkt.srcPort && portAllows rule.dstPort pkt.dstPort

/-- `evaluate_acls`; `sort_by_key` is stable. -/
def evaluateAcls (rules : List AclRule) (packet : List UInt8) : String :=
  match PacketInfo.parse packet with
  | none => "allow"
  | some pktInfo =>
    let sorted := rules.insertionSort fun a b => a.priority ≤ b.priority
    match sorted.find? fun rule => rule.matches pktInfo with
    | some rule => if rule.action = "deny" then "deny" else "allow"
    | none => "allow"

/-! ## What a rule says -/

/-- The protocol names of rules. -/
def Names (name : String) (number : UInt8) : Prop :=
  name = "tcp" ∧ number = 6 ∨ name = "udp" ∧ number = 17 ∨ name = "icmp" ∧ number = 1

/-- Every constraint that the rule sets holds of the packet. -/
structure AclRule.Applies (rule : AclRule) (pkt : PacketInfo) : Prop where
  srcIp : rule.srcIp ≠ "" → Ipv4Addr.parse rule.srcIp = some pkt.srcIp
  dstIp : rule.dstIp ≠ "" → Ipv4Addr.parse rule.dstIp = some pkt.dstIp
  protocol : rule.protocol ≠ "" → Names rule.protocol pkt.protocol
  srcPort : rule.srcPort ≠ 0 → pkt.srcPort = rule.srcPort
  dstPort : rule.dstPort ≠ 0 → pkt.dstPort = rule.dstPort

/-- The address field of a rule is empty or an address. -/
def ValidIp (text : String) : Prop := text = "" ∨ (Ipv4Addr.parse text).isSome = true

instance (text : String) : Decidable (ValidIp text) :=
  inferInstanceAs (Decidable (text = "" ∨ (Ipv4Addr.parse text).isSome = true))

theorem ipAllows_iff {text : String} (h : ValidIp text) (ip : Ipv4Addr) :
    ipAllows text ip = true ↔ (text ≠ "" → Ipv4Addr.parse text = some ip) := by
  unfold ipAllows
  by_cases hempty : text = ""
  · simp [hempty]
  · obtain ⟨addr, haddr⟩ := Option.isSome_iff_exists.mp (h.resolve_left hempty)
    simp [hempty, haddr]

/-- A text that is neither empty nor an address allows every address. -/
theorem ipAllows_of_not_valid {text : String} (h : ¬ ValidIp text) (ip : Ipv4Addr) :
    ipAllows text ip = true := by
  rw [ValidIp, not_or, Bool.not_eq_true, Option.isSome_eq_false_iff, Option.isNone_iff_eq_none] at h
  simp [ipAllows, h.1, h.2]

theorem protocolNumber_eq_some_iff {name : String} {number : UInt8} :
    protocolNumber name = some number ↔ Names name number := by
  unfold protocolNumber Names
  by_cases htcp : name = "tcp"
  · simp [htcp, eq_comm]
  by_cases hudp : name = "udp"
  · simp [hudp, eq_comm]
  by_cases hicmp : name = "icmp"
  · simp [hicmp, eq_comm]
  · simp [htcp, hudp, hicmp]

theorem protocolAllows_iff (text : String) (protocol : UInt8) :
    protocolAllows text protocol = true ↔ (text ≠ "" → Names text protocol) := by
  rw [← protocolNumber_eq_some_iff]
  unfold protocolAllows
  by_cases hempty : text = ""
  · simp [hempty]
  · cases hnumber : protocolNumber text with
    | none => simp [hempty]
    | some number => simp [hempty, eq_comm]

theorem portAllows_iff (set port : UInt16) :
    portAllows set port = true ↔ (set ≠ 0 → port = set) := by
  simp only [portAllows, Bool.or_eq_true, decide_eq_true_eq]
  exact or_iff_not_imp_left

theorem matches_iff_allows {rule : AclRule} {pkt : PacketInfo} :
    rule.matches pkt = true ↔
      ipAllows rule.srcIp pkt.srcIp = true ∧ ipAllows rule.dstIp pkt.dstIp = true ∧
        (rule.protocol ≠ "" → Names rule.protocol pkt.protocol) ∧
        (rule.srcPort ≠ 0 → pkt.srcPort = rule.srcPort) ∧
        (rule.dstPort ≠ 0 → pkt.dstPort = rule.dstPort) := by
  rw [← protocolAllows_iff, ← portAllows_iff, ← portAllows_iff]
  simp only [AclRule.matches, Bool.and_eq_true, and_assoc]

/-- A rule with valid address fields matches exactly the packets it applies to. -/
theorem matches_iff_applies {rule : AclRule} (hsrc : ValidIp rule.srcIp)
    (hdst : ValidIp rule.dstIp) (pkt : PacketInfo) :
    rule.matches pkt = true ↔ rule.Applies pkt := by
  rw [matches_iff_allows, ipAllows_iff hsrc, ipAllows_iff hdst]
  refine ⟨?_, ?_⟩
  · rintro ⟨hsrcIp, hdstIp, hprotocol, hsrcPort, hdstPort⟩
    exact ⟨hsrcIp, hdstIp, hprotocol, hsrcPort, hdstPort⟩
  · intro h
    exact ⟨h.srcIp, h.dstIp, h.protocol, h.srcPort, h.dstPort⟩

/-! ## Packets -/

/-- An IPv4 packet: a header of 5 to 15 words and, for TCP and UDP, at least the ports of
    the transport header. -/
structure Ipv4Packet where
  ihl : Nat
  ihl_ge : 5 ≤ ihl
  ihl_le : ihl ≤ 15
  /-- service type, length, identification, fragment offset and time to live -/
  front : List UInt8
  front_length : front.length = 8
  protocol : UInt8
  checksum : List UInt8
  checksum_length : checksum.length = 2
  src : Ipv4Addr
  dst : Ipv4Addr
  options : List UInt8
  options_length : options.length = 4 * (ihl - 5)
  l4 : List UInt8
  l4_ports : protocol = 6 ∨ protocol = 17 → 4 ≤ l4.length

namespace Ipv4Packet

/-- The header, options included. -/
def header (packet : Ipv4Packet) : List UInt8 :=
  [UInt8.ofNat (64 + packet.ihl)] ++ packet.front ++ [packet.protocol] ++ packet.checksum ++
    packet.src.octets ++ packet.dst.octets ++ packet.options

/-- The bytes of a packet. -/
def bytes (packet : Ipv4Packet) : List UInt8 := packet.header ++ packet.l4

/-- The 5-tuple of a packet; protocols without ports have ports 0. -/
def info (packet : Ipv4Packet) : PacketInfo where
  srcIp := packet.src
  dstIp := packet.dst
  protocol := packet.protocol
  srcPort := if packet.protocol = 6 ∨ packet.protocol = 17 then beU16 packet.l4 0 else 0
  dstPort := if packet.protocol = 6 ∨ packet.protocol = 17 then beU16 packet.l4 2 else 0

theorem length_header (packet : Ipv4Packet) : packet.header.length = 4 * packet.ihl := by
  have hge := packet.ihl_ge
  simp only [header, Ipv4Addr.octets, List.length_append, packet.front_length,
    packet.checksum_length, packet.options_length, List.length_cons, List.length_nil]
  omega

/-- The first byte of a header holds the version and the header length. -/
theorem versionIhl : ∀ ihl, 5 ≤ ihl → ihl ≤ 15 →
    UInt8.ofNat (64 + ihl) >>> 4 = 4 ∧ ((UInt8.ofNat (64 + ihl) &&& 0x0F) * 4).toNat = 4 * ihl := by
  intro ihl hge hle
  interval_cases ihl <;> decide

/-- A field of a packet that lies behind its header. -/
theorem beU16_bytes (packet : Ipv4Packet) (offset : Nat) :
    beU16 packet.bytes (4 * packet.ihl + offset) = beU16 packet.l4 offset := by
  rw [beU16, beU16, ← length_header, bytes, Nat.add_assoc, slice_append_right]

/-- The addresses start at byte 12. -/
theorem header_addresses (packet : Ipv4Packet) {k : Nat} {b : UInt8}
    (h : (packet.src.octets ++ packet.dst.octets ++ packet.options)[k]? = some b) :
    packet.header[12 + k]? = some b := by
  have hsplit : packet.header =
      ([UInt8.ofNat (64 + packet.ihl)] ++ packet.front ++ [packet.protocol] ++ packet.checksum) ++
        (packet.src.octets ++ packet.dst.octets ++ packet.options) := by
    simp only [header, List.append_assoc]
  have hdrop : packet.header.drop 12 =
      packet.src.octets ++ packet.dst.octets ++ packet.options := by
    rw [hsplit]
    exact List.drop_left' (by simp [packet.front_length, packet.checksum_length])
  rwa [← hdrop, List.getElem?_drop] at h

theorem length_bytes (packet : Ipv4Packet) :
    packet.bytes.length = 4 * packet.ihl + packet.l4.length := by
  rw [bytes, List.length_append, length_header]

/-- A byte of the header. -/
theorem getElem_bytes (packet : Ipv4Packet) {i : Nat} (hi : i < packet.bytes.length) {b : UInt8}
    (h : packet.header[i]? = some b) : packet.bytes[i] = b := by
  have hbytes : packet.bytes[i]? = some b := by
    rw [bytes, List.getElem?_append_left (List.getElem?_eq_some_iff.mp h).1, h]
  rwa [List.getElem?_eq_getElem hi, Option.some.injEq] at hbytes

/-- The ports that the parser reads behind the header. -/
theorem ports_bytes (packet : Ipv4Packet) :
    (if 24 ≤ packet.bytes.length ∧ (packet.protocol = 6 ∨ packet.protocol = 17) then
        if 4 * packet.ihl + 4 ≤ packet.bytes.length then
          (beU16 packet.bytes (4 * packet.ihl), beU16 packet.bytes (4 * packet.ihl + 2))
        else (0, 0)
      else (0, 0)) = (packet.info.srcPort, packet.info.dstPort) := by
  have hlength := packet.length_bytes
  have hge := packet.ihl_ge
  by_cases htransport : packet.protocol = 6 ∨ packet.protocol = 17
  · have hl4 := packet.l4_ports htransport
    rw [if_pos ⟨by omega, htransport⟩, if_pos (by omega), beU16_bytes packet 2,
      ← Nat.add_zero (4 * packet.ihl), beU16_bytes packet 0, info, if_pos htransport,
      if_pos htransport]
  · rw [if_neg fun h => htransport h.2, info, if_neg htransport, if_neg htransport]

/-- Parsing a packet gives its 5-tuple. -/
theorem parse_bytes (packet : Ipv4Packet) : PacketInfo.parse packet.bytes = some packet.info := by
  have hlength := packet.length_bytes
  have hge := packet.ihl_ge
  have hlong : 20 ≤ packet.bytes.length := by omega
  obtain ⟨hversion, hihl⟩ := versionIhl packet.ihl packet.ihl_ge packet.ihl_le
  -- the single bytes that the parser reads
  have h0 := packet.getElem_bytes (i := 0) (by omega) (b := UInt8.ofNat (64 + packet.ihl))
    (by simp [header])
  have h9 := packet.getElem_bytes (i := 9) (by omega) (b := packet.protocol)
    (by simp [header, packet.front_length])
  have h12 := packet.getElem_bytes (i := 12) (by omega) (@header_addresses packet 0 _ rfl)
  have h13 := packet.getElem_bytes (i := 13) (by omega) (@header_addresses packet 1 _ rfl)
  have h14 := packet.getElem_bytes (i := 14) (by omega) (@header_addresses packet 2 _ rfl)
  have h15 := packet.getElem_bytes (i := 15) (by omega) (@header_addresses packet 3 _ rfl)
  have h16 := packet.getElem_bytes (i := 16) (by omega) (@header_addresses packet 4 _ rfl)
  have h17 := packet.getElem_bytes (i := 17) (by omega) (@header_addresses packet 5 _ rfl)
  have h18 := packet.getElem_bytes (i := 18) (by omega) (@header_addresses packet 6 _ rfl)
  have h19 := packet.getElem_bytes (i := 19) (by omega) (@header_addresses packet 7 _ rfl)
  unfold PacketInfo.parse
  rw [dif_pos hlong]
  simp only [h0, h9, h12, h13, h14, h15, h16, h17, h18, h19, hversion, hihl, packet.ports_bytes,
    ne_eq, not_true_eq_false, if_false]
  rfl

end Ipv4Packet

/-! ## Evaluation -/

/-- A packet is denied when the first rule that matches it, by priority, says so. -/
theorem evaluateAcls_of_parse {rules : List AclRule} {packet : List UInt8} {pktInfo : PacketInfo}
    (h : PacketInfo.parse packet = some pktInfo) :
    evaluateAcls rules packet = "deny" ↔ ∃ rule,
      (rules.insertionSort fun a b => a.priority ≤ b.priority).find?
        (fun rule => rule.matches pktInfo) = some rule ∧ rule.action = "deny" := by
  unfold evaluateAcls
  rw [h]
  dsimp only
  cases (rules.insertionSort fun a b => a.priority ≤ b.priority).find?
      (fun rule => rule.matches pktInfo) with
  | none => simp
  | some rule =>
      by_cases hdeny : rule.action = "deny"
      · simp [hdeny]
      · simp [hdeny]

theorem priority_le_iff (a b : AclRule) :
    a.priority ≤ b.priority ↔ a.priority.toNat ≤ b.priority.toNat := UInt32.le_iff_toNat_le

/-- Rules of different priorities can be listed in any order. -/
theorem evaluateAcls_reorder {rules reordered : List AclRule}
    (h : ∀ priority, reordered.filter (fun rule => rule.priority = priority) =
      rules.filter fun rule => rule.priority = priority) (packet : List UInt8) :
    evaluateAcls reordered packet = evaluateAcls rules packet := by
  have hkey : ∀ a : AclRule,
      reordered.filter (fun rule => rule.priority.toNat = a.priority.toNat) =
        rules.filter fun rule => rule.priority.toNat = a.priority.toNat := by
    intro a
    simp only [UInt32.toNat_inj]
    exact h a.priority
  unfold evaluateAcls
  simp only [find?_insertionSort_congr priority_le_iff hkey]

/-- With address fields that are empty or addresses, a packet is denied exactly when, of
    the rules that apply to it, the least in (priority, position) exists and denies; and
    the order of rules with different priorities does not matter. -/
theorem evaluateAcls_eq_deny_iff (rules : List AclRule)
    (hrules : ∀ rule ∈ rules, ValidIp rule.srcIp ∧ ValidIp rule.dstIp) (packet : Ipv4Packet) :
    (evaluateAcls rules packet.bytes = "deny" ↔ ∃ i rule,
      LeastAt (fun rule => rule.priority.toNat) (fun rule => rule.Applies packet.info) rules i
        rule ∧ rule.action = "deny") ∧
    ∀ reordered, (∀ priority, reordered.filter (fun rule => rule.priority = priority) =
        rules.filter fun rule => rule.priority = priority) →
      evaluateAcls reordered packet.bytes = evaluateAcls rules packet.bytes := by
  refine ⟨?_, fun reordered h => evaluateAcls_reorder h packet.bytes⟩
  have happlies : ∀ rule ∈ rules,
      rule.matches packet.info = true ↔ rule.Applies packet.info := fun rule hrule =>
    matches_iff_applies (hrules rule hrule).1 (hrules rule hrule).2 packet.info
  rw [evaluateAcls_of_parse packet.parse_bytes, exists_comm]
  refine exists_congr fun rule => ?_
  rw [find?_insertionSort_iff_leastAt priority_le_iff, exists_and_right]
  exact and_congr (exists_congr fun i => leastAt_congr happlies) Iff.rfl

/-- Rules about SSH. The one of the least priority is about UDP, and the next one about
    another source; of the two with the same priority after it, the first denies. -/
def sshRules : List AclRule :=
  [{ priority := 20, action := "allow", srcIp := "", dstIp := "", protocol := "", srcPort := 0,
      dstPort := 0 },
    { priority := 10, action := "allow", srcIp := "10.0.0.9", dstIp := "", protocol := "tcp",
      srcPort := 0, dstPort := 22 },
    { priority := 10, action := "deny", srcIp := "10.0.0.1", dstIp := "10.0.0.2",
      protocol := "tcp", srcPort := 0, dstPort := 22 },
    { priority := 10, action := "allow", srcIp := "10.0.0.1", dstIp := "", protocol := "",
      srcPort := 50000, dstPort := 0 },
    { priority := 5, action := "allow", srcIp := "", dstIp := "10.0.0.2", protocol := "udp",
      srcPort := 0, dstPort := 0 }]

/-- A TCP packet from port 50000 to port 22, with a word of IP options. -/
def sshPacket : Ipv4Packet where
  ihl := 6
  ihl_ge := by decide
  ihl_le := by decide
  front := [0, 0, 28, 0, 0, 0, 0, 64]
  front_length := rfl
  protocol := 6
  checksum := [0x1c, 0x46]
  checksum_length := rfl
  src := ⟨10, 0, 0, 1⟩
  dst := ⟨10, 0, 0, 2⟩
  options := [1, 1, 1, 0]
  options_length := rfl
  l4 := [0xc3, 0x50, 0, 22]
  l4_ports := fun _ => Nat.le_refl 4

/-- It is denied, by the third rule. -/
theorem sshPacket_denied : evaluateAcls sshRules sshPacket.bytes = "deny" := by
  have hvalid : ∀ rule ∈ sshRules, ValidIp rule.srcIp ∧ ValidIp rule.dstIp := by decide +kernel
  have happlies : ∀ rule ∈ sshRules,
      rule.matches sshPacket.info = true ↔ rule.Applies sshPacket.info := fun rule hrule =>
    matches_iff_applies (hvalid rule hrule).1 (hvalid rule hrule).2 sshPacket.info
  refine (evaluateAcls_eq_deny_iff sshRules hvalid sshPacket).1.mpr ⟨2, _, ⟨rfl, ?_, ?_⟩, rfl⟩
  · exact (happlies _ (by decide)).mp (by decide +kernel)
  · intro j rule hj hrule
    have hmatches := (happlies rule (List.mem_of_getElem? hj)).mpr hrule
    obtain ⟨hlt, rfl⟩ := List.getElem?_eq_some_iff.mp hj
    have hleast : ∀ j (hj : j < sshRules.length), sshRules[j].matches sshPacket.info = true →
        10 < sshRules[j].priority.toNat ∨ 10 = sshRules[j].priority.toNat ∧ 2 ≤ j := by
      decide +kernel
    exact hleast j hlt hmatches

/-! ## Malformed rules -/

/-- Every text allows some address: the one it denotes, or any. -/
theorem ipAllows_parsed (text : String) :
    ipAllows text ((Ipv4Addr.parse text).getD .unspecified) = true := by
  by_cases hvalid : ValidIp text
  · rw [ipAllows_iff hvalid]
    intro hne
    obtain ⟨addr, haddr⟩ := Option.isSome_iff_exists.mp (hvalid.resolve_left hne)
    rw [haddr, Option.getD_some]
  · exact ipAllows_of_not_valid hvalid _

theorem validIp_of_parse {text : String} {ip : Ipv4Addr}
    (h : text ≠ "" → Ipv4Addr.parse text = some ip) : ValidIp text := by
  by_cases hempty : text = ""
  · exact Or.inl hempty
  · refine Or.inr ?_
    rw [h hempty]
    rfl

/-- The protocol names that exclude no packet or name a protocol. -/
theorem names_protocolNumber {name : String} (h : name ∈ ["", "tcp", "udp", "icmp"])
    (hne : name ≠ "") : Names name ((protocolNumber name).getD 0) := by
  simp only [List.mem_cons, List.not_mem_nil, or_false] at h
  rcases h with rfl | rfl | rfl | rfl
  · exact absurd rfl hne
  · exact Or.inl ⟨rfl, rfl⟩
  · exact Or.inr (Or.inl ⟨rfl, rfl⟩)
  · exact Or.inr (Or.inr ⟨rfl, rfl⟩)

theorem Names.mem {name : String} {number : UInt8} (h : Names name number) :
    name ∈ ["", "tcp", "udp", "icmp"] := by
  rcases h with ⟨rfl, -⟩ | ⟨rfl, -⟩ | ⟨rfl, -⟩
  · decide
  · decide
  · decide

/-- A rule matches only packets it applies to exactly when its address fields are empty or
    addresses, or its protocol is not one that a packet can have. -/
theorem matches_only_applies_iff (rule : AclRule) :
    (∀ pkt, rule.matches pkt = true → rule.Applies pkt) ↔
      ValidIp rule.srcIp ∧ ValidIp rule.dstIp ∨
        rule.protocol ∉ ["", "tcp", "udp", "icmp"] := by
  refine ⟨?_, ?_⟩
  · intro honly
    by_cases hprotocol : rule.protocol ∈ ["", "tcp", "udp", "icmp"]
    · -- the packet that meets every constraint the code looks at
      have happlies := honly
        { srcIp := (Ipv4Addr.parse rule.srcIp).getD .unspecified
          dstIp := (Ipv4Addr.parse rule.dstIp).getD .unspecified
          protocol := (protocolNumber rule.protocol).getD 0
          srcPort := rule.srcPort
          dstPort := rule.dstPort }
        (matches_iff_allows.mpr ⟨ipAllows_parsed _, ipAllows_parsed _,
          names_protocolNumber hprotocol, fun _ => rfl, fun _ => rfl⟩)
      exact Or.inl ⟨validIp_of_parse happlies.srcIp, validIp_of_parse happlies.dstIp⟩
    · exact Or.inr hprotocol
  · intro hrule pkt hmatches
    rcases hrule with ⟨hsrc, hdst⟩ | hprotocol
    · exact (matches_iff_applies hsrc hdst pkt).mp hmatches
    · have hne : rule.protocol ≠ "" := fun hempty => hprotocol (by simp [hempty])
      exact absurd ((matches_iff_allows.mp hmatches).2.2.1 hne).mem hprotocol

/-- A rule for the sources 10.0.0.0/8. -/
def cidrRule : AclRule :=
  { priority := 10, action := "deny", srcIp := "10.0.0.0/8", dstIp := "", protocol := "",
    srcPort := 0, dstPort := 0 }

/-- It matches a packet from elsewhere. -/
theorem cidrRule_matches_other_source :
    let pkt : PacketInfo :=
      { srcIp := ⟨192, 168, 0, 1⟩, dstIp := ⟨10, 0, 0, 2⟩, protocol := 6, srcPort := 1000,
        dstPort := 443 }
    cidrRule.matches pkt = true ∧ ¬ cidrRule.Applies pkt := by
  intro pkt
  have hparse : Ipv4Addr.parse cidrRule.srcIp = none := by decide +kernel
  refine ⟨by decide +kernel, ?_⟩
  intro happlies
  have hsrc := happlies.srcIp (by decide)
  rw [hparse] at hsrc
  cases hsrc

end ConnectAlso.Core
