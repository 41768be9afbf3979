import Mathlib.Data.List.Basic
import Mathlib.Data.UInt
import ConnectAlso.Misc.Bytes

/-!
# Addresses and identifiers

`std::net::Ipv4Addr` with its text form, `std::net::SocketAddr` and `uuid::Uuid`,
as far as the services use them. The control service stores addresses as text
(`services/control/src/db.rs:80-94`), so the text form and its parser are part of
the model: `parse_toString` says that what is written can be read back, and
`toString_inj` that two addresses never share a text.
-/

namespace ConnectAlso

/-! ## IPv4 addresses -/

/-- `std::net::Ipv4Addr`: the four octets in network order. -/
@[ext] structure Ipv4Addr where
  o0 : UInt8
  o1 : UInt8
  o2 : UInt8
  o3 : UInt8
  deriving DecidableEq, Repr

namespace Ipv4Addr

/-- `Ipv4Addr::octets`. -/
def octets (a : Ipv4Addr) : List UInt8 := [a.o0, a.o1, a.o2, a.o3]

theorem octets_inj {a b : Ipv4Addr} : a.octets = b.octets ↔ a = b := by
  constructor
  · intro h
    simp only [octets, List.cons.injEq, and_true] at h
    exact Ipv4Addr.ext h.1 h.2.1 h.2.2.1 h.2.2.2
  · rintro rfl
    rfl

/-- `Ipv4Addr::UNSPECIFIED`. -/
def unspecified : Ipv4Addr := ⟨0, 0, 0, 0⟩

/-- `u32::from_be_bytes(addr.octets())`. -/
def toU32 (a : Ipv4Addr) : UInt32 := UInt32.ofNat (Misc.ofBeBytes a.octets)

/-- `Ipv4Addr::from(n.to_be_bytes())`. -/
def ofU32 (n : UInt32) : Ipv4Addr :=
  ⟨UInt8.ofNat (n.toNat / 256 ^ 3), UInt8.ofNat (n.toNat / 256 ^ 2),
    UInt8.ofNat (n.toNat / 256), UInt8.ofNat n.toNat⟩

theorem octets_ofU32 (n : UInt32) : (ofU32 n).octets = Misc.beBytes 4 n.toNat := by
  simp [octets, ofU32, Misc.beBytes, Misc.leBytes, Nat.div_div_eq_div_mul]

/-- Forming an address from a number and reading the number back. -/
@[simp] theorem toU32_ofU32 (n : UInt32) : (ofU32 n).toU32 = n := by
  have hn := n.toNat_lt
  rw [toU32, octets_ofU32, Misc.ofBeBytes_beBytes, Nat.mod_eq_of_lt (by omega)]
  exact UInt32.ofNat_toNat

/-- Reading the number of an address and forming the address again. -/
@[simp] theorem ofU32_toU32 (a : Ipv4Addr) : ofU32 a.toU32 = a := by
  have hlt : Misc.ofBeBytes a.octets < 256 ^ 4 := Misc.ofBeBytes_lt a.octets
  rw [← octets_inj, octets_ofU32, toU32, UInt32.toNat_ofNat', Nat.mod_eq_of_lt (by omega)]
  exact Misc.beBytes_ofBeBytes a.octets

/-! ### Text form -/

/-- The `Display` form of one octet: decimal, without leading zeros. -/
def octetText (o : UInt8) : List Char := Nat.toDigits 10 o.toNat

/-- `Ipv4Addr::to_string`: the octets in decimal, separated by dots. -/
def toString (a : Ipv4Addr) : String :=
  String.ofList (['.'].intercalate (a.octets.map octetText))

/-- One group of `Ipv4Addr::from_str`: one to three decimal digits, no leading
    zero in a longer group, and a value of at most 255. -/
def parseOctet (digits : List Char) : Option UInt8 :=
  if digits.length = 0 ∨ 3 < digits.length then none
  else if ¬ digits.all Char.isDigit then none
  else if 1 < digits.length ∧ digits.head? = some '0' then none
  else
    let value := digits.foldl (fun value digit => 10 * value + (digit.toNat - '0'.toNat)) 0
    if 255 < value then none else some (UInt8.ofNat value)

/-- `Ipv4Addr::from_str`: exactly four groups separated by dots. -/
def parse (text : String) : Option Ipv4Addr :=
  match text.toList.splitOn '.' with
  | [g0, g1, g2, g3] => do
      let o0 ← parseOctet g0
      let o1 ← parseOctet g1
      let o2 ← parseOctet g2
      let o3 ← parseOctet g3
      return ⟨o0, o1, o2, o3⟩
  | _ => none

private theorem parseOctet_digits :
    ∀ n < 256, parseOctet (Nat.toDigits 10 n) = some (UInt8.ofNat n) := by
  decide +kernel

private theorem dot_not_mem_digits : ∀ n < 256, '.' ∉ Nat.toDigits 10 n := by
  decide +kernel

@[simp] theorem parseOctet_octetText (o : UInt8) : parseOctet (octetText o) = some o := by
  have h := parseOctet_digits o.toNat o.toNat_lt
  rwa [UInt8.ofNat_toNat] at h

theorem dot_not_mem_octetText (o : UInt8) : '.' ∉ octetText o :=
  dot_not_mem_digits o.toNat o.toNat_lt

/-- Parsing the text form of an address gives the address. -/
@[simp] theorem parse_toString (a : Ipv4Addr) : parse a.toString = some a := by
  have hdots : ∀ group ∈ a.octets.map octetText, '.' ∉ group := by
    intro group hgroup
    obtain ⟨o, -, rfl⟩ := List.mem_map.mp hgroup
    exact dot_not_mem_octetText o
  have hgroups : a.toString.toList.splitOn '.' = a.octets.map octetText := by
    rw [toString, String.toList_ofList]
    exact List.splitOn_intercalate '.' hdots (by simp [octets])
  rw [parse, hgroups]
  simp [octets]

/-- Different addresses have different texts. -/
theorem toString_inj {a b : Ipv4Addr} : a.toString = b.toString ↔ a = b := by
  constructor
  · intro h
    have hparse := congrArg parse h
    rw [parse_toString, parse_toString] at hparse
    exact Option.some.inj hparse
  · rintro rfl
    rfl

/-- No address has the empty text. -/
theorem toString_ne_empty (a : Ipv4Addr) : a.toString ≠ "" := by
  intro h
  have hempty : parse "" = none := by decide
  have hparse := parse_toString a
  rw [h, hempty] at hparse
  exact absurd hparse (by simp)

end Ipv4Addr

/-- `parse_dst_ip` (`apps/daemon/src/main.rs`, and again in
    `apps/mobile/src/engine.rs`): bytes 16 to 19 of an IPv4 packet. -/
def parseDstIp (packet : List UInt8) : Option Ipv4Addr :=
  if h : packet.length < 20 then none
  else if packet[0] >>> 4 = 4 then some ⟨packet[16], packet[17], packet[18], packet[19]⟩
  else none

/-! ## Socket addresses -/

/-- `std::net::Ipv6Addr`: sixteen octets in network order. -/
structure Ipv6Addr where
  octets : Vector UInt8 16
  deriving DecidableEq, Repr

/-- `std::net::IpAddr`. -/
inductive IpAddr where
  | v4 (addr : Ipv4Addr)
  | v6 (addr : Ipv6Addr)
  deriving DecidableEq, Repr

/-- `std::net::SocketAddr`. -/
structure SocketAddr where
  ip : IpAddr
  port : UInt16
  deriving DecidableEq, Repr

/-- A port of `Ipv4Addr::LOCALHOST`. -/
def SocketAddr.localhost (port : UInt16) : SocketAddr := ⟨.v4 ⟨127, 0, 0, 1⟩, port⟩

/-! ## Identifiers -/

/-- `uuid::Uuid`: sixteen bytes. -/
@[ext] structure Uuid where
  bytes : List UInt8
  length_bytes : bytes.length = 16
  deriving DecidableEq, Repr

attribute [simp] Uuid.length_bytes

/-- `Uuid::nil`. -/
def Uuid.nil : Uuid := ⟨List.replicate 16 0, rfl⟩

/-- `Uuid::from_u128`. -/
def Uuid.fromU128 (v : Nat) : Uuid := ⟨Misc.beBytes 16 v, Misc.beBytes_length 16 v⟩

end ConnectAlso
