import ConnectAlso.Net.Address

/-!
# The virtual network device

`TunConfig` of `crates/platform/src/tun.rs` and the configuration it hands to the
operating system. The address and the netmask of the device make the subnet that is
reached through it; nothing else is routed there.
-/

namespace ConnectAlso.Platform

/-- `DEFAULT_MTU`. -/
def defaultMtu : UInt16 := 1500

/-- `TunConfig`. -/
structure TunConfig where
  name : Option String
  address : Ipv4Addr
  netmask : Ipv4Addr
  mtu : UInt16
  deriving DecidableEq, Repr

/-- `tun2::Layer`. -/
inductive Layer where
  | l2
  | l3
  deriving DecidableEq, Repr

/-- `tun2::Configuration`, as far as it is set. -/
structure Configuration where
  address : Ipv4Addr
  netmask : Ipv4Addr
  mtu : UInt16
  layer : Layer
  up : Bool
  tunName : Option String
  deriving DecidableEq, Repr

namespace TunConfig

/-- `TunConfig::default`. -/
def default : TunConfig where
  name := none
  address := ⟨100, 64, 0, 1⟩
  netmask := ⟨255, 255, 255, 0⟩
  mtu := defaultMtu

/-- `TunConfig::new`. -/
def new (address netmask : Ipv4Addr) : TunConfig := { default with address, netmask }

/-- `TunConfig::with_name`. -/
def withName (config : TunConfig) (name : String) : TunConfig := { config with name := some name }

/-- `TunConfig::to_tun2_config`. -/
def toTun2Config (config : TunConfig) : Configuration where
  address := config.address
  netmask := config.netmask
  mtu := config.mtu
  layer := .l3
  up := true
  tunName := config.name

end TunConfig

/-- The bits of an address that a netmask keeps. -/
def mask (netmask addr : Ipv4Addr) : Ipv4Addr :=
  ⟨addr.o0 &&& netmask.o0, addr.o1 &&& netmask.o1, addr.o2 &&& netmask.o2, addr.o3 &&& netmask.o3⟩

/-- The address lies in the subnet of the device, so packets to it enter the device. -/
def Configuration.OnLink (config : Configuration) (addr : Ipv4Addr) : Prop :=
  mask config.netmask addr = mask config.netmask config.address

instance (config : Configuration) (addr : Ipv4Addr) : Decidable (config.OnLink addr) :=
  inferInstanceAs (Decidable (_ = _))

/-! ## The netmask of 24 bits -/

private theorem and_255 (o : UInt8) : o &&& 255 = o := by
  have hand : (o &&& 255).toNat = o.toNat % 2 ^ 8 := Nat.and_two_pow_sub_one_eq_mod o.toNat 8
  exact UInt8.toNat.inj (hand.trans (Nat.mod_eq_of_lt o.toNat_lt))

/-- The number of an address, octet by octet. -/
theorem toNat_toU32 (a : Ipv4Addr) :
    a.toU32.toNat = a.o3.toNat + 256 * (a.o2.toNat + 256 * (a.o1.toNat + 256 * a.o0.toNat)) := by
  have hlt : Misc.ofBeBytes a.octets < 256 ^ 4 := Misc.ofBeBytes_lt a.octets
  rw [Ipv4Addr.toU32, UInt32.toNat_ofNat', Nat.mod_eq_of_lt (by omega)]
  simp [Ipv4Addr.octets, Misc.ofBeBytes, Misc.ofLeBytes]

/-- Two addresses have the same first three octets exactly when their numbers have the
    same quotient by 256. -/
theorem mask_24_eq_iff {x y : Ipv4Addr} :
    mask ⟨255, 255, 255, 0⟩ x = mask ⟨255, 255, 255, 0⟩ y ↔
      x.toU32.toNat / 256 = y.toU32.toNat / 256 := by
  have hx := x.o3.toNat_lt
  have hy := y.o3.toNat_lt
  have hx2 := x.o2.toNat_lt
  have hy2 := y.o2.toNat_lt
  have hx1 := x.o1.toNat_lt
  have hy1 := y.o1.toNat_lt
  simp only [mask, and_255, UInt8.and_zero, Ipv4Addr.mk.injEq, and_true, ← UInt8.toNat_inj,
    toNat_toU32]
  omega

end ConnectAlso.Platform
