import ConnectAlso.Control.Handout
import ConnectAlso.Platform.Tun

/-!
# The network of the service and the subnet of the daemon

The control service hands out the addresses of the network it was started with. The
daemon gives its device a netmask of 24 bits whatever the network is: the `network`
field of the registration response is not read. So two devices of one network are in
each other's subnet exactly when the network lies within one block of 256 addresses.
-/

namespace ConnectAlso.System
open Control Platform

/-- The configuration with which the daemon's `main` creates its device. -/
def tunConfig (ourIp : Ipv4Addr) (tunName : String) : TunConfig :=
  (TunConfig.new ourIp ⟨255, 255, 255, 0⟩).withName tunName

/-- The daemon that has address `x` reaches address `y` through its device. -/
def Reaches (tunName : String) (x y : Ipv4Addr) : Prop :=
  (tunConfig x tunName).toTun2Config.OnLink y

theorem reaches_iff {tunName : String} {x y : Ipv4Addr} :
    Reaches tunName x y ↔ y.toU32.toNat / 256 = x.toU32.toNat / 256 :=
  mask_24_eq_iff

/-- For every network within the 32-bit range, all addresses that the service can hand
    out reach each other through the devices of their daemons exactly when the first and
    the last address of the network have the same first 24 bits. -/
theorem handed_out_reach_iff {state : AppState} (tunName : String)
    (hrange : state.ipBase.toNat + state.ipMaxOffset.toNat < 2 ^ 32) :
    (∀ x y, HandedOut state x → HandedOut state y → Reaches tunName x y) ↔
      state.ipBase.toNat / 256 = (state.ipBase.toNat + state.ipMaxOffset.toNat) / 256 := by
  refine ⟨?_, ?_⟩
  · intro hreach
    have hfirst : HandedOut state (addressAt state.ipBase 0) :=
      (handedOut_iff hrange).mpr ⟨0, Nat.zero_le _, rfl⟩
    have hlast : HandedOut state (addressAt state.ipBase state.ipMaxOffset.toNat) :=
      (handedOut_iff hrange).mpr ⟨_, le_refl _, rfl⟩
    have hsame := reaches_iff.mp (hreach _ _ hlast hfirst)
    rwa [toNat_addressAt (by omega), toNat_addressAt hrange, Nat.add_zero] at hsame
  · intro hblock x y hx hy
    obtain ⟨i, hi, rfl⟩ := hx.exists_offset
    obtain ⟨j, hj, rfl⟩ := hy.exists_offset
    rw [reaches_iff, toNat_addressAt (by omega), toNat_addressAt (by omega)]
    -- both numbers lie between the first and the last one
    have hfirst := Nat.div_le_div_right (c := 256) (Nat.le_add_right state.ipBase.toNat i)
    have hfirst' := Nat.div_le_div_right (c := 256) (Nat.le_add_right state.ipBase.toNat j)
    omega

/-- The network 10.99.0.0/24. -/
def smallNetwork : AppState where
  ipBase := 0x0a630000
  ipMaxOffset := 0xff
  networkCidr := "10.99.0.0/24"

/-- A network of 256 addresses. -/
theorem small_network_reaches :
    HandedOut smallNetwork ⟨10, 99, 0, 255⟩ ∧
      ∀ x y, HandedOut smallNetwork x → HandedOut smallNetwork y → Reaches "connectalso" x y := by
  refine ⟨(handedOut_iff (by decide)).mpr ⟨255, by decide, by decide⟩, ?_⟩
  exact (handed_out_reach_iff "connectalso" (by decide)).mpr (by decide)

/-- The default network: its devices 0 and 256 do not reach each other. -/
theorem default_network_does_not_reach :
    parseCidr true AppState.default.networkCidr =
        .returned (.ok (AppState.default.ipBase, AppState.default.ipMaxOffset)) ∧
      HandedOut AppState.default ⟨100, 64, 0, 0⟩ ∧ HandedOut AppState.default ⟨100, 64, 1, 0⟩ ∧
      ¬ Reaches "connectalso" ⟨100, 64, 0, 0⟩ ⟨100, 64, 1, 0⟩ := by
  have hrange : AppState.default.ipBase.toNat + AppState.default.ipMaxOffset.toNat < 2 ^ 32 := by
    decide
  refine ⟨by decide +kernel, ?_, ?_, ?_⟩
  · exact (handedOut_iff hrange).mpr ⟨0, by decide, by decide⟩
  · exact (handedOut_iff hrange).mpr ⟨256, by decide, by decide⟩
  · rw [reaches_iff]
    decide

end ConnectAlso.System
