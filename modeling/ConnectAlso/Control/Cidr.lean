import ConnectAlso.Control.Requests

/-!
# The network of the service

`parse_cidr` of `services/control/src/main.rs` reads the `--network` option, and
`allocate_ip` hands out `base + used` for every count `used` up to the largest offset.
These addresses make up the block `a/p` of the option exactly when `a` is the first
address of the block: the base is not masked. A prefix of length 0 is accepted, but the
shift that computes the size of its block overflows.
-/

namespace ConnectAlso.Control
open Misc

/-! ## Parsing -/

/-- The errors of `parse_cidr`: its own two, and those of the two `parse` calls. -/
inductive CidrError where
  /-- `"invalid CIDR format"` -/
  | invalidFormat
  /-- `AddrParseError` -/
  | address
  /-- `ParseIntError` -/
  | prefixLength
  /-- `"prefix must be <= 32"` -/
  | prefixTooLong
  deriving DecidableEq, Repr

/-- `u8::from_str`: decimal digits after an optional plus sign, leading zeros allowed. -/
def parseU8 (text : String) : Option UInt8 :=
  let digits := match text.toList with
    | '+' :: digits => digits
    | digits => digits
  if digits.length = 0 then none
  else if ¬ digits.all Char.isDigit then none
  else
    let value := digits.foldl (fun value digit => 10 * value + (digit.toNat - '0'.toNat)) 0
    if 255 < value then none else some (UInt8.ofNat value)

/-- The address and the prefix length that `parse_cidr` accepts. -/
def splitCidr (cidr : String) : Except CidrError (Ipv4Addr × UInt8) :=
  match cidr.toList.splitOn '/' with
  | [part0, part1] =>
    match Ipv4Addr.parse (String.ofList part0) with
    | none => .error .address
    | some ip =>
      match parseU8 (String.ofList part1) with
      | none => .error .prefixLength
      | some length => if length ≤ 32 then .ok (ip, length) else .error .prefixTooLong
  | _ => .error .invalidFormat

/-- What a function that computes with machine integers does: with overflow checks, an
    overflow is a panic. -/
inductive Outcome (α : Type) where
  | panicked
  | returned (value : α)
  deriving DecidableEq, Repr

/-- `1u32 << bits`. Without overflow checks the shift amount is taken modulo 32. -/
def shlOne (overflowChecks : Bool) (bits : UInt8) : Outcome UInt32 :=
  if overflowChecks ∧ 32 ≤ bits then .panicked else .returned (1 <<< bits.toUInt32)

/-- `parse_cidr`, built with overflow checks (as the `dev` profile is) or without (as the
    `release` profile is): the base and the largest offset. -/
def parseCidr (overflowChecks : Bool) (cidr : String) :
    Outcome (Except CidrError (UInt32 × UInt32)) :=
  match splitCidr cidr with
  | .error e => .returned (.error e)
  | .ok (ip, length) =>
    match shlOne overflowChecks (32 - length) with
    | .panicked => .panicked
    | .returned size => .returned (.ok (ip.toU32, size - 1))

/-- Only prefix lengths up to 32 are accepted. -/
theorem le_of_splitCidr {cidr : String} {a : Ipv4Addr} {p : UInt8}
    (h : splitCidr cidr = .ok (a, p)) : p ≤ 32 := by
  unfold splitCidr at h
  split at h
  · split at h
    · cases h
    · split at h
      · cases h
      · split at h
        · rename_i hle
          cases h
          exact hle
        · cases h
  · cases h

/-! ## Blocks of addresses -/

/-- The two addresses have the same first `p` bits. -/
def SameBlock (p : Nat) (x y : Ipv4Addr) : Prop :=
  x.toU32.toNat / 2 ^ (32 - p) = y.toU32.toNat / 2 ^ (32 - p)

/-- The address that `allocate_ip` forms from the number of rows in the pool. -/
def addressAt (base : UInt32) (used : Nat) : Ipv4Addr := Ipv4Addr.ofU32 (base + UInt32.ofNat used)

/-- A block that starts at `base` is a block of the division into blocks of its size
    exactly when that division has a cut at `base`. -/
theorem div_eq_iff_dvd {base size : Nat} (hsize : 0 < size) :
    (∀ used < size, (base + used) / size = base / size) ↔ base % size = 0 := by
  have hbase := Nat.div_add_mod base size
  refine ⟨?_, ?_⟩
  · intro hblock
    by_contra hoffset
    have hmod := Nat.mod_lt base hsize
    -- the first address of the next block is still within `size` of `base`
    have hnext : base + (size - base % size) = size * (base / size + 1) := by
      rw [Nat.mul_add, Nat.mul_one]
      omega
    have hdiv := hblock (size - base % size) (by omega)
    rw [hnext, Nat.mul_div_cancel_left _ hsize] at hdiv
    omega
  · intro hcut used hused
    have hstart : base + used = size * (base / size) + used := by omega
    rw [hstart, Nat.mul_add_div hsize, Nat.div_eq_of_lt hused, Nat.add_zero]

/-- A block that starts at a multiple of its size ends within the 32-bit range. -/
theorem add_lt_of_dvd {base bits used : Nat} (hbits : bits ≤ 32) (hbase : base < 2 ^ 32)
    (hcut : base % 2 ^ bits = 0) (hused : used < 2 ^ bits) : base + used < 2 ^ 32 := by
  have hpow : 2 ^ 32 = 2 ^ bits * 2 ^ (32 - bits) := by
    rw [← Nat.pow_add, Nat.add_sub_cancel' hbits]
  have hstart := Nat.div_add_mod base (2 ^ bits)
  have hindex : base / 2 ^ bits < 2 ^ (32 - bits) := by
    rw [Nat.div_lt_iff_lt_mul (Nat.two_pow_pos bits), Nat.mul_comm, ← hpow]
    exact hbase
  have hend : 2 ^ bits * (base / 2 ^ bits + 1) ≤ 2 ^ 32 := by
    rw [hpow]
    exact Nat.mul_le_mul_left _ hindex
  rw [Nat.mul_add, Nat.mul_one] at hend
  omega

theorem toNat_addressAt {base : UInt32} {used : Nat} (h : base.toNat + used < 2 ^ 32) :
    (addressAt base used).toU32.toNat = base.toNat + used := by
  rw [addressAt, Ipv4Addr.toU32_ofU32, UInt32.toNat_add, UInt32.toNat_ofNat']
  omega

/-! ## The arithmetic of the network -/

/-- `parse_cidr` computes the base and the largest offset of `a/p` without overflow, and
    `allocate_ip` only forms addresses of that block, without overflow. -/
def SoundArithmetic (cidr : String) (a : Ipv4Addr) (p : Nat) : Prop :=
  ∃ base maxOffset, (∀ overflowChecks, parseCidr overflowChecks cidr =
      .returned (.ok (base, maxOffset))) ∧
    maxOffset.toNat + 1 = 2 ^ (32 - p) ∧
    ∀ used ≤ maxOffset.toNat,
      base.toNat + used < 2 ^ 32 ∧ SameBlock p (addressAt base used) a

/-- The number of addresses of a block with a prefix of at least one bit, as the shift
    computes it. -/
theorem shlOne_sub_one {p : UInt8} (hle : p ≤ 32) (hpos : 1 ≤ p) (overflowChecks : Bool) :
    ∃ size, shlOne overflowChecks (32 - p) = .returned size ∧
      (size - 1).toNat + 1 = 2 ^ (32 - p.toNat) := by
  have hle' : p.toNat ≤ 32 := UInt8.le_iff_toNat_le.mp hle
  have hpos' : 1 ≤ p.toNat := UInt8.le_iff_toNat_le.mp hpos
  have hbits : (32 - p).toNat = 32 - p.toNat := UInt8.toNat_sub_of_le _ _ hle
  have hroom : ¬ (overflowChecks = true ∧ 32 ≤ 32 - p) := by
    rintro ⟨-, hbig⟩
    have := UInt8.le_iff_toNat_le.mp hbig
    rw [hbits] at this
    simp at this
    omega
  refine ⟨_, if_neg hroom, ?_⟩
  have hpow : 2 ^ (32 - p.toNat) < 2 ^ 32 := Nat.pow_lt_pow_right (by omega) (by omega)
  have hone : 0 < 2 ^ (32 - p.toNat) := Nat.two_pow_pos _
  have hmod : (32 - p.toNat) % 32 = 32 - p.toNat := Nat.mod_eq_of_lt (by omega)
  have hsize : ((1 : UInt32) <<< (32 - p).toUInt32).toNat = 2 ^ (32 - p.toNat) := by
    rw [UInt32.toNat_shiftLeft, UInt8.toNat_toUInt32, hbits, hmod, Nat.shiftLeft_eq,
      UInt32.toNat_one, Nat.one_mul, Nat.mod_eq_of_lt hpow]
  rw [UInt32.toNat_sub_of_le _ _ (UInt32.le_iff_toNat_le.mpr (by
    rw [hsize, UInt32.toNat_one]
    exact hone)), hsize, UInt32.toNat_one]
  omega

/-- With overflow checks, `parse_cidr` panics on a prefix of length 0. -/
theorem parseCidr_zero {cidr : String} {a : Ipv4Addr} (h : splitCidr cidr = .ok (a, 0)) :
    parseCidr true cidr = .panicked := by
  unfold parseCidr
  rw [h]
  rfl

theorem parseCidr_of_pos {cidr : String} {a : Ipv4Addr} {p : UInt8}
    (h : splitCidr cidr = .ok (a, p)) (hpos : 1 ≤ p) (overflowChecks : Bool) :
    ∃ maxOffset, parseCidr overflowChecks cidr = .returned (.ok (a.toU32, maxOffset)) ∧
      maxOffset.toNat + 1 = 2 ^ (32 - p.toNat) := by
  obtain ⟨size, hshl, hsize⟩ := shlOne_sub_one (le_of_splitCidr h) hpos overflowChecks
  refine ⟨size - 1, ?_, hsize⟩
  unfold parseCidr
  rw [h]
  show (match shlOne overflowChecks (32 - p) with
    | .panicked => _
    | .returned size => _) = _
  rw [hshl]

/-- For every network that `parse_cidr` accepts, the arithmetic of the network is sound
    exactly when the prefix is not empty and the address has no bits set after it. -/
theorem soundArithmetic_iff {cidr : String} {a : Ipv4Addr} {p : UInt8}
    (h : splitCidr cidr = .ok (a, p)) :
    SoundArithmetic cidr a p.toNat ↔ 1 ≤ p.toNat ∧ a.toU32.toNat % 2 ^ (32 - p.toNat) = 0 := by
  have hbase := a.toU32.toNat_lt
  refine ⟨?_, ?_⟩
  · rintro ⟨base, maxOffset, hparse, hsize, hblock⟩
    have hpos : 1 ≤ p := by
      by_contra hzero
      obtain rfl : p = 0 := UInt8.lt_one_iff.mp (UInt8.not_le.mp hzero)
      have hpanic := hparse true
      rw [parseCidr_zero h] at hpanic
      cases hpanic
    obtain ⟨found, hfound, -⟩ := parseCidr_of_pos h hpos true
    rw [hparse true] at hfound
    obtain ⟨rfl, rfl⟩ := Prod.mk.inj (Except.ok.inj (Outcome.returned.inj hfound))
    refine ⟨UInt8.le_iff_toNat_le.mp hpos, (div_eq_iff_dvd (Nat.two_pow_pos _)).mp ?_⟩
    intro used hused
    obtain ⟨hlt, hsame⟩ := hblock used (by omega)
    rwa [SameBlock, toNat_addressAt hlt] at hsame
  · rintro ⟨hpos, hcut⟩
    obtain ⟨maxOffset, hchecked, hsize⟩ :=
      parseCidr_of_pos h (UInt8.le_iff_toNat_le.mpr hpos) true
    refine ⟨a.toU32, maxOffset, ?_, hsize, ?_⟩
    · intro overflowChecks
      obtain ⟨other, hother, hsize'⟩ :=
        parseCidr_of_pos h (UInt8.le_iff_toNat_le.mpr hpos) overflowChecks
      rw [hother, UInt32.toNat.inj (show other.toNat = maxOffset.toNat by omega)]
    · intro used hused
      have hsmall : used < 2 ^ (32 - p.toNat) := by omega
      have hlt := add_lt_of_dvd (Nat.sub_le 32 p.toNat) hbase hcut hsmall
      refine ⟨hlt, ?_⟩
      rw [SameBlock, toNat_addressAt hlt]
      exact (div_eq_iff_dvd (Nat.two_pow_pos _)).mpr hcut used hsmall

/-- The default network. -/
theorem soundArithmetic_default : SoundArithmetic "100.64.0.0/16" ⟨100, 64, 0, 0⟩ 16 :=
  (@soundArithmetic_iff _ _ 16 (by decide +kernel)).mpr (by decide +kernel)

/-- Both ways to fail: an address that is not the first of its block, whose network ends
    in the next block; and the empty prefix, for which the shift overflows. -/
theorem unsound_networks :
    ¬ SoundArithmetic "100.64.0.1/16" ⟨100, 64, 0, 1⟩ 16 ∧
      parseCidr false "100.64.0.1/16" = .returned (.ok (0x64400001, 0xffff)) ∧
      addressAt 0x64400001 0xffff = ⟨100, 65, 0, 0⟩ ∧
      ¬ SoundArithmetic "0.0.0.0/0" ⟨0, 0, 0, 0⟩ 0 ∧
      parseCidr true "0.0.0.0/0" = .panicked ∧
      parseCidr false "0.0.0.0/0" = .returned (.ok (0, 0)) := by
  have hunmasked : parseCidr true "100.64.0.1/16" = .returned (.ok (0x64400001, 0xffff)) := by
    decide +kernel
  have hpanic : parseCidr true "0.0.0.0/0" = .panicked := by
    decide +kernel
  refine ⟨?_, by decide +kernel, by decide, ?_, hpanic, by decide +kernel⟩
  · rintro ⟨base, maxOffset, hparse, -, hblock⟩
    have hresult := (hparse true).symm.trans hunmasked
    obtain ⟨rfl, rfl⟩ := Prod.mk.inj (Except.ok.inj (Outcome.returned.inj hresult))
    have hlast := (hblock 0xffff (by decide)).2
    revert hlast
    unfold SameBlock
    decide
  · rintro ⟨base, maxOffset, hparse, -⟩
    exact absurd ((hparse true).symm.trans hpanic) (by simp)

end ConnectAlso.Control
