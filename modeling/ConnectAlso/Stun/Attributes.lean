import ConnectAlso.Stun.Client

/-!
# Attributes before the wanted one

`parse_xor_mapped_address` walks over the attributes of a response. Each has a type, a
length, a value of that length and padding up to a multiple of four bytes; those of another
type are passed over, whatever their lengths.
-/

namespace ConnectAlso.Stun
open Misc

/-- An attribute. The padding bytes have no meaning. -/
structure Attribute where
  attrType : UInt16
  value : List UInt8
  fits : value.length < 2 ^ 16
  padding : List UInt8
  padded : padding.length = (4 - value.length % 4) % 4

namespace Attribute

/-- The length as the attribute states it. -/
def length (attr : Attribute) : UInt16 := UInt16.ofNat attr.value.length

/-- The attribute as it stands in a message. -/
def bytes (attr : Attribute) : List UInt8 :=
  beBytes 2 attr.attrType.toNat ++ (beBytes 2 attr.length.toNat ++ (attr.value ++ attr.padding))

@[simp] theorem toNat_length (attr : Attribute) : attr.length.toNat = attr.value.length :=
  UInt16.toNat_ofNat_of_lt' attr.fits

theorem length_bytes (attr : Attribute) :
    attr.bytes.length = 4 + attr.value.length + (4 - attr.value.length % 4) % 4 := by
  simp only [bytes, List.length_append, beBytes_length, attr.padded]
  omega

end Attribute

namespace Client

/-! ## One round of the loop -/

/-- The attribute at the position is the wanted one, and long enough and whole. -/
def Wanted (attrs : List UInt8) (pos : Nat) : Prop :=
  beU16 attrs pos = attrXorMappedAddress ∧ 8 ≤ (beU16 attrs (pos + 2)).toNat ∧
    pos + 4 + (beU16 attrs (pos + 2)).toNat ≤ attrs.length

instance (attrs : List UInt8) (pos : Nat) : Decidable (Wanted attrs pos) :=
  inferInstanceAs (Decidable (_ ∧ _ ∧ _))

/-- The address that the wanted attribute holds, if it is an IPv4 address. -/
def mappedAt (attrs : List UInt8) (pos : Nat) : Option SocketAddr :=
  if attrs[pos + 4 + 1]? = some ipv4Family then
    some {
      ip := .v4 (Ipv4Addr.ofU32 (beU32 attrs (pos + 4 + 4) ^^^ magicCookie))
      port := beU16 attrs (pos + 4 + 2) ^^^ (magicCookie >>> 16).toUInt16 }
  else none

/-- The position behind the attribute and its padding. -/
def nextAttribute (attrs : List UInt8) (pos : Nat) : Nat :=
  pos + 4 + (beU16 attrs (pos + 2)).toNat + (4 - (beU16 attrs (pos + 2)).toNat % 4) % 4

theorem parseFrom_of_short {attrs : List UInt8} {pos : Nat} (h : ¬ pos + 4 ≤ attrs.length) :
    parseXorMappedAddressFrom attrs pos = none := by
  rw [parseXorMappedAddressFrom, if_neg h]

theorem parseFrom_of_wanted {attrs : List UInt8} {pos : Nat} (h : pos + 4 ≤ attrs.length)
    (hwanted : Wanted attrs pos) : parseXorMappedAddressFrom attrs pos = mappedAt attrs pos := by
  have hfamily : pos + 4 + 1 < attrs.length := by
    obtain ⟨-, hlen, hwhole⟩ := hwanted
    omega
  rw [parseXorMappedAddressFrom, if_pos h, mappedAt, List.getElem?_eq_getElem hfamily]
  refine (dif_pos hwanted).trans ?_
  dsimp only
  by_cases hv4 : attrs[pos + 4 + 1] = ipv4Family
  · rw [if_neg (not_not_intro hv4), if_pos (congrArg some hv4)]
  · rw [if_pos hv4, if_neg fun hsome => hv4 (Option.some.inj hsome)]

theorem parseFrom_of_other {attrs : List UInt8} {pos : Nat} (h : pos + 4 ≤ attrs.length)
    (hother : ¬ Wanted attrs pos) :
    parseXorMappedAddressFrom attrs pos =
      parseXorMappedAddressFrom attrs (nextAttribute attrs pos) := by
  rw [parseXorMappedAddressFrom, if_pos h]
  exact dif_neg hother

/-! ## The walk -/

section Append
variable (before attrs : List UInt8) (pos : Nat)

theorem wanted_append :
    Wanted (before ++ attrs) (before.length + pos) ↔ Wanted attrs pos := by
  simp only [Wanted, Nat.add_assoc, beU16_append_right, List.length_append,
    Nat.add_le_add_iff_left]

theorem mappedAt_append :
    mappedAt (before ++ attrs) (before.length + pos) = mappedAt attrs pos := by
  simp only [mappedAt, Nat.add_assoc, beU16_append_right, beU32_append_right,
    List.getElem?_append_right, Nat.le_add_right, Nat.add_sub_cancel_left]

theorem nextAttribute_append :
    nextAttribute (before ++ attrs) (before.length + pos) =
      before.length + nextAttribute attrs pos := by
  simp only [nextAttribute, Nat.add_assoc, beU16_append_right]

/-- What the walk finds does not depend on what lies before its position. -/
theorem parseXorMappedAddressFrom_append :
    parseXorMappedAddressFrom (before ++ attrs) (before.length + pos) =
      parseXorMappedAddressFrom attrs pos := by
  induction hleft : attrs.length - pos using Nat.strong_induction_on generalizing pos with
  | _ left ih =>
      have hroom : before.length + pos + 4 ≤ (before ++ attrs).length ↔
          pos + 4 ≤ attrs.length := by
        rw [List.length_append]
        omega
      by_cases hpos : pos + 4 ≤ attrs.length
      · by_cases hwanted : Wanted attrs pos
        · rw [parseFrom_of_wanted (hroom.mpr hpos) ((wanted_append _ _ _).mpr hwanted),
            parseFrom_of_wanted hpos hwanted, mappedAt_append]
        · rw [parseFrom_of_other (hroom.mpr hpos) (hwanted ∘ (wanted_append _ _ _).mp),
            parseFrom_of_other hpos hwanted, nextAttribute_append]
          have hless : attrs.length - nextAttribute attrs pos < left := by
            unfold nextAttribute
            omega
          exact ih _ hless _ rfl
      · rw [parseFrom_of_short fun h => hpos (hroom.mp h), parseFrom_of_short hpos]

end Append

/-- An attribute of another type is passed over with its padding. -/
theorem parse_skip (attr : Attribute) (h : attr.attrType ≠ attrXorMappedAddress)
    (rest : List UInt8) :
    parseXorMappedAddress (attr.bytes ++ rest) = parseXorMappedAddress rest := by
  have htype : beU16 (attr.bytes ++ rest) 0 = attr.attrType := by
    rw [Attribute.bytes, List.append_assoc]
    exact @beU16_append [] 0 rfl attr.attrType _
  have hlen : beU16 (attr.bytes ++ rest) 2 = attr.length := by
    simp only [Attribute.bytes, List.append_assoc]
    exact beU16_append (by simp) attr.length _
  have hbytes := attr.length_bytes
  have hroom : 0 + 4 ≤ (attr.bytes ++ rest).length := by
    rw [List.length_append, hbytes]
    omega
  have hother : ¬ Wanted (attr.bytes ++ rest) 0 := fun hwanted => h (htype.symm.trans hwanted.1)
  have hnext : nextAttribute (attr.bytes ++ rest) 0 = attr.bytes.length + 0 := by
    simp only [nextAttribute, Nat.zero_add, hlen, Attribute.toNat_length, hbytes, Nat.add_zero]
  rw [parseXorMappedAddress, parseFrom_of_other hroom hother, hnext,
    parseXorMappedAddressFrom_append]
  rfl

/-- Behind any attributes of other types, and with anything behind it, the address that the
    wanted attribute encodes is found. -/
theorem parse_behind_others (others : List Attribute)
    (h : ∀ attr ∈ others, attr.attrType ≠ attrXorMappedAddress) (ip : Ipv4Addr) (port : UInt16)
    (rest : List UInt8) :
    parseXorMappedAddress (others.flatMap Attribute.bytes ++
      (Service.buildXorMappedV4 ip port ++ rest)) = some ⟨.v4 ip, port⟩ := by
  induction others with
  | nil => exact parseXorMappedAddress_append ip port rest
  | cons attr others ih =>
      obtain ⟨hattr, hothers⟩ := List.forall_mem_cons.mp h
      rw [List.flatMap_cons, List.append_assoc, parse_skip attr hattr]
      exact ih hothers

/-- An attribute with a value of one byte. -/
def softwareAttribute : Attribute where
  attrType := 0x8022
  value := [0x61]
  fits := by decide
  padding := [0xFF, 0xFF, 0xFF]
  padded := by decide

/-- The wanted attribute behind two others. -/
theorem parse_behind_software :
    parseXorMappedAddress ([softwareAttribute, softwareAttribute].flatMap Attribute.bytes ++
      (Service.buildXorMappedV4 ⟨192, 0, 2, 1⟩ 40000 ++ [0xFF])) =
        some ⟨.v4 ⟨192, 0, 2, 1⟩, 40000⟩ := by
  refine parse_behind_others _ ?_ ⟨192, 0, 2, 1⟩ 40000 [0xFF]
  intro attr hattr
  simp only [List.mem_cons, List.not_mem_nil, or_false, or_self] at hattr
  rw [hattr]
  decide

end Client

end ConnectAlso.Stun
