import ConnectAlso.Misc.Checked
import ConnectAlso.Stun.Attributes

/-!
# Parsing hostile responses

Whoever can send to the client's port chooses the bytes that `parse_response` and
`parse_xor_mapped_address` read, the lengths among them. Here the two are written with
each of their index expressions checked: no check fails, whatever the bytes are, and the
loop ends after no more rounds than there are attribute headers.
-/

namespace ConnectAlso.Stun.Client
open Misc

/-! ## The header -/

/-- `tx_id.copy_from_slice(part)`. -/
def copyTxId (part : List UInt8) : Checked (Octets 12) :=
  if h : part.length = 12 then .ok ⟨part, h⟩ else .error .lengthMismatch

/-- `parse_response` with its checks. -/
def parseResponseChecked (p : Platform) (data : List UInt8) :
    Checked (Except StunError (UInt16 × Octets 12 × List UInt8)) :=
  if data.length < headerLen then return .error .missingMappedAddress
  else do
    let msgType ← p.readU16 data 0 0
    let msgLen ← p.readU16 data 0 2
    let magic ← p.readU32 data 0 4
    if magic ≠ magicCookie then return .error .missingMappedAddress
    else do
      let part ← readSlice data 8 20
      let txId ← copyTxId part
      let room ← p.sub data.length headerLen
      let attrEnd ← p.add headerLen (min msgLen.toNat room)
      let attrs ← readSlice data headerLen (min attrEnd data.length)
      return .ok (msgType, txId, attrs)

theorem parseResponseChecked_eq (p : Platform) (data : p.Slice) :
    parseResponseChecked p data.bytes = .ok (parseResponse data.bytes) := by
  obtain ⟨data, hfits⟩ := data
  have hmax := Nat.le_trans hfits p.isizeMax_le_usizeMax
  dsimp only
  by_cases hshort : data.length < headerLen
  · rw [parseResponseChecked, parseResponse, if_pos hshort, dif_pos hshort, checked_pure]
  · have hlength : 20 ≤ data.length := Nat.not_lt.mp hshort
    have htype : p.readU16 data 0 0 = .ok (beU16 data 0) := Platform.readU16_of_le hmax (by omega)
    have hlen : p.readU16 data 0 2 = .ok (beU16 data 2) := Platform.readU16_of_le hmax (by omega)
    have hmagic : p.readU32 data 0 4 = .ok (beU32 data 4) :=
      Platform.readU32_of_le hmax (by omega)
    have hpart : (slice data 8 20).length = 12 := slice_length hlength
    have hroom : headerLen + min (beU16 data 2).toNat (data.length - headerLen) ≤ data.length := by
      unfold headerLen
      omega
    rw [parseResponseChecked, parseResponse, if_neg hshort, dif_neg hshort, htype,
      checked_bind_ok, hlen, checked_bind_ok, hmagic, checked_bind_ok]
    by_cases hcookie : beU32 data 4 = magicCookie
    · rw [if_neg (not_not_intro hcookie), readSlice_of_le (by decide) hlength, checked_bind_ok,
        copyTxId, dif_pos hpart, checked_bind_ok, Platform.sub_of_le (Nat.not_lt.mp hshort),
        checked_bind_ok, Platform.add_of_le (Nat.le_trans hroom hmax), checked_bind_ok,
        readSlice_of_le (by omega) (by omega), checked_bind_ok]
      exact congrArg Except.ok (if_neg (not_not_intro hcookie)).symm
    · rw [if_pos hcookie]
      exact congrArg Except.ok (if_pos hcookie).symm

theorem parseResponse_attrs {data : List UInt8} {msgType : UInt16} {txId : Octets 12}
    {attrs : List UInt8} (h : parseResponse data = .ok (msgType, txId, attrs)) :
    headerLen ≤ data.length ∧ attrs = slice data headerLen
      (headerLen + min (beU16 data 2).toNat (data.length - headerLen)) := by
  unfold parseResponse at h
  split at h
  · cases h
  · rename_i hlong
    dsimp only at h
    split at h
    · cases h
    · cases h
      refine ⟨Nat.not_lt.mp hlong, ?_⟩
      rw [Nat.min_eq_left]
      unfold headerLen at *
      omega

/-! ## The loop over the attributes -/

/-- `attr_type == ATTR_XOR_MAPPED_ADDRESS && attr_len >= 8 && pos + attr_len <= attrs.len()`,
    which computes the end of the value only if the rest holds. -/
def isWanted (p : Platform) (attrs : List UInt8) (attrType : UInt16) (attrLen value : Nat) :
    Checked Bool :=
  if attrType = attrXorMappedAddress ∧ 8 ≤ attrLen then do
    let valueEnd ← p.add value attrLen
    return decide (valueEnd ≤ attrs.length)
  else return false

/-- A round of the loop of `parse_xor_mapped_address` with its checks. -/
def scanRound (p : Platform) (attrs : List UInt8) (pos : Nat) :
    Checked (Round Nat (Option SocketAddr)) := do
  let ahead ← p.add pos 4
  if ahead ≤ attrs.length then do
    let attrType ← p.readU16 attrs pos 0
    let attrLen ← p.readU16 attrs pos 2
    let value ← p.add pos 4
    let wanted ← isWanted p attrs attrType attrLen.toNat value
    if wanted then do
      let _reserved ← p.readOffset attrs value 0
      let family ← p.readOffset attrs value 1
      if family ≠ ipv4Family then return .done none
      else do
        let xPort ← p.readU16 attrs value 2
        let port := xPort ^^^ (magicCookie >>> 16).toUInt16
        let xAddr ← p.readU32 attrs value 4
        let addr := xAddr ^^^ magicCookie
        return .done (some { ip := .v4 (Ipv4Addr.ofU32 addr), port })
    else do
      let behind ← p.add value attrLen.toNat
      let short ← p.sub 4 (attrLen.toNat % 4)
      let next ← p.add behind (short % 4)
      return .next next
  else return .done none

section Round
variable {p : Platform} {attrs : List UInt8} {pos : Nat}

theorem isWanted_eq (hmax : pos + 4 + (beU16 attrs (pos + 2)).toNat ≤ p.usizeMax) :
    isWanted p attrs (beU16 attrs pos) (beU16 attrs (pos + 2)).toNat (pos + 4) =
      .ok (decide (Wanted attrs pos)) := by
  unfold isWanted
  by_cases hlong : beU16 attrs pos = attrXorMappedAddress ∧ 8 ≤ (beU16 attrs (pos + 2)).toNat
  · rw [if_pos hlong, Platform.add_of_le hmax, checked_bind_ok, checked_pure]
    congr 2
    simp only [Wanted, hlong.1, hlong.2, true_and]
  · rw [if_neg hlong, checked_pure, decide_eq_false fun h => hlong ⟨h.1, h.2.1⟩]

theorem scanRound_of_short (hmax : pos + 4 ≤ p.usizeMax) (h : ¬ pos + 4 ≤ attrs.length) :
    scanRound p attrs pos = .ok (.done none) := by
  rw [scanRound, Platform.add_of_le hmax, checked_bind_ok, if_neg h, checked_pure]

theorem scanRound_of_wanted (hmax : attrs.length ≤ p.usizeMax) (h : pos + 4 ≤ attrs.length)
    (hwanted : Wanted attrs pos) : scanRound p attrs pos = .ok (.done (mappedAt attrs pos)) := by
  obtain ⟨-, hlen, hwhole⟩ := id hwanted
  have hread : p.readU16 attrs pos 0 = .ok (beU16 attrs pos) :=
    Platform.readU16_of_le hmax (by omega)
  rw [scanRound, Platform.add_of_le (by omega), checked_bind_ok, if_pos h, hread,
    checked_bind_ok, Platform.readU16_of_le hmax (by omega), checked_bind_ok, checked_bind_ok,
    isWanted_eq (by omega), checked_bind_ok, if_pos (decide_eq_true hwanted),
    Platform.readOffset_of_lt hmax (by omega), checked_bind_ok,
    Platform.readOffset_of_lt hmax (by omega), checked_bind_ok, mappedAt,
    List.getElem?_eq_getElem (by omega)]
  by_cases hv4 : attrs[pos + 4 + 1] = ipv4Family
  · rw [if_neg (not_not_intro hv4), if_pos (congrArg some hv4),
      Platform.readU16_of_le hmax (by omega), checked_bind_ok,
      Platform.readU32_of_le hmax (by omega), checked_bind_ok, checked_pure]
  · rw [if_pos hv4, if_neg fun hsome => hv4 (Option.some.inj hsome), checked_pure]

theorem scanRound_of_other (hmax : attrs.length + 2 ^ 17 ≤ p.usizeMax)
    (h : pos + 4 ≤ attrs.length) (hother : ¬ Wanted attrs pos) :
    scanRound p attrs pos = .ok (.next (nextAttribute attrs pos)) := by
  have hlt : (beU16 attrs (pos + 2)).toNat < 2 ^ 16 := UInt16.toNat_lt _
  have hread : p.readU16 attrs pos 0 = .ok (beU16 attrs pos) :=
    Platform.readU16_of_le (by omega) (by omega)
  have hfalse : ¬ decide (Wanted attrs pos) = true := fun hwanted =>
    hother (of_decide_eq_true hwanted)
  rw [scanRound, Platform.add_of_le (by omega), checked_bind_ok, if_pos h, hread,
    checked_bind_ok, Platform.readU16_of_le (by omega) (by omega), checked_bind_ok,
    checked_bind_ok, isWanted_eq (by omega), checked_bind_ok, if_neg hfalse,
    Platform.add_of_le (by omega), checked_bind_ok, Platform.sub_of_le (by omega),
    checked_bind_ok, Platform.add_of_le (by omega), checked_bind_ok, checked_pure,
    nextAttribute]

end Round

/-- The loop ends, no check fails, and the result is the one of the function without
    checks. -/
theorem iterate_scanRound (p : Platform) (attrs : p.Slice) {rounds : Nat}
    (h : attrs.bytes.length / 4 < rounds) :
    iterate (scanRound p attrs.bytes) rounds 0 =
      some (.ok (parseXorMappedAddress attrs.bytes)) := by
  obtain ⟨attrs, hfits⟩ := attrs
  have hmax : attrs.length + 2 ^ 18 ≤ p.usizeMax :=
    Nat.le_trans (Nat.add_le_add_right hfits _) (p.isizeMax_add_le (by decide))
  dsimp only at h ⊢
  -- the cursor may pass the end, by less than the longest attribute
  refine iterate_eq (f := parseXorMappedAddressFrom attrs)
    (J := fun pos => pos ≤ attrs.length + 2 ^ 17) (m := fun pos => (attrs.length - pos) / 4)
    ?_ (Nat.zero_le _) h
  intro pos hpos
  by_cases hroom : pos + 4 ≤ attrs.length
  · by_cases hwanted : Wanted attrs pos
    · left
      rw [scanRound_of_wanted (by omega) hroom hwanted, parseFrom_of_wanted hroom hwanted]
    · have hlt : (beU16 attrs (pos + 2)).toNat < 2 ^ 16 := UInt16.toNat_lt _
      right
      refine ⟨nextAttribute attrs pos, scanRound_of_other (by omega) hroom hwanted, ?_, ?_,
        (parseFrom_of_other hroom hwanted).symm⟩
      · unfold nextAttribute
        omega
      · unfold nextAttribute
        omega
  · left
    rw [scanRound_of_short (by omega) hroom, parseFrom_of_short hroom]

/-! ## Both together -/

/-- On every byte string both functions end without a failing check, and the attributes are
    a part of the message behind its header that is no longer than the header says. -/
theorem parse_total (p : Platform) (data : p.Slice) :
    parseResponseChecked p data.bytes = .ok (parseResponse data.bytes) ∧
      ∀ msgType txId attrs, parseResponse data.bytes = .ok (msgType, txId, attrs) →
        (∃ header after, data.bytes = header ++ (attrs ++ after) ∧
          header.length = headerLen) ∧
        attrs.length ≤ (beU16 data.bytes 2).toNat ∧
        ∀ rounds, attrs.length / 4 < rounds →
          iterate (scanRound p attrs) rounds 0 = some (.ok (parseXorMappedAddress attrs)) := by
  refine ⟨parseResponseChecked_eq p data, ?_⟩
  intro msgType txId attrs h
  obtain ⟨hlength, hattrs⟩ := parseResponse_attrs h
  have hlen : attrs.length = min (beU16 data.bytes 2).toNat (data.bytes.length - headerLen) := by
    rw [hattrs, slice_length (by omega), Nat.add_sub_cancel_left]
  refine ⟨⟨data.bytes.take headerLen, data.bytes.drop
    (headerLen + min (beU16 data.bytes 2).toNat (data.bytes.length - headerLen)), ?_, ?_⟩, ?_, ?_⟩
  · rw [hattrs, slice_append_drop _ (Nat.le_add_right _ _), List.take_append_drop]
  · rw [List.length_take, Nat.min_eq_left hlength]
  · omega
  · intro rounds hrounds
    have hfits := data.fits
    exact iterate_scanRound p ⟨attrs, by omega⟩ hrounds

/-- A 64-bit target. -/
def word64 : Platform := ⟨64, by decide⟩

/-- A message whose header announces more than follows it. -/
def shortMessage : List UInt8 :=
  [0x01, 0x01, 0xFF, 0xFF, 0x21, 0x12, 0xA4, 0x42, 0, 0, 0, 0, 0, 0, 0, 0, 0, 0, 0, 0,
    0x00, 0x20, 0xFF, 0xFF]

/-- The wanted attribute, with a length that passes the end of the message. -/
theorem parse_total_short :
    shortMessage.length = 24 ∧ iterate (scanRound word64 [0x00, 0x20, 0xFF, 0xFF]) 2 0 =
      some (.ok (parseXorMappedAddress [0x00, 0x20, 0xFF, 0xFF])) := by
  have hparse : parseResponse shortMessage =
      .ok (0x0101, ⟨List.replicate 12 0, rfl⟩, [0x00, 0x20, 0xFF, 0xFF]) := by
    decide
  have htotal := parse_total word64 ⟨shortMessage, by decide⟩
  exact ⟨rfl, (htotal.2 _ _ _ hparse).2.2 2 (by decide)⟩

end ConnectAlso.Stun.Client
