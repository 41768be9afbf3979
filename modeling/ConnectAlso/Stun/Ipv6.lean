import ConnectAlso.Stun.Service

/-!
# Answers to IPv6 clients

The service claims to follow RFC 5389, by which an IPv6 address is masked with the magic
cookie followed by the transaction id. `mappedAddressV6` reads an answer the way the RFC
prescribes; `build_xor_mapped_v6` masks the first four bytes only, so the other twelve
come out masked with the transaction id.
-/

namespace ConnectAlso.Stun.Service
open Misc

/-- The message is one that the service answers. -/
def IsBindingRequest (data : List UInt8) : Prop :=
  20 ≤ data.length ∧ beU16 data 0 = bindingRequest ∧ beU32 data 4 = magicCookie

instance (data : List UInt8) : Decidable (IsBindingRequest data) :=
  inferInstanceAs (Decidable (_ ∧ _ ∧ _))

/-- The transaction id of a message. -/
def transactionId (data : List UInt8) : List UInt8 := slice data 8 20

/-- The mask that RFC 5389 prescribes for IPv6 addresses. -/
def rfcMask (txId : List UInt8) : List UInt8 := beBytes 4 magicCookie.toNat ++ txId

/-- The address in a Binding Success Response whose first attribute is an
    XOR-MAPPED-ADDRESS of family 0x02, as RFC 5389 prescribes. -/
def mappedAddressV6 (message : List UInt8) : Option SocketAddr :=
  if beU16 message 0 = bindingSuccess ∧ beU32 message 4 = magicCookie ∧
      beU16 message 20 = attrXorMappedAddress ∧ beU16 message 22 = 20 ∧
      slice message 25 26 = [0x02] then
    let port := beU16 message 26 ^^^ (magicCookie >>> 16).toUInt16
    let octets := (slice message 28 44).zipWith (· ^^^ ·) (rfcMask (transactionId message))
    if h : octets.length = 16 then some ⟨.v6 ⟨⟨octets.toArray, h⟩⟩, port⟩ else none
  else none

/-- A request of the client is answered, and by RFC 5389 the answer says where the request
    came from. -/
def AnswersDecode (data : List UInt8) (ip : Ipv6Addr) (port : UInt16) : Prop :=
  IsBindingRequest data → ∃ response,
    handleBindingRequest data ⟨.v6 ip, port⟩ = some response ∧
      mappedAddressV6 response = some ⟨.v6 ip, port⟩

/-! ## The answer -/

/-- The octets as the service masks them. -/
def maskedV6 (ip : Ipv6Addr) : List UInt8 :=
  (ip.octets.toList.take 4).zipWith (· ^^^ ·) (beBytes 4 magicCookie.toNat) ++
    ip.octets.toList.drop 4

theorem length_maskedV6 (ip : Ipv6Addr) : (maskedV6 ip).length = 16 := by
  simp [maskedV6]

/-- The header of an answer. -/
def responseHeader (txId : List UInt8) (attrLength : Nat) : List UInt8 :=
  beBytes 2 bindingSuccess.toNat ++
    (beBytes 2 attrLength ++ (beBytes 4 magicCookie.toNat ++ txId))

theorem length_responseHeader {txId : List UInt8} (h : txId.length = 12) (attrLength : Nat) :
    (responseHeader txId attrLength).length = 20 := by
  simp [responseHeader, h]

theorem length_transactionId {data : List UInt8} (h : 20 ≤ data.length) :
    (transactionId data).length = 12 := slice_length h

/-- Every request of an IPv6 client is answered with its transaction id. -/
theorem handleBindingRequest_v6 {data : List UInt8} (h : IsBindingRequest data) (ip : Ipv6Addr)
    (port : UInt16) :
    handleBindingRequest data ⟨.v6 ip, port⟩ =
      some (responseHeader (transactionId data) (buildXorMappedV6 ip port).length ++
        buildXorMappedV6 ip port) := by
  obtain ⟨hlength, htype, hmagic⟩ := h
  unfold handleBindingRequest
  rw [if_neg (Nat.not_lt.mpr hlength), if_neg (not_not_intro htype), if_neg (not_not_intro hmagic)]
  simp only [responseHeader, transactionId, List.append_assoc]

/-! ## What the RFC reads in it -/

variable {header : List UInt8}

/-- A field of the attribute that follows the header. -/
theorem beU16_attribute (h : header.length = 20) (attr : List UInt8) (offset : Nat) :
    beU16 (header ++ attr) (20 + offset) = beU16 attr offset := by
  rw [← h, beU16_append_right]

theorem slice_attribute (h : header.length = 20) (attr : List UInt8) (i j : Nat) :
    slice (header ++ attr) (20 + i) (20 + j) = slice attr i j := by
  rw [← h, slice_append_right]

/-- The fields of the attribute that the service builds. -/
theorem attribute_fields (ip : Ipv6Addr) (port : UInt16) :
    beU16 (buildXorMappedV6 ip port) 0 = attrXorMappedAddress ∧
      beU16 (buildXorMappedV6 ip port) 2 = 20 ∧
      slice (buildXorMappedV6 ip port) 5 6 = [0x02] ∧
      beU16 (buildXorMappedV6 ip port) 6 = port ^^^ (magicCookie >>> 16).toUInt16 ∧
      slice (buildXorMappedV6 ip port) 8 24 = maskedV6 ip := by
  have hattr : buildXorMappedV6 ip port = beBytes 2 attrXorMappedAddress.toNat ++
      (beBytes 2 (20 : UInt16).toNat ++ (([0x00, 0x02] : List UInt8) ++
        (beBytes 2 (port ^^^ (magicCookie >>> 16).toUInt16).toNat ++ maskedV6 ip))) := rfl
  rw [hattr]
  refine ⟨?_, ?_, ?_, ?_, ?_⟩
  · exact @beU16_append [] 0 rfl attrXorMappedAddress _
  · exact beU16_append (by simp) 20 _
  · rw [← List.append_assoc]
    exact slice_append_right (beBytes 2 attrXorMappedAddress.toNat ++
      beBytes 2 (20 : UInt16).toNat) _ 1 2
  · rw [← List.append_assoc, ← List.append_assoc]
    exact beU16_append (by simp) _ _
  · rw [← List.append_assoc, ← List.append_assoc, ← List.append_assoc,
      ← List.append_nil (_ ++ maskedV6 ip)]
    exact slice_append (by simp) (by simp [length_maskedV6])

/-- The fields of the header. -/
theorem header_fields {txId : List UInt8} (h : txId.length = 12) (attrLength : Nat)
    (attr : List UInt8) :
    beU16 (responseHeader txId attrLength ++ attr) 0 = bindingSuccess ∧
      beU32 (responseHeader txId attrLength ++ attr) 4 = magicCookie ∧
      transactionId (responseHeader txId attrLength ++ attr) = txId := by
  have hheader : responseHeader txId attrLength ++ attr =
      beBytes 2 bindingSuccess.toNat ++ (beBytes 2 attrLength ++
        (beBytes 4 magicCookie.toNat ++ (txId ++ attr))) := by
    simp only [responseHeader, List.append_assoc]
  rw [hheader]
  refine ⟨?_, ?_, ?_⟩
  · exact @beU16_append [] 0 rfl bindingSuccess _
  · rw [← List.append_assoc]
    exact beU32_append (by simp) magicCookie _
  · rw [transactionId, ← List.append_assoc, ← List.append_assoc, ← List.append_assoc]
    exact slice_append (by simp) (by simp [h])

/-- The octets that the RFC reads: the first four are right, and the transaction id is
    still on the others. -/
theorem unmask_maskedV6 (ip : Ipv6Addr) (txId : List UInt8) :
    (maskedV6 ip).zipWith (· ^^^ ·) (rfcMask txId) =
      ip.octets.toList.take 4 ++ (ip.octets.toList.drop 4).zipWith (· ^^^ ·) txId := by
  have hfront : (ip.octets.toList.take 4).length = 4 := by simp
  rw [maskedV6, rfcMask, List.zipWith_append (by simp), zipWith_xor_twice _ _ (by simp)]

/-- Twelve octets are right exactly when the transaction id is zero. -/
theorem unmask_eq_octets_iff (ip : Ipv6Addr) {txId : List UInt8} (h : txId.length = 12) :
    (maskedV6 ip).zipWith (· ^^^ ·) (rfcMask txId) = ip.octets.toList ↔
      txId = List.replicate 12 0 := by
  have hback : (ip.octets.toList.drop 4).length = txId.length := by simp [h]
  calc (maskedV6 ip).zipWith (· ^^^ ·) (rfcMask txId) = ip.octets.toList
      ↔ ip.octets.toList.take 4 ++ (ip.octets.toList.drop 4).zipWith (· ^^^ ·) txId =
          ip.octets.toList.take 4 ++ ip.octets.toList.drop 4 := by
        rw [unmask_maskedV6, List.take_append_drop]
    _ ↔ (ip.octets.toList.drop 4).zipWith (· ^^^ ·) txId = ip.octets.toList.drop 4 :=
        List.append_right_inj _
    _ ↔ txId = List.replicate 12 0 := by rw [zipWith_xor_eq_self_iff hback, h]

/-- What the RFC reads in an answer. -/
theorem mappedAddressV6_response {txId : List UInt8} (htxId : txId.length = 12) (attrLength : Nat)
    (ip client : Ipv6Addr) (port : UInt16) :
    mappedAddressV6 (responseHeader txId attrLength ++ buildXorMappedV6 ip port) =
        some ⟨.v6 client, port⟩ ↔
      (maskedV6 ip).zipWith (· ^^^ ·) (rfcMask txId) = client.octets.toList := by
  obtain ⟨hsuccess, hmagic, hid⟩ := header_fields htxId attrLength (buildXorMappedV6 ip port)
  obtain ⟨htype, hlen, hfamily, hport, hoctets⟩ := attribute_fields ip port
  have hheader := length_responseHeader htxId attrLength
  rw [← beU16_attribute hheader] at htype hlen hport
  rw [← slice_attribute hheader] at hfamily hoctets
  have hlength : ((maskedV6 ip).zipWith (· ^^^ ·) (rfcMask txId)).length = 16 := by
    simp [length_maskedV6, rfcMask, htxId]
  have hxor : port ^^^ (magicCookie >>> 16).toUInt16 ^^^ (magicCookie >>> 16).toUInt16 = port := by
    rw [UInt16.xor_assoc, UInt16.xor_self, UInt16.xor_zero]
  unfold mappedAddressV6
  rw [if_pos ⟨hsuccess, hmagic, htype, hlen, hfamily⟩]
  simp only [hid, hport, hoctets, hxor, dif_pos hlength, Option.some.injEq, SocketAddr.mk.injEq,
    IpAddr.v6.injEq, and_true]
  cases client with
  | mk octets => rw [Ipv6Addr.mk.injEq, ← Vector.toList_inj, Vector.toList_mk, List.toList_toArray]

/-- The answers to IPv6 clients decode under RFC 5389 exactly for the transaction id of
    twelve zero bytes. -/
theorem answersDecode_iff (data : List UInt8) (ip : Ipv6Addr) (port : UInt16) :
    AnswersDecode data ip port ↔
      (IsBindingRequest data → transactionId data = List.replicate 12 0) := by
  refine imp_congr_right fun hrequest => ?_
  have htxId := length_transactionId hrequest.1
  rw [handleBindingRequest_v6 hrequest, ← unmask_eq_octets_iff ip htxId,
    ← mappedAddressV6_response htxId _ ip ip port]
  constructor
  · rintro ⟨response, hresponse, hdecode⟩
    rw [Option.some.inj hresponse]
    exact hdecode
  · exact fun hdecode => ⟨_, rfl, hdecode⟩

/-- A Binding Request with the transaction id 1, 2, …, 12. -/
def countingRequest : List UInt8 :=
  [0, 1, 0, 0, 0x21, 0x12, 0xA4, 0x42, 1, 2, 3, 4, 5, 6, 7, 8, 9, 10, 11, 12]

/-- `2001:db8::1`. -/
def documentationV6 : Ipv6Addr := ⟨#v[0x20, 1, 0x0d, 0xb8, 0, 0, 0, 0, 0, 0, 0, 0, 0, 0, 0, 1]⟩

/-- From the answer to it the client learns another address. -/
theorem countingRequest_misread :
    ¬ AnswersDecode countingRequest documentationV6 40000 := by
  intro h
  obtain ⟨response, hresponse, hdecode⟩ := h (by decide +kernel)
  have hread : (handleBindingRequest countingRequest ⟨.v6 documentationV6, 40000⟩).bind
      mappedAddressV6 = some ⟨.v6 documentationV6, 40000⟩ := by
    rw [hresponse]
    exact hdecode
  exact absurd hread (by decide +kernel)

end ConnectAlso.Stun.Service
