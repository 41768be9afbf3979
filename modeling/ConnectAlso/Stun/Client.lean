import ConnectAlso.Misc.Aead
import ConnectAlso.Stun.Service

/-!
# The STUN client

The messages of `crates/nat/src/stun.rs`: the request that it builds, and what it reads in
a response. The crate declares the constants of the protocol once more. At the end, the
client and the service together: whatever address the service sees, the client learns.
-/

namespace ConnectAlso.Stun.Client
open Misc

/-- `MAGIC_COOKIE`. -/
def magicCookie : UInt32 := 0x2112A442

/-- `BINDING_REQUEST`. -/
def bindingRequest : UInt16 := 0x0001

/-- `BINDING_SUCCESS`. -/
def bindingSuccess : UInt16 := 0x0101

/-- `ATTR_XOR_MAPPED_ADDRESS`. -/
def attrXorMappedAddress : UInt16 := 0x0020

/-- `HEADER_LEN`. -/
def headerLen : Nat := 20

/-- `IPV4_FAMILY`. -/
def ipv4Family : UInt8 := 0x01

/-- `StunError`. -/
inductive StunError where
  | io (error : IoError)
  | unexpectedResponse (msgType : UInt16)
  | transactionMismatch
  | missingMappedAddress
  | invalidServerAddress
  deriving DecidableEq, Repr

/-- `build_binding_request`. -/
def buildBindingRequest (txId : Octets 12) : List UInt8 :=
  beBytes 2 bindingRequest.toNat ++ (beBytes 2 (0 : UInt16).toNat ++
    (beBytes 4 magicCookie.toNat ++ txId.bytes))

/-- `parse_response`: the message type, the transaction id and the attributes. -/
def parseResponse (data : List UInt8) : Except StunError (UInt16 × Octets 12 × List UInt8) :=
  if h : data.length < headerLen then .error .missingMappedAddress
  else
    have hlength : 20 ≤ data.length := Nat.not_lt.mp h
    let msgType := beU16 data 0
    let msgLen := (beU16 data 2).toNat
    let magic := beU32 data 4
    if magic ≠ magicCookie then .error .missingMappedAddress
    else
      let txId : Octets 12 := ⟨slice data 8 20, slice_length hlength⟩
      let attrEnd := headerLen + min msgLen (data.length - headerLen)
      let attrs := slice data headerLen (min attrEnd data.length)
      .ok (msgType, txId, attrs)

/-- The loop of `parse_xor_mapped_address` from position `pos`. -/
def parseXorMappedAddressFrom (attrs : List UInt8) (pos : Nat) : Option SocketAddr :=
  if pos + 4 ≤ attrs.length then
    let attrType := beU16 attrs pos
    let attrLen := (beU16 attrs (pos + 2)).toNat
    let value := pos + 4
    if h : attrType = attrXorMappedAddress ∧ 8 ≤ attrLen ∧ value + attrLen ≤ attrs.length then
      have hfamily : value + 1 < attrs.length := by omega
      let family := attrs[value + 1]
      if family ≠ ipv4Family then none
      else
        let xPort := beU16 attrs (value + 2)
        let port := xPort ^^^ (magicCookie >>> 16).toUInt16
        let xAddr := beU32 attrs (value + 4)
        let addr := xAddr ^^^ magicCookie
        some { ip := .v4 (Ipv4Addr.ofU32 addr), port }
    else
      -- attributes are padded to a multiple of four bytes
      let pad := (4 - attrLen % 4) % 4
      parseXorMappedAddressFrom attrs (value + attrLen + pad)
  else none
termination_by attrs.length - pos

/-- `parse_xor_mapped_address`. -/
def parseXorMappedAddress (attrs : List UInt8) : Option SocketAddr :=
  parseXorMappedAddressFrom attrs 0

/-- What `discover` makes of the datagram it receives, which is cut to its buffer
    `[0u8; 512]`. -/
def discovered (txId : Octets 12) (datagram : List UInt8) : Except StunError SocketAddr :=
  match parseResponse (datagram.take 512) with
  | .error e => .error e
  | .ok (msgType, respTxId, attrs) =>
    if msgType ≠ bindingSuccess then .error (.unexpectedResponse msgType)
    else if respTxId ≠ txId then .error .transactionMismatch
    else
      match parseXorMappedAddress attrs with
      | none => .error .missingMappedAddress
      | some addr => .ok addr

/-! ## Responses -/

/-- A message that consists of a header and the attributes it announces. -/
theorem parseResponse_eq (msgType : UInt16) (txId : Octets 12) {msgLen : UInt16}
    {attrs : List UInt8} (hattrs : attrs.length = msgLen.toNat) :
    parseResponse (beBytes 2 msgType.toNat ++ (beBytes 2 msgLen.toNat ++
        (beBytes 4 magicCookie.toNat ++ (txId.bytes ++ attrs)))) = .ok (msgType, txId, attrs) := by
  generalize hdata : beBytes 2 msgType.toNat ++ (beBytes 2 msgLen.toNat ++
    (beBytes 4 magicCookie.toNat ++ (txId.bytes ++ attrs))) = data
  have hlength : data.length = headerLen + attrs.length := by
    rw [← hdata]
    simp only [List.length_append, beBytes_length, txId.length_bytes, headerLen]
    omega
  have htype : beU16 data 0 = msgType := by
    rw [← hdata]
    exact @beU16_append [] 0 rfl msgType _
  have hlen : beU16 data 2 = msgLen := by
    rw [← hdata]
    exact beU16_append (by simp) msgLen _
  have hmagic : beU32 data 4 = magicCookie := by
    rw [← hdata, ← List.append_assoc]
    exact beU32_append (by simp) magicCookie _
  have htxId : slice data 8 20 = txId.bytes := by
    rw [← hdata, ← List.append_assoc, ← List.append_assoc, ← List.append_assoc]
    exact slice_append (by simp) (by simp)
  have hslice : slice data headerLen data.length = attrs := by
    have hread := @slice_append (beBytes 2 msgType.toNat ++ beBytes 2 msgLen.toNat ++
      beBytes 4 magicCookie.toNat ++ txId.bytes) attrs [] headerLen data.length
      (by simp [headerLen]) (by simp [hlength, headerLen])
    rw [List.append_nil] at hread
    rw [← hread, ← hdata]
    simp only [List.append_assoc]
  -- the header announces all that follows it
  have hend : min (headerLen + min msgLen.toNat (data.length - headerLen)) data.length =
      data.length := by
    omega
  unfold parseResponse
  rw [dif_neg (by omega)]
  simp only [htype, hlen, hmagic, htxId, hend, hslice, ne_eq, not_true_eq_false, if_false]

/-- The attribute that the service builds, at the start of the attributes. -/
theorem parseXorMappedAddress_append (ip : Ipv4Addr) (port : UInt16) (rest : List UInt8) :
    parseXorMappedAddress (Service.buildXorMappedV4 ip port ++ rest) = some ⟨.v4 ip, port⟩ := by
  generalize hattrs : Service.buildXorMappedV4 ip port ++ rest = attrs
  have hsplit : attrs = beBytes 2 attrXorMappedAddress.toNat ++ (beBytes 2 (8 : UInt16).toNat ++
      (([0x00, ipv4Family] : List UInt8) ++
        (beBytes 2 (port ^^^ (magicCookie >>> 16).toUInt16).toNat ++
          (beBytes 4 (ip.toU32 ^^^ magicCookie).toNat ++ rest)))) := by
    rw [← hattrs, Service.buildXorMappedV4]
    simp only [List.append_assoc]
    rfl
  have hlength : 12 ≤ attrs.length := by
    rw [← hattrs, List.length_append, Service.length_buildXorMappedV4]
    omega
  have htype : beU16 attrs 0 = attrXorMappedAddress := by
    rw [hsplit]
    exact @beU16_append [] 0 rfl attrXorMappedAddress _
  have hlen : beU16 attrs 2 = 8 := by
    rw [hsplit]
    exact beU16_append (by simp) 8 _
  have hfamily : attrs[5] = ipv4Family := by
    have hread : attrs[5]? = some ipv4Family := by
      rw [hsplit]
      rfl
    rwa [List.getElem?_eq_getElem (by omega), Option.some.injEq] at hread
  have hport : beU16 attrs 6 = port ^^^ (magicCookie >>> 16).toUInt16 := by
    rw [hsplit, ← List.append_assoc, ← List.append_assoc]
    exact beU16_append (by simp) _ _
  have haddr : beU32 attrs 8 = ip.toU32 ^^^ magicCookie := by
    rw [hsplit, ← List.append_assoc, ← List.append_assoc, ← List.append_assoc]
    exact beU32_append (by simp) _ _
  have hxor16 : ∀ mask : UInt16, port ^^^ mask ^^^ mask = port := fun mask => by
    rw [UInt16.xor_assoc, UInt16.xor_self, UInt16.xor_zero]
  have hxor32 : ∀ mask : UInt32, ip.toU32 ^^^ mask ^^^ mask = ip.toU32 := fun mask => by
    rw [UInt32.xor_assoc, UInt32.xor_self, UInt32.xor_zero]
  have hlen8 : (8 : UInt16).toNat = 8 := rfl
  have hfour : 4 ≤ attrs.length := by omega
  rw [parseXorMappedAddress, parseXorMappedAddressFrom]
  simp only [Nat.zero_add, Nat.reduceAdd, htype, hlen, hlen8, hlength, hfour, hfamily, hport,
    haddr, hxor16, hxor32, le_refl, and_self, if_true, dif_pos, ne_eq, not_true_eq_false,
    if_false, Ipv4Addr.ofU32_toU32]

theorem parseXorMappedAddress_buildXorMappedV4 (ip : Ipv4Addr) (port : UInt16) :
    parseXorMappedAddress (Service.buildXorMappedV4 ip port) = some ⟨.v4 ip, port⟩ := by
  rw [← List.append_nil (Service.buildXorMappedV4 ip port), parseXorMappedAddress_append]

/-! ## The client and the service -/

/-- The answer to a request: the client's transaction id and the attribute. -/
def bindingResponse (txId : Octets 12) (ip : Ipv4Addr) (port : UInt16) : List UInt8 :=
  beBytes 2 bindingSuccess.toNat ++ (beBytes 2 (12 : UInt16).toNat ++
    (beBytes 4 magicCookie.toNat ++ (txId.bytes ++ Service.buildXorMappedV4 ip port)))

/-- The service answers the client's request, whatever is appended to it. -/
theorem handle_buildBindingRequest (ip : Ipv4Addr) (port : UInt16) (txId : Octets 12)
    (appended : List UInt8) :
    Service.handleBindingRequest (buildBindingRequest txId ++ appended) ⟨.v4 ip, port⟩ =
      some (bindingResponse txId ip port) := by
  have hrequest : buildBindingRequest txId ++ appended =
      beBytes 2 Service.bindingRequest.toNat ++ (beBytes 2 (0 : UInt16).toNat ++
        (beBytes 4 Service.magicCookie.toNat ++ (txId.bytes ++ appended))) := by
    simp only [buildBindingRequest, List.append_assoc]
    rfl
  rw [hrequest]
  exact Service.handleBindingRequest_eq txId.length_bytes 0 appended ip port

theorem parseResponse_bindingResponse (txId : Octets 12) (ip : Ipv4Addr) (port : UInt16) :
    parseResponse (bindingResponse txId ip port) =
      .ok (bindingSuccess, txId, Service.buildXorMappedV4 ip port) :=
  parseResponse_eq bindingSuccess txId (Service.length_buildXorMappedV4 ip port)

/-- Whatever address and port the service sees, whatever the transaction id and whatever
    follows the request: the service answers the client's request, and in the answer the
    client reads success, its transaction id and that address and port. -/
theorem service_answers_client (ip : Ipv4Addr) (port : UInt16) (txId : Octets 12)
    (appended : List UInt8) :
    ∃ response attrs,
      Service.handleBindingRequest (buildBindingRequest txId ++ appended) ⟨.v4 ip, port⟩ =
          some response ∧
        parseResponse response = .ok (bindingSuccess, txId, attrs) ∧
        parseXorMappedAddress attrs = some ⟨.v4 ip, port⟩ :=
  ⟨bindingResponse txId ip port, Service.buildXorMappedV4 ip port,
    handle_buildBindingRequest ip port txId appended, parseResponse_bindingResponse txId ip port,
    parseXorMappedAddress_buildXorMappedV4 ip port⟩

/-- `discover` returns the address in the answer. -/
theorem discovered_bindingResponse (txId : Octets 12) (ip : Ipv4Addr) (port : UInt16) :
    discovered txId (bindingResponse txId ip port) = .ok ⟨.v4 ip, port⟩ := by
  have hresponse : (bindingResponse txId ip port).take 512 = bindingResponse txId ip port :=
    List.take_of_length_le (by simp [bindingResponse, Service.length_buildXorMappedV4])
  rw [discovered, hresponse, parseResponse_bindingResponse]
  simp only [ne_eq, not_true_eq_false, if_false, parseXorMappedAddress_buildXorMappedV4]

/-- Through both main loops: the datagram with which the service answers makes `discover`
    return the address that the request came from. -/
theorem discovered_serviceStep (listen : SocketAddr) (ip : Ipv4Addr) (port : UInt16)
    (txId : Octets 12) :
    ∃ answer, Service.serviceStep listen ⟨⟨.v4 ip, port⟩, listen, buildBindingRequest txId⟩ =
        some answer ∧
      answer.dst = ⟨.v4 ip, port⟩ ∧ discovered txId answer.payload = .ok ⟨.v4 ip, port⟩ := by
  have hrequest :
      (buildBindingRequest txId).take Service.recvBuffer = buildBindingRequest txId ++ [] := by
    rw [List.append_nil]
    exact List.take_of_length_le (by simp [buildBindingRequest, Service.recvBuffer])
  refine ⟨⟨listen, ⟨.v4 ip, port⟩, bindingResponse txId ip port⟩, ?_, rfl,
    discovered_bindingResponse txId ip port⟩
  rw [Service.serviceStep, hrequest, handle_buildBindingRequest]
  rfl

end ConnectAlso.Stun.Client
