import ConnectAlso.Net.Socket

/-!
# The STUN service

`services/stun/src/main.rs`: a Binding Request is answered with the address it came from,
as an XOR-MAPPED-ADDRESS attribute.
-/

namespace ConnectAlso.Stun.Service
open Misc

/-- `MAGIC_COOKIE`. -/
def magicCookie : UInt32 := 0x2112A442

/-- `BINDING_REQUEST`. -/
def bindingRequest : UInt16 := 0x0001

/-- `BINDING_SUCCESS`. -/
def bindingSuccess : UInt16 := 0x0101

/-- `ATTR_XOR_MAPPED_ADDRESS`. -/
def attrXorMappedAddress : UInt16 := 0x0020

/-- `build_xor_mapped_v4`. -/
def buildXorMappedV4 (ip : Ipv4Addr) (port : UInt16) : List UInt8 :=
  let xPort := port ^^^ (magicCookie >>> 16).toUInt16
  let xAddr := ip.toU32 ^^^ magicCookie
  beBytes 2 attrXorMappedAddress.toNat ++ (beBytes 2 (8 : UInt16).toNat ++ ([0x00, 0x01] ++
    (beBytes 2 xPort.toNat ++ beBytes 4 xAddr.toNat)))

/-- `build_xor_mapped_v6`: only the first four octets are masked. -/
def buildXorMappedV6 (ip : Ipv6Addr) (port : UInt16) : List UInt8 :=
  let xPort := port ^^^ (magicCookie >>> 16).toUInt16
  let octets := ip.octets.toList
  let xAddr := (octets.take 4).zipWith (· ^^^ ·) (beBytes 4 magicCookie.toNat) ++ octets.drop 4
  beBytes 2 attrXorMappedAddress.toNat ++ (beBytes 2 (20 : UInt16).toNat ++ ([0x00, 0x02] ++
    (beBytes 2 xPort.toNat ++ xAddr)))

/-- `handle_binding_request`. -/
def handleBindingRequest (data : List UInt8) (clientAddr : SocketAddr) : Option (List UInt8) :=
  if data.length < 20 then none
  else if beU16 data 0 ≠ bindingRequest then none
  else if beU32 data 4 ≠ magicCookie then none
  else
    let txId := slice data 8 20
    let mappedAttr :=
      match clientAddr.ip with
      | .v4 ip => buildXorMappedV4 ip clientAddr.port
      | .v6 ip => buildXorMappedV6 ip clientAddr.port
    some (beBytes 2 bindingSuccess.toNat ++ (beBytes 2 mappedAttr.length ++
      (beBytes 4 magicCookie.toNat ++ (txId ++ mappedAttr))))

/-- The receive buffer `[0u8; 512]`. -/
def recvBuffer : Nat := 512

/-- One iteration of the main loop: the datagram sent, if any. -/
def serviceStep (listen : SocketAddr) (datagram : Datagram) : Option Datagram :=
  (handleBindingRequest (datagram.payload.take recvBuffer) datagram.src).map fun response =>
    { src := listen, dst := datagram.src, payload := response }

theorem length_buildXorMappedV4 (ip : Ipv4Addr) (port : UInt16) :
    (buildXorMappedV4 ip port).length = 12 := by
  simp only [buildXorMappedV4, List.length_append, beBytes_length, List.length_cons,
    List.length_nil]

/-- A message that starts like a Binding Request is answered, whatever follows the
    transaction id. -/
theorem handleBindingRequest_eq {txId : List UInt8} (htxId : txId.length = 12) (msgLen : UInt16)
    (attrs : List UInt8) (ip : Ipv4Addr) (port : UInt16) :
    handleBindingRequest (beBytes 2 bindingRequest.toNat ++ (beBytes 2 msgLen.toNat ++
        (beBytes 4 magicCookie.toNat ++ (txId ++ attrs)))) ⟨.v4 ip, port⟩ =
      some (beBytes 2 bindingSuccess.toNat ++ (beBytes 2 (12 : UInt16).toNat ++
        (beBytes 4 magicCookie.toNat ++ (txId ++ buildXorMappedV4 ip port)))) := by
  generalize hdata : beBytes 2 bindingRequest.toNat ++ (beBytes 2 msgLen.toNat ++
    (beBytes 4 magicCookie.toNat ++ (txId ++ attrs))) = data
  have hlength : ¬ data.length < 20 := by
    rw [← hdata]
    simp only [List.length_append, beBytes_length, htxId]
    omega
  have htype : beU16 data 0 = bindingRequest := by
    rw [← hdata]
    exact @beU16_append [] 0 rfl bindingRequest _
  have hmagic : beU32 data 4 = magicCookie := by
    rw [← hdata, ← List.append_assoc]
    exact beU32_append (by simp) magicCookie _
  have hslice : slice data 8 20 = txId := by
    rw [← hdata, ← List.append_assoc, ← List.append_assoc, ← List.append_assoc]
    exact slice_append (by simp) (by simp [htxId])
  unfold handleBindingRequest
  simp only [if_neg hlength, htype, hmagic, hslice, length_buildXorMappedV4, ne_eq,
    not_true_eq_false, if_false]
  rfl

end ConnectAlso.Stun.Service
