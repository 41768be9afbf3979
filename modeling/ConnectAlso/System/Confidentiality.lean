import ConnectAlso.Daemon.Forward
import ConnectAlso.Mobile.Engine

/-!
# What the relay gets to see

The two send paths, followed from the packet to the bytes that go to the relay. Both
hand the packet as it is to `RelayClient::send`, so the relay receives the packet
itself and not a `SessionCipher` packet for it.
-/

namespace ConnectAlso
open Misc RelayProto

/-- The payload is a `SessionCipher` packet for the plaintext, under some key. -/
def Sealed (aead : Aead) (plaintext payload : List UInt8) : Prop :=
  ∃ (key : Octets 32) (nonce : Octets 12) (ciphertext : List UInt8),
    aead.encrypt key nonce plaintext = some ciphertext ∧ payload = nonce.bytes ++ ciphertext

/-- Every DATA frame among the datagrams carries a sealed form of the plaintext. -/
def RelayPayloadsSealed (aead : Aead) (plaintext : List UInt8) (datagrams : List Datagram) : Prop :=
  ∀ datagram ∈ datagrams, ∀ frame, RelayFrame.decode datagram.payload = .ok frame →
    frame.msgType = .data → Sealed aead plaintext frame.payload

theorem relayPayloadsSealed_nil (aead : Aead) (plaintext : List UInt8) :
    RelayPayloadsSealed aead plaintext [] := by
  intro datagram hmem
  cases hmem

/-- A sealed form is 28 bytes longer than the plaintext. -/
theorem length_of_sealed {aead : Aead} {plaintext payload : List UInt8}
    (h : Sealed aead plaintext payload) : payload.length = plaintext.length + 28 := by
  obtain ⟨key, nonce, ciphertext, hencrypt, rfl⟩ := h
  rw [List.length_append, Octets.length_bytes, aead.encrypt_length hencrypt]
  omega

/-- A relay client seals what it is given only when it sends nothing at all. -/
theorem client_sealed_iff (aead : Aead) (net : Network) (client : RelayClient)
    (packet : List UInt8) :
    RelayPayloadsSealed aead packet (client.send net packet).sent ↔
      maxPayload < packet.length := by
  by_cases hlong : maxPayload < packet.length
  · rw [RelayClient.send_of_lt net client hlong]
    simp [hlong, relayPayloadsSealed_nil]
  · obtain ⟨encoded, hencode, hsent⟩ := RelayClient.send_of_le net client (Nat.not_lt.mp hlong)
    rw [hsent]
    simp only [hlong, iff_false]
    intro hsealed
    -- the relay decodes the frame and finds the packet itself in it
    have hdecode : RelayFrame.decode encoded =
        .ok (RelayFrame.data client.ourId client.peerId packet) := by
      simpa using RelayFrame.decode_encode hencode []
    have hlength := length_of_sealed
      (hsealed _ (List.mem_singleton.mpr rfl) _ hdecode rfl)
    have hpayload : (RelayFrame.data client.ourId client.peerId packet).payload.length =
        packet.length := rfl
    omega

/-- What the relay receives is sealed exactly when it receives nothing. In the daemon:
    the packet has no route, or is longer than a frame's payload. In the mobile
    engine: no peer has the address, or the packet is longer than a frame's payload. -/
theorem relay_payloads_sealed_iff (aead : Aead) (net : Network) (packet : List UInt8) :
    (∀ state : Daemon.SharedState,
      RelayPayloadsSealed aead packet (Daemon.forwardPacket net state packet).sent ↔
        Daemon.routeOf state packet = none ∨ maxPayload < packet.length) ∧
    (∀ (engine : Mobile.TunnelEngine) (dstIp : Ipv4Addr),
      RelayPayloadsSealed aead packet (engine.sendToPeerInner net packet dstIp).sent ↔
        (∀ peer ∈ engine.peers, peer.2.vip ≠ dstIp) ∨ maxPayload < packet.length) := by
  refine ⟨?_, ?_⟩
  · intro state
    rw [Daemon.sent_forwardPacket]
    cases hroute : Daemon.routeOf state packet with
    | none => simp [relayPayloadsSealed_nil]
    | some link => simp [client_sealed_iff]
  · intro engine dstIp
    rw [Mobile.TunnelEngine.sent_sendToPeerInner]
    cases hfind : engine.peers.find? fun peer => peer.2.vip = dstIp with
    | none =>
        have hnone : ∀ peer ∈ engine.peers, peer.2.vip ≠ dstIp := by
          simpa using List.find?_eq_none.mp hfind
        simp only [relayPayloadsSealed_nil, true_iff]
        exact Or.inl hnone
    | some peer =>
        have hvip : peer.2.vip = dstIp := by simpa using List.find?_some hfind
        have hmem := List.mem_of_find?_eq_some hfind
        simp only [client_sealed_iff]
        constructor
        · intro hlong
          exact Or.inr hlong
        · intro hcases
          rcases hcases with hnone | hlong
          · exact absurd hvip (hnone peer hmem)
          · exact hlong

/-! ### A packet that reaches the relay as it is -/

/-- An IPv4 header without payload, to 10.0.0.2. -/
def plainPacket : List UInt8 := [0x45, 0, 0, 20] ++ List.replicate 12 0 ++ [10, 0, 0, 2]

/-- A relay client of the nil id. -/
def plainClient : RelayClient :=
  { socket := .localhost 40001, relayAddr := .localhost 33478, ourId := Uuid.nil,
    peerId := Uuid.nil }

/-- A daemon whose only peer has the address 10.0.0.2. -/
def plainDaemon : Daemon.SharedState :=
  Daemon.SharedState.mk
    (fun vip => if vip = ⟨10, 0, 0, 2⟩ then some Uuid.nil else none)
    (fun _ => some {
      hostname := "peer", vip := ⟨10, 0, 0, 2⟩, publicKey := Octets.replicate 32 0,
      path := PathManager.new plainClient ⟨.v4 ⟨10, 0, 0, 2⟩, 0⟩, p2pRetryMs := 200 })

/-- A mobile engine whose only peer has the address 10.0.0.2. -/
def plainEngine : Mobile.TunnelEngine where
  ourId := Uuid.nil
  ourIp := ⟨10, 0, 0, 1⟩
  relayServer := .localhost 33478
  peers := [(Uuid.nil, { vip := ⟨10, 0, 0, 2⟩, relay := plainClient })]
  state := .connected
  activity := .active
  lastTraffic := 0
  outboundQueue := []

/-- Both applications send the packet to the relay, and its payload is the packet. -/
theorem plainPacket_not_sealed :
    ¬ RelayPayloadsSealed chacha20Poly1305 plainPacket
        (Daemon.forwardPacket Network.ideal plainDaemon plainPacket).sent ∧
      ¬ RelayPayloadsSealed chacha20Poly1305 plainPacket
        (plainEngine.sendToPeerInner Network.ideal plainPacket ⟨10, 0, 0, 2⟩).sent := by
  have hclient : ¬ RelayPayloadsSealed chacha20Poly1305 plainPacket
      (plainClient.send Network.ideal plainPacket).sent := by
    rw [client_sealed_iff]
    decide
  refine ⟨?_, ?_⟩
  · rw [Daemon.sent_forwardPacket]
    exact hclient
  · rw [Mobile.TunnelEngine.sent_sendToPeerInner]
    exact hclient

end ConnectAlso
