import ConnectAlso.Tunnel.Tunnel

/-!
# Where received plaintexts come from

What `recv_from` returns against a network that loses, reorders, repeats and
redirects packets and may hand any other bytes to an endpoint, as long as those
do not decrypt. The two directions share one key and `recv_from` looks at neither
the counter in the nonce nor the sender's address, so a plaintext comes from one of
the two endpoints, but not always from the other one.
-/

namespace ConnectAlso.Tunnel
open Misc Crypto

/-- The attacker does not forge: a delivered datagram that decrypts carries a packet
    that `SessionCipher::encrypt` has returned before. -/
def Unforged (aead : Aead) (pair : Pair) : Event → Prop
  | .send _ _ _ => True
  | .deliver side datagram =>
    (∃ result, (pair.tunnels side).recvFrom aead datagram = .ok result) →
      ∃ encryption ∈ pair.encryptions, encryption.packet = .ok (received datagram)

/-- The datagram is a packet that the endpoint itself has made. -/
def OwnPacket (pair : Pair) (side : Side) (datagram : Datagram) : Prop :=
  ∃ encryption ∈ pair.encryptions,
    encryption.side = side ∧ encryption.packet = .ok (received datagram)

/-- The endpoint has passed the plaintext to `send_to`. -/
def SentBy (pair : Pair) (side : Side) (plaintext : List UInt8) : Prop :=
  ∃ encryption ∈ pair.encryptions, encryption.side = side ∧ encryption.plaintext = plaintext

/-- What `recv_from` returns was sent by the other endpoint. -/
def FromOther (aead : Aead) (pair : Pair) : Event → Prop
  | .send _ _ _ => True
  | .deliver side datagram => ∀ plaintext sender,
    (pair.tunnels side).recvFrom aead datagram = .ok (plaintext, sender) →
      SentBy pair side.other plaintext

/-- What `recv_from` returns was sent by one of the endpoints, and by the other one
    unless the datagram is a packet of the receiver. -/
def FromEndpoint (aead : Aead) (pair : Pair) : Event → Prop
  | .send _ _ _ => True
  | .deliver side datagram => ∀ plaintext sender,
    (pair.tunnels side).recvFrom aead datagram = .ok (plaintext, sender) →
      (∃ origin, SentBy pair origin plaintext) ∧
        (¬ OwnPacket pair side datagram → SentBy pair side.other plaintext)

/-! ## The keys of a run -/

/-- Everything is encrypted and decrypted under the one secret, and the record of an
    encryption is what a cipher with that key returns. -/
structure Keyed (aead : Aead) (secret : Octets 32) (pair : Pair) : Prop where
  tx : ∀ side, (pair.tunnels side).txCipher.key = secret
  rx : ∀ side, (pair.tunnels side).rxCipher.key = secret
  made : ∀ encryption ∈ pair.encryptions, ∃ cipher : SessionCipher, cipher.key = secret ∧
    (cipher.encrypt aead encryption.plaintext).1 = encryption.packet

theorem keyed_start (aead : Aead) {secret : Octets 32}
    {boundInitiator boundResponder : Except IoError SocketAddr} {initiator responder : Tunnel}
    (hinitiator : bindInitiator boundInitiator secret = .ok initiator)
    (hresponder : bindResponder boundResponder secret = .ok responder) :
    Keyed aead secret (Pair.start initiator responder) := by
  obtain ⟨htxInitiator, hrxInitiator⟩ := bindWithNonce_eq_ok hinitiator
  obtain ⟨htxResponder, hrxResponder⟩ := bindWithNonce_eq_ok hresponder
  refine ⟨?_, ?_, ?_⟩
  · intro side
    cases side with
    | initiator => simp [Pair.start, htxInitiator]
    | responder => simp [Pair.start, htxResponder]
  · intro side
    cases side with
    | initiator => simp [Pair.start, hrxInitiator]
    | responder => simp [Pair.start, hrxResponder]
  · intro encryption hmem
    cases hmem

theorem step_keyed {aead : Aead} {secret : Octets 32} (net : Network) (pair : Pair)
    (event : Event) (h : Keyed aead secret pair) : Keyed aead secret (pair.step aead net event) := by
  cases event with
  | deliver side datagram => exact h
  | send side plaintext peer =>
      refine ⟨?_, ?_, ?_⟩
      · intro s
        by_cases hs : s = side
        · subst hs
          simp [Pair.step, h.tx s]
        · simp [Pair.step, Function.update_of_ne hs, h.tx s]
      · intro s
        by_cases hs : s = side
        · subst hs
          simp [Pair.step, h.rx s]
        · simp [Pair.step, Function.update_of_ne hs, h.rx s]
      · intro encryption hmem
        rcases List.mem_append.mp hmem with hold | hnew
        · exact h.made encryption hold
        · rw [List.mem_singleton.mp hnew]
          exact ⟨(pair.tunnels side).txCipher, h.tx side, rfl⟩

/-! ## What a delivery returns -/

/-- A delivered packet decrypts to the plaintext of the encryption that made it. -/
theorem recvFrom_of_packet {aead : Aead} {secret : Octets 32} {pair : Pair}
    (h : Keyed aead secret pair) {encryption : Encryption} (hmem : encryption ∈ pair.encryptions)
    (side : Side) {datagram : Datagram} (hpacket : encryption.packet = .ok (received datagram)) :
    (pair.tunnels side).recvFrom aead datagram = .ok (encryption.plaintext, datagram.src) := by
  obtain ⟨cipher, hkey, hmade⟩ := h.made encryption hmem
  rw [recvFrom_eq_ok]
  exact ⟨SessionCipher.decrypt_of_encrypt ((h.rx side).trans hkey.symm) (hmade.trans hpacket), rfl⟩

/-- Without forgery, a plaintext comes from the endpoint that made its packet. -/
theorem fromEndpoint_of_unforged {aead : Aead} {secret : Octets 32} {pair : Pair}
    (h : Keyed aead secret pair) {event : Event} (hunforged : Unforged aead pair event) :
    FromEndpoint aead pair event := by
  cases event with
  | send side plaintext peer => trivial
  | deliver side datagram =>
      intro plaintext sender hrecv
      obtain ⟨encryption, hmem, hpacket⟩ := hunforged ⟨_, hrecv⟩
      rw [recvFrom_of_packet h hmem side hpacket] at hrecv
      obtain ⟨hplaintext, -⟩ := Prod.mk.inj (Except.ok.inj hrecv)
      refine ⟨⟨encryption.side, encryption, hmem, rfl, hplaintext⟩, ?_⟩
      intro hforeign
      have hne : encryption.side ≠ side := fun hside => hforeign ⟨encryption, hmem, hside, hpacket⟩
      refine ⟨encryption, hmem, ?_, hplaintext⟩
      cases hmade : encryption.side with
      | initiator =>
          cases side with
          | initiator => exact absurd hmade hne
          | responder => rfl
      | responder =>
          cases side with
          | initiator => rfl
          | responder => exact absurd hmade hne

/-- In every run of an initiator and a responder with one secret against an attacker
    who does not forge, each plaintext that `recv_from` returns was passed to `send_to`
    by one of the endpoints, and by the other endpoint unless the datagram is a packet
    of the receiver itself. -/
theorem recvFrom_fromEndpoint {aead : Aead} {net : Network} {secret : Octets 32}
    {boundInitiator boundResponder : Except IoError SocketAddr} {initiator responder : Tunnel}
    (hinitiator : bindInitiator boundInitiator secret = .ok initiator)
    (hresponder : bindResponder boundResponder secret = .ok responder) {events : List Event}
    (hunforged : EachStep (Pair.step aead net) (Unforged aead) (Pair.start initiator responder)
      events) :
    EachStep (Pair.step aead net) (FromEndpoint aead) (Pair.start initiator responder) events := by
  intro past event hpast
  have hkeyed : Keyed aead secret (run (Pair.step aead net) (Pair.start initiator responder) past) :=
    run_invariant (step_keyed net) (keyed_start aead hinitiator hresponder) past
  exact fromEndpoint_of_unforged hkeyed (hunforged past event hpast)

/-- The initiator's first packet, for the plaintext `[1]`. -/
def firstPacket : List UInt8 :=
  ((SessionCipher.new zeroSecret 0).encrypt chacha20Poly1305 [1]).1.toOption.getD []

/-- The initiator sends `[1]` and the network hands the packet to `side`. -/
def deliveredTo (side : Side) : List Event :=
  [.send .initiator [1] (.localhost 40002),
    .deliver side ⟨.localhost 40001, .localhost 40002, firstPacket⟩]

private theorem encrypt_firstPacket :
    ((SessionCipher.new zeroSecret 0).encrypt chacha20Poly1305 [1]).1 = .ok firstPacket := by
  decide +kernel

private theorem received_firstPacket (src dst : SocketAddr) :
    received ⟨src, dst, firstPacket⟩ = firstPacket := by
  apply List.take_of_length_le
  rw [SessionCipher.length_of_encrypt encrypt_firstPacket]
  decide

private theorem deliveredTo_unforged (side : Side) :
    EachStep (Pair.step chacha20Poly1305 Network.ideal) (Unforged chacha20Poly1305) Pair.fresh
      (deliveredTo side) := by
  rw [deliveredTo, eachStep_cons, eachStep_cons]
  refine ⟨trivial, ?_, eachStep_nil _ _ _⟩
  intro _
  refine ⟨_, List.mem_singleton.mpr rfl, ?_⟩
  rw [received_firstPacket]
  exact encrypt_firstPacket

theorem deliveredTo_responder_fromEndpoint :
    EachStep (Pair.step chacha20Poly1305 Network.ideal) (FromEndpoint chacha20Poly1305) Pair.fresh
      (deliveredTo .responder) :=
  @recvFrom_fromEndpoint chacha20Poly1305 Network.ideal zeroSecret (.ok (.localhost 40001))
    (.ok (.localhost 40002)) _ _ rfl rfl _ (deliveredTo_unforged .responder)

/-- A packet that the network hands back to the initiator is accepted by it, although
    the responder has sent nothing. -/
theorem reflected_packet_accepted :
    EachStep (Pair.step chacha20Poly1305 Network.ideal) (Unforged chacha20Poly1305) Pair.fresh
        (deliveredTo .initiator) ∧
      ¬ EachStep (Pair.step chacha20Poly1305 Network.ideal) (FromOther chacha20Poly1305) Pair.fresh
        (deliveredTo .initiator) := by
  refine ⟨deliveredTo_unforged .initiator, ?_⟩
  intro hother
  rw [deliveredTo, eachStep_cons, eachStep_cons] at hother
  have hkeyed := step_keyed Network.ideal Pair.fresh (.send .initiator [1] (.localhost 40002))
    (@keyed_start chacha20Poly1305 zeroSecret (.ok (.localhost 40001)) (.ok (.localhost 40002))
      _ _ rfl rfl)
  have hpacket : (encryptionOf chacha20Poly1305 .initiator (Pair.fresh.tunnels .initiator)
      [1]).packet = .ok (received ⟨.localhost 40001, .localhost 40002, firstPacket⟩) := by
    rw [received_firstPacket]
    exact encrypt_firstPacket
  obtain ⟨encryption, hmem, hside, -⟩ := hother.2.1 _ _
    (recvFrom_of_packet hkeyed (List.mem_singleton.mpr rfl) .initiator hpacket)
  rw [List.mem_singleton.mp hmem] at hside
  cases hside

end ConnectAlso.Tunnel
