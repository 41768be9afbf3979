import ConnectAlso.Tunnel.Direction

/-!
# Repeated packets

Two tunnels and a network that keeps every datagram it has been given and hands any
of them, at any time and as often as it likes, to either endpoint. `recv_from` keeps no
record of the nonces it has accepted, so it returns a packet as often as the network
hands it over: a packet is returned at most once exactly when the network does not
repeat it.
-/

namespace ConnectAlso.Tunnel
open Misc Crypto

/-- The longest payload of a UDP datagram: the length field of 16 bits counts the
    header of 8 bytes. -/
def maxUdpPayload : Nat := 65535 - 8

/-- Two tunnels and the network between them: the datagrams it has taken with the
    endpoint that sent each; the ones it has handed to the other endpoint, by their
    position, in order; and those of them that `recv_from` returned as a plaintext. -/
structure Wire where
  pair : Pair
  sent : List (Side × Datagram)
  handed : List Nat
  accepted : List Nat

/-- An endpoint calls `send_to`, or the network hands the datagram at a position to an
    endpoint that is waiting in `recv_from`, under any source address. -/
inductive WireEvent where
  | send (side : Side) (plaintext : List UInt8) (peer : SocketAddr)
  | deliver (position : Nat) (side : Side) (src : SocketAddr)

namespace Wire

/-- Before the first packet. -/
def start (initiator responder : Tunnel) : Wire where
  pair := Pair.start initiator responder
  sent := []
  handed := []
  accepted := []

/-- The datagrams of a `send_to` that the network can carry. -/
def carried (aead : Aead) (net : Network) (tunnel : Tunnel) (plaintext : List UInt8)
    (peer : SocketAddr) : List Datagram :=
  (tunnel.sendTo aead net plaintext peer).1.sent.filter fun datagram =>
    datagram.payload.length ≤ maxUdpPayload

/-- One event. What an endpoint makes of its own packets is not recorded. -/
def step (aead : Aead) (net : Network) (wire : Wire) : WireEvent → Wire
  | .send side plaintext peer => { wire with
      pair := wire.pair.step aead net (.send side plaintext peer)
      sent := wire.sent ++
        (carried aead net (wire.pair.tunnels side) plaintext peer).map (side, ·) }
  | .deliver position side src =>
    match wire.sent[position]? with
    | none => wire
    | some (origin, datagram) =>
      let arrived := { datagram with src }
      let pair := wire.pair.step aead net (.deliver side arrived)
      if side = origin.other then
        match (wire.pair.tunnels side).recvFrom aead arrived with
        | .error _ => { wire with pair, handed := wire.handed ++ [position] }
        | .ok _ => { wire with
            pair, handed := wire.handed ++ [position], accepted := wire.accepted ++ [position] }
      else { wire with pair }

/-- No packet has been returned twice by the `recv_from` of the endpoint it was sent to. -/
def AtMostOnce (wire : Wire) : Prop := wire.accepted.Nodup

/-- The network does not hand a packet to the other endpoint that it has handed to it
    before. -/
def NotRepeated (wire : Wire) : WireEvent → Prop
  | .send _ _ _ => True
  | .deliver position side _ => ∀ origin datagram,
    wire.sent[position]? = some (origin, datagram) → side = origin.other → position ∉ wire.handed

/-! ## What the network carries -/

/-- Everything on the network is a packet of one of the endpoints and fits into a
    receive buffer, and everything that was handed over was returned. -/
structure Carries (aead : Aead) (secret : Octets 32) (wire : Wire) : Prop where
  keyed : Keyed aead secret wire.pair
  packets : ∀ entry ∈ wire.sent, entry.2.payload.length ≤ maxPacket ∧
    ∃ encryption ∈ wire.pair.encryptions, encryption.packet = .ok entry.2.payload
  accepted : wire.accepted = wire.handed

theorem carries_start (aead : Aead) {secret : Octets 32}
    {boundInitiator boundResponder : Except IoError SocketAddr} {initiator responder : Tunnel}
    (hinitiator : bindInitiator boundInitiator secret = .ok initiator)
    (hresponder : bindResponder boundResponder secret = .ok responder) :
    Carries aead secret (start initiator responder) := by
  refine ⟨keyed_start aead hinitiator hresponder, ?_, rfl⟩
  intro entry hentry
  cases hentry

/-- What a `send_to` puts on the network is the packet of its encryption. -/
theorem mem_carried {aead : Aead} {net : Network} {tunnel : Tunnel} {plaintext : List UInt8}
    {peer : SocketAddr} {datagram : Datagram}
    (h : datagram ∈ carried aead net tunnel plaintext peer) :
    datagram.payload.length ≤ maxPacket ∧
      (tunnel.txCipher.encrypt aead plaintext).1 = .ok datagram.payload := by
  obtain ⟨hsent, hfits⟩ := List.mem_filter.mp h
  refine ⟨(of_decide_eq_true hfits).trans (by decide), ?_⟩
  rw [sendTo_sent] at hsent
  cases hmade : (tunnel.txCipher.encrypt aead plaintext).1 with
  | error e =>
      rw [hmade] at hsent
      cases hsent
  | ok packet =>
      rw [hmade] at hsent
      rw [List.mem_singleton.mp hsent]

/-- A packet that is handed over is returned, whatever has been returned before. -/
theorem recvFrom_of_carries {aead : Aead} {secret : Octets 32} {wire : Wire}
    (h : Carries aead secret wire) {position : Nat} {origin : Side} {datagram : Datagram}
    (hsent : wire.sent[position]? = some (origin, datagram)) (side : Side) (src : SocketAddr) :
    ∃ plaintext, (wire.pair.tunnels side).recvFrom aead { datagram with src } =
      .ok (plaintext, src) := by
  obtain ⟨hfits, encryption, hmem, hpacket⟩ := h.packets _ (List.mem_of_getElem? hsent)
  refine ⟨encryption.plaintext, recvFrom_of_packet h.keyed hmem side ?_⟩
  rw [hpacket, received, List.take_of_length_le hfits]

/-- A delivery to the other endpoint adds its position to both records. -/
theorem step_deliver {aead : Aead} {secret : Octets 32} {wire : Wire}
    (h : Carries aead secret wire) (net : Network) {position : Nat} {origin : Side}
    {datagram : Datagram} (hsent : wire.sent[position]? = some (origin, datagram)) {side : Side}
    (hside : side = origin.other) (src : SocketAddr) :
    wire.step aead net (.deliver position side src) = { wire with
      handed := wire.handed ++ [position], accepted := wire.accepted ++ [position] } := by
  obtain ⟨plaintext, hrecv⟩ := recvFrom_of_carries h hsent side src
  simp only [step, hsent, if_pos hside, hrecv]
  rfl

/-- Any other delivery changes nothing. -/
theorem step_deliver_of_not {aead : Aead} {net : Network} {wire : Wire} {position : Nat}
    {side : Side} (hother : ∀ origin datagram, wire.sent[position]? = some (origin, datagram) →
      side ≠ origin.other) (src : SocketAddr) :
    wire.step aead net (.deliver position side src) = wire := by
  cases hsent : wire.sent[position]? with
  | none => simp only [step, hsent]
  | some entry =>
      obtain ⟨origin, datagram⟩ := entry
      simp only [step, hsent, if_neg (hother origin datagram hsent)]
      rfl

/-- A delivery is to the other endpoint, or it changes nothing. -/
theorem step_deliver_cases {aead : Aead} {secret : Octets 32} {wire : Wire}
    (h : Carries aead secret wire) (net : Network) (position : Nat) (side : Side)
    (src : SocketAddr) :
    (∃ origin datagram, wire.sent[position]? = some (origin, datagram) ∧ side = origin.other ∧
        wire.step aead net (.deliver position side src) = { wire with
          handed := wire.handed ++ [position], accepted := wire.accepted ++ [position] }) ∨
      (∀ origin datagram, wire.sent[position]? = some (origin, datagram) → side ≠ origin.other) ∧
        wire.step aead net (.deliver position side src) = wire := by
  by_cases hother : ∀ origin datagram, wire.sent[position]? = some (origin, datagram) →
      side ≠ origin.other
  · exact Or.inr ⟨hother, step_deliver_of_not hother src⟩
  · push Not at hother
    obtain ⟨origin, datagram, hsent, hside⟩ := hother
    exact Or.inl ⟨origin, datagram, hsent, hside, step_deliver h net hsent hside src⟩

theorem carries_step {aead : Aead} {secret : Octets 32} (net : Network) (wire : Wire)
    (event : WireEvent) (h : Carries aead secret wire) :
    Carries aead secret (wire.step aead net event) := by
  cases event with
  | send side plaintext peer =>
      refine ⟨step_keyed net wire.pair (.send side plaintext peer) h.keyed, ?_, h.accepted⟩
      intro entry hentry
      rcases List.mem_append.mp hentry with hold | hnew
      · obtain ⟨hfits, encryption, hmem, hpacket⟩ := h.packets entry hold
        exact ⟨hfits, encryption, List.mem_append_left _ hmem, hpacket⟩
      · obtain ⟨datagram, hcarried, rfl⟩ := List.mem_map.mp hnew
        obtain ⟨hfits, hmade⟩ := mem_carried hcarried
        exact ⟨hfits, _, List.mem_append_right _ (List.mem_singleton.mpr rfl), hmade⟩
  | deliver position side src =>
      rcases step_deliver_cases h net position side src with
        ⟨origin, datagram, -, -, hstep⟩ | ⟨-, hstep⟩
      · rw [hstep]
        exact ⟨h.keyed, h.packets, congrArg (· ++ [position]) h.accepted⟩
      · rwa [hstep]

/-! ## At most once -/

theorem atMostOnce_step_iff {aead : Aead} {secret : Octets 32} (net : Network) (wire : Wire)
    (event : WireEvent) (h : Carries aead secret wire) (honce : AtMostOnce wire) :
    AtMostOnce (wire.step aead net event) ↔ NotRepeated wire event := by
  cases event with
  | send side plaintext peer => exact iff_of_true honce trivial
  | deliver position side src =>
      rcases step_deliver_cases h net position side src with
        ⟨origin, datagram, hsent, hside, hstep⟩ | ⟨hother, hstep⟩
      · rw [hstep, AtMostOnce, List.nodup_append]
        refine ⟨?_, ?_⟩
        · rintro ⟨-, -, hnew⟩ _ _ _ _ hmem
          rw [← h.accepted] at hmem
          exact hnew position hmem position (List.mem_singleton.mpr rfl) rfl
        · intro hnew
          refine ⟨honce, List.nodup_singleton _, ?_⟩
          intro earlier hmem later hlater heq
          rw [List.mem_singleton.mp hlater] at heq
          rw [heq, h.accepted] at hmem
          exact hnew origin datagram hsent hside hmem
      · rw [hstep]
        exact iff_of_true honce fun origin datagram hsent hside =>
          absurd hside (hother origin datagram hsent)

/-- In every run of an initiator and a responder with one secret, over a network that
    may hand over every datagram in any order and any number of times, each packet is
    returned at most once by the endpoint it was sent to exactly when the network never
    hands a packet to that endpoint a second time. -/
theorem at_most_once_iff {aead : Aead} {net : Network} {secret : Octets 32}
    {boundInitiator boundResponder : Except IoError SocketAddr} {initiator responder : Tunnel}
    (hinitiator : bindInitiator boundInitiator secret = .ok initiator)
    (hresponder : bindResponder boundResponder secret = .ok responder) (events : List WireEvent) :
    Throughout (step aead net) AtMostOnce (start initiator responder) events ↔
      EachStep (step aead net) NotRepeated (start initiator responder) events :=
  throughout_iff_eachStep (carries_step net) (atMostOnce_step_iff net)
    (carries_start aead hinitiator hresponder) List.nodup_nil events

/-- Two tunnels that have just been bound with the all-zero secret. -/
def fresh : Wire :=
  start
    ⟨.localhost 40001, SessionCipher.new zeroSecret 0, SessionCipher.new zeroSecret 0⟩
    ⟨.localhost 40002, SessionCipher.new zeroSecret responderTxOffset,
      SessionCipher.new zeroSecret 0⟩

/-- The initiator sends `[1]`, and the network hands the packet over `times` times. -/
def repeated (times : Nat) : List WireEvent :=
  .send .initiator [1] (.localhost 40002) ::
    List.replicate times (.deliver 0 .responder (.localhost 40001))

/-- A packet that is handed over once. -/
theorem delivered_at_most_once :
    Throughout (step chacha20Poly1305 Network.ideal) AtMostOnce fresh (repeated 1) := by
  refine (@at_most_once_iff chacha20Poly1305 Network.ideal zeroSecret (.ok (.localhost 40001))
    (.ok (.localhost 40002)) _ _ rfl rfl (repeated 1)).mpr ?_
  refine (eachStep_cons _ _ _ _ _).mpr ⟨trivial,
    (eachStep_cons _ _ _ _ _).mpr ⟨?_, eachStep_nil _ _ _⟩⟩
  intro origin datagram _ _ hmem
  cases hmem

/-- A packet that is handed over twice is returned twice. -/
theorem repeated_packet_accepted :
    ¬ Throughout (step chacha20Poly1305 Network.ideal) AtMostOnce fresh (repeated 2) := by
  intro honce
  have haccepted : (run (step chacha20Poly1305 Network.ideal) fresh (repeated 2)).accepted =
      [0, 0] := by
    decide +kernel
  have hnodup := honce (repeated 2) (List.prefix_refl _)
  rw [AtMostOnce, haccepted] at hnodup
  revert hnodup
  decide

end Wire

end ConnectAlso.Tunnel
