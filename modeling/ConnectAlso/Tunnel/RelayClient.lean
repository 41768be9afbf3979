import ConnectAlso.RelayProto.Frame

/-!
# The relay client

`RelayClient` of `crates/tunnel/src/relay.rs`: one socket, the relay's address, our
id and the id of one peer. `send` wraps its argument in a DATA frame as it is; its
parameter is named `encrypted_data`, but nothing here encrypts.
-/

namespace ConnectAlso
open RelayProto

/-- `RelayClient`; a socket is its local address. -/
structure RelayClient where
  socket : SocketAddr
  relayAddr : SocketAddr
  ourId : PeerId
  peerId : PeerId
  deriving DecidableEq, Repr

namespace RelayClient

/-- `RelayClient::register`; `bound` is what `UdpSocket::bind` answers. -/
def register (net : Network) (bound : Except IoError SocketAddr) (relayAddr : SocketAddr)
    (ourId peerId : PeerId) : Effect IoError RelayClient := do
  let socket ← Effect.ofExcept bound
  let encoded ← Effect.expect (RelayFrame.hello ourId).encode "hello fits"
  let _ ← Effect.sendTo net { src := socket, dst := relayAddr, payload := encoded }
  return { socket, relayAddr, ourId, peerId }

/-- `RelayClient::send`. -/
def send (net : Network) (client : RelayClient) (encryptedData : List UInt8) :
    Effect IoError Nat := do
  let frame := RelayFrame.data client.ourId client.peerId encryptedData
  let encoded ← Effect.expect frame.encode "payload fits"
  Effect.sendTo net { src := client.socket, dst := client.relayAddr, payload := encoded }

/-- `RelayClient::keepalive`. -/
def keepalive (net : Network) (client : RelayClient) : Effect IoError Unit := do
  let encoded ← Effect.expect (RelayFrame.keepalive client.ourId).encode "keepalive fits"
  let _ ← Effect.sendTo net { src := client.socket, dst := client.relayAddr, payload := encoded }
  return ()

/-- The receive buffer `[0u8; 4096]`. -/
def recvBuffer : Nat := 4096

/-- The filter of `RelayClient::recv`: a DATA frame whose sender is our peer. -/
def accepts (client : RelayClient) (datagram : Datagram) : Option (List UInt8 × PeerId) :=
  match RelayFrame.decode (datagram.payload.take recvBuffer) with
  | .error _ => none
  | .ok frame =>
    if frame.msgType = .data ∧ frame.senderId = client.peerId then
      some (frame.payload, frame.senderId)
    else none

/-- `RelayClient::recv` on what the socket delivers, in order: `none` while it still
    waits. -/
def recv (client : RelayClient) :
    List (Except IoError Datagram) → Option (Except IoError (List UInt8 × PeerId))
  | [] => none
  | .error e :: _ => some (.error e)
  | .ok datagram :: rest =>
    match client.accepts datagram with
    | some result => some (.ok result)
    | none => recv client rest

/-! ## What a client sends -/

/-- A client that binds sends one HELLO under its own id, from its own socket, and is
    returned if the network takes it. -/
theorem register_eq (net : Network) (socket relayAddr : SocketAddr) (ourId peerId : PeerId) :
    register net (.ok socket) relayAddr ourId peerId =
      ⟨[⟨socket, relayAddr, RelayFrame.helloBytes ourId⟩],
        match net ⟨socket, relayAddr, RelayFrame.helloBytes ourId⟩ with
        | .ok _ => .ok { socket, relayAddr, ourId, peerId }
        | .error e => .error (.err e)⟩ := by
  rw [register, Effect.ofExcept_ok_bind, RelayFrame.encode_hello, Effect.expect_ok_bind]
  cases hnet : net ⟨socket, relayAddr, RelayFrame.helloBytes ourId⟩ with
  | ok n =>
      rw [Effect.bind_ok (show (Effect.sendTo net _).outcome = .ok n by rw [Effect.sendTo, hnet]; rfl)]
      rfl
  | error e =>
      rw [Effect.bind_error
        (show (Effect.sendTo net _).outcome = .error (.err e) by rw [Effect.sendTo, hnet]; rfl)]
      rfl

/-- Data within the frame limit is sent in one DATA frame, unchanged. -/
theorem send_of_le (net : Network) (client : RelayClient) {encryptedData : List UInt8}
    (h : encryptedData.length ≤ maxPayload) :
    ∃ encoded, (RelayFrame.data client.ourId client.peerId encryptedData).encode = .ok encoded ∧
      (client.send net encryptedData).sent = [⟨client.socket, client.relayAddr, encoded⟩] := by
  have hencode := RelayFrame.encode_of_le
    (show (RelayFrame.data client.ourId client.peerId encryptedData).payload.length ≤ maxPayload
      from h)
  refine ⟨_, hencode, ?_⟩
  rw [send, hencode, Effect.expect_ok_bind, Effect.sent_sendTo]

/-- Data above the frame limit is not sent: the call panics. -/
theorem send_of_lt (net : Network) (client : RelayClient) {encryptedData : List UInt8}
    (h : maxPayload < encryptedData.length) :
    client.send net encryptedData = ⟨[], .error (.panic "payload fits")⟩ := by
  obtain ⟨e, he⟩ := (RelayFrame.encode_eq_error_iff
    (RelayFrame.data client.ourId client.peerId encryptedData)).mpr h
  rw [send, he, Effect.expect_error_bind]

end RelayClient

end ConnectAlso
