import ConnectAlso.Crypto.KeyExchange
import ConnectAlso.Misc.Runs
import ConnectAlso.Net.Socket

/-!
# The encrypted tunnel

`Tunnel` of `crates/tunnel/src/lib.rs`, and two tunnels that share a secret. Both
directions use the same key; the initiator counts its nonces from 0 and the
responder from `responderTxOffset`. `Pair` keeps, besides the two tunnels, a record
of every call of the AEAD's encryption, which is what the nonce and direction
results are about.
-/

namespace ConnectAlso
open Misc Crypto

/-- `RESPONDER_TX_OFFSET`. -/
def responderTxOffset : UInt64 := (1 : UInt64) <<< 32

/-- `MAX_PACKET`. -/
def maxPacket : Nat := 65536

/-- `TunnelError`. -/
inductive TunnelError where
  | io (error : IoError)
  | crypto (error : CryptoError)
  deriving DecidableEq, Repr

/-- `Tunnel`; a socket is its local address. -/
structure Tunnel where
  socket : SocketAddr
  txCipher : SessionCipher
  rxCipher : SessionCipher
  deriving DecidableEq, Repr

namespace Tunnel

/-- `Tunnel::bind_with_nonce`; `bound` is what `UdpSocket::bind` answers. -/
def bindWithNonce (bound : Except IoError SocketAddr) (sharedSecret : Octets 32)
    (txNonceStart : UInt64) : Except TunnelError Tunnel :=
  match bound with
  | .error e => .error (.io e)
  | .ok socket => .ok {
      socket
      txCipher := SessionCipher.new sharedSecret txNonceStart
      rxCipher := SessionCipher.new sharedSecret 0 }

/-- `Tunnel::bind_initiator`. -/
def bindInitiator (bound : Except IoError SocketAddr) (sharedSecret : Octets 32) :
    Except TunnelError Tunnel :=
  bindWithNonce bound sharedSecret 0

/-- `Tunnel::bind_responder`. -/
def bindResponder (bound : Except IoError SocketAddr) (sharedSecret : Octets 32) :
    Except TunnelError Tunnel :=
  bindWithNonce bound sharedSecret responderTxOffset

/-- `Tunnel::send_to`: the call's effect and the tunnel it leaves. -/
def sendTo (aead : Aead) (net : Network) (tunnel : Tunnel) (plaintext : List UInt8)
    (peer : SocketAddr) : Effect TunnelError Nat × Tunnel :=
  let (result, txCipher) := tunnel.txCipher.encrypt aead plaintext
  let effect : Effect TunnelError Nat := do
    let packet ← Effect.ofExcept (result.mapError .crypto)
    let _ ← (Effect.sendTo net { src := tunnel.socket, dst := peer, payload := packet }).mapErr .io
    return plaintext.length
  (effect, { tunnel with txCipher })

/-- What `recv_from` leaves in the receive buffer. -/
def received (datagram : Datagram) : List UInt8 := datagram.payload.take maxPacket

/-- `Tunnel::recv_from` when the socket delivers `datagram`: the plaintext and the
    sender's address. -/
def recvFrom (aead : Aead) (tunnel : Tunnel) (datagram : Datagram) :
    Except TunnelError (List UInt8 × SocketAddr) :=
  match tunnel.rxCipher.decrypt aead (received datagram) with
  | .error e => .error (.crypto e)
  | .ok plaintext => .ok (plaintext, datagram.src)

theorem bindWithNonce_eq_ok {bound : Except IoError SocketAddr} {secret : Octets 32}
    {start : UInt64} {tunnel : Tunnel} (h : bindWithNonce bound secret start = .ok tunnel) :
    tunnel.txCipher = ⟨secret, start⟩ ∧ tunnel.rxCipher = ⟨secret, 0⟩ := by
  cases bound with
  | error e => cases h
  | ok socket =>
      obtain rfl := Except.ok.inj h
      exact ⟨rfl, rfl⟩

@[simp] theorem sendTo_snd (aead : Aead) (net : Network) (tunnel : Tunnel)
    (plaintext : List UInt8) (peer : SocketAddr) :
    (tunnel.sendTo aead net plaintext peer).2 =
      { tunnel with txCipher := (tunnel.txCipher.encrypt aead plaintext).2 } := rfl

/-- A tunnel sends the packet that its cipher makes of the plaintext, and nothing
    when the cipher refuses. -/
theorem sendTo_sent (aead : Aead) (net : Network) (tunnel : Tunnel) (plaintext : List UInt8)
    (peer : SocketAddr) :
    (tunnel.sendTo aead net plaintext peer).1.sent =
      match (tunnel.txCipher.encrypt aead plaintext).1 with
      | .error _ => []
      | .ok packet => [{ src := tunnel.socket, dst := peer, payload := packet }] := by
  simp only [sendTo]
  cases (tunnel.txCipher.encrypt aead plaintext).1 with
  | error e => rfl
  | ok packet =>
      simp only [Except.mapError, Effect.ofExcept_ok_bind]
      rw [Effect.sent_bind_of_silent _ (fun _ => Effect.sent_pure _), Effect.sent_mapErr,
        Effect.sent_sendTo]

/-- What `recv_from` returns is the decryption of what was received. -/
theorem recvFrom_eq_ok {aead : Aead} {tunnel : Tunnel} {datagram : Datagram}
    {plaintext : List UInt8} {sender : SocketAddr} :
    tunnel.recvFrom aead datagram = .ok (plaintext, sender) ↔
      tunnel.rxCipher.decrypt aead (received datagram) = .ok plaintext ∧
        sender = datagram.src := by
  simp only [recvFrom]
  cases tunnel.rxCipher.decrypt aead (received datagram) with
  | error e => simp
  | ok text => simp [eq_comm]

/-! ## Two tunnels -/

/-- The two endpoints of a tunnel. -/
inductive Side where
  | initiator
  | responder
  deriving DecidableEq, Repr

/-- The endpoint at the other end. -/
def Side.other : Side → Side
  | initiator => responder
  | responder => initiator

/-- One call of the AEAD's encryption: who made it, its inputs, and the packet
    that `SessionCipher::encrypt` returned. -/
structure Encryption where
  side : Side
  key : Octets 32
  nonce : Octets 12
  plaintext : List UInt8
  packet : Except CryptoError (List UInt8)
  deriving DecidableEq

/-- Two tunnels and the encryptions made so far. -/
structure Pair where
  tunnels : Side → Tunnel
  encryptions : List Encryption

/-- What can happen to the pair: an endpoint calls `send_to`, or the network hands
    a datagram to an endpoint that is waiting in `recv_from`. -/
inductive Event where
  | send (side : Side) (plaintext : List UInt8) (peer : SocketAddr)
  | deliver (side : Side) (datagram : Datagram)

/-- Two tunnels before their first packet. -/
def Pair.start (initiator responder : Tunnel) : Pair where
  tunnels
    | .initiator => initiator
    | .responder => responder
  encryptions := []

/-- The all-zero secret. -/
def zeroSecret : Octets 32 := Octets.replicate 32 0

/-- Two tunnels that have just been bound with it. -/
def Pair.fresh : Pair :=
  Pair.start
    ⟨.localhost 40001, SessionCipher.new zeroSecret 0, SessionCipher.new zeroSecret 0⟩
    ⟨.localhost 40002, SessionCipher.new zeroSecret responderTxOffset,
      SessionCipher.new zeroSecret 0⟩

/-- The encryption that `send_to` makes. -/
def encryptionOf (aead : Aead) (side : Side) (tunnel : Tunnel) (plaintext : List UInt8) :
    Encryption where
  side
  key := tunnel.txCipher.key
  nonce := tunnel.txCipher.nextNonce.1
  plaintext
  packet := (tunnel.txCipher.encrypt aead plaintext).1

/-- One event. Receiving leaves the tunnel as it is (`recv_from` takes `&self`). -/
def Pair.step (aead : Aead) (net : Network) (pair : Pair) : Event → Pair
  | .send side plaintext peer => {
      tunnels := Function.update pair.tunnels side
        ((pair.tunnels side).sendTo aead net plaintext peer).2
      encryptions := pair.encryptions ++ [encryptionOf aead side (pair.tunnels side) plaintext] }
  | .deliver _ _ => pair

end Tunnel

end ConnectAlso
