import ConnectAlso.Tunnel.RelayClient
import ConnectAlso.Tunnel.Tunnel

/-!
# Paths to a peer

`PathManager` of `crates/tunnel/src/path.rs`. It owns the relay client of a peer and
keeps a status for the direct path, but `send` always goes through the relay.
-/

namespace ConnectAlso

/-- `INITIAL_RETRY_MS`. -/
def initialRetryMs : UInt64 := 200

/-- `PathStatus`. -/
inductive PathStatus where
  | direct
  | relay
  | probing
  deriving DecidableEq, Repr

/-- A `tokio::sync::watch` channel: the current value and the number of receivers. -/
structure Watch (α : Type) where
  value : α
  receivers : Nat
  deriving DecidableEq, Repr

/-- `watch::channel`, with the one receiver that it returns. -/
def Watch.channel {α : Type} (value : α) : Watch α := { value, receivers := 1 }

/-- A receiver goes out of scope. -/
def Watch.dropReceiver {α : Type} (watch : Watch α) : Watch α :=
  { watch with receivers := watch.receivers - 1 }

/-- `PathManager`. -/
structure PathManager where
  relay : RelayClient
  directPeer : SocketAddr
  status : PathStatus
  backoffMs : UInt64
  statusTx : Watch PathStatus
  deriving DecidableEq, Repr

namespace PathManager

/-- `PathManager::new`; the receiver of the channel is dropped at once. -/
def new (relay : RelayClient) (directPeer : SocketAddr) : PathManager where
  relay
  directPeer
  status := .relay
  backoffMs := initialRetryMs
  statusTx := (Watch.channel .relay).dropReceiver

/-- `PathManager::current_status`. -/
def currentStatus (path : PathManager) : PathStatus := path.status

/-- `PathManager::send`: always through the relay. -/
def send (net : Network) (path : PathManager) (plaintext : List UInt8) :
    Effect TunnelError Unit := do
  let _ ← (path.relay.send net plaintext).mapErr .io
  return ()

/-- `PathManager::recv` on what the relay client's socket delivers. -/
def recv (path : PathManager) (arrivals : List (Except IoError Datagram)) :
    Option (Except TunnelError (List UInt8 × SocketAddr)) :=
  match path.relay.recv arrivals with
  | none => none
  | some (.error e) => some (.error (.io e))
  | some (.ok (data, _)) => some (.ok (data, path.directPeer))

/-- A new path starts on the relay. -/
theorem currentStatus_new (relay : RelayClient) (directPeer : SocketAddr) :
    (new relay directPeer).currentStatus = .relay := rfl

/-- What a path sends is what its relay client sends. -/
@[simp] theorem sent_send (net : Network) (path : PathManager) (plaintext : List UInt8) :
    (path.send net plaintext).sent = (path.relay.send net plaintext).sent := by
  rw [send, Effect.sent_bind_of_silent _ (fun _ => Effect.sent_pure _), Effect.sent_mapErr]

end PathManager

end ConnectAlso
