import ConnectAlso.Tunnel.RelayClient

/-!
# The mobile engine's send path

`TunnelEngine` of `apps/mobile/src/engine.rs`, as far as outgoing packets go:
`engine_send_packet`, `send_to_peer` with its queue, and `send_to_peer_inner`.
-/

namespace ConnectAlso.Mobile
open RelayProto

/-- `ConnState`. -/
inductive ConnState where
  | connected
  | reconnecting
  deriving DecidableEq, Repr

/-- `ActivityLevel`. -/
inductive ActivityLevel where
  | active
  | idle
  | sleep
  deriving DecidableEq, Repr

/-- `PeerState`. -/
structure PeerState where
  vip : Ipv4Addr
  relay : RelayClient
  deriving DecidableEq, Repr

/-- `TunnelEngine`. The peer map is the list of its entries in the order in which
    `HashMap::values` yields them, which the code does not determine. -/
structure TunnelEngine where
  ourId : Uuid
  ourIp : Ipv4Addr
  relayServer : SocketAddr
  peers : List (Uuid × PeerState)
  state : ConnState
  activity : ActivityLevel
  lastTraffic : Nat
  outboundQueue : List (List UInt8 × Ipv4Addr)
  deriving DecidableEq, Repr

/-- `MAX_QUEUED_PACKETS`. -/
def maxQueuedPackets : Nat := 256

/-- An `anyhow::Error` of the send path: an I/O error or a message. -/
inductive EngineError where
  | io (error : IoError)
  | message (text : String)
  deriving DecidableEq, Repr

namespace TunnelEngine

/-- `TunnelEngine::mark_traffic` at time `now`. -/
def markTraffic (engine : TunnelEngine) (now : Nat) : TunnelEngine :=
  { engine with lastTraffic := now, activity := .active }

/-- `TunnelEngine::send_to_peer_inner`: the first peer with the address. -/
def sendToPeerInner (net : Network) (engine : TunnelEngine) (packet : List UInt8)
    (dstIp : Ipv4Addr) : Effect EngineError Unit :=
  match engine.peers.find? fun peer => peer.2.vip = dstIp with
  | some peer => do
    let _ ← (peer.2.relay.send net packet).mapErr .io
    return ()
  | none => Effect.fail (.message ("no route to " ++ dstIp.toString))

/-- `TunnelEngine::send_to_peer`: queued while reconnecting, up to the limit. -/
def sendToPeer (net : Network) (engine : TunnelEngine) (now : Nat) (packet : List UInt8)
    (dstIp : Ipv4Addr) : Effect EngineError Unit × TunnelEngine :=
  let engine := engine.markTraffic now
  match engine.state with
  | .reconnecting =>
    if engine.outboundQueue.length < maxQueuedPackets then
      (return (), { engine with outboundQueue := engine.outboundQueue ++ [(packet, dstIp)] })
    else (return (), engine)
  | .connected => (engine.sendToPeerInner net packet dstIp, engine)

end TunnelEngine

/-- `engine_send_packet` on the global engine. -/
def engineSendPacket (net : Network) (engine : Option TunnelEngine) (now : Nat)
    (packet : List UInt8) : Effect EngineError (List UInt8) × Option TunnelEngine :=
  match engine with
  | none => (Effect.fail (.message "engine not initialized"), none)
  | some engine =>
    match parseDstIp packet with
    | none => (Effect.fail (.message "invalid packet"), some engine)
    | some dst =>
      if dst = engine.ourIp then (return packet, some engine)
      else
        let (effect, engine) := engine.sendToPeer net now packet dst
        (do effect; return [], some engine)

namespace TunnelEngine

/-- The engine sends what the relay client of the first peer with the address sends,
    or nothing. -/
theorem sent_sendToPeerInner (net : Network) (engine : TunnelEngine) (packet : List UInt8)
    (dstIp : Ipv4Addr) :
    (engine.sendToPeerInner net packet dstIp).sent =
      match engine.peers.find? fun peer => peer.2.vip = dstIp with
      | none => []
      | some peer => (peer.2.relay.send net packet).sent := by
  unfold sendToPeerInner
  cases engine.peers.find? fun peer => peer.2.vip = dstIp with
  | none => rfl
  | some peer =>
      show ((peer.2.relay.send net packet).mapErr EngineError.io >>= fun _ => pure ()).sent = _
      rw [Effect.sent_bind_of_silent _ (fun _ => Effect.sent_pure _), Effect.sent_mapErr]

/-- A packet goes out at once only when the engine is connected, and then by
    `send_to_peer_inner`. -/
theorem sent_sendToPeer (net : Network) (engine : TunnelEngine) (now : Nat)
    (packet : List UInt8) (dstIp : Ipv4Addr) :
    (engine.sendToPeer net now packet dstIp).1.sent =
      match engine.state with
      | .reconnecting => []
      | .connected => (engine.sendToPeerInner net packet dstIp).sent := by
  unfold sendToPeer
  cases hstate : engine.state with
  | reconnecting =>
      simp only [markTraffic, hstate]
      split
      · rfl
      · rfl
  | connected => simp only [markTraffic, hstate, sent_sendToPeerInner]

end TunnelEngine

end ConnectAlso.Mobile
