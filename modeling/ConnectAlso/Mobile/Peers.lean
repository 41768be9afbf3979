import ConnectAlso.Misc.Aead
import ConnectAlso.Misc.HashOrder
import ConnectAlso.Misc.Runs
import ConnectAlso.Mobile.Engine

/-!
# The mobile engine's peers

`TunnelEngine::sync_peers` and `TunnelEngine::reconnect` of `apps/mobile/src/engine.rs`
fetch the peer list of the control service and put its devices into the peer map. No
device is ever taken out of the map, which `send_to_peer_inner` scans for an address:
after a reconnection packets follow the list exactly when it still has every device of
the earlier lists.
-/

namespace ConnectAlso.Mobile
open Misc RelayProto

/-- `PeerInfo`, an entry of the peer list of the control service. -/
structure PeerInfo where
  deviceId : Uuid
  ipv4 : String
  publicKey : Octets 32
  hostname : String
  deriving DecidableEq

/-- `PeerId::from_bytes(id.into_bytes())`. -/
def relayIdOf (id : Uuid) : PeerId := id

/-- The order in which the peer map yields its entries. -/
abbrev PeerOrder := HashOrder Uuid PeerState

namespace TunnelEngine

/-- `TunnelEngine::new`, once the control service has answered the registration. -/
def new (ourId : Uuid) (ourIp : Ipv4Addr) (relayServer : SocketAddr) (now : Nat) :
    TunnelEngine where
  ourId
  ourIp
  relayServer
  peers := []
  state := .connected
  activity := .active
  lastTraffic := now
  outboundQueue := []

/-- `self.peers.contains_key(&device_id)`. -/
def containsKey (engine : TunnelEngine) (deviceId : Uuid) : Bool :=
  engine.peers.any fun peer => peer.1 = deviceId

/-- `self.peers.insert(device_id, peer)`. -/
def insertPeer (order : PeerOrder) (engine : TunnelEngine) (deviceId : Uuid) (peer : PeerState) :
    TunnelEngine :=
  { engine with peers := insertEntry order engine.peers deviceId peer }

/-- The loops of `sync_peers` and `reconnect`, which are the same except that
    `sync_peers` skips the devices it knows (`skipKnown`) and counts the others. A
    registration that fails is logged. `bound` is what `UdpSocket::bind` answers for the
    client of a device. -/
def registerPeers (net : Network) (order : PeerOrder) (bound : Uuid → Except IoError SocketAddr)
    (skipKnown : Bool) :
    TunnelEngine → List PeerInfo → Effect EngineError Nat × TunnelEngine
  | engine, [] => (return 0, engine)
  | engine, p :: rest =>
    if p.deviceId = engine.ourId ∨ skipKnown ∧ engine.containsKey p.deviceId then
      registerPeers net order bound skipKnown engine rest
    else
      match Ipv4Addr.parse p.ipv4 with
      | none => (Effect.fail (.message "invalid IPv4 address syntax"), engine)
      | some vip =>
        let registered := RelayClient.register net (bound p.deviceId) engine.relayServer
          (relayIdOf engine.ourId) (relayIdOf p.deviceId)
        match registered.outcome with
        | .ok relay =>
          let later := registerPeers net order bound skipKnown
            (engine.insertPeer order p.deviceId { vip, relay }) rest
          (⟨registered.sent ++ later.1.sent, later.1.outcome.map (· + 1)⟩, later.2)
        | .error (.err _) =>
          let later := registerPeers net order bound skipKnown engine rest
          (⟨registered.sent ++ later.1.sent, later.1.outcome⟩, later.2)
        | .error (.panic message) => (⟨registered.sent, .error (.panic message)⟩, engine)

/-- `TunnelEngine::sync_peers`; `response` is the decoded answer to the request for the
    peer list. -/
def syncPeers (net : Network) (order : PeerOrder) (bound : Uuid → Except IoError SocketAddr)
    (response : Except String (List PeerInfo)) (engine : TunnelEngine) :
    Effect EngineError Nat × TunnelEngine :=
  match response with
  | .error e => (Effect.fail (.message e), engine)
  | .ok peers => registerPeers net order bound true engine peers

/-- The queued packets are sent in order; a packet whose sending fails is dropped. -/
def flush (net : Network) (engine : TunnelEngine) :
    List (List UInt8 × Ipv4Addr) → Effect EngineError Unit
  | [] => return ()
  | (packet, dst) :: rest => do
    (engine.sendToPeerInner net packet dst).discard
    flush net engine rest

/-- `TunnelEngine::reconnect`. The answer to the heartbeat is ignored. -/
def reconnect (net : Network) (order : PeerOrder) (bound : Uuid → Except IoError SocketAddr)
    (response : Except String (List PeerInfo)) (engine : TunnelEngine) :
    Effect EngineError Unit × TunnelEngine :=
  let engine := { engine with state := .reconnecting }
  match response with
  | .error e => (Effect.fail (.message e), engine)
  | .ok peers =>
    let registered := registerPeers net order bound false engine peers
    match registered.1.outcome with
    | .error fault => (⟨registered.1.sent, .error fault⟩, registered.2)
    | .ok _ =>
      let queue := registered.2.outboundQueue
      let engine := { registered.2 with state := .connected, outboundQueue := [] }
      let flushed := engine.flush net queue
      (⟨registered.1.sent ++ flushed.sent, flushed.outcome⟩, engine)

end TunnelEngine

/-! ## Calls that succeed -/

/-- A peer list: every device has an address, and no two share an id or an address. -/
structure PeerList where
  infos : List PeerInfo
  parses : ∀ p ∈ infos, ∃ vip, Ipv4Addr.parse p.ipv4 = some vip
  ids : (infos.map PeerInfo.deviceId).Nodup
  addrs : (infos.map fun p => Ipv4Addr.parse p.ipv4).Nodup

/-- The list has the device. -/
def PeerList.Lists (list : PeerList) (id : Uuid) : Prop := ∃ p ∈ list.infos, p.deviceId = id

/-- The list gives the address to the device. -/
def PeerList.Gives (list : PeerList) (id : Uuid) (addr : Ipv4Addr) : Prop :=
  ∃ p ∈ list.infos, p.deviceId = id ∧ Ipv4Addr.parse p.ipv4 = some addr

/-- Every relay registration goes through: the network takes every HELLO. -/
def TakesHellos (net : Network) : Prop :=
  ∀ socket relayAddr id, ∃ n, net ⟨socket, relayAddr, RelayFrame.helloBytes id⟩ = .ok n

/-- A call with the list that the control service answers, and the local addresses of
    the sockets that its registrations bind. -/
inductive Call where
  | syncPeers (list : PeerList) (sockets : Uuid → SocketAddr)
  | reconnect (list : PeerList) (sockets : Uuid → SocketAddr)

/-- The list of a call. -/
def Call.list : Call → PeerList
  | syncPeers list _ => list
  | reconnect list _ => list

/-- The engine after a call. -/
def TunnelEngine.step (net : Network) (order : PeerOrder) (engine : TunnelEngine) :
    Call → TunnelEngine
  | .syncPeers list sockets =>
    (engine.syncPeers net order (fun id => .ok (sockets id)) (.ok list.infos)).2
  | .reconnect list sockets =>
    (engine.reconnect net order (fun id => .ok (sockets id)) (.ok list.infos)).2

namespace TunnelEngine

/-- What a registration that goes through does for one entry of the list. -/
def learn (order : PeerOrder) (sockets : Uuid → SocketAddr) (skipKnown : Bool)
    (engine : TunnelEngine) (p : PeerInfo) : TunnelEngine :=
  if p.deviceId = engine.ourId ∨ skipKnown ∧ engine.containsKey p.deviceId then engine
  else
    match Ipv4Addr.parse p.ipv4 with
    | none => engine
    | some vip => engine.insertPeer order p.deviceId {
        vip, relay := {
          socket := sockets p.deviceId, relayAddr := engine.relayServer
          ourId := relayIdOf engine.ourId, peerId := relayIdOf p.deviceId } }

/-- When the registrations go through, the loop returns and has learned every entry. -/
theorem registerPeers_eq {net : Network} (hnet : TakesHellos net) (order : PeerOrder)
    (sockets : Uuid → SocketAddr) (skipKnown : Bool) (engine : TunnelEngine)
    {infos : List PeerInfo} (hparses : ∀ p ∈ infos, ∃ vip, Ipv4Addr.parse p.ipv4 = some vip) :
    (∃ count, (registerPeers net order (fun id => .ok (sockets id)) skipKnown engine
        infos).1.outcome = .ok count) ∧
      (registerPeers net order (fun id => .ok (sockets id)) skipKnown engine infos).2 =
        infos.foldl (learn order sockets skipKnown) engine := by
  induction infos generalizing engine with
  | nil => exact ⟨⟨0, rfl⟩, rfl⟩
  | cons p rest ih =>
      have hrest := fun engine' =>
        ih engine' fun q hq => hparses q (List.mem_cons_of_mem _ hq)
      rw [List.foldl_cons, registerPeers, learn]
      by_cases hskip : p.deviceId = engine.ourId ∨ skipKnown ∧ engine.containsKey p.deviceId
      · rw [if_pos hskip, if_pos hskip]
        exact hrest engine
      · rw [if_neg hskip, if_neg hskip]
        obtain ⟨vip, hvip⟩ := hparses p List.mem_cons_self
        obtain ⟨n, hhello⟩ := hnet (sockets p.deviceId) engine.relayServer (relayIdOf engine.ourId)
        simp only [hvip, RelayClient.register_eq, hhello]
        obtain ⟨⟨count, hcount⟩, hengine⟩ := hrest (engine.insertPeer order p.deviceId {
          vip, relay := {
            socket := sockets p.deviceId, relayAddr := engine.relayServer
            ourId := relayIdOf engine.ourId, peerId := relayIdOf p.deviceId } })
        exact ⟨⟨count + 1, by rw [hcount]; rfl⟩, hengine⟩

/-- The engine after a call that goes through. -/
theorem step_eq {net : Network} (hnet : TakesHellos net) (order : PeerOrder)
    (engine : TunnelEngine) (call : Call) :
    engine.step net order call = match call with
      | .syncPeers list sockets => list.infos.foldl (learn order sockets true) engine
      | .reconnect list sockets =>
        { list.infos.foldl (learn order sockets false) { engine with state := .reconnecting } with
          state := .connected, outboundQueue := [] } := by
  cases call with
  | syncPeers list sockets =>
      exact (registerPeers_eq hnet order sockets true engine list.parses).2
  | reconnect list sockets =>
      obtain ⟨⟨count, hcount⟩, hengine⟩ := registerPeers_eq hnet order sockets false
        { engine with state := .reconnecting } list.parses
      simp only [step, reconnect, hcount, hengine]

end TunnelEngine

end ConnectAlso.Mobile
