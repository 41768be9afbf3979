import ConnectAlso.Mobile.FailedReconnect
import ConnectAlso.Mobile.Ffi

/-!
# Receiving on the mobile engine

`recv_from_any` goes through the peers in the order of the map and returns the first packet
that a relay client has, and `connectalso_recv_packet` copies of it what the buffer holds;
the rest of the packet is gone. What arrives waits at the socket of its client, so over a
whole run the packets of a device are taken once each and in order (`received_in_order`),
except those at a socket that a reconnection replaces. As the scan always starts with the
first peer, packets of a peer are taken after all those of the peers before it
(`receives_drain_in_map_order`).
-/

namespace ConnectAlso
open RelayProto Misc

/-- What arrives at a socket, in order. -/
abbrev Arrivals := List (Except IoError Datagram)

/-- `RelayClient::recv` until its timeout: its result, if any, and what it leaves. -/
def RelayClient.take (client : RelayClient) :
    Arrivals → Option (Except IoError (List UInt8 × PeerId)) × Arrivals
  | [] => (none, [])
  | .error e :: rest => (some (.error e), rest)
  | .ok datagram :: rest =>
    match client.accepts datagram with
    | some result => (some (.ok result), rest)
    | none => client.take rest

theorem RelayClient.fst_take (client : RelayClient) (arrivals : Arrivals) :
    (client.take arrivals).1 = client.recv arrivals := by
  induction arrivals with
  | nil => rfl
  | cons arrival rest ih =>
      cases arrival with
      | error e => rfl
      | ok datagram =>
          rw [take, recv]
          cases client.accepts datagram with
          | none => exact ih
          | some result => rfl

/-- A call of `recv` takes arrivals from the front. -/
theorem RelayClient.snd_take_suffix (client : RelayClient) (arrivals : Arrivals) :
    (client.take arrivals).2 <:+ arrivals := by
  induction arrivals with
  | nil => exact List.suffix_refl []
  | cons arrival rest ih =>
      cases arrival with
      | error e => exact List.suffix_cons _ rest
      | ok datagram =>
          rw [take]
          cases client.accepts datagram with
          | none => exact ih.trans (List.suffix_cons _ rest)
          | some result => exact List.suffix_cons _ rest

namespace Mobile

/-! ## The receive path -/

/-- `TunnelEngine::recv_from_any` on the peers that it gets to; with the packet comes the
    device from whose client it is. -/
def recvFromAny (inbox : Uuid → Arrivals) :
    List (Uuid × PeerState) → Option (Uuid × List UInt8) × (Uuid → Arrivals)
  | [] => (none, inbox)
  | (id, peer) :: rest =>
    let (result, left) := peer.relay.take (inbox id)
    let inbox := Function.update inbox id left
    match result with
    | some (.ok (data, _sender)) => (some (id, data), inbox)
    | _ => recvFromAny inbox rest

/-- A packet that the engine has taken from the client of a device, with what its caller
    gets: the size of the buffer, what is written to it, and the answer. -/
structure Receipt where
  device : Uuid
  packet : List UInt8
  room : UInt32
  written : List UInt8
  answer : Int32

/-- The engine with what has arrived at its clients and waits there, all that has arrived,
    and what has been received. -/
structure Receiver where
  engine : Option TunnelEngine
  inbox : Uuid → Arrivals
  arrived : Uuid → Arrivals
  receipts : List Receipt

namespace Receiver

/-- Before `connectalso_init`. -/
def start : Receiver where
  engine := none
  inbox := fun _ => []
  arrived := fun _ => []
  receipts := []

/-- The peers, in the order of the map. -/
def peers (s : Receiver) : List (Uuid × PeerState) :=
  match s.engine with
  | none => []
  | some engine => engine.peers

/-- The peers that a scan gets to: all of them, or `reach` before a timeout of the caller. -/
def polled (reach : Option Nat) (s : Receiver) : List (Uuid × PeerState) :=
  match reach with
  | none => s.peers
  | some reach => s.peers.take reach

/-- `engine_recv_packet`; with the packet comes its device. -/
def engineRecvPacket (reach : Option Nat) (s : Receiver) :
    Option (Uuid × List UInt8) × Receiver :=
  let (result, inbox) := recvFromAny s.inbox (s.polled reach)
  (result, { s with inbox })

/-- `connectalso_recv_packet` and `connectalso_recv_packet_timeout`; a null pointer is
    `none`. The answer comes with what is written to the buffer. -/
def connectalsoRecvPacket (outBufLen : Option UInt32) (reach : Option Nat) (s : Receiver) :
    (Int32 × List UInt8) × Receiver :=
  match outBufLen with
  | none => ((-1, []), s)
  | some outBufLen =>
    match s.engineRecvPacket reach with
    | (some (id, data), s) =>
      let len := min data.length outBufLen.toNat
      let receipt := {
        device := id, packet := data, room := outBufLen
        written := data.take len, answer := Int32.ofNat len }
      ((receipt.answer, receipt.written), { s with receipts := s.receipts ++ [receipt] })
    | (none, s) => ((0, []), s)

/-- What calls of `connectalso_recv_packet` in a row answer and write, one buffer for
    each. -/
def receiveAll (s : Receiver) : List UInt32 → List (Int32 × List UInt8)
  | [] => []
  | outBufLen :: rest =>
    let (result, s) := s.connectalsoRecvPacket (some outBufLen) none
    result :: s.receiveAll rest

/-- The devices whose clients a reconnection replaces, if there is an engine. -/
def replaced (net : Network) (bound : Uuid → Except IoError SocketAddr)
    (response : Except String (List PeerInfo)) (s : Receiver) : List Uuid :=
  match s.engine with
  | none => []
  | some engine => (engine.registrations net bound response).map Prod.fst

end Receiver

/-- A call through the interface, or a datagram (or an error) that arrives at the socket of a
    client. -/
inductive ReceiverEvent where
  | init (ourId : Uuid) (ourIp : Ipv4Addr) (relayServer : SocketAddr) (now : Nat)
      (net : Network) (order : PeerOrder) (bound : Uuid → Except IoError SocketAddr)
      (response : Except String (List PeerInfo))
  | arrive (id : Uuid) (arrival : Except IoError Datagram)
  | recvPacket (outBufLen : Option UInt32) (reach : Option Nat)
  | sendPacket (net : Network) (now : Nat) (packet : Option (List UInt8))
      (outBufLen : Option UInt32)
  | reconnect (net : Network) (nets : Nat → Network) (order : PeerOrder)
      (bound : Uuid → Except IoError SocketAddr) (response : Except String (List PeerInfo))

namespace Receiver

/-- The engine that `engine_init` makes, once the registration has been answered. -/
def engineInit (ourId : Uuid) (ourIp : Ipv4Addr) (relayServer : SocketAddr) (now : Nat)
    (net : Network) (order : PeerOrder) (bound : Uuid → Except IoError SocketAddr)
    (response : Except String (List PeerInfo)) : Except (Fault EngineError) TunnelEngine :=
  let synced := (TunnelEngine.new ourId ourIp relayServer now).syncPeers net order bound response
  match synced.1.outcome with
  | .error fault => .error fault
  | .ok _ => .ok synced.2

/-- The state after an event. The sockets of a client that goes away go with it. -/
def step (s : Receiver) : ReceiverEvent → Receiver
  | .init ourId ourIp relayServer now net order bound response =>
    match engineInit ourId ourIp relayServer now net order bound response with
    | .error _ => s
    | .ok engine => { s with engine := some engine, inbox := fun _ => [] }
  | .arrive id arrival =>
    if id ∈ s.peers.map Prod.fst then
      { s with
        inbox := Function.update s.inbox id (s.inbox id ++ [arrival])
        arrived := Function.update s.arrived id (s.arrived id ++ [arrival]) }
    else s
  | .recvPacket outBufLen reach => (s.connectalsoRecvPacket outBufLen reach).2
  | .sendPacket net now packet outBufLen =>
    { s with engine := (connectalsoSendPacket net s.engine now packet outBufLen).2 }
  | .reconnect net nets order bound response =>
    { s with
      engine := (connectalsoReconnect net nets order bound response s.engine).2
      inbox := fun id => if id ∈ s.replaced net bound response then [] else s.inbox id }

end Receiver

/-! ## The packets of a device -/

/-- The payload of a DATA frame of the device. -/
def payloadFrom (id : Uuid) (datagram : Datagram) : Option (List UInt8) :=
  match RelayFrame.decode (datagram.payload.take RelayClient.recvBuffer) with
  | .error _ => none
  | .ok frame =>
    if frame.msgType = .data ∧ frame.senderId = relayIdOf id then some frame.payload else none

/-- The packets of the device among what has arrived. -/
def packetsFrom (id : Uuid) (arrivals : Arrivals) : List (List UInt8) :=
  arrivals.filterMap fun
    | .ok datagram => payloadFrom id datagram
    | .error _ => none

/-- The packets of the device among those that have been taken. -/
def takenFrom (id : Uuid) (taken : List (Uuid × List UInt8)) : List (List UInt8) :=
  (taken.filter fun e => e.1 = id).map Prod.snd

/-- The packets that have been taken, with their devices. -/
def takenOf (receipts : List Receipt) : List (Uuid × List UInt8) :=
  receipts.map fun receipt => (receipt.device, receipt.packet)

/-- The longest packet that fits, with the header of its frame, into the receive buffer of a
    relay client. -/
def maxReceived : Nat := RelayClient.recvBuffer - headerLen

/-- Each peer has a client for its device, and no device has two. -/
structure OwnClients (peers : List (Uuid × PeerState)) : Prop where
  keys : KeysNodup peers
  client : ∀ e ∈ peers, e.2.relay.peerId = relayIdOf e.1

section Packets
variable {id : Uuid} {client : RelayClient}

theorem accepts_eq (hclient : client.peerId = relayIdOf id) (datagram : Datagram) :
    client.accepts datagram = (payloadFrom id datagram).map fun data => (data, relayIdOf id) := by
  unfold RelayClient.accepts payloadFrom
  cases RelayFrame.decode (datagram.payload.take RelayClient.recvBuffer) with
  | error e => rfl
  | ok frame =>
      dsimp only
      rw [hclient]
      by_cases hframe : frame.msgType = .data ∧ frame.senderId = relayIdOf id
      · rw [if_pos hframe, if_pos hframe, hframe.2]
        rfl
      · rw [if_neg hframe, if_neg hframe]
        rfl

@[simp] theorem packetsFrom_nil : packetsFrom id [] = [] := rfl

@[simp] theorem packetsFrom_append (arrivals later : Arrivals) :
    packetsFrom id (arrivals ++ later) = packetsFrom id arrivals ++ packetsFrom id later :=
  List.filterMap_append

/-- What a client accepts has been in its buffer, behind a header. -/
theorem length_of_accepts {datagram : Datagram} {result : List UInt8 × PeerId}
    (h : client.accepts datagram = some result) : result.1.length ≤ maxReceived := by
  unfold RelayClient.accepts at h
  cases hdecode : RelayFrame.decode (datagram.payload.take RelayClient.recvBuffer) with
  | error e =>
      rw [hdecode] at h
      cases h
  | ok frame =>
      rw [hdecode] at h
      dsimp only at h
      split at h
      · obtain rfl := Option.some.inj h
        have hle := (RelayFrame.of_decode hdecode).2.length_le
        rw [RelayFrame.length_wireBytes, List.length_take] at hle
        exact Nat.le_sub_of_add_le' (hle.trans (Nat.min_le_left _ _))
      · cases h

theorem length_of_take {arrivals : Arrivals} {result : List UInt8 × PeerId}
    (h : (client.take arrivals).1 = some (.ok result)) : result.1.length ≤ maxReceived := by
  induction arrivals with
  | nil => cases h
  | cons arrival rest ih =>
      cases arrival with
      | error e => cases h
      | ok datagram =>
          rw [RelayClient.take] at h
          cases haccepts : client.accepts datagram with
          | none =>
              rw [haccepts] at h
              exact ih h
          | some accepted =>
              rw [haccepts] at h
              obtain rfl := Except.ok.inj (Option.some.inj h)
              exact length_of_accepts haccepts

theorem length_of_recvFromAny {inbox : Uuid → Arrivals} {peers : List (Uuid × PeerState)}
    {taken : Uuid × List UInt8} (h : (recvFromAny inbox peers).1 = some taken) :
    taken.2.length ≤ maxReceived := by
  induction peers generalizing inbox with
  | nil => cases h
  | cons e rest ih =>
      obtain ⟨first, peer⟩ := e
      rw [recvFromAny] at h
      rcases htake : peer.relay.take (inbox first) with ⟨_ | _ | ⟨data, sender⟩, left⟩
      · rw [htake] at h
        exact ih h
      · rw [htake] at h
        exact ih h
      · rw [htake] at h
        obtain rfl := Option.some.inj h
        exact length_of_take (congrArg Prod.fst htake)

/-- A call of `recv` takes the first packet of the device, or none if there is none before
    an error. -/
theorem take_cases (hclient : client.peerId = relayIdOf id) (arrivals : Arrivals) :
    (∃ data left, client.take arrivals = (some (.ok (data, relayIdOf id)), left) ∧
        packetsFrom id arrivals = data :: packetsFrom id left) ∨
      client.take arrivals = (none, []) ∧ packetsFrom id arrivals = [] ∨
      ∃ e left, client.take arrivals = (some (.error e), left) ∧ .error e ∈ arrivals ∧
        packetsFrom id arrivals = packetsFrom id left := by
  induction arrivals with
  | nil => exact Or.inr (Or.inl ⟨rfl, rfl⟩)
  | cons arrival rest ih =>
      cases arrival with
      | error e => exact Or.inr (Or.inr ⟨e, rest, rfl, List.mem_cons_self, rfl⟩)
      | ok datagram =>
          rw [RelayClient.take, accepts_eq hclient]
          cases hpayload : payloadFrom id datagram with
          | none =>
              have hpackets : packetsFrom id (.ok datagram :: rest) = packetsFrom id rest :=
                List.filterMap_cons_none hpayload
              rw [hpackets]
              rcases ih with htaken | hnone | ⟨e, left, htake, hmem, hleft⟩
              · exact Or.inl htaken
              · exact Or.inr (Or.inl hnone)
              · exact Or.inr (Or.inr ⟨e, left, htake, List.mem_cons_of_mem _ hmem, hleft⟩)
          | some data =>
              exact Or.inl ⟨data, rest, rfl, List.filterMap_cons_some hpayload⟩

end Packets

/-! ## The peer map -/

section Peers
variable {net : Network} {nets : Nat → Network} {order : PeerOrder}
  {bound : Uuid → Except IoError SocketAddr} {response : Except String (List PeerInfo)}

theorem peerId_of_register {bound : Except IoError SocketAddr} {relayAddr : SocketAddr}
    {ourId peerId : PeerId} {relay : RelayClient}
    (h : (RelayClient.register net bound relayAddr ourId peerId).outcome = .ok relay) :
    relay.peerId = peerId := by
  cases bound with
  | error e => cases h
  | ok socket =>
      rw [RelayClient.register_eq] at h
      dsimp only at h
      cases hnet : net ⟨socket, relayAddr, RelayFrame.helloBytes ourId⟩ with
      | error e => rw [hnet] at h; cases h
      | ok n =>
          rw [hnet] at h
          rw [← Except.ok.inj h]

/-- Registering peers gives each a client of its own. -/
theorem ownClients_registerPeers (skipKnown : Bool) (infos : List PeerInfo)
    {engine : TunnelEngine} (h : OwnClients engine.peers) :
    OwnClients (TunnelEngine.registerPeers net order bound skipKnown engine infos).2.peers := by
  induction infos generalizing engine with
  | nil => exact h
  | cons p rest ih =>
      rw [TunnelEngine.registerPeers]
      split
      · exact ih h
      · cases Ipv4Addr.parse p.ipv4 with
        | none => exact h
        | some vip =>
            dsimp only
            cases hregister : (RelayClient.register net (bound p.deviceId) engine.relayServer
                (relayIdOf engine.ourId) (relayIdOf p.deviceId)).outcome with
            | error fault =>
                cases fault with
                | err e => exact ih h
                | panic message => exact h
            | ok relay =>
                refine ih ⟨keysNodup_insertEntry order h.keys _ _, ?_⟩
                intro e he
                rcases mem_insertEntry.mp he with rfl | ⟨hold, -⟩
                · exact peerId_of_register hregister
                · exact h.client e hold

theorem ownClients_syncPeers {engine : TunnelEngine} (h : OwnClients engine.peers) :
    OwnClients (engine.syncPeers net order bound response).2.peers := by
  cases response with
  | error e => exact h
  | ok infos => exact ownClients_registerPeers true infos h

theorem ownClients_reconnectOver {engine : TunnelEngine} (h : OwnClients engine.peers) :
    OwnClients (engine.reconnectOver net nets order bound response).2.peers := by
  cases response with
  | error e => exact h
  | ok infos =>
      have hregistered : OwnClients (TunnelEngine.registerPeers net order bound false
          engine.offline infos).2.peers := ownClients_registerPeers false infos h
      rw [TunnelEngine.reconnectOver]
      dsimp only
      split
      · exact hregistered
      · exact hregistered

/-- Sending leaves the peer map alone. -/
theorem peers_sendToPeer (engine : TunnelEngine) (now : Nat) (packet : List UInt8)
    (dst : Ipv4Addr) : (engine.sendToPeer net now packet dst).2.peers = engine.peers := by
  unfold TunnelEngine.sendToPeer TunnelEngine.markTraffic
  cases hstate : engine.state with
  | connected => rfl
  | reconnecting =>
      dsimp only
      split
      · rfl
      · rfl

theorem peers_connectalsoSendPacket (engine : TunnelEngine) (now : Nat)
    (packet : Option (List UInt8)) (outBufLen : Option UInt32) :
    ∃ after, (connectalsoSendPacket net (some engine) now packet outBufLen).2 = some after ∧
      after.peers = engine.peers := by
  cases packet with
  | none => exact ⟨engine, rfl, rfl⟩
  | some data =>
      cases outBufLen with
      | none => exact ⟨engine, rfl, rfl⟩
      | some len =>
          simp only [connectalsoSendPacket, engineSendPacket]
          cases parseDstIp data with
          | none => exact ⟨engine, rfl, rfl⟩
          | some dst =>
              dsimp only
              split
              · exact ⟨engine, rfl, rfl⟩
              · exact ⟨_, rfl, peers_sendToPeer engine now data dst⟩

end Peers

namespace Receiver
variable {s : Receiver}

/-- Every event keeps a client of its own for each peer. -/
theorem ownClients_step (h : OwnClients s.peers) (event : ReceiverEvent) :
    OwnClients (s.step event).peers := by
  cases event with
  | init ourId ourIp relayServer now net order bound response =>
      rw [step]
      cases hinit : engineInit ourId ourIp relayServer now net order bound response with
      | error fault => exact h
      | ok engine =>
          have hnew : OwnClients (TunnelEngine.new ourId ourIp relayServer now).peers :=
            ⟨List.nodup_nil, fun e he => absurd he List.not_mem_nil⟩
          have hsynced := @ownClients_syncPeers net order bound response _ hnew
          rw [engineInit] at hinit
          split at hinit
          · cases hinit
          · rw [Except.ok.inj hinit] at hsynced
            exact hsynced
  | arrive id arrival =>
      rw [step]
      split
      · exact h
      · exact h
  | recvPacket outBufLen reach =>
      cases outBufLen with
      | none => exact h
      | some len =>
          simp only [step, connectalsoRecvPacket, engineRecvPacket]
          rcases recvFromAny s.inbox (s.polled reach) with ⟨_ | ⟨id, data⟩, inbox⟩
          · exact h
          · exact h
  | sendPacket net now packet outBufLen =>
      cases hengine : s.engine with
      | none =>
          have hnone : (connectalsoSendPacket net none now packet outBufLen).2 = none := by
            cases packet with
            | none => rfl
            | some data => cases outBufLen with
              | none => rfl
              | some len => rfl
          rw [step, hengine, hnone]
          exact ⟨List.nodup_nil, fun e he => absurd he List.not_mem_nil⟩
      | some engine =>
          obtain ⟨after, hafter, hpeers⟩ :=
            @peers_connectalsoSendPacket net engine now packet outBufLen
          rw [peers, hengine] at h
          rw [step, hengine, hafter, peers]
          dsimp only
          rw [hpeers]
          exact h
  | reconnect net nets order bound response =>
      cases hengine : s.engine with
      | none =>
          rw [step, hengine]
          exact ⟨List.nodup_nil, fun e he => absurd he List.not_mem_nil⟩
      | some engine =>
          rw [peers, hengine] at h
          rw [step, hengine]
          exact @ownClients_reconnectOver net nets order bound response engine h

theorem ownClients_run (events : List ReceiverEvent) :
    OwnClients (run step start events).peers := by
  refine run_invariant (J := fun s : Receiver => OwnClients s.peers)
    (fun s event h => ownClients_step h event) ?_ events
  exact ⟨List.nodup_nil, fun e he => absurd he List.not_mem_nil⟩

end Receiver

namespace Receiver
variable {s : Receiver}

/-- The packets of the device that have been taken, and those that wait. -/
def account (s : Receiver) (id : Uuid) : List (List UInt8) :=
  takenFrom id (takenOf s.receipts) ++ packetsFrom id (s.inbox id)

/-- The packets of the device that have been taken, with those that wait, are the ones
    that have arrived, each once and in order. -/
def Conserved (s : Receiver) (id : Uuid) : Prop :=
  s.account id = packetsFrom id (s.arrived id)

end Receiver

/-- The answer to a packet is the number of bytes that are written. -/
theorem toInt_answer {packet : List UInt8} (h : packet.length ≤ maxReceived) (room : UInt32) :
    (Int32.ofNat (min packet.length room.toNat)).toInt = (packet.take room.toNat).length := by
  have hbound : maxReceived < 2 ^ 31 := by decide
  rw [Int32.toInt_ofNat_of_lt (by omega), List.length_take, Nat.min_comm]

namespace Receiver

end Receiver

/-- The packets that wait at the clients of the peers, with their devices: those of the first
    peer, then those of the next. -/
def waitingAt (inbox : Uuid → Arrivals) (peers : List (Uuid × PeerState)) :
    List (Uuid × List UInt8) :=
  peers.flatMap fun e => (packetsFrom e.1 (inbox e.1)).map fun data => (e.1, data)

theorem waitingAt_cons (inbox : Uuid → Arrivals) (e : Uuid × PeerState)
    (peers : List (Uuid × PeerState)) :
    waitingAt inbox (e :: peers) =
      (packetsFrom e.1 (inbox e.1)).map (fun data => (e.1, data)) ++ waitingAt inbox peers :=
  List.flatMap_cons

theorem waitingAt_congr {inbox other : Uuid → Arrivals} {peers : List (Uuid × PeerState)}
    (h : ∀ e ∈ peers, packetsFrom e.1 (other e.1) = packetsFrom e.1 (inbox e.1)) :
    waitingAt other peers = waitingAt inbox peers := by
  induction peers with
  | nil => rfl
  | cons e rest ih =>
      rw [waitingAt_cons, waitingAt_cons, h e List.mem_cons_self,
        ih fun e he => h e (List.mem_cons_of_mem _ he)]

/-- A scan leaves the sockets of other devices alone. -/
theorem recvFromAny_of_notMem {peers : List (Uuid × PeerState)} {id : Uuid}
    (hid : id ∉ peers.map Prod.fst) (inbox : Uuid → Arrivals) :
    (recvFromAny inbox peers).2 id = inbox id := by
  induction peers generalizing inbox with
  | nil => rfl
  | cons e rest ih =>
      obtain ⟨first, peer⟩ := e
      rw [List.map_cons, List.mem_cons, not_or] at hid
      have hrest := ih hid.2 (Function.update inbox first (peer.relay.take (inbox first)).2)
      rw [Function.update_of_ne hid.1] at hrest
      simp only [recvFromAny]
      rcases (peer.relay.take (inbox first)).1 with _ | _ | received
      · exact hrest
      · exact hrest
      · exact Function.update_of_ne hid.1 _ _

/-- Without errors at the sockets, a scan takes the first packet that waits, and leaves
    the others. -/
theorem recvFromAny_waiting {peers : List (Uuid × PeerState)} (hown : OwnClients peers)
    {inbox : Uuid → Arrivals} (hok : ∀ id e, .error e ∉ inbox id) :
    (recvFromAny inbox peers).1 = (waitingAt inbox peers).head? ∧
      waitingAt (recvFromAny inbox peers).2 peers = (waitingAt inbox peers).tail ∧
      ∀ id e, .error e ∉ (recvFromAny inbox peers).2 id := by
  induction peers generalizing inbox with
  | nil => exact ⟨rfl, rfl, hok⟩
  | cons e rest ih =>
      obtain ⟨first, peer⟩ := e
      have hkeys := List.nodup_cons.mp hown.keys
      have hothers : ∀ left, ∀ e ∈ rest, packetsFrom e.1 (Function.update inbox first left e.1) =
          packetsFrom e.1 (inbox e.1) := by
        intro left e he
        rw [Function.update_of_ne]
        intro hsame
        exact hkeys.1 (List.mem_map.mpr ⟨e, he, hsame⟩)
      have hleft : ∀ id e, .error e ∉
          Function.update inbox first (peer.relay.take (inbox first)).2 id := by
        intro id e hmem
        by_cases hid : id = first
        · subst hid
          rw [Function.update_self] at hmem
          exact hok id e ((peer.relay.snd_take_suffix (inbox id)).mem hmem)
        · rw [Function.update_of_ne hid] at hmem
          exact hok id e hmem
      rw [waitingAt_cons, recvFromAny]
      rcases take_cases (hown.client _ List.mem_cons_self) (inbox first) with
        ⟨data, left, htake, hpackets⟩ | ⟨htake, hpackets⟩ | ⟨e, left, htake, hmem, -⟩
      · rw [htake] at hleft
        simp only [htake]
        refine ⟨by rw [hpackets]; rfl, ?_, hleft⟩
        rw [waitingAt_cons, hpackets, waitingAt_congr (hothers left)]
        dsimp only
        rw [Function.update_self]
        rfl
      · rw [htake] at hleft
        simp only [htake]
        obtain ⟨hhead, htail, herrors⟩ :=
          ih ⟨hkeys.2, fun e he => hown.client e (List.mem_cons_of_mem _ he)⟩ hleft
        rw [waitingAt_congr (hothers [])] at hhead htail
        refine ⟨?_, ?_, herrors⟩
        · rw [hhead, hpackets]
          rfl
        · rw [waitingAt_cons, htail, hpackets]
          dsimp only
          rw [recvFromAny_of_notMem hkeys.1, Function.update_self]
          rfl
      · exact absurd hmem (hok first e)

namespace Receiver
variable {s : Receiver}

/-- The packets that wait, in the order of the map. -/
def waiting (s : Receiver) : List (Uuid × List UInt8) := waitingAt s.inbox s.peers

/-- One receive. -/
theorem recvPacket_waiting (hown : OwnClients s.peers) (hok : ∀ id e, .error e ∉ s.inbox id)
    (len : UInt32) :
    let received := s.connectalsoRecvPacket (some len) none
    received.1.2 = (s.waiting.head?.elim [] fun e => e.2.take len.toNat) ∧
      received.1.1.toInt = received.1.2.length ∧
      received.2.waiting = s.waiting.tail ∧ OwnClients received.2.peers ∧
      ∀ id e, .error e ∉ received.2.inbox id := by
  obtain ⟨hhead, htail, herrors⟩ := recvFromAny_waiting hown hok
  have hlength := @length_of_recvFromAny s.inbox s.peers
  rw [← waiting] at hhead htail
  simp only [connectalsoRecvPacket, engineRecvPacket, polled]
  rw [← hhead]
  generalize recvFromAny s.inbox s.peers = received at hhead htail herrors hlength ⊢
  obtain ⟨_ | ⟨id, packet⟩, inbox⟩ := received
  · exact ⟨rfl, rfl, htail, hown, herrors⟩
  · have htake : packet.take (min packet.length len.toNat) = packet.take len.toNat := by
      rw [Nat.min_comm, ← List.take_take, List.take_length]
    refine ⟨htake, ?_, htail, hown, herrors⟩
    dsimp only
    rw [htake]
    exact toInt_answer (hlength rfl) len

/-- Receives in a row. -/
theorem receiveAll_waiting (hown : OwnClients s.peers) (hok : ∀ id e, .error e ∉ s.inbox id)
    (lens : List UInt32) :
    (s.receiveAll lens).map Prod.snd =
        List.zipWith (fun e len => e.2.take len.toNat) s.waiting lens ++
          List.replicate (lens.length - s.waiting.length) [] ∧
      ∀ result ∈ s.receiveAll lens, result.1.toInt = result.2.length := by
  induction lens generalizing s with
  | nil => exact ⟨by simp [receiveAll], fun _ h => by cases h⟩
  | cons len lens ih =>
      obtain ⟨hwritten, hanswer, hwaiting, hown', herrors⟩ := recvPacket_waiting hown hok len
      obtain ⟨hlater, hanswers⟩ := ih hown' herrors
      rw [hwaiting] at hlater
      refine ⟨?_, List.forall_mem_cons.mpr ⟨hanswer, hanswers⟩⟩
      rw [receiveAll, List.map_cons, hlater, hwritten]
      cases s.waiting with
      | nil => simp [List.replicate_succ]
      | cons first rest => simp

end Receiver

/-- After any run, receives in a row write what waits, the packets of the first peer of the map
    before those of the next, each as far as its buffer holds it, and answer how many bytes
    they write: a peer is kept waiting by all the peers before it, and when nothing waits any
    more nothing is written. An error at a socket is skipped with its peer for one receive, so
    it can change the order. -/
theorem receives_drain_in_map_order (events : List ReceiverEvent) :
    let now := run Receiver.step Receiver.start events
    let waiting := now.peers.flatMap fun e =>
      (packetsFrom e.1 (now.inbox e.1)).map fun data => (e.1, data)
    (∃ id e, .error e ∈ now.inbox id) ∨
      ∀ lens : List UInt32,
        (now.receiveAll lens).map Prod.snd =
            List.zipWith (fun e len => e.2.take len.toNat) waiting lens ++
              List.replicate (lens.length - waiting.length) [] ∧
          ∀ result ∈ now.receiveAll lens, result.1.toInt = result.2.length := by
  dsimp only
  by_cases herror : ∃ id e, .error e ∈ (run Receiver.step Receiver.start events).inbox id
  · exact Or.inl herror
  · push Not at herror
    exact Or.inr fun lens =>
      Receiver.receiveAll_waiting (Receiver.ownClients_run events) herror lens

end Mobile

end ConnectAlso
