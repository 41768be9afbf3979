import ConnectAlso.Tunnel.Path

/-!
# The daemon's data path

The parts of `apps/daemon/src/main.rs` between the TUN device and the relay:
`connect_peers`, which registers one relay client for each other device of the
network, and the task that routes each packet read from the TUN to a client.
-/

namespace ConnectAlso.Daemon
open Misc RelayProto

/-- `PeerInfo`, an entry of the peer list of the control service. -/
structure PeerInfo where
  deviceId : Uuid
  ipv4 : String
  publicKey : Octets 32
  hostname : String
  deriving DecidableEq

/-- `PeerLink`. -/
structure PeerLink where
  hostname : String
  vip : Ipv4Addr
  publicKey : Octets 32
  path : PathManager
  p2pRetryMs : UInt64
  deriving DecidableEq

/-- The two maps of `SharedState`. -/
structure SharedState where
  ipRoute : Ipv4Addr → Option Uuid
  peerLinks : Uuid → Option PeerLink

/-- The errors that `?` turns into an `anyhow::Error` in `connect_peers`. -/
inductive ConnectError where
  | http (error : String)
  | addrParse (text : String)
  | io (error : IoError)
  deriving DecidableEq, Repr

/-- `PeerId::from_bytes(id.into_bytes())`. -/
def relayIdOf (id : Uuid) : PeerId := id

/-- One iteration of the loop of `connect_peers`; `bound` is what `UdpSocket::bind`
    answers in it. -/
def connectPeer (net : Network) (bound : Except IoError SocketAddr) (relayAddr : SocketAddr)
    (ourRelayId : PeerId) (state : SharedState) (p : PeerInfo) :
    Effect ConnectError SharedState := do
  let vip ← Effect.ofExcept (match Ipv4Addr.parse p.ipv4 with
    | some vip => .ok vip
    | none => .error (.addrParse p.ipv4))
  let relay ← (RelayClient.register net bound relayAddr ourRelayId (relayIdOf p.deviceId)).mapErr
    .io
  let path := PathManager.new relay ⟨.v4 vip, 0⟩
  return {
    ipRoute := Function.update state.ipRoute vip (some p.deviceId)
    peerLinks := Function.update state.peerLinks p.deviceId (some {
      hostname := p.hostname, vip, publicKey := p.publicKey, path, p2pRetryMs := 200 }) }

/-- The loop of `connect_peers`. -/
def connectEach (net : Network) (bound : Uuid → Except IoError SocketAddr)
    (relayAddr : SocketAddr) (ourRelayId : PeerId) :
    SharedState → List PeerInfo → Effect ConnectError SharedState
  | state, [] => return state
  | state, p :: rest => do
    let state ← connectPeer net (bound p.deviceId) relayAddr ourRelayId state p
    connectEach net bound relayAddr ourRelayId state rest

/-- `connect_peers`: `response` is the decoded answer of the control service, and
    `bound` what `UdpSocket::bind` answers for the client of a peer. -/
def connectPeers (net : Network) (bound : Uuid → Except IoError SocketAddr)
    (response : Except String (List PeerInfo)) (relayAddr : SocketAddr) (ourId : Uuid)
    (ourRelayId : PeerId) : Effect ConnectError SharedState := do
  let peers ← Effect.ofExcept (response.mapError .http)
  connectEach net bound relayAddr ourRelayId ⟨fun _ => none, fun _ => none⟩
    (peers.filter fun p => p.deviceId ≠ ourId)

/-- The relay client of a peer. -/
def SharedState.clientFor (state : SharedState) (id : Uuid) : Option RelayClient :=
  (state.peerLinks id).map fun link => link.path.relay

/-- On a network that takes its HELLO, an iteration adds the client of the peer. -/
theorem connectPeer_eq {p : PeerInfo} {vip : Ipv4Addr} (hvip : Ipv4Addr.parse p.ipv4 = some vip)
    (socket relayAddr : SocketAddr) (ourRelayId : PeerId) (state : SharedState) :
    ∃ state', connectPeer Network.ideal (.ok socket) relayAddr ourRelayId state p =
        ⟨[⟨socket, relayAddr, RelayFrame.helloBytes ourRelayId⟩], .ok state'⟩ ∧
      ∀ id, state'.clientFor id =
        if id = p.deviceId then some ⟨socket, relayAddr, ourRelayId, relayIdOf p.deviceId⟩
        else state.clientFor id := by
  rw [connectPeer, hvip, Effect.ofExcept_ok_bind, RelayClient.register_eq]
  refine ⟨_, rfl, ?_⟩
  intro id
  by_cases hid : id = p.deviceId
  · subst hid
    simp [SharedState.clientFor, PathManager.new]
  · simp [SharedState.clientFor, hid]

/-- The loop sends one HELLO for each peer, all under our one id and each from the
    socket of its own client, and ends with a client for each peer. -/
theorem connectEach_eq {peers : List PeerInfo}
    (hvips : ∀ p ∈ peers, ∃ vip, Ipv4Addr.parse p.ipv4 = some vip) (socketOf : Uuid → SocketAddr)
    (relayAddr : SocketAddr) (ourRelayId : PeerId) (state : SharedState) :
    ∃ state', connectEach Network.ideal (fun id => .ok (socketOf id)) relayAddr ourRelayId state
        peers =
        ⟨peers.map fun p =>
          ⟨socketOf p.deviceId, relayAddr, RelayFrame.helloBytes ourRelayId⟩, .ok state'⟩ ∧
      ∀ id, state'.clientFor id =
        if id ∈ peers.map PeerInfo.deviceId then
          some ⟨socketOf id, relayAddr, ourRelayId, relayIdOf id⟩
        else state.clientFor id := by
  induction peers generalizing state with
  | nil => exact ⟨state, rfl, fun id => by simp⟩
  | cons p peers ih =>
      obtain ⟨vip, hvip⟩ := hvips p (by simp)
      obtain ⟨middle, hstep, hmiddle⟩ :=
        connectPeer_eq hvip (socketOf p.deviceId) relayAddr ourRelayId state
      obtain ⟨final, hrest, hfinal⟩ := ih (fun q hq => hvips q (List.mem_cons_of_mem _ hq)) middle
      refine ⟨final, ?_, ?_⟩
      · rw [connectEach, hstep, Effect.bind_ok rfl, hrest]
        rfl
      · intro id
        rw [hfinal id, hmiddle id, List.map_cons]
        by_cases hid : id = p.deviceId
        · subst hid
          simp
        · simp [hid]

/-- `connect_peers` on a good answer of the control service. -/
theorem connectPeers_eq {peers : List PeerInfo}
    (hvips : ∀ p ∈ peers, ∃ vip, Ipv4Addr.parse p.ipv4 = some vip) (socketOf : Uuid → SocketAddr)
    (relayAddr : SocketAddr) (ourId : Uuid) (ourRelayId : PeerId) :
    ∃ state, connectPeers Network.ideal (fun id => .ok (socketOf id)) (.ok peers) relayAddr ourId
        ourRelayId =
        ⟨(peers.filter fun p => p.deviceId ≠ ourId).map fun p =>
          ⟨socketOf p.deviceId, relayAddr, RelayFrame.helloBytes ourRelayId⟩, .ok state⟩ ∧
      ∀ p ∈ peers, p.deviceId ≠ ourId → state.clientFor p.deviceId =
        some ⟨socketOf p.deviceId, relayAddr, ourRelayId, relayIdOf p.deviceId⟩ := by
  obtain ⟨state, heq, hclients⟩ := @connectEach_eq (peers.filter fun p => p.deviceId ≠ ourId)
    (fun p hp => hvips p (List.mem_of_mem_filter hp)) socketOf relayAddr ourRelayId
    ⟨fun _ => none, fun _ => none⟩
  refine ⟨state, heq, ?_⟩
  intro p hp hne
  rw [hclients, if_pos]
  exact List.mem_map.mpr ⟨p, List.mem_filter.mpr ⟨hp, by simpa using hne⟩, rfl⟩

/-- On any network, an iteration that succeeds adds a link of the peer, on the relay. -/
theorem connectPeer_links {net : Network} {bound : Except IoError SocketAddr}
    {relayAddr : SocketAddr} {ourRelayId : PeerId} {state final : SharedState} {p : PeerInfo}
    (h : (connectPeer net bound relayAddr ourRelayId state p).outcome = .ok final) :
    ∃ link, link.path.currentStatus = .relay ∧
      final.peerLinks = Function.update state.peerLinks p.deviceId (some link) := by
  obtain ⟨vip, -, hrelay⟩ := Effect.of_bind_ok h
  obtain ⟨relay, -, hreturn⟩ := Effect.of_bind_ok hrelay
  rw [← Except.ok.inj hreturn]
  exact ⟨_, PathManager.currentStatus_new relay ⟨.v4 vip, 0⟩, rfl⟩

/-- On any network, a loop that succeeds ends with a link on the relay for each peer. -/
theorem connectEach_links {net : Network} {bound : Uuid → Except IoError SocketAddr}
    {relayAddr : SocketAddr} {ourRelayId : PeerId} {peers : List PeerInfo}
    {state final : SharedState}
    (h : (connectEach net bound relayAddr ourRelayId state peers).outcome = .ok final) (id : Uuid) :
    (id ∈ peers.map PeerInfo.deviceId ∧
        ∃ link, link.path.currentStatus = .relay ∧ final.peerLinks id = some link) ∨
      (id ∉ peers.map PeerInfo.deviceId ∧ final.peerLinks id = state.peerLinks id) := by
  induction peers generalizing state with
  | nil =>
      rw [← Except.ok.inj h]
      exact Or.inr ⟨List.not_mem_nil, rfl⟩
  | cons p peers ih =>
      obtain ⟨middle, hfirst, hrest⟩ := Effect.of_bind_ok h
      obtain ⟨link, hstatus, hmiddle⟩ := connectPeer_links hfirst
      rcases ih hrest with ⟨hmem, hlink⟩ | ⟨hnot, hsame⟩
      · exact Or.inl ⟨List.mem_cons_of_mem _ hmem, hlink⟩
      · by_cases hid : id = p.deviceId
        · refine Or.inl ⟨by rw [hid]; exact List.mem_cons_self, link, hstatus, ?_⟩
          rw [hsame, hmiddle, hid, Function.update_self]
        · refine Or.inr ⟨?_, ?_⟩
          · rw [List.map_cons, List.mem_cons, not_or]
            exact ⟨hid, hnot⟩
          · rw [hsame, hmiddle, Function.update_of_ne hid]

/-- After `connect_peers`, on any network: a link on the relay for each other device. -/
theorem connectPeers_links {net : Network} {bound : Uuid → Except IoError SocketAddr}
    {response : Except String (List PeerInfo)} {relayAddr : SocketAddr} {ourId : Uuid}
    {ourRelayId : PeerId} {links : SharedState}
    (h : (connectPeers net bound response relayAddr ourId ourRelayId).outcome = .ok links) :
    ∃ peers, response = .ok peers ∧
      ∀ id ∈ (peers.filter fun p => p.deviceId ≠ ourId).map PeerInfo.deviceId,
        ∃ link, link.path.currentStatus = .relay ∧ links.peerLinks id = some link := by
  obtain ⟨peers, hpeers, hloop⟩ := Effect.of_bind_ok h
  cases response with
  | error error => cases hpeers
  | ok listed =>
      obtain rfl : listed = peers := Except.ok.inj hpeers
      refine ⟨listed, rfl, ?_⟩
      intro id hid
      rcases connectEach_links hloop id with ⟨-, hlink⟩ | ⟨hnot, -⟩
      · exact hlink
      · exact absurd hid hnot

/-- One packet read from the TUN (`main.rs:496-517`): routed to a peer and sent on its
    path, the result of `send` being ignored; otherwise dropped. -/
def forwardPacket (net : Network) (state : SharedState) (pkt : List UInt8) :
    Effect TunnelError Unit :=
  match parseDstIp pkt with
  | none => return ()
  | some dst =>
    match state.ipRoute dst with
    | none => return ()
    | some pid =>
      match state.peerLinks pid with
      | none => return ()
      | some link => (link.path.send net pkt).discard

/-- The peer link that a packet is routed to. -/
def routeOf (state : SharedState) (pkt : List UInt8) : Option PeerLink := do
  let dst ← parseDstIp pkt
  let pid ← state.ipRoute dst
  state.peerLinks pid

/-- The task sends what the relay client of the route sends, or nothing. -/
theorem sent_forwardPacket (net : Network) (state : SharedState) (pkt : List UInt8) :
    (forwardPacket net state pkt).sent =
      match routeOf state pkt with
      | none => []
      | some link => (link.path.relay.send net pkt).sent := by
  unfold forwardPacket routeOf
  cases parseDstIp pkt with
  | none => rfl
  | some dst =>
      cases hroute : state.ipRoute dst with
      | none => simp [hroute]
      | some pid =>
          cases hlink : state.peerLinks pid with
          | none => simp [hroute, hlink]
          | some link => simp [hroute, hlink]

end ConnectAlso.Daemon
