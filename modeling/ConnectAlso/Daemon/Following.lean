import ConnectAlso.Daemon.LiveCandidates
import ConnectAlso.Daemon.Running

/-!
# Routing over whole runs

Whatever happens in the rounds of a daemon, while it runs its maps are those of the last
peer list that it could sync. So a packet read from the TUN goes, in one DATA frame for the
device that this list gives for its destination, to the relay that was active at that time;
without such a device it is dropped. No round ever takes a peer off the relay or lets the
retry interval pass 400 ms, because every sync makes its links anew.
-/

namespace ConnectAlso.Daemon
open Misc Program RelayProto

/-- The round that the maps of a running daemon come from: the last one whose sync went
    through. -/
structure LastSynced (ourId : Uuid) (rounds : List Surroundings) (env : Surroundings)
    (peers : List PeerInfo) : Prop where
  listed : env.peers = .ok peers
  last : ∃ past later, rounds = past ++ env :: later ∧ (∃ links, syncPeers env ourId = .ok links) ∧
    ∀ round ∈ later, ∀ links, syncPeers round ourId ≠ .ok links

/-- The device to which a peer list gives an address: that of the last entry which has it. -/
def deviceAt (ourId : Uuid) (peers : List PeerInfo) (addr : Ipv4Addr) : Option Uuid :=
  (lastWith (hasAddress addr) (peers.filter fun p => p.deviceId ≠ ourId)).map PeerInfo.deviceId

@[simp] theorem republish_shared (env : Surroundings) (state : DaemonState) :
    (republish env state).shared = state.shared ∧ (republish env state).phase = state.phase := by
  have hstate := (discoverCandidates_bound env state).1
  rw [republish, publishCandidates]
  split
  · rw [hstate]
    exact ⟨rfl, rfl⟩
  · split
    · rw [hstate]
      exact ⟨rfl, rfl⟩
    · rw [hstate]
      exact ⟨rfl, rfl⟩

/-- While the daemon runs, its maps follow the last list that was synced. -/
def Follower (ourId : Uuid) (rounds : List Surroundings) (state : DaemonState) : Prop :=
  state.phase = .running →
    ∃ env peers, LastSynced ourId rounds env peers ∧ Follows ourId peers env.relayAddr state.shared

theorem LastSynced.snoc {ourId : Uuid} {rounds : List Surroundings} {env : Surroundings}
    {peers : List PeerInfo} (h : LastSynced ourId rounds env peers) {round : Surroundings}
    (hround : ∀ links, syncPeers round ourId ≠ .ok links) :
    LastSynced ourId (rounds ++ [round]) env peers := by
  obtain ⟨hlisted, past, later, rfl, hsynced, hlater⟩ := h
  refine ⟨hlisted, past, later ++ [round], by simp, hsynced, ?_⟩
  intro other hother
  rcases List.mem_append.mp hother with hmem | hmem
  · exact hlater other hmem
  · rw [List.mem_singleton.mp hmem]
    exact hround

theorem lastSynced_snoc_self {ourId : Uuid} (rounds : List Surroundings) {env : Surroundings}
    {peers : List PeerInfo} (hlisted : env.peers = .ok peers) {links : SharedState}
    (hsynced : syncPeers env ourId = .ok links) :
    LastSynced ourId (rounds ++ [env]) env peers :=
  ⟨hlisted, rounds, [], rfl, ⟨links, hsynced⟩, fun _ h => absurd h List.not_mem_nil⟩

/-- What a round does to the maps of a daemon that runs after it: they are those of its own
    list, or the daemon ran before, could not sync, and has kept its maps. -/
theorem daemonStep_follows {ourId : Uuid} {state : DaemonState} {env : Surroundings}
    (hrunning : (daemonStep ourId state env).phase = .running) :
    (∃ peers, env.peers = .ok peers ∧ (∃ links, syncPeers env ourId = .ok links) ∧
      Follows ourId peers env.relayAddr (daemonStep ourId state env).shared) ∨
    (state.phase = .running ∧ (∀ links, syncPeers env ourId ≠ .ok links) ∧
      (daemonStep ourId state env).shared = state.shared) := by
  obtain ⟨hshared, -⟩ := republish_shared env state
  cases hnow : state.phase with
  | exited =>
      rw [daemonStep_of_exited hnow, hnow] at hrunning
      cases hrunning
  | starting =>
      rw [daemonStep, hnow] at hrunning ⊢
      dsimp only [startUp] at hrunning ⊢
      cases hsync : syncPeers env ourId with
      | error e =>
          rw [hsync] at hrunning
          cases hrunning
      | ok links =>
          rw [hsync] at hrunning
          cases htun : env.tun with
          | error e =>
              rw [htun] at hrunning
              cases hrunning
          | ok created =>
              obtain ⟨peers, hpeers, hfollows⟩ :=
                follows_attemptP2pForAll hsync (republish env state)
              exact Or.inl ⟨peers, hpeers, ⟨links, rfl⟩, hfollows⟩
  | running =>
      rw [daemonStep, hnow]
      dsimp only [refresh]
      cases hsync : syncPeers env ourId with
      | error e =>
          refine Or.inr ⟨rfl, ?_, hshared⟩
          intro links hlinks
          cases hlinks
      | ok links =>
          obtain ⟨peers, hpeers, hfollows⟩ :=
            follows_attemptP2pForAll hsync (republish env state)
          exact Or.inl ⟨peers, hpeers, ⟨links, rfl⟩, hfollows⟩

theorem follower_step {ourId : Uuid} {rounds : List Surroundings} {state : DaemonState}
    (h : Follower ourId rounds state) (env : Surroundings) :
    Follower ourId (rounds ++ [env]) (daemonStep ourId state env) := by
  intro hrunning
  rcases daemonStep_follows hrunning with ⟨peers, hpeers, ⟨links, hsync⟩, hfollows⟩ |
    ⟨hnow, hround, hkept⟩
  · exact ⟨env, peers, lastSynced_snoc_self rounds hpeers hsync, hfollows⟩
  · obtain ⟨last, peers, hlast, hfollows⟩ := h hnow
    exact ⟨last, peers, hlast.snoc hround, by rw [hkept]; exact hfollows⟩

/-- Over any rounds, a running daemon follows the last list that it synced. -/
theorem follower_run (ourId : Uuid) (rounds : List Surroundings) :
    Follower ourId rounds (run (daemonStep ourId) .start rounds) := by
  induction rounds using List.reverseRecOn with
  | nil =>
      intro hrunning
      cases hrunning
  | append_singleton rounds env ih =>
      rw [run_append]
      exact follower_step ih env

/-! ## Packets -/

/-- What the task behind the TUN sends when the maps follow a list. -/
theorem sent_of_follows {ourId : Uuid} {peers : List PeerInfo} {relayAddr : SocketAddr}
    {state : SharedState} (h : Follows ourId peers relayAddr state) (net : Network)
    (pkt : List UInt8) :
    match (parseDstIp pkt).bind (deviceAt ourId peers) with
    | none => (forwardPacket net state pkt).sent = []
    | some id => ∃ socket, (forwardPacket net state pkt).sent =
        if pkt.length ≤ maxPayload then
          [⟨socket, relayAddr, (RelayFrame.data (relayIdOf ourId) (relayIdOf id) pkt).wireBytes⟩]
        else [] := by
  rw [sent_forwardPacket]
  unfold routeOf
  cases hdst : parseDstIp pkt with
  | none => rfl
  | some dst =>
      have hroute := h.routes dst
      rw [Option.bind_some]
      cases hlast : lastWith (hasAddress dst) (peers.filter fun p => p.deviceId ≠ ourId) with
      | none =>
          rw [hlast] at hroute
          simp only [deviceAt, hlast, hroute, Option.map_none, Option.bind_eq_bind,
            Option.bind_some, Option.bind_none]
      | some p =>
          rw [hlast] at hroute
          -- the device of the entry has a link: its own last entry has one
          have hp := (mem_of_lastWith hlast).1
          have hlink := h.links p.deviceId
          cases hlastId : lastWith (fun q : PeerInfo => q.deviceId = p.deviceId)
              (peers.filter fun p => p.deviceId ≠ ourId) with
          | none =>
              have hnone := List.find?_eq_none.mp hlastId p (List.mem_reverse.mpr hp)
              simp at hnone
          | some q =>
              rw [hlastId] at hlink
              obtain ⟨link, ⟨retry, -, made, ⟨vip, socket, -, rfl⟩, rfl⟩, hsome⟩ := hlink
              have hq : q.deviceId = p.deviceId := by simpa using (mem_of_lastWith hlastId).2
              simp only [deviceAt, hlast, Option.map_some, Option.bind_eq_bind, Option.bind_some,
                hroute, hsome]
              refine ⟨socket, ?_⟩
              by_cases hfits : pkt.length ≤ maxPayload
              · obtain ⟨encoded, hencode, hsent⟩ := RelayClient.send_of_le net
                  ⟨socket, relayAddr, relayIdOf ourId, relayIdOf q.deviceId⟩ hfits
                rw [RelayFrame.encode_of_le (show (RelayFrame.data _ _ pkt).payload.length ≤
                  maxPayload from hfits)] at hencode
                obtain rfl := Except.ok.inj hencode
                rw [if_pos hfits, ← hq]
                exact hsent
              · rw [if_neg hfits]
                exact congrArg Effect.sent (RelayClient.send_of_lt net
                  ⟨socket, relayAddr, relayIdOf ourId, relayIdOf q.deviceId⟩ (by omega))

/-- Over any rounds, with any answers of the network, of the control service and of the
    peers: while the daemon runs there is a last list that it synced, and each packet read
    from the TUN is sent, unless it is too long for a frame, in one DATA frame for the
    device that this list gives for its destination, to the relay of that sync; a packet
    for which the list gives no other device is dropped. -/
theorem running_follows_list (ourId : Uuid) (rounds : List Surroundings)
    (hrunning : (run (daemonStep ourId) .start rounds).phase = .running) :
    ∃ env peers, LastSynced ourId rounds env peers ∧ ∀ net pkt,
      let sent := (forwardPacket net (run (daemonStep ourId) .start rounds).shared pkt).sent
      match (parseDstIp pkt).bind (deviceAt ourId peers) with
      | none => sent = []
      | some id => ∃ socket, sent =
          if pkt.length ≤ maxPayload then
            [⟨socket, env.relayAddr,
              (RelayFrame.data (relayIdOf ourId) (relayIdOf id) pkt).wireBytes⟩]
          else [] := by
  obtain ⟨env, peers, hlast, hfollows⟩ := follower_run ourId rounds hrunning
  exact ⟨env, peers, hlast, fun net pkt => sent_of_follows hfollows net pkt⟩

/-- After a round in which nothing fails, a packet goes to the device of the list. -/
theorem nothingFails_follows_list :
    (run (daemonStep (numberedDevice 1)) .start [nothingFails]).phase = .running ∧
      ∃ env peers, LastSynced (numberedDevice 1) [nothingFails] env peers ∧ ∀ net pkt,
        let sent := (forwardPacket net
          (run (daemonStep (numberedDevice 1)) .start [nothingFails]).shared pkt).sent
        match (parseDstIp pkt).bind (deviceAt (numberedDevice 1) peers) with
        | none => sent = []
        | some id => ∃ socket, sent =
            if pkt.length ≤ maxPayload then
              [⟨socket, env.relayAddr,
                (RelayFrame.data (relayIdOf (numberedDevice 1)) (relayIdOf id) pkt).wireBytes⟩]
            else [] := by
  have hrunning : (run (daemonStep (numberedDevice 1)) .start [nothingFails]).phase = .running := by
    decide +kernel
  exact ⟨hrunning, running_follows_list (numberedDevice 1) [nothingFails] hrunning⟩

/-! ## Paths -/

/-- A link whose path is on the relay, with the first retry interval of `PathManager`, and
    that has been doubled its own one once at most. -/
structure OnRelay (link : PeerLink) : Prop where
  status : link.path.currentStatus = .relay
  backoff : link.path.backoffMs = initialRetryMs
  retry : link.p2pRetryMs = 200 ∨ link.p2pRetryMs = 400
  directPeer : link.path.directPeer = ⟨.v4 link.vip, 0⟩

theorem IsLink.onRelay {relayAddr : SocketAddr} {ourRelayId : PeerId} {p : PeerInfo}
    {link : PeerLink} (h : IsLink relayAddr ourRelayId p link) : OnRelay link := by
  obtain ⟨retry, hretry, made, ⟨vip, socket, -, rfl⟩, rfl⟩ := h
  exact ⟨rfl, rfl, hretry, rfl⟩

/-- Over any rounds and whatever the attempts at a direct path come to: no peer of a running
    daemon is ever off the relay, and its retry interval is 200 or 400 ms. -/
theorem running_paths_on_relay (ourId : Uuid) (rounds : List Surroundings)
    (hrunning : (run (daemonStep ourId) .start rounds).phase = .running) (id : Uuid)
    (link : PeerLink)
    (hlink : (run (daemonStep ourId) .start rounds).shared.peerLinks id = some link) :
    OnRelay link ∧ link.path.relay.ourId = relayIdOf ourId ∧
      link.path.relay.peerId = relayIdOf id := by
  obtain ⟨env, peers, -, hfollows⟩ := follower_run ourId rounds hrunning
  have hid := hfollows.links id
  cases hlast : lastWith (fun p : PeerInfo => p.deviceId = id)
      (peers.filter fun p => p.deviceId ≠ ourId) with
  | none =>
      rw [hlast, hlink] at hid
      cases hid
  | some p =>
      rw [hlast] at hid
      obtain ⟨other, hother, hsome⟩ := hid
      obtain rfl := Option.some.inj (hsome.symm.trans hlink)
      refine ⟨hother.onRelay, ?_⟩
      obtain ⟨retry, -, made, ⟨vip, socket, -, rfl⟩, rfl⟩ := hother
      have hp : p.deviceId = id := by simpa using (mem_of_lastWith hlast).2
      exact ⟨rfl, congrArg relayIdOf hp⟩

/-- In a round in which nothing fails nobody answers the punches, so the interval of the one
    peer is doubled. -/
theorem nothingFails_on_relay :
    ∃ link, (run (daemonStep (numberedDevice 1)) .start [nothingFails]).shared.peerLinks
        (numberedDevice 2) = some link ∧ OnRelay link ∧
      link.path.relay.ourId = relayIdOf (numberedDevice 1) ∧
      link.path.relay.peerId = relayIdOf (numberedDevice 2) := by
  have hrunning : (run (daemonStep (numberedDevice 1)) .start [nothingFails]).phase = .running := by
    decide +kernel
  have hsome : ((run (daemonStep (numberedDevice 1)) .start [nothingFails]).shared.peerLinks
      (numberedDevice 2)).isSome = true := by
    decide +kernel
  obtain ⟨link, hlink⟩ := Option.isSome_iff_exists.mp hsome
  exact ⟨link, hlink, running_paths_on_relay (numberedDevice 1) [nothingFails] hrunning
    (numberedDevice 2) link hlink⟩

end ConnectAlso.Daemon
