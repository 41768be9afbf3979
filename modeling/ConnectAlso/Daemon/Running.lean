import ConnectAlso.Daemon.Candidates

/-!
# The running daemon

What the shared maps of the daemon hold while it runs: the routes and links of the last
peer list that it could sync, for as long as no later list can be synced. A packet from the
TUN goes to the device to which that list gives its destination, through the relay that was
active then (`running_follows_list`). A link is made anew by every sync, so its path never
leaves the relay and its retry interval is doubled once at most.
-/

namespace ConnectAlso.Daemon
open Misc Program RelayProto

/-- The last entry of a list that meets `p`. -/
def lastWith {α : Type} (p : α → Bool) (l : List α) : Option α := l.reverse.find? p

/-- Later entries take precedence over a first one. -/
theorem lastWith_cons {α : Type} (p : α → Bool) (a : α) (l : List α) :
    lastWith p (a :: l) = (lastWith p l).or (if p a then some a else none) := by
  rw [lastWith, lastWith, List.reverse_cons, List.find?_append, List.find?_singleton]

theorem mem_of_lastWith {α : Type} {p : α → Bool} {l : List α} {a : α} (h : lastWith p l = some a) :
    a ∈ l ∧ p a = true :=
  ⟨List.mem_reverse.mp (List.mem_of_find?_eq_some h), List.find?_some h⟩

/-! ## What `connect_peers` makes of a list -/

/-- The link that an iteration of `connect_peers` makes. -/
def newLink (p : PeerInfo) (vip : Ipv4Addr) (relay : RelayClient) : PeerLink where
  hostname := p.hostname
  vip
  publicKey := p.publicKey
  path := PathManager.new relay ⟨.v4 vip, 0⟩
  p2pRetryMs := 200

/-- The link is one that `connect_peers` makes for this entry, with a client of this relay. -/
def IsNewLink (relayAddr : SocketAddr) (ourRelayId : PeerId) (p : PeerInfo) (link : PeerLink) :
    Prop :=
  ∃ vip socket, Ipv4Addr.parse p.ipv4 = some vip ∧
    link = newLink p vip ⟨socket, relayAddr, ourRelayId, relayIdOf p.deviceId⟩

/-- The address of an entry is this one. -/
def hasAddress (addr : Ipv4Addr) (p : PeerInfo) : Bool := Ipv4Addr.parse p.ipv4 = some addr

section Connect
variable {net : Network} {relayAddr : SocketAddr} {ourRelayId : PeerId}

/-- A registration that succeeds returns a client of the relay. -/
theorem register_outcome {bound : Except IoError SocketAddr} {peerId : PeerId} {relay : RelayClient}
    (h : (RelayClient.register net bound relayAddr ourRelayId peerId).outcome = .ok relay) :
    ∃ socket, relay = ⟨socket, relayAddr, ourRelayId, peerId⟩ := by
  obtain ⟨socket, -, h⟩ := Effect.of_bind_ok h
  obtain ⟨encoded, -, h⟩ := Effect.of_bind_ok h
  obtain ⟨n, -, h⟩ := Effect.of_bind_ok h
  exact ⟨socket, (Except.ok.inj h).symm⟩

/-- An iteration that succeeds adds a route and a new link. -/
theorem connectPeer_outcome {bound : Except IoError SocketAddr} {state final : SharedState}
    {p : PeerInfo}
    (h : (connectPeer net bound relayAddr ourRelayId state p).outcome = .ok final) :
    ∃ vip link, Ipv4Addr.parse p.ipv4 = some vip ∧ IsNewLink relayAddr ourRelayId p link ∧
      final.ipRoute = Function.update state.ipRoute vip (some p.deviceId) ∧
      final.peerLinks = Function.update state.peerLinks p.deviceId (some link) := by
  obtain ⟨vip, hvip, h⟩ := Effect.of_bind_ok h
  obtain ⟨relay, hrelay, h⟩ := Effect.of_bind_ok h
  rw [Effect.mapErr_eq_ok_iff] at hrelay
  obtain ⟨socket, rfl⟩ := register_outcome hrelay
  rw [Effect.ofExcept_eq_ok_iff] at hvip
  have hparse : Ipv4Addr.parse p.ipv4 = some vip := by
    cases hp : Ipv4Addr.parse p.ipv4 with
    | none => rw [hp] at hvip; cases hvip
    | some addr => rw [hp] at hvip; exact congrArg some (Except.ok.inj hvip)
  rw [← Except.ok.inj h]
  exact ⟨vip, _, hparse, ⟨vip, socket, hparse, rfl⟩, rfl, rfl⟩

/-- The loop of `connect_peers`: the last entry with an address gives its route, and the
    last entry of a device its link. -/
theorem connectEach_outcome {bound : Uuid → Except IoError SocketAddr} {peers : List PeerInfo}
    {state final : SharedState}
    (h : (connectEach net bound relayAddr ourRelayId state peers).outcome = .ok final) :
    (∀ addr, final.ipRoute addr =
      ((lastWith (hasAddress addr) peers).map PeerInfo.deviceId).or (state.ipRoute addr)) ∧
    ∀ id, match lastWith (fun p => p.deviceId = id) peers with
      | none => final.peerLinks id = state.peerLinks id
      | some p => ∃ link, IsNewLink relayAddr ourRelayId p link ∧ final.peerLinks id = some link := by
  induction peers generalizing state with
  | nil =>
      rw [← Except.ok.inj h]
      exact ⟨fun addr => rfl, fun id => rfl⟩
  | cons p peers ih =>
      obtain ⟨middle, hfirst, hrest⟩ := Effect.of_bind_ok h
      obtain ⟨vip, link, hvip, hlink, hroute, hlinks⟩ := connectPeer_outcome hfirst
      obtain ⟨hroutes, hfinal⟩ := ih hrest
      refine ⟨?_, ?_⟩
      · intro addr
        rw [hroutes, hroute, lastWith_cons]
        cases lastWith (hasAddress addr) peers with
        | some q => rfl
        | none =>
            by_cases haddr : addr = vip
            · subst haddr
              simp [hasAddress, hvip]
            · simp [hasAddress, hvip, haddr, Ne.symm haddr]
      · intro id
        have hid := hfinal id
        rw [lastWith_cons]
        cases hlast : lastWith (fun q : PeerInfo => q.deviceId = id) peers with
        | some q =>
            rw [hlast] at hid
            exact hid
        | none =>
            rw [hlast] at hid
            simp only [Option.none_or, decide_eq_true_eq]
            by_cases hsame : p.deviceId = id
            · rw [if_pos hsame]
              exact ⟨link, hlink, by rw [hid, hlinks, hsame, Function.update_self]⟩
            · rw [if_neg hsame]
              exact hid.trans (by rw [hlinks, Function.update_of_ne (Ne.symm hsame)])

end Connect

/-! ## Following a list -/

/-- A link that `connect_peers` made, of whose fields only the retry interval may have
    changed, by one doubling. -/
def IsLink (relayAddr : SocketAddr) (ourRelayId : PeerId) (p : PeerInfo) (link : PeerLink) : Prop :=
  ∃ retry, (retry = 200 ∨ retry = 400) ∧
    ∃ made, IsNewLink relayAddr ourRelayId p made ∧ link = { made with p2pRetryMs := retry }

/-- The maps are those of a peer list: a route for the last entry with an address, a link
    for the last entry of a device. -/
structure Follows (ourId : Uuid) (peers : List PeerInfo) (relayAddr : SocketAddr)
    (state : SharedState) : Prop where
  routes : ∀ addr, state.ipRoute addr = (lastWith (hasAddress addr)
    (peers.filter fun p => p.deviceId ≠ ourId)).map PeerInfo.deviceId
  links : ∀ id, match lastWith (fun p => p.deviceId = id)
      (peers.filter fun p => p.deviceId ≠ ourId) with
    | none => state.peerLinks id = none
    | some p => ∃ link, IsLink relayAddr (relayIdOf ourId) p link ∧ state.peerLinks id = some link

theorem IsNewLink.isLink {relayAddr : SocketAddr} {ourRelayId : PeerId} {p : PeerInfo}
    {link : PeerLink} (h : IsNewLink relayAddr ourRelayId p link) :
    IsLink relayAddr ourRelayId p link := by
  refine ⟨200, Or.inl rfl, link, h, ?_⟩
  obtain ⟨vip, socket, -, rfl⟩ := h
  rfl

/-- A sync that goes through follows the list. -/
theorem follows_of_syncPeers {env : Surroundings} {ourId : Uuid} {links : SharedState}
    (h : syncPeers env ourId = .ok links) :
    ∃ peers, env.peers = .ok peers ∧ Follows ourId peers env.relayAddr links ∧
      ∀ id link, links.peerLinks id = some link → link.p2pRetryMs = 200 := by
  obtain ⟨peers, hpeers, hloop⟩ := Effect.of_bind_ok h
  rw [Effect.ofExcept_eq_ok_iff] at hpeers
  have hlisted : env.peers = .ok peers := by
    cases hp : env.peers with
    | error e => rw [hp] at hpeers; cases hpeers
    | ok listed => rw [hp] at hpeers; exact congrArg Except.ok (Except.ok.inj hpeers)
  obtain ⟨hroutes, hlinks⟩ := connectEach_outcome hloop
  refine ⟨peers, hlisted, ⟨?_, ?_⟩, ?_⟩
  · intro addr
    rw [hroutes, Option.or_none]
  · intro id
    have hid := hlinks id
    cases hlast : lastWith (fun p : PeerInfo => p.deviceId = id)
        (peers.filter fun p => p.deviceId ≠ ourId) with
    | none => rw [hlast] at hid; exact hid
    | some p =>
        rw [hlast] at hid
        obtain ⟨link, hnew, hsome⟩ := hid
        exact ⟨link, hnew.isLink, hsome⟩
  · intro id link hlink
    have hid := hlinks id
    cases hlast : lastWith (fun p : PeerInfo => p.deviceId = id)
        (peers.filter fun p => p.deviceId ≠ ourId) with
    | none => rw [hlast, hlink] at hid; cases hid
    | some p =>
        rw [hlast] at hid
        obtain ⟨made, ⟨vip, socket, -, rfl⟩, hsome⟩ := hid
        rw [← Option.some.inj (hsome.symm.trans hlink)]
        rfl

/-! ## Attempts at a direct path -/

/-- An attempt changes the retry interval of a link and nothing else: a fresh link is set
    back to 200 ms or doubled to 400 ms. -/
theorem attemptP2p_link (env : Surroundings) (pid : Uuid) (link : PeerLink)
    (hfresh : link.p2pRetryMs = 200) (state : DaemonState) :
    ∃ retry, (retry = 200 ∨ retry = 400) ∧
      (attemptP2p env pid link state).1 = { link with p2pRetryMs := retry } := by
  have hsame : link = { link with p2pRetryMs := 200 } := by rw [← hfresh]
  rw [attemptP2p]
  split
  · exact ⟨200, Or.inl rfl, hsame⟩
  · split
    · exact ⟨200, Or.inl rfl, hsame⟩
    · split
      · exact ⟨200, Or.inl rfl, hsame⟩
      · dsimp only
        split
        · exact ⟨200, Or.inl rfl, rfl⟩
        · refine ⟨400, Or.inr rfl, ?_⟩
          rw [hfresh]
          rfl

/-- The maps that follow a list still follow it after attempts for entries of the map. -/
theorem attemptEach_follows {ourId : Uuid} {peers : List PeerInfo} {relayAddr : SocketAddr}
    (env : Surroundings) {entries : List (Uuid × PeerLink)} {links : SharedState}
    (hnodup : (entries.map Prod.fst).Nodup)
    (hentries : ∀ entry ∈ entries, links.peerLinks entry.1 = some entry.2 ∧
      entry.2.p2pRetryMs = 200)
    (h : Follows ourId peers relayAddr links) (state : DaemonState) :
    Follows ourId peers relayAddr (attemptEach env entries links state).1 := by
  induction entries generalizing links state with
  | nil => exact h
  | cons entry entries ih =>
      obtain ⟨pid, link⟩ := entry
      have hlink : links.peerLinks pid = some link := (hentries _ List.mem_cons_self).1
      have hfresh : link.p2pRetryMs = 200 := (hentries _ List.mem_cons_self).2
      rw [List.map_cons, List.nodup_cons] at hnodup
      obtain ⟨hnotin, hrest⟩ := hnodup
      obtain ⟨retry, hretry, heq⟩ := attemptP2p_link env pid link hfresh state
      rw [attemptEach]
      apply ih hrest
      · intro other hother
        have hne : other.1 ≠ pid := fun heq => hnotin (List.mem_map.mpr ⟨other, hother, heq⟩)
        obtain ⟨hmem, hother200⟩ := hentries other (List.mem_cons_of_mem _ hother)
        exact ⟨(Function.update_of_ne hne _ _).trans hmem, hother200⟩
      · refine ⟨h.routes, ?_⟩
        intro id
        have hid := h.links id
        by_cases hsame : id = pid
        · subst hsame
          cases hlast : lastWith (fun p : PeerInfo => p.deviceId = id)
              (peers.filter fun p => p.deviceId ≠ ourId) with
          | none => rw [hlast, hlink] at hid; cases hid
          | some p =>
              rw [hlast] at hid
              obtain ⟨old, ⟨_, -, made, hmade, rfl⟩, hsome⟩ := hid
              rw [hlink] at hsome
              refine ⟨_, ⟨retry, hretry, made, hmade, ?_⟩, Function.update_self _ _ _⟩
              rw [heq, Option.some.inj hsome]
        · have hother : Function.update links.peerLinks pid
              (some (attemptP2p env pid link state).1) id = links.peerLinks id :=
            Function.update_of_ne hsame _ _
          simp only [hother]
          exact hid

/-- The keys of entries that are looked up by key are the keys that are found. -/
theorem keys_lookedUp {κ α : Type} (f : κ → Option α) (keys : List κ) :
    (keys.filterMap fun k => (f k).map fun a => (k, a)).map Prod.fst =
      keys.filter fun k => (f k).isSome := by
  induction keys with
  | nil => rfl
  | cons k keys ih =>
      cases hk : f k with
      | none => simp [hk, ih]
      | some a => simp [hk, ih]

/-- The entries of the map are the links of their ids, each id once. -/
theorem linkEntries_spec (env : Surroundings) (ourId : Uuid) (links : SharedState) :
    ((linkEntries env ourId links).map Prod.fst).Nodup ∧
      ∀ entry ∈ linkEntries env ourId links, links.peerLinks entry.1 = some entry.2 := by
  have hperm := env.order.perm ((otherDevices env ourId).dedup.filterMap fun id =>
    (links.peerLinks id).map fun link => (id, link))
  refine ⟨?_, ?_⟩
  · rw [linkEntries, (hperm.map Prod.fst).nodup_iff, keys_lookedUp]
    exact (List.nodup_dedup _).filter _
  · intro entry hentry
    rw [linkEntries, hperm.mem_iff] at hentry
    obtain ⟨id, -, hid⟩ := List.mem_filterMap.mp hentry
    obtain ⟨link, hlink, rfl⟩ := Option.map_eq_some_iff.mp hid
    exact hlink

/-- A sync and the attempts after it: the maps follow the list. -/
theorem follows_attemptP2pForAll {env : Surroundings} {ourId : Uuid} {links : SharedState}
    (h : syncPeers env ourId = .ok links) (state : DaemonState) :
    ∃ peers, env.peers = .ok peers ∧
      Follows ourId peers env.relayAddr (attemptP2pForAll env ourId links state).1 := by
  obtain ⟨peers, hpeers, hfollows, hfresh⟩ := follows_of_syncPeers h
  obtain ⟨hnodup, hentries⟩ := linkEntries_spec env ourId links
  exact ⟨peers, hpeers, attemptEach_follows env hnodup
    (fun entry hentry => ⟨hentries entry hentry, hfresh _ _ (hentries entry hentry)⟩) hfollows
    state⟩

end ConnectAlso.Daemon
