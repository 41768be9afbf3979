import Mathlib.Data.List.TakeWhile
import ConnectAlso.Mobile.Queue

/-!
# A reconnection that fails

`reconnect` changes the state before it asks for the peer list, and the peer map while it
goes through the list. It returns early when there is no list and at the first address that
does not parse, and then it undoes nothing. So it leaves the engine as it was only when the
engine was reconnecting already and nobody could be registered so far.
-/

namespace ConnectAlso.Mobile
open Misc RelayProto

/-- What `reconnect` fails on: no peer list, or one in which another device has an address
    that does not parse. -/
def Rejected (ourId : Uuid) : Except String (List PeerInfo) → Prop
  | .error _ => True
  | .ok peers => ∃ p ∈ peers, p.deviceId ≠ ourId ∧ Ipv4Addr.parse p.ipv4 = none

namespace TunnelEngine

/-- The entry of the peer map for a device whose registration goes through: there is a
    socket, and the network takes the HELLO. -/
def registration (net : Network) (bound : Uuid → Except IoError SocketAddr)
    (engine : TunnelEngine) (p : PeerInfo) : Option (Uuid × PeerState) :=
  match Ipv4Addr.parse p.ipv4, bound p.deviceId with
  | some vip, .ok socket =>
    match net ⟨socket, engine.relayServer, RelayFrame.helloBytes (relayIdOf engine.ourId)⟩ with
    | .ok _ => some (p.deviceId, {
        vip, relay := {
          socket, relayAddr := engine.relayServer
          ourId := relayIdOf engine.ourId, peerId := relayIdOf p.deviceId } })
    | .error _ => none
  | _, _ => none

/-- The other devices of the list up to the first address that does not parse. -/
def reached (ourId : Uuid) : Except String (List PeerInfo) → List PeerInfo
  | .error _ => []
  | .ok peers => (peers.filter fun p => p.deviceId ≠ ourId).takeWhile
    fun p => (Ipv4Addr.parse p.ipv4).isSome

/-- The registrations that go through, up to the first address that does not parse. -/
def registrations (net : Network) (bound : Uuid → Except IoError SocketAddr)
    (engine : TunnelEngine) (response : Except String (List PeerInfo)) :
    List (Uuid × PeerState) :=
  (reached engine.ourId response).filterMap (engine.registration net bound)

/-- The two have the same connection state, peer map and queue. The order in which the map
    yields its entries does not matter. -/
structure SameAs (engine before : TunnelEngine) : Prop where
  state : engine.state = before.state
  peers : ∀ peer, peer ∈ engine.peers ↔ peer ∈ before.peers
  queue : engine.outboundQueue = before.outboundQueue

/-- The engine reconnects already, and no device of the list up to the first address that
    does not parse can be registered: there is no socket, or the network refuses the HELLO. -/
def NothingToUndo (net : Network) (bound : Uuid → Except IoError SocketAddr)
    (response : Except String (List PeerInfo)) (engine : TunnelEngine) : Prop :=
  engine.state = .reconnecting ∧
    ∀ p ∈ reached engine.ourId response, ∀ socket, bound p.deviceId = .ok socket →
      ∃ e, net ⟨socket, engine.relayServer, RelayFrame.helloBytes (relayIdOf engine.ourId)⟩ =
        .error e

/-! ## The loop -/

theorem registration_of_parse (net : Network) (bound : Uuid → Except IoError SocketAddr)
    (engine : TunnelEngine) {p : PeerInfo} {vip : Ipv4Addr}
    (h : Ipv4Addr.parse p.ipv4 = some vip) :
    engine.registration net bound p =
      match (RelayClient.register net (bound p.deviceId) engine.relayServer
        (relayIdOf engine.ourId) (relayIdOf p.deviceId)).outcome with
      | .ok relay => some (p.deviceId, { vip, relay })
      | .error _ => none := by
  rw [registration, h]
  cases bound p.deviceId with
  | error e => rfl
  | ok socket =>
      rw [RelayClient.register_eq]
      dsimp only
      cases net ⟨socket, engine.relayServer, RelayFrame.helloBytes (relayIdOf engine.ourId)⟩ with
      | ok n => rfl
      | error e => rfl

theorem rejected_cons {ourId : Uuid} {p : PeerInfo} {rest : List PeerInfo} :
    Rejected ourId (.ok (p :: rest)) ↔
      (p.deviceId ≠ ourId ∧ Ipv4Addr.parse p.ipv4 = none) ∨ Rejected ourId (.ok rest) :=
  List.exists_mem_cons_iff _ _ _

theorem registrations_of_own (net : Network) (bound : Uuid → Except IoError SocketAddr)
    (engine : TunnelEngine) {p : PeerInfo} (h : p.deviceId = engine.ourId)
    (rest : List PeerInfo) : engine.registrations net bound (.ok (p :: rest)) =
      engine.registrations net bound (.ok rest) := by
  rw [registrations, reached, List.filter_cons_of_neg (by simp [h])]
  rfl

theorem registrations_of_parse_none (net : Network) (bound : Uuid → Except IoError SocketAddr)
    (engine : TunnelEngine) {p : PeerInfo} (h : p.deviceId ≠ engine.ourId)
    (hparse : Ipv4Addr.parse p.ipv4 = none) (rest : List PeerInfo) :
    engine.registrations net bound (.ok (p :: rest)) = [] := by
  rw [registrations, reached, List.filter_cons_of_pos (by simp [h]),
    List.takeWhile_cons_of_neg (by simp [hparse])]
  rfl

theorem registrations_of_parse (net : Network) (bound : Uuid → Except IoError SocketAddr)
    (engine : TunnelEngine) {p : PeerInfo} (h : p.deviceId ≠ engine.ourId) {vip : Ipv4Addr}
    (hparse : Ipv4Addr.parse p.ipv4 = some vip) (rest : List PeerInfo) :
    engine.registrations net bound (.ok (p :: rest)) =
      (engine.registration net bound p).toList ++ engine.registrations net bound (.ok rest) := by
  rw [registrations, reached, List.filter_cons_of_pos (by simp [h]),
    List.takeWhile_cons_of_pos (by simp [hparse]), List.filterMap_cons]
  cases engine.registration net bound p with
  | none => rfl
  | some entry => rfl

/-- The loop inserts the registrations that go through, and fails at an address that does
    not parse. -/
theorem registerPeers_registrations (net : Network) (order : PeerOrder)
    (bound : Uuid → Except IoError SocketAddr) (engine : TunnelEngine) (infos : List PeerInfo) :
    (registerPeers net order bound false engine infos).2.peers =
        insertEntries order engine.peers (engine.registrations net bound (.ok infos)) ∧
      ((∃ e, (registerPeers net order bound false engine infos).1.outcome = .error (.err e)) ↔
        Rejected engine.ourId (.ok infos)) := by
  induction infos generalizing engine with
  | nil =>
      refine ⟨rfl, iff_of_false ?_ ?_⟩
      · rintro ⟨e, h⟩
        cases h
      · rintro ⟨p, h, -⟩
        cases h
  | cons p rest ih =>
      rw [rejected_cons]
      by_cases hown : p.deviceId = engine.ourId
      · rw [registerPeers, if_pos (Or.inl hown), registrations_of_own net bound engine hown,
          or_iff_right fun h => h.1 hown]
        exact ih engine
      rw [registerPeers, if_neg (by simp [hown])]
      cases hparse : Ipv4Addr.parse p.ipv4 with
      | none =>
          rw [registrations_of_parse_none net bound engine hown hparse]
          exact ⟨rfl, iff_of_true ⟨_, rfl⟩ (Or.inl ⟨hown, rfl⟩)⟩
      | some vip =>
          rw [registrations_of_parse net bound engine hown hparse,
            registration_of_parse net bound engine hparse,
            or_iff_right fun h => Option.some_ne_none vip h.2]
          dsimp only
          rcases register_outcome net (bound p.deviceId) engine.relayServer
            (relayIdOf engine.ourId) (relayIdOf p.deviceId) with ⟨client, hok⟩ | ⟨e, herr⟩
          · rw [hok]
            obtain ⟨hpeers, hiff⟩ :=
              ih (engine.insertPeer order p.deviceId { vip, relay := client })
            refine ⟨hpeers, Iff.trans ?_ hiff⟩
            dsimp only
            cases (registerPeers net order bound false
              (engine.insertPeer order p.deviceId { vip, relay := client }) rest).1.outcome with
            | ok n => simp [Except.map]
            | error fault => exact Iff.rfl
          · rw [herr]
            exact ih engine

/-! ## The call -/

variable {net : Network} {nets : Nat → Network} {order : PeerOrder}
  {bound : Uuid → Except IoError SocketAddr} {response : Except String (List PeerInfo)}
  {engine : TunnelEngine}

theorem reconnectOver_err_iff :
    (∃ error, (engine.reconnectOver net nets order bound response).1.outcome =
      .error (.err error)) ↔ Rejected engine.ourId response := by
  cases response with
  | error e => exact iff_of_true ⟨_, rfl⟩ trivial
  | ok peers =>
      refine Iff.trans ?_ (registerPeers_registrations net order bound engine.offline peers).2
      rcases (registerPeers_frame net order bound false engine.offline peers).2 with
        ⟨n, hok⟩ | ⟨e, herr⟩
      · -- a flush returns `Ok` or panics
        rw [(reconnectOver_of_ok nets hok).1, hok]
        rcases (flushOver_eq nets
          (registerPeers net order bound false engine.offline peers).2.online
          engine.outboundQueue).2.2 with ⟨-, hflush⟩ | ⟨-, message, hflush⟩
        · simp [hflush]
        · simp [hflush]
      · rw [(reconnectOver_of_err nets herr).1, herr]
        exact iff_of_true ⟨e, rfl⟩ ⟨e, rfl⟩

/-- A reconnection that fails leaves the engine reconnecting, with the registrations that
    went through before. -/
theorem reconnectOver_of_rejected (h : Rejected engine.ourId response) :
    (engine.reconnectOver net nets order bound response).2.state = .reconnecting ∧
      (engine.reconnectOver net nets order bound response).2.peers =
        insertEntries order engine.peers (engine.registrations net bound response) ∧
      (engine.reconnectOver net nets order bound response).2.outboundQueue =
        engine.outboundQueue := by
  cases response with
  | error e => exact ⟨rfl, rfl, rfl⟩
  | ok peers =>
      obtain ⟨hpeers, hiff⟩ := registerPeers_registrations net order bound engine.offline peers
      obtain ⟨⟨hstate, hqueue⟩, -⟩ :=
        registerPeers_frame net order bound false engine.offline peers
      obtain ⟨e, herr⟩ := hiff.mpr h
      rw [(reconnectOver_of_err nets herr).1]
      exact ⟨hstate, hpeers, hqueue⟩

/-- A device is not registered exactly when there is no socket or the HELLO is refused. -/
theorem registration_eq_none_iff {p : PeerInfo} (h : (Ipv4Addr.parse p.ipv4).isSome = true) :
    engine.registration net bound p = none ↔ ∀ socket, bound p.deviceId = .ok socket →
      ∃ e, net ⟨socket, engine.relayServer, RelayFrame.helloBytes (relayIdOf engine.ourId)⟩ =
        .error e := by
  obtain ⟨vip, hvip⟩ := Option.isSome_iff_exists.mp h
  rw [registration, hvip]
  cases bound p.deviceId with
  | error e => exact iff_of_true rfl fun _ hsocket => by cases hsocket
  | ok socket =>
      simp only [Except.ok.injEq, forall_eq']
      cases net ⟨socket, engine.relayServer, RelayFrame.helloBytes (relayIdOf engine.ourId)⟩ with
      | ok n => exact iff_of_false (fun h => by cases h) (fun ⟨_, h⟩ => by cases h)
      | error e => exact iff_of_true rfl ⟨e, rfl⟩

theorem registrations_eq_nil_iff :
    engine.registrations net bound response = [] ↔
      ∀ p ∈ reached engine.ourId response, ∀ socket, bound p.deviceId = .ok socket →
        ∃ e, net ⟨socket, engine.relayServer, RelayFrame.helloBytes (relayIdOf engine.ourId)⟩ =
          .error e := by
  rw [registrations, List.filterMap_eq_nil_iff]
  refine forall_congr' fun p => imp_congr_right fun hp => registration_eq_none_iff ?_
  cases response with
  | error e => cases hp
  | ok peers =>
      rw [reached] at hp
      exact @List.mem_takeWhile_imp _ (fun q : PeerInfo => (Ipv4Addr.parse q.ipv4).isSome) _ _ hp

/-- A registration comes with the socket that was bound for its device. -/
theorem bound_of_mem_registrations {e : Uuid × PeerState}
    (h : e ∈ engine.registrations net bound response) : bound e.1 = .ok e.2.relay.socket := by
  obtain ⟨p, -, hp⟩ := List.mem_filterMap.mp h
  unfold registration at hp
  split at hp
  · rename_i vip socket hvip hsocket
    split at hp
    · obtain rfl := Option.some.inj hp
      exact hsocket
    · cases hp
  · cases hp

/-- If a reconnection fails, then the engine is as it was exactly if it was reconnecting
    before and nobody could be registered. No device gets the socket that its entry still
    holds open. -/
theorem sameAs_reconnectOver_iff (net : Network) (nets : Nat → Network) (order : PeerOrder)
    (bound : Uuid → Except IoError SocketAddr) (response : Except String (List PeerInfo))
    (engine : TunnelEngine)
    (hfresh : ∀ peer ∈ engine.peers, bound peer.1 ≠ .ok peer.2.relay.socket) :
    ((∃ error, (engine.reconnectOver net nets order bound response).1.outcome =
        .error (.err error)) →
      (engine.reconnectOver net nets order bound response).2.SameAs engine) ↔
      (Rejected engine.ourId response → engine.NothingToUndo net bound response) := by
  rw [reconnectOver_err_iff]
  refine imp_congr_right fun hrejected => ?_
  obtain ⟨hstate, hpeers, hqueue⟩ := @reconnectOver_of_rejected net nets order bound response
    engine hrejected
  have hmap := @insertEntries_same_iff _ _ _ order engine.peers
    (engine.registrations net bound response)
    fun e he hold => hfresh e hold (bound_of_mem_registrations he)
  rw [← hpeers, registrations_eq_nil_iff] at hmap
  constructor
  · intro hsame
    exact ⟨hsame.state.symm.trans hstate, hmap.mp hsame.peers⟩
  · rintro ⟨hbefore, hnobody⟩
    exact ⟨hstate.trans hbefore.symm, hmap.mpr hnobody, hqueue⟩

/-- A list whose second device has an address that does not parse. -/
def brokenList : List PeerInfo :=
  [Ledger.deviceInfo, { Ledger.deviceInfo with deviceId := Uuid.nil, ipv4 := "10.0.0" }]

/-- An engine that reconnects and has a client for the first device. -/
def waitingEngine : TunnelEngine :=
  { new (Uuid.fromU128 1) ⟨10, 0, 0, 1⟩ (.localhost 33478) 0 with
    state := .reconnecting
    peers := [(Uuid.fromU128 2, {
      vip := ⟨10, 0, 0, 2⟩
      relay := {
        socket := .localhost 40001
        relayAddr := .localhost 33478
        ourId := Uuid.fromU128 1
        peerId := Uuid.fromU128 2 } })] }

/-- When the network takes no HELLO, the engine is as it was after it has failed at the
    second device. -/
theorem waitingEngine_sameAs :
    (waitingEngine.reconnectOver (fun _ => .error .timedOut) (fun _ => Network.ideal)
      HashOrder.newestFirst (fun _ => .ok (.localhost 40000)) (.ok brokenList)).2.SameAs
      waitingEngine :=
  (sameAs_reconnectOver_iff _ _ _ _ _ waitingEngine (by decide +kernel)).mpr
    (fun _ => ⟨rfl, fun _ _ _ _ => ⟨.timedOut, rfl⟩⟩)
    ⟨.message "invalid IPv4 address syntax", by decide +kernel⟩

/-- What `reconnect` does with the list on a connected engine without peers. -/
def brokenReconnect : LoggedEffect Unit × TunnelEngine :=
  (new (Uuid.fromU128 1) ⟨10, 0, 0, 1⟩ (.localhost 33478) 0).reconnectOver
    Network.ideal (fun _ => Network.ideal) HashOrder.newestFirst (fun _ => .ok (.localhost 40000))
    (.ok brokenList)

/-- It learns the first device, fails at the second, and leaves the engine reconnecting. -/
theorem brokenReconnect_changes :
    ¬ ((∃ error, brokenReconnect.1.outcome = .error (.err error)) → brokenReconnect.2.SameAs
      (new (Uuid.fromU128 1) ⟨10, 0, 0, 1⟩ (.localhost 33478) 0)) := by
  intro h
  have hsame := h ⟨.message "invalid IPv4 address syntax", by decide +kernel⟩
  exact absurd hsame.state (by decide +kernel)

end TunnelEngine

end ConnectAlso.Mobile
