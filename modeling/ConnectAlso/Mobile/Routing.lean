import ConnectAlso.Mobile.Peers

/-!
# Routing by the peer list

Which devices the peer map has after a sequence of calls, and where the engine sends
after a reconnection. A device that has left the list stays in the map with its last
address, so packets for that address may go to it for as long as the engine lives.
-/

namespace ConnectAlso.Mobile
open Misc RelayProto

namespace TunnelEngine

/-- The map has an entry for the device. -/
def Knows (engine : TunnelEngine) (id : Uuid) : Prop := ∃ peer, (id, peer) ∈ engine.peers

/-- The packet goes to the device: the engine does what a relay client for it does. -/
def SendsTo (net : Network) (engine : TunnelEngine) (packet : List UInt8) (dst : Ipv4Addr)
    (id : Uuid) : Prop :=
  ∃ client : RelayClient, client.relayAddr = engine.relayServer ∧
    client.ourId = relayIdOf engine.ourId ∧ client.peerId = relayIdOf id ∧
    engine.sendToPeerInner net packet dst =
      ((client.send net packet).mapErr .io >>= fun _ => return ())

/-- Packets follow the list: to the other device that it gives the address, or nowhere. -/
structure Follows (net : Network) (list : PeerList) (engine : TunnelEngine) : Prop where
  route : ∀ id dst, list.Gives id dst → id ≠ engine.ourId →
    ∀ packet, engine.SendsTo net packet dst id
  noRoute : ∀ dst, (∀ id, list.Gives id dst → id = engine.ourId) → ∀ packet,
    engine.sendToPeerInner net packet dst =
      Effect.fail (.message ("no route to " ++ dst.toString))

/-- After the call, if it is a reconnection, packets follow its list. -/
def FollowsAfter (net : Network) (order : PeerOrder) (engine : TunnelEngine) : Call → Prop
  | .syncPeers _ _ => True
  | .reconnect list sockets => Follows net list (engine.step net order (.reconnect list sockets))

/-! ## The peer map -/

/-- What every engine of a run satisfies: the map has one entry for each device that it
    knows, with a relay client for that device, and none for its own. -/
structure Registered (ourId : Uuid) (relayServer : SocketAddr) (engine : TunnelEngine) : Prop where
  self : engine.ourId = ourId
  relay : engine.relayServer = relayServer
  keys : KeysNodup engine.peers
  entry : ∀ e ∈ engine.peers, e.1 ≠ ourId ∧ e.2.relay.relayAddr = relayServer ∧
    e.2.relay.ourId = relayIdOf ourId ∧ e.2.relay.peerId = relayIdOf e.1

section Learning
variable {ourId : Uuid} {relayServer : SocketAddr} {order : PeerOrder}
  {sockets : Uuid → SocketAddr} {skipKnown : Bool} {engine : TunnelEngine}

theorem containsKey_iff {id : Uuid} : engine.containsKey id = true ↔ engine.Knows id := by
  rw [containsKey, List.any_eq_true]
  refine ⟨?_, ?_⟩
  · rintro ⟨e, he, hid⟩
    exact ⟨e.2, (of_decide_eq_true hid) ▸ he⟩
  · rintro ⟨peer, hpeer⟩
    exact ⟨_, hpeer, decide_eq_true rfl⟩

/-- The entry that a registration puts into the map. -/
def peerStateOf (ourId : Uuid) (relayServer : SocketAddr) (sockets : Uuid → SocketAddr)
    (id : Uuid) (vip : Ipv4Addr) : PeerState where
  vip
  relay := {
    socket := sockets id, relayAddr := relayServer, ourId := relayIdOf ourId
    peerId := relayIdOf id }

/-- An entry of the list is passed over, or becomes an entry of the map. -/
theorem learn_cases (h : Registered ourId relayServer engine) {p : PeerInfo} {vip : Ipv4Addr}
    (hvip : Ipv4Addr.parse p.ipv4 = some vip) :
    (p.deviceId = ourId ∨ skipKnown = true ∧ engine.Knows p.deviceId) ∧
        learn order sockets skipKnown engine p = engine ∨
      p.deviceId ≠ ourId ∧ learn order sockets skipKnown engine p =
        engine.insertPeer order p.deviceId
          (peerStateOf ourId relayServer sockets p.deviceId vip) := by
  by_cases hskip : p.deviceId = engine.ourId ∨ skipKnown ∧ engine.containsKey p.deviceId
  · refine Or.inl ⟨?_, if_pos hskip⟩
    rwa [h.self, containsKey_iff] at hskip
  · refine Or.inr ⟨?_, ?_⟩
    · intro hself
      exact hskip (Or.inl (hself.trans h.self.symm))
    · rw [learn, if_neg hskip, hvip, peerStateOf, h.self, h.relay]

theorem registered_insertPeer (h : Registered ourId relayServer engine) {id : Uuid}
    (hother : id ≠ ourId) (vip : Ipv4Addr) :
    Registered ourId relayServer
      (engine.insertPeer order id (peerStateOf ourId relayServer sockets id vip)) := by
  refine ⟨h.self, h.relay, keysNodup_insertEntry order h.keys _ _, ?_⟩
  intro e he
  rcases mem_insertEntry.mp he with rfl | ⟨hold, -⟩
  · exact ⟨hother, rfl, rfl, rfl⟩
  · exact h.entry e hold

theorem registered_learn (h : Registered ourId relayServer engine) {p : PeerInfo}
    {vip : Ipv4Addr} (hvip : Ipv4Addr.parse p.ipv4 = some vip) :
    Registered ourId relayServer (learn order sockets skipKnown engine p) := by
  rcases learn_cases h hvip with ⟨-, heq⟩ | ⟨hother, heq⟩
  · rw [heq]
    exact h
  · rw [heq]
    exact registered_insertPeer h hother vip

theorem knows_learn (h : Registered ourId relayServer engine) {p : PeerInfo} {vip : Ipv4Addr}
    (hvip : Ipv4Addr.parse p.ipv4 = some vip) {id : Uuid} :
    (learn order sockets skipKnown engine p).Knows id ↔
      engine.Knows id ∨ p.deviceId = id ∧ id ≠ ourId := by
  rcases learn_cases h hvip with ⟨hskip, heq⟩ | ⟨hother, heq⟩
  · rw [heq]
    refine ⟨Or.inl, ?_⟩
    rintro (hknown | ⟨rfl, hother⟩)
    · exact hknown
    · exact (hskip.resolve_left hother).2
  · rw [heq]
    refine ⟨?_, ?_⟩
    · rintro ⟨peer, hpeer⟩
      rcases mem_insertEntry.mp hpeer with hnew | ⟨hold, -⟩
      · obtain ⟨rfl, -⟩ := Prod.mk.inj hnew
        exact Or.inr ⟨rfl, hother⟩
      · exact Or.inl ⟨peer, hold⟩
    · intro hknown
      by_cases hid : id = p.deviceId
      · exact ⟨_, mem_insertEntry.mpr (Or.inl (Prod.ext hid rfl))⟩
      · obtain ⟨peer, hpeer⟩ := hknown.resolve_right fun hlisted => hid hlisted.1.symm
        exact ⟨peer, mem_insertEntry.mpr (Or.inr ⟨hpeer, hid⟩)⟩

/-- The devices that the map has after a list: those it had and those of the list. -/
theorem foldl_learn (h : Registered ourId relayServer engine) {infos : List PeerInfo}
    (hparses : ∀ p ∈ infos, ∃ vip, Ipv4Addr.parse p.ipv4 = some vip) :
    Registered ourId relayServer (infos.foldl (learn order sockets skipKnown) engine) ∧
      ∀ id, (infos.foldl (learn order sockets skipKnown) engine).Knows id ↔
        engine.Knows id ∨ (∃ p ∈ infos, p.deviceId = id) ∧ id ≠ ourId := by
  induction infos generalizing engine with
  | nil => exact ⟨h, fun id => by simp⟩
  | cons p rest ih =>
      obtain ⟨vip, hvip⟩ := hparses p List.mem_cons_self
      obtain ⟨hregistered, hknows⟩ := ih (registered_learn h hvip)
        fun q hq => hparses q (List.mem_cons_of_mem _ hq)
      refine ⟨hregistered, fun id => ?_⟩
      rw [List.foldl_cons, hknows, knows_learn h hvip, List.exists_mem_cons_iff]
      tauto

/-- The entry of the map that an entry of the list gives. -/
def EntryFrom (ourId : Uuid) (relayServer : SocketAddr) (sockets : Uuid → SocketAddr)
    (p : PeerInfo) (e : Uuid × PeerState) : Prop :=
  p.deviceId = e.1 ∧ e.1 ≠ ourId ∧ ∃ vip, Ipv4Addr.parse p.ipv4 = some vip ∧
    e.2 = peerStateOf ourId relayServer sockets e.1 vip

/-- Without skipping, the entries of the map after an entry of the list. -/
theorem mem_learn (h : Registered ourId relayServer engine) {p : PeerInfo} {vip : Ipv4Addr}
    (hvip : Ipv4Addr.parse p.ipv4 = some vip) {e : Uuid × PeerState} :
    e ∈ (learn order sockets false engine p).peers ↔
      EntryFrom ourId relayServer sockets p e ∨ e ∈ engine.peers ∧ p.deviceId ≠ e.1 := by
  rcases @learn_cases ourId relayServer order sockets false engine h p vip hvip with
    ⟨hskip, heq⟩ | ⟨hother, heq⟩
  · have hself : p.deviceId = ourId := hskip.resolve_right fun hknown => by cases hknown.1
    rw [heq]
    refine ⟨fun hmem => Or.inr ⟨hmem, ?_⟩, ?_⟩
    · intro hid
      exact (h.entry e hmem).1 (hid.symm.trans hself)
    · rintro (⟨hid, hne, -⟩ | ⟨hmem, -⟩)
      · exact absurd (hid.symm.trans hself) hne
      · exact hmem
  · rw [heq]
    refine ⟨?_, ?_⟩
    · intro hmem
      rcases mem_insertEntry.mp hmem with rfl | ⟨hold, hid⟩
      · exact Or.inl ⟨rfl, hother, vip, hvip, rfl⟩
      · exact Or.inr ⟨hold, fun heq => hid heq.symm⟩
    · rintro (⟨hid, hne, vip', hvip', hpeer⟩ | ⟨hold, hid⟩)
      · refine mem_insertEntry.mpr (Or.inl (Prod.ext hid.symm ?_))
        rw [hvip] at hvip'
        rw [hpeer, ← hid, Option.some.inj hvip']
      · exact mem_insertEntry.mpr (Or.inr ⟨hold, fun heq => hid heq.symm⟩)

/-- Without skipping, the entries of the map after a list are those of the list and the
    earlier ones of other devices. -/
theorem mem_foldl_learn (h : Registered ourId relayServer engine) {infos : List PeerInfo}
    (hparses : ∀ p ∈ infos, ∃ vip, Ipv4Addr.parse p.ipv4 = some vip)
    (hids : (infos.map PeerInfo.deviceId).Nodup) {e : Uuid × PeerState} :
    e ∈ (infos.foldl (learn order sockets false) engine).peers ↔
      (∃ p ∈ infos, EntryFrom ourId relayServer sockets p e) ∨
      e ∈ engine.peers ∧ ∀ p ∈ infos, p.deviceId ≠ e.1 := by
  induction infos generalizing engine with
  | nil => simp
  | cons p rest ih =>
      obtain ⟨vip, hvip⟩ := hparses p List.mem_cons_self
      obtain ⟨hfresh, hrest⟩ := List.nodup_cons.mp hids
      -- an entry that `p` gives is not replaced by a later one
      have hkept : EntryFrom ourId relayServer sockets p e → ∀ q ∈ rest, q.deviceId ≠ e.1 := by
        rintro ⟨hid, -, -⟩ q hq heq
        exact hfresh (hid.trans heq.symm ▸ List.mem_map_of_mem hq)
      rw [List.foldl_cons, ih (registered_learn h hvip)
        (fun q hq => hparses q (List.mem_cons_of_mem _ hq)) hrest, mem_learn h hvip,
        List.exists_mem_cons_iff, List.forall_mem_cons, or_and_right, and_iff_left_of_imp hkept,
        and_assoc, or_left_comm, or_assoc]

end Learning

/-! ## Calls -/

section Calls
variable {net : Network} {ourId : Uuid} {relayServer : SocketAddr} {engine : TunnelEngine}

/-- A call keeps the map in order and adds the other devices of its list. -/
theorem registered_step (hnet : TakesHellos net) (order : PeerOrder)
    (h : Registered ourId relayServer engine) (call : Call) :
    Registered ourId relayServer (engine.step net order call) ∧
      ∀ id, (engine.step net order call).Knows id ↔
        engine.Knows id ∨ call.list.Lists id ∧ id ≠ ourId := by
  rw [step_eq hnet]
  cases call with
  | syncPeers list sockets => exact foldl_learn h list.parses
  | reconnect list sockets =>
      have hstart : Registered ourId relayServer { engine with state := .reconnecting } :=
        ⟨h.self, h.relay, h.keys, h.entry⟩
      obtain ⟨hregistered, hknows⟩ := @foldl_learn ourId relayServer order sockets false _ hstart
        list.infos list.parses
      exact ⟨⟨hregistered.self, hregistered.relay, hregistered.keys, hregistered.entry⟩, hknows⟩

/-- After a sequence of calls the map has the devices that it had and those of the
    lists. -/
theorem registered_run (hnet : TakesHellos net) (order : PeerOrder)
    (h : Registered ourId relayServer engine) (calls : List Call) :
    Registered ourId relayServer (run (step net order) engine calls) ∧
      ∀ id, (run (step net order) engine calls).Knows id ↔
        engine.Knows id ∨ (∃ call ∈ calls, call.list.Lists id) ∧ id ≠ ourId := by
  induction calls generalizing engine with
  | nil => exact ⟨h, fun id => by simp⟩
  | cons call rest ih =>
      obtain ⟨hstep, hknows⟩ := registered_step hnet order h call
      obtain ⟨hrest, hlater⟩ := ih hstep
      refine ⟨hrest, fun id => ?_⟩
      rw [run_cons, hlater, hknows, List.exists_mem_cons_iff]
      tauto

/-- The entries of the map after a reconnection: those of the list, and the earlier ones
    of devices that are not in the list. -/
theorem mem_reconnect (hnet : TakesHellos net) (order : PeerOrder)
    (h : Registered ourId relayServer engine) (list : PeerList) (sockets : Uuid → SocketAddr)
    {e : Uuid × PeerState} :
    e ∈ (engine.step net order (.reconnect list sockets)).peers ↔
      (e.1 ≠ ourId ∧ ∃ vip, list.Gives e.1 vip ∧
        e.2 = peerStateOf ourId relayServer sockets e.1 vip) ∨
      e ∈ engine.peers ∧ ¬ list.Lists e.1 := by
  have hstart : Registered ourId relayServer { engine with state := .reconnecting } :=
    ⟨h.self, h.relay, h.keys, h.entry⟩
  rw [step_eq hnet]
  refine (@mem_foldl_learn ourId relayServer order sockets _ hstart list.infos list.parses list.ids
    e).trans (or_congr ?_ (and_congr_right fun _ => ?_))
  · refine ⟨?_, ?_⟩
    · rintro ⟨p, hp, hid, hother, vip, hvip, hpeer⟩
      exact ⟨hother, vip, ⟨p, hp, hid, hvip⟩, hpeer⟩
    · rintro ⟨hother, vip, ⟨p, hp, hid, hvip⟩, hpeer⟩
      exact ⟨p, hp, hid, hother, vip, hvip, hpeer⟩
  · refine ⟨?_, ?_⟩
    · rintro hnot ⟨p, hp, hid⟩
      exact hnot p hp hid
    · intro hnot p hp hid
      exact hnot ⟨p, hp, hid⟩

end Calls

/-! ## Where packets go -/

section Sending
variable {net : Network} {engine : TunnelEngine}

/-- The scan of the map decides where a packet goes. -/
theorem sendsTo_of_find? {ourId : Uuid} {relayServer : SocketAddr}
    (h : Registered ourId relayServer engine) {e : Uuid × PeerState} {dst : Ipv4Addr}
    (hfind : engine.peers.find? (fun peer => peer.2.vip = dst) = some e) (packet : List UInt8) :
    engine.SendsTo net packet dst e.1 := by
  obtain ⟨-, haddr, hours, hpeer⟩ := h.entry e (List.mem_of_find?_eq_some hfind)
  refine ⟨e.2.relay, haddr.trans h.relay.symm, ?_, hpeer, ?_⟩
  · rw [hours, h.self]
  · rw [sendToPeerInner, hfind]

/-- A packet that fits into a frame and goes to a device is one DATA frame for it. -/
theorem sent_of_sendsTo {packet : List UInt8} (hle : packet.length ≤ maxPayload) {dst : Ipv4Addr}
    {id : Uuid} (h : engine.SendsTo net packet dst id) :
    ∃ socket encoded,
      (RelayFrame.data (relayIdOf engine.ourId) (relayIdOf id) packet).encode = .ok encoded ∧
      (engine.sendToPeerInner net packet dst).sent = [⟨socket, engine.relayServer, encoded⟩] := by
  obtain ⟨client, haddr, hours, hpeer, heq⟩ := h
  obtain ⟨encoded, hencoded, hsent⟩ := client.send_of_le net hle
  refine ⟨client.socket, encoded, ?_, ?_⟩
  · rw [← hours, ← hpeer]
    exact hencoded
  · rw [heq, Effect.sent_bind_of_silent _ (fun _ => Effect.sent_pure _), Effect.sent_mapErr, hsent,
      haddr]

/-- A packet that fits into a frame goes to one device only. -/
theorem sendsTo_unique {packet : List UInt8} (hle : packet.length ≤ maxPayload) {dst : Ipv4Addr}
    {id other : Uuid} (h : engine.SendsTo net packet dst id)
    (hother : engine.SendsTo net packet dst other) : id = other := by
  obtain ⟨socket, encoded, hencoded, hsent⟩ := sent_of_sendsTo hle h
  obtain ⟨socket', encoded', hencoded', hsent'⟩ := sent_of_sendsTo hle hother
  rw [hsent] at hsent'
  obtain ⟨hdatagram, -⟩ := List.cons.inj hsent'
  have hbytes : encoded = encoded' := congrArg Datagram.payload hdatagram
  have hframe := RelayFrame.decode_encode hencoded []
  rw [hbytes, RelayFrame.decode_encode hencoded' []] at hframe
  exact (congrArg RelayFrame.targetId (Except.ok.inj hframe)).symm

end Sending

/-! ## Following the list -/

/-- A list gives an address to one device only. -/
theorem gives_unique {list : PeerList} {id other : Uuid} {dst : Ipv4Addr}
    (h : list.Gives id dst) (hother : list.Gives other dst) : id = other := by
  obtain ⟨p, hp, rfl, hvip⟩ := h
  obtain ⟨q, hq, rfl, hvip'⟩ := hother
  rw [List.inj_on_of_nodup_map list.addrs hp hq (hvip.trans hvip'.symm)]

section Following
variable {net : Network} {ourId : Uuid} {relayServer : SocketAddr} {engine : TunnelEngine}
  {list : PeerList} {sockets : Uuid → SocketAddr}

/-- When the list has all devices of the map, the map is the list after a
    reconnection, and packets follow it. -/
theorem follows_of_kept (hnet : TakesHellos net) (order : PeerOrder)
    (h : Registered ourId relayServer engine) (hkept : ∀ id, engine.Knows id → list.Lists id) :
    Follows net list (engine.step net order (.reconnect list sockets)) := by
  have hafter := (registered_step hnet order h (.reconnect list sockets)).1
  have hmem : ∀ e, e ∈ (engine.step net order (.reconnect list sockets)).peers ↔
      e.1 ≠ ourId ∧ ∃ vip, list.Gives e.1 vip ∧
        e.2 = peerStateOf ourId relayServer sockets e.1 vip := by
    intro e
    rw [mem_reconnect hnet order h]
    exact or_iff_left fun hold => hold.2 (hkept e.1 ⟨e.2, hold.1⟩)
  refine ⟨?_, ?_⟩
  · intro id dst hgives hother packet
    rw [hafter.self] at hother
    apply sendsTo_of_find? hafter (e := (id, peerStateOf ourId relayServer sockets id dst))
    apply find?_eq_of_unique ((hmem _).mpr ⟨hother, dst, hgives, rfl⟩) (decide_eq_true rfl)
    intro a ha hvip
    obtain ⟨-, vip, hgives', hpeer⟩ := (hmem a).mp ha
    have hdst : vip = dst := (congrArg PeerState.vip hpeer).symm.trans (of_decide_eq_true hvip)
    subst hdst
    obtain rfl := gives_unique hgives hgives'
    exact Prod.ext rfl hpeer
  · intro dst hnone packet
    have hfind : (engine.step net order (.reconnect list sockets)).peers.find?
        (fun peer => peer.2.vip = dst) = none := by
      rw [List.find?_eq_none]
      intro a ha hvip
      obtain ⟨hother, vip, hgives, hpeer⟩ := (hmem a).mp ha
      have hdst : vip = dst := (congrArg PeerState.vip hpeer).symm.trans (of_decide_eq_true hvip)
      exact hother ((hnone a.1 (hdst ▸ hgives)).trans hafter.self)
    rw [sendToPeerInner, hfind]

/-- A device of the map that is not in the list keeps its entry, and when that is
    scanned first, packets to its address go to it. -/
theorem lists_of_follows (hnet : TakesHellos net) {id : Uuid}
    (h : Registered ourId relayServer engine) (hknown : engine.Knows id)
    (hleads : Leads id (engine.step net (HashOrder.leading id) (.reconnect list sockets)).peers)
    (hfollows : Follows net list
      (engine.step net (HashOrder.leading id) (.reconnect list sockets))) :
    list.Lists id := by
  by_contra hgone
  obtain ⟨peer, hpeer⟩ := hknown
  have hafter := (registered_step hnet (HashOrder.leading id) h (.reconnect list sockets)).1
  have hstale : (id, peer) ∈
      (engine.step net (HashOrder.leading id) (.reconnect list sockets)).peers :=
    (mem_reconnect hnet _ h list sockets).mpr (Or.inr ⟨hpeer, hgone⟩)
  have hsends : TunnelEngine.SendsTo net _ [] peer.vip id :=
    sendsTo_of_find? hafter (hleads.find?_eq hstale rfl (decide_eq_true rfl)) []
  by_cases hgiven : ∃ other, list.Gives other peer.vip ∧ other ≠ ourId
  · obtain ⟨other, hgives, hother⟩ := hgiven
    have hroute := hfollows.route other peer.vip hgives (by rwa [hafter.self]) []
    obtain ⟨p, hp, hid, -⟩ := hgives
    exact hgone ⟨p, hp, hid.trans (sendsTo_unique (Nat.zero_le _) hsends hroute).symm⟩
  · have hfail := hfollows.noRoute peer.vip (by
      intro other hgives
      by_contra hother
      exact hgiven ⟨other, hgives, by rwa [hafter.self] at hother⟩) []
    obtain ⟨socket, encoded, -, hsent⟩ := sent_of_sendsTo (Nat.zero_le _) hsends
    rw [hfail] at hsent
    cases hsent

/-- The map yields the entry of the device first. -/
def Leading (id : Uuid) (engine : TunnelEngine) : Prop :=
  KeysNodup engine.peers ∧ Leads id engine.peers

theorem leading_learn (id : Uuid) (skipKnown : Bool) (engine : TunnelEngine) (p : PeerInfo)
    (h : Leading id engine) :
    Leading id (learn (HashOrder.leading id) sockets skipKnown engine p) := by
  unfold learn
  split
  · exact h
  · split
    · exact h
    · exact ⟨keysNodup_insertEntry (HashOrder.leading id) h.1 p.deviceId _,
        leads_insertEntry h.1 id p.deviceId _⟩

/-- It stays so when the map is arranged that way. -/
theorem leading_step (hnet : TakesHellos net) (id : Uuid) (engine : TunnelEngine) (call : Call)
    (h : Leading id engine) : Leading id (engine.step net (HashOrder.leading id) call) := by
  rw [step_eq hnet]
  cases call with
  | syncPeers list sockets => exact run_invariant (leading_learn id true) h list.infos
  | reconnect list sockets =>
      have hstart : Leading id { engine with state := .reconnecting } := h
      exact run_invariant (@leading_learn sockets id false) hstart list.infos

end Following

/-! ## Runs -/

/-- No reconnection gets a list that lacks a device of an earlier list, the engine's own
    apart. -/
def KeepsListed (ourId : Uuid) (calls : List Call) : Prop :=
  ∀ past list sockets, past ++ [.reconnect list sockets] <+: calls →
    ∀ id ≠ ourId, (∃ call ∈ past, call.list.Lists id) → list.Lists id

theorem registered_new (ourId : Uuid) (ourIp : Ipv4Addr) (relayServer : SocketAddr) (now : Nat) :
    Registered ourId relayServer (new ourId ourIp relayServer now) := by
  refine ⟨rfl, rfl, List.nodup_nil, ?_⟩
  intro e he
  cases he

theorem leading_new (id ourId : Uuid) (ourIp : Ipv4Addr) (relayServer : SocketAddr) (now : Nat) :
    Leading id (new ourId ourIp relayServer now) :=
  ⟨List.nodup_nil, leads_nil id⟩

/-- For every history of peer lists and every sequence of calls on a new engine: packets
    follow the list after each reconnection, in whatever order the map is scanned,
    exactly when no reconnection gets a list that lacks a device of an earlier one. -/
theorem follows_iff_keepsListed {net : Network} (hnet : TakesHellos net) (ourId : Uuid)
    (ourIp : Ipv4Addr) (relayServer : SocketAddr) (now : Nat) (calls : List Call) :
    (∀ order, EachStep (step net order) (FollowsAfter net order)
        (new ourId ourIp relayServer now) calls) ↔
      KeepsListed ourId calls := by
  have hnew := registered_new ourId ourIp relayServer now
  have hnone : ∀ id, ¬ (new ourId ourIp relayServer now).Knows id := by
    rintro id ⟨peer, hpeer⟩
    cases hpeer
  refine ⟨?_, ?_⟩
  · intro hfollows past list sockets hpast id hother hlisted
    obtain ⟨hregistered, hknows⟩ := registered_run hnet (HashOrder.leading id) hnew past
    have hleading : Leading id (run (step net (HashOrder.leading id))
        (new ourId ourIp relayServer now) past) :=
      run_invariant (leading_step hnet id) (leading_new id ourId ourIp relayServer now) past
    exact lists_of_follows hnet hregistered ((hknows id).mpr (Or.inr ⟨hlisted, hother⟩))
      (leading_step hnet id _ _ hleading).2
      (hfollows (HashOrder.leading id) past (.reconnect list sockets) hpast)
  · intro hkeeps order past call hpast
    obtain ⟨hregistered, hknows⟩ := registered_run hnet order hnew past
    cases call with
    | syncPeers list sockets => trivial
    | reconnect list sockets =>
        refine follows_of_kept hnet order hregistered ?_
        intro id hknown
        obtain ⟨hlisted, hother⟩ := ((hknows id).mp hknown).resolve_left (hnone id)
        exact hkeeps past list sockets hpast id hother hlisted

/-- The UUID that repeats a byte. -/
def deviceOf (n : UInt8) : Uuid := ⟨List.replicate 14 0 ++ [0, n], rfl⟩

/-- The list of one device. -/
def listOf (id : Uuid) (addr : Ipv4Addr) : PeerList where
  infos := [⟨id, addr.toString, Octets.replicate 32 0, "host"⟩]
  parses := by
    intro p hp
    rw [List.mem_singleton.mp hp]
    exact ⟨addr, Ipv4Addr.parse_toString addr⟩
  ids := List.nodup_singleton _
  addrs := List.nodup_singleton _

/-- Device 1 is at 100.64.0.1; then the engine reconnects and `id` is at `addr`. -/
def reconnection (id : Uuid) (addr : Ipv4Addr) : List Call :=
  [.syncPeers (listOf (deviceOf 1) ⟨100, 64, 0, 1⟩) fun _ => .localhost 40001,
    .reconnect (listOf id addr) fun _ => .localhost 40002]

/-- A device that gets another address. -/
theorem readdressed_device_followed :
    KeepsListed (deviceOf 0) (reconnection (deviceOf 1) ⟨100, 64, 0, 7⟩) ∧
      ∀ order, EachStep (step Network.ideal order) (FollowsAfter Network.ideal order)
        (new (deviceOf 0) ⟨100, 64, 0, 0⟩ (.localhost 33478) 0)
        (reconnection (deviceOf 1) ⟨100, 64, 0, 7⟩) := by
  refine (and_iff_left_of_imp (follows_iff_keepsListed (fun _ _ _ => ⟨_, rfl⟩) _ _ _ _ _).mpr).mpr
    ?_
  rintro past list sockets hpast id - ⟨call, hcall, hlisted⟩
  match past, hpast with
  | [], _ => cases hcall
  | [first], hpast =>
      obtain ⟨rfl, hrest⟩ := List.cons_prefix_cons.mp hpast
      obtain ⟨heq, -⟩ := List.cons_prefix_cons.mp hrest
      obtain ⟨rfl, -⟩ := Call.reconnect.inj heq
      obtain ⟨p, hp, rfl⟩ := List.mem_singleton.mp hcall ▸ hlisted
      rw [List.mem_singleton.mp hp]
      exact ⟨_, List.mem_singleton.mpr rfl, rfl⟩
  | first :: second :: rest, hpast =>
      have hlength := hpast.length_le
      simp [reconnection] at hlength

/-- Device 1 is revoked and its address given to device 2: a packet for the address
    still goes to device 1. -/
theorem reassigned_address_not_followed :
    ¬ ∀ order, EachStep (step Network.ideal order) (FollowsAfter Network.ideal order)
      (new (deviceOf 0) ⟨100, 64, 0, 0⟩ (.localhost 33478) 0)
      (reconnection (deviceOf 2) ⟨100, 64, 0, 1⟩) := by
  intro hfollows
  have hlast := hfollows (HashOrder.leading (deviceOf 1)) [_] _
    (List.prefix_refl (reconnection (deviceOf 2) ⟨100, 64, 0, 1⟩))
  have hroute := hlast.route (deviceOf 2) ⟨100, 64, 0, 1⟩
    ⟨_, List.mem_singleton.mpr rfl, rfl, Ipv4Addr.parse_toString _⟩ (by decide +kernel) [1]
  obtain ⟨socket, encoded, hencoded, hsent⟩ := sent_of_sendsTo (by decide) hroute
  have htarget := congrArg (List.map fun datagram =>
    (RelayFrame.decode (datagram.payload ++ [])).toOption.map RelayFrame.targetId) hsent
  rw [List.map_singleton, RelayFrame.decode_encode hencoded []] at htarget
  revert htarget
  decide +kernel

end TunnelEngine

end ConnectAlso.Mobile
