import ConnectAlso.Mobile.Flush

/-!
# The queue of the mobile engine

While the engine reconnects, `send_to_peer` queues packets, and the flush at the end of
`reconnect` takes them out again. `Ledger` records what can be seen of a run: the packets
that were accepted with `Ok`, those that went into the queue, the calls of
`send_to_peer_inner`, the datagrams that were sent and the drops that were reported. The
calls are what was done: the DATA frames sent are those of the calls, and so are the reports
(`Performed`). A packet that finds the queue full is accepted and nowhere else.
-/

namespace ConnectAlso.Mobile
open Misc RelayProto

/-- An engine and what has happened so far. -/
structure Ledger where
  engine : TunnelEngine
  accepted : List Outbound
  queued : List Outbound
  calls : List InnerCall
  sent : List Datagram
  reports : List Report

/-- A call of `sync_peers`, `send_to_peer` or `reconnect`. -/
inductive EngineEvent where
  | sync (net : Network) (order : PeerOrder) (bound : Uuid → Except IoError SocketAddr)
      (response : Except String (List PeerInfo))
  | send (net : Network) (now : Nat) (outbound : Outbound)
  | reconnect (net : Network) (nets : Nat → Network) (order : PeerOrder)
      (bound : Uuid → Except IoError SocketAddr) (response : Except String (List PeerInfo))

/-- The call of `send_to_peer_inner` by `send_to_peer`. -/
def TunnelEngine.directCalls (net : Network) (engine : TunnelEngine) (outbound : Outbound) :
    List InnerCall :=
  match engine.state with
  | .reconnecting => []
  | .connected => [engine.innerCall net false outbound]

/-- The packets that calls have handed to a relay client. -/
def handedOf (calls : List InnerCall) : List Outbound :=
  (calls.filter InnerCall.handed).map InnerCall.outbound

/-- The packets of the queue that flushes have reported as dropped. -/
def droppedOf (calls : List InnerCall) : List Outbound :=
  (calls.filter InnerCall.dropped).map InnerCall.outbound

/-- The packets that flushes have passed to `send_to_peer_inner`, in order. -/
def passedOf (calls : List InnerCall) : List Outbound :=
  (calls.filter InnerCall.flushed).map InnerCall.outbound

/-- The datagram carries a DATA frame. -/
def carriesData (datagram : Datagram) : Bool :=
  match RelayFrame.decode datagram.payload with
  | .ok frame => frame.msgType = .data
  | .error _ => false

/-- The DATA frames among the datagrams. -/
def dataOf (sent : List Datagram) : List Datagram := sent.filter carriesData

/-- The calls send these datagrams, other frames apart, and report these drops. -/
structure Performed (calls : List InnerCall) (sent : List Datagram) (reports : List Report) :
    Prop where
  sent : dataOf sent = calls.flatMap fun call => call.effect.sent
  reports : reports = calls.filterMap InnerCall.report

/-- The accepted packets are those that were handed over, wait in the queue, or were
    dropped and reported. -/
def Accounted (accepted : List Outbound) (calls : List InnerCall) (queue : List Outbound) :
    Prop := accepted.Perm (handedOf calls ++ queue ++ droppedOf calls)

namespace Ledger

/-- A new engine. -/
def start (ourId : Uuid) (ourIp : Ipv4Addr) (relayServer : SocketAddr) (now : Nat) : Ledger where
  engine := .new ourId ourIp relayServer now
  accepted := []
  queued := []
  calls := []
  sent := []
  reports := []

/-- One call. -/
def step (ledger : Ledger) : EngineEvent → Ledger
  | .sync net order bound response =>
    let (effect, engine) := ledger.engine.syncPeers net order bound response
    { ledger with engine, sent := ledger.sent ++ effect.sent }
  | .send net now outbound =>
    let (effect, engine) := ledger.engine.sendToPeer net now outbound.1 outbound.2
    { engine
      accepted := ledger.accepted ++ match effect.outcome with
        | .ok _ => [outbound]
        | .error _ => []
      queued := ledger.queued ++ engine.outboundQueue.drop ledger.engine.outboundQueue.length
      calls := ledger.calls ++ ledger.engine.directCalls net outbound
      sent := ledger.sent ++ effect.sent
      reports := ledger.reports }
  | .reconnect net nets order bound response =>
    let (effect, engine) := ledger.engine.reconnectOver net nets order bound response
    { ledger with
      engine
      calls := ledger.calls ++ ledger.engine.reconnectCalls net nets order bound response
      sent := ledger.sent ++ effect.sent
      reports := ledger.reports ++ effect.reports }

/-- Every accepted packet has been handed over, is in the queue, or was dropped and
    reported; nothing else has. -/
def Balanced (ledger : Ledger) : Prop :=
  Accounted ledger.accepted ledger.calls ledger.engine.outboundQueue

/-- The accounts balance, and the calls in them are what was sent and reported. -/
structure Conserved (ledger : Ledger) : Prop where
  balanced : ledger.Balanced
  performed : Performed ledger.calls ledger.sent ledger.reports

/-- The queue has room for a packet that is sent while reconnecting, and what a flush finds
    in it fits. -/
def Keeps (ledger : Ledger) : EngineEvent → Prop
  | .sync _ _ _ _ => True
  | .send _ _ _ => ledger.engine.state = .reconnecting →
      ledger.engine.outboundQueue.length < maxQueuedPackets
  | .reconnect net _ order bound response => ledger.engine.FlushFits net order bound response

/-- The queue is bounded. Since `base`, what was queued has been passed on in order and at
    most once, and what waits comes after that; what was sent and reported since is what the
    calls since have sent and reported. -/
structure QueueDiscipline (base ledger : Ledger) : Prop where
  bounded : ledger.engine.outboundQueue.length ≤ maxQueuedPackets
  inOrder : ∃ later newly sent reports, ledger.calls = base.calls ++ later ∧
    ledger.queued = base.queued ++ newly ∧ ledger.sent = base.sent ++ sent ∧
    ledger.reports = base.reports ++ reports ∧ Performed later sent reports ∧
    (passedOf later ++ ledger.engine.outboundQueue).Sublist newly

/-- The queue of `before` is empty, and each of its packets was passed on once and in order,
    with its destination, by the engine that is connected then: after some frames without
    data, the reconnection has sent what these calls send, and reported what they report. -/
structure Drained (before after : Ledger) : Prop where
  empty : after.engine.outboundQueue = []
  connected : after.engine.state = .connected
  flushed : ∃ flushed hellos, after.calls = before.calls ++ flushed ∧
    flushed.map InnerCall.outbound = before.engine.outboundQueue ∧
    (∀ call ∈ flushed, call.flushed = true ∧ call.engine = after.engine) ∧
    after.sent = before.sent ++ hellos ++ flushed.flatMap (fun call => call.effect.sent) ∧
    dataOf hellos = [] ∧
    after.reports = before.reports ++ flushed.filterMap InnerCall.report

end Ledger

/-! ## Accounts -/

section Accounts
variable {accepted queue : List Outbound} {calls later : List InnerCall} {call : InnerCall}

theorem handedOf_append (calls later : List InnerCall) :
    handedOf (calls ++ later) = handedOf calls ++ handedOf later := by
  rw [handedOf, List.filter_append, List.map_append]
  rfl

theorem droppedOf_append (calls later : List InnerCall) :
    droppedOf (calls ++ later) = droppedOf calls ++ droppedOf later := by
  rw [droppedOf, List.filter_append, List.map_append]
  rfl

theorem passedOf_append (calls later : List InnerCall) :
    passedOf (calls ++ later) = passedOf calls ++ passedOf later := by
  rw [passedOf, List.filter_append, List.map_append]
  rfl

/-- A packet goes into the queue. -/
theorem Accounted.enqueue (h : Accounted accepted calls queue) (outbound : Outbound) :
    Accounted (accepted ++ [outbound]) calls (queue ++ [outbound]) := by
  unfold Accounted at *
  rw [List.perm_iff_count] at *
  intro x
  have hx := h x
  simp only [List.count_append] at hx ⊢
  omega

/-- A packet that is accepted and nowhere else is not accounted for. -/
theorem Accounted.not_of_lost (h : Accounted accepted calls queue) (outbound : Outbound) :
    ¬ Accounted (accepted ++ [outbound]) calls queue := by
  intro hlost
  have hlength := h.length_eq
  have hlength' := hlost.length_eq
  rw [List.length_append, List.length_singleton] at hlength'
  omega

/-! ### What the calls do -/

theorem dataOf_append (sent later : List Datagram) :
    dataOf (sent ++ later) = dataOf sent ++ dataOf later := List.filter_append _ _

/-- A HELLO is no DATA frame. -/
theorem dataOf_hellos {id : PeerId} {hellos : List Datagram}
    (h : ∀ datagram ∈ hellos, datagram.payload = RelayFrame.helloBytes id) :
    dataOf hellos = [] := by
  refine List.filter_eq_nil_iff.mpr fun datagram hmem => ?_
  have hdecode := RelayFrame.decode_encode (RelayFrame.encode_hello id) []
  rw [List.append_nil] at hdecode
  rw [carriesData, h datagram hmem, hdecode]
  exact Bool.false_ne_true

/-- What a call sends is a DATA frame, or nothing. -/
theorem dataOf_effect (call : InnerCall) : dataOf call.effect.sent = call.effect.sent := by
  rw [InnerCall.effect, TunnelEngine.sent_sendToPeerInner]
  cases call.engine.peers.find? fun peer => peer.2.vip = call.outbound.2 with
  | none => rfl
  | some peer =>
      dsimp only
      rcases Nat.lt_or_ge maxPayload call.outbound.1.length with hlong | hshort
      · rw [RelayClient.send_of_lt call.net peer.2.relay hlong]
        rfl
      · obtain ⟨encoded, hencode, hsent⟩ := RelayClient.send_of_le call.net peer.2.relay hshort
        have hdecode := RelayFrame.decode_encode hencode []
        rw [List.append_nil] at hdecode
        have hcarries :
            carriesData ⟨peer.2.relay.socket, peer.2.relay.relayAddr, encoded⟩ = true := by
          rw [carriesData, hdecode]
          rfl
        rw [hsent, dataOf, List.filter_cons_of_pos hcarries, List.filter_nil]

theorem dataOf_flatMap (calls : List InnerCall) :
    dataOf (calls.flatMap fun call => call.effect.sent) =
      calls.flatMap fun call => call.effect.sent := by
  induction calls with
  | nil => rfl
  | cons call rest ih => rw [List.flatMap_cons, dataOf_append, dataOf_effect, ih]

theorem performed_nil : Performed [] [] [] := ⟨rfl, rfl⟩

/-- One record after the other is a record of both. -/
theorem Performed.append {sent sent' : List Datagram} {reports reports' : List Report}
    (h : Performed calls sent reports) (h' : Performed later sent' reports') :
    Performed (calls ++ later) (sent ++ sent') (reports ++ reports') where
  sent := by rw [dataOf_append, h.sent, h'.sent, List.flatMap_append]
  reports := by rw [h.reports, h'.reports, List.filterMap_append]

/-! ### What becomes of the packets -/

/-- A call by `send_to_peer` settles the packet if it hands it over. -/
theorem Accounted.send (h : Accounted accepted calls queue) (hdirect : call.flushed = false) :
    Accounted (accepted ++ if call.handed then [call.outbound] else []) (calls ++ [call])
      queue := by
  have hdropped : call.dropped = false := by
    rw [InnerCall.dropped, InnerCall.report_of_not_flushed hdirect, Option.isSome_none]
  unfold Accounted at *
  rw [handedOf_append, droppedOf_append]
  rw [List.perm_iff_count] at *
  intro x
  have hx := h x
  cases hhanded : call.handed with
  | false =>
      simp only [handedOf, droppedOf, List.filter_cons, List.filter_nil, hhanded, hdropped,
        List.count_append, List.map_nil, List.count_nil, Bool.false_eq_true, if_false] at hx ⊢
      omega
  | true =>
      simp only [handedOf, droppedOf, List.filter_cons, List.filter_nil, hhanded, hdropped,
        List.count_append, List.map_cons, List.map_nil, List.count_nil, Bool.false_eq_true,
        if_false, if_true] at hx ⊢
      omega

/-- A flush empties the queue. It settles it if its calls hand over or drop what was in
    it. -/
theorem Accounted.flush_iff (h : Accounted accepted calls queue) (later : List InnerCall) :
    Accounted accepted (calls ++ later) [] ↔ queue.Perm (handedOf later ++ droppedOf later) := by
  unfold Accounted at *
  rw [handedOf_append, droppedOf_append]
  rw [List.perm_iff_count] at *
  refine ⟨fun hflush => List.perm_iff_count.mpr fun x => ?_, fun hqueue x => ?_⟩
  · have hx := h x
    have hflushx := hflush x
    simp only [List.count_append, List.count_nil] at hx hflushx ⊢
    omega
  · have hx := h x
    have hqueuex := hqueue.count_eq x
    simp only [List.count_append, List.count_nil] at hx hqueuex ⊢
    omega

end Accounts

namespace Ledger

/-! ## The calls on the engine -/

variable {engine : TunnelEngine}

theorem queue_syncPeers (net : Network) (order : PeerOrder)
    (bound : Uuid → Except IoError SocketAddr) (response : Except String (List PeerInfo))
    (engine : TunnelEngine) :
    (engine.syncPeers net order bound response).2.outboundQueue = engine.outboundQueue := by
  cases response with
  | error e => rfl
  | ok peers => exact (TunnelEngine.registerPeers_frame net order bound true engine peers).1.2

/-- A synchronisation sends no data. -/
theorem dataOf_syncPeers (net : Network) (order : PeerOrder)
    (bound : Uuid → Except IoError SocketAddr) (response : Except String (List PeerInfo))
    (engine : TunnelEngine) :
    dataOf (engine.syncPeers net order bound response).1.sent = [] := by
  cases response with
  | error e => rfl
  | ok peers =>
      exact dataOf_hellos fun datagram =>
        TunnelEngine.sent_registerPeers net order bound true engine peers

/-- What `send_to_peer` does: it sends at once, queues the packet, or returns `Ok`. -/
theorem sendToPeer_cases (net : Network) (engine : TunnelEngine) (now : Nat)
    (outbound : Outbound) :
    (engine.state = .connected ∧
      (engine.sendToPeer net now outbound.1 outbound.2).1 =
        (engine.innerCall net false outbound).effect ∧
      (engine.sendToPeer net now outbound.1 outbound.2).2.outboundQueue = engine.outboundQueue) ∨
    (engine.state = .reconnecting ∧
      (engine.sendToPeer net now outbound.1 outbound.2).1.outcome = .ok () ∧
      (engine.outboundQueue.length < maxQueuedPackets ∧
          (engine.sendToPeer net now outbound.1 outbound.2).2.outboundQueue =
            engine.outboundQueue ++ [outbound] ∨
        ¬ engine.outboundQueue.length < maxQueuedPackets ∧
          (engine.sendToPeer net now outbound.1 outbound.2).2.outboundQueue =
            engine.outboundQueue)) := by
  unfold TunnelEngine.sendToPeer TunnelEngine.markTraffic
  dsimp only
  cases hstate : engine.state with
  | connected => exact Or.inl ⟨rfl, rfl, rfl⟩
  | reconnecting =>
      refine Or.inr ⟨rfl, ?_⟩
      dsimp only
      by_cases hroom : engine.outboundQueue.length < maxQueuedPackets
      · rw [if_pos hroom]
        exact ⟨rfl, Or.inl ⟨hroom, rfl⟩⟩
      · rw [if_neg hroom]
        exact ⟨rfl, Or.inr ⟨hroom, rfl⟩⟩

/-- The calls of a reconnection are those of a flush. -/
theorem flushed_reconnectCalls {net : Network} {nets : Nat → Network} {order : PeerOrder}
    {bound : Uuid → Except IoError SocketAddr} {response : Except String (List PeerInfo)}
    {call : InnerCall} (h : call ∈ engine.reconnectCalls net nets order bound response) :
    call.flushed = true := by
  rcases engine.reconnectOver_cases net nets order bound response with
    ⟨-, -, -, hnone, -⟩ | ⟨-, -, hflush, -⟩
  · rw [hnone] at h
    cases h
  · rw [hflush] at h
    obtain ⟨net', outbound, -, rfl⟩ := TunnelEngine.mem_flushCalls h
    rfl

/-- A call of a flush that does not panic is handed over or dropped, and not both. -/
theorem settled_perm {calls : List InnerCall} (h : ∀ call ∈ calls, call.flushed = true) :
    (calls.filter InnerCall.handed ++ calls.filter InnerCall.dropped).Perm
      (calls.filter fun call => !call.panicked) := by
  have hsplit := List.filter_append_perm InnerCall.handed (calls.filter fun call => !call.panicked)
  rw [List.filter_filter, List.filter_filter] at hsplit
  have hhanded : calls.filter (fun call => call.handed && !call.panicked) =
      calls.filter InnerCall.handed :=
    List.filter_congr fun call _ => call.handed_and_not_panicked
  have hdropped : calls.filter (fun call => !call.handed && !call.panicked) =
      calls.filter InnerCall.dropped :=
    List.filter_congr fun call hcall => InnerCall.not_handed_and_not_panicked (h call hcall)
  rwa [hhanded, hdropped] at hsplit

/-- The calls of `send_to_peer` are what it does. -/
theorem sent_directCalls (net : Network) (engine : TunnelEngine) (now : Nat)
    (outbound : Outbound) :
    (engine.sendToPeer net now outbound.1 outbound.2).1.sent =
        (engine.directCalls net outbound).flatMap (fun call => call.effect.sent) ∧
      (engine.directCalls net outbound).filterMap InnerCall.report = [] := by
  rw [TunnelEngine.sent_sendToPeer, TunnelEngine.directCalls]
  cases engine.state with
  | reconnecting => exact ⟨rfl, rfl⟩
  | connected =>
      refine ⟨(List.flatMap_singleton _ _).symm, ?_⟩
      rw [List.filterMap_cons_none (InnerCall.report_of_not_flushed rfl), List.filterMap_nil]

theorem passedOf_direct {call : InnerCall} (h : call.flushed = false) : passedOf [call] = [] := by
  rw [passedOf, List.filter_cons_of_neg (by simp [h])]
  rfl

/-- A flush passes on what its calls are for. -/
theorem passedOf_flushed {calls : List InnerCall} (h : ∀ call ∈ calls, call.flushed = true) :
    passedOf calls = calls.map InnerCall.outbound := by
  rw [passedOf, List.filter_eq_self.mpr h]

theorem passedOf_directCalls (net : Network) (engine : TunnelEngine) (outbound : Outbound) :
    passedOf (engine.directCalls net outbound) = [] := by
  unfold TunnelEngine.directCalls
  cases engine.state with
  | connected => exact passedOf_direct rfl
  | reconnecting => rfl

/-- What a step adds to the record: calls that are what it sends and reports, and that pass
    packets on from the front of the queue, and packets at its end, where there is room. -/
theorem step_adds (ledger : Ledger) (event : EngineEvent) :
    ∃ made pushed sent reports, (ledger.step event).calls = ledger.calls ++ made ∧
      (ledger.step event).queued = ledger.queued ++ pushed ∧
      (ledger.step event).sent = ledger.sent ++ sent ∧
      (ledger.step event).reports = ledger.reports ++ reports ∧
      Performed made sent reports ∧
      (passedOf made ++ (ledger.step event).engine.outboundQueue).Sublist
        (ledger.engine.outboundQueue ++ pushed) ∧
      (ledger.engine.outboundQueue.length ≤ maxQueuedPackets →
        (ledger.step event).engine.outboundQueue.length ≤ maxQueuedPackets) := by
  cases event with
  | sync net order bound response =>
      have hqueue : (ledger.step (.sync net order bound response)).engine.outboundQueue =
          ledger.engine.outboundQueue := queue_syncPeers net order bound response ledger.engine
      refine ⟨[], [], (ledger.engine.syncPeers net order bound response).1.sent, [],
        (List.append_nil _).symm, (List.append_nil _).symm, rfl, (List.append_nil _).symm,
        ⟨dataOf_syncPeers net order bound response ledger.engine, rfl⟩, ?_⟩
      rw [hqueue, List.append_nil]
      exact ⟨List.Sublist.refl _, id⟩
  | send net now outbound =>
      have hengine : (ledger.step (.send net now outbound)).engine =
          (ledger.engine.sendToPeer net now outbound.1 outbound.2).2 := rfl
      obtain ⟨hsent, hreports⟩ := sent_directCalls net ledger.engine now outbound
      refine ⟨ledger.engine.directCalls net outbound,
        (ledger.engine.sendToPeer net now outbound.1 outbound.2).2.outboundQueue.drop
          ledger.engine.outboundQueue.length,
        (ledger.engine.sendToPeer net now outbound.1 outbound.2).1.sent, [], rfl, rfl, rfl,
        (List.append_nil _).symm, ⟨?_, hreports.symm⟩, ?_⟩
      · rw [hsent, dataOf_flatMap]
      rw [passedOf_directCalls, List.nil_append, hengine]
      obtain ⟨-, -, hsame⟩ | ⟨-, -, ⟨hroom, hpushed⟩ | ⟨-, hsame⟩⟩ :=
        sendToPeer_cases net ledger.engine now outbound
      · rw [hsame, List.drop_length, List.append_nil]
        exact ⟨List.Sublist.refl _, id⟩
      · rw [hpushed, List.drop_left, List.length_append, List.length_singleton]
        exact ⟨List.Sublist.refl _, fun _ => hroom⟩
      · rw [hsame, List.drop_length, List.append_nil]
        exact ⟨List.Sublist.refl _, id⟩
  | reconnect net nets order bound response =>
      have hengine : (ledger.step (.reconnect net nets order bound response)).engine =
          (ledger.engine.reconnectOver net nets order bound response).2 := rfl
      obtain ⟨⟨hellos, hhellos, hsent⟩, hreports⟩ :=
        ledger.engine.sent_reconnectOver net nets order bound response
      refine ⟨ledger.engine.reconnectCalls net nets order bound response, [],
        (ledger.engine.reconnectOver net nets order bound response).1.sent,
        (ledger.engine.reconnectOver net nets order bound response).1.reports, rfl,
        (List.append_nil _).symm, rfl, rfl, ⟨?_, hreports⟩, ?_⟩
      · rw [hsent, dataOf_append, dataOf_hellos hhellos, dataOf_flatMap, List.nil_append]
      rw [passedOf_flushed fun call hcall => flushed_reconnectCalls hcall, hengine,
        List.append_nil]
      rcases ledger.engine.reconnectOver_cases net nets order bound response with
        ⟨-, -, hqueue, hnone, -⟩ | ⟨-, hempty, hflush, -⟩
      · rw [hnone, hqueue]
        exact ⟨List.Sublist.refl _, id⟩
      · rw [hflush, hempty, List.append_nil]
        exact ⟨(TunnelEngine.outbound_flushCalls_isPrefix nets _ _).sublist,
          fun _ => Nat.zero_le _⟩

/-! ## No silent loss -/

variable {ledger : Ledger}

theorem conserved_start (ourId : Uuid) (ourIp : Ipv4Addr) (relayServer : SocketAddr) (now : Nat) :
    (start ourId ourIp relayServer now).Conserved := ⟨List.Perm.refl _, performed_nil⟩

/-- Sending keeps every packet accounted for unless the queue is full. -/
theorem balanced_send_iff (h : ledger.Balanced) (net : Network) (now : Nat)
    (outbound : Outbound) :
    (ledger.step (.send net now outbound)).Balanced ↔ ledger.Keeps (.send net now outbound) := by
  unfold Balanced Keeps step at *
  dsimp only
  obtain ⟨hstate, heffect, hqueue⟩ | ⟨hstate, hok, ⟨hroom, hqueue⟩ | ⟨hfull, hqueue⟩⟩ :=
    sendToPeer_cases net ledger.engine now outbound
  · rw [hqueue, heffect, TunnelEngine.directCalls, hstate]
    refine iff_of_true ?_ (fun h => by cases h)
    have hsend := @Accounted.send _ _ _ (ledger.engine.innerCall net false outbound) h rfl
    rw [InnerCall.handed_eq] at hsend
    cases houtcome : (ledger.engine.innerCall net false outbound).effect.outcome with
    | ok _ =>
        rw [houtcome] at hsend
        exact hsend
    | error fault =>
        rw [houtcome] at hsend
        exact hsend
  · rw [hqueue, hok, TunnelEngine.directCalls, hstate, List.append_nil]
    exact iff_of_true (h.enqueue outbound) fun _ => hroom
  · rw [hqueue, hok, TunnelEngine.directCalls, hstate, List.append_nil]
    exact iff_of_false (h.not_of_lost outbound) fun hroom => hfull (hroom rfl)

/-- A reconnection keeps every packet accounted for unless its flush panics. -/
theorem balanced_reconnect_iff (h : ledger.Balanced) (net : Network) (nets : Nat → Network)
    (order : PeerOrder) (bound : Uuid → Except IoError SocketAddr)
    (response : Except String (List PeerInfo)) :
    (ledger.step (.reconnect net nets order bound response)).Balanced ↔
      ledger.Keeps (.reconnect net nets order bound response) := by
  have hflushed := fun call hcall => @flushed_reconnectCalls ledger.engine net nets order bound
    response call hcall
  unfold Balanced Keeps step at *
  dsimp only
  rcases ledger.engine.reconnectOver_cases net nets order bound response with
    ⟨-, -, hqueue, hnone, hfits⟩ | ⟨-, hqueue, hflush, hiff, -⟩
  · rw [hqueue, hnone, List.append_nil]
    exact iff_of_true h hfits
  · rw [hqueue, hiff, h.flush_iff, handedOf, droppedOf, ← List.map_append]
    have hsettled := (settled_perm hflushed).map InnerCall.outbound
    rw [hflush] at hsettled ⊢
    -- the queue is settled when no call panics, and longer than what is settled otherwise
    rw [← TunnelEngine.panicked_flushCalls_iff nets]
    constructor
    · intro hperm call hcall
      by_contra hpanicked
      have hlength := (hperm.trans hsettled).length_eq
      have hprefix := (TunnelEngine.outbound_flushCalls_isPrefix nets
        (ledger.engine.reconnectOver net nets order bound response).2
        ledger.engine.outboundQueue).length_le
      have hless := (@List.length_filter_lt_length_iff_exists _ (fun call => !call.panicked) _).mpr
        ⟨call, hcall, by simpa using hpanicked⟩
      rw [List.length_map] at hlength hprefix
      omega
    · intro hreturned
      have hall : ((ledger.engine.reconnectOver net nets order bound response).2.flushCalls nets
          ledger.engine.outboundQueue).filter (fun call => !call.panicked) =
          (ledger.engine.reconnectOver net nets order bound response).2.flushCalls nets
            ledger.engine.outboundQueue :=
        List.filter_eq_self.mpr fun call hcall => by rw [hreturned call hcall]; rfl
      rw [hall, TunnelEngine.outbound_flushCalls nets
        ((TunnelEngine.panicked_flushCalls_iff nets _).mp hreturned)] at hsettled
      exact hsettled.symm

theorem balanced_step_iff (h : ledger.Balanced) (event : EngineEvent) :
    (ledger.step event).Balanced ↔ ledger.Keeps event := by
  cases event with
  | sync net order bound response =>
      refine iff_of_true ?_ trivial
      unfold Balanced step at *
      dsimp only
      rwa [queue_syncPeers]
  | send net now outbound => exact balanced_send_iff h net now outbound
  | reconnect net nets order bound response =>
      exact balanced_reconnect_iff h net nets order bound response

theorem conserved_step_iff (h : ledger.Conserved) (event : EngineEvent) :
    (ledger.step event).Conserved ↔ ledger.Keeps event := by
  rw [← balanced_step_iff h.balanced event]
  refine ⟨Conserved.balanced, fun hbalanced => ⟨hbalanced, ?_⟩⟩
  obtain ⟨made, -, sent, reports, hcalls, -, hsent, hreports, hperformed, -⟩ :=
    step_adds ledger event
  rw [hcalls, hsent, hreports]
  exact h.performed.append hperformed

/-- The packets stay accounted for exactly as long as none is sent to a full queue and no
    flush meets an oversized packet for a known peer. -/
theorem throughout_conserved_iff (ourId : Uuid) (ourIp : Ipv4Addr) (relayServer : SocketAddr)
    (now : Nat) (events : List EngineEvent) :
    Throughout step Conserved (start ourId ourIp relayServer now) events ↔
      EachStep step Keeps (start ourId ourIp relayServer now) events :=
  throughout_iff_eachStep (J := fun _ => True) (P := Conserved) (fun _ _ _ => trivial)
    (fun _ event _ h => conserved_step_iff h event) trivial
    (conserved_start ourId ourIp relayServer now) events

/-- A reconnection in which the control service cannot be reached. -/
def refusedReconnect : EngineEvent :=
  .reconnect Network.ideal (fun _ => Network.ideal) HashOrder.newestFirst
    (fun _ => .ok (.localhost 40000)) (.error "error sending request")

/-- A reconnection that fails, and then one packet more than the queue holds. -/
def overfullEvents : List EngineEvent :=
  refusedReconnect :: List.replicate 257 (.send Network.ideal 0 ([], ⟨10, 0, 0, 2⟩))

/-- All 257 packets are accepted, and 256 of them are in the queue. -/
theorem overfullEvents_loses :
    ¬ Throughout step Conserved (start Uuid.nil ⟨10, 0, 0, 1⟩ (.localhost 33478) 0)
      overfullEvents := by
  intro h
  have hlength := (h overfullEvents (List.prefix_refl _)).balanced.length_eq
  exact absurd hlength (by decide +kernel)

/-! ## Exactly once and in order -/

theorem queueDiscipline_refl (h : ledger.engine.outboundQueue = []) :
    QueueDiscipline ledger ledger where
  bounded := by
    rw [h]
    exact Nat.zero_le _
  inOrder := ⟨[], [], [], [], (List.append_nil _).symm, (List.append_nil _).symm,
    (List.append_nil _).symm, (List.append_nil _).symm, performed_nil,
    by rw [h]; exact List.Sublist.refl _⟩

theorem queueDiscipline_step {base : Ledger} (event : EngineEvent)
    (h : QueueDiscipline base ledger) : QueueDiscipline base (ledger.step event) := by
  obtain ⟨later, newly, sent, reports, hcalls, hqueued, hsent, hreports, hperformed,
    hsublist⟩ := h.inOrder
  obtain ⟨made, pushed, sent', reports', hmade, hpushed, hsent', hreports', hperformed', hfront,
    hbound⟩ := step_adds ledger event
  refine ⟨hbound h.bounded, later ++ made, newly ++ pushed, sent ++ sent', reports ++ reports',
    ?_, ?_, ?_, ?_, hperformed.append hperformed', ?_⟩
  · rw [hmade, hcalls, List.append_assoc]
  · rw [hpushed, hqueued, List.append_assoc]
  · rw [hsent', hsent, List.append_assoc]
  · rw [hreports', hreports, List.append_assoc]
  · rw [passedOf_append, List.append_assoc]
    refine ((List.Sublist.refl _).append hfront).trans ?_
    rw [← List.append_assoc]
    exact hsublist.append (List.Sublist.refl _)

/-- From an empty queue on, every run keeps the discipline. -/
theorem queueDiscipline_run (h : ledger.engine.outboundQueue = []) (events : List EngineEvent) :
    QueueDiscipline ledger (run step ledger events) :=
  run_invariant (J := QueueDiscipline ledger) (fun _ event hs => queueDiscipline_step event hs)
    (queueDiscipline_refl h) events

/-- A reconnection that returns `Ok` has drained the queue. -/
theorem drained_reconnect {net : Network} {nets : Nat → Network} {order : PeerOrder}
    {bound : Uuid → Except IoError SocketAddr} {response : Except String (List PeerInfo)}
    (hok : (ledger.engine.reconnectOver net nets order bound response).1.outcome = .ok ()) :
    Drained ledger (ledger.step (.reconnect net nets order bound response)) := by
  rcases ledger.engine.reconnectOver_cases net nets order bound response with
    ⟨⟨e, herr⟩, -⟩ | ⟨hstate, hempty, hflush, hiff, ⟨hfits, -⟩ | ⟨-, message, hpanic⟩⟩
  · rw [herr] at hok
    cases hok
  · obtain ⟨⟨hellos, hhellos, hsent⟩, hreports⟩ :=
      ledger.engine.sent_reconnectOver net nets order bound response
    refine ⟨hempty, hstate, ledger.engine.reconnectCalls net nets order bound response, hellos,
      rfl, ?_, fun call hcall => ?_, ?_, dataOf_hellos hhellos, ?_⟩
    · rw [hflush]
      exact TunnelEngine.outbound_flushCalls nets (hiff.mp hfits)
    · rw [hflush] at hcall
      obtain ⟨net', outbound, -, rfl⟩ := TunnelEngine.mem_flushCalls hcall
      exact ⟨rfl, rfl⟩
    · rw [List.append_assoc, ← hsent]
      rfl
    · rw [← hreports]
      rfl
  · rw [hpanic] at hok
    cases hok

/-- In every run the queue is bounded and its packets are passed on in order and at most
    once. A reconnection that returns `Ok` passes all of them on before anything that comes
    later, whatever comes of each, and what is passed on later was queued later. -/
theorem queue_discipline (ourId : Uuid) (ourIp : Ipv4Addr) (relayServer : SocketAddr)
    (now : Nat) (events : List EngineEvent) :
    Throughout step (QueueDiscipline (start ourId ourIp relayServer now))
        (start ourId ourIp relayServer now) events ∧
      ∀ past net nets order bound response future,
        past ++ .reconnect net nets order bound response :: future = events →
        ((run step (start ourId ourIp relayServer now) past).engine.reconnectOver net nets order
          bound response).1.outcome = .ok () →
        Drained (run step (start ourId ourIp relayServer now) past)
            ((run step (start ourId ourIp relayServer now) past).step
              (.reconnect net nets order bound response)) ∧
          QueueDiscipline ((run step (start ourId ourIp relayServer now) past).step
              (.reconnect net nets order bound response))
            (run step (start ourId ourIp relayServer now) events) := by
  refine ⟨fun past _ => queueDiscipline_run rfl past, ?_⟩
  intro past net nets order bound response future hevents hok
  have hdrained := drained_reconnect hok
  refine ⟨hdrained, ?_⟩
  rw [← hevents, run_append, run_cons]
  exact queueDiscipline_run hdrained.empty future

/-- A device of the peer list. -/
def deviceInfo : PeerInfo where
  deviceId := Uuid.fromU128 2
  ipv4 := "10.0.0.2"
  publicKey := Octets.replicate 32 0
  hostname := "device"

/-- Two packets for 10.0.0.2 and one for an address that no device has, after a
    reconnection that has failed. -/
def queuedEvents : List EngineEvent :=
  [refusedReconnect, .send Network.ideal 0 ([1], ⟨10, 0, 0, 2⟩),
    .send Network.ideal 0 ([2], ⟨10, 0, 0, 9⟩), .send Network.ideal 0 ([3], ⟨10, 0, 0, 2⟩)]

/-- A reconnection to the device drains the queue, though one of the packets is dropped. -/
theorem queuedEvents_drained :
    Drained (run step (start Uuid.nil ⟨10, 0, 0, 1⟩ (.localhost 33478) 0) queuedEvents)
        ((run step (start Uuid.nil ⟨10, 0, 0, 1⟩ (.localhost 33478) 0) queuedEvents).step
          (.reconnect Network.ideal (fun _ => Network.ideal) HashOrder.newestFirst
            (fun _ => .ok (.localhost 40000)) (.ok [deviceInfo]))) ∧
      (run step (start Uuid.nil ⟨10, 0, 0, 1⟩ (.localhost 33478) 0)
        queuedEvents).engine.outboundQueue =
        [([1], ⟨10, 0, 0, 2⟩), ([2], ⟨10, 0, 0, 9⟩), ([3], ⟨10, 0, 0, 2⟩)] :=
  ⟨((queue_discipline Uuid.nil ⟨10, 0, 0, 1⟩ (.localhost 33478) 0 _).2 queuedEvents
    Network.ideal (fun _ => Network.ideal) HashOrder.newestFirst (fun _ => .ok (.localhost 40000))
    (.ok [deviceInfo]) [] rfl (by decide +kernel)).1, by decide +kernel⟩

end Ledger

end ConnectAlso.Mobile
