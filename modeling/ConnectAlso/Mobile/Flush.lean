import ConnectAlso.Mobile.Peers

/-!
# The sends of the mobile engine

Every packet that leaves the engine goes through `send_to_peer_inner`: from `send_to_peer`
at once, or from the queue when `reconnect` flushes it. Here is what a single one of these
calls comes to and which calls a flush makes: the datagrams that it sends and the drops that
it reports are those of its calls (`flushOver_eq`). The network may answer each call
differently.
-/

namespace ConnectAlso.Mobile
open Misc RelayProto

/-- A packet with its destination. -/
abbrev Outbound := List UInt8 × Ipv4Addr

/-- A call of `send_to_peer_inner`, by a flush or by `send_to_peer`: the engine and the
    network that it meets. -/
structure InnerCall where
  net : Network
  engine : TunnelEngine
  flushed : Bool
  outbound : Outbound

/-- What the call does. -/
def InnerCall.effect (call : InnerCall) : Effect EngineError Unit :=
  call.engine.sendToPeerInner call.net call.outbound.1 call.outbound.2

/-- The call has panicked. -/
def InnerCall.panicked (call : InnerCall) : Bool :=
  match call.effect.outcome with
  | .error (.panic _) => true
  | .error (.err _) => false
  | .ok _ => false

/-- The relay client of the first peer with the destination has sent the packet. -/
def InnerCall.handed (call : InnerCall) : Bool :=
  match call.engine.peers.find? fun peer => peer.2.vip = call.outbound.2 with
  | none => false
  | some peer =>
    match (peer.2.relay.send call.net call.outbound.1).outcome with
    | .ok _ => true
    | .error _ => false

/-- The warning "queued packet dropped", by its fields `dst` and `e`. -/
abbrev Report := Ipv4Addr × EngineError

/-- What a flush reports about the call, namely that it has returned `Err`. -/
def InnerCall.report (call : InnerCall) : Option Report :=
  match call.effect.outcome with
  | .error (.err e) => if call.flushed then some (call.outbound.2, e) else none
  | .error (.panic _) => none
  | .ok _ => none

/-- The packet was in the queue, and a flush has reported that it is dropped. -/
def InnerCall.dropped (call : InnerCall) : Bool := call.report.isSome

namespace InnerCall

/-- A packet is handed over exactly by a call that returns `Ok`. -/
theorem handed_iff (call : InnerCall) : call.handed = true ↔ call.effect.outcome = .ok () := by
  rw [handed, effect, TunnelEngine.sendToPeerInner]
  cases call.engine.peers.find? fun peer => peer.2.vip = call.outbound.2 with
  | none => exact iff_of_false Bool.noConfusion (fun h => by cases h)
  | some peer =>
      simp only [Effect.bind_eq_ok_iff, Effect.mapErr_eq_ok_iff]
      cases (peer.2.relay.send call.net call.outbound.1).outcome with
      | ok n => exact iff_of_true rfl ⟨n, rfl, rfl⟩
      | error fault =>
          refine iff_of_false Bool.noConfusion ?_
          rintro ⟨_, h, _⟩
          cases h

/-- Whether the packet is handed over, by how the call ends. -/
theorem handed_eq (call : InnerCall) :
    call.handed = match call.effect.outcome with
      | .ok _ => true
      | .error _ => false := by
  have hiff := call.handed_iff
  cases houtcome : call.effect.outcome with
  | ok _ => exact hiff.mpr houtcome
  | error fault =>
      rw [houtcome] at hiff
      exact Bool.eq_false_iff.mpr fun h => by cases hiff.mp h

/-- Only a flush reports a packet as dropped. -/
theorem report_of_not_flushed {call : InnerCall} (h : call.flushed = false) :
    call.report = none := by
  unfold report
  cases call.effect.outcome with
  | ok _ => rfl
  | error fault =>
      cases fault with
      | err e => exact if_neg (by rw [h]; exact Bool.false_ne_true)
      | panic message => rfl

theorem handed_and_not_panicked (call : InnerCall) :
    (call.handed && !call.panicked) = call.handed := by
  rw [handed_eq, panicked]
  cases call.effect.outcome with
  | ok _ => rfl
  | error fault => rfl

/-- What a flush neither hands over nor panics at is dropped. -/
theorem not_handed_and_not_panicked {call : InnerCall} (h : call.flushed = true) :
    (!call.handed && !call.panicked) = call.dropped := by
  rw [handed_eq, panicked, dropped, report, h]
  cases call.effect.outcome with
  | ok _ => rfl
  | error fault =>
      cases fault with
      | err e => rfl
      | panic message => rfl

end InnerCall

/-- What a call does, with the drops that it reports. -/
structure LoggedEffect (α : Type) extends Effect EngineError α where
  reports : List Report

namespace TunnelEngine

/-- There is a peer with the address. -/
def HasRoute (engine : TunnelEngine) (dst : Ipv4Addr) : Prop :=
  ∃ peer ∈ engine.peers, peer.2.vip = dst

/-- The packet fits into a frame, or there is nobody to send it to. -/
def Fits (engine : TunnelEngine) (outbound : Outbound) : Prop :=
  engine.HasRoute outbound.2 → outbound.1.length ≤ maxPayload

/-- A call of `send_to_peer_inner` by the engine. -/
def innerCall (net : Network) (engine : TunnelEngine) (flushed : Bool) (outbound : Outbound) :
    InnerCall := { net, engine, flushed, outbound }

/-- The flush of `reconnect` where each send has an answer of its own. -/
def flushOver (nets : Nat → Network) (engine : TunnelEngine) :
    List Outbound → LoggedEffect Unit
  | [] => { sent := [], outcome := .ok (), reports := [] }
  | (packet, dst) :: rest =>
    let inner := engine.sendToPeerInner (nets 0) packet dst
    match inner.outcome with
    | .error (.panic message) =>
      { sent := inner.sent, outcome := .error (.panic message), reports := [] }
    | .error (.err e) =>
      let later := flushOver (fun i => nets (i + 1)) engine rest
      { sent := inner.sent ++ later.sent
        outcome := later.outcome
        reports := (dst, e) :: later.reports }
    | .ok _ =>
      let later := flushOver (fun i => nets (i + 1)) engine rest
      { later with sent := inner.sent ++ later.sent }

/-- The calls that the flush makes; none follows one that panics. -/
def flushCalls (nets : Nat → Network) (engine : TunnelEngine) : List Outbound → List InnerCall
  | [] => []
  | outbound :: rest =>
    let call := engine.innerCall (nets 0) true outbound
    if call.panicked then [call] else call :: flushCalls (fun i => nets (i + 1)) engine rest

/-- With one answer for equal datagrams this is the flush of `reconnect`. -/
theorem flushOver_const (net : Network) (engine : TunnelEngine) (queue : List Outbound) :
    (flushOver (fun _ => net) engine queue).toEffect = engine.flush net queue := by
  induction queue with
  | nil => rfl
  | cons outbound rest ih =>
      rw [flushOver, flush, ← ih]
      cases houtcome : (engine.sendToPeerInner net outbound.1 outbound.2).outcome with
      | ok _ => simp [houtcome, Effect.discard, bind]
      | error fault =>
          cases fault with
          | err e => simp [houtcome, Effect.discard, bind]
          | panic message => simp [houtcome, Effect.discard, bind]

/-! ## One call -/

variable {net : Network} {engine : TunnelEngine} {outbound : Outbound}

theorem find?_isSome_iff_hasRoute {dst : Ipv4Addr} :
    (engine.peers.find? fun peer => peer.2.vip = dst).isSome = true ↔ engine.HasRoute dst := by
  simp [HasRoute]

/-- A call sends through the relay client of a peer with the address and returns what that
    returns, panics when the packet is too long for it, or finds no peer. -/
theorem innerCall_cases (net : Network) (engine : TunnelEngine) (flushed : Bool)
    (outbound : Outbound) :
    (engine.HasRoute outbound.2 ∧ outbound.1.length ≤ maxPayload ∧
      ((engine.innerCall net flushed outbound).effect.outcome = .ok () ∨
        ∃ e, (engine.innerCall net flushed outbound).effect.outcome = .error (.err e))) ∨
    (engine.HasRoute outbound.2 ∧ maxPayload < outbound.1.length ∧
      (engine.innerCall net flushed outbound).effect.outcome =
        .error (.panic "payload fits")) ∨
    (¬ engine.HasRoute outbound.2 ∧
      ∃ e, (engine.innerCall net flushed outbound).effect.outcome = .error (.err e)) := by
  rw [← find?_isSome_iff_hasRoute]
  unfold innerCall InnerCall.effect sendToPeerInner
  dsimp only
  cases engine.peers.find? fun peer => peer.2.vip = outbound.2 with
  | none => exact Or.inr (Or.inr ⟨by simp, _, rfl⟩)
  | some peer =>
      dsimp only
      rcases Nat.lt_or_ge maxPayload outbound.1.length with hlong | hshort
      · refine Or.inr (Or.inl ⟨rfl, hlong, ?_⟩)
        rw [RelayClient.send_of_lt net peer.2.relay hlong]
        rfl
      · refine Or.inl ⟨rfl, hshort, ?_⟩
        have hencode := RelayFrame.encode_of_le (show (RelayFrame.data peer.2.relay.ourId
          peer.2.relay.peerId outbound.1).payload.length ≤ maxPayload from hshort)
        rw [RelayClient.send, hencode, Effect.expect_ok_bind]
        generalize Datagram.mk _ _ _ = datagram
        cases hnet : net datagram with
        | ok n => exact Or.inl (Effect.bind_eq_ok_iff.mpr ⟨n, by simp [hnet], rfl⟩)
        | error e =>
            refine Or.inr ⟨.io e, ?_⟩
            rw [Effect.bind_error (show ((Effect.sendTo net datagram).mapErr EngineError.io).outcome =
              .error (.err (.io e)) by rw [Effect.mapErr, Effect.sendTo, hnet]; rfl)]

/-- A call panics exactly when its packet does not fit. -/
theorem panicked_innerCall_iff {flushed : Bool} :
    (engine.innerCall net flushed outbound).panicked = true ↔ ¬ engine.Fits outbound := by
  unfold InnerCall.panicked Fits
  obtain ⟨-, hfits, hok | ⟨e, herr⟩⟩ | ⟨hroute, hlong, hpanic⟩ | ⟨hroute, e, herr⟩ :=
    innerCall_cases net engine flushed outbound
  · simp [hok, hfits]
  · simp [herr, hfits]
  · simp [hpanic, hroute, hlong]
  · simp [herr, hroute]

/-- A call returns exactly when its packet fits. -/
theorem returned_innerCall_iff {flushed : Bool} :
    (engine.innerCall net flushed outbound).panicked = false ↔ engine.Fits outbound := by
  rw [← Bool.not_eq_true, panicked_innerCall_iff, not_not]

/-- A call for a packet that is too long panics or, without a peer, returns `Err`. -/
theorem err_of_not_panicked {flushed : Bool}
    (h : (engine.innerCall net flushed outbound).panicked = false)
    (hlong : maxPayload < outbound.1.length) :
    ∃ e, (engine.innerCall net flushed outbound).effect.outcome = .error (.err e) := by
  obtain ⟨-, hfits, -⟩ | ⟨-, -, hpanic⟩ | ⟨-, herr⟩ := innerCall_cases net engine flushed outbound
  · exact absurd hlong (Nat.not_lt.mpr hfits)
  · rw [InnerCall.panicked, hpanic] at h
    cases h
  · exact herr

/-! ## A flush -/

theorem flushCalls_of_fits (nets : Nat → Network) (h : engine.Fits outbound)
    (rest : List Outbound) :
    engine.flushCalls nets (outbound :: rest) = engine.innerCall (nets 0) true outbound ::
      engine.flushCalls (fun i => nets (i + 1)) rest :=
  if_neg fun hpanicked => panicked_innerCall_iff.mp hpanicked h

theorem flushCalls_of_not_fits (nets : Nat → Network) (h : ¬ engine.Fits outbound)
    (rest : List Outbound) :
    engine.flushCalls nets (outbound :: rest) = [engine.innerCall (nets 0) true outbound] :=
  if_pos (panicked_innerCall_iff.mpr h)

/-- Every call of a flush is one by the engine that flushes. -/
theorem mem_flushCalls {nets : Nat → Network} {queue : List Outbound} {call : InnerCall}
    (h : call ∈ engine.flushCalls nets queue) :
    ∃ net, ∃ outbound ∈ queue, call = engine.innerCall net true outbound := by
  induction queue generalizing nets with
  | nil => cases h
  | cons outbound rest ih =>
      by_cases hfits : engine.Fits outbound
      · rw [flushCalls_of_fits nets hfits] at h
        rcases List.mem_cons.mp h with rfl | hrest
        · exact ⟨_, outbound, List.mem_cons_self, rfl⟩
        · obtain ⟨net, other, hother, hcall⟩ := ih hrest
          exact ⟨net, other, List.mem_cons_of_mem _ hother, hcall⟩
      · rw [flushCalls_of_not_fits nets hfits] at h
        exact ⟨_, outbound, List.mem_cons_self, List.mem_singleton.mp h⟩

/-- When every queued packet fits, a flush makes one call for each, in order. -/
theorem outbound_flushCalls (nets : Nat → Network) {queue : List Outbound}
    (h : ∀ outbound ∈ queue, engine.Fits outbound) :
    (engine.flushCalls nets queue).map InnerCall.outbound = queue := by
  induction queue generalizing nets with
  | nil => rfl
  | cons outbound rest ih =>
      obtain ⟨hfirst, hrest⟩ := List.forall_mem_cons.mp h
      rw [flushCalls_of_fits nets hfirst, List.map_cons, ih _ hrest]
      rfl

/-- The calls of a flush are for the first of the queued packets. -/
theorem outbound_flushCalls_isPrefix (nets : Nat → Network) (engine : TunnelEngine)
    (queue : List Outbound) :
    (engine.flushCalls nets queue).map InnerCall.outbound <+: queue := by
  induction queue generalizing nets with
  | nil => exact List.prefix_refl _
  | cons outbound rest ih =>
      by_cases hfits : engine.Fits outbound
      · rw [flushCalls_of_fits nets hfits]
        exact List.cons_prefix_cons.mpr ⟨rfl, ih _⟩
      · rw [flushCalls_of_not_fits nets hfits]
        exact List.prefix_append [outbound] rest

/-- No call of a flush panics exactly when every queued packet fits. -/
theorem panicked_flushCalls_iff (nets : Nat → Network) (queue : List Outbound) :
    (∀ call ∈ engine.flushCalls nets queue, call.panicked = false) ↔
      ∀ outbound ∈ queue, engine.Fits outbound := by
  induction queue generalizing nets with
  | nil => exact iff_of_true (fun _ h => by cases h) (fun _ h => by cases h)
  | cons outbound rest ih =>
      by_cases hfits : engine.Fits outbound
      · rw [flushCalls_of_fits nets hfits, List.forall_mem_cons, List.forall_mem_cons]
        exact and_congr returned_innerCall_iff (ih _)
      · rw [flushCalls_of_not_fits nets hfits, List.forall_mem_singleton,
          returned_innerCall_iff, List.forall_mem_cons]
        exact iff_of_false hfits fun h => hfits h.1

/-- One round of a flush: a call that returns is followed by the rest, and a panic ends it. -/
theorem flushOver_cons (nets : Nat → Network) (engine : TunnelEngine) (outbound : Outbound)
    (rest : List Outbound) :
    let call := engine.innerCall (nets 0) true outbound
    let later := engine.flushOver (fun i => nets (i + 1)) rest
    (call.panicked = false ∧ engine.flushOver nets (outbound :: rest) = {
        sent := call.effect.sent ++ later.sent
        outcome := later.outcome
        reports := call.report.toList ++ later.reports }) ∨
    call.panicked = true ∧ call.report = none ∧ ∃ message,
      engine.flushOver nets (outbound :: rest) = {
        sent := call.effect.sent, outcome := .error (.panic message), reports := [] } := by
  intro call later
  have heffect : engine.sendToPeerInner (nets 0) outbound.1 outbound.2 = call.effect := rfl
  have hflushed : call.flushed = true := rfl
  rw [flushOver, heffect, InnerCall.panicked, InnerCall.report, hflushed]
  cases call.effect.outcome with
  | ok _ => exact Or.inl ⟨rfl, rfl⟩
  | error fault =>
      cases fault with
      | err e => exact Or.inl ⟨rfl, rfl⟩
      | panic message => exact Or.inr ⟨rfl, rfl, message, rfl⟩

/-- What a flush sends and reports is what its calls send and report. It returns `Ok` when
    none of them panics, and never `Err`. -/
theorem flushOver_eq (nets : Nat → Network) (engine : TunnelEngine) (queue : List Outbound) :
    (engine.flushOver nets queue).sent =
        (engine.flushCalls nets queue).flatMap (fun call => call.effect.sent) ∧
      (engine.flushOver nets queue).reports =
        (engine.flushCalls nets queue).filterMap InnerCall.report ∧
      (((∀ outbound ∈ queue, engine.Fits outbound) ∧
          (engine.flushOver nets queue).outcome = .ok ()) ∨
        ((¬ ∀ outbound ∈ queue, engine.Fits outbound) ∧
          ∃ message, (engine.flushOver nets queue).outcome = .error (.panic message))) := by
  induction queue generalizing nets with
  | nil => exact ⟨rfl, rfl, Or.inl ⟨fun _ h => (by cases h), rfl⟩⟩
  | cons outbound rest ih =>
      obtain ⟨hsent, hreports, houtcome⟩ := ih fun i => nets (i + 1)
      rw [List.forall_mem_cons]
      rcases flushOver_cons nets engine outbound rest with
        ⟨hreturned, hflush⟩ | ⟨hpanicked, hnone, message, hflush⟩
      · have hfits := returned_innerCall_iff.mp hreturned
        rw [hflush, flushCalls_of_fits nets hfits, List.flatMap_cons, ← hsent]
        refine ⟨rfl, ?_, ?_⟩
        · dsimp only
          rw [hreports, List.filterMap_cons]
          cases (engine.innerCall (nets 0) true outbound).report with
          | none => rfl
          | some report => rfl
        · rwa [and_iff_right hfits]
      · have hlong := panicked_innerCall_iff.mp hpanicked
        rw [hflush, flushCalls_of_not_fits nets hlong]
        refine ⟨by simp, ?_, Or.inr ⟨fun h => hlong h.1, message, rfl⟩⟩
        rw [List.filterMap_cons_none hnone, List.filterMap_nil]

/-! ## A reconnection -/

/-- The engine while a reconnection registers its peers. -/
def offline (engine : TunnelEngine) : TunnelEngine := { engine with state := .reconnecting }

/-- The engine that has its peers again and takes its packets from the queue. -/
def online (engine : TunnelEngine) : TunnelEngine :=
  { engine with state := .connected, outboundQueue := [] }

/-- `TunnelEngine::reconnect` where each send of the flush has an answer of its own. -/
def reconnectOver (net : Network) (nets : Nat → Network) (order : PeerOrder)
    (bound : Uuid → Except IoError SocketAddr) (response : Except String (List PeerInfo))
    (engine : TunnelEngine) : LoggedEffect Unit × TunnelEngine :=
  match response with
  | .error e => ({ Effect.fail (.message e) with reports := [] }, engine.offline)
  | .ok peers =>
    let registered := registerPeers net order bound false engine.offline peers
    match registered.1.outcome with
    | .error fault =>
      ({ sent := registered.1.sent, outcome := .error fault, reports := [] }, registered.2)
    | .ok _ =>
      let flushed := registered.2.online.flushOver nets registered.2.outboundQueue
      ({ flushed with sent := registered.1.sent ++ flushed.sent }, registered.2.online)

/-- The calls of `send_to_peer_inner` in a reconnection: those of its flush, if it gets
    there. -/
def reconnectCalls (net : Network) (nets : Nat → Network) (order : PeerOrder)
    (bound : Uuid → Except IoError SocketAddr) (response : Except String (List PeerInfo))
    (engine : TunnelEngine) : List InnerCall :=
  match response with
  | .error _ => []
  | .ok peers =>
    let registered := registerPeers net order bound false engine.offline peers
    match registered.1.outcome with
    | .error _ => []
    | .ok _ => registered.2.online.flushCalls nets registered.2.outboundQueue

/-- If the reconnection gets to its flush, then every queued packet fits by the peer map
    that it has then. -/
def FlushFits (net : Network) (order : PeerOrder) (bound : Uuid → Except IoError SocketAddr)
    (response : Except String (List PeerInfo)) (engine : TunnelEngine) : Prop :=
  ∀ peers, response = .ok peers →
    (∃ n, (registerPeers net order bound false engine.offline peers).1.outcome = .ok n) →
    ∀ outbound ∈ engine.outboundQueue,
      (registerPeers net order bound false engine.offline peers).2.Fits outbound

theorem reconnectOver_const (net : Network) (order : PeerOrder)
    (bound : Uuid → Except IoError SocketAddr) (response : Except String (List PeerInfo))
    (engine : TunnelEngine) :
    ((engine.reconnectOver net (fun _ => net) order bound response).1.toEffect,
        (engine.reconnectOver net (fun _ => net) order bound response).2) =
      engine.reconnect net order bound response := by
  cases response with
  | error e => rfl
  | ok peers =>
      simp only [reconnectOver, reconnect, ← flushOver_const]
      change _ = match (registerPeers net order bound false engine.offline peers).1.outcome with
        | .error fault => _
        | .ok _ => _
      cases (registerPeers net order bound false engine.offline peers).1.outcome with
      | error fault => rfl
      | ok n => rfl

/-- A registration returns. -/
theorem register_outcome (net : Network) (bound : Except IoError SocketAddr)
    (relayAddr : SocketAddr) (ourId peerId : PeerId) :
    (∃ client, (RelayClient.register net bound relayAddr ourId peerId).outcome = .ok client) ∨
      ∃ e, (RelayClient.register net bound relayAddr ourId peerId).outcome = .error (.err e) := by
  cases bound with
  | error e => exact Or.inr ⟨e, rfl⟩
  | ok socket =>
      rw [RelayClient.register_eq]
      cases net ⟨socket, relayAddr, RelayFrame.helloBytes ourId⟩ with
      | ok n => exact Or.inl ⟨_, rfl⟩
      | error e => exact Or.inr ⟨e, rfl⟩

/-- The registrations change nothing but the peer map, and they return. -/
theorem registerPeers_frame (net : Network) (order : PeerOrder)
    (bound : Uuid → Except IoError SocketAddr) (skipKnown : Bool) (engine : TunnelEngine)
    (infos : List PeerInfo) :
    ((registerPeers net order bound skipKnown engine infos).2.state = engine.state ∧
      (registerPeers net order bound skipKnown engine infos).2.outboundQueue =
        engine.outboundQueue) ∧
    ((∃ n, (registerPeers net order bound skipKnown engine infos).1.outcome = .ok n) ∨
      ∃ e, (registerPeers net order bound skipKnown engine infos).1.outcome =
        .error (.err e)) := by
  induction infos generalizing engine with
  | nil => exact ⟨⟨rfl, rfl⟩, Or.inl ⟨0, rfl⟩⟩
  | cons p rest ih =>
      rw [registerPeers]
      split
      · exact ih engine
      cases Ipv4Addr.parse p.ipv4 with
      | none => exact ⟨⟨rfl, rfl⟩, Or.inr ⟨_, rfl⟩⟩
      | some vip =>
          dsimp only
          rcases register_outcome net (bound p.deviceId) engine.relayServer
            (relayIdOf engine.ourId) (relayIdOf p.deviceId) with ⟨client, hok⟩ | ⟨e, herr⟩
          · rw [hok]
            obtain ⟨hframe, ⟨n, hn⟩ | ⟨e, he⟩⟩ :=
              ih (engine.insertPeer order p.deviceId { vip, relay := client })
            · exact ⟨hframe, Or.inl ⟨n + 1, by dsimp only; rw [hn]; rfl⟩⟩
            · exact ⟨hframe, Or.inr ⟨e, by dsimp only; rw [he]; rfl⟩⟩
          · rw [herr]
            exact ih engine

section Registered

variable {order : PeerOrder} {bound : Uuid → Except IoError SocketAddr} {peers : List PeerInfo}

/-- A reconnection whose registrations fail does nothing more. -/
theorem reconnectOver_of_err {e : EngineError} (nets : Nat → Network)
    (h : (registerPeers net order bound false engine.offline peers).1.outcome =
      .error (.err e)) :
    engine.reconnectOver net nets order bound (.ok peers) =
        ({ sent := (registerPeers net order bound false engine.offline peers).1.sent
           outcome := .error (.err e)
           reports := [] },
          (registerPeers net order bound false engine.offline peers).2) ∧
      engine.reconnectCalls net nets order bound (.ok peers) = [] ∧
      engine.FlushFits net order bound (.ok peers) := by
  refine ⟨by simp only [reconnectOver, h], by simp only [reconnectCalls, h], ?_⟩
  intro peers' hpeers hreturned
  obtain rfl := Except.ok.inj hpeers
  obtain ⟨n, hn⟩ := hreturned
  rw [h] at hn
  cases hn

/-- Otherwise it flushes the queue that there was before. -/
theorem reconnectOver_of_ok {n : Nat} (nets : Nat → Network)
    (h : (registerPeers net order bound false engine.offline peers).1.outcome = .ok n) :
    engine.reconnectOver net nets order bound (.ok peers) =
        ({ (registerPeers net order bound false engine.offline peers).2.online.flushOver nets
              engine.outboundQueue with
            sent := (registerPeers net order bound false engine.offline peers).1.sent ++
              ((registerPeers net order bound false engine.offline peers).2.online.flushOver nets
                engine.outboundQueue).sent },
          (registerPeers net order bound false engine.offline peers).2.online) ∧
      engine.reconnectCalls net nets order bound (.ok peers) =
        (registerPeers net order bound false engine.offline peers).2.online.flushCalls nets
          engine.outboundQueue := by
  have hqueue : (registerPeers net order bound false engine.offline peers).2.outboundQueue =
      engine.outboundQueue :=
    (registerPeers_frame net order bound false engine.offline peers).1.2
  constructor
  · simp only [reconnectOver, h, hqueue]
  · simp only [reconnectCalls, h, hqueue]

theorem flushFits_iff_of_ok {n : Nat}
    (h : (registerPeers net order bound false engine.offline peers).1.outcome = .ok n) :
    engine.FlushFits net order bound (.ok peers) ↔ ∀ outbound ∈ engine.outboundQueue,
      (registerPeers net order bound false engine.offline peers).2.Fits outbound := by
  refine ⟨fun hfits => hfits peers rfl ⟨n, h⟩, ?_⟩
  intro hfits peers' hpeers _
  obtain rfl := Except.ok.inj hpeers
  exact hfits

end Registered

/-- What a reconnection does: it fails with the queue as it was, or it flushes the queue
    and returns exactly if every packet fits. -/
theorem reconnectOver_cases (net : Network) (nets : Nat → Network) (order : PeerOrder)
    (bound : Uuid → Except IoError SocketAddr) (response : Except String (List PeerInfo))
    (engine : TunnelEngine) :
    ((∃ e, (engine.reconnectOver net nets order bound response).1.outcome = .error (.err e)) ∧
      (engine.reconnectOver net nets order bound response).2.state = .reconnecting ∧
      (engine.reconnectOver net nets order bound response).2.outboundQueue =
        engine.outboundQueue ∧
      engine.reconnectCalls net nets order bound response = [] ∧
      engine.FlushFits net order bound response) ∨
    ((engine.reconnectOver net nets order bound response).2.state = .connected ∧
      (engine.reconnectOver net nets order bound response).2.outboundQueue = [] ∧
      engine.reconnectCalls net nets order bound response =
        (engine.reconnectOver net nets order bound response).2.flushCalls nets
          engine.outboundQueue ∧
      (engine.FlushFits net order bound response ↔ ∀ outbound ∈ engine.outboundQueue,
        (engine.reconnectOver net nets order bound response).2.Fits outbound) ∧
      (engine.FlushFits net order bound response ∧
          (engine.reconnectOver net nets order bound response).1.outcome = .ok () ∨
        ¬ engine.FlushFits net order bound response ∧ ∃ message,
          (engine.reconnectOver net nets order bound response).1.outcome =
            .error (.panic message))) := by
  cases response with
  | error e => exact Or.inl ⟨⟨_, rfl⟩, rfl, rfl, rfl, fun _ h => by cases h⟩
  | ok peers =>
      obtain ⟨⟨hstate, hqueue⟩, ⟨n, hok⟩ | ⟨e, herr⟩⟩ :=
        registerPeers_frame net order bound false engine.offline peers
      · obtain ⟨hreconnect, hcalls⟩ := reconnectOver_of_ok nets hok
        have hfits := flushFits_iff_of_ok hok
        rw [hreconnect]
        refine Or.inr ⟨rfl, rfl, hcalls, hfits, ?_⟩
        rw [hfits]
        exact (flushOver_eq nets
          (registerPeers net order bound false engine.offline peers).2.online
          engine.outboundQueue).2.2
      · obtain ⟨hreconnect, hnone, hfits⟩ := reconnectOver_of_err nets herr
        rw [hreconnect]
        exact Or.inl ⟨⟨e, rfl⟩, hstate, hqueue, hnone, hfits⟩

/-- The registrations send nothing but HELLO frames. -/
theorem sent_registerPeers (net : Network) (order : PeerOrder)
    (bound : Uuid → Except IoError SocketAddr) (skipKnown : Bool) (engine : TunnelEngine)
    (infos : List PeerInfo) {datagram : Datagram}
    (h : datagram ∈ (registerPeers net order bound skipKnown engine infos).1.sent) :
    datagram.payload = RelayFrame.helloBytes (relayIdOf engine.ourId) := by
  induction infos generalizing engine with
  | nil => cases h
  | cons p rest ih =>
      rw [registerPeers] at h
      split at h
      · exact ih engine h
      cases hparse : Ipv4Addr.parse p.ipv4 with
      | none =>
          rw [hparse] at h
          cases h
      | some vip =>
          rw [hparse] at h
          dsimp only at h
          cases hbound : bound p.deviceId with
          | error e =>
              rw [hbound] at h
              exact ih engine h
          | ok socket =>
              rw [hbound, RelayClient.register_eq] at h
              dsimp only at h
              cases hnet : net ⟨socket, engine.relayServer,
                  RelayFrame.helloBytes (relayIdOf engine.ourId)⟩ with
              | ok n =>
                  rw [hnet] at h
                  rcases List.mem_append.mp h with hfirst | hrest
                  · rw [List.mem_singleton.mp hfirst]
                  · exact ih (engine.insertPeer order p.deviceId _) hrest
              | error e =>
                  rw [hnet] at h
                  rcases List.mem_append.mp h with hfirst | hrest
                  · rw [List.mem_singleton.mp hfirst]
                  · exact ih engine hrest

/-- A reconnection sends HELLO frames, and then what its calls send; it reports what they
    report. -/
theorem sent_reconnectOver (net : Network) (nets : Nat → Network) (order : PeerOrder)
    (bound : Uuid → Except IoError SocketAddr) (response : Except String (List PeerInfo))
    (engine : TunnelEngine) :
    (∃ hellos, (∀ datagram ∈ hellos,
        datagram.payload = RelayFrame.helloBytes (relayIdOf engine.ourId)) ∧
      (engine.reconnectOver net nets order bound response).1.sent =
        hellos ++ (engine.reconnectCalls net nets order bound response).flatMap
          fun call => call.effect.sent) ∧
      (engine.reconnectOver net nets order bound response).1.reports =
        (engine.reconnectCalls net nets order bound response).filterMap InnerCall.report := by
  cases response with
  | error e => exact ⟨⟨[], fun _ h => (by cases h), rfl⟩, rfl⟩
  | ok peers =>
      have hhellos := fun datagram =>
        @sent_registerPeers net order bound false engine.offline peers datagram
      obtain ⟨-, ⟨n, hok⟩ | ⟨e, herr⟩⟩ :=
        registerPeers_frame net order bound false engine.offline peers
      · obtain ⟨hreconnect, hcalls⟩ := reconnectOver_of_ok nets hok
        obtain ⟨hsent, hreports, -⟩ := flushOver_eq nets
          (registerPeers net order bound false engine.offline peers).2.online engine.outboundQueue
        rw [hreconnect, hcalls, ← hsent]
        exact ⟨⟨_, hhellos, rfl⟩, hreports⟩
      · obtain ⟨hreconnect, hnone, -⟩ := reconnectOver_of_err nets herr
        rw [hreconnect, hnone]
        exact ⟨⟨_, hhellos, (List.append_nil _).symm⟩, rfl⟩

end TunnelEngine

end ConnectAlso.Mobile
