import ConnectAlso.Mobile.Flush

/-!
# The C interface of the mobile engine

`connectalso_send_packet` and `connectalso_reconnect` of `apps/mobile/src/ffi.rs`. They turn
an `Err` of the engine into -1; a panic would leave an `extern "C"` function and aborts the
process. Whether one of them can panic is decided three layers below, where the relay
client expects every packet to fit into a frame.
-/

namespace ConnectAlso.Mobile
open RelayProto

/-- How a C function answers: an `Err` is logged and becomes a value, a panic stays one. -/
def answer {ε α β : Type} (effect : Effect ε α) (onOk : α → β) (onErr : β) : Effect Empty β :=
  ⟨effect.sent, match effect.outcome with
    | .ok a => .ok (onOk a)
    | .error (.err _) => .ok onErr
    | .error (.panic message) => .error (.panic message)⟩

/-- `connectalso_send_packet`; a null pointer is `none`. The answer comes with what is
    written to the buffer. -/
def connectalsoSendPacket (net : Network) (engine : Option TunnelEngine) (now : Nat)
    (packet : Option (List UInt8)) (outBufLen : Option UInt32) :
    Effect Empty (Int32 × List UInt8) × Option TunnelEngine :=
  match packet, outBufLen with
  | some data, some outBufLen =>
    let (effect, engine) := engineSendPacket net engine now data
    (answer effect (fun result =>
      let len := min result.length outBufLen.toNat
      (Int32.ofNat len, result.take len)) (-1, []), engine)
  | _, _ => (return (-1, []), engine)

/-- `engine_reconnect` on the global engine. -/
def engineReconnect (net : Network) (nets : Nat → Network) (order : PeerOrder)
    (bound : Uuid → Except IoError SocketAddr) (response : Except String (List PeerInfo))
    (engine : Option TunnelEngine) : Effect EngineError Unit × Option TunnelEngine :=
  match engine with
  | none => (Effect.fail (.message "engine not initialized"), none)
  | some engine =>
    let (effect, engine) := engine.reconnectOver net nets order bound response
    (effect.toEffect, some engine)

/-- `connectalso_reconnect`. -/
def connectalsoReconnect (net : Network) (nets : Nat → Network) (order : PeerOrder)
    (bound : Uuid → Except IoError SocketAddr) (response : Except String (List PeerInfo))
    (engine : Option TunnelEngine) : Effect Empty Int32 × Option TunnelEngine :=
  let (effect, engine) := engineReconnect net nets order bound response engine
  (answer effect (fun _ => 0) (-1), engine)

/-- A call through the interface, with what the network answers. -/
inductive FfiCall where
  | sendPacket (net : Network) (now : Nat) (packet : Option (List UInt8))
      (outBufLen : Option UInt32)
  | reconnect (net : Network) (nets : Nat → Network) (order : PeerOrder)
      (bound : Uuid → Except IoError SocketAddr) (response : Except String (List PeerInfo))

/-- What `engine_send_packet` passes to `send_to_peer_inner` at once: a packet for another
    device while the engine is connected. -/
def TunnelEngine.sentOn (engine : TunnelEngine) (packet : List UInt8) : Option Outbound :=
  match parseDstIp packet with
  | none => none
  | some dst =>
    if dst = engine.ourIp then none
    else
      match engine.state with
      | .reconnecting => none
      | .connected => some (packet, dst)

namespace FfiCall

/-- The calls of `send_to_peer_inner` that a call through the interface makes. -/
def innerCalls (engine : Option TunnelEngine) : FfiCall → List InnerCall
  | .sendPacket net _ packet outBufLen =>
    match engine, packet, outBufLen with
    | some engine, some data, some _ =>
      (engine.sentOn data).toList.map (engine.innerCall net false)
    | _, _, _ => []
  | .reconnect net nets order bound response =>
    match engine with
    | some engine => engine.reconnectCalls net nets order bound response
    | none => []

/-- The answer of a call, if it does not panic. -/
def code (engine : Option TunnelEngine) : FfiCall → Except (Fault Empty) Int32
  | .sendPacket net now packet outBufLen =>
    (connectalsoSendPacket net engine now packet outBufLen).1.outcome.map Prod.fst
  | .reconnect net nets order bound response =>
    (connectalsoReconnect net nets order bound response engine).1.outcome

/-- The call returns, and a packet above the frame limit comes back as `Err` from
    `send_to_peer_inner`, which a packet that is sent at once turns into -1. While the engine
    reconnects, a packet of any length is queued and answered with 0: it counts in the
    `reconnect` that flushes it, whose answer does not depend on the `Err` of its sending. -/
def Returns (engine : Option TunnelEngine) (call : FfiCall) : Prop :=
  (∃ code, call.code engine = .ok code) ∧
    ∀ inner ∈ call.innerCalls engine, maxPayload < inner.outbound.1.length →
      (∃ e, inner.effect.outcome = .error (.err e)) ∧
        (inner.flushed = false → call.code engine = .ok (-1))

/-- Every packet that the call passes to `send_to_peer_inner` fits into a frame or has no
    peer to go to: the packet itself while connected, the queued ones in a flush. -/
def Fits (engine : Option TunnelEngine) : FfiCall → Prop
  | .sendPacket _ _ packet outBufLen =>
    ∀ e data, engine = some e → packet = some data → outBufLen.isSome = true →
      ∀ outbound, e.sentOn data = some outbound → e.Fits outbound
  | .reconnect net _ order bound response =>
    ∀ e, engine = some e → e.FlushFits net order bound response

end FfiCall

/-! ## Sending a packet -/

variable {net : Network} {engine : TunnelEngine} {now : Nat} {packet : List UInt8}

/-- A packet that is sent on at once makes the call do what `send_to_peer_inner` does. -/
theorem engineSendPacket_of_sentOn {outbound : Outbound} (h : engine.sentOn packet = some outbound) :
    (engineSendPacket net (some engine) now packet).1 =
      ((engine.innerCall net false outbound).effect >>= fun _ => return []) := by
  unfold TunnelEngine.sentOn at h
  unfold engineSendPacket
  cases hdst : parseDstIp packet with
  | none => rw [hdst] at h; cases h
  | some dst =>
      rw [hdst] at h
      dsimp only at h ⊢
      by_cases hself : dst = engine.ourIp
      · rw [if_pos hself] at h
        cases h
      · rw [if_neg hself] at h ⊢
        cases hstate : engine.state with
        | reconnecting => rw [hstate] at h; cases h
        | connected =>
            rw [hstate] at h
            obtain rfl := Option.some.inj h
            simp only [TunnelEngine.sendToPeer, TunnelEngine.markTraffic, hstate]
            rfl

/-- Otherwise the call returns without sending. -/
theorem engineSendPacket_of_not_sentOn (h : engine.sentOn packet = none) :
    (∃ result, (engineSendPacket net (some engine) now packet).1.outcome = .ok result) ∨
      ∃ e, (engineSendPacket net (some engine) now packet).1.outcome = .error (.err e) := by
  unfold TunnelEngine.sentOn at h
  unfold engineSendPacket
  cases hdst : parseDstIp packet with
  | none => exact Or.inr ⟨_, rfl⟩
  | some dst =>
      rw [hdst] at h
      dsimp only at h ⊢
      by_cases hself : dst = engine.ourIp
      · rw [if_pos hself]
        exact Or.inl ⟨_, rfl⟩
      · rw [if_neg hself] at h ⊢
        cases hstate : engine.state with
        | connected => rw [hstate] at h; cases h
        | reconnecting =>
            simp only [TunnelEngine.sendToPeer, TunnelEngine.markTraffic, hstate]
            refine Or.inl ⟨[], ?_⟩
            split
            · rfl
            · rfl

/-! ## Oversized packets -/

/-- The answer to a packet by what `engine_send_packet` comes to. -/
theorem code_sendPacket (net : Network) (engine : TunnelEngine) (now : Nat) (data : List UInt8)
    (outBufLen : UInt32) :
    (FfiCall.sendPacket net now (some data) (some outBufLen)).code (some engine) =
      match (engineSendPacket net (some engine) now data).1.outcome with
      | .ok result => .ok (Int32.ofNat (min result.length outBufLen.toNat))
      | .error (.err _) => .ok (-1)
      | .error (.panic message) => .error (.panic message) := by
  unfold FfiCall.code connectalsoSendPacket answer
  dsimp only
  cases (engineSendPacket net (some engine) now data).1.outcome with
  | ok result => rfl
  | error fault =>
      cases fault with
      | err e => rfl
      | panic message => rfl

/-- The answer to a packet that is sent on, by what `send_to_peer_inner` comes to. -/
theorem code_of_sentOn {data : List UInt8} {outBufLen : UInt32} {outbound : Outbound}
    (h : engine.sentOn data = some outbound) :
    ((∃ code, (FfiCall.sendPacket net now (some data) (some outBufLen)).code (some engine) =
        .ok code) ↔ (engine.innerCall net false outbound).panicked = false) ∧
      ∀ e, (engine.innerCall net false outbound).effect.outcome = .error (.err e) →
        (FfiCall.sendPacket net now (some data) (some outBufLen)).code (some engine) =
          .ok (-1) := by
  rw [code_sendPacket, engineSendPacket_of_sentOn h, InnerCall.panicked]
  cases houtcome : (engine.innerCall net false outbound).effect.outcome with
  | ok _ =>
      rw [Effect.bind_ok houtcome]
      exact ⟨iff_of_true ⟨_, rfl⟩ rfl, fun e he => by cases he⟩
  | error fault =>
      rw [Effect.bind_error houtcome]
      cases fault with
      | err e => exact ⟨iff_of_true ⟨_, rfl⟩ rfl, fun _ _ => rfl⟩
      | panic message =>
          refine ⟨iff_of_false ?_ Bool.noConfusion, fun e he => by cases he⟩
          rintro ⟨code, hcode⟩
          cases hcode

theorem innerCalls_sendPacket (net : Network) (engine : TunnelEngine) (now : Nat)
    (data : List UInt8) (outBufLen : UInt32) :
    (FfiCall.sendPacket net now (some data) (some outBufLen)).innerCalls (some engine) =
      (engine.sentOn data).toList.map (engine.innerCall net false) := rfl

theorem returns_sendPacket_iff {data : List UInt8} {outBufLen : UInt32} :
    (FfiCall.sendPacket net now (some data) (some outBufLen)).Returns (some engine) ↔
      ∀ outbound, engine.sentOn data = some outbound → engine.Fits outbound := by
  rw [FfiCall.Returns, innerCalls_sendPacket]
  cases hsent : engine.sentOn data with
  | none =>
      refine iff_of_true ⟨?_, fun inner hinner => by cases hinner⟩ (fun _ h => by cases h)
      rw [code_sendPacket]
      rcases engineSendPacket_of_not_sentOn hsent with ⟨result, hresult⟩ | ⟨e, he⟩
      · exact ⟨_, by rw [hresult]⟩
      · exact ⟨_, by rw [he]⟩
  | some outbound =>
      obtain ⟨hcode, herr⟩ := @code_of_sentOn net engine now data outBufLen outbound hsent
      have hfits := @TunnelEngine.returned_innerCall_iff net engine outbound false
      simp only [Option.toList_some, List.map_cons, List.map_nil, List.forall_mem_singleton, hcode,
        hfits, Option.some.injEq, forall_eq']
      refine ⟨And.left, fun h => ⟨h, fun hlong => ?_⟩⟩
      obtain ⟨e, he⟩ := TunnelEngine.err_of_not_panicked (hfits.mpr h) hlong
      exact ⟨⟨e, he⟩, fun _ => herr e he⟩

theorem returns_reconnect_iff {nets : Nat → Network} {order : PeerOrder}
    {bound : Uuid → Except IoError SocketAddr} {response : Except String (List PeerInfo)} :
    (FfiCall.reconnect net nets order bound response).Returns (some engine) ↔
      engine.FlushFits net order bound response := by
  have hcode : (FfiCall.reconnect net nets order bound response).code (some engine) =
      match (engine.reconnectOver net nets order bound response).1.outcome with
      | .ok _ => .ok 0
      | .error (.err _) => .ok (-1)
      | .error (.panic message) => .error (.panic message) := by
    unfold FfiCall.code connectalsoReconnect answer
    dsimp only [engineReconnect]
    cases (engine.reconnectOver net nets order bound response).1.outcome with
    | ok _ => rfl
    | error fault =>
        cases fault with
        | err e => rfl
        | panic message => rfl
  have hcalls : (FfiCall.reconnect net nets order bound response).innerCalls (some engine) =
      engine.reconnectCalls net nets order bound response := rfl
  rw [FfiCall.Returns, hcode, hcalls]
  rcases engine.reconnectOver_cases net nets order bound response with
    ⟨⟨e, herr⟩, -, -, hnone, hfits⟩ | ⟨-, -, hflush, hiff, ⟨hfits, hok⟩ | ⟨hlong, message, hpanic⟩⟩
  · rw [herr, hnone]
    exact iff_of_true ⟨⟨_, rfl⟩, fun inner hinner => by cases hinner⟩ hfits
  · rw [hok, hflush]
    refine iff_of_true ⟨⟨_, rfl⟩, fun inner hinner hinnerLong => ?_⟩ hfits
    have hreturned := (TunnelEngine.panicked_flushCalls_iff nets _).mpr (hiff.mp hfits) inner hinner
    obtain ⟨net', outbound, -, rfl⟩ := TunnelEngine.mem_flushCalls hinner
    exact ⟨TunnelEngine.err_of_not_panicked hreturned hinnerLong, fun h => by cases h⟩
  · rw [hpanic]
    refine iff_of_false ?_ hlong
    rintro ⟨⟨code, hcode⟩, -⟩
    cases hcode

/-- In every state of the engine, a call through the interface is as it should be exactly
    when what it passes on fits: an oversized packet for a known peer makes it panic. -/
theorem returns_iff_fits (engine : Option TunnelEngine) (call : FfiCall) :
    call.Returns engine ↔ call.Fits engine := by
  cases engine with
  | none =>
      refine iff_of_true ?_ ?_
      · cases call with
        | sendPacket net now packet outBufLen =>
            cases packet <;> cases outBufLen <;>
              exact ⟨⟨_, rfl⟩, fun inner hinner => by cases hinner⟩
        | reconnect net nets order bound response =>
            exact ⟨⟨_, rfl⟩, fun inner hinner => by cases hinner⟩
      · cases call with
        | sendPacket net now packet outBufLen => exact fun _ _ he => by cases he
        | reconnect net nets order bound response => exact fun _ he => by cases he
  | some engine =>
      cases call with
      | reconnect net nets order bound response =>
          rw [returns_reconnect_iff]
          exact ⟨fun h e he => Option.some.inj he ▸ h, fun h => h engine rfl⟩
      | sendPacket net now packet outBufLen =>
          cases packet with
          | none =>
              exact iff_of_true ⟨⟨_, rfl⟩, fun inner hinner => by cases hinner⟩
                fun _ _ _ hdata => by cases hdata
          | some data =>
              cases outBufLen with
              | none =>
                  exact iff_of_true ⟨⟨_, rfl⟩, fun inner hinner => by cases hinner⟩
                    fun _ _ _ _ hbuf => by cases hbuf
              | some outBufLen =>
                  rw [returns_sendPacket_iff]
                  simp only [FfiCall.Fits, Option.some.injEq, Option.isSome_some, forall_const,
                    forall_eq', forall_apply_eq_imp_iff]

/-- A connected engine with a peer at 10.0.0.2. -/
def enginePeer : TunnelEngine :=
  { TunnelEngine.new Uuid.nil ⟨10, 0, 0, 1⟩ (.localhost 33478) 0 with
    peers := [(Uuid.fromU128 2, {
      vip := ⟨10, 0, 0, 2⟩
      relay := {
        socket := .localhost 40000
        relayAddr := .localhost 33478
        ourId := Uuid.nil
        peerId := Uuid.fromU128 2 } })] }

/-- An IPv4 packet to the peer, one byte above the frame limit. -/
def jumboPacket : List UInt8 :=
  [0x45] ++ List.replicate 15 0 ++ [10, 0, 0, 2] ++ List.replicate 2029 0

/-- The packet makes `connectalso_send_packet` panic. -/
theorem jumboPacket_panics :
    ¬ (FfiCall.sendPacket Network.ideal 0 (some jumboPacket) (some 2048)).Returns
      (some enginePeer) := by
  rintro ⟨hreturns, -⟩
  have hsent : enginePeer.sentOn jumboPacket = some (jumboPacket, ⟨10, 0, 0, 2⟩) := by
    decide +kernel
  have hfits := TunnelEngine.returned_innerCall_iff.mp ((code_of_sentOn hsent).1.mp hreturns)
  have hlength := hfits ⟨_, List.mem_cons_self, rfl⟩
  exact absurd hlength (by decide +kernel)

end ConnectAlso.Mobile
