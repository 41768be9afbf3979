import Mathlib.Data.List.Forall2
import ConnectAlso.Relay.Server

/-!
# What the relay forwards

The purpose of the relay, without its table: a DATA frame goes to the source of the
latest HELLO or KEEPALIVE that was sent under its target id. `forwards` lists the frames
to be forwarded for a sequence of datagrams with the addresses they go to. The main loop
sends exactly these, as long as no DATA frame is too long to be encoded again.
-/

namespace ConnectAlso.Relay
open RelayProto

/-- The DATA frame in a datagram, with the address it goes to after the datagrams so far. -/
def forwardOf (past : List Datagram) (datagram : Datagram) : Option (SocketAddr × RelayFrame) :=
  match RelayFrame.decode (received datagram) with
  | .error _ => none
  | .ok frame =>
    if frame.msgType = .data then
      (latestRegistration past frame.targetId).map fun addr => (addr, frame)
    else none

/-- What is forwarded, in order of arrival, for datagrams that arrive after `past`. -/
def forwards : List Datagram → List Datagram → List (SocketAddr × RelayFrame)
  | _, [] => []
  | past, datagram :: rest =>
    (forwardOf past datagram).toList ++ forwards (past ++ [datagram]) rest

/-- The relay sends the frame to the address: the datagram decodes to the same sender,
    target and payload. -/
def Carries (listen : SocketAddr) (sent : Datagram) (forward : SocketAddr × RelayFrame) : Prop :=
  sent.src = listen ∧ sent.dst = forward.1 ∧
    RelayFrame.decode sent.payload =
      .ok (.data forward.2.senderId forward.2.targetId forward.2.payload)

/-- No DATA frame in the datagram is too long to be encoded again. -/
def Encodable (datagram : Datagram) : Prop :=
  ∀ frame, RelayFrame.decode (received datagram) = .ok frame → frame.msgType = .data →
    frame.payload.length ≤ maxPayload

/-- The datagram is undecodable or a DATA frame. -/
def RegistersNothing (datagram : Datagram) : Prop :=
  ∀ frame, RelayFrame.decode (received datagram) = .ok frame → frame.msgType = .data

theorem relayStep_registersNothing {listen : SocketAddr} {peers peers' : Peers}
    {datagram : Datagram} {sent : List Datagram} (hdatagram : RegistersNothing datagram)
    (h : relayStep listen peers datagram = .ok (peers', sent)) : peers' = peers := by
  cases hdecode : RelayFrame.decode (received datagram) with
  | error e =>
      rw [relayStep_undecodable hdecode] at h
      exact (Prod.mk.inj (Except.ok.inj h)).1.symm
  | ok frame => exact relayStep_data_peers hdecode (hdatagram frame hdecode) h

/-- An iteration after `past` sends the frame to be forwarded, if there is one, and goes
    on with the latest registrations. -/
theorem relayStep_forwardOf (listen : SocketAddr) (past : List Datagram) {datagram : Datagram}
    (hlen : Encodable datagram) :
    ∃ sent, relayStep listen (latestRegistration past) datagram =
        .ok (latestRegistration (past ++ [datagram]), sent) ∧
      List.Forall₂ (Carries listen) sent (forwardOf past datagram).toList := by
  have hok : ∀ peers' sent, relayStep listen (latestRegistration past) datagram =
      .ok (peers', sent) → peers' = latestRegistration (past ++ [datagram]) := by
    intro peers' sent h
    funext id
    rw [relayStep_peers h, latestRegistration_snoc]
  suffices hsent : ∃ peers' sent, relayStep listen (latestRegistration past) datagram =
      .ok (peers', sent) ∧ List.Forall₂ (Carries listen) sent (forwardOf past datagram).toList by
    obtain ⟨peers', sent, hstep, hcarries⟩ := hsent
    rw [hok peers' sent hstep] at hstep
    exact ⟨sent, hstep, hcarries⟩
  cases hdecode : RelayFrame.decode (received datagram) with
  | error e =>
      refine ⟨_, _, relayStep_undecodable hdecode, ?_⟩
      simp [forwardOf, hdecode]
  | ok frame =>
      by_cases htype : frame.msgType = .data
      · cases htarget : latestRegistration past frame.targetId with
        | none =>
            refine ⟨_, _, relayStep_data_none hdecode htype htarget, ?_⟩
            simp [forwardOf, hdecode, htype, htarget]
        | some addr =>
            have hshort : (RelayFrame.data frame.senderId frame.targetId
                frame.payload).payload.length ≤ maxPayload := hlen frame hdecode htype
            have hencode := RelayFrame.encode_of_le hshort
            have hsome := @relayStep_data_some listen _ _ _ _ hdecode htype htarget
            rw [hencode] at hsome
            refine ⟨_, _, hsome, ?_⟩
            simp only [forwardOf, hdecode, htype, htarget, if_true, Option.map_some,
              Option.toList_some, List.forall₂_cons, List.forall₂_nil_left_iff, and_true]
            refine ⟨rfl, rfl, ?_⟩
            simpa using RelayFrame.decode_encode hencode []
      · refine ⟨_, _, relayStep_register hdecode htype, ?_⟩
        simp [forwardOf, hdecode, htype]

/-- The main loop after `past` sends what is to be forwarded, in order. -/
theorem relayLoop_forwards (listen : SocketAddr) (past : List Datagram) {datagrams : List Datagram}
    (hlen : ∀ datagram ∈ datagrams, Encodable datagram) :
    ∃ sent, relayLoop listen (latestRegistration past) datagrams =
        .ok (latestRegistration (past ++ datagrams), sent) ∧
      List.Forall₂ (Carries listen) sent (forwards past datagrams) := by
  induction datagrams generalizing past with
  | nil =>
      refine ⟨[], ?_, List.Forall₂.nil⟩
      rw [List.append_nil, relayLoop]
  | cons datagram rest ih =>
      obtain ⟨first, hstep, hfirst⟩ :=
        relayStep_forwardOf listen past (hlen datagram List.mem_cons_self)
      obtain ⟨later, hrest, hlater⟩ := ih (past ++ [datagram]) fun other hother =>
        hlen other (List.mem_cons_of_mem _ hother)
      refine ⟨first ++ later, ?_, List.rel_append hfirst hlater⟩
      rw [relayLoop, hstep]
      simp only [hrest, List.append_assoc, List.singleton_append]

/-- For every sequence of datagrams without overlong DATA frames, the relay sends exactly
    one datagram for each DATA frame whose target has registered before, to the address of
    its latest registration, with the same sender, target and payload, in order of
    arrival; and a datagram that is no registration leaves the table as it is. -/
theorem relay_routes_exactly (listen : SocketAddr) (datagrams : List Datagram)
    (hlen : ∀ datagram ∈ datagrams, Encodable datagram) :
    (∃ sent, relayLoop listen noPeers datagrams = .ok (latestRegistration datagrams, sent) ∧
      List.Forall₂ (Carries listen) sent (forwards [] datagrams)) ∧
    ∀ peers peers' datagram sent, RegistersNothing datagram →
      relayStep listen peers datagram = .ok (peers', sent) → peers' = peers := by
  refine ⟨relayLoop_forwards listen [] hlen, ?_⟩
  intro peers peers' datagram sent
  exact relayStep_registersNothing

/-- A datagram that is no longer than a full frame. -/
theorem encodable_of_length_le {datagram : Datagram}
    (h : datagram.payload.length ≤ headerLen + maxPayload) : Encodable datagram := by
  intro frame hdecode _
  have hle := (RelayFrame.of_decode hdecode).2.length_le
  rw [RelayFrame.length_wireBytes, received, List.length_take] at hle
  omega

/-- A HELLO, and a DATA frame from elsewhere for the id it registers. -/
def helloThenData : List Datagram :=
  let relay := SocketAddr.localhost 33478
  [⟨SocketAddr.localhost 40000, relay, RelayFrame.helloBytes Uuid.nil⟩,
    ⟨SocketAddr.localhost 40001, relay, (RelayFrame.data Uuid.nil Uuid.nil [7]).wireBytes⟩]

/-- The relay sends one datagram for the two. -/
theorem helloThenData_forwarded :
    (forwards [] helloThenData).length = 1 ∧
      ∃ sent, relayLoop (SocketAddr.localhost 33478) noPeers helloThenData =
          .ok (latestRegistration helloThenData, sent) ∧
        List.Forall₂ (Carries (SocketAddr.localhost 33478)) sent (forwards [] helloThenData) := by
  refine ⟨by decide +kernel, (relay_routes_exactly _ _ ?_).1⟩
  have hshort : ∀ datagram ∈ helloThenData, datagram.payload.length ≤ headerLen + maxPayload := by
    decide +kernel
  intro datagram hdatagram
  exact encodable_of_length_le (hshort datagram hdatagram)

end ConnectAlso.Relay
