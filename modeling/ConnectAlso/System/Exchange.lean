import ConnectAlso.Misc.Datagrams
import ConnectAlso.Relay.Server
import ConnectAlso.Tunnel.RelayClient

/-!
# Packets through the relay

Any number of devices with a client for each other device, one relay, and between them a
network that loses, doubles and reorders datagrams as it likes. Clients register, send
keepalives and packets in any order, and the relay can be restarted at any time. A client
does not look at the target of a frame it takes, and the relay does not look at who sends
it; that nothing is misdelivered rests on the sockets of the clients being different.
-/

namespace ConnectAlso.System
open Misc RelayProto Relay

/-- Devices, and the address of the socket of one device's client for another. -/
structure Fleet (ι : Type) where
  id : ι → Uuid
  relayAddr : SocketAddr
  socket : ι → ι → SocketAddr
  id_injective : Function.Injective id
  socket_injective : ∀ p q p' q', socket p q = socket p' q' → p = p' ∧ q = q'
  socket_ne_relay : ∀ p q, socket p q ≠ relayAddr

/-- The relay's table, if it runs, what has arrived at it since it was started, what has
    arrived at each socket, and the calls of `send` so far. -/
structure Relayed (ι : Type) where
  peers : Peers
  running : Bool
  arrived : List Datagram
  inbox : SocketAddr → List Datagram
  sends : List (ι × ι × List UInt8)

/-- What the clients of the first device for the second one can do, and a restart of the
    relay. -/
inductive RelayAct (ι : Type) where
  | register (p q : ι)
  | keepalive (p q : ι)
  | send (p q : ι) (payload : List UInt8)
  | restart

namespace Fleet
variable {ι : Type}

/-- The client of `p` for `q`. -/
def client (fleet : Fleet ι) (p q : ι) : RelayClient where
  socket := fleet.socket p q
  relayAddr := fleet.relayAddr
  ourId := fleet.id p
  peerId := fleet.id q

/-- An action, and the datagrams that it hands to the network. -/
def act (fleet : Fleet ι) (s : Relayed ι) : RelayAct ι → Relayed ι × List Datagram
  | .register p q => (s, (RelayClient.register Network.ideal (.ok (fleet.socket p q))
      fleet.relayAddr (fleet.id p) (fleet.id q)).sent)
  | .keepalive p q => (s, ((fleet.client p q).keepalive Network.ideal).sent)
  | .send p q payload =>
    ({ s with sends := s.sends ++ [(p, q, payload)] },
      ((fleet.client p q).send Network.ideal payload).sent)
  | .restart => ({ s with peers := noPeers, running := true, arrived := [] }, [])

/-- A datagram arrives at the relay or at a socket. -/
def arrive (fleet : Fleet ι) (s : Relayed ι) (d : Datagram) : Relayed ι × List Datagram :=
  if d.dst = fleet.relayAddr then
    if s.running then
      match relayStep fleet.relayAddr s.peers d with
      | .ok (peers, sent) => ({ s with peers, arrived := s.arrived ++ [d] }, sent)
      | .error _ => ({ s with running := false }, [])
    else (s, [])
  else ({ s with inbox := Function.update s.inbox d.dst (s.inbox d.dst ++ [d]) }, [])

/-- The relay and the clients as nodes. -/
def nodes (fleet : Fleet ι) : Nodes (Relayed ι) (RelayAct ι) Datagram where
  act := fleet.act
  arrive := fleet.arrive

end Fleet

/-- A relay that has just started, and nothing in flight. -/
def quiet {ι : Type} : InFlight (Relayed ι) Datagram where
  nodes := ⟨noPeers, true, [], fun _ => [], []⟩
  packets := []

/-! ## What a client returns -/

/-- The payloads that successive calls of `recv` return upon the datagrams. -/
def returns (client : RelayClient) (arrivals : List Datagram) : List (List UInt8) :=
  arrivals.filterMap fun d => (client.accepts d).map Prod.fst

@[simp] theorem returns_append (client : RelayClient) (before after : List Datagram) :
    returns client (before ++ after) = returns client before ++ returns client after :=
  List.filterMap_append

/-- A call of `recv` takes what it drops and the first datagram that it accepts, returns
    its payload, and leaves the rest to the next call; without such a datagram it waits. -/
theorem recv_returns (client : RelayClient) (arrivals : List Datagram) :
    (returns client arrivals = [] ∧ client.recv (arrivals.map .ok) = none) ∨
    ∃ dropped d rest payload sender, arrivals = dropped ++ d :: rest ∧
      client.recv (arrivals.map .ok) = some (.ok (payload, sender)) ∧
      returns client arrivals = payload :: returns client rest := by
  induction arrivals with
  | nil => exact Or.inl ⟨rfl, rfl⟩
  | cons d arrivals ih =>
      cases haccepts : client.accepts d with
      | some result =>
          refine Or.inr ⟨[], d, arrivals, result.1, result.2, rfl, ?_, ?_⟩
          · simp [RelayClient.recv, haccepts]
          · simp [returns, haccepts]
      | none =>
          have hrecv : client.recv ((d :: arrivals).map .ok) = client.recv (arrivals.map .ok) := by
            simp [RelayClient.recv, haccepts]
          have hreturns : returns client (d :: arrivals) = returns client arrivals := by
            simp [returns, haccepts]
          rw [hrecv, hreturns]
          rcases ih with hwaits | ⟨dropped, d', rest, payload, sender, rfl, hreturn, hrest⟩
          · exact Or.inl hwaits
          · exact Or.inr ⟨d :: dropped, d', rest, payload, sender, rfl, hreturn, hrest⟩

/-! ## Datagrams of the fleet -/

section
variable {ι : Type} {fleet : Fleet ι} {sends : List (ι × ι × List UInt8)} {s : Relayed ι}

/-- A datagram that a client or the relay can have sent, given the calls of `send`. -/
inductive OnWire (fleet : Fleet ι) (sends : List (ι × ι × List UInt8)) : Datagram → Prop
  | registration (p q : ι) (frame : RelayFrame) (htype : frame.msgType ≠ .data)
      (hsender : frame.senderId = fleet.id p) (hpayload : frame.payload = []) :
    OnWire fleet sends ⟨fleet.socket p q, fleet.relayAddr, frame.wireBytes⟩
  | outgoing (p q : ι) {payload : List UInt8} (hsent : (p, q, payload) ∈ sends)
      (hle : payload.length ≤ maxPayload) :
    OnWire fleet sends ⟨fleet.socket p q, fleet.relayAddr,
      (RelayFrame.data (fleet.id p) (fleet.id q) payload).wireBytes⟩
  | forwarded (p q r : ι) {payload : List UInt8} (hsent : (p, q, payload) ∈ sends)
      (hle : payload.length ≤ maxPayload) :
    OnWire fleet sends ⟨fleet.relayAddr, fleet.socket q r,
      (RelayFrame.data (fleet.id p) (fleet.id q) payload).wireBytes⟩

theorem OnWire.mono {d : Datagram} (h : OnWire fleet sends d) {more : List (ι × ι × List UInt8)}
    (hmore : sends ⊆ more) : OnWire fleet more d := by
  cases h with
  | registration p q frame htype hsender hpayload =>
      exact .registration p q frame htype hsender hpayload
  | outgoing p q hsent hle => exact .outgoing p q (hmore hsent) hle
  | forwarded p q r hsent hle => exact .forwarded p q r (hmore hsent) hle

/-- A frame within the limit fits into the receive buffers. -/
theorem decode_received (frame : RelayFrame) (hle : frame.payload.length ≤ maxPayload)
    (src dst : SocketAddr) :
    RelayFrame.decode (received ⟨src, dst, frame.wireBytes⟩) = .ok frame := by
  have hreceived : received ⟨src, dst, frame.wireBytes⟩ = frame.wireBytes := by
    apply List.take_of_length_le
    rw [RelayFrame.length_wireBytes, headerLen, recvBuffer]
    rw [maxPayload] at hle
    omega
  rw [hreceived]
  simpa using RelayFrame.decode_encode (RelayFrame.encode_of_le hle) []

/-- A client accepts a DATA frame of its peer, whatever its target. -/
theorem accepts_data {sender target : PeerId} {payload : List UInt8}
    (hle : payload.length ≤ maxPayload) (client : RelayClient) (src dst : SocketAddr) :
    client.accepts ⟨src, dst, (RelayFrame.data sender target payload).wireBytes⟩ =
      if sender = client.peerId then some (payload, sender) else none := by
  have hdecode : RelayFrame.decode ((RelayFrame.data sender target payload).wireBytes.take
      RelayClient.recvBuffer) = .ok (RelayFrame.data sender target payload) :=
    decode_received (RelayFrame.data sender target payload) hle src dst
  rw [RelayClient.accepts]
  simp only [hdecode]
  simp [RelayFrame.data]

theorem act_send_sent (fleet : Fleet ι) (s : Relayed ι) (p q : ι) {payload : List UInt8}
    (hle : payload.length ≤ maxPayload) :
    (fleet.act s (.send p q payload)).2 = [⟨fleet.socket p q, fleet.relayAddr,
      (RelayFrame.data (fleet.id p) (fleet.id q) payload).wireBytes⟩] := by
  obtain ⟨encoded, hencode, hsent⟩ := RelayClient.send_of_le Network.ideal (fleet.client p q) hle
  obtain rfl := (RelayFrame.encode_eq_ok_iff.mp hencode).2
  exact hsent

/-- A packet above the limit makes `send` panic before anything is sent. -/
theorem act_send_overlong (fleet : Fleet ι) (s : Relayed ι) (p q : ι) {payload : List UInt8}
    (hlt : maxPayload < payload.length) : (fleet.act s (.send p q payload)).2 = [] :=
  congrArg Effect.sent (RelayClient.send_of_lt Network.ideal (fleet.client p q) hlt)

theorem act_keepalive_sent (fleet : Fleet ι) (s : Relayed ι) (p q : ι) :
    (fleet.act s (.keepalive p q)).2 = [⟨fleet.socket p q, fleet.relayAddr,
      (RelayFrame.keepalive (fleet.id p)).wireBytes⟩] := by
  have hencode : (RelayFrame.keepalive (fleet.id p)).encode =
      .ok (RelayFrame.keepalive (fleet.id p)).wireBytes :=
    RelayFrame.encode_of_le (Nat.zero_le _)
  rw [Fleet.act, RelayClient.keepalive]
  simp only [Fleet.client]
  rw [hencode, Effect.expect_ok_bind, Effect.sent_bind_of_silent _ fun _ => Effect.sent_pure _]
  rfl

/-- What an action sends. -/
theorem onWire_act (fleet : Fleet ι) (s : Relayed ι) (a : RelayAct ι) :
    ∀ d ∈ (fleet.act s a).2, OnWire fleet (fleet.act s a).1.sends d := by
  intro d hd
  cases a with
  | register p q =>
      rw [Fleet.act, RelayClient.register_eq] at hd
      rw [List.mem_singleton.mp hd]
      exact .registration p q (RelayFrame.hello (fleet.id p))
        (by simp [RelayFrame.hello]) rfl rfl
  | keepalive p q =>
      rw [act_keepalive_sent] at hd
      rw [List.mem_singleton.mp hd]
      exact .registration p q (RelayFrame.keepalive (fleet.id p))
        (by simp [RelayFrame.keepalive]) rfl rfl
  | send p q payload =>
      by_cases hle : payload.length ≤ maxPayload
      · rw [act_send_sent fleet s p q hle] at hd
        rw [List.mem_singleton.mp hd]
        exact .outgoing p q (by simp [Fleet.act]) hle
      · rw [act_send_overlong fleet s p q (by omega)] at hd
        cases hd
  | restart => cases hd

/-! ## Arrivals -/

theorem arrive_registration (hrunning : s.running = true) (p q : ι) {frame : RelayFrame}
    (htype : frame.msgType ≠ .data) (hpayload : frame.payload = []) :
    fleet.arrive s ⟨fleet.socket p q, fleet.relayAddr, frame.wireBytes⟩ =
      ({ s with
        peers := Function.update s.peers frame.senderId (some (fleet.socket p q))
        arrived := s.arrived ++ [⟨fleet.socket p q, fleet.relayAddr, frame.wireBytes⟩] }, []) := by
  have hdecode := decode_received frame (by rw [hpayload]; exact Nat.zero_le _)
    (fleet.socket p q) fleet.relayAddr
  rw [Fleet.arrive, if_pos rfl, if_pos hrunning, relayStep_register hdecode htype]

/-- The relay passes a DATA frame on to the address of its target. -/
theorem arrive_outgoing (hrunning : s.running = true) (p q : ι) {payload : List UInt8}
    (hle : payload.length ≤ maxPayload) :
    fleet.arrive s ⟨fleet.socket p q, fleet.relayAddr,
        (RelayFrame.data (fleet.id p) (fleet.id q) payload).wireBytes⟩ =
      ({ s with arrived := s.arrived ++ [⟨fleet.socket p q, fleet.relayAddr,
          (RelayFrame.data (fleet.id p) (fleet.id q) payload).wireBytes⟩] },
        (s.peers (fleet.id q)).toList.map fun addr => ⟨fleet.relayAddr, addr,
          (RelayFrame.data (fleet.id p) (fleet.id q) payload).wireBytes⟩) := by
  have hdecode := decode_received (RelayFrame.data (fleet.id p) (fleet.id q) payload) hle
    (fleet.socket p q) fleet.relayAddr
  have hencode : (RelayFrame.data (fleet.id p) (fleet.id q) payload).encode =
      .ok (RelayFrame.data (fleet.id p) (fleet.id q) payload).wireBytes :=
    RelayFrame.encode_of_le hle
  rw [Fleet.arrive, if_pos rfl, if_pos hrunning]
  cases htarget : s.peers (fleet.id q) with
  | none => rw [relayStep_data_none hdecode rfl htarget]; rfl
  | some addr =>
      rw [relayStep_data_some hdecode rfl htarget]
      simp only [RelayFrame.data] at hencode ⊢
      rw [hencode]
      rfl

theorem arrive_forwarded (fleet : Fleet ι) (s : Relayed ι) (q r : ι) (src : SocketAddr)
    (bytes : List UInt8) :
    fleet.arrive s ⟨src, fleet.socket q r, bytes⟩ =
      ({ s with
        inbox := Function.update s.inbox (fleet.socket q r)
          (s.inbox (fleet.socket q r) ++ [⟨src, fleet.socket q r, bytes⟩]) }, []) := by
  rw [Fleet.arrive, if_neg (fleet.socket_ne_relay q r)]

/-- What the client of `p` for `q` returns in a state. -/
def Fleet.returned (fleet : Fleet ι) (s : Relayed ι) (p q : ι) : List (List UInt8) :=
  returns (fleet.client p q) (s.inbox (fleet.socket p q))

/-- A forwarded packet is returned by the client at whose socket it arrives, if that is the
    one for its sender, and by no other. -/
theorem returned_arrive_forwarded (fleet : Fleet ι) (s : Relayed ι) (p q r : ι)
    {payload : List UInt8} (hle : payload.length ≤ maxPayload) (p' q' : ι) [DecidableEq ι] :
    fleet.returned (fleet.arrive s ⟨fleet.relayAddr, fleet.socket q r,
        (RelayFrame.data (fleet.id p) (fleet.id q) payload).wireBytes⟩).1 p' q' =
      fleet.returned s p' q' ++ if p' = q ∧ q' = r ∧ p = r then [payload] else [] := by
  rw [arrive_forwarded, Fleet.returned]
  by_cases hsocket : p' = q ∧ q' = r
  · obtain ⟨rfl, rfl⟩ := hsocket
    simp only [Function.update_self, returns_append, Fleet.returned, true_and]
    refine congrArg _ ?_
    rw [returns, List.filterMap_cons, accepts_data hle]
    by_cases hpeer : p = q'
    · simp [hpeer, Fleet.client]
    · have hids : fleet.id p ≠ (fleet.client p' q').peerId :=
        fun heq => hpeer (fleet.id_injective heq)
      simp [hpeer, hids]
  · have hother : fleet.socket p' q' ≠ fleet.socket q r :=
      fun heq => hsocket (fleet.socket_injective _ _ _ _ heq)
    have hnot : ¬ (p' = q ∧ q' = r ∧ p = r) := fun h => hsocket ⟨h.1, h.2.1⟩
    simp [Function.update_of_ne hother, Fleet.returned, hnot]

theorem returned_arrive_relay (fleet : Fleet ι) (s : Relayed ι) {d : Datagram}
    (hd : d.dst = fleet.relayAddr) (p q : ι) :
    fleet.returned (fleet.arrive s d).1 p q = fleet.returned s p q := by
  rw [Fleet.arrive, if_pos hd]
  split
  · split
    · rfl
    · rfl
  · rfl

/-! ## What holds in every run -/

/-- The relay runs, its table has the latest registration of each id since it was started,
    which is that of a client of the device, and every client has returned only packets
    sent to it. -/
structure Sound (fleet : Fleet ι) (s : Relayed ι) : Prop where
  running : s.running = true
  latest : s.peers = latestRegistration s.arrived
  own : ∀ id addr, s.peers id = some addr → ∃ p q, id = fleet.id p ∧ addr = fleet.socket p q
  returned : ∀ p q, ∀ payload ∈ fleet.returned s p q,
    (q, p, payload) ∈ s.sends ∧ payload.length ≤ maxPayload

theorem sound_quiet (fleet : Fleet ι) : Sound fleet (quiet : InFlight (Relayed ι) Datagram).nodes := by
  refine ⟨rfl, rfl, ?_, ?_⟩
  · intro id addr h
    cases h
  · intro p q payload h
    cases h

/-- The latest registrations after one more datagram has arrived at the relay. -/
theorem latest_of_relayStep {listen : SocketAddr} {peers peers' : Peers} {arrived : List Datagram}
    {d : Datagram} {sent : List Datagram} (h : peers = latestRegistration arrived)
    (hstep : relayStep listen peers d = .ok (peers', sent)) :
    peers' = latestRegistration (arrived ++ [d]) := by
  funext id
  rw [relayStep_peers hstep, latestRegistration_snoc, h]

theorem sound_act (fleet : Fleet ι) {s : Relayed ι} (h : Sound fleet s) (a : RelayAct ι) :
    Sound fleet (fleet.act s a).1 := by
  cases a with
  | register p q => exact h
  | keepalive p q => exact h
  | send p q payload =>
      refine ⟨h.running, h.latest, h.own, ?_⟩
      intro p' q' payload' hpayload'
      obtain ⟨hsent, hle⟩ := h.returned p' q' payload' hpayload'
      exact ⟨List.mem_append_left _ hsent, hle⟩
  | restart =>
      refine ⟨rfl, rfl, ?_, h.returned⟩
      intro id addr hid
      cases hid

theorem sound_arrive {s : Relayed ι} (h : Sound fleet s) {d : Datagram}
    (hd : OnWire fleet s.sends d) :
    Sound fleet (fleet.arrive s d).1 ∧
      ∀ d' ∈ (fleet.arrive s d).2, OnWire fleet (fleet.arrive s d).1.sends d' := by
  classical
  cases hd with
  | registration p q frame htype hsender hpayload =>
      have hdecode := decode_received frame (by rw [hpayload]; exact Nat.zero_le _)
        (fleet.socket p q) fleet.relayAddr
      rw [arrive_registration h.running p q htype hpayload]
      refine ⟨⟨h.running, ?_, ?_, h.returned⟩, ?_⟩
      · exact latest_of_relayStep h.latest
          (@relayStep_register fleet.relayAddr s.peers _ _ hdecode htype)
      · intro id addr hid
        dsimp only at hid
        by_cases hsame : id = frame.senderId
        · subst hsame
          rw [Function.update_self] at hid
          exact ⟨p, q, hsender, (Option.some.inj hid).symm⟩
        · rw [Function.update_of_ne hsame] at hid
          exact h.own id addr hid
      · intro d' hd'
        cases hd'
  | @outgoing p q payload hsent hle =>
      have hdecode := decode_received (RelayFrame.data (fleet.id p) (fleet.id q) payload) hle
        (fleet.socket p q) fleet.relayAddr
      rw [arrive_outgoing h.running p q hle]
      refine ⟨⟨h.running, ?_, h.own, h.returned⟩, ?_⟩
      · funext id
        rw [latestRegistration_snoc, h.latest]
        simp only [registrationOf, hdecode]
        simp [RelayFrame.data]
      · intro d' hd'
        obtain ⟨addr, haddr, rfl⟩ := List.mem_map.mp hd'
        obtain ⟨q', r, hid, rfl⟩ := h.own _ addr (Option.mem_toList.mp haddr)
        obtain rfl := fleet.id_injective hid
        exact .forwarded p q r hsent hle
  | @forwarded p q r payload hsent hle =>
      have hreturned := returned_arrive_forwarded fleet s p q r hle
      rw [arrive_forwarded] at hreturned ⊢
      refine ⟨⟨h.running, h.latest, h.own, ?_⟩, ?_⟩
      · intro p' q' payload' hmem
        rw [hreturned] at hmem
        rcases List.mem_append.mp hmem with hold | hnew
        · exact h.returned p' q' payload' hold
        · by_cases hclient : p' = q ∧ q' = r ∧ p = r
          · rw [if_pos hclient] at hnew
            obtain ⟨rfl, rfl, rfl⟩ := hclient
            obtain rfl := List.mem_singleton.mp hnew
            exact ⟨hsent, hle⟩
          · rw [if_neg hclient] at hnew
            cases hnew
      · intro d' hd'
        cases hd'

theorem sends_arrive (fleet : Fleet ι) (s : Relayed ι) (d : Datagram) :
    (fleet.arrive s d).1.sends = s.sends := by
  rw [Fleet.arrive]
  split
  · split
    · split
      · rfl
      · rfl
    · rfl
  · rfl

theorem preserves (fleet : Fleet ι) :
    fleet.nodes.Preserves (Sound fleet) fun s d => OnWire fleet s.sends d where
  act s a hs := ⟨sound_act fleet hs a, onWire_act fleet s a⟩
  arrive s d hs hd := sound_arrive hs hd
  stays_act s a d hd := by
    refine hd.mono ?_
    cases a with
    | send p q payload => exact List.subset_append_left _ _
    | _ => exact fun _ => id
  stays_arrive s d d' hd' := by
    show OnWire fleet (fleet.arrive s d).1.sends d'
    rw [sends_arrive]
    exact hd'

theorem holds_run (fleet : Fleet ι) (events : List (NetEvent (RelayAct ι))) :
    Nodes.Holds (Sound fleet) (fun s d => OnWire fleet s.sends d)
      (run fleet.nodes.step quiet events) :=
  (preserves fleet).run ⟨sound_quiet fleet, fun _ hd => absurd hd List.not_mem_nil⟩ events

/-- The calls of `send` in a run. -/
def sendsOf (events : List (NetEvent (RelayAct ι))) : List (ι × ι × List UInt8) :=
  events.filterMap fun
    | .act (.send p q payload) => some (p, q, payload)
    | _ => none

theorem sends_step (fleet : Fleet ι) (net : InFlight (Relayed ι) Datagram)
    (event : NetEvent (RelayAct ι)) :
    (fleet.nodes.step net event).nodes.sends = net.nodes.sends ++ sendsOf [event] := by
  cases event with
  | act a => cases a <;> simp [Nodes.step, Fleet.nodes, Fleet.act, sendsOf]
  | arrive k =>
      cases hk : net.packets[k]? with
      | none => simp [Nodes.step_arrive_none _ hk, sendsOf]
      | some d =>
          rw [Nodes.step_arrive_some _ hk]
          exact (sends_arrive fleet net.nodes d).trans (by simp [sendsOf])
  | drop k => simp [Nodes.step, sendsOf]
  | duplicate k => simp [Nodes.step, sendsOf]

theorem sends_run (fleet : Fleet ι) (net : InFlight (Relayed ι) Datagram)
    (events : List (NetEvent (RelayAct ι))) :
    (run fleet.nodes.step net events).nodes.sends = net.nodes.sends ++ sendsOf events := by
  induction events generalizing net with
  | nil => simp [sendsOf]
  | cons event events ih =>
      rw [run_cons, ih, sends_step, List.append_assoc]
      congr 1
      rw [sendsOf, sendsOf, ← List.filterMap_append]
      rfl

/-- In every run, with any losses, duplicates and reorderings, any registrations,
    keepalives and restarts: the relay never leaves its loop, its table has for each id the
    address of the client of that device whose registration arrived last, and whatever a
    client returns was sent to it, by a call of `send` of its peer's client for it. -/
theorem exchange_safe (fleet : Fleet ι) (events : List (NetEvent (RelayAct ι))) :
    let s := (run fleet.nodes.step quiet events).nodes
    s.running = true ∧
      (∀ id, s.peers id = latestRegistration s.arrived id) ∧
      (∀ id addr, s.peers id = some addr → ∃ p q, id = fleet.id p ∧ addr = fleet.socket p q) ∧
      ∀ p q, ∀ payload ∈ fleet.returned s p q,
        .act (.send q p payload) ∈ events ∧ payload.length ≤ maxPayload := by
  intro s
  have hsound := (holds_run fleet events).1
  refine ⟨hsound.running, fun id => congrFun hsound.latest id, hsound.own, ?_⟩
  intro p q payload hpayload
  obtain ⟨hsent, hle⟩ := hsound.returned p q payload hpayload
  refine ⟨?_, hle⟩
  rw [sends_run] at hsent
  obtain ⟨event, hevent, hsend⟩ := List.mem_filterMap.mp hsent
  split at hsend
  · simp only [Option.some.injEq, Prod.mk.injEq] at hsend
    obtain ⟨rfl, rfl, rfl⟩ := hsend
    exact hevent
  · cases hsend

end

end ConnectAlso.System
