import ConnectAlso.System.Exchange

/-!
# How often and when a packet is delivered

Two more facts about packets through the relay. As long as the network does not double a
datagram, nobody does: no packet is returned more often than it was sent, since the relay
passes on one copy to one address. And a packet that gets through reaches the client it is
for only if that client, of all clients of its device, is the one whose registration
arrived last; otherwise another client of the device drops it.
-/

namespace ConnectAlso.System
open Misc RelayProto Relay

variable {ι : Type} [DecidableEq ι] {fleet : Fleet ι}

/-! ## At most once -/

/-- The datagram is a DATA frame with the packet, from `p` to `q`. -/
def carries (fleet : Fleet ι) (p q : ι) (payload : List UInt8) (d : Datagram) : Nat :=
  match RelayFrame.decode (received d) with
  | .error _ => 0
  | .ok frame => if frame = .data (fleet.id p) (fleet.id q) payload then 1 else 0

/-- How often the packet was sent. -/
def sentCount (p q : ι) (payload : List UInt8) (s : Relayed ι) : Nat :=
  s.sends.count (p, q, payload)

/-- How often the client of `q` for `p` returns the packet. -/
def returnedCount (fleet : Fleet ι) (p q : ι) (payload : List UInt8) (s : Relayed ι) : Nat :=
  (fleet.returned s q p).count payload

section
variable {p q : ι} {payload : List UInt8}

omit [DecidableEq ι] in
theorem carries_frame (frame : RelayFrame) (hle : frame.payload.length ≤ maxPayload)
    (src dst : SocketAddr) :
    carries fleet p q payload ⟨src, dst, frame.wireBytes⟩ =
      if frame = .data (fleet.id p) (fleet.id q) payload then 1 else 0 := by
  rw [carries, decode_received frame hle]

/-- A DATA frame of the fleet carries the packet if it is the packet of the two devices. -/
theorem carries_data (p' q' : ι) {payload' : List UInt8} (hle : payload'.length ≤ maxPayload)
    (src dst : SocketAddr) :
    carries fleet p q payload
        ⟨src, dst, (RelayFrame.data (fleet.id p') (fleet.id q') payload').wireBytes⟩ =
      if (p', q', payload') = (p, q, payload) then 1 else 0 := by
  rw [carries_frame (RelayFrame.data _ _ payload') hle]
  by_cases hsame : (p', q', payload') = (p, q, payload)
  · obtain ⟨rfl, rfl, rfl⟩ := hsame
    simp
  · have hframe : RelayFrame.data (fleet.id p') (fleet.id q') payload' ≠
        .data (fleet.id p) (fleet.id q) payload := by
      intro heq
      simp only [RelayFrame.data, RelayFrame.mk.injEq] at heq
      obtain ⟨hp, hq, -, hpayload⟩ := heq
      exact hsame (by rw [fleet.id_injective hp, fleet.id_injective hq, hpayload])
    rw [if_neg hframe, if_neg hsame]

theorem conserves_act (s : Relayed ι) (a : RelayAct ι) :
    returnedCount fleet p q payload (fleet.act s a).1 +
        Nodes.total (carries fleet p q payload) (fleet.act s a).2 + sentCount p q payload s ≤
      returnedCount fleet p q payload s + sentCount p q payload (fleet.act s a).1 := by
  have hregistration : ∀ (frame : RelayFrame) (src dst : SocketAddr), frame.msgType ≠ .data →
      frame.payload.length ≤ maxPayload →
      carries fleet p q payload ⟨src, dst, frame.wireBytes⟩ = 0 := by
    intro frame src dst htype hle
    rw [carries_frame frame hle, if_neg]
    intro heq
    exact htype (by rw [heq]; rfl)
  cases a with
  | register p' q' =>
      have hzero := hregistration (RelayFrame.hello (fleet.id p')) (fleet.socket p' q')
        fleet.relayAddr (by simp [RelayFrame.hello]) (Nat.zero_le _)
      rw [Fleet.act, RelayClient.register_eq, Nodes.total_singleton]
      exact Nat.le_of_eq (congrArg (fun n => returnedCount fleet p q payload s + n +
        sentCount p q payload s) hzero)
  | keepalive p' q' =>
      have hzero : ∀ d ∈ (fleet.act s (.keepalive p' q')).2, carries fleet p q payload d = 0 := by
        intro d hd
        rw [act_keepalive_sent] at hd
        rw [List.mem_singleton.mp hd]
        exact hregistration _ _ _ (by simp [RelayFrame.keepalive]) (Nat.zero_le _)
      rw [act_keepalive_sent] at hzero ⊢
      simp only [Nodes.total_singleton, hzero _ List.mem_cons_self]
      exact Nat.le_refl _
  | send p' q' payload' =>
      have hcount : sentCount p q payload (fleet.act s (.send p' q' payload')).1 =
          sentCount p q payload s + if (p', q', payload') = (p, q, payload) then 1 else 0 := by
        simp [sentCount, Fleet.act, List.count_append, List.count_singleton]
      have hkept : returnedCount fleet p q payload (fleet.act s (.send p' q' payload')).1 =
          returnedCount fleet p q payload s := rfl
      rw [hcount, hkept]
      by_cases hle : payload'.length ≤ maxPayload
      · rw [act_send_sent fleet s p' q' hle, Nodes.total_singleton, carries_data p' q' hle]
        omega
      · rw [act_send_overlong fleet s p' q' (by omega), Nodes.total_nil]
        omega
  | restart => exact Nat.le_refl _

theorem conserves_arrive {s : Relayed ι} (h : Sound fleet s) {d : Datagram}
    (hd : OnWire fleet s.sends d) :
    returnedCount fleet p q payload (fleet.arrive s d).1 +
        Nodes.total (carries fleet p q payload) (fleet.arrive s d).2 ≤
      returnedCount fleet p q payload s + carries fleet p q payload d := by
  cases hd with
  | registration p' q' frame htype hsender hpayload =>
      rw [arrive_registration h.running p' q' htype hpayload]
      exact Nat.le_add_right _ _
  | @outgoing p' q' payload' hsent hle =>
      have hkept : returnedCount fleet p q payload (fleet.arrive s ⟨fleet.socket p' q',
          fleet.relayAddr, (RelayFrame.data (fleet.id p') (fleet.id q') payload').wireBytes⟩).1 =
            returnedCount fleet p q payload s := by
        rw [returnedCount, returned_arrive_relay fleet s rfl]
        rfl
      rw [hkept, carries_data p' q' hle, arrive_outgoing h.running p' q' hle]
      cases hpeer : s.peers (fleet.id q') with
      | none => simp
      | some addr => simp [carries_data p' q' hle]
  | @forwarded p' q' r payload' hsent hle =>
      have hreturned := returned_arrive_forwarded fleet s p' q' r hle q p
      rw [returnedCount, hreturned, arrive_forwarded, Nodes.total_nil, carries_data p' q' hle,
        List.count_append, Nat.add_zero]
      refine Nat.add_le_add_left ?_ _
      by_cases hclient : q = q' ∧ p = r ∧ p' = r
      · obtain ⟨rfl, rfl, rfl⟩ := hclient
        simp only [and_self, if_true, List.count_singleton, Prod.mk.injEq, true_and, beq_iff_eq]
        exact Nat.le_refl _
      · rw [if_neg hclient]
        exact Nat.zero_le _

end

/-- In every run in which the network does not duplicate a datagram, whatever it loses and
    reorders: a client returns a packet of its peer at most as often as the peer has sent
    it to the client. -/
theorem exchange_at_most_once (fleet : Fleet ι) (events : List (NetEvent (RelayAct ι)))
    (hevents : ∀ event ∈ events, ∀ k, event ≠ .duplicate k) (p q : ι) (payload : List UInt8) :
    (fleet.returned (run fleet.nodes.step quiet events).nodes q p).count payload ≤
      (sendsOf events).count (p, q, payload) := by
  have hconserves : fleet.nodes.Conserves (Sound fleet) (fun s d => OnWire fleet s.sends d)
      (carries fleet p q payload) (sentCount p q payload) (returnedCount fleet p q payload) := by
    refine ⟨fun s a _ => conserves_act s a, ?_⟩
    intro s d hs hd
    have harrive := @conserves_arrive _ _ _ p q payload _ hs _ hd
    have hsends : sentCount p q payload (fleet.nodes.arrive s d).1 = sentCount p q payload s :=
      congrArg (List.count (p, q, payload)) (sends_arrive fleet s d)
    rw [hsends]
    exact Nat.add_le_add_right harrive _
  have hcovered := hconserves.run (preserves fleet)
    ⟨sound_quiet fleet, fun _ hd => absurd hd List.not_mem_nil⟩ (Nat.zero_le _) hevents
  have hsent := sends_run fleet quiet events
  rw [show (quiet : InFlight (Relayed ι) Datagram).nodes.sends = [] from rfl, List.nil_append]
    at hsent
  rw [← hsent]
  exact Nat.le_trans (Nat.le_add_right _ _) hcovered

/-! ## The registration that counts -/

/-- The events in which a packet is sent, arrives at the relay at once, and then what the
    relay has sent arrives, if it has sent anything. -/
def straightThrough (net : InFlight (Relayed ι) Datagram) (p q : ι) (payload : List UInt8) :
    List (NetEvent (RelayAct ι)) :=
  [.act (.send p q payload), .arrive net.packets.length, .arrive net.packets.length]

omit [DecidableEq ι] in
theorem step_arrive_last {net : InFlight (Relayed ι) Datagram} {packets : List Datagram}
    {d : Datagram} (hpackets : net.packets = packets ++ [d]) :
    fleet.nodes.step net (.arrive packets.length) =
      ⟨(fleet.arrive net.nodes d).1, packets ++ (fleet.arrive net.nodes d).2⟩ := by
  have hlast : net.packets[packets.length]? = some d := by simp [hpackets]
  rw [Nodes.step_arrive_some _ hlast, hpackets, List.eraseIdx_append_of_length_le (Nat.le_refl _)]
  simp [Fleet.nodes]

theorem returned_straightThrough {net : InFlight (Relayed ι) Datagram} (h : Sound fleet net.nodes)
    (p q : ι) {payload : List UInt8} (hle : payload.length ≤ maxPayload) (p' q' : ι) :
    fleet.returned (run fleet.nodes.step net (straightThrough net p q payload)).nodes p' q' =
      fleet.returned net.nodes p' q' ++
        if p' = q ∧ q' = p ∧ net.nodes.peers (fleet.id q) = some (fleet.socket q p) then [payload]
        else [] := by
  have hsent : fleet.nodes.step net (.act (.send p q payload)) =
      ⟨(fleet.act net.nodes (.send p q payload)).1, net.packets ++ [⟨fleet.socket p q,
        fleet.relayAddr, (RelayFrame.data (fleet.id p) (fleet.id q) payload).wireBytes⟩]⟩ :=
    congrArg (InFlight.mk _ <| net.packets ++ ·) (act_send_sent fleet net.nodes p q hle)
  have hrelay := @arrive_outgoing _ fleet (fleet.act net.nodes (.send p q payload)).1 h.running p q
    payload hle
  rw [straightThrough, run_cons, hsent, run_cons, step_arrive_last rfl]
  dsimp only
  rw [hrelay, run_cons, run_nil]
  simp only [Fleet.act]
  cases hpeer : net.nodes.peers (fleet.id q) with
  | none =>
      rw [Nodes.step_arrive_none _ (by simp)]
      simp [Fleet.returned]
  | some addr =>
      obtain ⟨q₀, r, hid, rfl⟩ := h.own _ addr hpeer
      obtain rfl := fleet.id_injective hid
      rw [step_arrive_last rfl, returned_arrive_forwarded fleet _ p q r hle]
      have hsocket : (p' = q ∧ q' = r ∧ p = r) ↔
          (p' = q ∧ q' = p ∧ some (fleet.socket q r) = some (fleet.socket q p)) := by
        constructor
        · rintro ⟨hp, rfl, rfl⟩
          exact ⟨hp, rfl, rfl⟩
        · rintro ⟨hp, rfl, hsame⟩
          have hr := (fleet.socket_injective _ _ _ _ (Option.some.inj hsame)).2
          exact ⟨hp, hr.symm, hr.symm⟩
      simp only [hsocket]
      rfl

/-- After any run, a packet that goes straight through the relay is returned by the client
    of its target for its sender exactly when the last registration of the target that has
    arrived since the relay was started is that of this client; no other client ever
    returns it. -/
theorem exchange_reaches_iff (fleet : Fleet ι) (events : List (NetEvent (RelayAct ι))) (p q : ι)
    (payload : List UInt8) (hle : payload.length ≤ maxPayload) :
    let net := run fleet.nodes.step quiet events
    let after := run fleet.nodes.step net (straightThrough net p q payload)
    ∀ p' q', fleet.returned after.nodes p' q' = fleet.returned net.nodes p' q' ++
      if p' = q ∧ q' = p ∧
        latestRegistration net.nodes.arrived (fleet.id q) = some (fleet.socket q p) then [payload]
      else [] := by
  intro net after p' q'
  have hsound := (holds_run fleet events).1
  rw [← hsound.latest]
  exact returned_straightThrough hsound p q hle p' q'

/-! ### Three devices -/

/-- Devices 0, 1 and 2. -/
def trio : Fleet (Fin 3) where
  id n := Uuid.fromU128 (n.val + 1)
  relayAddr := .localhost 33478
  socket p q := .localhost (UInt16.ofNat (1000 * (p.val + 1) + q.val))
  id_injective := by decide +kernel
  socket_injective := by decide +kernel
  socket_ne_relay := by decide +kernel

/-- Device 1 registers with its client for device 0, then with that for device 2. -/
def twoRegistrations : List (NetEvent (RelayAct (Fin 3))) :=
  [.act (.register 1 0), .arrive 0, .act (.register 1 2), .arrive 0]

/-- What device 0 sends is lost, what device 2 sends gets through. -/
theorem twoRegistrations_reach :
    (let net := run trio.nodes.step quiet twoRegistrations
      let after := run trio.nodes.step net (straightThrough net 0 1 [7])
      ∀ p' q', trio.returned after.nodes p' q' = trio.returned net.nodes p' q' ++
        if p' = 1 ∧ q' = 0 ∧
          latestRegistration net.nodes.arrived (trio.id 1) = some (trio.socket 1 0) then [[7]]
        else []) ∧
    latestRegistration (run trio.nodes.step quiet twoRegistrations).nodes.arrived (trio.id 1) =
      some (trio.socket 1 2) :=
  ⟨exchange_reaches_iff trio twoRegistrations 0 1 [7] (by decide), by decide +kernel⟩

/-- A packet that is sent once is returned once at most. -/
theorem twoRegistrations_at_most_once :
    (trio.returned (run trio.nodes.step quiet
        (twoRegistrations ++ [.act (.send 2 1 [7]), .arrive 0, .arrive 0])).nodes 1 2).count [7] ≤
      (sendsOf (twoRegistrations ++ [.act (.send 2 1 [7]), .arrive 0, .arrive 0])).count
        (2, 1, [7]) := by
  refine exchange_at_most_once trio _ ?_ 2 1 [7]
  intro event hevent k
  simp only [twoRegistrations, List.cons_append, List.nil_append, List.mem_cons,
    List.not_mem_nil, or_false] at hevent
  rcases hevent with rfl | rfl | rfl | rfl | rfl | rfl | rfl <;> simp

end ConnectAlso.System
