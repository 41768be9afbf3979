import ConnectAlso.Tunnel.RelayClient

/-!
# What a relay client receives

`RelayClient::recv` drops what is no DATA frame of our peer and returns the payload of the
first one that is. It ignores where a datagram comes from and to whom the frame is
addressed, so what it returns over many calls depends on what arrives at the socket.
-/

namespace ConnectAlso
open RelayProto

namespace RelayClient

/-- The payload is returned upon the datagram by one of successive calls of
    `RelayClient::recv` on the arrivals: a call takes from the socket up to the arrival
    upon which it returns, and the next one goes on behind it. -/
inductive Delivers (client : RelayClient) :
    List (Except IoError Datagram) → Datagram → List UInt8 → Prop
  | now {dropped : List (Except IoError Datagram)} {datagram : Datagram} {payload : List UInt8}
      {sender : PeerId} (rest : List (Except IoError Datagram))
      (hwaits : client.recv dropped = none)
      (hreturns : client.recv (dropped ++ [.ok datagram]) = some (.ok (payload, sender))) :
      Delivers client (dropped ++ .ok datagram :: rest) datagram payload
  | later {dropped rest : List (Except IoError Datagram)} {arrival : Except IoError Datagram}
      {datagram : Datagram} {payload : List UInt8}
      (hwaits : client.recv dropped = none)
      (hreturns : (client.recv (dropped ++ [arrival])).isSome = true)
      (hrest : Delivers client rest datagram payload) :
      Delivers client (dropped ++ arrival :: rest) datagram payload

/-- The datagram is a DATA frame with this payload that the relay has forwarded to us from
    our peer. -/
def Forwarded (client : RelayClient) (datagram : Datagram) (payload : List UInt8) : Prop :=
  ∃ frame, RelayFrame.decode (datagram.payload.take recvBuffer) = .ok frame ∧
    frame.msgType = .data ∧ frame.payload = payload ∧ datagram.src = client.relayAddr ∧
    frame.senderId = client.peerId ∧ frame.targetId = client.ourId

/-- Everything that the calls return has been forwarded to us. -/
def OnlyForwarded (client : RelayClient) (arrivals : List (Except IoError Datagram)) : Prop :=
  ∀ datagram payload, client.Delivers arrivals datagram payload →
    client.Forwarded datagram payload

/-! ## The loop -/

variable {client : RelayClient}

/-- The filter of the loop: a DATA frame whose sender is our peer, and nothing else. -/
theorem accepts_eq_some_iff {datagram : Datagram} {payload : List UInt8} {sender : PeerId} :
    client.accepts datagram = some (payload, sender) ↔
      ∃ frame, RelayFrame.decode (datagram.payload.take recvBuffer) = .ok frame ∧
        frame.msgType = .data ∧ frame.senderId = client.peerId ∧ frame.payload = payload ∧
        frame.senderId = sender := by
  unfold accepts
  cases RelayFrame.decode (datagram.payload.take recvBuffer) with
  | error e => simp
  | ok frame =>
      by_cases hframe : frame.msgType = .data ∧ frame.senderId = client.peerId
      · simp [hframe]
      · simp only [if_neg hframe, Except.ok.injEq, exists_eq_left', reduceCtorEq, false_iff]
        exact fun h => hframe ⟨h.1, h.2.1⟩

/-- A call that waits through some arrivals returns upon the next one or waits on. -/
theorem recv_append {dropped : List (Except IoError Datagram)} (h : client.recv dropped = none)
    (rest : List (Except IoError Datagram)) : client.recv (dropped ++ rest) = client.recv rest := by
  induction dropped with
  | nil => rfl
  | cons arrival dropped ih =>
      cases arrival with
      | error e => cases h
      | ok datagram =>
          cases haccepts : client.accepts datagram with
          | none =>
              rw [recv, haccepts] at h
              rw [List.cons_append, recv, haccepts]
              exact ih h
          | some result =>
              rw [recv, haccepts] at h
              cases h

theorem recv_singleton_eq_ok {datagram : Datagram} {result : List UInt8 × PeerId} :
    client.recv [.ok datagram] = some (.ok result) ↔ client.accepts datagram = some result := by
  cases haccepts : client.accepts datagram with
  | none => simp [recv, haccepts]
  | some accepted => simp [recv, haccepts]

theorem Delivers.accepted {arrivals : List (Except IoError Datagram)} {datagram : Datagram}
    {payload : List UInt8} (h : client.Delivers arrivals datagram payload) :
    .ok datagram ∈ arrivals ∧ ∃ sender, client.accepts datagram = some (payload, sender) := by
  induction h with
  | now rest hwaits hreturns =>
      rw [recv_append hwaits, recv_singleton_eq_ok] at hreturns
      exact ⟨by simp, _, hreturns⟩
  | later _ _ _ ih => exact ⟨by simp [ih.1], ih.2⟩

/-- A datagram in front that the loop drops makes no difference. -/
theorem Delivers.cons {arrivals : List (Except IoError Datagram)} {first datagram : Datagram}
    {payload : List UInt8} (hfirst : client.accepts first = none)
    (h : client.Delivers arrivals datagram payload) :
    client.Delivers (.ok first :: arrivals) datagram payload := by
  have hdrop : ∀ rest, client.recv (.ok first :: rest) = client.recv rest := fun rest => by
    rw [recv, hfirst]
  cases h with
  | now rest hwaits hreturns =>
      exact @Delivers.now client (.ok first :: _) _ _ _ rest ((hdrop _).trans hwaits)
        ((hdrop _).trans hreturns)
  | later hwaits hreturns hrest =>
      refine @Delivers.later client (.ok first :: _) _ _ _ _ ((hdrop _).trans hwaits) ?_ hrest
      rw [List.cons_append, hdrop]
      exact hreturns

/-- Every accepted datagram is returned by some call. -/
theorem delivers_of_accepts {arrivals : List (Except IoError Datagram)} {datagram : Datagram}
    {payload : List UInt8} {sender : PeerId} (hmem : .ok datagram ∈ arrivals)
    (haccepts : client.accepts datagram = some (payload, sender)) :
    client.Delivers arrivals datagram payload := by
  induction arrivals with
  | nil => cases hmem
  | cons arrival rest ih =>
      rcases List.mem_cons.mp hmem with rfl | hrest
      · exact @Delivers.now client [] _ _ _ rest rfl (recv_singleton_eq_ok.mpr haccepts)
      · cases arrival with
        | error e => exact @Delivers.later client [] _ _ _ _ rfl rfl (ih hrest)
        | ok first =>
            cases hfirst : client.accepts first with
            | none => exact (ih hrest).cons hfirst
            | some result =>
                refine @Delivers.later client [] _ _ _ _ rfl ?_ (ih hrest)
                rw [List.nil_append, recv_singleton_eq_ok.mpr hfirst]
                rfl

/-- Successive calls return the payloads of the accepted datagrams and no others. -/
theorem delivers_iff {arrivals : List (Except IoError Datagram)} {datagram : Datagram}
    {payload : List UInt8} :
    client.Delivers arrivals datagram payload ↔
      .ok datagram ∈ arrivals ∧ ∃ sender, client.accepts datagram = some (payload, sender) :=
  ⟨Delivers.accepted, fun ⟨hmem, _, haccepts⟩ => delivers_of_accepts hmem haccepts⟩

/-! ## Where the payloads come from -/

/-- What recv returns has been forwarded to us by the relay exactly when every DATA frame
    with the id of our peer that arrives comes from the relay and is addressed to us: the
    code checks neither. -/
theorem onlyForwarded_iff (client : RelayClient) (arrivals : List (Except IoError Datagram)) :
    client.OnlyForwarded arrivals ↔
      ∀ datagram, .ok datagram ∈ arrivals → ∀ frame,
        RelayFrame.decode (datagram.payload.take recvBuffer) = .ok frame →
        frame.msgType = .data → frame.senderId = client.peerId →
          datagram.src = client.relayAddr ∧ frame.targetId = client.ourId := by
  constructor
  · intro honly datagram hmem frame hdecode htype hsender
    have haccepts : client.accepts datagram = some (frame.payload, frame.senderId) :=
      accepts_eq_some_iff.mpr ⟨frame, hdecode, htype, hsender, rfl, rfl⟩
    obtain ⟨frame', hdecode', -, -, hsrc, -, htarget⟩ :=
      honly datagram frame.payload (delivers_iff.mpr ⟨hmem, _, haccepts⟩)
    obtain rfl := Except.ok.inj (hdecode.symm.trans hdecode')
    exact ⟨hsrc, htarget⟩
  · intro hframes datagram payload hdelivers
    obtain ⟨hmem, sender, haccepts⟩ := delivers_iff.mp hdelivers
    obtain ⟨frame, hdecode, htype, hsender, hpayload, -⟩ := accepts_eq_some_iff.mp haccepts
    obtain ⟨hsrc, htarget⟩ := hframes datagram hmem frame hdecode htype hsender
    exact ⟨frame, hdecode, htype, hpayload, hsrc, hsender, htarget⟩

/-- A client of the relay at port 33478, for the peer with the id 1. -/
def strayClient : RelayClient where
  socket := .localhost 40000
  relayAddr := .localhost 33478
  ourId := Uuid.nil
  peerId := Uuid.fromU128 1

/-- A datagram from elsewhere with a DATA frame that names the peer as its sender. -/
def strayDatagram : Datagram where
  src := .localhost 50000
  dst := strayClient.socket
  payload := (RelayFrame.data strayClient.peerId strayClient.ourId [7]).wireBytes

/-- Its payload is returned. -/
theorem strayDatagram_delivered :
    ¬ strayClient.OnlyForwarded [.ok strayDatagram] := by
  intro honly
  have hdelivers : strayClient.Delivers [.ok strayDatagram] strayDatagram [7] :=
    delivers_of_accepts List.mem_cons_self
      (show strayClient.accepts strayDatagram = some ([7], strayClient.peerId) by decide +kernel)
  obtain ⟨frame, -, -, -, hsrc, -, -⟩ := honly strayDatagram [7] hdelivers
  exact absurd hsrc (by decide)

end RelayClient

end ConnectAlso
