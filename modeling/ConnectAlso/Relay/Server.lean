import ConnectAlso.RelayProto.Frame

/-!
# The relay server

The main loop of `services/relay/src/main.rs:34-78`. The server keeps a table from
peer ids to the socket address that last registered the id, and forwards a DATA
frame to the address registered for its target. A datagram that does not decode
is skipped; a frame that decodes but cannot be encoded again ends the loop,
because the error of `encode` is propagated with `?`.

`latestRegistration` says what the table is for without following the loop: the
address of an id is the source of the last HELLO or KEEPALIVE sent under it.
`relayLoop_peers` connects the two.
-/

namespace ConnectAlso.Relay
open RelayProto

/-- `peers: HashMap<PeerId, SocketAddr>`. -/
abbrev Peers := PeerId → Option SocketAddr

/-- `HashMap::new()`. -/
def noPeers : Peers := fun _ => none

/-- The receive buffer `[0u8; 4096]`; a longer datagram is cut to it. -/
def recvBuffer : Nat := 4096

/-- What `recv_from` leaves in the receive buffer. -/
def received (datagram : Datagram) : List UInt8 := datagram.payload.take recvBuffer

/-- One iteration of the main loop: the new table and the datagrams sent. The
    socket calls themselves are taken to succeed, so the only error that leaves
    the loop is that of `fwd.encode()?`. -/
def relayStep (listen : SocketAddr) (peers : Peers) (datagram : Datagram) :
    Except ProtoError (Peers × List Datagram) :=
  match RelayFrame.decode (received datagram) with
  | .error _ => .ok (peers, [])
  | .ok frame =>
    match frame.msgType with
    | .hello => .ok (Function.update peers frame.senderId (some datagram.src), [])
    | .data =>
      match peers frame.targetId with
      | some targetAddr =>
        let fwd := RelayFrame.data frame.senderId frame.targetId frame.payload
        match fwd.encode with
        | .error e => .error e
        | .ok encoded => .ok (peers, [{ src := listen, dst := targetAddr, payload := encoded }])
      | none => .ok (peers, [])
    | .keepalive => .ok (Function.update peers frame.senderId (some datagram.src), [])

/-- The main loop over the datagrams that arrive, in order. -/
def relayLoop (listen : SocketAddr) :
    Peers → List Datagram → Except ProtoError (Peers × List Datagram)
  | peers, [] => .ok (peers, [])
  | peers, datagram :: rest =>
    match relayStep listen peers datagram with
    | .error e => .error e
    | .ok (peers, sent) =>
      match relayLoop listen peers rest with
      | .error e => .error e
      | .ok (peers, later) => .ok (peers, sent ++ later)

/-! ## What a datagram does -/

/-- The source address of a datagram that registers `id`: a HELLO or KEEPALIVE
    frame sent under it. -/
def registrationOf (id : PeerId) (datagram : Datagram) : Option SocketAddr :=
  match RelayFrame.decode (received datagram) with
  | .error _ => none
  | .ok frame =>
    if (frame.msgType = .hello ∨ frame.msgType = .keepalive) ∧ frame.senderId = id then
      some datagram.src
    else none

/-- The address that the datagrams so far have registered for `id`. -/
def latestRegistration (past : List Datagram) (id : PeerId) : Option SocketAddr :=
  past.reverse.findSome? (registrationOf id)

/-- A DATA frame for `target` whose payload the encoder refuses. -/
def Overlong (datagram : Datagram) (target : PeerId) : Prop :=
  ∃ frame, RelayFrame.decode (received datagram) = .ok frame ∧ frame.msgType = .data ∧
    frame.targetId = target ∧ maxPayload < frame.payload.length

@[simp] theorem latestRegistration_nil (id : PeerId) : latestRegistration [] id = none := rfl

/-- Later registrations take precedence over a first one. -/
theorem latestRegistration_cons (datagram : Datagram) (past : List Datagram) (id : PeerId) :
    latestRegistration (datagram :: past) id =
      (latestRegistration past id).or (registrationOf id datagram) := by
  rw [latestRegistration, latestRegistration, List.reverse_cons, List.findSome?_append,
    List.findSome?_singleton]

theorem latestRegistration_snoc (past : List Datagram) (datagram : Datagram) (id : PeerId) :
    latestRegistration (past ++ [datagram]) id =
      (registrationOf id datagram).or (latestRegistration past id) := by
  rw [latestRegistration, List.reverse_append, List.reverse_singleton, List.singleton_append,
    List.findSome?_cons]
  cases registrationOf id datagram <;> rfl

/-- A registered address is the source of a registration among the datagrams. -/
theorem exists_of_latestRegistration {past : List Datagram} {id : PeerId} {addr : SocketAddr}
    (h : latestRegistration past id = some addr) :
    ∃ datagram ∈ past, registrationOf id datagram = some addr := by
  obtain ⟨datagram, hmem, hreg⟩ := List.exists_of_findSome?_eq_some h
  exact ⟨datagram, List.mem_reverse.mp hmem, hreg⟩

/-- An id that some datagram registers has an address. -/
theorem latestRegistration_isSome {past : List Datagram} {id : PeerId} {datagram : Datagram}
    {addr : SocketAddr} (hmem : datagram ∈ past) (hreg : registrationOf id datagram = some addr) :
    (latestRegistration past id).isSome := by
  rw [latestRegistration, List.findSome?_isSome_iff]
  exact ⟨datagram, List.mem_reverse.mpr hmem, by rw [hreg]; rfl⟩

/-! ## One iteration -/

section
variable {listen : SocketAddr} {peers : Peers} {datagram : Datagram}

theorem relayStep_undecodable {e : ProtoError}
    (hdecode : RelayFrame.decode (received datagram) = .error e) :
    relayStep listen peers datagram = .ok (peers, []) := by
  simp [relayStep, hdecode]

theorem relayStep_register {frame : RelayFrame}
    (hdecode : RelayFrame.decode (received datagram) = .ok frame) (htype : frame.msgType ≠ .data) :
    relayStep listen peers datagram =
      .ok (Function.update peers frame.senderId (some datagram.src), []) := by
  cases hkind : frame.msgType with
  | hello => simp [relayStep, hdecode, hkind]
  | data => exact absurd hkind htype
  | keepalive => simp [relayStep, hdecode, hkind]

theorem relayStep_data_none {frame : RelayFrame}
    (hdecode : RelayFrame.decode (received datagram) = .ok frame) (htype : frame.msgType = .data)
    (htarget : peers frame.targetId = none) :
    relayStep listen peers datagram = .ok (peers, []) := by
  simp [relayStep, hdecode, htype, htarget]

theorem relayStep_data_some {frame : RelayFrame} {addr : SocketAddr}
    (hdecode : RelayFrame.decode (received datagram) = .ok frame) (htype : frame.msgType = .data)
    (htarget : peers frame.targetId = some addr) :
    relayStep listen peers datagram =
      match (RelayFrame.data frame.senderId frame.targetId frame.payload).encode with
      | .error e => .error e
      | .ok encoded => .ok (peers, [{ src := listen, dst := addr, payload := encoded }]) := by
  simp only [relayStep, hdecode, htype, htarget]

/-- A DATA frame never changes the table. -/
theorem relayStep_data_peers {peers' : Peers} {sent : List Datagram} {frame : RelayFrame}
    (hdecode : RelayFrame.decode (received datagram) = .ok frame) (htype : frame.msgType = .data)
    (h : relayStep listen peers datagram = .ok (peers', sent)) : peers' = peers := by
  cases htarget : peers frame.targetId with
  | none =>
      rw [relayStep_data_none hdecode htype htarget] at h
      exact (Prod.mk.inj (Except.ok.inj h)).1.symm
  | some addr =>
      rw [relayStep_data_some hdecode htype htarget] at h
      split at h
      · cases h
      · exact (Prod.mk.inj (Except.ok.inj h)).1.symm

end

/-- An iteration that goes well leaves the table with the registration of the
    datagram, if it is one, and unchanged elsewhere. -/
theorem relayStep_peers {listen : SocketAddr} {peers peers' : Peers} {datagram : Datagram}
    {sent : List Datagram} (h : relayStep listen peers datagram = .ok (peers', sent))
    (id : PeerId) : peers' id = (registrationOf id datagram).or (peers id) := by
  cases hdecode : RelayFrame.decode (received datagram) with
  | error e =>
      rw [relayStep_undecodable hdecode] at h
      obtain ⟨rfl, -⟩ := Prod.mk.inj (Except.ok.inj h)
      simp [registrationOf, hdecode]
  | ok frame =>
      by_cases htype : frame.msgType = .data
      · rw [relayStep_data_peers hdecode htype h]
        simp [registrationOf, hdecode, htype]
      · rw [relayStep_register hdecode htype] at h
        obtain ⟨rfl, -⟩ := Prod.mk.inj (Except.ok.inj h)
        have hkind : frame.msgType = .hello ∨ frame.msgType = .keepalive := by
          cases hkind : frame.msgType with
          | hello => exact Or.inl rfl
          | data => exact absurd hkind htype
          | keepalive => exact Or.inr rfl
        by_cases hid : frame.senderId = id
        · subst hid
          simp [registrationOf, hdecode, hkind]
        · rw [Function.update_of_ne (Ne.symm hid)]
          simp [registrationOf, hdecode, hid]

/-- The iteration ends the loop exactly on an overlong DATA frame whose target is
    registered. -/
theorem relayStep_isError_iff (listen : SocketAddr) (peers : Peers) (datagram : Datagram) :
    (∃ e, relayStep listen peers datagram = .error e) ↔
      ∃ target, Overlong datagram target ∧ (peers target).isSome := by
  constructor
  · rintro ⟨e, he⟩
    cases hdecode : RelayFrame.decode (received datagram) with
    | error e' => rw [relayStep_undecodable hdecode] at he; cases he
    | ok frame =>
        by_cases htype : frame.msgType = .data
        · cases htarget : peers frame.targetId with
          | none => rw [relayStep_data_none hdecode htype htarget] at he; cases he
          | some addr =>
              rw [relayStep_data_some hdecode htype htarget] at he
              split at he
              · rename_i e' hencode
                have hlong := (RelayFrame.encode_eq_error_iff _).mp ⟨e', hencode⟩
                exact ⟨frame.targetId, ⟨frame, hdecode, htype, rfl, hlong⟩, by simp [htarget]⟩
              · cases he
        · rw [relayStep_register hdecode htype] at he; cases he
  · rintro ⟨target, ⟨frame, hdecode, htype, rfl, hlong⟩, hsome⟩
    obtain ⟨addr, htarget⟩ := Option.isSome_iff_exists.mp hsome
    obtain ⟨e, he⟩ := (RelayFrame.encode_eq_error_iff
      (RelayFrame.data frame.senderId frame.targetId frame.payload)).mpr hlong
    exact ⟨e, by rw [relayStep_data_some hdecode htype htarget, he]⟩

/-! ## Whole runs -/

/-- The table after a run is the table before it, overridden by the latest
    registrations of the run. -/
theorem relayLoop_peers {listen : SocketAddr} {peers peers' : Peers} {datagrams sent : List Datagram}
    (h : relayLoop listen peers datagrams = .ok (peers', sent)) (id : PeerId) :
    peers' id = (latestRegistration datagrams id).or (peers id) := by
  induction datagrams generalizing peers sent with
  | nil =>
      obtain ⟨rfl, -⟩ := Prod.mk.inj (Except.ok.inj h)
      simp
  | cons datagram rest ih =>
      unfold relayLoop at h
      cases hstep : relayStep listen peers datagram with
      | error e => rw [hstep] at h; cases h
      | ok result =>
          obtain ⟨middle, first⟩ := result
          rw [hstep] at h
          simp only at h
          cases hrest : relayLoop listen middle rest with
          | error e => rw [hrest] at h; cases h
          | ok result =>
              obtain ⟨last, later⟩ := result
              rw [hrest] at h
              obtain ⟨rfl, -⟩ := Prod.mk.inj (Except.ok.inj h)
              rw [ih hrest, relayStep_peers hstep, latestRegistration_cons, Option.or_assoc]

theorem relayLoop_append (listen : SocketAddr) (peers : Peers) (datagrams later : List Datagram) :
    relayLoop listen peers (datagrams ++ later) =
      match relayLoop listen peers datagrams with
      | .error e => .error e
      | .ok (middle, sent) =>
        match relayLoop listen middle later with
        | .error e => .error e
        | .ok (final, rest) => .ok (final, sent ++ rest) := by
  induction datagrams generalizing peers with
  | nil =>
      simp only [List.nil_append, relayLoop]
      cases relayLoop listen peers later with
      | error e => rfl
      | ok result => rfl
  | cons datagram datagrams ih =>
      simp only [List.cons_append, relayLoop]
      cases relayStep listen peers datagram with
      | error e => rfl
      | ok result =>
          simp only [ih]
          cases relayLoop listen result.1 datagrams with
          | error e => rfl
          | ok middle =>
              simp only
              cases relayLoop listen middle.1 later with
              | error e => rfl
              | ok final => simp only [List.append_assoc]

/-- Registrations are all handled and nothing is sent for them. -/
theorem relayLoop_registrations (listen : SocketAddr) (peers : Peers) {datagrams : List Datagram}
    (h : ∀ datagram ∈ datagrams, ∃ frame,
      RelayFrame.decode (received datagram) = .ok frame ∧ frame.msgType ≠ .data) :
    ∃ table, relayLoop listen peers datagrams = .ok (table, []) := by
  induction datagrams generalizing peers with
  | nil => exact ⟨peers, rfl⟩
  | cons datagram datagrams ih =>
      obtain ⟨frame, hdecode, htype⟩ := h datagram (by simp)
      obtain ⟨table, htable⟩ := ih (Function.update peers frame.senderId (some datagram.src))
        (fun later hlater => h later (List.mem_cons_of_mem _ hlater))
      exact ⟨table, by simp only [relayLoop, relayStep_register hdecode htype, htable,
        List.nil_append]⟩

/-- After an iteration that goes through, the loop goes on with the table it leaves. -/
theorem relayLoop_cons_ok_iff {listen : SocketAddr} {peers middle : Peers} {datagram : Datagram}
    {first : List Datagram} (hstep : relayStep listen peers datagram = .ok (middle, first))
    (rest : List Datagram) :
    (∃ final, relayLoop listen peers (datagram :: rest) = .ok final) ↔
      ∃ final, relayLoop listen middle rest = .ok final := by
  simp only [relayLoop, hstep]
  cases relayLoop listen middle rest with
  | error e => simp
  | ok final => simp

/-- A run that starts in a given table goes through exactly when no overlong DATA
    frame arrives for a target that is registered by then. -/
theorem relayLoop_ok_iff (listen : SocketAddr) (peers : Peers) (datagrams : List Datagram) :
    (∃ final, relayLoop listen peers datagrams = .ok final) ↔
      ∀ past datagram rest target, datagrams = past ++ datagram :: rest →
        Overlong datagram target → (latestRegistration past target).or (peers target) = none := by
  induction datagrams generalizing peers with
  | nil => simp [relayLoop]
  | cons datagram rest ih =>
      cases hstep : relayStep listen peers datagram with
      | error e =>
          obtain ⟨target, hlong, hsome⟩ :=
            (relayStep_isError_iff listen peers datagram).mp ⟨e, hstep⟩
          simp only [relayLoop, hstep, reduceCtorEq, exists_false, false_iff]
          intro hall
          have hnone := hall [] datagram rest target rfl hlong
          rw [latestRegistration_nil, Option.none_or] at hnone
          rw [hnone] at hsome
          cases hsome
      | ok result =>
          obtain ⟨middle, first⟩ := result
          have hmiddle : ∀ past id, (latestRegistration past id).or (middle id) =
              (latestRegistration (datagram :: past) id).or (peers id) := by
            intro past id
            rw [relayStep_peers hstep, latestRegistration_cons, Option.or_assoc]
          rw [relayLoop_cons_ok_iff hstep, ih]
          constructor
          · intro hall past later rest' target hsplit hlong
            cases past with
            | nil =>
                obtain ⟨rfl, rfl⟩ := List.cons.inj hsplit
                rw [latestRegistration_nil, Option.none_or]
                by_contra hsome
                have herror := (relayStep_isError_iff listen peers datagram).mpr
                  ⟨target, hlong, Option.isSome_iff_ne_none.mpr hsome⟩
                rw [hstep] at herror
                obtain ⟨e, he⟩ := herror
                cases he
            | cons head past =>
                obtain ⟨rfl, hrest⟩ := List.cons.inj hsplit
                rw [← hmiddle]
                exact hall past later rest' target hrest hlong
          · intro hall past later rest' target hsplit hlong
            rw [hmiddle]
            exact hall (datagram :: past) later rest' target (by rw [hsplit]; rfl) hlong

/-- The relay, started with an empty table, handles every datagram of a sequence
    exactly when no DATA frame in it carries more than `maxPayload` bytes for an id
    that an earlier HELLO or KEEPALIVE of the sequence registered. -/
theorem relay_survives_iff (listen : SocketAddr) (datagrams : List Datagram) :
    (∃ final, relayLoop listen noPeers datagrams = .ok final) ↔
      ∀ past datagram rest target, datagrams = past ++ datagram :: rest →
        Overlong datagram target → latestRegistration past target = none := by
  rw [relayLoop_ok_iff]
  simp only [noPeers, Option.or_none]

/-- A HELLO of the nil id, then a DATA frame for it that carries 2049 payload bytes. -/
def overlongRun : List Datagram :=
  let client := SocketAddr.localhost 40000
  let relay := SocketAddr.localhost 33478
  [⟨client, relay, [0x01, 0x01] ++ List.replicate 34 0⟩,
    ⟨client, relay, [0x01, 0x02] ++ List.replicate 32 0 ++ [0x08, 0x01] ++ List.replicate 2049 0⟩]

/-- Two datagrams that fit in the receive buffer end the loop: the second is
    decoded but cannot be encoded again. -/
theorem overlongRun_ends_relay :
    (∀ datagram ∈ overlongRun, datagram.payload.length ≤ recvBuffer) ∧
      ¬ ∃ final, relayLoop (SocketAddr.localhost 33478) noPeers overlongRun = .ok final := by
  have hends : (relayLoop (SocketAddr.localhost 33478) noPeers overlongRun).isOk = false := by
    decide +kernel
  refine ⟨by decide +kernel, ?_⟩
  intro ⟨final, hfinal⟩
  rw [hfinal] at hends
  cases hends

end ConnectAlso.Relay
