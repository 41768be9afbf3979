import ConnectAlso.Daemon.Candidates

/-!
# Published candidates and punching sockets

A candidate is of use to a peer as long as the socket behind it is the one from which this
device punches. `discover_candidates` publishes the addresses of a socket that is gone when
it returns, and `attempt_p2p_for_all` binds another one for each call of `punch`:
`candidates_live_iff` says in which rounds this goes unnoticed.
-/

namespace ConnectAlso.Daemon
open Misc Program Traversal

/-- Each call of `punch` was from the socket whose candidates were published last, and no
    unspecified address was published. -/
structure Live (state : DaemonState) : Prop where
  sockets : ∀ attempt ∈ state.attempts,
    attempt.published.bind Discovery.socket = some attempt.socket.id
  addresses : ∀ found ∈ state.publications, ∀ addr ∈ found.candidates,
    addr.ip ≠ .v4 .unspecified

/-- Candidates that are published come from a `StunClient` which does not know its local
    address, and whose mapped address, if it gets one, is not unspecified. -/
def NoneUnspecified (env : Surroundings) : Prop :=
  env.stored = true → ∀ port, env.stunPort = .ok port →
    (∀ found, env.localAddr ≠ .ok found) ∧
      ∀ addr, discover env = .ok addr → addr.ip ≠ .v4 .unspecified

/-- Whenever the peers are synced, and at the start the TUN device is created: every other
    device of the list has no candidates, or there is no socket to punch from. -/
def NonePunched (ourId : Uuid) (state : DaemonState) (env : Surroundings) : Prop :=
  ∀ links, syncPeers env ourId = .ok links →
    (state.phase = .starting → ∃ created, env.tun = .ok created) →
      ∀ id ∈ otherDevices env ourId,
        env.peerCandidates id = [] ∨ ∀ port, env.punchPort id ≠ .ok port

/-- The rounds whose candidates go unnoticed. -/
def Quiet (ourId : Uuid) (state : DaemonState) (env : Surroundings) : Prop :=
  state.phase ≠ .exited → NoneUnspecified env ∧ NonePunched ourId state env

/-- The sockets behind what was published have been bound. -/
def Known (state : DaemonState) : Prop :=
  ∀ found ∈ state.publications, ∀ id, found.socket = some id → id < state.sockets

/-! ## Publishing -/

theorem discoverCandidates_ok {env : Surroundings} {port : UInt16} (h : env.stunPort = .ok port)
    (state : DaemonState) :
    discoverCandidates env state =
      (⟨some state.sockets,
        mappedCandidate env ++ localCandidate env ⟨state.sockets, port⟩⟩,
        { state with sockets := state.sockets + 1 }) := by
  rw [discoverCandidates, h, bind_ok]

theorem discoverCandidates_error {env : Surroundings} {e : IoError} (h : env.stunPort = .error e)
    (state : DaemonState) : discoverCandidates env state = (⟨none, []⟩, state) := by
  rw [discoverCandidates, h, bind_error]

/-- The candidates of a discovery are not unspecified exactly when `local_addr` fails and the
    mapped address is none. -/
theorem discovered_specified_iff (env : Surroundings) (state : DaemonState) :
    (∀ addr ∈ (discoverCandidates env state).1.candidates, addr.ip ≠ .v4 .unspecified) ↔
      ∀ port, env.stunPort = .ok port → (∀ found, env.localAddr ≠ .ok found) ∧
        ∀ addr, discover env = .ok addr → addr.ip ≠ .v4 .unspecified := by
  cases hport : env.stunPort with
  | error e =>
      rw [discoverCandidates_error hport]
      exact iff_of_true (fun addr haddr => absurd haddr List.not_mem_nil)
        (fun port hok => by cases hok)
  | ok port =>
      rw [discoverCandidates_ok hport]
      have hmapped : (∀ addr ∈ mappedCandidate env, addr.ip ≠ .v4 .unspecified) ↔
          ∀ addr, discover env = .ok addr → addr.ip ≠ .v4 .unspecified := by
        rw [mappedCandidate]
        cases discover env with
        | error e => simp
        | ok addr => simp
      have hlocal : (∀ addr ∈ localCandidate env ⟨state.sockets, port⟩,
          addr.ip ≠ .v4 .unspecified) ↔ ∀ found, env.localAddr ≠ .ok found := by
        rw [localCandidate]
        cases env.localAddr with
        | error e => simp
        | ok found => simp [UdpSocket.localAddr]
      rw [← hmapped, ← hlocal]
      refine ⟨?_, ?_⟩
      · intro h port' _
        exact ⟨fun addr haddr => h addr (List.mem_append_right _ haddr),
          fun addr haddr => h addr (List.mem_append_left _ haddr)⟩
      · intro h addr haddr
        obtain ⟨hnolocal, hnomapped⟩ := h port rfl
        rcases List.mem_append.mp haddr with hfirst | hsecond
        · exact hnomapped addr hfirst
        · exact hnolocal addr hsecond

/-- What `republish` does: it publishes `added`, from sockets that have been bound. -/
structure Republished (before after : DaemonState) (added : List Discovery) : Prop where
  attempts : after.attempts = before.attempts
  publications : after.publications = before.publications ++ added
  sockets : before.sockets ≤ after.sockets
  bound : ∀ found ∈ added, ∀ id, found.socket = some id → id < after.sockets

theorem discoverCandidates_bound (env : Surroundings) (state : DaemonState) :
    (discoverCandidates env state).2 =
        { state with sockets := (discoverCandidates env state).2.sockets } ∧
      state.sockets ≤ (discoverCandidates env state).2.sockets ∧
      ∀ id, (discoverCandidates env state).1.socket = some id →
        id < (discoverCandidates env state).2.sockets := by
  cases hport : env.stunPort with
  | error e =>
      rw [discoverCandidates_error hport]
      exact ⟨rfl, le_rfl, fun id hid => by cases hid⟩
  | ok port =>
      rw [discoverCandidates_ok hport]
      refine ⟨rfl, Nat.le_succ _, ?_⟩
      intro id hid
      rw [← Option.some.inj hid]
      exact Nat.lt_succ_self state.sockets

theorem republish_republished (env : Surroundings) (state : DaemonState) :
    ∃ added, Republished state (republish env state) added ∧
      ((∀ found ∈ added, ∀ addr ∈ found.candidates, addr.ip ≠ .v4 .unspecified) ↔
        NoneUnspecified env) := by
  obtain ⟨hstate, hsockets, hbound⟩ := discoverCandidates_bound env state
  have hspecified := discovered_specified_iff env state
  rw [republish, publishCandidates]
  by_cases hempty : (discoverCandidates env state).1.candidates = []
  · rw [if_pos hempty, hstate]
    refine ⟨[], ⟨rfl, (List.append_nil _).symm, hsockets, fun _ h => absurd h List.not_mem_nil⟩,
      iff_of_true (fun _ h => absurd h List.not_mem_nil) fun _ => hspecified.mp ?_⟩
    rw [hempty]
    exact fun _ h => absurd h List.not_mem_nil
  · rw [if_neg hempty]
    by_cases hstored : env.stored = true
    · rw [if_pos hstored]
      refine ⟨[(discoverCandidates env state).1], ⟨?_, ?_, hsockets, ?_⟩, ?_⟩
      · rw [hstate]
      · rw [hstate]
      · intro found hfound
        rw [List.mem_singleton.mp hfound]
        exact hbound
      · rw [List.forall_mem_singleton, hspecified]
        exact ⟨fun h _ => h, fun h => h hstored⟩
    · rw [if_neg hstored, hstate]
      exact ⟨[], ⟨rfl, (List.append_nil _).symm, hsockets, fun _ h => absurd h List.not_mem_nil⟩,
        iff_of_true (fun _ h => absurd h List.not_mem_nil) fun h => absurd h hstored⟩

/-! ## Punching -/

/-- What a stretch of `attempt_p2p_for_all` does: it calls `punch` as in `added`, each time
    from a socket that was not there before. -/
structure Attempted (before after : DaemonState) (added : List Attempt) : Prop where
  publications : after.publications = before.publications
  attempts : after.attempts = before.attempts ++ added
  sockets : before.sockets ≤ after.sockets
  fresh : ∀ attempt ∈ added,
    attempt.published = before.publications.getLast? ∧ before.sockets ≤ attempt.socket.id

namespace Attempted

variable {before middle after : DaemonState} {added more : List Attempt}

theorem refl (state : DaemonState) : Attempted state state [] :=
  ⟨rfl, (List.append_nil _).symm, le_rfl, fun _ h => absurd h List.not_mem_nil⟩

theorem trans (h : Attempted before middle added) (h' : Attempted middle after more) :
    Attempted before after (added ++ more) := by
  refine ⟨h'.publications.trans h.publications, ?_,
    h.sockets.trans h'.sockets, ?_⟩
  · rw [h'.attempts, h.attempts, List.append_assoc]
  · intro attempt hattempt
    rcases List.mem_append.mp hattempt with hfirst | hlater
    · exact h.fresh attempt hfirst
    · obtain ⟨hpublished, hid⟩ := h'.fresh attempt hlater
      exact ⟨by rw [hpublished, h.publications], h.sockets.trans hid⟩

/-- It does not matter what becomes of the phase and of the shared maps. -/
theorem congr (h : Attempted before middle added) (hpublications : after.publications =
    middle.publications) (hattempts : after.attempts = middle.attempts)
    (hsockets : after.sockets = middle.sockets) : Attempted before after added :=
  ⟨hpublications.trans h.publications, hattempts.trans h.attempts, hsockets ▸ h.sockets, h.fresh⟩

end Attempted

/-- The iteration for a peer that is not on a direct path calls `punch` if the peer has
    candidates and there is a socket. -/
theorem attemptP2p_attempted {link : PeerLink} (hstatus : link.path.currentStatus = .relay)
    (env : Surroundings) (pid : Uuid) (state : DaemonState) :
    ∃ added, Attempted state (attemptP2p env pid link state).2 added ∧
      (added = [] ↔ env.peerCandidates pid = [] ∨ ∀ port, env.punchPort pid ≠ .ok port) := by
  have hrelay : link.path.currentStatus ≠ .direct := by
    rw [hstatus]
    exact PathStatus.noConfusion
  rw [attemptP2p, if_neg hrelay]
  by_cases hcandidates : env.peerCandidates pid = []
  · rw [if_pos hcandidates]
    exact ⟨[], Attempted.refl state, iff_of_true rfl (Or.inl hcandidates)⟩
  · rw [if_neg hcandidates]
    cases hport : env.punchPort pid with
    | error e =>
        rw [bind_error]
        exact ⟨[], Attempted.refl state, iff_of_true rfl (Or.inr fun port h => by cases h)⟩
    | ok port =>
        rw [bind_ok]
        refine ⟨[⟨⟨state.sockets, port⟩, (env.peerCandidates pid).map Candidate.host,
          state.publications.getLast?⟩], ⟨rfl, rfl, Nat.le_succ _, ?_⟩,
          iff_of_false (List.cons_ne_nil _ _) ?_⟩
        · intro attempt hattempt
          rw [List.mem_singleton.mp hattempt]
          exact ⟨rfl, le_rfl⟩
        · rintro (hempty | hnone)
          · exact hcandidates hempty
          · exact hnone port rfl

/-- The loop, over links that are on the relay. -/
theorem attemptEach_attempted (env : Surroundings) {entries : List (Uuid × PeerLink)}
    (hstatus : ∀ entry ∈ entries, entry.2.path.currentStatus = .relay) (links : SharedState)
    (state : DaemonState) :
    ∃ added, Attempted state (attemptEach env entries links state).2 added ∧
      (added = [] ↔ ∀ entry ∈ entries,
        env.peerCandidates entry.1 = [] ∨ ∀ port, env.punchPort entry.1 ≠ .ok port) := by
  induction entries generalizing links state with
  | nil =>
      exact ⟨[], Attempted.refl state,
        iff_of_true rfl fun entry h => absurd h List.not_mem_nil⟩
  | cons entry rest ih =>
      obtain ⟨pid, link⟩ := entry
      obtain ⟨added, hfirst, hadded⟩ :=
        attemptP2p_attempted (hstatus (pid, link) List.mem_cons_self) env pid state
      obtain ⟨more, hrest, hmore⟩ := ih (fun other h => hstatus other (List.mem_cons_of_mem _ h))
        { links with
          peerLinks := Function.update links.peerLinks pid
            (some (attemptP2p env pid link state).1) } (attemptP2p env pid link state).2
      refine ⟨added ++ more, hfirst.trans hrest, ?_⟩
      rw [List.append_eq_nil_iff, hadded, hmore, List.forall_mem_cons]

/-- The entries of the links that `connect_peers` has made: one for each other device, all
    on the relay. -/
theorem linkEntries_of_syncPeers {env : Surroundings} {ourId : Uuid} {links : SharedState}
    (h : syncPeers env ourId = .ok links) :
    (∀ entry ∈ linkEntries env ourId links, entry.2.path.currentStatus = .relay) ∧
      ∀ id, id ∈ otherDevices env ourId ↔ ∃ link, (id, link) ∈ linkEntries env ourId links := by
  obtain ⟨peers, hpeers, hlinks⟩ := connectPeers_links h
  have hdevices : otherDevices env ourId =
      (peers.filter fun p => p.deviceId ≠ ourId).map PeerInfo.deviceId := by
    rw [otherDevices, hpeers]
  have hmem : ∀ id link, (id, link) ∈ linkEntries env ourId links ↔
      id ∈ otherDevices env ourId ∧ links.peerLinks id = some link := by
    intro id link
    rw [linkEntries, (env.order.perm _).mem_iff, List.mem_filterMap]
    refine ⟨?_, ?_⟩
    · rintro ⟨id', hid, hlink⟩
      obtain ⟨link', hlink', heq⟩ := Option.map_eq_some_iff.mp hlink
      obtain ⟨rfl, rfl⟩ := Prod.mk.inj heq
      exact ⟨List.mem_dedup.mp hid, hlink'⟩
    · rintro ⟨hid, hlink⟩
      exact ⟨id, List.mem_dedup.mpr hid, Option.map_eq_some_iff.mpr ⟨link, hlink, rfl⟩⟩
  refine ⟨?_, ?_⟩
  · rintro ⟨id, link⟩ hentry
    obtain ⟨hid, hlink⟩ := (hmem id link).mp hentry
    rw [hdevices] at hid
    obtain ⟨link', hstatus, hlink'⟩ := hlinks id hid
    rw [hlink] at hlink'
    rwa [Option.some.inj hlink']
  · intro id
    refine ⟨?_, fun ⟨link, hentry⟩ => ((hmem id link).mp hentry).1⟩
    intro hid
    obtain ⟨link, -, hlink⟩ := hlinks id (hdevices ▸ hid)
    exact ⟨link, (hmem id link).mpr ⟨hid, hlink⟩⟩

/-- `attempt_p2p_for_all` right after `connect_peers` calls `punch` unless every other device
    has no candidates or gets no socket. -/
theorem attemptP2pForAll_attempted {env : Surroundings} {ourId : Uuid} {links : SharedState}
    (h : syncPeers env ourId = .ok links) (state : DaemonState) :
    ∃ added, Attempted state (attemptP2pForAll env ourId links state).2 added ∧
      (added = [] ↔ ∀ id ∈ otherDevices env ourId,
        env.peerCandidates id = [] ∨ ∀ port, env.punchPort id ≠ .ok port) := by
  obtain ⟨hstatus, hdevices⟩ := linkEntries_of_syncPeers h
  obtain ⟨added, hattempted, hadded⟩ := attemptEach_attempted env hstatus links state
  refine ⟨added, hattempted, hadded.trans ⟨?_, ?_⟩⟩
  · intro hentries id hid
    obtain ⟨link, hentry⟩ := (hdevices id).mp hid
    exact hentries (id, link) hentry
  · rintro hall ⟨id, link⟩ hentry
    exact hall id ((hdevices id).mpr ⟨link, hentry⟩)

/-! ## Whole rounds -/

section Round
variable {before after : DaemonState}

theorem known_republished (hknown : Known before) {added : List Discovery}
    (h : Republished before after added) : Known after := by
  intro found hfound id hid
  rw [h.publications] at hfound
  rcases List.mem_append.mp hfound with hold | hnew
  · exact (hknown found hold id hid).trans_le h.sockets
  · exact h.bound found hnew id hid

theorem known_attempted (hknown : Known before) {added : List Attempt}
    (h : Attempted before after added) : Known after := by
  intro found hfound id hid
  rw [h.publications] at hfound
  exact (hknown found hfound id hid).trans_le h.sockets

theorem live_republished_iff {added : List Discovery} (h : Republished before after added) :
    Live after ↔ Live before ∧
      ∀ found ∈ added, ∀ addr ∈ found.candidates, addr.ip ≠ .v4 .unspecified := by
  refine ⟨?_, ?_⟩
  · rintro ⟨hsockets, haddresses⟩
    rw [h.attempts] at hsockets
    rw [h.publications] at haddresses
    exact ⟨⟨hsockets, fun found hfound => haddresses found (List.mem_append_left _ hfound)⟩,
      fun found hfound => haddresses found (List.mem_append_right _ hfound)⟩
  · rintro ⟨⟨hsockets, haddresses⟩, hadded⟩
    refine ⟨by rwa [h.attempts], ?_⟩
    intro found hfound
    rw [h.publications] at hfound
    rcases List.mem_append.mp hfound with hold | hnew
    · exact haddresses found hold
    · exact hadded found hnew

/-- A call of `punch` is never from the socket whose candidates are published: its socket
    has just been bound. -/
theorem live_attempted_iff (hknown : Known before) {added : List Attempt}
    (h : Attempted before after added) : Live after ↔ Live before ∧ added = [] := by
  refine ⟨?_, ?_⟩
  · rintro ⟨hsockets, haddresses⟩
    rw [h.attempts] at hsockets
    rw [h.publications] at haddresses
    refine ⟨⟨fun attempt hattempt => hsockets attempt (List.mem_append_left _ hattempt),
      haddresses⟩, ?_⟩
    rw [List.eq_nil_iff_forall_not_mem]
    intro attempt hattempt
    obtain ⟨hpublished, hfresh⟩ := h.fresh attempt hattempt
    have hsame := hsockets attempt (List.mem_append_right _ hattempt)
    obtain ⟨found, hfound, hid⟩ := Option.bind_eq_some_iff.mp hsame
    rw [hpublished] at hfound
    have hold := hknown found (List.mem_of_getLast? hfound) attempt.socket.id hid
    exact absurd hold (not_lt.mpr hfresh)
  · rintro ⟨⟨hsockets, haddresses⟩, rfl⟩
    refine ⟨?_, by rwa [h.publications]⟩
    rwa [h.attempts, List.append_nil]

/-- A tick, after the candidates have been published. -/
theorem refresh_attempted (ourId : Uuid) (env : Surroundings) (state : DaemonState) :
    ∃ added, Attempted (republish env state) (refresh ourId env state) added ∧
      (added = [] ↔ ∀ links, syncPeers env ourId = .ok links → ∀ id ∈ otherDevices env ourId,
        env.peerCandidates id = [] ∨ ∀ port, env.punchPort id ≠ .ok port) := by
  cases hsync : syncPeers env ourId with
  | error fault =>
      refine ⟨[], ?_, iff_of_true rfl fun links hlinks => by cases hlinks⟩
      simp only [refresh, hsync]
      exact Attempted.refl _
  | ok links =>
      obtain ⟨added, hattempted, hadded⟩ := attemptP2pForAll_attempted hsync (republish env state)
      refine ⟨added, ?_, hadded.trans ⟨fun h _ _ => h, fun h => h links rfl⟩⟩
      simp only [refresh, hsync]
      exact hattempted.congr rfl rfl rfl

/-- `main`, after the candidates have been published. -/
theorem startUp_attempted (ourId : Uuid) (env : Surroundings) (state : DaemonState) :
    ∃ added, Attempted (republish env state) (startUp ourId env state) added ∧
      (added = [] ↔ ∀ links, syncPeers env ourId = .ok links →
        (∃ created, env.tun = .ok created) → ∀ id ∈ otherDevices env ourId,
          env.peerCandidates id = [] ∨ ∀ port, env.punchPort id ≠ .ok port) := by
  cases hsync : syncPeers env ourId with
  | error fault =>
      refine ⟨[], ?_, iff_of_true rfl fun links hlinks => by cases hlinks⟩
      simp only [startUp, hsync]
      exact (Attempted.refl _).congr rfl rfl rfl
  | ok links =>
      cases htun : env.tun with
      | error e =>
          refine ⟨[], ?_, iff_of_true rfl fun _ _ hcreated => by cases hcreated.choose_spec⟩
          simp only [startUp, hsync, htun]
          exact (Attempted.refl _).congr rfl rfl rfl
      | ok created =>
          obtain ⟨added, hattempted, hadded⟩ :=
            attemptP2pForAll_attempted hsync (republish env state)
          refine ⟨added, ?_, hadded.trans ⟨fun h _ _ _ => h, fun h => h links rfl ⟨created, rfl⟩⟩⟩
          simp only [startUp, hsync, htun]
          exact hattempted.congr rfl rfl rfl

/-- The part of a round after the candidates have been published. -/
theorem daemonStep_attempted (ourId : Uuid) (state : DaemonState) (env : Surroundings)
    (hphase : state.phase ≠ .exited) :
    ∃ added, Attempted (republish env state) (daemonStep ourId state env) added ∧
      (added = [] ↔ NonePunched ourId state env) := by
  rw [daemonStep, NonePunched]
  cases hnow : state.phase with
  | starting =>
      obtain ⟨added, hattempted, hadded⟩ := startUp_attempted ourId env state
      refine ⟨added, hattempted, hadded.trans ?_⟩
      exact ⟨fun h links hlinks hcreated => h links hlinks (hcreated rfl),
        fun h links hlinks hcreated => h links hlinks fun _ => hcreated⟩
  | running =>
      obtain ⟨added, hattempted, hadded⟩ := refresh_attempted ourId env state
      refine ⟨added, hattempted, hadded.trans ?_⟩
      exact ⟨fun h links hlinks _ => h links hlinks,
        fun h links hlinks => h links hlinks fun hstarting => by cases hstarting⟩
  | exited => exact absurd hnow hphase

theorem daemonStep_of_exited {state : DaemonState} (h : state.phase = .exited) (ourId : Uuid)
    (env : Surroundings) : daemonStep ourId state env = state := by
  rw [daemonStep, h]

theorem known_daemonStep (ourId : Uuid) (state : DaemonState) (env : Surroundings)
    (hknown : Known state) : Known (daemonStep ourId state env) := by
  by_cases hphase : state.phase = .exited
  · rwa [daemonStep_of_exited hphase]
  · obtain ⟨_, hpublished, -⟩ := republish_republished env state
    obtain ⟨_, hattempted, -⟩ := daemonStep_attempted ourId state env hphase
    exact known_attempted (known_republished hknown hpublished) hattempted

/-- A round keeps the candidates live exactly when it is quiet. -/
theorem live_daemonStep_iff (ourId : Uuid) (state : DaemonState) (env : Surroundings)
    (hknown : Known state) (hlive : Live state) :
    Live (daemonStep ourId state env) ↔ Quiet ourId state env := by
  by_cases hphase : state.phase = .exited
  · rw [daemonStep_of_exited hphase]
    exact iff_of_true hlive fun h => absurd hphase h
  · obtain ⟨found, hpublished, hfound⟩ := republish_republished env state
    obtain ⟨added, hattempted, hadded⟩ := daemonStep_attempted ourId state env hphase
    rw [live_attempted_iff (known_republished hknown hpublished) hattempted,
      live_republished_iff hpublished, hfound, hadded]
    exact ⟨fun h _ => ⟨h.1.2, h.2⟩, fun h => ⟨⟨hlive, (h hphase).1⟩, (h hphase).2⟩⟩

end Round

/-- Over any number of rounds, with any ports, mappings and answers: whenever `punch` was run,
    it was from the socket whose candidates were published last, and no unspecified address
    was published, exactly as long as every round is quiet. -/
theorem candidates_live_iff (ourId : Uuid) (rounds : List Surroundings) :
    Throughout (daemonStep ourId) Live .start rounds ↔
      EachStep (daemonStep ourId) (Quiet ourId) .start rounds := by
  refine throughout_iff_eachStep (known_daemonStep ourId) (live_daemonStep_iff ourId) ?_ ?_ rounds
  · exact fun found hfound => absurd hfound List.not_mem_nil
  · exact ⟨fun attempt h => absurd h List.not_mem_nil, fun found h => absurd h List.not_mem_nil⟩

/-- Device number `n`. -/
def numberedDevice (n : UInt8) : Uuid := ⟨List.replicate 15 0 ++ [n], rfl⟩

/-- A round in which nothing fails: the NAT maps port 50000 to 203.0.113.9:40000, and the
    other device has published 198.51.100.7:40000. -/
def nothingFails : Surroundings where
  stunPort := .ok 50000
  txId := Octets.replicate 12 7
  requestSent := .ok 20
  response := .ok (Stun.Client.bindingResponse (Octets.replicate 12 7) ⟨203, 0, 113, 9⟩ 40000)
  localAddr := .ok ()
  stored := true
  net := Network.ideal
  relaySocket := fun _ => .ok (.localhost 50001)
  peers := .ok [⟨numberedDevice 2, "100.64.0.2", Octets.replicate 32 2, "other"⟩]
  relayAddr := .localhost 33478
  tun := .ok ()
  order := HashOrder.newestFirst
  peerCandidates := fun _ => [⟨.v4 ⟨198, 51, 100, 7⟩, 40000⟩]
  punchPort := fun _ => .ok 50002
  answers := fun _ _ op =>
    match op with
    | .sendTo _ payload _ => .ok payload.length
    | .recvTimeout _ => none

/-- The first round publishes the mapped address of socket 0 and 0.0.0.0:50000, and punches
    from socket 1 with port 50002. -/
theorem punched_from_another_socket :
    (daemonStep (numberedDevice 1) .start nothingFails).attempts =
        [⟨⟨1, 50002⟩, [Candidate.host ⟨.v4 ⟨198, 51, 100, 7⟩, 40000⟩],
          some ⟨some 0, [⟨.v4 ⟨203, 0, 113, 9⟩, 40000⟩, ⟨.v4 .unspecified, 50000⟩]⟩⟩] ∧
      ¬ Throughout (daemonStep (numberedDevice 1)) Live .start [nothingFails] := by
  have hattempts : (daemonStep (numberedDevice 1) .start nothingFails).attempts =
      [⟨⟨1, 50002⟩, [Candidate.host ⟨.v4 ⟨198, 51, 100, 7⟩, 40000⟩],
        some ⟨some 0, [⟨.v4 ⟨203, 0, 113, 9⟩, 40000⟩, ⟨.v4 .unspecified, 50000⟩]⟩⟩] := by
    decide +kernel
  refine ⟨hattempts, ?_⟩
  intro hlive
  have hend : Live (daemonStep (numberedDevice 1) .start nothingFails) :=
    hlive [nothingFails] (List.prefix_refl _)
  have hsame := hend.sockets _ (by rw [hattempts]; exact List.mem_cons_self)
  exact absurd hsame (by decide)

end ConnectAlso.Daemon
