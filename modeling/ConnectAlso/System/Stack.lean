import ConnectAlso.Control.Listings
import ConnectAlso.Daemon.Following

/-!
# The control service and its daemons

Any number of daemons run against one control service, whose requests are served statement
by statement in any order. A daemon sees the service through `handle_peers` only, once in
each of its rounds; the request can fail, and so can everything else in the round. What
ties the two together is the address lease: a packet goes to the device that had its
destination address when the daemon synced last.
-/

namespace ConnectAlso.System
open Misc Program Daemon

/-- An entry of the answer of `handle_peers`, as a daemon decodes it. -/
def decoded (p : Control.PeerInfo) : PeerInfo where
  deviceId := p.deviceId
  ipv4 := p.ipv4
  publicKey := p.publicKey
  hostname := p.hostname

/-- The requests in service with the database, and the daemon of each device. -/
structure Stack (ι : Type) where
  service : Pool Control.statements ι Control.Reply Control.Db
  daemons : Uuid → DaemonState

/-- A statement of a request, or a round of the daemon of a device: `answered` is the time
    at which the service answers its request for the peers, or why it does not. -/
inductive StackEvent (ι : Type) where
  | statement (i : ι)
  | round (ourId : Uuid) (env : Surroundings) (answered : Except String Int)

namespace Stack
variable {ι : Type}

/-- An empty database, and no daemon has started. -/
def start (state : Control.AppState) (requests : ι → Control.Request) : Stack ι where
  service := Control.serving state requests Control.Db.empty
  daemons _ := .start

/-- What a round meets: the peer list is the one of the service. -/
def met (stack : Stack ι) (env : Surroundings) (answered : Except String Int) : Surroundings :=
  { env with
    peers := answered.map fun now => (Control.handlePeers now stack.service.state).map decoded }

/-- One event. -/
def step [DecidableEq ι] (stack : Stack ι) : StackEvent ι → Stack ι
  | .statement i => { stack with service := stack.service.step Control.handle i }
  | .round ourId env answered =>
    { stack with
      daemons := Function.update stack.daemons ourId
        (daemonStep ourId (stack.daemons ourId) (stack.met env answered)) }

/-- The event is no round in which the daemon of the device could sync. -/
def NoSync (ourId : Uuid) (stack : Stack ι) : StackEvent ι → Prop
  | .statement _ => True
  | .round id env answered =>
    id = ourId → ∀ links, syncPeers (stack.met env answered) ourId ≠ .ok links

end Stack

/-- The service has leased the address to the device: its row is approved and has it. -/
def LeasedTo (db : Control.Db) (addr : Ipv4Addr) (id : Uuid) : Prop :=
  ∃ d ∈ db.devices, d.status = 1 ∧ d.ipv4 = addr.toString ∧ d.deviceId = id

theorem LeasedTo.unique {db : Control.Db} {addr : Ipv4Addr} {id id' : Uuid}
    (h : LeasedTo db addr id) (h' : LeasedTo db addr id') : id = id' := by
  obtain ⟨d, hd, -, haddr, rfl⟩ := h
  obtain ⟨e, he, -, haddr', rfl⟩ := h'
  obtain rfl := Table.eq_of_clash hd he (Or.inr (Or.inr (haddr.trans haddr'.symm)))
  rfl

/-- An entry of the list is an approved row with a proper address. -/
theorem mem_served {db : Control.Db} (h : Control.Sound db) {now : Int} {p : PeerInfo} :
    p ∈ (Control.handlePeers now db).map decoded ↔
      ∃ d ∈ db.devices, d.status = 1 ∧ p = ⟨d.deviceId, d.ipv4, d.publicKey, d.hostname⟩ := by
  have hrow : ∀ d ∈ db.devices, d.status = 1 → decoded (d.toRecord.peerInfo now) =
      ⟨d.deviceId, d.ipv4, d.publicKey, d.hostname⟩ := by
    intro d hd hstatus
    rw [← h.approved_ipv4 hd hstatus]
    rfl
  rw [((Control.handlePeers_perm now db).map decoded).mem_iff]
  simp only [List.mem_map, List.mem_filter, decide_eq_true_eq, exists_exists_and_eq_and]
  constructor
  · rintro ⟨d, ⟨hd, hstatus⟩, rfl⟩
    exact ⟨d, hd, hstatus, hrow d hd hstatus⟩
  · rintro ⟨d, hd, hstatus, rfl⟩
    exact ⟨d, ⟨hd, hstatus⟩, hrow d hd hstatus⟩

/-- The list of the service gives an address to the device that has leased it. -/
theorem deviceAt_served {db : Control.Db} (h : Control.Sound db) (now : Int) (ourId : Uuid)
    (addr : Ipv4Addr) (id : Uuid) :
    deviceAt ourId ((Control.handlePeers now db).map decoded) addr = some id ↔
      LeasedTo db addr id ∧ id ≠ ourId := by
  have hleased : ∀ p : PeerInfo, p ∈ ((Control.handlePeers now db).map decoded).filter
      (fun p => p.deviceId ≠ ourId) → hasAddress addr p = true →
        LeasedTo db addr p.deviceId ∧ p.deviceId ≠ ourId := by
    intro p hp haddr
    obtain ⟨hmem, hother⟩ := List.mem_filter.mp hp
    obtain ⟨d, hd, hstatus, rfl⟩ := (mem_served h).mp hmem
    obtain ⟨own, hown⟩ : ∃ own : Ipv4Addr, d.ipv4 = own.toString :=
      ⟨_, (h.approved_ipv4 hd hstatus).symm⟩
    have hparse : Ipv4Addr.parse d.ipv4 = some addr := of_decide_eq_true haddr
    rw [hown, Ipv4Addr.parse_toString] at hparse
    obtain rfl := Option.some.inj hparse
    exact ⟨⟨d, hd, hstatus, hown, rfl⟩, of_decide_eq_true hother⟩
  constructor
  · intro hdevice
    obtain ⟨p, hlast, rfl⟩ := Option.map_eq_some_iff.mp hdevice
    exact hleased p (mem_of_lastWith hlast).1 (mem_of_lastWith hlast).2
  · rintro ⟨hlease, hother⟩
    obtain ⟨d, hd, hstatus, haddr, rfl⟩ := hlease
    have hmem : (⟨d.deviceId, d.ipv4, d.publicKey, d.hostname⟩ : PeerInfo) ∈
        ((Control.handlePeers now db).map decoded).filter (fun p => p.deviceId ≠ ourId) :=
      List.mem_filter.mpr ⟨(mem_served h).mpr ⟨d, hd, hstatus, rfl⟩, decide_eq_true hother⟩
    rw [deviceAt]
    cases hlast : lastWith (hasAddress addr) (((Control.handlePeers now db).map decoded).filter
        fun p => p.deviceId ≠ ourId) with
    | none =>
        have hnone := List.find?_eq_none.mp hlast _ (List.mem_reverse.mpr hmem)
        rw [hasAddress, haddr, Ipv4Addr.parse_toString] at hnone
        exact absurd (decide_eq_true rfl) hnone
    | some q =>
        have hq := hleased q (mem_of_lastWith hlast).1 (mem_of_lastWith hlast).2
        exact congrArg some (hq.1.unique ⟨d, hd, hstatus, haddr, rfl⟩)

/-! ## Runs -/

section
variable {ι : Type} [DecidableEq ι]

theorem sound_run_stack (state : Control.AppState) (requests : ι → Control.Request)
    (events : List (StackEvent ι)) :
    Control.Sound (run Stack.step (Stack.start state requests) events).service.state := by
  have hservice : Control.InService state requests
      (run Stack.step (Stack.start state requests) events).service := by
    refine @run_invariant _ _ Stack.step
      (fun stack : Stack ι => Control.InService state requests stack.service) ?_ _
      (Control.inService_serving state requests Control.sound_empty) events
    intro stack event h
    cases event with
    | statement i => exact Control.inService_step stack.service i h
    | round ourId env answered => exact h
  exact hservice.sound

/-- The round of the run that the maps of a running daemon come from. -/
structure SyncedLast (start : Stack ι) (events : List (StackEvent ι)) (ourId : Uuid)
    (past : List (StackEvent ι)) (env : Surroundings) (now : Int) : Prop where
  synced : ∃ links, syncPeers ((run Stack.step start past).met env (.ok now)) ourId = .ok links
  last : ∃ later, events = past ++ .round ourId env (.ok now) :: later ∧
    EachStep Stack.step (Stack.NoSync ourId)
      (run Stack.step start (past ++ [.round ourId env (.ok now)])) later

theorem SyncedLast.snoc {start : Stack ι} {events past : List (StackEvent ι)} {ourId : Uuid}
    {env : Surroundings} {now : Int} (h : SyncedLast start events ourId past env now)
    {event : StackEvent ι}
    (hevent : (run Stack.step start events).NoSync ourId event) :
    SyncedLast start (events ++ [event]) ourId past env now := by
  obtain ⟨hsynced, later, rfl, hlater⟩ := h
  refine ⟨hsynced, later ++ [event], by simp, hlater.snoc ?_⟩
  rw [← run_append, List.append_assoc]
  exact hevent

/-- At any time, a running daemon follows the list of its last sync. -/
theorem follows_run_stack (start : Stack ι) (hstart : ∀ id, (start.daemons id).phase = .starting)
    (events : List (StackEvent ι)) (ourId : Uuid)
    (hrunning : ((run Stack.step start events).daemons ourId).phase = .running) :
    ∃ past env now, SyncedLast start events ourId past env now ∧
      Follows ourId
        ((Control.handlePeers now (run Stack.step start past).service.state).map decoded)
        env.relayAddr ((run Stack.step start events).daemons ourId).shared := by
  induction events using List.reverseRecOn with
  | nil =>
      rw [run_nil, hstart] at hrunning
      cases hrunning
  | append_singleton events event ih =>
      rw [run_append, run_cons, run_nil] at hrunning ⊢
      -- an event that leaves the daemon alone
      have hidle : (run Stack.step start events).NoSync ourId event →
          ((run Stack.step start events).step event).daemons ourId =
            (run Stack.step start events).daemons ourId →
          ∃ past env now, SyncedLast start (events ++ [event]) ourId past env now ∧
            Follows ourId
              ((Control.handlePeers now (run Stack.step start past).service.state).map decoded)
              env.relayAddr (((run Stack.step start events).step event).daemons ourId).shared := by
        intro hno hsame
        rw [hsame] at hrunning ⊢
        obtain ⟨past, env, now, hlast, hfollows⟩ := ih hrunning
        exact ⟨past, env, now, hlast.snoc hno, hfollows⟩
      cases event with
      | statement i => exact hidle trivial rfl
      | round id env answered =>
          by_cases hid : id = ourId
          · subst hid
            simp only [Stack.step, Function.update_self] at hrunning ⊢
            rcases daemonStep_follows hrunning with
              ⟨peers, hpeers, hsync, hfollows⟩ | ⟨hnow, hno, hkept⟩
            · cases answered with
              | error e => cases hpeers
              | ok now =>
                  obtain rfl := Except.ok.inj hpeers
                  exact ⟨events, env, now, ⟨hsync, [], rfl, eachStep_nil _ _ _⟩, hfollows⟩
            · obtain ⟨past, env', now, hlast, hfollows⟩ := ih hnow
              refine ⟨past, env', now, hlast.snoc fun _ => hno, ?_⟩
              rw [hkept]
              exact hfollows
          · exact hidle (fun heq => absurd heq hid) (Function.update_of_ne (Ne.symm hid) _ _)

/-- In every state of every run, whatever fails and in whatever order the statements of
    requests and the rounds of daemons come: a running daemon has synced, and it sends a
    packet from its TUN for exactly the other device to which the service had leased the
    destination address when it answered the last request of a sync, to the relay of that
    sync; a packet for an address that was not leased to another device is dropped. -/
theorem packets_follow_leases (state : Control.AppState) (requests : ι → Control.Request)
    (events : List (StackEvent ι)) (ourId : Uuid)
    (hrunning : ((run Stack.step (Stack.start state requests) events).daemons ourId).phase =
      .running) :
    ∃ past env now, SyncedLast (Stack.start state requests) events ourId past env now ∧
      let db := (run Stack.step (Stack.start state requests) past).service.state
      let shared := ((run Stack.step (Stack.start state requests) events).daemons ourId).shared
      (∀ addr id id', LeasedTo db addr id → LeasedTo db addr id' → id = id') ∧
      ∀ net pkt,
        (∀ addr id, parseDstIp pkt = some addr → LeasedTo db addr id → id ≠ ourId →
          ∃ socket, (forwardPacket net shared pkt).sent =
            if pkt.length ≤ RelayProto.maxPayload then
              [⟨socket, env.relayAddr,
                (RelayProto.RelayFrame.data (relayIdOf ourId) (relayIdOf id) pkt).wireBytes⟩]
            else []) ∧
        ((∀ addr id, parseDstIp pkt = some addr → LeasedTo db addr id → id = ourId) →
          (forwardPacket net shared pkt).sent = []) := by
  obtain ⟨past, env, now, hlast, hfollows⟩ :=
    follows_run_stack (Stack.start state requests) (fun _ => rfl) events ourId hrunning
  refine ⟨past, env, now, hlast, fun addr id id' h h' => h.unique h', fun net pkt => ?_⟩
  have hsound := sound_run_stack state requests past
  have hsent := sent_of_follows hfollows net pkt
  refine ⟨?_, ?_⟩
  · intro addr id hdst hlease hother
    rw [hdst, Option.bind_some,
      (deviceAt_served hsound now ourId addr id).mpr ⟨hlease, hother⟩] at hsent
    exact hsent
  · intro hnone
    cases hdst : parseDstIp pkt with
    | none =>
        rw [hdst] at hsent
        exact hsent
    | some addr =>
        cases hdevice : deviceAt ourId ((Control.handlePeers now
            (run Stack.step (Stack.start state requests) past).service.state).map decoded) addr with
        | none =>
            rw [hdst, Option.bind_some, hdevice] at hsent
            exact hsent
        | some id =>
            obtain ⟨hlease, hother⟩ := (deviceAt_served hsound now ourId addr id).mp hdevice
            exact absurd (hnone addr id hdst hlease) hother

end

/-- The first device registers, and then the daemon of another one has a round in which
    nothing fails. -/
def registeredThenSynced : List (StackEvent Nat) :=
  List.replicate 6 (.statement 0) ++ [.round (numberedDevice 9) nothingFails (.ok 5)]

/-- The other daemon runs, and follows the leases. -/
theorem registeredThenSynced_follows :
    let requests := fun n : Nat => Control.registration (UInt8.ofNat n) (UInt8.ofNat n) 0
    let start := Stack.start Control.AppState.default requests
    LeasedTo (run Stack.step start registeredThenSynced).service.state ⟨100, 64, 0, 0⟩
        (Control.idOf 0) ∧
      ∃ past env now, SyncedLast start registeredThenSynced (numberedDevice 9) past env now ∧
        let db := (run Stack.step start past).service.state
        let shared := ((run Stack.step start registeredThenSynced).daemons
          (numberedDevice 9)).shared
        (∀ addr id id', LeasedTo db addr id → LeasedTo db addr id' → id = id') ∧
        ∀ net pkt,
          (∀ addr id, parseDstIp pkt = some addr → LeasedTo db addr id → id ≠ numberedDevice 9 →
            ∃ socket, (forwardPacket net shared pkt).sent =
              if pkt.length ≤ RelayProto.maxPayload then
                [⟨socket, env.relayAddr, (RelayProto.RelayFrame.data
                  (relayIdOf (numberedDevice 9)) (relayIdOf id) pkt).wireBytes⟩]
              else []) ∧
          ((∀ addr id, parseDstIp pkt = some addr → LeasedTo db addr id → id = numberedDevice 9) →
            (forwardPacket net shared pkt).sent = []) := by
  intro requests start
  have hrunning : ((run Stack.step start registeredThenSynced).daemons
      (numberedDevice 9)).phase = .running := by
    decide +kernel
  refine ⟨?_, packets_follow_leases Control.AppState.default requests registeredThenSynced
    (numberedDevice 9) hrunning⟩
  have hrow : ((run Stack.step start registeredThenSynced).service.state.devices.rows.any
      fun d => d.status = 1 ∧ d.ipv4 = (⟨100, 64, 0, 0⟩ : Ipv4Addr).toString ∧
        d.deviceId = Control.idOf 0) = true := by
    decide +kernel
  obtain ⟨d, hd, hstatus⟩ := List.any_eq_true.mp hrow
  exact ⟨d, hd, of_decide_eq_true hstatus⟩

end ConnectAlso.System
