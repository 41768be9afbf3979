import ConnectAlso.Daemon.Following
import ConnectAlso.Tunnel.RelaySelection

/-!
# The daemon and its relays

`main` makes a `RelayPool` of the configured relays, and the refresh task probes all of them
before it syncs the peers (`main.rs:558-600`). The relay of a round is given to
`connect_peers`, so what the pool chooses takes effect for all peers at once, and only with
the next sync that goes through.
-/

namespace ConnectAlso

/-- `RelaySummary`. -/
structure RelaySummary where
  addr : SocketAddr
  latencyMs : Option UInt64
  healthy : Bool
  active : Bool
  deriving DecidableEq

/-- `RelayPool::summary`, which the refresh task logs after each round of probes. -/
def RelayPool.summary (pool : RelayPool) : List RelaySummary :=
  pool.servers.mapIdx fun i s => {
    addr := s.addr
    latencyMs := s.latency.map fun d => UInt64.ofNat (d / 10 ^ 6)
    healthy := s.healthy
    active := i == pool.active }

/-- Where one index of a list is marked, the marked entry is the one there. -/
theorem filter_mapIdx_mark {α β : Type} (shown : Nat → α → β) (mark : β → Bool) (k : Nat)
    (hmark : ∀ i a, mark (shown i a) = (i == k)) (entries : List α) :
    (entries.mapIdx shown).filter mark = (entries[k]?).toList.map (shown k) := by
  induction entries generalizing shown k with
  | nil => rfl
  | cons entry entries ih =>
      rw [List.mapIdx_cons, List.filter_cons, hmark 0 entry]
      cases k with
      | zero =>
          have hrest : (entries.mapIdx fun i => shown (i + 1)).filter mark = [] := by
            rw [List.filter_eq_nil_iff]
            intro b hb
            obtain ⟨i, hi, rfl⟩ := List.mem_mapIdx.mp hb
            simp [hmark]
          simp [hrest]
      | succ k =>
          have hrest := ih (fun i => shown (i + 1)) k fun i a => by simp [hmark]
          simp [hrest]

/-- The relays that the summary shows as active are the active one. -/
theorem RelayPool.filter_active_summary (pool : RelayPool) :
    (pool.summary.filter RelaySummary.active).map RelaySummary.addr = [pool.activeAddr] := by
  have hget : pool.servers[pool.active]? = some (pool.servers.get ⟨pool.active, pool.active_lt⟩) :=
    List.getElem?_eq_getElem pool.active_lt
  rw [RelayPool.summary, filter_mapIdx_mark _ _ pool.active fun _ _ => rfl, hget]
  rfl

namespace Daemon
open Misc

/-- The daemon with its pool. -/
structure PooledDaemon where
  pool : RelayPool
  daemon : DaemonState

/-- What a round meets, with what the probes of the relays come to. -/
structure PooledRound where
  env : Surroundings
  probes : Nat → Probe

/-- The measured latencies are below `Duration::MAX`. -/
def PooledRound.Timely (round : PooledRound) : Prop := (PoolCall.probeAll round.probes).Timely

namespace PooledDaemon

/-- After `RelayPool::new`. -/
def start (relayServers : List SocketAddr) (h : relayServers ≠ []) : PooledDaemon where
  pool := RelayPool.new relayServers h
  daemon := .start

/-- The pool of a round: only the refresh task probes. -/
def probed (s : PooledDaemon) (round : PooledRound) : RelayPool :=
  match s.daemon.phase with
  | .running => s.pool.probeAll round.probes
  | _ => s.pool

/-- What the daemon meets in a round: the relay is the active one of the pool. -/
def met (s : PooledDaemon) (round : PooledRound) : Surroundings :=
  { round.env with relayAddr := (s.probed round).activeAddr }

/-- A round. -/
def step (ourId : Uuid) (s : PooledDaemon) (round : PooledRound) : PooledDaemon where
  pool := s.probed round
  daemon := daemonStep ourId s.daemon (s.met round)

/-- The sync of a round goes through. -/
def Synced (ourId : Uuid) (s : PooledDaemon) (round : PooledRound) : Prop :=
  ∃ links, syncPeers (s.met round) ourId = .ok links

/-- The sync of a round does not go through. -/
def NoSync (ourId : Uuid) (s : PooledDaemon) (round : PooledRound) : Prop :=
  ∀ links, syncPeers (s.met round) ourId ≠ .ok links

/-- The pool is as its probes have left it. -/
def PoolSound (pool : RelayPool) : Prop :=
  RelayPool.Timely pool.servers ∧ RelayPool.FailedAreUnhealthy pool.servers ∧ pool.Invariant

theorem poolSound_step {ourId : Uuid} {s : PooledDaemon} {round : PooledRound}
    (hround : round.Timely) (h : PoolSound s.pool) : PoolSound (s.step ourId round).pool := by
  show PoolSound (s.probed round)
  obtain ⟨htimely, hfailed, hinvariant⟩ := h
  unfold probed
  split
  · obtain ⟨htimely', hfailed'⟩ := RelayPool.servers_step hround htimely hfailed
    exact ⟨htimely', hfailed', RelayPool.invariant_step hround htimely hfailed⟩
  · exact ⟨htimely, hfailed, hinvariant⟩

theorem poolSound_run {relayServers : List SocketAddr} (h : relayServers ≠ []) (ourId : Uuid)
    {rounds : List PooledRound} (hrounds : ∀ round ∈ rounds, round.Timely) :
    PoolSound (run (step ourId) (start relayServers h) rounds).pool := by
  have heach : EachStep (step ourId) (fun _ round => PooledRound.Timely round)
      (start relayServers h) rounds := by
    intro past round hpast
    exact hrounds round (hpast.subset (by simp))
  refine run_invariant_of_eachStep (J := fun s : PooledDaemon => PoolSound s.pool) ?_ ?_ heach
  · exact fun s round hround hs => poolSound_step hround hs
  · exact RelayPool.invariant_new h

/-- The maps of a running daemon are those of its last sync, for the relay that was active
    in it. -/
theorem follows_run_pooled (ourId : Uuid) (begin : PooledDaemon)
    (hstart : begin.daemon.phase = .starting) (rounds : List PooledRound)
    (hrunning : (run (step ourId) begin rounds).daemon.phase = .running) :
    ∃ past round later peers, rounds = past ++ round :: later ∧
      Synced ourId (run (step ourId) begin past) round ∧
      EachStep (step ourId) (NoSync ourId) (run (step ourId) begin (past ++ [round])) later ∧
      (run (step ourId) begin rounds).daemon.shared =
        (run (step ourId) begin (past ++ [round])).daemon.shared ∧
      Follows ourId peers (run (step ourId) begin (past ++ [round])).pool.activeAddr
        (run (step ourId) begin rounds).daemon.shared := by
  induction rounds using List.reverseRecOn with
  | nil =>
      rw [run_nil, hstart] at hrunning
      cases hrunning
  | append_singleton rounds round ih =>
      rw [run_append, run_cons, run_nil] at hrunning ⊢
      rcases daemonStep_follows hrunning with ⟨peers, -, hsynced, hfollows⟩ | ⟨hnow, hno, hkept⟩
      · refine ⟨rounds, round, [], peers, rfl, hsynced, eachStep_nil _ _ _, ?_, ?_⟩
        · rw [run_append, run_cons, run_nil]
        · rw [run_append, run_cons, run_nil]
          exact hfollows
      · obtain ⟨past, last, later, peers, rfl, hsynced, hlater, hsame, hfollows⟩ := ih hnow
        refine ⟨past, last, later ++ [round], peers, by simp, hsynced, ?_, hkept.trans hsame, ?_⟩
        · refine hlater.snoc ?_
          rw [← run_append, List.append_assoc]
          exact hno
        · show Follows ourId peers _ (daemonStep ourId _ _).shared
          rw [hkept]
          exact hfollows

end PooledDaemon

/-- What the task behind the TUN sends goes to the relay of the maps. -/
theorem dst_of_follows {ourId : Uuid} {peers : List PeerInfo} {relayAddr : SocketAddr}
    {state : SharedState} (h : Follows ourId peers relayAddr state) (net : Network)
    (pkt : List UInt8) : ∀ d ∈ (forwardPacket net state pkt).sent, d.dst = relayAddr := by
  intro d hd
  have hsent := sent_of_follows h net pkt
  split at hsent
  · rw [hsent] at hd
    cases hd
  · obtain ⟨socket, hsocket⟩ := hsent
    rw [hsocket] at hd
    split at hd
    · rw [List.mem_singleton.mp hd]
    · cases hd

/-- Over any rounds, with any outcome of the probes and of everything else: for a running
    daemon there is a last round whose sync went through. It sends every packet to the relay
    that was active in that round, the one that the summary of the round shows as active; this
    relay was then healthy if any relay was, and no healthy relay had been measured to be
    faster. Later rounds, in which no sync goes through, leave the maps as they are, whatever
    they probe. -/
theorem packets_take_active_relay (relayServers : List SocketAddr) (h : relayServers ≠ [])
    (ourId : Uuid) (rounds : List PooledRound) (hrounds : ∀ round ∈ rounds, round.Timely)
    (hrunning : (run (PooledDaemon.step ourId) (.start relayServers h) rounds).daemon.phase =
      .running) :
    ∃ past round later, rounds = past ++ round :: later ∧
      let final := run (PooledDaemon.step ourId) (.start relayServers h) rounds
      let synced := run (PooledDaemon.step ourId) (.start relayServers h) (past ++ [round])
      PooledDaemon.Synced ourId
        (run (PooledDaemon.step ourId) (.start relayServers h) past) round ∧
      EachStep (PooledDaemon.step ourId) (PooledDaemon.NoSync ourId) synced later ∧
      final.daemon.shared = synced.daemon.shared ∧
      synced.pool.Invariant ∧
      (synced.pool.summary.filter RelaySummary.active).map RelaySummary.addr =
        [synced.pool.activeAddr] ∧
      ∀ net pkt, ∀ d ∈ (forwardPacket net final.daemon.shared pkt).sent,
        d.dst = synced.pool.activeAddr := by
  obtain ⟨past, round, later, peers, rfl, hsynced, hlater, hsame, hfollows⟩ :=
    PooledDaemon.follows_run_pooled ourId (.start relayServers h) rfl rounds hrunning
  refine ⟨past, round, later, rfl, hsynced, hlater, hsame, ?_,
    RelayPool.filter_active_summary _, ?_⟩
  · refine (PooledDaemon.poolSound_run h ourId fun other hother => hrounds other ?_).2.2
    rcases List.mem_append.mp hother with hpast | hlast
    · exact List.mem_append_left _ hpast
    · rw [List.mem_singleton.mp hlast]
      simp
  · exact fun net pkt => dst_of_follows hfollows net pkt

/-- Two rounds in which nothing fails and the second relay answers the probes. -/
def secondRelayAnswers : List PooledRound :=
  let probes : Nat → Probe := fun i => ⟨0, if i = 1 then .received 7 else .silent⟩
  [⟨nothingFails, probes⟩, ⟨nothingFails, probes⟩]

/-- After them packets go to the second relay. -/
theorem secondRelayAnswers_active :
    let relayServers := [SocketAddr.localhost 33478, SocketAddr.localhost 33479]
    let final := run (PooledDaemon.step (numberedDevice 1))
      (.start relayServers (List.cons_ne_nil _ _)) secondRelayAnswers
    final.pool.activeAddr = .localhost 33479 ∧
    ∃ past round later, secondRelayAnswers = past ++ round :: later ∧
      let synced := run (PooledDaemon.step (numberedDevice 1))
        (.start relayServers (List.cons_ne_nil _ _)) (past ++ [round])
      PooledDaemon.Synced (numberedDevice 1) (run (PooledDaemon.step (numberedDevice 1))
        (.start relayServers (List.cons_ne_nil _ _)) past) round ∧
      EachStep (PooledDaemon.step (numberedDevice 1)) (PooledDaemon.NoSync (numberedDevice 1))
        synced later ∧
      final.daemon.shared = synced.daemon.shared ∧
      synced.pool.Invariant ∧
      (synced.pool.summary.filter RelaySummary.active).map RelaySummary.addr =
        [synced.pool.activeAddr] ∧
      ∀ net pkt, ∀ d ∈ (forwardPacket net final.daemon.shared pkt).sent,
        d.dst = synced.pool.activeAddr := by
  intro relayServers final
  refine ⟨by decide +kernel, packets_take_active_relay relayServers (List.cons_ne_nil _ _)
    (numberedDevice 1) secondRelayAnswers ?_ (by decide +kernel)⟩
  intro round hround i elapsed hresult
  have hprobes : round.probes = fun i => ⟨0, if i = 1 then .received 7 else .silent⟩ := by
    simp only [secondRelayAnswers, List.mem_cons, List.not_mem_nil, or_false, or_self] at hround
    rw [hround]
  rw [hprobes] at hresult
  dsimp only at hresult
  split at hresult
  · obtain rfl := ProbeResult.received.inj hresult
    decide
  · cases hresult

end Daemon

end ConnectAlso
