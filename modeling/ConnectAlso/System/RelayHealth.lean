import ConnectAlso.Misc.Runs
import ConnectAlso.Relay.Server
import ConnectAlso.Tunnel.RelayPool

/-!
# Probing a relay

`probe_all` sends one byte to each relay and waits for a datagram to come back. The main
loop of a relay answers nothing but DATA frames, and one byte is not a frame. So a relay
that runs and is reached never answers a probe, and after three rounds the pool takes it
for dead.
-/

namespace ConnectAlso.System
open Misc RelayProto Relay

/-- `b"P"`. -/
def probeBytes : List UInt8 := [0x50]

/-- One probe of a relay that runs: when it starts, the socket that is bound for it, the
    table that the relay has by then, and the time in which an answer arrives. -/
structure Exchange where
  start : Nat
  socket : SocketAddr
  peers : Peers
  elapsed : Nat

/-- What comes back from the relay at `addr`: no datagram is lost, and an answer arrives in
    time. -/
def Exchange.result (exchange : Exchange) (addr : SocketAddr) : ProbeResult :=
  match relayStep addr exchange.peers ⟨exchange.socket, addr, probeBytes⟩ with
  | .ok (_, sent) =>
    if sent.any fun datagram => datagram.dst = exchange.socket then .received exchange.elapsed
    else .silent
  | .error _ => .silent

/-- A round of `probe_all` in which every server runs the main loop of the relay. -/
def probeRound (pool : RelayPool) (exchanges : Nat → Exchange) : RelayPool :=
  pool.probeAll fun i => {
    start := (exchanges i).start
    result := match pool.servers[i]? with
      | some server => (exchanges i).result server.addr
      | none => .silent }

/-- What the pool should know of a relay that answers. -/
def Reached (server : RelayServer) : Prop :=
  server.healthy = true ∧ server.failures = 0 ∧ server.latency.isSome = true

/-- After each round, every relay of the pool is reached. -/
def ReachedThroughout (pool : RelayPool) (rounds : List (Nat → Exchange)) : Prop :=
  ∀ past round, past ++ [round] <+: rounds →
    ∀ server ∈ (run probeRound pool (past ++ [round])).servers, Reached server

/-- What the pool knows of a relay after `n` rounds without an answer. -/
def Unanswered (n : Nat) (server : RelayServer) : Prop :=
  server.latency = none ∧ server.failures = UInt32.ofNat n ∧ server.healthy = decide (n < 3)

/-! ## One probe -/

/-- The relay skips the probe: it is shorter than a header. -/
theorem result_eq_silent (exchange : Exchange) (addr : SocketAddr) :
    exchange.result addr = .silent := by
  have hdecode : RelayFrame.decode (received ⟨exchange.socket, addr, probeBytes⟩) =
      .error (.frameTooShort 1) := rfl
  rw [Exchange.result, relayStep_undecodable hdecode]
  rfl

theorem unanswered_new (addr : SocketAddr) : Unanswered 0 (RelayServer.new addr) :=
  ⟨rfl, rfl, rfl⟩

theorem Unanswered.probed {n : Nat} {server : RelayServer} (h : Unanswered n server) {probe : Probe}
    (hsilent : probe.result = .silent) : Unanswered (n + 1) (server.probed probe) := by
  obtain ⟨hlatency, hfailures, hhealthy⟩ := h
  have hcount : server.failures + 1 = UInt32.ofNat (n + 1) := by
    rw [hfailures]
    exact (UInt32.ofNat_add n 1).symm
  rw [RelayServer.probed, hsilent]
  refine ⟨hlatency, hcount, ?_⟩
  show (if 3 ≤ server.failures + 1 then false else server.healthy) = decide (n + 1 < 3)
  rw [hcount, hhealthy]
  -- from the third failure on the server stays unhealthy, even when the count wraps around
  match n with
  | 0 => rfl
  | 1 => rfl
  | 2 => rfl
  | n + 3 => simp

/-! ## Rounds -/

theorem unanswered_probeRound {n : Nat} {pool : RelayPool}
    (h : ∀ server ∈ pool.servers, Unanswered n server) (exchanges : Nat → Exchange) :
    ∀ server ∈ (probeRound pool exchanges).servers, Unanswered (n + 1) server := by
  intro server hserver
  obtain ⟨i, hi, rfl⟩ := RelayPool.mem_probeAll hserver
  refine (h _ (List.get_mem _ _)).probed ?_
  dsimp only
  rw [List.getElem?_eq_getElem hi]
  exact result_eq_silent _ _

/-- After any number of rounds, no relay has answered, and from the third round on every
    one counts as unhealthy. -/
theorem unanswered_run {n : Nat} {pool : RelayPool}
    (h : ∀ server ∈ pool.servers, Unanswered n server) (rounds : List (Nat → Exchange)) :
    ∀ server ∈ (run probeRound pool rounds).servers, Unanswered (n + rounds.length) server := by
  induction rounds generalizing pool n with
  | nil => exact h
  | cons round rounds ih =>
      rw [run_cons, List.length_cons, Nat.add_comm rounds.length, ← Nat.add_assoc]
      exact ih (unanswered_probeRound h round)

theorem unanswered_of_new {addrs : List SocketAddr} (h : addrs ≠ [])
    (rounds : List (Nat → Exchange)) :
    ∀ server ∈ (run probeRound (RelayPool.new addrs h) rounds).servers,
      Unanswered rounds.length server := by
  have hstart : ∀ server ∈ (RelayPool.new addrs h).servers, Unanswered 0 server := by
    intro server hserver
    obtain ⟨addr, -, rfl⟩ := List.mem_map.mp hserver
    exact unanswered_new addr
  have hrun := unanswered_run hstart rounds
  rwa [Nat.zero_add] at hrun

/-- A pool has a server. -/
theorem exists_server (pool : RelayPool) : ∃ server, server ∈ pool.servers :=
  List.exists_mem_of_length_pos (Nat.zero_lt_of_lt pool.active_lt)

/-- Whatever the relays' tables, the sockets and the times: every relay is reached after
    every round exactly when there is no round. -/
theorem reachedThroughout_iff (addrs : List SocketAddr) (h : addrs ≠ [])
    (rounds : List (Nat → Exchange)) :
    ReachedThroughout (RelayPool.new addrs h) rounds ↔ rounds = [] := by
  refine ⟨?_, ?_⟩
  · intro hreached
    cases rounds with
    | nil => rfl
    | cons round rounds =>
        obtain ⟨server, hserver⟩ := exists_server (run probeRound (RelayPool.new addrs h) [round])
        have hlatency := (unanswered_of_new h [round] server hserver).1
        have hmeasured := (hreached [] round ⟨rounds, rfl⟩ server hserver).2.2
        rw [hlatency] at hmeasured
        cases hmeasured
  · rintro rfl past round hpast
    simp at hpast

/-- A round at time zero, with relays that know no peer. -/
def quietRound : Nat → Exchange := fun i =>
  { start := 0, socket := SocketAddr.localhost (50000 + UInt16.ofNat i), peers := noPeers,
    elapsed := 1000 }

/-- The pool with one relay. -/
def oneRelay : RelayPool := RelayPool.new [SocketAddr.localhost 33478] (List.cons_ne_nil _ _)

/-- One round is enough. -/
theorem oneRelay_not_reached : ¬ ReachedThroughout oneRelay [quietRound] := by
  intro hreached
  have hnone := (reachedThroughout_iff [SocketAddr.localhost 33478] (List.cons_ne_nil _ _)
    [quietRound]).mp hreached
  cases hnone

/-- After three rounds the only relay counts as unhealthy, although it runs. -/
theorem oneRelay_unhealthy :
    ∃ server ∈ (run probeRound oneRelay [quietRound, quietRound, quietRound]).servers,
      server.healthy = false ∧ server.failures = 3 ∧ server.latency = none := by
  obtain ⟨server, hserver⟩ := exists_server
    (run probeRound oneRelay [quietRound, quietRound, quietRound])
  obtain ⟨hlatency, hfailures, hhealthy⟩ :=
    unanswered_of_new (List.cons_ne_nil _ _) [quietRound, quietRound, quietRound] server hserver
  exact ⟨server, hserver, hhealthy, hfailures, hlatency⟩

end ConnectAlso.System
