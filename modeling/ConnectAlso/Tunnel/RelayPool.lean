import Mathlib.Data.List.FinRange
import ConnectAlso.Net.Socket

/-!
# The relay pool

`crates/tunnel/src/relay_pool.rs`: the relays a client knows, which of them is active and
what the last probes have shown. What a probe of one server comes to is a parameter
(`Probe`); the pool only counts answers and failures. Times are in nanoseconds.
-/

namespace ConnectAlso

/-- `Duration::MAX`. -/
def durationMax : Nat := (2 ^ 64 - 1) * 10 ^ 9 + 999999999

/-- `RelayServer`. -/
structure RelayServer where
  addr : SocketAddr
  latency : Option Nat
  lastProbe : Option Nat
  healthy : Bool
  failures : UInt32
  deriving DecidableEq, Repr

/-- What one probe comes to: a datagram is received in time, none is, or no socket could
    be bound. -/
inductive ProbeResult where
  | received (elapsed : Nat)
  | silent
  | unbound
  deriving DecidableEq, Repr

/-- One probe: when it was started and what it came to. -/
structure Probe where
  start : Nat
  result : ProbeResult

namespace RelayServer

/-- `RelayServer::new`. -/
def new (addr : SocketAddr) : RelayServer :=
  { addr, latency := none, lastProbe := none, healthy := true, failures := 0 }

/-- One more failure, as a release build counts it; the third in a row makes the server
    unhealthy. -/
def fail (server : RelayServer) : RelayServer :=
  let failures := server.failures + 1
  { server with failures, healthy := if 3 ≤ failures then false else server.healthy }

/-- The body of the loop in `probe_all`. -/
def probed (server : RelayServer) (probe : Probe) : RelayServer :=
  let server :=
    match probe.result with
    | .received elapsed =>
      { server with latency := some elapsed, healthy := true, failures := 0 }
    | .silent => server.fail
    | .unbound => { server with failures := server.failures + 1, healthy := false }
  { server with lastProbe := some probe.start }

end RelayServer

/-- `RelayPool`: the active index is that of a server. -/
structure RelayPool where
  servers : List RelayServer
  active : Nat
  active_lt : active < servers.length

namespace RelayPool

/-- `RelayPool::new`, which panics without addresses. -/
def new (addrs : List SocketAddr) (h : addrs ≠ []) : RelayPool where
  servers := addrs.map RelayServer.new
  active := 0
  active_lt := by simpa using List.length_pos_iff.mpr h

/-- `active_addr`. -/
def activeAddr (pool : RelayPool) : SocketAddr :=
  (pool.servers.get ⟨pool.active, pool.active_lt⟩).addr

/-- One iteration of the loop in `select_best`: the best server so far and its latency. -/
def consider (pool : RelayPool) (best : Option (Fin pool.servers.length) × Nat)
    (i : Fin pool.servers.length) : Option (Fin pool.servers.length) × Nat :=
  let server := pool.servers.get i
  if server.healthy then
    match server.latency with
    | some lat => if lat < best.2 then (some i, lat) else best
    | none => if best.1.isNone then (some i, best.2) else best
  else best

/-- `select_best`; without a healthy server the active one stays. -/
def selectBest (pool : RelayPool) : RelayPool :=
  match ((List.finRange pool.servers.length).foldl pool.consider (none, durationMax)).1 with
  | some i => { pool with active := i, active_lt := i.isLt }
  | none => pool

/-- `probe_all`; `probes i` is the probe of the `i`-th server. -/
def probeAll (pool : RelayPool) (probes : Nat → Probe) : RelayPool :=
  RelayPool.selectBest {
    servers := pool.servers.mapIdx fun i server => server.probed (probes i)
    active := pool.active
    active_lt := by simpa using pool.active_lt }

/-- `failover`: whether another server is active now, and the pool. -/
def failover (pool : RelayPool) : Bool × RelayPool :=
  let next := RelayPool.selectBest {
    servers := pool.servers.modify pool.active RelayServer.fail
    active := pool.active
    active_lt := by simpa using pool.active_lt }
  (next.active != pool.active, next)

/-- Choosing the active server leaves what is known of the servers alone. -/
@[simp] theorem servers_selectBest (pool : RelayPool) : pool.selectBest.servers = pool.servers := by
  unfold selectBest
  split
  · rfl
  · rfl

theorem servers_probeAll (pool : RelayPool) (probes : Nat → Probe) :
    (pool.probeAll probes).servers =
      pool.servers.mapIdx fun i server => server.probed (probes i) :=
  servers_selectBest _

/-- Each server after a round is one from before it, probed. -/
theorem mem_probeAll {pool : RelayPool} {probes : Nat → Probe} {server : RelayServer}
    (h : server ∈ (pool.probeAll probes).servers) :
    ∃ i, ∃ hi : i < pool.servers.length,
      server = (pool.servers.get ⟨i, hi⟩).probed (probes i) := by
  rw [servers_probeAll] at h
  obtain ⟨i, hi, rfl⟩ := List.mem_mapIdx.mp h
  exact ⟨i, hi, rfl⟩

end RelayPool

end ConnectAlso
