import ConnectAlso.Tunnel.RelaySelection

/-!
# Failing over

One failure does not make a server unhealthy, so `failover` can choose the same server
again: the fastest one stays the fastest. What a single call does to the pool is stated
first; that the active server is replaced follows from counting its failures, of which it
has fewer than three as long as it is healthy.
-/

namespace ConnectAlso
open Misc

/-- Three failures make any server unhealthy that was sound before. -/
theorem RelayServer.healthy_fail_three {server : RelayServer}
    (h : 3 ≤ server.failures → server.healthy = false) :
    server.fail.fail.fail.healthy = false := by
  by_cases hthree : 3 ≤ server.failures
  · have hunhealthy : ∀ {failed : RelayServer}, failed.healthy = false →
        failed.fail.healthy = false := by
      intro failed hfailed
      simp only [fail, hfailed, ite_self]
    exact hunhealthy (hunhealthy (hunhealthy (h hthree)))
  · refine if_pos ?_
    rw [UInt32.le_iff_toNat_le] at hthree ⊢
    simp only [fail, UInt32.toNat_add, UInt32.reduceToNat] at hthree ⊢
    omega

namespace RelayPool

/-- Some server other than the active one is healthy. -/
def OtherHealthy (pool : RelayPool) : Prop :=
  ∃ i server, i ≠ pool.active ∧ pool.servers[i]? = some server ∧ server.healthy = true

/-- The pool after a number of failovers in a row. -/
def afterFailovers (pool : RelayPool) (n : Nat) : RelayPool :=
  run step pool (List.replicate n .failover)

/-- What `failover` does in a state of the pool. -/
structure FailsOver (pool : RelayPool) : Prop where
  honest : pool.failover.1 = true ↔ pool.failover.2.active ≠ pool.active
  others : ∀ i, i ≠ pool.active → pool.failover.2.servers[i]? = pool.servers[i]?
  healthy : (∃ server ∈ pool.failover.2.servers, server.healthy = true) →
    pool.failover.2.activeServer.healthy = true
  progress : pool.OtherHealthy → ∃ n < 3, (pool.afterFailovers n).failover.1 = true

variable {pool : RelayPool}

theorem getElem?_active (pool : RelayPool) :
    pool.servers[pool.active]? = some pool.activeServer :=
  List.getElem?_eq_getElem pool.active_lt

/-! ## One call -/

theorem failover_eq_true_iff (pool : RelayPool) :
    pool.failover.1 = true ↔ pool.failover.2.active ≠ pool.active := bne_iff_ne

/-- The servers after a failover: the active one has one more failure. -/
theorem servers_failover (pool : RelayPool) :
    pool.failover.2.servers = pool.servers.modify pool.active RelayServer.fail :=
  servers_selectBest _

theorem getElem?_failover {i : Nat} (h : i ≠ pool.active) :
    pool.failover.2.servers[i]? = pool.servers[i]? := by
  rw [servers_failover, List.getElem?_modify_ne _ _ h.symm]

/-- A healthy server beside the active one is in the pool after the call. -/
theorem exists_healthy_failover (h : pool.OtherHealthy) :
    ∃ server ∈ pool.failover.2.servers, server.healthy = true := by
  obtain ⟨i, server, hne, hserver, hhealthy⟩ := h
  rw [← getElem?_failover hne] at hserver
  exact ⟨server, List.mem_of_getElem? hserver, hhealthy⟩

/-- A call that does not change the active server only counts a failure of it. -/
theorem failover_stays (h : pool.failover.1 = false) :
    pool.failover.2.active = pool.active ∧
      pool.failover.2.activeServer = pool.activeServer.fail := by
  have hactive : pool.failover.2.active = pool.active := by
    by_contra hne
    rw [(failover_eq_true_iff pool).mpr hne] at h
    cases h
  have hserver := getElem?_active pool.failover.2
  rw [hactive, servers_failover, List.getElem?_modify_eq, getElem?_active, Option.map_eq_map,
    Option.map_some, Option.some.injEq] at hserver
  exact ⟨hactive, hserver.symm⟩

theorem otherHealthy_failover (h : pool.failover.1 = false) (hother : pool.OtherHealthy) :
    pool.failover.2.OtherHealthy := by
  obtain ⟨i, server, hne, hserver, hhealthy⟩ := hother
  refine ⟨i, server, ?_, ?_, hhealthy⟩
  · rwa [(failover_stays h).1]
  · rwa [getElem?_failover hne]

/-! ## Three calls -/

/-- What holds of the servers of a reachable pool. -/
def Sound (pool : RelayPool) : Prop := Timely pool.servers ∧ FailedAreUnhealthy pool.servers

theorem sound_failover (h : pool.Sound) : pool.failover.2.Sound :=
  @servers_step pool .failover trivial h.1 h.2

/-- After a failover the active server is healthy if any is. -/
theorem activeHealthy_failover (h : pool.Sound)
    (hhealthy : ∃ server ∈ pool.failover.2.servers, server.healthy = true) :
    pool.failover.2.activeServer.healthy = true :=
  (@invariant_step pool .failover trivial h.1 h.2).activeHealthy hhealthy

/-- With a healthy server beside it, an active server that the call finds unhealthy is
    replaced. -/
theorem failover_switches (h : pool.Sound) (hother : pool.OtherHealthy)
    (hfail : pool.activeServer.fail.healthy = false) : pool.failover.1 = true := by
  by_contra hstays
  rw [Bool.not_eq_true] at hstays
  have hhealthy := activeHealthy_failover h (exists_healthy_failover hother)
  rw [(failover_stays hstays).2, hfail] at hhealthy
  cases hhealthy

/-- One of three failovers in a row chooses another server, if a healthy one is there. -/
theorem failover_within_three (h : pool.Sound) (hother : pool.OtherHealthy) :
    ∃ n < 3, (pool.afterFailovers n).failover.1 = true := by
  by_cases hfirst : pool.failover.1 = true
  · exact ⟨0, by decide, hfirst⟩
  rw [Bool.not_eq_true] at hfirst
  by_cases hsecond : pool.failover.2.failover.1 = true
  · exact ⟨1, by decide, hsecond⟩
  rw [Bool.not_eq_true] at hsecond
  refine ⟨2, by decide, ?_⟩
  change pool.failover.2.failover.2.failover.1 = true
  refine failover_switches (sound_failover (sound_failover h))
    (otherHealthy_failover hsecond (otherHealthy_failover hfirst hother)) ?_
  -- the same server has failed three times in a row now
  rw [(failover_stays hsecond).2, (failover_stays hfirst).2]
  exact RelayServer.healthy_fail_three (h.2 _ (List.get_mem _ _))

theorem failsOver (h : pool.Sound) : pool.FailsOver where
  honest := failover_eq_true_iff pool
  others := fun _ => getElem?_failover
  healthy := activeHealthy_failover h
  progress := failover_within_three h

/-- In every state that a pool reaches by probing and by failing over: `failover` returns
    true exactly when the active index has changed, changes no server but the one that was
    active, and leaves a healthy server active if there is one; and if there is one beside
    the active server, one of three calls in a row returns true. -/
theorem failover_makes_progress (addrs : List SocketAddr) (h : addrs ≠ [])
    (calls : List PoolCall) (hcalls : ∀ call ∈ calls, call.Timely) :
    Throughout step FailsOver (new addrs h) calls := by
  intro past hpast
  obtain ⟨htimely, hfailed, -⟩ :=
    invariant_run h fun call hcall => hcalls call (hpast.subset hcall)
  exact failsOver ⟨htimely, hfailed⟩

/-- The first of two servers answers a round of probes, the second one does not. -/
def firstAnswers : PoolCall :=
  .probeAll fun i => { start := 0, result := if i = 0 then .received 7 else .silent }

/-- It stays active for two failures, and the third call changes to the other one. -/
theorem firstAnswers_failsOver :
    let pool := new [SocketAddr.localhost 33478, SocketAddr.localhost 33479] (List.cons_ne_nil _ _)
    Throughout step FailsOver pool [firstAnswers] ∧
      (List.range 3).map (fun n => ((step pool firstAnswers).afterFailovers n).failover.1) =
        [false, false, true] := by
  intro pool
  refine ⟨failover_makes_progress _ (List.cons_ne_nil _ _) _ ?_, by decide +kernel⟩
  intro call hcall
  obtain rfl := List.mem_singleton.mp hcall
  intro i elapsed hresult
  dsimp only at hresult
  split at hresult
  · obtain rfl := ProbeResult.received.inj hresult
    decide
  · cases hresult

end RelayPool

end ConnectAlso
