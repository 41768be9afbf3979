import ConnectAlso.Misc.Runs
import ConnectAlso.Tunnel.RelayPool

/-!
# Which relay is active

`select_best` goes once through the servers and compares measured latencies; a server
without a measurement is taken only when nothing has been found before. So an unmeasured
server counts as one with the latency `Duration::MAX`, and the loop looks for the first
healthy server of least cost. What holds of a pool in every state follows from that.
-/

namespace ConnectAlso
open Misc

/-- A call of the pool. -/
inductive PoolCall where
  | probeAll (probes : Nat → Probe)
  | failover

/-- The measured latencies are below `Duration::MAX`. -/
def PoolCall.Timely : PoolCall → Prop
  | probeAll probes => ∀ i elapsed, (probes i).result = .received elapsed → elapsed < durationMax
  | failover => True

/-- The latency of a server as `select_best` compares it. -/
def RelayServer.cost (server : RelayServer) : Nat := server.latency.getD durationMax

namespace RelayPool

/-- The pool after a call. -/
def step (pool : RelayPool) : PoolCall → RelayPool
  | .probeAll probes => pool.probeAll probes
  | .failover => pool.failover.2

/-- The active server. -/
def activeServer (pool : RelayPool) : RelayServer := pool.servers.get ⟨pool.active, pool.active_lt⟩

/-- What holds of a pool between calls. -/
structure Invariant (pool : RelayPool) : Prop where
  inRange : pool.active < pool.servers.length
  failed : ∀ server ∈ pool.servers, 3 ≤ server.failures → server.healthy = false
  activeHealthy : (∃ server ∈ pool.servers, server.healthy = true) →
    pool.activeServer.healthy = true
  fastest : ∀ server ∈ pool.servers, server.healthy = true → ∀ latency,
    server.latency = some latency →
      pool.activeServer.healthy = true ∧
        ∃ least, pool.activeServer.latency = some least ∧ least ≤ latency

/-! ## The loop of `select_best` -/

/-- All measured latencies are below `Duration::MAX`. -/
def Timely (servers : List RelayServer) : Prop :=
  ∀ server ∈ servers, ∀ latency, server.latency = some latency → latency < durationMax

/-- What the loop has found among the servers `seen`. -/
structure Found (pool : RelayPool) (seen : List (Fin pool.servers.length))
    (best : Option (Fin pool.servers.length) × Nat) : Prop where
  index : ∀ i, best.1 = some i →
    (pool.servers.get i).healthy = true ∧ best.2 = (pool.servers.get i).cost
  start : best.1 = none → best.2 = durationMax
  least : ∀ j ∈ seen, (pool.servers.get j).healthy = true →
    best.1.isSome = true ∧ best.2 ≤ (pool.servers.get j).cost

variable {pool : RelayPool} {seen : List (Fin pool.servers.length)}
  {best : Option (Fin pool.servers.length) × Nat} {k : Fin pool.servers.length}

/-- A healthy server that costs no more than what was found. -/
theorem Found.take (h : pool.Found seen best) (hhealthy : (pool.servers.get k).healthy = true)
    (hcost : (pool.servers.get k).cost ≤ best.2) :
    pool.Found (seen ++ [k]) (some k, (pool.servers.get k).cost) := by
  refine ⟨?_, ?_, ?_⟩
  · intro i hi
    obtain rfl := Option.some.inj hi
    exact ⟨hhealthy, rfl⟩
  · intro hnone
    cases hnone
  · intro j hj hjhealthy
    refine ⟨rfl, ?_⟩
    rcases List.mem_append.mp hj with hold | hnew
    · exact hcost.trans (h.least j hold hjhealthy).2
    · rw [List.mem_singleton.mp hnew]

/-- A server that does not improve on what was found. -/
theorem Found.keep (h : pool.Found seen best)
    (hkept : (pool.servers.get k).healthy = true →
      best.1.isSome = true ∧ best.2 ≤ (pool.servers.get k).cost) :
    pool.Found (seen ++ [k]) best := by
  refine ⟨h.index, h.start, ?_⟩
  intro j hj hjhealthy
  rcases List.mem_append.mp hj with hold | hnew
  · exact h.least j hold hjhealthy
  · rw [List.mem_singleton.mp hnew] at hjhealthy ⊢
    exact hkept hjhealthy

theorem Found.le_durationMax (htimely : Timely pool.servers) (h : pool.Found seen best) :
    best.2 ≤ durationMax := by
  cases hbest : best.1 with
  | none => exact (h.start hbest).le
  | some i =>
      rw [(h.index i hbest).2, RelayServer.cost]
      cases hlatency : (pool.servers.get i).latency with
      | none => exact le_refl _
      | some latency => exact (htimely _ (List.get_mem _ i) latency hlatency).le

/-- One more server is looked at. -/
theorem found_consider (htimely : Timely pool.servers) (h : pool.Found seen best)
    (k : Fin pool.servers.length) : pool.Found (seen ++ [k]) (pool.consider best k) := by
  unfold consider
  dsimp only
  by_cases hhealthy : (pool.servers.get k).healthy = true
  · rw [if_pos hhealthy]
    cases hlatency : (pool.servers.get k).latency with
    | some latency =>
        have hcost : (pool.servers.get k).cost = latency := by rw [RelayServer.cost, hlatency]; rfl
        have hlt := htimely _ (List.get_mem _ k) latency hlatency
        dsimp only
        by_cases hless : latency < best.2
        · rw [if_pos hless, ← hcost]
          exact h.take hhealthy (hcost.trans_le hless.le)
        · rw [if_neg hless]
          refine h.keep fun _ => ⟨?_, hcost ▸ not_lt.mp hless⟩
          by_contra hnone
          rw [h.start (Option.not_isSome_iff_eq_none.mp hnone)] at hless
          exact hless hlt
    | none =>
        have hcost : (pool.servers.get k).cost = durationMax := by
          rw [RelayServer.cost, hlatency]
          rfl
        dsimp only
        by_cases hnone : best.1.isNone = true
        · rw [if_pos hnone]
          have hbest := h.start (Option.isNone_iff_eq_none.mp hnone)
          rw [hbest, ← hcost]
          exact h.take hhealthy (hcost.trans hbest.symm).le
        · rw [if_neg hnone]
          refine h.keep fun _ => ⟨?_, hcost ▸ h.le_durationMax htimely⟩
          rwa [Bool.not_eq_true, Option.isNone_eq_false_iff] at hnone
  · rw [if_neg hhealthy]
    exact h.keep fun htrue => absurd htrue hhealthy

theorem found_foldl (htimely : Timely pool.servers) (h : pool.Found seen best)
    (rest : List (Fin pool.servers.length)) :
    pool.Found (seen ++ rest) (rest.foldl pool.consider best) := by
  induction rest generalizing seen best with
  | nil => simpa using h
  | cons k rest ih =>
      rw [List.foldl_cons, ← List.singleton_append, ← List.append_assoc]
      exact ih (found_consider htimely h k)

/-- `select_best` keeps the pool when no server is healthy, and otherwise makes a healthy
    server of least cost the active one. -/
theorem selectBest_cases (htimely : Timely pool.servers) :
    ((∀ server ∈ pool.servers, server.healthy = false) ∧ pool.selectBest = pool) ∨
    (pool.selectBest.activeServer.healthy = true ∧
      ∀ server ∈ pool.servers, server.healthy = true →
        pool.selectBest.activeServer.cost ≤ server.cost) := by
  have hstart : pool.Found [] (none, durationMax) := by
    refine ⟨?_, fun _ => rfl, ?_⟩
    · intro i hi
      cases hi
    · intro j hj
      cases hj
  have hfound := found_foldl htimely hstart (List.finRange pool.servers.length)
  rw [List.nil_append] at hfound
  have hleast : ∀ server ∈ pool.servers, server.healthy = true →
      ((List.finRange pool.servers.length).foldl pool.consider
        (none, durationMax)).1.isSome = true ∧
      ((List.finRange pool.servers.length).foldl pool.consider (none, durationMax)).2 ≤
        server.cost := by
    intro server hserver
    obtain ⟨j, rfl⟩ := List.get_of_mem hserver
    exact hfound.least j (List.mem_finRange j)
  cases hbest : ((List.finRange pool.servers.length).foldl pool.consider (none, durationMax)).1 with
  | none =>
      refine Or.inl ⟨?_, by rw [selectBest, hbest]⟩
      intro server hserver
      rw [← Bool.not_eq_true]
      intro hhealthy
      have hsome := (hleast server hserver hhealthy).1
      rw [hbest] at hsome
      cases hsome
  | some i =>
      obtain ⟨hhealthy, hcost⟩ := hfound.index i hbest
      have hselect : pool.selectBest = { pool with active := i, active_lt := i.isLt } := by
        rw [selectBest, hbest]
      have hactive : pool.selectBest.activeServer = pool.servers.get i := by
        rw [hselect]
        rfl
      rw [hactive]
      refine Or.inr ⟨hhealthy, ?_⟩
      intro server hserver hserverHealthy
      exact hcost ▸ (hleast server hserver hserverHealthy).2

/-! ## The invariant -/

/-- Three failures make a server unhealthy. -/
def FailedAreUnhealthy (servers : List RelayServer) : Prop :=
  ∀ server ∈ servers, 3 ≤ server.failures → server.healthy = false

/-- After `select_best` the pool is as it should be, if each server is. -/
theorem invariant_selectBest (htimely : Timely pool.servers)
    (hfailed : FailedAreUnhealthy pool.servers) : pool.selectBest.Invariant := by
  refine ⟨pool.selectBest.active_lt, ?_, ?_, ?_⟩
  · rw [servers_selectBest]
    exact hfailed
  · rw [servers_selectBest]
    rintro ⟨server, hserver, hhealthy⟩
    rcases selectBest_cases htimely with ⟨hnone, -⟩ | ⟨hactive, -⟩
    · rw [hnone server hserver] at hhealthy
      cases hhealthy
    · exact hactive
  · rw [servers_selectBest]
    intro server hserver hhealthy latency hlatency
    rcases selectBest_cases htimely with ⟨hnone, -⟩ | ⟨hactive, hleast⟩
    · rw [hnone server hserver] at hhealthy
      cases hhealthy
    · have hle := hleast server hserver hhealthy
      have hlt := htimely server hserver latency hlatency
      refine ⟨hactive, ?_⟩
      rw [RelayServer.cost, RelayServer.cost, hlatency, Option.getD_some] at hle
      cases hleastLatency : pool.selectBest.activeServer.latency with
      | none =>
          -- an unmeasured server costs more than any measured one
          rw [hleastLatency, Option.getD_none] at hle
          exact absurd hlt (not_lt.mpr hle)
      | some least =>
          rw [hleastLatency, Option.getD_some] at hle
          exact ⟨least, rfl, hle⟩

theorem failedAreUnhealthy_probed (server : RelayServer) (probe : Probe) :
    3 ≤ (server.probed probe).failures → (server.probed probe).healthy = false := by
  unfold RelayServer.probed
  cases probe.result with
  | received elapsed =>
      intro hfailed
      exact absurd hfailed (show ¬ (3 : UInt32) ≤ 0 by decide)
  | silent =>
      intro hfailed
      exact if_pos hfailed
  | unbound => exact fun _ => rfl

theorem timely_probed {server : RelayServer} {probe : Probe}
    (hprobe : ∀ elapsed, probe.result = .received elapsed → elapsed < durationMax)
    (h : ∀ latency, server.latency = some latency → latency < durationMax) :
    ∀ latency, (server.probed probe).latency = some latency → latency < durationMax := by
  unfold RelayServer.probed
  cases hresult : probe.result with
  | received elapsed =>
      intro latency hlatency
      obtain rfl := Option.some.inj hlatency
      exact hprobe elapsed hresult
  | silent => exact h
  | unbound => exact h

/-- Each server after a failover is one from before it, or the active one with one more
    failure. -/
theorem mem_failover {server : RelayServer} (h : server ∈ pool.failover.2.servers) :
    ∃ old ∈ pool.servers, server = old ∨ server = old.fail := by
  rw [failover, servers_selectBest] at h
  obtain ⟨i, hi, rfl⟩ := List.getElem_of_mem h
  rw [List.length_modify] at hi
  refine ⟨pool.servers[i], List.getElem_mem hi, ?_⟩
  rw [List.getElem_modify]
  split
  · exact Or.inr rfl
  · exact Or.inl rfl

/-- What holds of each server before a call holds of each after it. -/
theorem servers_step {call : PoolCall} (hcall : call.Timely) (htimely : Timely pool.servers)
    (hfailed : FailedAreUnhealthy pool.servers) :
    Timely (pool.step call).servers ∧ FailedAreUnhealthy (pool.step call).servers := by
  cases call with
  | probeAll probes =>
      refine ⟨?_, ?_⟩
      · intro server hserver
        obtain ⟨i, hi, rfl⟩ := mem_probeAll hserver
        exact timely_probed (hcall i) (htimely _ (List.get_mem _ _))
      · intro server hserver
        obtain ⟨i, hi, rfl⟩ := mem_probeAll hserver
        exact failedAreUnhealthy_probed _ (probes i)
  | failover =>
      refine ⟨?_, ?_⟩
      · intro server hserver
        obtain ⟨old, hold, rfl | rfl⟩ := mem_failover hserver
        · exact htimely _ hold
        · exact htimely old hold
      · intro server hserver
        obtain ⟨old, hold, rfl | rfl⟩ := mem_failover hserver
        · exact hfailed _ hold
        · intro hthree
          exact if_pos hthree

/-- Every call ends with `select_best`. -/
theorem exists_selectBest (pool : RelayPool) (call : PoolCall) :
    ∃ before : RelayPool, pool.step call = before.selectBest := by
  cases call with
  | probeAll probes => exact ⟨_, rfl⟩
  | failover => exact ⟨_, rfl⟩

theorem invariant_step {call : PoolCall} (hcall : call.Timely) (htimely : Timely pool.servers)
    (hfailed : FailedAreUnhealthy pool.servers) : (pool.step call).Invariant := by
  obtain ⟨htimely', hfailed'⟩ := servers_step hcall htimely hfailed
  obtain ⟨before, hbefore⟩ := exists_selectBest pool call
  rw [hbefore, servers_selectBest] at htimely' hfailed'
  rw [hbefore]
  exact invariant_selectBest htimely' hfailed'

/-- All servers of a new pool are healthy and unmeasured. -/
theorem invariant_new {addrs : List SocketAddr} (h : addrs ≠ []) :
    Timely (new addrs h).servers ∧ FailedAreUnhealthy (new addrs h).servers ∧
      (new addrs h).Invariant := by
  have hserver : ∀ server ∈ (new addrs h).servers,
      server.healthy = true ∧ server.failures = 0 ∧ server.latency = none := by
    intro server hserver
    obtain ⟨addr, -, rfl⟩ := List.mem_map.mp hserver
    exact ⟨rfl, rfl, rfl⟩
  have htimely : Timely (new addrs h).servers := by
    intro server hmem latency hlatency
    rw [(hserver server hmem).2.2] at hlatency
    cases hlatency
  have hfailed : FailedAreUnhealthy (new addrs h).servers := by
    intro server hmem hthree
    rw [(hserver server hmem).2.1] at hthree
    exact absurd hthree (by decide)
  refine ⟨htimely, hfailed, (new addrs h).active_lt, hfailed, ?_, ?_⟩
  · intro _
    exact (hserver _ (List.get_mem _ _)).1
  · intro server hmem _ latency hlatency
    rw [(hserver server hmem).2.2] at hlatency
    cases hlatency

/-- What holds of the servers and of the pool after a sequence of calls. -/
theorem invariant_run {addrs : List SocketAddr} (h : addrs ≠ []) {calls : List PoolCall}
    (hcalls : ∀ call ∈ calls, call.Timely) :
    Timely (run step (new addrs h) calls).servers ∧
      FailedAreUnhealthy (run step (new addrs h) calls).servers ∧
      (run step (new addrs h) calls).Invariant := by
  have heach : EachStep step (fun _ call => PoolCall.Timely call) (new addrs h) calls := by
    intro before call hbefore
    exact hcalls call (hbefore.subset (by simp))
  refine run_invariant_of_eachStep (J := fun pool => Timely pool.servers ∧
    FailedAreUnhealthy pool.servers ∧ pool.Invariant) ?_ (invariant_new h) heach
  rintro pool call hcall ⟨htimely, hfailed, -⟩
  obtain ⟨htimely', hfailed'⟩ := servers_step hcall htimely hfailed
  exact ⟨htimely', hfailed', invariant_step hcall htimely hfailed⟩

/-- Whatever the servers answer: in every state that a pool reaches by probing and by
    failing over, the active index is that of a server, a server with three failures is
    unhealthy, the active server is healthy if any is, and if a healthy one is measured
    then it is measured too and none of them is faster. The failures may even wrap
    around. -/
theorem relayPool_invariant (addrs : List SocketAddr) (h : addrs ≠ []) (calls : List PoolCall)
    (hcalls : ∀ call ∈ calls, call.Timely) :
    Throughout step Invariant (new addrs h) calls := by
  intro past hpast
  exact (invariant_run h fun call hcall => hcalls call (hpast.subset hcall)).2.2

/-- The second of two servers answers a round of probes, the first one does not. -/
def secondAnswers : PoolCall :=
  .probeAll fun i => { start := 0, result := if i = 1 then .received 7 else .silent }

/-- After the round it is active. -/
theorem secondAnswers_invariant :
    let addrs := [SocketAddr.localhost 33478, SocketAddr.localhost 33479]
    Throughout step Invariant (new addrs (List.cons_ne_nil _ _)) [secondAnswers, .failover] ∧
      (run step (new addrs (List.cons_ne_nil _ _)) [secondAnswers]).active = 1 := by
  intro addrs
  refine ⟨relayPool_invariant addrs (List.cons_ne_nil _ _) _ ?_, by decide +kernel⟩
  intro call hcall
  rcases List.mem_cons.mp hcall with rfl | hcall
  · intro i elapsed hresult
    dsimp only at hresult
    split at hresult
    · obtain rfl := ProbeResult.received.inj hresult
      decide
    · cases hresult
  · obtain rfl := List.mem_singleton.mp hcall
    trivial

end RelayPool

end ConnectAlso
