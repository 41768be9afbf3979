import ConnectAlso.Daemon.Status
import ConnectAlso.Misc.Sections

/-!
# The tasks of the daemon

`main` of the daemon spawns tasks that share `SharedState` and its links behind mutexes: the
TUN task, one task for each link of the first sync, the refresh task and the handlers of the
status API. Here each is a program over the mutexes and the memory they guard. Every task
takes the mutex of the state before that of a link, and gives back what it takes, so no
interleaving gets stuck (`tasks_never_deadlock`); and it reads and writes the shared memory
in one section of the state's mutex, so whatever they interleave with, a packet is forwarded
and a request is answered from one published pair of maps (`tasks_performed_whole`,
`replies_tell_synced_list`). But `handle_diagnostics` waits for the network in its section, and
as long as it does nothing is forwarded (`check_stalls_daemon`).
-/

namespace ConnectAlso.Daemon
open Misc Program LockPool

/-- A link behind its own `Arc<Mutex<PeerLink>>`. Each call of `connect_peers` makes new
    ones, told apart by `generation`. -/
structure LinkRef where
  generation : Nat
  id : Uuid
  deriving DecidableEq, Repr

/-- The mutexes of the daemon. -/
inductive DaemonLock where
  | state
  | link (ref : LinkRef)
  deriving DecidableEq, Repr

/-- The order in which the tasks take the mutexes. -/
def DaemonLock.rank : DaemonLock → Nat
  | state => 0
  | link _ => 1

/-- What the mutex of the state guards, with the call that made the links of the maps, and
    the datagrams in which the TUN task has forwarded packets through the links. What else
    the daemon sends (registrations, probes, punches and checks) is no part of it. -/
structure SharedMemory where
  generation : Nat
  shared : SharedState
  forwarded : List Datagram

/-- The order in which `peer_links.values()` yields the links of a map. -/
structure LinkOrder where
  entries : Nat → SharedState → List (Uuid × PeerLink)
  sound : ∀ generation shared, ∀ entry ∈ entries generation shared,
    shared.peerLinks entry.1 = some entry.2
  complete : ∀ generation shared, (∃ listed, Entries shared listed) →
    Entries shared (entries generation shared)

/-- There is such an order: every finite map has a list of its entries. -/
instance : Nonempty LinkOrder := by
  classical
  refine ⟨⟨fun _ shared => if h : ∃ listed, Entries shared listed then h.choose else [],
    ?sound, ?complete⟩⟩
  case sound =>
    intro _ shared entry hentry
    by_cases h : ∃ listed, Entries shared listed
    · rw [dif_pos h] at hentry
      exact (h.choose_spec.mem_iff entry.1 entry.2).mp hentry
    · rw [dif_neg h] at hentry
      exact absurd hentry List.not_mem_nil
  case complete =>
    intro _ shared h
    rw [dif_pos h]
    exact h.choose_spec

/-- What the tasks do to the shared memory. -/
inductive SharedOp where
  -- `s.ip_route.get(&dst)` and `s.peer_links.get(pid)`
  | route (dst : Ipv4Addr)
  -- `s.peer_links.values()`
  | values
  -- the fields of `lk`
  | read (ref : LinkRef)
  -- `lk.path.send(pkt)`
  | send (ref : LinkRef) (pkt : List UInt8)
  -- `s.ip_route = routes; s.peer_links = links`
  | publish (generation : Nat) (links : SharedState)
  -- `check_http(…)`, `check_stun(…)` and `check_udp(…)`, until they come to something
  | check (service : CheckedService)

/-- The operations with their answers. -/
abbrev sharedOps : Signature where
  Op := SharedOp
  Answer
    | .route _ => Option LinkRef
    | .values => List LinkRef
    | .read _ => Option PeerLink
    | .send _ _ => Unit
    | .publish _ _ => Unit
    | .check _ => Unit

namespace SharedMemory

/-- The link behind a reference that was taken from the maps. -/
def link (memory : SharedMemory) (ref : LinkRef) : Option PeerLink :=
  if ref.generation = memory.generation then memory.shared.peerLinks ref.id else none

/-- The entries of `peer_links`. -/
def entries (order : LinkOrder) (memory : SharedMemory) : List (Uuid × PeerLink) :=
  order.entries memory.generation memory.shared

/-- A route with the link that it leads to. -/
def route (memory : SharedMemory) (dst : Ipv4Addr) : Option LinkRef := do
  let pid ← memory.shared.ipRoute dst
  let _ ← memory.shared.peerLinks pid
  return ⟨memory.generation, pid⟩

/-- Sending on a link; the result of `send` is ignored. -/
def send (net : Network) (memory : SharedMemory) (ref : LinkRef) (pkt : List UInt8) :
    SharedMemory :=
  match memory.link ref with
  | none => memory
  | some link => { memory with forwarded := memory.forwarded ++ (link.path.send net pkt).sent }

end SharedMemory

/-- What the operations do. -/
def sharedHandler (net : Network) (order : LinkOrder) : Handler sharedOps SharedMemory
  | .route dst, memory => (memory.route dst, memory)
  | .values, memory =>
    ((memory.entries order).map fun entry => ⟨memory.generation, entry.1⟩, memory)
  | .read ref, memory => (memory.link ref, memory)
  | .send ref pkt, memory => ((), memory.send net ref pkt)
  | .publish generation links, memory =>
    ((), { memory with generation, shared := links })
  | .check _, memory => ((), memory)

/-! ## The tasks -/

/-- What a task ends with; `ready` is a thread without a task yet. -/
inductive Reply where
  | ready
  | forwarded
  | refreshed
  | polled
  | spawned (refs : List LinkRef)
  | status (response : StatusResponse)
  | diagnostics (response : DiagnosticsResponse)
  deriving DecidableEq, Repr

/-- The programs of the daemon. -/
abbrev DaemonProgram := Program (sharedOps.withLocks DaemonLock)

/-- An operation on the shared memory. -/
abbrev access (op : SharedOp) : DaemonProgram (sharedOps.Answer op) :=
  @Program.act sharedOps DaemonLock op

/-- A packet read from the TUN (`main.rs:499-513`). -/
def forwardTask (pkt : List UInt8) : DaemonProgram Reply :=
  match parseDstIp pkt with
  | none => return .forwarded
  | some dst => withLock .state do
    let found ← access (.route dst)
    match found with
    | none => return .forwarded
    | some ref =>
      withLock (.link ref) (access (.send ref pkt))
      return .forwarded

/-- The loop of the handlers over the links, each locked while it is looked at. -/
def collectLinks {β : Type} (shown : PeerLink → β) : List LinkRef → DaemonProgram (List β)
  | [] => return []
  | ref :: rest => do
    let found ← withLock (.link ref) (access (.read ref))
    let others ← collectLinks shown rest
    match found with
    | none => return others
    | some lk => return shown lk :: others

/-- `handle_status`. -/
def statusTask (own : Own) (uptimeSecs : UInt64) : DaemonProgram Reply :=
  withLock .state do
    let refs ← access .values
    let peers ← collectLinks PeerLink.statusPeer refs
    return .status {
      deviceId := own.deviceId.toString
      virtualIp := own.virtualIp.toString
      hostname := own.hostname
      uptimeSecs
      peerCount := peers.length
      peers }

/-- `handle_diagnostics`, which waits for its checks in its section. Nothing limits how long
    `discover` waits in `check_stun`. -/
def diagnosticsTask (own : Own) (uptimeSecs : UInt64) (checks : CheckedService → CheckResult) :
    DaemonProgram Reply :=
  withLock .state do
    access (.check .control)
    access (.check .stun)
    access (.check .relay)
    let refs ← access .values
    let peers ← collectLinks PeerLink.peerDiag refs
    return .diagnostics (handleDiagnostics own uptimeSecs checks peers)

/-- The loop of `attempt_p2p_for_all`: each link is locked during its attempt. The links are
    not shared yet, so what the attempt does to them is the refresh task's own affair. -/
def attemptLocks : List LinkRef → DaemonProgram Unit
  | [] => return ()
  | ref :: rest => do
    withLock (.link ref) (return ())
    attemptLocks rest

/-- A sync of the refresh task (`main.rs:582-591`); `before` is what else the task has of its
    own. Without the peer list it keeps the maps. -/
def refreshTask (ourId : Uuid) (env : Surroundings) (generation : Nat) (before : DaemonState) :
    DaemonProgram Reply :=
  match syncPeers env ourId with
  | .error _ => return .refreshed
  | .ok links => do
    attemptLocks ((linkEntries env ourId links).map fun entry => ⟨generation, entry.1⟩)
    withLock .state (access (.publish generation (attemptP2pForAll env ourId links before).1))
    return .refreshed

/-- One round of the task of a link (`main.rs:528-545`), which locks it twice for nothing. -/
def pollTask (ref : LinkRef) : DaemonProgram Reply := do
  withLock (.link ref) (return ())
  withLock (.link ref) (return ())
  return .polled

/-- `main` going through the links to spawn their tasks (`main.rs:523-547`). -/
def spawnTask : DaemonProgram Reply :=
  withLock .state do
    let refs ← access .values
    return .spawned refs

/-- The tasks. -/
inductive Task where
  | forward (pkt : List UInt8)
  | status (uptimeSecs : UInt64)
  | diagnostics (uptimeSecs : UInt64) (checks : CheckedService → CheckResult)
  | refresh (env : Surroundings) (generation : Nat) (before : DaemonState)
  | poll (ref : LinkRef)
  | spawnPolls

/-- The program of a task. -/
def Task.program (own : Own) : Task → DaemonProgram Reply
  | forward pkt => forwardTask pkt
  | status uptimeSecs => statusTask own uptimeSecs
  | diagnostics uptimeSecs checks => diagnosticsTask own uptimeSecs checks
  | refresh env generation before => refreshTask own.deviceId env generation before
  | poll ref => pollTask ref
  | spawnPolls => spawnTask

/-- A task performed whole, by the functions that the handlers are made of. -/
def Task.perform (net : Network) (order : LinkOrder) (own : Own) :
    Task → SharedMemory → Reply × SharedMemory
  | forward pkt, memory =>
    (.forwarded, { memory with
      forwarded := memory.forwarded ++ (forwardPacket net memory.shared pkt).sent })
  | status uptimeSecs, memory =>
    (.status (handleStatus own uptimeSecs (memory.entries order)), memory)
  | diagnostics uptimeSecs checks, memory =>
    (.diagnostics (handleDiagnostics own uptimeSecs checks
      (handleDiagnosticsPeers (memory.entries order))), memory)
  | refresh env generation before, memory =>
    match syncPeers env own.deviceId with
    | .error _ => (.refreshed, memory)
    | .ok links =>
      (.refreshed, { memory with
        generation, shared := (attemptP2pForAll env own.deviceId links before).1 })
  | poll _, memory => (.polled, memory)
  | spawnPolls, memory =>
    (.spawned ((memory.entries order).map fun entry => ⟨memory.generation, entry.1⟩), memory)

/-! ## Each task alone -/

section Alone
variable {net : Network} {order : LinkOrder} {own : Own} {memory : SharedMemory}

/-- The links of the entries, looked up one by one. -/
theorem filterMap_entries {β : Type} (order : LinkOrder) (memory : SharedMemory)
    (shown : PeerLink → β) :
    ((memory.entries order).map fun entry => (⟨memory.generation, entry.1⟩ : LinkRef)).filterMap
        (fun ref => (memory.link ref).map shown) =
      (memory.entries order).map fun entry => shown entry.2 := by
  have hsound : ∀ entry ∈ memory.entries order,
      memory.link ⟨memory.generation, entry.1⟩ = some entry.2 := by
    intro entry hentry
    rw [SharedMemory.link, if_pos rfl]
    exact order.sound _ _ entry hentry
  generalize memory.entries order = entries at hsound ⊢
  induction entries with
  | nil => rfl
  | cons entry entries ih =>
      have hentry := hsound entry List.mem_cons_self
      rw [List.map_cons, List.filterMap_cons, hentry, List.map_cons]
      exact congrArg (shown entry.2 :: ·) (ih fun other hmem =>
        hsound other (List.mem_cons_of_mem _ hmem))

theorem exec_access (op : SharedOp) (memory : SharedMemory) :
    exec (sharedHandler net order) (access op).strip memory = sharedHandler net order op memory :=
  rfl

/-- A check leaves the memory alone. -/
theorem exec_check {β : Type} (service : CheckedService) (next : Unit → DaemonProgram β)
    (memory : SharedMemory) :
    exec (sharedHandler net order) (access (.check service) >>= next).strip memory =
      exec (sharedHandler net order) (next ()).strip memory :=
  rfl

theorem exec_collectLinks {β : Type} (shown : PeerLink → β) (refs : List LinkRef)
    (memory : SharedMemory) :
    exec (sharedHandler net order) (collectLinks shown refs).strip memory =
      (refs.filterMap fun ref => (memory.link ref).map shown, memory) := by
  induction refs with
  | nil => rfl
  | cons ref rest ih =>
      rw [collectLinks, strip_bind, strip_withLock, exec_bind, exec_access, strip_bind, exec_bind]
      simp only [sharedHandler, ih, List.filterMap_cons]
      cases memory.link ref with
      | none => rfl
      | some lk => rfl

theorem exec_attemptLocks (refs : List LinkRef) (memory : SharedMemory) :
    exec (sharedHandler net order) (attemptLocks refs).strip memory = ((), memory) := by
  induction refs with
  | nil => rfl
  | cons ref rest ih => exact ih

/-- Forwarding finds the link of the route and sends on it. -/
theorem exec_forwardTask (pkt : List UInt8) (memory : SharedMemory) :
    exec (sharedHandler net order) (forwardTask pkt).strip memory =
      (Task.forward pkt).perform net order own memory := by
  rw [forwardTask, Task.perform, sent_forwardPacket, routeOf]
  cases parseDstIp pkt with
  | none => simp
  | some dst =>
      dsimp only
      rw [strip_withLock, strip_bind, exec_bind, exec_access]
      simp only [sharedHandler, SharedMemory.route]
      cases hroute : memory.shared.ipRoute dst with
      | none => simp [hroute]
      | some pid =>
          cases hlink : memory.shared.peerLinks pid with
          | none => simp [hroute, hlink]
          | some link =>
              simp only [Option.bind_eq_bind, Option.bind_some, Option.pure_def, hroute, hlink]
              rw [strip_bind, strip_withLock, exec_bind, exec_access]
              simp [sharedHandler, SharedMemory.send, SharedMemory.link, hlink]

theorem exec_program (task : Task) (memory : SharedMemory) :
    exec (sharedHandler net order) (task.program own).strip memory =
      task.perform net order own memory := by
  cases task with
  | forward pkt => exact exec_forwardTask pkt memory
  | status uptimeSecs =>
      rw [Task.program, statusTask, strip_withLock, strip_bind, exec_bind, exec_access]
      rw [strip_bind, exec_bind, exec_collectLinks]
      simp only [sharedHandler, filterMap_entries]
      rfl
  | diagnostics uptimeSecs checks =>
      rw [Task.program, diagnosticsTask, strip_withLock]
      rw [exec_check, exec_check, exec_check, strip_bind, exec_bind, exec_access]
      rw [strip_bind, exec_bind, exec_collectLinks]
      simp only [sharedHandler, filterMap_entries]
      rfl
  | refresh env generation before =>
      rw [Task.program, refreshTask, Task.perform]
      cases syncPeers env own.deviceId with
      | error e => rfl
      | ok links =>
          dsimp only
          rw [strip_bind, exec_bind, exec_attemptLocks, strip_bind, strip_withLock, exec_bind,
            exec_access]
          rfl
  | poll ref => rfl
  | spawnPolls => rfl

end Alone

/-! ## The order of the mutexes -/

/-- A section of the state's mutex. -/
theorem orderly_state {β : Type} {body : DaemonProgram β}
    (hbody : body.Orderly DaemonLock.rank {.state} {.state}) :
    (withLock .state body).Orderly DaemonLock.rank ∅ ∅ := by
  apply Orderly.withLock
  · exact fun m hm => absurd hm (Set.notMem_empty m)
  · rwa [insert_empty_eq]

/-- A section of a link's mutex, alone or in one of the state's. -/
theorem orderly_link {β : Type} {held : Set DaemonLock} (hheld : held ⊆ {.state}) (ref : LinkRef)
    {body : DaemonProgram β}
    (hbody : body.Orderly DaemonLock.rank (insert (.link ref) held) (insert (.link ref) held)) :
    (withLock (.link ref) body).Orderly DaemonLock.rank held held := by
  apply Orderly.withLock _ hbody
  intro m hm
  obtain rfl : m = .state := hheld hm
  exact Nat.zero_lt_one

theorem orderly_return {β : Type} (held : Set DaemonLock) (result : β) :
    (done result : DaemonProgram β).Orderly DaemonLock.rank held held := rfl

theorem orderly_access (held : Set DaemonLock) (op : SharedOp) :
    (access op).Orderly DaemonLock.rank held held :=
  fun _ => rfl

theorem orderly_collectLinks {β : Type} (shown : PeerLink → β) (refs : List LinkRef) :
    (collectLinks shown refs).Orderly DaemonLock.rank {.state} {.state} := by
  induction refs with
  | nil => rfl
  | cons ref rest ih =>
      refine (orderly_link subset_rfl ref (orderly_access _ _)).bind ?_
      intro found
      refine ih.bind ?_
      intro others
      cases found with
      | none => rfl
      | some lk => rfl

theorem orderly_attemptLocks (refs : List LinkRef) :
    (attemptLocks refs).Orderly DaemonLock.rank ∅ ∅ := by
  induction refs with
  | nil => rfl
  | cons ref rest ih =>
      exact (orderly_link (Set.empty_subset _) ref (orderly_return _ ())).bind fun _ => ih

/-- Every task takes the mutex of the state first, then one link's at a time. -/
theorem orderly_program (own : Own) (task : Task) :
    (task.program own).Orderly DaemonLock.rank ∅ ∅ := by
  cases task with
  | forward pkt =>
      rw [Task.program, forwardTask]
      cases parseDstIp pkt with
      | none => rfl
      | some dst =>
          refine orderly_state ((orderly_access _ _).bind ?_)
          intro found
          cases found with
          | none => rfl
          | some ref =>
              refine (orderly_link subset_rfl ref (orderly_access _ _)).bind ?_
              exact fun _ => rfl
  | status uptimeSecs =>
      refine orderly_state ((orderly_access _ _).bind ?_)
      exact fun refs => (orderly_collectLinks _ refs).bind fun _ => rfl
  | diagnostics uptimeSecs checks =>
      have hcheck := fun service => orderly_access {.state} (.check service)
      refine orderly_state ((hcheck _).bind fun _ => (hcheck _).bind fun _ => (hcheck _).bind
        fun _ => (orderly_access _ _).bind ?_)
      exact fun refs => (orderly_collectLinks _ refs).bind fun _ => rfl
  | refresh env generation before =>
      rw [Task.program, refreshTask]
      cases syncPeers env own.deviceId with
      | error e => rfl
      | ok links =>
          refine (orderly_attemptLocks _).bind ?_
          exact fun _ => (orderly_state (orderly_access _ _)).bind fun _ => rfl
  | poll ref =>
      have hlock := orderly_link (Set.empty_subset _) ref (orderly_return _ ())
      exact hlock.bind fun _ => hlock.bind fun _ => rfl
  | spawnPolls => exact orderly_state ((orderly_access _ _).bind fun _ => rfl)

theorem rank_lt (l : DaemonLock) : l.rank < 2 := by
  cases l with
  | state => exact Nat.zero_lt_two
  | link ref => exact Nat.one_lt_two

/-- However the tasks interleave, nothing gets stuck: from every state that is reached some
    schedule lets all tasks in progress finish and all mutexes be free. -/
theorem tasks_never_deadlock (net : Network) (order : LinkOrder) (own : Own) (threads : Nat)
    (memory : SharedMemory) (events : List (TaskEvent (Fin threads) Task)) :
    ∃ schedule,
      (run (LockPool.step (sharedHandler net order))
        (run (LockPool.handle (sharedHandler net order) (Task.program own))
          (fresh Reply.ready memory) events) schedule).Idle :=
  (idle_fresh _ _).exists_schedule_idle (orderly_program own) rank_lt _ events

/-! ## One section per task -/

/-- The mutex of a link is not that of the state. -/
theorem link_ne_state (ref : LinkRef) : DaemonLock.link ref ≠ .state := nofun

theorem avoids_collectLinks {β : Type} (shown : PeerLink → β) (refs : List LinkRef) :
    (collectLinks shown refs).Avoids DaemonLock.state := by
  induction refs with
  | nil => exact avoids_done _
  | cons ref rest ih =>
      refine ((avoids_act _).withLock (link_ne_state ref)).bind ?_
      intro found
      refine ih.bind ?_
      intro others
      cases found with
      | none => exact avoids_done _
      | some lk => exact avoids_done _

theorem quiet_lockLink (ref : LinkRef) :
    (withLock (.link ref) (return ()) : DaemonProgram Unit).Quiet DaemonLock.state :=
  (quiet_done ()).withLock (link_ne_state ref)

theorem quiet_attemptLocks (refs : List LinkRef) :
    (attemptLocks refs).Quiet DaemonLock.state := by
  induction refs with
  | nil => exact quiet_done _
  | cons ref rest ih => exact (quiet_lockLink ref).bind fun _ => ih

/-- A task is one section of the state's mutex, or does not touch the shared memory. -/
theorem sectioned_program (net : Network) (order : LinkOrder) (own : Own) :
    Sectioned (sharedHandler net order) (Task.perform net order own) DaemonLock.state
      (Task.program own) := by
  refine ⟨?_, exec_program⟩
  intro task
  cases task with
  | forward pkt =>
      rw [Task.program, forwardTask]
      cases parseDstIp pkt with
      | none => exact Or.inr (quiet_done _)
      | some dst =>
          refine Or.inl (outside_withLock ((avoids_act _).bind ?_))
          intro found
          cases found with
          | none => exact avoids_done _
          | some ref =>
              exact ((avoids_act _).withLock (link_ne_state ref)).bind fun _ => avoids_done _
  | status uptimeSecs =>
      refine Or.inl (outside_withLock ((avoids_act _).bind ?_))
      exact fun refs => (avoids_collectLinks _ refs).bind fun _ => avoids_done _
  | diagnostics uptimeSecs checks =>
      refine Or.inl (outside_withLock ((avoids_act _).bind fun _ => (avoids_act _).bind fun _ =>
        (avoids_act _).bind fun _ => (avoids_act _).bind ?_))
      exact fun refs => (avoids_collectLinks _ refs).bind fun _ => avoids_done _
  | refresh env generation before =>
      rw [Task.program, refreshTask]
      cases syncPeers env own.deviceId with
      | error e => exact Or.inr (quiet_done _)
      | ok links =>
          refine Or.inl ((quiet_attemptLocks _).outside_bind ?_)
          exact fun _ => (outside_withLock (avoids_act _)).bind fun _ => quiet_done _
  | poll ref =>
      refine Or.inr ((quiet_lockLink ref).bind ?_)
      exact fun _ => (quiet_lockLink ref).bind fun _ => quiet_done _
  | spawnPolls => exact Or.inl (outside_withLock ((avoids_act _).bind fun _ => avoids_done _))

/-- However the tasks interleave, they might as well be performed whole, one at a time, each
    between its start and its end: at every moment the tasks that have finished have the same
    replies, and while no task is in its section the memory is the same. -/
theorem tasks_performed_whole (net : Network) (order : LinkOrder) (own : Own) (threads : Nat)
    (memory : SharedMemory) (events : List (TaskEvent (Fin threads) Task)) :
    ∃ parts, List.Forall₂ Stands events parts ∧ ∀ n,
      let now := run (LockPool.handle (sharedHandler net order) (Task.program own))
        (fresh Reply.ready memory) (events.take n)
      let whole := run (Pool.handle (Task.perform net order own))
        ⟨fun _ => .done Reply.ready, memory⟩ (parts.take n).flatten
      (∀ i reply, now.threads i = .done reply → whole.threads i = .done reply) ∧
        (now.owner .state = none → whole.state = now.state) := by
  obtain ⟨parts, hparts, hall⟩ := (represents_fresh Reply.ready memory).exists_parts
    (sectioned_program net order own) events
  refine ⟨parts, hparts, ?_⟩
  intro n
  exact ⟨fun i reply hi => ((hall n).result hi).2, (hall n).state_eq⟩

/-- The thread waits for a check of `handle_diagnostics`. -/
def AtCheck (p : DaemonProgram Reply) : Prop :=
  ∃ service next, p = .call (.act (.check service)) next

/-- However the tasks interleave, while a request for diagnostics waits for a check, no packet
    is forwarded and no maps are published: whatever the other threads do, the mutex of the
    state stays taken and what it guards stays as it is. -/
theorem check_stalls_daemon (net : Network) (order : LinkOrder) (own : Own) (threads : Nat)
    (memory : SharedMemory) (events later : List (TaskEvent (Fin threads) Task)) (i : Fin threads) :
    let now := run (LockPool.handle (sharedHandler net order) (Task.program own))
      (fresh Reply.ready memory) events
    AtCheck (now.threads i) → (∀ event ∈ later, event ≠ .step i) →
      (run (LockPool.handle (sharedHandler net order) (Task.program own)) now later).owner .state =
          some i ∧
        (run (LockPool.handle (sharedHandler net order) (Task.program own)) now later).state =
          now.state := by
  rintro now ⟨service, next, hi⟩ hlater
  have hsectioned := sectioned_program net order own
  obtain ⟨parts, -, hall⟩ := (represents_fresh Reply.ready memory).exists_parts hsectioned events
  have hrep := hall events.length
  rw [List.take_length] at hrep
  exact hrep.stalled_run hsectioned (hrep.owner_of_act hi) hlater

/-- Thread 0 answers a request for diagnostics, and has taken the mutex. -/
def checking : List (TaskEvent (Fin 2) Task) :=
  [.start 0 (.diagnostics 0 fun _ => ⟨"ok", "", none⟩), .step 0]

/-- Thread 1 is to forward a packet. -/
def forwarding : List (TaskEvent (Fin 2) Task) :=
  [.start 1 (.forward (List.replicate 20 0x45)), .step 1, .step 1]

/-- A daemon without peers, at address 100.64.0.1. -/
def lonely : Own := ⟨Uuid.nil, ⟨100, 64, 0, 1⟩, "lonely"⟩

theorem checking_stalls_forwarding :
    (run (LockPool.handle (sharedHandler Network.ideal (Classical.arbitrary LinkOrder))
        (Task.program lonely))
      (run (LockPool.handle (sharedHandler Network.ideal (Classical.arbitrary LinkOrder))
        (Task.program lonely)) (fresh Reply.ready ⟨0, ⟨fun _ => none, fun _ => none⟩, []⟩) checking)
      forwarding).owner .state = some 0 := by
  refine (check_stalls_daemon Network.ideal (Classical.arbitrary LinkOrder) lonely 2
    ⟨0, ⟨fun _ => none, fun _ => none⟩, []⟩ checking forwarding 0 ⟨.control, _, rfl⟩ ?_).1
  intro event hevent
  simp only [forwarding, List.mem_cons, List.not_mem_nil, or_false] at hevent
  rcases hevent with rfl | rfl | rfl
  · nofun
  · simp
  · simp

/-! ## What the replies tell -/

section Replies
variable {ι : Type} (own : Own) (memory : SharedMemory) (events : List (TaskEvent ι Task))

/-- The maps are those at the start, or those of a peer list that a refresh task synced. -/
def FromSync (shared : SharedState) : Prop :=
  shared = memory.shared ∨ ∃ i env generation before peers,
    .start i (.refresh env generation before) ∈ events ∧ env.peers = .ok peers ∧
      Follows own.deviceId peers env.relayAddr shared

/-- The entries are those of one such pair of maps. -/
def Shown (order : LinkOrder) (entries : List (Uuid × PeerLink)) : Prop :=
  entries = memory.entries order ∨
    ∃ shared, FromSync own memory events shared ∧ Entries shared entries

/-- A reply that shows links shows those of one pair of maps. -/
def Reply.ShowsOne (order : LinkOrder) : Reply → Prop
  | status response => ∃ uptimeSecs entries, Shown own memory events order entries ∧
      response = handleStatus own uptimeSecs entries
  | diagnostics response => ∃ uptimeSecs checks entries,
      Shown own memory events order entries ∧
      response = handleDiagnostics own uptimeSecs checks (handleDiagnosticsPeers entries)
  | _ => True

/-- The memory: its maps are those at the start or from a sync, and every datagram in which a
    packet was forwarded since is one that forwarding it by such maps sends. -/
structure Kept (net : Network) (now : SharedMemory) : Prop where
  maps : now.generation = memory.generation ∧ now.shared = memory.shared ∨
    ∃ i env generation before peers, .start i (.refresh env generation before) ∈ events ∧
      env.peers = .ok peers ∧ Follows own.deviceId peers env.relayAddr now.shared
  forwarded : ∀ datagram ∈ now.forwarded, datagram ∈ memory.forwarded ∨
    ∃ i pkt shared, .start i (.forward pkt) ∈ events ∧ FromSync own memory events shared ∧
      datagram ∈ (forwardPacket net shared pkt).sent

variable {own memory events} {net : Network} {now : SharedMemory}

theorem Kept.fromSync (h : Kept own memory events net now) :
    FromSync own memory events now.shared := by
  rcases h.maps with ⟨-, hsame⟩ | hsynced
  · exact Or.inl hsame
  · exact Or.inr hsynced

theorem Kept.shown (h : Kept own memory events net now) (order : LinkOrder) :
    Shown own memory events order (now.entries order) := by
  rcases h.maps with ⟨hgeneration, hsame⟩ | ⟨i, env, generation, before, peers, hstart, hlist, hmaps⟩
  · left
    rw [SharedMemory.entries, hgeneration, hsame]
    rfl
  · right
    refine ⟨now.shared, h.fromSync, ?_⟩
    exact order.complete _ _ hmaps.exists_entries

/-- A task performed whole. -/
theorem Kept.perform (h : Kept own memory events net now) (order : LinkOrder) {task : Task}
    (htask : ∃ i, .start i task ∈ events) :
    (task.perform net order own now).1.ShowsOne own memory events order ∧
      Kept own memory events net (task.perform net order own now).2 := by
  obtain ⟨i, hi⟩ := htask
  cases task with
  | forward pkt =>
      refine ⟨trivial, h.maps, ?_⟩
      intro datagram hmem
      rcases List.mem_append.mp hmem with hold | hnew
      · exact h.forwarded datagram hold
      · exact Or.inr ⟨i, pkt, now.shared, hi, h.fromSync, hnew⟩
  | status uptimeSecs => exact ⟨⟨uptimeSecs, _, h.shown order, rfl⟩, h⟩
  | diagnostics uptimeSecs checks => exact ⟨⟨uptimeSecs, checks, _, h.shown order, rfl⟩, h⟩
  | refresh env generation before =>
      rw [Task.perform]
      cases hsync : syncPeers env own.deviceId with
      | error e => exact ⟨trivial, h⟩
      | ok links =>
          obtain ⟨peers, hpeers, hfollows⟩ := follows_attemptP2pForAll hsync before
          exact ⟨trivial, Or.inr ⟨i, env, generation, before, peers, hi, hpeers, hfollows⟩,
            h.forwarded⟩
  | poll ref => exact ⟨trivial, h⟩
  | spawnPolls => exact ⟨trivial, h⟩

end Replies

/-- However the tasks interleave, what the status API answers shows the links of one peer
    list, never a mix of two, and a packet is forwarded by the maps of one. -/
theorem replies_tell_synced_list (net : Network) (order : LinkOrder) (own : Own) (threads : Nat)
    (memory : SharedMemory) (events : List (TaskEvent (Fin threads) Task)) :
    let now := run (LockPool.handle (sharedHandler net order) (Task.program own))
      (fresh Reply.ready memory) events
    (∀ i reply, now.threads i = .done reply → reply.ShowsOne own memory events order) ∧
      (now.owner .state = none → Kept own memory events net now.state) := by
  apply (sectioned_program net order own).sound_run (J := Kept own memory events net)
  · exact fun task s htask hs => hs.perform order htask
  · trivial
  · exact ⟨Or.inl ⟨rfl, rfl⟩, fun datagram hmem => Or.inl hmem⟩
  · exact fun i task hmem => ⟨i, hmem⟩

end ConnectAlso.Daemon
