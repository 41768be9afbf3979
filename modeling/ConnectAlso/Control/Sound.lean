import ConnectAlso.Control.Service

/-!
# What every reachable database looks like

First what a single statement can do to the rows of the two tables, then the facts
that every statement of every request preserves: a revoked row is the one without an
address, every other row has an address in text form, and every row of `ip_pool` is
an allocated address. They hold after complete requests and under any interleaving of
their statements.
-/

namespace ConnectAlso.Control
open Misc Program

/-! ## What a statement can do -/

/-- The statement may turn the device row `d` into `r`. -/
def Statement.Rewrites : Statement → DeviceRow → DeviceRow → Prop
  | updateLastSeen now deviceId, d, r => d.deviceId = deviceId ∧ r = { d with lastSeen := now }
  | approvePending deviceId, d, r =>
    d.deviceId = deviceId ∧ d.status = 0 ∧ r = { d with status := 1 }
  | revokeApproved deviceId, d, r =>
    d.deviceId = deviceId ∧ d.status = 1 ∧ r = { d with status := -1, ipv4 := "" }
  | _, _, _ => False

/-- A device row after a statement was there before, or is the inserted one, or is a
    rewritten one. -/
theorem mem_devices_of_handle {op : Statement} {db : Db} {r : DeviceRow}
    (h : r ∈ (handle op db).2.devices) :
    r ∈ db.devices ∨ op = .insertDevice r ∨ ∃ d ∈ db.devices, op.Rewrites d r := by
  cases op with
  | insertDevice row =>
      rcases Db.mem_insertDevice h with hold | rfl
      · exact Or.inl hold
      · exact Or.inr (Or.inl rfl)
  | updateLastSeen now deviceId =>
      rcases Db.mem_updateDevices h with hold | ⟨d, hd, hp, rfl⟩
      · exact Or.inl hold
      · exact Or.inr (Or.inr ⟨d, hd, of_decide_eq_true hp, rfl⟩)
  | approvePending deviceId =>
      rcases Db.mem_updateDevices h with hold | ⟨d, hd, hp, rfl⟩
      · exact Or.inl hold
      · obtain ⟨hid, hstatus⟩ := of_decide_eq_true hp
        exact Or.inr (Or.inr ⟨d, hd, hid, hstatus, rfl⟩)
  | revokeApproved deviceId =>
      rcases Db.mem_updateDevices h with hold | ⟨d, hd, hp, rfl⟩
      · exact Or.inl hold
      · obtain ⟨hid, hstatus⟩ := of_decide_eq_true hp
        exact Or.inr (Or.inr ⟨d, hd, hid, hstatus, rfl⟩)
  | deleteDevice deviceId => exact Or.inl (Table.mem_delete.mp h).1
  | deleteStale cutoff => exact Or.inl (Table.mem_delete.mp h).1
  | _ => exact Or.inl (by simpa [handle] using h)

/-- A pool row after a statement was there before, or is the inserted one, or is a
    row that has been marked as allocated. -/
theorem mem_ipPool_of_handle {op : Statement} {db : Db} {p : IpPoolRow}
    (h : p ∈ (handle op db).2.ipPool) :
    p ∈ db.ipPool ∨ op = .insertIpPool p.ipv4 ∧ p.allocated = 1 ∨
      ∃ q ∈ db.ipPool, p = { q with allocated := 1 } := by
  cases op with
  | freeIpOf deviceId => exact Or.inl (Table.mem_delete.mp h).1
  | freeIpsOfStale cutoff => exact Or.inl (Table.mem_delete.mp h).1
  | markAllocated ipv4 =>
      rcases Db.mem_updateIps h with hold | hmarked
      · exact Or.inl hold
      · exact Or.inr (Or.inr hmarked)
  | insertIpPool ipv4 =>
      rcases Db.mem_insertIp.mp h with hold | ⟨rfl, -⟩
      · exact Or.inl hold
      · exact Or.inr (Or.inl ⟨rfl, rfl⟩)
  | _ => exact Or.inl (by simpa [handle] using h)

/-! ## Sound rows -/

/-- The text is that of an address. -/
def IsAddress (text : String) : Prop := ∃ addr : Ipv4Addr, text = addr.toString

theorem IsAddress.ne_empty {text : String} (h : IsAddress text) : text ≠ "" := by
  obtain ⟨addr, rfl⟩ := h
  exact addr.toString_ne_empty

/-- A row is revoked and has no address, or is pending or approved and has one. -/
def DeviceRow.Sound (d : DeviceRow) : Prop :=
  d.status = -1 ∧ d.ipv4 = "" ∨ (d.status = 0 ∨ d.status = 1) ∧ IsAddress d.ipv4

/-- What holds of every row of a reachable database. -/
structure Sound (db : Db) : Prop where
  device : ∀ d ∈ db.devices, d.Sound
  pool : ∀ p ∈ db.ipPool, p.allocated = 1 ∧ IsAddress p.ipv4

/-- The statement inserts only sound rows. -/
def Statement.WellFormed : Statement → Prop
  | insertDevice row => (row.status = 0 ∨ row.status = 1) ∧ IsAddress row.ipv4
  | insertIpPool ipv4 => IsAddress ipv4
  | _ => True

/-- An answer that a sound database can give: no pool row is free. -/
def Statement.SoundAnswer : (op : Statement) → op.Answer → Prop
  | selectFreeIp, row => row = none
  | _, _ => True

theorem sound_empty : Sound Db.empty := by
  refine ⟨?_, ?_⟩
  · intro d hd
    exact absurd hd (Table.not_mem_empty d)
  · intro p hp
    exact absurd hp (Table.not_mem_empty p)

/-- The row is revoked exactly when its address is empty. -/
theorem DeviceRow.Sound.revoked_iff {d : DeviceRow} (h : d.Sound) : d.status = -1 ↔ d.ipv4 = "" := by
  rcases h with ⟨hstatus, hipv4⟩ | ⟨hstatus, haddr⟩
  · simp [hstatus, hipv4]
  · have hne := haddr.ne_empty
    rcases hstatus with hstatus | hstatus
    · simp [hstatus, hne]
    · simp [hstatus, hne]

theorem DeviceRow.Sound.rewrites {op : Statement} {d r : DeviceRow} (h : d.Sound)
    (hrewrites : op.Rewrites d r) : r.Sound := by
  cases op with
  | updateLastSeen now deviceId =>
      obtain ⟨-, rfl⟩ := hrewrites
      exact h
  | approvePending deviceId =>
      obtain ⟨-, hstatus, rfl⟩ := hrewrites
      rcases h with ⟨hrevoked, -⟩ | ⟨-, haddr⟩
      · rw [hstatus] at hrevoked
        cases hrevoked
      · exact Or.inr ⟨Or.inr rfl, haddr⟩
  | revokeApproved deviceId =>
      obtain ⟨-, -, rfl⟩ := hrewrites
      exact Or.inl ⟨rfl, rfl⟩
  | _ => exact absurd hrewrites id

/-- A statement keeps the database sound. -/
theorem sound_handle {op : Statement} {db : Db} (hop : op.WellFormed) (h : Sound db) :
    Sound (handle op db).2 := by
  refine ⟨?_, ?_⟩
  · intro r hr
    rcases mem_devices_of_handle hr with hold | rfl | ⟨d, hd, hrewrites⟩
    · exact h.device r hold
    · exact Or.inr hop
    · exact (h.device d hd).rewrites hrewrites
  · intro p hp
    rcases mem_ipPool_of_handle hp with hold | ⟨rfl, hallocated⟩ | ⟨q, hq, rfl⟩
    · exact h.pool p hold
    · exact ⟨hallocated, hop⟩
    · exact ⟨rfl, (h.pool q hq).2⟩

theorem soundAnswer_handle (op : Statement) {db : Db} (h : Sound db) :
    op.SoundAnswer (handle op db).1 := by
  cases op with
  | selectFreeIp =>
      have hnone : (db.ipPool.select fun p => p.allocated = 0) = [] := by
        apply List.filter_eq_nil_iff.mpr
        intro p hp
        simp [(h.pool p hp).1]
      simp only [Statement.SoundAnswer, handle, hnone]
      rfl
  | _ => trivial

/-! ## Requests -/

theorem allocateIp_guarantees (base maxOffset : UInt32) :
    (allocateIp base maxOffset).Guarantees Statement.SoundAnswer Statement.WellFormed
      (fun _ => True) := by
  rw [allocateIp_eq]
  refine ⟨trivial, fun row hrow => ?_⟩
  obtain rfl : row = none := hrow
  refine ⟨trivial, fun used _ => ?_⟩
  dsimp only
  split
  · trivial
  · exact ⟨⟨_, rfl⟩, fun _ _ => trivial⟩

theorem handleRegister_guarantees (state : AppState) (req : RegisterRequest) (deviceId : Uuid)
    (now : Int) :
    (handleRegister state req deviceId now).Guarantees Statement.SoundAnswer Statement.WellFormed
      (fun _ => True) := by
  rw [handleRegister_eq]
  refine ⟨trivial, fun row _ => ?_⟩
  cases row with
  | some existing => trivial
  | none =>
      refine (guarantees_bind _ _ _).mpr ((allocateIp_guarantees _ _).mono (fun _ h => h) ?_)
      intro allocated _
      cases allocated with
      | none => trivial
      | some ip =>
          refine ⟨trivial, fun (count : Nat) _ => ⟨⟨?_, ip, rfl⟩, fun rows _ => ?_⟩⟩
          · show (initialStatus count).asI32 = 0 ∨ (initialStatus count).asI32 = 1
            rw [asI32_initialStatus]
            split
            · exact Or.inr rfl
            · exact Or.inl rfl
          · cases rows with
            | error e => trivial
            | ok n => trivial

/-- A request issues only well-formed statements, as long as no pool row is free. -/
theorem program_guarantees (state : AppState) (request : Request) :
    (request.program state).Guarantees Statement.SoundAnswer Statement.WellFormed
      (fun _ => True) := by
  cases request with
  | register req deviceId now =>
      exact (guarantees_bind _ _ _).mpr
        ((handleRegister_guarantees state req deviceId now).mono (fun _ h => h) fun _ _ => trivial)
  | approve | heartbeat => exact ⟨trivial, fun _ _ => trivial⟩
  | revoke | unregister =>
      -- the second statement is issued when the first one succeeds
      refine ⟨trivial, fun freed _ => ?_⟩
      cases freed with
      | error e => trivial
      | ok n => exact ⟨trivial, fun _ _ => trivial⟩
  | purgeStale overflowChecks now timeoutSecs =>
      rcases program_purgeStale_cases state overflowChecks now timeoutSecs with
        ⟨-, -, hprogram⟩ | ⟨-, hprogram⟩
      · rw [hprogram]
        trivial
      · rw [hprogram]
        refine ⟨trivial, fun freed _ => ?_⟩
        cases freed with
        | error e => trivial
        | ok n => exact ⟨trivial, fun _ _ => trivial⟩

/-- A complete request keeps the database sound. -/
theorem sound_step (state : AppState) (db : Db) (request : Request) (h : Sound db) :
    Sound (step state db request) :=
  (exec_of_guarantees (I := Sound) (fun op _ hs => soundAnswer_handle op hs)
    (fun _ _ hop hs => sound_handle hop hs) (program_guarantees state request) h).2

/-- Every database that complete requests reach is sound. -/
theorem sound_run (state : AppState) (requests : List Request) :
    Sound (run (step state) Db.empty requests) :=
  run_invariant (sound_step state) sound_empty requests

/-! ## Interleavings -/

/-- Requests on the database `db`, none of which has issued a statement yet. -/
def serving {ι : Type} (state : AppState) (requests : ι → Request) (db : Db) :
    Pool statements ι Reply Db where
  threads i := (requests i).program state
  state := db

/-- Some requests, with their statements in some order, lead from the empty database
    to `db`. -/
def Reachable (state : AppState) (db : Db) : Prop :=
  ∃ (requests : Nat → Request) (schedule : List Nat),
    (run (Pool.step handle) (serving state requests Db.empty) schedule).state = db

theorem Reachable.sound {state : AppState} {db : Db} (h : Reachable state db) : Sound db := by
  obtain ⟨requests, schedule, rfl⟩ := h
  refine (@run_invariant _ _ (Pool.step handle)
    (fun pool : Pool statements Nat Reply Db => Sound pool.state ∧
      ∀ i, (pool.threads i).Guarantees Statement.SoundAnswer Statement.WellFormed (fun _ => True))
    ?_ _ ⟨sound_empty, fun i => program_guarantees state (requests i)⟩ schedule).1
  intro pool i hpool
  refine @Pool.step_invariant _ _ _ _ _ handle Sound
    (fun _ p _ => p.Guarantees Statement.SoundAnswer Statement.WellFormed (fun _ => True))
    ?_ ?_ ?_ pool i hpool
  · intro i op next db hdb hthread
    exact sound_handle hthread.1 hdb
  · intro i op next db hdb hthread
    exact hthread.2 _ (soundAnswer_handle op hdb)
  · intro i j op next p db _ _ _ hthread
    exact hthread

/-- Threads `n`, `n + 1`, … that have not started can be served one after the other. -/
theorem exists_schedule_run (state : AppState) (requests : List Request) (n : Nat)
    (pool : Pool statements Nat Reply Db)
    (hthreads : ∀ j request, requests[j]? = some request →
      pool.threads (n + j) = request.program state) :
    ∃ schedule, (run (Pool.step handle) pool schedule).state =
      run (step state) pool.state requests := by
  induction requests generalizing n pool with
  | nil => exact ⟨[], rfl⟩
  | cons request requests ih =>
      obtain ⟨first, hfirst⟩ := Pool.exists_schedule_exec handle pool n
      have hnow : pool.threads n = request.program state := hthreads 0 request rfl
      obtain ⟨rest, hrest⟩ := ih (n + 1) (run (Pool.step handle) pool first) (by
        intro j later hlater
        rw [hfirst, ← hthreads (j + 1) later hlater, Nat.add_right_comm, Nat.add_assoc]
        exact Function.update_of_ne (by omega) _ _)
      refine ⟨first ++ rest, ?_⟩
      rw [run_append, hrest, hfirst, hnow]
      rfl

/-- Complete requests reach what interleaved ones reach when no two overlap. -/
theorem reachable_run (state : AppState) (requests : List Request) :
    Reachable state (run (step state) Db.empty requests) := by
  let spare : Request := .heartbeat (idOf 0) 0
  obtain ⟨schedule, hschedule⟩ := exists_schedule_run state requests 0
    (serving state (fun i => requests[i]?.getD spare) Db.empty) (by
      intro j request hrequest
      show (requests[0 + j]?.getD spare).program state = _
      rw [Nat.zero_add, hrequest]
      rfl)
  exact ⟨_, schedule, hschedule⟩

end ConnectAlso.Control
