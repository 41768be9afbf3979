import ConnectAlso.Control.Listings

/-!
# The life cycle of a device

The status column is an integer that three handlers and the purger write. Whatever the
order of their statements, a device goes from one `DeviceStatus` to another only in the
steps below, each of them taken by a request for this very device or by the purger. So an
approved device stays approved until somebody revokes or unregisters it, and a revoked one
is never approved again under its id without having been deleted.
-/

namespace ConnectAlso.Control
open Misc Program

/-- The status of the device with the id, if there is one. -/
def Db.statusOf (db : Db) (deviceId : Uuid) : Option DeviceStatus :=
  (db.findById deviceId).map DeviceRecord.status

/-- What a request may do to the status of a device. -/
inductive Lifecycle : Request → Uuid → Option DeviceStatus → Option DeviceStatus → Prop
  | stays (request : Request) (deviceId : Uuid) (status : Option DeviceStatus) :
    Lifecycle request deviceId status status
  | registers (req : RegisterRequest) (deviceId : Uuid) (now : Int) {status : DeviceStatus}
      (hstatus : status ≠ .revoked) :
    Lifecycle (.register req deviceId now) deviceId none (some status)
  | approves (deviceId : Uuid) :
    Lifecycle (.approve deviceId) deviceId (some .pending) (some .approved)
  | revokes (deviceId : Uuid) :
    Lifecycle (.revoke deviceId) deviceId (some .approved) (some .revoked)
  | unregisters (deviceId : Uuid) (status : DeviceStatus) :
    Lifecycle (.unregister deviceId) deviceId (some status) none
  | purges (deviceId : Uuid) (overflowChecks : Bool) (now timeoutSecs : Int64)
      {status : DeviceStatus} (hstatus : status ≠ .approved) :
    Lifecycle (.purgeStale overflowChecks now timeoutSecs) deviceId (some status) none

theorem statusOf_of_mem {db : Db} {d : DeviceRow} (hd : d ∈ db.devices) :
    db.statusOf d.deviceId = some (DeviceStatus.fromI32 d.status) := by
  rw [Db.statusOf, Db.findById, select_head?_eq_some hd rfl]
  rfl

theorem statusOf_eq_none {db : Db} {deviceId : Uuid} (h : ∀ d ∈ db.devices, d.deviceId ≠ deviceId) :
    db.statusOf deviceId = none := by
  rw [Db.statusOf, Option.map_eq_none_iff, ← Option.not_isSome_iff_eq_none, findById_isSome_iff]
  rintro ⟨d, hd, hid⟩
  exact h d hd hid

/-- Either there is a device with the id, and its row has the status, or there is none. -/
theorem statusOf_cases (db : Db) (deviceId : Uuid) :
    (∃ d ∈ db.devices, d.deviceId = deviceId ∧
      db.statusOf deviceId = some (DeviceStatus.fromI32 d.status)) ∨
    (∀ d ∈ db.devices, d.deviceId ≠ deviceId) ∧ db.statusOf deviceId = none := by
  by_cases h : ∃ d ∈ db.devices, d.deviceId = deviceId
  · obtain ⟨d, hd, rfl⟩ := h
    exact Or.inl ⟨d, hd, rfl, statusOf_of_mem hd⟩
  · push Not at h
    exact Or.inr ⟨h, statusOf_eq_none h⟩

/-! ## One statement -/

/-- The statements that delete rows of devices. -/
def Statement.Deletes : Statement → DeviceRow → Prop
  | deleteDevice deviceId, d => d.deviceId = deviceId
  | deleteStale cutoff, d => d.lastSeen < cutoff ∧ d.status ≠ 1
  | _, _ => False

theorem Db.mem_updateDevices_of_mem {db : Db} {p : DeviceRow → Bool} {f : DeviceRow → DeviceRow}
    (hf : ∀ d, (f d).deviceId = d.deviceId) {d : DeviceRow} (hd : d ∈ db.devices) :
    ∃ e ∈ (db.updateDevices p f).2.devices, e.deviceId = d.deviceId := by
  unfold Db.updateDevices
  cases hupdate : db.devices.update? p f with
  | none => exact ⟨d, hd, rfl⟩
  | some devices =>
      refine ⟨if p d then f d else d, (Table.mem_of_update? hupdate).mpr ⟨d, hd, rfl⟩, ?_⟩
      split
      · exact hf d
      · rfl

/-- A device that is gone after a statement was deleted by it. -/
theorem exists_or_deletes {op : Statement} {db : Db} {d : DeviceRow} (hd : d ∈ db.devices) :
    (∃ e ∈ (handle op db).2.devices, e.deviceId = d.deviceId) ∨ op.Deletes d := by
  cases op with
  | insertDevice row => exact Or.inl ⟨d, Db.mem_insertDevice_of_mem hd, rfl⟩
  | updateLastSeen now deviceId =>
      exact Or.inl (Db.mem_updateDevices_of_mem (by intro e; rfl) hd)
  | approvePending deviceId =>
      exact Or.inl (Db.mem_updateDevices_of_mem (by intro e; rfl) hd)
  | revokeApproved deviceId =>
      exact Or.inl (Db.mem_updateDevices_of_mem (by intro e; rfl) hd)
  | deleteDevice deviceId =>
      by_cases hid : d.deviceId = deviceId
      · exact Or.inr hid
      · exact Or.inl ⟨d, Table.mem_delete.mpr ⟨hd, decide_eq_false hid⟩, rfl⟩
  | deleteStale cutoff =>
      by_cases hstale : d.lastSeen < cutoff ∧ d.status ≠ 1
      · exact Or.inr hstale
      · exact Or.inl ⟨d, Table.mem_delete.mpr ⟨hd, decide_eq_false hstale⟩, rfl⟩
  | _ => exact Or.inl ⟨d, by simpa [handle] using hd, rfl⟩

/-- The row that a registration inserts is its own. -/
theorem Registration.Stage.inserts {state : AppState} {req : RegisterRequest} {deviceId : Uuid}
    {now : Int} {row : DeviceRow} {next : (Statement.insertDevice row).Answer → Sql Reply}
    (h : Stage state req deviceId now (.call (.insertDevice row) next)) :
    row.deviceId = deviceId := by
  cases h
  rfl

/-- A registration in progress neither rewrites nor deletes rows of devices. -/
theorem Registration.Stage.only_inserts {state : AppState} {req : RegisterRequest}
    {deviceId : Uuid} {now : Int} {op : Statement} {next : op.Answer → Sql Reply}
    (h : Stage state req deviceId now (.call op next)) (d e : DeviceRow) :
    ¬ op.Rewrites d e ∧ ¬ op.Deletes d := by
  cases h <;> exact ⟨id, id⟩

variable {state : AppState} {request : Request} {op : Statement} {next : op.Answer → Sql Reply}

/-- A statement of a request in progress that rewrites a row moves its device along. -/
theorem Request.InProgress.lifecycle_of_rewrites (h : request.InProgress state (.call op next))
    {d e : DeviceRow} (hrewrites : op.Rewrites d e) :
    Lifecycle request d.deviceId (some (DeviceStatus.fromI32 d.status))
      (some (DeviceStatus.fromI32 e.status)) := by
  cases request with
  | register req deviceId now => exact absurd hrewrites (Registration.Stage.only_inserts h d e).1
  | approve deviceId =>
      obtain rfl : op = .approvePending deviceId := h.1
      obtain ⟨rfl, hstatus, rfl⟩ := hrewrites
      rw [hstatus]
      exact .approves d.deviceId
  | revoke deviceId =>
      rcases h.1 with rfl | rfl
      · exact absurd hrewrites id
      · obtain ⟨rfl, hstatus, rfl⟩ := hrewrites
        rw [hstatus]
        exact .revokes d.deviceId
  | unregister deviceId => rcases h.1 with rfl | rfl <;> exact absurd hrewrites id
  | heartbeat deviceId now =>
      obtain rfl : op = .updateLastSeen now deviceId := h.1
      obtain ⟨-, rfl⟩ := hrewrites
      exact .stays _ _ _
  | purgeStale overflowChecks now timeoutSecs =>
      rcases h.1 with rfl | rfl <;> exact absurd hrewrites id

/-- A statement of a request in progress that deletes a row ends the device. -/
theorem Request.InProgress.lifecycle_of_deletes (h : request.InProgress state (.call op next))
    {d : DeviceRow} (hdeletes : op.Deletes d) :
    Lifecycle request d.deviceId (some (DeviceStatus.fromI32 d.status)) none := by
  cases request with
  | register req deviceId now => exact absurd hdeletes (Registration.Stage.only_inserts h d d).2
  | approve deviceId =>
      obtain rfl : op = .approvePending deviceId := h.1
      exact absurd hdeletes id
  | revoke deviceId => rcases h.1 with rfl | rfl <;> exact absurd hdeletes id
  | unregister deviceId =>
      rcases h.1 with rfl | rfl
      · exact absurd hdeletes id
      · obtain rfl : d.deviceId = deviceId := hdeletes
        exact .unregisters _ _
  | heartbeat deviceId now =>
      obtain rfl : op = .updateLastSeen now deviceId := h.1
      exact absurd hdeletes id
  | purgeStale overflowChecks now timeoutSecs =>
      rcases h.1 with rfl | rfl
      · exact absurd hdeletes id
      · exact .purges _ _ _ _ fun happroved => hdeletes.2 (fromI32_eq_approved.mp happroved)

/-! ## Interleavings -/

section
variable {ι : Type} [DecidableEq ι] {requests : ι → Request} {pool : Pool statements ι Reply Db}

omit [DecidableEq ι] in
/-- A device that appears has been inserted by its registration. -/
theorem InService.lifecycle_of_inserted (h : InService state requests pool) {i : ι}
    {r : DeviceRow} {next : (Statement.insertDevice r).Answer → Sql Reply}
    (hthread : pool.threads i = .call (.insertDevice r) next) :
    Lifecycle (requests i) r.deviceId none (some (DeviceStatus.fromI32 r.status)) := by
  have hprogress := h.threads i
  have hformed := (h.wellFormed i)
  rw [hthread] at hprogress hformed
  have hstatus : r.status = 0 ∨ r.status = 1 := hformed.1.1
  rcases hprogress.issues with ⟨req, id, now, hrequest⟩ | hissues
  · rw [hrequest] at hprogress ⊢
    rw [Registration.Stage.inserts hprogress]
    refine .registers req id now fun hrevoked => ?_
    rw [fromI32_eq_revoked] at hrevoked
    omega
  · exact absurd hissues (Request.not_issues_insertDevice _ _)

/-- A step of a request takes each device along its life cycle. -/
theorem InService.lifecycle_step (h : InService state requests pool) (i : ι) (deviceId : Uuid) :
    Lifecycle (requests i) deviceId (pool.state.statusOf deviceId)
      ((pool.step handle i).state.statusOf deviceId) := by
  cases hthread : pool.threads i with
  | done reply =>
      rw [Pool.step_done handle hthread]
      exact .stays _ _ _
  | call op next =>
      have hprogress := h.threads i
      rw [hthread] at hprogress
      rw [Pool.state_step_of_call handle hthread]
      rcases statusOf_cases pool.state deviceId with ⟨d, hd, rfl, hbefore⟩ | ⟨hnone, hbefore⟩
      · rw [hbefore]
        rcases statusOf_cases (handle op pool.state).2 d.deviceId with
          ⟨e, he, hid, hafter⟩ | ⟨hgone, hafter⟩
        · rw [hafter]
          rcases eq_or_rewrites hd he hid with rfl | hrewrites
          · exact .stays _ _ _
          · exact hprogress.lifecycle_of_rewrites hrewrites
        · rw [hafter]
          rcases exists_or_deletes hd with ⟨e, he, hid⟩ | hdeletes
          · exact absurd hid (hgone e he)
          · exact hprogress.lifecycle_of_deletes hdeletes
      · rw [hbefore]
        rcases statusOf_cases (handle op pool.state).2 deviceId with
          ⟨e, he, rfl, hafter⟩ | ⟨-, hafter⟩
        · rw [hafter]
          rcases mem_devices_of_handle he with hold | rfl | ⟨d, hd, hrewrites⟩
          · exact absurd rfl (hnone e hold)
          · exact h.lifecycle_of_inserted hthread
          · exact absurd hrewrites.keeps.1.symm (hnone d hd)
        · rw [hafter]
          exact .stays _ _ _

theorem inService_run (h : InService state requests pool) (schedule : List ι) :
    InService state requests (run (Pool.step handle) pool schedule) :=
  run_invariant inService_step h schedule

/-- A status that no later request of the schedule takes away stays. -/
theorem InService.status_stays (h : InService state requests pool) {deviceId : Uuid}
    {status : DeviceStatus} (hnow : pool.state.statusOf deviceId = some status) {later : List ι}
    (hlater : ∀ i ∈ later, ∀ after, Lifecycle (requests i) deviceId (some status) after →
      after = some status) :
    (run (Pool.step handle) pool later).state.statusOf deviceId = some status := by
  induction later generalizing pool with
  | nil => exact hnow
  | cons i later ih =>
      have hstep := h.lifecycle_step i deviceId
      rw [hnow] at hstep
      exact ih (inService_step pool i h) (hlater i List.mem_cons_self _ hstep) fun j hj =>
        hlater j (List.mem_cons_of_mem _ hj)

end

/-- However the statements of any requests are interleaved, each statement takes every
    device one step along its life cycle or leaves it where it is. An approved device is
    approved for as long as no request revokes or unregisters it, whatever the purger does,
    and a revoked one stays revoked for as long as it is neither unregistered nor purged. -/
theorem devices_follow_lifecycle {ι : Type} [DecidableEq ι] (state : AppState)
    (requests : ι → Request) (schedule : List ι) (deviceId : Uuid) :
    let pool := run (Pool.step handle) (serving state requests Db.empty) schedule
    (∀ i, Lifecycle (requests i) deviceId (pool.state.statusOf deviceId)
      ((pool.step handle i).state.statusOf deviceId)) ∧
    (∀ later : List ι, (∀ i ∈ later, requests i ≠ .revoke deviceId ∧
        requests i ≠ .unregister deviceId) →
      pool.state.statusOf deviceId = some .approved →
      (run (Pool.step handle) pool later).state.statusOf deviceId = some .approved) ∧
    (∀ later : List ι, (∀ i ∈ later, requests i ≠ .unregister deviceId ∧
        ∀ overflowChecks now timeoutSecs,
          requests i ≠ .purgeStale overflowChecks now timeoutSecs) →
      pool.state.statusOf deviceId = some .revoked →
      (run (Pool.step handle) pool later).state.statusOf deviceId = some .revoked) := by
  intro pool
  have hservice : InService state requests pool :=
    inService_run (inService_serving state requests sound_empty) schedule
  refine ⟨fun i => hservice.lifecycle_step i deviceId, ?_, ?_⟩
  · intro later hlater hnow
    refine hservice.status_stays hnow fun i hi after hcycle => ?_
    obtain ⟨hrevoke, hunregister⟩ := hlater i hi
    revert hcycle hrevoke hunregister
    generalize requests i = request
    intro hcycle hrevoke hunregister
    cases hcycle with
    | stays => rfl
    | revokes => exact absurd rfl hrevoke
    | unregisters => exact absurd rfl hunregister
    | purges _ overflowChecks now timeoutSecs hstatus => exact absurd rfl hstatus
  · intro later hlater hnow
    refine hservice.status_stays hnow fun i hi after hcycle => ?_
    obtain ⟨hunregister, hpurge⟩ := hlater i hi
    revert hcycle hunregister hpurge
    generalize requests i = request
    intro hcycle hunregister hpurge
    cases hcycle with
    | stays => rfl
    | unregisters => exact absurd rfl hunregister
    | purges _ overflowChecks now timeoutSecs hstatus =>
        exact absurd rfl (hpurge overflowChecks now timeoutSecs)

end ConnectAlso.Control
