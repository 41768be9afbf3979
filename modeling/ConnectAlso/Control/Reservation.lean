import ConnectAlso.Control.Requests

/-!
# Reserved addresses

An address that a device row holds should be in `ip_pool`, marked as allocated. Two
requests can break this: `revoke` frees the address before it knows whether the
device will be revoked, and the purger frees the addresses of all stale devices but
keeps the approved ones. `Safe` says when a request does not, and a run keeps every
address reserved exactly when each of its requests is safe.
-/

namespace ConnectAlso.Control
open Misc

/-- Every address that a device holds is allocated in the pool. -/
def Reserved (db : Db) : Prop :=
  ∀ d ∈ db.devices, d.ipv4 ≠ "" → (⟨d.ipv4, 1⟩ : IpPoolRow) ∈ db.ipPool

/-- The request does not free an address that stays with its device: a revocation
    finds its device approved and no other device without an address, or the device has
    none; a purge that does not stop at its subtraction finds no approved device below the
    difference, taken modulo `2 ^ 64`. -/
def Safe (db : Db) : Request → Prop
  | .revoke deviceId => ∀ d ∈ db.devices, d.deviceId = deviceId → d.ipv4 ≠ "" →
    d.status = 1 ∧ ∀ e ∈ db.devices, e.ipv4 ≠ ""
  | .purgeStale overflowChecks now timeoutSecs =>
    overflowChecks = false ∨ FitsI64 (now.toInt - timeoutSecs.toInt) →
    ∀ d ∈ db.devices, d.status = 1 → wrapI64 (now.toInt - timeoutSecs.toInt) ≤ d.lastSeen
  | _ => True

theorem reserved_empty : Reserved Db.empty := by
  intro d hd
  exact absurd hd (Table.not_mem_empty d)

/-- Addresses stay reserved if no device gets a new one and the pool only grows. -/
theorem Reserved.of_rows {db db' : Db} (h : Reserved db)
    (hdevices : ∀ r ∈ db'.devices, r.ipv4 ≠ "" → ∃ d ∈ db.devices, d.ipv4 = r.ipv4)
    (hpool : ∀ p ∈ db.ipPool, p ∈ db'.ipPool) : Reserved db' := by
  intro r hr hne
  obtain ⟨d, hd, hipv4⟩ := hdevices r hr hne
  rw [← hipv4] at hne ⊢
  exact hpool _ (h d hd hne)

/-- An address is in the pool once its insertion has been tried. -/
theorem mem_insertIp_self {db : Db} (h : Sound db) (ipv4 : String) :
    (⟨ipv4, 1⟩ : IpPoolRow) ∈ (db.insertIp ⟨ipv4, 1⟩).2.ipPool := by
  rw [Db.mem_insertIp]
  by_cases hfree : ∀ q ∈ db.ipPool, q.ipv4 ≠ ipv4
  · exact Or.inr ⟨rfl, hfree⟩
  · push Not at hfree
    obtain ⟨⟨text, allocated⟩, hq, rfl⟩ := hfree
    obtain rfl : allocated = 1 := (h.pool _ hq).1
    exact Or.inl hq

/-! ## One request -/

theorem reserved_register {db : Db} (hsound : Sound db) (h : Reserved db) (state : AppState)
    (req : RegisterRequest) (deviceId : Uuid) (now : Int) :
    Reserved (step state db (.register req deviceId now)) := by
  have hgrow : ∀ p ∈ db.ipPool,
      p ∈ (db.insertIp ⟨(nextAddress state db).toString, 1⟩).2.ipPool :=
    fun p hp => Db.mem_insertIp.mpr (Or.inl hp)
  rcases step_register_cases state hsound req deviceId now with
    heq | ⟨-, ⟨-, heq⟩ | ⟨devices, hinsert, heq⟩⟩
  · rw [heq]
    exact h
  · rw [heq]
    refine h.of_rows ?_ hgrow
    intro r hr hne
    rw [Db.insertIp_devices] at hr
    exact ⟨r, hr, rfl⟩
  · rw [heq]
    intro r hr hne
    rcases (Table.mem_of_insert? hinsert).mp hr with hold | rfl
    · exact hgrow _ (h r hold hne)
    · exact mem_insertIp_self hsound _

/-- An update that leaves addresses alone keeps them reserved: approvals and
    heartbeats. -/
theorem Reserved.updateDevices {db : Db} (h : Reserved db) {p : DeviceRow → Bool}
    {f : DeviceRow → DeviceRow} (hf : ∀ d, (f d).ipv4 = d.ipv4) :
    Reserved (db.updateDevices p f).2 := by
  refine h.of_rows ?_ (fun q hq => by simpa using hq)
  intro r hr hne
  rcases Db.mem_updateDevices hr with hold | ⟨d, hd, -, rfl⟩
  · exact ⟨r, hold, rfl⟩
  · exact ⟨d, hd, (hf d).symm⟩

/-- An unregistered device leaves together with its address. -/
theorem reserved_unregister {db : Db} (h : Reserved db) (state : AppState) (deviceId : Uuid) :
    Reserved (step state db (.unregister deviceId)) := by
  rw [step_unregister]
  intro r hr hne
  obtain ⟨hold, hother⟩ := Table.mem_delete.mp hr
  refine mem_freed_ipPool.mpr ⟨h r hold hne, ?_⟩
  intro d hd hid hipv4
  have hsame := Table.eq_of_clash hold hd (Or.inr (Or.inr hipv4))
  subst hsame
  exact absurd hid (by simpa using hother)

/-- A device that a revocation does not find approved stays, as does every device when a
    row has the empty address already. -/
theorem mem_devices_revoke_of_refused {state : AppState} {db : Db} {d : DeviceRow}
    (hd : d ∈ db.devices) (hne : d.ipv4 ≠ "")
    (hrefused : d.status = 1 → ∃ e ∈ db.devices, e.ipv4 = "") :
    d ∈ (step state db (.revoke d.deviceId)).devices := by
  by_cases hstatus : d.status = 1
  · obtain ⟨e, he, hempty⟩ := hrefused hstatus
    have hother : e ≠ d := fun heq => hne (heq ▸ hempty)
    rw [step_revoke,
      @revokeApproved_of_clash (freed db d.deviceId) d.deviceId d e hd rfl hstatus he hother hempty]
    exact hd
  · apply (mem_devices_revoke ?_).mpr
    · exact ⟨d, hd, if_neg fun h => hstatus h.2⟩
    · intro d' hd' hid' hstatus'
      have hsame := Table.eq_of_clash hd hd' (Or.inl hid'.symm)
      exact absurd (hsame ▸ hstatus') hstatus

theorem safe_of_reserved_revoke {db : Db} {state : AppState} {deviceId : Uuid}
    (hafter : Reserved (step state db (.revoke deviceId))) : Safe db (.revoke deviceId) := by
  intro d hd hid hne
  subst hid
  -- the address is free, so the device must have lost it
  have hlost : d ∉ (step state db (.revoke d.deviceId)).devices := by
    intro hkept
    have hmem := hafter d hkept hne
    rw [ipPool_step_revoke] at hmem
    exact (mem_freed_ipPool.mp hmem).2 d hd rfl rfl
  by_contra hnot
  refine hlost (mem_devices_revoke_of_refused hd hne ?_)
  intro hstatus
  by_contra hfull
  exact hnot ⟨hstatus, fun e he hempty => hfull ⟨e, he, hempty⟩⟩

theorem reserved_revoke {db : Db} (h : Reserved db) {state : AppState} {deviceId : Uuid}
    (hsafe : Safe db (.revoke deviceId)) : Reserved (step state db (.revoke deviceId)) := by
  intro r hr hne
  rw [ipPool_step_revoke]
  rcases Db.mem_updateDevices hr with hold | ⟨d, hd, -, rfl⟩
  · refine mem_freed_ipPool.mpr ⟨h r hold hne, ?_⟩
    intro d hd hid hipv4
    have hsame := Table.eq_of_clash hold hd (Or.inr (Or.inr hipv4))
    subst hsame
    obtain ⟨hstatus, hfull⟩ := hsafe r hold hid hne
    -- the update takes effect, so the row with its address is gone
    obtain ⟨d', hd', heq⟩ := (mem_devices_revoke fun _ _ _ _ e he _ => hfull e he).mp hr
    split at heq
    · rw [← heq] at hne
      exact hne rfl
    · rename_i hnot
      subst heq
      exact hnot ⟨hid, hstatus⟩
  · exact absurd rfl hne

/-- A revocation keeps addresses reserved exactly when it is safe. -/
theorem reserved_revoke_iff {db : Db} (h : Reserved db) (state : AppState)
    (deviceId : Uuid) :
    Reserved (step state db (.revoke deviceId)) ↔ Safe db (.revoke deviceId) :=
  ⟨safe_of_reserved_revoke, reserved_revoke h⟩

/-- The deletions of a purge keep addresses reserved exactly when no approved device is
    below the cutoff. -/
theorem reserved_purged_iff {db : Db} (hsound : Sound db) (h : Reserved db) (cutoff : Int) :
    Reserved (purged db cutoff) ↔ ∀ d ∈ db.devices, d.status = 1 → cutoff ≤ d.lastSeen := by
  refine ⟨?_, ?_⟩
  · intro hafter d hd hstatus
    by_contra hstale
    have hne : d.ipv4 ≠ "" := by
      rcases hsound.device d hd with ⟨hrevoked, -⟩ | ⟨-, haddr⟩
      · rw [hstatus] at hrevoked
        cases hrevoked
      · exact haddr.ne_empty
    have hmem := hafter d (Table.mem_delete.mpr ⟨hd, by simp [hstatus]⟩) hne
    exact (mem_freeIpsOfStale.mp hmem).2 d hd (by omega) rfl
  · intro hsafe r hr hne
    obtain ⟨hold, hkept⟩ := Table.mem_delete.mp hr
    refine mem_freeIpsOfStale.mpr ⟨h r hold hne, ?_⟩
    intro d hd hstale hipv4
    have hsame := Table.eq_of_clash hold hd (Or.inr (Or.inr hipv4))
    subst hsame
    have hstatus : r.status = 1 := by
      by_contra hother
      simp [hstale, hother] at hkept
    have hfresh := hsafe r hold hstatus
    omega

/-- A purge that panics keeps everything; one that does not is its deletions. -/
theorem reserved_purgeStale_iff {db : Db} (hsound : Sound db) (h : Reserved db) (state : AppState)
    (overflowChecks : Bool) (now timeoutSecs : Int64) :
    Reserved (step state db (.purgeStale overflowChecks now timeoutSecs)) ↔
      Safe db (.purgeStale overflowChecks now timeoutSecs) := by
  rcases serve_purgeStale_cases state db overflowChecks now timeoutSecs with
    ⟨hchecks, hfits, hserve⟩ | ⟨hreturns, hserve⟩
  · rw [step, hserve]
    refine iff_of_true h ?_
    rintro (hnone | hfits')
    · exact absurd (hnone.symm.trans hchecks) Bool.false_ne_true
    · exact absurd hfits' hfits
  · rw [step, hserve]
    exact (reserved_purged_iff hsound h _).trans (imp_iff_right hreturns).symm

theorem reserved_step_iff (state : AppState) (db : Db) (request : Request) (hsound : Sound db)
    (h : Reserved db) : Reserved (step state db request) ↔ Safe db request := by
  cases request with
  | register req deviceId now =>
      exact iff_of_true (reserved_register hsound h state req deviceId now) trivial
  | approve deviceId =>
      rw [step_approve]
      exact iff_of_true (h.updateDevices fun _ => rfl) trivial
  | revoke deviceId => exact reserved_revoke_iff h state deviceId
  | unregister deviceId => exact iff_of_true (reserved_unregister h state deviceId) trivial
  | heartbeat deviceId now =>
      rw [step_heartbeat]
      exact iff_of_true (h.updateDevices fun _ => rfl) trivial
  | purgeStale overflowChecks now timeoutSecs =>
      exact reserved_purgeStale_iff hsound h state overflowChecks now timeoutSecs

/-! ## Runs -/

/-- From the empty database, every address a device holds is reserved in every state of
    a run exactly when every request of the run is safe. -/
theorem reserved_throughout_iff (state : AppState) (requests : List Request) :
    Throughout (step state) Reserved Db.empty requests ↔
      EachStep (step state) Safe Db.empty requests :=
  throughout_iff_eachStep (sound_step state) (reserved_step_iff state) sound_empty reserved_empty
    requests

/-- The first device is approved on registration; a purge 1000 seconds later keeps it
    and removes its address from the pool. -/
theorem purge_frees_held_address :
    ¬ Throughout (step AppState.default) Reserved Db.empty
      [registration 0 0 100, .purgeStale true 1100 300] := by
  intro hreserved
  have hlast := hreserved _ (List.prefix_refl _)
  have hdevice : ∃ d ∈ (run (step AppState.default) Db.empty
      [registration 0 0 100, .purgeStale true 1100 300]).devices.rows, d.ipv4 ≠ "" := by
    decide +kernel
  have hpool : (run (step AppState.default) Db.empty
      [registration 0 0 100, .purgeStale true 1100 300]).ipPool.rows = [] := by
    decide +kernel
  obtain ⟨d, hd, hne⟩ := hdevice
  have hmem := hlast d hd hne
  rw [Table.mem_rows, hpool] at hmem
  cases hmem

end ConnectAlso.Control
