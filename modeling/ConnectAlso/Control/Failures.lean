import ConnectAlso.Control.Registration
import ConnectAlso.Control.Revocation

/-!
# Failed requests

Each handler decides from its last statement whether it reports success. An `UPDATE` or
`DELETE` that affects no row changes nothing, so a failed approval or unregistration
leaves the tables as they were. A failed revocation has already freed the address of its
device, and a failed registration has already put an address into the pool.
-/

namespace ConnectAlso.Control
open Misc

/-- The request reports failure. -/
def Reply.Failed : Reply → Prop
  | registered (.error _) => True
  | approved b => b = false
  | revoked b => b = false
  | deleted b => b = false
  | _ => False

/-- When a request that fails can have no effect before it fails. A revocation goes
    through, or frees no address because its device has none in the pool. A registration
    finds its key, or the pool used up, or no device with the UUID it draws or the address
    it tries, or that address in the pool. -/
def FailsCleanly (state : AppState) (db : Db) : Request → Prop
  | .register req deviceId _ =>
    (∃ d ∈ db.devices, d.publicKey = req.publicKey) ∨
    state.ipMaxOffset < UInt32.ofNat db.used ∨
    (∀ d ∈ db.devices, d.deviceId ≠ deviceId ∧ d.ipv4 ≠ (nextAddress state db).toString) ∨
    ∃ p ∈ db.ipPool, p.ipv4 = (nextAddress state db).toString
  | .revoke deviceId =>
    (∃ d ∈ db.devices, d.deviceId = deviceId ∧ d.status = 1 ∧
      ∀ e ∈ db.devices, e ≠ d → e.ipv4 ≠ "") ∨
    ∀ d ∈ db.devices, d.deviceId = deviceId → ∀ p ∈ db.ipPool, p.ipv4 ≠ d.ipv4
  | _ => True

/-! ## Statements without effect -/

/-- An update that is refused or finds no row changes nothing. -/
theorem updateDevices_of_unaffected {db : Db} {p : DeviceRow → Bool} {f : DeviceRow → DeviceRow}
    (h : unwrapOrFalse (affected (db.updateDevices p f).1) = false) :
    (db.updateDevices p f).2 = db := by
  unfold Db.updateDevices at h ⊢
  cases hupdate : db.devices.update? p f with
  | none => rfl
  | some devices =>
      rw [hupdate] at h
      have hzero : db.devices.count p = 0 := Nat.eq_zero_of_not_pos (of_decide_eq_false h)
      have hsame : db.devices.update? p f = some db.devices :=
        Table.update?_of_none (Table.count_eq_zero.mp hzero)
      rw [hsame] at hupdate
      cases hupdate
      rfl

theorem deleteDevices_of_unaffected {db : Db} {p : DeviceRow → Bool}
    (h : unwrapOrFalse (affected (db.deleteDevices p).1) = false) : (db.deleteDevices p).2 = db := by
  have hzero : db.devices.count p = 0 := Nat.eq_zero_of_not_pos (of_decide_eq_false h)
  show ({ db with devices := db.devices.delete p } : Db) = db
  rw [Table.delete_of_none (Table.count_eq_zero.mp hzero)]

/-- Freeing has no effect exactly when the pool has no row for the device's address. -/
theorem freed_eq_self_iff {db : Db} {deviceId : Uuid} :
    freed db deviceId = db ↔
      ∀ d ∈ db.devices, d.deviceId = deviceId → ∀ p ∈ db.ipPool, p.ipv4 ≠ d.ipv4 := by
  refine ⟨?_, ?_⟩
  · intro heq d hd hid p hp
    rw [← heq] at hp
    exact (mem_freed_ipPool.mp hp).2 d hd hid
  · intro hnone
    have hkept : ∀ p ∈ db.ipPool, p ∈ (freed db deviceId).ipPool := fun p hp =>
      mem_freed_ipPool.mpr ⟨hp, fun d hd hid => hnone d hd hid p hp⟩
    refine congrArg (fun ipPool => ({ db with ipPool } : Db)) (Table.delete_of_none ?_)
    intro p hp
    exact (Table.mem_delete.mp (hkept p hp)).2

/-- Inserting an address has no effect exactly when the pool has it. -/
theorem insertIp_eq_self_iff {db : Db} {row : IpPoolRow} :
    (db.insertIp row).2 = db ↔ ∃ p ∈ db.ipPool, p.ipv4 = row.ipv4 := by
  unfold Db.insertIp
  cases hinsert : db.ipPool.insert? row with
  | none => exact iff_of_true rfl (Table.insert?_eq_none.mp hinsert)
  | some ipPool =>
      obtain ⟨hfree, hrows⟩ := Table.insert?_eq_some.mp hinsert
      refine iff_of_false ?_ ?_
      · intro heq
        have hlength := congrArg (fun db : Db => db.ipPool.rows.length) heq
        simp only [hrows, List.length_append, List.length_singleton] at hlength
        omega
      · rintro ⟨p, hp, hipv4⟩
        exact hfree p hp hipv4

/-! ## One request -/

section Request

variable (state : AppState) (db : Db)

theorem approve_failed (deviceId : Uuid)
    (h : (serve state db (.approve deviceId)).1.Failed) :
    step state db (.approve deviceId) = db :=
  updateDevices_of_unaffected h

theorem unregister_failed (deviceId : Uuid)
    (h : (serve state db (.unregister deviceId)).1.Failed) :
    step state db (.unregister deviceId) = db := by
  have hzero : (db.devices.count fun d => d.deviceId = deviceId) = 0 :=
    Nat.eq_zero_of_not_pos (of_decide_eq_false h)
  have hfreed : freed db deviceId = db := by
    apply freed_eq_self_iff.mpr
    intro d hd hid
    exact absurd hid (of_decide_eq_false (Table.count_eq_zero.mp hzero d hd))
  have hunaffected : step state db (.unregister deviceId) = freed db deviceId :=
    @deleteDevices_of_unaffected (freed db deviceId) _ h
  exact hunaffected.trans hfreed

/-- A failed revocation leaves what freeing the address has left. -/
theorem revoke_failed (deviceId : Uuid) (h : (serve state db (.revoke deviceId)).1.Failed) :
    step state db (.revoke deviceId) = freed db deviceId :=
  @updateDevices_of_unaffected (freed db deviceId) _ _ h

theorem revoke_failed_iff (deviceId : Uuid) :
    (serve state db (.revoke deviceId)).1.Failed ↔
      (serve state db (.revoke deviceId)).1 ≠ .revoked true := by
  rw [serve_revoke]
  show _ = false ↔ _
  rw [← Bool.not_eq_true]
  exact not_congr ⟨fun h => by rw [h], fun h => Reply.revoked.inj h⟩

theorem revoke_fails_cleanly_iff (deviceId : Uuid) :
    ((serve state db (.revoke deviceId)).1.Failed → step state db (.revoke deviceId) = db) ↔
      FailsCleanly state db (.revoke deviceId) := by
  rw [FailsCleanly, ← @revoke_reply_iff state, ← freed_eq_self_iff]
  by_cases hfailed : (serve state db (.revoke deviceId)).1.Failed
  · rw [revoke_failed state db deviceId hfailed]
    have hnot := (revoke_failed_iff state db deviceId).mp hfailed
    simp [hfailed, hnot]
  · have hreply : (serve state db (.revoke deviceId)).1 = .revoked true := by
      by_contra hne
      exact hfailed ((revoke_failed_iff state db deviceId).mpr hne)
    exact iff_of_true (fun h => absurd h hfailed) (Or.inl hreply)

variable {db}

theorem register_fails_cleanly_iff (hsound : Sound db) (req : RegisterRequest) (deviceId : Uuid)
    (now : Int) :
    ((serve state db (.register req deviceId now)).1.Failed →
        step state db (.register req deviceId now) = db) ↔
      FailsCleanly state db (.register req deviceId now) := by
  by_cases hknown : ∃ d ∈ db.devices, d.publicKey = req.publicKey
  · obtain ⟨d, -, -, hserve⟩ := serve_register_known state req deviceId now hknown
    refine iff_of_true ?_ (Or.inl hknown)
    intro _
    rw [step, hserve]
  · push Not at hknown
    have hclash : db.devices.insert? (newRow state db req deviceId now) = none ↔
        ∃ d ∈ db.devices, d.deviceId = deviceId ∨ d.ipv4 = (nextAddress state db).toString := by
      rw [Table.insert?_eq_none]
      refine exists_congr fun d => and_congr_right fun hd => or_congr Iff.rfl ?_
      exact or_iff_right (hknown d hd)
    rw [step, serve_register_new state hsound req deviceId now hknown, FailsCleanly]
    by_cases hfull : state.ipMaxOffset < UInt32.ofNat db.used
    · rw [if_pos hfull]
      exact iff_of_true (fun _ => rfl) (Or.inr (Or.inl hfull))
    · rw [if_neg hfull]
      cases hinsert : db.devices.insert? (newRow state db req deviceId now) with
      | none =>
          obtain ⟨d, hd, hsame⟩ := hclash.mp hinsert
          have hother : ¬ ∀ d ∈ db.devices, d.deviceId ≠ deviceId ∧
              d.ipv4 ≠ (nextAddress state db).toString := fun h =>
            hsame.elim (h d hd).1 (h d hd).2
          have hnew : ¬ ∃ d ∈ db.devices, d.publicKey = req.publicKey := by
            push Not
            exact hknown
          refine Iff.trans ⟨fun h => h trivial, fun h _ => h⟩ (insertIp_eq_self_iff.trans ?_)
          rw [or_iff_right hnew, or_iff_right hfull, or_iff_right hother]
      | some devices =>
          refine iff_of_true (fun h => absurd h id) (Or.inr (Or.inr (Or.inl ?_)))
          intro d hd
          have hfree := fun h => Option.some_ne_none _ (hinsert.symm.trans (hclash.mpr ⟨d, hd, h⟩))
          exact ⟨fun hid => hfree (Or.inl hid), fun hipv4 => hfree (Or.inr hipv4)⟩

end Request

/-- In every reachable database, a request that fails changes neither table exactly when
    it fails before its first effect or that effect is none. -/
theorem failure_changes_nothing_iff (state : AppState) {db : Db} (h : Reachable state db)
    (request : Request) :
    ((serve state db request).1.Failed → step state db request = db) ↔
      FailsCleanly state db request := by
  cases request with
  | register req deviceId now => exact register_fails_cleanly_iff state h.sound req deviceId now
  | revoke deviceId => exact revoke_fails_cleanly_iff state db deviceId
  | approve deviceId => exact iff_of_true (approve_failed state db deviceId) trivial
  | unregister deviceId => exact iff_of_true (unregister_failed state db deviceId) trivial
  | heartbeat deviceId now => exact iff_of_true (fun hfailed => absurd hfailed id) trivial
  | purgeStale overflowChecks now timeoutSecs =>
      refine iff_of_true ?_ trivial
      rcases serve_purgeStale_cases state db overflowChecks now timeoutSecs with
        ⟨-, -, hserve⟩ | ⟨-, hserve⟩
      · intro _
        rw [step, hserve]
      · rw [hserve]
        exact fun hfailed => absurd hfailed id

/-- A second revocation of a device fails and changes nothing. -/
theorem second_revoke_changes_nothing :
    let db := run (step AppState.default) Db.empty [registration 0 0 100, .revoke (idOf 0)]
    (serve AppState.default db (.revoke (idOf 0))).1.Failed ∧
      step AppState.default db (.revoke (idOf 0)) = db := by
  intro db
  have hreply : (serve AppState.default db (.revoke (idOf 0))).1 = .revoked false := by
    decide +kernel
  have hfailed : (serve AppState.default db (.revoke (idOf 0))).1.Failed := by
    rw [hreply]
    rfl
  refine ⟨hfailed, (failure_changes_nothing_iff AppState.default (reachable_run _ _) _).mpr ?_ hfailed⟩
  refine Or.inr ?_
  show ∀ d ∈ db.devices.rows, d.deviceId = idOf 0 → ∀ p ∈ db.ipPool.rows, p.ipv4 ≠ d.ipv4
  decide +kernel

/-- A pending device cannot be revoked, yet the attempt takes its address out of the pool. -/
theorem failed_revoke_frees_address :
    let db := run (step AppState.default) Db.empty [registration 0 0 100, registration 1 1 101]
    Reachable AppState.default db ∧
      (serve AppState.default db (.revoke (idOf 1))).1.Failed ∧
      step AppState.default db (.revoke (idOf 1)) ≠ db := by
  intro db
  have hreply : (serve AppState.default db (.revoke (idOf 1))).1 = .revoked false := by
    decide +kernel
  refine ⟨reachable_run _ _, ?_, ?_⟩
  · rw [hreply]
    rfl
  · intro heq
    have hlength := congrArg (fun db : Db => db.ipPool.rows.length) heq
    revert hlength
    decide +kernel

end ConnectAlso.Control
