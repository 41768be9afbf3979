import ConnectAlso.Control.Requests

/-!
# Revocation

What `revoke_device` achieves, and for how long. A revoked row keeps its place in the
table with the empty address, and `UNIQUE` on the address lets only one row have it: a
second revocation fails while the first revoked row is there. A key that has been
revoked is approved again by an approval, or by registering it while there are no
devices at all, which makes it the first device.
-/

namespace ConnectAlso.Control
open Misc

theorem mem_listApproved {db : Db} {r : DeviceRecord} :
    r ∈ db.listApproved ↔ ∃ d ∈ db.devices, d.status = 1 ∧ d.toRecord = r := by
  simp only [Db.listApproved, List.mem_map, List.mem_insertionSort, Table.mem_select,
    decide_eq_true_eq, and_assoc]

theorem mem_listDnsRecords {db : Db} {r : String × String} (h : r ∈ db.listDnsRecords) :
    ∃ d ∈ db.devices, d.status = 1 ∧ d.ipv4 = r.2 := by
  obtain ⟨d, hd, rfl⟩ := List.mem_map.mp h
  obtain ⟨hmem, hlisted⟩ := Table.mem_select.mp hd
  exact ⟨d, hmem, (of_decide_eq_true hlisted).1, rfl⟩

/-! ## One revocation -/

/-- Everything that revoking the device `d` is for. -/
structure RevokeTakesEffect (state : AppState) (db : Db) (d : DeviceRow) : Prop where
  reply : (serve state db (.revoke d.deviceId)).1 = .revoked true
  row : { d with status := -1, ipv4 := "" } ∈ (step state db (.revoke d.deviceId)).devices
  freed : ∀ p ∈ (step state db (.revoke d.deviceId)).ipPool, p.ipv4 ≠ d.ipv4
  unlisted : ∀ r ∈ (step state db (.revoke d.deviceId)).listApproved, r.deviceId ≠ d.deviceId
  unnamed : ∀ r ∈ (step state db (.revoke d.deviceId)).listDnsRecords, r.2 ≠ d.ipv4
  others : ∀ r : DeviceRow, r.deviceId ≠ d.deviceId →
    (r ∈ (step state db (.revoke d.deviceId)).devices ↔ r ∈ db.devices)

/-- A revocation reports success exactly when its update finds the device and does not
    break the constraint. -/
theorem revoke_reply_iff {state : AppState} {db : Db} {deviceId : Uuid} :
    (serve state db (.revoke deviceId)).1 = .revoked true ↔
      ∃ d ∈ db.devices, d.deviceId = deviceId ∧ d.status = 1 ∧
        ∀ e ∈ db.devices, e ≠ d → e.ipv4 ≠ "" := by
  rw [serve_revoke]
  refine ⟨?_, ?_⟩
  · intro hreply
    by_cases hfound : ∃ d ∈ db.devices, d.deviceId = deviceId ∧ d.status = 1
    · obtain ⟨d, hd, hid, hstatus⟩ := hfound
      refine ⟨d, hd, hid, hstatus, ?_⟩
      intro e he hne hempty
      rw [@revokeApproved_of_clash (freed db deviceId) deviceId d e hd hid hstatus he hne hempty]
        at hreply
      cases hreply
    · push Not at hfound
      obtain ⟨hrows, -⟩ := @revokeApproved_of_no_clash (freed db deviceId) deviceId
        (fun d hd hid hstatus => absurd hstatus (hfound d hd hid))
      have hzero : (freed db deviceId).devices.count
          (fun d => d.deviceId = deviceId ∧ d.status = 1) = 0 :=
        Table.count_eq_zero.mpr fun d hd => by simpa using hfound d hd
      rw [hrows, hzero] at hreply
      cases hreply
  · rintro ⟨d, hd, hid, hstatus, hfull⟩
    obtain ⟨hrows, -⟩ := @revokeApproved_of_no_clash (freed db deviceId) deviceId (by
      intro d' hd' hid' hstatus' e he hne
      have hsame := Table.eq_of_clash hd hd' (Or.inl (hid.trans hid'.symm))
      exact hfull e he (hsame ▸ hne))
    have hpos : 0 < (freed db deviceId).devices.count
        (fun d => d.deviceId = deviceId ∧ d.status = 1) :=
      Table.count_pos.mpr ⟨d, hd, by simp [hid, hstatus]⟩
    rw [hrows]
    show Reply.revoked (decide (0 < _)) = _
    rw [decide_eq_true hpos]

/-- The device rows after an approved device has been revoked. -/
theorem mem_devices_revoke_of_approved {state : AppState} {db : Db} {d r : DeviceRow}
    (hd : d ∈ db.devices) (hstatus : d.status = 1) (hfull : ∀ e ∈ db.devices, e.ipv4 ≠ "") :
    r ∈ (step state db (.revoke d.deviceId)).devices ↔
      r = { d with status := -1, ipv4 := "" } ∨ r ∈ db.devices ∧ r.deviceId ≠ d.deviceId := by
  rw [mem_devices_revoke (fun _ _ _ _ e he _ => hfull e he)]
  refine ⟨?_, ?_⟩
  · rintro ⟨d', hd', heq⟩
    by_cases hid : d'.deviceId = d.deviceId
    · have hsame := Table.eq_of_clash hd' hd (Or.inl hid)
      subst hsame
      rw [if_pos ⟨rfl, hstatus⟩] at heq
      exact Or.inl heq.symm
    · rw [if_neg (fun h => hid h.1)] at heq
      subst heq
      exact Or.inr ⟨hd', hid⟩
  · intro hcases
    rcases hcases with rfl | ⟨hold, hid⟩
    · exact ⟨d, hd, if_pos ⟨rfl, hstatus⟩⟩
    · exact ⟨r, hold, if_neg fun h => hid h.1⟩

theorem revokeTakesEffect_of_no_empty {state : AppState} {db : Db} {d : DeviceRow}
    (hd : d ∈ db.devices) (hstatus : d.status = 1) (hfull : ∀ e ∈ db.devices, e.ipv4 ≠ "") :
    RevokeTakesEffect state db d where
  reply := revoke_reply_iff.mpr ⟨d, hd, rfl, hstatus, fun e he _ => hfull e he⟩
  row := (mem_devices_revoke_of_approved hd hstatus hfull).mpr (Or.inl rfl)
  freed := by
    intro p hp
    rw [ipPool_step_revoke] at hp
    exact (mem_freed_ipPool.mp hp).2 d hd rfl
  unlisted := by
    intro r hr
    obtain ⟨d', hd', happroved, rfl⟩ := mem_listApproved.mp hr
    rcases (mem_devices_revoke_of_approved hd hstatus hfull).mp hd' with rfl | ⟨-, hid⟩
    · cases happroved
    · exact hid
  unnamed := by
    intro r hr hipv4
    obtain ⟨d', hd', happroved, hipv4'⟩ := mem_listDnsRecords hr
    rcases (mem_devices_revoke_of_approved hd hstatus hfull).mp hd' with rfl | ⟨hold, hid⟩
    · cases happroved
    · have hsame := Table.eq_of_clash hold hd (Or.inr (Or.inr (hipv4'.trans hipv4)))
      exact hid (hsame ▸ rfl)
  others := by
    intro r hid
    rw [mem_devices_revoke_of_approved hd hstatus hfull]
    refine ⟨?_, ?_⟩
    · intro hcases
      rcases hcases with rfl | ⟨hold, -⟩
      · exact absurd rfl hid
      · exact hold
    · intro hold
      exact Or.inr ⟨hold, hid⟩

/-- An approved device can be revoked exactly when no row has the empty address yet. -/
theorem revoke_effect_iff_no_empty {state : AppState} {db : Db} {d : DeviceRow}
    (hd : d ∈ db.devices) (hstatus : d.status = 1) (hne : d.ipv4 ≠ "") :
    RevokeTakesEffect state db d ↔ ∀ e ∈ db.devices, e.ipv4 ≠ "" := by
  refine ⟨?_, revokeTakesEffect_of_no_empty hd hstatus⟩
  intro heffect e he hempty
  obtain ⟨d', hd', hid', -, hfull⟩ := revoke_reply_iff.mp heffect.reply
  have hsame := Table.eq_of_clash hd hd' (Or.inl hid'.symm)
  subst hsame
  exact hfull e he (fun heq => hne (heq ▸ hempty)) hempty

/-- In every reachable database, revoking an approved device takes effect exactly when
    no device is revoked at the time. -/
theorem revoke_takes_effect_iff {state : AppState} {db : Db} {d : DeviceRow}
    (hdb : Reachable state db) (hd : d ∈ db.devices) (happroved : d.status = 1) :
    RevokeTakesEffect state db d ↔ ∀ e ∈ db.devices, e.status ≠ -1 := by
  have hne : d.ipv4 ≠ "" := by
    intro hempty
    rw [(hdb.sound.device d hd).revoked_iff.mpr hempty] at happroved
    cases happroved
  rw [revoke_effect_iff_no_empty hd happroved hne]
  refine forall₂_congr fun e he => not_congr ?_
  exact (hdb.sound.device e he).revoked_iff.symm

/-- The row of the first device. -/
def firstRow : DeviceRow where
  deviceId := idOf 0
  publicKey := keyOf 0
  hostname := "host"
  ipv4 := "100.64.0.0"
  status := 1
  createdAt := 100
  lastSeen := 100

/-- The first device can be revoked. -/
theorem first_revoke_takes_effect :
    RevokeTakesEffect AppState.default
      (run (step AppState.default) Db.empty [registration 0 0 100]) firstRow := by
  refine (revoke_takes_effect_iff (reachable_run _ _) ?_ rfl).mpr ?_
  · show firstRow ∈ (run (step AppState.default) Db.empty [registration 0 0 100]).devices.rows
    decide +kernel
  · show ∀ e ∈ (run (step AppState.default) Db.empty [registration 0 0 100]).devices.rows,
      e.status ≠ -1
    decide +kernel

/-- Two devices, both approved. The first is revoked; the revocation of the second then
    reports failure, leaves it approved and listed, and frees its address all the same. -/
theorem second_revoke_fails :
    let db := run (step AppState.default) Db.empty
      [registration 0 0 100, registration 1 1 101, .approve (idOf 1), .revoke (idOf 0)]
    Reachable AppState.default db ∧ ∃ d ∈ db.devices, d.deviceId = idOf 1 ∧ d.status = 1 ∧
      (serve AppState.default db (.revoke d.deviceId)).1 = .revoked false ∧
      d ∈ (step AppState.default db (.revoke d.deviceId)).devices ∧
      (step AppState.default db (.revoke d.deviceId)).ipPool.rows = [] ∧
      ¬ RevokeTakesEffect AppState.default db d := by
  intro db
  have hrow : ∃ d ∈ db.devices.rows, d.deviceId = idOf 1 ∧ d.status = 1 ∧
      (serve AppState.default db (.revoke d.deviceId)).1 = .revoked false ∧
      d ∈ (step AppState.default db (.revoke d.deviceId)).devices.rows ∧
      (step AppState.default db (.revoke d.deviceId)).ipPool.rows = [] := by
    decide +kernel
  obtain ⟨d, hd, hid, hstatus, hreply, hkept, hpool⟩ := hrow
  refine ⟨reachable_run _ _, d, hd, hid, hstatus, hreply, hkept, hpool, ?_⟩
  intro heffect
  rw [heffect.reply] at hreply
  cases hreply

/-! ## After a revocation -/

/-- No device with key `key` is approved. -/
def NotApproved (key : Octets 32) (db : Db) : Prop :=
  ∀ d ∈ db.devices, d.publicKey = key → d.status ≠ 1

/-- The requests that can approve a device with key `key`: an approval of its device,
    and a registration of the key when there are no devices. -/
def Readmits (key : Octets 32) (db : Db) : Request → Prop
  | .approve deviceId => ∃ d ∈ db.devices, d.publicKey = key ∧ d.deviceId = deviceId
  | .register req _ _ => req.publicKey = key ∧ db.devices.rows = []
  | _ => False

/-- A key that is listed as approved has an approved row. -/
theorem not_notApproved_of_listed {key : Octets 32} {db : Db}
    (h : ∃ r ∈ db.listApproved, r.publicKey = key) : ¬ NotApproved key db := by
  obtain ⟨r, hr, hkey⟩ := h
  obtain ⟨d, hd, happroved, rfl⟩ := mem_listApproved.mp hr
  intro hnone
  exact hnone d hd hkey happroved

/-- The rows of a successful revocation: the device's key has no approved row. -/
theorem notApproved_revoke {state : AppState} {db : Db} {d : DeviceRow} (hd : d ∈ db.devices)
    (hrevoked : (serve state db (.revoke d.deviceId)).1 = .revoked true) :
    NotApproved d.publicKey (step state db (.revoke d.deviceId)) := by
  obtain ⟨d', hd', hid, hstatus, hfull⟩ := revoke_reply_iff.mp hrevoked
  have hsame := Table.eq_of_clash hd hd' (Or.inl hid.symm)
  subst hsame
  intro r hr hkey
  obtain ⟨e, he, heq⟩ := (mem_devices_revoke (by
    intro e he heid _ f hf hne
    have hsame := Table.eq_of_clash hd he (Or.inl heid.symm)
    exact hfull f hf (hsame ▸ hne))).mp hr
  by_cases hcase : e.deviceId = d.deviceId ∧ e.status = 1
  · rw [if_pos hcase] at heq
    subst heq
    show (-1 : Int) ≠ 1
    decide
  · rw [if_neg hcase] at heq
    subst heq
    have hsame := Table.eq_of_clash he hd (Or.inr (Or.inl hkey))
    subst hsame
    exact absurd ⟨rfl, hstatus⟩ hcase

theorem notApproved_register {key : Octets 32} {state : AppState} {db : Db} (hsound : Sound db)
    (h : NotApproved key db) {req : RegisterRequest} {deviceId : Uuid} {now : Int}
    (hnot : ¬ Readmits key db (.register req deviceId now)) :
    NotApproved key (step state db (.register req deviceId now)) := by
  rcases step_register_cases state hsound req deviceId now with
    heq | ⟨-, ⟨-, heq⟩ | ⟨devices, hinsert, heq⟩⟩
  · rw [heq]
    exact h
  · rw [heq]
    intro r hr
    rw [Db.insertIp_devices] at hr
    exact h r hr
  · rw [heq]
    intro r hr hkey
    rcases (Table.mem_of_insert? hinsert).mp hr with hold | rfl
    · exact h r hold hkey
    · have hrows : db.devices.rows ≠ [] := fun hnil => hnot ⟨hkey, hnil⟩
      have hcount : (db.devices.count fun _ => true) ≠ 0 := by
        simpa [Table.count] using hrows
      show (initialStatus (db.devices.count fun _ => true)).asI32 ≠ 1
      rw [asI32_initialStatus, if_neg hcount]
      decide

/-- Any other request leaves the key without an approved device. -/
theorem notApproved_step {key : Octets 32} (state : AppState) (db : Db) (request : Request)
    (hsound : Sound db) (h : NotApproved key db) (hnot : ¬ Readmits key db request) :
    NotApproved key (step state db request) := by
  cases request with
  | register req deviceId now => exact notApproved_register hsound h hnot
  | approve deviceId =>
      rw [step_approve]
      intro r hr hkey
      rcases Db.mem_updateDevices hr with hold | ⟨d, hd, hp, rfl⟩
      · exact h r hold hkey
      · exact absurd ⟨d, hd, hkey, (of_decide_eq_true hp).1⟩ hnot
  | revoke deviceId =>
      rw [step_revoke]
      intro r hr hkey
      rcases Db.mem_updateDevices hr with hold | ⟨d, hd, -, rfl⟩
      · exact h r hold hkey
      · show (-1 : Int) ≠ 1
        decide
  | unregister deviceId =>
      rw [step_unregister]
      intro r hr
      exact h r (Table.mem_delete.mp hr).1
  | heartbeat deviceId now =>
      rw [step_heartbeat]
      intro r hr hkey
      rcases Db.mem_updateDevices hr with hold | ⟨d, hd, -, rfl⟩
      · exact h r hold hkey
      · exact h d hd hkey
  | purgeStale overflowChecks now timeoutSecs =>
      rcases step_purgeStale_cases state db overflowChecks now timeoutSecs with
        heq | ⟨cutoff, heq⟩
      · rw [heq]
        exact h
      · rw [heq]
        intro r hr
        exact h r (Table.mem_delete.mp hr).1

/-- When a revoked key is listed again, it was approved in between, or it was registered
    while there were no devices. -/
theorem listed_again_of_readmitted {state : AppState} {earlier later : List Request}
    {d : DeviceRow} (hd : d ∈ (run (step state) Db.empty earlier).devices)
    (hrevoked : (serve state (run (step state) Db.empty earlier) (.revoke d.deviceId)).1 =
      .revoked true)
    (hlisted : ∃ r ∈ (run (step state) Db.empty
      (earlier ++ .revoke d.deviceId :: later)).listApproved, r.publicKey = d.publicKey) :
    ∃ before request after, later = before ++ request :: after ∧
      Readmits d.publicKey
        (run (step state) Db.empty (earlier ++ .revoke d.deviceId :: before)) request := by
  rw [run_append, run_cons] at hlisted
  have hinv : Sound (step state (run (step state) Db.empty earlier) (.revoke d.deviceId)) :=
    sound_step state _ _ (sound_run state earlier)
  rcases run_holds_or_exists (C := Readmits d.publicKey) (sound_step state) (notApproved_step state)
    hinv (notApproved_revoke hd hrevoked) later with hnone | ⟨before, request, after, heq, hreadmits⟩
  · exact absurd hnone (not_notApproved_of_listed hlisted)
  · refine ⟨before, request, after, heq, ?_⟩
    rw [run_append, run_cons]
    exact hreadmits

/-- The only device is revoked and unregistered, and its key registers again. -/
theorem listed_again_after_unregister :
    ∃ before request after,
      [.unregister (idOf 0), registration 0 5 200] = before ++ request :: after ∧
      Readmits (keyOf 0) (run (step AppState.default) Db.empty
        ([registration 0 0 100] ++ .revoke (idOf 0) :: before)) request := by
  refine @listed_again_of_readmitted AppState.default [registration 0 0 100]
    [.unregister (idOf 0), registration 0 5 200] firstRow ?_ ?_ ?_
  · show firstRow ∈ (run (step AppState.default) Db.empty [registration 0 0 100]).devices.rows
    decide +kernel
  · decide +kernel
  · decide +kernel

/-- It is listed again although no device was approved. -/
theorem revoked_key_listed_again :
    (serve AppState.default (run (step AppState.default) Db.empty [registration 0 0 100])
        (.revoke (idOf 0))).1 = .revoked true ∧
      (∃ r ∈ (run (step AppState.default) Db.empty
        [registration 0 0 100, .revoke (idOf 0), .unregister (idOf 0),
          registration 0 5 200]).listApproved, r.publicKey = keyOf 0) ∧
      ∀ deviceId, Request.approve deviceId ∉
        [.unregister (idOf 0), registration 0 5 200] := by
  refine ⟨by decide +kernel, by decide +kernel, ?_⟩
  intro deviceId hmem
  simp [registration] at hmem

end ConnectAlso.Control
