import ConnectAlso.Control.Sound

/-!
# What a complete request does

The effect of each request when its statements follow each other without
interruption, in terms of the two tables. Later modules use these equations and do
not look into the programs again.
-/

namespace ConnectAlso.Control
open Misc Program

/-- The number of addresses in the pool. -/
def Db.used (db : Db) : Nat := db.ipPool.count fun _ => true

/-- The address that a registration tries next. -/
def nextAddress (state : AppState) (db : Db) : Ipv4Addr :=
  Ipv4Addr.ofU32 (state.ipBase + UInt32.ofNat db.used)

/-- The row that a registration tries to insert. -/
def newRow (state : AppState) (db : Db) (req : RegisterRequest) (deviceId : Uuid) (now : Int) :
    DeviceRow :=
  (newRecord req deviceId now (nextAddress state db)
    (initialStatus (db.devices.count fun _ => true))).toRow

/-! ## Registration -/

private theorem select_head?_eq_none {ρ : Type} {C : Constraint ρ} {t : Table C} {p : ρ → Bool}
    (h : ∀ r ∈ t, p r = false) : (t.select p).head? = none := by
  have hnil : t.select p = [] := List.filter_eq_nil_iff.mpr fun r hr => by simp [h r hr]
  rw [hnil]
  rfl

/-- There is at most one device with a key, and the lookup finds it. -/
theorem select_publicKey {db : Db} {publicKey : Octets 32} {d : DeviceRow}
    (hd : d ∈ db.devices) (hkey : d.publicKey = publicKey) :
    (db.devices.select fun d => d.publicKey = publicKey).head? = some d := by
  apply Table.head?_select hd (decide_eq_true hkey)
  intro e he hekey
  exact Table.eq_of_clash he hd (Or.inr (Or.inl ((of_decide_eq_true hekey).trans hkey.symm)))

/-- In a sound database the pool has no free row, and an allocation extends it. -/
theorem exec_allocateIp {db : Db} (h : Sound db) (base maxOffset : UInt32) :
    exec handle (allocateIp base maxOffset) db =
      if maxOffset < UInt32.ofNat db.used then (none, db)
      else
        (some (Ipv4Addr.ofU32 (base + UInt32.ofNat db.used)),
          (db.insertIp ⟨(Ipv4Addr.ofU32 (base + UInt32.ofNat db.used)).toString, 1⟩).2) := by
  have hfree : (handle .selectFreeIp db).1 = none := soundAnswer_handle .selectFreeIp h
  have hkeep : (handle .selectFreeIp db).2 = db := rfl
  rw [allocateIp_eq, exec_call, hfree, hkeep]
  show exec handle (if maxOffset < UInt32.ofNat db.used then _ else _) db = _
  by_cases hfull : maxOffset < UInt32.ofNat db.used
  · rw [if_pos hfull, if_pos hfull]
    rfl
  · rw [if_neg hfull, if_neg hfull]
    rfl

/-- The rest of a registration: one insertion, with a status that depends on whether
    there are devices. -/
theorem exec_registerAt (state : AppState) (db : Db) (req : RegisterRequest) (deviceId : Uuid)
    (now : Int) (ip : Ipv4Addr) :
    exec handle (registerAt state req deviceId now ip) db =
      match db.devices.insert? (newRecord req deviceId now ip
        (initialStatus (db.devices.count fun _ => true))).toRow with
      | none => (.error .internalServerError, db)
      | some devices =>
        (.ok {
          deviceId, ipv4 := ip.toString, network := state.networkCidr,
          status := (initialStatus (db.devices.count fun _ => true)).text }, { db with devices }) := by
  have hinsert : ∀ row, handle (.insertDevice row) db = db.insertDevice row := fun _ => rfl
  have hcount : handle .countDevices db = (db.devices.count fun _ => true, db) := rfl
  rw [registerAt, exec_call, hcount, exec_call, hinsert, Db.insertDevice]
  cases db.devices.insert? (newRecord req deviceId now ip
    (initialStatus (db.devices.count fun _ => true))).toRow with
  | none => rfl
  | some devices => rfl

/-- A registration of a key that has a device returns that device and changes nothing. -/
theorem serve_register_known (state : AppState) {db : Db} (req : RegisterRequest)
    (deviceId : Uuid) (now : Int) (hknown : ∃ d ∈ db.devices, d.publicKey = req.publicKey) :
    ∃ d ∈ db.devices, d.publicKey = req.publicKey ∧
      serve state db (.register req deviceId now) =
        (.registered (.ok {
          deviceId := d.deviceId, ipv4 := d.toRecord.ipv4.toString, network := state.networkCidr,
          status := d.toRecord.status.text }), db) := by
  obtain ⟨d, hd, hkey⟩ := hknown
  refine ⟨d, hd, hkey, ?_⟩
  have hselect : handle (.selectByPublicKey req.publicKey) db = (some d, db) :=
    congrArg (·, db) (select_publicKey hd hkey)
  show exec handle
    (handleRegister state req deviceId now >>= fun r => .done (Reply.registered r)) db = _
  rw [exec_bind, handleRegister_eq, exec_call, hselect]
  rfl

/-- A registration of a new key takes the next address, or fails with 409 when the
    pool has reached its size, and fails with 500 when the device row clashes. The
    address stays in the pool in that case. -/
theorem serve_register_new (state : AppState) {db : Db} (h : Sound db) (req : RegisterRequest)
    (deviceId : Uuid) (now : Int) (hnew : ∀ d ∈ db.devices, d.publicKey ≠ req.publicKey) :
    serve state db (.register req deviceId now) =
      if state.ipMaxOffset < UInt32.ofNat db.used then (.registered (.error .conflict), db)
      else
        let pooled := (db.insertIp ⟨(nextAddress state db).toString, 1⟩).2
        match db.devices.insert? (newRow state db req deviceId now) with
        | none => (.registered (.error .internalServerError), pooled)
        | some devices =>
          (.registered (.ok {
            deviceId, ipv4 := (nextAddress state db).toString, network := state.networkCidr,
            status := (initialStatus (db.devices.count fun _ => true)).text }),
            { pooled with devices }) := by
  have hselect : handle (.selectByPublicKey req.publicKey) db = (none, db) := by
    show (_, db) = _
    rw [select_head?_eq_none (fun d hd => by simpa using hnew d hd)]
  show exec handle
    (handleRegister state req deviceId now >>= fun r => .done (Reply.registered r)) db = _
  rw [exec_bind, handleRegister_eq, exec_call, hselect]
  simp only
  rw [exec_bind, exec_allocateIp h]
  by_cases hfull : state.ipMaxOffset < UInt32.ofNat db.used
  · simp only [if_pos hfull]
    rfl
  · simp only [if_neg hfull, exec_registerAt, Db.insertIp_devices, newRow, nextAddress]
    cases db.devices.insert? (newRecord req deviceId now _
      (initialStatus (db.devices.count fun _ => true))).toRow with
    | none => rfl
    | some devices => rfl

/-- What a registration can do: nothing, or put the next address into the pool and have its
    row refused, or do so and add its row. -/
theorem step_register_cases (state : AppState) {db : Db} (h : Sound db) (req : RegisterRequest)
    (deviceId : Uuid) (now : Int) :
    step state db (.register req deviceId now) = db ∨
    (∀ d ∈ db.devices, d.publicKey ≠ req.publicKey) ∧
      ((db.devices.insert? (newRow state db req deviceId now) = none ∧
          step state db (.register req deviceId now) =
            (db.insertIp ⟨(nextAddress state db).toString, 1⟩).2) ∨
        ∃ devices, db.devices.insert? (newRow state db req deviceId now) = some devices ∧
          step state db (.register req deviceId now) =
            { (db.insertIp ⟨(nextAddress state db).toString, 1⟩).2 with devices }) := by
  by_cases hknown : ∃ d ∈ db.devices, d.publicKey = req.publicKey
  · obtain ⟨d, -, -, hserve⟩ := serve_register_known state req deviceId now hknown
    apply Or.inl
    rw [step, hserve]
  · push Not at hknown
    rw [step, serve_register_new state h req deviceId now hknown]
    by_cases hfull : state.ipMaxOffset < UInt32.ofNat db.used
    · rw [if_pos hfull]
      exact Or.inl rfl
    · rw [if_neg hfull]
      refine Or.inr ⟨hknown, ?_⟩
      cases hinsert : db.devices.insert? (newRow state db req deviceId now) with
      | none => exact Or.inl ⟨rfl, rfl⟩
      | some devices => exact Or.inr ⟨devices, rfl, rfl⟩

/-! ## The other requests -/

/-- `revoke` and `unregister` first free the address of the device. -/
def freed (db : Db) (deviceId : Uuid) : Db := (handle (.freeIpOf deviceId) db).2

theorem serve_revoke (state : AppState) (db : Db) (deviceId : Uuid) :
    serve state db (.revoke deviceId) =
      (.revoked (unwrapOrFalse (affected (handle (.revokeApproved deviceId) (freed db deviceId)).1)),
        (handle (.revokeApproved deviceId) (freed db deviceId)).2) := rfl

theorem step_approve (state : AppState) (db : Db) (deviceId : Uuid) :
    step state db (.approve deviceId) =
      (db.updateDevices (fun d => d.deviceId = deviceId ∧ d.status = 0)
        fun d => { d with status := 1 }).2 := rfl

theorem step_revoke (state : AppState) (db : Db) (deviceId : Uuid) :
    step state db (.revoke deviceId) =
      (handle (.revokeApproved deviceId) (freed db deviceId)).2 := rfl

theorem step_unregister (state : AppState) (db : Db) (deviceId : Uuid) :
    step state db (.unregister deviceId) =
      (handle (.deleteDevice deviceId) (freed db deviceId)).2 := rfl

theorem step_heartbeat (state : AppState) (db : Db) (deviceId : Uuid) (now : Int) :
    step state db (.heartbeat deviceId now) =
      (db.updateDevices (fun d => d.deviceId = deviceId) fun d => { d with lastSeen := now }).2 := rfl

/-- The two deletions of a purge. -/
def purged (db : Db) (cutoff : Int) : Db :=
  (handle (.deleteStale cutoff) (handle (.freeIpsOfStale cutoff) db).2).2

/-- A purge panics and changes nothing, or it deletes and counts what is below its
    cutoff. -/
theorem serve_purgeStale_cases (state : AppState) (db : Db) (overflowChecks : Bool)
    (now timeoutSecs : Int64) :
    (overflowChecks = true ∧ ¬ FitsI64 (now.toInt - timeoutSecs.toInt) ∧
      serve state db (.purgeStale overflowChecks now timeoutSecs) =
        (.purged (.error .arithmeticOverflow), db)) ∨
    (overflowChecks = false ∨ FitsI64 (now.toInt - timeoutSecs.toInt)) ∧
      serve state db (.purgeStale overflowChecks now timeoutSecs) =
        (.purged (.ok (.ok (db.devices.count fun d =>
          d.lastSeen < wrapI64 (now.toInt - timeoutSecs.toInt) ∧ d.status ≠ 1))),
        purged db (wrapI64 (now.toInt - timeoutSecs.toInt))) := by
  rcases program_purgeStale_cases state overflowChecks now timeoutSecs with
    ⟨hchecks, hfits, hprogram⟩ | ⟨hreturns, hprogram⟩
  · exact Or.inl ⟨hchecks, hfits, congrArg (exec handle · db) hprogram⟩
  · exact Or.inr ⟨hreturns, congrArg (exec handle · db) hprogram⟩

/-- The database after a purge is the one before it, or has lost what is below some
    cutoff. -/
theorem step_purgeStale_cases (state : AppState) (db : Db) (overflowChecks : Bool)
    (now timeoutSecs : Int64) :
    step state db (.purgeStale overflowChecks now timeoutSecs) = db ∨
      ∃ cutoff, step state db (.purgeStale overflowChecks now timeoutSecs) = purged db cutoff := by
  rcases serve_purgeStale_cases state db overflowChecks now timeoutSecs with
    ⟨-, -, hserve⟩ | ⟨-, hserve⟩
  · exact Or.inl (congrArg Prod.snd hserve)
  · exact Or.inr ⟨_, congrArg Prod.snd hserve⟩

theorem ipPool_step_revoke (state : AppState) (db : Db) (deviceId : Uuid) :
    (step state db (.revoke deviceId)).ipPool = (freed db deviceId).ipPool :=
  Db.updateDevices_ipPool _ _ _

@[simp] theorem freed_devices (db : Db) (deviceId : Uuid) :
    (freed db deviceId).devices = db.devices := rfl

/-- There is at most one device with an id, and the subquery finds it. -/
theorem select_head?_eq_some {db : Db} {deviceId : Uuid} {d : DeviceRow} (hd : d ∈ db.devices)
    (hid : d.deviceId = deviceId) :
    (db.devices.select fun d => d.deviceId = deviceId).head? = some d := by
  apply Table.head?_select hd (decide_eq_true hid)
  intro e he heid
  exact Table.eq_of_clash he hd (Or.inl ((of_decide_eq_true heid).trans hid.symm))

/-- Freeing removes the pool row of the device's address, and no other. -/
theorem mem_freed_ipPool {db : Db} {deviceId : Uuid} {p : IpPoolRow} :
    p ∈ (freed db deviceId).ipPool ↔
      p ∈ db.ipPool ∧ ∀ d ∈ db.devices, d.deviceId = deviceId → p.ipv4 ≠ d.ipv4 := by
  refine Table.mem_delete.trans (and_congr_right fun _ => ?_)
  refine ⟨?_, ?_⟩
  · intro hkept d hd hid
    rw [select_head?_eq_some hd hid] at hkept
    simpa using hkept
  · intro hother
    cases hhead : (db.devices.select fun d => d.deviceId = deviceId).head? with
    | none => rfl
    | some d =>
        obtain ⟨hd, hid⟩ := Table.mem_select.mp (List.mem_of_mem_head? hhead)
        simpa using hother d hd (of_decide_eq_true hid)

/-- A purge first removes the pool rows of all stale devices, approved ones included. -/
theorem mem_freeIpsOfStale {db : Db} {cutoff : Int} {p : IpPoolRow} :
    p ∈ (handle (.freeIpsOfStale cutoff) db).2.ipPool ↔
      p ∈ db.ipPool ∧ ∀ d ∈ db.devices, d.lastSeen < cutoff → p.ipv4 ≠ d.ipv4 := by
  refine Table.mem_delete.trans (and_congr_right fun _ => ?_)
  simp [List.any_eq_false]

/-- The update of a revocation breaks `UNIQUE` on `ipv4` exactly when it finds its
    device and another row already has the empty address. -/
theorem revoke_update?_eq_none {db : Db} {deviceId : Uuid} :
    db.devices.update? (fun d => d.deviceId = deviceId ∧ d.status = 1)
        (fun d => { d with status := -1, ipv4 := "" }) = none ↔
      ∃ d ∈ db.devices, (d.deviceId = deviceId ∧ d.status = 1) ∧
        ∃ e ∈ db.devices, e ≠ d ∧ e.ipv4 = "" := by
  rw [Table.update?_eq_none]
  refine ⟨?_, ?_⟩
  · rintro ⟨a, ha, b, hb, hne, hclash⟩
    by_cases hpa : a.deviceId = deviceId ∧ a.status = 1
    · by_cases hpb : b.deviceId = deviceId ∧ b.status = 1
      · exact absurd (Table.eq_of_clash ha hb (Or.inl (hpa.1.trans hpb.1.symm))) hne
      · simp only [hpa, hpb, decide_false] at hclash
        rcases hclash with hid | hkey | hipv4
        · exact absurd (Table.eq_of_clash ha hb (Or.inl (hpa.1.trans hid))) hne
        · exact absurd (Table.eq_of_clash ha hb (Or.inr (Or.inl hkey))) hne
        · exact ⟨a, ha, hpa, b, hb, Ne.symm hne, hipv4.symm⟩
    · by_cases hpb : b.deviceId = deviceId ∧ b.status = 1
      · simp only [hpa, hpb, decide_false] at hclash
        rcases hclash with hid | hkey | hipv4
        · exact absurd (Table.eq_of_clash ha hb (Or.inl (hid.trans hpb.1.symm))) hne
        · exact absurd (Table.eq_of_clash ha hb (Or.inr (Or.inl hkey))) hne
        · exact ⟨b, hb, hpb, a, ha, hne, hipv4⟩
      · simp only [hpa, hpb, decide_false] at hclash
        exact absurd (Table.eq_of_clash ha hb hclash) hne
  · rintro ⟨d, hd, hp, e, he, hne, hempty⟩
    refine ⟨d, hd, e, he, Ne.symm hne, ?_⟩
    have hother : ¬ (e.deviceId = deviceId ∧ e.status = 1) := fun hpe =>
      hne (Table.eq_of_clash he hd (Or.inl (hpe.1.trans hp.1.symm)))
    simp only [hp, hother, decide_false]
    exact Or.inr (Or.inr hempty.symm)

/-- A revocation that breaks the constraint has no effect on the devices. -/
theorem revokeApproved_of_clash {db : Db} {deviceId : Uuid} {d e : DeviceRow}
    (hd : d ∈ db.devices) (hid : d.deviceId = deviceId) (hstatus : d.status = 1)
    (he : e ∈ db.devices) (hne : e ≠ d) (hempty : e.ipv4 = "") :
    handle (.revokeApproved deviceId) db = (.error .constraint, db) := by
  have hnone := revoke_update?_eq_none.mpr ⟨d, hd, ⟨hid, hstatus⟩, e, he, hne, hempty⟩
  show db.updateDevices _ _ = _
  rw [Db.updateDevices, hnone]

/-- Otherwise it rewrites its device, if that is approved, and nothing else. -/
theorem revokeApproved_of_no_clash {db : Db} {deviceId : Uuid}
    (hfree : ∀ d ∈ db.devices, d.deviceId = deviceId → d.status = 1 →
      ∀ e ∈ db.devices, e ≠ d → e.ipv4 ≠ "") :
    (handle (.revokeApproved deviceId) db).1 =
        .ok (db.devices.count fun d => d.deviceId = deviceId ∧ d.status = 1) ∧
      (handle (.revokeApproved deviceId) db).2.ipPool = db.ipPool ∧
      (handle (.revokeApproved deviceId) db).2.devices.rows = db.devices.rows.map fun d =>
        if d.deviceId = deviceId ∧ d.status = 1 then { d with status := -1, ipv4 := "" } else d := by
  have hsome : db.devices.update? (fun d => d.deviceId = deviceId ∧ d.status = 1)
      (fun d => { d with status := -1, ipv4 := "" }) ≠ none := by
    intro hnone
    obtain ⟨d, hd, ⟨hid, hstatus⟩, e, he, hne, hempty⟩ := revoke_update?_eq_none.mp hnone
    exact hfree d hd hid hstatus e he hne hempty
  obtain ⟨devices, hdevices⟩ := Option.ne_none_iff_exists'.mp hsome
  have heq : handle (.revokeApproved deviceId) db =
      (.ok (db.devices.count fun d => d.deviceId = deviceId ∧ d.status = 1),
        { db with devices }) := by
    show db.updateDevices _ _ = _
    rw [Db.updateDevices, hdevices]
  rw [heq]
  refine ⟨rfl, rfl, ?_⟩
  rw [Table.rows_of_update? hdevices]
  simp only [decide_eq_true_eq]

/-- The device rows after a revocation that does not break the constraint. -/
theorem mem_devices_revoke {state : AppState} {db : Db} {deviceId : Uuid} {r : DeviceRow}
    (hfree : ∀ d ∈ db.devices, d.deviceId = deviceId → d.status = 1 →
      ∀ e ∈ db.devices, e ≠ d → e.ipv4 ≠ "") :
    r ∈ (step state db (.revoke deviceId)).devices ↔ ∃ d ∈ db.devices,
      (if d.deviceId = deviceId ∧ d.status = 1 then { d with status := -1, ipv4 := "" } else d) =
        r := by
  obtain ⟨-, -, hrows⟩ := @revokeApproved_of_no_clash (freed db deviceId) deviceId hfree
  rw [step_revoke, Table.mem_rows, hrows]
  exact List.mem_map

/-! ## Holding an address -/

/-- Some device has the address. -/
def Db.Holds (db : Db) (ipv4 : String) : Prop := ∃ d ∈ db.devices, d.ipv4 = ipv4

instance (db : Db) (ipv4 : String) : Decidable (db.Holds ipv4) :=
  inferInstanceAs (Decidable (∃ d ∈ db.devices.rows, d.ipv4 = ipv4))

/-- Insertions keep the rows that are there. -/
theorem Db.mem_insertDevice_of_mem {db : Db} {row d : DeviceRow} (hd : d ∈ db.devices) :
    d ∈ (db.insertDevice row).2.devices := by
  unfold Db.insertDevice
  cases hinsert : db.devices.insert? row with
  | none => exact hd
  | some devices => exact (Table.mem_of_insert? hinsert).mpr (Or.inl hd)

section Holding

variable {db : Db} {ipv4 : String}

/-- An update of the devices that leaves addresses alone. -/
theorem Db.Holds.updateDevices {p : DeviceRow → Bool} {f : DeviceRow → DeviceRow}
    (hf : ∀ d, (f d).ipv4 = d.ipv4) (h : db.Holds ipv4) : (db.updateDevices p f).2.Holds ipv4 := by
  obtain ⟨d, hd, hipv4⟩ := h
  unfold Db.updateDevices
  cases hupdate : db.devices.update? p f with
  | none => exact ⟨d, hd, hipv4⟩
  | some devices =>
      refine ⟨if p d = true then f d else d, (Table.mem_of_update? hupdate).mpr ⟨d, hd, rfl⟩, ?_⟩
      split
      · exact (hf d).trans hipv4
      · exact hipv4

/-- A revocation that is not refused takes the address of its device. -/
theorem Db.Holds.revokeApproved {deviceId : Uuid} (h : db.Holds ipv4)
    (hkept : ¬ ∃ d ∈ db.devices, (d.deviceId = deviceId ∧ d.status = 1) ∧ d.ipv4 = ipv4 ∧
      ∀ e ∈ db.devices, e ≠ d → e.ipv4 ≠ "") :
    (handle (.revokeApproved deviceId) db).2.Holds ipv4 := by
  obtain ⟨d, hd, hipv4⟩ := h
  by_cases hclash : ∃ d ∈ db.devices, d.deviceId = deviceId ∧ d.status = 1 ∧
      ∃ e ∈ db.devices, e ≠ d ∧ e.ipv4 = ""
  · obtain ⟨d', hd', hid', hstatus, e, he, hne, hempty⟩ := hclash
    rw [revokeApproved_of_clash hd' hid' hstatus he hne hempty]
    exact ⟨d, hd, hipv4⟩
  · push Not at hclash
    obtain ⟨-, -, hrows⟩ := revokeApproved_of_no_clash hclash
    have hother : ¬ (d.deviceId = deviceId ∧ d.status = 1) := fun hd' =>
      hkept ⟨d, hd, hd', hipv4, hclash d hd hd'.1 hd'.2⟩
    refine ⟨d, ?_, hipv4⟩
    rw [Table.mem_rows, hrows]
    exact List.mem_map.mpr ⟨d, hd, if_neg hother⟩

theorem Db.Holds.deleteDevices {p : DeviceRow → Bool} (h : db.Holds ipv4)
    (hkept : ¬ ∃ d ∈ db.devices, p d = true ∧ d.ipv4 = ipv4) :
    (db.deleteDevices p).2.Holds ipv4 := by
  obtain ⟨d, hd, hipv4⟩ := h
  refine ⟨d, Table.mem_delete.mpr ⟨hd, ?_⟩, hipv4⟩
  exact Bool.eq_false_iff.mpr fun hp => hkept ⟨d, hd, hp, hipv4⟩

end Holding

end ConnectAlso.Control
