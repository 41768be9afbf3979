import ConnectAlso.Control.Requests
import ConnectAlso.Control.Threads

/-!
# Leases

Several registrations may be given the same address: each counts the pool before any of
them extends it, and a refused extension is ignored. What makes a lease exclusive and
stable is the table of devices. It refuses a second row with the address, no statement
rewrites an address but a revocation, and a registration answers with an address only
after its own row is in, or from a row that is.
-/

namespace ConnectAlso.Control
open Misc Program

/-! ## One statement -/

theorem Statement.Rewrites.keeps {op : Statement} {d e : DeviceRow} (h : op.Rewrites d e) :
    e.deviceId = d.deviceId ∧ e.publicKey = d.publicKey ∧
      (e.ipv4 = d.ipv4 ∨ e.ipv4 = "" ∧ e.status = -1 ∧ op = .revokeApproved d.deviceId) := by
  cases op with
  | updateLastSeen now deviceId =>
      obtain ⟨-, rfl⟩ := h
      exact ⟨rfl, rfl, Or.inl rfl⟩
  | approvePending deviceId =>
      obtain ⟨-, -, rfl⟩ := h
      exact ⟨rfl, rfl, Or.inl rfl⟩
  | revokeApproved deviceId =>
      obtain ⟨rfl, -, rfl⟩ := h
      exact ⟨rfl, rfl, Or.inr ⟨rfl, rfl, rfl⟩⟩
  | _ => exact absurd h id

/-- A device that is there before and after a statement is the same row, or a rewritten
    one. -/
theorem eq_or_rewrites {op : Statement} {db : Db} {d e : DeviceRow} (hd : d ∈ db.devices)
    (he : e ∈ (handle op db).2.devices) (hid : e.deviceId = d.deviceId) :
    e = d ∨ op.Rewrites d e := by
  rcases mem_devices_of_handle he with hold | rfl | ⟨d', hd', hrewrites⟩
  · exact Or.inl (Table.eq_of_clash hold hd (Or.inl hid))
  · have hd' : d ∈ (db.insertDevice e).2.devices := Db.mem_insertDevice_of_mem hd
    exact Or.inl (Table.eq_of_clash he hd' (Or.inl hid))
  · obtain rfl : d' = d := Table.eq_of_clash hd' hd (Or.inl (hrewrites.keeps.1.symm.trans hid))
    exact Or.inr hrewrites

/-- Only a revocation of the device issues the statement that takes its address. -/
theorem Request.InProgress.revokes {state : AppState} {request : Request} {deviceId : Uuid}
    {next : (Statement.revokeApproved deviceId).Answer → Sql Reply}
    (h : request.InProgress state (.call (.revokeApproved deviceId) next)) :
    request = .revoke deviceId := by
  rcases h.issues with ⟨req, id, now, rfl⟩ | hissues
  · cases h
  · exact Request.issues_revokeApproved_iff.mp hissues

/-- The address of a row that is not revoked is read back as it was written. -/
theorem DeviceRow.Sound.toRecord_ipv4 {d : DeviceRow} (h : d.Sound) (hstatus : d.status ≠ -1) :
    d.toRecord.ipv4.toString = d.ipv4 := by
  rcases h with ⟨hrevoked, -⟩ | ⟨-, addr, haddr⟩
  · exact absurd hrevoked hstatus
  · simp [DeviceRow.toRecord, haddr]

/-! ## What is claimed of a step -/

section Step

variable {ι : Type} [DecidableEq ι]

/-- No two devices hold the same address. -/
def Exclusive (db : Db) : Prop :=
  ∀ d ∈ db.devices, ∀ e ∈ db.devices, d.ipv4 = e.ipv4 → d.ipv4 ≠ "" → d = e

/-- A device that stays keeps its address, or loses it to a request to revoke it. -/
def KeepsAddresses (requests : ι → Request) (pool : Pool statements ι Reply Db) (i : ι) : Prop :=
  ∀ d ∈ pool.state.devices, ∀ e ∈ (pool.step handle i).state.devices, e.deviceId = d.deviceId →
    e.ipv4 = d.ipv4 ∨ e.ipv4 = "" ∧ requests i = .revoke d.deviceId

/-- A response of 200 to a registration names the row that the request inserts with this
    step, unless the request has just found a device with its key. -/
def RespondsOwnRow (state : AppState) (requests : ι → Request) (pool : Pool statements ι Reply Db)
    (i : ι) : Prop :=
  ∀ req deviceId now response, requests i = .register req deviceId now →
    (pool.step handle i).threads i = .done (.registered (.ok response)) →
    pool.threads i = .done (.registered (.ok response)) ∨
    pool.threads i = (requests i).program state ∧
      (∃ d ∈ pool.state.devices, d.publicKey = req.publicKey) ∨
    ∃ row next, pool.threads i = .call (.insertDevice row) next ∧
      row ∉ pool.state.devices ∧ row ∈ (pool.step handle i).state.devices ∧
      row.publicKey = req.publicKey ∧
      response.deviceId = row.deviceId ∧ response.ipv4 = row.ipv4

/-- The device is still there and not revoked. -/
def Leased (deviceId : Uuid) (pool : Pool statements ι Reply Db) : Prop :=
  ∃ d ∈ pool.state.devices, d.deviceId = deviceId ∧ d.status ≠ -1

/-- As long as a device is there and not revoked, a registration of its key that has not
    started yet returns its id and address with its first step and changes no table. -/
def KeepsLeases (state : AppState) (requests : ι → Request) (pool : Pool statements ι Reply Db)
    (later : List ι) : Prop :=
  ∀ d ∈ pool.state.devices, Throughout (Pool.step handle) (Leased d.deviceId) pool later →
    ∀ i req deviceId now, requests i = .register req deviceId now →
      req.publicKey = d.publicKey →
      (run (Pool.step handle) pool later).threads i = (requests i).program state →
      ∃ response,
        ((run (Pool.step handle) pool later).step handle i).threads i =
          .done (.registered (.ok response)) ∧
        response.deviceId = d.deviceId ∧ response.ipv4 = d.ipv4 ∧
        ((run (Pool.step handle) pool later).step handle i).state =
          (run (Pool.step handle) pool later).state

/-! ## Proofs -/

variable {state : AppState} {requests : ι → Request} {pool : Pool statements ι Reply Db}

theorem exclusive (db : Db) : Exclusive db := by
  intro d hd e he hipv4 _
  exact Table.eq_of_clash hd he (Or.inr (Or.inr hipv4))

/-- A device that is there before and after a step is the same row, or one that the
    statement of the step rewrites. -/
theorem eq_or_rewrites_step {i : ι} {d e : DeviceRow} (hd : d ∈ pool.state.devices)
    (he : e ∈ (pool.step handle i).state.devices) (hid : e.deviceId = d.deviceId) :
    e = d ∨ ∃ op next, pool.threads i = .call op next ∧ op.Rewrites d e := by
  cases hthread : pool.threads i with
  | done reply =>
      rw [Pool.step_done handle hthread] at he
      exact Or.inl (Table.eq_of_clash he hd (Or.inl hid))
  | call op next =>
      rw [Pool.state_step_of_call handle hthread] at he
      exact (eq_or_rewrites hd he hid).imp_right fun hrewrites => ⟨op, next, rfl, hrewrites⟩

theorem keepsAddresses (h : InService state requests pool) (i : ι) :
    KeepsAddresses requests pool i := by
  intro d hd e he hid
  rcases eq_or_rewrites_step hd he hid with rfl | ⟨op, next, hthread, hrewrites⟩
  · exact Or.inl rfl
  · rcases hrewrites.keeps.2.2 with hkept | ⟨hempty, -, rfl⟩
    · exact Or.inl hkept
    · have hprogress := h.threads i
      rw [hthread] at hprogress
      exact Or.inr ⟨hempty, hprogress.revokes⟩

/-- A registration answers 200 with its first statement or with the insertion. -/
theorem Registration.Stage.responds {req : RegisterRequest} {deviceId : Uuid} {now : Int}
    {op : Statement} {next : op.Answer → Sql Reply} {db : Db} {response : RegisterResponse}
    (h : Registration.Stage state req deviceId now (.call op next)) (hsound : Sound db)
    (hdone : next (handle op db).1 = .done (.registered (.ok response))) :
    ((.call op next : Sql Reply) = Registration.lookingUp state req deviceId now ∧
      ∃ d ∈ db.devices, d.publicKey = req.publicKey) ∨
    ∃ row next', (.call op next : Sql Reply) = .call (.insertDevice row) next' ∧
      row ∉ db.devices ∧ row ∈ (handle op db).2.devices ∧ row.publicKey = req.publicKey ∧
      response.deviceId = row.deviceId ∧ response.ipv4 = row.ipv4 := by
  cases h with
  | lookingUp =>
      refine Or.inl ⟨rfl, ?_⟩
      cases hrow : (handle (.selectByPublicKey req.publicKey) db).1 with
      | none =>
          rw [hrow] at hdone
          cases hdone
      | some d =>
          obtain ⟨hd, hkey⟩ := Table.mem_select.mp (List.mem_of_mem_head? hrow)
          exact ⟨d, hd, of_decide_eq_true hkey⟩
  | choosing =>
      have hanswer : (handle .selectFreeIp db).1 = none := soundAnswer_handle .selectFreeIp hsound
      rw [hanswer] at hdone
      cases hdone
  | allocating =>
      dsimp only at hdone
      split at hdone
      · cases hdone
      · cases hdone
  | reserving ip => cases hdone
  | counting ip => cases hdone
  | inserting ip status =>
      refine Or.inr ⟨_, _, rfl, ?_⟩
      have hhandle : ∀ row, handle (.insertDevice row) db = db.insertDevice row := fun _ => rfl
      rw [hhandle, Db.insertDevice] at hdone ⊢
      cases hinsert : db.devices.insert? (newRecord req deviceId now ip status).toRow with
      | none =>
          rw [hinsert] at hdone
          cases hdone
      | some devices =>
          rw [hinsert] at hdone
          cases hdone
          refine ⟨?_, (Table.mem_of_insert? hinsert).mpr (Or.inr rfl), rfl, rfl, rfl⟩
          intro hmem
          exact (Table.insert?_eq_some.mp hinsert).1 _ hmem (Or.inl rfl)

theorem respondsOwnRow (h : InService state requests pool) (i : ι) :
    RespondsOwnRow state requests pool i := by
  intro req deviceId now response hrequest hdone
  cases hthread : pool.threads i with
  | done reply =>
      rw [Pool.step_done handle hthread, hthread] at hdone
      exact Or.inl hdone
  | call op next =>
      have hprogress := h.threads i
      rw [hthread, hrequest] at hprogress
      rw [Pool.threads_step_of_call handle hthread] at hdone
      rw [Pool.state_step_of_call handle hthread]
      rcases hprogress.responds h.sound hdone with ⟨hlookup, hknown⟩ | hinserted
      · refine Or.inr (Or.inl ⟨?_, hknown⟩)
        rw [hlookup, hrequest, Registration.program_register]
      · exact Or.inr (Or.inr hinserted)

/-- A device that stays unrevoked keeps its key and its address. -/
theorem leased_run {d : DeviceRow} (hd : d ∈ pool.state.devices) {later : List ι}
    (hleased : Throughout (Pool.step handle) (Leased d.deviceId) pool later) :
    ∃ e ∈ (run (Pool.step handle) pool later).state.devices, e.deviceId = d.deviceId ∧
      e.publicKey = d.publicKey ∧ e.ipv4 = d.ipv4 ∧ e.status ≠ -1 := by
  induction later generalizing pool d with
  | nil =>
      obtain ⟨e, he, hid, hstatus⟩ := (throughout_nil _ _ _).mp hleased
      obtain rfl : e = d := Table.eq_of_clash he hd (Or.inl hid)
      exact ⟨e, hd, rfl, rfl, rfl, hstatus⟩
  | cons i later ih =>
      obtain ⟨-, hlater⟩ := (throughout_cons _ _ _ _ _).mp hleased
      obtain ⟨e, he, hid, hstatus⟩ := hlater [] List.nil_prefix
      have hkept : e.publicKey = d.publicKey ∧ e.ipv4 = d.ipv4 := by
        rcases eq_or_rewrites_step hd he hid with rfl | ⟨op, next, -, hrewrites⟩
        · exact ⟨rfl, rfl⟩
        · obtain ⟨-, hkey, hipv4 | ⟨-, hrevoked, -⟩⟩ := hrewrites.keeps
          · exact ⟨hkey, hipv4⟩
          · exact absurd hrevoked hstatus
      rw [← hid] at hlater
      obtain ⟨f, hf, hfid, hfkey, hfipv4, hfstatus⟩ := ih he hlater
      exact ⟨f, hf, hfid.trans hid, hfkey.trans hkept.1, hfipv4.trans hkept.2, hfstatus⟩

theorem keepsLeases (h : InService state requests pool) (later : List ι) :
    KeepsLeases state requests pool later := by
  intro d hd hleased i req deviceId now hrequest hkey hthread
  obtain ⟨e, he, hid, hekey, hipv4, hstatus⟩ := leased_run hd hleased
  have hsound : Sound (run (Pool.step handle) pool later).state :=
    (run_invariant inService_step h later).sound
  rw [hrequest, Registration.program_register] at hthread
  rw [Pool.threads_step_of_call handle hthread, Pool.state_step_of_call handle hthread]
  have hanswer : handle (.selectByPublicKey req.publicKey)
      (run (Pool.step handle) pool later).state =
      (some e, (run (Pool.step handle) pool later).state) :=
    congrArg (·, _) (select_publicKey he (hekey.trans hkey.symm))
  refine ⟨Registration.knownResponse state e, ?_, hid, ?_, ?_⟩
  · rw [hanswer]
  · exact ((hsound.device e he).toRecord_ipv4 hstatus).trans hipv4
  · rw [hanswer]

end Step

/-- Requests in any number, their statements in any order: no two devices hold the same
    address, a device keeps its address until it is revoked, a registration of a new key
    answers with the row it inserted, and later ones with the same as long as that row is
    there and not revoked. -/
theorem leases_exclusive_and_stable {ι : Type} [DecidableEq ι] (state : AppState)
    (requests : ι → Request) (schedule : List ι) :
    Throughout (Pool.step handle) (fun pool => Exclusive pool.state)
        (serving state requests Db.empty) schedule ∧
    EachStep (Pool.step handle) (KeepsAddresses requests)
        (serving state requests Db.empty) schedule ∧
    EachStep (Pool.step handle) (RespondsOwnRow state requests)
        (serving state requests Db.empty) schedule ∧
    ∀ past later, past ++ later = schedule →
      KeepsLeases state requests
        (run (Pool.step handle) (serving state requests Db.empty) past) later := by
  have hservice : ∀ past, InService state requests
      (run (Pool.step handle) (serving state requests Db.empty) past) :=
    run_invariant inService_step (inService_serving state requests sound_empty)
  refine ⟨?_, ?_, ?_, ?_⟩
  · intro past _
    exact exclusive _
  · intro past i _
    exact keepsAddresses (hservice past) i
  · intro past i _
    exact respondsOwnRow (hservice past) i
  · intro past later _
    exact keepsLeases (hservice past) later

end ConnectAlso.Control
