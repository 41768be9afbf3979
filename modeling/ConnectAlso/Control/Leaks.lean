import ConnectAlso.Control.Leases

/-!
# Leaked addresses

An address in the pool is accounted for when a device holds it or a registration is
about to insert a device with it. A step breaks this when it lets go of an address that
is still in the pool: an insertion that is refused, since nothing takes the pool row
back, or a revocation or deletion of a device whose address has come back into the pool
after the request has freed it.
-/

namespace ConnectAlso.Control
open Misc Program

/-- The program goes on to insert a device with the address, whatever is answered in
    between. -/
inductive WillInsert (ipv4 : String) : Sql Reply → Prop
  | inserting (row : DeviceRow) (next : (Statement.insertDevice row).Answer → Sql Reply)
      (hrow : row.ipv4 = ipv4) : WillInsert ipv4 (.call (.insertDevice row) next)
  | counting (next : Statement.countDevices.Answer → Sql Reply)
      (hnext : ∀ count, WillInsert ipv4 (next count)) : WillInsert ipv4 (.call .countDevices next)

/-- The statement ends the claim of a device, or of the registration that issues it, to
    the address. -/
def Statement.LetsGo : Statement → Db → String → Prop
  | insertDevice row, db, ipv4 =>
    row.ipv4 = ipv4 ∧ (∃ d ∈ db.devices, deviceKeys.clash d row) ∧ ¬ db.Holds ipv4
  | revokeApproved deviceId, db, ipv4 =>
    ∃ d ∈ db.devices, (d.deviceId = deviceId ∧ d.status = 1) ∧ d.ipv4 = ipv4 ∧
      ∀ e ∈ db.devices, e ≠ d → e.ipv4 ≠ ""
  | deleteDevice deviceId, db, ipv4 => ∃ d ∈ db.devices, d.deviceId = deviceId ∧ d.ipv4 = ipv4
  | deleteStale cutoff, db, ipv4 =>
    ∃ d ∈ db.devices, (d.lastSeen < cutoff ∧ d.status ≠ 1) ∧ d.ipv4 = ipv4
  | _, _, _ => False

instance (op : Statement) (db : Db) (ipv4 : String) : Decidable (op.LetsGo db ipv4) :=
  match op with
  | .insertDevice row =>
    inferInstanceAs (Decidable (row.ipv4 = ipv4 ∧
      (∃ d ∈ db.devices.rows, deviceKeys.clash d row) ∧ ¬ db.Holds ipv4))
  | .revokeApproved deviceId =>
    inferInstanceAs (Decidable (∃ d ∈ db.devices.rows, (d.deviceId = deviceId ∧ d.status = 1) ∧
      d.ipv4 = ipv4 ∧ ∀ e ∈ db.devices.rows, e ≠ d → e.ipv4 ≠ ""))
  | .deleteDevice deviceId =>
    inferInstanceAs (Decidable (∃ d ∈ db.devices.rows, d.deviceId = deviceId ∧ d.ipv4 = ipv4))
  | .deleteStale cutoff =>
    inferInstanceAs (Decidable (∃ d ∈ db.devices.rows,
      (d.lastSeen < cutoff ∧ d.status ≠ 1) ∧ d.ipv4 = ipv4))
  | .selectByPublicKey _ | .updateLastSeen _ _ | .approvePending _ | .freeIpOf _
  | .freeIpsOfStale _ | .selectFreeIp | .markAllocated _ | .countIpPool | .insertIpPool _
  | .countDevices => instDecidableFalse

/-! ## Holding an address -/

section Holding

variable {db : Db} {ipv4 : String}

/-- An address stays held unless the statement lets go of it. -/
theorem Db.Holds.handle {op : Statement} (h : db.Holds ipv4) (hkept : ¬ op.LetsGo db ipv4) :
    (handle op db).2.Holds ipv4 := by
  cases op with
  | insertDevice row =>
      obtain ⟨d, hd, hipv4⟩ := h
      exact ⟨d, Db.mem_insertDevice_of_mem hd, hipv4⟩
  | updateLastSeen now deviceId => exact h.updateDevices fun _ => rfl
  | approvePending deviceId => exact h.updateDevices fun _ => rfl
  | revokeApproved deviceId => exact h.revokeApproved hkept
  | deleteDevice deviceId =>
      apply h.deleteDevices
      rintro ⟨d, hd, hp, hipv4⟩
      exact hkept ⟨d, hd, of_decide_eq_true hp, hipv4⟩
  | deleteStale cutoff =>
      apply h.deleteDevices
      rintro ⟨d, hd, hp, hipv4⟩
      exact hkept ⟨d, hd, of_decide_eq_true hp, hipv4⟩
  | markAllocated ipv4 => simpa [Control.handle, Db.Holds] using h
  | insertIpPool ipv4 => simpa [Control.handle, Db.Holds] using h
  | _ => exact h

end Holding

/-! ## Letting go -/

/-- A statement that lets go of an address leaves it without a device. -/
theorem Statement.LetsGo.not_holds {op : Statement} {db : Db} {ipv4 : String} (hsound : Sound db)
    (h : op.LetsGo db ipv4) : ¬ (handle op db).2.Holds ipv4 := by
  rintro ⟨e, he, heipv4⟩
  cases op with
  | insertDevice row =>
      obtain ⟨-, hclash, hfree⟩ := h
      have hrefused : handle (.insertDevice row) db = (.error .constraint, db) := by
        show db.insertDevice row = _
        rw [Db.insertDevice, Table.insert?_eq_none.mpr hclash]
      rw [hrefused] at he
      exact hfree ⟨e, he, heipv4⟩
  | revokeApproved deviceId =>
      obtain ⟨d, hd, hp, hipv4, hothers⟩ := h
      obtain ⟨-, -, hrows⟩ := @revokeApproved_of_no_clash db deviceId (by
        intro d' hd' hid' _
        obtain rfl : d' = d := Table.eq_of_clash hd' hd (Or.inl (hid'.trans hp.1.symm))
        exact hothers)
      rw [Table.mem_rows, hrows] at he
      obtain ⟨d', hd', rfl⟩ := List.mem_map.mp he
      have haddr : d.ipv4 ≠ "" := by
        intro hempty
        have hrevoked := (hsound.device d hd).revoked_iff.mpr hempty
        rw [hp.2] at hrevoked
        cases hrevoked
      split at heipv4
      · exact haddr (hipv4.trans heipv4.symm)
      · rename_i hother
        obtain rfl : d' = d := Table.eq_of_clash hd' hd (Or.inr (Or.inr (heipv4.trans hipv4.symm)))
        exact hother hp
  | deleteDevice deviceId =>
      obtain ⟨d, hd, hid, hipv4⟩ := h
      obtain ⟨he, hother⟩ := Table.mem_delete.mp he
      obtain rfl : e = d := Table.eq_of_clash he hd (Or.inr (Or.inr (heipv4.trans hipv4.symm)))
      exact of_decide_eq_false hother hid
  | deleteStale cutoff =>
      obtain ⟨d, hd, hstale, hipv4⟩ := h
      obtain ⟨he, hother⟩ := Table.mem_delete.mp he
      obtain rfl : e = d := Table.eq_of_clash he hd (Or.inr (Or.inr (heipv4.trans hipv4.symm)))
      exact of_decide_eq_false hother hstale
  | _ => exact h

theorem Statement.LetsGo.ipPool {op : Statement} {db : Db} {ipv4 : String}
    (h : op.LetsGo db ipv4) : (handle op db).2.ipPool = db.ipPool := by
  cases op with
  | insertDevice row => exact Db.insertDevice_ipPool _ _
  | revokeApproved deviceId => exact Db.updateDevices_ipPool _ _ _
  | deleteDevice deviceId => rfl
  | deleteStale cutoff => rfl
  | _ => exact absurd h id

/-! ## Registrations with an address -/

section WillInsert

variable {state : AppState} {ipv4 : String}

/-- Only a registration goes on to insert a device. -/
theorem Request.InProgress.register_of_willInsert {request : Request} {p : Sql Reply}
    (h : request.InProgress state p) (hp : WillInsert ipv4 p) :
    ∃ req deviceId now, request = .register req deviceId now := by
  cases hp with
  | inserting row _ _ => exact h.issues.resolve_right (request.not_issues_insertDevice row)
  | counting _ _ => exact h.issues.resolve_right request.not_issues_countDevices

/-- No request has an address before its first statement. -/
theorem not_willInsert_program (request : Request) : ¬ WillInsert ipv4 (request.program state) := by
  intro h
  obtain ⟨req, deviceId, now, rfl⟩ := (inProgress_program state request).register_of_willInsert h
  rw [Registration.program_register] at h
  cases h

/-- A request that lets go of an address does not go on to insert a device with it. -/
theorem Request.InProgress.not_willInsert_of_letsGo {request : Request} {op : Statement}
    {next : op.Answer → Sql Reply} {db : Db} (h : request.InProgress state (.call op next))
    (hletsGo : op.LetsGo db ipv4) {answer : op.Answer} (hanswer : op.SoundAnswer answer) :
    ¬ WillInsert ipv4 (next answer) := by
  intro hwill
  obtain ⟨req, deviceId, now, rfl⟩ := (h.next hanswer).register_of_willInsert hwill
  cases h with
  | inserting ip status => cases answer <;> cases hwill
  | _ => exact hletsGo

/-- A registration that goes on to insert a device has done so after its next statement,
    or still goes on, or lets go of the address. -/
theorem WillInsert.next {op : Statement} {next : op.Answer → Sql Reply} {db : Db}
    (h : WillInsert ipv4 (.call op next)) :
    WillInsert ipv4 (next (handle op db).1) ∨ (handle op db).2.Holds ipv4 ∨ op.LetsGo db ipv4 := by
  cases h with
  | counting _ hnext => exact Or.inl (hnext _)
  | inserting row _ hrow =>
      refine Or.inr ?_
      by_cases hheld : (handle (.insertDevice row) db).2.Holds ipv4
      · exact Or.inl hheld
      · refine Or.inr ⟨hrow, ?_, ?_⟩
        · cases hinsert : db.devices.insert? row with
          | none => exact Table.insert?_eq_none.mp hinsert
          | some devices =>
              refine absurd ⟨row, ?_, hrow⟩ hheld
              show row ∈ (db.insertDevice row).2.devices
              rw [Db.insertDevice, hinsert]
              exact (Table.mem_of_insert? hinsert).mpr (Or.inr rfl)
        · rintro ⟨d, hd, hipv4⟩
          exact hheld ⟨d, Db.mem_insertDevice_of_mem hd, hipv4⟩

/-- A request that adds an address to the pool goes on to insert a device with it. -/
theorem Request.InProgress.willInsert_of_insertIpPool {request : Request}
    {next : (Statement.insertIpPool ipv4).Answer → Sql Reply}
    (h : request.InProgress state (.call (.insertIpPool ipv4) next))
    (answer : (Statement.insertIpPool ipv4).Answer) : WillInsert ipv4 (next answer) := by
  obtain ⟨req, deviceId, now, rfl⟩ := h.issues.resolve_right (request.not_issues_insertIpPool ipv4)
  cases h with
  | reserving ip => exact .counting _ fun count => .inserting _ _ rfl

/-- A pool row after a statement was there before, or the request that has just added it
    goes on to insert a device with its address. -/
theorem Request.InProgress.mem_ipPool {request : Request} {op : Statement}
    {next : op.Answer → Sql Reply} {db : Db} (hsound : Sound db)
    (h : request.InProgress state (.call op next)) {p : IpPoolRow}
    (hp : p ∈ (handle op db).2.ipPool) :
    p ∈ db.ipPool ∨ WillInsert p.ipv4 (next (handle op db).1) := by
  rcases mem_ipPool_of_handle hp with hold | ⟨rfl, -⟩ | ⟨q, hq, rfl⟩
  · exact Or.inl hold
  · exact Or.inr (h.willInsert_of_insertIpPool _)
  · have hmarked : q = { q with allocated := 1 } := by
      rw [← (hsound.pool q hq).1]
    exact Or.inl (hmarked ▸ hq)

end WillInsert

/-! ## Interleavings -/

section Pool

variable {ι : Type} [DecidableEq ι] {state : AppState} {requests : ι → Request}

/-- Every address in the pool is held by a device, or a registration is about to insert
    one with it. -/
def Claimed (pool : Pool statements ι Reply Db) : Prop :=
  ∀ p ∈ pool.state.ipPool, pool.state.Holds p.ipv4 ∨ ∃ i, WillInsert p.ipv4 (pool.threads i)

/-- The step of thread `i` lets go of no address in the pool, except one that another
    registration is about to insert. -/
def NoLeak (pool : Pool statements ι Reply Db) (i : ι) : Prop :=
  ∀ op next, pool.threads i = .call op next → ∀ p ∈ pool.state.ipPool,
    op.LetsGo pool.state p.ipv4 → ∃ j ≠ i, WillInsert p.ipv4 (pool.threads j)

theorem noLeak_of_claimed_step (pool : Pool statements ι Reply Db) (i : ι)
    (h : InService state requests pool) (hafter : Claimed (pool.step handle i)) : NoLeak pool i := by
  intro op next hthread p hp hletsGo
  have hprogress := h.threads i
  rw [hthread] at hprogress
  have hp' : p ∈ (pool.step handle i).state.ipPool := by
    rw [Pool.state_step_of_call handle hthread, hletsGo.ipPool]
    exact hp
  rcases hafter p hp' with hheld | ⟨j, hj⟩
  · rw [Pool.state_step_of_call handle hthread] at hheld
    exact absurd hheld (hletsGo.not_holds h.sound)
  · by_cases hji : j = i
    · subst hji
      rw [Pool.threads_step_of_call handle hthread] at hj
      exact absurd hj (hprogress.not_willInsert_of_letsGo hletsGo (soundAnswer_handle op h.sound))
    · rw [Pool.threads_step_of_ne handle pool hji] at hj
      exact ⟨j, hji, hj⟩

theorem claimed_step (pool : Pool statements ι Reply Db) (i : ι) (h : InService state requests pool)
    (hclaimed : Claimed pool) (hnoLeak : NoLeak pool i) : Claimed (pool.step handle i) := by
  cases hthread : pool.threads i with
  | done reply =>
      rw [Pool.step_done handle hthread]
      exact hclaimed
  | call op next =>
      have hprogress := h.threads i
      rw [hthread] at hprogress
      have hself := Pool.threads_step_of_call handle hthread
      intro p hp
      rw [Pool.state_step_of_call handle hthread] at hp ⊢
      rcases hprogress.mem_ipPool h.sound hp with hold | hnew
      · by_cases hletsGo : op.LetsGo pool.state p.ipv4
        · obtain ⟨j, hji, hj⟩ := hnoLeak op next hthread p hold hletsGo
          exact Or.inr ⟨j, (Pool.threads_step_of_ne handle pool hji).symm ▸ hj⟩
        · rcases hclaimed p hold with hheld | ⟨j, hj⟩
          · exact Or.inl (hheld.handle hletsGo)
          · by_cases hji : j = i
            · subst hji
              rw [hthread] at hj
              rcases @WillInsert.next _ op next pool.state hj with hwill | hheld | hgo
              · exact Or.inr ⟨j, hself.symm ▸ hwill⟩
              · exact Or.inl hheld
              · exact absurd hgo hletsGo
            · exact Or.inr ⟨j, (Pool.threads_step_of_ne handle pool hji).symm ▸ hj⟩
      · -- the address has just been added, by the registration that is about to insert it
        exact Or.inr ⟨i, hself.symm ▸ hnew⟩

/-- A step leaves every address in the pool accounted for exactly when it lets go of none
    that nobody else is about to take. -/
theorem claimed_step_iff (pool : Pool statements ι Reply Db) (i : ι)
    (h : InService state requests pool) (hclaimed : Claimed pool) :
    Claimed (pool.step handle i) ↔ NoLeak pool i :=
  ⟨noLeak_of_claimed_step pool i h, claimed_step pool i h hclaimed⟩

/-- In a run, every address in the pool is accounted for at any time exactly when no step
    lets go of one that nobody else is about to take. -/
theorem claimed_throughout_iff (state : AppState) (requests : ι → Request) (schedule : List ι) :
    Throughout (Pool.step handle) Claimed (serving state requests Db.empty) schedule ↔
      EachStep (Pool.step handle) NoLeak (serving state requests Db.empty) schedule := by
  refine throughout_iff_eachStep inService_step claimed_step_iff
    (inService_serving state requests sound_empty) ?_ schedule
  intro p hp
  exact absurd hp (Table.not_mem_empty p)

/-- No request is in progress: each has not started yet or has its reply. -/
def Idle (state : AppState) (requests : ι → Request) (pool : Pool statements ι Reply Db) : Prop :=
  ∀ i, pool.threads i = (requests i).program state ∨ ∃ reply, pool.threads i = .done reply

/-- Every allocated address of the pool is the address of a device. -/
def Db.NoneLeaked (db : Db) : Prop := ∀ p ∈ db.ipPool, p.allocated = 1 → db.Holds p.ipv4

instance (db : Db) : Decidable db.NoneLeaked :=
  inferInstanceAs (Decidable (∀ p ∈ db.ipPool.rows, p.allocated = 1 → db.Holds p.ipv4))

/-- Requests in any number, their statements in any order, from the empty database: if no
    step lets go of an address in the pool that nobody else is about to take, then
    whenever no request is in progress every allocated address is that of a device. -/
theorem none_leaked_when_idle (state : AppState) (requests : ι → Request) (schedule : List ι)
    (hsteps : EachStep (Pool.step handle) NoLeak (serving state requests Db.empty) schedule) :
    Throughout (Pool.step handle) (fun pool => Idle state requests pool → pool.state.NoneLeaked)
      (serving state requests Db.empty) schedule := by
  intro past hpast hidle p hp _
  rcases (claimed_throughout_iff state requests schedule).mpr hsteps past hpast p hp with
    hheld | ⟨i, hi⟩
  · exact hheld
  · rcases hidle i with hstart | ⟨reply, hdone⟩
    · rw [hstart] at hi
      exact absurd hi (not_willInsert_program (requests i))
    · rw [hdone] at hi
      cases hi

end Pool

/-- The next statement of thread `i` lets go of no address in the pool. -/
def KeepsPool {ι : Type} (pool : Pool statements ι Reply Db) (i : ι) : Prop :=
  match pool.threads i with
  | .done _ => True
  | .call op _ => ∀ p ∈ pool.state.ipPool.rows, ¬ op.LetsGo pool.state p.ipv4

instance {ι : Type} (pool : Pool statements ι Reply Db) (i : ι) : Decidable (KeepsPool pool i) :=
  match h : pool.threads i with
  | .done _ => .isTrue (by rw [KeepsPool, h]; trivial)
  | .call op _ =>
    decidable_of_iff (∀ p ∈ pool.state.ipPool.rows, ¬ op.LetsGo pool.state p.ipv4)
      (by rw [KeepsPool, h])

theorem KeepsPool.noLeak {ι : Type} {pool : Pool statements ι Reply Db} {i : ι}
    (h : KeepsPool pool i) : NoLeak pool i := by
  intro op next hthread p hp hletsGo
  rw [KeepsPool, hthread] at h
  exact absurd hletsGo (h p hp)

/-- Two registrations, the revocation of the device of the first one, and a purge that
    removes this device. -/
def overlapping : Fin 4 → Request
  | 0 => registration 0 0 100
  | 1 => registration 1 1 101
  | 2 => .revoke (idOf 0)
  | 3 => .purgeStale false 401 300

/-- An order of their statements in which each request starts before the one in front of it
    is done. -/
def overlap : List (Fin 4) := [0, 1, 0, 0, 0, 1, 1, 0, 1, 0, 2, 1, 3, 1, 2, 3]

/-- When they are done, the pool holds the address of the second device only. -/
theorem overlapping_leaks_nothing :
    (run (Pool.step handle) (serving AppState.default overlapping Db.empty)
        overlap).state.ipPool.rows.map IpPoolRow.ipv4 = ["100.64.0.1"] ∧
      (run (Pool.step handle) (serving AppState.default overlapping Db.empty)
        overlap).state.NoneLeaked := by
  refine ⟨by decide +kernel, ?_⟩
  have hkeeps : EachStep (Pool.step handle) KeepsPool
      (serving AppState.default overlapping Db.empty) overlap := by decide +kernel
  refine none_leaked_when_idle AppState.default overlapping overlap
    (hkeeps.mono fun _ _ => KeepsPool.noLeak) _ (List.prefix_refl _) ?_
  intro i
  refine Or.inr (exists_done_of_isSome ?_)
  revert i
  decide +kernel

/-- Two registrations of one key both find it new. The second one's device is refused, and
    the address that it has put into the pool stays there without a device. -/
theorem refused_registration_leaks :
    ¬ Throughout (Pool.step handle)
      (fun pool => Idle AppState.default
        (fun second : Bool => registration 0 (if second then 1 else 0) 100) pool →
        pool.state.NoneLeaked)
      (serving AppState.default
        (fun second : Bool => registration 0 (if second then 1 else 0) 100) Db.empty)
      [false, true, false, false, false, false, false, true, true, true, true, true] := by
  intro h
  have hleaked := h _ (List.prefix_refl _) (by
    intro second
    refine Or.inr (exists_done_of_isSome ?_)
    cases second with
    | false => decide +kernel
    | true => decide +kernel)
  revert hleaked
  decide +kernel

end ConnectAlso.Control
