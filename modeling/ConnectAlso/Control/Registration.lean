import ConnectAlso.Control.Requests

/-!
# Registration and the size of the pool

A registration tries the address `base + COUNT(ip_pool)`. Every address of the pool is
held by some device, so as long as fewer devices hold an address than the network has,
the count stays within the network and the registration never fails for want of
addresses. But rows leave the pool in any order, and the address it tries may be one
that a device still holds: then the registration fails, whatever other addresses are
free.
-/

namespace ConnectAlso.Control
open Misc

/-- The UUID that a registration draws is not in use. -/
def DrawsFresh (db : Db) : Request → Prop
  | .register _ deviceId _ => ∀ d ∈ db.devices, d.deviceId ≠ deviceId
  | _ => True

/-- Every address of the pool is held by a device. -/
def PoolHeld (db : Db) : Prop := ∀ p ∈ db.ipPool, ∃ d ∈ db.devices, d.ipv4 = p.ipv4

/-- The number of devices that hold an address. -/
def Db.held (db : Db) : Nat := db.devices.count fun d => d.ipv4 ≠ ""

/-- The registration succeeds with an address of the network that no device holds. -/
def Admitted (state : AppState) (db : Db) (req : RegisterRequest) (deviceId : Uuid)
    (now : Int) : Prop :=
  ∃ (response : RegisterResponse) (addr : Ipv4Addr),
    (serve state db (.register req deviceId now)).1 = .registered (.ok response) ∧
    response.ipv4 = addr.toString ∧
    state.ipBase.toNat ≤ addr.toU32.toNat ∧
    addr.toU32.toNat ≤ state.ipBase.toNat + state.ipMaxOffset.toNat ∧
    ∀ d ∈ db.devices, d.ipv4 ≠ response.ipv4

/-! ## Addresses in the pool are held -/

theorem poolHeld_empty : PoolHeld Db.empty := by
  intro p hp
  exact absurd hp (Table.not_mem_empty p)

/-- A registration of a new key with a fresh UUID can only clash on the address. -/
theorem newRow_insert?_eq_none {state : AppState} {db : Db} {req : RegisterRequest}
    {deviceId : Uuid} {now : Int} (hnew : ∀ d ∈ db.devices, d.publicKey ≠ req.publicKey)
    (hfresh : ∀ d ∈ db.devices, d.deviceId ≠ deviceId) :
    db.devices.insert? (newRow state db req deviceId now) = none ↔
      ∃ d ∈ db.devices, d.ipv4 = (nextAddress state db).toString := by
  rw [Table.insert?_eq_none]
  refine exists_congr fun d => and_congr_right fun hd => ?_
  refine ⟨?_, ?_⟩
  · intro hclash
    rcases hclash with hid | hkey | hipv4
    · exact absurd hid (hfresh d hd)
    · exact absurd hkey (hnew d hd)
    · exact hipv4
  · intro hipv4
    exact Or.inr (Or.inr hipv4)

theorem poolHeld_register {state : AppState} {db : Db} (hsound : Sound db) (h : PoolHeld db)
    {req : RegisterRequest} {deviceId : Uuid} {now : Int}
    (hfresh : ∀ d ∈ db.devices, d.deviceId ≠ deviceId) :
    PoolHeld (step state db (.register req deviceId now)) := by
  rcases step_register_cases state hsound req deviceId now with
    heq | ⟨hnew, ⟨hinsert, heq⟩ | ⟨devices, hinsert, heq⟩⟩
  · rw [heq]
    exact h
  · -- the address that stays in the pool is the one that a device holds
    rw [heq]
    intro p hp
    rw [Db.insertIp_devices]
    rcases Db.mem_insertIp.mp hp with hold | ⟨rfl, -⟩
    · exact h p hold
    · exact (newRow_insert?_eq_none hnew hfresh).mp hinsert
  · rw [heq]
    intro p hp
    rcases Db.mem_insertIp.mp hp with hold | ⟨rfl, -⟩
    · obtain ⟨d, hd, hipv4⟩ := h p hold
      exact ⟨d, (Table.mem_of_insert? hinsert).mpr (Or.inl hd), hipv4⟩
    · exact ⟨_, (Table.mem_of_insert? hinsert).mpr (Or.inr rfl), rfl⟩

theorem PoolHeld.updateDevices {db : Db} (h : PoolHeld db) {p : DeviceRow → Bool}
    {f : DeviceRow → DeviceRow} (hf : ∀ d, (f d).ipv4 = d.ipv4) :
    PoolHeld (db.updateDevices p f).2 := by
  intro q hq
  rw [Db.updateDevices_ipPool] at hq
  exact Db.Holds.updateDevices hf (h q hq)

theorem poolHeld_revoke {db : Db} (h : PoolHeld db) (state : AppState) (deviceId : Uuid) :
    PoolHeld (step state db (.revoke deviceId)) := by
  intro p hp
  rw [ipPool_step_revoke] at hp
  obtain ⟨hold, hother⟩ := mem_freed_ipPool.mp hp
  have hheld : (freed db deviceId).Holds p.ipv4 := h p hold
  rw [step_revoke]
  apply hheld.revokeApproved
  rintro ⟨d, hd, ⟨hid, -⟩, hipv4, -⟩
  exact hother d hd hid hipv4.symm

theorem poolHeld_unregister {db : Db} (h : PoolHeld db) (state : AppState) (deviceId : Uuid) :
    PoolHeld (step state db (.unregister deviceId)) := by
  rw [step_unregister]
  intro p hp
  obtain ⟨hold, hother⟩ := mem_freed_ipPool.mp hp
  have hheld : (freed db deviceId).Holds p.ipv4 := h p hold
  apply hheld.deleteDevices
  rintro ⟨d, hd, hid, hipv4⟩
  exact hother d hd (of_decide_eq_true hid) hipv4.symm

theorem PoolHeld.purged {db : Db} (h : PoolHeld db) (cutoff : Int) :
    PoolHeld (purged db cutoff) := by
  intro p hp
  obtain ⟨hold, hother⟩ := mem_freeIpsOfStale.mp hp
  have hheld : (handle (.freeIpsOfStale cutoff) db).2.Holds p.ipv4 := h p hold
  apply hheld.deleteDevices
  rintro ⟨d, hd, hstale, hipv4⟩
  exact hother d hd (of_decide_eq_true hstale).1 hipv4.symm

theorem poolHeld_step (state : AppState) (db : Db) (request : Request)
    (hfresh : DrawsFresh db request) (hsound : Sound db) (h : PoolHeld db) :
    PoolHeld (step state db request) := by
  cases request with
  | register req deviceId now => exact poolHeld_register hsound h hfresh
  | approve deviceId =>
      rw [step_approve]
      exact h.updateDevices fun _ => rfl
  | revoke deviceId => exact poolHeld_revoke h state deviceId
  | unregister deviceId => exact poolHeld_unregister h state deviceId
  | heartbeat deviceId now =>
      rw [step_heartbeat]
      exact h.updateDevices fun _ => rfl
  | purgeStale overflowChecks now timeoutSecs =>
      rcases step_purgeStale_cases state db overflowChecks now timeoutSecs with
        heq | ⟨cutoff, heq⟩
      · rw [heq]
        exact h
      · rw [heq]
        exact h.purged cutoff

theorem poolHeld_run {state : AppState} {requests : List Request}
    (hfresh : EachStep (step state) DrawsFresh Db.empty requests) :
    PoolHeld (run (step state) Db.empty requests) :=
  (run_invariant_of_eachStep (J := fun db => Sound db ∧ PoolHeld db)
    (fun db request hdraw h => ⟨sound_step state db request h.1,
      poolHeld_step state db request hdraw h.1 h.2⟩)
    ⟨sound_empty, poolHeld_empty⟩ hfresh).2

/-- The pool is no larger than the number of devices with an address. -/
theorem PoolHeld.used_le {db : Db} (h : PoolHeld db) (hsound : Sound db) : db.used ≤ db.held := by
  refine Table.count_le_count (f := IpPoolRow.ipv4) (g := DeviceRow.ipv4) (fun _ _ heq => heq) ?_
  intro p hp _
  obtain ⟨d, hd, hipv4⟩ := h p hp
  refine ⟨d, hd, ?_, hipv4⟩
  rw [hipv4]
  exact decide_eq_true (hsound.pool p hp).2.ne_empty

/-! ## Registering a new key -/

/-- While the pool is not used up, the next address is in the network. -/
theorem toNat_nextAddress {state : AppState} {db : Db}
    (hrange : state.ipBase.toNat + state.ipMaxOffset.toNat < 2 ^ 32)
    (hused : db.used ≤ state.ipMaxOffset.toNat) :
    (nextAddress state db).toU32.toNat = state.ipBase.toNat + db.used := by
  rw [nextAddress, Ipv4Addr.toU32_ofU32, UInt32.toNat_add, UInt32.toNat_ofNat']
  omega

/-- While the pool is not used up, a new key is admitted exactly when no device holds
    the next address. -/
theorem admitted_iff {state : AppState} {db : Db} (hsound : Sound db)
    (hrange : state.ipBase.toNat + state.ipMaxOffset.toNat < 2 ^ 32)
    (hused : db.used ≤ state.ipMaxOffset.toNat) {req : RegisterRequest} {deviceId : Uuid}
    {now : Int} (hnew : ∀ d ∈ db.devices, d.publicKey ≠ req.publicKey)
    (hfresh : ∀ d ∈ db.devices, d.deviceId ≠ deviceId) :
    Admitted state db req deviceId now ↔
      ∀ d ∈ db.devices, d.ipv4 ≠ (nextAddress state db).toString := by
  have hroom : ¬ state.ipMaxOffset < UInt32.ofNat db.used := by
    rw [UInt32.lt_iff_toNat_lt, UInt32.toNat_ofNat']
    have hmax := state.ipMaxOffset.toNat_lt
    omega
  rw [Admitted, serve_register_new state hsound req deviceId now hnew, if_neg hroom]
  cases hinsert : db.devices.insert? (newRow state db req deviceId now) with
  | none =>
      obtain ⟨d, hd, hipv4⟩ := (newRow_insert?_eq_none hnew hfresh).mp hinsert
      refine ⟨?_, ?_⟩
      · intro hadmitted
        obtain ⟨response, addr, hreply, -⟩ := hadmitted
        cases hreply
      · intro hfree
        exact absurd hipv4 (hfree d hd)
  | some devices =>
      have hfree : ∀ d ∈ db.devices, d.ipv4 ≠ (nextAddress state db).toString := by
        intro d hd hipv4
        rw [(newRow_insert?_eq_none hnew hfresh).mpr ⟨d, hd, hipv4⟩] at hinsert
        cases hinsert
      have hvalue := toNat_nextAddress hrange hused
      refine iff_of_true ⟨_, nextAddress state db, rfl, rfl, ?_, ?_, hfree⟩ hfree
      · omega
      · omega

/-- In every database that complete requests reach while fewer devices hold an address
    than the network has, a new key is admitted exactly when no device holds the address
    `base + COUNT(ip_pool)`. -/
theorem new_key_admitted_iff {state : AppState} {requests : List Request} {req : RegisterRequest}
    {deviceId : Uuid} {now : Int}
    (hrange : state.ipBase.toNat + state.ipMaxOffset.toNat < 2 ^ 32)
    (hfresh : EachStep (step state) DrawsFresh Db.empty
      (requests ++ [.register req deviceId now]))
    (hnew : ∀ d ∈ (run (step state) Db.empty requests).devices, d.publicKey ≠ req.publicKey)
    (hroom : (run (step state) Db.empty requests).held < state.ipMaxOffset.toNat + 1) :
    Admitted state (run (step state) Db.empty requests) req deviceId now ↔
      ∀ d ∈ (run (step state) Db.empty requests).devices,
        d.ipv4 ≠ (nextAddress state (run (step state) Db.empty requests)).toString := by
  obtain ⟨hbefore, hnow⟩ := hfresh.append_singleton
  have hsound := sound_run state requests
  have hused := (poolHeld_run hbefore).used_le hsound
  exact admitted_iff hsound hrange (by omega) hnew hnow

/-- The second device gets the second address. -/
theorem second_key_admitted :
    Admitted AppState.default (run (step AppState.default) Db.empty [registration 0 0 100])
      ⟨keyOf 1, "host"⟩ (idOf 1) 101 := by
  refine (new_key_admitted_iff (by decide) ?_ ?_ (by decide +kernel)).mpr ?_
  · refine (eachStep_cons _ _ _ _ _).mpr ⟨?_, (eachStep_cons _ _ _ _ _).mpr ⟨?_, eachStep_nil _ _ _⟩⟩
    · intro d hd
      exact absurd hd (Table.not_mem_empty d)
    · show ∀ d ∈ (run (step AppState.default) Db.empty [registration 0 0 100]).devices.rows,
        d.deviceId ≠ idOf 1
      decide +kernel
  · show ∀ d ∈ (run (step AppState.default) Db.empty [registration 0 0 100]).devices.rows,
      d.publicKey ≠ keyOf 1
    decide +kernel
  · show ∀ d ∈ (run (step AppState.default) Db.empty [registration 0 0 100]).devices.rows,
      d.ipv4 ≠ (nextAddress AppState.default _).toString
    decide +kernel

/-- Two devices register and the first one leaves: one address of 65536 is held, and the
    registration of a third device tries just that one. -/
theorem registration_fails_after_unregister :
    let db := run (step AppState.default) Db.empty
      [registration 0 0 100, registration 1 1 101, .unregister (idOf 0)]
    db.held = 1 ∧
      (∀ d ∈ db.devices, d.publicKey ≠ keyOf 2 ∧ d.deviceId ≠ idOf 2) ∧
      (serve AppState.default db (registration 2 2 102)).1 =
        .registered (.error .internalServerError) ∧
      ¬ Admitted AppState.default db ⟨keyOf 2, "host"⟩ (idOf 2) 102 := by
  intro db
  have hreply : (serve AppState.default db (registration 2 2 102)).1 =
      .registered (.error .internalServerError) := by
    decide +kernel
  refine ⟨by decide +kernel, ?_, hreply, ?_⟩
  · show ∀ d ∈ db.devices.rows, d.publicKey ≠ keyOf 2 ∧ d.deviceId ≠ idOf 2
    decide +kernel
  · intro hadmitted
    obtain ⟨response, addr, hreply', -⟩ := hadmitted
    cases hreply.symm.trans hreply'

end ConnectAlso.Control
