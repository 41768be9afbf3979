import ConnectAlso.Control.Requests

/-!
# Allocation statistics

`handle_allocations` reports as free what `ip_pool` has rows for and has not allocated.
Rows are created when they are allocated and deleted when they are freed, so no
reachable database has an unallocated row: `free` is always 0. Whether a registration
finds the pool exhausted is decided by the number of rows and `max_offset` alone.
-/

namespace ConnectAlso.Control
open Misc

/-- `i64::saturating_sub`. -/
def saturatingSub (a b : Int) : Int := max (-2 ^ 63) (min (2 ^ 63 - 1) (a - b))

/-- `pool_size`. -/
def Db.poolSize (db : Db) : Int := db.ipPool.count fun _ => true

/-- `allocated_count`. -/
def Db.allocatedCount (db : Db) : Int := db.ipPool.count fun p => p.allocated = 1

/-- `AllocationResponse`. -/
structure AllocationResponse where
  total : Int
  used : Int
  free : Int
  network : String
  deriving DecidableEq, Repr

/-- `handle_allocations`. -/
def handleAllocations (state : AppState) (db : Db) : AllocationResponse :=
  let total := db.poolSize
  let used := db.allocatedCount
  { total, used, free := saturatingSub total used, network := state.networkCidr }

/-- The statistics predict the registration of a new key: it is refused with 409 exactly
    when nothing is free, and what is used and what is free make up the network. -/
def PredictsRegistration (state : AppState) (db : Db) (req : RegisterRequest) (deviceId : Uuid)
    (now : Int) : Prop :=
  ((handleAllocations state db).free = 0 ↔
      (serve state db (.register req deviceId now)).1 = .registered (.error .conflict)) ∧
    (handleAllocations state db).used + (handleAllocations state db).free =
      state.ipMaxOffset.toNat + 1

/-- Every row of the pool is allocated, so all are used and none is free. -/
theorem handleAllocations_of_sound (state : AppState) {db : Db} (h : Sound db) :
    handleAllocations state db =
      { total := db.used, used := db.used, free := 0, network := state.networkCidr } := by
  have hall : db.allocatedCount = db.used := by
    refine congrArg Int.ofNat (List.countP_congr ?_)
    intro p hp
    simp [(h.pool p hp).1]
  have hsize : db.poolSize = db.used := rfl
  have hfree : saturatingSub (db.used : Int) db.used = 0 := by
    rw [saturatingSub, Int.sub_self]
    rfl
  simp only [handleAllocations, hall, hsize, hfree]

/-- A new key is refused with 409 exactly when the row count, cut to 32 bits, exceeds the
    largest offset. -/
theorem conflict_iff (state : AppState) {db : Db} (h : Sound db) (req : RegisterRequest)
    (deviceId : Uuid) (now : Int) (hnew : ∀ d ∈ db.devices, d.publicKey ≠ req.publicKey) :
    (serve state db (.register req deviceId now)).1 = .registered (.error .conflict) ↔
      state.ipMaxOffset < UInt32.ofNat db.used := by
  rw [serve_register_new state h req deviceId now hnew]
  by_cases hfull : state.ipMaxOffset < UInt32.ofNat db.used
  · rw [if_pos hfull]
    exact iff_of_true rfl hfull
  · rw [if_neg hfull]
    refine iff_of_false ?_ hfull
    cases db.devices.insert? (newRow state db req deviceId now) with
    | none => simp
    | some devices => simp

/-- In every reachable database, the statistics predict the registration of a new key
    exactly when the pool has a row for every address of the network, and these rows can
    be counted in 32 bits. -/
theorem predictsRegistration_iff {state : AppState} {db : Db} (hreach : Reachable state db)
    {req : RegisterRequest} {deviceId : Uuid} {now : Int}
    (hnew : ∀ d ∈ db.devices, d.publicKey ≠ req.publicKey) :
    PredictsRegistration state db req deviceId now ↔
      db.used = state.ipMaxOffset.toNat + 1 ∧ db.used < 2 ^ 32 := by
  rw [PredictsRegistration, handleAllocations_of_sound state hreach.sound,
    conflict_iff state hreach.sound req deviceId now hnew, UInt32.lt_iff_toNat_lt,
    UInt32.toNat_ofNat']
  have hmax := state.ipMaxOffset.toNat_lt
  refine ⟨?_, ?_⟩
  · rintro ⟨hconflict, hsum⟩
    have htotal : (db.used : Int) + 0 = state.ipMaxOffset.toNat + 1 := hsum
    have hfull := hconflict.mp rfl
    omega
  · rintro ⟨hused, hsmall⟩
    have htotal : (db.used : Int) + 0 = state.ipMaxOffset.toNat + 1 := by omega
    exact ⟨iff_of_true rfl (by omega), htotal⟩

/-- The network of a single address. -/
def AppState.single : AppState where
  ipBase := 0x64400001
  ipMaxOffset := 0
  networkCidr := "100.64.0.1/32"

/-- A network of one address, once a device has it. -/
theorem full_network_predicted :
    PredictsRegistration AppState.single
      (run (step AppState.single) Db.empty [registration 0 0 100]) ⟨keyOf 1, "host"⟩ (idOf 1)
      101 := by
  refine (predictsRegistration_iff (reachable_run AppState.single [registration 0 0 100]) ?_).mpr ?_
  · show ∀ d ∈ (run (step AppState.single) Db.empty [registration 0 0 100]).devices.rows,
      d.publicKey ≠ keyOf 1
    decide +kernel
  · decide +kernel

/-- With one of 65536 addresses in use, none is reported free, and a new key is
    admitted. -/
theorem nothing_free_but_admitted :
    let db := run (step AppState.default) Db.empty [registration 0 0 100]
    Reachable AppState.default db ∧ (∀ d ∈ db.devices, d.publicKey ≠ keyOf 1) ∧
      (handleAllocations AppState.default db).free = 0 ∧
      ¬ PredictsRegistration AppState.default db ⟨keyOf 1, "host"⟩ (idOf 1) 101 := by
  intro db
  have hfree : (handleAllocations AppState.default db).free = 0 := by
    decide +kernel
  refine ⟨reachable_run AppState.default [registration 0 0 100], ?_, hfree, ?_⟩
  · show ∀ d ∈ db.devices.rows, d.publicKey ≠ keyOf 1
    decide +kernel
  · intro hpredicts
    have hrefused := hpredicts.1.mp hfree
    revert hrefused
    decide +kernel

end ConnectAlso.Control
