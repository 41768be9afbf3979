import ConnectAlso.Control.Schema

/-!
# The control service

The functions of `services/control/src/db.rs` and the handlers of
`services/control/src/main.rs` that read or change devices and addresses. Each is a
program over SQL statements; nothing makes several statements one transaction. The
clock reading (`unix_now`) and the UUID that a registration draws are arguments.
-/

namespace ConnectAlso.Control
open Misc Program

/-! ## Store functions (`db.rs`) -/

/-- `find_by_public_key`. -/
def findByPublicKey (publicKey : Octets 32) : Sql (Option DeviceRecord) := do
  let row : Option DeviceRow ← execute (.selectByPublicKey publicKey)
  return row.map DeviceRow.toRecord

/-- `insert_device`. -/
def insertDevice (dev : DeviceRecord) : Sql (Except DbError Unit) := do
  let rows : Except DbError Nat ← execute (.insertDevice dev.toRow)
  return rows.map fun _ => ()

/-- `rows.rows_affected() > 0`. -/
def affected (rows : Except DbError Nat) : Except DbError Bool := rows.map fun n => decide (0 < n)

/-- `heartbeat`. -/
def heartbeat (now : Int) (deviceId : Uuid) : Sql (Except DbError Bool) := do
  let rows : Except DbError Nat ← execute (.updateLastSeen now deviceId)
  return affected rows

/-- `approve_device`. -/
def approveDevice (deviceId : Uuid) : Sql (Except DbError Bool) := do
  let rows : Except DbError Nat ← execute (.approvePending deviceId)
  return affected rows

/-- `revoke_device`. -/
def revokeDevice (deviceId : Uuid) : Sql (Except DbError Bool) := do
  match (← execute (.freeIpOf deviceId) : Except DbError Nat) with
  | .error e => return .error e
  | .ok _ =>
    let rows : Except DbError Nat ← execute (.revokeApproved deviceId)
    return affected rows

/-- `delete_device`. -/
def deleteDevice (deviceId : Uuid) : Sql (Except DbError Bool) := do
  match (← execute (.freeIpOf deviceId) : Except DbError Nat) with
  | .error e => return .error e
  | .ok _ =>
    let rows : Except DbError Nat ← execute (.deleteDevice deviceId)
    return affected rows

/-- `purge_stale`: the number of purged devices. The cutoff is a difference of `i64`; when
    it panics, no statement is executed. -/
def purgeStale (overflowChecks : Bool) (now timeoutSecs : Int64) :
    Sql (Checked (Except DbError Nat)) :=
  match subI64 overflowChecks now timeoutSecs with
  | .error panic => return .error panic
  | .ok cutoff => do
    match (← execute (.freeIpsOfStale cutoff.toInt) : Except DbError Nat) with
    | .error e => return .ok (.error e)
    | .ok _ =>
      let rows : Except DbError Nat ← execute (.deleteStale cutoff.toInt)
      return .ok rows

/-- `allocate_ip`. Errors of the writing statements are ignored (`.ok()`), and the
    count is cut to 32 bits (`used as u32`). -/
def allocateIp (base maxOffset : UInt32) : Sql (Option Ipv4Addr) := do
  let row : Option IpPoolRow ← execute .selectFreeIp
  match row with
  | some r =>
    let _ : Except DbError Nat ← execute (.markAllocated r.ipv4)
    return Ipv4Addr.parse r.ipv4
  | none =>
    let used : Nat ← execute .countIpPool
    if maxOffset < UInt32.ofNat used then return none
    else
      let ip := Ipv4Addr.ofU32 (base + UInt32.ofNat used)
      let _ : Except DbError Nat ← execute (.insertIpPool ip.toString)
      return some ip

/-- `list_approved`. -/
def Db.listApproved (db : Db) : List DeviceRecord :=
  ((db.devices.select fun d => d.status = 1).insertionSort
    fun a b => a.createdAt ≤ b.createdAt).map DeviceRow.toRecord

/-- `list_dns_records`. -/
def Db.listDnsRecords (db : Db) : List (String × String) :=
  (db.devices.select fun d => d.status = 1 ∧ d.hostname ≠ "" ∧ d.ipv4 ≠ "").map fun d =>
    (d.hostname, d.ipv4)

/-! ## Handlers (`main.rs`) -/

/-- The configuration in `AppState`. -/
structure AppState where
  ipBase : UInt32
  ipMaxOffset : UInt32
  networkCidr : String

/-- The error statuses that `handle_register` returns. -/
inductive StatusCode where
  | conflict
  | internalServerError
  deriving DecidableEq, Repr

/-- `RegisterRequest`. -/
structure RegisterRequest where
  publicKey : Octets 32
  hostname : String
  deriving DecidableEq

/-- `RegisterResponse`. -/
structure RegisterResponse where
  deviceId : Uuid
  ipv4 : String
  network : String
  status : String
  deriving DecidableEq, Repr

/-- The status texts of responses. -/
def DeviceStatus.text : DeviceStatus → String
  | approved => "approved"
  | pending => "pending"
  | revoked => "revoked"

/-- `is_first_device`. -/
def isFirstDevice : Sql Bool := do
  let count : Nat ← execute .countDevices
  return count = 0

/-- `handle_register`; a fresh UUID and the time are used when the key is new. -/
def handleRegister (state : AppState) (req : RegisterRequest) (deviceId : Uuid) (now : Int) :
    Sql (Except StatusCode RegisterResponse) := do
  match ← findByPublicKey req.publicKey with
  | some existing =>
    return .ok {
      deviceId := existing.deviceId, ipv4 := existing.ipv4.toString,
      network := state.networkCidr, status := existing.status.text }
  | none =>
    match ← allocateIp state.ipBase state.ipMaxOffset with
    | none => return .error .conflict
    | some ip =>
      let status := if ← isFirstDevice then DeviceStatus.approved else .pending
      let record : DeviceRecord := {
        deviceId, publicKey := req.publicKey, hostname := req.hostname, ipv4 := ip, status,
        createdAt := now, lastSeen := now }
      match ← insertDevice record with
      | .error _ => return .error .internalServerError
      | .ok () => return .ok {
          deviceId, ipv4 := ip.toString, network := state.networkCidr, status := status.text }

/-- `….await.unwrap_or(false)`. -/
def unwrapOrFalse (result : Except DbError Bool) : Bool :=
  match result with
  | .ok b => b
  | .error _ => false

/-! ## Registration, statement by statement -/

theorem allocateIp_eq (base maxOffset : UInt32) :
    allocateIp base maxOffset = .call .selectFreeIp fun (row : Option IpPoolRow) =>
      match row with
      | some r => .call (.markAllocated r.ipv4) fun _ => .done (Ipv4Addr.parse r.ipv4)
      | none => .call .countIpPool fun (used : Nat) =>
        if maxOffset < UInt32.ofNat used then .done none
        else
          .call (.insertIpPool (Ipv4Addr.ofU32 (base + UInt32.ofNat used)).toString) fun _ =>
            .done (some (Ipv4Addr.ofU32 (base + UInt32.ofNat used))) := by
  refine congrArg (Program.call (S := statements) Statement.selectFreeIp) (funext fun row => ?_)
  cases row with
  | some r => rfl
  | none =>
      refine congrArg (Program.call (S := statements) Statement.countIpPool) (funext fun used => ?_)
      by_cases hfull : maxOffset < UInt32.ofNat used
      · rw [if_pos hfull]
        exact if_pos hfull
      · rw [if_neg hfull]
        exact if_neg hfull

/-- The status of a new device when `count` devices are registered. -/
def initialStatus (count : Nat) : DeviceStatus :=
  if decide (count = 0) then .approved else .pending

theorem asI32_initialStatus (count : Nat) :
    (initialStatus count).asI32 = if count = 0 then 1 else 0 := by
  by_cases hfirst : count = 0
  · simp [initialStatus, hfirst, DeviceStatus.asI32]
  · simp [initialStatus, hfirst, DeviceStatus.asI32]

/-- The record that a registration inserts. -/
def newRecord (req : RegisterRequest) (deviceId : Uuid) (now : Int) (ip : Ipv4Addr)
    (status : DeviceStatus) : DeviceRecord where
  deviceId
  publicKey := req.publicKey
  hostname := req.hostname
  ipv4 := ip
  status
  createdAt := now
  lastSeen := now

/-- The rest of `handle_register` once it has an address. -/
def registerAt (state : AppState) (req : RegisterRequest) (deviceId : Uuid) (now : Int)
    (ip : Ipv4Addr) : Sql (Except StatusCode RegisterResponse) :=
  .call .countDevices fun (count : Nat) =>
    .call (.insertDevice (newRecord req deviceId now ip (initialStatus count)).toRow)
      fun (rows : Except DbError Nat) =>
        match rows with
        | .error _ => .done (.error .internalServerError)
        | .ok _ => .done (.ok {
            deviceId, ipv4 := ip.toString, network := state.networkCidr,
            status := (initialStatus count).text })

theorem handleRegister_eq (state : AppState) (req : RegisterRequest) (deviceId : Uuid)
    (now : Int) :
    handleRegister state req deviceId now =
      .call (.selectByPublicKey req.publicKey) fun (row : Option DeviceRow) =>
        match row with
        | some existing => .done (.ok {
            deviceId := existing.deviceId, ipv4 := existing.toRecord.ipv4.toString,
            network := state.networkCidr, status := existing.toRecord.status.text })
        | none => allocateIp state.ipBase state.ipMaxOffset >>= fun allocated =>
          match allocated with
          | none => .done (.error .conflict)
          | some ip => registerAt state req deviceId now ip := by
  refine congrArg (call (S := statements) (Statement.selectByPublicKey _)) (funext fun row => ?_)
  cases row with
  | some existing => rfl
  | none =>
      refine congrArg (allocateIp state.ipBase state.ipMaxOffset >>= ·) (funext fun allocated => ?_)
      cases allocated with
      | none => rfl
      | some ip =>
          refine congrArg (call (S := statements) Statement.countDevices) (funext fun count => ?_)
          refine congrArg (call (S := statements) (Statement.insertDevice _)) (funext fun rows => ?_)
          cases rows with
          | error e => rfl
          | ok n => rfl

/-! ## Requests -/

/-- A request to the service, or a tick of its purger, with the clock reading and the
    UUID drawn where one is. A tick also tells how its binary was built. -/
inductive Request where
  | register (req : RegisterRequest) (deviceId : Uuid) (now : Int)
  | approve (deviceId : Uuid)
  | revoke (deviceId : Uuid)
  | unregister (deviceId : Uuid)
  | heartbeat (deviceId : Uuid) (now : Int)
  | purgeStale (overflowChecks : Bool) (now timeoutSecs : Int64)

/-- What a request returns. -/
inductive Reply where
  | registered (result : Except StatusCode RegisterResponse)
  | approved (approved : Bool)
  | revoked (revoked : Bool)
  | deleted (deleted : Bool)
  | alive (ok : Bool)
  | purged (result : Checked (Except DbError Nat))
  deriving DecidableEq

/-- The program of a request: `handle_register`, `handle_approve`, `handle_revoke`,
    `handle_unregister`, `handle_heartbeat` and the purger. -/
def Request.program (state : AppState) : Request → Sql Reply
  | register req deviceId now => do
    return .registered (← handleRegister state req deviceId now)
  | approve deviceId => do return .approved (unwrapOrFalse (← approveDevice deviceId))
  | revoke deviceId => do return .revoked (unwrapOrFalse (← revokeDevice deviceId))
  | unregister deviceId => do return .deleted (unwrapOrFalse (← deleteDevice deviceId))
  | heartbeat deviceId now => do return .alive (unwrapOrFalse (← Control.heartbeat now deviceId))
  | purgeStale overflowChecks now timeoutSecs => do
    return .purged (← Control.purgeStale overflowChecks now timeoutSecs)

/-- The two deletions of a purge, as a program. -/
def purgeAt (cutoff : Int) : Sql Reply :=
  .call (.freeIpsOfStale cutoff) fun (freed : Except DbError Nat) =>
    match freed with
    | .error e => .done (.purged (.ok (.error e)))
    | .ok _ => .call (.deleteStale cutoff) fun rows => .done (.purged (.ok rows))

/-- A purge panics before its first statement, or it deletes what is below its cutoff. -/
theorem program_purgeStale_cases (state : AppState) (overflowChecks : Bool)
    (now timeoutSecs : Int64) :
    (overflowChecks = true ∧ ¬ FitsI64 (now.toInt - timeoutSecs.toInt) ∧
      (Request.purgeStale overflowChecks now timeoutSecs).program state =
        .done (.purged (.error .arithmeticOverflow))) ∨
    (overflowChecks = false ∨ FitsI64 (now.toInt - timeoutSecs.toInt)) ∧
      (Request.purgeStale overflowChecks now timeoutSecs).program state =
        purgeAt (wrapI64 (now.toInt - timeoutSecs.toInt)) := by
  rcases subI64_cases overflowChecks now timeoutSecs with
    ⟨hchecks, hfits, hsub⟩ | ⟨hreturns, cutoff, hcutoff, hsub⟩
  · refine Or.inl ⟨hchecks, hfits, ?_⟩
    simp only [Request.program, purgeStale, hsub]
    rfl
  · refine Or.inr ⟨hreturns, ?_⟩
    rw [← hcutoff]
    simp only [Request.program, purgeStale, hsub]
    refine congrArg (call (S := statements) (Statement.freeIpsOfStale _)) (funext fun freed => ?_)
    cases freed with
    | error e => rfl
    | ok n => rfl

/-- A complete request, with no other statement in between: the reply and the database
    it leaves. -/
def serve (state : AppState) (db : Db) (request : Request) : Reply × Db :=
  exec handle (request.program state) db

/-- The database after a request. -/
def step (state : AppState) (db : Db) (request : Request) : Db := (serve state db request).2

/-! ### A network for concrete runs -/

/-- The network 100.64.0.0/16. -/
def AppState.default : AppState where
  ipBase := 0x64400000
  ipMaxOffset := 0xffff
  networkCidr := "100.64.0.0/16"

/-- The key that repeats a byte. -/
def keyOf (n : UInt8) : Octets 32 := Octets.replicate 32 n

/-- The UUID that does. -/
def idOf (n : UInt8) : Uuid := ⟨List.replicate 16 n, List.length_replicate⟩

/-- The registration of key `key` at time `now` under a fresh id. -/
def registration (key id : UInt8) (now : Int) : Request :=
  .register ⟨keyOf key, "host"⟩ (idOf id) now

end ConnectAlso.Control
