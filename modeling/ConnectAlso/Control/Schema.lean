import Mathlib.Data.List.Sort
import ConnectAlso.Misc.Aead
import ConnectAlso.Misc.Checked
import ConnectAlso.Misc.Program
import ConnectAlso.Misc.Table
import ConnectAlso.Net.Address

/-!
# Tables and statements of the control service

The two tables of `services/control/src/db.rs` that hold devices and addresses, and
every SQL statement that the modelled functions issue on them. A statement is one
atomic operation; the functions of `db.rs` are programs over statements. SQLite
enforces `PRIMARY KEY` and `UNIQUE`: a statement that would break one fails and
changes nothing. No statement fails for another reason.
-/

namespace ConnectAlso.Control
open Misc

/-- `DeviceStatus`. -/
inductive DeviceStatus where
  | pending
  | approved
  | revoked
  deriving DecidableEq, Repr

namespace DeviceStatus

/-- `status as i32`. -/
def asI32 : DeviceStatus → Int
  | pending => 0
  | approved => 1
  | revoked => -1

/-- `DeviceStatus::from_i32`. -/
def fromI32 (v : Int) : DeviceStatus :=
  if v = 1 then approved
  else if v = -1 then revoked
  else pending

end DeviceStatus

/-- `DeviceRecord`. -/
structure DeviceRecord where
  deviceId : Uuid
  publicKey : Octets 32
  hostname : String
  ipv4 : Ipv4Addr
  status : DeviceStatus
  createdAt : Int
  lastSeen : Int
  deriving DecidableEq

/-- A row of `devices`. The text form of a UUID is not modelled: the id column holds
    the UUID itself. -/
structure DeviceRow where
  deviceId : Uuid
  publicKey : Octets 32
  hostname : String
  ipv4 : String
  status : Int
  createdAt : Int
  lastSeen : Int
  deriving DecidableEq

/-- `impl From<DeviceRow> for DeviceRecord`. -/
def DeviceRow.toRecord (r : DeviceRow) : DeviceRecord where
  deviceId := r.deviceId
  publicKey := r.publicKey
  hostname := r.hostname
  ipv4 := (Ipv4Addr.parse r.ipv4).getD Ipv4Addr.unspecified
  status := DeviceStatus.fromI32 r.status
  createdAt := r.createdAt
  lastSeen := r.lastSeen

/-- The values that `insert_device` binds. -/
def DeviceRecord.toRow (dev : DeviceRecord) : DeviceRow where
  deviceId := dev.deviceId
  publicKey := dev.publicKey
  hostname := dev.hostname
  ipv4 := dev.ipv4.toString
  status := dev.status.asI32
  createdAt := dev.createdAt
  lastSeen := dev.lastSeen

/-- A row of `ip_pool`. -/
structure IpPoolRow where
  ipv4 : String
  allocated : Int
  deriving DecidableEq, Repr

/-- `device_id PRIMARY KEY`, `public_key UNIQUE`, `ipv4 UNIQUE`. -/
def deviceKeys : Constraint DeviceRow where
  clash a b := a.deviceId = b.deviceId ∨ a.publicKey = b.publicKey ∨ a.ipv4 = b.ipv4
  decidable := fun _ _ => inferInstance
  refl _ := Or.inl rfl
  symm _ _ h := h.imp Eq.symm (Or.imp Eq.symm Eq.symm)

/-- `ipv4 PRIMARY KEY`. -/
def poolKeys : Constraint IpPoolRow where
  clash a b := a.ipv4 = b.ipv4
  decidable := fun _ _ => inferInstance
  refl _ := rfl
  symm _ _ := Eq.symm

/-- The database, as far as devices and addresses go. -/
structure Db where
  devices : Table deviceKeys
  ipPool : Table poolKeys

/-- The tables as `init_db` creates them. -/
def Db.empty : Db := { devices := Table.empty _, ipPool := Table.empty _ }

/-! ## Statements -/

/-- The error of a statement that would break a constraint. -/
inductive DbError where
  | constraint
  deriving DecidableEq, Repr

/-- The SQL statements of `db.rs` and `main.rs`, with their bound parameters. -/
inductive Statement where
  /-- `SELECT … FROM devices WHERE public_key = ?` -/
  | selectByPublicKey (publicKey : Octets 32)
  /-- `INSERT INTO devices (…) VALUES (…)` -/
  | insertDevice (row : DeviceRow)
  /-- `UPDATE devices SET last_seen = ? WHERE device_id = ?` -/
  | updateLastSeen (now : Int) (deviceId : Uuid)
  /-- `UPDATE devices SET status = 1 WHERE device_id = ? AND status = 0` -/
  | approvePending (deviceId : Uuid)
  /-- `DELETE FROM ip_pool WHERE ipv4 = (SELECT ipv4 FROM devices WHERE device_id = ?)` -/
  | freeIpOf (deviceId : Uuid)
  /-- `UPDATE devices SET status = -1, ipv4 = '' WHERE device_id = ? AND status = 1` -/
  | revokeApproved (deviceId : Uuid)
  /-- `DELETE FROM devices WHERE device_id = ?` -/
  | deleteDevice (deviceId : Uuid)
  /-- `DELETE FROM ip_pool WHERE ipv4 IN (SELECT ipv4 FROM devices WHERE last_seen < ?)` -/
  | freeIpsOfStale (cutoff : Int)
  /-- `DELETE FROM devices WHERE last_seen < ? AND status != 1` -/
  | deleteStale (cutoff : Int)
  /-- `SELECT ipv4, allocated FROM ip_pool WHERE allocated = 0 ORDER BY ipv4 LIMIT 1` -/
  | selectFreeIp
  /-- `UPDATE ip_pool SET allocated = 1 WHERE ipv4 = ?` -/
  | markAllocated (ipv4 : String)
  /-- `SELECT COUNT(*) FROM ip_pool` -/
  | countIpPool
  /-- `INSERT INTO ip_pool (ipv4, allocated) VALUES (?, 1)` -/
  | insertIpPool (ipv4 : String)
  /-- `SELECT COUNT(*) FROM devices` -/
  | countDevices

/-- What a statement answers: rows for a `SELECT`, otherwise the number of affected
    rows or an error. -/
@[reducible] def Statement.Answer : Statement → Type
  | selectByPublicKey _ => Option DeviceRow
  | selectFreeIp => Option IpPoolRow
  | countIpPool => Nat
  | countDevices => Nat
  | insertDevice _ => Except DbError Nat
  | updateLastSeen _ _ => Except DbError Nat
  | approvePending _ => Except DbError Nat
  | freeIpOf _ => Except DbError Nat
  | revokeApproved _ => Except DbError Nat
  | deleteDevice _ => Except DbError Nat
  | freeIpsOfStale _ => Except DbError Nat
  | deleteStale _ => Except DbError Nat
  | markAllocated _ => Except DbError Nat
  | insertIpPool _ => Except DbError Nat

/-- The statements as operations of a program. -/
abbrev statements : Signature := { Op := Statement, Answer := Statement.Answer }

/-- A function of the service: a program over statements. -/
abbrev Sql (α : Type) := Program statements α

/-- Execute one statement. -/
abbrev execute (statement : Statement) : Sql statement.Answer :=
  @Program.perform statements statement

/-- `INSERT INTO devices`. -/
def Db.insertDevice (db : Db) (row : DeviceRow) : Except DbError Nat × Db :=
  match db.devices.insert? row with
  | none => (.error .constraint, db)
  | some devices => (.ok 1, { db with devices })

/-- `UPDATE devices SET f WHERE p`. -/
def Db.updateDevices (db : Db) (p : DeviceRow → Bool) (f : DeviceRow → DeviceRow) :
    Except DbError Nat × Db :=
  match db.devices.update? p f with
  | none => (.error .constraint, db)
  | some devices => (.ok (db.devices.count p), { db with devices })

/-- `DELETE FROM devices WHERE p`. -/
def Db.deleteDevices (db : Db) (p : DeviceRow → Bool) : Except DbError Nat × Db :=
  (.ok (db.devices.count p), { db with devices := db.devices.delete p })

/-- `INSERT INTO ip_pool`. -/
def Db.insertIp (db : Db) (row : IpPoolRow) : Except DbError Nat × Db :=
  match db.ipPool.insert? row with
  | none => (.error .constraint, db)
  | some ipPool => (.ok 1, { db with ipPool })

/-- `UPDATE ip_pool SET f WHERE p`. -/
def Db.updateIps (db : Db) (p : IpPoolRow → Bool) (f : IpPoolRow → IpPoolRow) :
    Except DbError Nat × Db :=
  match db.ipPool.update? p f with
  | none => (.error .constraint, db)
  | some ipPool => (.ok (db.ipPool.count p), { db with ipPool })

/-- `DELETE FROM ip_pool WHERE p`. -/
def Db.deleteIps (db : Db) (p : IpPoolRow → Bool) : Except DbError Nat × Db :=
  (.ok (db.ipPool.count p), { db with ipPool := db.ipPool.delete p })

/-- What each statement answers and does. -/
def handle : Handler statements Db
  | .selectByPublicKey publicKey, db =>
    ((db.devices.select fun d => d.publicKey = publicKey).head?, db)
  | .insertDevice row, db => db.insertDevice row
  | .updateLastSeen now deviceId, db =>
    db.updateDevices (fun d => d.deviceId = deviceId) fun d => { d with lastSeen := now }
  | .approvePending deviceId, db =>
    db.updateDevices (fun d => d.deviceId = deviceId ∧ d.status = 0) fun d => { d with status := 1 }
  | .freeIpOf deviceId, db =>
    -- the scalar subquery is NULL, which equals nothing, when there is no such device
    db.deleteIps fun p => (db.devices.select fun d => d.deviceId = deviceId).head?.any fun device =>
      p.ipv4 = device.ipv4
  | .revokeApproved deviceId, db =>
    db.updateDevices (fun d => d.deviceId = deviceId ∧ d.status = 1)
      fun d => { d with status := -1, ipv4 := "" }
  | .deleteDevice deviceId, db => db.deleteDevices fun d => d.deviceId = deviceId
  | .freeIpsOfStale cutoff, db =>
    db.deleteIps fun p => (db.devices.select fun d => d.lastSeen < cutoff).any fun d =>
      p.ipv4 = d.ipv4
  | .deleteStale cutoff, db => db.deleteDevices fun d => d.lastSeen < cutoff ∧ d.status ≠ 1
  | .selectFreeIp, db =>
    (((db.ipPool.select fun p => p.allocated = 0).insertionSort
      fun a b => a.ipv4 ≤ b.ipv4).head?, db)
  | .markAllocated ipv4, db => db.updateIps (fun p => p.ipv4 = ipv4) fun p => { p with allocated := 1 }
  | .countIpPool, db => (db.ipPool.count fun _ => true, db)
  | .insertIpPool ipv4, db => db.insertIp { ipv4, allocated := 1 }
  | .countDevices, db => (db.devices.count fun _ => true, db)

/-! ## Each table on its own -/

namespace Db
variable {db : Db}

@[simp] theorem insertDevice_ipPool (db : Db) (row : DeviceRow) :
    (db.insertDevice row).2.ipPool = db.ipPool := by
  unfold insertDevice
  cases db.devices.insert? row <;> rfl

@[simp] theorem updateDevices_ipPool (db : Db) (p : DeviceRow → Bool) (f : DeviceRow → DeviceRow) :
    (db.updateDevices p f).2.ipPool = db.ipPool := by
  unfold updateDevices
  cases db.devices.update? p f <;> rfl

@[simp] theorem deleteDevices_ipPool (db : Db) (p : DeviceRow → Bool) :
    (db.deleteDevices p).2.ipPool = db.ipPool := rfl

@[simp] theorem insertIp_devices (db : Db) (row : IpPoolRow) :
    (db.insertIp row).2.devices = db.devices := by
  unfold insertIp
  cases db.ipPool.insert? row <;> rfl

@[simp] theorem updateIps_devices (db : Db) (p : IpPoolRow → Bool) (f : IpPoolRow → IpPoolRow) :
    (db.updateIps p f).2.devices = db.devices := by
  unfold updateIps
  cases db.ipPool.update? p f <;> rfl

@[simp] theorem deleteIps_devices (db : Db) (p : IpPoolRow → Bool) :
    (db.deleteIps p).2.devices = db.devices := rfl

theorem mem_insertDevice {row r : DeviceRow} (h : r ∈ (db.insertDevice row).2.devices) :
    r ∈ db.devices ∨ r = row := by
  unfold insertDevice at h
  cases hinsert : db.devices.insert? row with
  | none =>
      rw [hinsert] at h
      exact Or.inl h
  | some devices =>
      rw [hinsert] at h
      exact (Table.mem_of_insert? hinsert).mp h

theorem mem_updateDevices {p : DeviceRow → Bool} {f : DeviceRow → DeviceRow} {r : DeviceRow}
    (h : r ∈ (db.updateDevices p f).2.devices) :
    r ∈ db.devices ∨ ∃ d ∈ db.devices, p d = true ∧ r = f d := by
  unfold updateDevices at h
  cases hupdate : db.devices.update? p f with
  | none =>
      rw [hupdate] at h
      exact Or.inl h
  | some devices =>
      rw [hupdate] at h
      obtain ⟨d, hd, heq⟩ := (Table.mem_of_update? hupdate).mp h
      by_cases hp : p d = true
      · rw [if_pos hp] at heq
        exact Or.inr ⟨d, hd, hp, heq.symm⟩
      · rw [if_neg hp] at heq
        exact Or.inl (heq ▸ hd)

/-- After an insertion, successful or not, the pool has the row or one with its address. -/
theorem mem_insertIp {row p : IpPoolRow} :
    p ∈ (db.insertIp row).2.ipPool ↔
      p ∈ db.ipPool ∨ p = row ∧ ∀ q ∈ db.ipPool, q.ipv4 ≠ row.ipv4 := by
  unfold insertIp
  cases hinsert : db.ipPool.insert? row with
  | none =>
      obtain ⟨q, hq, hclash⟩ := Table.insert?_eq_none.mp hinsert
      refine ⟨?_, ?_⟩
      · exact Or.inl
      · intro h
        rcases h with hold | ⟨-, hfree⟩
        · exact hold
        · exact absurd hclash (hfree q hq)
  | some ipPool =>
      have hfree := (Table.insert?_eq_some.mp hinsert).1
      rw [Table.mem_of_insert? hinsert]
      exact or_congr Iff.rfl ⟨fun h => ⟨h, hfree⟩, fun h => h.1⟩

theorem mem_updateIps {p : IpPoolRow → Bool} {f : IpPoolRow → IpPoolRow} {r : IpPoolRow}
    (h : r ∈ (db.updateIps p f).2.ipPool) : r ∈ db.ipPool ∨ ∃ q ∈ db.ipPool, r = f q := by
  unfold updateIps at h
  cases hupdate : db.ipPool.update? p f with
  | none =>
      rw [hupdate] at h
      exact Or.inl h
  | some ipPool =>
      rw [hupdate] at h
      obtain ⟨q, hq, heq⟩ := (Table.mem_of_update? hupdate).mp h
      by_cases hp : p q = true
      · rw [if_pos hp] at heq
        exact Or.inr ⟨q, hq, heq.symm⟩
      · rw [if_neg hp] at heq
        exact Or.inl (heq ▸ hq)

end Db

end ConnectAlso.Control
