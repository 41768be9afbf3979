import ConnectAlso.Control.Allocations
import ConnectAlso.Control.Leases
import ConnectAlso.Control.Revocation

/-!
# The lists of the control service

The handlers that only read: `handle_peers`, `handle_admin_peers`, `handle_pending` and
`handle_dns_records`, with `list_all`, `list_pending` and `find_by_id`. The lists are read by
different programs (daemons and phones, the administrator, the resolver), so what counts
is that they agree. In every state of the service the administrator sees each device once,
the peers and the pending devices are those that it shows as such, and the peers' addresses
are proper and distinct.
-/

namespace ConnectAlso.Control
open Misc Program

/-- `list_all`. -/
def Db.listAll (db : Db) : List DeviceRecord :=
  (db.devices.rows.insertionSort fun a b => a.createdAt ≤ b.createdAt).map DeviceRow.toRecord

/-- `list_pending`. -/
def Db.listPending (db : Db) : List DeviceRecord :=
  ((db.devices.select fun d => d.status = 0).insertionSort
    fun a b => a.createdAt ≤ b.createdAt).map DeviceRow.toRecord

/-- `find_by_id`. -/
def Db.findById (db : Db) (deviceId : Uuid) : Option DeviceRecord :=
  (db.devices.select fun d => d.deviceId = deviceId).head?.map DeviceRow.toRecord

/-- `PeerInfo`. -/
structure PeerInfo where
  deviceId : Uuid
  ipv4 : String
  publicKey : Octets 32
  hostname : String
  lastSeenSecs : Int
  deriving DecidableEq

/-- `AdminPeerInfo`. -/
structure AdminPeerInfo where
  deviceId : Uuid
  ipv4 : String
  hostname : String
  status : String
  lastSeenSecs : Int
  deriving DecidableEq

/-- An entry of the answer of `handle_pending`. -/
structure PendingInfo where
  deviceId : Uuid
  hostname : String
  ipv4 : String
  createdAt : Int
  deriving DecidableEq

/-- The entry of `handle_peers` for a device. -/
def DeviceRecord.peerInfo (now : Int) (d : DeviceRecord) : PeerInfo where
  deviceId := d.deviceId
  ipv4 := d.ipv4.toString
  publicKey := d.publicKey
  hostname := d.hostname
  lastSeenSecs := saturatingSub now d.lastSeen

/-- The entry of `handle_admin_peers` for a device. -/
def DeviceRecord.adminPeerInfo (now : Int) (d : DeviceRecord) : AdminPeerInfo where
  deviceId := d.deviceId
  ipv4 := d.ipv4.toString
  hostname := d.hostname
  status := d.status.text
  lastSeenSecs := saturatingSub now d.lastSeen

/-- The entry of `handle_pending` for a device. -/
def DeviceRecord.pendingInfo (d : DeviceRecord) : PendingInfo where
  deviceId := d.deviceId
  hostname := d.hostname
  ipv4 := d.ipv4.toString
  createdAt := d.createdAt

/-- `handle_peers` at the time `now`. -/
def handlePeers (now : Int) (db : Db) : List PeerInfo :=
  db.listApproved.map (DeviceRecord.peerInfo now)

/-- `handle_admin_peers` at the time `now`. -/
def handleAdminPeers (now : Int) (db : Db) : List AdminPeerInfo :=
  db.listAll.map (DeviceRecord.adminPeerInfo now)

/-- `handle_pending`. -/
def handlePending (db : Db) : List PendingInfo := db.listPending.map DeviceRecord.pendingInfo

/-- `handle_dns_records`. -/
def handleDnsRecords (db : Db) : List (String × String) := db.listDnsRecords

/-! ## What is listed -/

theorem listAll_perm (db : Db) : db.listAll.Perm (db.devices.rows.map DeviceRow.toRecord) :=
  (List.perm_insertionSort _ _).map _

theorem listApproved_perm (db : Db) :
    db.listApproved.Perm ((db.devices.rows.filter fun d => d.status = 1).map DeviceRow.toRecord) :=
  (List.perm_insertionSort _ _).map _

theorem listPending_perm (db : Db) :
    db.listPending.Perm ((db.devices.rows.filter fun d => d.status = 0).map DeviceRow.toRecord) :=
  (List.perm_insertionSort _ _).map _

theorem fromI32_eq_approved {v : Int} : DeviceStatus.fromI32 v = .approved ↔ v = 1 := by
  unfold DeviceStatus.fromI32
  split
  · simpa
  · split <;> simp [*]

theorem fromI32_eq_revoked {v : Int} : DeviceStatus.fromI32 v = .revoked ↔ v = -1 := by
  unfold DeviceStatus.fromI32
  split
  · simp [*]
  · split <;> simp [*]

theorem DeviceRow.Sound.pending_iff {d : DeviceRow} (h : d.Sound) :
    DeviceStatus.fromI32 d.status = .pending ↔ d.status = 0 := by
  rcases h with ⟨hstatus, -⟩ | ⟨hstatus | hstatus, -⟩ <;> simp [hstatus, DeviceStatus.fromI32]

/-- Of the records of all devices, those of a status are the records of the rows that have
    its number. -/
theorem filter_status_perm {db : Db} {status : DeviceStatus} {v : Int}
    (h : ∀ d ∈ db.devices, DeviceStatus.fromI32 d.status = status ↔ d.status = v) :
    (db.listAll.filter fun d => d.status = status).Perm
      ((db.devices.rows.filter fun d => d.status = v).map DeviceRow.toRecord) := by
  have hperm := (listAll_perm db).filter fun d => d.status = status
  have hrows : (db.devices.rows.filter fun d => d.toRecord.status = status) =
      db.devices.rows.filter fun d => d.status = v := by
    apply List.filter_congr
    intro d hd
    exact decide_eq_decide.mpr (h d hd)
  rw [List.filter_map] at hperm
  rw [← hrows]
  exact hperm

theorem nodup_deviceId (db : Db) : (db.devices.rows.map DeviceRow.deviceId).Nodup := by
  rw [List.nodup_iff_pairwise_ne, List.pairwise_map]
  exact db.devices.unique.imp fun hclash heq => hclash (Or.inl heq)

theorem text_inj {a b : DeviceStatus} (h : a.text = b.text) : a = b := by
  revert h
  cases a <;> cases b <;> decide

/-! ## The lists agree -/

/-- The lists of the service tell the same about the same devices. -/
structure ListsAgree (now : Int) (db : Db) : Prop where
  /-- The administrator sees each device once, and a device that is found by its id. -/
  once : ((handleAdminPeers now db).map AdminPeerInfo.deviceId).Nodup
  found : ∀ deviceId, (∃ p ∈ handleAdminPeers now db, p.deviceId = deviceId) ↔
    (db.findById deviceId).isSome
  /-- The peers are the devices that it sees as approved. -/
  peers : ((handleAdminPeers now db).filter fun p => p.status = "approved").Perm
    ((handlePeers now db).map fun p =>
      ⟨p.deviceId, p.ipv4, p.hostname, "approved", p.lastSeenSecs⟩)
  /-- The pending devices are those that it sees as pending. -/
  pending : (((handleAdminPeers now db).filter fun p => p.status = "pending").map fun p =>
      (p.deviceId, p.ipv4, p.hostname)).Perm
    ((handlePending db).map fun p => (p.deviceId, p.ipv4, p.hostname))
  /-- A revoked device is shown with the address 0.0.0.0. -/
  revoked : ∀ p ∈ handleAdminPeers now db, p.status = "revoked" → p.ipv4 = "0.0.0.0"
  /-- Ids, keys and addresses of peers are distinct, and the addresses are proper. -/
  ids : ((handlePeers now db).map PeerInfo.deviceId).Nodup
  keys : ((handlePeers now db).map PeerInfo.publicKey).Nodup
  addrs : ((handlePeers now db).map fun p => Ipv4Addr.parse p.ipv4).Nodup
  proper : ∀ p ∈ handlePeers now db, ∃ addr : Ipv4Addr, p.ipv4 = addr.toString
  /-- The name records are those of the peers that have a name. -/
  dns : (handleDnsRecords db).Perm
    (((handlePeers now db).filter fun p => p.hostname ≠ "").map fun p => (p.hostname, p.ipv4))

section
variable {db : Db} {now : Int}

theorem admin_status_filter (status : DeviceStatus) :
    (handleAdminPeers now db).filter (fun p => p.status = status.text) =
      (db.listAll.filter fun d => d.status = status).map (DeviceRecord.adminPeerInfo now) := by
  rw [handleAdminPeers, List.filter_map]
  refine congrArg _ (List.filter_congr fun d _ => ?_)
  exact decide_eq_decide.mpr ⟨text_inj, congrArg DeviceStatus.text⟩

/-- The rows of the peers. -/
theorem handlePeers_perm (now : Int) (db : Db) :
    (handlePeers now db).Perm ((db.devices.rows.filter fun d => d.status = 1).map fun d =>
      d.toRecord.peerInfo now) := by
  have h := (listApproved_perm db).map (DeviceRecord.peerInfo now)
  rwa [List.map_map] at h

/-- Values that tell rows apart tell peers apart. -/
theorem nodup_peers {β : Type} {f : PeerInfo → β}
    (h : ∀ d ∈ db.devices, ∀ e ∈ db.devices, d.status = 1 → e.status = 1 →
      f (d.toRecord.peerInfo now) = f (e.toRecord.peerInfo now) → deviceKeys.clash d e) :
    ((handlePeers now db).map f).Nodup := by
  rw [((handlePeers_perm now db).map f).nodup_iff, List.map_map]
  refine List.Nodup.map_on ?_ (db.devices.nodup.filter _)
  intro d hd e he heq
  obtain ⟨hd, hdstatus⟩ := List.mem_filter.mp hd
  obtain ⟨he, hestatus⟩ := List.mem_filter.mp he
  exact Table.eq_of_clash hd he
    (h d hd e he (of_decide_eq_true hdstatus) (of_decide_eq_true hestatus) heq)

theorem handleAdminPeers_perm (now : Int) (db : Db) :
    (handleAdminPeers now db).Perm
      (db.devices.rows.map fun d => d.toRecord.adminPeerInfo now) := by
  have h := (listAll_perm db).map (DeviceRecord.adminPeerInfo now)
  rwa [List.map_map] at h

theorem findById_isSome_iff (deviceId : Uuid) :
    (db.findById deviceId).isSome ↔ ∃ d ∈ db.devices, d.deviceId = deviceId := by
  rw [Db.findById, Option.isSome_map, List.isSome_head?]
  constructor
  · intro hne
    obtain ⟨d, hd⟩ := List.exists_mem_of_ne_nil _ hne
    obtain ⟨hmem, hid⟩ := Table.mem_select.mp hd
    exact ⟨d, hmem, of_decide_eq_true hid⟩
  · rintro ⟨d, hmem, hid⟩
    exact List.ne_nil_of_mem (Table.mem_select.mpr ⟨hmem, decide_eq_true hid⟩)

theorem found_iff (now : Int) (deviceId : Uuid) :
    (∃ p ∈ handleAdminPeers now db, p.deviceId = deviceId) ↔ (db.findById deviceId).isSome := by
  rw [findById_isSome_iff]
  constructor
  · rintro ⟨p, hp, rfl⟩
    obtain ⟨d, hd, rfl⟩ := List.mem_map.mp ((handleAdminPeers_perm now db).mem_iff.mp hp)
    exact ⟨d, hd, rfl⟩
  · rintro ⟨d, hd, rfl⟩
    exact ⟨_, (handleAdminPeers_perm now db).mem_iff.mpr (List.mem_map_of_mem hd), rfl⟩

/-- The address of an approved row is shown as it was written. -/
theorem Sound.approved_ipv4 (h : Sound db) {d : DeviceRow} (hd : d ∈ db.devices)
    (hstatus : d.status = 1) : d.toRecord.ipv4.toString = d.ipv4 :=
  (h.device d hd).toRecord_ipv4 (by rw [hstatus]; decide)

theorem approved_agree (now : Int) (db : Db) :
    ((handleAdminPeers now db).filter fun p => p.status = "approved").Perm
      ((handlePeers now db).map fun p =>
        ⟨p.deviceId, p.ipv4, p.hostname, "approved", p.lastSeenSecs⟩) := by
  have hadmin : ((handleAdminPeers now db).filter fun p => p.status = "approved").Perm _ :=
    List.Perm.trans (List.Perm.of_eq (admin_status_filter .approved))
      ((filter_status_perm fun d _ => fromI32_eq_approved).map (DeviceRecord.adminPeerInfo now))
  refine hadmin.trans (List.Perm.trans ?_ ((handlePeers_perm now db).map _).symm)
  rw [List.map_map, List.map_map]
  refine List.Perm.of_eq (List.map_congr_left fun d hd => ?_)
  have hstatus := of_decide_eq_true (List.mem_filter.mp hd).2
  simp [DeviceRecord.adminPeerInfo, DeviceRecord.peerInfo, DeviceRow.toRecord, hstatus,
    DeviceStatus.fromI32, DeviceStatus.text]

theorem pending_agree (h : Sound db) (now : Int) :
    (((handleAdminPeers now db).filter fun p => p.status = "pending").map fun p =>
        (p.deviceId, p.ipv4, p.hostname)).Perm
      ((handlePending db).map fun p => (p.deviceId, p.ipv4, p.hostname)) := by
  have hadmin : ((handleAdminPeers now db).filter fun p => p.status = "pending").Perm _ :=
    List.Perm.trans (List.Perm.of_eq (admin_status_filter .pending))
      ((filter_status_perm fun d hd => (h.device d hd).pending_iff).map
        (DeviceRecord.adminPeerInfo now))
  refine (hadmin.map _).trans ?_
  refine List.Perm.trans ?_ (((listPending_perm db).map DeviceRecord.pendingInfo).map _).symm
  simp only [List.map_map]
  exact List.Perm.of_eq rfl

theorem revoked_agree (h : Sound db) {p : AdminPeerInfo} (hp : p ∈ handleAdminPeers now db)
    (hrevoked : p.status = "revoked") : p.ipv4 = "0.0.0.0" := by
  obtain ⟨d, hd, rfl⟩ := List.mem_map.mp ((handleAdminPeers_perm now db).mem_iff.mp hp)
  have hstatus : DeviceStatus.fromI32 d.status = .revoked := text_inj hrevoked
  have hempty := (h.device d hd).revoked_iff.mp (fromI32_eq_revoked.mp hstatus)
  simp only [DeviceRecord.adminPeerInfo, DeviceRow.toRecord, hempty]
  decide

theorem dns_agree (h : Sound db) (now : Int) :
    (handleDnsRecords db).Perm
      (((handlePeers now db).filter fun p => p.hostname ≠ "").map fun p =>
        (p.hostname, p.ipv4)) := by
  have hpeers := ((handlePeers_perm now db).filter fun p => p.hostname ≠ "").map
    fun p => (p.hostname, p.ipv4)
  refine List.Perm.trans (List.Perm.of_eq ?_) hpeers.symm
  rw [List.filter_map, List.map_map, List.filter_filter, handleDnsRecords, Db.listDnsRecords,
    Table.select]
  -- an approved row has an address, so the query need not ask for one
  have hsame : ∀ d ∈ db.devices.rows,
      decide (d.status = 1 ∧ d.hostname ≠ "" ∧ d.ipv4 ≠ "") =
        (((fun p : PeerInfo => decide (p.hostname ≠ "")) ∘ fun d : DeviceRow =>
          d.toRecord.peerInfo now) d && decide (d.status = 1)) := by
    intro d hd
    by_cases hstatus : d.status = 1
    · have haddr : d.ipv4 ≠ "" := by
        intro hempty
        rw [(h.device d hd).revoked_iff.mpr hempty] at hstatus
        cases hstatus
      simp [hstatus, haddr, DeviceRecord.peerInfo, DeviceRow.toRecord]
    · simp [hstatus]
  rw [List.filter_congr hsame]
  refine List.map_congr_left fun d hd => ?_
  obtain ⟨hmem, hboth⟩ := List.mem_filter.mp hd
  have hstatus := of_decide_eq_true (Bool.and_eq_true_iff.mp hboth).2
  exact Prod.ext rfl (h.approved_ipv4 hmem hstatus).symm

theorem listsAgree_of_sound (h : Sound db) (now : Int) : ListsAgree now db where
  once := by
    rw [((handleAdminPeers_perm now db).map _).nodup_iff, List.map_map]
    exact nodup_deviceId db
  found := found_iff now
  peers := approved_agree now db
  pending := pending_agree h now
  revoked := fun p hp => revoked_agree h hp
  ids := nodup_peers fun d _ e _ _ _ heq => Or.inl heq
  keys := nodup_peers fun d _ e _ _ _ heq => Or.inr (Or.inl heq)
  addrs := by
    refine nodup_peers fun d hd e he hdstatus hestatus heq => Or.inr (Or.inr ?_)
    rw [← h.approved_ipv4 hd hdstatus, ← h.approved_ipv4 he hestatus]
    simp only [DeviceRecord.peerInfo, Ipv4Addr.parse_toString, Option.some.injEq] at heq
    rw [heq]
  proper := by
    intro p hp
    obtain ⟨d, -, rfl⟩ := List.mem_map.mp ((handlePeers_perm now db).mem_iff.mp hp)
    exact ⟨_, rfl⟩
  dns := dns_agree h now

end

/-- However the statements of any requests are interleaved, the lists of the service agree
    in every state: the administrator's list has each device once, `handle_peers` and
    `handle_pending` show exactly the devices that it shows as approved and as pending, with
    the same data, and no two peers share an id, a key or an address. -/
theorem lists_agree {ι : Type} [DecidableEq ι] (state : AppState) (requests : ι → Request)
    (schedule : List ι) (now : Int) :
    ListsAgree now
      (run (Pool.step handle) (serving state requests Db.empty) schedule).state :=
  listsAgree_of_sound (run_invariant inService_step
    (inService_serving state requests sound_empty) schedule).sound now

end ConnectAlso.Control
