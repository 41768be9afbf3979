import ConnectAlso.Control.Cidr

/-!
# The addresses that can be handed out

`allocate_ip` hands out an address in some reachable database exactly when the address
is `base + k` for an offset `k` up to the largest one: the registration of a new key puts
a row for the next address into the pool, so a service that only ever registers new keys
reaches every count.
-/

namespace ConnectAlso.Control
open Misc Program

/-- In some reachable database, `allocate_ip` returns the address. -/
def HandedOut (state : AppState) (ip : Ipv4Addr) : Prop :=
  ∃ db, Reachable state db ∧
    (exec handle (allocateIp state.ipBase state.ipMaxOffset) db).1 = some ip

/-- Every address that is handed out lies within the largest offset of the base. -/
theorem HandedOut.exists_offset {state : AppState} {ip : Ipv4Addr} (h : HandedOut state ip) :
    ∃ k ≤ state.ipMaxOffset.toNat, ip = addressAt state.ipBase k := by
  obtain ⟨db, hreach, hexec⟩ := h
  rw [exec_allocateIp hreach.sound] at hexec
  by_cases hfull : state.ipMaxOffset < UInt32.ofNat db.used
  · rw [if_pos hfull] at hexec
    cases hexec
  · rw [if_neg hfull] at hexec
    refine ⟨(UInt32.ofNat db.used).toNat, ?_, ?_⟩
    · exact UInt32.le_iff_toNat_le.mp (UInt32.not_lt.mp hfull)
    · rw [← Option.some.inj hexec, addressAt, UInt32.ofNat_toNat]

/-! ## Filling the pool -/

/-- A public key with a number. -/
def numberedKey (n : Nat) : Octets 32 := ⟨leBytes 32 n, leBytes_length 32 n⟩

/-- A UUID with a number. -/
def numberedId (n : Nat) : Uuid := ⟨leBytes 16 n, leBytes_length 16 n⟩

theorem numberedKey_inj {m n : Nat} (hm : m < 2 ^ 32) (hn : n < 2 ^ 32)
    (h : numberedKey m = numberedKey n) : m = n :=
  (leBytes_inj (k := 32) (by omega) (by omega)).mp (congrArg Octets.bytes h)

/-- Different offsets within the 32-bit range are different addresses. -/
theorem addressAt_inj {base : UInt32} {m n : Nat} (hm : base.toNat + m < 2 ^ 32)
    (hn : base.toNat + n < 2 ^ 32) (h : addressAt base m = addressAt base n) : m = n := by
  have hvalue := congrArg (fun a => a.toU32.toNat) h
  simp only [toNat_addressAt hm, toNat_addressAt hn] at hvalue
  omega

/-- The registration with number `n`. -/
def numberedRegistration (n : Nat) : Request :=
  .register ⟨numberedKey n, "host"⟩ (numberedId n) 0

/-- What `n` registrations of new keys leave: a pool with the first `n` addresses, and
    no other key. -/
structure Filled (state : AppState) (n : Nat) (db : Db) : Prop where
  used : db.used = n
  pool : ∀ p ∈ db.ipPool, ∃ i < n, p.ipv4 = (addressAt state.ipBase i).toString
  keys : ∀ d ∈ db.devices, ∃ i < n, d.publicKey = numberedKey i

theorem filled_empty (state : AppState) : Filled state 0 Db.empty := by
  refine ⟨rfl, ?_, ?_⟩
  · intro p hp
    exact absurd hp (Table.not_mem_empty p)
  · intro d hd
    exact absurd hd (Table.not_mem_empty d)

/-- The insertion of an address that the pool does not have adds one row. -/
theorem Db.used_insertIp {db : Db} {row : IpPoolRow} (hfree : ∀ p ∈ db.ipPool, p.ipv4 ≠ row.ipv4) :
    (db.insertIp row).2.used = db.used + 1 := by
  unfold Db.insertIp
  cases hinsert : db.ipPool.insert? row with
  | none =>
      obtain ⟨p, hp, hclash⟩ := Table.insert?_eq_none.mp hinsert
      exact absurd hclash (hfree p hp)
  | some ipPool =>
      simp only [Db.used, Table.count, (Table.insert?_eq_some.mp hinsert).2, List.countP_append,
        List.countP_singleton, if_true]

/-- The registration of a new key, while the pool is not used up: the next address is
    tried, and no other key comes in. -/
theorem step_register_new {state : AppState} {db : Db} (h : Sound db) {req : RegisterRequest}
    {deviceId : Uuid} {now : Int} (hnew : ∀ d ∈ db.devices, d.publicKey ≠ req.publicKey)
    (hroom : ¬ state.ipMaxOffset < UInt32.ofNat db.used) :
    (step state db (.register req deviceId now)).ipPool =
        (db.insertIp ⟨(nextAddress state db).toString, 1⟩).2.ipPool ∧
      ∀ d ∈ (step state db (.register req deviceId now)).devices,
        d ∈ db.devices ∨ d.publicKey = req.publicKey := by
  rw [step, serve_register_new state h req deviceId now hnew, if_neg hroom]
  cases hinsert : db.devices.insert? (newRow state db req deviceId now) with
  | none =>
      refine ⟨rfl, fun d hd => Or.inl ?_⟩
      rwa [Db.insertIp_devices] at hd
  | some devices =>
      refine ⟨rfl, fun d hd => ?_⟩
      rcases (Table.mem_of_insert? hinsert).mp hd with hold | rfl
      · exact Or.inl hold
      · exact Or.inr rfl

theorem filled_step {state : AppState} {db : Db} {n : Nat}
    (hrange : state.ipBase.toNat + state.ipMaxOffset.toNat < 2 ^ 32)
    (hn : n ≤ state.ipMaxOffset.toNat) (hsound : Sound db) (h : Filled state n db) :
    Filled state (n + 1) (step state db (numberedRegistration n)) := by
  have hnew : ∀ d ∈ db.devices, d.publicKey ≠ numberedKey n := by
    intro d hd heq
    obtain ⟨i, hi, hkey⟩ := h.keys d hd
    have hsame := numberedKey_inj (by omega) (by omega) (hkey.symm.trans heq)
    omega
  have hroom : ¬ state.ipMaxOffset < UInt32.ofNat db.used := by
    rw [h.used, UInt32.lt_iff_toNat_lt, UInt32.toNat_ofNat']
    omega
  have hnext : nextAddress state db = addressAt state.ipBase n := by
    rw [nextAddress, h.used, addressAt]
  have hfree : ∀ p ∈ db.ipPool, p.ipv4 ≠ (addressAt state.ipBase n).toString := by
    intro p hp heq
    obtain ⟨i, hi, hipv4⟩ := h.pool p hp
    have hsame := addressAt_inj (by omega) (by omega)
      (Ipv4Addr.toString_inj.mp (hipv4.symm.trans heq))
    omega
  obtain ⟨hpool, hdevices⟩ := @step_register_new state db hsound ⟨numberedKey n, "host"⟩
    (numberedId n) 0 hnew hroom
  rw [hnext] at hpool
  refine ⟨?_, ?_, ?_⟩
  · have hcount : (step state db (numberedRegistration n)).used =
        (db.insertIp ⟨(addressAt state.ipBase n).toString, 1⟩).2.used :=
      congrArg (fun pool => Table.count pool fun _ => true) hpool
    rw [hcount, Db.used_insertIp hfree, h.used]
  · intro p hp
    rw [numberedRegistration, hpool] at hp
    rcases Db.mem_insertIp.mp hp with hold | ⟨rfl, -⟩
    · obtain ⟨i, hi, hipv4⟩ := h.pool p hold
      exact ⟨i, by omega, hipv4⟩
    · exact ⟨n, by omega, rfl⟩
  · intro d hd
    rcases hdevices d hd with hold | hkey
    · obtain ⟨i, hi, hkey⟩ := h.keys d hold
      exact ⟨i, by omega, hkey⟩
    · exact ⟨n, by omega, hkey⟩

/-- The registrations with numbers below `n`, one after the other. -/
theorem filled_run {state : AppState} {n : Nat}
    (hrange : state.ipBase.toNat + state.ipMaxOffset.toNat < 2 ^ 32)
    (hn : n ≤ state.ipMaxOffset.toNat + 1) :
    Filled state n (run (step state) Db.empty ((List.range n).map numberedRegistration)) := by
  induction n with
  | zero => exact filled_empty state
  | succ n ih =>
      rw [List.range_succ, List.map_append, run_append]
      exact filled_step hrange (by omega) (sound_run state _) (ih (by omega))

/-- The addresses that can be handed out are those from the base to the largest
    offset. -/
theorem handedOut_iff {state : AppState} {ip : Ipv4Addr}
    (hrange : state.ipBase.toNat + state.ipMaxOffset.toNat < 2 ^ 32) :
    HandedOut state ip ↔ ∃ k ≤ state.ipMaxOffset.toNat, ip = addressAt state.ipBase k := by
  refine ⟨HandedOut.exists_offset, ?_⟩
  rintro ⟨k, hk, rfl⟩
  have hfilled : Filled state k _ := filled_run hrange (by omega)
  refine ⟨_, reachable_run state ((List.range k).map numberedRegistration), ?_⟩
  have hroom : ¬ state.ipMaxOffset < UInt32.ofNat k := by
    rw [UInt32.lt_iff_toNat_lt, UInt32.toNat_ofNat']
    omega
  rw [exec_allocateIp (sound_run state _), hfilled.used, if_neg hroom, addressAt]

end ConnectAlso.Control
