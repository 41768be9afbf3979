import ConnectAlso.Control.Sound

/-!
# The first device

A registration counts the devices in one statement and inserts its own in a later one,
with the status that the count gives it. Nothing holds other requests back in between,
so several registrations may count zero devices. One of them is approved for certain;
another is approved as well unless its insertion is refused.
-/

namespace ConnectAlso.Control
open Misc Program

/-- Device rows that are there stay. -/
def Grows (db db' : Db) : Prop := ∀ d ∈ db.devices, d ∈ db'.devices

/-- The statements of a registration. An insertion as pending needs a device that is
    already there. -/
def Statement.Registers : Statement → Db → Prop
  | insertDevice row, db => row.status = 1 ∨ row.status = 0 ∧ ∃ d, d ∈ db.devices
  | selectByPublicKey _, _ => True
  | selectFreeIp, _ => True
  | markAllocated _, _ => True
  | countIpPool, _ => True
  | insertIpPool _, _ => True
  | countDevices, _ => True
  | _, _ => False

theorem Grows.refl (db : Db) : Grows db db := fun _ hd => hd

theorem Grows.trans {db db' db'' : Db} (h : Grows db db') (h' : Grows db' db'') :
    Grows db db'' := fun d hd => h' d (h d hd)

/-- A statement of a registration inserts a device that clashes with none, or leaves the
    devices as they are. -/
theorem devices_of_registers {op : Statement} {db : Db} (hop : op.Registers db) :
    (∃ row devices, op = .insertDevice row ∧ db.devices.insert? row = some devices ∧
      (handle op db).2.devices = devices) ∨
    (handle op db).2.devices = db.devices ∧
      ∀ row, op = .insertDevice row → ∃ d ∈ db.devices, deviceKeys.clash d row := by
  cases op with
  | insertDevice row =>
      have hhandle : handle (.insertDevice row) db = db.insertDevice row := rfl
      rw [hhandle, Db.insertDevice]
      cases hinsert : db.devices.insert? row with
      | none =>
          refine Or.inr ⟨rfl, ?_⟩
          intro row' heq
          cases heq
          exact Table.insert?_eq_none.mp hinsert
      | some devices => exact Or.inl ⟨row, devices, rfl, hinsert, rfl⟩
  | markAllocated ipv4 => exact Or.inr ⟨Db.updateIps_devices _ _ _, nofun⟩
  | insertIpPool ipv4 => exact Or.inr ⟨Db.insertIp_devices _ _, nofun⟩
  | selectByPublicKey publicKey => exact Or.inr ⟨rfl, nofun⟩
  | selectFreeIp => exact Or.inr ⟨rfl, nofun⟩
  | countIpPool => exact Or.inr ⟨rfl, nofun⟩
  | countDevices => exact Or.inr ⟨rfl, nofun⟩
  | _ => exact absurd hop id

theorem grows_of_registers {op : Statement} {db : Db} (hop : op.Registers db) :
    Grows db (handle op db).2 := by
  intro d hd
  rcases devices_of_registers hop with ⟨row, devices, -, hinsert, heq⟩ | ⟨heq, -⟩
  · rw [heq]
    exact (Table.mem_of_insert? hinsert).mpr (Or.inl hd)
  · rw [heq]
    exact hd

/-! ## What a registration does among others -/

theorem allocateIp_relies (base maxOffset : UInt32) (db : Db) :
    (allocateIp base maxOffset).Relies handle Grows Statement.Registers (fun _ _ => True) db := by
  rw [allocateIp_eq]
  intro db₁ _
  refine ⟨trivial, ?_⟩
  cases (handle .selectFreeIp db₁).1 with
  | some row => exact fun _ _ => ⟨trivial, trivial⟩
  | none =>
      intro db₂ _
      refine ⟨trivial, ?_⟩
      dsimp only
      split
      · trivial
      · exact fun _ _ => ⟨trivial, trivial⟩

theorem registerAt_relies (state : AppState) (req : RegisterRequest) (deviceId : Uuid)
    (now : Int) (ip : Ipv4Addr) (db : Db) :
    (registerAt state req deviceId now ip).Relies handle Grows Statement.Registers
      (fun _ _ => True) db := by
  intro db₁ _
  refine ⟨trivial, ?_⟩
  intro db₂ hgrows
  refine ⟨?_, ?_⟩
  · show (initialStatus (db₁.devices.count fun _ => true)).asI32 = 1 ∨
      (initialStatus (db₁.devices.count fun _ => true)).asI32 = 0 ∧ ∃ d, d ∈ db₂.devices
    rw [asI32_initialStatus]
    by_cases hfirst : (db₁.devices.count fun _ => true) = 0
    · rw [if_pos hfirst]
      exact Or.inl rfl
    · -- the devices that were counted are still there
      obtain ⟨d, hd, -⟩ := Table.count_pos.mp (Nat.pos_of_ne_zero hfirst)
      rw [if_neg hfirst]
      exact Or.inr ⟨rfl, d, hgrows d hd⟩
  · dsimp only
    split
    · trivial
    · trivial

theorem register_relies (state : AppState) (req : RegisterRequest) (deviceId : Uuid)
    (now : Int) (db : Db) :
    ((Request.register req deviceId now).program state).Relies handle Grows Statement.Registers
      (fun _ _ => True) db := by
  have hhandler : (handleRegister state req deviceId now).Relies handle Grows
      Statement.Registers (fun _ _ => True) db := by
    rw [handleRegister_eq]
    intro db₁ _
    refine ⟨trivial, ?_⟩
    cases (handle (.selectByPublicKey req.publicKey) db₁).1 with
    | some existing => trivial
    | none =>
        refine relies_bind.mpr ((allocateIp_relies _ _ _).mono ?_)
        intro allocated db₂ _
        cases allocated with
        | none => trivial
        | some ip => exact registerAt_relies state req deviceId now ip db₂
  exact relies_bind.mpr (hhandler.mono fun _ _ _ => trivial)

/-! ## Approved devices -/

/-- The number of approved devices. -/
def Db.approved (db : Db) : Nat := db.devices.count fun d => d.status = 1

/-- If the step of request `i` inserts an approved device, then there are no devices, or
    one of them has the new device's id, key or address. -/
def InsertsFirst {ι : Type} (pool : Pool statements ι Reply Db) (i : ι) : Prop :=
  ∀ row next, pool.threads i = .call (.insertDevice row) next → row.status = 1 →
    pool.state.devices.rows = [] ∨ ∃ d ∈ pool.state.devices, deviceKeys.clash d row

/-- What holds among registrations: each goes on as one, and as soon as there are devices
    one of them is approved. -/
structure FirstApproved {ι : Type} (pool : Pool statements ι Reply Db) : Prop where
  threads : ∀ i, (pool.threads i).Relies handle Grows Statement.Registers (fun _ _ => True)
    pool.state
  approved : ∀ d ∈ pool.state.devices, 0 < pool.state.approved

theorem FirstApproved.registers {ι : Type} {pool : Pool statements ι Reply Db}
    (h : FirstApproved pool) {i : ι} {op : Statement} {next : op.Answer → Sql Reply}
    (hthread : pool.threads i = .call op next) : op.Registers pool.state := by
  have hrelies := h.threads i
  rw [hthread] at hrelies
  exact (hrelies pool.state (Grows.refl _)).1

/-- An insertion adds an approved device if its row is approved. -/
theorem count_insert? {t t' : Table deviceKeys} {row : DeviceRow} (hinsert : t.insert? row = some t') :
    (t'.count fun d => d.status = 1) =
      (t.count fun d => d.status = 1) + if row.status = 1 then 1 else 0 := by
  rw [Table.count, (Table.insert?_eq_some.mp hinsert).2, List.countP_append, List.countP_singleton]
  simp [Table.count]

theorem firstApproved_step {ι : Type} [DecidableEq ι] (pool : Pool statements ι Reply Db) (i : ι)
    (h : FirstApproved pool) : FirstApproved (pool.step handle i) := by
  refine ⟨Pool.step_relies Grows.refl (fun _ _ _ => Grows.trans)
    (fun _ _ => grows_of_registers) i h.threads, ?_⟩
  cases hthread : pool.threads i with
  | done result =>
      rw [Pool.step_done handle hthread]
      exact h.approved
  | call op next =>
      have hop : op.Registers pool.state := h.registers hthread
      rw [Db.approved, Pool.state_step_of_call handle hthread]
      intro d hd
      rcases devices_of_registers hop with ⟨row, devices, rfl, hinsert, heq⟩ | ⟨heq, -⟩
      · rw [heq, count_insert? hinsert]
        by_cases happroved : row.status = 1
        · rw [if_pos happroved]
          exact Nat.succ_pos _
        · obtain ⟨-, e, he⟩ := hop.resolve_left happroved
          exact Nat.lt_of_lt_of_le (h.approved e he) (Nat.le_add_right _ _)
      · rw [heq] at hd ⊢
        exact h.approved d hd

/-- Among registrations, a step leaves at most one device approved exactly when it inserts
    no approved device next to another one. -/
theorem approved_step_iff {ι : Type} [DecidableEq ι] (pool : Pool statements ι Reply Db) (i : ι)
    (h : FirstApproved pool) (hone : pool.state.approved ≤ 1) :
    (pool.step handle i).state.approved ≤ 1 ↔ InsertsFirst pool i := by
  cases hthread : pool.threads i with
  | done result =>
      rw [Pool.step_done handle hthread]
      apply iff_of_true hone
      intro row next heq
      rw [hthread] at heq
      cases heq
  | call op next =>
      have hop : op.Registers pool.state := h.registers hthread
      rw [Db.approved, Pool.state_step_of_call handle hthread]
      rcases devices_of_registers hop with ⟨row, devices, rfl, hinsert, heq⟩ | ⟨heq, hclash⟩
      · rw [heq, count_insert? hinsert]
        refine ⟨?_, ?_⟩
        · intro hcount row' next' hthread' happroved
          cases hthread.symm.trans hthread'
          rw [if_pos happroved] at hcount
          refine Or.inl (List.eq_nil_iff_forall_not_mem.mpr ?_)
          intro d hd
          have hpos : 0 < pool.state.devices.count _ := h.approved d hd
          omega
        · intro hfirst
          by_cases happroved : row.status = 1
          · rcases hfirst row next hthread happroved with hnil | ⟨d, hd, hclash⟩
            · simp [Table.count, hnil, happroved]
            · exact absurd hclash ((Table.insert?_eq_some.mp hinsert).1 d hd)
          · rw [if_neg happroved]
            exact hone
      · rw [heq]
        apply iff_of_true hone
        intro row next' hthread' _
        cases hthread.symm.trans hthread'
        exact Or.inr (hclash row rfl)

/-- Registrations in any number, their statements in any order, on a database without
    devices: there is at most one approved device at any time exactly when every
    registration that counted zero devices finds none when it inserts, or its insertion
    is refused. -/
theorem at_most_one_approved_iff {ι : Type} [DecidableEq ι] (state : AppState)
    (ipPool : Table poolKeys) (req : ι → RegisterRequest) (deviceId : ι → Uuid) (now : ι → Int)
    (schedule : List ι) :
    Throughout (Pool.step handle) (fun pool => pool.state.approved ≤ 1)
        (serving state (fun i => .register (req i) (deviceId i) (now i))
          { devices := Table.empty _, ipPool }) schedule ↔
      EachStep (Pool.step handle) InsertsFirst
        (serving state (fun i => .register (req i) (deviceId i) (now i))
          { devices := Table.empty _, ipPool }) schedule := by
  refine throughout_iff_eachStep firstApproved_step approved_step_iff ⟨?_, ?_⟩ ?_ schedule
  · intro i
    exact register_relies state (req i) (deviceId i) (now i) _
  · intro d hd
    exact absurd hd (Table.not_mem_empty d)
  · exact Nat.zero_le 1

/-- The second of two requests begins when the first has its address, and both count the
    devices before either inserts: both devices are approved. -/
theorem two_devices_approved :
    ¬ Throughout (Pool.step handle) (fun pool => pool.state.approved ≤ 1)
      (serving AppState.default
        (fun second : Bool => if second then registration 1 1 100 else registration 0 0 100)
        Db.empty)
      [false, false, false, false, true, true, true, true, false, true, false, true] := by
  intro hone
  have hlast := hone _ (List.prefix_refl _)
  revert hlast
  decide +kernel

end ConnectAlso.Control
