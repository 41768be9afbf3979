import ConnectAlso.Control.Requests

/-!
# What a purge removes

`purge_stale` is two deletions. The second one removes the devices that have not been
seen since the cutoff and are not approved. The first one removes the pool rows of all
devices that have not been seen since the cutoff, so an approved device stays and
loses its address reservation. The cutoff is computed in 64 bits. The purge has its stated
effect exactly when it finds no such device and the cutoff that it computes tells the
other devices apart as the exact difference does.
-/

namespace ConnectAlso.Control
open Misc

/-- The devices that `purge_stale` removes: stale ones, approved devices excepted. -/
def DeviceRow.Purgeable (cutoff : Int) (d : DeviceRow) : Prop :=
  d.lastSeen < cutoff ∧ d.status ≠ 1

instance (cutoff : Int) (d : DeviceRow) : Decidable (d.Purgeable cutoff) :=
  inferInstanceAs (Decidable (_ ∧ _))

/-- The purge removes the purgeable devices and their pool rows, returns their number,
    and leaves all other rows as they are. A device that stays keeps its pool row. -/
structure StatedEffect (db : Db) (cutoff : Int) (result : Reply × Db) : Prop where
  reply : result.1 = .purged (.ok (.ok (db.devices.count fun d => d.Purgeable cutoff)))
  devices : result.2.devices.rows = db.devices.rows.filter fun d => ¬ d.Purgeable cutoff
  ipPool : result.2.ipPool.rows = db.ipPool.rows.filter fun p =>
    ∀ d ∈ db.devices.rows, d.Purgeable cutoff → p.ipv4 ≠ d.ipv4
  kept : ∀ d ∈ db.devices, d.status = 1 ∨ cutoff ≤ d.lastSeen →
    d ∈ result.2.devices ∧ ∀ p ∈ db.ipPool, p.ipv4 = d.ipv4 → p ∈ result.2.ipPool

/-- No approved device that is stale has its address in the pool. -/
def SparesApproved (db : Db) (cutoff : Int) : Prop :=
  ∀ d ∈ db.devices, d.status = 1 → d.lastSeen < cutoff → ∀ p ∈ db.ipPool, p.ipv4 ≠ d.ipv4

/-- The two cutoffs agree on which devices are stale, approved devices excepted. -/
def SameStale (db : Db) (cutoff cutoff' : Int) : Prop :=
  ∀ d ∈ db.devices, d.status ≠ 1 → (d.lastSeen < cutoff' ↔ d.lastSeen < cutoff)

/-! ## One purge -/

section Purge
variable {db : Db} {cutoff cutoff' : Int}

/-- The devices are removed by the stated filter. -/
theorem purged_devices (db : Db) (cutoff : Int) :
    (purged db cutoff).devices.rows = db.devices.rows.filter fun d => ¬ d.Purgeable cutoff := by
  refine List.filter_congr ?_
  intro d _
  exact (decide_not (p := d.Purgeable cutoff)).symm

/-- The pool rows are removed by a filter of their own: approved devices count too. -/
theorem purged_ipPool (db : Db) (cutoff : Int) :
    (purged db cutoff).ipPool.rows = db.ipPool.rows.filter fun p =>
      ∀ d ∈ db.devices.rows, d.lastSeen < cutoff → p.ipv4 ≠ d.ipv4 := by
  refine List.filter_congr ?_
  intro p _
  rw [Bool.eq_iff_iff, Bool.not_eq_true', List.any_eq_false, decide_eq_true_iff]
  refine ⟨?_, ?_⟩
  · intro hfree d hd hstale hipv4
    exact hfree d (Table.mem_select.mpr ⟨hd, decide_eq_true hstale⟩) (decide_eq_true hipv4)
  · intro hfree d hd hipv4
    obtain ⟨hmem, hstale⟩ := Table.mem_select.mp hd
    exact hfree d hmem (of_decide_eq_true hstale) (of_decide_eq_true hipv4)

/-- Cutoffs that agree on the stale devices make the same devices purgeable. -/
theorem SameStale.purgeable_iff (h : SameStale db cutoff cutoff') {d : DeviceRow}
    (hd : d ∈ db.devices) : d.Purgeable cutoff' ↔ d.Purgeable cutoff :=
  and_congr_left fun hstatus => h d hd hstatus

/-- The effect at one cutoff is the one stated for another when the cutoffs agree on the
    stale devices and no approved device has a pool row to lose. -/
theorem statedEffect_of_sparesApproved (hsame : SameStale db cutoff cutoff')
    (h : SparesApproved db cutoff') :
    StatedEffect db cutoff
      (.purged (.ok (.ok (db.devices.count fun d => d.Purgeable cutoff'))), purged db cutoff') := by
  have hdevices : (purged db cutoff').devices.rows =
      db.devices.rows.filter fun d => ¬ d.Purgeable cutoff := by
    rw [purged_devices]
    refine List.filter_congr fun d hd => decide_eq_decide.mpr (not_congr ?_)
    exact hsame.purgeable_iff hd
  have hpool : (purged db cutoff').ipPool.rows = db.ipPool.rows.filter fun p =>
      ∀ d ∈ db.devices.rows, d.Purgeable cutoff → p.ipv4 ≠ d.ipv4 := by
    rw [purged_ipPool]
    refine List.filter_congr fun p hp => decide_eq_decide.mpr ?_
    refine ⟨?_, ?_⟩
    · intro hfree d hd hpurgeable
      exact hfree d hd ((hsame.purgeable_iff hd).mpr hpurgeable).1
    · intro hfree d hd hstale
      by_cases hstatus : d.status = 1
      · exact h d hd hstatus hstale p hp
      · exact hfree d hd ((hsame.purgeable_iff hd).mp ⟨hstale, hstatus⟩)
  refine ⟨?_, hdevices, hpool, ?_⟩
  · refine congrArg (fun n => Reply.purged (.ok (.ok n))) (List.countP_congr fun d hd => ?_)
    rw [decide_eq_true_iff, decide_eq_true_iff]
    exact hsame.purgeable_iff hd
  · intro d hd hstays
    have hnot : ¬ d.Purgeable cutoff := by
      rintro ⟨hstale, hstatus⟩
      rcases hstays with happroved | hfresh
      · exact hstatus happroved
      · omega
    refine ⟨?_, ?_⟩
    · rw [Table.mem_rows, hdevices]
      exact List.mem_filter.mpr ⟨hd, decide_eq_true hnot⟩
    · intro p hp hipv4
      rw [Table.mem_rows, hpool]
      refine List.mem_filter.mpr ⟨hp, decide_eq_true ?_⟩
      intro e he hpurgeable heq
      -- the two devices would share an address
      have hsame := Table.eq_of_clash hd he (Or.inr (Or.inr (hipv4.symm.trans heq)))
      exact hnot (hsame ▸ hpurgeable)

variable {reply : Reply}

/-- The devices that a purge removes show on which side of the stated cutoff they are. -/
theorem StatedEffect.sameStale (h : StatedEffect db cutoff (reply, purged db cutoff')) :
    SameStale db cutoff cutoff' := by
  intro d hd hstatus
  have hmem : d ∈ (purged db cutoff').devices.rows ↔
      d ∈ db.devices.rows.filter fun d => ¬ d.Purgeable cutoff := by
    rw [← h.devices]
  rw [purged_devices, List.mem_filter, List.mem_filter, decide_eq_true_iff, decide_eq_true_iff,
    and_congr_right_iff] at hmem
  have hpurgeable := not_iff_not.mp (hmem hd)
  rwa [DeviceRow.Purgeable, DeviceRow.Purgeable, and_iff_left hstatus, and_iff_left hstatus]
    at hpurgeable

/-- When a purge has its stated effect, an approved device below the cutoff that it uses has
    no pool row to lose. -/
theorem StatedEffect.sparesApproved (h : StatedEffect db cutoff (reply, purged db cutoff')) :
    SparesApproved db cutoff' := by
  intro d hd hstatus hstale p hp hipv4
  have hkept := (h.kept d hd (Or.inl hstatus)).2 p hp hipv4
  rw [Table.mem_rows, purged_ipPool] at hkept
  have hfree := of_decide_eq_true (List.mem_filter.mp hkept).2
  exact hfree d hd hstale hipv4

end Purge

/-! ## Runs -/

/-- The request, when it is a purge, has its stated effect. -/
def PurgesExactly (state : AppState) (db : Db) : Request → Prop
  | .purgeStale overflowChecks now timeoutSecs =>
    StatedEffect db (now.toInt - timeoutSecs.toInt)
      (serve state db (.purgeStale overflowChecks now timeoutSecs))
  | _ => True

/-- The request, when it is a purge, finds no approved stale device in the pool. If the
    difference of its clock reading and its timeout does not fit, then it was built without
    overflow checks, what it finds is said of the difference modulo `2 ^ 64`, and each other
    device is on the same side of both. -/
def PurgesCleanly (db : Db) : Request → Prop
  | .purgeStale overflowChecks now timeoutSecs =>
    let cutoff := now.toInt - timeoutSecs.toInt
    FitsI64 cutoff ∧ SparesApproved db cutoff ∨
      ¬ FitsI64 cutoff ∧ overflowChecks = false ∧ SameStale db cutoff (wrapI64 cutoff) ∧
        SparesApproved db (wrapI64 cutoff)
  | _ => True

theorem purgesExactly_iff (state : AppState) (db : Db) (request : Request) :
    PurgesExactly state db request ↔ PurgesCleanly db request := by
  cases request with
  | purgeStale overflowChecks now timeoutSecs =>
      rw [PurgesExactly, PurgesCleanly]
      rcases serve_purgeStale_cases state db overflowChecks now timeoutSecs with
        ⟨hchecks, hfits, hserve⟩ | ⟨hreturns, hserve⟩
      · rw [hserve]
        refine iff_of_false (fun heffect => nomatch heffect.reply) ?_
        rintro (⟨hfits', -⟩ | ⟨-, hnone, -⟩)
        · exact hfits hfits'
        · exact absurd (hnone.symm.trans hchecks) Bool.false_ne_true
      · have heffect : StatedEffect db (now.toInt - timeoutSecs.toInt)
              (serve state db (.purgeStale overflowChecks now timeoutSecs)) ↔
            SameStale db (now.toInt - timeoutSecs.toInt)
                (wrapI64 (now.toInt - timeoutSecs.toInt)) ∧
              SparesApproved db (wrapI64 (now.toInt - timeoutSecs.toInt)) := by
          rw [hserve]
          exact ⟨fun heffect => ⟨heffect.sameStale, heffect.sparesApproved⟩,
            fun hfinds => statedEffect_of_sparesApproved hfinds.1 hfinds.2⟩
        rw [heffect]
        by_cases hfits : FitsI64 (now.toInt - timeoutSecs.toInt)
        · -- nothing wraps, so the two cutoffs are one
          rw [wrapI64_of_fits hfits]
          simp only [hfits, SameStale, true_and, not_true_eq_false, false_and, or_false,
            implies_true]
        · have hnone : overflowChecks = false := hreturns.resolve_right hfits
          simp only [hfits, hnone, false_and, false_or, not_false_eq_true, true_and]
  | _ => exact Iff.rfl

/-- In every run of requests out of a state that some requests reach with their
    statements in any order, every purge has its stated effect exactly when each purge
    meets the condition. -/
theorem purges_exactly_iff (state : AppState) (clients : Nat → Request) (schedule : List Nat)
    (requests : List Request) :
    let db := (run (Pool.step handle) (serving state clients Db.empty) schedule).state
    EachStep (step state) (PurgesExactly state) db requests ↔
      EachStep (step state) PurgesCleanly db requests := by
  intro db
  refine forall_congr' fun past => forall_congr' fun event => imp_congr_right fun _ => ?_
  exact purgesExactly_iff state _ event

/-- The first device is approved when it registers. A purge 1000 seconds later keeps it,
    reports no purged device, and removes its address from the pool. -/
theorem purge_takes_approved_address :
    ¬ EachStep (step AppState.default) (PurgesExactly AppState.default) Db.empty
      [registration 0 0 100, .purgeStale true 1100 300] := by
  intro hexact
  have hpurge : StatedEffect (run (step AppState.default) Db.empty [registration 0 0 100]) 800
      (serve AppState.default (run (step AppState.default) Db.empty [registration 0 0 100])
        (.purgeStale true 1100 300)) := hexact [registration 0 0 100] (.purgeStale true 1100 300)
      (List.prefix_refl _)
  have hpool := hpurge.ipPool
  revert hpool
  decide +kernel

end ConnectAlso.Control
