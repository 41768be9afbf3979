import Mathlib.Data.List.Nodup
import Mathlib.Data.List.Pairwise
import Mathlib.Data.List.Perm.Subperm

/-!
# Relational tables with uniqueness constraints

A table is the list of its rows in insertion order. The declared keys of a table
(`PRIMARY KEY`, `UNIQUE`) are one symmetric relation `clash` between rows, true
of two rows that share the value of some key. A `Table` carries the proof that no
two of its rows clash, so a table that breaks its constraint cannot be built.
`insert?` and `update?` fail, with the table unchanged, when the statement would
break it; `delete` always succeeds.
-/

namespace ConnectAlso.Misc

/-- The keys of a table: which two rows cannot both be in it. -/
structure Constraint (ρ : Type) where
  clash : ρ → ρ → Prop
  decidable : DecidableRel clash
  refl : ∀ a, clash a a
  symm : ∀ a b, clash a b → clash b a

/-- Rows in insertion order, no two of which clash. -/
@[ext] structure Table {ρ : Type} (C : Constraint ρ) where
  rows : List ρ
  unique : rows.Pairwise (fun a b => ¬ C.clash a b)

namespace Table

variable {ρ : Type} {C : Constraint ρ}

instance (a b : ρ) : Decidable (C.clash a b) := C.decidable a b

/-- The table without rows. -/
def empty (C : Constraint ρ) : Table C := ⟨[], List.Pairwise.nil⟩

instance : Membership ρ (Table C) := ⟨fun t r => r ∈ t.rows⟩

theorem mem_rows {t : Table C} {r : ρ} : r ∈ t ↔ r ∈ t.rows := Iff.rfl

@[simp] theorem not_mem_empty (r : ρ) : r ∉ empty C := by
  simp [mem_rows, empty]

/-- `SELECT … WHERE p`. -/
def select (t : Table C) (p : ρ → Bool) : List ρ := t.rows.filter p

/-- `SELECT COUNT(*) … WHERE p`, which is also the number of rows that an
    `UPDATE` or `DELETE … WHERE p` affects. -/
def count (t : Table C) (p : ρ → Bool) : Nat := t.rows.countP p

/-- `INSERT`: the new row at the end, or `none` if it clashes with a row. -/
def insert? (t : Table C) (r : ρ) : Option (Table C) :=
  if h : ∀ a ∈ t.rows, ¬ C.clash a r then
    some ⟨t.rows ++ [r], List.pairwise_append.mpr
      ⟨t.unique, List.pairwise_singleton _ _, fun a ha b hb => by
        rw [List.mem_singleton.mp hb]; exact h a ha⟩⟩
  else none

/-- `UPDATE … SET f WHERE p`, or `none` if two of the resulting rows clash. The
    constraint is read on the final rows, which is what SQLite enforces for a
    statement that changes at most one row. -/
def update? (t : Table C) (p : ρ → Bool) (f : ρ → ρ) : Option (Table C) :=
  if h : (t.rows.map fun r => if p r then f r else r).Pairwise (fun a b => ¬ C.clash a b) then
    some ⟨t.rows.map fun r => if p r then f r else r, h⟩
  else none

/-- `DELETE … WHERE p`. -/
def delete (t : Table C) (p : ρ → Bool) : Table C :=
  ⟨t.rows.filter (fun r => !p r), t.unique.sublist List.filter_sublist⟩

/-! ## Rows and keys -/

theorem nodup (t : Table C) : t.rows.Nodup := by
  apply t.unique.imp
  intro a b hclash heq
  exact hclash (heq ▸ C.refl a)

/-- Two rows of a table that share a key are the same row. -/
theorem eq_of_clash {t : Table C} {a b : ρ} (ha : a ∈ t) (hb : b ∈ t) (h : C.clash a b) :
    a = b := by
  by_contra hne
  have hsymm : Std.Symm (fun a b => ¬ C.clash a b) := ⟨fun a b hab hba => hab (C.symm b a hba)⟩
  exact t.unique.forall ha hb hne h

/-! ## Selecting -/

@[simp] theorem mem_select {t : Table C} {p : ρ → Bool} {r : ρ} :
    r ∈ t.select p ↔ r ∈ t ∧ p r = true := by
  simp [select, mem_rows]

/-- A `SELECT` that only one row meets finds that row. -/
theorem head?_select {t : Table C} {p : ρ → Bool} {r : ρ} (hr : r ∈ t) (hp : p r = true)
    (honly : ∀ a ∈ t, p a = true → a = r) : (t.select p).head? = some r := by
  cases hhead : (t.select p).head? with
  | none =>
      have hmem : r ∈ t.select p := mem_select.mpr ⟨hr, hp⟩
      rw [List.head?_eq_none_iff.mp hhead] at hmem
      cases hmem
  | some a =>
      obtain ⟨ha, hpa⟩ := mem_select.mp (List.mem_of_mem_head? hhead)
      exact congrArg some (honly a ha hpa)

theorem count_pos {t : Table C} {p : ρ → Bool} : 0 < t.count p ↔ ∃ r ∈ t, p r = true :=
  List.countP_pos_iff

theorem count_eq_zero {t : Table C} {p : ρ → Bool} : t.count p = 0 ↔ ∀ r ∈ t, p r = false := by
  simp [count, List.countP_eq_zero, mem_rows]

/-- When rows that share a value of `f` clash, a table has no more rows than another
    table has rows with such values. -/
theorem count_le_count {ρ' κ : Type} {C' : Constraint ρ'} {t : Table C} {t' : Table C'}
    {p : ρ → Bool} {p' : ρ' → Bool} {f : ρ → κ} {g : ρ' → κ}
    (hkey : ∀ a b, f a = f b → C.clash a b)
    (hsub : ∀ r ∈ t, p r = true → ∃ r' ∈ t', p' r' = true ∧ g r' = f r) :
    t.count p ≤ t'.count p' := by
  have hnodup : ((t.select p).map f).Nodup := by
    refine List.pairwise_map.mpr ((t.unique.sublist List.filter_sublist).imp ?_)
    intro a b hclash heq
    exact hclash (hkey a b heq)
  have hsubset : (t.select p).map f ⊆ (t'.select p').map g := by
    intro value hvalue
    obtain ⟨r, hr, rfl⟩ := List.mem_map.mp hvalue
    obtain ⟨hmem, hp⟩ := mem_select.mp hr
    obtain ⟨r', hr', hp', heq⟩ := hsub r hmem hp
    exact List.mem_map.mpr ⟨r', mem_select.mpr ⟨hr', hp'⟩, heq⟩
  have hlength := (hnodup.subperm hsubset).length_le
  rwa [List.length_map, List.length_map, select, select, ← List.countP_eq_length_filter,
    ← List.countP_eq_length_filter] at hlength

/-! ## Inserting -/

theorem insert?_eq_some {t t' : Table C} {r : ρ} :
    t.insert? r = some t' ↔ (∀ a ∈ t, ¬ C.clash a r) ∧ t'.rows = t.rows ++ [r] := by
  unfold insert?
  split
  · rename_i h
    simp only [Option.some.injEq, Table.ext_iff]
    exact ⟨fun heq => ⟨h, heq.symm⟩, fun heq => heq.2.symm⟩
  · rename_i h
    simp only [reduceCtorEq, false_iff]
    exact fun heq => h heq.1

theorem insert?_eq_none {t : Table C} {r : ρ} :
    t.insert? r = none ↔ ∃ a ∈ t, C.clash a r := by
  unfold insert?
  split
  · rename_i h
    simp only [reduceCtorEq, false_iff]
    rintro ⟨a, ha, hclash⟩
    exact h a ha hclash
  · rename_i h
    push Not at h
    simpa [mem_rows] using h

theorem mem_of_insert? {t t' : Table C} {r a : ρ} (h : t.insert? r = some t') :
    a ∈ t' ↔ a ∈ t ∨ a = r := by
  rw [mem_rows, (insert?_eq_some.mp h).2]
  simp [mem_rows]

/-! ## Deleting -/

@[simp] theorem mem_delete {t : Table C} {p : ρ → Bool} {r : ρ} :
    r ∈ t.delete p ↔ r ∈ t ∧ p r = false := by
  simp [delete, mem_rows]

theorem delete_of_none {t : Table C} {p : ρ → Bool} (h : ∀ r ∈ t, p r = false) :
    t.delete p = t := by
  apply Table.ext
  simp only [delete, List.filter_eq_self]
  intro r hr
  simp [h r hr]

/-! ## Updating -/

theorem rows_of_update? {t t' : Table C} {p : ρ → Bool} {f : ρ → ρ}
    (h : t.update? p f = some t') : t'.rows = t.rows.map fun r => if p r then f r else r := by
  unfold update? at h
  split at h
  · exact (Option.some.inj h) ▸ rfl
  · exact absurd h (by simp)

theorem mem_of_update? {t t' : Table C} {p : ρ → Bool} {f : ρ → ρ} {a : ρ}
    (h : t.update? p f = some t') : a ∈ t' ↔ ∃ r ∈ t, (if p r then f r else r) = a := by
  rw [mem_rows, rows_of_update? h]
  simp [mem_rows]

/-- An update fails exactly when it makes two different rows clash. -/
theorem update?_eq_none {t : Table C} {p : ρ → Bool} {f : ρ → ρ} :
    t.update? p f = none ↔ ∃ a ∈ t, ∃ b ∈ t, a ≠ b ∧
      C.clash (if p a then f a else a) (if p b then f b else b) := by
  have hsymm : Std.Symm fun a b =>
      ¬ C.clash (if p a then f a else a) (if p b then f b else b) :=
    ⟨fun a b hab hba => hab (C.symm _ _ hba)⟩
  have hpairs : (t.rows.map fun r => if p r then f r else r).Pairwise (fun a b => ¬ C.clash a b) ↔
      ∀ a ∈ t, ∀ b ∈ t, a ≠ b → ¬ C.clash (if p a then f a else a) (if p b then f b else b) := by
    rw [List.pairwise_map]
    refine ⟨?_, ?_⟩
    · intro h a ha b hb hne
      exact h.forall ha hb hne
    · intro h
      exact t.nodup.pairwise_of_forall_ne h
  unfold update?
  split
  · rename_i h
    simp only [reduceCtorEq, false_iff]
    rintro ⟨a, ha, b, hb, hne, hclash⟩
    exact hpairs.mp h a ha b hb hne hclash
  · rename_i h
    rw [hpairs] at h
    push Not at h
    simpa using h

/-- An update that finds no row changes nothing. -/
theorem update?_of_none {t : Table C} {p : ρ → Bool} {f : ρ → ρ} (h : ∀ r ∈ t, p r = false) :
    t.update? p f = some t := by
  have hid : (t.rows.map fun r => if p r then f r else r) = t.rows := by
    conv_rhs => rw [← List.map_id t.rows]
    apply List.map_congr_left
    intro r hr
    simp [h r hr]
  unfold update?
  rw [dif_pos (by rw [hid]; exact t.unique)]
  exact congrArg some (Table.ext hid)

end Table

end ConnectAlso.Misc
