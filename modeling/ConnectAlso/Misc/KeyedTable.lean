import Mathlib.Data.List.Sort
import ConnectAlso.Misc.Runs
import ConnectAlso.Misc.Table

/-!
# Tables with one key

A table whose only constraint is that no two rows have the same key is a finite map
from keys to rows: `find` reads it as one. `upsert` is `INSERT … ON CONFLICT(key) DO
UPDATE SET`, which never fails; the assignments of the `SET` clause carry the proof that
they leave the key alone. On the map, an upsert or a deletion by key is an update at one
key. `orderBy` lists rows sorted: nothing is assumed of how it breaks ties.
-/

namespace ConnectAlso.Misc

variable {ρ κ : Type} [DecidableEq κ]

/-- No two rows have the same key. -/
def Constraint.ofKey (key : ρ → κ) : Constraint ρ where
  clash a b := key a = key b
  decidable := fun _ _ => inferInstance
  refl _ := rfl
  symm _ _ := Eq.symm

/-- A table with the primary key `key`. -/
abbrev KeyedTable (key : ρ → κ) := Table (Constraint.ofKey key)

/-- The assignments of a `SET` clause that names no column of the key. -/
structure Assignment (key : ρ → κ) where
  apply : ρ → ρ
  keeps : ∀ r, key (apply r) = key r

/-- `ORDER BY`: the same rows, each of them related to all the later ones. -/
def OrderedBy {α : Type} (le : α → α → Prop) (rows listed : List α) : Prop :=
  listed.Perm rows ∧ listed.Pairwise le

namespace KeyedTable

variable {key : ρ → κ}

/-- The row with the key. -/
def find (t : KeyedTable key) (k : κ) : Option ρ := t.rows.find? fun r => key r = k

/-- The rows after `INSERT r … ON CONFLICT(key) DO UPDATE SET`. -/
def upsertRows (rows : List ρ) (r : ρ) (set : Assignment key) : List ρ :=
  if rows.any (fun a => key a = key r) then
    rows.map fun a => if key a = key r then set.apply a else a
  else rows ++ [r]

/-- Rows with different keys still have different keys after an upsert. -/
theorem upsertRows_unique {rows : List ρ} (h : rows.Pairwise fun a b => ¬ key a = key b) (r : ρ)
    (set : Assignment key) : (upsertRows rows r set).Pairwise fun a b => ¬ key a = key b := by
  unfold upsertRows
  split
  · have hkey : ∀ a, key (if key a = key r then set.apply a else a) = key a := by
      intro a
      split
      · exact set.keeps a
      · rfl
    simpa only [List.pairwise_map, hkey] using h
  · rename_i hnone
    rw [List.pairwise_append]
    refine ⟨h, List.pairwise_singleton _ _, ?_⟩
    intro a ha b hb heq
    apply hnone
    rw [List.mem_singleton.mp hb] at heq
    simpa using ⟨a, ha, heq⟩

/-- `INSERT r … ON CONFLICT(key) DO UPDATE SET`. -/
def upsert (t : KeyedTable key) (r : ρ) (set : Assignment key) : KeyedTable key :=
  ⟨upsertRows t.rows r set, upsertRows_unique t.unique r set⟩

/-! ## Rows as a map -/

theorem find_eq_some_iff {t : KeyedTable key} {k : κ} {r : ρ} :
    t.find k = some r ↔ r ∈ t ∧ key r = k := by
  constructor
  · intro h
    exact ⟨List.mem_of_find?_eq_some h, by simpa using List.find?_some h⟩
  · rintro ⟨hmem, rfl⟩
    cases hfind : t.find (key r) with
    | none =>
        have hall := List.find?_eq_none.mp hfind r hmem
        simp at hall
    | some a =>
        have ha : a ∈ t := List.mem_of_find?_eq_some hfind
        have hkey : key a = key r := by simpa using List.find?_some hfind
        exact congrArg some (Table.eq_of_clash ha hmem hkey)

theorem find_eq_none_iff {t : KeyedTable key} {k : κ} :
    t.find k = none ↔ ∀ r ∈ t, key r ≠ k := by
  simp [find, Table.mem_rows]

theorem mem_iff_find {t : KeyedTable key} {r : ρ} : r ∈ t ↔ t.find (key r) = some r := by
  simp [find_eq_some_iff]

/-- A row after an upsert: the new one if its key was free, else the old one as assigned;
    the others as they were. -/
theorem mem_upsert {t : KeyedTable key} {r : ρ} {set : Assignment key} {a : ρ} :
    a ∈ t.upsert r set ↔ (a ∈ t ∧ key a ≠ key r) ∨
      a = (t.find (key r)).elim r set.apply := by
  rw [Table.mem_rows]
  unfold upsert upsertRows
  cases hfind : t.find (key r) with
  | none =>
      have hfree := find_eq_none_iff.mp hfind
      have hany : t.rows.any (fun b => key b = key r) = false := by
        simpa [Table.mem_rows] using hfree
      simp only [hany, Bool.false_eq_true, if_false, List.mem_append, List.mem_singleton,
        Option.elim_none]
      refine or_congr_left ⟨fun ha => ⟨ha, hfree a ha⟩, And.left⟩
  | some old =>
      obtain ⟨hold, hkey⟩ := find_eq_some_iff.mp hfind
      have hany : t.rows.any (fun b => key b = key r) = true := by
        simpa using ⟨old, hold, hkey⟩
      simp only [hany, if_true, List.mem_map, Option.elim_some]
      constructor
      · rintro ⟨b, hb, rfl⟩
        by_cases hsame : key b = key r
        · rw [if_pos hsame, Table.eq_of_clash hb hold (hsame.trans hkey.symm)]
          exact Or.inr rfl
        · rw [if_neg hsame]
          exact Or.inl ⟨hb, hsame⟩
      · rintro (⟨ha, hne⟩ | rfl)
        · exact ⟨a, ha, if_neg hne⟩
        · exact ⟨old, hold, if_pos hkey⟩

/-- An upsert updates the map at one key. -/
theorem find_upsert (t : KeyedTable key) (r : ρ) (set : Assignment key) :
    (t.upsert r set).find =
      Function.update t.find (key r) (some ((t.find (key r)).elim r set.apply)) := by
  funext k
  by_cases hk : k = key r
  · subst hk
    rw [Function.update_self, find_eq_some_iff, mem_upsert]
    refine ⟨Or.inr rfl, ?_⟩
    cases hfind : t.find (key r) with
    | none => rfl
    | some old => exact (set.keeps old).trans (find_eq_some_iff.mp hfind).2
  · rw [Function.update_of_ne hk]
    have hnew : key ((t.find (key r)).elim r set.apply) = key r := by
      cases hfind : t.find (key r) with
      | none => rfl
      | some old => exact (set.keeps old).trans (find_eq_some_iff.mp hfind).2
    apply Option.ext
    intro a
    rw [find_eq_some_iff, find_eq_some_iff, mem_upsert]
    constructor
    · rintro ⟨⟨ha, -⟩ | rfl, hkey⟩
      · exact ⟨ha, hkey⟩
      · exact absurd (hkey.symm.trans hnew) hk
    · rintro ⟨ha, hkey⟩
      exact ⟨Or.inl ⟨ha, fun heq => hk (hkey.symm.trans heq)⟩, hkey⟩

/-- A deletion keeps the entries that do not meet its condition. -/
theorem find_delete (t : KeyedTable key) (p : ρ → Bool) (k : κ) :
    find (t.delete p) k = (t.find k).filter fun r => !p r := by
  apply Option.ext
  intro a
  rw [find_eq_some_iff, Table.mem_delete, Option.filter_eq_some_iff, find_eq_some_iff]
  simp only [Bool.not_eq_eq_eq_not, Bool.not_true]
  tauto

/-- A deletion by key updates the map at that key. -/
theorem find_delete_key (t : KeyedTable key) (k : κ) :
    find (t.delete fun r => key r = k) = Function.update t.find k none := by
  funext k'
  rw [find_delete]
  by_cases hk : k' = k
  · subst hk
    rw [Function.update_self, Option.filter_eq_none_iff]
    intro r hr
    simp [(find_eq_some_iff.mp hr).2]
  · rw [Function.update_of_ne hk]
    cases hfind : t.find k' with
    | none => rfl
    | some r =>
        have hkey : key r ≠ k := fun heq => hk ((find_eq_some_iff.mp hfind).2.symm.trans heq)
        simp [Option.filter, hkey]

/-- What a deletion by key counts. -/
theorem count_key (t : KeyedTable key) (k : κ) :
    0 < t.count (fun r => key r = k) ↔ t.find k ≠ none := by
  rw [Table.count_pos, Ne, find_eq_none_iff]
  simp

/-! ## Listing -/

/-- A listing of rows with different values of `f` shows each value once. -/
theorem nodup_map_of_orderedBy {α : Type} {le : ρ → ρ → Prop} {t : KeyedTable key} {p : ρ → Bool}
    {listed : List ρ} (h : OrderedBy le (t.select p) listed) {f : ρ → α}
    (hf : ∀ a, p a = true → ∀ b, p b = true → f a = f b → key a = key b) :
    (listed.map f).Nodup := by
  have hmap : ((t.select p).map f).Nodup := by
    refine List.Nodup.map_on ?_ (t.nodup.filter _)
    intro a ha b hb heq
    obtain ⟨hamem, hpa⟩ := Table.mem_select.mp ha
    obtain ⟨hbmem, hpb⟩ := Table.mem_select.mp hb
    exact Table.eq_of_clash hamem hbmem (hf a hpa b hpb heq)
  exact (h.1.map f).nodup_iff.mpr hmap

end KeyedTable

end ConnectAlso.Misc
