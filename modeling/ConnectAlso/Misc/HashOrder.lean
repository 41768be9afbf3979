import Mathlib.Data.List.Nodup

/-!
# Maps that yield their entries in any order

A hash map is the list of its entries in the order in which it yields them. The order
is not determined by the operations: a `HashOrder` may rearrange the entries after every
insertion. What is found by a scan that only one entry can stop does not depend on it;
otherwise there is an order in which any given entry comes first.
-/

namespace ConnectAlso.Misc

variable {κ : Type u} {α : Type v}

/-- How a map arranges its entries. -/
structure HashOrder (κ : Type u) (α : Type v) where
  arrange : List (κ × α) → List (κ × α)
  perm : ∀ entries, (arrange entries).Perm entries

/-- The order in which entries are inserted, the last one first. -/
def HashOrder.newestFirst : HashOrder κ α := ⟨id, fun _ => List.Perm.refl _⟩

/-- No two entries have the same key. -/
def KeysNodup (entries : List (κ × α)) : Prop := (entries.map Prod.fst).Nodup

/-- Two entries with the same key are the same entry. -/
theorem KeysNodup.eq_of_key {entries : List (κ × α)} (h : KeysNodup entries) {a b : κ × α}
    (ha : a ∈ entries) (hb : b ∈ entries) (hkey : a.1 = b.1) : a = b :=
  List.inj_on_of_nodup_map h ha hb hkey

/-- The scan of a map finds the entry that alone meets the condition. -/
theorem find?_eq_of_unique {entries : List (κ × α)} {p : κ × α → Bool} {e : κ × α}
    (he : e ∈ entries) (hp : p e = true) (honly : ∀ a ∈ entries, p a = true → a = e) :
    entries.find? p = some e := by
  cases hfind : entries.find? p with
  | none => exact absurd hp (List.find?_eq_none.mp hfind e he)
  | some a => rw [honly a (List.mem_of_find?_eq_some hfind) (List.find?_some hfind)]

variable [DecidableEq κ]

/-- The order that puts the entries of one key before all others. -/
def HashOrder.leading (key : κ) : HashOrder κ α where
  arrange entries := entries.filter (fun e => e.1 = key) ++ entries.filter (fun e => ¬ e.1 = key)
  perm entries := by
    simpa only [decide_not] using List.filter_append_perm (fun e => decide (e.1 = key)) entries

/-- `HashMap::insert`. -/
def insertEntry (order : HashOrder κ α) (entries : List (κ × α)) (key : κ) (value : α) :
    List (κ × α) :=
  order.arrange ((key, value) :: entries.filter fun e => e.1 ≠ key)

theorem mem_insertEntry {order : HashOrder κ α} {entries : List (κ × α)} {key : κ} {value : α}
    {e : κ × α} :
    e ∈ insertEntry order entries key value ↔ e = (key, value) ∨ e ∈ entries ∧ e.1 ≠ key := by
  rw [insertEntry, (order.perm _).mem_iff, List.mem_cons, List.mem_filter, decide_eq_true_iff]

/-- A new value for a key leaves one entry of the key. -/
theorem keysNodup_cons_filter {entries : List (κ × α)} (h : KeysNodup entries) (key : κ)
    (value : α) : KeysNodup ((key, value) :: entries.filter fun e => e.1 ≠ key) := by
  refine List.nodup_cons.mpr ⟨?_, h.sublist (List.filter_sublist.map _)⟩
  intro hmem
  obtain ⟨e, he, hkey⟩ := List.mem_map.mp hmem
  exact of_decide_eq_true (List.mem_filter.mp he).2 hkey

theorem keysNodup_insertEntry (order : HashOrder κ α) {entries : List (κ × α)}
    (h : KeysNodup entries) (key : κ) (value : α) :
    KeysNodup (insertEntry order entries key value) :=
  ((order.perm _).map Prod.fst).nodup_iff.mpr (keysNodup_cons_filter h key value)

/-! ## Several insertions -/

/-- The value that a list of entries has last for the key. -/
def lastValue : List (κ × α) → κ → Option α
  | [], _ => none
  | e :: rest, key => (lastValue rest key).or (if e.1 = key then some e.2 else none)

/-- One insertion after another. -/
def insertEntries (order : HashOrder κ α) (entries inserted : List (κ × α)) : List (κ × α) :=
  inserted.foldl (fun entries e => insertEntry order entries e.1 e.2) entries

/-- The last insertion for a key counts; an entry whose key is not inserted stays. -/
theorem mem_insertEntries {order : HashOrder κ α} {entries inserted : List (κ × α)} {e : κ × α} :
    e ∈ insertEntries order entries inserted ↔
      lastValue inserted e.1 = some e.2 ∨ lastValue inserted e.1 = none ∧ e ∈ entries := by
  induction inserted generalizing entries with
  | nil => simp [insertEntries, lastValue]
  | cons first rest ih =>
      rw [insertEntries, List.foldl_cons, ← insertEntries, ih, mem_insertEntry, lastValue]
      cases lastValue rest e.1 with
      | some value => simp
      | none =>
          by_cases hkey : first.1 = e.1
          · simp [hkey, Prod.ext_iff, eq_comm]
          · simp [hkey, Ne.symm hkey, Prod.ext_iff]

/-- Some insertion is the last one for its key. -/
theorem exists_lastValue {inserted : List (κ × α)} (h : inserted ≠ []) :
    ∃ e ∈ inserted, lastValue inserted e.1 = some e.2 := by
  induction inserted with
  | nil => exact absurd rfl h
  | cons first rest ih =>
      cases rest with
      | nil => exact ⟨first, List.mem_cons_self, by simp [lastValue]⟩
      | cons second later =>
          obtain ⟨e, he, hlast⟩ := ih (List.cons_ne_nil _ _)
          exact ⟨e, List.mem_cons_of_mem _ he, by rw [lastValue, hlast]; rfl⟩

/-- Insertions of new entries change the map, unless there are none. -/
theorem insertEntries_same_iff {order : HashOrder κ α} {entries inserted : List (κ × α)}
    (hnew : ∀ e ∈ inserted, e ∉ entries) :
    (∀ e, e ∈ insertEntries order entries inserted ↔ e ∈ entries) ↔ inserted = [] := by
  constructor
  · intro hsame
    by_contra hsome
    obtain ⟨e, he, hlast⟩ := exists_lastValue hsome
    exact hnew e he ((hsame e).mp (mem_insertEntries.mpr (Or.inl hlast)))
  · rintro rfl e
    exact Iff.rfl

/-! ## An entry that comes first -/

/-- The entry of the key, if there is one, comes first. -/
def Leads (key : κ) (entries : List (κ × α)) : Prop :=
  ∀ e ∈ entries, e.1 = key → entries.head? = some e

omit [DecidableEq κ] in
theorem leads_nil (key : κ) : Leads key ([] : List (κ × α)) := by
  intro e he
  cases he

theorem leads_arrange {entries : List (κ × α)} (h : KeysNodup entries) (lead : κ) :
    Leads lead ((HashOrder.leading lead).arrange entries) := by
  intro e he hkey
  have hmem : e ∈ entries := ((HashOrder.leading lead).perm entries).mem_iff.mp he
  have hfirst : e ∈ entries.filter fun e => e.1 = lead :=
    List.mem_filter.mpr ⟨hmem, decide_eq_true hkey⟩
  show (entries.filter (fun e => e.1 = lead) ++ entries.filter fun e => ¬ e.1 = lead).head? = some e
  cases hlist : entries.filter fun e => e.1 = lead with
  | nil =>
      rw [hlist] at hfirst
      cases hfirst
  | cons first rest =>
      have hhead : first ∈ entries.filter fun e => e.1 = lead := hlist ▸ List.mem_cons_self
      obtain ⟨hfound, hlead⟩ := List.mem_filter.mp hhead
      have hsame := h.eq_of_key hfound hmem ((of_decide_eq_true hlead).trans hkey.symm)
      rw [List.cons_append, List.head?_cons, hsame]

theorem leads_insertEntry {entries : List (κ × α)} (h : KeysNodup entries) (lead key : κ)
    (value : α) : Leads lead (insertEntry (HashOrder.leading lead) entries key value) :=
  leads_arrange (keysNodup_cons_filter h key value) lead

omit [DecidableEq κ] in
/-- A scan stops at the entry that comes first, if that meets the condition. -/
theorem Leads.find?_eq {key : κ} {entries : List (κ × α)} (h : Leads key entries) {e : κ × α}
    (he : e ∈ entries) (hkey : e.1 = key) {p : κ × α → Bool} (hp : p e = true) :
    entries.find? p = some e := by
  have hhead := h e he hkey
  cases entries with
  | nil => cases he
  | cons first rest =>
      obtain rfl := Option.some.inj hhead
      exact List.find?_cons_of_pos hp

end ConnectAlso.Misc
