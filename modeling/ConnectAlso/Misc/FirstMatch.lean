import Mathlib.Data.List.Sort

/-!
# First match after a stable sort

A list is sorted by a key, equal keys in their order in the list, and searched for the
first element that meets a condition. What is found is the least one that meets it, by
key and then by position; so it depends only on the order among elements with the same
key. The relation that the sort uses is a parameter, tied to the key by `hr`.
-/

namespace ConnectAlso.Misc

variable {α κ : Type} [LinearOrder κ] {r : α → α → Prop} [DecidableRel r] {key : α → κ}

/-- Element `a` at position `i` is the least in (key, position) that meets `q`. -/
def LeastAt (key : α → κ) (q : α → Prop) (l : List α) (i : Nat) (a : α) : Prop :=
  l[i]? = some a ∧ q a ∧
    ∀ j b, l[j]? = some b → q b → key a < key b ∨ key a = key b ∧ i ≤ j

theorem leastAt_congr {q q' : α → Prop} {l : List α} (h : ∀ a ∈ l, q a ↔ q' a) {i : Nat} {a : α} :
    LeastAt key q l i a ↔ LeastAt key q' l i a := by
  refine and_congr_right fun hi => and_congr (h a (List.mem_of_getElem? hi)) ?_
  refine forall_congr' fun j => forall_congr' fun b => imp_congr_right fun hj => ?_
  exact imp_congr (h b (List.mem_of_getElem? hj)) Iff.rfl

theorem filter_orderedInsert (hr : ∀ a b, r a b ↔ key a ≤ key b) (k : κ) (a : α) (l : List α) :
    (l.orderedInsert r a).filter (fun b => key b = k) =
      (a :: l).filter (fun b => key b = k) := by
  induction l with
  | nil => rfl
  | cons b l ih =>
      rw [List.orderedInsert_cons]
      by_cases hab : r a b
      · rw [if_pos hab]
      · rw [if_neg hab, List.filter_cons, ih]
        have hlt : key b < key a := not_le.mp fun hle => hab ((hr a b).mpr hle)
        by_cases hb : key b = k
        · have ha : key a ≠ k := fun ha => absurd (hb.trans ha.symm) hlt.ne
          simp [ha, hb]
        · simp [List.filter_cons, hb]

/-- The sort is stable: elements with the same key keep their order. -/
theorem filter_insertionSort (hr : ∀ a b, r a b ↔ key a ≤ key b) (k : κ) (l : List α) :
    (l.insertionSort r).filter (fun b => key b = k) = l.filter (fun b => key b = k) := by
  induction l with
  | nil => rfl
  | cons a l ih =>
      rw [List.insertionSort_cons, filter_orderedInsert hr, List.filter_cons, ih, List.filter_cons]

/-- In a sorted list, the first match is the first one of the least key with a match. -/
theorem find?_eq_some_iff_of_sorted {s : List α} (hs : s.Pairwise fun a b => key a ≤ key b)
    {q : α → Bool} {a : α} :
    s.find? q = some a ↔
      (s.filter fun b => key b = key a).find? q = some a ∧
        ∀ b ∈ s, q b = true → key a ≤ key b := by
  induction s with
  | nil => simp
  | cons c s ih =>
      obtain ⟨hc, hs⟩ := List.pairwise_cons.mp hs
      by_cases hq : q c = true
      · rw [List.find?_cons_of_pos hq, Option.some.injEq]
        refine ⟨?_, ?_⟩
        · rintro rfl
          refine ⟨by simp [hq], ?_⟩
          intro b hb _
          rcases List.mem_cons.mp hb with rfl | hb
          · exact le_refl _
          · exact hc b hb
        · rintro ⟨hfind, hleast⟩
          have hkey : key c = key a := by
            apply le_antisymm
            · rcases List.mem_cons.mp (List.mem_of_mem_filter (List.mem_of_find?_eq_some hfind)) with
                rfl | ha
              · exact le_refl _
              · exact hc a ha
            · exact hleast c List.mem_cons_self hq
          rw [List.filter_cons_of_pos (by simpa using hkey), List.find?_cons_of_pos hq] at hfind
          exact Option.some.inj hfind
      · rw [List.find?_cons_of_neg hq, ih hs]
        refine and_congr ?_ ?_
        · by_cases hkey : key c = key a
          · rw [List.filter_cons_of_pos (by simpa using hkey), List.find?_cons_of_neg hq]
          · rw [List.filter_cons_of_neg (by simpa using hkey)]
        · simp [hq]

/-- The first match in the sorted list, in terms of the list itself. -/
theorem find?_insertionSort (hr : ∀ a b, r a b ↔ key a ≤ key b) {l : List α} {q : α → Bool}
    {a : α} :
    (l.insertionSort r).find? q = some a ↔
      (l.filter fun b => key b = key a).find? q = some a ∧
        ∀ b ∈ l, q b = true → key a ≤ key b := by
  have htotal : Std.Total r := ⟨fun a b => by simpa only [hr] using le_total (key a) (key b)⟩
  have htrans : IsTrans α r := ⟨fun a b c hab hbc =>
    (hr a c).mpr (le_trans ((hr a b).mp hab) ((hr b c).mp hbc))⟩
  have hsorted : (l.insertionSort r).Pairwise fun a b => key a ≤ key b :=
    (List.pairwise_insertionSort r l).imp fun {a b} => (hr a b).mp
  rw [find?_eq_some_iff_of_sorted hsorted, filter_insertionSort hr]
  simp only [List.mem_insertionSort]

/-- The first match in the sorted list is the least match in (key, position). -/
theorem find?_insertionSort_iff_leastAt (hr : ∀ a b, r a b ↔ key a ≤ key b) {l : List α}
    {q : α → Bool} {a : α} :
    (l.insertionSort r).find? q = some a ↔ ∃ i, LeastAt key (fun b => q b = true) l i a := by
  rw [find?_insertionSort hr, List.find?_filter, List.find?_eq_some_iff_getElem]
  simp only [decide_eq_true_eq, Bool.not_eq_true', decide_eq_false_iff_not, true_and]
  refine ⟨?_, ?_⟩
  · rintro ⟨⟨hq, i, hi, ha, hfirst⟩, hleast⟩
    refine ⟨i, List.getElem?_eq_some_iff.mpr ⟨hi, ha⟩, hq, ?_⟩
    intro j b hj hb
    obtain ⟨hjl, rfl⟩ := List.getElem?_eq_some_iff.mp hj
    rcases (hleast _ (List.getElem_mem hjl) hb).lt_or_eq with hlt | heq
    · exact Or.inl hlt
    · refine Or.inr ⟨heq, ?_⟩
      by_contra hlt
      exact hfirst j (not_le.mp hlt) ⟨heq.symm, hb⟩
  · rintro ⟨i, hi, hq, hleast⟩
    obtain ⟨hil, ha⟩ := List.getElem?_eq_some_iff.mp hi
    refine ⟨⟨hq, i, hil, ha, ?_⟩, ?_⟩
    · rintro j hj ⟨heq, hb⟩
      rcases hleast j _ (List.getElem?_eq_getElem (hj.trans hil)) hb with hlt | ⟨-, hij⟩
      · exact absurd heq.symm hlt.ne
      · omega
    · intro b hb hqb
      obtain ⟨j, hj⟩ := List.getElem?_of_mem hb
      rcases hleast j b hj hqb with hlt | ⟨heq, -⟩
      · exact hlt.le
      · exact heq.le

/-- Two lists that have the same elements of each key, in the same order, give the same
    first match. -/
theorem find?_insertionSort_congr (hr : ∀ a b, r a b ↔ key a ≤ key b) {l l' : List α}
    (h : ∀ a, l.filter (fun b => key b = key a) = l'.filter (fun b => key b = key a))
    (q : α → Bool) :
    (l.insertionSort r).find? q = (l'.insertionSort r).find? q := by
  have hmem : ∀ b, b ∈ l ↔ b ∈ l' := by
    intro b
    have hfilter := congrArg (b ∈ ·) (h b)
    simpa using hfilter
  apply Option.ext
  intro a
  rw [find?_insertionSort hr, find?_insertionSort hr, h]
  simp only [hmem]

end ConnectAlso.Misc
