import Mathlib.Data.List.Nodup
import Mathlib.Data.List.Range
import Mathlib.Data.Nat.ModEq

/-!
# Wrapping counters

A counter modulo `M` that is read and then incremented hands out
`start, start + 1, …` modulo `M`. One counter repeats itself exactly after `M`
draws. Two counters that start at `0` and at `offset` stay apart exactly while
neither has reached the start of the other.
-/

namespace ConnectAlso.Misc

/-- The first `count` values of a counter modulo `M`. -/
def drawn (M start count : Nat) : List Nat :=
  (List.range count).map fun i => (start + i) % M

@[simp] theorem drawn_zero (M start : Nat) : drawn M start 0 = [] := rfl

theorem drawn_succ (M start count : Nat) :
    drawn M start (count + 1) = drawn M start count ++ [(start + count) % M] := by
  simp [drawn, List.range_succ]

theorem mem_drawn {M start count value : Nat} :
    value ∈ drawn M start count ↔ ∃ i < count, (start + i) % M = value := by
  simp [drawn]

/-- A counter repeats a value exactly when it is drawn from more than `M` times. -/
theorem nodup_drawn_iff {M : Nat} (hM : 0 < M) (start count : Nat) :
    (drawn M start count).Nodup ↔ count ≤ M := by
  refine ⟨?_, ?_⟩
  · intro hnodup
    by_contra hlarge
    have hinj := List.inj_on_of_nodup_map hnodup
    have hzero : 0 ∈ List.range count := List.mem_range.mpr (by omega)
    have hwrap : M ∈ List.range count := List.mem_range.mpr (by omega)
    have heq := hinj hzero hwrap (by simp)
    omega
  · intro hcount
    apply List.nodup_range.map_on
    intro i hi j hj heq
    have hi := List.mem_range.mp hi
    have hj := List.mem_range.mp hj
    have hmod : i ≡ j [MOD M] := Nat.ModEq.add_left_cancel' start heq
    exact hmod.eq_of_lt_of_lt (by omega) (by omega)

/-- Two counters started at `0` and `offset`, both drawn from at least once,
    share a value exactly when one of them has reached the start of the other. -/
theorem disjoint_drawn_iff {M offset m n : Nat} (hM : offset < M) (hm : 0 < m) (hn : 0 < n) :
    (drawn M 0 m).Disjoint (drawn M offset n) ↔ m ≤ offset ∧ n ≤ M - offset := by
  refine ⟨?_, ?_⟩
  · intro hdisj
    refine ⟨?_, ?_⟩
    · by_contra hlarge
      have hfirst : offset ∈ drawn M 0 m :=
        mem_drawn.mpr ⟨offset, by omega, by rw [Nat.zero_add]; exact Nat.mod_eq_of_lt hM⟩
      have hsecond : offset ∈ drawn M offset n :=
        mem_drawn.mpr ⟨0, hn, by rw [Nat.add_zero]; exact Nat.mod_eq_of_lt hM⟩
      exact hdisj hfirst hsecond
    · by_contra hlarge
      have hfirst : 0 ∈ drawn M 0 m := mem_drawn.mpr ⟨0, hm, by simp⟩
      have hsecond : 0 ∈ drawn M offset n := by
        refine mem_drawn.mpr ⟨M - offset, by omega, ?_⟩
        rw [Nat.add_sub_cancel' (Nat.le_of_lt hM), Nat.mod_self]
      exact hdisj hfirst hsecond
  · rintro ⟨hbelow, habove⟩ value hfirst hsecond
    obtain ⟨i, hi, rfl⟩ := mem_drawn.mp hfirst
    obtain ⟨j, hj, heq⟩ := mem_drawn.mp hsecond
    rw [Nat.mod_eq_of_lt (by omega), Nat.mod_eq_of_lt (by omega)] at heq
    omega

/-- The exact condition under which the values of two such counters, taken
    together, have no repetition. -/
theorem nodup_drawn_append_iff {M offset : Nat} (hM : offset < M) (m n : Nat) :
    (drawn M 0 m ++ drawn M offset n).Nodup ↔
      (m = 0 ∧ n ≤ M) ∨ (n = 0 ∧ m ≤ M) ∨ (m ≤ offset ∧ n ≤ M - offset) := by
  have hpos : 0 < M := by omega
  rw [List.nodup_append', nodup_drawn_iff hpos, nodup_drawn_iff hpos]
  rcases Nat.eq_zero_or_pos m with rfl | hm
  · simp only [drawn_zero, List.disjoint_nil_left, and_true, true_and]
    omega
  · rcases Nat.eq_zero_or_pos n with rfl | hn
    · simp only [drawn_zero, List.disjoint_nil_right, and_true, true_and]
      omega
    · rw [disjoint_drawn_iff hM hm hn]
      omega

end ConnectAlso.Misc
