import Mathlib.Algebra.Order.Group.Nat
import Mathlib.Data.List.Basic

/-!
# Slices of text by bytes

Text is a sequence of characters, and each takes one to four bytes in UTF-8. A slice that is
given by byte positions exists only where these are positions between characters.
-/

namespace ConnectAlso.Misc

/-- The number of bytes of the characters in UTF-8. -/
def byteLen : List Char → Nat
  | [] => 0
  | c :: cs => c.utf8Size + byteLen cs

@[simp] theorem byteLen_nil : byteLen [] = 0 := rfl

@[simp] theorem byteLen_cons (c : Char) (cs : List Char) :
    byteLen (c :: cs) = c.utf8Size + byteLen cs := rfl

@[simp] theorem byteLen_append (cs ds : List Char) :
    byteLen (cs ++ ds) = byteLen cs + byteLen ds := by
  induction cs with
  | nil => simp
  | cons c cs ih => simp [ih, Nat.add_assoc]

/-- The characters that make up the first `n` bytes, if there are such characters. -/
def takeBytes : List Char → Nat → Option (List Char)
  | _, 0 => some []
  | [], _ + 1 => none
  | c :: cs, n + 1 =>
    if c.utf8Size ≤ n + 1 then (takeBytes cs (n + 1 - c.utf8Size)).map (c :: ·) else none

/-- Position `n` is inside a character. -/
def Splits (cs : List Char) (n : Nat) : Prop :=
  ∃ before c after, cs = before ++ c :: after ∧ byteLen before < n ∧
    n < byteLen before + c.utf8Size

@[simp] theorem takeBytes_zero (cs : List Char) : takeBytes cs 0 = some [] := by
  cases cs <;> rfl

theorem takeBytes_cons {c : Char} {cs : List Char} {n : Nat} (hn : 0 < n) :
    takeBytes (c :: cs) n =
      if c.utf8Size ≤ n then (takeBytes cs (n - c.utf8Size)).map (c :: ·) else none := by
  cases n with
  | zero => omega
  | succ n => rfl

/-- Within the text, a slice does not exist exactly where its end is inside a character. -/
theorem takeBytes_eq_none_iff {cs : List Char} {n : Nat} (hn : n ≤ byteLen cs) :
    takeBytes cs n = none ↔ Splits cs n := by
  induction cs generalizing n with
  | nil =>
      obtain rfl : n = 0 := by simpa using hn
      simp [Splits]
  | cons c cs ih =>
      rcases Nat.eq_zero_or_pos n with rfl | hpos
      · simp [Splits]
      · rw [takeBytes_cons hpos]
        by_cases hle : c.utf8Size ≤ n
        · rw [if_pos hle, Option.map_eq_none_iff, ih (by rw [byteLen_cons] at hn; omega)]
          constructor
          · rintro ⟨before, d, after, rfl, hlt, hgt⟩
            refine ⟨c :: before, d, after, rfl, ?_, ?_⟩
            · rw [byteLen_cons]
              omega
            · rw [byteLen_cons]
              omega
          · rintro ⟨before, d, after, hsplit, hlt, hgt⟩
            cases before with
            | nil =>
                obtain ⟨rfl, rfl⟩ := List.cons.inj hsplit
                simp only [byteLen_nil] at hgt
                omega
            | cons b before =>
                obtain ⟨rfl, rfl⟩ := List.cons.inj hsplit
                rw [byteLen_cons] at hlt hgt
                exact ⟨before, d, after, rfl, by omega, by omega⟩
        · rw [if_neg hle]
          refine iff_of_true rfl ⟨[], c, cs, rfl, hpos, ?_⟩
          rw [byteLen_nil]
          omega

/-- At the end of the text there is no character to be inside of. -/
theorem not_splits_of_le {cs : List Char} {n : Nat} (h : byteLen cs ≤ n) : ¬ Splits cs n := by
  rintro ⟨before, c, after, rfl, -, hgt⟩
  rw [byteLen_append, byteLen_cons] at h
  omega

end ConnectAlso.Misc
