import Mathlib.Algebra.Order.Ring.Nat
import Mathlib.Data.Nat.ModEq

/-!
# Fixed-width integers as bytes

`leBytes k n` is the `k`-byte little-endian form of `n` modulo `256 ^ k`, and
`beBytes k n` the big-endian one; `ofLeBytes` and `ofBeBytes` read a byte list
back. Each pair is inverse on values that fit.
-/

namespace ConnectAlso.Misc

/-- The low `k` bytes of `n`, least significant first. -/
def leBytes : Nat → Nat → List UInt8
  | 0, _ => []
  | k + 1, n => UInt8.ofNat n :: leBytes k (n / 256)

/-- The number whose little-endian bytes are given. -/
def ofLeBytes : List UInt8 → Nat
  | [] => 0
  | b :: bs => b.toNat + 256 * ofLeBytes bs

/-- The low `k` bytes of `n`, most significant first. -/
def beBytes (k n : Nat) : List UInt8 := (leBytes k n).reverse

/-- The number whose big-endian bytes are given. -/
def ofBeBytes (bs : List UInt8) : Nat := ofLeBytes bs.reverse

@[simp] theorem leBytes_length (k n : Nat) : (leBytes k n).length = k := by
  induction k generalizing n with
  | zero => rfl
  | succ k ih => simp [leBytes, ih]

@[simp] theorem beBytes_length (k n : Nat) : (beBytes k n).length = k := by
  simp [beBytes]

theorem ofLeBytes_leBytes (k n : Nat) : ofLeBytes (leBytes k n) = n % 256 ^ k := by
  induction k generalizing n with
  | zero => simp [leBytes, ofLeBytes, Nat.mod_one]
  | succ k ih =>
      have hbyte : (UInt8.ofNat n).toNat = n % 256 := UInt8.toNat_ofNat'
      rw [leBytes, ofLeBytes, hbyte, ih, Nat.pow_succ', Nat.mod_mul]

theorem ofLeBytes_lt (bs : List UInt8) : ofLeBytes bs < 256 ^ bs.length := by
  induction bs with
  | nil => simp [ofLeBytes]
  | cons b bs ih =>
      have hb := b.toNat_lt
      simp only [ofLeBytes, List.length_cons, Nat.pow_succ']
      omega

theorem leBytes_ofLeBytes (bs : List UInt8) : leBytes bs.length (ofLeBytes bs) = bs := by
  induction bs with
  | nil => rfl
  | cons b bs ih =>
      have hb := b.toNat_lt
      have hlow : UInt8.ofNat (b.toNat + 256 * ofLeBytes bs) = b := by
        apply UInt8.toNat.inj
        rw [UInt8.toNat_ofNat']
        omega
      have hhigh : (b.toNat + 256 * ofLeBytes bs) / 256 = ofLeBytes bs := by omega
      rw [List.length_cons, ofLeBytes, leBytes, hlow, hhigh, ih]

theorem ofBeBytes_beBytes (k n : Nat) : ofBeBytes (beBytes k n) = n % 256 ^ k := by
  rw [ofBeBytes, beBytes, List.reverse_reverse, ofLeBytes_leBytes]

theorem ofBeBytes_lt (bs : List UInt8) : ofBeBytes bs < 256 ^ bs.length := by
  simpa [ofBeBytes] using ofLeBytes_lt bs.reverse

theorem beBytes_ofBeBytes (bs : List UInt8) : beBytes bs.length (ofBeBytes bs) = bs := by
  have h := leBytes_ofLeBytes bs.reverse
  rw [List.length_reverse] at h
  rw [beBytes, ofBeBytes, h, List.reverse_reverse]

/-! ## Slices -/

/-- `bs[i..j]`. -/
def slice (bs : List UInt8) (i j : Nat) : List UInt8 := (bs.drop i).take (j - i)

theorem slice_length {bs : List UInt8} {i j : Nat} (hj : j ≤ bs.length) :
    (slice bs i j).length = j - i := by
  simp only [slice, List.length_take, List.length_drop]
  omega

/-- A slice that covers exactly one part of a concatenation is that part. -/
theorem slice_append {before field after : List UInt8} {i j : Nat}
    (hi : i = before.length) (hj : j = before.length + field.length) :
    slice (before ++ field ++ after) i j = field := by
  subst hi hj
  rw [slice, List.append_assoc, List.drop_left, Nat.add_sub_cancel_left, List.take_left]

/-- A slice that lies behind the first part of a concatenation. -/
theorem slice_append_right (before after : List UInt8) (i j : Nat) :
    slice (before ++ after) (before.length + i) (before.length + j) = slice after i j := by
  rw [slice, slice, ← List.drop_drop, List.drop_left, Nat.add_sub_add_left]

/-- A slice and what follows it. -/
theorem slice_append_drop (bs : List UInt8) {i j : Nat} (h : i ≤ j) :
    slice bs i j ++ bs.drop j = bs.drop i := by
  have hj : bs.drop j = (bs.drop i).drop (j - i) := by
    rw [List.drop_drop, Nat.add_sub_cancel' h]
  rw [slice, hj, List.take_append_drop]

/-! ## Words in a message -/

/-- `u16::from_be_bytes` of the two bytes at an offset. -/
def beU16 (bytes : List UInt8) (offset : Nat) : UInt16 :=
  UInt16.ofNat (ofBeBytes (slice bytes offset (offset + 2)))

/-- `u32::from_be_bytes` of the four bytes at an offset. -/
def beU32 (bytes : List UInt8) (offset : Nat) : UInt32 :=
  UInt32.ofNat (ofBeBytes (slice bytes offset (offset + 4)))

/-- A word is read back at the offset at which it was written. -/
theorem beU16_append {before : List UInt8} {offset : Nat} (h : offset = before.length)
    (word : UInt16) (after : List UInt8) :
    beU16 (before ++ (beBytes 2 word.toNat ++ after)) offset = word := by
  have hword : word.toNat < 256 ^ 2 := word.toNat_lt
  rw [beU16, ← List.append_assoc, slice_append h (by rw [beBytes_length, h]), ofBeBytes_beBytes,
    Nat.mod_eq_of_lt hword, UInt16.ofNat_toNat]

theorem beU32_append {before : List UInt8} {offset : Nat} (h : offset = before.length)
    (word : UInt32) (after : List UInt8) :
    beU32 (before ++ (beBytes 4 word.toNat ++ after)) offset = word := by
  have hword : word.toNat < 256 ^ 4 := word.toNat_lt
  rw [beU32, ← List.append_assoc, slice_append h (by rw [beBytes_length, h]), ofBeBytes_beBytes,
    Nat.mod_eq_of_lt hword, UInt32.ofNat_toNat]

/-- A word that lies behind the first part of a concatenation. -/
theorem beU16_append_right (before after : List UInt8) (offset : Nat) :
    beU16 (before ++ after) (before.length + offset) = beU16 after offset := by
  rw [beU16, beU16, Nat.add_assoc, slice_append_right]

theorem beU32_append_right (before after : List UInt8) (offset : Nat) :
    beU32 (before ++ after) (before.length + offset) = beU32 after offset := by
  rw [beU32, beU32, Nat.add_assoc, slice_append_right]

/-- Two numbers that fit in `k` bytes and have the same bytes are equal. -/
theorem leBytes_inj {k m n : Nat} (hm : m < 256 ^ k) (hn : n < 256 ^ k) :
    leBytes k m = leBytes k n ↔ m = n := by
  constructor
  · intro h
    have hread := congrArg ofLeBytes h
    rwa [ofLeBytes_leBytes, ofLeBytes_leBytes, Nat.mod_eq_of_lt hm, Nat.mod_eq_of_lt hn] at hread
  · rintro rfl
    rfl

/-! ## Masks -/

/-- XOR with a mask that covers the text undoes itself. -/
theorem zipWith_xor_twice (text stream : List UInt8) (h : text.length ≤ stream.length) :
    List.zipWith (· ^^^ ·) (List.zipWith (· ^^^ ·) text stream) stream = text := by
  induction text generalizing stream with
  | nil => simp
  | cons byte text ih =>
      cases stream with
      | nil => simp at h
      | cons mask stream =>
          have hbyte : byte ^^^ mask ^^^ mask = byte := by
            rw [UInt8.xor_assoc, UInt8.xor_self, UInt8.xor_zero]
          rw [List.zipWith_cons_cons, List.zipWith_cons_cons, hbyte,
            ih stream (by simpa using h)]

/-- A mask of the length of the text leaves it as it is only where the mask is zero. -/
theorem zipWith_xor_eq_self_iff {text mask : List UInt8} (h : text.length = mask.length) :
    List.zipWith (· ^^^ ·) text mask = text ↔ mask = List.replicate mask.length 0 := by
  induction text generalizing mask with
  | nil =>
      obtain rfl := List.length_eq_zero_iff.mp h.symm
      simp
  | cons byte text ih =>
      cases mask with
      | nil => simp at h
      | cons mask rest =>
          have hrest := ih (Nat.succ.inj h)
          have hbyte : byte ^^^ mask = byte ↔ mask = 0 := by
            rw [← UInt8.xor_right_inj byte, ← UInt8.xor_assoc, UInt8.xor_self, UInt8.zero_xor]
          rw [List.zipWith_cons_cons, List.length_cons, List.replicate_succ, List.cons.injEq,
            List.cons.injEq, hbyte, hrest]

end ConnectAlso.Misc
