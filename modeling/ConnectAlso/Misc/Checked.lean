import ConnectAlso.Misc.Bytes

/-!
# Programs that check their indices

Reading a slice at an index, cutting a part out of it and arithmetic on indices end a
program when they go wrong: a `Checked` computation returns a value or stops. Whether
signed arithmetic stops or wraps when its result does not fit is up to the build. A loop is a
body that is done or goes on with another state; `iterate` runs it for a number of rounds,
and `iterate_eq` says how many are enough, by a measure that each round lowers.
-/

namespace ConnectAlso.Misc

/-- Why a program stops. -/
inductive Panic where
  | indexOutOfBounds
  | sliceOutOfRange
  | arithmeticOverflow
  | lengthMismatch
  deriving DecidableEq, Repr

/-- A computation that returns or stops. -/
abbrev Checked := Except Panic

@[simp] theorem checked_bind_ok {α β : Type} (a : α) (f : α → Checked β) :
    ((.ok a : Checked α) >>= f) = f a := rfl

@[simp] theorem checked_pure {α : Type} (a : α) : (pure a : Checked α) = .ok a := rfl

/-! ## Slices -/

/-- `bytes[i]`. -/
def readAt (bytes : List UInt8) (i : Nat) : Checked UInt8 :=
  if h : i < bytes.length then .ok bytes[i] else .error .indexOutOfBounds

/-- `&bytes[i..j]`. -/
def readSlice (bytes : List UInt8) (i j : Nat) : Checked (List UInt8) :=
  if i ≤ j ∧ j ≤ bytes.length then .ok (slice bytes i j) else .error .sliceOutOfRange

theorem readAt_of_lt {bytes : List UInt8} {i : Nat} (h : i < bytes.length) :
    readAt bytes i = .ok bytes[i] := dif_pos h

theorem readSlice_of_le {bytes : List UInt8} {i j : Nat} (hi : i ≤ j) (hj : j ≤ bytes.length) :
    readSlice bytes i j = .ok (slice bytes i j) := if_pos ⟨hi, hj⟩

/-- A slice of two bytes. -/
theorem slice_two {bytes : List UInt8} {i : Nat} (h : i + 2 ≤ bytes.length) :
    slice bytes i (i + 2) = [bytes[i], bytes[i + 1]] := by
  rw [slice, Nat.add_sub_cancel_left, List.drop_eq_getElem_cons (by omega),
    List.drop_eq_getElem_cons (by omega)]
  rfl

/-! ## Indices -/

/-- The width of `usize`. -/
structure Platform where
  bits : Nat
  wide : 32 ≤ bits

namespace Platform

variable (p : Platform)

/-- `usize::MAX`. -/
def usizeMax : Nat := 2 ^ p.bits - 1

/-- `isize::MAX`, which bounds the size of whatever is in memory. -/
def isizeMax : Nat := 2 ^ (p.bits - 1) - 1

/-- A byte slice. -/
structure Slice where
  bytes : List UInt8
  fits : bytes.length ≤ p.isizeMax

/-- `a + b` on `usize`. -/
def add (a b : Nat) : Checked Nat :=
  if a + b ≤ p.usizeMax then .ok (a + b) else .error .arithmeticOverflow

/-- `a - b` on `usize`. -/
def sub (_p : Platform) (a b : Nat) : Checked Nat :=
  if b ≤ a then .ok (a - b) else .error .arithmeticOverflow

/-- `bytes[pos + k]`. -/
def readOffset (bytes : List UInt8) (pos k : Nat) : Checked UInt8 := do
  let i ← p.add pos k
  readAt bytes i

/-- `u16::from_be_bytes([bytes[pos + k], bytes[pos + k + 1]])`. -/
def readU16 (bytes : List UInt8) (pos k : Nat) : Checked UInt16 := do
  let b0 ← p.readOffset bytes pos k
  let b1 ← p.readOffset bytes pos (k + 1)
  return UInt16.ofNat (ofBeBytes [b0, b1])

/-- `u32::from_be_bytes` of the four bytes from `pos + k` on. -/
def readU32 (bytes : List UInt8) (pos k : Nat) : Checked UInt32 := do
  let b0 ← p.readOffset bytes pos k
  let b1 ← p.readOffset bytes pos (k + 1)
  let b2 ← p.readOffset bytes pos (k + 2)
  let b3 ← p.readOffset bytes pos (k + 3)
  return UInt32.ofNat (ofBeBytes [b0, b1, b2, b3])

/-- No index into a slice is near `usize::MAX`. -/
theorem isizeMax_add_le {k : Nat} (h : k ≤ 2 ^ 31) : p.isizeMax + k ≤ p.usizeMax := by
  have hwide : 2 ^ 31 ≤ 2 ^ (p.bits - 1) :=
    Nat.pow_le_pow_right (by decide) (Nat.sub_le_sub_right p.wide 1)
  have hdouble : 2 ^ p.bits = 2 ^ (p.bits - 1) * 2 := by
    rw [← Nat.pow_succ, Nat.succ_eq_add_one, Nat.sub_add_cancel (by have := p.wide; omega)]
  unfold isizeMax usizeMax
  omega

theorem isizeMax_le_usizeMax : p.isizeMax ≤ p.usizeMax := p.isizeMax_add_le (Nat.zero_le _)

variable {p}

theorem add_of_le {a b : Nat} (h : a + b ≤ p.usizeMax) : p.add a b = .ok (a + b) := if_pos h

theorem sub_of_le {a b : Nat} (h : b ≤ a) : p.sub a b = .ok (a - b) := if_pos h

variable {bytes : List UInt8} {pos k : Nat}

theorem readOffset_of_lt (hmax : bytes.length ≤ p.usizeMax) (h : pos + k < bytes.length) :
    p.readOffset bytes pos k = .ok bytes[pos + k] := by
  rw [readOffset, add_of_le (by omega), checked_bind_ok, readAt_of_lt h]

theorem readU16_of_le (hmax : bytes.length ≤ p.usizeMax) (h : pos + k + 2 ≤ bytes.length) :
    p.readU16 bytes pos k = .ok (beU16 bytes (pos + k)) := by
  rw [readU16, readOffset_of_lt hmax (by omega), checked_bind_ok,
    readOffset_of_lt hmax (by omega), checked_bind_ok, beU16, slice_two h]
  rfl

theorem readU32_of_le (hmax : bytes.length ≤ p.usizeMax) (h : pos + k + 4 ≤ bytes.length) :
    p.readU32 bytes pos k = .ok (beU32 bytes (pos + k)) := by
  have hslice : slice bytes (pos + k) (pos + k + 4) =
      [bytes[pos + k], bytes[pos + (k + 1)], bytes[pos + (k + 2)], bytes[pos + (k + 3)]] := by
    rw [slice, Nat.add_sub_cancel_left, List.drop_eq_getElem_cons (by omega),
      List.drop_eq_getElem_cons (by omega), List.drop_eq_getElem_cons (by omega),
      List.drop_eq_getElem_cons (by omega)]
    rfl
  rw [readU32, readOffset_of_lt hmax (by omega), checked_bind_ok,
    readOffset_of_lt hmax (by omega), checked_bind_ok, readOffset_of_lt hmax (by omega),
    checked_bind_ok, readOffset_of_lt hmax (by omega), checked_bind_ok, beU32, hslice]
  rfl

end Platform

/-! ## Signed integers -/

/-- The number is one of `i64`. -/
def FitsI64 (n : Int) : Prop := -2 ^ 63 ≤ n ∧ n < 2 ^ 63

instance (n : Int) : Decidable (FitsI64 n) := inferInstanceAs (Decidable (_ ∧ _))

/-- The number of `i64` that agrees with `n` modulo `2 ^ 64`. -/
def wrapI64 (n : Int) : Int := n.bmod (2 ^ 64)

theorem wrapI64_of_fits {n : Int} (h : FitsI64 n) : wrapI64 n = n :=
  Int.bmod_eq_of_le h.1 h.2

/-- `x - y` on `i64`, built with overflow checks or without. -/
def subI64 (overflowChecks : Bool) (x y : Int64) : Checked Int64 :=
  if overflowChecks ∧ ¬ FitsI64 (x.toInt - y.toInt) then .error .arithmeticOverflow
  else .ok (x - y)

/-- A difference is returned unless it is checked and does not fit. -/
theorem subI64_cases (overflowChecks : Bool) (x y : Int64) :
    (overflowChecks = true ∧ ¬ FitsI64 (x.toInt - y.toInt) ∧
      subI64 overflowChecks x y = .error .arithmeticOverflow) ∨
    (overflowChecks = false ∨ FitsI64 (x.toInt - y.toInt)) ∧
      ∃ z : Int64, z.toInt = wrapI64 (x.toInt - y.toInt) ∧ subI64 overflowChecks x y = .ok z := by
  by_cases hstops : overflowChecks = true ∧ ¬ FitsI64 (x.toInt - y.toInt)
  · exact Or.inl ⟨hstops.1, hstops.2, if_pos hstops⟩
  · refine Or.inr ⟨?_, x - y, Int64.toInt_sub x y, if_neg hstops⟩
    rcases Bool.eq_false_or_eq_true overflowChecks with hchecks | hchecks
    · exact Or.inr (not_not.mp fun hfits => hstops ⟨hchecks, hfits⟩)
    · exact Or.inl hchecks

/-! ## Loops -/

/-- How a round of a loop ends. -/
inductive Round (σ β : Type) where
  | next (state : σ)
  | done (result : β)
  deriving DecidableEq, Repr

variable {σ β : Type}

/-- A loop for a number of rounds: `none` when it is not done after them. -/
def iterate (body : σ → Checked (Round σ β)) : Nat → σ → Option (Checked β)
  | 0, _ => none
  | rounds + 1, state =>
    match body state with
    | .error panic => some (.error panic)
    | .ok (.done result) => some (.ok result)
    | .ok (.next state) => iterate body rounds state

/-- A loop computes `f` if its body, under an invariant, is done with the value of `f` or
    goes on with a state that has the same value and a lower measure. -/
theorem iterate_eq {body : σ → Checked (Round σ β)} {f : σ → β} {J : σ → Prop} {m : σ → Nat}
    (hbody : ∀ s, J s → body s = .ok (.done (f s)) ∨
      ∃ s', body s = .ok (.next s') ∧ J s' ∧ m s' < m s ∧ f s' = f s)
    {rounds : Nat} {start : σ} (hstart : J start) (hrounds : m start < rounds) :
    iterate body rounds start = some (.ok (f start)) := by
  induction rounds generalizing start with
  | zero => exact absurd hrounds (Nat.not_lt_zero _)
  | succ rounds ih =>
      rw [iterate]
      rcases hbody start hstart with hdone | ⟨later, hnext, hlater, hless, hsame⟩
      · rw [hdone]
      · rw [hnext, ← hsame]
        exact ih hlater (by omega)

end ConnectAlso.Misc
