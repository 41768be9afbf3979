import ConnectAlso.Misc.Program
import Mathlib.Data.DFinsupp.WellFounded

/-!
# Programs with locks

Threads that take and give back locks around their operations on a shared state. When every
thread takes its locks in the order of a rank and gives back all that it takes, no
interleaving gets stuck: from every state that is reached some schedule lets every thread
finish (`exists_schedule_idle`).
-/

namespace ConnectAlso.Misc

/-- An operation of a thread: on a lock or on the shared state. -/
inductive LockOp (L : Type) (S : Signature) where
  | acquire (l : L)
  | release (l : L)
  | act (op : S.Op)

/-- The operations of `S` and those on locks. -/
abbrev Signature.withLocks (S : Signature) (L : Type) : Signature where
  Op := LockOp L S
  Answer
    | .acquire _ => Unit
    | .release _ => Unit
    | .act op => S.Answer op

namespace Program

variable {S : Signature} {L α β σ : Type}

/-- Perform an operation of `S`. -/
def act (op : S.Op) : Program (S.withLocks L) (S.Answer op) := call (.act op) done

/-- `let guard = l.lock().await; body`, with the guard dropped after the body. -/
def withLock (l : L) (body : Program (S.withLocks L) α) : Program (S.withLocks L) α :=
  call (.acquire l) fun _ => body >>= fun result => call (.release l) fun _ => done result

/-- The operations on the shared state alone. -/
def strip : Program (S.withLocks L) α → Program S α
  | done result => done result
  | call (.acquire _) next => strip (next ())
  | call (.release _) next => strip (next ())
  | call (.act op) next => call op fun answer => strip (next answer)

@[simp] theorem strip_done (result : α) :
    (done result : Program (S.withLocks L) α).strip = done result := rfl

@[simp] theorem strip_acquire (l : L) (next : Unit → Program (S.withLocks L) α) :
    (call (.acquire l) next : Program (S.withLocks L) α).strip = (next ()).strip := rfl

@[simp] theorem strip_release (l : L) (next : Unit → Program (S.withLocks L) α) :
    (call (.release l) next : Program (S.withLocks L) α).strip = (next ()).strip := rfl

@[simp] theorem strip_call_act (op : S.Op) (next : S.Answer op → Program (S.withLocks L) α) :
    (call (.act op) next : Program (S.withLocks L) α).strip =
      call op fun answer => (next answer).strip := rfl

@[simp] theorem strip_bind (p : Program (S.withLocks L) α)
    (f : α → Program (S.withLocks L) β) :
    (p >>= f).strip = p.strip >>= fun result => (f result).strip := by
  induction p with
  | done result => rfl
  | call op next ih =>
      cases op with
      | acquire l => exact ih ()
      | release l => exact ih ()
      | act op => exact congrArg (call op) (funext ih)

theorem bind_done_eq (p : Program S α) : (p >>= done) = p := by
  induction p with
  | done result => rfl
  | call op next ih => exact congrArg (call op) (funext ih)

@[simp] theorem strip_withLock (l : L) (body : Program (S.withLocks L) α) :
    (withLock l body).strip = body.strip := by
  rw [withLock, strip_acquire, strip_bind]
  exact bind_done_eq body.strip

/-! ## The order of locks -/

/-- A program that holds the locks in `held` takes only locks above those it holds, gives
    back only what it holds, and ends with the locks in `last`. -/
def Orderly (rank : L → Nat) (last : Set L) : Program (S.withLocks L) α → Set L → Prop
  | done _, held => held = last
  | call (.acquire l) next, held =>
    (∀ m ∈ held, rank m < rank l) ∧ Orderly rank last (next ()) (insert l held)
  | call (.release l) next, held => l ∈ held ∧ Orderly rank last (next ()) (held \ {l})
  | call (.act _) next, held => ∀ answer, Orderly rank last (next answer) held

section Orderly
variable {rank : L → Nat} {last mid held : Set L}

@[simp] theorem orderly_done (result : α) :
    (done result : Program (S.withLocks L) α).Orderly rank last held ↔ held = last := Iff.rfl

theorem Orderly.bind {p : Program (S.withLocks L) α} {f : α → Program (S.withLocks L) β}
    (hp : p.Orderly rank mid held) (hf : ∀ result, (f result).Orderly rank last mid) :
    (p >>= f).Orderly rank last held := by
  induction p generalizing held with
  | done result =>
      obtain rfl : held = mid := hp
      exact hf result
  | call op next ih =>
      cases op with
      | acquire l => exact ⟨hp.1, ih () hp.2⟩
      | release l => exact ⟨hp.1, ih () hp.2⟩
      | act op => exact fun answer => ih answer (hp answer)

/-- A guarded body gives its lock back. -/
theorem Orderly.withLock {l : L} {body : Program (S.withLocks L) α}
    (hrank : ∀ m ∈ held, rank m < rank l)
    (hbody : body.Orderly rank (insert l held) (insert l held)) :
    (withLock l body).Orderly rank held held := by
  refine ⟨hrank, hbody.bind ?_⟩
  intro result
  have hnew : l ∉ held := fun hl => Nat.lt_irrefl _ (hrank l hl)
  refine ⟨Set.mem_insert l held, ?_⟩
  exact Set.insert_sdiff_self_of_notMem hnew

end Orderly

/-! ## What is left of a program -/

/-- `p` is what `q` goes on with after an operation. -/
inductive Next : Program S α → Program S α → Prop where
  | call (op : S.Op) (next : S.Answer op → Program S α) (answer : S.Answer op) :
    Next (next answer) (.call op next)

theorem wellFounded_next : WellFounded (Next : Program S α → Program S α → Prop) := by
  constructor
  intro p
  induction p with
  | done result =>
      constructor
      intro q h
      cases h
  | call op next ih =>
      constructor
      intro q h
      cases h with
      | call _ _ answer => exact ih answer

end Program

/-! ## Many threads -/

/-- Programs in progress over one shared state, with the owners of the locks. -/
structure LockPool (S : Signature) (L ι α σ : Type) where
  owner : L → Option ι
  threads : ι → Program (S.withLocks L) α
  state : σ

namespace LockPool
open Program

variable {S : Signature} {L ι α σ : Type} [DecidableEq L] [DecidableEq ι]

/-- Thread `i` performs its next operation. It waits for a lock that is not free. -/
def step (h : Handler S σ) (pool : LockPool S L ι α σ) (i : ι) : LockPool S L ι α σ :=
  match pool.threads i with
  | .done _ => pool
  | .call (.acquire l) next =>
    if pool.owner l = none then
      { pool with
        owner := Function.update pool.owner l (some i)
        threads := Function.update pool.threads i (next ()) }
    else pool
  | .call (.release l) next =>
    { pool with
      owner := Function.update pool.owner l none
      threads := Function.update pool.threads i (next ()) }
  | .call (.act op) next =>
    { pool with
      threads := Function.update pool.threads i (next (h op pool.state).1)
      state := (h op pool.state).2 }

/-- The locks of thread `i`. -/
def heldBy (pool : LockPool S L ι α σ) (i : ι) : Set L := {l | pool.owner l = some i}

/-- The thread needs a lock that is not free. -/
def Waiting (pool : LockPool S L ι α σ) (i : ι) (l : L) : Prop :=
  (pool.owner l).isSome ∧ ∃ next, pool.threads i = .call (.acquire l) next

/-- What a step can do. -/
theorem step_cases (h : Handler S σ) (pool : LockPool S L ι α σ) (i : ι) :
    (pool.step h i = pool ∧ ((∃ result, pool.threads i = .done result) ∨ ∃ l, pool.Waiting i l)) ∨
    (∃ l next, pool.threads i = .call (.acquire l) next ∧ pool.owner l = none ∧
      pool.step h i = ⟨Function.update pool.owner l (some i),
        Function.update pool.threads i (next ()), pool.state⟩) ∨
    (∃ l next, pool.threads i = .call (.release l) next ∧
      pool.step h i = ⟨Function.update pool.owner l none,
        Function.update pool.threads i (next ()), pool.state⟩) ∨
    (∃ op next, pool.threads i = .call (.act op) next ∧
      pool.step h i = ⟨pool.owner, Function.update pool.threads i (next (h op pool.state).1),
        (h op pool.state).2⟩) := by
  cases hi : pool.threads i with
  | done result => exact Or.inl ⟨by simp [step, hi], Or.inl ⟨result, rfl⟩⟩
  | call op next =>
      cases op with
      | acquire l =>
          cases hl : pool.owner l with
          | none =>
              refine Or.inr (Or.inl ⟨l, next, rfl, hl, ?_⟩)
              simp [step, hi, hl]
          | some j =>
              refine Or.inl ⟨by simp [step, hi, hl], Or.inr ⟨l, ?_, next, hi⟩⟩
              rw [hl]
              rfl
      | release l =>
          refine Or.inr (Or.inr (Or.inl ⟨l, next, rfl, ?_⟩))
          simp [step, hi]
      | act op =>
          refine Or.inr (Or.inr (Or.inr ⟨op, next, rfl, ?_⟩))
          simp [step, hi]

/-- A thread that neither has finished nor waits goes on, and no other thread moves. -/
theorem step_next (h : Handler S σ) {pool : LockPool S L ι α σ} {i : ι}
    (hdone : ∀ result, pool.threads i ≠ .done result) (hwait : ∀ l, ¬ pool.Waiting i l) :
    ∃ p, Next p (pool.threads i) ∧
      (pool.step h i).threads = Function.update pool.threads i p := by
  rcases step_cases h pool i with ⟨-, ⟨result, hi⟩ | ⟨l, hl⟩⟩ | ⟨l, next, hi, -, hstep⟩ |
    ⟨l, next, hi, hstep⟩ | ⟨op, next, hi, hstep⟩
  · exact absurd hi (hdone result)
  · exact absurd hl (hwait l)
  · refine ⟨next (), ?_, by rw [hstep]⟩
    rw [hi]
    exact @Next.call (S.withLocks L) α (LockOp.acquire l) next ()
  · refine ⟨next (), ?_, by rw [hstep]⟩
    rw [hi]
    exact @Next.call (S.withLocks L) α (LockOp.release l) next ()
  · refine ⟨next (h op pool.state).1, ?_, by rw [hstep]⟩
    rw [hi]
    exact @Next.call (S.withLocks L) α (LockOp.act op) next (h op pool.state).1

/-! ## Locks in order -/

/-- Every thread is orderly from the locks it holds on, and will give them all back. -/
def InOrder (rank : L → Nat) (pool : LockPool S L ι α σ) : Prop :=
  ∀ i, (pool.threads i).Orderly rank ∅ (pool.heldBy i)

variable {rank : L → Nat}

theorem heldBy_take {pool : LockPool S L ι α σ} {l : L} (hfree : pool.owner l = none) (i j : ι)
    (threads : ι → Program (S.withLocks L) α) (state : σ) :
    heldBy ⟨Function.update pool.owner l (some i), threads, state⟩ j =
      if j = i then insert l (pool.heldBy i) else pool.heldBy j := by
  ext m
  by_cases hm : m = l
  · subst hm
    by_cases hj : j = i
    · simp [heldBy, hj]
    · simp [heldBy, hj, Ne.symm hj, hfree]
  · by_cases hj : j = i
    · simp [heldBy, hj, hm]
    · simp [heldBy, hj, hm]

theorem heldBy_give {pool : LockPool S L ι α σ} {l : L} {i : ι} (hl : pool.owner l = some i)
    (j : ι) (threads : ι → Program (S.withLocks L) α) (state : σ) :
    heldBy ⟨Function.update pool.owner l none, threads, state⟩ j =
      if j = i then pool.heldBy i \ {l} else pool.heldBy j := by
  ext m
  by_cases hm : m = l
  · subst hm
    by_cases hj : j = i
    · simp [heldBy, hj]
    · simp [heldBy, hj, Ne.symm hj, hl]
  · by_cases hj : j = i
    · simp [heldBy, hj, hm]
    · simp [heldBy, hj, hm]

/-- A step keeps the order. -/
theorem InOrder.step {pool : LockPool S L ι α σ} (hpool : pool.InOrder rank) (h : Handler S σ)
    (i : ι) : (pool.step h i).InOrder rank := by
  rcases step_cases h pool i with ⟨hstep, -⟩ | ⟨l, next, hi, hfree, hstep⟩ |
    ⟨l, next, hi, hstep⟩ | ⟨op, next, hi, hstep⟩
  · rw [hstep]
    exact hpool
  · have hthread := hpool i
    rw [hi] at hthread
    rw [hstep]
    intro j
    rw [heldBy_take hfree]
    by_cases hj : j = i
    · subst hj
      simpa using hthread.2
    · simpa [hj] using hpool j
  · have hthread := hpool i
    rw [hi] at hthread
    rw [hstep]
    intro j
    rw [heldBy_give hthread.1]
    by_cases hj : j = i
    · subst hj
      simpa using hthread.2
    · simpa [hj] using hpool j
  · have hthread := hpool i
    rw [hi] at hthread
    rw [hstep]
    intro j
    show Orderly rank ∅ (Function.update pool.threads i _ j) (pool.heldBy j)
    by_cases hj : j = i
    · subst hj
      simpa using hthread _
    · simpa [hj] using hpool j

omit [DecidableEq L] [DecidableEq ι] in
/-- While a thread has not finished, some thread neither has finished nor waits: follow the
    locks that are waited for upwards. -/
theorem InOrder.exists_ready {pool : LockPool S L ι α σ} (hpool : pool.InOrder rank) {bound : Nat}
    (hbound : ∀ l, rank l < bound) {i : ι} (hi : ∀ result, pool.threads i ≠ .done result) :
    ∃ j, (∀ result, pool.threads j ≠ .done result) ∧ ∀ l, ¬ pool.Waiting j l := by
  by_contra hall
  push Not at hall
  -- the lock that `i` waits for has a higher rank than any given one
  have hclimb : ∀ n, ∃ j l, (∀ result, pool.threads j ≠ .done result) ∧ pool.Waiting j l ∧
      n ≤ rank l := by
    intro n
    induction n with
    | zero =>
        obtain ⟨l, hl⟩ := hall i hi
        exact ⟨i, l, hi, hl, Nat.zero_le _⟩
    | succ n ih =>
        obtain ⟨j, l, -, ⟨howned, -⟩, hn⟩ := ih
        obtain ⟨k, hk⟩ := Option.isSome_iff_exists.mp howned
        have hholds : l ∈ pool.heldBy k := hk
        have hbusy : ∀ result, pool.threads k ≠ .done result := by
          intro result hdone
          have horder := hpool k
          rw [hdone, orderly_done] at horder
          rw [horder] at hholds
          exact hholds
        obtain ⟨m, hm, next, hnext⟩ := hall k hbusy
        have horder := hpool k
        rw [hnext] at horder
        exact ⟨k, m, hbusy, ⟨hm, next, hnext⟩, Nat.lt_of_le_of_lt hn (horder.1 l hholds)⟩
  obtain ⟨j, l, -, -, hl⟩ := hclimb bound
  exact absurd (hbound l) (Nat.not_lt.mpr hl)

/-- Every thread has finished and every lock is free. -/
def Idle (pool : LockPool S L ι α σ) : Prop :=
  (∀ i, ∃ result, pool.threads i = .done result) ∧ ∀ l, pool.owner l = none

omit [DecidableEq L] [DecidableEq ι] in
theorem InOrder.idle {pool : LockPool S L ι α σ} (hpool : pool.InOrder rank)
    (hdone : ∀ i, ∃ result, pool.threads i = .done result) : pool.Idle := by
  refine ⟨hdone, ?_⟩
  intro l
  cases hl : pool.owner l with
  | none => rfl
  | some i =>
      obtain ⟨result, hi⟩ := hdone i
      have horder := hpool i
      rw [hi, orderly_done] at horder
      have hholds : l ∈ pool.heldBy i := hl
      rw [horder] at hholds
      exact absurd hholds (Set.notMem_empty l)

/-- No deadlock: from any state in order, some schedule lets every thread finish. -/
theorem InOrder.exists_schedule_idle [Finite ι] {pool : LockPool S L ι α σ}
    (hpool : pool.InOrder rank) {bound : Nat} (hbound : ∀ l, rank l < bound) (h : Handler S σ) :
    ∃ schedule, (run (LockPool.step h) pool schedule).Idle := by
  have hwf := Pi.Lex.wellFounded (WellOrderingRel (α := ι))
    fun _ => wellFounded_next (S := S.withLocks L) (α := α)
  induction hthreads : pool.threads using hwf.induction generalizing pool with
  | _ threads ih =>
      subst hthreads
      by_cases hdone : ∀ i, ∃ result, pool.threads i = .done result
      · exact ⟨[], hpool.idle hdone⟩
      · push Not at hdone
        obtain ⟨i, hi⟩ := hdone
        obtain ⟨j, hj, hready⟩ := hpool.exists_ready hbound hi
        obtain ⟨p, hnext, hstep⟩ := step_next h hj hready
        obtain ⟨schedule, hidle⟩ := ih _ ⟨j, fun k hk => by
          rw [hstep, Function.update_of_ne]
          rintro rfl
          exact absurd hk (irrefl k), by rw [hstep, Function.update_self]; exact hnext⟩
          (hpool.step h j) rfl
        exact ⟨j :: schedule, hidle⟩

end LockPool

/-! ## Threads that take up tasks -/

/-- A thread that has finished takes up a task, or a thread goes on. -/
inductive TaskEvent (ι T : Type) where
  | start (i : ι) (task : T)
  | step (i : ι)

namespace LockPool
open Program

variable {S : Signature} {L ι α σ T : Type} [DecidableEq ι]

/-- Thread `i` takes up a program, if it has finished. -/
def start (pool : LockPool S L ι α σ) (i : ι) (p : Program (S.withLocks L) α) :
    LockPool S L ι α σ :=
  match pool.threads i with
  | .done _ => { pool with threads := Function.update pool.threads i p }
  | .call _ _ => pool

theorem start_of_done {pool : LockPool S L ι α σ} {i : ι} {result : α}
    (hi : pool.threads i = .done result) (p : Program (S.withLocks L) α) :
    pool.start i p = { pool with threads := Function.update pool.threads i p } := by
  simp [start, hi]

theorem start_of_busy {pool : LockPool S L ι α σ} {i : ι}
    (hi : ∀ result, pool.threads i ≠ .done result) (p : Program (S.withLocks L) α) :
    pool.start i p = pool := by
  cases hthread : pool.threads i with
  | done result => exact absurd hthread (hi result)
  | call op next => simp [start, hthread]

variable [DecidableEq L]

/-- The pool after an event. -/
def handle (h : Handler S σ) (program : T → Program (S.withLocks L) α)
    (pool : LockPool S L ι α σ) : TaskEvent ι T → LockPool S L ι α σ
  | .start i task => pool.start i (program task)
  | .step i => pool.step h i

variable {rank : L → Nat}

/-- No thread has a task yet. -/
def fresh (result : α) (s : σ) : LockPool S L ι α σ :=
  ⟨fun _ => none, fun _ => .done result, s⟩

omit [DecidableEq ι] [DecidableEq L] in
theorem idle_fresh (result : α) (s : σ) : (fresh result s : LockPool S L ι α σ).Idle :=
  ⟨fun _ => ⟨result, rfl⟩, fun _ => rfl⟩

omit [DecidableEq ι] [DecidableEq L] in
theorem Idle.inOrder {pool : LockPool S L ι α σ} (h : pool.Idle) : pool.InOrder rank := by
  intro i
  obtain ⟨result, hi⟩ := h.1 i
  rw [hi, orderly_done]
  ext l
  simp [heldBy, h.2 l]

theorem InOrder.handle {pool : LockPool S L ι α σ} (hpool : pool.InOrder rank)
    {program : T → Program (S.withLocks L) α}
    (hprogram : ∀ task, (program task).Orderly rank ∅ ∅) (h : Handler S σ)
    (event : TaskEvent ι T) : (pool.handle h program event).InOrder rank := by
  cases event with
  | step i => exact hpool.step h i
  | start i task =>
      show (pool.start i (program task)).InOrder rank
      by_cases hi : ∃ result, pool.threads i = .done result
      · obtain ⟨result, hi⟩ := hi
        have hnone := hpool i
        rw [hi, orderly_done] at hnone
        rw [start_of_done hi]
        intro j
        show Orderly rank ∅ (Function.update pool.threads i _ j) (pool.heldBy j)
        by_cases hj : j = i
        · subst hj
          rw [Function.update_self, hnone]
          exact hprogram task
        · rw [Function.update_of_ne hj]
          exact hpool j
      · push Not at hi
        rw [start_of_busy hi]
        exact hpool

/-- No deadlock over runs: whatever tasks the threads took up and however they interleaved,
    some schedule lets all of them finish. -/
theorem Idle.exists_schedule_idle [Finite ι] {pool : LockPool S L ι α σ} (hpool : pool.Idle)
    {program : T → Program (S.withLocks L) α}
    (hprogram : ∀ task, (program task).Orderly rank ∅ ∅) {bound : Nat}
    (hbound : ∀ l, rank l < bound) (h : Handler S σ) (events : List (TaskEvent ι T)) :
    ∃ schedule, (run (LockPool.step h) (run (LockPool.handle h program) pool events)
      schedule).Idle := by
  have horder : (run (LockPool.handle h program) pool events).InOrder rank :=
    run_invariant (fun _ event hs => hs.handle hprogram h event) hpool.inOrder events
  exact horder.exists_schedule_idle hbound h

end LockPool

end ConnectAlso.Misc
