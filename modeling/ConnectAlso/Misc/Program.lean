import Mathlib.Logic.Function.Basic
import Mathlib.Logic.Function.Iterate
import ConnectAlso.Misc.Runs

/-!
# Programs over atomic operations

A program either has finished with a result or performs one atomic operation and
goes on with the answer. Run alone (`Program.exec`) its operations follow each
other without interruption. In a `Pool` many programs share one state, and a
schedule says whose next operation is performed: that is every interleaving of
their operations. The same program text has both meanings, so a fact about what
it may perform (`Program.Guarantees`) serves sequential and concurrent use.
-/

namespace ConnectAlso.Misc

/-- The operations a program may perform, each with the type of its answer. -/
structure Signature where
  Op : Type
  Answer : Op → Type

/-- A program that performs operations of `S` and ends with an `α`. -/
inductive Program (S : Signature) (α : Type) where
  | done (result : α)
  | call (op : S.Op) (next : S.Answer op → Program S α)

/-- What performing one operation does to the shared state. -/
abbrev Handler (S : Signature) (σ : Type) := (op : S.Op) → σ → S.Answer op × σ

namespace Program

variable {S : Signature} {α β σ : Type}

/-- Sequencing: run `p`, then the program chosen by its result. -/
protected def bind : Program S α → (α → Program S β) → Program S β
  | done result, f => f result
  | call op next, f => call op (fun answer => (next answer).bind f)

instance : Monad (Program S) where
  pure := done
  bind := Program.bind

/-- The program that performs one operation and returns its answer. -/
def perform (op : S.Op) : Program S (S.Answer op) := call op done

@[simp] theorem bind_done (result : α) (f : α → Program S β) :
    (done result >>= f) = f result := rfl

@[simp] theorem bind_call (op : S.Op) (next : S.Answer op → Program S α)
    (f : α → Program S β) :
    (call op next >>= f) = call op (fun answer => next answer >>= f) := rfl

@[simp] theorem perform_bind (op : S.Op) (f : S.Answer op → Program S β) :
    (perform op >>= f) = call op f := rfl

@[simp] theorem pure_eq (result : α) : (pure result : Program S α) = done result := rfl

/-! ## One program alone -/

/-- Run a program to its end with nothing in between. -/
def exec (h : Handler S σ) : Program S α → σ → α × σ
  | done result, s => (result, s)
  | call op next, s => exec h (next (h op s).1) (h op s).2

@[simp] theorem exec_done (h : Handler S σ) (result : α) (s : σ) :
    exec h (done result) s = (result, s) := rfl

@[simp] theorem exec_call (h : Handler S σ) (op : S.Op) (next : S.Answer op → Program S α)
    (s : σ) : exec h (call op next) s = exec h (next (h op s).1) (h op s).2 := rfl

theorem exec_bind (h : Handler S σ) (p : Program S α) (f : α → Program S β) (s : σ) :
    exec h (p >>= f) s = exec h (f (exec h p s).1) (exec h p s).2 := by
  induction p generalizing s with
  | done result => rfl
  | call op next ih => exact ih (h op s).1 (h op s).2

/-! ## What a program may perform

`answers` restricts the answers that are taken into account: `Guarantees` then
speaks of those executions only in which every answer is one of them. -/

/-- Every operation the program performs satisfies `φ`, and its result
    satisfies `Q`, as long as each operation is answered within `answers`. -/
def Guarantees (answers : (op : S.Op) → S.Answer op → Prop) (φ : S.Op → Prop)
    (Q : α → Prop) : Program S α → Prop
  | done result => Q result
  | call op next => φ op ∧ ∀ answer, answers op answer → (next answer).Guarantees answers φ Q

section Guarantees

variable {answers : (op : S.Op) → S.Answer op → Prop} {φ ψ : S.Op → Prop}

@[simp] theorem guarantees_done (Q : α → Prop) (result : α) :
    (done result : Program S α).Guarantees answers φ Q ↔ Q result := Iff.rfl

@[simp] theorem guarantees_call (Q : α → Prop) (op : S.Op) (next : S.Answer op → Program S α) :
    (call op next).Guarantees answers φ Q ↔
      φ op ∧ ∀ answer, answers op answer → (next answer).Guarantees answers φ Q := Iff.rfl

theorem guarantees_bind (Q : β → Prop) (p : Program S α) (f : α → Program S β) :
    (p >>= f).Guarantees answers φ Q ↔
      p.Guarantees answers φ (fun result => (f result).Guarantees answers φ Q) := by
  induction p with
  | done result => rfl
  | call op next ih =>
      rw [bind_call, guarantees_call, guarantees_call]
      exact and_congr Iff.rfl (forall_congr' fun answer => imp_congr Iff.rfl (ih answer))

theorem Guarantees.mono {Q R : α → Prop} {p : Program S α}
    (hp : p.Guarantees answers φ Q) (hφ : ∀ op, φ op → ψ op) (hQ : ∀ result, Q result → R result) :
    p.Guarantees answers ψ R := by
  induction p with
  | done result => exact hQ result hp
  | call op next ih =>
      exact ⟨hφ op hp.1, fun answer hanswer => ih answer (hp.2 answer hanswer)⟩

/-- Run alone, a program keeps every state property that its operations keep, and
    ends with a result that satisfies its guarantee, if the property makes the
    handler answer within `answers`. -/
theorem exec_of_guarantees {h : Handler S σ} {I : σ → Prop} {Q : α → Prop}
    (hanswers : ∀ op s, I s → answers op (h op s).1)
    (hkeep : ∀ op s, φ op → I s → I (h op s).2)
    {p : Program S α} (hp : p.Guarantees answers φ Q) {s : σ} (hs : I s) :
    Q (exec h p s).1 ∧ I (exec h p s).2 := by
  induction p generalizing s with
  | done result => exact ⟨hp, hs⟩
  | call op next ih =>
      exact ih (h op s).1 (hp.2 _ (hanswers op s hs)) (hkeep op s hp.1 hs)

end Guarantees

/-! ## Rely and guarantee

A program among others: between its operations the state may change by `R`. -/

/-- Every operation the program performs satisfies `φ` in the state in which it is
    performed, and its result satisfies `Q` in the state it leaves. -/
def Relies (h : Handler S σ) (R : σ → σ → Prop) (φ : S.Op → σ → Prop) (Q : α → σ → Prop) :
    Program S α → σ → Prop
  | done result, s => Q result s
  | call op next, s => ∀ s', R s s' → φ op s' ∧ (next (h op s').1).Relies h R φ Q (h op s').2

section Relies

variable {h : Handler S σ} {R : σ → σ → Prop} {φ : S.Op → σ → Prop}

theorem relies_bind {Q : β → σ → Prop} {p : Program S α} {f : α → Program S β} {s : σ} :
    (p >>= f).Relies h R φ Q s ↔
      p.Relies h R φ (fun result s => (f result).Relies h R φ Q s) s := by
  induction p generalizing s with
  | done result => rfl
  | call op next ih =>
      exact forall_congr' fun s' => imp_congr Iff.rfl (and_congr Iff.rfl (ih (h op s').1))

theorem Relies.mono {Q Q' : α → σ → Prop} {p : Program S α} {s : σ}
    (hp : p.Relies h R φ Q s) (hQ : ∀ result s, Q result s → Q' result s) :
    p.Relies h R φ Q' s := by
  induction p generalizing s with
  | done result => exact hQ result s hp
  | call op next ih =>
      intro s' hR
      obtain ⟨hop, hnext⟩ := hp s' hR
      exact ⟨hop, ih (h op s').1 hnext⟩

/-- Changes by others, of the kind that is relied on, are harmless. -/
theorem Relies.of_rely {Q : α → σ → Prop} (htrans : ∀ s t u, R s t → R t u → R s u)
    (hQ : ∀ result s t, R s t → Q result s → Q result t) {p : Program S α} {s t : σ}
    (hp : p.Relies h R φ Q s) (hR : R s t) : p.Relies h R φ Q t := by
  cases p with
  | done result => exact hQ result s t hR hp
  | call op next => exact fun u htu => hp u (htrans s t u hR htu)

end Relies

/-! ## Step by step -/

/-- Perform the next operation of a program; a finished program stays as it is. -/
def advance (h : Handler S σ) : Program S α → σ → Program S α × σ
  | done result, s => (done result, s)
  | call op next, s => (next (h op s).1, (h op s).2)

/-- The result of a program that has finished. -/
def result? : Program S α → Option α
  | done result => some result
  | call _ _ => none

theorem exists_done_of_isSome {p : Program S α} (h : p.result?.isSome = true) :
    ∃ result, p = done result := by
  cases p with
  | done result => exact ⟨result, rfl⟩
  | call op next => cases h

/-- Advancing a program often enough with nothing in between is running it alone. -/
theorem exists_advance_eq_exec (h : Handler S σ) (p : Program S α) (s : σ) :
    ∃ steps : Nat, (fun c : Program S α × σ => advance h c.1 c.2)^[steps] (p, s) =
      (done (exec h p s).1, (exec h p s).2) := by
  induction p generalizing s with
  | done result => exact ⟨0, rfl⟩
  | call op next ih =>
      obtain ⟨steps, hsteps⟩ := ih (h op s).1 (h op s).2
      exact ⟨steps + 1, hsteps⟩

end Program

/-! ## Many programs on one state -/

/-- Programs in progress, indexed by `ι`, over one shared state. -/
structure Pool (S : Signature) (ι α σ : Type) where
  threads : ι → Program S α
  state : σ

namespace Pool

variable {S : Signature} {ι α σ : Type} [DecidableEq ι]

/-- Thread `i` performs its next operation. -/
def step (h : Handler S σ) (pool : Pool S ι α σ) (i : ι) : Pool S ι α σ :=
  let next := (pool.threads i).advance h pool.state
  { threads := Function.update pool.threads i next.1, state := next.2 }

theorem step_done (h : Handler S σ) {pool : Pool S ι α σ} {i : ι} {result : α}
    (hi : pool.threads i = .done result) : pool.step h i = pool := by
  have hthreads : Function.update pool.threads i (.done result) = pool.threads := by
    rw [← hi, Function.update_eq_self]
  simp [step, hi, Program.advance, hthreads]

theorem step_call (h : Handler S σ) {pool : Pool S ι α σ} {i : ι} {op : S.Op}
    {next : S.Answer op → Program S α} (hi : pool.threads i = .call op next) :
    pool.step h i =
      { threads := Function.update pool.threads i (next (h op pool.state).1),
        state := (h op pool.state).2 } := by
  simp [step, hi, Program.advance]

theorem state_step_of_call (h : Handler S σ) {pool : Pool S ι α σ} {i : ι} {op : S.Op}
    {next : S.Answer op → Program S α} (hi : pool.threads i = .call op next) :
    (pool.step h i).state = (h op pool.state).2 := by
  rw [step_call h hi]

theorem threads_step_of_call (h : Handler S σ) {pool : Pool S ι α σ} {i : ι} {op : S.Op}
    {next : S.Answer op → Program S α} (hi : pool.threads i = .call op next) :
    (pool.step h i).threads i = next (h op pool.state).1 := by
  rw [step_call h hi]
  exact Function.update_self i _ _

/-- The other threads stay where they are. -/
theorem threads_step_of_ne (h : Handler S σ) (pool : Pool S ι α σ) {i j : ι} (hji : j ≠ i) :
    (pool.step h i).threads j = pool.threads j :=
  Function.update_of_ne hji _ _

/-- A thread that takes several steps in a row leaves the other threads alone. -/
theorem run_replicate (h : Handler S σ) (pool : Pool S ι α σ) (i : ι) (steps : Nat) :
    run (step h) pool (List.replicate steps i) =
      let last := (fun c : Program S α × σ => c.1.advance h c.2)^[steps]
        (pool.threads i, pool.state)
      { threads := Function.update pool.threads i last.1, state := last.2 } := by
  induction steps generalizing pool with
  | zero => simp
  | succ steps ih =>
      rw [List.replicate_succ, run_cons, ih, Function.iterate_succ_apply]
      simp [step]

/-- Running one thread to its end is among the schedules. -/
theorem exists_schedule_exec (h : Handler S σ) (pool : Pool S ι α σ) (i : ι) :
    ∃ schedule, run (step h) pool schedule =
      { threads :=
          Function.update pool.threads i (.done (Program.exec h (pool.threads i) pool.state).1)
        state := (Program.exec h (pool.threads i) pool.state).2 } := by
  obtain ⟨steps, hsteps⟩ := Program.exists_advance_eq_exec h (pool.threads i) pool.state
  refine ⟨List.replicate steps i, ?_⟩
  rw [run_replicate, hsteps]

/-- One step in an interleaving. `T i p s` relates a thread's remaining program to
    the state. If a step of thread `i` in a good pool keeps the state good, keeps the
    relation of the thread that moves and does not break that of any other thread,
    then the step keeps all of it. -/
theorem step_invariant {h : Handler S σ} {I : σ → Prop} {T : ι → Program S α → σ → Prop}
    (hstate : ∀ i op (next : S.Answer op → Program S α) s, I s → T i (.call op next) s →
      I (h op s).2)
    (hself : ∀ i op (next : S.Answer op → Program S α) s, I s → T i (.call op next) s →
      T i (next (h op s).1) (h op s).2)
    (hother : ∀ i j op (next : S.Answer op → Program S α) p s, i ≠ j → I s →
      T i (.call op next) s → T j p s → T j p (h op s).2)
    {pool : Pool S ι α σ} (i : ι)
    (hpool : I pool.state ∧ ∀ j, T j (pool.threads j) pool.state) :
    I (pool.step h i).state ∧ ∀ j, T j ((pool.step h i).threads j) (pool.step h i).state := by
  obtain ⟨hI, hT⟩ := hpool
  cases hi : pool.threads i with
  | done result => rw [step_done h hi]; exact ⟨hI, hT⟩
  | call op next =>
      have hTi : T i (.call op next) pool.state := hi ▸ hT i
      rw [state_step_of_call h hi]
      refine ⟨hstate i op next _ hI hTi, fun j => ?_⟩
      by_cases hj : j = i
      · subst hj
        rw [threads_step_of_call h hi]
        exact hself j op next _ hI hTi
      · rw [threads_step_of_ne h pool hj]
        exact hother i j op next _ _ (Ne.symm hj) hI hTi (hT j)

/-- Programs that rely on `R` and perform only operations that change the state by `R`
    can run side by side. -/
theorem step_relies {h : Handler S σ} {R : σ → σ → Prop} {φ : S.Op → σ → Prop}
    (hrefl : ∀ s, R s s) (htrans : ∀ s t u, R s t → R t u → R s u)
    (hguarantee : ∀ op s, φ op s → R s (h op s).2) {pool : Pool S ι α σ} (i : ι)
    (hpool : ∀ j, (pool.threads j).Relies h R φ (fun _ _ => True) pool.state) :
    ∀ j, ((pool.step h i).threads j).Relies h R φ (fun _ _ => True) (pool.step h i).state := by
  refine (@step_invariant _ _ _ _ _ h (fun _ => True)
    (fun _ p s => p.Relies h R φ (fun _ _ => True) s) ?_ ?_ ?_ pool i ⟨trivial, hpool⟩).2
  · intro i op next s _ _
    trivial
  · intro i op next s _ hthread
    exact (hthread s (hrefl s)).2
  · intro i j op next p s _ _ hthread hp
    have hchange : R s (h op s).2 := hguarantee op s (hthread s (hrefl s)).1
    exact Program.Relies.of_rely htrans (fun _ _ _ _ _ => trivial) hp hchange

end Pool

end ConnectAlso.Misc
