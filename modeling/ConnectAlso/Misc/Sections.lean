import ConnectAlso.Misc.Locks

/-!
# One critical section per task

Tasks that operate on the shared state only inside one section of a lock `g`. However the
threads interleave, and whatever other locks they take, every task has its effect and its
result as if it were performed whole at the moment when it takes `g`: the pool with locks
represents a pool in which a task is one operation (`LockPool.Represents`), event by event,
so a task is performed between its start and its end.
-/

namespace ConnectAlso.Misc

/-- The operation is not one on the lock `g`. -/
def LockOp.Spares {L : Type} {S : Signature} (g : L) : LockOp L S → Prop
  | acquire l => l ≠ g
  | release l => l ≠ g
  | act _ => True

/-- The operation is one on a lock other than `g`. -/
def LockOp.Silent {L : Type} {S : Signature} (g : L) : LockOp L S → Prop
  | acquire l => l ≠ g
  | release l => l ≠ g
  | act _ => False

namespace Program

variable {S : Signature} {L α β σ : Type} {g l : L}

/-- The program does not touch the lock `g`. -/
def Avoids (g : L) (p : Program (S.withLocks L) α) : Prop :=
  p.Guarantees (fun _ _ => True) (LockOp.Spares g) fun _ => True

/-- The program touches neither the lock `g` nor the shared state. -/
def Quiet (g : L) (p : Program (S.withLocks L) α) : Prop :=
  p.Guarantees (fun _ _ => True) (LockOp.Silent g) fun _ => True

theorem quiet_done (result : α) : (done result : Program (S.withLocks L) α).Quiet g := trivial

theorem avoids_done (result : α) : (done result : Program (S.withLocks L) α).Avoids g := trivial

theorem avoids_act (op : S.Op) : (act op : Program (S.withLocks L) _).Avoids g :=
  ⟨trivial, fun _ _ => trivial⟩

theorem Avoids.bind {p : Program (S.withLocks L) α} {f : α → Program (S.withLocks L) β}
    (hp : p.Avoids g) (hf : ∀ result, (f result).Avoids g) : (p >>= f).Avoids g :=
  (guarantees_bind _ p f).mpr (hp.mono (fun _ h => h) fun result _ => hf result)

theorem Quiet.bind {p : Program (S.withLocks L) α} {f : α → Program (S.withLocks L) β}
    (hp : p.Quiet g) (hf : ∀ result, (f result).Quiet g) : (p >>= f).Quiet g :=
  (guarantees_bind _ p f).mpr (hp.mono (fun _ h => h) fun result _ => hf result)

theorem Avoids.withLock {body : Program (S.withLocks L) α} (hl : l ≠ g) (h : body.Avoids g) :
    (withLock l body).Avoids g :=
  ⟨hl, fun _ _ => h.bind fun _ => ⟨hl, fun _ _ => trivial⟩⟩

theorem Quiet.withLock {body : Program (S.withLocks L) α} (hl : l ≠ g) (h : body.Quiet g) :
    (withLock l body).Quiet g :=
  ⟨hl, fun _ _ => h.bind fun _ => ⟨hl, fun _ _ => trivial⟩⟩

/-- What a quiet program will return is settled. -/
theorem Quiet.strip_eq {p : Program (S.withLocks L) α} (h : p.Quiet g) :
    ∃ result, p.strip = done result := by
  induction p with
  | done result => exact ⟨result, rfl⟩
  | call op next ih =>
      cases op with
      | acquire l => exact ih () (h.2 () trivial)
      | release l => exact ih () (h.2 () trivial)
      | act op => exact absurd h.1 id

variable [DecidableEq L]

/-- The program has the lock `g`, gives it back and is quiet from then on. -/
def Inside (g : L) : Program (S.withLocks L) α → Prop
  | done _ => False
  | call (.acquire l) next => l ≠ g ∧ Inside g (next ())
  | call (.release l) next => if l = g then Quiet g (next ()) else Inside g (next ())
  | call (.act _) next => ∀ answer, Inside g (next answer)

/-- The program is quiet up to its section of `g`, and after it. -/
def Outside (g : L) : Program (S.withLocks L) α → Prop
  | done _ => False
  | call (.acquire l) next => if l = g then Inside g (next ()) else Outside g (next ())
  | call (.release l) next => l ≠ g ∧ Outside g (next ())
  | call (.act _) _ => False

theorem outside_acquire_self (next : Unit → Program (S.withLocks L) α) :
    (call (.acquire g) next : Program (S.withLocks L) α).Outside g ↔ (next ()).Inside g := by
  rw [Outside, if_pos rfl]

theorem outside_acquire_of_ne (hl : l ≠ g) (next : Unit → Program (S.withLocks L) α) :
    (call (.acquire l) next : Program (S.withLocks L) α).Outside g ↔ (next ()).Outside g := by
  rw [Outside, if_neg hl]

theorem inside_release_self (next : Unit → Program (S.withLocks L) α) :
    (call (.release g) next : Program (S.withLocks L) α).Inside g ↔ (next ()).Quiet g := by
  rw [Inside, if_pos rfl]

theorem inside_release_of_ne (hl : l ≠ g) (next : Unit → Program (S.withLocks L) α) :
    (call (.release l) next : Program (S.withLocks L) α).Inside g ↔ (next ()).Inside g := by
  rw [Inside, if_neg hl]

theorem Avoids.inside_bind {p : Program (S.withLocks L) α} {f : α → Program (S.withLocks L) β}
    (hp : p.Avoids g) (hf : ∀ result, (f result).Inside g) : (p >>= f).Inside g := by
  induction p with
  | done result => exact hf result
  | call op next ih =>
      cases op with
      | acquire l => exact ⟨hp.1, ih () (hp.2 () trivial)⟩
      | release l => exact (inside_release_of_ne hp.1 _).mpr (ih () (hp.2 () trivial))
      | act op => exact fun answer => ih answer (hp.2 answer trivial)

theorem Inside.bind {p : Program (S.withLocks L) α} {f : α → Program (S.withLocks L) β}
    (hp : p.Inside g) (hf : ∀ result, (f result).Quiet g) : (p >>= f).Inside g := by
  induction p with
  | done result => exact absurd hp id
  | call op next ih =>
      cases op with
      | acquire l => exact ⟨hp.1, ih () hp.2⟩
      | release l =>
          by_cases hl : l = g
          · subst hl
            exact (inside_release_self _).mpr (((inside_release_self _).mp hp).bind hf)
          · exact (inside_release_of_ne hl _).mpr (ih () ((inside_release_of_ne hl _).mp hp))
      | act op => exact fun answer => ih answer (hp answer)

theorem Outside.bind {p : Program (S.withLocks L) α} {f : α → Program (S.withLocks L) β}
    (hp : p.Outside g) (hf : ∀ result, (f result).Quiet g) : (p >>= f).Outside g := by
  induction p with
  | done result => exact absurd hp id
  | call op next ih =>
      cases op with
      | acquire l =>
          by_cases hl : l = g
          · subst hl
            exact (outside_acquire_self _).mpr (((outside_acquire_self _).mp hp).bind hf)
          · exact (outside_acquire_of_ne hl _).mpr (ih () ((outside_acquire_of_ne hl _).mp hp))
      | release l => exact ⟨hp.1, ih () hp.2⟩
      | act op => exact absurd hp id

theorem Quiet.outside_bind {p : Program (S.withLocks L) α} {f : α → Program (S.withLocks L) β}
    (hp : p.Quiet g) (hf : ∀ result, (f result).Outside g) : (p >>= f).Outside g := by
  induction p with
  | done result => exact hf result
  | call op next ih =>
      cases op with
      | acquire l => exact (outside_acquire_of_ne hp.1 _).mpr (ih () (hp.2 () trivial))
      | release l => exact ⟨hp.1, ih () (hp.2 () trivial)⟩
      | act op => exact absurd hp.1 id

theorem outside_withLock {body : Program (S.withLocks L) α} (h : body.Avoids g) :
    (withLock g body).Outside g := by
  refine (outside_acquire_self _).mpr (h.inside_bind ?_)
  intro result
  exact (inside_release_self _).mpr (quiet_done result)

end Program

/-! ## Tasks performed whole -/

/-- Tasks as operations. -/
abbrev Signature.ofTasks (T α : Type) : Signature where
  Op := T
  Answer _ := α

namespace Pool

variable {ι T α σ : Type} [DecidableEq ι]

/-- Thread `i` takes up a task, if it has finished. -/
def start (pool : Pool (Signature.ofTasks T α) ι α σ) (i : ι) (task : T) :
    Pool (Signature.ofTasks T α) ι α σ :=
  match pool.threads i with
  | .done _ => { pool with threads := Function.update pool.threads i (Program.perform task) }
  | .call _ _ => pool

/-- The pool after an event: a task takes one step. -/
def handle (perform : T → σ → α × σ) (pool : Pool (Signature.ofTasks T α) ι α σ) :
    TaskEvent ι T → Pool (Signature.ofTasks T α) ι α σ
  | .start i task => pool.start i task
  | .step i => pool.step perform i

theorem start_of_done {pool : Pool (Signature.ofTasks T α) ι α σ} {i : ι} {result : α}
    (hi : pool.threads i = .done result) (task : T) :
    pool.start i task =
      { pool with threads := Function.update pool.threads i (Program.perform task) } := by
  simp [start, hi]

/-- The state meets `J`, the results that are there meet `Q`, and the tasks that wait to be
    performed are allowed. -/
structure Sound (J : σ → Prop) (Q : α → Prop) (allowed : T → Prop)
    (pool : Pool (Signature.ofTasks T α) ι α σ) : Prop where
  state : J pool.state
  thread : ∀ i, (∃ result, pool.threads i = .done result ∧ Q result) ∨
    ∃ task, pool.threads i = Program.perform task ∧ allowed task

variable {J : σ → Prop} {Q : α → Prop} {allowed : T → Prop} {perform : T → σ → α × σ}

theorem Sound.handle {pool : Pool (Signature.ofTasks T α) ι α σ}
    (h : pool.Sound J Q allowed)
    (hperform : ∀ task s, allowed task → J s → Q (perform task s).1 ∧ J (perform task s).2)
    {event : TaskEvent ι T} (hevent : ∀ i task, event = .start i task → allowed task) :
    (pool.handle perform event).Sound J Q allowed := by
  cases event with
  | start i task =>
      show (pool.start i task).Sound J Q allowed
      rcases h.thread i with ⟨result, hi, -⟩ | ⟨other, hi, -⟩
      · rw [start_of_done hi]
        refine ⟨h.state, ?_⟩
        intro j
        by_cases hj : j = i
        · subst hj
          exact Or.inr ⟨task, Function.update_self _ _ _, hevent _ _ rfl⟩
        · dsimp only
          rw [Function.update_of_ne hj]
          exact h.thread j
      · have hsame : pool.start i task = pool := by
          rw [start, hi]
          rfl
        rw [hsame]
        exact h
  | step i =>
      show (pool.step perform i).Sound J Q allowed
      rcases h.thread i with ⟨result, hi, -⟩ | ⟨task, hi, htask⟩
      · rw [step_done _ hi]
        exact h
      · obtain ⟨hQ, hJ⟩ := hperform task pool.state htask h.state
        rw [step_call _ hi]
        refine ⟨hJ, ?_⟩
        intro j
        by_cases hj : j = i
        · subst hj
          exact Or.inl ⟨_, Function.update_self _ _ _, hQ⟩
        · dsimp only
          rw [Function.update_of_ne hj]
          exact h.thread j

theorem Sound.run {pool : Pool (Signature.ofTasks T α) ι α σ} (h : pool.Sound J Q allowed)
    (hperform : ∀ task s, allowed task → J s → Q (perform task s).1 ∧ J (perform task s).2)
    {events : List (TaskEvent ι T)} (hevents : ∀ i task, .start i task ∈ events → allowed task) :
    (run (Pool.handle perform) pool events).Sound J Q allowed := by
  induction events generalizing pool with
  | nil => exact h
  | cons event events ih =>
      refine ih (h.handle hperform ?_) ?_
      · rintro i task rfl
        exact hevents i task List.mem_cons_self
      · intro i task hmem
        exact hevents i task (List.mem_cons_of_mem _ hmem)

end Pool

/-- The events that can stand for an event on the threads with locks: none, the same event,
    or the start of a task and its performance at once. -/
inductive Stands {ι T : Type} : TaskEvent ι T → List (TaskEvent ι T) → Prop where
  | none (event : TaskEvent ι T) : Stands event []
  | same (event : TaskEvent ι T) : Stands event [event]
  | atOnce (i : ι) (task : T) : Stands (.start i task) [.start i task, .step i]

namespace LockPool
open Program

variable {S : Signature} {L ι α σ T : Type} [DecidableEq L]

/-- How far a thread is with its section: `w` is the same thread where tasks are performed
    whole. -/
inductive Stage (h : Handler S σ) (perform : T → σ → α × σ) (g : L) (owner : Option ι) (s : σ)
    (i : ι) : Program (S.withLocks L) α → Program (Signature.ofTasks T α) α → Prop where
  | before {p : Program (S.withLocks L) α} (task : T) (hp : p.Outside g) (hfree : owner ≠ some i)
      (htask : ∀ s, p.strip.exec h s = perform task s) :
      Stage h perform g owner s i p (Program.perform task)
  | inside {p : Program (S.withLocks L) α} (hp : p.Inside g) (howner : owner = some i) :
      Stage h perform g owner s i p (.done (p.strip.exec h s).1)
  | after {p : Program (S.withLocks L) α} {result : α} (hp : p.Quiet g) (hfree : owner ≠ some i)
      (hresult : p.strip = .done result) : Stage h perform g owner s i p (.done result)

/-- The state once the section in progress has ended. -/
def settled (h : Handler S σ) (g : L) (pool : LockPool S L ι α σ) : σ :=
  match pool.owner g with
  | none => pool.state
  | some i => ((pool.threads i).strip.exec h pool.state).2

/-- `whole` is the pool seen as if each task had been performed whole when it took `g`. -/
structure Represents (h : Handler S σ) (perform : T → σ → α × σ) (g : L)
    (pool : LockPool S L ι α σ) (whole : Pool (Signature.ofTasks T α) ι α σ) : Prop where
  state : whole.state = pool.settled h g
  stage : ∀ i, Stage h perform g (pool.owner g) pool.state i (pool.threads i) (whole.threads i)

variable {h : Handler S σ} {perform : T → σ → α × σ} {g : L} {pool : LockPool S L ι α σ}
  {whole : Pool (Signature.ofTasks T α) ι α σ}

/-- A thread outside the section does not see what the section does. -/
theorem Stage.frame {owner owner' : Option ι} {s s' : σ} {i : ι} {p : Program (S.withLocks L) α}
    {w : Program (Signature.ofTasks T α) α} (hstage : Stage h perform g owner s i p w)
    (hfree : owner ≠ some i) (hfree' : owner' ≠ some i) :
    Stage h perform g owner' s' i p w := by
  cases hstage with
  | before task hp _ htask => exact .before task hp hfree' htask
  | inside hp howner => exact absurd howner hfree
  | after hp _ hresult => exact .after hp hfree' hresult

/-- A thread that has finished has the same result in both. -/
theorem Represents.result (hrep : pool.Represents h perform g whole) {i : ι} {result : α}
    (hi : pool.threads i = .done result) :
    pool.owner g ≠ some i ∧ whole.threads i = .done result := by
  have hstage := hrep.stage i
  rw [hi] at hstage
  generalize hw : whole.threads i = w at hstage
  cases hstage with
  | before task hp => exact absurd hp id
  | inside hp => exact absurd hp id
  | after hp hfree hresult => exact ⟨hfree, by rw [Program.done.inj hresult]⟩

/-- While no thread is in its section, the states are the same. -/
theorem Represents.state_eq (hrep : pool.Represents h perform g whole)
    (hfree : pool.owner g = none) : whole.state = pool.state := by
  rw [hrep.state, settled, hfree]

variable [DecidableEq ι]

/-- An operation that leaves `g`, the state and the rest of its thread's section alone is
    not seen. -/
theorem Represents.silent (hrep : pool.Represents h perform g whole) {i : ι}
    {owner : L → Option ι} {p : Program (S.withLocks L) α} (howner : owner g = pool.owner g)
    (hstrip : p.strip = (pool.threads i).strip)
    (houtside : (pool.threads i).Outside g → p.Outside g)
    (hinside : (pool.threads i).Inside g → p.Inside g)
    (hquiet : (pool.threads i).Quiet g → p.Quiet g) :
    Represents h perform g ⟨owner, Function.update pool.threads i p, pool.state⟩ whole := by
  refine ⟨?_, ?_⟩
  · rw [hrep.state, settled, settled]
    dsimp only
    rw [howner]
    cases pool.owner g with
    | none => rfl
    | some j =>
        by_cases hj : j = i
        · subst hj
          simp [hstrip]
        · simp [hj]
  · intro j
    have hstage := hrep.stage j
    dsimp only
    rw [howner]
    by_cases hj : j = i
    · subst hj
      rw [Function.update_self]
      generalize pool.threads j = q at hstage hstrip houtside hinside hquiet
      generalize whole.threads j = w at hstage
      cases hstage with
      | before task hp hfree htask =>
          exact .before task (houtside hp) hfree fun s => by rw [hstrip]; exact htask s
      | inside hp hheld => exact hstrip ▸ .inside (hinside hp) hheld
      | after hp hfree hresult => exact .after (hquiet hp) hfree (hstrip.trans hresult)
    · rw [Function.update_of_ne hj]
      exact hstage

/-- Taking `g` performs the task of the thread. -/
theorem Represents.acquire (hrep : pool.Represents h perform g whole) {i : ι}
    {next : Unit → Program (S.withLocks L) α} (hi : pool.threads i = .call (.acquire g) next)
    (hfree : pool.owner g = none) :
    Represents h perform g ⟨Function.update pool.owner g (some i),
      Function.update pool.threads i (next ()), pool.state⟩ (whole.step perform i) := by
  have hsame := hrep.state_eq hfree
  have hstage := hrep.stage i
  rw [hi, hfree] at hstage
  generalize hw : whole.threads i = w at hstage
  cases hstage with
  | inside _ howner => cases howner
  | after hp => exact absurd rfl hp.1
  | before task hp _ htask =>
      have hexec : (next ()).strip.exec h pool.state = perform task pool.state := htask _
      rw [Pool.step_call _ hw, hsame]
      refine ⟨?_, ?_⟩
      · simp [settled, hexec]
      · intro j
        dsimp only
        rw [Function.update_self]
        by_cases hj : j = i
        · subst hj
          rw [Function.update_self, Function.update_self, ← hexec]
          exact .inside ((outside_acquire_self _).mp hp) rfl
        · rw [Function.update_of_ne hj, Function.update_of_ne hj]
          refine (hrep.stage j).frame (by simp [hfree]) ?_
          rintro ⟨⟩
          exact hj rfl

/-- Giving `g` back is not seen: the section has had its effect. -/
theorem Represents.release (hrep : pool.Represents h perform g whole) {i : ι}
    {next : Unit → Program (S.withLocks L) α} (hi : pool.threads i = .call (.release g) next) :
    Represents h perform g ⟨Function.update pool.owner g none,
      Function.update pool.threads i (next ()), pool.state⟩ whole := by
  have hstate := hrep.state
  have hstage := hrep.stage i
  rw [hi] at hstage
  generalize hw : whole.threads i = w at hstage
  cases hstage with
  | before task hp => exact absurd rfl hp.1
  | after hp => exact absurd rfl hp.1
  | inside hp howner =>
      have hquiet : (next ()).Quiet g := (inside_release_self _).mp hp
      obtain ⟨result, hresult⟩ := hquiet.strip_eq
      refine ⟨?_, ?_⟩
      · rw [hstate]
        simp [settled, howner, hi, hresult]
      · intro j
        dsimp only
        rw [Function.update_self]
        by_cases hj : j = i
        · subst hj
          rw [Function.update_self, hw, strip_release, hresult]
          exact .after hquiet nofun hresult
        · rw [Function.update_of_ne hj]
          refine (hrep.stage j).frame ?_ nofun
          rw [howner]
          rintro ⟨⟩
          exact hj rfl

/-- An operation on the state is not seen: it belongs to the section in progress. -/
theorem Represents.act (hrep : pool.Represents h perform g whole) {i : ι} {op : S.Op}
    {next : S.Answer op → Program (S.withLocks L) α}
    (hi : pool.threads i = .call (.act op) next) :
    Represents h perform g ⟨pool.owner, Function.update pool.threads i (next (h op pool.state).1),
      (h op pool.state).2⟩ whole := by
  have hstate := hrep.state
  have hstage := hrep.stage i
  rw [hi] at hstage
  generalize hw : whole.threads i = w at hstage
  cases hstage with
  | before task hp => exact absurd hp id
  | after hp => exact absurd hp.1 id
  | inside hp howner =>
      refine ⟨?_, ?_⟩
      · rw [hstate]
        simp [settled, howner, hi]
      · intro j
        dsimp only
        by_cases hj : j = i
        · subst hj
          rw [Function.update_self, hw]
          exact .inside (hp _) howner
        · rw [Function.update_of_ne hj]
          have hother : pool.owner g ≠ some j := by
            rw [howner]
            rintro ⟨⟩
            exact hj rfl
          exact (hrep.stage j).frame hother hother

/-- A step performs the task of its thread or is not seen. -/
theorem Represents.step (hrep : pool.Represents h perform g whole) (i : ι) :
    Represents h perform g (pool.step h i) whole ∨
      Represents h perform g (pool.step h i) (whole.step perform i) := by
  rcases step_cases h pool i with ⟨hstep, -⟩ | ⟨l, next, hi, hfree, hstep⟩ |
    ⟨l, next, hi, hstep⟩ | ⟨op, next, hi, hstep⟩
  · rw [hstep]
    exact Or.inl hrep
  · rw [hstep]
    by_cases hl : l = g
    · subst hl
      exact Or.inr (hrep.acquire hi hfree)
    · refine Or.inl (hrep.silent (Function.update_of_ne (Ne.symm hl) _ _) ?_ ?_ ?_ ?_)
      · rw [hi]
        rfl
      · rw [hi]
        exact (outside_acquire_of_ne hl _).mp
      · rw [hi]
        exact fun hp => hp.2
      · rw [hi]
        exact fun hp => hp.2 () trivial
  · rw [hstep]
    by_cases hl : l = g
    · subst hl
      exact Or.inl (hrep.release hi)
    · refine Or.inl (hrep.silent (Function.update_of_ne (Ne.symm hl) _ _) ?_ ?_ ?_ ?_)
      · rw [hi]
        rfl
      · rw [hi]
        exact fun hp => hp.2
      · rw [hi]
        exact (inside_release_of_ne hl _).mp
      · rw [hi]
        exact fun hp => hp.2 () trivial
  · rw [hstep]
    exact Or.inl (hrep.act hi)

/-! ## Runs -/

/-- The tasks: each has one section of `g` or is quiet, and does alone what `perform` says. -/
structure Sectioned (h : Handler S σ) (perform : T → σ → α × σ) (g : L)
    (program : T → Program (S.withLocks L) α) : Prop where
  section_or_quiet : ∀ task, (program task).Outside g ∨ (program task).Quiet g
  exec_eq : ∀ task s, (program task).strip.exec h s = perform task s

variable {program : T → Program (S.withLocks L) α}

/-- A thread that has finished takes up a task in both; a quiet task is performed at once. -/
theorem Represents.start (hrep : pool.Represents h perform g whole)
    (hprogram : Sectioned h perform g program) {i : ι} {result : α}
    (hi : pool.threads i = .done result) (task : T) :
    Represents h perform g (pool.start i (program task)) (whole.start i task) ∨
      Represents h perform g (pool.start i (program task))
        ((whole.start i task).step perform i) := by
  obtain ⟨hfree, hw⟩ := hrep.result hi
  have hstate : settled h g (pool.start i (program task)) = settled h g pool := by
    rw [start_of_done hi, settled, settled]
    dsimp only
    cases howner : pool.owner g with
    | none => rfl
    | some j =>
        have hj : j ≠ i := by
          rintro rfl
          exact hfree howner
        simp [hj]
  rcases hprogram.section_or_quiet task with hp | hp
  · refine Or.inl ⟨?_, ?_⟩
    · rw [hstate, ← hrep.state, Pool.start_of_done hw]
    · intro j
      rw [start_of_done hi, Pool.start_of_done hw]
      dsimp only
      by_cases hj : j = i
      · subst hj
        rw [Function.update_self, Function.update_self]
        exact .before task hp hfree (hprogram.exec_eq task)
      · rw [Function.update_of_ne hj, Function.update_of_ne hj]
        exact hrep.stage j
  · obtain ⟨settledResult, hresult⟩ := hp.strip_eq
    have hperform : ∀ s, perform task s = (settledResult, s) := by
      intro s
      rw [← hprogram.exec_eq task s, hresult]
      rfl
    have hcall : (whole.start i task).threads i = Program.perform task := by
      rw [Pool.start_of_done hw]
      exact Function.update_self i _ _
    refine Or.inr ?_
    rw [Pool.step_call _ hcall, hperform]
    refine ⟨?_, ?_⟩
    · rw [hstate, ← hrep.state, Pool.start_of_done hw]
    · intro j
      rw [start_of_done hi, Pool.start_of_done hw]
      dsimp only
      by_cases hj : j = i
      · subst hj
        rw [Function.update_self, Function.update_self]
        exact .after hp hfree hresult
      · rw [Function.update_of_ne hj, Function.update_of_ne hj, Function.update_of_ne hj]
        exact hrep.stage j

/-- An event on the threads with locks, and what stands for it. -/
theorem Represents.handle (hrep : pool.Represents h perform g whole)
    (hprogram : Sectioned h perform g program) (event : TaskEvent ι T) :
    ∃ part, Stands event part ∧
      Represents h perform g (pool.handle h program event)
        (run (Pool.handle perform) whole part) := by
  cases event with
  | step i =>
      rcases hrep.step i with hnext | hnext
      · exact ⟨[], .none _, hnext⟩
      · exact ⟨[.step i], .same _, hnext⟩
  | start i task =>
      show ∃ part, _ ∧ Represents h perform g (pool.start i (program task)) _
      by_cases hi : ∃ result, pool.threads i = .done result
      · obtain ⟨result, hi⟩ := hi
        rcases hrep.start hprogram hi task with hnext | hnext
        · exact ⟨[.start i task], .same _, hnext⟩
        · exact ⟨[.start i task, .step i], .atOnce i task, hnext⟩
      · push Not at hi
        rw [start_of_busy hi]
        exact ⟨[], .none _, hrep⟩

omit [DecidableEq ι] in
/-- Before any task. -/
theorem represents_fresh (result : α) (s : σ) :
    Represents h perform g (fresh (ι := ι) result s) ⟨fun _ => .done result, s⟩ :=
  ⟨rfl, fun _ => .after trivial nofun rfl⟩

/-- The parts that stand for the events of a run: at every moment the pool with locks
    represents what the parts so far lead to. -/
theorem Represents.exists_parts (hrep : pool.Represents h perform g whole)
    (hprogram : Sectioned h perform g program) (events : List (TaskEvent ι T)) :
    ∃ parts, List.Forall₂ Stands events parts ∧
      ∀ n, Represents h perform g (run (LockPool.handle h program) pool (events.take n))
        (run (Pool.handle perform) whole (parts.take n).flatten) := by
  induction events generalizing pool whole with
  | nil => exact ⟨[], .nil, fun n => by simpa using hrep⟩
  | cons event events ih =>
      obtain ⟨part, hpart, hnext⟩ := hrep.handle hprogram event
      obtain ⟨parts, hparts, hall⟩ := ih hnext
      refine ⟨part :: parts, .cons hpart hparts, ?_⟩
      intro n
      cases n with
      | zero => simpa using hrep
      | succ n =>
          rw [List.take_succ_cons, List.take_succ_cons, run_cons, List.flatten_cons, run_append]
          exact hall n

/-! ## A section that does not end -/

omit [DecidableEq ι] in
/-- An operation on the state is one of the thread that has `g`. -/
theorem Represents.owner_of_act (hrep : pool.Represents h perform g whole) {i : ι} {op : S.Op}
    {next : S.Answer op → Program (S.withLocks L) α}
    (hi : pool.threads i = .call (.act op) next) : pool.owner g = some i := by
  have hstage := hrep.stage i
  rw [hi] at hstage
  generalize whole.threads i = w at hstage
  cases hstage with
  | before task hp => exact absurd hp id
  | inside hp howner => exact howner
  | after hp => exact absurd hp.1 id

omit [DecidableEq ι] in
/-- Only the thread that has `g` gives it back. -/
theorem Represents.owner_of_release (hrep : pool.Represents h perform g whole) {i : ι}
    {next : Unit → Program (S.withLocks L) α} (hi : pool.threads i = .call (.release g) next) :
    pool.owner g = some i := by
  have hstage := hrep.stage i
  rw [hi] at hstage
  generalize whole.threads i = w at hstage
  cases hstage with
  | before task hp => exact absurd rfl hp.1
  | inside hp howner => exact howner
  | after hp => exact absurd rfl hp.1

/-- While thread `i` has `g` and does not move, what the others do changes neither the owner
    of `g` nor the state. -/
theorem Represents.stalled (hrep : pool.Represents h perform g whole)
    (program : T → Program (S.withLocks L) α) {i : ι} (hheld : pool.owner g = some i)
    {event : TaskEvent ι T} (hevent : event ≠ .step i) :
    (pool.handle h program event).owner g = some i ∧
      (pool.handle h program event).state = pool.state := by
  cases event with
  | start j task =>
      show (pool.start j (program task)).owner g = some i ∧ _
      by_cases hj : ∃ result, pool.threads j = .done result
      · obtain ⟨result, hj⟩ := hj
        exact ⟨by rw [start_of_done hj]; exact hheld, by
          show (pool.start j (program task)).state = pool.state
          rw [start_of_done hj]⟩
      · push Not at hj
        exact ⟨by rw [start_of_busy hj]; exact hheld, by
          show (pool.start j (program task)).state = pool.state
          rw [start_of_busy hj]⟩
  | step j =>
      show (pool.step h j).owner g = some i ∧ (pool.step h j).state = pool.state
      have hother : pool.owner g ≠ some j := by
        rw [hheld]
        rintro ⟨⟩
        exact hevent rfl
      rcases step_cases h pool j with ⟨hstep, -⟩ | ⟨l, next, hj, hfree, hstep⟩ |
        ⟨l, next, hj, hstep⟩ | ⟨op, next, hj, -⟩
      · rw [hstep]
        exact ⟨hheld, rfl⟩
      · have hl : g ≠ l := by
          rintro rfl
          rw [hheld] at hfree
          cases hfree
        rw [hstep]
        exact ⟨by rw [← hheld]; exact Function.update_of_ne hl _ _, rfl⟩
      · have hl : g ≠ l := by
          rintro rfl
          exact hother (hrep.owner_of_release hj)
        rw [hstep]
        exact ⟨by rw [← hheld]; exact Function.update_of_ne hl _ _, rfl⟩
      · exact absurd (hrep.owner_of_act hj) hother

/-- As long as thread `i` has `g` and does not move, the state stays. -/
theorem Represents.stalled_run (hrep : pool.Represents h perform g whole)
    (hprogram : Sectioned h perform g program) {i : ι} (hheld : pool.owner g = some i)
    {events : List (TaskEvent ι T)} (hevents : ∀ event ∈ events, event ≠ .step i) :
    (run (LockPool.handle h program) pool events).owner g = some i ∧
      (run (LockPool.handle h program) pool events).state = pool.state := by
  induction events generalizing pool whole with
  | nil => exact ⟨hheld, rfl⟩
  | cons event events ih =>
      obtain ⟨part, -, hnext⟩ := hrep.handle hprogram event
      obtain ⟨howner, hstate⟩ := hrep.stalled program hheld
        (hevents event List.mem_cons_self)
      obtain ⟨howner', hstate'⟩ := ih hnext howner fun later hlater =>
        hevents later (List.mem_cons_of_mem _ hlater)
      exact ⟨howner', hstate'.trans hstate⟩

omit [DecidableEq ι] in
/-- Whatever stands for the events starts only the tasks that they start. -/
theorem start_mem_of_stands {events : List (TaskEvent ι T)} {parts : List (List (TaskEvent ι T))}
    (hparts : List.Forall₂ Stands events parts) {i : ι} {task : T}
    (hmem : .start i task ∈ parts.flatten) : .start i task ∈ events := by
  induction hparts with
  | nil => exact absurd hmem List.not_mem_nil
  | @cons event part events parts hpart _ ih =>
      rw [List.flatten_cons, List.mem_append] at hmem
      rcases hmem with hhead | hrest
      · cases hpart with
        | none => exact absurd hhead List.not_mem_nil
        | same => exact List.mem_cons.mpr (Or.inl (List.mem_singleton.mp hhead))
        | atOnce j other =>
            rcases List.mem_cons.mp hhead with heq | hstep
            · exact List.mem_cons.mpr (Or.inl heq)
            · cases List.mem_singleton.mp hstep
      · exact List.mem_cons_of_mem _ (ih hrest)

/-- What holds of tasks that are performed whole, one after the other, holds however the
    threads interleave: of the results, and of the state while no section is in progress. -/
theorem Sectioned.sound_run {J : σ → Prop} {Q : α → Prop} {allowed : T → Prop}
    (hprogram : Sectioned h perform g program)
    (hperform : ∀ task s, allowed task → J s → Q (perform task s).1 ∧ J (perform task s).2)
    {result : α} {s : σ} (hresult : Q result) (hs : J s) {events : List (TaskEvent ι T)}
    (hevents : ∀ i task, .start i task ∈ events → allowed task) :
    let now := run (LockPool.handle h program) (fresh result s) events
    (∀ i result, now.threads i = .done result → Q result) ∧
      (now.owner g = none → J now.state) := by
  obtain ⟨parts, hparts, hall⟩ := (represents_fresh result s).exists_parts hprogram events
  have hrep := hall events.length
  rw [List.take_length, hparts.length_eq, List.take_length] at hrep
  have hsound : (run (Pool.handle perform) ⟨fun _ => .done result, s⟩ parts.flatten).Sound
      J Q allowed := by
    refine Pool.Sound.run ⟨hs, fun i => Or.inl ⟨result, rfl, hresult⟩⟩ hperform ?_
    intro i task hmem
    exact hevents i task (start_mem_of_stands hparts hmem)
  refine ⟨?_, ?_⟩
  · intro i r hi
    have hw := (hrep.result hi).2
    rcases hsound.thread i with ⟨r', hr', hQ⟩ | ⟨task, htask, -⟩
    · rw [hw] at hr'
      rw [Program.done.inj hr']
      exact hQ
    · rw [hw] at htask
      cases htask
  · intro hfree
    rw [← hrep.state_eq hfree]
    exact hsound.state

end LockPool

end ConnectAlso.Misc
