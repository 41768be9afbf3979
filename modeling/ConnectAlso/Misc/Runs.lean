import Mathlib.Data.List.Induction

/-!
# Runs of a deterministic step function

A run feeds a list of events to a step function, one after the other. A property
of states holds *throughout* a run when every state reached on the way has it,
the first and the last included; a condition holds of *each step* when it holds
of every event together with the state in which that event is handled. The rule
`throughout_iff_eachStep` turns a one-step equivalence into an equivalence about
whole runs, and `run_invariant` is the usual induction.
-/

namespace ConnectAlso.Misc

variable {σ : Type u} {α : Type v}

/-- The state after a list of events. -/
def run (step : σ → α → σ) (start : σ) (events : List α) : σ :=
  events.foldl step start

/-- `P` holds in every state reached along the run. -/
def Throughout (step : σ → α → σ) (P : σ → Prop) (start : σ) (events : List α) : Prop :=
  ∀ past, past <+: events → P (run step start past)

/-- `C` holds of every event of the run and the state in which it is handled. -/
def EachStep (step : σ → α → σ) (C : σ → α → Prop) (start : σ) (events : List α) : Prop :=
  ∀ past event, past ++ [event] <+: events → C (run step start past) event

@[simp] theorem run_nil (step : σ → α → σ) (start : σ) : run step start [] = start := rfl

@[simp] theorem run_cons (step : σ → α → σ) (start : σ) (event : α) (events : List α) :
    run step start (event :: events) = run step (step start event) events := rfl

theorem run_append (step : σ → α → σ) (start : σ) (past future : List α) :
    run step start (past ++ future) = run step (run step start past) future :=
  List.foldl_append

/-- What every step preserves, every run preserves. -/
theorem run_invariant {step : σ → α → σ} {J : σ → Prop}
    (hstep : ∀ s event, J s → J (step s event)) {start : σ} (hstart : J start)
    (events : List α) : J (run step start events) := by
  induction events generalizing start with
  | nil => exact hstart
  | cons event events ih => exact ih (hstep start event hstart)

/-- A state property that only events meeting `C` can break, under a step invariant
    `J`, holds at the end of a run unless such an event occurred. -/
theorem run_holds_or_exists {step : σ → α → σ} {J P : σ → Prop} {C : σ → α → Prop}
    (hinv : ∀ s event, J s → J (step s event))
    (hstep : ∀ s event, J s → P s → ¬ C s event → P (step s event))
    {start : σ} (hJ : J start) (hP : P start) (events : List α) :
    P (run step start events) ∨ ∃ past event rest,
      events = past ++ event :: rest ∧ C (run step start past) event := by
  induction events generalizing start with
  | nil => exact Or.inl hP
  | cons event events ih =>
      by_cases hbreak : C start event
      · exact Or.inr ⟨[], event, events, rfl, hbreak⟩
      · rcases ih (hinv start event hJ) (hstep start event hJ hP hbreak) with hend | hlater
        · exact Or.inl hend
        · obtain ⟨past, later, rest, rfl, hC⟩ := hlater
          exact Or.inr ⟨event :: past, later, rest, rfl, hC⟩

@[simp] theorem throughout_nil (step : σ → α → σ) (P : σ → Prop) (start : σ) :
    Throughout step P start [] ↔ P start := by
  simp [Throughout]

theorem throughout_cons (step : σ → α → σ) (P : σ → Prop) (start : σ) (event : α)
    (events : List α) :
    Throughout step P start (event :: events) ↔
      P start ∧ Throughout step P (step start event) events := by
  refine ⟨?_, ?_⟩
  · intro h
    refine ⟨h [] (List.nil_prefix), ?_⟩
    intro past hpast
    exact h (event :: past) (List.cons_prefix_cons.mpr ⟨rfl, hpast⟩)
  · rintro ⟨hnow, hlater⟩ past hpast
    cases past with
    | nil => exact hnow
    | cons first past =>
        obtain ⟨hfirst, hrest⟩ := List.cons_prefix_cons.mp hpast
        subst hfirst
        exact hlater past hrest

@[simp] theorem eachStep_nil (step : σ → α → σ) (C : σ → α → Prop) (start : σ) :
    EachStep step C start [] := by
  intro past event hpast
  simp at hpast

theorem eachStep_cons (step : σ → α → σ) (C : σ → α → Prop) (start : σ) (event : α)
    (events : List α) :
    EachStep step C start (event :: events) ↔
      C start event ∧ EachStep step C (step start event) events := by
  refine ⟨?_, ?_⟩
  · intro h
    refine ⟨h [] event (by simp), ?_⟩
    intro past later hpast
    exact h (event :: past) later (List.cons_prefix_cons.mpr ⟨rfl, hpast⟩)
  · rintro ⟨hnow, hlater⟩ past later hpast
    cases past with
    | nil =>
        obtain rfl : later = event := by simpa using hpast
        exact hnow
    | cons first past =>
        obtain ⟨hfirst, hrest⟩ := List.cons_prefix_cons.mp hpast
        subst hfirst
        exact hlater past later hrest

/-- A condition on steps that can be computed can be computed for a whole run. -/
instance EachStep.decidable (step : σ → α → σ) (C : σ → α → Prop)
    [hC : ∀ s event, Decidable (C s event)] :
    ∀ (start : σ) (events : List α), Decidable (EachStep step C start events)
  | start, [] => .isTrue (eachStep_nil step C start)
  | start, event :: events =>
    @decidable_of_iff _ _ (eachStep_cons step C start event events).symm
      (@instDecidableAnd _ _ (hC start event) (EachStep.decidable step C (step start event) events))

theorem EachStep.mono {step : σ → α → σ} {C C' : σ → α → Prop}
    (h : ∀ s event, C s event → C' s event) {start : σ} {events : List α}
    (hevents : EachStep step C start events) : EachStep step C' start events :=
  fun past event hpast => h _ event (hevents past event hpast)

/-- The part of a run before its last event, and that event. -/
theorem EachStep.append_singleton {step : σ → α → σ} {C : σ → α → Prop} {start : σ}
    {events : List α} {event : α} (h : EachStep step C start (events ++ [event])) :
    EachStep step C start events ∧ C (run step start events) event := by
  refine ⟨?_, h events event (List.prefix_refl _)⟩
  intro past earlier hpast
  exact h past earlier (hpast.trans (List.prefix_append _ _))

theorem EachStep.snoc {step : σ → α → σ} {C : σ → α → Prop} {start : σ} {events : List α}
    (h : EachStep step C start events) {event : α} (hevent : C (run step start events) event) :
    EachStep step C start (events ++ [event]) := by
  intro past last hpast
  rcases List.prefix_concat_iff.mp hpast with heq | hearlier
  · obtain ⟨rfl, rfl⟩ := List.append_singleton_inj.mp heq
    exact hevent
  · exact h past last hearlier

/-- What every step that meets `C` preserves, a run of such steps preserves. -/
theorem run_invariant_of_eachStep {step : σ → α → σ} {J : σ → Prop} {C : σ → α → Prop}
    (hstep : ∀ s event, C s event → J s → J (step s event)) {start : σ} (hstart : J start)
    {events : List α} (hevents : EachStep step C start events) : J (run step start events) := by
  induction events generalizing start with
  | nil => exact hstart
  | cons event events ih =>
      obtain ⟨hnow, hlater⟩ := (eachStep_cons step C start event events).mp hevents
      exact ih (hstep start event hnow hstart) hlater

/-- If, under a step invariant `J`, a step out of a good state leads to a good
    state exactly when it meets `C`, then a run stays good exactly when each of
    its steps meets `C`. -/
theorem throughout_iff_eachStep {step : σ → α → σ} {J P : σ → Prop} {C : σ → α → Prop}
    (hinv : ∀ s event, J s → J (step s event))
    (hstep : ∀ s event, J s → P s → (P (step s event) ↔ C s event))
    {start : σ} (hJ : J start) (hP : P start) (events : List α) :
    Throughout step P start events ↔ EachStep step C start events := by
  induction events generalizing start with
  | nil => simp [hP]
  | cons event events ih =>
      rw [throughout_cons, eachStep_cons]
      by_cases hgood : P (step start event)
      · rw [ih (hinv start event hJ) hgood]
        simp [hP, hstep start event hJ hP |>.mp hgood]
      · refine ⟨?_, ?_⟩
        · rintro ⟨-, hlater⟩
          exact absurd (hlater [] List.nil_prefix) hgood
        · rintro ⟨hnow, -⟩
          exact absurd ((hstep start event hJ hP).mpr hnow) hgood

/-- If steps that meet `C` lead from good states to good ones, and a step that does not
    leads to a state from which no step leads out, then a run ends in a good state or in
    such a state according to whether each of its steps meets `C`. -/
theorem run_of_eachStep_or_not {step : σ → α → σ} {J D : σ → Prop} {C : σ → α → Prop}
    (hgood : ∀ s event, J s → C s event → J (step s event))
    (hbad : ∀ s event, J s → ¬ C s event → D (step s event))
    (hstay : ∀ s event, D s → D (step s event)) {start : σ} (hstart : J start)
    (events : List α) :
    EachStep step C start events ∧ J (run step start events) ∨
      ¬ EachStep step C start events ∧ D (run step start events) := by
  induction events generalizing start with
  | nil => exact Or.inl ⟨eachStep_nil step C start, hstart⟩
  | cons event events ih =>
      rw [eachStep_cons]
      by_cases hC : C start event
      · rcases ih (hgood start event hstart hC) with ⟨hsteps, hend⟩ | ⟨hsteps, hend⟩
        · exact Or.inl ⟨⟨hC, hsteps⟩, hend⟩
        · exact Or.inr ⟨fun h => hsteps h.2, hend⟩
      · exact Or.inr ⟨fun h => hC h.1, run_invariant hstay (hbad start event hstart hC) events⟩

/-- A property that some steps bring about and no step takes away holds at the end of a run
    exactly when it held at the start or such a step occurred. -/
theorem run_iff_or_exists {step : σ → α → σ} {J P : σ → Prop} {Q : σ → α → Prop}
    (hinv : ∀ s event, J s → J (step s event))
    (hstep : ∀ s event, J s → (P (step s event) ↔ P s ∨ Q s event)) {start : σ} (hJ : J start)
    (events : List α) :
    P (run step start events) ↔
      P start ∨ ∃ past event, past ++ [event] <+: events ∧ Q (run step start past) event := by
  induction events using List.reverseRecOn with
  | nil => simp
  | append_singleton events last ih =>
      have hlast := hstep _ last (run_invariant hinv hJ events)
      have hrun : run step start (events ++ [last]) = step (run step start events) last :=
        run_append step start events [last]
      rw [hrun, hlast, ih, or_assoc]
      refine or_congr_right ?_
      constructor
      · rintro (⟨past, event, hpast, hQ⟩ | hQ)
        · exact ⟨past, event, hpast.trans (List.prefix_append _ _), hQ⟩
        · exact ⟨events, last, List.prefix_refl _, hQ⟩
      · rintro ⟨past, event, hpast, hQ⟩
        rcases List.prefix_concat_iff.mp hpast with heq | hbefore
        · obtain ⟨rfl, hevent⟩ := List.append_inj' heq rfl
          obtain rfl := List.singleton_inj.mp hevent
          exact Or.inr hQ
        · exact Or.inl ⟨past, event, hbefore, hQ⟩

/-! ## Two step functions -/

section Simulation

variable {τ : Type w} {step : σ → α → σ} {step' : τ → α → τ} {f : σ → τ} {J : σ → Prop}

/-- If `f` turns steps of one kind into steps of another, under an invariant of the first,
    it turns runs into runs. -/
theorem map_run (hinv : ∀ s event, J s → J (step s event))
    (hstep : ∀ s event, J s → f (step s event) = step' (f s) event) {start : σ} (hJ : J start)
    (events : List α) : f (run step start events) = run step' (f start) events := by
  induction events generalizing start with
  | nil => rfl
  | cons event events ih =>
      rw [run_cons, run_cons, ih (hinv start event hJ), hstep start event hJ]

/-- A condition that reads a state through `f` holds of the steps of corresponding runs
    alike. -/
theorem eachStep_map_iff (hinv : ∀ s event, J s → J (step s event))
    (hstep : ∀ s event, J s → f (step s event) = step' (f s) event) {start : σ} (hJ : J start)
    {C : τ → α → Prop} (events : List α) :
    EachStep step (fun s event => C (f s) event) start events ↔
      EachStep step' C (f start) events := by
  refine forall_congr' fun past => forall_congr' fun event => imp_congr_right fun _ => ?_
  show C (f (run step start past)) event ↔ _
  rw [map_run hinv hstep hJ]

end Simulation

end ConnectAlso.Misc
