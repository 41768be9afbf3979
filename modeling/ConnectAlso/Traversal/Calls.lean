import ConnectAlso.Traversal.Punch

/-!
# Two calls from the outside

What can be seen of two calls of `punch` that run at the same time: `advance` moves one of
them. The first packet of all is lost, since the other side has not sent yet. A side that
receives stops sending, so if it is already waiting when the first packet of the other side
arrives, that other side never receives anything: `Together` excludes such steps, and
`promising_advance` and `parted_advance` say what they decide.
-/

namespace ConnectAlso.Traversal

/-! ## The two calls from the outside -/

/-- What a call sees of its own step. -/
def CallView.own (call : CallView) : CallView :=
  match call.doing with
  | .sending => { call with doing := .waiting, sent := call.sent + 1 }
  | .waiting =>
    if call.inbox = 0 then
      { call with doing := if call.sent < punchRetries then .sending else .returned false }
    else { call with doing := .returned true, inbox := call.inbox - 1 }
  | .returned _ => call

/-- What a call sees of a step of the other one: its packet, if the NAT lets it pass. -/
def CallView.hear (call mover : CallView) : CallView :=
  if mover.doing = .sending ∧ 0 < call.sent then { call with inbox := call.inbox + 1 } else call

/-- Call `i` takes its next step. -/
def advance (calls : Side → CallView) (i j : Side) : CallView :=
  if j = i then (calls i).own else (calls j).hear (calls i)

/-- Before the first step. -/
def CallView.start : CallView := { doing := .sending, sent := 0, inbox := 0 }

/-- The step that call `i` takes does not part the calls: when it sends its first packet
    after the other call has sent, that one is not waiting; and it does not give up
    after both have sent, unless the other call has returned. -/
structure Together (calls : Side → CallView) (i : Side) : Prop where
  first : (calls i).doing = .sending → (calls i).sent = 0 → 0 < (calls i.other).sent →
    (calls i.other).doing ≠ .waiting
  last : (calls i).doing = .waiting → (calls i).inbox = 0 → punchRetries ≤ (calls i).sent →
    0 < (calls i.other).sent → ∃ received, (calls i.other).doing = .returned received

/-! ## Calls that are bound to receive -/

namespace CallView

variable {call mover : CallView}

/-- The call has not returned. -/
def Running (call : CallView) : Prop := ∀ received, call.doing ≠ .returned received

/-- The call has sent, and it has received a packet or one is waiting in its socket. -/
structure Bound (call : CallView) : Prop where
  sent : 0 < call.sent
  packet : call.doing = .returned true ∨ call.Running ∧ 0 < call.inbox

theorem running_of_sending (h : call.doing = .sending) : call.Running := by
  intro received hreturned
  rw [h] at hreturned
  cases hreturned

theorem running_of_waiting (h : call.doing = .waiting) : call.Running := by
  intro received hreturned
  rw [h] at hreturned
  cases hreturned

theorem own_of_sending (h : call.doing = .sending) :
    call.own = { call with doing := .waiting, sent := call.sent + 1 } := by
  rw [own, h]

theorem own_of_receive (h : call.doing = .waiting) (hinbox : 0 < call.inbox) :
    call.own = { call with doing := .returned true, inbox := call.inbox - 1 } := by
  rw [own, h]
  exact if_neg hinbox.ne'

theorem own_of_timeout (h : call.doing = .waiting) (hinbox : call.inbox = 0) :
    call.own =
      { call with doing := if call.sent < punchRetries then .sending else .returned false } := by
  rw [own, h]
  exact if_pos hinbox

theorem own_of_returned {received : Bool} (h : call.doing = .returned received) :
    call.own = call := by
  rw [own, h]

/-- A call with an empty socket gives up or stays as it is, but for the number of packets
    that it has sent. -/
theorem own_of_empty (hrunning : call.Running) (hinbox : call.inbox = 0) :
    call.own.inbox = 0 ∧ call.sent ≤ call.own.sent ∧
      (call.own.Running ∨
        call.own.doing = .returned false ∧ call.doing = .waiting ∧ punchRetries ≤ call.sent) := by
  cases hdoing : call.doing with
  | sending =>
      rw [own_of_sending hdoing]
      exact ⟨hinbox, Nat.le_succ call.sent, Or.inl (running_of_waiting rfl)⟩
  | waiting =>
      rw [own_of_timeout hdoing hinbox]
      refine ⟨hinbox, le_rfl, ?_⟩
      by_cases hmore : call.sent < punchRetries
      · exact Or.inl (running_of_sending (if_pos hmore))
      · exact Or.inr ⟨if_neg hmore, rfl, not_lt.mp hmore⟩
  | returned received => exact absurd hdoing (hrunning received)

/-- A call with an empty socket does not receive in a step of its own. -/
theorem own_of_empty_of_ne (hdoing : call.doing ≠ .returned true) (hinbox : call.inbox = 0) :
    call.own.doing ≠ .returned true ∧ call.own.inbox = 0 ∧ call.sent ≤ call.own.sent := by
  by_cases hreturned : call.doing = .returned false
  · rw [own_of_returned hreturned]
    exact ⟨hdoing, hinbox, le_rfl⟩
  · have hrunning : call.Running := by
      rintro (_ | _)
      · exact hreturned
      · exact hdoing
    obtain ⟨hempty, hmore, hgoes⟩ := own_of_empty hrunning hinbox
    refine ⟨?_, hempty, hmore⟩
    rcases hgoes with hruns | ⟨hgaveUp, -, -⟩
    · exact hruns true
    · rw [hgaveUp]
      decide

@[simp] theorem hear_doing : (call.hear mover).doing = call.doing := by
  rw [hear]
  split <;> rfl

@[simp] theorem hear_sent : (call.hear mover).sent = call.sent := by
  rw [hear]
  split <;> rfl

theorem hear_of_not_sending (h : mover.doing ≠ .sending) : call.hear mover = call :=
  if_neg fun hheard => h hheard.1

theorem hear_of_not_sent (h : call.sent = 0) : call.hear mover = call :=
  if_neg fun hheard => hheard.2.ne' h

theorem hear_of_sending (h : mover.doing = .sending) (hsent : 0 < call.sent) :
    call.hear mover = { call with inbox := call.inbox + 1 } :=
  if_pos ⟨h, hsent⟩

theorem inbox_le_hear : call.inbox ≤ (call.hear mover).inbox := by
  rw [hear]
  split
  · exact Nat.le_succ call.inbox
  · exact le_rfl

theorem Running.hear (h : call.Running) : (call.hear mover).Running := by
  intro received hreturned
  rw [hear_doing] at hreturned
  exact h received hreturned

theorem Bound.hear (h : call.Bound) : (call.hear mover).Bound := by
  refine ⟨by rw [hear_sent]; exact h.sent, ?_⟩
  rcases h.packet with hreturned | ⟨hrunning, hinbox⟩
  · exact Or.inl (by rw [hear_doing]; exact hreturned)
  · exact Or.inr ⟨hrunning.hear, hinbox.trans_le inbox_le_hear⟩

/-- A call that is not about to send, and is bound to receive, receives now. -/
theorem Bound.own_of_not_sending (h : call.Bound) (hdoing : call.doing ≠ .sending) :
    call.own.Bound ∧ call.own.doing = .returned true := by
  rcases h.packet with hreturned | ⟨hrunning, hinbox⟩
  · rw [own_of_returned hreturned]
    exact ⟨h, hreturned⟩
  · cases hnow : call.doing with
    | sending => exact absurd hnow hdoing
    | waiting =>
        rw [own_of_receive hnow hinbox]
        exact ⟨⟨h.sent, Or.inl rfl⟩, rfl⟩
    | returned received => exact absurd hnow (hrunning received)

theorem Bound.own (h : call.Bound) : call.own.Bound := by
  by_cases hdoing : call.doing = .sending
  · rcases h.packet with hreturned | ⟨-, hinbox⟩
    · rw [hdoing] at hreturned
      cases hreturned
    · rw [own_of_sending hdoing]
      exact ⟨Nat.succ_pos call.sent, Or.inr ⟨running_of_waiting rfl, hinbox⟩⟩
  · exact (h.own_of_not_sending hdoing).1

end CallView

/-! ## How many steps a call takes -/

namespace CallView

variable {call mover : CallView}

/-- A call that is about to send has a round left. -/
def Timely (call : CallView) : Prop := call.doing = .sending → call.sent < punchRetries

/-- The most steps that a call has before it. -/
def stepsLeft (call : CallView) : Nat :=
  match call.doing with
  | .sending => 2 * (punchRetries - call.sent)
  | .waiting => 2 * (punchRetries - call.sent) + 1
  | .returned _ => 0

theorem stepsLeft_own (h : call.Timely) :
    call.own.Timely ∧ call.own.stepsLeft ≤ call.stepsLeft - 1 := by
  cases hdoing : call.doing with
  | sending =>
      have hsent := h hdoing
      rw [own_of_sending hdoing]
      refine ⟨fun hsending => (by cases hsending), ?_⟩
      simp only [stepsLeft, hdoing]
      omega
  | waiting =>
      by_cases hinbox : call.inbox = 0
      · rw [own_of_timeout hdoing hinbox]
        by_cases hmore : call.sent < punchRetries
        · simp only [Timely, stepsLeft, hdoing, if_pos hmore]
          exact ⟨fun _ => hmore, le_rfl⟩
        · simp only [Timely, stepsLeft, hdoing, if_neg hmore]
          exact ⟨fun hsending => (by cases hsending), Nat.zero_le _⟩
      · rw [own_of_receive hdoing (Nat.pos_of_ne_zero hinbox)]
        exact ⟨fun hsending => (by cases hsending), Nat.zero_le _⟩
  | returned received =>
      rw [own_of_returned hdoing]
      refine ⟨h, ?_⟩
      simp only [stepsLeft, hdoing]
      exact Nat.zero_le _

theorem stepsLeft_hear (h : call.Timely) :
    (call.hear mover).Timely ∧ (call.hear mover).stepsLeft = call.stepsLeft := by
  rw [Timely, stepsLeft, hear_doing, hear_sent]
  exact ⟨h, rfl⟩

/-- A call that has no step before it has returned. -/
theorem returned_of_stepsLeft (h : call.Timely) (hnone : call.stepsLeft = 0) :
    ∃ received, call.doing = .returned received := by
  cases hdoing : call.doing with
  | sending =>
      have hsent := h hdoing
      simp only [stepsLeft, hdoing] at hnone
      omega
  | waiting =>
      simp only [stepsLeft, hdoing] at hnone
      omega
  | returned received => exact ⟨received, rfl⟩

end CallView

/-- In a run of the machine, every step of a call leaves it fewer. -/
theorem stepsLeft_run {calls : Side → CallView} (h : ∀ i, (calls i).Timely)
    (schedule : List Side) (i : Side) :
    (Misc.run advance calls schedule i).Timely ∧
      (Misc.run advance calls schedule i).stepsLeft ≤ (calls i).stepsLeft - schedule.count i := by
  induction schedule generalizing calls with
  | nil => exact ⟨h i, le_rfl⟩
  | cons j rest ih =>
      have hstep : ∀ k, (advance calls j k).Timely ∧
          (advance calls j k).stepsLeft ≤ (calls k).stepsLeft - if j = k then 1 else 0 := by
        intro k
        rw [advance]
        by_cases hown : k = j
        · rw [if_pos hown, if_pos hown.symm, hown]
          exact CallView.stepsLeft_own (h j)
        · rw [if_neg hown, if_neg (Ne.symm hown)]
          obtain ⟨htimely, hsame⟩ := @CallView.stepsLeft_hear _ (calls j) (h k)
          exact ⟨htimely, hsame.le⟩
      obtain ⟨htimely, hleft⟩ := ih fun k => (hstep k).1
      have hfirst := (hstep i).2
      rw [Misc.run_cons, List.count_cons]
      refine ⟨htimely, hleft.trans ?_⟩
      simp only [beq_iff_eq]
      omega

/-! ## Calls that keep together, and calls that have parted -/

/-- Calls that can still agree: nobody has sent; `x` alone has; `x` has given up and the
    other call has nothing to receive; a packet waits for `x`, which is about to send;
    both are bound to receive. -/
inductive Promising (calls : Side → CallView) : Prop where
  | fresh (h : ∀ i, calls i = .start)
  | started (x : Side) (hsent : 0 < (calls x).sent) (hinbox : (calls x).inbox = 0)
      (hdoing : (calls x).doing ≠ .returned true) (hother : calls x.other = .start)
  | alone (x : Side) (hdoing : (calls x).doing = .returned false) (hsent : 0 < (calls x).sent)
      (hother : (calls x.other).doing ≠ .returned true) (hsentOther : 0 < (calls x.other).sent)
      (hinbox : (calls x.other).inbox = 0)
  | pending (x : Side) (hdoing : (calls x).doing = .sending) (hbound : (calls x).Bound)
      (hother : (calls x.other).Running) (hsentOther : 0 < (calls x.other).sent)
      (hinbox : (calls x.other).inbox = 0)
  | joined (h : ∀ i, (calls i).Bound)

/-- Calls that can no longer agree: `x` is bound to receive, and the other call has given
    up, or it has nothing to receive and `x` sends nothing more. -/
inductive Parted (calls : Side → CallView) : Prop where
  | gaveUp (x : Side) (hbound : (calls x).Bound) (hother : (calls x.other).doing = .returned false)
  | deserted (x : Side) (hbound : (calls x).Bound) (hdoing : (calls x).doing ≠ .sending)
      (hother : (calls x.other).Running) (hinbox : (calls x.other).inbox = 0)

section Machine
variable {calls : Side → CallView} {i : Side}

@[simp] theorem advance_self (calls : Side → CallView) (i : Side) :
    advance calls i i = (calls i).own := if_pos rfl

@[simp] theorem advance_other (calls : Side → CallView) (i : Side) :
    advance calls i i.other = (calls i.other).hear (calls i) := if_neg i.other_ne

@[simp] theorem advance_by_other (calls : Side → CallView) (i : Side) :
    advance calls i.other i = (calls i).hear (calls i.other) := if_neg i.other_ne.symm

/-- Two calls that have both received, or are both bound to, go on like that. -/
theorem bound_advance (h : ∀ i, (calls i).Bound) (i : Side) (j : Side) :
    (advance calls i j).Bound := by
  rcases Side.eq_or_eq_other i j with rfl | rfl
  · rw [advance_self]
    exact (h j).own
  · rw [advance_other]
    exact (h i.other).hear

/-- The first packet of all is lost. -/
theorem started_of_fresh (h : ∀ i, calls i = .start) (i : Side) : Promising (advance calls i) := by
  refine .started i ?_ ?_ ?_ ?_
  · rw [advance_self, h i]
    exact Nat.zero_lt_one
  · rw [advance_self, h i]
    rfl
  · rw [advance_self, h i]
    exact Doing.noConfusion
  · rw [advance_other, h i.other]
    exact CallView.hear_of_not_sent rfl

/-- The call that has started goes on by itself. -/
theorem started_advance {x : Side} (hsent : 0 < (calls x).sent) (hinbox : (calls x).inbox = 0)
    (hdoing : (calls x).doing ≠ .returned true) (hother : calls x.other = .start) :
    Promising (advance calls x) := by
  obtain ⟨hnot, hempty, hmore⟩ := CallView.own_of_empty_of_ne hdoing hinbox
  refine .started x ?_ ?_ ?_ ?_
  · rw [advance_self]
    exact hsent.trans_le hmore
  · rwa [advance_self]
  · rwa [advance_self]
  · rw [advance_other, CallView.hear_of_not_sent (by rw [hother]; rfl), hother]

/-- The first packet of the later call reaches the one that has started. -/
theorem later_first {x : Side} (hsent : 0 < (calls x).sent) (hinbox : (calls x).inbox = 0)
    (hother : calls x.other = .start) :
    advance calls x.other x.other = { doing := .waiting, sent := 1, inbox := 0 } ∧
      advance calls x.other x = { calls x with inbox := 1 } := by
  refine ⟨?_, ?_⟩
  · rw [advance_self, hother]
    rfl
  · rw [advance_by_other, CallView.hear_of_sending (by rw [hother]; rfl) hsent, hinbox]

theorem later_advance {x : Side} (hsent : 0 < (calls x).sent) (hinbox : (calls x).inbox = 0)
    (hdoing : (calls x).doing ≠ .returned true) (hother : calls x.other = .start)
    (htogether : Together calls x.other) : Promising (advance calls x.other) := by
  obtain ⟨hlater, hearlier⟩ := later_first hsent hinbox hother
  cases hnow : (calls x).doing with
  | sending =>
      refine .pending x ?_ ⟨?_, Or.inr ⟨?_, ?_⟩⟩ ?_ ?_ ?_
      · rwa [hearlier]
      · rwa [hearlier]
      · rw [hearlier]
        exact CallView.running_of_sending hnow
      · rw [hearlier]
        exact Nat.zero_lt_one
      · rw [hlater]
        exact CallView.running_of_waiting rfl
      · rw [hlater]
        exact Nat.zero_lt_one
      · rw [hlater]
  | waiting =>
      refine absurd ?_ (htogether.first (by rw [hother]; rfl) (by rw [hother]; rfl) ?_)
      · rwa [Side.other_other]
      · rwa [Side.other_other]
  | returned received =>
      cases received with
      | true => exact absurd hnow hdoing
      | false =>
          refine .alone x ?_ ?_ ?_ ?_ ?_
          · rwa [hearlier]
          · rwa [hearlier]
          · rw [hlater]
            exact Doing.noConfusion
          · rw [hlater]
            exact Nat.zero_lt_one
          · rw [hlater]

/-- When one call has given up, the other one goes on by itself. -/
theorem alone_advance {x : Side} (hdoing : (calls x).doing = .returned false)
    (hsent : 0 < (calls x).sent) (hother : (calls x.other).doing ≠ .returned true)
    (hsentOther : 0 < (calls x.other).sent) (hinbox : (calls x.other).inbox = 0) (i : Side) :
    Promising (advance calls i) := by
  rcases Side.eq_or_eq_other x i with rfl | rfl
  · have hself : advance calls i i = calls i := by
      rw [advance_self, CallView.own_of_returned hdoing]
    have hsame : advance calls i i.other = calls i.other := by
      rw [advance_other, CallView.hear_of_not_sending (by rw [hdoing]; exact Doing.noConfusion)]
    exact .alone i (by rwa [hself]) (by rwa [hself]) (by rwa [hsame]) (by rwa [hsame])
      (by rwa [hsame])
  · obtain ⟨hnot, hempty, hmore⟩ := CallView.own_of_empty_of_ne hother hinbox
    refine .alone x ?_ ?_ ?_ ?_ ?_
    · rwa [advance_by_other, CallView.hear_doing]
    · rwa [advance_by_other, CallView.hear_sent]
    · rwa [advance_self]
    · rw [advance_self]
      exact hsentOther.trans_le hmore
    · rwa [advance_self]

/-- The call for which a packet waits sends once more, and that packet arrives. -/
theorem joined_of_pending {x : Side} (hdoing : (calls x).doing = .sending)
    (hbound : (calls x).Bound) (hother : (calls x.other).Running)
    (hsentOther : 0 < (calls x.other).sent) (i : Side) : (advance calls x i).Bound := by
  rcases Side.eq_or_eq_other x i with rfl | rfl
  · rw [advance_self]
    exact hbound.own
  · rw [advance_other, CallView.hear_of_sending hdoing hsentOther]
    exact ⟨hsentOther, Or.inr ⟨hother, Nat.succ_pos _⟩⟩

theorem pending_advance {x : Side} (hdoing : (calls x).doing = .sending)
    (hbound : (calls x).Bound) (hother : (calls x.other).Running)
    (hsentOther : 0 < (calls x.other).sent) (hinbox : (calls x.other).inbox = 0)
    (htogether : Together calls x.other) : Promising (advance calls x.other) := by
  obtain ⟨hempty, hmore, hgoes⟩ := CallView.own_of_empty hother hinbox
  rcases hgoes with hruns | ⟨-, hwaiting, hlast⟩
  · refine .pending x ?_ ?_ ?_ ?_ ?_
    · rwa [advance_by_other, CallView.hear_doing]
    · rw [advance_by_other]
      exact hbound.hear
    · rwa [advance_self]
    · rw [advance_self]
      exact hsentOther.trans_le hmore
    · rwa [advance_self]
  · obtain ⟨received, hreturned⟩ :=
      htogether.last hwaiting hinbox hlast (by rw [Side.other_other]; exact hbound.sent)
    rw [Side.other_other, hdoing] at hreturned
    cases hreturned

theorem promising_advance (h : Promising calls) {i : Side} (htogether : Together calls i) :
    Promising (advance calls i) := by
  cases h with
  | fresh h => exact started_of_fresh h i
  | started x hsent hinbox hdoing hother =>
      rcases Side.eq_or_eq_other x i with rfl | rfl
      · exact started_advance hsent hinbox hdoing hother
      · exact later_advance hsent hinbox hdoing hother htogether
  | alone x hdoing hsent hother hsentOther hinbox =>
      exact alone_advance hdoing hsent hother hsentOther hinbox i
  | pending x hdoing hbound hother hsentOther hinbox =>
      rcases Side.eq_or_eq_other x i with rfl | rfl
      · exact .joined (joined_of_pending hdoing hbound hother hsentOther)
      · exact pending_advance hdoing hbound hother hsentOther hinbox htogether
  | joined h => exact .joined (bound_advance h i)

/-- Calls that have parted stay so. -/
theorem parted_advance (h : Parted calls) (i : Side) : Parted (advance calls i) := by
  cases h with
  | gaveUp x hbound hother =>
      rcases Side.eq_or_eq_other x i with rfl | rfl
      · refine .gaveUp i ?_ ?_
        · rw [advance_self]
          exact hbound.own
        · rwa [advance_other, CallView.hear_doing]
      · refine .gaveUp x ?_ ?_
        · rw [advance_by_other]
          exact hbound.hear
        · rwa [advance_self, CallView.own_of_returned hother]
  | deserted x hbound hdoing hother hinbox =>
      rcases Side.eq_or_eq_other x i with rfl | rfl
      · obtain ⟨hstill, hreceived⟩ := hbound.own_of_not_sending hdoing
        have hsame : advance calls i i.other = calls i.other := by
          rw [advance_other, CallView.hear_of_not_sending hdoing]
        refine .deserted i ?_ ?_ (by rwa [hsame]) (by rwa [hsame])
        · rwa [advance_self]
        · rw [advance_self, hreceived]
          exact Doing.noConfusion
      · obtain ⟨hempty, -, hgoes⟩ := CallView.own_of_empty hother hinbox
        have hstill : (advance calls x.other x).Bound := by
          rw [advance_by_other]
          exact hbound.hear
        rcases hgoes with hruns | ⟨hgaveUp, -, -⟩
        · refine .deserted x hstill ?_ ?_ ?_
          · rwa [advance_by_other, CallView.hear_doing]
          · rwa [advance_self]
          · rwa [advance_self]
        · refine .gaveUp x hstill ?_
          rwa [advance_self]

/-- The two ways to part: the first packet of call `i` arrives while the other one waits,
    or call `i` gives up although both have sent and the other one has not returned. -/
theorem not_together (h : ¬ Together calls i) :
    ((calls i).doing = .sending ∧ (calls i).sent = 0 ∧ 0 < (calls i.other).sent ∧
        (calls i.other).doing = .waiting) ∨
      ((calls i).doing = .waiting ∧ (calls i).inbox = 0 ∧ punchRetries ≤ (calls i).sent ∧
        0 < (calls i.other).sent ∧ (calls i.other).Running) := by
  by_contra hneither
  rw [not_or] at hneither
  refine h ⟨?_, ?_⟩
  · intro hdoing hsent hother hwaiting
    exact hneither.1 ⟨hdoing, hsent, hother, hwaiting⟩
  · intro hdoing hinbox hlast hother
    by_contra hrunning
    exact hneither.2 ⟨hdoing, hinbox, hlast, hother, fun received hreturned =>
      hrunning ⟨received, hreturned⟩⟩

/-- A call that has not sent, when the other one has, faces a call that has started. -/
theorem started_of_unsent (h : Promising calls) {i : Side} (hsent : (calls i).sent = 0)
    (hsentOther : 0 < (calls i.other).sent) :
    calls i = .start ∧ (calls i.other).inbox = 0 := by
  cases h with
  | fresh h =>
      rw [h i.other] at hsentOther
      exact absurd hsentOther (lt_irrefl 0)
  | started x hsentX hinbox _ hother =>
      rcases Side.eq_or_eq_other x i with rfl | rfl
      · exact absurd hsent hsentX.ne'
      · rw [Side.other_other]
        exact ⟨hother, hinbox⟩
  | alone x _ hsentX _ hsentXOther _ =>
      rcases Side.eq_or_eq_other x i with rfl | rfl
      · exact absurd hsent hsentX.ne'
      · exact absurd hsent hsentXOther.ne'
  | pending x _ hbound _ hsentXOther _ =>
      rcases Side.eq_or_eq_other x i with rfl | rfl
      · exact absurd hsent hbound.sent.ne'
      · exact absurd hsent hsentXOther.ne'
  | joined h => exact absurd hsent (h i).sent.ne'

/-- The later call sends its first packet to a call that waits. -/
theorem parted_of_first (h : Promising calls) {i : Side} (hsent : (calls i).sent = 0)
    (hsentOther : 0 < (calls i.other).sent) (hwaiting : (calls i.other).doing = .waiting) :
    Parted (advance calls i) := by
  obtain ⟨hstart, hinbox⟩ := started_of_unsent h hsent hsentOther
  obtain ⟨hlater, hearlier⟩ :=
    @later_first calls i.other hsentOther hinbox (by rwa [Side.other_other])
  rw [Side.other_other] at hlater hearlier
  refine .deserted i.other ⟨?_, Or.inr ⟨?_, ?_⟩⟩ ?_ ?_ ?_
  · rwa [hearlier]
  · rw [hearlier]
    exact CallView.running_of_waiting hwaiting
  · rw [hearlier]
    exact Nat.zero_lt_one
  · rw [hearlier]
    show (calls i.other).doing ≠ .sending
    rw [hwaiting]
    exact Doing.noConfusion
  · rw [Side.other_other, hlater]
    exact CallView.running_of_waiting rfl
  · rw [Side.other_other, hlater]

/-- A call that waits in vain after both have sent, while the other one has not returned:
    a packet waits for that one. -/
theorem bound_of_waiting (h : Promising calls) {i : Side} (hdoing : (calls i).doing = .waiting)
    (hinbox : (calls i).inbox = 0) (hsentOther : 0 < (calls i.other).sent)
    (hrunning : (calls i.other).Running) : (calls i.other).Bound := by
  cases h with
  | fresh h =>
      rw [h i.other] at hsentOther
      exact absurd hsentOther (lt_irrefl 0)
  | started x _ _ _ hother =>
      rcases Side.eq_or_eq_other x i with rfl | rfl
      · rw [hother] at hsentOther
        exact absurd hsentOther (lt_irrefl 0)
      · rw [hother] at hdoing
        cases hdoing
  | alone x hdoingX _ _ _ _ =>
      rcases Side.eq_or_eq_other x i with rfl | rfl
      · rw [hdoing] at hdoingX
        cases hdoingX
      · rw [Side.other_other] at hrunning
        exact absurd hdoingX (hrunning false)
  | pending x hdoingX hbound _ _ _ =>
      rcases Side.eq_or_eq_other x i with rfl | rfl
      · rw [hdoing] at hdoingX
        cases hdoingX
      · rwa [Side.other_other]
  | joined h => exact h i.other

/-- A call gives up although a packet waits for the other one. -/
theorem parted_of_last (h : Promising calls) {i : Side} (hdoing : (calls i).doing = .waiting)
    (hinbox : (calls i).inbox = 0) (hlast : punchRetries ≤ (calls i).sent)
    (hsentOther : 0 < (calls i.other).sent) (hrunning : (calls i.other).Running) :
    Parted (advance calls i) := by
  refine .gaveUp i.other ?_ ?_
  · rw [advance_other]
    exact (bound_of_waiting h hdoing hinbox hsentOther hrunning).hear
  · rw [Side.other_other, advance_self, CallView.own_of_timeout hdoing hinbox]
    exact if_neg (not_lt.mpr hlast)

theorem parted_of_not_together (h : Promising calls) {i : Side} (hparts : ¬ Together calls i) :
    Parted (advance calls i) := by
  rcases not_together hparts with ⟨-, hsent, hother, hwaiting⟩ |
    ⟨hdoing, hinbox, hlast, hother, hrunning⟩
  · exact parted_of_first h hsent hother hwaiting
  · exact parted_of_last h hdoing hinbox hlast hother hrunning

/-- Calls that can still agree do, once both have returned. -/
theorem agree_of_promising (h : Promising calls) {received : Side → Bool}
    (hreturned : ∀ i, (calls i).doing = .returned (received i)) : received .a = received .b := by
  cases h with
  | fresh h =>
      have hdoing := hreturned .a
      rw [h .a] at hdoing
      cases hdoing
  | started x _ _ _ hother =>
      have hdoing := hreturned x.other
      rw [hother] at hdoing
      cases hdoing
  | pending x hdoing _ _ _ _ =>
      rw [hreturned x] at hdoing
      cases hdoing
  | alone x hdoing _ hother _ _ =>
      have hx : received x = false := by
        rw [hreturned x] at hdoing
        exact Doing.returned.inj hdoing
      have hxOther : received x.other = false := by
        rw [hreturned x.other] at hother
        exact Bool.eq_false_iff.mpr fun htrue => hother (congrArg Doing.returned htrue)
      cases x with
      | a => exact hx.trans hxOther.symm
      | b => exact hxOther.trans hx.symm
  | joined h =>
      have hall : ∀ i, received i = true := by
        intro i
        rcases (h i).packet with hdoing | ⟨hrunning, -⟩
        · rw [hreturned i] at hdoing
          exact Doing.returned.inj hdoing
        · exact absurd (hreturned i) (hrunning (received i))
      exact (hall .a).trans (hall .b).symm

/-- Calls that have parted do not agree. -/
theorem differ_of_parted (h : Parted calls) {received : Side → Bool}
    (hreturned : ∀ i, (calls i).doing = .returned (received i)) : received .a ≠ received .b := by
  cases h with
  | deserted x _ _ hother _ => exact absurd (hreturned x.other) (hother (received x.other))
  | gaveUp x hbound hother =>
      have hxOther : received x.other = false := by
        rw [hreturned x.other] at hother
        exact Doing.returned.inj hother
      have hx : received x = true := by
        rcases hbound.packet with hdoing | ⟨hrunning, -⟩
        · rw [hreturned x] at hdoing
          exact Doing.returned.inj hdoing
        · exact absurd (hreturned x) (hrunning (received x))
      cases x with
      | a =>
          rw [hx, show received .b = false from hxOther]
          decide
      | b =>
          rw [hx, show received .a = false from hxOther]
          decide

end Machine

end ConnectAlso.Traversal
