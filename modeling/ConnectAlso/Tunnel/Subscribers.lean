import ConnectAlso.Tunnel.PathStatus

/-!
# Subscribers of the path status

A path together with the receivers that `status_rx` has handed out. A receiver reads the
value of the channel, `current_status` the field. The constructor drops the only receiver
there is, so whether the two agree depends on who listens when a probe succeeds.
-/

namespace ConnectAlso
open Misc

/-- A path and the receivers of its status that are alive. -/
structure Subscribed where
  path : PathManager
  receivers : List Nat
  issued : Nat

/-- What can happen: a probe, a subscription, and the end of a receiver. -/
inductive PathEvent where
  | tryDirect (call : ProbeCall)
  | statusRx
  | drop (receiver : Nat)

/-- The event is a probe that succeeds. -/
def PathEvent.Probes (aead : Aead) (peer : SocketAddr) : PathEvent → Prop
  | .tryDirect call => call.Succeeds aead peer
  | .statusRx => False
  | .drop _ => False

namespace Subscribed

/-- A new path, without receivers. -/
def start (relay : RelayClient) (directPeer : SocketAddr) : Subscribed where
  path := .new relay directPeer
  receivers := []
  issued := 0

/-- One event; a receiver is dropped once. -/
def step (aead : Aead) (subscribed : Subscribed) : PathEvent → Subscribed
  | .tryDirect call => { subscribed with path := subscribed.path.probeStep aead call }
  | .statusRx => {
      path := subscribed.path.statusRx
      receivers := subscribed.receivers ++ [subscribed.issued]
      issued := subscribed.issued + 1 }
  | .drop receiver =>
    if receiver ∈ subscribed.receivers then
      { subscribed with
        path := { subscribed.path with statusTx := subscribed.path.statusTx.dropReceiver }
        receivers := subscribed.receivers.erase receiver }
    else subscribed

/-- What a receiver reads: the value of the channel it belongs to. -/
def reads (subscribed : Subscribed) (_receiver : Nat) : PathStatus :=
  subscribed.path.statusTx.borrow

/-- Every receiver reads what `current_status` returns. -/
def Agree (subscribed : Subscribed) : Prop :=
  ∀ receiver ∈ subscribed.receivers, subscribed.reads receiver = subscribed.path.currentStatus

/-- The channel counts the receivers, and it holds an earlier status of the path. -/
structure Consistent (peer : SocketAddr) (subscribed : Subscribed) : Prop where
  count : subscribed.path.statusTx.receivers = subscribed.receivers.length
  peer : subscribed.path.directPeer = peer
  status : subscribed.path.status ≠ .probing
  value : subscribed.path.statusTx.borrow ≠ .probing
  stored : subscribed.path.statusTx.borrow = .direct → subscribed.path.status = .direct

variable {aead : Aead} {peer : SocketAddr} {subscribed : Subscribed} {event : PathEvent}

theorem consistent_start (relay : RelayClient) (directPeer : SocketAddr) :
    (start relay directPeer).Consistent directPeer where
  count := rfl
  peer := rfl
  status := PathStatus.noConfusion
  value := PathStatus.noConfusion
  stored := id

theorem Consistent.receivers_eq_zero_iff (h : subscribed.Consistent peer) :
    subscribed.path.statusTx.receivers = 0 ↔ subscribed.receivers = [] := by
  rw [h.count, List.length_eq_zero_iff]

theorem consistent_step (h : subscribed.Consistent peer) :
    (subscribed.step aead event).Consistent peer := by
  cases event with
  | tryDirect call =>
      obtain ⟨hstatus, hvalue⟩ := @PathManager.ne_probing_probeStep aead _ call h.status
        h.value
      refine ⟨?_, ?_, hstatus, hvalue, ?_⟩
      · exact (PathManager.receivers_probeStep _ _).trans h.count
      · exact (PathManager.directPeer_probeStep _ _).trans h.peer
      · intro hborrow
        refine (PathManager.status_probeStep _ _).mpr ?_
        rcases (PathManager.borrow_probeStep _ _).mp hborrow with hold | ⟨hsucceeds, -⟩
        · exact Or.inl (h.stored hold)
        · exact Or.inr hsucceeds
  | statusRx => exact ⟨by simp [step, PathManager.statusRx, Watch.subscribe, h.count], h.peer,
      h.status, h.value, h.stored⟩
  | drop receiver =>
      rw [step]
      split
      · rename_i hmem
        refine ⟨?_, h.peer, h.status, h.value, h.stored⟩
        rw [List.length_erase_of_mem hmem, ← h.count]
        rfl
      · exact h

/-- Only a successful probe changes the status. -/
theorem status_step (h : subscribed.Consistent peer) :
    (subscribed.step aead event).path.status = .direct ↔
      subscribed.path.status = .direct ∨ event.Probes aead peer := by
  cases event with
  | tryDirect call =>
      rw [← h.peer]
      exact PathManager.status_probeStep _ _
  | statusRx => exact (or_iff_left id).symm
  | drop receiver =>
      rw [step]
      split
      · exact (or_iff_left id).symm
      · exact (or_iff_left id).symm

/-- Only a successful probe that somebody listens to changes the value of the channel. -/
theorem borrow_step (h : subscribed.Consistent peer) :
    (subscribed.step aead event).path.statusTx.borrow = .direct ↔
      subscribed.path.statusTx.borrow = .direct ∨
        event.Probes aead peer ∧ subscribed.receivers ≠ [] := by
  cases event with
  | tryDirect call =>
      rw [← h.peer, ne_eq, ← h.receivers_eq_zero_iff]
      exact PathManager.borrow_probeStep _ _
  | statusRx => exact (or_iff_left fun hprobes => hprobes.1).symm
  | drop receiver =>
      rw [step]
      split
      · exact (or_iff_left fun hprobes => hprobes.1).symm
      · exact (or_iff_left fun hprobes => hprobes.1).symm

/-- The receivers agree with the path unless one of them reads an earlier status. -/
theorem Consistent.agree_iff (h : subscribed.Consistent peer) :
    subscribed.Agree ↔
      (subscribed.receivers ≠ [] → subscribed.path.status = .direct →
        subscribed.path.statusTx.borrow = .direct) := by
  constructor
  · intro hagree hreceivers hstatus
    obtain ⟨receiver, hreceiver⟩ := List.exists_mem_of_ne_nil _ hreceivers
    exact (hagree receiver hreceiver).trans hstatus
  · intro hdirect receiver hreceiver
    have hiff : subscribed.path.statusTx.borrow = .direct ↔ subscribed.path.status = .direct :=
      ⟨h.stored, hdirect (List.ne_nil_of_mem hreceiver)⟩
    have hstatus := h.status
    have hvalue := h.value
    rw [reads, PathManager.currentStatus]
    cases hborrow : subscribed.path.statusTx.borrow with
    | direct => exact (hiff.mp hborrow).symm
    | probing => exact absurd hborrow hvalue
    | relay =>
        cases hfield : subscribed.path.status with
        | direct => rw [hiff.mpr hfield] at hborrow; cases hborrow
        | probing => exact absurd hfield hstatus
        | relay => rfl

/-- A step out of a state in which the receivers agree breaks that only if it adds a
    receiver while the channel still holds an earlier status. -/
theorem agree_step_iff (h : subscribed.Consistent peer) (hagree : subscribed.Agree) :
    (subscribed.step aead event).Agree ↔
      (event = .statusRx → subscribed.path.status = .direct →
        subscribed.path.statusTx.borrow = .direct) := by
  rw [h.agree_iff] at hagree
  rw [(consistent_step h).agree_iff, status_step h, borrow_step h]
  cases event with
  | tryDirect call =>
      refine iff_of_true ?_ (fun hevent => (by cases hevent))
      intro hreceivers hdirect
      rcases hdirect with hstatus | hsucceeds
      · exact Or.inl (hagree hreceivers hstatus)
      · exact Or.inr ⟨hsucceeds, hreceivers⟩
  | statusRx => simp [step, PathEvent.Probes]
  | drop receiver =>
      refine iff_of_true ?_ (fun hevent => (by cases hevent))
      intro hreceivers hdirect
      refine Or.inl (hagree ?_ (hdirect.resolve_right id))
      rintro hnone
      simp [step, hnone] at hreceivers

/-! ## Runs -/

/-- At every subscription, if a probe has succeeded before, then one has succeeded while
    somebody held a receiver. -/
def SubscribedInTime (aead : Aead) (peer : SocketAddr) (first : Subscribed)
    (events : List PathEvent) : Prop :=
  ∀ past, past ++ [.statusRx] <+: events → (∃ event ∈ past, event.Probes aead peer) →
    ∃ before event, before ++ [event] <+: past ∧ event.Probes aead peer ∧
      (run (step aead) first before).receivers ≠ []

theorem status_run_iff (h : subscribed.Consistent peer) (events : List PathEvent) :
    (run (step aead) subscribed events).path.status = .direct ↔
      subscribed.path.status = .direct ∨ ∃ event ∈ events, event.Probes aead peer := by
  induction events generalizing subscribed with
  | nil => simp
  | cons event events ih =>
      rw [run_cons, ih (consistent_step h), status_step h, or_assoc, List.exists_mem_cons_iff]

theorem borrow_run_iff (h : subscribed.Consistent peer) (events : List PathEvent) :
    (run (step aead) subscribed events).path.statusTx.borrow = .direct ↔
      subscribed.path.statusTx.borrow = .direct ∨
        ∃ before event, before ++ [event] <+: events ∧ event.Probes aead peer ∧
          (run (step aead) subscribed before).receivers ≠ [] :=
  @run_iff_or_exists _ _ (step aead) (Consistent peer)
    (fun subscribed => subscribed.path.statusTx.borrow = .direct)
    (fun subscribed event => event.Probes aead peer ∧ subscribed.receivers ≠ [])
    (fun _ _ => consistent_step) (fun _ _ => borrow_step) subscribed h events

/-- The receivers agree with `current_status` throughout a run exactly when nobody
    subscribes after probes that succeeded with nobody listening. -/
theorem throughout_agree_iff (aead : Aead) (relay : RelayClient) (directPeer : SocketAddr)
    (events : List PathEvent) :
    Throughout (step aead) Agree (start relay directPeer) events ↔
      SubscribedInTime aead directPeer (start relay directPeer) events := by
  have hstart := consistent_start relay directPeer
  have hagree : (start relay directPeer).Agree := fun receiver hreceiver => by cases hreceiver
  rw [throughout_iff_eachStep (J := Consistent directPeer) (fun _ _ => consistent_step)
    (fun _ _ => agree_step_iff) hstart hagree]
  have hpast : ∀ past, ((run (step aead) (start relay directPeer) past).path.status = .direct →
        (run (step aead) (start relay directPeer) past).path.statusTx.borrow = .direct) ↔
      ((∃ event ∈ past, event.Probes aead directPeer) →
        ∃ before event, before ++ [event] <+: past ∧ event.Probes aead directPeer ∧
          (run (step aead) (start relay directPeer) before).receivers ≠ []) := by
    intro past
    rw [status_run_iff hstart, borrow_run_iff hstart]
    rw [or_iff_right (show (start relay directPeer).path.status ≠ .direct from
      PathStatus.noConfusion), or_iff_right (show (start relay directPeer).path.statusTx.borrow ≠
      .direct from PathStatus.noConfusion)]
  constructor
  · exact fun hsteps past hprefix => (hpast past).mp (hsteps past .statusRx hprefix rfl)
  · rintro hintime past event hprefix rfl
    exact (hpast past).mpr (hintime past hprefix)

/-- A probe succeeds before anybody listens. -/
def lateSubscriber : List PathEvent :=
  [.tryDirect ⟨Network.ideal, PathManager.freshTunnel⟩, .statusRx]

/-- The receiver reads `Relay` on a direct path. -/
theorem lateSubscriber_disagrees :
    ¬ Throughout (step chacha20Poly1305) Agree
      (start ⟨.localhost 40001, .localhost 33478, Uuid.nil, Uuid.nil⟩ (.localhost 40002))
      lateSubscriber := by
  intro h
  have hstart := consistent_start ⟨.localhost 40001, .localhost 33478, Uuid.nil, Uuid.nil⟩
    (.localhost 40002)
  have hread := h lateSubscriber (List.prefix_refl _) 0 List.mem_cons_self
  have hdirect := (@status_run_iff chacha20Poly1305 _ _ hstart lateSubscriber).mpr
    (Or.inr ⟨_, List.mem_cons_self, _, rfl, _, rfl⟩)
  rcases (borrow_step hstart).mp (hread.trans hdirect) with hstored | ⟨-, hreceivers⟩
  · cases hstored
  · exact hreceivers rfl

end Subscribed

end ConnectAlso
