import Mathlib.Algebra.BigOperators.Group.List.Basic
import Mathlib.Algebra.Order.Ring.Nat
import Mathlib.Data.List.Perm.Basic
import ConnectAlso.Misc.Runs

/-!
# Nodes on a datagram network

A network that promises nothing: a packet in flight can arrive or be dropped or be
duplicated at any time, so packets are lost, doubled and reordered in every way. The nodes
act on their own and answer to arrivals, and in both cases change their state and send.

Two rules for runs. What every action and every arrival keeps (`Preserves`) holds of the
nodes and of everything in flight in every run. And where a packet has a weight, and
delivering or passing on a packet never counts for more than the packet weighed
(`Conserves`), no run without duplication delivers more than was sent.
-/

namespace ConnectAlso.Misc

/-- The nodes: what an action and what an arriving packet do, and the packets they send. -/
structure Nodes (σ α π : Type) where
  act : σ → α → σ × List π
  arrive : σ → π → σ × List π

/-- The state of the nodes and the packets in flight. -/
structure InFlight (σ π : Type) where
  nodes : σ
  packets : List π

/-- An action of the nodes, or what happens to the `k`-th packet in flight. -/
inductive NetEvent (α : Type) where
  | act (a : α)
  | arrive (k : Nat)
  | drop (k : Nat)
  | duplicate (k : Nat)

namespace Nodes
variable {σ α π : Type}

/-- One event. A number that no packet has is ignored. -/
def step (nodes : Nodes σ α π) (net : InFlight σ π) : NetEvent α → InFlight σ π
  | .act a => ⟨(nodes.act net.nodes a).1, net.packets ++ (nodes.act net.nodes a).2⟩
  | .arrive k =>
    match net.packets[k]? with
    | none => net
    | some p => ⟨(nodes.arrive net.nodes p).1,
        net.packets.eraseIdx k ++ (nodes.arrive net.nodes p).2⟩
  | .drop k => { net with packets := net.packets.eraseIdx k }
  | .duplicate k => { net with packets := net.packets ++ net.packets[k]?.toList }

theorem step_arrive_none (nodes : Nodes σ α π) {net : InFlight σ π} {k : Nat}
    (h : net.packets[k]? = none) : nodes.step net (.arrive k) = net := by
  simp [step, h]

theorem step_arrive_some (nodes : Nodes σ α π) {net : InFlight σ π} {k : Nat} {p : π}
    (h : net.packets[k]? = some p) :
    nodes.step net (.arrive k) = ⟨(nodes.arrive net.nodes p).1,
      net.packets.eraseIdx k ++ (nodes.arrive net.nodes p).2⟩ := by
  simp [step, h]

/-- The nodes keep `J`, send only packets with `Q`, and do not take `Q` from a packet. -/
structure Preserves (nodes : Nodes σ α π) (J : σ → Prop) (Q : σ → π → Prop) : Prop where
  act : ∀ s a, J s → J (nodes.act s a).1 ∧ ∀ p ∈ (nodes.act s a).2, Q (nodes.act s a).1 p
  arrive : ∀ s p, J s → Q s p →
    J (nodes.arrive s p).1 ∧ ∀ p' ∈ (nodes.arrive s p).2, Q (nodes.arrive s p).1 p'
  stays_act : ∀ s a p, Q s p → Q (nodes.act s a).1 p
  stays_arrive : ∀ s p p', Q s p' → Q (nodes.arrive s p).1 p'

/-- `J` holds of the nodes and `Q` of all packets in flight. -/
def Holds (J : σ → Prop) (Q : σ → π → Prop) (net : InFlight σ π) : Prop :=
  J net.nodes ∧ ∀ p ∈ net.packets, Q net.nodes p

variable {nodes : Nodes σ α π} {J : σ → Prop} {Q : σ → π → Prop}

theorem Preserves.step (h : nodes.Preserves J Q) (net : InFlight σ π) (event : NetEvent α)
    (hnet : Holds J Q net) : Holds J Q (nodes.step net event) := by
  obtain ⟨hnodes, hpackets⟩ := hnet
  cases event with
  | act a =>
      obtain ⟨hact, hnew⟩ := h.act net.nodes a hnodes
      refine ⟨hact, ?_⟩
      intro p hp
      rcases List.mem_append.mp hp with hold | hnewp
      · exact h.stays_act _ _ _ (hpackets p hold)
      · exact hnew p hnewp
  | arrive k =>
      cases hk : net.packets[k]? with
      | none =>
          rw [step_arrive_none nodes hk]
          exact ⟨hnodes, hpackets⟩
      | some p =>
          rw [step_arrive_some nodes hk]
          have hp := hpackets p (List.mem_of_getElem? hk)
          obtain ⟨harrive, hnew⟩ := h.arrive net.nodes p hnodes hp
          refine ⟨harrive, ?_⟩
          intro p' hp'
          rcases List.mem_append.mp hp' with hold | hnewp
          · exact h.stays_arrive _ _ _ (hpackets p' (List.mem_of_mem_eraseIdx hold))
          · exact hnew p' hnewp
  | drop k => exact ⟨hnodes, fun p hp => hpackets p (List.mem_of_mem_eraseIdx hp)⟩
  | duplicate k =>
      refine ⟨hnodes, ?_⟩
      intro p hp
      rcases List.mem_append.mp hp with hold | hcopy
      · exact hpackets p hold
      · exact hpackets p (List.mem_of_getElem? (Option.mem_toList.mp hcopy))

/-- What the nodes preserve holds in every run. -/
theorem Preserves.run (h : nodes.Preserves J Q) {start : InFlight σ π} (hstart : Holds J Q start)
    (events : List (NetEvent α)) : Holds J Q (run nodes.step start events) :=
  run_invariant h.step hstart events

/-! ## Counting -/

/-- The weight of packets. -/
def total (weight : π → Nat) (packets : List π) : Nat := (packets.map weight).sum

@[simp] theorem total_nil (weight : π → Nat) : total weight [] = 0 := rfl

@[simp] theorem total_append (weight : π → Nat) (ps qs : List π) :
    total weight (ps ++ qs) = total weight ps + total weight qs := by
  simp [total]

@[simp] theorem total_singleton (weight : π → Nat) (p : π) : total weight [p] = weight p := by
  simp [total]

theorem total_eraseIdx (weight : π → Nat) {packets : List π} {k : Nat} {p : π}
    (h : packets[k]? = some p) :
    total weight packets = weight p + total weight (packets.eraseIdx k) := by
  obtain ⟨hk, rfl⟩ := List.getElem?_eq_some_iff.mp h
  have hperm := List.getElem_cons_eraseIdx_perm hk
  have hsum := (hperm.map weight).sum_eq
  simpa [total] using hsum.symm

/-- The nodes deliver and pass on no more than what arrives, and account for the rest as
    sent. -/
structure Conserves (nodes : Nodes σ α π) (J : σ → Prop) (Q : σ → π → Prop) (weight : π → Nat)
    (sent delivered : σ → Nat) : Prop where
  act : ∀ s a, J s →
    delivered (nodes.act s a).1 + total weight (nodes.act s a).2 + sent s ≤
      delivered s + sent (nodes.act s a).1
  arrive : ∀ s p, J s → Q s p →
    delivered (nodes.arrive s p).1 + total weight (nodes.arrive s p).2 + sent s ≤
      delivered s + weight p + sent (nodes.arrive s p).1

/-- Deliveries and packets in flight are covered by what was sent. -/
def Covered (weight : π → Nat) (sent delivered : σ → Nat) (net : InFlight σ π) : Prop :=
  delivered net.nodes + total weight net.packets ≤ sent net.nodes

variable {weight : π → Nat} {sent delivered : σ → Nat}

theorem Conserves.step (h : nodes.Conserves J Q weight sent delivered) {net : InFlight σ π}
    {event : NetEvent α} (hevent : ∀ k, event ≠ .duplicate k) (hnet : Holds J Q net)
    (hcovered : Covered weight sent delivered net) :
    Covered weight sent delivered (nodes.step net event) := by
  unfold Covered at hcovered ⊢
  cases event with
  | act a =>
      have hact := h.act net.nodes a hnet.1
      simp only [Nodes.step, total_append]
      omega
  | arrive k =>
      cases hk : net.packets[k]? with
      | none =>
          rw [step_arrive_none nodes hk]
          exact hcovered
      | some p =>
          rw [step_arrive_some nodes hk]
          have harrive := h.arrive net.nodes p hnet.1 (hnet.2 p (List.mem_of_getElem? hk))
          have htotal := total_eraseIdx weight hk
          simp only [total_append]
          omega
  | drop k =>
      simp only [Nodes.step]
      cases hk : net.packets[k]? with
      | none => rwa [List.eraseIdx_of_length_le (List.getElem?_eq_none_iff.mp hk)]
      | some p =>
          have htotal := total_eraseIdx weight hk
          omega
  | duplicate k => exact absurd rfl (hevent k)

/-- Without duplication no run delivers more than was sent. -/
theorem Conserves.run (h : nodes.Conserves J Q weight sent delivered)
    (hpreserves : nodes.Preserves J Q) {start : InFlight σ π} (hstart : Holds J Q start)
    (hcovered : Covered weight sent delivered start) {events : List (NetEvent α)}
    (hevents : ∀ event ∈ events, ∀ k, event ≠ .duplicate k) :
    Covered weight sent delivered (run nodes.step start events) := by
  induction events generalizing start with
  | nil => exact hcovered
  | cons event events ih =>
      rw [run_cons]
      exact ih (hpreserves.step start event hstart)
        (h.step (hevents event List.mem_cons_self) hstart hcovered) fun later hlater =>
          hevents later (List.mem_cons_of_mem _ hlater)

end Nodes

end ConnectAlso.Misc
