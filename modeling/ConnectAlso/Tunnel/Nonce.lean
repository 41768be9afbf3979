import ConnectAlso.Misc.Counter
import ConnectAlso.Tunnel.Tunnel

/-!
# Nonces of a tunnel

Which nonces two tunnels with one secret use. The nonces of a run are those of two
wrapping 64-bit counters, one for each endpoint (`run_counted`), so they repeat
exactly when one of the counters has come round or has reached the start of the
other (`used_nodup_iff`).
-/

namespace ConnectAlso.Tunnel
open Misc Crypto

/-- How often an endpoint calls `send_to` in a run. -/
def sendCount (side : Side) (events : List Event) : Nat :=
  events.countP fun
    | .send sender _ _ => sender = side
    | .deliver _ _ => false

theorem sendCount_cons (side : Side) (event : Event) (events : List Event) :
    sendCount side (event :: events) = sendCount side [event] + sendCount side events :=
  @List.countP_append _ _ [event] events

/-- The keys and nonces of the encryptions made so far, in order. -/
def Pair.used (pair : Pair) : List (Octets 32 × Octets 12) :=
  pair.encryptions.map fun encryption => (encryption.key, encryption.nonce)

/-- The counter value at which an endpoint starts. -/
def nonceStart : Side → UInt64
  | .initiator => 0
  | .responder => responderTxOffset

/-- The keys and nonces that `m` sends of the initiator and `n` of the responder
    take from the two counters. -/
def counted (secret : Octets 32) (m n : Nat) : List (Octets 32 × Octets 12) :=
  (drawn (2 ^ 64) 0 m ++ drawn (2 ^ 64) (2 ^ 32) n).map fun value =>
    (secret, nonceOf (UInt64.ofNat value))

/-- A pair in which each endpoint has sent as often as `counts` says. -/
structure Counted (secret : Octets 32) (counts : Side → Nat) (pair : Pair) : Prop where
  cipher : ∀ side, (pair.tunnels side).txCipher =
    ⟨secret, nonceStart side + UInt64.ofNat (counts side)⟩
  used : pair.used.Perm (counted secret (counts .initiator) (counts .responder))

/-- One more send of an endpoint adds the value its counter has reached. -/
theorem counted_send (secret : Octets 32) (counts : Side → Nat) (side : Side) :
    (counted secret (counts .initiator) (counts .responder) ++
      [(secret, nonceOf (nonceStart side + UInt64.ofNat (counts side)))]).Perm
    (counted secret (Function.update counts side (counts side + 1) .initiator)
      (Function.update counts side (counts side + 1) .responder)) := by
  have hvalue : ∀ start n : Nat,
      UInt64.ofNat ((start + n) % 2 ^ 64) = UInt64.ofNat start + UInt64.ofNat n := by
    intro start n
    rw [← UInt64.ofNat_add]
    exact UInt64.ofNat_mod_size
  cases side with
  | initiator =>
      have hother : Function.update counts .initiator (counts .initiator + 1) .responder =
          counts .responder := Function.update_of_ne (by simp) _ _
      rw [Function.update_self, hother]
      simp only [counted, drawn_succ, List.map_append, List.map_cons, List.map_nil, hvalue,
        nonceStart, List.append_assoc]
      exact List.Perm.append_left _ List.perm_append_comm
  | responder =>
      have hother : Function.update counts .responder (counts .responder + 1) .initiator =
          counts .initiator := Function.update_of_ne (by simp) _ _
      rw [Function.update_self, hother]
      simp only [counted, drawn_succ, List.map_append, List.map_cons, List.map_nil, hvalue,
        nonceStart, List.append_assoc]
      exact List.Perm.refl _

/-- One event keeps the count. -/
theorem step_counted {secret : Octets 32} {counts : Side → Nat} {pair : Pair} (aead : Aead)
    (net : Network) (h : Counted secret counts pair) (event : Event) :
    Counted secret (fun side => counts side + sendCount side [event])
      (pair.step aead net event) := by
  cases event with
  | send side plaintext peer =>
      have hcounts : (fun s => counts s + sendCount s [.send side plaintext peer]) =
          Function.update counts side (counts side + 1) := by
        funext s
        by_cases hs : s = side
        · subst hs
          simp [sendCount]
        · simp [sendCount, Function.update_of_ne hs, Ne.symm hs]
      rw [hcounts]
      refine ⟨?_, ?_⟩
      · intro s
        by_cases hs : s = side
        · subst hs
          simp only [Pair.step, Function.update_self, sendTo_snd, SessionCipher.encrypt_snd,
            h.cipher s, SessionCipher.mk.injEq, true_and]
          rw [UInt64.ofNat_add, ← UInt64.add_assoc]
          rfl
        · simp only [Pair.step, Function.update_of_ne hs]
          exact h.cipher s
      · refine List.Perm.trans ?_ (counted_send secret counts side)
        simp only [Pair.used, Pair.step, List.map_append, List.map_cons, List.map_nil,
          encryptionOf, SessionCipher.nextNonce, h.cipher side]
        exact h.used.append_right _
  | deliver side datagram => exact h

/-- A run keeps the count. -/
theorem run_counted {secret : Octets 32} {counts : Side → Nat} {pair : Pair} (aead : Aead)
    (net : Network) (h : Counted secret counts pair) (events : List Event) :
    Counted secret (fun side => counts side + sendCount side events)
      (run (Pair.step aead net) pair events) := by
  induction events generalizing counts pair with
  | nil => simpa [sendCount] using h
  | cons event events ih =>
      have hcounts : (fun side => counts side + sendCount side (event :: events)) =
          fun side => counts side + sendCount side [event] + sendCount side events := by
        funext side
        rw [sendCount_cons, Nat.add_assoc]
      rw [hcounts, run_cons]
      exact ih (step_counted aead net h event)

/-- The counters' nonces are as distinct as their values. -/
theorem counted_nodup_iff (secret : Octets 32) (m n : Nat) :
    (counted secret m n).Nodup ↔
      (m = 0 ∧ n ≤ 2 ^ 64) ∨ (n = 0 ∧ m ≤ 2 ^ 64) ∨ (m ≤ 2 ^ 32 ∧ n ≤ 2 ^ 64 - 2 ^ 32) := by
  rw [← nodup_drawn_append_iff (by decide)]
  constructor
  · exact List.Nodup.of_map _
  · intro hnodup
    apply hnodup.map_on
    have hlt : ∀ value ∈ drawn (2 ^ 64) 0 m ++ drawn (2 ^ 64) (2 ^ 32) n, value < 2 ^ 64 := by
      intro value hvalue
      rcases List.mem_append.mp hvalue with hfirst | hsecond
      · obtain ⟨i, -, rfl⟩ := mem_drawn.mp hfirst
        exact Nat.mod_lt _ (by decide)
      · obtain ⟨i, -, rfl⟩ := mem_drawn.mp hsecond
        exact Nat.mod_lt _ (by decide)
    intro x hx y hy heq
    have hcounter : UInt64.ofNat x = UInt64.ofNat y := nonceOf_inj.mp (Prod.mk.inj heq).2
    have hnat := congrArg UInt64.toNat hcounter
    rwa [UInt64.toNat_ofNat', UInt64.toNat_ofNat', Nat.mod_eq_of_lt (hlt x hx),
      Nat.mod_eq_of_lt (hlt y hy)] at hnat

/-- Tunnels that have just been bound have sent nothing. -/
private theorem counted_start {secret : Octets 32}
    {boundInitiator boundResponder : Except IoError SocketAddr} {initiator responder : Tunnel}
    (hinitiator : bindInitiator boundInitiator secret = .ok initiator)
    (hresponder : bindResponder boundResponder secret = .ok responder) :
    Counted secret (fun _ => 0) (Pair.start initiator responder) := by
  refine ⟨?_, List.Perm.refl _⟩
  intro side
  cases side with
  | initiator => exact (bindWithNonce_eq_ok hinitiator).1
  | responder => exact (bindWithNonce_eq_ok hresponder).1

/-- The keys and nonces of a run are those of the two counters. -/
theorem used_perm {secret : Octets 32} {boundInitiator boundResponder : Except IoError SocketAddr}
    {initiator responder : Tunnel} (aead : Aead) (net : Network)
    (hinitiator : bindInitiator boundInitiator secret = .ok initiator)
    (hresponder : bindResponder boundResponder secret = .ok responder) (events : List Event) :
    (run (Pair.step aead net) (Pair.start initiator responder) events).used.Perm
      (counted secret (sendCount .initiator events) (sendCount .responder events)) := by
  have hrun := run_counted aead net (counted_start hinitiator hresponder) events
  simpa using hrun.used

/-- No key and nonce are used for two encryptions exactly when only one endpoint
    sends, at most `2 ^ 64` times, or neither endpoint has reached the other's
    start: the initiator with `2 ^ 32` sends, the responder with `2 ^ 64 - 2 ^ 32`. -/
theorem nonce_unique_iff {secret : Octets 32}
    {boundInitiator boundResponder : Except IoError SocketAddr} {initiator responder : Tunnel}
    (aead : Aead) (net : Network)
    (hinitiator : bindInitiator boundInitiator secret = .ok initiator)
    (hresponder : bindResponder boundResponder secret = .ok responder) (events : List Event) :
    (run (Pair.step aead net) (Pair.start initiator responder) events).used.Nodup ↔
      (sendCount .initiator events = 0 ∧ sendCount .responder events ≤ 2 ^ 64) ∨
      (sendCount .responder events = 0 ∧ sendCount .initiator events ≤ 2 ^ 64) ∨
      (sendCount .initiator events ≤ 2 ^ 32 ∧
        sendCount .responder events ≤ 2 ^ 64 - 2 ^ 32) := by
  rw [(used_perm aead net hinitiator hresponder events).nodup_iff, counted_nodup_iff]

theorem nonce_unique_three_sends :
    (run (Pair.step chacha20Poly1305 Network.ideal) Pair.fresh
      [.send .initiator [1] (.localhost 40002), .send .responder [2] (.localhost 40001),
        .send .initiator [3] (.localhost 40002)]).used.Nodup :=
  (@nonce_unique_iff zeroSecret (.ok (.localhost 40001)) (.ok (.localhost 40002)) _ _
    chacha20Poly1305 Network.ideal rfl rfl _).mpr (by decide)

/-- `count` packets of the initiator, then one of the responder. -/
def longRun (count : Nat) : List Event :=
  List.replicate count (.send .initiator [] (.localhost 40002)) ++
    [.send .responder [] (.localhost 40001)]

private theorem sendCount_longRun (count : Nat) :
    sendCount .initiator (longRun count) = count ∧ sendCount .responder (longRun count) = 1 := by
  simp [sendCount, longRun, List.countP_append, List.countP_replicate]

/-- The `2 ^ 32 + 1`-st packet of the initiator has the nonce of the responder's
    first. -/
theorem longRun_repeats_nonce :
    ¬ (run (Pair.step chacha20Poly1305 Network.ideal) Pair.fresh
      (longRun (2 ^ 32 + 1))).used.Nodup := by
  have hperm := @used_perm zeroSecret (.ok (.localhost 40001)) (.ok (.localhost 40002)) _ _
    chacha20Poly1305 Network.ideal rfl rfl (longRun (2 ^ 32 + 1))
  obtain ⟨hinitiator, hresponder⟩ := sendCount_longRun (2 ^ 32 + 1)
  rw [Pair.fresh, hperm.nodup_iff, counted_nodup_iff, hinitiator, hresponder]
  omega

end ConnectAlso.Tunnel
