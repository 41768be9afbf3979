import ConnectAlso.Tunnel.Path

/-!
# The status of a path

`PathManager::try_direct` probes the direct path and is the only function that changes the
status. The status is kept twice: in a field, which the daemon reads, and in a watch
channel for subscribers. A failed probe leaves both as they are, and a successful one
reaches the channel only while somebody holds a receiver.
-/

namespace ConnectAlso
open Misc

/-- `MAX_RETRY_MS`. -/
def maxRetryMs : UInt64 := 30000

/-- `BACKOFF_MULTIPLIER`. -/
def backoffMultiplier : UInt64 := 2

namespace Watch

variable {α : Type}

/-- `Sender::send`: without a receiver the value comes back and is not stored. -/
def send (watch : Watch α) (value : α) : Except α Unit × Watch α :=
  if watch.receivers = 0 then (.error value, watch) else (.ok (), { watch with value })

/-- `Sender::subscribe`: a receiver more. -/
def subscribe (watch : Watch α) : Watch α := { watch with receivers := watch.receivers + 1 }

/-- `Receiver::borrow`, by any receiver of the channel. -/
def borrow (watch : Watch α) : α := watch.value

@[simp] theorem receivers_send (watch : Watch α) (value : α) :
    (watch.send value).2.receivers = watch.receivers := by
  unfold send
  split
  · rfl
  · rfl

theorem borrow_send (watch : Watch α) (value : α) :
    (watch.send value).2.borrow = if watch.receivers = 0 then watch.borrow else value := by
  unfold send
  split
  · rfl
  · rfl

end Watch

namespace PathManager

/-- `b"PROBE"`. -/
def probe : List UInt8 := [0x50, 0x52, 0x4F, 0x42, 0x45]

/-- `PathManager::try_direct`: the call's effect and the path it leaves. An `Err` of the
    channel is ignored. -/
def tryDirect (aead : Aead) (net : Network) (path : PathManager) (directTunnel : Tunnel) :
    Effect TunnelError Unit × PathManager :=
  let effect := (directTunnel.sendTo aead net probe path.directPeer).1
  match effect.outcome with
  | .ok _ =>
    (⟨effect.sent, .ok ()⟩,
      { path with
        status := .direct
        backoffMs := initialRetryMs
        statusTx := (path.statusTx.send .direct).2 })
  | .error fault =>
    (⟨effect.sent, .error fault⟩,
      { path with backoffMs := min (path.backoffMs * backoffMultiplier) maxRetryMs })

/-- `PathManager::status_rx`; the receiver it returns is one of the channel's. -/
def statusRx (path : PathManager) : PathManager := { path with statusTx := path.statusTx.subscribe }

/-- The check with which `attempt_p2p_for_all` skips a peer. -/
def skipped (path : PathManager) : Bool := path.currentStatus = .direct

end PathManager

/-! ## Probes -/

/-- A call of `try_direct`: the tunnel it is given and what the network answers. -/
structure ProbeCall where
  net : Network
  tunnel : Tunnel

/-- The probe is encrypted, and the network takes it. -/
def ProbeCall.Succeeds (aead : Aead) (peer : SocketAddr) (call : ProbeCall) : Prop :=
  ∃ packet, (call.tunnel.txCipher.encrypt aead PathManager.probe).1 = .ok packet ∧
    ∃ n, call.net { src := call.tunnel.socket, dst := peer, payload := packet } = .ok n

namespace PathManager

variable {aead : Aead} {path : PathManager} {call : ProbeCall}

theorem sendTo_probe_eq_ok_iff (peer : SocketAddr) :
    (∃ n, (call.tunnel.sendTo aead call.net probe peer).1.outcome = .ok n) ↔
      call.Succeeds aead peer := by
  simp only [Tunnel.sendTo, ProbeCall.Succeeds, Effect.bind_eq_ok_iff, Effect.ofExcept_eq_ok_iff,
    Effect.mapErr_eq_ok_iff, Effect.sendTo_eq_ok_iff]
  cases (call.tunnel.txCipher.encrypt aead probe).1 with
  | error e => simp [Except.mapError]
  | ok packet => simp [Except.mapError]

/-- What a call does to the path. -/
theorem tryDirect_cases (aead : Aead) (path : PathManager) (call : ProbeCall) :
    (call.Succeeds aead path.directPeer ∧
      (path.tryDirect aead call.net call.tunnel).1.outcome = .ok () ∧
      (path.tryDirect aead call.net call.tunnel).2 =
        { path with
          status := .direct
          backoffMs := initialRetryMs
          statusTx := (path.statusTx.send .direct).2 }) ∨
    (¬ call.Succeeds aead path.directPeer ∧
      (∃ fault, (path.tryDirect aead call.net call.tunnel).1.outcome = .error fault) ∧
      (path.tryDirect aead call.net call.tunnel).2 =
        { path with backoffMs := min (path.backoffMs * backoffMultiplier) maxRetryMs }) := by
  rw [← sendTo_probe_eq_ok_iff]
  unfold tryDirect
  dsimp only
  cases (call.tunnel.sendTo aead call.net probe path.directPeer).1.outcome with
  | ok n => exact Or.inl ⟨⟨n, rfl⟩, rfl, rfl⟩
  | error fault => exact Or.inr ⟨fun h => (by cases h.choose_spec), ⟨fault, rfl⟩, rfl⟩

/-- The path after a call. -/
def probeStep (aead : Aead) (path : PathManager) (call : ProbeCall) : PathManager :=
  (path.tryDirect aead call.net call.tunnel).2

@[simp] theorem directPeer_probeStep (path : PathManager) (call : ProbeCall) :
    (path.probeStep aead call).directPeer = path.directPeer := by
  obtain ⟨-, -, hpath⟩ | ⟨-, -, hpath⟩ := tryDirect_cases aead path call
  · rw [probeStep, hpath]
  · rw [probeStep, hpath]

@[simp] theorem receivers_probeStep (path : PathManager) (call : ProbeCall) :
    (path.probeStep aead call).statusTx.receivers = path.statusTx.receivers := by
  obtain ⟨-, -, hpath⟩ | ⟨-, -, hpath⟩ := tryDirect_cases aead path call
  · rw [probeStep, hpath]
    exact Watch.receivers_send _ _
  · rw [probeStep, hpath]

/-- The status becomes `Direct` with a successful probe and stays so. -/
theorem status_probeStep (path : PathManager) (call : ProbeCall) :
    (path.probeStep aead call).status = .direct ↔
      path.status = .direct ∨ call.Succeeds aead path.directPeer := by
  obtain ⟨hsucceeds, -, hpath⟩ | ⟨hfails, -, hpath⟩ := tryDirect_cases aead path call
  · rw [probeStep, hpath]
    exact ⟨fun _ => Or.inr hsucceeds, fun _ => rfl⟩
  · rw [probeStep, hpath]
    exact ⟨Or.inl, fun h => h.resolve_right hfails⟩

/-- The channel stores a successful probe only for those who listen. -/
theorem borrow_probeStep (path : PathManager) (call : ProbeCall) :
    (path.probeStep aead call).statusTx.borrow = .direct ↔
      path.statusTx.borrow = .direct ∨
        call.Succeeds aead path.directPeer ∧ path.statusTx.receivers ≠ 0 := by
  obtain ⟨hsucceeds, -, hpath⟩ | ⟨hfails, -, hpath⟩ := tryDirect_cases aead path call
  · rw [probeStep, hpath]
    dsimp only
    rw [Watch.borrow_send]
    by_cases hnone : path.statusTx.receivers = 0
    · simp [hnone]
    · simp [hnone, hsucceeds]
  · rw [probeStep, hpath]
    exact ⟨Or.inl, fun h => h.resolve_right fun hdirect => hfails hdirect.1⟩

/-- No probe leaves the path in `Probing`. -/
theorem ne_probing_probeStep {path : PathManager} (call : ProbeCall)
    (hstatus : path.status ≠ .probing) (hvalue : path.statusTx.borrow ≠ .probing) :
    (path.probeStep aead call).status ≠ .probing ∧
      (path.probeStep aead call).statusTx.borrow ≠ .probing := by
  obtain ⟨-, -, hpath⟩ | ⟨-, -, hpath⟩ := tryDirect_cases aead path call
  · rw [probeStep, hpath]
    refine ⟨PathStatus.noConfusion, ?_⟩
    rw [Watch.borrow_send]
    split
    · exact hvalue
    · exact PathStatus.noConfusion
  · rw [probeStep, hpath]
    exact ⟨hstatus, hvalue⟩

/-! ## The status follows the probes -/

/-- The last of the calls succeeds. -/
def LastSucceeds (aead : Aead) (peer : SocketAddr) (calls : List ProbeCall) : Prop :=
  ∃ call, calls.getLast? = some call ∧ call.Succeeds aead peer

/-- After the calls the path is direct, and the daemon skips the peer, exactly when the
    last of them succeeded. -/
def FollowsLastProbe (aead : Aead) (path : PathManager) (calls : List ProbeCall) : Prop :=
  ((run (probeStep aead) path calls).currentStatus = .direct ↔
    LastSucceeds aead path.directPeer calls) ∧
  ((run (probeStep aead) path calls).skipped = true ↔ LastSucceeds aead path.directPeer calls)

/-- After the calls the path is direct if it was before or one of them succeeded. -/
theorem status_run (path : PathManager) (calls : List ProbeCall) :
    (run (probeStep aead) path calls).status = .direct ↔
      path.status = .direct ∨ ∃ call ∈ calls, call.Succeeds aead path.directPeer := by
  induction calls generalizing path with
  | nil => simp
  | cons call calls ih =>
      rw [run_cons, ih, status_probeStep, directPeer_probeStep, or_assoc]
      simp only [List.exists_mem_cons_iff]

/-- The status follows the last probe exactly unless that one failed after another one had
    succeeded. -/
theorem followsLastProbe_iff (aead : Aead) (relay : RelayClient) (directPeer : SocketAddr)
    (calls : List ProbeCall) :
    FollowsLastProbe aead (new relay directPeer) calls ↔
      ((∃ call ∈ calls, call.Succeeds aead directPeer) → LastSucceeds aead directPeer calls) := by
  have hstatus : (run (probeStep aead) (new relay directPeer) calls).status = .direct ↔
      ∃ call ∈ calls, call.Succeeds aead directPeer := by
    rw [status_run]
    exact or_iff_right (show PathStatus.relay ≠ .direct by decide)
  have hlast : LastSucceeds aead directPeer calls →
      ∃ call ∈ calls, call.Succeeds aead directPeer := by
    rintro ⟨call, hcall, hsucceeds⟩
    exact ⟨call, List.mem_of_getLast? hcall, hsucceeds⟩
  have hskipped : (run (probeStep aead) (new relay directPeer) calls).skipped = true ↔
      (run (probeStep aead) (new relay directPeer) calls).status = .direct := decide_eq_true_iff
  rw [FollowsLastProbe, hskipped, currentStatus, hstatus, and_self]
  exact ⟨fun h => h.mp, fun h => ⟨h, hlast⟩⟩

/-- A tunnel that has not sent anything yet. -/
def freshTunnel : Tunnel :=
  { socket := .localhost 40000
    txCipher := .new (Octets.replicate 32 0) 0
    rxCipher := .new (Octets.replicate 32 0) 0 }

/-- A probe that the network takes, and one that finds no route. -/
def takenThenRefused : List ProbeCall :=
  [⟨Network.ideal, freshTunnel⟩, ⟨fun _ => .error (.other 101), freshTunnel⟩]

/-- After the second one the path is still direct. -/
theorem takenThenRefused_stays_direct :
    ¬ FollowsLastProbe chacha20Poly1305
      (new ⟨.localhost 40001, .localhost 33478, Uuid.nil, Uuid.nil⟩ (.localhost 40002))
      takenThenRefused := by
  intro h
  have htaken : ProbeCall.Succeeds chacha20Poly1305 (.localhost 40002)
      ⟨Network.ideal, freshTunnel⟩ := ⟨_, rfl, _, rfl⟩
  obtain ⟨call, hcall, packet, -, n, hnet⟩ := h.1.mp ((status_run _ _).mpr
    (Or.inr ⟨_, List.mem_cons_self, htaken⟩))
  obtain rfl := Option.some.inj hcall
  cases hnet

end PathManager

end ConnectAlso
