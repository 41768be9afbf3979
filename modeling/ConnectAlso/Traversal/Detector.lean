import ConnectAlso.Stun.Client

/-!
# The detector

`NatDetector::detect` of `crates/nat/src/detector.rs` compares the local address of its
socket with the address that a STUN server sees. `StunClient::bind` asks for `0.0.0.0`, so
the local address is unspecified, and what `detect` compares in its place is the loopback
address: a host that is reached under an address of its own is recognised only if that is
the loopback one.
-/

namespace ConnectAlso.Traversal
open Misc Stun.Client

/-- `NatType`. -/
inductive NatType where
  | fullCone
  | restrictedCone
  | portRestrictedCone
  | symmetric
  | unknown
  | open'
  deriving DecidableEq, Repr

/-- `IpAddr::is_unspecified`. -/
def isUnspecified : IpAddr → Bool
  | .v4 addr => addr = .unspecified
  | .v6 addr => addr.octets = Vector.replicate 16 0

/-- `IpAddr::V4(Ipv4Addr::new(127, 0, 0, 1))`. -/
def loopback : IpAddr := .v4 ⟨127, 0, 0, 1⟩

/-- The address that `detect` compares in place of another one. -/
def normalize (ip : IpAddr) : IpAddr := if isUnspecified ip then loopback else ip

/-- How `detect` compares the local address with the reported one. -/
def classify (localAddr publicAddr : SocketAddr) : NatType :=
  if normalize localAddr.ip = normalize publicAddr.ip ∧ localAddr.port = publicAddr.port then
    .open'
  else .unknown

/-- What a call of `detect` meets: the answers to `UdpSocket::bind`, `local_addr`, `send_to`
    and `recv_from`, and the transaction id that it draws. -/
structure Detection where
  bound : Except IoError Unit
  localAddr : Except IoError SocketAddr
  txId : Octets 12
  requestSent : Except IoError Nat
  response : Except IoError (List UInt8)

namespace Detection

/-- `StunClient::discover`. -/
def discover (call : Detection) : Except StunError SocketAddr := do
  let _ ← call.requestSent.mapError .io
  let datagram ← call.response.mapError .io
  discovered call.txId datagram

/-- `NatDetector::detect`. -/
def detect (call : Detection) : Except StunError NatType := do
  let () ← call.bound.mapError .io
  let localAddr ← call.localAddr.mapError .io
  let publicAddr ← call.discover
  return classify localAddr publicAddr

/-- The socket is bound to a port, and its local address is the one that was asked for. -/
structure Wildcard (call : Detection) (port : UInt16) : Prop where
  bound : call.bound = .ok ()
  localAddr : call.localAddr = .ok ⟨.v4 .unspecified, port⟩

end Detection

/-! ## What is detected -/

theorem normalize_eq_loopback_iff (ip : IpAddr) :
    normalize ip = loopback ↔ isUnspecified ip ∨ ip = loopback := by
  unfold normalize
  by_cases h : isUnspecified ip
  · simp only [h, if_true, true_or]
  · rw [if_neg h, or_iff_right h]

theorem classify_unspecified (port : UInt16) (reported : SocketAddr) :
    classify ⟨.v4 .unspecified, port⟩ reported = .open' ↔
      (isUnspecified reported.ip ∨ reported.ip = loopback) ∧ reported.port = port := by
  have hopen : classify ⟨.v4 .unspecified, port⟩ reported = .open' ↔
      loopback = normalize reported.ip ∧ port = reported.port := by
    unfold classify
    split
    · exact iff_of_true rfl ‹_›
    · exact iff_of_false (by decide) ‹_›
  rw [hopen, eq_comm (a := loopback), normalize_eq_loopback_iff, eq_comm (a := port)]

namespace Detection
variable {call : Detection} {port : UInt16}

theorem detect_of_error (h : call.Wildcard port) {e : StunError}
    (hreport : call.discover = .error e) : call.detect = .error e := by
  rw [detect, h.bound, h.localAddr, hreport]
  rfl

theorem detect_of_ok (h : call.Wildcard port) {reported : SocketAddr}
    (hreport : call.discover = .ok reported) :
    call.detect = .ok (classify ⟨.v4 .unspecified, port⟩ reported) := by
  rw [detect, h.bound, h.localAddr, hreport]
  rfl

theorem detect_eq_open_iff (h : call.Wildcard port) {reported : SocketAddr}
    (hreport : call.discover = .ok reported) :
    call.detect = .ok .open' ↔
      (isUnspecified reported.ip ∨ reported.ip = loopback) ∧ reported.port = port := by
  rw [detect_of_ok h hreport, Except.ok.injEq, classify_unspecified]

end Detection

/-! ## Hosts without a NAT -/

/-- A call whose socket is bound to a port and receives one answer. -/
def Detection.answered (port : UInt16) (txId : Octets 12) (answer : List UInt8) : Detection where
  bound := .ok ()
  localAddr := .ok ⟨.v4 .unspecified, port⟩
  txId
  requestSent := .ok (buildBindingRequest txId).length
  response := .ok answer

theorem Detection.wildcard_answered (port : UInt16) (txId : Octets 12) (answer : List UInt8) :
    (answered port txId answer).Wildcard port := ⟨rfl, rfl⟩

theorem Detection.discover_answered (port : UInt16) (txId : Octets 12) (addr : Ipv4Addr) :
    (answered port txId (bindingResponse txId addr port)).discover = .ok ⟨.v4 addr, port⟩ :=
  discovered_bindingResponse txId addr port

/-- If the request of a host reaches the service as it was sent, the host is recognised
    only under the loopback address. -/
theorem detect_serviceStep (listen : SocketAddr) (addr : Ipv4Addr) (port : UInt16)
    (txId : Octets 12) (h : addr ≠ .unspecified) :
    ∃ answer, Stun.Service.serviceStep listen
        ⟨⟨.v4 addr, port⟩, listen, buildBindingRequest txId⟩ = some answer ∧
      ((Detection.answered port txId answer.payload).detect = .ok .open' ↔
        addr = ⟨127, 0, 0, 1⟩) := by
  obtain ⟨answer, hanswer, -, hreport⟩ := discovered_serviceStep listen addr port txId
  refine ⟨answer, hanswer, ?_⟩
  rw [Detection.detect_eq_open_iff (Detection.wildcard_answered port txId _) hreport]
  simp only [isUnspecified, loopback, IpAddr.v4.injEq, decide_eq_true_iff, h, false_or, and_true]

/-- The IPv4 addresses under which a host can be reached. -/
structure Host where
  addresses : List Ipv4Addr
  loopback_mem : ⟨127, 0, 0, 1⟩ ∈ addresses
  unspecified_notMem : Ipv4Addr.unspecified ∉ addresses

/-- The server sees the host under one of its own addresses, and the socket under the port
    it is bound to. -/
def Host.SeenBy (host : Host) (port : UInt16) (reported : SocketAddr) : Prop :=
  reported.port = port ∧ ∃ addr ∈ host.addresses, reported.ip = .v4 addr

/-- The call returns `Open` if and only if there is no NAT before the host. -/
def Host.RecognisedBy (host : Host) (port : UInt16) (call : Detection) : Prop :=
  call.detect = .ok .open' ↔ ∃ reported, call.discover = .ok reported ∧ host.SeenBy port reported

/-- `detect` recognises whether there is a NAT exactly when the server sees another port,
    the loopback address, or an address that is neither unspecified nor one of the host. -/
theorem recognisedBy_iff (host : Host) {call : Detection} {port : UInt16}
    (h : call.Wildcard port) :
    host.RecognisedBy port call ↔
      ∀ reported, call.discover = .ok reported → reported.port = port →
        reported.ip = loopback ∨
          ¬ isUnspecified reported.ip ∧ ∀ addr ∈ host.addresses, reported.ip ≠ .v4 addr := by
  unfold Host.RecognisedBy
  cases hreport : call.discover with
  | error e =>
      rw [Detection.detect_of_error h hreport]
      simp
  | ok reported =>
      rw [Detection.detect_eq_open_iff h hreport]
      simp only [Except.ok.injEq, exists_eq_left', forall_eq', Host.SeenBy]
      rw [and_comm, and_congr_right_iff]
      refine forall_congr' fun _ => ?_
      constructor
      · intro hiff
        by_cases hloop : reported.ip = loopback
        · exact .inl hloop
        · right
          have hunspecified : ¬ isUnspecified reported.ip := by
            intro hzero
            obtain ⟨addr, hmem, hip⟩ := hiff.mp (.inl hzero)
            rw [hip, isUnspecified, decide_eq_true_iff] at hzero
            exact host.unspecified_notMem (hzero ▸ hmem)
          refine ⟨hunspecified, fun addr hmem hip => ?_⟩
          rcases hiff.mpr ⟨addr, hmem, hip⟩ with hzero | hsame
          · exact hunspecified hzero
          · exact hloop hsame
      · rintro (hloop | ⟨hzero, hforeign⟩)
        · exact ⟨fun _ => ⟨_, host.loopback_mem, hloop⟩, fun _ => .inr hloop⟩
        · constructor
          · rintro (hunspecified | hloop)
            · exact absurd hunspecified hzero
            · exact absurd hloop (hforeign _ host.loopback_mem)
          · rintro ⟨addr, hmem, hip⟩
            exact absurd hip (hforeign addr hmem)

/-- A host in a network without NAT. -/
def deskHost : Host where
  addresses := [⟨127, 0, 0, 1⟩, ⟨192, 168, 1, 10⟩]
  loopback_mem := by decide
  unspecified_notMem := by decide

/-- A call on this host, with the answer of a server that sees `addr` and the port of the
    socket. -/
def deskCall (addr : Ipv4Addr) : Detection :=
  Detection.answered 40000 (.replicate 12 7) (bindingResponse (.replicate 12 7) addr 40000)

/-- Seen under the loopback address, the host is recognised. -/
theorem deskHost_recognised : deskHost.RecognisedBy 40000 (deskCall ⟨127, 0, 0, 1⟩) := by
  refine (recognisedBy_iff deskHost (Detection.wildcard_answered 40000 _ _)).mpr ?_
  intro reported hreport _
  cases (Detection.discover_answered 40000 _ _).symm.trans hreport
  exact .inl rfl

/-- Seen under its address in the network, it is not. -/
theorem deskHost_missed :
    (deskCall ⟨192, 168, 1, 10⟩).Wildcard 40000 ∧
      (deskCall ⟨192, 168, 1, 10⟩).discover = .ok ⟨.v4 ⟨192, 168, 1, 10⟩, 40000⟩ ∧
      (⟨192, 168, 1, 10⟩ : Ipv4Addr) ∈ deskHost.addresses ∧
      (deskCall ⟨192, 168, 1, 10⟩).detect = .ok .unknown ∧
      ¬ deskHost.RecognisedBy 40000 (deskCall ⟨192, 168, 1, 10⟩) := by
  have hwildcard : (deskCall ⟨192, 168, 1, 10⟩).Wildcard 40000 :=
    Detection.wildcard_answered 40000 _ _
  have hreport := Detection.discover_answered 40000 (.replicate 12 7) ⟨192, 168, 1, 10⟩
  have hdetect : (deskCall ⟨192, 168, 1, 10⟩).detect = .ok .unknown := by
    rw [Detection.detect_of_ok hwildcard hreport]
    rfl
  have hmem : (⟨192, 168, 1, 10⟩ : Ipv4Addr) ∈ deskHost.addresses := by decide
  refine ⟨hwildcard, hreport, hmem, hdetect, fun hrecognised => ?_⟩
  have hopen := hrecognised.mpr ⟨_, hreport, rfl, _, hmem, rfl⟩
  rw [hdetect] at hopen
  cases hopen

end ConnectAlso.Traversal
