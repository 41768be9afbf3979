import ConnectAlso.Misc.Program
import ConnectAlso.Net.Socket

/-!
# Hole punching

`Puncher::punch` of `crates/nat/src/punch.rs` as a program over the operations of its
socket, and two port-restricted cone NATs (`NatType::PortRestrictedCone`) with a caller
behind each: a packet reaches the socket of the other side exactly when that socket
has sent to its sender before.
-/

namespace ConnectAlso.Traversal
open Misc Program

/-- `CandidateType`. -/
inductive CandidateType where
  | host
  | serverReflexive
  deriving DecidableEq, Repr

/-- `Candidate`. -/
structure Candidate where
  addr : SocketAddr
  ty : CandidateType
  deriving DecidableEq, Repr

/-- `Candidate::host`. -/
def Candidate.host (addr : SocketAddr) : Candidate := ⟨addr, .host⟩

/-- `Candidate::server_reflexive`. -/
def Candidate.serverReflexive (addr : SocketAddr) : Candidate := ⟨addr, .serverReflexive⟩

/-- `PUNCH_RETRIES`. -/
def punchRetries : Nat := 10

/-- The receive buffer `[0u8; 1024]`. -/
def punchBuffer : Nat := 1024

/-- The operations on a socket of `ι`: `send_to`, and a `recv_from` under a timeout of
    `PUNCH_INTERVAL_MS`. -/
inductive SocketOp (ι : Type) where
  | sendTo (socket : ι) (payload : List UInt8) (dst : SocketAddr)
  | recvTimeout (socket : ι)

/-- What an operation answers; `none` is an elapsed timeout. -/
@[reducible] def SocketOp.Answer {ι : Type} : SocketOp ι → Type
  | sendTo _ _ _ => Except IoError Nat
  | recvTimeout _ => Option (Except IoError (List UInt8 × SocketAddr))

/-- The socket operations of a program. -/
abbrev socketOps (ι : Type) : Signature := { Op := SocketOp ι, Answer := SocketOp.Answer }

/-- What `punch` returns inside `Ok`; it never returns an `Err`. -/
abbrev PunchResult := Option (List UInt8 × SocketAddr)

/-- One punch packet to each candidate; a failure is only logged. -/
def sendEach {ι α : Type} (socket : ι) (payload : List UInt8) (next : Program (socketOps ι) α) :
    List Candidate → Program (socketOps ι) α
  | [] => next
  | candidate :: rest =>
    .call (SocketOp.sendTo socket payload candidate.addr) fun _ => sendEach socket payload next rest

/-- A packet ends the call; an error is logged, and after it, as after a timeout, the
    call goes on with `retry`. -/
def received {ι : Type} (retry : Program (socketOps ι) PunchResult) :
    Option (Except IoError (List UInt8 × SocketAddr)) → Program (socketOps ι) PunchResult
  | some (.ok (payload, src)) => .done (some (payload.take punchBuffer, src))
  | some (.error _) => retry
  | none => retry

/-- The rounds of `punch` that are left. -/
def punchRounds {ι : Type} (socket : ι) (peerCandidates : List Candidate)
    (ourToken : List UInt8) : Nat → Program (socketOps ι) PunchResult
  | 0 => .done none
  | rounds + 1 =>
    sendEach socket ourToken
      (.call (SocketOp.recvTimeout socket)
        (received (punchRounds socket peerCandidates ourToken rounds)))
      peerCandidates

/-- `Puncher::punch`. -/
def punch {ι : Type} (socket : ι) (peerCandidates : List Candidate) (ourToken : List UInt8) :
    Program (socketOps ι) PunchResult :=
  punchRounds socket peerCandidates ourToken punchRetries

/-! ## Two sides behind NATs -/

/-- The two sides of a punch. -/
inductive Side where
  | a
  | b
  deriving DecidableEq, Repr

/-- The side at the other end. -/
def Side.other : Side → Side
  | a => b
  | b => a

@[simp] theorem Side.other_other (i : Side) : i.other.other = i := by
  cases i with
  | a => rfl
  | b => rfl

@[simp] theorem Side.other_ne (i : Side) : i.other ≠ i := by
  cases i with
  | a => decide
  | b => decide

theorem Side.eq_or_eq_other (i j : Side) : j = i ∨ j = i.other := by
  cases i with
  | a => cases j <;> simp [Side.other]
  | b => cases j <;> simp [Side.other]

/-- Two port-restricted cone NATs: the address that each maps its socket to, the
    addresses each socket has sent to, and the packets waiting in each socket. -/
structure Nats where
  mapped : Side → SocketAddr
  sentTo : Side → List SocketAddr
  inbox : Side → List (List UInt8 × SocketAddr)

/-- A packet from socket `i`. It passes the NAT of the other side if that side's socket
    has sent to the address it comes from. -/
def Nats.send (nats : Nats) (i : Side) (payload : List UInt8) (dst : SocketAddr) : Nats where
  mapped := nats.mapped
  sentTo := Function.update nats.sentTo i (nats.sentTo i ++ [dst])
  inbox :=
    if dst = nats.mapped i.other ∧ nats.mapped i ∈ nats.sentTo i.other then
      Function.update nats.inbox i.other (nats.inbox i.other ++ [(payload, nats.mapped i)])
    else nats.inbox

/-- A packet taken out of socket `i`. -/
def Nats.take (nats : Nats) (i : Side) (rest : List (List UInt8 × SocketAddr)) : Nats :=
  { nats with inbox := Function.update nats.inbox i rest }

/-- What the sockets do. A timeout elapses only when no packet is waiting. -/
def Nats.handle : Handler (socketOps Side) Nats
  | .sendTo i payload dst, nats => (.ok payload.length, nats.send i payload dst)
  | .recvTimeout i, nats =>
    match nats.inbox i with
    | [] => (none, nats)
    | packet :: rest => (some (.ok packet), nats.take i rest)

/-- Both sides call `punch` with the mapped address of the other one. -/
def punching (mapped : Side → SocketAddr) (token : Side → List UInt8) :
    Pool (socketOps Side) Side PunchResult Nats where
  threads i := punch i [Candidate.serverReflexive (mapped i.other)] (token i)
  state := { mapped, sentTo := fun _ => [], inbox := fun _ => [] }

namespace Nats

variable (nats : Nats) (i : Side) (payload : List UInt8) (dst : SocketAddr)
  (rest : List (List UInt8 × SocketAddr))

@[simp] theorem send_sentTo_self : (nats.send i payload dst).sentTo i = nats.sentTo i ++ [dst] :=
  Function.update_self i _ _

@[simp] theorem send_sentTo_other :
    (nats.send i payload dst).sentTo i.other = nats.sentTo i.other :=
  Function.update_of_ne i.other_ne _ _

@[simp] theorem send_inbox_self : (nats.send i payload dst).inbox i = nats.inbox i := by
  show (if _ then Function.update nats.inbox i.other _ else nats.inbox) i = _
  split
  · exact Function.update_of_ne i.other_ne.symm _ _
  · rfl

theorem send_inbox_other :
    (nats.send i payload dst).inbox i.other =
      if dst = nats.mapped i.other ∧ nats.mapped i ∈ nats.sentTo i.other then
        nats.inbox i.other ++ [(payload, nats.mapped i)]
      else nats.inbox i.other := by
  show (if _ then Function.update nats.inbox i.other _ else nats.inbox) i.other = _
  split
  · exact Function.update_self i.other _ _
  · rfl

@[simp] theorem take_inbox_self : (nats.take i rest).inbox i = rest :=
  Function.update_self i _ _

@[simp] theorem take_inbox_other : (nats.take i rest).inbox i.other = nats.inbox i.other :=
  Function.update_of_ne i.other_ne _ _

theorem take_eq_self {nats : Nats} {i : Side} (h : nats.inbox i = []) : nats.take i [] = nats := by
  rw [take, ← h, Function.update_eq_self]

end Nats

/-! ## What can be seen of a call -/

/-- What a call does next, or that it has returned, and whether with a packet. -/
inductive Doing where
  | sending
  | waiting
  | returned (received : Bool)
  deriving DecidableEq, Repr

/-- What a program does next. -/
def doing : Program (socketOps Side) PunchResult → Doing
  | .done result => .returned result.isSome
  | .call (.sendTo _ _ _) _ => .sending
  | .call (.recvTimeout _) _ => .waiting

theorem done_of_returned {p : Program (socketOps Side) PunchResult} {received : Bool}
    (h : doing p = .returned received) : ∃ result, p = .done result := by
  cases p with
  | done result => exact ⟨result, rfl⟩
  | call op next =>
      cases op with
      | sendTo => cases h
      | recvTimeout => cases h

/-- A call from the outside: what it does next, how many packets it has sent, and how
    many are waiting in its socket. -/
@[ext] structure CallView where
  doing : Doing
  sent : Nat
  inbox : Nat
  deriving DecidableEq, Repr

/-- The two calls from the outside. -/
def view (pool : Pool (socketOps Side) Side PunchResult Nats) (i : Side) : CallView where
  doing := doing (pool.threads i)
  sent := (pool.state.sentTo i).length
  inbox := (pool.state.inbox i).length

end ConnectAlso.Traversal
