import ConnectAlso.Daemon.Forward
import ConnectAlso.Misc.HashOrder
import ConnectAlso.Stun.Client
import ConnectAlso.Traversal.Punch

/-!
# The daemon's candidates

The P2P helpers of `apps/daemon/src/main.rs` and the order in which `main` and its refresh
task call them: discover the candidates of this device and publish them, sync the peers,
then punch towards each peer. `discover_candidates` and `attempt_p2p_for_all` each bind a
socket of their own and drop it. What is outside the daemon (the ports and NAT mappings
it gets, which calls fail, what the control service answers) is given for each round.
-/

namespace ConnectAlso.Daemon
open Misc Program Traversal

/-- A `UdpSocket` bound to `0.0.0.0:0`. No two sockets of a run have the same `id`; a port
    may be used again when its socket is gone. -/
structure UdpSocket where
  id : Nat
  port : UInt16
  deriving DecidableEq, Repr

/-- `UdpSocket::local_addr`: the address that was asked for, and the port it was given. -/
def UdpSocket.localAddr (socket : UdpSocket) : SocketAddr := ⟨.v4 .unspecified, socket.port⟩

/-- The candidates that `discover_candidates` returns, and the socket whose addresses they
    are. -/
structure Discovery where
  socket : Option Nat
  candidates : List SocketAddr
  deriving DecidableEq, Repr

/-- A call of `Puncher::punch`: its socket, the candidates of the peer, and what was
    published for this device at that time. -/
structure Attempt where
  socket : UdpSocket
  candidates : List Candidate
  published : Option Discovery
  deriving DecidableEq, Repr

/-- How far `main` is. -/
inductive Phase where
  | starting
  | running
  | exited
  deriving DecidableEq, Repr

/-- The daemon: its shared maps and, of what it has done, the number of sockets bound,
    the candidates that the control service has got, and the calls of `punch`. -/
structure DaemonState where
  phase : Phase
  shared : SharedState
  sockets : Nat
  publications : List Discovery
  attempts : List Attempt

/-- Before `main`. -/
def DaemonState.start : DaemonState where
  phase := .starting
  shared := ⟨fun _ => none, fun _ => none⟩
  sockets := 0
  publications := []
  attempts := []

/-- What one round meets outside the daemon. -/
structure Surroundings where
  -- `discover_candidates`
  stunPort : Except IoError UInt16
  txId : Octets 12
  requestSent : Except IoError Nat
  response : Except IoError (List UInt8)
  localAddr : Except IoError Unit
  -- `publish_candidates`: whether the request reaches the control service
  stored : Bool
  -- `connect_peers`
  net : Network
  relaySocket : Uuid → Except IoError SocketAddr
  peers : Except String (List PeerInfo)
  relayAddr : SocketAddr
  -- `TunDevice::create`
  tun : Except String Unit
  -- `attempt_p2p_for_all`: what `get_peer_candidates` returns for a peer, and what the
  -- operations on its socket answer, one after the other
  order : HashOrder Uuid PeerLink
  peerCandidates : Uuid → List SocketAddr
  punchPort : Uuid → Except IoError UInt16
  answers : Uuid → Nat → (op : SocketOp Nat) → op.Answer

/-! ## The helpers -/

/-- `UdpSocket::bind("0.0.0.0:0")`; `port` is what it is answered. -/
def DaemonState.bind (state : DaemonState) (port : Except IoError UInt16) :
    Except IoError UdpSocket × DaemonState :=
  match port with
  | .error e => (.error e, state)
  | .ok port => (.ok ⟨state.sockets, port⟩, { state with sockets := state.sockets + 1 })

@[simp] theorem bind_ok (state : DaemonState) (port : UInt16) :
    state.bind (.ok port) =
      (.ok ⟨state.sockets, port⟩, { state with sockets := state.sockets + 1 }) := rfl

@[simp] theorem bind_error (state : DaemonState) (e : IoError) :
    state.bind (.error e) = (.error e, state) := rfl

/-- `StunClient::discover`. -/
def discover (env : Surroundings) : Except Stun.Client.StunError SocketAddr :=
  match env.requestSent with
  | .error e => .error (.io e)
  | .ok _ =>
    match env.response with
    | .error e => .error (.io e)
    | .ok datagram => Stun.Client.discovered env.txId datagram

/-- The candidate that `discover_candidates` gets from the STUN server. -/
def mappedCandidate (env : Surroundings) : List SocketAddr :=
  match discover env with
  | .ok addr => [addr]
  | .error _ => []

/-- The candidate that `discover_candidates` gets from its socket. -/
def localCandidate (env : Surroundings) (stun : UdpSocket) : List SocketAddr :=
  match env.localAddr with
  | .ok () => [stun.localAddr]
  | .error _ => []

/-- `discover_candidates`. -/
def discoverCandidates (env : Surroundings) (state : DaemonState) : Discovery × DaemonState :=
  match state.bind env.stunPort with
  | (.error _, state) => (⟨none, []⟩, state)
  | (.ok stun, state) =>
    (⟨some stun.id, mappedCandidate env ++ localCandidate env stun⟩, state)

/-- `publish_candidates`. -/
def publishCandidates (env : Surroundings) (found : Discovery) (state : DaemonState) :
    DaemonState :=
  if found.candidates = [] then state
  else if env.stored then { state with publications := state.publications ++ [found] }
  else state

/-- The token `b"connectalso-p2p"`. -/
def p2pToken : List UInt8 := [99, 111, 110, 110, 101, 99, 116, 97, 108, 115, 111, 45, 112, 50, 112]

/-- The calls of a socket are answered one after the other. -/
def Surroundings.handler (env : Surroundings) (pid : Uuid) : Handler (socketOps Nat) Nat :=
  fun op n => (env.answers pid n op, n + 1)

/-- One iteration of the loop of `attempt_p2p_for_all`. -/
def attemptP2p (env : Surroundings) (pid : Uuid) (link : PeerLink) (state : DaemonState) :
    PeerLink × DaemonState :=
  if link.path.currentStatus = .direct then (link, state)
  else if env.peerCandidates pid = [] then (link, state)
  else
    match state.bind (env.punchPort pid) with
    | (.error _, state) => (link, state)
    | (.ok punchSock, state) =>
      let p2pCandidates := (env.peerCandidates pid).map Candidate.host
      let link :=
        match (exec (env.handler pid) (punch punchSock.id p2pCandidates p2pToken) 0).1 with
        | some _ => { link with p2pRetryMs := 200 }
        | none => { link with p2pRetryMs := min (link.p2pRetryMs * 2) 30000 }
      (link, { state with
        attempts := state.attempts ++ [⟨punchSock, p2pCandidates, state.publications.getLast?⟩] })

/-- The loop of `attempt_p2p_for_all`. -/
def attemptEach (env : Surroundings) : List (Uuid × PeerLink) → SharedState → DaemonState →
    SharedState × DaemonState
  | [], links, state => (links, state)
  | (pid, link) :: rest, links, state =>
    attemptEach env rest
      { links with
        peerLinks := Function.update links.peerLinks pid (some (attemptP2p env pid link state).1) }
      (attemptP2p env pid link state).2

/-- The devices of the peer list other than this one. -/
def otherDevices (env : Surroundings) (ourId : Uuid) : List Uuid :=
  match env.peers with
  | .ok peers => (peers.filter fun p => p.deviceId ≠ ourId).map PeerInfo.deviceId
  | .error _ => []

/-- The entries of `peer_links`, in the order in which the map yields them. -/
def linkEntries (env : Surroundings) (ourId : Uuid) (links : SharedState) :
    List (Uuid × PeerLink) :=
  env.order.arrange ((otherDevices env ourId).dedup.filterMap fun id =>
    (links.peerLinks id).map fun link => (id, link))

/-- `attempt_p2p_for_all`. -/
def attemptP2pForAll (env : Surroundings) (ourId : Uuid) (links : SharedState)
    (state : DaemonState) : SharedState × DaemonState :=
  attemptEach env (linkEntries env ourId links) links state

/-! ## `main` and the refresh task -/

/-- `discover_candidates`, then `publish_candidates`. -/
def republish (env : Surroundings) (state : DaemonState) : DaemonState :=
  publishCandidates env (discoverCandidates env state).1 (discoverCandidates env state).2

/-- The call of `connect_peers`. -/
def syncPeers (env : Surroundings) (ourId : Uuid) : Except (Fault ConnectError) SharedState :=
  (connectPeers env.net env.relaySocket env.peers env.relayAddr ourId (relayIdOf ourId)).outcome

/-- `main` up to the refresh task; an error ends it. -/
def startUp (ourId : Uuid) (env : Surroundings) (state : DaemonState) : DaemonState :=
  let state := republish env state
  match syncPeers env ourId with
  | .error _ => { state with phase := .exited }
  | .ok links =>
    match env.tun with
    | .error _ => { state with phase := .exited }
    | .ok () =>
      let (links, state) := attemptP2pForAll env ourId links state
      { state with phase := .running, shared := links }

/-- A tick of the refresh task (`main.rs:579-593`); without the peer list it goes on with
    the links it has. -/
def refresh (ourId : Uuid) (env : Surroundings) (state : DaemonState) : DaemonState :=
  let state := republish env state
  match syncPeers env ourId with
  | .error _ => state
  | .ok links =>
    let (links, state) := attemptP2pForAll env ourId links state
    { state with shared := links }

/-- A round of the daemon. -/
def daemonStep (ourId : Uuid) (state : DaemonState) (env : Surroundings) : DaemonState :=
  match state.phase with
  | .starting => startUp ourId env state
  | .running => refresh ourId env state
  | .exited => state

end ConnectAlso.Daemon
