import ConnectAlso.Daemon.Following

/-!
# The status API of the daemon

`handle_status` and `handle_diagnostics` (`main.rs:788-875`): what the
daemon tells the command line and the tray application about its peers. Both go once through
`peer_links`, in an order that the map does not determine.
-/

namespace ConnectAlso

/-- `hex_encode`. -/
def hexEncode (bytes : List UInt8) : String :=
  String.ofList (bytes.flatMap fun b => [Nat.digitChar (b.toNat / 16), Nat.digitChar (b.toNat % 16)])

/-- `Uuid::to_string`. -/
def Uuid.toString (id : Uuid) : String :=
  hexEncode (id.bytes.take 4) ++ "-" ++ hexEncode ((id.bytes.drop 4).take 2) ++ "-" ++
    hexEncode ((id.bytes.drop 6).take 2) ++ "-" ++ hexEncode ((id.bytes.drop 8).take 2) ++ "-" ++
    hexEncode (id.bytes.drop 10)

theorem Uuid.toString_ne_empty (id : Uuid) : id.toString ≠ "" := by
  simp [Uuid.toString]

/-- The texts of the match on `current_status`. -/
def PathStatus.text : PathStatus → String
  | direct => "direct"
  | relay => "relay"
  | probing => "probing"

namespace Daemon
open Misc

/-- The fields of `SharedState` other than its maps. -/
structure Own where
  deviceId : Uuid
  virtualIp : Ipv4Addr
  hostname : String

/-- `StatusPeer`. -/
structure StatusPeer where
  deviceId : String
  virtualIp : String
  hostname : String
  path : String
  deriving DecidableEq, Repr

/-- `StatusResponse`. -/
structure StatusResponse where
  deviceId : String
  virtualIp : String
  hostname : String
  uptimeSecs : UInt64
  peerCount : Nat
  peers : List StatusPeer
  deriving DecidableEq, Repr

/-- `PeerDiag`. -/
structure PeerDiag where
  hostname : String
  virtualIp : String
  path : String
  reachable : Bool
  deriving DecidableEq, Repr

/-- `CheckResult`. -/
structure CheckResult where
  status : String
  detail : String
  latencyMs : Option UInt64
  deriving DecidableEq, Repr

/-- `DiagnosticsResponse`. -/
structure DiagnosticsResponse where
  daemon : CheckResult
  control : CheckResult
  stun : CheckResult
  relay : CheckResult
  tun : CheckResult
  peers : List PeerDiag
  deriving DecidableEq, Repr

/-- The services that `handle_diagnostics` checks through the network. -/
inductive CheckedService where
  | control
  | stun
  | relay
  deriving DecidableEq, Repr

/-- The entry of `handle_status` for a link. The id it shows is the host name. -/
def PeerLink.statusPeer (lk : PeerLink) : StatusPeer where
  deviceId := lk.hostname
  virtualIp := lk.vip.toString
  hostname := lk.hostname
  path := lk.path.currentStatus.text

/-- The entry of `handle_diagnostics` for a link. -/
def PeerLink.peerDiag (lk : PeerLink) : PeerDiag where
  hostname := lk.hostname
  virtualIp := lk.vip.toString
  path := lk.path.currentStatus.text
  reachable := lk.path.currentStatus != .probing

/-- The entries of `peer_links`, in the order in which the map yields them. -/
structure Entries (shared : SharedState) (entries : List (Uuid × PeerLink)) : Prop where
  nodup : (entries.map Prod.fst).Nodup
  mem_iff : ∀ id link, (id, link) ∈ entries ↔ shared.peerLinks id = some link

/-- `handle_status`. -/
def handleStatus (own : Own) (uptimeSecs : UInt64) (entries : List (Uuid × PeerLink)) :
    StatusResponse :=
  let peers := entries.map fun entry => entry.2.statusPeer
  { deviceId := own.deviceId.toString
    virtualIp := own.virtualIp.toString
    hostname := own.hostname
    uptimeSecs
    peerCount := peers.length
    peers }

/-- The peers of `handle_diagnostics`. -/
def handleDiagnosticsPeers (entries : List (Uuid × PeerLink)) : List PeerDiag :=
  entries.map fun entry => entry.2.peerDiag

/-- What `handle_diagnostics` answers, with what `check_http`, `check_stun` and `check_udp`
    come to. -/
def handleDiagnostics (own : Own) (uptimeSecs : UInt64) (checks : CheckedService → CheckResult)
    (peers : List PeerDiag) : DiagnosticsResponse where
  daemon := ⟨"ok", "uptime " ++ toString uptimeSecs ++ "s", none⟩
  control := checks .control
  stun := checks .stun
  relay := checks .relay
  tun := ⟨"ok", "VIP: " ++ own.virtualIp.toString, none⟩
  peers

/-! ## While the daemon runs -/

section
variable {ourId : Uuid} {peers : List PeerInfo} {relayAddr : SocketAddr} {shared : SharedState}
  {entries : List (Uuid × PeerLink)}

/-- The maps that follow a list have finitely many entries. -/
theorem Follows.exists_entries (h : Follows ourId peers relayAddr shared) :
    ∃ entries, Entries shared entries := by
  let ids := (peers.map PeerInfo.deviceId).dedup
  refine ⟨ids.filterMap fun id => (shared.peerLinks id).map fun link => (id, link), ?_, ?_⟩
  · rw [keys_lookedUp]
    exact (List.nodup_dedup _).filter _
  · intro id link
    rw [List.mem_filterMap]
    constructor
    · rintro ⟨id', -, hid'⟩
      obtain ⟨link', hlink', heq⟩ := Option.map_eq_some_iff.mp hid'
      obtain ⟨rfl, rfl⟩ := Prod.mk.inj heq
      exact hlink'
    · intro hlink
      refine ⟨id, ?_, by rw [hlink]; rfl⟩
      have hid := h.links id
      cases hlast : lastWith (fun p : PeerInfo => p.deviceId = id)
          (peers.filter fun p => p.deviceId ≠ ourId) with
      | none =>
          rw [hlast, hlink] at hid
          cases hid
      | some p =>
          obtain ⟨hp, hpid⟩ := mem_of_lastWith hlast
          refine List.mem_dedup.mpr (List.mem_map.mpr ⟨p, (List.mem_filter.mp hp).1, ?_⟩)
          exact of_decide_eq_true hpid

/-- Each link is that of the last entry of its device, and on the relay. -/
theorem Follows.link (h : Follows ourId peers relayAddr shared) {id : Uuid} {link : PeerLink}
    (hlink : shared.peerLinks id = some link) :
    (∃ p ∈ peers, p.deviceId = id ∧ id ≠ ourId ∧ link.hostname = p.hostname ∧
      Ipv4Addr.parse p.ipv4 = some link.vip) ∧ link.path.currentStatus = .relay := by
  have hid := h.links id
  cases hlast : lastWith (fun p : PeerInfo => p.deviceId = id)
      (peers.filter fun p => p.deviceId ≠ ourId) with
  | none =>
      rw [hlast, hlink] at hid
      cases hid
  | some p =>
      rw [hlast] at hid
      obtain ⟨made, ⟨retry, -, new, ⟨vip, socket, hvip, rfl⟩, rfl⟩, hsome⟩ := hid
      obtain rfl := Option.some.inj (hlink.symm.trans hsome)
      obtain ⟨hp, hpid⟩ := mem_of_lastWith hlast
      obtain ⟨hmem, hother⟩ := List.mem_filter.mp hp
      obtain rfl : p.deviceId = id := of_decide_eq_true hpid
      exact ⟨⟨p, hmem, rfl, of_decide_eq_true hother, rfl, hvip⟩, rfl⟩

/-- Every other device of the list has a link. -/
theorem Follows.exists_link (h : Follows ourId peers relayAddr shared) {p : PeerInfo}
    (hp : p ∈ peers) (hother : p.deviceId ≠ ourId) :
    ∃ link, shared.peerLinks p.deviceId = some link := by
  have hid := h.links p.deviceId
  cases hlast : lastWith (fun q : PeerInfo => q.deviceId = p.deviceId)
      (peers.filter fun p => p.deviceId ≠ ourId) with
  | none =>
      have hmem : p ∈ peers.filter fun p => p.deviceId ≠ ourId :=
        List.mem_filter.mpr ⟨hp, decide_eq_true hother⟩
      have hnone := List.find?_eq_none.mp hlast p (List.mem_reverse.mpr hmem)
      exact absurd (decide_eq_true rfl) hnone
  | some q =>
      rw [hlast] at hid
      obtain ⟨link, -, hsome⟩ := hid
      exact ⟨link, hsome⟩

/-- All paths are shown as relayed. -/
theorem path_of_follows (h : Follows ourId peers relayAddr shared)
    (hentries : Entries shared entries) (own : Own) (uptimeSecs : UInt64) :
    ∀ p ∈ (handleStatus own uptimeSecs entries).peers, p.path = "relay" := by
  intro p hp
  obtain ⟨⟨id, link⟩, hentry, rfl⟩ := List.mem_map.mp hp
  have hrelay := (h.link ((hentries.mem_iff id link).mp hentry)).2
  simp only [PeerLink.statusPeer, hrelay, PathStatus.text]

/-- All peers are shown as reachable. -/
theorem reachable_of_follows (h : Follows ourId peers relayAddr shared)
    (hentries : Entries shared entries) :
    ∀ p ∈ handleDiagnosticsPeers entries, p.path = "relay" ∧ p.reachable = true := by
  intro p hp
  obtain ⟨⟨id, link⟩, hentry, rfl⟩ := List.mem_map.mp hp
  have hrelay := (h.link ((hentries.mem_iff id link).mp hentry)).2
  simp only [PeerLink.peerDiag, hrelay, PathStatus.text, true_and]
  decide

end

end Daemon

end ConnectAlso
