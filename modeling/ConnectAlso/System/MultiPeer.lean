import ConnectAlso.Daemon.Forward
import ConnectAlso.Relay.Server

/-!
# Several devices on one relay

Any number of devices run `connect_peers` against one relay and then exchange
packets through it. A device has one client, hence one socket, for each other device,
but all of them register the same id, and the relay keeps one address for an id: that
of the HELLO it has seen last. Only the client that sent this HELLO can be reached.
-/

namespace ConnectAlso.System
open RelayProto Relay Daemon

/-- Devices that know each other: the peer list of the control service, the relay, and
    the address of the socket that one device's client for another is bound to. -/
structure Mesh where
  peers : List PeerInfo
  relayAddr : SocketAddr
  socketOf : Uuid → Uuid → SocketAddr
  nodup_ids : (peers.map PeerInfo.deviceId).Nodup
  vips_parse : ∀ p ∈ peers, ∃ vip, Ipv4Addr.parse p.ipv4 = some vip
  sockets_distinct : ∀ p ∈ peers.map PeerInfo.deviceId, ∀ q ∈ peers.map PeerInfo.deviceId,
    ∀ r ∈ peers.map PeerInfo.deviceId, socketOf p q = socketOf p r → q = r

namespace Mesh

/-- The ids of the devices. -/
def ids (mesh : Mesh) : List Uuid := mesh.peers.map PeerInfo.deviceId

/-- Device `id` runs `connect_peers`; no datagram is lost. -/
def connect (mesh : Mesh) (id : Uuid) : Effect ConnectError SharedState :=
  connectPeers Network.ideal (fun peer => .ok (mesh.socketOf id peer)) (.ok mesh.peers)
    mesh.relayAddr id (relayIdOf id)

/-- The datagrams that all devices send while they connect. -/
def hellos (mesh : Mesh) : List Datagram := mesh.ids.flatMap fun id => (mesh.connect id).sent

/-- The client of device `id` for device `peer`. -/
def clientFor (mesh : Mesh) (id peer : Uuid) : Option RelayClient :=
  match (mesh.connect id).outcome with
  | .error _ => none
  | .ok state => state.clientFor peer

/-- `arrived` reaches the relay, then `p` sends `payload` with its client for `q`: what
    `recv` of `q`'s client for `p` returns, or `none` if it still waits. -/
def exchange (mesh : Mesh) (arrived : List Datagram) (p q : Uuid) (payload : List UInt8) :
    Option (Except IoError (List UInt8 × PeerId)) :=
  match mesh.clientFor p q, mesh.clientFor q p with
  | some sender, some receiver =>
    match relayLoop mesh.relayAddr noPeers
        (arrived ++ (sender.send Network.ideal payload).sent) with
    | .error _ => none
    | .ok (_, forwarded) =>
      receiver.recv ((forwarded.filter fun d => d.dst = receiver.socket).map .ok)
  | _, _ => none

/-! ## Connecting -/

theorem clientFor_eq (mesh : Mesh) {p q : Uuid} (hq : q ∈ mesh.ids) (hne : q ≠ p) :
    mesh.clientFor p q = some ⟨mesh.socketOf p q, mesh.relayAddr, p, q⟩ := by
  obtain ⟨state, heq, hclients⟩ :=
    connectPeers_eq mesh.vips_parse (mesh.socketOf p) mesh.relayAddr p (relayIdOf p)
  obtain ⟨info, hinfo, rfl⟩ := List.mem_map.mp hq
  rw [clientFor, connect, heq]
  exact hclients info hinfo hne

/-- The HELLO datagrams: each device sends one under its own id from each of its
    clients. -/
theorem mem_hellos (mesh : Mesh) {datagram : Datagram} :
    datagram ∈ mesh.hellos ↔ ∃ p ∈ mesh.ids, ∃ q ∈ mesh.ids, q ≠ p ∧
      datagram = ⟨mesh.socketOf p q, mesh.relayAddr, RelayFrame.helloBytes p⟩ := by
  rw [hellos, List.mem_flatMap]
  refine exists_congr fun p => and_congr_right fun hp => ?_
  obtain ⟨state, heq, -⟩ :=
    connectPeers_eq mesh.vips_parse (mesh.socketOf p) mesh.relayAddr p (relayIdOf p)
  rw [connect, heq, List.mem_map]
  constructor
  · rintro ⟨info, hinfo, rfl⟩
    obtain ⟨hmem, hne⟩ := List.mem_filter.mp hinfo
    exact ⟨info.deviceId, List.mem_map_of_mem hmem, by simpa using hne, rfl⟩
  · rintro ⟨q, hq, hne, rfl⟩
    obtain ⟨info, hmem, rfl⟩ := List.mem_map.mp hq
    exact ⟨info, List.mem_filter.mpr ⟨hmem, by simpa using hne⟩, rfl⟩

/-- A HELLO datagram registers its sender's id, and no other. -/
theorem registrationOf_hello (src dst : SocketAddr) (p id : PeerId) :
    RelayFrame.decode (received ⟨src, dst, RelayFrame.helloBytes p⟩) = .ok (RelayFrame.hello p) ∧
      registrationOf id ⟨src, dst, RelayFrame.helloBytes p⟩ = if p = id then some src else none := by
  have hreceived : received ⟨src, dst, RelayFrame.helloBytes p⟩ = RelayFrame.helloBytes p := by
    apply List.take_of_length_le
    simp [RelayFrame.helloBytes, recvBuffer]
  have hdecode : RelayFrame.decode (received ⟨src, dst, RelayFrame.helloBytes p⟩) =
      .ok (RelayFrame.hello p) := by
    rw [hreceived]
    simpa using RelayFrame.decode_encode (RelayFrame.encode_hello p) []
  refine ⟨hdecode, ?_⟩
  simp [registrationOf, hdecode, RelayFrame.hello]

/-- Once all devices have connected, the address registered for a device is that of one
    of its clients: the one whose HELLO arrived last. -/
theorem exists_registered (mesh : Mesh) {arrived : List Datagram}
    (harrived : arrived.Perm mesh.hellos) {p q : Uuid} (hp : p ∈ mesh.ids) (hq : q ∈ mesh.ids)
    (hne : p ≠ q) :
    ∃ table, relayLoop mesh.relayAddr noPeers arrived = .ok (table, []) ∧
      ∃ r ∈ mesh.ids, r ≠ q ∧ table q = some (mesh.socketOf q r) ∧
        latestRegistration arrived q = some (mesh.socketOf q r) := by
  have hhello : ∀ datagram ∈ arrived, ∃ s ∈ mesh.ids, ∃ r ∈ mesh.ids, r ≠ s ∧
      datagram = ⟨mesh.socketOf s r, mesh.relayAddr, RelayFrame.helloBytes s⟩ :=
    fun datagram hmem => mesh.mem_hellos.mp (harrived.mem_iff.mp hmem)
  obtain ⟨table, htable⟩ := relayLoop_registrations mesh.relayAddr noPeers (by
    intro datagram hmem
    obtain ⟨s, -, r, -, -, rfl⟩ := hhello datagram hmem
    exact ⟨_, (registrationOf_hello _ _ s s).1, by simp [RelayFrame.hello]⟩)
  have hsome : (latestRegistration arrived q).isSome := by
    have hmem : ⟨mesh.socketOf q p, mesh.relayAddr, RelayFrame.helloBytes q⟩ ∈ arrived :=
      harrived.mem_iff.mpr (mesh.mem_hellos.mpr ⟨q, hq, p, hp, hne, rfl⟩)
    exact latestRegistration_isSome hmem (by rw [(registrationOf_hello _ _ q q).2, if_pos rfl])
  obtain ⟨addr, haddr⟩ := Option.isSome_iff_exists.mp hsome
  obtain ⟨datagram, hmem, hreg⟩ := exists_of_latestRegistration haddr
  obtain ⟨s, -, r, hr, hrs, rfl⟩ := hhello datagram hmem
  rw [(registrationOf_hello _ _ s q).2] at hreg
  by_cases hsq : s = q
  · subst hsq
    rw [if_pos rfl] at hreg
    rw [← hreg] at haddr
    refine ⟨table, htable, r, hr, hrs, ?_, haddr⟩
    rw [relayLoop_peers htable, haddr]
    rfl
  · rw [if_neg hsq] at hreg
    cases hreg

/-! ## Exchanging packets -/

/-- The relay forwards a DATA frame to the address that is registered for its target. -/
theorem relayStep_data (mesh : Mesh) {p q : Uuid} {payload encoded : List UInt8}
    (hencode : (RelayFrame.data p q payload).encode = .ok encoded) {table : Peers}
    {addr : SocketAddr} (hregistered : table q = some addr) (src : SocketAddr) :
    relayStep mesh.relayAddr table ⟨src, mesh.relayAddr, encoded⟩ =
      .ok (table, [⟨mesh.relayAddr, addr, encoded⟩]) := by
  have hreceived : received ⟨src, mesh.relayAddr, encoded⟩ = encoded :=
    List.take_of_length_le ((RelayFrame.length_of_encode_le hencode).trans (by decide))
  have hdecode : RelayFrame.decode encoded = .ok (RelayFrame.data p q payload) := by
    simpa using RelayFrame.decode_encode hencode []
  rw [relayStep_data_some (by rw [hreceived, hdecode]) rfl hregistered]
  simp only [RelayFrame.data] at hencode ⊢
  rw [hencode]

/-- The client of `q` for `p` takes a DATA frame of `p`. -/
theorem accepts_data (mesh : Mesh) {p q : Uuid} {payload encoded : List UInt8}
    (hencode : (RelayFrame.data p q payload).encode = .ok encoded) (socket : SocketAddr) :
    RelayClient.accepts ⟨socket, mesh.relayAddr, q, p⟩ ⟨mesh.relayAddr, socket, encoded⟩ =
      some (payload, p) := by
  have hreceived : encoded.take RelayClient.recvBuffer = encoded :=
    List.take_of_length_le ((RelayFrame.length_of_encode_le hencode).trans (by decide))
  have hdecode : RelayFrame.decode encoded = .ok (RelayFrame.data p q payload) := by
    simpa using RelayFrame.decode_encode hencode []
  simp [RelayClient.accepts, hreceived, hdecode, RelayFrame.data]

/-- A payload reaches the peer exactly when the peer's client for the sender is the one
    that is registered. -/
theorem exchange_eq_some_iff (mesh : Mesh) {arrived : List Datagram}
    (harrived : arrived.Perm mesh.hellos) {p q r : Uuid} (hp : p ∈ mesh.ids) (hq : q ∈ mesh.ids)
    (hne : p ≠ q) (hr : r ∈ mesh.ids)
    (hlast : latestRegistration arrived q = some (mesh.socketOf q r))
    {payload : List UInt8} (hpayload : payload.length ≤ maxPayload) :
    mesh.exchange arrived p q payload = some (.ok (payload, p)) ↔ r = p := by
  obtain ⟨table, htable, r', hr', -, hregistered, hlast'⟩ :=
    mesh.exists_registered harrived hp hq hne
  have hsame : mesh.socketOf q r' = mesh.socketOf q r := by
    rw [hlast] at hlast'
    exact (Option.some.inj hlast').symm
  obtain ⟨encoded, hencode, hsent⟩ := RelayClient.send_of_le Network.ideal
    ⟨mesh.socketOf p q, mesh.relayAddr, p, q⟩ hpayload
  -- the relay forwards the frame to the registered client of `q`
  have hforward : relayLoop mesh.relayAddr noPeers (arrived ++
      (RelayClient.send Network.ideal ⟨mesh.socketOf p q, mesh.relayAddr, p, q⟩ payload).sent) =
      .ok (table, [⟨mesh.relayAddr, mesh.socketOf q r, encoded⟩]) := by
    have hstep := mesh.relayStep_data hencode (hregistered.trans (congrArg some hsame))
      (mesh.socketOf p q)
    rw [relayLoop_append, htable, hsent]
    simp only [relayLoop, hstep, List.nil_append, List.append_nil]
  have haccept := mesh.accepts_data hencode (mesh.socketOf q p)
  rw [exchange, mesh.clientFor_eq hq (Ne.symm hne), mesh.clientFor_eq hp hne]
  simp only [hforward]
  by_cases hrp : r = p
  · subst hrp
    simp [RelayClient.recv, haccept]
  · have hother : mesh.socketOf q r ≠ mesh.socketOf q p :=
      fun heq => hrp (mesh.sockets_distinct q hq r hr p hp heq)
    simp [RelayClient.recv, hother, hrp]

/-- Of three or more devices, one is neither `q` nor `r`. -/
theorem exists_third (mesh : Mesh) (hmore : 2 < mesh.ids.length) (q r : Uuid) :
    ∃ p ∈ mesh.ids, p ≠ q ∧ p ≠ r := by
  by_contra hnone
  push Not at hnone
  have hsubset : mesh.ids ⊆ [q, r] := by
    intro p hp
    by_cases hpq : p = q
    · simp [hpq]
    · simp [hnone p hp hpq]
  have hnodup : mesh.ids.Nodup := mesh.nodup_ids
  have hle := (List.subperm_of_subset hnodup hsubset).length_le
  simp only [List.length_cons, List.length_nil] at hle
  omega

/-- Of two devices, those other than `q` are the same. -/
theorem eq_of_two (mesh : Mesh) (htwo : mesh.ids.length = 2) {p q r : Uuid} (hp : p ∈ mesh.ids)
    (hq : q ∈ mesh.ids) (hr : r ∈ mesh.ids) (hpq : p ≠ q) (hrq : r ≠ q) : r = p := by
  by_contra hrp
  have hsubset : [p, q, r] ⊆ mesh.ids := by
    intro s hs
    simp only [List.mem_cons, List.not_mem_nil, or_false] at hs
    rcases hs with rfl | rfl | rfl
    · exact hp
    · exact hq
    · exact hr
  have hdistinct : [p, q, r].Nodup := by
    simp [hpq, Ne.symm hrp, Ne.symm hrq]
  have hle := (List.subperm_of_subset hdistinct hsubset).length_le
  simp only [List.length_cons, List.length_nil] at hle
  omega

/-- Whatever the order in which the HELLOs of two or more devices reach the relay, every
    device can reach every other one exactly when there are two of them. -/
theorem all_delivered_iff (mesh : Mesh) (hmany : 2 ≤ mesh.peers.length) {arrived : List Datagram}
    (harrived : arrived.Perm mesh.hellos) :
    (∀ p ∈ mesh.ids, ∀ q ∈ mesh.ids, p ≠ q → ∀ payload : List UInt8,
      payload.length ≤ maxPayload →
        mesh.exchange arrived p q payload = some (.ok (payload, p))) ↔
      mesh.peers.length = 2 := by
  have hlength : mesh.ids.length = mesh.peers.length := List.length_map _
  constructor
  · intro hall
    by_contra hmore
    have hthree : 2 < mesh.ids.length := by omega
    obtain ⟨q, hq, -, -⟩ := mesh.exists_third hthree Uuid.nil Uuid.nil
    obtain ⟨p, hp, hpq, -⟩ := mesh.exists_third hthree q q
    obtain ⟨-, -, r, hr, hrq, -, hlast⟩ := mesh.exists_registered harrived hp hq hpq
    -- some device other than `q` and the peer of its registered client
    obtain ⟨s, hs, hsq, hsr⟩ := mesh.exists_third hthree q r
    have hdelivered := hall s hs q hq hsq [] (by simp [maxPayload])
    exact hsr ((mesh.exchange_eq_some_iff harrived hs hq hsq hr hlast
      (by simp [maxPayload])).mp hdelivered).symm
  · intro htwo p hp q hq hne payload hpayload
    obtain ⟨-, -, r, hr, hrq, -, hlast⟩ := mesh.exists_registered harrived hp hq hne
    rw [mesh.exchange_eq_some_iff harrived hp hq hne hr hlast hpayload]
    -- the registered client of `q` can only be the one for `p`
    exact mesh.eq_of_two (hlength.trans htwo) hp hq hr hne hrq

end Mesh

/-! ### Two and three devices -/

/-- Device `n`: an id that starts with `n`, and the address 10.0.0.n. -/
def device (n : UInt8) : PeerInfo where
  deviceId := ⟨n :: List.replicate 15 0, rfl⟩
  ipv4 := (⟨10, 0, 0, n⟩ : Ipv4Addr).toString
  publicKey := Misc.Octets.replicate 32 n
  hostname := "device"

/-- A port for each client of each device. -/
def clientSocket (id peer : Uuid) : SocketAddr :=
  .localhost (256 * UInt16.ofNat (id.bytes.headD 0).toNat +
    UInt16.ofNat (peer.bytes.headD 0).toNat)

/-- Devices 1 and 2. -/
def pairMesh : Mesh where
  peers := [device 1, device 2]
  relayAddr := .localhost 33478
  socketOf := clientSocket
  nodup_ids := by decide
  vips_parse := by
    intro p hp
    simp only [List.mem_cons, List.not_mem_nil, or_false] at hp
    rcases hp with rfl | rfl
    · exact ⟨_, Ipv4Addr.parse_toString _⟩
    · exact ⟨_, Ipv4Addr.parse_toString _⟩
  sockets_distinct := by decide

/-- Devices 1, 2 and 3. -/
def trioMesh : Mesh where
  peers := [device 1, device 2, device 3]
  relayAddr := .localhost 33478
  socketOf := clientSocket
  nodup_ids := by decide
  vips_parse := by
    intro p hp
    simp only [List.mem_cons, List.not_mem_nil, or_false] at hp
    rcases hp with rfl | rfl | rfl
    · exact ⟨_, Ipv4Addr.parse_toString _⟩
    · exact ⟨_, Ipv4Addr.parse_toString _⟩
    · exact ⟨_, Ipv4Addr.parse_toString _⟩
  sockets_distinct := by decide

/-- Device 1 reaches device 2. -/
theorem pairMesh_all_delivered :
    pairMesh.exchange pairMesh.hellos (device 1).deviceId (device 2).deviceId [1] =
      some (.ok ([1], (device 1).deviceId)) := by
  have hall := (Mesh.all_delivered_iff pairMesh (by decide) (List.Perm.refl _)).mpr rfl
  exact hall _ (by decide) _ (by decide) (by decide) [1] (by decide)

/-- With three devices whose HELLOs arrive in the order in which they are sent, what
    device 2 sends to device 1 does not reach it: the relay has the address of device
    1's client for device 3. -/
theorem trioMesh_not_delivered :
    trioMesh.exchange trioMesh.hellos (device 2).deviceId (device 1).deviceId [1] ≠
      some (.ok ([1], (device 2).deviceId)) := by
  have hwaits : trioMesh.exchange trioMesh.hellos (device 2).deviceId (device 1).deviceId [1] =
      none := by
    decide +kernel
  rw [hwaits]
  simp

end ConnectAlso.System
