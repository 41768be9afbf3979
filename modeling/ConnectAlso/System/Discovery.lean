import ConnectAlso.Misc.Datagrams
import ConnectAlso.Stun.Attributes
import ConnectAlso.Stun.Ipv6

/-!
# Address discovery through the network

Any number of calls of `StunClient::discover`, one STUN service, and between them a network
that loses, doubles, delays and reorders datagrams. Every call has a socket of its own, as
in `discover_candidates` and `NatDetector::detect`. A NAT gives the socket the address from
which its datagrams reach others, which can be one that the socket of an earlier call had.
Others can send anything to anyone under any source address.

`discover` takes the first datagram that reaches its socket and does not look at where it
comes from. That the address it returns is its own rests on the transaction id, and on
answers going back to the address that they report.
-/

namespace ConnectAlso.System
open Misc Stun Stun.Client

/-! ## The messages of the service -/

/-- The attribute that the service builds for a source address. -/
def mappedAttr (src : SocketAddr) : List UInt8 :=
  match src.ip with
  | .v4 ip => Service.buildXorMappedV4 ip src.port
  | .v6 ip => Service.buildXorMappedV6 ip src.port

/-- What `discover` reads in that attribute. -/
def readBack (src : SocketAddr) : Except StunError SocketAddr :=
  match src.ip with
  | .v4 _ => .ok src
  | .v6 _ => .error .missingMappedAddress

/-- The message that a call with the transaction id reads carries the transaction id. -/
def Carries (payload : List UInt8) (txId : Octets 12) : Prop :=
  slice (payload.take 512) 8 20 = txId.bytes

/-- The length field announces the attribute. -/
theorem length_mappedAttr (src : SocketAddr) :
    ∃ msgLen : UInt16, (mappedAttr src).length = msgLen.toNat ∧
      (mappedAttr src).length ≤ 24 := by
  rw [mappedAttr]
  cases src.ip with
  | v4 ip => exact ⟨12, by simp [Service.length_buildXorMappedV4]⟩
  | v6 ip => exact ⟨24, by simp [Service.buildXorMappedV6]⟩

/-- An IPv4 address is read back, an IPv6 address makes the client give up on the
    response. -/
theorem parse_mappedAttr (src : SocketAddr) :
    (parseXorMappedAddress (mappedAttr src)).elim (.error .missingMappedAddress) .ok =
      readBack src := by
  obtain ⟨ip, port⟩ := src
  cases ip with
  | v4 ip =>
      simp only [mappedAttr, readBack, parseXorMappedAddress_buildXorMappedV4]
      rfl
  | v6 ip =>
      obtain ⟨htype, hlen, hfamily, -, -⟩ := Service.attribute_fields ip port
      have hlength : (Service.buildXorMappedV6 ip port).length = 24 := by
        simp [Service.buildXorMappedV6]
      have hwanted : Wanted (Service.buildXorMappedV6 ip port) 0 := by
        refine ⟨htype, ?_, ?_⟩
        · rw [hlen]
          decide
        · rw [hlen, hlength]
          decide
      have hmapped : mappedAt (Service.buildXorMappedV6 ip port) 0 = none := by
        have hread : (Service.buildXorMappedV6 ip port)[0 + 4 + 1]? = some 0x02 := by
          simp [Service.buildXorMappedV6, beBytes, leBytes]
        rw [mappedAt, hread, if_neg (by decide)]
      simp only [mappedAttr, readBack, parseXorMappedAddress]
      rw [parseFrom_of_wanted (by omega) hwanted, hmapped]
      rfl

/-- The service answers requests only, to where they come from, with their transaction id
    and that address. -/
theorem serviceStep_eq_some {listen : SocketAddr} {d answer : Datagram}
    (h : Service.serviceStep listen d = some answer) :
    ∃ (txId : Octets 12) (msgLen : UInt16), Carries d.payload txId ∧
      (mappedAttr d.src).length = msgLen.toNat ∧
      answer = ⟨listen, d.src, beBytes 2 bindingSuccess.toNat ++ (beBytes 2 msgLen.toNat ++
        (beBytes 4 magicCookie.toNat ++ (txId.bytes ++ mappedAttr d.src)))⟩ := by
  rw [Service.serviceStep, Option.map_eq_some_iff] at h
  obtain ⟨response, hresponse, rfl⟩ := h
  obtain ⟨msgLen, hlen, -⟩ := length_mappedAttr d.src
  unfold Service.handleBindingRequest at hresponse
  split at hresponse
  · cases hresponse
  · split at hresponse
    · cases hresponse
    · split at hresponse
      · cases hresponse
      · next hlength _ _ =>
          refine ⟨⟨slice (d.payload.take Service.recvBuffer) 8 20,
            slice_length (Nat.not_lt.mp hlength)⟩, msgLen, rfl, hlen, ?_⟩
          rw [← hlen]
          exact congrArg (Datagram.mk listen d.src) (Option.some.inj hresponse).symm

/-- What `discover` makes of an answer of the service. -/
theorem discovered_answer {listen : SocketAddr} {d answer : Datagram} {asked : Octets 12}
    (h : Service.serviceStep listen d = some answer) (hasked : Carries d.payload asked)
    (txId : Octets 12) :
    discovered txId answer.payload =
      if asked ≠ txId then .error .transactionMismatch else readBack d.src := by
  obtain ⟨carried, msgLen, hcarried, hlen, rfl⟩ := serviceStep_eq_some h
  obtain rfl : carried = asked := Octets.ext (hcarried.symm.trans hasked)
  obtain ⟨-, -, hle⟩ := length_mappedAttr d.src
  have htake : ∀ bytes : List UInt8, bytes.length ≤ 512 → bytes.take 512 = bytes :=
    fun bytes => List.take_of_length_le
  rw [discovered, htake _ (by
    simp only [List.length_append, beBytes_length, carried.length_bytes]
    omega), parseResponse_eq bindingSuccess carried hlen]
  simp only [ne_eq, not_true_eq_false, if_false]
  rw [← parse_mappedAttr d.src]
  cases parseXorMappedAddress (mappedAttr d.src) with
  | none => rfl
  | some addr => rfl

theorem carries_buildBindingRequest (txId : Octets 12) :
    Carries (buildBindingRequest txId) txId := by
  have htake : (buildBindingRequest txId).take 512 = buildBindingRequest txId :=
    List.take_of_length_le (by simp [buildBindingRequest])
  rw [Carries, htake, buildBindingRequest, ← List.append_assoc, ← List.append_assoc,
    ← List.append_nil (_ ++ txId.bytes)]
  exact slice_append (by simp) (by simp)

/-- An answer is not answered. -/
theorem serviceStep_answer {listen listen' : SocketAddr} {d answer : Datagram}
    (h : Service.serviceStep listen d = some answer) :
    Service.serviceStep listen' answer = none := by
  cases hnext : Service.serviceStep listen' answer with
  | none => rfl
  | some next =>
      rw [Service.serviceStep, Option.map_eq_some_iff] at hnext
      obtain ⟨response, hresponse, -⟩ := hnext
      obtain ⟨txId, msgLen, -, -, rfl⟩ := serviceStep_eq_some h
      have htype : ∀ rest : List UInt8,
          beU16 ((beBytes 2 bindingSuccess.toNat ++ rest).take Service.recvBuffer) 0 =
            bindingSuccess := by
        intro rest
        rw [List.take_append, List.take_of_length_le (by simp [Service.recvBuffer])]
        exact @beU16_append [] 0 rfl bindingSuccess _
      unfold Service.handleBindingRequest at hresponse
      rw [htype] at hresponse
      simp [Service.bindingRequest, bindingSuccess] at hresponse

/-- The transaction id that `parse_response` returns is the one that the message carries. -/
theorem carries_of_parseResponse {payload : List UInt8} {msgType : UInt16} {txId : Octets 12}
    {attrs : List UInt8} (h : parseResponse (payload.take 512) = .ok (msgType, txId, attrs)) :
    Carries payload txId := by
  unfold parseResponse at h
  split at h
  · cases h
  · dsimp only at h
    split at h
    · cases h
    · simp only [Except.ok.injEq, Prod.mk.injEq] at h
      exact congrArg Octets.bytes h.2.1

/-- A response that is accepted carries the transaction id of the call. -/
theorem carries_of_discovered {txId : Octets 12} {payload : List UInt8} {addr : SocketAddr}
    (h : discovered txId payload = .ok addr) : Carries payload txId := by
  rw [discovered] at h
  cases hparse : parseResponse (payload.take 512) with
  | error e => simp [hparse] at h
  | ok response =>
      obtain ⟨msgType, carried, attrs⟩ := response
      simp only [hparse] at h
      split at h
      · cases h
      · split at h
        · cases h
        · next htxId =>
            obtain rfl := not_not.mp htxId
            exact carries_of_parseResponse hparse

/-! ## The calls -/

/-- A call of `discover`: its transaction id, and the address from which the datagrams of
    its socket reach others. -/
structure DiscoverCall where
  txId : Octets 12
  seen : SocketAddr
  deriving DecidableEq

/-- Whether the service runs, the call whose socket is behind an address, the calls so far,
    what others sent, and what the calls returned. -/
structure Discovery where
  running : Bool
  waiting : SocketAddr → Option DiscoverCall
  calls : List DiscoverCall
  foreign : List Datagram
  returned : List (DiscoverCall × Except StunError SocketAddr)

/-- What happens apart from arrivals. -/
inductive DiscoveryAct where
  -- a call starts; what `send_to` answers
  | discover (call : DiscoverCall) (sent : Except IoError Nat)
  -- `recv_from` fails
  | failReceive (addr : SocketAddr) (error : IoError)
  -- the process of a call ends
  | abandon (addr : SocketAddr)
  -- someone else sends a datagram
  | foreign (d : Datagram)
  -- the service leaves its loop, or is started
  | stop
  | restart

namespace DiscoveryAct

/-- The call that starts. -/
def started : DiscoveryAct → List DiscoverCall
  | discover call _ => [call]
  | _ => []

/-- The datagram that someone else sends. -/
def forged : DiscoveryAct → List Datagram
  | foreign d => [d]
  | _ => []

end DiscoveryAct

/-- What the actions among the events bring along. -/
def actedOn {β : Type} (part : DiscoveryAct → List β) : NetEvent DiscoveryAct → List β
  | .act action => part action
  | _ => []

namespace Discovery

/-- The call behind an address returns. -/
def finish (s : Discovery) (addr : SocketAddr)
    (result : DiscoverCall → Except StunError SocketAddr) : Discovery :=
  match s.waiting addr with
  | none => s
  | some call => { s with
    waiting := Function.update s.waiting addr none
    returned := s.returned ++ [(call, result call)] }

/-- An action, and what it sends to the service at `listen`. -/
def act (listen : SocketAddr) (s : Discovery) : DiscoveryAct → Discovery × List Datagram
  | .discover call (.ok _) => ({ s with
      waiting := Function.update s.waiting call.seen (some call)
      calls := s.calls ++ [call] }, [⟨call.seen, listen, buildBindingRequest call.txId⟩])
  | .discover call (.error e) => ({ s with
      calls := s.calls ++ [call]
      returned := s.returned ++ [(call, .error (.io e))] }, [])
  | .failReceive addr e => (s.finish addr fun _ => .error (.io e), [])
  | .abandon addr => ({ s with waiting := Function.update s.waiting addr none }, [])
  | .foreign d => ({ s with foreign := s.foreign ++ [d] }, [d])
  | .stop => ({ s with running := false }, [])
  | .restart => ({ s with running := true }, [])

/-- A datagram arrives at the service or at an address of a socket. -/
def arrive (listen : SocketAddr) (s : Discovery) (d : Datagram) : Discovery × List Datagram :=
  if d.dst = listen then (s, if s.running then (Service.serviceStep listen d).toList else [])
  else (s.finish d.dst fun call => discovered call.txId d.payload, [])

/-- The service and the calls as nodes. -/
def nodes (listen : SocketAddr) : Nodes Discovery DiscoveryAct Datagram where
  act := act listen
  arrive := arrive listen

/-- A service that has just started. -/
def quiet : InFlight Discovery Datagram where
  nodes := ⟨true, fun _ => none, [], [], []⟩
  packets := []

end Discovery

/-! ## What holds in every run -/

/-- A datagram that a call, the service or someone else can have sent. -/
inductive FromSomeone (listen : SocketAddr) (calls : List DiscoverCall)
    (foreign : List Datagram) : Datagram → Prop
  | request {asked : DiscoverCall} (h : asked ∈ calls) :
    FromSomeone listen calls foreign ⟨asked.seen, listen, buildBindingRequest asked.txId⟩
  | answer {asked : DiscoverCall} (h : asked ∈ calls) {answer : Datagram}
      (hanswer : Service.serviceStep listen
        ⟨asked.seen, listen, buildBindingRequest asked.txId⟩ = some answer) :
    FromSomeone listen calls foreign answer
  | forged {d : Datagram} (h : d ∈ foreign) : FromSomeone listen calls foreign d
  | echo {d : Datagram} (h : d ∈ foreign) {answer : Datagram}
      (hanswer : Service.serviceStep listen d = some answer) :
    FromSomeone listen calls foreign answer

/-- What a call returns upon an answer of the service to a call from the same address. -/
def DiscoverCall.answered (call asked : DiscoverCall) : Except StunError SocketAddr :=
  if asked.txId ≠ call.txId then .error .transactionMismatch else readBack call.seen

/-- Why a call returned: its socket failed, or the service answered a call from the same
    address, or someone else sent a datagram, which the call accepts only with its own
    transaction id in it. -/
inductive Reason (calls : List DiscoverCall) (foreign : List Datagram) (call : DiscoverCall) :
    Except StunError SocketAddr → Prop
  | failed (error : IoError) : Reason calls foreign call (.error (.io error))
  | answered {asked : DiscoverCall} (h : asked ∈ calls) (hseen : asked.seen = call.seen) :
    Reason calls foreign call (call.answered asked)
  | forged {d : Datagram} (h : d ∈ foreign) {result : Except StunError SocketAddr}
      (hresult : ∀ addr, result = .ok addr → Carries d.payload call.txId) :
    Reason calls foreign call result

/-- A call that waits is behind its own address, and every result has its reason. -/
structure Accounted (s : Discovery) : Prop where
  waiting : ∀ addr call, s.waiting addr = some call → call.seen = addr ∧ call ∈ s.calls
  returned : ∀ call result, (call, result) ∈ s.returned →
    call ∈ s.calls ∧ Reason s.calls s.foreign call result

section
variable {listen : SocketAddr} {s : Discovery} {calls calls' : List DiscoverCall}
  {foreign foreign' : List Datagram} {call : DiscoverCall} {result : Except StunError SocketAddr}

theorem FromSomeone.mono {d : Datagram} (h : FromSomeone listen calls foreign d)
    (hcalls : calls ⊆ calls') (hforeign : foreign ⊆ foreign') :
    FromSomeone listen calls' foreign' d := by
  cases h with
  | request h => exact .request (hcalls h)
  | answer h hanswer => exact .answer (hcalls h) hanswer
  | forged h => exact .forged (hforeign h)
  | echo h hanswer => exact .echo (hforeign h) hanswer

theorem Reason.mono (h : Reason calls foreign call result) (hcalls : calls ⊆ calls')
    (hforeign : foreign ⊆ foreign') : Reason calls' foreign' call result := by
  cases h with
  | failed error => exact .failed error
  | answered h hseen => exact .answered (hcalls h) hseen
  | forged h hresult => exact .forged (hforeign h) hresult

theorem accounted_quiet : Accounted Discovery.quiet.nodes := by
  refine ⟨?_, ?_⟩
  · intro addr call h
    cases h
  · intro call result h
    cases h

/-- A call that returns with a reason. -/
theorem Accounted.finish (h : Accounted s) (addr : SocketAddr)
    {outcome : DiscoverCall → Except StunError SocketAddr}
    (hreason : ∀ call, call.seen = addr → Reason s.calls s.foreign call (outcome call)) :
    Accounted (s.finish addr outcome) := by
  rw [Discovery.finish]
  split
  · exact h
  · next waits hwaits =>
      obtain ⟨hseen, hcall⟩ := h.waiting addr waits hwaits
      refine ⟨?_, ?_⟩
      · intro other call hother
        dsimp only at hother
        by_cases hsame : other = addr
        · subst hsame
          rw [Function.update_self] at hother
          cases hother
        · rw [Function.update_of_ne hsame] at hother
          exact h.waiting other call hother
      · intro call result hmem
        rcases List.mem_append.mp hmem with hold | hnew
        · exact h.returned call result hold
        · simp only [List.mem_singleton, Prod.mk.injEq] at hnew
          obtain ⟨rfl, rfl⟩ := hnew
          exact ⟨hcall, hreason call hseen⟩

theorem finish_calls (s : Discovery) (addr : SocketAddr)
    (outcome : DiscoverCall → Except StunError SocketAddr) :
    (s.finish addr outcome).calls = s.calls ∧ (s.finish addr outcome).foreign = s.foreign := by
  rw [Discovery.finish]
  split
  · exact ⟨rfl, rfl⟩
  · exact ⟨rfl, rfl⟩

/-- What a datagram that reaches a socket makes a call return has a reason. -/
theorem reason_of_arrival {d : Datagram} (h : FromSomeone listen calls foreign d)
    (hd : d.dst ≠ listen) (hseen : call.seen = d.dst) :
    Reason calls foreign call (discovered call.txId d.payload) := by
  cases h with
  | request h => exact absurd rfl hd
  | @answer asked h answer hanswer =>
      obtain ⟨_, _, -, -, hcontent⟩ := serviceStep_eq_some hanswer
      have hback : asked.seen = call.seen := by rw [hseen, hcontent]
      rw [discovered_answer hanswer (carries_buildBindingRequest asked.txId), hback]
      exact .answered h hback
  | forged h => exact .forged h fun addr haddr => carries_of_discovered haddr
  | @echo d h answer hanswer =>
      refine .forged h fun addr haddr => ?_
      obtain ⟨carried, -, hcarried, -, -⟩ := serviceStep_eq_some hanswer
      rw [discovered_answer hanswer hcarried] at haddr
      split at haddr
      · cases haddr
      · next htxId =>
          rw [← not_not.mp htxId]
          exact hcarried

theorem accounted_act (h : Accounted s) (action : DiscoveryAct) :
    Accounted (Discovery.act listen s action).1 := by
  cases action with
  | discover call sent =>
      have hgrows : s.calls ⊆ s.calls ++ [call] := List.subset_append_left _ _
      cases sent with
      | ok n =>
          refine ⟨?_, ?_⟩
          · intro addr waits hwaits
            dsimp only [Discovery.act] at hwaits ⊢
            by_cases hsame : addr = call.seen
            · subst hsame
              rw [Function.update_self] at hwaits
              obtain rfl := Option.some.inj hwaits
              exact ⟨rfl, by simp⟩
            · rw [Function.update_of_ne hsame] at hwaits
              obtain ⟨hseen, hcall⟩ := h.waiting addr waits hwaits
              exact ⟨hseen, hgrows hcall⟩
          · intro earlier result hmem
            obtain ⟨hcall, hreason⟩ := h.returned earlier result hmem
            exact ⟨hgrows hcall, hreason.mono hgrows (List.Subset.refl _)⟩
      | error e =>
          refine ⟨?_, ?_⟩
          · intro addr waits hwaits
            obtain ⟨hseen, hcall⟩ := h.waiting addr waits hwaits
            exact ⟨hseen, hgrows hcall⟩
          · intro earlier result hmem
            rcases List.mem_append.mp hmem with hold | hnew
            · obtain ⟨hcall, hreason⟩ := h.returned earlier result hold
              exact ⟨hgrows hcall, hreason.mono hgrows (List.Subset.refl _)⟩
            · simp only [List.mem_singleton, Prod.mk.injEq] at hnew
              obtain ⟨rfl, rfl⟩ := hnew
              exact ⟨by simp [Discovery.act], .failed e⟩
  | failReceive addr e => exact h.finish addr fun call _ => .failed e
  | abandon addr =>
      refine ⟨?_, h.returned⟩
      intro other waits hwaits
      dsimp only [Discovery.act] at hwaits ⊢
      by_cases hsame : other = addr
      · subst hsame
        rw [Function.update_self] at hwaits
        cases hwaits
      · rw [Function.update_of_ne hsame] at hwaits
        exact h.waiting other waits hwaits
  | foreign d =>
      refine ⟨h.waiting, ?_⟩
      intro call result hmem
      obtain ⟨hcall, hreason⟩ := h.returned call result hmem
      exact ⟨hcall, hreason.mono (List.Subset.refl _) (List.subset_append_left _ _)⟩
  | stop => exact ⟨h.waiting, h.returned⟩
  | restart => exact ⟨h.waiting, h.returned⟩

/-- What an action sends. -/
theorem fromSomeone_act (listen : SocketAddr) (s : Discovery) (action : DiscoveryAct) :
    ∀ d ∈ (Discovery.act listen s action).2,
      FromSomeone listen (Discovery.act listen s action).1.calls
        (Discovery.act listen s action).1.foreign d := by
  intro d hd
  cases action with
  | discover call sent =>
      cases sent with
      | ok n =>
          rw [List.mem_singleton.mp hd]
          exact .request (by simp [Discovery.act])
      | error e => cases hd
  | foreign d' =>
      rw [List.mem_singleton.mp hd]
      exact .forged (by simp [Discovery.act])
  | failReceive addr e => cases hd
  | abandon addr => cases hd
  | stop => cases hd
  | restart => cases hd

/-- The service answers to requests, and its answers are answered by nobody. -/
theorem fromSomeone_answer {d answer : Datagram} (h : FromSomeone listen calls foreign d)
    (hanswer : Service.serviceStep listen d = some answer) :
    FromSomeone listen calls foreign answer := by
  cases h with
  | request h => exact .answer h hanswer
  | answer h hearlier =>
      rw [serviceStep_answer hearlier] at hanswer
      cases hanswer
  | forged h => exact .echo h hanswer
  | echo h hearlier =>
      rw [serviceStep_answer hearlier] at hanswer
      cases hanswer

theorem accounted_arrive (h : Accounted s) {d : Datagram}
    (hd : FromSomeone listen s.calls s.foreign d) :
    Accounted (Discovery.arrive listen s d).1 ∧
      ∀ d' ∈ (Discovery.arrive listen s d).2,
        FromSomeone listen (Discovery.arrive listen s d).1.calls
          (Discovery.arrive listen s d).1.foreign d' := by
  rw [Discovery.arrive]
  split
  · refine ⟨h, ?_⟩
    intro d' hd'
    split at hd'
    · exact fromSomeone_answer hd (Option.mem_toList.mp hd')
    · cases hd'
  · next hdst =>
      refine ⟨h.finish d.dst fun call hseen => reason_of_arrival hd hdst hseen, ?_⟩
      intro d' hd'
      cases hd'

/-- Arrivals add neither calls nor datagrams of others. -/
theorem arrive_calls (listen : SocketAddr) (s : Discovery) (d : Datagram) :
    (Discovery.arrive listen s d).1.calls = s.calls ∧
      (Discovery.arrive listen s d).1.foreign = s.foreign := by
  rw [Discovery.arrive]
  split
  · exact ⟨rfl, rfl⟩
  · exact finish_calls s d.dst _

/-- The calls that an action starts and the datagrams that it sends for others. -/
theorem act_calls (listen : SocketAddr) (s : Discovery) (action : DiscoveryAct) :
    (Discovery.act listen s action).1.calls = s.calls ++ action.started ∧
      (Discovery.act listen s action).1.foreign = s.foreign ++ action.forged := by
  cases action with
  | discover call sent =>
      cases sent <;> simp [Discovery.act, DiscoveryAct.started, DiscoveryAct.forged]
  | failReceive addr e =>
      simp [Discovery.act, finish_calls, DiscoveryAct.started, DiscoveryAct.forged]
  | _ => simp [Discovery.act, DiscoveryAct.started, DiscoveryAct.forged]

theorem preserves_discovery (listen : SocketAddr) :
    (Discovery.nodes listen).Preserves Accounted
      fun s d => FromSomeone listen s.calls s.foreign d where
  act s action hs := ⟨accounted_act hs action, fromSomeone_act listen s action⟩
  arrive s d hs hd := accounted_arrive hs hd
  stays_act s action d hd := by
    obtain ⟨hcalls, hforeign⟩ := act_calls listen s action
    refine hd.mono ?_ ?_
    · exact hcalls ▸ List.subset_append_left _ _
    · exact hforeign ▸ List.subset_append_left _ _
  stays_arrive s d d' hd' := by
    obtain ⟨hcalls, hforeign⟩ := arrive_calls listen s d
    refine hd'.mono ?_ ?_
    · exact hcalls ▸ List.Subset.refl _
    · exact hforeign ▸ List.Subset.refl _

/-- One event adds what it starts and what it sends for others to the records. -/
theorem records_step (listen : SocketAddr) (net : InFlight Discovery Datagram)
    (event : NetEvent DiscoveryAct) :
    ((Discovery.nodes listen).step net event).nodes.calls =
        net.nodes.calls ++ [event].flatMap (actedOn DiscoveryAct.started) ∧
      ((Discovery.nodes listen).step net event).nodes.foreign =
        net.nodes.foreign ++ [event].flatMap (actedOn DiscoveryAct.forged) := by
  cases event with
  | act action =>
      simpa [Nodes.step, Discovery.nodes, actedOn] using act_calls listen net.nodes action
  | arrive k =>
      cases hk : net.packets[k]? with
      | none => simp [Nodes.step_arrive_none _ hk, actedOn]
      | some d =>
          rw [Nodes.step_arrive_some _ hk]
          simpa [Discovery.nodes, actedOn] using arrive_calls listen net.nodes d
  | drop k => simp [Nodes.step, actedOn]
  | duplicate k => simp [Nodes.step, actedOn]

theorem records_run (listen : SocketAddr) (net : InFlight Discovery Datagram)
    (events : List (NetEvent DiscoveryAct)) :
    (run (Discovery.nodes listen).step net events).nodes.calls =
        net.nodes.calls ++ events.flatMap (actedOn DiscoveryAct.started) ∧
      (run (Discovery.nodes listen).step net events).nodes.foreign =
        net.nodes.foreign ++ events.flatMap (actedOn DiscoveryAct.forged) := by
  induction events generalizing net with
  | nil => simp
  | cons event events ih =>
      obtain ⟨hcalls, hforeign⟩ := ih ((Discovery.nodes listen).step net event)
      obtain ⟨hcall, hforged⟩ := records_step listen net event
      rw [run_cons, hcalls, hforeign, hcall, hforged]
      simp [List.append_assoc]

theorem call_of_records {events : List (NetEvent DiscoveryAct)}
    (h : call ∈ events.flatMap (actedOn DiscoveryAct.started)) :
    ∃ sent, .act (.discover call sent) ∈ events := by
  obtain ⟨event, hevent, hcall⟩ := List.mem_flatMap.mp h
  cases event with
  | act action =>
      cases action with
      | discover started sent =>
          obtain rfl := List.mem_singleton.mp hcall
          exact ⟨sent, hevent⟩
      | _ => cases hcall
  | _ => cases hcall

theorem forged_of_records {events : List (NetEvent DiscoveryAct)} {d : Datagram}
    (h : d ∈ events.flatMap (actedOn DiscoveryAct.forged)) : .act (.foreign d) ∈ events := by
  obtain ⟨event, hevent, hd⟩ := List.mem_flatMap.mp h
  cases event with
  | act action =>
      cases action with
      | foreign forged =>
          obtain rfl := List.mem_singleton.mp hd
          exact hevent
      | _ => cases hd
  | _ => cases hd

/-- The only address that an answer of the service makes a call return is its own. -/
theorem answered_eq_ok {asked : DiscoverCall} {addr : SocketAddr}
    (h : call.answered asked = .ok addr) : addr = call.seen := by
  rw [DiscoverCall.answered] at h
  split at h
  · cases h
  · rw [readBack] at h
    split at h
    · exact (Except.ok.inj h).symm
    · cases h

/-- Whatever happened before, a call behind an IPv4 address returns that address if its
    request and the answer to it are the next to arrive. -/
theorem discovery_returns (listen : SocketAddr) (net : InFlight Discovery Datagram)
    (hrunning : net.nodes.running = true) (txId : Octets 12) (ip : Ipv4Addr) (port : UInt16)
    (n : Nat) (hlisten : (⟨.v4 ip, port⟩ : SocketAddr) ≠ listen) :
    (run (Discovery.nodes listen).step net [.act (.discover ⟨txId, ⟨.v4 ip, port⟩⟩ (.ok n)),
        .arrive net.packets.length, .arrive net.packets.length]).nodes.returned =
      net.nodes.returned ++ [(⟨txId, ⟨.v4 ip, port⟩⟩, .ok ⟨.v4 ip, port⟩)] := by
  obtain ⟨answer, hanswer, hdst, hdiscovered⟩ := discovered_serviceStep listen ip port txId
  have hlast : ∀ d : Datagram, (net.packets ++ [d])[net.packets.length]? = some d ∧
      (net.packets ++ [d]).eraseIdx net.packets.length = net.packets := by
    intro d
    simp [List.eraseIdx_append_of_length_le]
  simp only [run_cons, run_nil, Nodes.step, Discovery.nodes, Discovery.act, hlast,
    Discovery.arrive, hrunning, if_true, hanswer, Option.toList_some, hdst, if_neg hlisten,
    Discovery.finish, Function.update_self, hdiscovered]

/-- In every run, with any losses, duplicates, delays and reorderings, any restarts of the
    service and anything that others send: a call that returned had been started, and an
    address that it returned is the one from which its request reached the service, unless
    someone else sent a datagram with its transaction id. Where nobody else sends, a call
    fails only with an error of its socket, or with what the service answered to a call from
    the same address: a mismatch if that had another transaction id, and no address if the
    service saw an IPv6 address. -/
theorem discovery_safe (listen : SocketAddr) (events : List (NetEvent DiscoveryAct))
    (call : DiscoverCall) (result : Except StunError SocketAddr) :
    (call, result) ∈ (run (Discovery.nodes listen).step Discovery.quiet events).nodes.returned →
      (∃ sent, .act (.discover call sent) ∈ events) ∧
      (∀ addr, result = .ok addr → addr = call.seen ∨
        ∃ d, .act (.foreign d) ∈ events ∧ Carries d.payload call.txId) ∧
      ((∀ d, .act (.foreign d) ∉ events) → (∃ e, result = .error (.io e)) ∨
        ∃ asked sent, .act (.discover asked sent) ∈ events ∧ asked.seen = call.seen ∧
          result = call.answered asked) := by
  intro hreturned
  have haccounted := ((preserves_discovery listen).run
    ⟨accounted_quiet, fun _ hd => absurd hd List.not_mem_nil⟩ events).1
  obtain ⟨hcall, hreason⟩ := haccounted.returned call result hreturned
  obtain ⟨hcalls, hforeign⟩ := records_run listen Discovery.quiet events
  rw [hcalls] at hcall hreason
  rw [hforeign] at hreason
  refine ⟨call_of_records hcall, ?_⟩
  cases hreason with
  | failed e => exact ⟨fun _ h => (nomatch h), fun _ => Or.inl ⟨e, rfl⟩⟩
  | answered hasked hseen =>
      refine ⟨fun addr h => Or.inl (answered_eq_ok h), fun _ => Or.inr ?_⟩
      obtain ⟨sent, hsent⟩ := call_of_records hasked
      exact ⟨_, sent, hsent, hseen, rfl⟩
  | forged hd hresult =>
      have hsent := forged_of_records hd
      exact ⟨fun addr h => Or.inr ⟨_, hsent, hresult addr h⟩, fun h => absurd hsent (h _)⟩

/-- A call behind a documentation address. -/
def documentationCall : DiscoverCall := ⟨.replicate 12 7, ⟨.v4 ⟨203, 0, 113, 5⟩, 40000⟩⟩

/-- The call, and its request and the answer arrive. -/
def undisturbed : List (NetEvent DiscoveryAct) :=
  [.act (.discover documentationCall (.ok 20)), .arrive 0, .arrive 0]

theorem undisturbed_safe :
    let s := (run (Discovery.nodes (.localhost 3478)).step Discovery.quiet undisturbed).nodes
    (documentationCall, .ok documentationCall.seen) ∈ s.returned ∧
      ∃ sent, .act (.discover documentationCall sent) ∈ undisturbed := by
  intro s
  have hreturned : (documentationCall, .ok documentationCall.seen) ∈ s.returned := by
    have hrun := discovery_returns (.localhost 3478) Discovery.quiet rfl (.replicate 12 7)
      ⟨203, 0, 113, 5⟩ 40000 20 (by decide)
    have hreached : s.returned = _ := hrun
    rw [hreached]
    exact List.mem_append_right _ List.mem_cons_self
  exact ⟨hreturned, (discovery_safe (.localhost 3478) undisturbed documentationCall
    (.ok documentationCall.seen) hreturned).1⟩

end

end ConnectAlso.System
