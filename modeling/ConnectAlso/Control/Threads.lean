import ConnectAlso.Control.Sound

/-!
# Requests in progress

What the program of a request looks like between two of its statements, while other
requests issue theirs. A registration goes through named stages, each with the address
it has by then; every other request issues one or two statements that the request
determines. Later modules take a step of an interleaving apart with these facts and do
not unfold the handlers again.
-/

namespace ConnectAlso.Control
open Misc Program

/-! ## The stages of a registration -/

namespace Registration

variable (state : AppState) (req : RegisterRequest) (deviceId : Uuid) (now : Int)

/-- The device row is about to be inserted. -/
def inserting (ip : Ipv4Addr) (status : DeviceStatus) : Sql Reply :=
  .call (.insertDevice (newRecord req deviceId now ip status).toRow)
    fun (rows : Except DbError Nat) =>
      match rows with
      | .error _ => .done (.registered (.error .internalServerError))
      | .ok _ => .done (.registered (.ok {
          deviceId, ipv4 := ip.toString, network := state.networkCidr, status := status.text }))

/-- The devices are about to be counted. -/
def counting (ip : Ipv4Addr) : Sql Reply :=
  .call .countDevices fun (count : Nat) => inserting state req deviceId now ip (initialStatus count)

/-- The address is about to go into the pool. -/
def reserving (ip : Ipv4Addr) : Sql Reply :=
  .call (.insertIpPool ip.toString) fun _ => counting state req deviceId now ip

/-- The pool is about to be counted. -/
def allocating : Sql Reply :=
  .call .countIpPool fun (used : Nat) =>
    if state.ipMaxOffset < UInt32.ofNat used then .done (.registered (.error .conflict))
    else reserving state req deviceId now (Ipv4Addr.ofU32 (state.ipBase + UInt32.ofNat used))

/-- The pool is about to be searched for a free row. -/
def choosing : Sql Reply :=
  .call .selectFreeIp fun (row : Option IpPoolRow) =>
    match row with
    | some r => .call (.markAllocated r.ipv4) fun _ =>
      match Ipv4Addr.parse r.ipv4 with
      | none => .done (.registered (.error .conflict))
      | some ip => counting state req deviceId now ip
    | none => allocating state req deviceId now

/-- The response for a key that has a device. -/
def knownResponse (existing : DeviceRow) : RegisterResponse where
  deviceId := existing.deviceId
  ipv4 := existing.toRecord.ipv4.toString
  network := state.networkCidr
  status := existing.toRecord.status.text

/-- The key is about to be looked up. -/
def lookingUp : Sql Reply :=
  .call (.selectByPublicKey req.publicKey) fun (row : Option DeviceRow) =>
    match row with
    | some existing => .done (.registered (.ok (knownResponse state existing)))
    | none => choosing state req deviceId now

theorem registerAt_bind (ip : Ipv4Addr) :
    (registerAt state req deviceId now ip >>= fun result => Program.done (Reply.registered result)) =
      counting state req deviceId now ip := by
  refine congrArg (call (S := statements) Statement.countDevices) (funext fun count => ?_)
  refine congrArg (call (S := statements) (Statement.insertDevice _)) (funext fun rows => ?_)
  cases rows with
  | error e => rfl
  | ok n => rfl

/-- A registration starts with the lookup. -/
theorem program_register :
    (Request.register req deviceId now).program state = lookingUp state req deviceId now := by
  show (handleRegister state req deviceId now >>= fun r => Program.done (Reply.registered r)) = _
  rw [handleRegister_eq]
  refine congrArg (call (S := statements) (Statement.selectByPublicKey _)) (funext fun row => ?_)
  cases row with
  | some existing => rfl
  | none =>
      rw [allocateIp_eq]
      refine congrArg (call (S := statements) Statement.selectFreeIp) (funext fun row => ?_)
      cases row with
      | some r =>
          refine congrArg (call (S := statements) (Statement.markAllocated _)) (funext fun _ => ?_)
          cases Ipv4Addr.parse r.ipv4 with
          | none => rfl
          | some ip => exact registerAt_bind state req deviceId now ip
      | none =>
          refine congrArg (call (S := statements) Statement.countIpPool) (funext fun used => ?_)
          by_cases hfull : state.ipMaxOffset < UInt32.ofNat used
          · simp only [if_pos hfull]
            rfl
          · simp only [if_neg hfull]
            exact congrArg (call (S := statements) (Statement.insertIpPool _))
              (funext fun _ => registerAt_bind state req deviceId now _)

/-- Where a registration can be between two statements, as long as no pool row is free. -/
inductive Stage : Sql Reply → Prop
  | lookingUp : Stage (lookingUp state req deviceId now)
  | choosing : Stage (choosing state req deviceId now)
  | allocating : Stage (allocating state req deviceId now)
  | reserving (ip : Ipv4Addr) : Stage (reserving state req deviceId now ip)
  | counting (ip : Ipv4Addr) : Stage (counting state req deviceId now ip)
  | inserting (ip : Ipv4Addr) (status : DeviceStatus) :
    Stage (inserting state req deviceId now ip status)
  | done (reply : Reply) : Stage (.done reply)

variable {state req deviceId now}

/-- A registration goes from stage to stage. -/
theorem Stage.next {op : Statement} {next : op.Answer → Sql Reply}
    (h : Stage state req deviceId now (.call op next)) {answer : op.Answer}
    (hanswer : op.SoundAnswer answer) : Stage state req deviceId now (next answer) := by
  cases h with
  | lookingUp =>
      cases answer with
      | none => exact .choosing
      | some existing => exact .done _
  | choosing =>
      obtain rfl : answer = none := hanswer
      exact .allocating
  | allocating =>
      dsimp only
      split
      · exact .done _
      · exact .reserving _
  | reserving ip => exact .counting ip
  | counting ip => exact .inserting ip _
  | inserting ip status =>
      cases answer with
      | error e => exact .done _
      | ok n => exact .done _

end Registration

/-! ## The statements of other requests -/

/-- The statements that a request other than a registration issues. -/
def Request.Issues : Request → Statement → Prop
  | register _ _ _, _ => False
  | approve deviceId, op => op = .approvePending deviceId
  | revoke deviceId, op => op = .freeIpOf deviceId ∨ op = .revokeApproved deviceId
  | unregister deviceId, op => op = .freeIpOf deviceId ∨ op = .deleteDevice deviceId
  | heartbeat deviceId now, op => op = .updateLastSeen now deviceId
  | purgeStale _ now timeoutSecs, op =>
    op = .freeIpsOfStale (wrapI64 (now.toInt - timeoutSecs.toInt)) ∨
    op = .deleteStale (wrapI64 (now.toInt - timeoutSecs.toInt))

namespace Request

@[simp] theorem not_issues_insertDevice (request : Request) (row : DeviceRow) :
    ¬ request.Issues (.insertDevice row) := by
  cases request <;> simp [Issues]

@[simp] theorem not_issues_countDevices (request : Request) : ¬ request.Issues .countDevices := by
  cases request <;> simp [Issues]

@[simp] theorem not_issues_insertIpPool (request : Request) (ipv4 : String) :
    ¬ request.Issues (.insertIpPool ipv4) := by
  cases request <;> simp [Issues]

@[simp] theorem issues_revokeApproved_iff {request : Request} {deviceId : Uuid} :
    request.Issues (.revokeApproved deviceId) ↔ request = .revoke deviceId := by
  cases request <;> simp [Issues, eq_comm]

end Request

/-- What is left of the program of a request in progress. -/
def Request.InProgress (state : AppState) : Request → Sql Reply → Prop
  | register req deviceId now, p => Registration.Stage state req deviceId now p
  | request, p => p.Guarantees (fun _ _ => True) request.Issues (fun _ => True)

theorem inProgress_program (state : AppState) (request : Request) :
    request.InProgress state (request.program state) := by
  cases request with
  | register req deviceId now =>
      rw [Registration.program_register]
      exact .lookingUp
  | approve | heartbeat => exact ⟨rfl, fun _ _ => trivial⟩
  | revoke | unregister =>
      refine ⟨Or.inl rfl, fun freed _ => ?_⟩
      cases freed with
      | error e => trivial
      | ok n => exact ⟨Or.inr rfl, fun _ _ => trivial⟩
  | purgeStale overflowChecks now timeoutSecs =>
      rcases program_purgeStale_cases state overflowChecks now timeoutSecs with
        ⟨-, -, hprogram⟩ | ⟨-, hprogram⟩
      · rw [hprogram]
        trivial
      · rw [hprogram]
        refine ⟨Or.inl rfl, fun freed _ => ?_⟩
        cases freed with
        | error e => trivial
        | ok n => exact ⟨Or.inr rfl, fun _ _ => trivial⟩

theorem Request.InProgress.next {state : AppState} {request : Request} {op : Statement}
    {next : op.Answer → Sql Reply} (h : request.InProgress state (.call op next))
    {answer : op.Answer} (hanswer : op.SoundAnswer answer) :
    request.InProgress state (next answer) := by
  cases request with
  | register req deviceId now => exact Registration.Stage.next h hanswer
  | _ => exact h.2 answer trivial

/-- The next statement of a request in progress is one that it issues, or the request is a
    registration. -/
theorem Request.InProgress.issues {state : AppState} {request : Request} {op : Statement}
    {next : op.Answer → Sql Reply} (h : request.InProgress state (.call op next)) :
    (∃ req deviceId now, request = .register req deviceId now) ∨ request.Issues op := by
  cases request with
  | register req deviceId now => exact Or.inl ⟨req, deviceId, now, rfl⟩
  | _ => exact Or.inr h.1

/-! ## Interleavings -/

/-- The requests are being served: each thread is somewhere in the program of its
    request, and the database is sound. -/
structure InService {ι : Type} (state : AppState) (requests : ι → Request)
    (pool : Pool statements ι Reply Db) : Prop where
  sound : Sound pool.state
  wellFormed : ∀ i, (pool.threads i).Guarantees Statement.SoundAnswer Statement.WellFormed
    (fun _ => True)
  threads : ∀ i, (requests i).InProgress state (pool.threads i)

theorem inService_serving {ι : Type} (state : AppState) (requests : ι → Request) {db : Db}
    (h : Sound db) : InService state requests (serving state requests db) :=
  ⟨h, fun i => program_guarantees state (requests i), fun i => inProgress_program state (requests i)⟩

theorem inService_step {ι : Type} [DecidableEq ι] {state : AppState} {requests : ι → Request}
    (pool : Pool statements ι Reply Db) (i : ι) (h : InService state requests pool) :
    InService state requests (pool.step handle i) := by
  have hstep : Sound (pool.step handle i).state ∧ ∀ j,
      ((pool.step handle i).threads j).Guarantees Statement.SoundAnswer Statement.WellFormed
        (fun _ => True) ∧
      (requests j).InProgress state ((pool.step handle i).threads j) := by
    refine @Pool.step_invariant _ _ _ _ _ handle Sound
      (fun j (p : Sql Reply) _ =>
        p.Guarantees Statement.SoundAnswer Statement.WellFormed (fun _ => True) ∧
          (requests j).InProgress state p)
      ?_ ?_ ?_ pool i ⟨h.sound, fun j => ⟨h.wellFormed j, h.threads j⟩⟩
    · intro i op next db hdb hthread
      exact sound_handle hthread.1.1 hdb
    · intro i op next db hdb hthread
      have hanswer : op.SoundAnswer (handle op db).1 := soundAnswer_handle op hdb
      exact ⟨hthread.1.2 _ hanswer, hthread.2.next hanswer⟩
    · intro i j op next p db _ _ _ hthread
      exact hthread
  exact ⟨hstep.1, fun j => (hstep.2 j).1, fun j => (hstep.2 j).2⟩

end ConnectAlso.Control
