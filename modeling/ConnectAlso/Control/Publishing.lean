import ConnectAlso.Control.Candidates

/-!
# Concurrent publications

Any number of publications and lookups run side by side, their statements interleaved in
any order. A publication that is under way has put a first part of its addresses into the
table; nothing that the others do takes an address out again. Hence no publication is
lost, whatever the schedule.
-/

namespace ConnectAlso.Control.Candidates
open Misc Program

/-- A publication with the rest of its addresses before it. -/
def publishing (deviceId : Uuid) (rest : List (String × Int)) : CandidateSql CandidateReply :=
  handlePublishCandidates deviceId rest >>= fun result => .done (.published result)

theorem publishing_nil (deviceId : Uuid) :
    publishing deviceId [] = .done (.published (.ok ())) := rfl

theorem publishing_cons (deviceId : Uuid) (address : String) (now : Int)
    (rest : List (String × Int)) :
    publishing deviceId ((address, now) :: rest) =
      @Program.call candidateStatements _ (.upsertCandidate deviceId address now)
        fun (rows : Except DbError Nat) =>
          match rows with
          | .error _ => .done (.published (.error .internalServerError))
          | .ok _ => publishing deviceId rest := by
  refine congrArg (@Program.call candidateStatements _ _) (funext fun rows => ?_)
  cases rows with
  | error e => rfl
  | ok n => rfl

/-- How far a request can be while the table is `t`. -/
inductive InProgress (t : CandidateTable) : CandidateRequest → CandidateSql CandidateReply → Prop
  | publishing {deviceId : Uuid} {stored : List (String × Int)} (rest : List (String × Int))
      (h : ∀ candidate ∈ stored, (bookOf t deviceId candidate.1).isSome) :
    InProgress t (.publish deviceId (stored ++ rest)) (publishing deviceId rest)
  | getting (deviceId : Uuid) :
    InProgress t (.get deviceId) (CandidateRequest.get deviceId).program
  | listed {deviceId : Uuid} {listed : List String} (hnodup : listed.Nodup)
      (h : ∀ address ∈ listed, (bookOf t deviceId address).isSome) :
    InProgress t (.get deviceId) (.done (.listed (.ok listed)))

/-- The request publishes the address for the device, at this time. -/
def CandidateRequest.Publishes (request : CandidateRequest) (deviceId : Uuid) (address : String)
    (time : Int) : Prop :=
  ∃ candidates, request = .publish deviceId candidates ∧ (address, time) ∈ candidates

/-- The table changes as by requests: no address goes, and one that comes or is renewed is
    published by `request`. -/
structure ChangedBy (request : CandidateRequest) (before after : CandidateTable) : Prop where
  keeps : ∀ deviceId address, (bookOf before deviceId address).isSome →
    (bookOf after deviceId address).isSome
  adds : ∀ deviceId address time, bookOf after deviceId address = some time →
    bookOf before deviceId address = some time ∨ request.Publishes deviceId address time

theorem ChangedBy.refl (request : CandidateRequest) (t : CandidateTable) :
    ChangedBy request t t :=
  ⟨fun _ _ h => h, fun _ _ _ h => Or.inl h⟩

/-- What a request has got done is not undone by another one. -/
theorem InProgress.mono {request other : CandidateRequest} {p : CandidateSql CandidateReply}
    {before after : CandidateTable} (h : InProgress before request p)
    (hchange : ChangedBy other before after) : InProgress after request p := by
  cases h with
  | publishing rest hstored =>
      exact .publishing rest fun candidate hmem => hchange.keeps _ _ (hstored candidate hmem)
  | getting deviceId => exact .getting deviceId
  | listed hnodup hlisted =>
      exact .listed hnodup fun address hmem => hchange.keeps _ _ (hlisted address hmem)

/-- An upsert on the book. -/
theorem bookOf_upsert (order : RowOrder) (t : CandidateTable) (deviceId : Uuid) (address : String)
    (now : Int) (id : Uuid) (addr : String) :
    bookOf (handle order (.upsertCandidate deviceId address now) t).2 id addr =
      if id = deviceId ∧ addr = address then some now else bookOf t id addr := by
  rw [bookOf_handle, Book.step]
  by_cases hid : id = deviceId
  · subst hid
    by_cases haddr : addr = address
    · simp [haddr]
    · simp [haddr]
  · simp [hid]

/-- The next statement of a request. -/
theorem InProgress.advance {request : CandidateRequest} {p : CandidateSql CandidateReply}
    {t : CandidateTable} (h : InProgress t request p) (order : RowOrder) :
    InProgress (p.advance (handle order) t).2 request (p.advance (handle order) t).1 ∧
      ChangedBy request t (p.advance (handle order) t).2 := by
  cases h with
  | @publishing deviceId stored rest hstored =>
      cases rest with
      | nil => exact ⟨.publishing [] hstored, .refl _ _⟩
      | cons candidate rest =>
          obtain ⟨address, now⟩ := candidate
          rw [publishing_cons]
          have hbook := bookOf_upsert order t deviceId address now
          have hchange : ChangedBy (.publish deviceId (stored ++ (address, now) :: rest)) t
              (handle order (.upsertCandidate deviceId address now) t).2 := by
            refine ⟨?_, ?_⟩
            · intro id addr hsome
              rw [hbook]
              split
              · rfl
              · exact hsome
            · intro id addr time htime
              rw [hbook] at htime
              split at htime
              · rename_i hsame
                obtain ⟨rfl, rfl⟩ := hsame
                obtain rfl := Option.some.inj htime
                exact Or.inr ⟨_, rfl, by simp⟩
              · exact Or.inl htime
          refine ⟨?_, hchange⟩
          -- the address just stored joins those stored before
          have hsplit : stored ++ (address, now) :: rest = (stored ++ [(address, now)]) ++ rest := by
            simp
          rw [hsplit]
          refine .publishing rest ?_
          intro candidate hmem
          rcases List.mem_append.mp hmem with hbefore | hlast
          · exact hchange.keeps _ _ (hstored candidate hbefore)
          · rw [List.mem_singleton.mp hlast]
            show (bookOf (handle order (.upsertCandidate deviceId address now) t).2 deviceId
              address).isSome = true
            rw [hbook, if_pos ⟨rfl, rfl⟩]
            rfl
  | getting deviceId =>
      obtain ⟨listed, hexec, hlists⟩ := exec_getCandidates order t deviceId
      have hanswer : (handle order (.selectAddresses deviceId) t).1 = .ok listed :=
        congrArg Prod.fst hexec
      refine ⟨?_, .refl _ _⟩
      show InProgress t _ (match (handle order (.selectAddresses deviceId) t).1 with
        | .error _ => (.done (.listed (.error .notFound)) : CandidateSql CandidateReply)
        | .ok candidates => .done (.listed (.ok candidates)))
      rw [hanswer]
      exact .listed hlists.nodup fun address hmem => (hlists.mem_iff address).mp hmem
  | listed hnodup hlisted => exact ⟨.listed hnodup hlisted, .refl _ _⟩

/-! ## Side by side -/

section
variable {ι : Type}

/-- The requests under way, and the table that was there when they started. -/
structure InService (requests : ι → CandidateRequest) (start : CandidateTable)
    (pool : Pool candidateStatements ι CandidateReply CandidateTable) : Prop where
  threads : ∀ i, InProgress pool.state (requests i) (pool.threads i)
  keeps : ∀ deviceId address, (bookOf start deviceId address).isSome →
    (bookOf pool.state deviceId address).isSome
  adds : ∀ deviceId address time, bookOf pool.state deviceId address = some time →
    bookOf start deviceId address = some time ∨
      ∃ i, (requests i).Publishes deviceId address time

/-- The requests as they start. -/
def serving (requests : ι → CandidateRequest) (start : CandidateTable) :
    Pool candidateStatements ι CandidateReply CandidateTable :=
  ⟨fun i => (requests i).program, start⟩

variable {requests : ι → CandidateRequest} {start : CandidateTable}

theorem inService_serving : InService requests start (serving requests start) := by
  refine ⟨?_, fun _ _ h => h, fun _ _ _ h => Or.inl h⟩
  intro i
  show InProgress start (requests i) (requests i).program
  cases requests i with
  | publish deviceId candidates =>
      show InProgress start (.publish deviceId ([] ++ candidates)) (publishing deviceId candidates)
      exact .publishing candidates fun _ h => absurd h List.not_mem_nil
  | get deviceId => exact .getting deviceId

variable [DecidableEq ι]

theorem InService.step {pool : Pool candidateStatements ι CandidateReply CandidateTable}
    (h : InService requests start pool) (order : RowOrder) (i : ι) :
    InService requests start (pool.step (handle order) i) := by
  obtain ⟨hself, hchange⟩ := (h.threads i).advance order
  refine ⟨?_, ?_, ?_⟩
  · intro j
    by_cases hj : j = i
    · subst hj
      simpa [Pool.step] using hself
    · rw [Pool.threads_step_of_ne _ _ hj]
      exact (h.threads j).mono hchange
  · intro deviceId address hsome
    exact hchange.keeps _ _ (h.keeps _ _ hsome)
  · intro deviceId address time htime
    rcases hchange.adds _ _ _ htime with hbefore | hpublishes
    · exact h.adds _ _ _ hbefore
    · exact Or.inr ⟨i, hpublishes⟩

theorem inService_run (order : RowOrder) (schedule : List ι) :
    InService requests start (run (Pool.step (handle order)) (serving requests start) schedule) :=
  run_invariant (J := InService requests start) (fun _ i h => h.step order i) inService_serving
    schedule

/-- The addresses of a device that were there and those that are published for it. -/
def Known (requests : ι → CandidateRequest) (start : CandidateTable) (deviceId : Uuid)
    (address : String) : Prop :=
  (bookOf start deviceId address).isSome ∨
    ∃ i time, (requests i).Publishes deviceId address time

namespace InService

variable {pool : Pool candidateStatements ι CandidateReply CandidateTable}

omit [DecidableEq ι] in
theorem known (h : InService requests start pool) {deviceId : Uuid} {address : String}
    (hsome : (bookOf pool.state deviceId address).isSome) :
    Known requests start deviceId address := by
  obtain ⟨time, htime⟩ := Option.isSome_iff_exists.mp hsome
  rcases h.adds _ _ _ htime with hbefore | ⟨i, hi⟩
  · exact Or.inl (by rw [hbefore]; rfl)
  · exact Or.inr ⟨i, time, hi⟩

omit [DecidableEq ι] in
/-- A publication that is done has stored all of its addresses and is answered with 200. -/
theorem published (h : InService requests start pool) {i : ι} {deviceId : Uuid}
    {candidates : List (String × Int)} (hrequest : requests i = .publish deviceId candidates)
    {reply : CandidateReply} (hreply : pool.threads i = .done reply) :
    reply = .published (.ok ()) ∧
      ∀ candidate ∈ candidates, (bookOf pool.state deviceId candidate.1).isSome := by
  have hthread := h.threads i
  rw [hrequest, hreply] at hthread
  generalize hp : (Program.done reply : CandidateSql CandidateReply) = p at hthread
  generalize hr : CandidateRequest.publish deviceId candidates = request at hthread
  cases hthread with
  | @publishing _ stored rest hstored =>
      obtain ⟨rfl, rfl⟩ := CandidateRequest.publish.inj hr
      cases rest with
      | nil =>
          rw [publishing_nil] at hp
          exact ⟨Program.done.inj hp, fun candidate hmem => hstored candidate (by simpa using hmem)⟩
      | cons candidate rest =>
          obtain ⟨address, now⟩ := candidate
          rw [publishing_cons] at hp
          cases hp
  | getting _ => cases hr
  | listed _ _ => cases hr

omit [DecidableEq ι] in
/-- A lookup that is done lists known addresses of its device, each once. -/
theorem looked (h : InService requests start pool) {i : ι} {deviceId : Uuid}
    (hrequest : requests i = .get deviceId) {reply : CandidateReply}
    (hreply : pool.threads i = .done reply) :
    ∃ listed, reply = .listed (.ok listed) ∧ listed.Nodup ∧
      ∀ address ∈ listed, Known requests start deviceId address := by
  have hthread := h.threads i
  rw [hrequest, hreply] at hthread
  generalize hp : (Program.done reply : CandidateSql CandidateReply) = p at hthread
  generalize hr : CandidateRequest.get deviceId = request at hthread
  cases hthread with
  | publishing _ _ => cases hr
  | getting _ => cases hp
  | @listed _ listed hnodup hlisted =>
      obtain rfl := CandidateRequest.get.inj hr
      exact ⟨listed, Program.done.inj hp, hnodup, fun address hmem =>
        h.known (hlisted address hmem)⟩

omit [DecidableEq ι] in
/-- When all requests are done, a lookup lists exactly the known addresses. -/
theorem listed_iff (h : InService requests start pool)
    (hdone : ∀ i, (pool.threads i).result?.isSome) (order : RowOrder) (deviceId : Uuid) :
    ∃ listed, exec (handle order) (getCandidates deviceId) pool.state = (.ok listed, pool.state) ∧
      listed.Nodup ∧ ∀ address, address ∈ listed ↔ Known requests start deviceId address := by
  obtain ⟨listed, hexec, hlists⟩ := exec_getCandidates order pool.state deviceId
  refine ⟨listed, hexec, hlists.nodup, ?_⟩
  intro address
  rw [hlists.mem_iff]
  refine ⟨h.known, ?_⟩
  rintro (hstart | ⟨i, time, candidates, hrequest, hmem⟩)
  · exact h.keeps _ _ hstart
  · obtain ⟨reply, hreply⟩ := exists_done_of_isSome (hdone i)
    exact (h.published hrequest hreply).2 _ hmem

end InService

/-- Whatever the order in which the statements of any number of publications and lookups
    are executed: a publication is answered with 200; a lookup lists addresses, each once,
    that were there or are published for its device; and when all requests are done, a
    lookup lists exactly the addresses that were there and those that were published. -/
theorem publications_all_listed (order : RowOrder) (requests : ι → CandidateRequest)
    (start : CandidateTable) (schedule : List ι) :
    let final := run (Pool.step (handle order)) (serving requests start) schedule
    (∀ i deviceId candidates, requests i = .publish deviceId candidates →
      ∀ reply, final.threads i = .done reply → reply = .published (.ok ())) ∧
    (∀ i deviceId, requests i = .get deviceId → ∀ reply, final.threads i = .done reply →
      ∃ listed, reply = .listed (.ok listed) ∧ listed.Nodup ∧
        ∀ address ∈ listed, Known requests start deviceId address) ∧
    ((∀ i, (final.threads i).result?.isSome) → ∀ deviceId, ∃ listed,
      exec (handle order) (getCandidates deviceId) final.state = (.ok listed, final.state) ∧
        listed.Nodup ∧ ∀ address, address ∈ listed ↔ Known requests start deviceId address) := by
  intro final
  have h : InService requests start final := inService_run order schedule
  refine ⟨?_, ?_, fun hdone deviceId => h.listed_iff hdone order deviceId⟩
  · intro i deviceId candidates hrequest reply hreply
    exact (h.published hrequest hreply).1
  · intro i deviceId hrequest reply hreply
    exact h.looked hrequest hreply

end

end ConnectAlso.Control.Candidates
