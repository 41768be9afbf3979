import ConnectAlso.Traversal.Calls

/-!
# Agreement of a punch

When two calls of `punch` have returned, did both receive a packet or neither? A pool of
programs follows the machine of what can be seen of the two calls (`onTracks_step`), so
each call returns (`returns_of_count`), and `agreement_iff` says exactly which schedules
part them.
-/

namespace ConnectAlso.Traversal
open Misc Program

/-! ## From the programs to the outside -/

/-- The program that waits for a packet with `rounds` rounds left after it. -/
def waitThen (socket : Side) (candidate : Candidate) (token : List UInt8) (rounds : Nat) :
    Program (socketOps Side) PunchResult :=
  .call (SocketOp.recvTimeout socket) (received (punchRounds socket [candidate] token rounds))

theorem punchRounds_succ (socket : Side) (candidate : Candidate) (token : List UInt8)
    (rounds : Nat) :
    punchRounds socket [candidate] token (rounds + 1) =
      .call (SocketOp.sendTo socket token candidate.addr) fun _ =>
        waitThen socket candidate token rounds := rfl

/-- The program of a call that has sent `sent` packets: about to send, waiting, or
    returned. -/
inductive OnTrack (socket : Side) (candidate : Candidate) (token : List UInt8) (sent : Nat) :
    Program (socketOps Side) PunchResult → Prop where
  | sending {rounds : Nat} (h : sent + (rounds + 1) = punchRetries) :
      OnTrack socket candidate token sent (punchRounds socket [candidate] token (rounds + 1))
  | waiting {rounds : Nat} (h : sent + rounds = punchRetries) :
      OnTrack socket candidate token sent (waitThen socket candidate token rounds)
  | returned (result : PunchResult) : OnTrack socket candidate token sent (.done result)

/-- Every call is on track and has sent to the other side only. -/
structure OnTracks (mapped : Side → SocketAddr) (token : Side → List UInt8)
    (pool : Pool (socketOps Side) Side PunchResult Nats) : Prop where
  addresses : pool.state.mapped = mapped
  sentTo : ∀ i, ∀ dst ∈ pool.state.sentTo i, dst = mapped i.other
  thread : ∀ i, OnTrack i (.serverReflexive (mapped i.other)) (token i)
    (pool.state.sentTo i).length (pool.threads i)

section Simulation
variable {mapped : Side → SocketAddr} {token : Side → List UInt8}
  {pool : Pool (socketOps Side) Side PunchResult Nats}

theorem onTracks_start (mapped : Side → SocketAddr) (token : Side → List UInt8) :
    OnTracks mapped token (punching mapped token) := by
  refine ⟨rfl, ?_, ?_⟩
  · intro i dst hdst
    cases hdst
  · intro i
    exact OnTrack.sending (Nat.zero_add punchRetries)

/-- The NAT of a side lets the other side's packets pass once the side has sent. -/
theorem mem_sentTo_iff (h : OnTracks mapped token pool) (i : Side) :
    mapped i ∈ pool.state.sentTo i.other ↔ 0 < (pool.state.sentTo i.other).length := by
  refine ⟨List.length_pos_of_mem, ?_⟩
  intro hsent
  obtain ⟨dst, hdst⟩ := List.exists_mem_of_length_pos hsent
  have heq := h.sentTo i.other dst hdst
  rw [Side.other_other] at heq
  rwa [heq] at hdst

/-- A step of call `i` keeps both calls on track when it keeps its own. -/
theorem onTracks_of_self (h : OnTracks mapped token pool) {i : Side}
    (haddresses : (pool.step Nats.handle i).state.mapped = pool.state.mapped)
    (hother : (pool.step Nats.handle i).state.sentTo i.other = pool.state.sentTo i.other)
    (hself : ∀ dst ∈ (pool.step Nats.handle i).state.sentTo i, dst = mapped i.other)
    (hthread : OnTrack i (.serverReflexive (mapped i.other)) (token i)
      ((pool.step Nats.handle i).state.sentTo i).length ((pool.step Nats.handle i).threads i)) :
    OnTracks mapped token (pool.step Nats.handle i) := by
  refine ⟨haddresses.trans h.addresses, ?_, ?_⟩
  · intro j
    rcases Side.eq_or_eq_other i j with rfl | rfl
    · exact hself
    · rw [hother]
      exact h.sentTo _
  · intro j
    rcases Side.eq_or_eq_other i j with rfl | rfl
    · exact hthread
    · rw [hother, Pool.threads_step_of_ne Nats.handle pool i.other_ne]
      exact h.thread _

/-- Both calls see step `i` as the machine has it. -/
theorem view_step {i : Side} (hself : view (pool.step Nats.handle i) i = (view pool i).own)
    (hother : view (pool.step Nats.handle i) i.other =
      (view pool i.other).hear (view pool i)) :
    view (pool.step Nats.handle i) = advance (view pool) i := by
  funext j
  rcases Side.eq_or_eq_other i j with rfl | rfl
  · rw [advance_self, hself]
  · rw [advance_other, hother]

/-- Call `i` sends a packet. -/
theorem onTracks_send (h : OnTracks mapped token pool) {i : Side} {rounds : Nat}
    (hrounds : (pool.state.sentTo i).length + (rounds + 1) = punchRetries)
    (hthread : pool.threads i =
      punchRounds i [.serverReflexive (mapped i.other)] (token i) (rounds + 1)) :
    OnTracks mapped token (pool.step Nats.handle i) ∧
      view (pool.step Nats.handle i) = advance (view pool) i := by
  rw [punchRounds_succ] at hthread
  have hstate : (pool.step Nats.handle i).state =
      pool.state.send i (token i) (mapped i.other) := Pool.state_step_of_call _ hthread
  have hself : (pool.step Nats.handle i).threads i =
      waitThen i (.serverReflexive (mapped i.other)) (token i) rounds :=
    Pool.threads_step_of_call _ hthread
  have hother := Pool.threads_step_of_ne Nats.handle pool i.other_ne
  have hdoing : (view pool i).doing = .sending := congrArg doing hthread
  refine ⟨onTracks_of_self h ?_ ?_ ?_ ?_, view_step ?_ ?_⟩
  · rw [hstate]
    rfl
  · rw [hstate, Nats.send_sentTo_other]
  · intro dst hdst
    rw [hstate, Nats.send_sentTo_self] at hdst
    rcases List.mem_append.mp hdst with hold | hnew
    · exact h.sentTo i dst hold
    · exact List.mem_singleton.mp hnew
  · rw [hself, hstate, Nats.send_sentTo_self, List.length_append]
    exact OnTrack.waiting (by rw [← hrounds, List.length_singleton]; omega)
  · rw [CallView.own_of_sending hdoing, view, hself, hstate, Nats.send_sentTo_self,
      Nats.send_inbox_self, List.length_append]
    rfl
  · rw [CallView.hear, hdoing, view, hother, hstate, Nats.send_sentTo_other,
      Nats.send_inbox_other, h.addresses]
    -- the NAT of the other side lets the packet pass
    have hpass := mem_sentTo_iff h i
    by_cases hsent : 0 < (pool.state.sentTo i.other).length
    · rw [if_pos ⟨rfl, hpass.mpr hsent⟩, if_pos ⟨rfl, hsent⟩, List.length_append]
      rfl
    · rw [if_neg fun hpassed => hsent (hpass.mp hpassed.2), if_neg fun hheard => hsent hheard.2]
      rfl

/-- A step in which call `i` only waits leaves the other call alone. -/
theorem onTracks_wait (h : OnTracks mapped token pool) {i : Side}
    (hdoing : (view pool i).doing = .waiting) {rest : List (List UInt8 × SocketAddr)}
    (hstate : (pool.step Nats.handle i).state = pool.state.take i rest)
    (hthread : OnTrack i (.serverReflexive (mapped i.other)) (token i)
      (pool.state.sentTo i).length ((pool.step Nats.handle i).threads i))
    (hself : (view pool i).own =
      { doing := doing ((pool.step Nats.handle i).threads i),
        sent := (pool.state.sentTo i).length, inbox := rest.length }) :
    OnTracks mapped token (pool.step Nats.handle i) ∧
      view (pool.step Nats.handle i) = advance (view pool) i := by
  have hother := Pool.threads_step_of_ne Nats.handle pool i.other_ne
  refine ⟨onTracks_of_self h ?_ ?_ ?_ ?_, view_step ?_ ?_⟩
  · rw [hstate]
    rfl
  · rw [hstate]
    rfl
  · rw [hstate]
    exact h.sentTo i
  · rw [hstate]
    exact hthread
  · rw [hself, view, hstate, Nats.take_inbox_self]
    rfl
  · have hsilent : (view pool i).doing ≠ .sending := by
      rw [hdoing]
      exact Doing.noConfusion
    rw [CallView.hear_of_not_sending hsilent, view, view, hother, hstate, Nats.take_inbox_other]
    rfl

/-- Call `i` has waited in vain. -/
theorem onTracks_timeout (h : OnTracks mapped token pool) {i : Side} {rounds : Nat}
    (hrounds : (pool.state.sentTo i).length + rounds = punchRetries)
    (hthread : pool.threads i =
      waitThen i (.serverReflexive (mapped i.other)) (token i) rounds)
    (hinbox : pool.state.inbox i = []) :
    OnTracks mapped token (pool.step Nats.handle i) ∧
      view (pool.step Nats.handle i) = advance (view pool) i := by
  have hanswer : Nats.handle (.recvTimeout i) pool.state = (none, pool.state) := by
    simp only [Nats.handle, hinbox]
  have hstate : (pool.step Nats.handle i).state = pool.state.take i [] := by
    rw [Nats.take_eq_self hinbox]
    exact (Pool.state_step_of_call Nats.handle hthread).trans (congrArg Prod.snd hanswer)
  have hself : (pool.step Nats.handle i).threads i =
      punchRounds i [.serverReflexive (mapped i.other)] (token i) rounds :=
    (Pool.threads_step_of_call Nats.handle hthread).trans
      (congrArg (fun answer => received _ answer.1) hanswer)
  have hdoing : (view pool i).doing = .waiting := congrArg doing hthread
  have hempty : (view pool i).inbox = 0 := congrArg List.length hinbox
  have hsent : (view pool i).sent = (pool.state.sentTo i).length := rfl
  refine onTracks_wait h hdoing hstate ?_ ?_
  · rw [hself]
    cases rounds with
    | zero => exact OnTrack.returned none
    | succ rounds => exact OnTrack.sending hrounds
  · rw [CallView.own_of_timeout hdoing hempty, hself, hsent, hempty]
    cases rounds with
    | zero =>
        rw [if_neg (by omega)]
        rfl
    | succ rounds =>
        rw [if_pos (by omega)]
        rfl

/-- Call `i` takes a packet, and returns. -/
theorem onTracks_receive (h : OnTracks mapped token pool) {i : Side} {rounds : Nat}
    (hthread : pool.threads i =
      waitThen i (.serverReflexive (mapped i.other)) (token i) rounds)
    {packet : List UInt8 × SocketAddr} {rest : List (List UInt8 × SocketAddr)}
    (hinbox : pool.state.inbox i = packet :: rest) :
    OnTracks mapped token (pool.step Nats.handle i) ∧
      view (pool.step Nats.handle i) = advance (view pool) i := by
  have hanswer : Nats.handle (.recvTimeout i) pool.state =
      (some (.ok packet), pool.state.take i rest) := by
    simp only [Nats.handle, hinbox]
  have hstate : (pool.step Nats.handle i).state = pool.state.take i rest :=
    (Pool.state_step_of_call Nats.handle hthread).trans (congrArg Prod.snd hanswer)
  have hself : (pool.step Nats.handle i).threads i =
      .done (some (packet.1.take punchBuffer, packet.2)) :=
    (Pool.threads_step_of_call Nats.handle hthread).trans
      (congrArg (fun answer => received _ answer.1) hanswer)
  have hdoing : (view pool i).doing = .waiting := congrArg doing hthread
  have hlength : (view pool i).inbox = rest.length + 1 := congrArg List.length hinbox
  refine onTracks_wait h hdoing hstate ?_ ?_
  · rw [hself]
    exact OnTrack.returned _
  · rw [CallView.own_of_receive hdoing (by omega), hself, hlength]
    rfl

/-- A call that has returned takes no step. -/
theorem onTracks_returned (h : OnTracks mapped token pool) {i : Side} {result : PunchResult}
    (hthread : pool.threads i = .done result) :
    OnTracks mapped token (pool.step Nats.handle i) ∧
      view (pool.step Nats.handle i) = advance (view pool) i := by
  have hdoing : (view pool i).doing = .returned result.isSome := congrArg doing hthread
  have hsame : pool.step Nats.handle i = pool := Pool.step_done Nats.handle hthread
  refine ⟨by rwa [hsame], view_step ?_ ?_⟩
  · rw [hsame, CallView.own_of_returned hdoing]
  · rw [hsame, CallView.hear_of_not_sending (by rw [hdoing]; exact Doing.noConfusion)]

/-- A step of the pool is a step of the machine on what can be seen of it. -/
theorem onTracks_step (h : OnTracks mapped token pool) (i : Side) :
    OnTracks mapped token (pool.step Nats.handle i) ∧
      view (pool.step Nats.handle i) = advance (view pool) i := by
  have hthread := h.thread i
  generalize hp : pool.threads i = p at hthread
  cases hthread with
  | sending hrounds => exact onTracks_send h hrounds hp
  | @waiting rounds hrounds =>
      cases hinbox : pool.state.inbox i with
      | nil => exact onTracks_timeout h hrounds hp hinbox
      | cons packet rest => exact onTracks_receive h hp hinbox
  | returned result => exact onTracks_returned h hp

end Simulation

/-! ## Whole runs -/

/-- The views of a run of the pool are the run of the machine. -/
theorem view_run (mapped : Side → SocketAddr) (token : Side → List UInt8)
    (schedule : List Side) :
    view (run (Pool.step Nats.handle) (punching mapped token) schedule) =
      run advance (fun _ => CallView.start) schedule :=
  map_run (fun _ i h => (onTracks_step h i).1) (fun _ i h => (onTracks_step h i).2)
    (onTracks_start mapped token) schedule

/-- A call has returned after twenty steps, whatever the other one does. -/
theorem returns_of_count (mapped : Side → SocketAddr) (token : Side → List UInt8)
    {schedule : List Side} {i : Side} (hcount : 2 * punchRetries ≤ schedule.count i) :
    ∃ result, (run (Pool.step Nats.handle) (punching mapped token) schedule).threads i =
      .done result := by
  have hstart : ∀ _ : Side, CallView.start.Timely := fun _ _ => Nat.succ_pos 9
  obtain ⟨htimely, hleft⟩ := stepsLeft_run hstart schedule i
  have hnone : (run advance (fun _ => CallView.start) schedule i).stepsLeft = 0 := by
    have hall : CallView.start.stepsLeft = 2 * punchRetries := rfl
    omega
  obtain ⟨received, hreturned⟩ := CallView.returned_of_stepsLeft htimely hnone
  rw [← view_run mapped token schedule] at hreturned
  exact done_of_returned hreturned

/-- Two calls of `punch`, each with the mapped address of the other side, have returned:
    both received a packet or neither did, exactly when no step parted them. -/
theorem agreement_iff (mapped : Side → SocketAddr) (token : Side → List UInt8)
    (schedule : List Side) (result : Side → PunchResult)
    (hreturned : ∀ i, (run (Pool.step Nats.handle) (punching mapped token) schedule).threads i =
      .done (result i)) :
    ((result .a).isSome ↔ (result .b).isSome) ↔
      EachStep (Pool.step Nats.handle) (fun pool i => Together (view pool) i)
        (punching mapped token) schedule := by
  have hinv : ∀ pool i, OnTracks mapped token pool →
      OnTracks mapped token (pool.step Nats.handle i) := fun pool i h => (onTracks_step h i).1
  have hview : ∀ pool i, OnTracks mapped token pool →
      view (pool.step Nats.handle i) = advance (view pool) i := fun pool i h =>
    (onTracks_step h i).2
  have hstart := onTracks_start mapped token
  have hends : ∀ i, (run advance (view (punching mapped token)) schedule i).doing =
      .returned (result i).isSome := by
    intro i
    have hrun := congrFun (view_run mapped token schedule) i
    exact (congrArg CallView.doing hrun).symm.trans (congrArg doing (hreturned i))
  have hfresh : Promising (view (punching mapped token)) := .fresh fun _ => rfl
  rw [eachStep_map_iff hinv hview hstart schedule, ← Bool.eq_iff_iff]
  rcases run_of_eachStep_or_not (fun calls i h htogether => promising_advance h htogether)
    (fun calls i h hparts => parted_of_not_together h hparts)
    (fun calls i h => parted_advance h i) hfresh schedule with
    ⟨hsteps, hend⟩ | ⟨hsteps, hend⟩
  · exact iff_of_true (agree_of_promising hend hends) hsteps
  · exact iff_of_false (differ_of_parted hend hends) hsteps

/-- The mapped addresses of two sockets. -/
def twoNats : Side → SocketAddr
  | .a => ⟨.v4 ⟨198, 51, 100, 7⟩, 40000⟩
  | .b => ⟨.v4 ⟨203, 0, 113, 9⟩, 40000⟩

/-- The tokens of the two sides. -/
def twoTokens : Side → List UInt8
  | .a => [97]
  | .b => [98]

/-- The second call sends between two rounds of the first: both receive, and no step parts
    the calls. -/
theorem second_between_rounds_agrees :
    EachStep (Pool.step Nats.handle) (fun pool i => Together (view pool) i)
      (punching twoNats twoTokens) [.a, .a, .b, .a, .a, .b] := by
  refine (agreement_iff twoNats twoTokens [.a, .a, .b, .a, .a, .b]
    (fun
      | .a => some ([98], twoNats .b)
      | .b => some ([97], twoNats .a)) ?_).mp ?_
  · rintro (_ | _)
    · rfl
    · rfl
  · decide

/-- The second call sends while the first waits: the first one receives and sends nothing
    more, and the second gives up after ten rounds. -/
theorem second_while_waiting_differs : ∃ (schedule : List Side) (result : Side → PunchResult),
    (∀ i, (run (Pool.step Nats.handle) (punching twoNats twoTokens) schedule).threads i =
      .done (result i)) ∧
      (result .a).isSome ∧ ¬ (result .b).isSome := by
  refine ⟨[.a, .b, .a] ++ List.replicate 19 .b,
    fun
      | .a => some ([98], twoNats .b)
      | .b => none, ?_, ?_, ?_⟩
  · rintro (_ | _)
    · rfl
    · rfl
  · decide
  · decide

end ConnectAlso.Traversal
