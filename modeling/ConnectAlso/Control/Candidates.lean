import ConnectAlso.Control.Schema
import ConnectAlso.Misc.KeyedTable

/-!
# Candidate exchange

The table `candidates` of `services/control/src/db.rs` with its statements, functions and
handlers. A device publishes the addresses at which it may be reached, one upsert for each
of them, and its peers ask for them. `Book` says what the table is for: when each address
of a device was last published. The statements of any number of requests, in any order,
act on the table as on the book (`bookOf_run`).
-/

namespace ConnectAlso.Control.Candidates
open Misc Program

/-! ## Table and statements (`db.rs`) -/

/-- A row of `candidates`. -/
structure CandidateRow where
  deviceId : Uuid
  address : String
  updatedAt : Int
  deriving DecidableEq

/-- `PRIMARY KEY (device_id, address)`. -/
def CandidateRow.key (r : CandidateRow) : Uuid × String := (r.deviceId, r.address)

/-- The table `candidates`. -/
abbrev CandidateTable := KeyedTable CandidateRow.key

/-- `DO UPDATE SET updated_at = ?`. -/
def setUpdatedAt (now : Int) : Assignment CandidateRow.key where
  apply r := { r with updatedAt := now }
  keeps _ := rfl

/-- The statements on `candidates`, with their bound parameters. -/
inductive CandidateStatement where
  /-- `INSERT INTO candidates (…) VALUES (?, ?, ?) ON CONFLICT(…) DO UPDATE SET updated_at = ?` -/
  | upsertCandidate (deviceId : Uuid) (address : String) (now : Int)
  /-- `SELECT address FROM candidates WHERE device_id = ? ORDER BY updated_at DESC` -/
  | selectAddresses (deviceId : Uuid)
  /-- `DELETE FROM candidates WHERE updated_at < ?` -/
  | deleteStaleCandidates (cutoff : Int)

/-- What a statement answers. -/
@[reducible] def CandidateStatement.Answer : CandidateStatement → Type
  | upsertCandidate _ _ _ => Except DbError Nat
  | selectAddresses _ => Except DbError (List String)
  | deleteStaleCandidates _ => Except DbError Nat

/-- The statements as operations of a program. -/
abbrev candidateStatements : Signature where
  Op := CandidateStatement
  Answer := CandidateStatement.Answer

/-- A function of the service that works on `candidates`. -/
abbrev CandidateSql (α : Type) := Program candidateStatements α

/-- How SQLite orders rows by `updated_at DESC`; rows of one time come in any order. -/
structure RowOrder where
  sort : List CandidateRow → List CandidateRow
  ordered : ∀ rows, OrderedBy (fun a b => b.updatedAt ≤ a.updatedAt) rows (sort rows)

/-- What each statement answers and does. None of them can fail. -/
def handle (order : RowOrder) : Handler candidateStatements CandidateTable
  | .upsertCandidate deviceId address now, t =>
    (.ok 1, t.upsert { deviceId, address, updatedAt := now } (setUpdatedAt now))
  | .selectAddresses deviceId, t =>
    (.ok ((order.sort (t.select fun r => r.deviceId = deviceId)).map CandidateRow.address), t)
  | .deleteStaleCandidates cutoff, t =>
    (.ok (t.count fun r => r.updatedAt < cutoff), t.delete fun r => r.updatedAt < cutoff)

/-- `upsert_candidate`. -/
def upsertCandidate (now : Int) (deviceId : Uuid) (address : String) :
    CandidateSql (Except DbError Unit) := do
  let rows : Except DbError Nat ← @perform candidateStatements (.upsertCandidate deviceId address now)
  return rows.map fun _ => ()

/-- `get_candidates`. -/
def getCandidates (deviceId : Uuid) : CandidateSql (Except DbError (List String)) :=
  @perform candidateStatements (.selectAddresses deviceId)

/-- `purge_stale_candidates`, which nothing calls. As in `purge_stale`, the difference may
    panic before the statement. -/
def purgeStaleCandidates (overflowChecks : Bool) (now timeoutSecs : Int64) :
    CandidateSql (Checked (Except DbError Nat)) :=
  match subI64 overflowChecks now timeoutSecs with
  | .error panic => return .error panic
  | .ok cutoff => do
    let rows : Except DbError Nat ←
      @perform candidateStatements (.deleteStaleCandidates cutoff.toInt)
    return .ok rows

/-! ## Handlers (`main.rs`) -/

/-- The error statuses of the handlers. -/
inductive ErrorStatus where
  | internalServerError
  | notFound
  deriving DecidableEq, Repr

/-- `handle_publish_candidates`; each address comes with the time that `unix_now` reads
    when it is its turn. -/
def handlePublishCandidates (deviceId : Uuid) :
    List (String × Int) → CandidateSql (Except ErrorStatus Unit)
  | [] => return .ok ()
  | (address, now) :: rest => do
    match ← upsertCandidate now deviceId address with
    | .error _ => return .error .internalServerError
    | .ok () => handlePublishCandidates deviceId rest

/-- `handle_get_candidates`. -/
def handleGetCandidates (deviceId : Uuid) :
    CandidateSql (Except ErrorStatus (List String)) := do
  match ← getCandidates deviceId with
  | .error _ => return .error .notFound
  | .ok candidates => return .ok candidates

/-- A request for candidates. -/
inductive CandidateRequest where
  | publish (deviceId : Uuid) (candidates : List (String × Int))
  | get (deviceId : Uuid)

/-- What it is answered. -/
inductive CandidateReply where
  | published (result : Except ErrorStatus Unit)
  | listed (result : Except ErrorStatus (List String))

/-- The program of a request. -/
def CandidateRequest.program : CandidateRequest → CandidateSql CandidateReply
  | publish deviceId candidates => do
    return .published (← handlePublishCandidates deviceId candidates)
  | get deviceId => do return .listed (← handleGetCandidates deviceId)

/-! ## The book -/

/-- When each address of each device was last published. -/
abbrev Book := Uuid → String → Option Int

/-- What a statement does to the book. -/
def Book.step (book : Book) : CandidateStatement → Book
  | .upsertCandidate deviceId address now =>
    Function.update book deviceId (Function.update (book deviceId) address (some now))
  | .selectAddresses _ => book
  | .deleteStaleCandidates cutoff => fun deviceId address =>
    (book deviceId address).filter fun updatedAt => !decide (updatedAt < cutoff)

/-- The listing shows the addresses of a device that are in the book, each once, the
    latest published first. -/
structure Book.Lists (book : Book) (deviceId : Uuid) (listed : List String) : Prop where
  nodup : listed.Nodup
  mem_iff : ∀ address, address ∈ listed ↔ (book deviceId address).isSome
  newest : listed.Pairwise fun a b => ∀ t ∈ book deviceId a, ∀ u ∈ book deviceId b, u ≤ t

/-- What the table says. -/
def bookOf (t : CandidateTable) : Book := fun deviceId address =>
  (t.find (deviceId, address)).map CandidateRow.updatedAt

theorem bookOf_eq_some_iff {t : CandidateTable} {deviceId : Uuid} {address : String} {time : Int} :
    bookOf t deviceId address = some time ↔
      (⟨deviceId, address, time⟩ : CandidateRow) ∈ t := by
  rw [bookOf, Option.map_eq_some_iff]
  constructor
  · rintro ⟨r, hr, rfl⟩
    obtain ⟨hmem, hkey⟩ := KeyedTable.find_eq_some_iff.mp hr
    obtain ⟨rfl, rfl⟩ := Prod.mk.inj hkey
    exact hmem
  · intro hmem
    exact ⟨_, KeyedTable.mem_iff_find.mp hmem, rfl⟩

theorem bookOf_isSome_iff {t : CandidateTable} {deviceId : Uuid} {address : String} :
    (bookOf t deviceId address).isSome ↔
      ∃ r ∈ t, r.deviceId = deviceId ∧ r.address = address := by
  rw [Option.isSome_iff_exists]
  constructor
  · rintro ⟨time, htime⟩
    exact ⟨_, bookOf_eq_some_iff.mp htime, rfl, rfl⟩
  · rintro ⟨r, hr, rfl, rfl⟩
    exact ⟨r.updatedAt, bookOf_eq_some_iff.mpr hr⟩

/-- A statement acts on the table as on the book. -/
theorem bookOf_handle (order : RowOrder) (statement : CandidateStatement) (t : CandidateTable) :
    bookOf (handle order statement t).2 = (bookOf t).step statement := by
  cases statement with
  | selectAddresses deviceId => rfl
  | upsertCandidate deviceId address now =>
      funext id addr
      have hfind := congrFun (KeyedTable.find_upsert t
        ⟨deviceId, address, now⟩ (setUpdatedAt now)) (id, addr)
      have htime : (((t.find (CandidateRow.key ⟨deviceId, address, now⟩)).elim
          ⟨deviceId, address, now⟩ (setUpdatedAt now).apply).updatedAt) = now := by
        cases t.find (CandidateRow.key ⟨deviceId, address, now⟩) with
        | none => rfl
        | some old => rfl
      simp only [handle, bookOf, Book.step, hfind]
      by_cases hid : id = deviceId
      · subst hid
        by_cases haddr : addr = address
        · subst haddr
          simpa [CandidateRow.key] using htime
        · simp [CandidateRow.key, haddr, bookOf]
      · simp [CandidateRow.key, hid, bookOf]
  | deleteStaleCandidates cutoff =>
      funext id addr
      simp only [handle, bookOf, Book.step, KeyedTable.find_delete]
      cases t.find (id, addr) with
      | none => rfl
      | some r =>
          by_cases hstale : r.updatedAt < cutoff
          · simp [Option.filter, hstale]
          · simp [Option.filter, hstale]

/-- The statements of any number of requests, in any order, act on the table as on the
    book. -/
theorem bookOf_run (order : RowOrder) (t : CandidateTable) (statements : List CandidateStatement) :
    bookOf (run (fun t statement => (handle order statement t).2) t statements) =
      run Book.step (bookOf t) statements :=
  map_run (J := fun _ => True) (fun _ _ _ => trivial)
    (fun t statement _ => bookOf_handle order statement t) trivial statements

/-- `get_candidates` lists what the book says. -/
theorem exec_getCandidates (order : RowOrder) (t : CandidateTable) (deviceId : Uuid) :
    ∃ listed, exec (handle order) (getCandidates deviceId) t = (.ok listed, t) ∧
      (bookOf t).Lists deviceId listed := by
  have hordered := order.ordered (t.select fun r => r.deviceId = deviceId)
  have hmem : ∀ r, r ∈ order.sort (t.select fun r => r.deviceId = deviceId) ↔
      r ∈ t ∧ r.deviceId = deviceId := by
    intro r
    rw [hordered.1.mem_iff, Table.mem_select, decide_eq_true_iff]
  refine ⟨_, rfl, ?_, ?_, ?_⟩
  · apply KeyedTable.nodup_map_of_orderedBy hordered
    intro a ha b hb heq
    rw [decide_eq_true_iff] at ha hb
    exact Prod.ext (ha.trans hb.symm) heq
  · intro address
    rw [bookOf_isSome_iff, List.mem_map]
    simp only [hmem, and_assoc]
  · rw [List.pairwise_map]
    refine hordered.2.imp_of_mem ?_
    intro a b ha hb hle time htime later hlater
    obtain ⟨hamem, rfl⟩ := (hmem a).mp ha
    obtain ⟨hbmem, hsame⟩ := (hmem b).mp hb
    obtain rfl := Option.some.inj ((bookOf_eq_some_iff.mpr hamem).symm.trans htime)
    rw [← hsame] at hlater
    obtain rfl := Option.some.inj ((bookOf_eq_some_iff.mpr hbmem).symm.trans hlater)
    exact hle

/-- `purge_stale_candidates` changes nothing when its subtraction panics, and else takes from
    the book what was last published before the cutoff. -/
theorem exec_purgeStaleCandidates (order : RowOrder) (t : CandidateTable) (overflowChecks : Bool)
    (now timeoutSecs : Int64) :
    (overflowChecks = true ∧ ¬ FitsI64 (now.toInt - timeoutSecs.toInt) ∧
      exec (handle order) (purgeStaleCandidates overflowChecks now timeoutSecs) t =
        (.error .arithmeticOverflow, t)) ∨
    (overflowChecks = false ∨ FitsI64 (now.toInt - timeoutSecs.toInt)) ∧
      bookOf (exec (handle order) (purgeStaleCandidates overflowChecks now timeoutSecs) t).2 =
        (bookOf t).step (.deleteStaleCandidates (wrapI64 (now.toInt - timeoutSecs.toInt))) := by
  rcases subI64_cases overflowChecks now timeoutSecs with
    ⟨hchecks, hfits, hsub⟩ | ⟨hreturns, cutoff, hcutoff, hsub⟩
  · refine Or.inl ⟨hchecks, hfits, ?_⟩
    simp only [purgeStaleCandidates, hsub]
    rfl
  · refine Or.inr ⟨hreturns, ?_⟩
    rw [← hcutoff, ← bookOf_handle order]
    simp only [purgeStaleCandidates, hsub]
    rfl

/-- After any sequence of statements on `candidates`, which is what any interleaving of
    requests amounts to, the table says when each address was last published;
    `get_candidates` lists the addresses of a device without repetition, the latest first,
    and `purge_stale_candidates` strikes out what is older than its cutoff, if that can be
    computed. -/
theorem candidates_refine_book (order : RowOrder) (statements : List CandidateStatement)
    (deviceId : Uuid) :
    let t := run (fun t statement => (handle order statement t).2) (Table.empty _) statements
    let book := run Book.step (fun _ _ => none) statements
    bookOf t = book ∧
      (∃ listed, exec (handle order) (getCandidates deviceId) t = (.ok listed, t) ∧
        book.Lists deviceId listed) ∧
      ∀ (overflowChecks : Bool) (now timeoutSecs : Int64),
        let purged := exec (handle order) (purgeStaleCandidates overflowChecks now timeoutSecs) t
        (overflowChecks = true ∧ ¬ FitsI64 (now.toInt - timeoutSecs.toInt) ∧
          purged = (.error .arithmeticOverflow, t)) ∨
        (overflowChecks = false ∨ FitsI64 (now.toInt - timeoutSecs.toInt)) ∧
          bookOf purged.2 =
            book.step (.deleteStaleCandidates (wrapI64 (now.toInt - timeoutSecs.toInt))) := by
  intro t book
  have hbook : bookOf t = book := bookOf_run order (Table.empty _) statements
  obtain ⟨listed, hexec, hlists⟩ := exec_getCandidates order t deviceId
  refine ⟨hbook, ⟨listed, hexec, hbook ▸ hlists⟩, ?_⟩
  intro overflowChecks now timeoutSecs
  rw [← hbook]
  exact exec_purgeStaleCandidates order t overflowChecks now timeoutSecs

end ConnectAlso.Control.Candidates
