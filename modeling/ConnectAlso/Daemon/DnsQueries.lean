import ConnectAlso.Daemon.Dns

/-!
# What Magic DNS answers

The server is for questions of type A and class IN, and for whole names. `handle_query`
never reads outside the query, but it does not look at the type and the class, and it does
not tell a name that ends from one that is cut off or goes on behind a pointer.
-/

namespace ConnectAlso.Daemon
open Misc Dns

/-- The first question of the query is for the address of a name. -/
def AsksForAddress (query : List UInt8) (name : Name) : Prop :=
  beU16 query 4 ≠ 0 ∧ ∃ header after,
    header.length = 12 ∧ query = header ++ ((⟨name, 1, 1⟩ : Question).wire ++ after)

theorem take_wireWords (after : List UInt8) :
    (wireWords [1, 1] ++ after).take 4 = wireWords [1, 1] :=
  List.take_left' (length_wireWords [1, 1])

/-- Such a query splits into its labels and the end of its question. -/
theorem asksForAddress_iff {query : List UInt8} (h : 12 ≤ query.length) (name : Name) :
    AsksForAddress query name ↔ beU16 query 4 ≠ 0 ∧
      ∃ after, splitLabels (query.drop 12) = (name, 0 :: (wireWords [1, 1] ++ after)) := by
  constructor
  · rintro ⟨hcount, header, after, hheader, hquery⟩
    refine ⟨hcount, after, ?_⟩
    rw [hquery, ← hheader, List.drop_left, Question.wire_append,
      splitLabels_append name (stops_root _)]
  · rintro ⟨hcount, after, hsplit⟩
    refine ⟨hcount, query.take 12, after, List.length_take_of_le h, ?_⟩
    have hbytes := wireLabels_splitLabels (query.drop 12)
    rw [hsplit] at hbytes
    rw [Question.wire_append, hbytes, List.take_append_drop]

namespace DnsServer

variable (data : CaseData) (server : DnsServer)

/-- The server does not panic on the query, and answers it only if it is for the address of
    a name in the table. -/
def AnswersOnlyAddresses (query : List UInt8) : Prop :=
  ∃ answer, server.handleQuery data query = .ok answer ∧
    (answer.isSome → ∃ name, AsksForAddress query name ∧ (server.resolve data name).isSome)

/-- What follows the labels is not the end of a question of type A and class IN, and yet
    long enough for the server: a root before another type or class, a pointer, or a label
    that is cut off. -/
def Misread : List UInt8 → Prop
  | [] => False
  | len :: rest =>
    if len = 0 then 4 ≤ rest.length ∧ rest.take 4 ≠ wireWords [1, 1]
    else if 64 ≤ len.toNat then 5 ≤ rest.length
    else 4 ≤ rest.length

/-- The labels at the start of the question are a name in the table, and what follows them
    is misread. -/
def Deceived (query : List UInt8) : Prop :=
  12 ≤ query.length ∧ beU16 query 4 ≠ 0 ∧
    (server.resolve data (splitLabels (query.drop 12)).1).isSome ∧
    Misread (splitLabels (query.drop 12)).2

/-- There are four bytes behind the stop exactly if the question ends as it should, or is
    misread. -/
theorem room_iff (tail : List UInt8) :
    skipped tail + 4 ≤ tail.length ↔
      (∃ after, tail = 0 :: (wireWords [1, 1] ++ after)) ∨ Misread tail := by
  cases tail with
  | nil => simp [skipped, Misread]
  | cons len rest =>
      rw [Misread, skipped, List.length_cons]
      by_cases hzero : len = 0
      · subst hzero
        rw [if_pos rfl, if_neg (by decide)]
        by_cases hend : rest.take 4 = wireWords [1, 1]
        · have hlength : 4 ≤ rest.length := by
            have := congrArg List.length hend
            simp only [List.length_take, length_wireWords, List.length_cons, List.length_nil] at this
            omega
          refine iff_of_true (by omega) (.inl ⟨rest.drop 4, ?_⟩)
          rw [← hend, List.take_append_drop]
        · constructor
          · intro hroom
            exact .inr ⟨by omega, hend⟩
          · rintro (⟨after, htail⟩ | ⟨hroom, -⟩)
            · obtain ⟨-, rfl⟩ := List.cons.inj htail
              exact absurd (take_wireWords after) hend
            · omega
      · have hroot : ¬ ∃ after, len :: rest = 0 :: (wireWords [1, 1] ++ after) := by
          rintro ⟨after, htail⟩
          exact hzero (List.cons.inj htail).1
        rw [if_neg hzero, or_iff_right hroot]
        split
        · omega
        · omega

theorem handleQuery_isSome {query : List UInt8} (h : 12 ≤ query.length) :
    ∃ answer, server.handleQuery data query = .ok answer ∧
      (answer.isSome ↔ beU16 query 4 ≠ 0 ∧
        (server.resolve data (splitLabels (query.drop 12)).1).isSome ∧
        skipped (splitLabels (query.drop 12)).2 + 4 ≤ (splitLabels (query.drop 12)).2.length) := by
  generalize hsplit : splitLabels (query.drop 12) = split
  obtain ⟨labels, tail⟩ := split
  have hquery := wireLabels_splitLabels (query.drop 12)
  have hstops := stops_splitLabels (query.drop 12)
  rw [hsplit] at hquery hstops
  have hlength := congrArg List.length hquery
  rw [List.length_append, List.length_drop] at hlength
  have hroom : skipped tail + 4 ≤ tail.length ↔ ¬ query.length < stopPos labels tail + 4 := by
    unfold stopPos
    dsimp only at hlength
    omega
  refine ⟨_, handleQuery_eq data server h hquery.symm hstops, ?_⟩
  dsimp only
  rw [hroom]
  by_cases hzero : beU16 query 4 = 0
  · simp [hzero]
  · by_cases hshort : query.length < stopPos labels tail + 4
    · simp [hzero, hshort]
    · simp [hzero, hshort]

/-- The server never reads outside the query. -/
theorem handleQuery_total (query : List UInt8) :
    ∃ answer, server.handleQuery data query = .ok answer := by
  by_cases hlength : 12 ≤ query.length
  · obtain ⟨answer, hanswer, -⟩ := handleQuery_isSome data server hlength
    exact ⟨answer, hanswer⟩
  · exact ⟨none, handleQuery_of_short data (Nat.lt_of_not_le hlength)⟩

/-- The server keeps to what it is for exactly on the queries that do not deceive it. -/
theorem answersOnlyAddresses_iff (query : List UInt8) :
    server.AnswersOnlyAddresses data query ↔ ¬ server.Deceived data query := by
  by_cases hlength : 12 ≤ query.length
  · obtain ⟨answer, hanswer, hsome⟩ := handleQuery_isSome data server hlength
    constructor
    · rintro ⟨same, hsame, honly⟩ ⟨-, hcount, hresolve, hmisread⟩
      obtain rfl := Except.ok.inj (hanswer.symm.trans hsame)
      obtain ⟨name, hasks, -⟩ :=
        honly (hsome.mpr ⟨hcount, hresolve, (room_iff _).mpr (.inr hmisread)⟩)
      obtain ⟨-, after, hsplit⟩ := (asksForAddress_iff hlength name).mp hasks
      rw [hsplit, Misread, if_pos rfl] at hmisread
      exact hmisread.2 (take_wireWords after)
    · intro hclear
      refine ⟨answer, hanswer, fun hanswered => ?_⟩
      obtain ⟨hcount, hresolve, hroom⟩ := hsome.mp hanswered
      rcases (room_iff _).mp hroom with ⟨after, htail⟩ | hmisread
      · exact ⟨_, (asksForAddress_iff hlength _).mpr ⟨hcount, after, Prod.ext rfl htail⟩,
          hresolve⟩
      · exact absurd ⟨hlength, hcount, hresolve, hmisread⟩ hclear
  · refine iff_of_true ⟨none, handleQuery_of_short data (Nat.lt_of_not_le hlength), ?_⟩ ?_
    · intro hanswered
      cases hanswered
    · exact fun hdeceived => hlength hdeceived.1

/-! ## A query for another type -/

/-- The case of the Latin letters, and of the Kelvin sign. -/
def latinCase : CaseData where
  lower c := if c = Char.ofNat 0x212A then ['k'] else [c.toLower]
  cased c := c.isAlpha || c = Char.ofNat 0x212A
  caseIgnorable c := c = '.'
  lower_ascii c hc := by
    rw [if_neg]
    rintro rfl
    exact absurd hc (by decide)

/-- The label `k`. -/
def labelK : Label := ⟨[107], by decide, by decide⟩

/-- A server with a host `k`. -/
def serverK : DnsServer :=
  (⟨fun _ => none⟩ : DnsServer).updateRecords latinCase [("k", ⟨10, 0, 0, 7⟩)]

/-- A query for the IPv6 address of `k`: type 28, class 1. -/
def queryAaaa : List UInt8 :=
  (⟨7, 0x0100, 1, 0, 0, 0⟩ : Header).wire ++ (⟨[labelK], 28, 1⟩ : Question).wire

theorem resolve_labelK : serverK.resolve latinCase [labelK] = some ⟨10, 0, 0, 7⟩ := by
  decide +kernel

theorem splitLabels_queryAaaa :
    splitLabels (queryAaaa.drop 12) = ([labelK], 0 :: wireWords [28, 1]) :=
  splitLabels_append [labelK] (stops_root _)

/-- It is answered with the IPv4 address. -/
theorem handleQuery_queryAaaa :
    serverK.handleQuery latinCase queryAaaa = .ok (some (answerWire 7 0x8180 ⟨[labelK], 28, 1⟩
      ⟨[labelK], 1, 1, 60, [10, 0, 0, 7]⟩)) ∧
      ¬ serverK.AnswersOnlyAddresses latinCase queryAaaa := by
  have hlength : 12 ≤ queryAaaa.length := by decide
  have hanswer : serverK.handleQuery latinCase queryAaaa =
      .ok (some (answerWire 7 0x8180 ⟨[labelK], 28, 1⟩ ⟨[labelK], 1, 1, 60, [10, 0, 0, 7]⟩)) := by
    rw [@handleQuery_eq latinCase serverK queryAaaa _ [labelK] hlength rfl (stops_root _),
      resolve_labelK]
    decide
  refine ⟨hanswer, ?_⟩
  rintro ⟨answer, hsame, honly⟩
  obtain rfl := Except.ok.inj (hanswer.symm.trans hsame)
  obtain ⟨name, hasks, -⟩ := honly rfl
  obtain ⟨-, after, hsplit⟩ := (asksForAddress_iff hlength name).mp hasks
  have htype : wireWords [28, 1] = wireWords [1, 1] ++ after := by
    rw [splitLabels_queryAaaa] at hsplit
    exact (List.cons.inj (Prod.mk.inj hsplit).2).2
  have htake := congrArg (List.take 4) htype
  rw [take_wireWords] at htake
  exact absurd htake (by decide)

end DnsServer

end ConnectAlso.Daemon
