import Mathlib.Data.List.Basic
import Mathlib.Data.UInt
import ConnectAlso.Misc.Bytes

/-!
# Messages of the domain name system

Domain names as sequences of labels, their form in a message, and a reader of messages that
follows the pointers by which a name refers to an earlier place. `splitLabels` is the longest
sequence of whole labels at the start of some bytes.
-/

namespace ConnectAlso.Misc.Dns

/-! ## Names -/

/-- A label of a domain name. -/
structure Label where
  bytes : List UInt8
  nonempty : 1 ≤ bytes.length
  short : bytes.length ≤ 63
  deriving DecidableEq, Repr

/-- The label of some bytes. -/
def Label.ofBytes (bytes : List UInt8) : Option Label :=
  if h : 1 ≤ bytes.length ∧ bytes.length ≤ 63 then some ⟨bytes, h.1, h.2⟩ else none

theorem Label.ofBytes_bytes (label : Label) : ofBytes label.bytes = some label :=
  dif_pos ⟨label.nonempty, label.short⟩

theorem Label.ofBytes_eq_some {bytes : List UInt8} {label : Label}
    (h : ofBytes bytes = some label) : label.bytes = bytes := by
  unfold ofBytes at h
  split at h
  · cases h
    rfl
  · cases h

theorem Label.ofBytes_eq_none {bytes : List UInt8} :
    ofBytes bytes = none ↔ bytes.length = 0 ∨ 64 ≤ bytes.length := by
  unfold ofBytes
  split
  · exact iff_of_false (by simp) (by omega)
  · exact iff_of_true rfl (by omega)

/-- A domain name, without the root. -/
abbrev Name := List Label

/-- A label in a message. -/
def Label.wire (label : Label) : List UInt8 := UInt8.ofNat label.bytes.length :: label.bytes

/-- The labels of a name in a message. -/
def wireLabels (name : Name) : List UInt8 := name.flatMap Label.wire

@[simp] theorem wireLabels_nil : wireLabels [] = [] := rfl

@[simp] theorem wireLabels_cons (label : Label) (name : Name) :
    wireLabels (label :: name) = label.wire ++ wireLabels name := rfl

theorem Label.toNat_length (label : Label) :
    (UInt8.ofNat label.bytes.length).toNat = label.bytes.length := by
  have := label.short
  rw [UInt8.toNat_ofNat', Nat.mod_eq_of_lt (by omega)]

theorem Label.ofNat_length_ne_zero (label : Label) : UInt8.ofNat label.bytes.length ≠ 0 := by
  have hlen := label.toNat_length
  have hnonempty := label.nonempty
  intro hzero
  rw [hzero] at hlen
  exact absurd hlen.symm (Nat.ne_of_gt hnonempty)

@[simp] theorem Label.length_wire (label : Label) : label.wire.length = label.bytes.length + 1 :=
  rfl

theorem length_le_wireLabels (name : Name) : 2 * name.length ≤ (wireLabels name).length := by
  induction name with
  | nil => exact Nat.le_refl 0
  | cons label name ih =>
      have := label.nonempty
      rw [wireLabels_cons, List.length_append, Label.length_wire, List.length_cons]
      omega

/-! ## The labels at the start of some bytes -/

/-- The longest name whose labels stand at the start of the bytes, and what follows them. -/
def splitLabels : List UInt8 → Name × List UInt8
  | [] => ([], [])
  | len :: rest =>
    if len.toNat ≤ rest.length then
      match Label.ofBytes (rest.take len.toNat) with
      | none => ([], len :: rest)
      | some label =>
        (label :: (splitLabels (rest.drop len.toNat)).1, (splitLabels (rest.drop len.toNat)).2)
    else ([], len :: rest)
termination_by bytes => bytes.length
decreasing_by
  all_goals
    rw [List.length_drop, List.length_cons]
    exact Nat.lt_succ_of_le (Nat.sub_le _ _)

/-- No whole label stands at the start of the bytes. -/
def Stops : List UInt8 → Prop
  | [] => True
  | len :: rest => len = 0 ∨ 64 ≤ len.toNat ∨ rest.length < len.toNat

theorem stops_root (after : List UInt8) : Stops (0 :: after) := .inl rfl

theorem splitLabels_of_stops {tail : List UInt8} (h : Stops tail) :
    splitLabels tail = ([], tail) := by
  cases tail with
  | nil => rw [splitLabels]
  | cons len rest =>
      rw [splitLabels]
      by_cases hroom : len.toNat ≤ rest.length
      · have hnone : Label.ofBytes (rest.take len.toNat) = none := by
          rw [Label.ofBytes_eq_none, List.length_take, Nat.min_eq_left hroom]
          rcases h with rfl | hlong | hcut
          · exact .inl rfl
          · exact .inr hlong
          · omega
        rw [if_pos hroom, hnone]
      · rw [if_neg hroom]

theorem splitLabels_append (name : Name) {tail : List UInt8} (h : Stops tail) :
    splitLabels (wireLabels name ++ tail) = (name, tail) := by
  induction name with
  | nil => exact splitLabels_of_stops h
  | cons label name ih =>
      rw [wireLabels_cons, List.append_assoc, Label.wire, List.cons_append, splitLabels,
        label.toNat_length, List.take_left, List.drop_left, label.ofBytes_bytes, ih,
        if_pos (by simp)]

theorem wireLabels_splitLabels (bytes : List UInt8) :
    wireLabels (splitLabels bytes).1 ++ (splitLabels bytes).2 = bytes := by
  fun_induction splitLabels bytes with
  | case1 => rfl
  | case2 => rfl
  | case3 len rest hroom label hlabel ih =>
      have hbytes := Label.ofBytes_eq_some hlabel
      have hlen : label.bytes.length = len.toNat := by
        rw [hbytes, List.length_take, Nat.min_eq_left hroom]
      rw [wireLabels_cons, List.append_assoc, ih, Label.wire, hlen, UInt8.ofNat_toNat, hbytes,
        List.cons_append, List.take_append_drop]
  | case4 => rfl

theorem stops_splitLabels (bytes : List UInt8) : Stops (splitLabels bytes).2 := by
  fun_induction splitLabels bytes with
  | case1 => exact trivial
  | case2 len rest hroom hnone =>
      rw [Label.ofBytes_eq_none, List.length_take, Nat.min_eq_left hroom] at hnone
      rcases hnone with hzero | hlong
      · exact .inl (UInt8.toNat.inj hzero)
      · exact .inr (.inl hlong)
  | case3 len rest hroom label hlabel ih => exact ih
  | case4 len rest hroom => exact .inr (.inr (Nat.lt_of_not_le hroom))

/-! ## Messages -/

/-- The fixed part of a message. -/
structure Header where
  id : UInt16
  flags : UInt16
  qdcount : UInt16
  ancount : UInt16
  nscount : UInt16
  arcount : UInt16
  deriving DecidableEq, Repr

@[ext] structure Question where
  name : Name
  qtype : UInt16
  qclass : UInt16
  deriving DecidableEq, Repr

@[ext] structure Record where
  name : Name
  rtype : UInt16
  rclass : UInt16
  ttl : UInt32
  rdata : List UInt8
  deriving DecidableEq, Repr

structure Message where
  id : UInt16
  flags : UInt16
  questions : List Question
  answers : List Record
  authorities : List Record
  additionals : List Record
  deriving DecidableEq, Repr

/-- Words, one after the other. -/
def wireWords (words : List UInt16) : List UInt8 := words.flatMap fun word => beBytes 2 word.toNat

def Header.wire (header : Header) : List UInt8 :=
  wireWords [header.id, header.flags, header.qdcount, header.ancount, header.nscount,
    header.arcount]

def Question.wire (question : Question) : List UInt8 :=
  wireLabels question.name ++ 0 :: wireWords [question.qtype, question.qclass]

theorem Question.wire_append (question : Question) (after : List UInt8) :
    question.wire ++ after =
      wireLabels question.name ++ 0 :: (wireWords [question.qtype, question.qclass] ++ after) := by
  rw [wire, List.append_assoc, List.cons_append]

/-- A record whose name is a pointer to an offset in the message. -/
def Record.wireAt (record : Record) (offset : Nat) : List UInt8 :=
  beBytes 2 (0xC000 + offset) ++ (wireWords [record.rtype, record.rclass] ++
    (beBytes 4 record.ttl.toNat ++ (beBytes 2 record.rdata.length ++ record.rdata)))

/-- The name at a position, and the position behind it; the first argument bounds the
    number of labels and pointers. -/
def readName (msg : List UInt8) : Nat → Nat → Option (Name × Nat)
  | 0, _ => none
  | bound + 1, pos => do
    let len ← msg[pos]?
    if len = 0 then return ([], pos + 1)
    else if 192 ≤ len.toNat then
      let low ← msg[pos + 1]?
      let (name, _) ← readName msg bound ((len.toNat - 192) * 256 + low.toNat)
      return (name, pos + 2)
    else if pos + 1 + len.toNat ≤ msg.length then
      let label ← Label.ofBytes (slice msg (pos + 1) (pos + 1 + len.toNat))
      let (name, next) ← readName msg bound (pos + 1 + len.toNat)
      return (label :: name, next)
    else none

def readQuestion (msg : List UInt8) (pos : Nat) : Option (Question × Nat) := do
  let (name, next) ← readName msg msg.length pos
  if next + 4 ≤ msg.length then
    return ({ name, qtype := beU16 msg next, qclass := beU16 msg (next + 2) }, next + 4)
  else none

def readRecord (msg : List UInt8) (pos : Nat) : Option (Record × Nat) := do
  let (name, next) ← readName msg msg.length pos
  let last := next + 10 + (beU16 msg (next + 8)).toNat
  if next + 10 ≤ msg.length ∧ last ≤ msg.length then
    return ({
      name
      rtype := beU16 msg next
      rclass := beU16 msg (next + 2)
      ttl := beU32 msg (next + 4)
      rdata := slice msg (next + 10) last }, last)
  else none

/-- A number of items, one after the other. -/
def readMany {α : Type} (read : Nat → Option (α × Nat)) : Nat → Nat → Option (List α × Nat)
  | 0, pos => some ([], pos)
  | count + 1, pos => do
    let (item, next) ← read pos
    let (items, last) ← readMany read count next
    return (item :: items, last)

/-- The message that the bytes are, from the first to the last. -/
def readMessage (msg : List UInt8) : Option Message :=
  if msg.length < 12 then none
  else do
    let (questions, pos) ← readMany (readQuestion msg) (beU16 msg 4).toNat 12
    let (answers, pos) ← readMany (readRecord msg) (beU16 msg 6).toNat pos
    let (authorities, pos) ← readMany (readRecord msg) (beU16 msg 8).toNat pos
    let (additionals, pos) ← readMany (readRecord msg) (beU16 msg 10).toNat pos
    if pos = msg.length then
      return { id := beU16 msg 0, flags := beU16 msg 2, questions, answers, authorities,
               additionals }
    else none

/-! ## What is read back -/

@[simp] theorem length_wireWords (words : List UInt16) :
    (wireWords words).length = 2 * words.length := by
  induction words with
  | nil => rfl
  | cons word words ih =>
      rw [wireWords, List.flatMap_cons, List.length_append, beBytes_length, ← wireWords, ih,
        List.length_cons]
      omega

theorem beU16_wireWords (before : List UInt8) (words : List UInt16) (after : List UInt8) {i : Nat}
    (h : i < words.length) :
    beU16 (before ++ (wireWords words ++ after)) (before.length + 2 * i) = words[i] := by
  induction words generalizing before i with
  | nil => exact absurd h (Nat.not_lt_zero i)
  | cons word words ih =>
      have hcons : wireWords (word :: words) ++ after =
          beBytes 2 word.toNat ++ (wireWords words ++ after) := List.append_assoc _ _ _
      rw [hcons]
      cases i with
      | zero => exact beU16_append rfl word _
      | succ i =>
          have hread := ih (before ++ beBytes 2 word.toNat) (Nat.lt_of_succ_lt_succ h)
          rwa [List.append_assoc, List.length_append, beBytes_length, Nat.add_assoc,
            Nat.add_comm 2, ← Nat.mul_succ] at hread

theorem readName_root {msg : List UInt8} {pos : Nat} (bound : Nat) (hget : msg[pos]? = some 0) :
    readName msg (bound + 1) pos = some ([], pos + 1) := by
  rw [readName, hget]
  rfl

theorem readName_label {msg : List UInt8} {bound pos : Nat} {label : Label} {name : Name}
    {next : Nat} (hget : msg[pos]? = some (UInt8.ofNat label.bytes.length))
    (hroom : pos + 1 + label.bytes.length ≤ msg.length)
    (hbytes : slice msg (pos + 1) (pos + 1 + label.bytes.length) = label.bytes)
    (hrest : readName msg bound (pos + 1 + label.bytes.length) = some (name, next)) :
    readName msg (bound + 1) pos = some (label :: name, next) := by
  have hshort := label.short
  have hplain : ¬ 192 ≤ label.bytes.length := by omega
  rw [readName, hget]
  simp only [Option.bind_eq_bind, Option.bind_some, label.toNat_length,
    if_neg label.ofNat_length_ne_zero, if_neg hplain, if_pos hroom, hbytes,
    label.ofBytes_bytes, hrest]
  rfl

theorem readName_labels (name : Name) (before after : List UInt8) {bound : Nat}
    (h : name.length < bound) :
    readName (before ++ (wireLabels name ++ 0 :: after)) bound before.length =
      some (name, before.length + (wireLabels name).length + 1) := by
  induction name generalizing before bound with
  | nil =>
      obtain ⟨bound, rfl⟩ := Nat.exists_eq_succ_of_ne_zero (Nat.ne_of_gt h)
      exact readName_root _ (by simp)
  | cons label name ih =>
      obtain ⟨bound, rfl⟩ := Nat.exists_eq_succ_of_ne_zero (Nat.ne_zero_of_lt h)
      have hmsg : before ++ label.wire ++ (wireLabels name ++ 0 :: after) =
          before ++ (wireLabels (label :: name) ++ 0 :: after) := by
        rw [wireLabels_cons, List.append_assoc, List.append_assoc]
      have hsplit : before ++ (wireLabels (label :: name) ++ 0 :: after) =
          before ++ [UInt8.ofNat label.bytes.length] ++ label.bytes ++
            (wireLabels name ++ 0 :: after) := by
        simp [Label.wire]
      have hnext : (before ++ label.wire).length = before.length + 1 + label.bytes.length := by
        rw [List.length_append, Label.length_wire]
        omega
      have hlast : before.length + 1 + label.bytes.length + (wireLabels name).length + 1 =
          before.length + (wireLabels (label :: name)).length + 1 := by
        rw [wireLabels_cons, List.length_append, Label.length_wire]
        omega
      have hrest := ih (before ++ label.wire) (Nat.lt_of_succ_lt_succ h)
      rw [hmsg, hnext, hlast] at hrest
      refine readName_label ?_ ?_ ?_ hrest
      · simp [Label.wire]
      · rw [List.length_append, List.length_append, wireLabels_cons, List.length_append,
          Label.length_wire]
        omega
      · rw [hsplit]
        exact slice_append (by simp) (by simp)

theorem readName_pointer {before after : List UInt8} {offset bound : Nat} {name : Name}
    {next : Nat} (hoffset : offset < 2 ^ 14)
    (hname : readName (before ++ (beBytes 2 (0xC000 + offset) ++ after)) bound offset =
      some (name, next)) :
    readName (before ++ (beBytes 2 (0xC000 + offset) ++ after)) (bound + 1) before.length =
      some (name, before.length + 2) := by
  have hpointer : beBytes 2 (0xC000 + offset) =
      [UInt8.ofNat ((0xC000 + offset) / 256), UInt8.ofNat (0xC000 + offset)] := rfl
  have hhigh : (UInt8.ofNat ((0xC000 + offset) / 256)).toNat = 192 + offset / 256 := by
    rw [UInt8.toNat_ofNat']
    omega
  have hlow : (UInt8.ofNat (0xC000 + offset)).toNat = offset % 256 := by
    rw [UInt8.toNat_ofNat']
    omega
  have hnonzero : UInt8.ofNat ((0xC000 + offset) / 256) ≠ 0 := by
    intro hzero
    rw [hzero] at hhigh
    exact absurd hhigh (by simp; omega)
  have htarget : (192 + offset / 256 - 192) * 256 + offset % 256 = offset := by omega
  generalize hmsg : before ++ (beBytes 2 (0xC000 + offset) ++ after) = msg at *
  have hget : msg[before.length]? = some (UInt8.ofNat ((0xC000 + offset) / 256)) := by
    rw [← hmsg, hpointer]
    simp
  have hget' : msg[before.length + 1]? = some (UInt8.ofNat (0xC000 + offset)) := by
    rw [← hmsg, hpointer]
    simp
  rw [readName, hget]
  simp only [Option.bind_eq_bind, Option.bind_some, hhigh, if_neg hnonzero,
    if_pos (Nat.le_add_right 192 _), hget', hlow, htarget, hname]
  rfl

@[simp] theorem Question.length_wire (question : Question) :
    question.wire.length = (wireLabels question.name).length + 5 := by
  simp only [wire, List.length_append, List.length_cons, length_wireWords, List.length_nil]

@[simp] theorem Record.length_wireAt (record : Record) (offset : Nat) :
    (record.wireAt offset).length = 12 + record.rdata.length := by
  simp only [wireAt, List.length_append, beBytes_length, length_wireWords, List.length_cons,
    List.length_nil]
  omega

theorem readQuestion_wire (question : Question) (before after : List UInt8) :
    readQuestion (before ++ (question.wire ++ after)) before.length =
      some (question, before.length + question.wire.length) := by
  have hname := congrArg (before ++ ·) (question.wire_append after)
  have hwords : before ++ (question.wire ++ after) = before ++ wireLabels question.name ++ [0] ++
      (wireWords [question.qtype, question.qclass] ++ after) := by
    simp [Question.wire]
  have hnext : (before ++ wireLabels question.name ++ [0]).length =
      before.length + (wireLabels question.name).length + 1 := by
    simp only [List.length_append, List.length_singleton]
  have hlength : (before ++ (question.wire ++ after)).length =
      before.length + (wireLabels question.name).length + 5 + after.length := by
    rw [List.length_append, List.length_append, question.length_wire]
    omega
  have hlabels := length_le_wireLabels question.name
  generalize hmsg : before ++ (question.wire ++ after) = msg at *
  have hread : readName msg msg.length before.length =
      some (question.name, before.length + (wireLabels question.name).length + 1) := by
    rw [hname]
    exact readName_labels question.name before _ (by rw [← hname]; omega)
  have hqtype := beU16_wireWords (before ++ wireLabels question.name ++ [0])
    [question.qtype, question.qclass] after (i := 0) Nat.zero_lt_two
  have hqclass := beU16_wireWords (before ++ wireLabels question.name ++ [0])
    [question.qtype, question.qclass] after (i := 1) Nat.one_lt_two
  rw [← hwords, hnext] at hqtype hqclass
  rw [readQuestion, hread]
  simp only [Option.bind_eq_bind, Option.bind_some]
  rw [if_pos (by omega), question.length_wire]
  exact congrArg some (Prod.ext (Question.ext rfl hqtype hqclass) (by dsimp only; omega))

/-- The fields of a record behind its name. -/
theorem read_wireAt {record : Record} {offset : Nat} {before after msg : List UInt8}
    (hmsg : before ++ (record.wireAt offset ++ after) = msg)
    (hrdata : record.rdata.length < 2 ^ 16) :
    beU16 msg (before.length + 2) = record.rtype ∧
      beU16 msg (before.length + 2 + 2) = record.rclass ∧
      beU32 msg (before.length + 2 + 4) = record.ttl ∧
      (beU16 msg (before.length + 2 + 8)).toNat = record.rdata.length ∧
      slice msg (before.length + 2 + 10) (before.length + 2 + 10 + record.rdata.length) =
        record.rdata := by
  have hlen : (UInt16.ofNat record.rdata.length).toNat = record.rdata.length :=
    UInt16.toNat_ofNat_of_lt' hrdata
  have hwords : msg = before ++ beBytes 2 (0xC000 + offset) ++
      (wireWords [record.rtype, record.rclass] ++ (beBytes 4 record.ttl.toNat ++
        (beBytes 2 record.rdata.length ++ record.rdata) ++ after)) := by
    rw [← hmsg, Record.wireAt]
    simp only [List.append_assoc]
  have hnext : (before ++ beBytes 2 (0xC000 + offset)).length = before.length + 2 := by
    rw [List.length_append, beBytes_length]
  have hrtype := beU16_wireWords (before ++ beBytes 2 (0xC000 + offset))
    [record.rtype, record.rclass] (beBytes 4 record.ttl.toNat ++
      (beBytes 2 record.rdata.length ++ record.rdata) ++ after) (i := 0) Nat.zero_lt_two
  have hrclass := beU16_wireWords (before ++ beBytes 2 (0xC000 + offset))
    [record.rtype, record.rclass] (beBytes 4 record.ttl.toNat ++
      (beBytes 2 record.rdata.length ++ record.rdata) ++ after) (i := 1) Nat.one_lt_two
  rw [← hwords, hnext] at hrtype hrclass
  refine ⟨hrtype, hrclass, ?_, ?_, ?_⟩
  · rw [hwords, List.append_assoc (beBytes 4 _), ← List.append_assoc _ (wireWords _)]
    exact beU32_append (by simp) record.ttl _
  · rw [hwords, List.append_assoc (beBytes 4 _), List.append_assoc (beBytes 2 _),
      ← List.append_assoc _ (wireWords _), ← List.append_assoc _ (beBytes 4 _)]
    have hread := @beU16_append (before ++ beBytes 2 (0xC000 + offset) ++
      wireWords [record.rtype, record.rclass] ++ beBytes 4 record.ttl.toNat)
      (before.length + 2 + 8) (by simp) (UInt16.ofNat record.rdata.length)
      (record.rdata ++ after)
    rw [hlen] at hread
    rw [hread, hlen]
  · rw [hwords, List.append_assoc (beBytes 4 _), List.append_assoc (beBytes 2 _),
      ← List.append_assoc _ (wireWords _), ← List.append_assoc _ (beBytes 4 _),
      ← List.append_assoc _ (beBytes 2 _), ← List.append_assoc _ record.rdata]
    exact slice_append (by simp) (by simp)

/-- The pointer of a record leads to its name. -/
theorem readRecord_wireAt {record : Record} {offset : Nat} {before after msg : List UInt8}
    {bound next : Nat} (hmsg : before ++ (record.wireAt offset ++ after) = msg)
    (hoffset : offset < 2 ^ 14) (hrdata : record.rdata.length < 2 ^ 16)
    (hbound : msg.length = bound + 1)
    (hname : readName msg bound offset = some (record.name, next)) :
    readRecord msg before.length =
      some (record, before.length + (record.wireAt offset).length) := by
  obtain ⟨hrtype, hrclass, httl, hlen, hslice⟩ := read_wireAt hmsg hrdata
  have hpointer : msg = before ++ (beBytes 2 (0xC000 + offset) ++
      (wireWords [record.rtype, record.rclass] ++ (beBytes 4 record.ttl.toNat ++
        (beBytes 2 record.rdata.length ++ record.rdata)) ++ after)) := by
    rw [← hmsg, Record.wireAt]
    simp only [List.append_assoc]
  have hread : readName msg msg.length before.length = some (record.name, before.length + 2) := by
    rw [hbound]
    rw [hpointer] at hname ⊢
    exact readName_pointer hoffset hname
  have hlength : msg.length = before.length + 12 + record.rdata.length + after.length := by
    rw [← hmsg, List.length_append, List.length_append, record.length_wireAt]
    omega
  rw [readRecord, hread]
  simp only [Option.bind_eq_bind, Option.bind_some, hlen, hslice, hrtype, hrclass, httl]
  rw [if_pos (by omega), record.length_wireAt]
  exact congrArg some (Prod.ext rfl (by dsimp only; omega))

/-! ## Answers -/

@[simp] theorem Header.length_wire (header : Header) : header.wire.length = 12 :=
  length_wireWords _

theorem Header.read_wire (header : Header) (rest : List UInt8) :
    beU16 (header.wire ++ rest) 0 = header.id ∧ beU16 (header.wire ++ rest) 2 = header.flags ∧
      beU16 (header.wire ++ rest) 4 = header.qdcount ∧
      beU16 (header.wire ++ rest) 6 = header.ancount ∧
      beU16 (header.wire ++ rest) 8 = header.nscount ∧
      beU16 (header.wire ++ rest) 10 = header.arcount := by
  have hread : ∀ i (h : i < 6), beU16 (header.wire ++ rest) (2 * i) = [header.id, header.flags,
      header.qdcount, header.ancount, header.nscount, header.arcount][i] := by
    intro i h
    rw [← beU16_wireWords [] _ rest h, List.length_nil, Nat.zero_add]
    rfl
  exact ⟨hread 0 (by decide), hread 1 (by decide), hread 2 (by decide), hread 3 (by decide),
    hread 4 (by decide), hread 5 (by decide)⟩

/-- The header of a message with one question and one answer. -/
def answerHeader (id flags : UInt16) : Header := ⟨id, flags, 1, 1, 0, 0⟩

/-- A message with one question and one record, whose name is a pointer to the question. -/
def answerWire (id flags : UInt16) (question : Question) (record : Record) : List UInt8 :=
  (answerHeader id flags).wire ++ (question.wire ++ record.wireAt 12)

section Answer
variable (id flags : UInt16) {question : Question} {record : Record}

theorem length_answerWire (question : Question) (record : Record) :
    (answerWire id flags question record).length =
      12 + question.wire.length + (record.wireAt 12).length := by
  rw [answerWire, List.length_append, List.length_append, Header.length_wire, Nat.add_assoc]

theorem readQuestion_answerWire : readQuestion (answerWire id flags question record) 12 =
    some (question, 12 + question.wire.length) := by
  have hread := readQuestion_wire question (answerHeader id flags).wire (record.wireAt 12)
  rwa [← answerWire, Header.length_wire] at hread

theorem readRecord_answerWire (hname : record.name = question.name)
    (hrdata : record.rdata.length < 2 ^ 16) :
    readRecord (answerWire id flags question record) (12 + question.wire.length) =
      some (record, 12 + question.wire.length + (record.wireAt 12).length) := by
  have hrecord : (answerHeader id flags).wire ++ question.wire ++ (record.wireAt 12 ++ []) =
      answerWire id flags question record := by
    rw [answerWire, List.append_nil, List.append_assoc]
  have hlabels := congrArg ((answerHeader id flags).wire ++ ·)
    (question.wire_append (record.wireAt 12))
  have hlength := length_answerWire id flags question record
  have hfew := length_le_wireLabels question.name
  rw [question.length_wire] at hlength
  obtain ⟨bound, hbound⟩ := Nat.exists_eq_succ_of_ne_zero
    (n := (answerWire id flags question record).length) (by omega)
  have hpointed : readName (answerWire id flags question record) bound 12 =
      some (record.name, 12 + (wireLabels question.name).length + 1) := by
    rw [answerWire, hlabels, hname]
    exact readName_labels question.name _ _ (by omega)
  have hread := readRecord_wireAt hrecord (by decide) hrdata hbound hpointed
  rwa [List.length_append, Header.length_wire] at hread

/-- Such a message says what it should. -/
theorem readMessage_answerWire (hname : record.name = question.name)
    (hrdata : record.rdata.length < 2 ^ 16) :
    readMessage (answerWire id flags question record) =
      some ⟨id, flags, [question], [record], [], []⟩ := by
  obtain ⟨hid, hflags, hqdcount, hancount, hnscount, harcount⟩ :=
    (answerHeader id flags).read_wire (question.wire ++ record.wireAt 12)
  rw [← answerWire] at hid hflags hqdcount hancount hnscount harcount
  have hlength := length_answerWire id flags question record
  have hzero : (0 : UInt16).toNat = 0 := rfl
  have hone : (1 : UInt16).toNat = 1 := rfl
  rw [readMessage, if_neg (by omega), hid, hflags, hqdcount, hancount, hnscount, harcount]
  simp only [answerHeader, hzero, hone, readMany, readQuestion_answerWire,
    readRecord_answerWire id flags hname hrdata, Option.bind_eq_bind, Option.bind_some,
    Option.pure_def, if_pos hlength.symm]

end Answer

end ConnectAlso.Misc.Dns
