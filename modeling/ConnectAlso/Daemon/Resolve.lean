import ConnectAlso.Daemon.DnsQueries

/-!
# Magic DNS resolves the hosts

From the list of hosts to the answer: the name of a host goes into the table in lower case,
the question is brought to lower case label by label, and the two meet if the name is
ASCII. An entry is found if no later one has the same lower case, which is more than being
equal up to the case of ASCII letters, and if its name does not end in `.connectalso`.
-/

namespace ConnectAlso.Daemon
open Misc Dns

variable (data : CaseData)

/-! ## The table -/

theorem insertHosts_of_ne {records : String → Option Ipv4Addr}
    {hosts : List (String × Ipv4Addr)} {key : String}
    (h : ∀ host ∈ hosts, data.toLowercase host.1 ≠ key) :
    insertHosts data records hosts key = records key := by
  induction hosts generalizing records with
  | nil => rfl
  | cons host hosts ih =>
      obtain ⟨hhost, hhosts⟩ := List.forall_mem_cons.mp h
      rw [insertHosts, List.foldl_cons, ← insertHosts, ih hhosts,
        Function.update_of_ne (Ne.symm hhost)]

/-- The last entry of a name counts. -/
theorem updateRecords_records (server : DnsServer) (earlier : List (String × Ipv4Addr))
    {later : List (String × Ipv4Addr)} {name : String} (ip : Ipv4Addr)
    (h : ∀ host ∈ later, data.toLowercase host.1 ≠ data.toLowercase name) :
    (server.updateRecords data (earlier ++ (name, ip) :: later)).records
      (data.toLowercase name) = some ip := by
  rw [DnsServer.updateRecords, insertHosts, List.foldl_append, List.foldl_cons]
  exact (insertHosts_of_ne data h).trans (Function.update_self _ _ _)

/-! ## Names up to case -/

/-- The bytes of the labels, in lower case. -/
def lowered (name : Name) : List (List UInt8) := name.map fun label => label.bytes.map lowerByte

/-- A name as text. -/
def nameText (name : Name) : String := dotted (name.map Label.bytes)

/-- A name with ASCII labels. -/
def AsciiName (name : Name) : Prop := ∀ label ∈ name, IsAscii label.bytes

/-- The last label of the names that the server is for. -/
def connectalso : Label :=
  ⟨[99, 111, 110, 110, 101, 99, 116, 97, 108, 115, 111], by decide, by decide⟩

theorem toLowercase_nameText {name : Name} (h : AsciiName name) :
    data.toLowercase (nameText name) = dotted (lowered name) := by
  have hbytes : ∀ bytes ∈ name.map Label.bytes, IsAscii bytes := by
    intro bytes hmem
    obtain ⟨label, hlabel, rfl⟩ := List.mem_map.mp hmem
    exact h label hlabel
  rw [nameText, data.toLowercase_dotted hbytes, List.map_map]
  rfl

theorem asciiName_iff_lowered (name : Name) :
    AsciiName name ↔ ∀ bytes ∈ lowered name, IsAscii bytes := by
  simp only [AsciiName, lowered, List.forall_mem_map, IsAscii, lowerByte_lt_iff]

/-- The labels of a question as the loop reads them. -/
theorem labelTexts_of_asciiName {name : Name} (h : AsciiName name) :
    labelTexts name = some (name.map fun label => asciiText label.bytes) := by
  induction name with
  | nil => rfl
  | cons label name ih =>
      obtain ⟨hlabel, hname⟩ := List.forall_mem_cons.mp h
      rw [labelTexts_cons, fromUtf8_of_isAscii hlabel, Option.bind_some, ih hname]
      rfl

theorem resolve_of_asciiName (server : DnsServer) {name : Name} (h : AsciiName name) :
    server.resolve data name = server.records (lookupKey (dotted (lowered name))) := by
  have htexts : (name.map fun label => asciiText label.bytes).map data.toLowercase =
      (lowered name).map asciiText := by
    rw [List.map_map, lowered, List.map_map]
    exact List.map_congr_left fun label hlabel => data.toLowercase_asciiText (h label hlabel)
  rw [DnsServer.resolve, labelTexts_of_asciiName h, Option.bind_some, htexts]
  rfl

/-! ## The key -/

/-- The name has the suffix by which the server's names are recognised, in any case. -/
def HasSuffix (name : Name) : Prop := ".connectalso".toList <:+ (dotted (lowered name)).toList

theorem lookupKey_bare {name : Name} (h : ¬ HasSuffix name) :
    lookupKey (dotted (lowered name)) = dotted (lowered name) := by
  rw [lookupKey, stripSuffix_of_not_isSuffix h, Option.getD_none]

theorem lookupKey_suffix {name : Name} (h : name ≠ []) :
    lookupKey (dotted (lowered (name ++ [connectalso]))) = dotted (lowered name) := by
  have hsuffix : "." ++ dotted (lowered [connectalso]) = ".connectalso" := by decide +kernel
  have hname : lowered name ≠ [] := fun hnil => h (List.map_eq_nil_iff.mp hnil)
  rw [lowered, List.map_append, ← lowered, ← lowered, dotted_append hname (by decide),
    String.append_assoc, hsuffix, lookupKey, stripSuffix_append, Option.getD_some]

/-- The question is for the name, bare or with the suffix, in any case. -/
def AsksFor (asked name : Name) : Prop :=
  lowered asked = lowered name ∨ lowered asked = lowered (name ++ [connectalso])

theorem AsksFor.asciiName {asked name : Name} (h : AsksFor asked name) (hname : AsciiName name) :
    AsciiName asked := by
  rw [asciiName_iff_lowered] at hname ⊢
  rcases h with hbare | hsuffix
  · rwa [hbare]
  · rw [hsuffix, lowered, List.map_append, List.forall_mem_append]
    exact ⟨hname, by decide⟩

theorem AsksFor.lookupKey_eq {asked name : Name} (h : AsksFor asked name) (hname : name ≠ [])
    (hsuffix : ¬ HasSuffix name) : lookupKey (dotted (lowered asked)) = dotted (lowered name) := by
  rcases h with hbare | hlong
  · rw [hbare, lookupKey_bare hsuffix]
  · rw [hlong, lookupKey_suffix hname]

/-! ## The response -/

/-- A query: its header, its first question and whatever follows. -/
def queryWire (header : Header) (question : Question) (after : List UInt8) : List UInt8 :=
  header.wire ++ (question.wire ++ after)

theorem dnsResponse_eq (id : UInt16) (question : Question) (ip : Ipv4Addr) :
    dnsResponse (beBytes 2 id.toNat) question.wire ip =
      answerWire id 0x8180 question ⟨question.name, 1, 1, 60, ip.octets⟩ := by
  have hheader : wireWords [0x8180, 1, 1, 0, 0] =
      [0x81, 0x80, 0x00, 0x01, 0x00, 0x01, 0x00, 0x00, 0x00, 0x00] := by decide
  have hpointer : beBytes 2 (0xC000 + 12) = [0xC0, 0x0C] := by decide
  have htype : wireWords [1, 1] = [0x00, 0x01, 0x00, 0x01] := by decide
  have httl : beBytes 4 (60 : UInt32).toNat = [0x00, 0x00, 0x00, 60] := by decide
  have hlength : beBytes 2 4 = [0x00, 0x04] := by decide
  have hoctets : ip.octets.length = 4 := rfl
  have hsplit : (answerHeader id 0x8180).wire =
      beBytes 2 id.toNat ++ wireWords [0x8180, 1, 1, 0, 0] := rfl
  rw [dnsResponse, answerWire, hsplit, hheader, Record.wireAt, hpointer, htype, httl, hoctets,
    hlength, List.append_assoc]
  rfl

/-- The answer to a query for the address of a name. -/
theorem handleQuery_queryWire (server : DnsServer) {header : Header} (hcount : header.qdcount ≠ 0)
    (name : Name) (after : List UInt8) :
    server.handleQuery data (queryWire header ⟨name, 1, 1⟩ after) =
      .ok ((server.resolve data name).map fun ip =>
        answerWire header.id 0x8180 ⟨name, 1, 1⟩ ⟨name, 1, 1, 60, ip.octets⟩) := by
  have hdrop : (queryWire header ⟨name, 1, 1⟩ after).drop 12 =
      wireLabels name ++ 0 :: (wireWords [1, 1] ++ after) := by
    rw [queryWire, ← header.length_wire, List.drop_left, Question.wire_append]
  have hlength : (queryWire header ⟨name, 1, 1⟩ after).length =
      12 + (wireLabels name).length + 5 + after.length := by
    have hwire : (⟨name, 1, 1⟩ : Question).wire.length = (wireLabels name).length + 5 :=
      Question.length_wire _
    rw [queryWire, List.length_append, List.length_append, header.length_wire, hwire]
    omega
  have hstop : stopPos name (0 :: (wireWords [1, 1] ++ after)) =
      12 + (wireLabels name).length + 1 := rfl
  obtain ⟨-, -, hqdcount, -⟩ := header.read_wire ((⟨name, 1, 1⟩ : Question).wire ++ after)
  rw [← queryWire] at hqdcount
  have hid : slice (queryWire header ⟨name, 1, 1⟩ after) 0 2 = beBytes 2 header.id.toNat := by
    rw [queryWire, Header.wire, wireWords, List.flatMap_cons, List.append_assoc]
    exact @slice_append [] _ _ 0 2 rfl (by simp)
  have hquestion : slice (queryWire header ⟨name, 1, 1⟩ after) 12
      (12 + (wireLabels name).length + 1 + 4) = (⟨name, 1, 1⟩ : Question).wire := by
    rw [queryWire, ← List.append_assoc]
    exact slice_append header.length_wire.symm (by simp; omega)
  rw [handleQuery_eq data server (by omega) hdrop (stops_root _), hqdcount, if_neg hcount, hstop,
    if_neg (by omega), hid, hquestion]
  simp only [dnsResponse_eq]

namespace DnsServer

/-- The server answers the query with a message that has the id and the question of the
    query, and one record: the address, for the same name. -/
def Answers (server : DnsServer) (query : List UInt8) (id : UInt16) (question : Question)
    (ip : Ipv4Addr) : Prop :=
  ∃ response message record, server.handleQuery data query = .ok (some response) ∧
    readMessage response = some message ∧ message.id = id ∧ message.questions = [question] ∧
    message.answers = [record] ∧ record.name = question.name ∧ record.rtype = 1 ∧
    record.rclass = 1 ∧ record.rdata = ip.octets

theorem answers_iff (server : DnsServer) {header : Header} (hcount : header.qdcount ≠ 0)
    (name : Name) (after : List UInt8) (ip : Ipv4Addr) :
    server.Answers data (queryWire header ⟨name, 1, 1⟩ after) header.id ⟨name, 1, 1⟩ ip ↔
      server.resolve data name = some ip := by
  have hread : ∀ ip : Ipv4Addr, readMessage (answerWire header.id 0x8180 ⟨name, 1, 1⟩
      ⟨name, 1, 1, 60, ip.octets⟩) =
      some ⟨header.id, 0x8180, [⟨name, 1, 1⟩], [⟨name, 1, 1, 60, ip.octets⟩], [], []⟩ :=
    fun ip => readMessage_answerWire header.id 0x8180 rfl (by simp [Ipv4Addr.octets])
  unfold Answers
  rw [handleQuery_queryWire data server hcount]
  constructor
  · rintro ⟨response, message, record, hanswer, hmessage, -, -, hanswers, -, -, -, hrdata⟩
    obtain ⟨found, hresolve, rfl⟩ := Option.map_eq_some_iff.mp (Except.ok.inj hanswer)
    rw [hread] at hmessage
    cases hmessage
    cases hanswers
    rw [hresolve, Ipv4Addr.octets_inj.mp hrdata]
  · intro hresolve
    rw [hresolve]
    exact ⟨_, _, _, rfl, hread ip, rfl, rfl, rfl, rfl, rfl, rfl, rfl⟩

/-- A host whose entry is the last one of its name, in whatever case, is found under its
    bare name and under the name with the suffix. -/
theorem answers_host (server : DnsServer) (earlier : List (String × Ipv4Addr))
    {later : List (String × Ipv4Addr)} {name : Name} (ip : Ipv4Addr) (hname : name ≠ [])
    (hascii : AsciiName name) (hsuffix : ¬ HasSuffix name)
    (hlast : ∀ host ∈ later, data.toLowercase host.1 ≠ data.toLowercase (nameText name))
    {asked : Name} (hasked : AsksFor asked name) {header : Header} (hcount : header.qdcount ≠ 0)
    (after : List UInt8) :
    (server.updateRecords data (earlier ++ (nameText name, ip) :: later)).Answers data
      (queryWire header ⟨asked, 1, 1⟩ after) header.id ⟨asked, 1, 1⟩ ip := by
  rw [answers_iff data _ hcount, resolve_of_asciiName data _ (hasked.asciiName hascii),
    hasked.lookupKey_eq hname hsuffix, ← toLowercase_nameText data hascii]
  exact updateRecords_records data server earlier ip hlast

/-- The label `K`. -/
def capitalK : Label := ⟨[75], by decide, by decide⟩

/-- The label `CONNECTALSO`. -/
def capitalConnectalso : Label :=
  ⟨[67, 79, 78, 78, 69, 67, 84, 65, 76, 83, 79], by decide, by decide⟩

/-- The header of a query with the id 7. -/
def header7 : Header := ⟨7, 0x0100, 1, 0, 0, 0⟩

/-- An earlier entry of the same name and a later one of another name. -/
theorem answers_host_k :
    (serverK.updateRecords latinCase ([("K", ⟨10, 0, 0, 6⟩)] ++
        (nameText [labelK], ⟨10, 0, 0, 7⟩) :: [("db", ⟨10, 0, 0, 8⟩)])).Answers latinCase
      (queryWire header7 ⟨[capitalK, capitalConnectalso], 1, 1⟩ [0xFF]) 7
      ⟨[capitalK, capitalConnectalso], 1, 1⟩ ⟨10, 0, 0, 7⟩ := by
  refine @answers_host latinCase serverK _ _ [labelK] _ (by decide) ?_ ?_ ?_
    [capitalK, capitalConnectalso] (.inr (by decide)) header7 (by decide) [0xFF]
  · intro label hlabel
    rw [List.mem_singleton.mp hlabel]
    decide
  · unfold HasSuffix
    decide +kernel
  · intro host hhost
    rw [List.mem_singleton.mp hhost]
    decide +kernel

/-- The Kelvin sign, which is no ASCII letter. -/
def kelvin : String := String.ofList [Char.ofNat 0x212A]

/-- A later entry hides one that it does not equal up to the case of ASCII letters, and a
    name that ends in `.CONNECTALSO` is not found. -/
theorem hosts_not_found :
    (kelvin.toList.map Char.toLower ≠ (nameText [labelK]).toList.map Char.toLower ∧
      ¬ (serverK.updateRecords latinCase
        ([] ++ (nameText [labelK], ⟨10, 0, 0, 7⟩) :: [(kelvin, ⟨10, 0, 0, 8⟩)])).Answers latinCase
          (queryWire header7 ⟨[labelK], 1, 1⟩ []) 7 ⟨[labelK], 1, 1⟩ ⟨10, 0, 0, 7⟩) ∧
    (¬ ".connectalso".toList <:+ (nameText [labelK, capitalConnectalso]).toList ∧
      ¬ (serverK.updateRecords latinCase
        ([] ++ (nameText [labelK, capitalConnectalso], ⟨10, 0, 0, 7⟩) :: [])).Answers latinCase
          (queryWire header7 ⟨[labelK, capitalConnectalso], 1, 1⟩ []) 7
          ⟨[labelK, capitalConnectalso], 1, 1⟩ ⟨10, 0, 0, 7⟩) := by
  have hcount : header7.qdcount ≠ 0 := by decide
  refine ⟨⟨by decide +kernel, ?_⟩, by decide +kernel, ?_⟩
  · refine (answers_iff latinCase _ hcount _ _ _).not.mpr ?_
    decide +kernel
  · refine (answers_iff latinCase _ hcount _ _ _).not.mpr ?_
    decide +kernel

end DnsServer

end ConnectAlso.Daemon
