import ConnectAlso.Misc.Checked
import ConnectAlso.Misc.DnsFormat
import ConnectAlso.Misc.Text
import ConnectAlso.Net.Address

/-!
# Magic DNS

The DNS server of `apps/daemon/src/dns.rs`, which answers queries for the names of the
hosts. The loop over the labels of a question stops at the root, at a byte that it takes
for a pointer, at a label that the message cuts off or at the end of the message, and
`handle_query` goes on in the same way after each of them: `handleQuery_eq` says what it
answers, by the labels before the stop and what follows them.
-/

namespace ConnectAlso.Daemon
open Misc Dns

/-- `DnsServer`: its records. -/
structure DnsServer where
  records : String → Option Ipv4Addr

variable (data : CaseData)

/-- The loop of `update_records`. -/
def insertHosts (records : String → Option Ipv4Addr) (hosts : List (String × Ipv4Addr)) :
    String → Option Ipv4Addr :=
  hosts.foldl
    (fun records host => Function.update records (data.toLowercase host.1) (some host.2)) records

/-- `DnsServer::update_records`. -/
def DnsServer.updateRecords (server : DnsServer) (hosts : List (String × Ipv4Addr)) :
    DnsServer :=
  { server with records := insertHosts data (fun _ => none) hosts }

/-- The loop of `handle_query` over the labels from position `pos`: the labels and the
    position at which it stops, or `none` if a label is not UTF-8. -/
def parseName (query : List UInt8) (pos : Nat) (nameParts : List String) :
    Checked (Option (List String × Nat)) :=
  if pos < query.length then do
    let len ← readAt query pos
    if len = 0 then return some (nameParts, pos + 1)
    else if len &&& 0xC0 ≠ 0 then return some (nameParts, pos + 2)
    else if query.length < pos + 1 + len.toNat then return some (nameParts, pos + 1)
    else do
      let bytes ← readSlice query (pos + 1) (pos + 1 + len.toNat)
      match fromUtf8 bytes with
      | none => return none
      | some label =>
        parseName query (pos + 1 + len.toNat) (nameParts ++ [data.toLowercase label])
  else return some (nameParts, pos)
termination_by query.length - pos

/-- The key under which a name is looked up. -/
def lookupKey (name : String) : String := (stripSuffix name ".connectalso").getD name

/-- The response. -/
def dnsResponse (txId question : List UInt8) (ip : Ipv4Addr) : List UInt8 :=
  txId ++ ([0x81, 0x80, 0x00, 0x01, 0x00, 0x01, 0x00, 0x00, 0x00, 0x00] ++ (question ++
    ([0xC0, 0x0C, 0x00, 0x01, 0x00, 0x01, 0x00, 0x00, 0x00, 60, 0x00, 0x04] ++ ip.octets)))

/-- `DnsServer::handle_query`. -/
def DnsServer.handleQuery (server : DnsServer) (query : List UInt8) :
    Checked (Option (List UInt8)) :=
  if query.length < 12 then return none
  else do
    let id0 ← readAt query 0
    let id1 ← readAt query 1
    let qd0 ← readAt query 4
    let qd1 ← readAt query 5
    let qdcount := UInt16.ofNat (ofBeBytes [qd0, qd1])
    if qdcount = 0 then return none
    else do
      let parsed ← parseName data query 12 []
      match parsed with
      | none => return none
      | some (nameParts, pos) =>
        let name := ".".intercalate nameParts
        if query.length < pos + 4 then return none
        else
          match server.records (lookupKey name) with
          | none => return none
          | some ip => do
            let question ← readSlice query 12 (pos + 4)
            return some (dnsResponse [id0, id1] question ip)

/-! ## The loop over the labels -/

private theorem mask_eq_zero_iff_ofNat : ∀ n < 256,
    UInt8.ofNat n &&& 0xC0 = 0 ↔ (UInt8.ofNat n).toNat < 64 := by
  decide +kernel

theorem mask_eq_zero_iff (len : UInt8) : len &&& 0xC0 = 0 ↔ len.toNat < 64 := by
  have hmask := mask_eq_zero_iff_ofNat len.toNat len.toNat_lt
  rwa [UInt8.ofNat_toNat] at hmask

/-- How far the loop moves behind the last label. -/
def skipped : List UInt8 → Nat
  | [] => 0
  | len :: _ => if 64 ≤ len.toNat then 2 else 1

/-- The texts of the labels. -/
def labelTexts (labels : Name) : Option (List String) := labels.mapM fun l => fromUtf8 l.bytes

theorem labelTexts_cons (label : Label) (labels : Name) :
    labelTexts (label :: labels) =
      (fromUtf8 label.bytes).bind fun text => (labelTexts labels).map (text :: ·) := by
  rw [labelTexts, List.mapM_cons, ← labelTexts]
  cases fromUtf8 label.bytes with
  | none => rfl
  | some text =>
      cases labelTexts labels with
      | none => rfl
      | some texts => rfl

/-- One round of the loop. -/
theorem parseName_cons {query rest : List UInt8} {pos : Nat} {len : UInt8}
    (hquery : query.drop pos = len :: rest) (nameParts : List String) :
    parseName data query pos nameParts =
      if len = 0 then .ok (some (nameParts, pos + 1))
      else if 64 ≤ len.toNat then .ok (some (nameParts, pos + 2))
      else if rest.length < len.toNat then .ok (some (nameParts, pos + 1))
      else match fromUtf8 (rest.take len.toNat) with
        | none => .ok none
        | some label =>
          parseName data query (pos + 1 + len.toNat) (nameParts ++ [data.toLowercase label]) := by
  have hlt : pos < query.length := by
    by_contra hend
    rw [List.drop_eq_nil_of_le (Nat.le_of_not_lt hend)] at hquery
    cases hquery
  rw [List.drop_eq_getElem_cons hlt] at hquery
  obtain ⟨hlen, hrest⟩ := List.cons.inj hquery
  have hlength : rest.length = query.length - (pos + 1) := by rw [← hrest, List.length_drop]
  have hmask : len &&& 0xC0 ≠ 0 ↔ 64 ≤ len.toNat := by
    rw [ne_eq, mask_eq_zero_iff, Nat.not_lt]
  have hcut : query.length < pos + 1 + len.toNat ↔ rest.length < len.toNat := by omega
  rw [parseName, if_pos hlt, readAt_of_lt hlt, checked_bind_ok, hlen]
  simp only [hmask, hcut, checked_pure]
  by_cases hroom : rest.length < len.toNat
  · simp only [if_pos hroom]
  · have hslice : slice query (pos + 1) (pos + 1 + len.toNat) = rest.take len.toNat := by
      rw [slice, hrest, Nat.add_sub_cancel_left]
    rw [readSlice_of_le (Nat.le_add_right _ _) (by omega), checked_bind_ok, hslice]

theorem parseName_stops {query tail : List UInt8} {pos : Nat} (hquery : query.drop pos = tail)
    (h : Stops tail) (nameParts : List String) :
    parseName data query pos nameParts = .ok (some (nameParts, pos + skipped tail)) := by
  cases tail with
  | nil =>
      have hend : query.length ≤ pos := List.drop_eq_nil_iff.mp hquery
      rw [parseName, if_neg (Nat.not_lt.mpr hend)]
      rfl
  | cons len rest =>
      rw [parseName_cons data hquery, skipped]
      by_cases hlong : 64 ≤ len.toNat
      · have hzero : len ≠ 0 := by
          rintro rfl
          exact absurd hlong (by decide)
        rw [if_neg hzero, if_pos hlong, if_pos hlong]
      · rw [if_neg hlong, if_neg hlong]
        rcases h with rfl | hlarge | hcut
        · rw [if_pos rfl]
        · exact absurd hlarge hlong
        · rw [if_pos hcut]
          split
          · rfl
          · rfl

/-- The loop reads the labels before the stop, in lower case. -/
theorem parseName_eq (labels : Name) {query tail : List UInt8} {pos : Nat}
    (hquery : query.drop pos = wireLabels labels ++ tail) (h : Stops tail)
    (nameParts : List String) :
    parseName data query pos nameParts =
      .ok ((labelTexts labels).map fun texts =>
        (nameParts ++ texts.map data.toLowercase, pos + (wireLabels labels).length +
          skipped tail)) := by
  induction labels generalizing pos nameParts with
  | nil =>
      rw [parseName_stops data hquery h]
      simp [labelTexts]
  | cons label labels ih =>
      have hshort := label.short
      have hcons : query.drop pos = UInt8.ofNat label.bytes.length ::
          (label.bytes ++ (wireLabels labels ++ tail)) := by
        rw [hquery, wireLabels_cons, List.append_assoc]
        rfl
      have hnext : query.drop (pos + 1 + label.bytes.length) = wireLabels labels ++ tail := by
        rw [← List.drop_drop, ← List.drop_drop, hcons, List.drop_one, List.tail_cons,
          List.drop_left]
      have hfits : ¬ (label.bytes ++ (wireLabels labels ++ tail)).length < label.bytes.length := by
        rw [List.length_append]
        omega
      rw [parseName_cons data hcons, label.toNat_length, if_neg label.ofNat_length_ne_zero,
        if_neg (by omega), if_neg hfits, List.take_left, labelTexts_cons]
      cases fromUtf8 label.bytes with
      | none => rfl
      | some text =>
          have hlast : pos + 1 + label.bytes.length + (wireLabels labels).length =
              pos + (wireLabels (label :: labels)).length := by
            rw [wireLabels_cons, List.length_append, Label.length_wire]
            omega
          dsimp only
          rw [ih hnext, hlast, Option.bind_some, Option.map_map]
          cases labelTexts labels with
          | none => rfl
          | some texts => simp

/-! ## What is answered -/

/-- The address that the server has for a name. -/
def DnsServer.resolve (server : DnsServer) (labels : Name) : Option Ipv4Addr :=
  (labelTexts labels).bind fun texts =>
    server.records (lookupKey (".".intercalate (texts.map data.toLowercase)))

/-- The position at which the loop stops. -/
def stopPos (labels : Name) (tail : List UInt8) : Nat :=
  12 + (wireLabels labels).length + skipped tail

theorem handleQuery_of_short {server : DnsServer} {query : List UInt8} (h : query.length < 12) :
    server.handleQuery data query = .ok none := by
  rw [DnsServer.handleQuery, if_pos h, checked_pure]

theorem handleQuery_eq (server : DnsServer) {query tail : List UInt8} {labels : Name}
    (hlength : 12 ≤ query.length) (hquery : query.drop 12 = wireLabels labels ++ tail)
    (h : Stops tail) :
    server.handleQuery data query = .ok (
      if beU16 query 4 = 0 then none
      else if query.length < stopPos labels tail + 4 then none
      else (server.resolve data labels).map fun ip =>
        dnsResponse (slice query 0 2) (slice query 12 (stopPos labels tail + 4)) ip) := by
  have hcount : UInt16.ofNat (ofBeBytes [query[4], query[5]]) = beU16 query 4 := by
    rw [beU16, slice_two (by omega)]
  rw [DnsServer.handleQuery, if_neg (Nat.not_lt.mpr hlength), readAt_of_lt (by omega),
    checked_bind_ok, readAt_of_lt (by omega), checked_bind_ok, readAt_of_lt (by omega),
    checked_bind_ok, readAt_of_lt (by omega), checked_bind_ok]
  simp only [hcount, checked_pure]
  by_cases hzero : beU16 query 4 = 0
  · rw [if_pos hzero, if_pos hzero]
  · rw [if_neg hzero, if_neg hzero, parseName_eq data labels hquery h, checked_bind_ok,
      DnsServer.resolve, slice_two (by omega)]
    cases labelTexts labels with
    | none => simp
    | some texts =>
        simp only [Option.map_some, List.nil_append, Option.bind_some]
        rw [← stopPos]
        by_cases hshort : query.length < stopPos labels tail + 4
        · rw [if_pos hshort, if_pos hshort]
        · rw [if_neg hshort, if_neg hshort]
          cases server.records (lookupKey (".".intercalate (texts.map data.toLowercase))) with
          | none => rfl
          | some ip =>
              have hstop : 12 ≤ stopPos labels tail + 4 := by
                unfold stopPos
                omega
              dsimp only
              rw [readSlice_of_le hstop (Nat.not_lt.mp hshort), checked_bind_ok]
              rfl

end ConnectAlso.Daemon
