import ConnectAlso.Daemon.Status
import ConnectAlso.Misc.Slices
import ConnectAlso.System.Stack

/-!
# What users are shown

The tray application (`apps/desktop/src/main.rs`) and `connectalso status`
(`apps/cli/src/main.rs`) both ask the daemon for its status. The former makes one of three
values of it, which it only logs: its icon is the same all the time. The latter shows the
host names, which come from the devices themselves, by way of the control service and the
daemon, and reach the command line as they were registered. There they are cut at a byte
position, which panics inside a character.
-/

namespace ConnectAlso

namespace Desktop
open Daemon

/-- `ConnStatus`. -/
inductive ConnStatus where
  | connected
  | relayOnly
  | disconnected
  deriving DecidableEq, Repr

/-- `fetch_status`; without an answer that decodes, `answer` is `none`. -/
def fetchStatus (answer : Option StatusResponse) : ConnStatus :=
  match answer with
  | some s =>
    if s.deviceId ≠ "" then
      if s.peers.any fun p => p.path = "direct" then .connected
      else if 0 < s.peerCount then .relayOnly
      else .disconnected
    else .disconnected
  | none => .disconnected

/-- Without a direct path the value tells whether there are peers. -/
theorem fetchStatus_of_relayed {s : StatusResponse} (hid : s.deviceId ≠ "")
    (hpaths : ∀ p ∈ s.peers, p.path = "relay") :
    fetchStatus (some s) = if 0 < s.peerCount then .relayOnly else .disconnected := by
  have hdirect : (s.peers.any fun p => p.path = "direct") = false := by
    rw [List.any_eq_false]
    intro p hp
    simp [hpaths p hp]
  rw [fetchStatus, if_pos hid, hdirect]
  rfl

end Desktop

namespace Cli
open Misc Daemon

/-- `fmt_duration`. -/
def fmtDuration (secs : UInt64) : String :=
  let h := secs / 3600
  let m := secs % 3600 / 60
  let s := secs % 60
  if 0 < h then toString h ++ "h " ++ toString m ++ "m " ++ toString s ++ "s"
  else if 0 < m then toString m ++ "m " ++ toString s ++ "s"
  else toString s ++ "s"

/-- The format `{:<width}`. -/
def padded (width : Nat) (text : String) : String :=
  text ++ String.ofList (List.replicate (width - text.length) ' ')

/-- `&id[..id.len().min(width)]`, or `none` where the slice panics. -/
def shortened (width : Nat) (id : String) : Option String :=
  (takeBytes id.toList (min (byteLen id.toList) width)).map String.ofList

/-- The line of a peer. -/
def peerLine (verbose : Bool) (p : StatusPeer) : Option String :=
  if verbose then
    (shortened 16 p.deviceId).map fun id => "  " ++ padded 16 id ++ "  " ++
      padded 16 p.virtualIp ++ "  " ++ padded 10 p.path ++ "  " ++ p.hostname
  else
    (shortened 20 p.deviceId).map fun id => "  " ++ padded 20 id ++ "  " ++
      padded 16 p.virtualIp ++ "  " ++ p.hostname

/-- The loop over the peers: the lines that are printed, and whether it panics. -/
def peerLines (verbose : Bool) : List StatusPeer → List String × Bool
  | [] => ([], false)
  | p :: rest =>
    match peerLine verbose p with
    | none => ([], true)
    | some line => (line :: (peerLines verbose rest).1, (peerLines verbose rest).2)

/-- `cmd_status` on an answer of the daemon that decodes: the lines that are printed, and
    whether the command panics. -/
def cmdStatus (verbose : Bool) (s : StatusResponse) : List String × Bool :=
  let summary := ["ConnectAlso Daemon", "  Device ID : " ++ s.deviceId,
    "  Virtual IP: " ++ s.virtualIp, "  Hostname  : " ++ s.hostname,
    "  Uptime    : " ++ fmtDuration s.uptimeSecs, "  Peers     : " ++ toString s.peerCount]
  let head :=
    if verbose then
      "  " ++ padded 16 "PEER" ++ "  " ++ padded 16 "VIRTUAL IP" ++ "  " ++ padded 10 "PATH" ++
        "  HOSTNAME"
    else "  " ++ padded 20 "PEER" ++ "  " ++ padded 16 "VIRTUAL IP" ++ "  HOSTNAME"
  let rule := "  " ++ String.ofList (List.replicate (if verbose then 64 else 58) '-')
  if s.peers.isEmpty then (summary, false)
  else
    let lines := peerLines verbose s.peers
    (summary ++ ["", head, rule] ++ lines.1, lines.2)

/-- The width to which the command cuts an id. -/
def idWidth (verbose : Bool) : Nat := if verbose then 16 else 20

theorem peerLine_eq_none_iff (verbose : Bool) (p : StatusPeer) :
    peerLine verbose p = none ↔ Splits p.deviceId.toList (idWidth verbose) := by
  have hcut : ∀ width, shortened width p.deviceId = none ↔ Splits p.deviceId.toList width := by
    intro width
    rw [shortened, Option.map_eq_none_iff]
    by_cases hlong : width < byteLen p.deviceId.toList
    · rw [Nat.min_eq_right hlong.le]
      exact takeBytes_eq_none_iff hlong.le
    · rw [Nat.min_eq_left (Nat.not_lt.mp hlong), takeBytes_eq_none_iff (Nat.le_refl _)]
      exact iff_of_false (not_splits_of_le (Nat.le_refl _))
        (not_splits_of_le (Nat.not_lt.mp hlong))
  cases verbose with
  | true =>
      rw [peerLine, if_pos rfl, Option.map_eq_none_iff]
      exact hcut 16
  | false =>
      rw [peerLine, if_neg (by decide), Option.map_eq_none_iff]
      exact hcut 20

theorem panics_peerLines_iff (verbose : Bool) (peers : List StatusPeer) :
    (peerLines verbose peers).2 = true ↔
      ∃ p ∈ peers, Splits p.deviceId.toList (idWidth verbose) := by
  induction peers with
  | nil => simp [peerLines]
  | cons p rest ih =>
      have hline := peerLine_eq_none_iff verbose p
      rw [peerLines]
      cases hp : peerLine verbose p with
      | none =>
          simp only [true_iff]
          exact ⟨p, List.mem_cons_self, hline.mp hp⟩
      | some line =>
          have hnot : ¬ Splits p.deviceId.toList (idWidth verbose) := by
            rw [← hline, hp]
            simp
          simp [ih, hnot]

/-- The command panics upon a peer whose id is cut inside a character, and upon nothing
    else. -/
theorem panics_cmdStatus_iff (verbose : Bool) (s : StatusResponse) :
    (cmdStatus verbose s).2 = true ↔
      ∃ p ∈ s.peers, Splits p.deviceId.toList (idWidth verbose) := by
  rw [cmdStatus]
  cases hpeers : s.peers with
  | nil => simp
  | cons p rest =>
      simp only [List.isEmpty_cons, Bool.false_eq_true, if_false]
      exact panics_peerLines_iff verbose (p :: rest)

end Cli

namespace System
open Misc Daemon

/-- The daemon of `ourId` shows a device of the database: an approved one other than its
    own. -/
def Shows (db : Control.Db) (ourId : Uuid) (d : Control.DeviceRow) : Prop :=
  d ∈ db.devices ∧ d.status = 1 ∧ d.deviceId ≠ ourId

section
variable {db : Control.Db} {now : Int} {ourId : Uuid} {relayAddr : SocketAddr}
  {shared : SharedState} {entries : List (Uuid × PeerLink)}

/-- The ids that a daemon shows are the host names of the devices that were listed. -/
theorem shown_iff (hsound : Control.Sound db)
    (h : Follows ourId ((Control.handlePeers now db).map decoded) relayAddr shared)
    (hentries : Entries shared entries) (own : Own) (uptimeSecs : UInt64) (id : String) :
    (∃ p ∈ (handleStatus own uptimeSecs entries).peers, p.deviceId = id) ↔
      ∃ d, Shows db ourId d ∧ d.hostname = id := by
  constructor
  · rintro ⟨p, hp, rfl⟩
    obtain ⟨⟨peer, link⟩, hentry, rfl⟩ := List.mem_map.mp hp
    obtain ⟨⟨info, hinfo, rfl, hother, hname, -⟩, -⟩ :=
      h.link ((hentries.mem_iff peer link).mp hentry)
    obtain ⟨d, hd, hstatus, rfl⟩ := (mem_served hsound).mp hinfo
    exact ⟨d, ⟨hd, hstatus, hother⟩, hname.symm⟩
  · rintro ⟨d, ⟨hd, hstatus, hother⟩, rfl⟩
    have hinfo := (@mem_served db hsound now _).mpr ⟨d, hd, hstatus, rfl⟩
    obtain ⟨link, hlink⟩ := h.exists_link hinfo hother
    refine ⟨_, List.mem_map_of_mem ((hentries.mem_iff _ link).mpr hlink), ?_⟩
    obtain ⟨⟨info, hmem, hid, -, hname, -⟩, -⟩ := h.link hlink
    obtain ⟨e, he, hestatus, rfl⟩ := (mem_served hsound).mp hmem
    -- no other row has the id of the device
    obtain rfl := Table.eq_of_clash he hd (Or.inl hid)
    exact hname

end

/-- What a status tells of the devices in the database. -/
structure TellsLeases (db : Control.Db) (ourId : Uuid) (entries : List (Uuid × PeerLink))
    (status : StatusResponse) : Prop where
  relayed : ∀ p ∈ status.peers, p.path = "relay"
  reachable : ∀ p ∈ handleDiagnosticsPeers entries, p.reachable = true
  notConnected : Desktop.fetchStatus (some status) ≠ .connected
  relayOnly : Desktop.fetchStatus (some status) = .relayOnly ↔ ∃ d, Shows db ourId d
  panics : ∀ verbose, (Cli.cmdStatus verbose status).2 = true ↔
    ∃ d, Shows db ourId d ∧ Splits d.hostname.toList (Cli.idWidth verbose)

theorem tellsLeases_of_follows {db : Control.Db} {now : Int} {ourId : Uuid}
    {relayAddr : SocketAddr} {shared : SharedState} {entries : List (Uuid × PeerLink)}
    (hsound : Control.Sound db)
    (h : Follows ourId ((Control.handlePeers now db).map decoded) relayAddr shared)
    (hentries : Entries shared entries) (own : Own) (uptimeSecs : UInt64) :
    TellsLeases db ourId entries (handleStatus own uptimeSecs entries) := by
  have hshown := fun id => shown_iff hsound h hentries own uptimeSecs id
  have hpaths := path_of_follows h hentries own uptimeSecs
  have hvalue := Desktop.fetchStatus_of_relayed (Uuid.toString_ne_empty own.deviceId :
    (handleStatus own uptimeSecs entries).deviceId ≠ "") hpaths
  have hcount : 0 < (handleStatus own uptimeSecs entries).peerCount ↔ ∃ d, Shows db ourId d := by
    constructor
    · intro hpos
      obtain ⟨p, hp⟩ := List.exists_mem_of_length_pos hpos
      obtain ⟨d, hd, -⟩ := (hshown p.deviceId).mp ⟨p, hp, rfl⟩
      exact ⟨d, hd⟩
    · rintro ⟨d, hd⟩
      obtain ⟨p, hp, -⟩ := (hshown d.hostname).mpr ⟨d, hd, rfl⟩
      exact List.length_pos_of_mem hp
  refine ⟨hpaths, fun p hp => (reachable_of_follows h hentries p hp).2, ?_, ?_, ?_⟩
  · rw [hvalue]
    split <;> simp
  · rw [hvalue, ← hcount]
    by_cases hpos : 0 < (handleStatus own uptimeSecs entries).peerCount
    · rw [if_pos hpos]
      exact iff_of_true rfl hpos
    · rw [if_neg hpos]
      exact iff_of_false (by decide) hpos
  · intro verbose
    rw [Cli.panics_cmdStatus_iff]
    constructor
    · rintro ⟨p, hp, hsplits⟩
      obtain ⟨d, hd, hname⟩ := (hshown p.deviceId).mp ⟨p, hp, rfl⟩
      exact ⟨d, hd, by rw [hname]; exact hsplits⟩
    · rintro ⟨d, hd, hsplits⟩
      obtain ⟨p, hp, hid⟩ := (hshown d.hostname).mpr ⟨d, hd, rfl⟩
      exact ⟨p, hp, by rw [hid]; exact hsplits⟩

/-- In every run of the service and its daemons, in every state of a running daemon and in
    whatever order its map yields its entries: all peers are shown as relayed and as
    reachable; `fetch_status` is never `Connected`, and it is `RelayOnly` exactly if another
    device was approved when the daemon synced last; and `connectalso status` panics exactly
    when the host name of such a device has a character across byte 16 (with `--verbose`) or
    byte 20. -/
theorem status_tells_leases {ι : Type} [DecidableEq ι] (state : Control.AppState)
    (requests : ι → Control.Request) (events : List (StackEvent ι)) (ourId : Uuid)
    (hrunning : ((run Stack.step (Stack.start state requests) events).daemons ourId).phase =
      .running) :
    ∃ past env now, SyncedLast (Stack.start state requests) events ourId past env now ∧
      let db := (run Stack.step (Stack.start state requests) past).service.state
      let shared := ((run Stack.step (Stack.start state requests) events).daemons ourId).shared
      (∃ entries, Entries shared entries) ∧
      ∀ entries, Entries shared entries → ∀ own uptimeSecs,
        TellsLeases db ourId entries (handleStatus own uptimeSecs entries) := by
  obtain ⟨past, env, now, hlast, hfollows⟩ :=
    follows_run_stack (Stack.start state requests) (fun _ => rfl) events ourId hrunning
  have hsound := sound_run_stack state requests past
  exact ⟨past, env, now, hlast, hfollows.exists_entries, fun entries hentries own uptimeSecs =>
    tellsLeases_of_follows hsound hfollows hentries own uptimeSecs⟩

/-- A device whose host name has its sixth three-byte character across byte 16. -/
def longNamed : Nat → Control.Request := fun _ =>
  .register ⟨Control.keyOf 1, "桌面电脑桌面电脑"⟩ (Control.idOf 1) 0

/-- Once it is approved and listed, the verbose status panics. -/
theorem longNamed_panics :
    let start := Stack.start Control.AppState.default longNamed
    Cli.idWidth true = 16 ∧ Splits "桌面电脑桌面电脑".toList 16 ∧
    ∃ past env now, SyncedLast start registeredThenSynced (numberedDevice 9) past env now ∧
      let db := (run Stack.step start past).service.state
      let shared := ((run Stack.step start registeredThenSynced).daemons
        (numberedDevice 9)).shared
      (∃ entries, Entries shared entries) ∧
      ∀ entries, Entries shared entries → ∀ own uptimeSecs,
        TellsLeases db (numberedDevice 9) entries (handleStatus own uptimeSecs entries) := by
  intro start
  refine ⟨rfl, ?_, status_tells_leases Control.AppState.default longNamed registeredThenSynced
    (numberedDevice 9) (by decide +kernel)⟩
  exact ⟨"桌面电脑桌".toList, '面', "电脑".toList, by decide +kernel, by decide +kernel,
    by decide +kernel⟩

end System

end ConnectAlso
