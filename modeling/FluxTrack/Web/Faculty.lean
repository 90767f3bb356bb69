import FluxTrack.Scheduling.Merge

/-!
# Starting an online session

The online page of `web/faculty.py`. `online_start` lets a faculty member start an own online
session from a pasted meeting link; every condition is checked on the row as it is read now,
before anything is written. The list of the day's online sessions says of each whether it can
be started.

## Main definitions

* `teamsLinkError` — the check of the pasted link
* `onlineStartError` — the ladder of refusals
* `onlineStart` — the view
* `onlineState`, `onlineRow`, `Db.onlineRows` — the list
-/

namespace FluxTrack

open Calendar Relational Process

/-- `_TEAMS_HOSTS`. -/
def teamsHosts : List String :=
  ["teams.microsoft.com", "teams.live.com", "teams.cloud.microsoft", "teams.microsoft.us",
    "gov.teams.microsoft.us", "dod.teams.microsoft.us"]

/-- `_teams_link_error`. -/
def teamsLinkError (raw : String) : Option String :=
  if raw = "" then some "Paste the Microsoft Teams meeting link for this class."
  else if Py.urlInvalid raw then
    some "That does not look like a link. Paste the full meeting URL."
  else if Py.urlScheme raw ≠ "https" then
    some "The meeting link must start with https:// -- copy it from Teams with 'Copy link'."
  else if teamsHosts.any fun d =>
      Py.urlHostname raw == d || ("." ++ d).toList.isSuffixOf (Py.urlHostname raw).toList then none
  else some ("That is not a Microsoft Teams meeting link. It should look " ++
    "like https://teams.microsoft.com/l/meetup-join/...")

/-- The refusals of an online start, in the order they are checked. -/
def onlineStartError (online : Bool) (s : Session) (now graceMin : ℤ) (link : String) :
    Option String :=
  if !online then
    some ("This class is not Online, so it checks in by scanning the room QR or entering " ++
      "the room code.")
  else if s.status ≠ .scheduled then
    match s.status with
    | .active => some "This class is already started."
    | .absent =>
      some ("This class is recorded as Absent and cannot be started. If you did hold it, " ++
        "ask the IFO office to reinstate the record.")
    | _ => some "This class is already finished."
  else if isNoShowPastGrace s.scheduledStart now graceMin then
    some ("Start is past the " ++ toString graceMin ++ "-minute grace window for this class, " ++
      "so it can no longer be started here.")
  else teamsLinkError link

/-- The session started online by its faculty member. -/
def Session.startOnline (now : ℤ) (link : String) (s : Session) : Session :=
  { s with
    teamsLink := link, status := .active, actualStart := some now,
    checkinMethod := some .onlineSelf }

theorem Session.key_startOnline (now : ℤ) (link : String) (s : Session) :
    key (s.startOnline now link) = key s := rfl

/-- `online_start`: answers with the error shown, if any. -/
def onlineStart (user pk : ℕ) (teamsLink : String) (now started : ℤ) : M (Option String) := do
  let graceMin ← Prog.select fun db => db.policy.graceMinutes
  let link := Py.strip teamsLink
  match ← Prog.select fun db => (do
      let term ← db.activeTerm
      let s ← (db.sessions.get? pk).filter fun s => s.faculty == user && db.inTerm term.id s
      pure (s, db.effectiveModality s == .online) : Option (Session × Bool)) with
  | none => .raise .http404
  | some (s, online) =>
    match onlineStartError online s now graceMin link with
    | some error => pure (some error)
    | none => do
      Prog.atomic do
        saveSession s.id (Session.startOnline started link) (Session.key_startOnline started link)
        createAudit (some user) (.sessionTeamsLinkSet s.id s.teamsLink link)
        let _ ← propagateMergedPresent s.id started (some user)
      pure none

/-! ### The list -/

/-- The states of a card. -/
inductive OnlineState
  | upcoming | startable | active | pastGrace | absent | completed
  deriving DecidableEq, Repr

/-- How a card is drawn. -/
structure OnlineStyle where
  card : String
  pill : String
  icon : String
  label : String
  deriving DecidableEq

/-- `_ONLINE_STYLES`. -/
def OnlineState.style : OnlineState → OnlineStyle
  | .upcoming => ⟨"ft-card--neutral", "ft-pill ft-pill--upcoming", "clock", "Not started"⟩
  | .startable => ⟨"ft-card--info", "ft-pill ft-pill--online", "monitor", "Ready to start"⟩
  | .active => ⟨"ft-card--ok", "ft-pill ft-pill--active", "play", "In session"⟩
  | .pastGrace => ⟨"ft-card--warn", "ft-pill ft-pill--late", "alert-triangle", "Past grace window"⟩
  | .absent => ⟨"ft-card--bad", "ft-pill ft-pill--absent", "x", "Absent"⟩
  | .completed => ⟨"ft-card--neutral", "ft-pill ft-pill--done", "check", "Done"⟩

/-- `_STARTABLE_STATES`. -/
def OnlineState.canStart : OnlineState → Bool
  | .upcoming | .startable => true
  | _ => false

/-- `_online_state`. -/
def onlineState (s : Session) (now graceMin : ℤ) : OnlineState :=
  match s.status with
  | .active => .active
  | .completed => .completed
  | .absent => .absent
  | _ =>
    if isNoShowPastGrace s.scheduledStart now graceMin then .pastGrace
    else if now < s.scheduledStart then .upcoming
    else .startable

/-- A card of the list. -/
structure OnlineRow where
  session : Session
  state : OnlineState
  style : OnlineStyle
  canStart : Bool
  error : Option String
  deriving DecidableEq

/-- `_online_row`. -/
def onlineRow (s : Session) (now graceMin : ℤ) (error : Option String) : OnlineRow :=
  let state := onlineState s now graceMin
  ⟨s, state, state.style, state.canStart, error⟩

/-- `_online_rows`: the faculty member's online sessions of the day by start. -/
def Db.onlineRows (db : Db) (user : ℕ) (now : ℤ) : List OnlineRow :=
  match db.activeTerm with
  | none => []
  | some term =>
    let sessions := (db.sessions.rows.filter fun s =>
      s.faculty == user && s.date == localDate now && db.inTerm term.id s).insertionSort
        fun a b => a.scheduledStart ≤ b.scheduledStart
    (sessions.filter fun s => db.effectiveModality s == .online).map fun s =>
      onlineRow s now db.policy.graceMinutes none

end FluxTrack
