import FluxTrack.Web.Checker

/-!
# Room scans by checkers

The checker's room scan (`verification/resolver.py` and `web/checker.py`). A scan is
decided from the floors the checker is on duty for and the session the room has now; an
action is applied only if it is one the decision permits. Scans made offline come back
in batches: each item is gated as a scan would be now, and its result is recorded under
the client's uuid in the same transaction as its effect, so that it cannot be applied
again.

A `transaction.atomic()` block of the replay is one statement (`Prog.whole`); the reads
before it are statements of their own.

## Main definitions

* `resolveCheckerScan` — the decision
* `Db.activeFloorIds`, `Db.roomSessionState`, `Db.roomSessionAtScan` — what it reads
* `roomAction`, `actionView` — the action of a scan, and the form it is posted with
* `claimReplayReceipt`, `replayItem`, `replay` — offline scans
-/

namespace FluxTrack

open Calendar Relational Process

/-! ### The decision -/

/-- What the decision reads of the room's session. -/
structure SessionState where
  id : ℕ
  status : SessionStatus
  verified : Bool
  deriving DecidableEq

/-- A resolved checker scan. -/
structure CheckerResolution where
  outcome : CheckerOutcome
  session : Option ℕ
  deriving DecidableEq

/-- `ACTIONABLE`. -/
def CheckerOutcome.actionable : CheckerOutcome → Bool
  | .activeUnverified | .noSession => true
  | _ => false

/-- `resolve_checker_scan`. -/
def resolveCheckerScan (activeFloors : List ℕ) (floor : ℕ) (state : Option SessionState) :
    CheckerResolution :=
  if activeFloors.isEmpty then ⟨.offDuty, none⟩
  else if !activeFloors.contains floor then ⟨.wrongFloor, none⟩
  else
    match state with
    | none => ⟨.noSession, none⟩
    | some s =>
      if s.status = .scheduled then ⟨.noSession, none⟩
      else if s.status = .absent then ⟨.absentExcluded, some s.id⟩
      else if s.verified then ⟨.alreadyVerified, some s.id⟩
      else ⟨.activeUnverified, some s.id⟩

/-- `_OUTCOME_ACTIONS`: the actions an outcome permits. -/
def CheckerOutcome.permits : CheckerOutcome → ValidationAction → Bool
  | .noSession, action => action == .verifiedEmpty
  | .activeUnverified, action => action != .verifiedEmpty
  | _, _ => false

namespace Db

/-- `_active_floor_ids`. -/
def activeFloorIds (db : Db) (user : ℕ) (now : ℤ) : List ℕ :=
  match db.activeTerm with
  | none => []
  | some term =>
    (db.assignments.rows.filter fun a =>
      a.user == user && a.role == .checker && a.scope == .floor && a.active &&
        a.term == some term.id && a.coversNow (localDate now) (manila.localTime now)).flatMap
      Assignment.floors

/-- `Session.verified_by_checker`. -/
def verifiedByChecker (db : Db) (s : Session) : Bool :=
  db.validations.rows.any fun v => v.session == some s.id && v.action == .verified

/-- `_room_session_state`: the running session of the room, else the one whose time it is,
unless it is online. -/
def roomSessionState (db : Db) (room : ℕ) (now today : ℤ) : Option Session := do
  let term ← db.activeTerm
  let sessions := (db.sessions.rows.filter fun s =>
    s.room == room && s.date == today && db.inTerm term.id s &&
      s.status != .completed).insertionSort fun a b => a.scheduledStart ≤ b.scheduledStart
  let s ← (sessions.find? fun s => s.status == .active) <|>
    sessions.find? fun s => decide (s.scheduledStart ≤ now) && decide (now ≤ s.scheduledEnd)
  if db.effectiveModality s = .online then none else some s

/-- The state of a session as the decision reads it. -/
def sessionState (db : Db) (s : Session) : SessionState := ⟨s.id, s.status, db.verifiedByChecker s⟩

/-- `_room_session_at_scan`: the session whose time it was when the room was scanned; the first
of several. -/
def roomSessionAtScan (db : Db) (room : ℕ) (scannedAt : ℤ) : Option Session := do
  let term ← db.activeTerm
  let candidates := (db.sessions.rows.filter fun s =>
    s.room == room && s.date == localDate scannedAt && db.inTerm term.id s &&
      (decide (s.scheduledStart ≤ scannedAt) &&
        decide (scannedAt ≤ s.scheduledEnd))).insertionSort
    fun a b => a.scheduledStart ≤ b.scheduledStart
  candidates.find? fun s => db.effectiveModality s != .online

end Db

/-! ### The action of a scan -/

/-- `_apply_action` on a room: the validation and its audit row, and for a flag the
notifications to the offices. The status of the session is left alone. -/
def applyRoomAction (user : ℕ) (session : Option Session) (room : Room) (action : ValidationAction)
    (note : String) (identityMatch : Option Bool) (scannedAt : ℤ) (offline : Bool) : M Unit := do
  Prog.modify fun db =>
    { db with
      validations := db.validations.insert fun pk =>
        ⟨pk, session.map Session.id, room.id, user, action, identityMatch, note, some scannedAt,
          offline⟩ }
  createAudit (some user)
    (.checkerAction action (session.map Session.id) room.code offline false)
  if action.isFlag then do
    notifyRole .ifoAdmin (.checkerFlag room.code action (some user) note)
    notifyRole .hrAdmin (.checkerFlag room.code action none note)
  else pure ()

/-- The identity a room action records. -/
def ValidationAction.identityMatch : ValidationAction → Option Bool
  | .flagIdentityMismatch => some false
  | .verified => some true
  | _ => none

/-- The answers to a room action. -/
inductive RoomReply
  | badPayload
  | refused (outcome : CheckerOutcome)
  | noteRequired
  | applied
  deriving DecidableEq

/-- `action` on a room. -/
def roomAction (user room : ℕ) (action : ValidationAction) (note : String) (now today : ℤ) :
    M RoomReply := do
  match ← Prog.select fun db => db.rooms.get? room with
  | none => pure .badPayload
  | some room => do
    let found ← Prog.select fun db =>
      (db.roomSessionState room.id now today).map fun s => (s, db.sessionState s)
    let floors ← Prog.select fun db => db.activeFloorIds user now
    let outcome := (resolveCheckerScan floors room.floor (found.map Prod.snd)).outcome
    if !outcome.actionable || !outcome.permits action then do
      createAudit (some user) (.checkerRoomActionRefused room.id outcome action)
      pure (.refused outcome)
    else if action.isFlag && Py.strip note = "" then pure .noteRequired
    else do
      let session := found.map Prod.fst
      let key := CacheKey.checkerIdem user (session.elim room.id Session.id) action (minuteOf now)
      let added ← Prog.modifyGet (fun db => (cacheGet db.cache key now).isNone) fun db =>
        { db with cache := cacheAdd db.cache key .flag now (now + 120 * second) }
      if added then do
        applyRoomAction user session room action note action.identityMatch now false
        pure .applied
      else pure .applied

/-! ### Posted actions -/

/-- The session a queued scan names. -/
inductive ClaimedSession
  /-- none is named -/
  | absent
  /-- not a number -/
  | notDigits
  /-- digits that `int` does not read -/
  | unreadable
  | id (pk : ℕ)
  deriving DecidableEq

/-- The id of a room or of a session in a form, which is read in the same way. -/
abbrev PostedId := ClaimedSession

/-- The answers to a posted action. -/
inductive ActionReply
  | badPayload
  | room (reply : RoomReply)
  | online (reply : OnlineReply)
  deriving DecidableEq

/-- `_online_action` on the session a form names. -/
def onlineActionOn (user : ℕ) (session : PostedId) (action : ValidationAction) (note : String)
    (now last : ℤ) : M OnlineReply :=
  match session with
  | .id pk => onlineAction user pk action note now last
  | .unreadable => do
    if ← Prog.select fun db => db.activeTerm.isSome then .raise .value
    else pure (.refused .offDuty)
  | _ => pure (.refused .offDuty)

/-- `action`: a session without a room is an online session; `last` is the reading of the merge
helper. -/
def actionView (user : ℕ) (room session : PostedId) (action : ReplayAction) (note : String)
    (now today last : ℤ) : M ActionReply :=
  match action with
  | .other _ => pure .badPayload
  | .known action =>
    if room = .absent ∧ session ≠ .absent then do
      let reply ← onlineActionOn user session action note now last
      pure (.online reply)
    else
      match room with
      | .id pk => do
        let reply ← roomAction user pk action note now today
        pure (.room reply)
      | .unreadable => .raise .value
      | _ => pure .badPayload

/-! ### Offline scans -/

/-- The time a queued scan gives. -/
inductive ClaimedTime
  /-- none, or a text that is not one -/
  | absent
  /-- of the right form, but out of range -/
  | unreadable
  | time (t : ℤ)
  deriving DecidableEq

/-- An item of a replay batch as it is decoded: `UUID(...)` or none where that raises, the
stripped token and whether it has six digits, and what `parse_datetime(...)` makes of the
time. -/
structure ReplayItem where
  clientUuid : Option ℕ
  token : String
  sixDigits : Bool
  session : ClaimedSession
  action : ReplayAction
  note : String
  scannedAt : ClaimedTime
  deriving DecidableEq

/-- The time of a scan, which is the time of the batch if the item gives none. -/
def ReplayItem.time (item : ReplayItem) (now : ℤ) : ℤ :=
  match item.scannedAt with
  | .time t => t
  | _ => now

/-- The status reported for an item. -/
inductive ReplayStatus
  | applied | flagged | duplicate
  deriving DecidableEq, Repr

/-- The result reported for an item. -/
structure ReplayResult where
  uuid : Option ℕ
  status : ReplayStatus
  reason : Option ReplayReason
  deriving DecidableEq

/-- `CheckerReplayReceipt.objects.create`. -/
def createReceipt (uuid user : ℕ) (status : ReceiptStatus) (reason : Option ReplayReason) :
    M Unit := do
  let created ← Prog.modifyGet (fun db => (db.receipts.insert? uuid user status reason).isSome)
    fun db => { db with receipts := (db.receipts.insert? uuid user status reason).getD db.receipts }
  if created then pure () else .raise .integrity

/-- `_claim_replay_receipt`: a lost race for the uuid is undone to the savepoint. -/
def claimReplayReceipt (user uuid : ℕ) (status : ReceiptStatus) (reason : Option ReplayReason) :
    M Bool :=
  (Prog.atomic (createReceipt uuid user status reason)).elim (fun _ => pure true) fun e =>
    if e = .integrity then pure false else .raise e

/-- Claim the uuid and, if that was the first claim, take the effect that goes with it. -/
def claiming (user uuid : ℕ) (status : ReceiptStatus) (reason : Option ReplayReason)
    (effect : M Unit) : M Bool :=
  Prog.whole (Prog.atomic do
    let claimed ← claimReplayReceipt user uuid status reason
    if claimed then do
      effect
      pure true
    else pure false)

/-- The result of an item that was claimed with a status, or was a duplicate. -/
def claimResult (uuid : ℕ) (status : ReplayStatus) (reason : Option ReplayReason) (claimed : Bool) :
    ReplayResult :=
  if claimed then ⟨some uuid, status, reason⟩ else ⟨some uuid, .duplicate, none⟩

/-- Record an item as flagged, with the effect that goes with it. -/
def replayFlagged (user uuid : ℕ) (reason : ReplayReason) (effect : M Unit) : M ReplayResult := do
  let claimed ← claiming user uuid .flagged (some reason) effect
  pure (claimResult uuid .flagged (some reason) claimed)

/-- The effect of an item that no longer applies. -/
def replayConflict (user uuid : ℕ) (action : ReplayAction) (session : Option Session)
    (room : Option Room) (reason : ReplayReason) : M Unit := do
  createAudit (some user)
    (.checkerReplayConflict (session.map Session.id) reason uuid action)
  notifyRole .ifoAdmin (.checkerReplayConflict (room.map Room.code) reason)

/-- `_replay_manual_code_allowed`. -/
def replayManualCodeAllowed (user : ℕ) (now : ℤ) : M Bool := do
  let key := CacheKey.checkerReplayRl user (minuteOf now)
  let limit ← Prog.select fun db => db.policy.manualCodeRateLimitPerMin
  Prog.modify fun db =>
    { db with cache := cacheAdd db.cache key (.count 0) now (now + 90 * second) }
  let count ← Prog.select fun db => cacheCount db.cache key now
  if limit ≤ count then pure false
  else do
    Prog.modify fun db => { db with cache := cacheIncr db.cache key }
    pure true

/-- `_room_from_replay_token`. -/
def roomFromReplayToken (item : ReplayItem) : M (Option Room) :=
  if item.token = "" then pure none
  else do
    match ← Prog.select fun db => db.rooms.rows.find? fun r => r.qrToken == item.token with
    | some room => pure (some room)
    | none =>
      if item.sixDigits then
        Prog.select fun db => db.rooms.rows.find? fun r => r.manualCode == item.token
      else pure none

/-- A reading in the years 1 to 9999, which a `datetime` can hold. -/
def isDatetime (reading : ℤ) : Bool :=
  decide (-719162 * dayLength ≤ reading) && decide (reading < 2932897 * dayLength)

/-- `timezone.localdate` does not overflow: the instant has a reading in UTC and here. -/
def localizes (i : ℤ) : Bool := isDatetime i && isDatetime (i + manila.offset)

/-- A `datetime`: a reading of the clock, with its offset from UTC or without one. -/
inductive ScanTime
  | naive (reading : ℤ)
  | aware (reading offset : ℤ)
  deriving DecidableEq

/-- The instant of the reading, which is one of the local clock where no offset is given. -/
def ScanTime.instant : ScanTime → ℤ
  | naive reading => reading - manila.offset
  | aware reading offset => reading - offset

/-- `_room_session_at_scan` for a time as it was parsed. -/
def Db.roomSessionAt (db : Db) (room : ℕ) (scannedAt : ScanTime) : Except Err (Option Session) :=
  if db.activeTerm.isSome && !localizes scannedAt.instant then .error .overflow
  else .ok (db.roomSessionAtScan room scannedAt.instant)

/-- `parse_datetime(...) or now`. -/
def parseScannedAt (item : ReplayItem) (now : ℤ) : M ℤ :=
  if item.scannedAt = .unreadable then .raise .value else pure (item.time now)

/-- The session a queued scan was about: the one it names, else the one whose time it was. -/
def expectedSession (item : ReplayItem) (room : Room) (scannedAt : ℤ) : M (Option ℕ) :=
  match item.session with
  | .id pk => pure (some pk)
  | .unreadable => .raise .value
  | .absent => do
    -- the date of the scan is only read in an active term
    if ← Prog.select fun db => db.activeTerm.isSome && !localizes scannedAt then .raise .overflow
    else Prog.select fun db => (db.roomSessionAtScan room.id scannedAt).map Session.id
  | .notDigits => pure none

/-- Why an item does not apply to the session the room has now, if it does not. -/
def replayReason (item : ReplayItem) (outcome : CheckerOutcome) (expected current : Option ℕ) :
    Option ReplayReason :=
  if item.session = .notDigits then some .badPayload
  else if expected ≠ current then some .sessionChanged
  else if !outcome.actionable then some (.gated outcome)
  else
    match item.action with
    | .other _ => some .badPayload
    | .known action =>
      if !outcome.permits action then some .actionIncongruent
      else if action.isFlag && Py.strip item.note = "" then some .noteRequired
      else none

/-- The effect of an item that applies; its time is stored in UTC. -/
def applyOffline (user : ℕ) (session : Option Session) (room : Room) (action : ValidationAction)
    (note : String) (scannedAt : ℤ) : M Unit :=
  if isDatetime scannedAt then
    applyRoomAction user session room action note action.identityMatch scannedAt true
  else .raise .overflow

/-- Apply an item whose uuid can still be claimed. -/
def replayApplied (user uuid : ℕ) (item : ReplayItem) (action : ValidationAction)
    (session : Option Session) (room : Room) (scannedAt : ℤ) : M ReplayResult := do
  let claimed ← claiming user uuid .applied none
    (applyOffline user session room action item.note scannedAt)
  pure (claimResult uuid .applied none claimed)

/-- The handling of an item once it is known to be new and within the rate limit. -/
def replayScan (user uuid : ℕ) (item : ReplayItem) (now today : ℤ) : M ReplayResult := do
  let room ← roomFromReplayToken item
  let scannedAt ← parseScannedAt item now
  match room with
  | none =>
    replayFlagged user uuid .badRoom (replayConflict user uuid item.action none none .badRoom)
  | some room => do
    let found ← Prog.select fun db =>
      (db.roomSessionState room.id now today).map fun s => (s, db.sessionState s)
    let floors ← Prog.select fun db => db.activeFloorIds user now
    let outcome := (resolveCheckerScan floors room.floor (found.map Prod.snd)).outcome
    let expected ← expectedSession item room scannedAt
    let session := found.map Prod.fst
    match replayReason item outcome expected (session.map Session.id), item.action with
    | none, .known action => replayApplied user uuid item action session room scannedAt
    | none, .other _ => .raise .value
    | some reason, _ =>
      replayFlagged user uuid reason
        (replayConflict user uuid item.action session (some room) reason)

/-- The handling of one item of a batch. -/
def replayItem (user : ℕ) (item : ReplayItem) (now today : ℤ) : M ReplayResult :=
  match item.clientUuid with
  | none => pure ⟨none, .flagged, some .badPayload⟩
  | some uuid => do
    if ← Prog.select fun db => db.receipts.has uuid then pure ⟨some uuid, .duplicate, none⟩
    else if item.sixDigits then do
      if ← replayManualCodeAllowed user now then replayScan user uuid item now today
      else
        replayFlagged user uuid .rateLimited
          (createAudit (some user) (.checkerReplayRateLimited uuid))
    else replayScan user uuid item now today

/-- `replay`: the items of a batch one after another, each with the date read for it. -/
def replay (user : ℕ) (now : ℤ) : List (ReplayItem × ℤ) → M (List ReplayResult)
  | [] => pure []
  | (item, today) :: items => do
    let result ← replayItem user item now today
    let results ← replay user now items
    pure (result :: results)

end FluxTrack
