import FluxTrack.Scheduling.Merge

/-!
# Faculty scans

`web/scan.py`: a room scan is resolved against the faculty member's sessions of
the day and applied at once, except for the outcomes that need a confirmation.
For those a token is signed, and the outcome is applied when the token comes
back, in whatever state the database then is.

Every `timezone.now()` of a view is a reading of its own.

## Main definitions

* `roomFromPayload`, `scanSessions`, `occupying` — the context of a scan
* `applyScan` — `_apply`, the side effects of an outcome
* `resolveScan`, `confirmScan` — the two views
-/

namespace FluxTrack

open Calendar Relational Process

/-! ### From the payload to the room -/

/-- A scanned payload: a deep link with a token, a six-digit code or neither. -/
inductive Payload
  | link (token : String)
  | code (digits : String)
  | other
  deriving DecidableEq

/-- Why a scan was not resolved. -/
inductive ScanError
  | rateLimited
  | badPayload
  | unknownRoom (method : CheckinMethod)
  | outOfService (detail : String)
  deriving DecidableEq

/-- `_room_from_payload`. -/
def roomFromPayload (user : ℕ) (payload : Payload) (now : ℤ) :
    M (Except ScanError (Room × CheckinMethod)) :=
  match payload with
  | .link token => do
    match ← Prog.select fun db => db.rooms.rows.find? fun r => r.qrToken == token with
    | some room => pure (.ok (room, .qrScan))
    | none => pure (.error (.unknownRoom .qrScan))
  | .code digits => do
    let limit ← Prog.select fun db => db.policy.manualCodeRateLimitPerMin
    let key := CacheKey.scanRl user (minuteOf now)
    Prog.modify fun db =>
      { db with cache := cacheAdd db.cache key (.count 0) now (now + 90 * second) }
    let count ← Prog.select fun db => cacheCount db.cache key now
    if limit ≤ count then do
      createAudit (some user) (.scanRateLimited (count + 1))
      pure (.error .rateLimited)
    else do
      Prog.modify fun db => { db with cache := cacheIncr db.cache key }
      match ← Prog.select fun db => db.rooms.rows.find? fun r => r.manualCode == digits with
      | some room => pure (.ok (room, .manualCode))
      | none => do
        createAudit (some user) .scanBadManualCode
        pure (.error (.unknownRoom .manualCode))
  | .other => pure (.error .badPayload)

/-! ### Side effects -/

namespace Session

/-- The session checked in. -/
def checkIn (now : ℤ) (method : CheckinMethod) (s : Session) : Session :=
  { s with status := .active, actualStart := some now, checkinMethod := some method }

/-- The session checked out. -/
def checkOut (now : ℤ) (s : Session) : Session :=
  { s with status := .completed, actualEnd := some now }

/-- The session ended early for a reason. -/
def endEarly (now : ℤ) (reason : String) (s : Session) : Session :=
  { s with
    status := .completed, actualEnd := some now, endedEarly := true, earlyEndReason := reason }

/-- The session in another room. -/
def moveTo (room : ℕ) (s : Session) : Session := { s with room := room }

/-- The session started by a force handover from another one. -/
def handOver (now : ℤ) (prior : Option ℕ) (s : Session) : Session :=
  { s with
    status := .active, actualStart := some now, checkinMethod := some .forceHandover,
    handoverFrom := prior }

theorem key_checkIn (now : ℤ) (method : CheckinMethod) (s : Session) :
    key (s.checkIn now method) = key s := rfl

theorem key_checkOut (now : ℤ) (s : Session) : key (s.checkOut now) = key s := rfl

theorem key_endEarly (now : ℤ) (reason : String) (s : Session) :
    key (s.endEarly now reason) = key s := rfl

theorem key_moveTo (room : ℕ) (s : Session) : key (s.moveTo room) = key s := rfl

theorem key_handOver (now : ℤ) (prior : Option ℕ) (s : Session) :
    key (s.handOver now prior) = key s := rfl

end Session

/-- The session with a primary key, if it is one of the active term. -/
def Db.activeSession (db : Db) (pk : ℕ) : Option Session := do
  let term ← db.activeTerm
  (db.sessions.get? pk).filter (db.inTerm term.id)

/-- The answer to a scan or a confirmation. -/
structure ScanReply where
  resolution : Option Resolution
  error : Option ScanError
  deriving DecidableEq

/-- Complete the session a handover takes the room from, if it is still running. -/
def completePrior (now : ℤ) : Option Session → M Unit
  | some p =>
    if p.status = .active then
      saveSession p.id (Session.checkOut now) (Session.key_checkOut now)
    else pure ()
  | none => pure ()

/-- A confirmed handover: the running session in the room is completed, the scanned
one takes its place, and its merged siblings start with it. -/
def applyHandover (user : ℕ) (pk : ℕ) (prior : Option ℕ) (room : Room) (now : ℤ) : M Unit :=
  Prog.atomic do
    let priorSession ← Prog.select fun db => prior.bind db.activeSession
    completePrior now priorSession
    let handoverFrom := priorSession.map Session.id
    saveSession pk (Session.handOver now handoverFrom) (Session.key_handOver now handoverFrom)
    createAudit (some user) (.sessionForceHandover pk room.code prior)
    let _ ← propagateMergedPresent pk now (some user)

/-- The state changes of an outcome for a loaded session. -/
def applyOutcome (user : ℕ) (r : Resolution) (s : Session) (room : Room) (method : CheckinMethod)
    (reason : String) (now : ℤ) : M Unit :=
  match r.outcome with
  | .checkedIn =>
    Prog.atomic do
      saveSession s.id (Session.checkIn now method) (Session.key_checkIn now method)
      createAudit (some user) (.sessionCheckedIn s.id room.code method)
      let _ ← propagateMergedPresent s.id now (some user)
  | .absent =>
    if s.status = .scheduled then do
      saveSession s.id Session.markAbsent Session.key_markAbsent
      createAudit (some user) (.sessionMarkedAbsent s.id (some room.code))
    else pure ()
  | .checkedOut => do
    saveSession s.id (Session.checkOut now) (Session.key_checkOut now)
    createAudit (some user) (.sessionCheckedOut s.id room.code)
  | .earlyEnd => do
    saveSession s.id (Session.endEarly now reason) (Session.key_endEarly now reason)
    createAudit (some user) (.sessionEndedEarly s.id room.code reason)
  | .wrongRoom => do
    let (old, course) ← Prog.select fun db =>
      ((db.room s.room).code, (db.scheduleOf s).courseCode)
    saveSession s.id (Session.moveTo room.id) (Session.key_moveTo room.id)
    createAudit (some user) (.sessionRoomChanged s.id old room.code)
    notifyRole .ifoAdmin (.roomChange user course old room.code)
  | .roomOccupied => do
    applyHandover user s.id r.priorSession room now
    let course ← Prog.select fun db => (db.scheduleOf s).courseCode
    notifyRole .ifoAdmin (.forceHandover room.code course)
  | .tooEarly | .onlineReject | .noSchedule => pure ()

/-- `_apply`: load the session of the resolution from the active term and apply the
outcome. -/
def applyScan (user : ℕ) (r : Resolution) (room : Room) (method : CheckinMethod)
    (reason : String) (now : ℤ) : M ScanReply :=
  match r.session with
  | none => pure ⟨some r, none⟩
  | some pk => do
    match ← Prog.select fun db => db.activeSession pk with
    | none => pure ⟨none, some .badPayload⟩
    | some s => do
      applyOutcome user r s room method reason now
      pure ⟨some r, none⟩

/-! ### The views -/

/-- The sessions of a faculty member on a date in a term, by start. -/
def Db.scanSessions (db : Db) (user : ℕ) (today : ℤ) (term : ℕ) : List Session :=
  (db.sessions.rows.filter fun s =>
      s.faculty == user && s.date == today && db.inTerm term s).insertionSort
    fun a b => a.scheduledStart ≤ b.scheduledStart

/-- Another faculty member's running session that holds the room. -/
def Db.occupying (db : Db) (room : ℕ) (user : ℕ) (term : ℕ) : Option ℕ :=
  ((db.sessionList.filter fun s =>
      s.room == room && s.status == .active && s.roomReleasedAt.isNone && db.inTerm term s &&
        s.faculty != user).map Session.id).head?

/-- The minutes before its start at which a session can be checked in. -/
def checkinOpenMinutes : ℤ := 15

/-- The decision on a scan of `room` by `user`, as one reading of the database. -/
def Db.scanResolution (db : Db) (term : ℕ) (user room : ℕ) (now today : ℤ) : Resolution :=
  resolveFacultyScan db.effectiveModality room (db.occupying room user term) now
    db.policy.graceMinutes db.policy.earlyEndThresholdMinutes checkinOpenMinutes
    (db.scanSessions user today term)

/-- A signed two-step token: the resolution, the room, the method and the user, with
the second it was signed in. -/
structure ConfirmToken where
  resolution : Resolution
  room : ℕ
  method : CheckinMethod
  user : ℕ
  signedAt : ℤ
  deriving DecidableEq

/-- The clock readings of the scan view: for the rate limit, for the decision, for
today's date, and for the signature or the side effects. -/
structure ScanClock where
  lookup : ℤ
  now : ℤ
  today : ℤ
  last : ℤ
  deriving DecidableEq

/-- `" (reason)."` or `"."`. -/
def outOfServiceDetail (room : Room) : String :=
  "This room is out of service" ++
    (if room.outOfServiceReason = "" then "." else " (" ++ room.outOfServiceReason ++ ").") ++
    " Ask the IFO office where your class has moved."

/-- Apply an outcome at most once for each user, session and minute. -/
def applyOnce (user : ℕ) (r : Resolution) (room : Room) (method : CheckinMethod)
    (clock : ScanClock) : M ScanReply :=
  match r.session with
  | none => pure ⟨some r, none⟩
  | some pk => do
    let key := CacheKey.scanIdem user pk (minuteOf clock.now)
    if (← Prog.select fun db => cacheGet db.cache key clock.now) ≠ some (.outcome r.outcome) then do
      let reply ← applyScan user r room method "" clock.last
      Prog.modify fun db =>
        { db with
          cache := cacheSet db.cache key (.outcome r.outcome) (clock.last + 120 * second) }
      pure reply
    else pure ⟨some r, none⟩

/-- `resolve`: resolve a scan and apply it, or sign a token for a confirmation. -/
def resolveScan (user : ℕ) (payload : Payload) (clock : ScanClock) :
    M (ScanReply × Option ConfirmToken) := do
  match ← roomFromPayload user payload clock.lookup with
  | .error e => pure (⟨none, some e⟩, none)
  | .ok (room, method) =>
    if room.outOfService then pure (⟨none, some (.outOfService (outOfServiceDetail room))⟩, none)
    else do
      match ← Prog.select Db.activeTerm with
      | none => pure (⟨none, some .badPayload⟩, none)
      | some term => do
        let r ← Prog.select fun db =>
          db.scanResolution term.id user room.id clock.now clock.today
        if r.outcome.needsConfirm then
          pure (⟨some r, none⟩, some ⟨r, room.id, method, user, clock.last / second⟩)
        else do
          let reply ← applyOnce user r room method clock
          pure (reply, none)

/-- `CONFIRM_MAX_AGE`, in seconds. -/
def confirmMaxAge : ℤ := 180

/-- `signing.loads(..., max_age=CONFIRM_MAX_AGE)` accepts the token at `now`. -/
def ConfirmToken.unexpired (token : ConfirmToken) (now : ℤ) : Bool :=
  decide (now - token.signedAt * second ≤ confirmMaxAge * second)

/-- `confirm`: apply the outcome of a token; `none` is a bad request. The token is
the one whose signature was found valid. -/
def confirmScan (user : ℕ) (token : Option ConfirmToken) (reason : String) (now last : ℤ) :
    M (Option ScanReply) :=
  match token with
  | none => pure none
  | some token =>
    if token.unexpired now && token.user == user then do
      match ← Prog.select fun db => db.rooms.get? token.room with
      | none => .raise .doesNotExist
      | some room => do
        let reply ← applyScan user token.resolution room token.method reason last
        pure (some reply)
    else pure none

/-! ### What a scan decides -/

/-- A token is for an outcome that needs a confirmation, and the session it would
hand over from is not the session it would start. -/
def ConfirmToken.Genuine (token : ConfirmToken) : Prop :=
  token.resolution.outcome.needsConfirm = true ∧
    (token.resolution.priorSession = none ∨
      token.resolution.priorSession ≠ token.resolution.session)

theorem mem_scanSessions {db : Db} {user term : ℕ} {today : ℤ} {s : Session}
    (h : s ∈ db.scanSessions user today term) :
    s ∈ db.sessions ∧ s.faculty = user ∧ s.date = today ∧ db.inTerm term s = true := by
  obtain ⟨hmem, hsel⟩ := List.mem_filter.mp ((List.mem_insertionSort _).mp h)
  simp only [Bool.and_eq_true, beq_iff_eq] at hsel
  exact ⟨hmem, hsel.1.1, hsel.1.2, hsel.2⟩

/-- The session in the way of a check-in is another faculty member's. -/
theorem faculty_ne_of_occupying {db : Db} {room user term pk : ℕ}
    (h : db.occupying room user term = some pk) {s : Session} (hs : s ∈ db.sessions)
    (hid : s.id = pk) : s.faculty ≠ user := by
  obtain ⟨a, ha, rfl⟩ := List.mem_map.mp (List.mem_of_head? h)
  obtain ⟨hmem, hsel⟩ := List.mem_filter.mp ha
  rw [Table.eq_of_key_eq hs (Db.mem_sessionList.mp hmem) hid]
  simpa using (Bool.and_eq_true_iff.mp hsel).2

/-- What a scan decides, with the session it decides about. -/
inductive ScanVerdict (db : Db) (term user room : ℕ) (now today : ℤ) : Resolution → Prop
  | running {s : Session} {o : Outcome} (hs : s ∈ db.scanSessions user today term)
      (hstatus : s.status = .active) (ho : o = .earlyEnd ∨ o = .checkedOut ∨ o = .wrongRoom) :
      ScanVerdict db term user room now today ⟨o, some s.id, none⟩
  | elsewhere {s : Session} {o : Outcome} (hs : s ∈ db.scanSessions user today term)
      (hstatus : s.status = .scheduled)
      (ho : o = .onlineReject ∨ o = .wrongRoom ∨ o = .tooEarly) :
      ScanVerdict db term user room now today ⟨o, some s.id, none⟩
  | absent {s : Session} (hs : s ∈ db.scanSessions user today term)
      (hstatus : s.status = .scheduled) (hmod : db.effectiveModality s ≠ .online)
      (hroom : s.room = room)
      (hgrace : isNoShowPastGrace s.scheduledStart now db.policy.graceMinutes = true) :
      ScanVerdict db term user room now today ⟨.absent, some s.id, none⟩
  | occupied {s : Session} {prior : ℕ} (hs : s ∈ db.scanSessions user today term)
      (hstatus : s.status = .scheduled) (hprior : db.occupying room user term = some prior) :
      ScanVerdict db term user room now today ⟨.roomOccupied, some s.id, some prior⟩
  | checkedIn {s : Session} (hs : s ∈ db.scanSessions user today term)
      (hstatus : s.status = .scheduled) :
      ScanVerdict db term user room now today ⟨.checkedIn, some s.id, none⟩
  | noSchedule : ScanVerdict db term user room now today ⟨.noSchedule, none, none⟩

theorem scanVerdict (db : Db) (term user room : ℕ) (now today : ℤ) :
    ScanVerdict db term user room now today (db.scanResolution term user room now today) := by
  generalize hr : db.scanResolution term user room now today = r
  unfold Db.scanResolution at hr
  rcases resolveFacultyScan_cases hr with ⟨s, hs, hactive, rfl⟩ | ⟨s, hs, hin, rfl⟩ | rfl
  · rcases resolveActive_cases s with h | h | h <;> rw [h]
    · exact .running hs hactive (.inl rfl)
    · exact .running hs hactive (.inr (.inl rfl))
    · exact .running hs hactive (.inr (.inr rfl))
  · have hsched : s.status = .scheduled := by
      simpa using (Bool.and_eq_true_iff.mp hin).1
    rcases resolveCandidate_cases s with h | h | ⟨h, hmod, hroom, hgrace⟩ | ⟨h, hocc⟩ | h <;> rw [h]
    · exact .elsewhere hs hsched (.inl rfl)
    · exact .elsewhere hs hsched (.inr (.inl rfl))
    · exact .absent hs hsched hmod hroom hgrace
    · obtain ⟨prior, hprior⟩ := Option.isSome_iff_exists.mp hocc
      rw [hprior]
      exact .occupied hs hsched hprior
    · exact .checkedIn hs hsched
  · rcases resolveNone_cases with ⟨s, hs, hsched, h⟩ | h <;> rw [h]
    · exact .elsewhere hs hsched (.inr (.inr rfl))
    · exact .noSchedule

/-- A token signed for a scan is genuine. -/
theorem ScanVerdict.genuine {db : Db} {term user room : ℕ} {now today : ℤ} {r : Resolution}
    (h : ScanVerdict db term user room now today r) (hconfirm : r.outcome.needsConfirm = true)
    (room' : ℕ) (method : CheckinMethod) (signedAt : ℤ) :
    (⟨r, room', method, user, signedAt⟩ : ConfirmToken).Genuine := by
  refine ⟨hconfirm, ?_⟩
  cases h with
  | running hs hstatus ho => exact .inl rfl
  | elsewhere hs hstatus ho => exact .inl rfl
  | absent hs hstatus hmod hroom hgrace => exact .inl rfl
  | occupied hs hstatus hprior =>
    refine .inr fun heq => ?_
    obtain ⟨hmem, hfac, -, -⟩ := mem_scanSessions hs
    exact faculty_ne_of_occupying hprior hmem (Option.some.inj heq).symm hfac
  | checkedIn hs hstatus => exact .inl rfl
  | noSchedule => exact .inl rfl

end FluxTrack
