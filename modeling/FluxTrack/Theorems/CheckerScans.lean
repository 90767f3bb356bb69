import FluxTrack.Process.Runs
import FluxTrack.Theorems.Replay

/-!
# Scans by checkers one after another

What the action of a scan and the handling of a queued scan do when nothing else runs. An
action is refused, asked for a note, or applied, once a minute. A queued scan without a
uuid and one that was already reported are answered without a write; one over the rate
limit is recorded under its own audit event; one that names a session or a time that cannot
be read raises; and any other is applied, or is recorded as a conflict and reported to the
facilities office.

## Main definitions

* `Db.roomOutcome` — the decision on a room
* `Db.replayRoom`, `Db.replayExpected`, `Db.scanReason` — what the handling of a queued scan
  reads
* `RoomActed`, `Handled` — what the two come to

## Main results

* `roomActed_roomAction` — the action of a scan
* `handled_replayItem` — the handling of one queued scan
-/

namespace FluxTrack

open Calendar Relational Process

section

variable {db : Db} {user : ℕ} {item : ReplayItem} {now today : ℤ}

/-! ### The decision on a room -/

/-- The decision on a room, in the state of its session now. -/
def Db.roomOutcome (db : Db) (user : ℕ) (room : Room) (now today : ℤ) : CheckerOutcome :=
  (resolveCheckerScan (db.activeFloorIds user now) room.floor
    ((db.roomSessionState room.id now today).map db.sessionState)).outcome

theorem map_fst_sessionState (found : Option Session) :
    (found.map fun s => (s, db.sessionState s)).map Prod.fst = found := by
  cases found <;> rfl

theorem map_snd_sessionState (found : Option Session) :
    (found.map fun s => (s, db.sessionState s)).map Prod.snd = found.map db.sessionState := by
  cases found <;> rfl

/-! ### The action of a scan -/

theorem actionable_of_permits {outcome : CheckerOutcome} {action : ValidationAction}
    (h : outcome.permits action = true) : outcome.actionable = true := by
  cases outcome with
  | noSession => rfl
  | activeUnverified => rfl
  | _ => cases h

/-- The action has not been applied within this minute. -/
def Db.roomKeyFree (db : Db) (user : ℕ) (room : Room) (action : ValidationAction)
    (now today : ℤ) : Bool :=
  (cacheGet db.cache (.checkerIdem user
    ((db.roomSessionState room.id now today).elim room.id Session.id) action (minuteOf now))
    now).isNone

/-- What the action of a scan comes to. -/
inductive RoomActed (db : Db) (user pk : ℕ) (action : ValidationAction) (note : String)
    (now today : ℤ) : Except Err RoomReply × Db → Prop
  | unknown (hroom : db.rooms.get? pk = none) :
      RoomActed db user pk action note now today (.ok .badPayload, db)
  | refused {room : Room} (hroom : db.rooms.get? pk = some room)
      (hpermits : ¬ (db.roomOutcome user room now today).permits action = true) :
      RoomActed db user pk action note now today
        (.ok (.refused (db.roomOutcome user room now today)), { db with
          audit := db.audit ++ [⟨some user, .checkerRoomActionRefused room.id
            (db.roomOutcome user room now today) action⟩] })
  | noteRequired {room : Room} (hroom : db.rooms.get? pk = some room)
      (hpermits : (db.roomOutcome user room now today).permits action = true)
      (hblank : action.isFlag = true ∧ Py.strip note = "") :
      RoomActed db user pk action note now today (.ok .noteRequired, db)
  | repeated {room : Room} (hroom : db.rooms.get? pk = some room)
      (hpermits : (db.roomOutcome user room now today).permits action = true)
      (hnote : ¬ (action.isFlag = true ∧ Py.strip note = ""))
      (hkey : ¬ db.roomKeyFree user room action now today = true) (cache : List CacheEntry) :
      RoomActed db user pk action note now today (.ok .applied, { db with cache := cache })
  | applied {room : Room} (hroom : db.rooms.get? pk = some room)
      (hpermits : (db.roomOutcome user room now today).permits action = true)
      (hnote : ¬ (action.isFlag = true ∧ Py.strip note = ""))
      (hkey : db.roomKeyFree user room action now today = true) (cache : List CacheEntry)
      (notices : List Notification) :
      RoomActed db user pk action note now today (.ok .applied, { db with
        cache := cache
        validations := db.validations.insert fun pk =>
          ⟨pk, (db.roomSessionState room.id now today).map Session.id, room.id, user, action,
            action.identityMatch, note, some now, false⟩
        audit := db.audit ++ [⟨some user, .checkerAction action
          ((db.roomSessionState room.id now today).map Session.id) room.code false false⟩]
        notifications := db.notifications ++ notices })

/-- The action of a scan. -/
theorem roomActed_roomAction (db : Db) (user pk : ℕ) (action : ValidationAction) (note : String)
    (now today : ℤ) :
    RoomActed db user pk action note now today ((roomAction user pk action note now today).run db) := by
  rw [roomAction, Prog.run_select_bind]
  cases hroom : db.rooms.get? pk with
  | none => exact .unknown hroom
  | some room =>
    dsimp only
    rw [Prog.run_select_bind, Prog.run_select_bind, map_fst_sessionState, map_snd_sessionState]
    change RoomActed db user pk action note now today (Prog.run
      (if (!(db.roomOutcome user room now today).actionable ||
        !(db.roomOutcome user room now today).permits action) = true then _ else _) db)
    by_cases hpermits : (db.roomOutcome user room now today).permits action = true
    · have hactionable := actionable_of_permits hpermits
      rw [if_neg (by rw [hactionable, hpermits]; nofun)]
      split
      · rename_i hblank
        rw [Bool.and_eq_true, decide_eq_true_iff] at hblank
        exact .noteRequired hroom hpermits hblank
      · rename_i hnote
        rw [Bool.and_eq_true, decide_eq_true_iff] at hnote
        rw [Prog.run_modifyGet_bind]
        split
        · rename_i hkey
          obtain ⟨notices, hrun⟩ := run_applyRoomAction user
            (db.roomSessionState room.id now today) room action note action.identityMatch now false
            { db with cache := cacheAdd db.cache (.checkerIdem user
              ((db.roomSessionState room.id now today).elim room.id Session.id) action
              (minuteOf now)) .flag now (now + 120 * second) }
          rw [Prog.run_bind_of_ok hrun]
          exact .applied hroom hpermits hnote hkey _ notices
        · rename_i hkey
          exact .repeated hroom hpermits hnote hkey _
    · rw [if_pos (by rw [Bool.eq_false_iff.mpr hpermits]; exact Bool.or_true _)]
      exact .refused hroom hpermits

/-! ### What a queued scan reads -/

/-- The room a queued scan was made in. -/
def Db.replayRoom (db : Db) (item : ReplayItem) : Option Room :=
  if item.token = "" then none
  else
    (db.rooms.rows.find? fun r => r.qrToken == item.token).or
      (if item.sixDigits then db.rooms.rows.find? fun r => r.manualCode == item.token else none)

theorem run_roomFromReplayToken (item : ReplayItem) :
    (roomFromReplayToken item).run db = (.ok (db.replayRoom item), db) := by
  unfold roomFromReplayToken Db.replayRoom
  split
  · rfl
  · rw [Prog.run_select_bind]
    cases db.rooms.rows.find? fun r => r.qrToken == item.token with
    | some room => rfl
    | none => cases item.sixDigits <;> rfl

/-- The session a queued scan was about. -/
def Db.replayExpected (db : Db) (item : ReplayItem) (room : Room) (scannedAt : ℤ) : Option ℕ :=
  match item.session with
  | .id pk => some pk
  | .absent => (db.roomSessionAtScan room.id scannedAt).map Session.id
  | _ => none

/-- The session a queued scan was about cannot be read. -/
def Db.expectedRaises (db : Db) (item : ReplayItem) (scannedAt : ℤ) : Prop :=
  item.session = .unreadable ∨
    item.session = .absent ∧ db.activeTerm.isSome = true ∧ localizes scannedAt = false

theorem run_expectedSession (db : Db) (item : ReplayItem) (room : Room) (scannedAt : ℤ) :
    (db.expectedRaises item scannedAt ∧
      ∃ e, (expectedSession item room scannedAt).run db = (.error e, db)) ∨
    (¬ db.expectedRaises item scannedAt ∧ (expectedSession item room scannedAt).run db =
      (.ok (db.replayExpected item room scannedAt), db)) := by
  unfold expectedSession Db.replayExpected Db.expectedRaises
  cases item.session with
  | unreadable => exact .inl ⟨.inl rfl, _, rfl⟩
  | absent =>
    rw [Prog.run_select_bind]
    cases hover : db.activeTerm.isSome && !localizes scannedAt with
    | true =>
      rw [Bool.and_eq_true, Bool.not_eq_true'] at hover
      exact .inl ⟨.inr ⟨rfl, hover⟩, _, rfl⟩
    | false =>
      refine .inr ⟨?_, rfl⟩
      rintro (h | ⟨-, hterm, hlocal⟩)
      · cases h
      · rw [hterm, hlocal] at hover
        cases hover
  | notDigits => exact .inr ⟨fun h => h.elim nofun (fun h => nomatch h.1), rfl⟩
  | id pk => exact .inr ⟨fun h => h.elim nofun (fun h => nomatch h.1), rfl⟩

/-- Whether a queued scan by code is within the rate limit. -/
def Db.replayCodeAllowed (db : Db) (user : ℕ) (now : ℤ) : Bool :=
  let key := CacheKey.checkerReplayRl user (minuteOf now)
  decide (cacheCount (cacheAdd db.cache key (.count 0) now (now + 90 * second)) key now <
    db.policy.manualCodeRateLimitPerMin)

theorem run_replayManualCodeAllowed (db : Db) (user : ℕ) (now : ℤ) :
    ∃ cache, (replayManualCodeAllowed user now).run db =
      (.ok (db.replayCodeAllowed user now), { db with cache := cache }) := by
  unfold replayManualCodeAllowed Db.replayCodeAllowed
  rw [Prog.run_select_bind, Prog.run_modify_bind, Prog.run_select_bind]
  split
  · rename_i hlimit
    exact ⟨_, by rw [decide_eq_false (not_lt.mpr hlimit)]; rfl⟩
  · rename_i hlimit
    exact ⟨_, by rw [decide_eq_true (not_le.mp hlimit)]; rfl⟩

/-- Whether a queued scan is within the rate limit. -/
def Db.scanAllowed (db : Db) (user : ℕ) (item : ReplayItem) (now : ℤ) : Prop :=
  item.sixDigits = true → db.replayCodeAllowed user now = true

/-- Why a queued scan does not apply now, if it does not. -/
def Db.scanReason (db : Db) (user : ℕ) (item : ReplayItem) (now today : ℤ) :
    Option ReplayReason :=
  match db.replayRoom item with
  | none => some .badRoom
  | some room =>
    replayReason item (db.roomOutcome user room now today)
      (db.replayExpected item room (item.time now))
      ((db.roomSessionState room.id now today).map Session.id)

/-- A time or a session that cannot be read is met, or a time that has no date or cannot be
stored. -/
def Db.scanUnreadable (db : Db) (user : ℕ) (item : ReplayItem) (now today : ℤ) : Prop :=
  item.scannedAt = .unreadable ∨
    (db.replayRoom item).isSome = true ∧ db.expectedRaises item (item.time now) ∨
    db.scanReason user item now today = none ∧ isDatetime (item.time now) = false

theorem run_parseScannedAt (db : Db) (item : ReplayItem) (now : ℤ) :
    (item.scannedAt = .unreadable ∧ (parseScannedAt item now).run db = (.error .value, db)) ∨
    (item.scannedAt ≠ .unreadable ∧
      (parseScannedAt item now).run db = (.ok (item.time now), db)) := by
  unfold parseScannedAt
  by_cases h : item.scannedAt = .unreadable
  · rw [if_pos h]
    exact .inl ⟨h, rfl⟩
  · rw [if_neg h]
    exact .inr ⟨h, rfl⟩

/-- What applies has a known action, which the decision on the room permits, and a flag has a
note. -/
theorem of_replayReason {outcome : CheckerOutcome} {expected current : Option ℕ}
    (h : replayReason item outcome expected current = none) :
    expected = current ∧ outcome.actionable = true ∧ ∃ action, item.action = .known action ∧
      outcome.permits action = true ∧ ¬ (action.isFlag = true ∧ Py.strip item.note = "") := by
  unfold replayReason at h
  split at h
  · cases h
  · split at h
    · cases h
    · rename_i hsession
      split at h
      · cases h
      · rename_i hactionable
        cases haction : item.action with
        | other text =>
          rw [haction] at h
          cases h
        | known action =>
          rw [haction] at h
          dsimp only at h
          split at h
          · cases h
          · rename_i hpermits
            split at h
            · cases h
            · rename_i hnote
              refine ⟨not_not.mp hsession, by simpa using hactionable, action, rfl,
                by simpa using hpermits, ?_⟩
              rwa [Bool.and_eq_true, decide_eq_true_iff] at hnote

/-! ### One queued scan -/

/-- The scan has a uuid for which there is no receipt. -/
def Db.newScan (db : Db) (item : ReplayItem) (uuid : ℕ) : Prop :=
  item.clientUuid = some uuid ∧ db.receipts.has uuid = false

/-- What the handling of a queued scan comes to. -/
inductive Handled (db : Db) (user : ℕ) (item : ReplayItem) (now today : ℤ) :
    Except Err ReplayResult × Db → Prop
  | malformed (hitem : item.clientUuid = none) :
      Handled db user item now today (.ok ⟨none, .flagged, some .badPayload⟩, db)
  | duplicate {uuid : ℕ} (hitem : item.clientUuid = some uuid)
      (hhas : db.receipts.has uuid = true) :
      Handled db user item now today (.ok ⟨some uuid, .duplicate, none⟩, db)
  | rateLimited {uuid : ℕ} (hnew : db.newScan item uuid) (hover : ¬ db.scanAllowed user item now)
      (cache : List CacheEntry) (receipts : ReceiptTable) :
      Handled db user item now today (.ok ⟨some uuid, .flagged, some .rateLimited⟩, { db with
        cache := cache
        receipts := receipts
        audit := db.audit ++ [⟨some user, .checkerReplayRateLimited uuid⟩] })
  | raised {uuid : ℕ} (hnew : db.newScan item uuid) (hallowed : db.scanAllowed user item now)
      (hunreadable : db.scanUnreadable user item now today) (cache : List CacheEntry) (e : Err) :
      Handled db user item now today (.error e, { db with cache := cache })
  | conflict {uuid : ℕ} {reason : ReplayReason} (hnew : db.newScan item uuid)
      (hallowed : db.scanAllowed user item now) (hread : ¬ db.scanUnreadable user item now today)
      (hreason : db.scanReason user item now today = some reason) (session : Option ℕ)
      (cache : List CacheEntry) (receipts : ReceiptTable) :
      Handled db user item now today (.ok ⟨some uuid, .flagged, some reason⟩, { db with
        cache := cache
        receipts := receipts
        audit := db.audit ++ [⟨some user, .checkerReplayConflict session reason uuid item.action⟩]
        notifications := db.notifications ++ (db.usersOfRole .ifoAdmin).map fun u =>
          ⟨u, .checkerReplayConflict ((db.replayRoom item).map Room.code) reason⟩ })
  | applied {uuid : ℕ} {room : Room} {action : ValidationAction} (hnew : db.newScan item uuid)
      (hallowed : db.scanAllowed user item now) (hread : ¬ db.scanUnreadable user item now today)
      (hroom : db.replayRoom item = some room) (haction : item.action = .known action)
      (hreason : db.scanReason user item now today = none) (cache : List CacheEntry)
      (receipts : ReceiptTable) (notices : List Notification) :
      Handled db user item now today (.ok ⟨some uuid, .applied, none⟩, { db with
        cache := cache
        receipts := receipts
        validations := db.validations.insert fun pk =>
          ⟨pk, (db.roomSessionState room.id now today).map Session.id, room.id, user, action,
            action.identityMatch, item.note, some (item.time now), true⟩
        audit := db.audit ++ [⟨some user, .checkerAction action
          ((db.roomSessionState room.id now today).map Session.id) room.code true false⟩]
        notifications := db.notifications ++ notices })

/-- A new uuid is claimed with the effect that goes with it. -/
theorem run_claiming_of_new (user : ℕ) {uuid : ℕ} {effect : M Unit}
    (heffect : ∀ db, ∃ db', effect.run db = (.ok (), db')) (hnew : db.receipts.has uuid = false)
    (status : ReceiptStatus) (reason : Option ReplayReason) :
    ∃ receipts, (claiming user uuid status reason effect).run db =
      (.ok true, (effect.run { db with receipts := receipts }).2) := by
  have hresult : ∀ db, ∃ db', effect.run db = (.ok (), db') ∧ (effect.run db).2 = db' := by
    intro db
    obtain ⟨db', hrun⟩ := heffect db
    exact ⟨db', hrun, by rw [hrun]⟩
  rcases run_claiming (E := fun db db' => (effect.run db).2 = db') hresult user uuid status reason db
    with ⟨hhas, -⟩ | ⟨-, receipts, db', -, rfl, hrun⟩
  · rw [hnew] at hhas
    cases hhas
  · exact ⟨receipts, hrun⟩

theorem run_replayFlagged_of_new (user : ℕ) {uuid : ℕ} {effect : M Unit}
    (heffect : ∀ db, ∃ db', effect.run db = (.ok (), db')) (hnew : db.receipts.has uuid = false)
    (reason : ReplayReason) :
    ∃ receipts, (replayFlagged user uuid reason effect).run db =
      (.ok ⟨some uuid, .flagged, some reason⟩, (effect.run { db with receipts := receipts }).2) := by
  obtain ⟨receipts, hrun⟩ := run_claiming_of_new user heffect hnew .flagged (some reason)
  exact ⟨receipts, Prog.run_bind_of_ok hrun⟩

/-- A scan that no longer applies is recorded and reported. -/
theorem handled_replayFlagged {uuid : ℕ} {reason : ReplayReason} (hnew : db.newScan item uuid)
    (hallowed : db.scanAllowed user item now) (hread : ¬ db.scanUnreadable user item now today)
    (hreason : db.scanReason user item now today = some reason) (session : Option Session)
    {room : Option Room} (hroom : db.replayRoom item = room) (cache : List CacheEntry) :
    Handled db user item now today ((replayFlagged user uuid reason
      (replayConflict user uuid item.action session room reason)).run { db with cache := cache }) := by
  subst hroom
  have hfresh : ({ db with cache := cache } : Db).receipts.has uuid = false := hnew.2
  have heffect : ∀ db₀ : Db, ∃ db', (replayConflict user uuid item.action session
      (db.replayRoom item) reason).run db₀ = (.ok (), db') := fun _ => ⟨_, rfl⟩
  obtain ⟨receipts, hrun⟩ := run_replayFlagged_of_new user heffect hfresh reason
  rw [hrun]
  exact .conflict hnew hallowed hread hreason (session.map Session.id) cache receipts

/-- A scan that applies is applied. -/
theorem handled_replayApplied {uuid : ℕ} {room : Room} {action : ValidationAction}
    (hnew : db.newScan item uuid) (hallowed : db.scanAllowed user item now)
    (hread : ¬ db.scanUnreadable user item now today) (hroom : db.replayRoom item = some room)
    (haction : item.action = .known action)
    (hreason : db.scanReason user item now today = none) (cache : List CacheEntry) :
    Handled db user item now today ((replayApplied user uuid item action
      (db.roomSessionState room.id now today) room (item.time now)).run
        { db with cache := cache }) := by
  have hfresh : ({ db with cache := cache } : Db).receipts.has uuid = false := hnew.2
  have htime : isDatetime (item.time now) = true := by
    rw [← Bool.not_eq_false]
    exact fun hover => hread (.inr (.inr ⟨hreason, hover⟩))
  have heffect : ∀ db₀ : Db, ∃ db', (applyOffline user (db.roomSessionState room.id now today)
      room action item.note (item.time now)).run db₀ = (.ok (), db') := by
    intro db₀
    rw [applyOffline, if_pos htime]
    obtain ⟨notices, hrun⟩ := run_applyRoomAction user
      (db.roomSessionState room.id now today) room action item.note action.identityMatch
      (item.time now) true db₀
    exact ⟨_, hrun⟩
  obtain ⟨receipts, hclaim⟩ := run_claiming_of_new user heffect hfresh .applied none
  obtain ⟨notices, hrun⟩ := run_applyRoomAction user
    (db.roomSessionState room.id now today) room action item.note action.identityMatch
    (item.time now) true { db with cache := cache, receipts := receipts }
  rw [applyOffline, if_pos htime, hrun] at hclaim
  rw [replayApplied, applyOffline, if_pos htime, Prog.run_bind_of_ok hclaim]
  exact .applied hnew hallowed hread hroom haction hreason cache receipts notices

/-- The handling of a new scan within the rate limit; what it reads does not depend on the
cache. -/
theorem handled_replayScan {uuid : ℕ} (hnew : db.newScan item uuid)
    (hallowed : db.scanAllowed user item now) (cache : List CacheEntry) (today : ℤ) :
    Handled db user item now today
      ((replayScan user uuid item now today).run { db with cache := cache }) := by
  rw [replayScan, Prog.run_bind_of_ok (run_roomFromReplayToken item),
    show ({ db with cache := cache } : Db).replayRoom item = db.replayRoom item from rfl]
  rcases run_parseScannedAt { db with cache := cache } item now with
    ⟨htime, hrun⟩ | ⟨htime, hrun⟩
  · rw [Prog.run_bind_of_error hrun]
    exact .raised hnew hallowed (.inl htime) cache _
  rw [Prog.run_bind_of_ok hrun]
  cases hroom : db.replayRoom item with
  | none =>
    -- without a room the session of the scan is never read
    have hreason : db.scanReason user item now today = some .badRoom := by
      rw [Db.scanReason, hroom]
    have hread : ¬ db.scanUnreadable user item now today := by
      rintro (h | ⟨h, -⟩ | ⟨h, -⟩)
      · exact htime h
      · rw [hroom] at h
        cases h
      · rw [hreason] at h
        cases h
    exact handled_replayFlagged hnew hallowed hread hreason none hroom cache
  | some room =>
    dsimp only
    rw [Prog.run_select_bind, Prog.run_select_bind, map_fst_sessionState, map_snd_sessionState]
    rcases run_expectedSession { db with cache := cache } item room (item.time now) with
      ⟨hraises, e, hrun⟩ | ⟨hexpected, hrun⟩
    · rw [Prog.run_bind_of_error hrun]
      exact .raised hnew hallowed (.inr (.inl ⟨by rw [hroom]; rfl, hraises⟩)) cache e
    rw [Prog.run_bind_of_ok hrun]
    have hread : (db.scanReason user item now today = none → isDatetime (item.time now) = true) →
        ¬ db.scanUnreadable user item now today := by
      rintro hstored (h | ⟨-, h⟩ | ⟨hnone, h⟩)
      · exact htime h
      · exact hexpected h
      · rw [hstored hnone] at h
        cases h
    have hscan : db.scanReason user item now today = replayReason item
        (db.roomOutcome user room now today) (db.replayExpected item room (item.time now))
        ((db.roomSessionState room.id now today).map Session.id) := by
      rw [Db.scanReason, hroom]
    split
    · rename_i action hreason haction
      have hnone : db.scanReason user item now today = none := hscan.trans hreason
      cases hstored : isDatetime (item.time now) with
      | true =>
        exact handled_replayApplied hnew hallowed (hread fun _ => hstored) hroom haction hnone cache
      | false =>
        -- the time cannot be stored, and the receipt is rolled back
        have hfresh : ({ db with cache := cache } : Db).receipts.has uuid = false := hnew.2
        rw [replayApplied, applyOffline, hstored, if_neg Bool.false_ne_true,
          Prog.run_bind_of_error (by rw [run_claiming_raise, hfresh]; rfl)]
        exact .raised hnew hallowed (.inr (.inr ⟨hnone, hstored⟩)) cache _
    · rename_i hreason haction
      -- a scan without a reason names an action that the room check knows
      obtain ⟨-, -, action, hknown, -⟩ := of_replayReason hreason
      rw [haction] at hknown
      cases hknown
    · rename_i reason hreason
      have hsome : db.scanReason user item now today = some reason := hscan.trans hreason
      have hstored := hread fun hnone => absurd (hnone.symm.trans hsome) nofun
      exact handled_replayFlagged hnew hallowed hstored hsome _ hroom cache

/-- The handling of one queued scan. -/
theorem handled_replayItem (db : Db) (user : ℕ) (item : ReplayItem) (now today : ℤ) :
    Handled db user item now today ((replayItem user item now today).run db) := by
  unfold replayItem
  cases hitem : item.clientUuid with
  | none => exact .malformed hitem
  | some uuid =>
    dsimp only
    rw [Prog.run_select_bind]
    cases hhas : db.receipts.has uuid with
    | true => exact .duplicate hitem hhas
    | false =>
      have hnew : db.newScan item uuid := ⟨hitem, hhas⟩
      rw [if_neg Bool.false_ne_true]
      split
      · rename_i hdigits
        obtain ⟨cache, hrun⟩ := run_replayManualCodeAllowed db user now
        rw [Prog.run_bind_of_ok hrun]
        split
        · rename_i hallowed
          exact handled_replayScan hnew (fun _ => hallowed) cache today
        · rename_i hover
          have hfresh : ({ db with cache := cache } : Db).receipts.has uuid = false := hhas
          have heffect : ∀ db₀ : Db, ∃ db', (createAudit (some user)
              (.checkerReplayRateLimited uuid)).run db₀ = (.ok (), db') := fun _ => ⟨_, rfl⟩
          obtain ⟨receipts, hflagged⟩ := run_replayFlagged_of_new user heffect hfresh
            .rateLimited
          rw [hflagged]
          exact .rateLimited hnew (fun hallowed => hover (hallowed hdigits)) cache receipts
      · rename_i hdigits
        exact handled_replayScan hnew (fun hyes => absurd hyes hdigits) db.cache today

end

end FluxTrack
