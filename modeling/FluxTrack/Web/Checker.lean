import FluxTrack.Scheduling.Merge

/-!
# Online verification by checkers

`_online_action` of `web/checker.py` and the part of `_apply_action` it uses: a
checker on online duty verifies an online session, which starts it, or flags its
teacher as not present, which marks it absent.

## Main definitions

* `Db.onlineOnDuty`, `Db.onlineSession` — what the action is gated on
* `applyAction`, `onlineAction` — the action
-/

namespace FluxTrack

open Calendar Relational Process

/-- `assignment_covers_now`. -/
def Assignment.coversNow (a : Assignment) (today timeNow : ℤ) : Bool :=
  match a.date with
  | none => true
  | some d =>
    d == today && (a.startTime.elim true fun t => decide ((t.ticks : ℤ) ≤ timeNow)) &&
      a.endTime.elim true fun t => decide (timeNow ≤ t.ticks)

/-- `_is_online_on_duty`. -/
def Db.onlineOnDuty (db : Db) (user : ℕ) (now : ℤ) : Bool :=
  match db.activeTerm with
  | none => false
  | some term =>
    db.assignments.rows.any fun a =>
      a.user == user && a.role == .checker && a.scope == .online && a.active &&
        a.term == some term.id && a.coversNow (localDate now) (manila.localTime now)

/-- `_online_session`: the online session of the active term with this key that the
checker owns. -/
def Db.onlineSession (db : Db) (pk user : ℕ) : Option Session := do
  let term ← db.activeTerm
  (db.sessions.get? pk).filter fun s =>
    db.inTerm term.id s && db.effectiveModality s == .online && s.onlineChecker == some user

/-- The session verified by an online checker. -/
def Session.verifyOnline (now : ℤ) (s : Session) : Session :=
  { s with status := .active, actualStart := some now, checkinMethod := some .onlineManual }

theorem Session.key_verifyOnline (now : ℤ) (s : Session) : key (s.verifyOnline now) = key s := rfl

/-- `_FLAG_ACTIONS`. -/
def ValidationAction.isFlag : ValidationAction → Bool
  | .flagIdentityMismatch | .flagNotPresent => true
  | _ => false

/-- The status change of an online action; `now` is the reading of the merge helper. -/
def applyOnlineStatus (user : ℕ) (s : Session) (action : ValidationAction) (scannedAt now : ℤ) :
    M Unit :=
  match action with
  | .verified =>
    Prog.atomic do
      saveSession s.id (Session.verifyOnline scannedAt) (Session.key_verifyOnline scannedAt)
      let _ ← propagateMergedPresent s.id scannedAt (some user)
  | .flagNotPresent =>
    Prog.atomic do
      saveSession s.id Session.markAbsent Session.key_markAbsent
      let _ ← propagateMergedAbsent s (some user) now
  | _ => pure ()

/-- `_apply_action` on an online session: the validation and its audit row, the
status change, and for a flag the notifications to the offices. -/
def applyAction (user : ℕ) (s : Session) (action : ValidationAction) (note : String)
    (identityMatch : Option Bool) (scannedAt now : ℤ) : M Unit := do
  let room ← Prog.select fun db => db.room s.room
  Prog.modify fun db =>
    { db with
      validations := db.validations.insert fun pk =>
        ⟨pk, some s.id, s.room, user, action, identityMatch, note, some scannedAt, false⟩ }
  createAudit (some user) (.checkerAction action (some s.id) room.code false true)
  applyOnlineStatus user s action scannedAt now
  if action.isFlag then do
    notifyRole .ifoAdmin (.checkerFlag room.code action (some user) note)
    notifyRole .hrAdmin (.checkerFlag room.code action none note)
  else pure ()

/-- The answers to an online action. -/
inductive OnlineReply
  | refused (outcome : OnlineRefusal)
  | badPayload
  | noteRequired
  | applied
  deriving DecidableEq

/-- `_online_action`; `last` is the reading of the merge helper. -/
def onlineAction (user pk : ℕ) (action : ValidationAction) (note : String) (now last : ℤ) :
    M OnlineReply := do
  let session ← Prog.select fun db => db.onlineSession pk user
  let onDuty ← Prog.select fun db => db.onlineOnDuty user now
  match session with
  | none => pure (.refused .offDuty)
  | some s =>
    let actionable := s.status != .absent && s.status != .completed
    if !onDuty || !actionable then do
      let outcome := if actionable then OnlineRefusal.offDuty else .absentExcluded
      createAudit (some user) (.checkerActionRefused s.id outcome action)
      pure (.refused outcome)
    else if action ≠ .verified ∧ action ≠ .flagNotPresent then pure .badPayload
    else if action = .flagNotPresent ∧ Py.strip note = "" then pure .noteRequired
    else do
      let key := CacheKey.checkerIdem user s.id action (minuteOf now)
      let added ← Prog.modifyGet (fun db => (cacheGet db.cache key now).isNone) fun db =>
        { db with cache := cacheAdd db.cache key .flag now (now + 120 * second) }
      if added then do
        applyAction user s action note (if action = .verified then some true else none) now last
        pure .applied
      else pure .applied

end FluxTrack
