import FluxTrack.Web.Checker

/-!
# Assigning online sessions

`assign_online_sessions` of `verification/services.py` with the round robin of
`verification/resolver.py`: the unowned online sessions of a date are dealt out to the
checkers whose online posting covers their start, in turn among the sessions with the same
checkers.

## Main definitions

* `distributeOnlineSessions` — the round robin
* `Db.eligibleCheckers`, `onlineMapping` — who may own a session, and who gets it
* `assignOnlineSessions` — the service
-/

namespace FluxTrack

open Calendar Relational Process

/-- `distribute_online_sessions`. -/
def distributeOnlineSessions (sessionIds checkerIds : List ℕ) : List (ℕ × ℕ) :=
  if checkerIds.isEmpty then []
  else sessionIds.zipIdx.map fun e => (e.1, checkerIds.getD (e.2 % checkerIds.length) 0)

/-- `order_by("scheduled_start", "id")`. -/
def Session.startsFirst (a b : Session) : Prop :=
  a.scheduledStart < b.scheduledStart ∨ (a.scheduledStart = b.scheduledStart ∧ a.id ≤ b.id)

instance : DecidableRel Session.startsFirst := fun a b =>
  inferInstanceAs (Decidable (a.scheduledStart < b.scheduledStart ∨ (_ ∧ a.id ≤ b.id)))

namespace Db

/-- `_candidate_online_sessions`. -/
def candidateOnlineSessions (db : Db) (date : ℤ) (term : ℕ) : List Session :=
  ((db.sessions.rows.filter fun s =>
      s.date == date && s.onlineChecker.isNone && db.inTerm term s).insertionSort
    Session.startsFirst).filter fun s => db.effectiveModality s == .online

/-- `_online_duty_assignments`. -/
def onlineDutyAssignments (db : Db) (date : ℤ) (term : ℕ) : List Assignment :=
  (db.assignments.rows.filter fun a =>
      a.role == .checker && a.scope == .online && a.active && a.term == some term &&
        a.date.all (· == date)).insertionSort fun a b => a.user ≤ b.user

end Db

/-- The checkers whose posting covers the start of the session. -/
def eligibleCheckers (assignments : List Assignment) (s : Session) : List ℕ :=
  ((assignments.filter fun a =>
      a.coversNow (localDate s.scheduledStart) (manila.localTime s.scheduledStart)).map
    Assignment.user).dedup.insertionSort (· ≤ ·)

/-- Who gets which session: a round robin within each group of sessions with the same
checkers. -/
def onlineMapping (assignments : List Assignment) (sessions : List Session) : List (ℕ × ℕ) :=
  ((sessions.map (eligibleCheckers assignments)).eraseDups).flatMap fun eligible =>
    distributeOnlineSessions
      ((sessions.filter fun s => eligibleCheckers assignments s == eligible).map Session.id)
      eligible

/-- The session owned by an online checker. -/
def Session.assignTo (checker : ℕ) (s : Session) : Session :=
  { s with onlineChecker := some checker }

theorem Session.key_assignTo (checker : ℕ) (s : Session) : key (s.assignTo checker) = key s := rfl

/-- The assignment of one session. -/
def assignSession (e : ℕ × ℕ) : M Unit :=
  Prog.atomic do
    saveSession e.1 (Session.assignTo e.2) (Session.key_assignTo e.2)
    createAudit none (.sessionOnlineCheckerAssigned e.1 e.2)

/-- The notification of one checker. -/
def notifyAssigned (date : ℤ) (assigned : List (ℕ × ℕ)) (checker : ℕ) : M Unit := do
  if ← Prog.select fun db => (db.users.get? checker).isSome then
    notifyUsers [checker] (.onlineAssigned ((assigned.map Prod.snd).count checker) date)
  else pure ()

/-- `assign_online_sessions`: answers with the numbers of sessions assigned and left. -/
def assignOnlineSessions (date : ℤ) : M (ℕ × ℕ) := do
  match ← Prog.select Db.activeTerm with
  | none => pure (0, 0)
  | some term => do
    let sessions ← Prog.select fun db => db.candidateOnlineSessions date term.id
    if sessions.isEmpty then pure (0, 0)
    else do
      let assignments ← Prog.select fun db => db.onlineDutyAssignments date term.id
      let mapping := onlineMapping assignments sessions
      if mapping.isEmpty then do
        notifyRole .ifoAdmin (.onlineUnassigned sessions.length date)
        pure (0, sessions.length)
      else do
        let assigned := sessions.filterMap fun s =>
          (mapping.find? fun e => e.1 == s.id).map fun e => (s.id, e.2)
        Prog.forEach assigned assignSession
        Prog.forEach (assigned.map Prod.snd).eraseDups (notifyAssigned date assigned)
        pure (assigned.length, sessions.length - assigned.length)

end FluxTrack
