import FluxTrack.Scheduling.Suspensions

/-!
# Console actions of the IFO office

The views of `web/ifo.py` that correct a wrongly absent session and that keep the
list of academic breaks.

## Main definitions

* `sessionReinstate` — reinstate an absent session as held
* `breakCreate`, `breakDelete` — the calendar of breaks
-/

namespace FluxTrack

open Calendar Relational Process

/-- The session reinstated as held, with the scheduled window where no times are
known. -/
def Session.reinstate (s : Session) : Session :=
  { s with
    status := .completed
    actualStart := some (s.actualStart.getD s.scheduledStart)
    actualEnd := some (s.actualEnd.getD s.scheduledEnd) }

theorem Session.key_reinstate (s : Session) : key s.reinstate = key s := rfl

/-- The answers to a correction. -/
inductive ReinstateReply
  | notAbsent (status : SessionStatus)
  | reasonMissing
  | reinstated
  deriving DecidableEq

/-- `session_reinstate`. -/
def sessionReinstate (user pk : ℕ) (reason : String) : M ReinstateReply := do
  match ← Prog.select Db.activeTerm with
  | none => .raise .http404
  | some term => do
    match ← Prog.select fun db => (db.sessions.get? pk).filter (db.inTerm term.id) with
    | none => .raise .http404
    | some s =>
      let reason := Py.strip reason
      if s.status ≠ .absent then pure (.notAbsent s.status)
      else if reason = "" then pure .reasonMissing
      else do
        Prog.atomic do
          saveSession s.id Session.reinstate Session.key_reinstate
          createAudit (some user) (.sessionAbsentCorrected s.id reason)
        pure .reinstated

/-- `break_create` with the dates as parsed: `none` is a date that does not parse, and
no end date given means the start date. Answers with the error shown, if any. -/
def breakCreate (user : ℕ) (start : Option ℤ) (endGiven : Option (Option ℤ)) (reason : String) :
    M (Option String) := do
  match ← Prog.select Db.activeTerm with
  | none => pure (some "No active term. Import a term first.")
  | some term =>
    let reason := Py.strip reason
    match start, endGiven.getD start with
    | none, _ => pure (some "Enter a valid start date.")
    | some _, none => pure (some "Enter a valid end date.")
    | some startDate, some endDate =>
      if endDate < startDate then pure (some "The end date is before the start date.")
      else if reason = "" then
        pure (some "Name the holiday (for example, Araw ng Kagitingan).")
      else do
        Prog.modify fun db =>
          { db with
            breaks := db.breaks.insert fun pk =>
              ⟨pk, term.id, startDate, endDate, Py.truncate 120 reason⟩ }
        createAudit (some user) (.academicBreakCreated term.id startDate endDate reason)
        pure none

/-- `break_delete`. -/
def breakDelete (user pk : ℕ) : M Unit := do
  match ← Prog.select Db.activeTerm with
  | none => .raise .http404
  | some term => do
    requireWritableTerm term
    match ← Prog.select fun db => (db.breaks.get? pk).filter fun b => b.term == term.id with
    | none => .raise .http404
    | some brk => do
      createAudit (some user)
        (.academicBreakDeleted brk.term brk.startDate brk.endDate brk.reason)
      Prog.modify fun db => { db with breaks := db.breaks.delete fun b => b.id == pk }

end FluxTrack
