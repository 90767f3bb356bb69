import FluxTrack.Db

/-!
# The admin site

`scheduling/admin_guards.py` on the models that `scheduling/admin.py` registers with it: breaks,
schedules and sessions. A save and a deletion first ask for the term that owns the record as it
is passed, and are refused if that term is archived.

## Main definitions

* `Record`, `Db.stored` — records, and those that are stored
* `owningTerm`, `requireAdminWritableObject` — the guard
* `saveModel`, `deleteModel`, `deleteQueryset` — what is guarded
-/

namespace FluxTrack

open Calendar Relational Process

/-- The models whose admin is guarded. -/
inductive AdminModel
  | academicBreak | schedule | session
  deriving DecidableEq

/-- A record of one of these models. -/
inductive Record
  | academicBreak (b : AcademicBreak)
  | schedule (c : Schedule)
  | session (s : Session)
  deriving DecidableEq

namespace Record

/-- `obj.__class__`. -/
def model : Record → AdminModel
  | academicBreak _ => .academicBreak
  | schedule _ => .schedule
  | session _ => .session

/-- `obj.pk`. -/
def pk : Record → ℕ
  | academicBreak b => b.id
  | schedule c => c.id
  | session s => s.id

/-- `obj.term_id`, or `obj.schedule_id` of a record without it; zero stands for an unset key. -/
def ownerKey : Record → ℕ
  | academicBreak b => b.term
  | schedule c => c.term
  | session s => s.schedule

end Record

namespace Db

/-- The records of a model. -/
def recordsOf (db : Db) : AdminModel → List Record
  | .academicBreak => db.breaks.rows.map .academicBreak
  | .schedule => db.schedules.rows.map .schedule
  | .session => db.sessions.rows.map .session

/-- The stored record of a model with a primary key. -/
def stored (db : Db) (m : AdminModel) (pk : ℕ) : Option Record :=
  (db.recordsOf m).find? fun r => r.pk == pk

/-- `obj.save()`. -/
def put (db : Db) : Record → Db
  | .academicBreak b => { db with breaks := db.breaks.put b }
  | .schedule c => { db with schedules := db.schedules.put c }
  | .session s => { db with sessions := db.sessions.put s }

/-- The sessions are deleted, with their validations; those handed over from them keep nothing
of that. -/
def deleteSessions (db : Db) (pks : List ℕ) : Db :=
  { db with
    sessions := (db.sessions.delete fun s => pks.contains s.id).update
      (fun s => s.handoverFrom.any pks.contains) fun s => { s with handoverFrom := none }
    validations := db.validations.delete fun v => v.session.any pks.contains }

/-- The schedules are deleted, with their sessions. -/
def deleteSchedules (db : Db) (pks : List ℕ) : Db :=
  let db' := db.deleteSessions
    ((db.sessions.rows.filter fun s => pks.contains s.schedule).map Session.id)
  { db' with schedules := db'.schedules.delete fun c => pks.contains c.id }

end Db

/-! ### The guard -/

/-- `obj.term if obj.term_id else None`. -/
def relatedTerm (pk : ℕ) : M (Option AcademicTerm) :=
  if pk = 0 then pure none
  else do
    match ← Prog.select fun db => db.terms.table.get? pk with
    | none => .raise .doesNotExist
    | some term => pure (some term)

/-- `obj.schedule.term if obj.schedule_id else None`. -/
def relatedScheduleTerm (pk : ℕ) : M (Option AcademicTerm) :=
  if pk = 0 then pure none
  else do
    match ← Prog.select fun db => db.schedules.get? pk with
    | none => .raise .doesNotExist
    | some sched => do
      match ← Prog.select fun db => db.terms.table.get? sched.term with
      | none => .raise .doesNotExist
      | some term => pure (some term)

/-- `owning_term`: a session has no term of its own. -/
def owningTerm (obj : Record) : M AcademicTerm := do
  let term ← match obj with
    | .academicBreak b => relatedTerm b.term
    | .schedule c => relatedTerm c.term
    | .session s => relatedScheduleTerm s.schedule
  match term with
  | none => .raise (.permissionDenied "This record has no unambiguous academic-term owner.")
  | some term => pure term

/-- `require_admin_writable_object`. -/
def requireAdminWritableObject (obj : Record) : M Unit :=
  (owningTerm obj >>= requireWritableTerm).elim (fun _ => pure ()) fun e =>
    if e = .archivedTerm then
      .raise (.permissionDenied "Archived academic-term records are read-only.")
    else .raise e

/-! ### What is guarded -/

/-- `TermOwnedAdminGuardMixin.save_model`: `obj` is the record with the submitted values. -/
def saveModel (obj : Record) : M Unit := do
  requireAdminWritableObject obj
  Prog.modify fun db => db.put obj

/-- `queryset.delete()` on the records with these keys: a schedule that a shift item names is
protected. -/
def deleteRecords (m : AdminModel) (pks : List ℕ) : M Unit :=
  match m with
  | .academicBreak =>
    Prog.modify fun db => { db with breaks := db.breaks.delete fun b => pks.contains b.id }
  | .schedule => do
    if ← Prog.select fun db => db.items.rows.any fun i => pks.contains i.schedule then
      .raise .protectedRows
    else Prog.modify fun db => db.deleteSchedules pks
  | .session => Prog.modify fun db => db.deleteSessions pks

/-- `TermOwnedAdminGuardMixin.delete_model`. -/
def deleteModel (obj : Record) : M Unit := do
  requireAdminWritableObject obj
  deleteRecords obj.model [obj.pk]

/-- `TermOwnedAdminGuardMixin.delete_queryset`, of the records of a model with these keys: all
are checked before any is deleted. -/
def deleteQueryset (m : AdminModel) (pks : List ℕ) : M Unit := do
  let objects ← Prog.select fun db => (db.recordsOf m).filter fun r => pks.contains r.pk
  Prog.forEach objects requireAdminWritableObject
  deleteRecords m (objects.map Record.pk)

end FluxTrack
