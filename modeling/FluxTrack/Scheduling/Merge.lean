import FluxTrack.Scheduling.Suspensions

/-!
# Merged sections

`scheduling/merge.py`: the same instructor teaching several sections at the same
instant. `mergedSiblingIds` is the detector; the two propagation services select
the scheduled siblings of an anchor session and then update them by primary key.

## Main definitions

* `MergeView`, `mergesWith`, `mergedSiblingIds` — the detector
* `propagateMerged` — the shared body of the two services
* `propagateMergedPresent`, `propagateMergedAbsent` — the services

## Main results

* `run_propagateMerged`, `run_propagateMerged_cases` — the shared body run alone
-/

namespace FluxTrack

open Calendar Relational Process

/-- The session attributes the detector reads. -/
structure MergeView where
  id : ℕ
  faculty : ℕ
  scheduledStart : ℤ
  room : ℕ
  courseCode : String
  isOnline : Bool

/-- The candidate `c` merges with `anchor`: another session of the same faculty
member at the same instant, both online, or sharing the room or the course. -/
def mergesWith (anchor c : MergeView) : Bool :=
  c.id != anchor.id && c.faculty == anchor.faculty &&
    c.scheduledStart == anchor.scheduledStart &&
    ((anchor.isOnline && c.isOnline) ||
      (c.room == anchor.room || c.courseCode == anchor.courseCode))

/-- `merged_sibling_ids`. -/
def mergedSiblingIds (anchor : MergeView) (candidates : List MergeView) : List ℕ :=
  (candidates.filter (mergesWith anchor)).map MergeView.id

namespace Db

/-- A session with its course code and effective modality attached. -/
def mergeView (db : Db) (s : Session) : MergeView :=
  ⟨s.id, s.faculty, s.scheduledStart, s.room, (db.scheduleOf s).courseCode,
    db.effectiveModality s == .online⟩

/-- `_materialize_candidates`: the other sessions of the anchor's faculty member
and term at the anchor's start. -/
def mergeCandidates (db : Db) (anchor : Session) (term : ℕ) : List MergeView :=
  (db.sessionList.filter fun s =>
      s.faculty == anchor.faculty && s.scheduledStart == anchor.scheduledStart &&
        db.inTerm term s && s.id != anchor.id).map db.mergeView

/-- The scheduled rows among the given keys. -/
def scheduledAmong (db : Db) (ids : List ℕ) : List ℕ :=
  (db.sessionList.filter fun s => ids.contains s.id && s.status == .scheduled).map Session.id

/-- The scheduled siblings of an anchor, as one reading of the database. -/
def mergeFill (db : Db) (anchor : Session) : List ℕ :=
  db.scheduledAmong (mergedSiblingIds (db.mergeView anchor)
    (db.mergeCandidates anchor (db.scheduleOf anchor).term))

end Db

/-- The shared body of the propagation services: lock the anchor and its term,
find the scheduled siblings, change them and audit each. -/
def propagateMerged (anchor : ℕ) (actor : Option ℕ) (f : Session → Session)
    (hf : ∀ s, key (f s) = key s) (event : ℕ → AuditEvent) : M (List ℕ) :=
  Prog.atomic do
    Prog.lock (.session anchor)
    match ← Prog.select fun db =>
        (db.sessions.get? anchor).map fun s => (s, db.scheduleOf s, db.mergeView s) with
    | none => .raise .doesNotExist
    | some (anchor, schedule, view) => do
      let term ← lockTerm schedule.term
      requireWritableTerm term
      let candidates ← Prog.select fun db => db.mergeCandidates anchor schedule.term
      let fillIds ← Prog.select fun db => db.scheduledAmong (mergedSiblingIds view candidates)
      flipAll actor fillIds f hf event
      pure fillIds

/-- The session started by its merged sibling. -/
def Session.fillPresent (now : ℤ) (s : Session) : Session :=
  { s with status := .active, actualStart := some now, checkinMethod := some .merged }

theorem Session.key_fillPresent (now : ℤ) (s : Session) : key (s.fillPresent now) = key s := rfl

/-- The session marked absent. -/
def Session.markAbsent (s : Session) : Session := { s with status := .absent }

theorem Session.key_markAbsent (s : Session) : key s.markAbsent = key s := rfl

/-- `propagate_merged_present`. -/
def propagateMergedPresent (anchor : ℕ) (now : ℤ) (actor : Option ℕ) : M (List ℕ) :=
  propagateMerged anchor actor (Session.fillPresent now) (Session.key_fillPresent now)
    fun pk => .sessionMergedPresent pk anchor

/-- `propagate_merged_absent`: nothing happens within grace of the anchor's start;
`anchor` is the caller's copy of the session. -/
def propagateMergedAbsent (anchor : Session) (actor : Option ℕ) (now : ℤ) : M (List ℕ) := do
  let graceMin ← Prog.select fun db => db.policy.graceMinutes
  if isNoShowPastGrace anchor.scheduledStart now graceMin then
    propagateMerged anchor.id actor Session.markAbsent Session.key_markAbsent
      fun pk => .sessionMergedAbsent pk anchor.id
  else pure []

/-! ### The services run alone -/

section

variable {db : Db} {anchor : Session} {actor : Option ℕ} {f : Session → Session}
  {hf : ∀ s, key (f s) = key s} {event : ℕ → AuditEvent}

/-- Run alone in a writable term, propagation changes and audits exactly the
scheduled siblings. -/
theorem run_propagateMerged {term : AcademicTerm} (hanchor : anchor ∈ db.sessions)
    (hterm : db.terms.table.get? (db.scheduleOf anchor).term = some term)
    (hwritable : term.status ≠ .archived) :
    (propagateMerged anchor.id actor f hf event).run db =
      (.ok (db.mergeFill anchor), { db with
        sessions := db.sessions.update (fun s => (db.mergeFill anchor).contains s.id) f hf
        audit := db.audit ++ ((db.mergeFill anchor).map event).map fun e => ⟨actor, e⟩ }) := by
  refine Prog.run_atomic_of_ok ?_
  have hget : db.sessions.get? anchor.id = some anchor := Table.get?_key hanchor
  rw [Prog.run_lock_bind, Prog.run_select_bind, hget]
  refine (Prog.run_bind_of_ok (run_lockTerm_of_get? hterm)).trans ?_
  refine (Prog.run_bind_of_ok (run_requireWritableTerm hwritable)).trans ?_
  exact Prog.run_bind_of_ok run_flipAll

/-- Run alone, propagation raises and changes nothing, or finds the anchor in a writable term. -/
theorem run_propagateMerged_cases (anchor : ℕ) (actor : Option ℕ) (f : Session → Session)
    (hf : ∀ s, key (f s) = key s) (event : ℕ → AuditEvent) (db : Db) :
    (∃ e, (propagateMerged anchor actor f hf event).run db = (.error e, db)) ∨
    ∃ a ∈ db.sessions, a.id = anchor ∧
      (∃ t, db.terms.table.get? (db.scheduleOf a).term = some t ∧ t.status ≠ .archived) ∧
      (propagateMerged anchor actor f hf event).run db =
        (.ok (db.mergeFill a), { db with
          sessions := db.sessions.update (fun s => (db.mergeFill a).contains s.id) f hf
          audit := db.audit ++ ((db.mergeFill a).map event).map fun e => ⟨actor, e⟩ }) := by
  rcases Prog.run_cases_of_eq_atomic (q := propagateMerged anchor actor f hf event) rfl db with
    herror | ⟨fills, db', hbody, -⟩
  · exact .inl herror
  · right
    rw [Prog.run_lock_bind, Prog.run_select_bind] at hbody
    cases hget : db.sessions.get? anchor with
    | none =>
      rw [hget] at hbody
      cases hbody
    | some a =>
      obtain ⟨ha, rfl⟩ := Table.get?_eq_some_iff.mp hget
      rw [hget] at hbody
      obtain ⟨term, db₁, hterm, hbody⟩ := Prog.run_bind_eq_ok hbody
      obtain ⟨rfl, hterm⟩ := run_lockTerm_eq_ok hterm
      obtain ⟨_, db₂, hwritable, -⟩ := Prog.run_bind_eq_ok hbody
      obtain ⟨-, hwritable⟩ := run_requireWritableTerm_eq_ok hwritable
      exact ⟨a, ha, rfl, ⟨term, hterm, hwritable⟩, run_propagateMerged ha hterm hwritable⟩

end

end FluxTrack
