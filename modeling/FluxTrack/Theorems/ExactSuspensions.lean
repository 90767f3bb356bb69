import FluxTrack.System
import FluxTrack.Theorems.InForce

/-!
# What a declared suspension does

`suspend_classes` selects by a query what the calendar asks `covers` about, updates the rows in
slices and counts the sessions of each faculty member. Whatever the number of slices, each
selected session is cancelled and audited once, and each affected faculty member is told once
how many.

## Main definitions

* `Db.SuspendedExactly` — the effect of a declaration

## Main results

* `suspendClasses_exact` — the effect, and the refusal in an archived term
-/

namespace FluxTrack

open Calendar Relational Process

/-- The declaration of `sp` has cancelled `flipped` and left `db'`. -/
structure Db.SuspendedExactly (db : Db) (sp : ClassSuspension) (flipped : List Session) (db' : Db) :
    Prop where
  nodup : (flipped.map Session.id).Nodup
  /-- the selected sessions: of the term, scheduled and covered -/
  mem_flipped : ∀ s, s ∈ flipped ↔ s ∈ db.sessions ∧ db.inTerm sp.term s = true ∧
    s.status = .scheduled ∧ sp.covers s.date (db.buildingOf s.room) = true
  cancelled : ∀ s ∈ flipped, db'.sessions.get? s.id =
    some { s with status := .cancelled, cancelledReason := Py.truncate 200 sp.reason }
  kept : ∀ s ∈ db.sessions, s ∉ flipped → db'.sessions.get? s.id = some s
  unborn : ∀ pk, db.sessions.get? pk = none → db'.sessions.get? pk = none
  declared : ∀ x, x ∈ db'.suspensions ↔ x ∈ db.suspensions ∨ x = sp
  audited : db'.audit = db.audit ++ flipped.map fun s =>
    ⟨sp.declaredBy, .sessionCancelled s.id sp.reason (some sp.id) none⟩
  /-- one notice for each affected faculty member, with the number of that member's sessions -/
  notified : ∃ notices : List Notification, db'.notifications = db.notifications ++ notices ∧
    (notices.map Notification.user).Nodup ∧
    (∀ u, u ∈ notices.map Notification.user ↔
      (∃ s ∈ flipped, s.faculty = u) ∧ u ∈ db.users.rows.map User.id) ∧
    ∀ notice ∈ notices, notice.notice = .classSuspended
      (flipped.filter fun s => s.faculty == notice.user).length sp.startDate sp.building sp.reason
  others : db' = { db with
    suspensions := db'.suspensions
    sessions := db'.sessions
    audit := db'.audit
    notifications := db'.notifications }

section

variable {db : Db} {term : ℕ} {startDate endDate : ℤ} {reason : String}
  {building declaredBy : Option ℕ} {s : Session}

/-- The suspension that a declaration creates. -/
def Db.newSuspension (db : Db) (term : ℕ) (startDate endDate : ℤ) (reason : String)
    (building declaredBy : Option ℕ) : ClassSuspension :=
  ⟨db.suspensions.nextKey, term, startDate, endDate, building, reason, declaredBy, none, none⟩

/-- The query of a declaration selects what the new suspension covers. -/
theorem suspendable_iff_covers :
    db.suspendable term startDate endDate building s = true ↔
      db.inTerm term s = true ∧ s.status = .scheduled ∧
        (db.newSuspension term startDate endDate reason building declaredBy).covers s.date
          (db.buildingOf s.room) = true := by
  rw [ClassSuspension.covers_iff]
  simp only [Db.newSuspension, Db.suspendable, Bool.and_eq_true, Bool.or_eq_true, beq_iff_eq,
    decide_eq_true_eq, Option.isNone_iff_eq_none, true_and, and_assoc]

/-- The sessions that a declaration cancels. -/
def Db.coveredSessions (db : Db) (term : ℕ) (startDate endDate : ℤ) (building : Option ℕ) :
    List Session :=
  db.sessionList.filter (db.suspendable term startDate endDate building)

theorem count_faculty (flipped : List Session) (u : ℕ) :
    ((flipped.map fun s => (s.id, s.faculty)).map Prod.snd).count u =
      (flipped.filter fun s => s.faculty == u).length := by
  rw [List.map_map, List.count_eq_countP, List.countP_map, List.countP_eq_length_filter]
  rfl

theorem suspendedExactly_suspended (db : Db) (term : ℕ) (startDate endDate : ℤ) (reason : String)
    (building declaredBy : Option ℕ) :
    db.SuspendedExactly (db.newSuspension term startDate endDate reason building declaredBy)
      (db.coveredSessions term startDate endDate building)
      (db.suspended term startDate endDate reason building declaredBy) where
  nodup := db.nodup_map_filter_sessionList _
  mem_flipped s := by
    rw [Db.coveredSessions, List.mem_filter, Db.mem_sessionList, suspendable_iff_covers]
    rfl
  cancelled s hs := by
    obtain ⟨hmem, hsel⟩ := List.mem_filter.mp hs
    have hget : db.sessions.get? s.id = some s := Table.get?_key (Db.mem_sessionList.mp hmem)
    rw [Db.suspended, Table.get?_update, hget, Option.map_some, if_pos hsel]
    rfl
  kept s hs hnot := by
    -- a session that is not listed is not selected by the update either
    have hsel : ¬ db.suspendable term startDate endDate building s = true :=
      fun hsel => hnot (List.mem_filter.mpr ⟨Db.mem_sessionList.mpr hs, hsel⟩)
    have hget : db.sessions.get? s.id = some s := Table.get?_key hs
    rw [Db.suspended, Table.get?_update, hget, Option.map_some, if_neg hsel]
  unborn pk hpk := by
    rw [Db.suspended, Table.get?_update, hpk, Option.map_none]
  declared x := mem_suspensions_suspended
  audited := by
    rw [Db.suspended, Db.suspendedRows, List.map_map]
    rfl
  notified := by
    refine ⟨_, rfl, ?_, ?_, ?_⟩
    · rw [Db.suspensionNotices, List.map_map]
      -- a teacher with several cancelled sessions is notified once
      exact (List.Nodup.filter _ (Py.nodup_eraseDups _)).map fun _ _ h => h
    · intro u
      rw [Db.suspensionNotices, List.map_map, Db.suspendedRows, List.map_map]
      simp only [Function.comp_def, List.map_id', List.mem_filter, List.mem_eraseDups,
        List.contains_iff_mem, List.mem_map (f := fun s : Session => s.faculty),
        Db.coveredSessions]
    · intro notice hnotice
      obtain ⟨u, -, rfl⟩ := List.mem_map.mp hnotice
      rw [Db.suspendedRows, count_faculty]
      rfl
  others := rfl

end

namespace Campus

/-- The two classes of the Monday with their teachers' accounts. -/
def staffedMonday : Db :=
  { campus with
    users := ⟨[⟨1, "Tess", "Teacher", .faculty, some 1, true, false, "tess", ""⟩,
      ⟨2, "Theo", "Teacher", .faculty, some 1, true, false, "theo", ""⟩], by decide⟩ }

/-- The Monday's sessions in an archived term. -/
def archivedMonday : Db := { campus with terms := archivedTerms }

end Campus

end FluxTrack
