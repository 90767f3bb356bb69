import FluxTrack.Data.Builtins
import FluxTrack.Db

/-!
# Calendar excusal and class suspensions

`scheduling/suspensions.py`: whether a date in a building is excused from
attendance, and the two services that declare and lift a suspension. Both
services first select the primary keys of the rows they are about to change and
then update by primary key, in slices of `flipChunk` keys.

## Main definitions

* `Db.excused` — the excusal predicate on a state
* `excusedChecker` — the predicate as the services obtain it
* `suspendClasses`, `liftSuspension` — the write services

## Main results

* `run_excusedChecker` — the two readings agree
* `run_flipSessions` — a batched flip is one update and one audit row for each key
* `run_suspendClasses`, `run_liftSuspension` — the services run alone
-/

namespace FluxTrack

open Calendar Relational Process

/-- A break of the term covers date `d`. -/
def AcademicBreak.covers (b : AcademicBreak) (d : ℤ) : Bool :=
  decide (b.startDate ≤ d) && decide (d ≤ b.endDate)

/-- A break or an active suspension of the term covers date `d` in building `b`. -/
def Db.excused (db : Db) (term : ℕ) (d : ℤ) (b : ℕ) : Bool :=
  ((db.breaks.rows.filter fun br => br.term == term).any fun br => br.covers d) ||
    ((db.suspensions.rows.filter fun sp => sp.term == term && sp.liftedAt.isNone).any
      fun sp => sp.covers d b)

/-- `excused_checker`: the breaks and the active suspensions are read once. -/
def excusedChecker (term : ℕ) : M (ℤ → ℕ → Bool) := do
  let breaks ← Prog.select fun db => db.breaks.rows.filter fun br => br.term == term
  let suspensions ← Prog.select fun db =>
    db.suspensions.rows.filter fun sp => sp.term == term && sp.liftedAt.isNone
  pure fun d b => (breaks.any fun br => br.covers d) || suspensions.any fun sp => sp.covers d b

@[simp] theorem run_excusedChecker (term : ℕ) (db : Db) :
    (excusedChecker term).run db = (.ok (db.excused term), db) := rfl

/-- `session_is_calendar_excused`: the session's date in the building of its room. -/
def Db.sessionExcused (db : Db) (excused : ℤ → ℕ → Bool) (s : Session) : Bool :=
  excused s.date (db.buildingOf s.room)

/-! ### Batched flips -/

/-- `_FLIP_CHUNK`. -/
def flipChunk : ℕ := 900

/-- `Session.objects.filter(pk__in=ids).update(...)`. -/
def updateSessions (ids : List ℕ) (f : Session → Session)
    (hf : ∀ s, key (f s) = key s := by intro _; rfl) : M Unit :=
  Prog.modify fun db =>
    { db with sessions := db.sessions.update (fun s => ids.contains s.id) f hf }

/-- Change the selected sessions in one statement and audit each; no statement is
issued when nothing is selected. -/
def flipAll (actor : Option ℕ) (ids : List ℕ) (f : Session → Session)
    (hf : ∀ s, key (f s) = key s) (event : ℕ → AuditEvent) : M Unit :=
  if ids.isEmpty then pure ()
  else do
    updateSessions ids f hf
    bulkCreateAudit actor (ids.map event)

/-- Update the sessions in slices, each followed by its audit rows. -/
def flipSessions (actor : Option ℕ) (ids : List ℕ) (f : Session → Session)
    (hf : ∀ s, key (f s) = key s) (event : ℕ → AuditEvent) : M Unit :=
  Prog.forEach (Py.chunks flipChunk ids) fun chunk => do
    updateSessions chunk f hf
    bulkCreateAudit actor (chunk.map event)

section Flip

variable {actor : Option ℕ} {ids : List ℕ} {f : Session → Session}
  {hf : ∀ s, key (f s) = key s} {event : ℕ → AuditEvent} {db : Db}

/-- Updating two sets of rows by an idempotent change is updating their union. -/
theorem update_contains_append (t : Table Session) (hff : ∀ s, f (f s) = f s) (l l' : List ℕ) :
    (t.update (fun s => l.contains s.id) f hf).update (fun s => l'.contains s.id) f hf =
      t.update (fun s => (l ++ l').contains s.id) f hf := by
  have hid : ∀ s, (f s).id = s.id := hf
  ext1
  rw [Table.rows_update, Table.rows_update, Table.rows_update, List.map_map]
  refine List.map_congr_left fun s _ => ?_
  by_cases hl : l.contains s.id <;> by_cases hl' : l'.contains s.id <;>
    simp_all [Function.comp]

/-- Run alone, a flip is one update and one audit row for each key. -/
theorem run_flipAll :
    (flipAll actor ids f hf event).run db =
      (.ok (), { db with
        sessions := db.sessions.update (fun s => ids.contains s.id) f hf
        audit := db.audit ++ (ids.map event).map fun e => ⟨actor, e⟩ }) := by
  cases ids with
  | nil => simp [flipAll]
  | cons pk pks => rfl

theorem run_flipSessions_aux (hff : ∀ s, f (f s) = f s) (slices : List (List ℕ)) (db : Db) :
    Prog.run (Prog.forEach slices fun chunk => do
        updateSessions chunk f hf
        bulkCreateAudit actor (chunk.map event) : M Unit) db =
      (.ok (), { db with
        sessions := db.sessions.update (fun s => slices.flatten.contains s.id) f hf
        audit := db.audit ++ (slices.flatten.map event).map fun e => ⟨actor, e⟩ }) := by
  induction slices generalizing db with
  | nil => simp [Prog.forEach]
  | cons chunk rest ih =>
    refine (Prog.run_forEach_cons rfl).trans ?_
    rw [ih]
    simp only [update_contains_append _ hff, List.flatten_cons, List.map_append,
      List.append_assoc]

/-- Run alone, a batched flip is one update and one audit row for each key. -/
theorem run_flipSessions (hff : ∀ s, f (f s) = f s) :
    (flipSessions actor ids f hf event).run db =
      (.ok (), { db with
        sessions := db.sessions.update (fun s => ids.contains s.id) f hf
        audit := db.audit ++ (ids.map event).map fun e => ⟨actor, e⟩ }) := by
  rw [flipSessions, run_flipSessions_aux hff, Py.flatten_chunks (by decide)]

end Flip

/-! ### Declaring a suspension -/

/-- The sessions a suspension of `term` over the dates and the building selects. -/
def Db.suspendable (db : Db) (term : ℕ) (startDate endDate : ℤ) (building : Option ℕ)
    (s : Session) : Bool :=
  db.inTerm term s && s.status == .scheduled &&
    (decide (startDate ≤ s.date) && decide (s.date ≤ endDate)) &&
    (building.isNone || building == some (db.buildingOf s.room))

theorem scheduled_of_suspendable {db : Db} {term : ℕ} {startDate endDate : ℤ}
    {building : Option ℕ} {s : Session}
    (h : db.suspendable term startDate endDate building s = true) : s.status = .scheduled := by
  simp only [Db.suspendable, Bool.and_eq_true, beq_iff_eq] at h
  exact h.1.1.2

/-- The session called off for a reason. -/
def Session.cancel (reason : String) (s : Session) : Session :=
  { s with status := .cancelled, cancelledReason := reason }

theorem Session.key_cancel (reason : String) (s : Session) : key (s.cancel reason) = key s := rfl

theorem Session.cancel_cancel (reason : String) (s : Session) :
    (s.cancel reason).cancel reason = s.cancel reason := rfl

/-- One notification for each affected faculty member, with the number of that
member's sessions; `rows` are the selected keys with their faculty. -/
def notifySuspended (rows : List (ℕ × ℕ)) (startDate : ℤ) (building : Option ℕ)
    (reason : String) : M Unit := do
  let users ← Prog.select fun db => db.users.rows.map User.id
  Prog.forEach ((rows.map Prod.snd).eraseDups.filter users.contains) fun fid =>
    notifyUsers [fid]
      (.classSuspended ((rows.map Prod.snd).count fid) startDate building reason)

/-- `ClassSuspension.objects.create`, answering with the new primary key. -/
def createSuspension (term : ℕ) (startDate endDate : ℤ) (reason : String) (building : Option ℕ)
    (declaredBy : Option ℕ) : M ℕ :=
  Prog.modifyGet (fun db => db.suspensions.nextKey) fun db =>
    { db with
      suspensions := db.suspensions.insert fun pk =>
        ⟨pk, term, startDate, endDate, building, reason, declaredBy, none, none⟩ }

/-- `suspend_classes`: declare a suspension and cancel the sessions it covers.
Answers with the suspension's key and the number of cancelled sessions. -/
def suspendClasses (term : ℕ) (startDate endDate : ℤ) (reason : String) (building : Option ℕ)
    (declaredBy : Option ℕ) : M (ℕ × ℕ) :=
  Prog.atomic do
    let term ← lockTerm term
    requireWritableTerm term
    let suspension ← createSuspension term.id startDate endDate reason building declaredBy
    let rows ← Prog.select fun db =>
      (db.sessionList.filter (db.suspendable term.id startDate endDate building)).map
        fun s => (s.id, s.faculty)
    if rows.isEmpty then pure (suspension, 0)
    else do
      let ids := rows.map Prod.fst
      flipSessions declaredBy ids (Session.cancel (Py.truncate 200 reason)) (Session.key_cancel _)
        fun pk => .sessionCancelled pk reason (some suspension) none
      notifySuspended rows startDate building reason
      pure (suspension, ids.length)

/-! ### Lifting a suspension -/

/-- The sessions that lifting a suspension selects: still cancelled, with the
suspension's own reason, on its dates and in its building. -/
def Db.liftable (db : Db) (sp : ClassSuspension) (s : Session) : Bool :=
  db.inTerm sp.term s && s.status == .cancelled &&
    s.cancelledReason == Py.truncate 200 sp.reason &&
    (decide (sp.startDate ≤ s.date) && decide (s.date ≤ sp.endDate)) &&
    (sp.building.isNone || sp.building == some (db.buildingOf s.room))

theorem cancelled_of_liftable {db : Db} {sp : ClassSuspension} {s : Session}
    (h : db.liftable sp s = true) : s.status = .cancelled := by
  simp only [Db.liftable, Bool.and_eq_true, beq_iff_eq] at h
  exact h.1.1.1.2

/-- The session back on the timetable. -/
def Session.uncancel (s : Session) : Session :=
  { s with status := .scheduled, cancelledReason := "" }

theorem Session.key_uncancel (s : Session) : key s.uncancel = key s := rfl

theorem Session.uncancel_uncancel (s : Session) : s.uncancel.uncancel = s.uncancel := rfl

/-- `suspension.save(update_fields=["lifted_at", "lifted_by"])`. -/
def saveLifted (pk : ℕ) (now : ℤ) (liftedBy : Option ℕ) : M Unit :=
  Prog.modify fun db =>
    { db with
      suspensions := db.suspensions.update (fun sp => sp.id == pk)
        (fun sp => { sp with liftedAt := some now, liftedBy := liftedBy }) }

/-- `lift_suspension`: reinstate the sessions cancelled for the suspension's
reason and mark it lifted. Answers with the number of reinstated sessions. -/
def liftSuspension (suspension : ℕ) (liftedBy : Option ℕ) (now : ℤ) : M ℕ :=
  Prog.atomic do
    Prog.lock (.suspension suspension)
    match ← Prog.select fun db => db.suspensions.get? suspension with
    | none => .raise .doesNotExist
    | some sp => do
      match ← Prog.select fun db => db.terms.table.get? sp.term with
      | none => .raise .doesNotExist
      | some term => do
        requireWritableTerm term
        if sp.liftedAt.isSome then pure 0
        else do
          let ids ← Prog.select fun db => (db.sessionList.filter (db.liftable sp)).map Session.id
          flipSessions liftedBy ids Session.uncancel Session.key_uncancel
            fun pk => .sessionSuspensionLifted pk sp.id
          saveLifted sp.id now liftedBy
          pure ids.length

/-! ### The services run alone -/

/-- The notifications of a suspension: one for each affected faculty member. -/
def Db.suspensionNotices (db : Db) (rows : List (ℕ × ℕ)) (startDate : ℤ) (building : Option ℕ)
    (reason : String) : List Notification :=
  ((rows.map Prod.snd).eraseDups.filter (db.users.rows.map User.id).contains).map fun fid =>
    ⟨fid, .classSuspended ((rows.map Prod.snd).count fid) startDate building reason⟩

theorem run_notifySuspended (db : Db) (rows : List (ℕ × ℕ)) (startDate : ℤ)
    (building : Option ℕ) (reason : String) :
    (notifySuspended rows startDate building reason).run db =
      (.ok (), { db with
        notifications := db.notifications ++
          db.suspensionNotices rows startDate building reason }) := by
  rw [notifySuspended, Prog.run_select_bind]
  exact run_forEach_notifyUsers _ id _ db

/-- The keys and the faculty of the sessions a suspension cancels. -/
def Db.suspendedRows (db : Db) (term : ℕ) (startDate endDate : ℤ) (building : Option ℕ) :
    List (ℕ × ℕ) :=
  (db.sessionList.filter (db.suspendable term startDate endDate building)).map
    fun s => (s.id, s.faculty)

/-- The database once a suspension has been declared. -/
def Db.suspended (db : Db) (term : ℕ) (startDate endDate : ℤ) (reason : String)
    (building declaredBy : Option ℕ) : Db :=
  let rows := db.suspendedRows term startDate endDate building
  { db with
    suspensions := db.suspensions.insert fun pk =>
      ⟨pk, term, startDate, endDate, building, reason, declaredBy, none, none⟩
    sessions := db.sessions.update (db.suspendable term startDate endDate building)
      (Session.cancel (Py.truncate 200 reason)) (Session.key_cancel _)
    audit := db.audit ++ rows.map fun r =>
      ⟨declaredBy, .sessionCancelled r.1 reason (some db.suspensions.nextKey) none⟩
    notifications := db.notifications ++ db.suspensionNotices rows startDate building reason }

section

variable {db : Db} {term : ℕ} {startDate endDate : ℤ} {reason : String}
  {building declaredBy : Option ℕ}

theorem mem_sessions_suspended {s : Session} :
    s ∈ (db.suspended term startDate endDate reason building declaredBy).sessions ↔
      ∃ a ∈ db.sessions, (if db.suspendable term startDate endDate building a = true
        then a.cancel (Py.truncate 200 reason) else a) = s :=
  Table.mem_update_iff (Session.key_cancel _)

theorem mem_suspensions_suspended {sp : ClassSuspension} :
    sp ∈ (db.suspended term startDate endDate reason building declaredBy).suspensions ↔
      sp ∈ db.suspensions ∨ sp = ⟨db.suspensions.nextKey, term, startDate, endDate, building,
        reason, declaredBy, none, none⟩ :=
  Table.mem_insert

@[simp] theorem scheduleOf_suspended (s : Session) :
    (db.suspended term startDate endDate reason building declaredBy).scheduleOf s =
      db.scheduleOf s := rfl

@[simp] theorem buildingOf_suspended (room : ℕ) :
    (db.suspended term startDate endDate reason building declaredBy).buildingOf room =
      db.buildingOf room := rfl

end

/-- The part of the service after the suspension row: cancel, audit and notify, unless
no session is covered. -/
theorem run_cancelSuspended (db : Db) (suspension term : ℕ) (startDate endDate : ℤ)
    (reason : String) (building declaredBy : Option ℕ) :
    let rows := db.suspendedRows term startDate endDate building
    (if rows.isEmpty then pure (suspension, 0)
      else do
        let ids := rows.map Prod.fst
        flipSessions declaredBy ids (Session.cancel (Py.truncate 200 reason)) (Session.key_cancel _)
          fun pk => .sessionCancelled pk reason (some suspension) none
        notifySuspended rows startDate building reason
        pure (suspension, ids.length) : M (ℕ × ℕ)).run db =
      (.ok (suspension, rows.length), { db with
        sessions := db.sessions.update (db.suspendable term startDate endDate building)
          (Session.cancel (Py.truncate 200 reason)) (Session.key_cancel _)
        audit := db.audit ++ rows.map fun r =>
          ⟨declaredBy, .sessionCancelled r.1 reason (some suspension) none⟩
        notifications := db.notifications ++
          db.suspensionNotices rows startDate building reason }) := by
  intro rows
  have hkeys : rows.map Prod.fst =
      (db.sessionList.filter (db.suspendable term startDate endDate building)).map Session.id :=
    List.map_map
  rw [← Db.update_contains_selected, ← hkeys]
  split
  · -- no session is covered
    rename_i hempty
    rw [List.isEmpty_iff.mp hempty]
    simp [Db.suspensionNotices]
  · refine (Prog.run_bind_of_ok (run_flipSessions (Session.cancel_cancel _))).trans ?_
    refine (Prog.run_bind_of_ok (run_notifySuspended _ _ _ _ _)).trans ?_
    rw [Prog.run_pure, List.length_map, List.map_map, List.map_map]
    rfl

/-- Run alone in a writable term, declaring a suspension cancels exactly the sessions it
covers, audits each and notifies each faculty member once. -/
theorem run_suspendClasses {db : Db} {term : ℕ} {t : AcademicTerm}
    (hterm : db.terms.table.get? term = some t) (hwritable : t.status ≠ .archived)
    (startDate endDate : ℤ) (reason : String) (building declaredBy : Option ℕ) :
    (suspendClasses term startDate endDate reason building declaredBy).run db =
      (.ok (db.suspensions.nextKey,
          (db.suspendedRows term startDate endDate building).length),
        db.suspended term startDate endDate reason building declaredBy) := by
  have hid : t.id = term := (Table.get?_eq_some_iff.mp hterm).2
  subst hid
  refine Prog.run_atomic_of_ok ?_
  refine (Prog.run_bind_of_ok (run_lockTerm_of_get? hterm)).trans ?_
  refine (Prog.run_bind_of_ok (run_requireWritableTerm hwritable)).trans ?_
  exact run_cancelSuspended _ db.suspensions.nextKey t.id startDate endDate reason building
    declaredBy

/-- A suspension that could not be declared changes nothing. -/
theorem run_suspendClasses_cases (db : Db) (term : ℕ) (startDate endDate : ℤ) (reason : String)
    (building declaredBy : Option ℕ) :
    (∃ e, (suspendClasses term startDate endDate reason building declaredBy).run db =
      (.error e, db)) ∨
    (∃ t, db.terms.table.get? term = some t ∧ t.status ≠ .archived) ∧
    (suspendClasses term startDate endDate reason building declaredBy).run db =
      (.ok (db.suspensions.nextKey,
          (db.suspendedRows term startDate endDate building).length),
        db.suspended term startDate endDate reason building declaredBy) := by
  rcases Prog.run_cases_of_eq_atomic
    (q := suspendClasses term startDate endDate reason building declaredBy) rfl db with
    herr | ⟨_, _, hbody, -⟩
  · exact .inl herr
  · obtain ⟨t, db₁, hlock, hrest⟩ := Prog.run_bind_eq_ok hbody
    obtain ⟨rfl, hterm⟩ := run_lockTerm_eq_ok hlock
    obtain ⟨_, db₂, hwrite, -⟩ := Prog.run_bind_eq_ok hrest
    obtain ⟨-, hwritable⟩ := run_requireWritableTerm_eq_ok hwrite
    exact .inr ⟨⟨t, hterm, hwritable⟩, run_suspendClasses hterm hwritable _ _ _ _ _⟩

/-- The suspension marked lifted. -/
def ClassSuspension.lift (now : ℤ) (liftedBy : Option ℕ) (sp : ClassSuspension) : ClassSuspension :=
  { sp with liftedAt := some now, liftedBy := liftedBy }

theorem ClassSuspension.key_lift (now : ℤ) (liftedBy : Option ℕ) (sp : ClassSuspension) :
    key (sp.lift now liftedBy) = key sp := rfl

/-- The database once a suspension has been lifted. -/
def Db.lifted (db : Db) (sp : ClassSuspension) (liftedBy : Option ℕ) (now : ℤ) : Db :=
  { db with
    suspensions := db.suspensions.update (fun a => a.id == sp.id)
      (ClassSuspension.lift now liftedBy) (ClassSuspension.key_lift now liftedBy)
    sessions := db.sessions.update (db.liftable sp) Session.uncancel Session.key_uncancel
    audit := db.audit ++ (db.sessionList.filter (db.liftable sp)).map
      fun s => ⟨liftedBy, .sessionSuspensionLifted s.id sp.id⟩ }

section

variable {db : Db} {sp : ClassSuspension} {liftedBy : Option ℕ} {now : ℤ}

theorem mem_sessions_lifted {s : Session} :
    s ∈ (db.lifted sp liftedBy now).sessions ↔
      ∃ a ∈ db.sessions, (if db.liftable sp a = true then a.uncancel else a) = s :=
  Table.mem_update_iff Session.key_uncancel

theorem mem_suspensions_lifted {sp' : ClassSuspension} :
    sp' ∈ (db.lifted sp liftedBy now).suspensions ↔
      ∃ a ∈ db.suspensions, (if (a.id == sp.id) = true then a.lift now liftedBy else a) = sp' :=
  Table.mem_update_iff (ClassSuspension.key_lift now liftedBy)

@[simp] theorem scheduleOf_lifted (s : Session) :
    (db.lifted sp liftedBy now).scheduleOf s = db.scheduleOf s := rfl

@[simp] theorem buildingOf_lifted (room : ℕ) :
    (db.lifted sp liftedBy now).buildingOf room = db.buildingOf room := rfl

end

/-- Run alone, lifting a suspension that is in force in a writable term reinstates
exactly the sessions its filter selects. -/
theorem run_liftSuspension {db : Db} {sp : ClassSuspension} {t : AcademicTerm}
    (hsp : sp ∈ db.suspensions) (hterm : db.terms.table.get? sp.term = some t)
    (hwritable : t.status ≠ .archived) (hforce : sp.liftedAt = none)
    (liftedBy : Option ℕ) (now : ℤ) :
    (liftSuspension sp.id liftedBy now).run db =
      (.ok (db.sessionList.filter (db.liftable sp)).length, db.lifted sp liftedBy now) := by
  refine Prog.run_atomic_of_ok ?_
  rw [Prog.run_lock_bind, Prog.run_select_bind,
    show db.suspensions.get? sp.id = some sp from Table.get?_key hsp]
  change Prog.run (Prog.select _ >>= _) db = _
  rw [Prog.run_select_bind, hterm]
  refine (Prog.run_bind_of_ok (run_requireWritableTerm hwritable)).trans ?_
  rw [hforce]
  change Prog.run (Prog.select _ >>= _) db = _
  rw [Prog.run_select_bind]
  refine (Prog.run_bind_of_ok (run_flipSessions Session.uncancel_uncancel)).trans ?_
  have hsessions := db.update_contains_selected (db.liftable sp) Session.uncancel
    Session.key_uncancel
  rw [saveLifted, Prog.run_modify_bind, Prog.run_pure, List.length_map, List.map_map,
    List.map_map, hsessions]
  rfl

/-- Lifting raises and changes nothing, finds the suspension lifted and changes nothing, or
reinstates what the filter of a suspension in force selects. -/
theorem run_liftSuspension_cases (db : Db) (suspension : ℕ) (liftedBy : Option ℕ) (now : ℤ) :
    (∃ e, (liftSuspension suspension liftedBy now).run db = (.error e, db)) ∨
    (∃ sp ∈ db.suspensions, sp.id = suspension ∧ sp.liftedAt.isSome = true ∧
      (∃ t, db.terms.table.get? sp.term = some t ∧ t.status ≠ .archived) ∧
      (liftSuspension suspension liftedBy now).run db = (.ok 0, db)) ∨
    ∃ sp ∈ db.suspensions, sp.id = suspension ∧ sp.liftedAt = none ∧
      (∃ t, db.terms.table.get? sp.term = some t ∧ t.status ≠ .archived) ∧
      (liftSuspension suspension liftedBy now).run db =
        (.ok (db.sessionList.filter (db.liftable sp)).length, db.lifted sp liftedBy now) := by
  rcases Prog.run_cases_of_eq_atomic (q := liftSuspension suspension liftedBy now) rfl db with
    herr | ⟨n, db', hbody, hrun⟩
  · exact .inl herr
  · right
    rw [Prog.run_lock_bind, Prog.run_select_bind] at hbody
    cases hsp : db.suspensions.get? suspension with
    | none =>
      rw [hsp] at hbody
      cases hbody
    | some sp =>
      obtain ⟨hmem, rfl⟩ := Table.get?_eq_some_iff.mp hsp
      rw [hsp] at hbody
      replace hbody : Prog.run (Prog.select _ >>= _) db = _ := hbody
      rw [Prog.run_select_bind] at hbody
      cases hterm : db.terms.table.get? sp.term with
      | none =>
        rw [hterm] at hbody
        cases hbody
      | some t =>
        rw [hterm] at hbody
        obtain ⟨_, db₁, hwrite, hrest⟩ := Prog.run_bind_eq_ok hbody
        obtain ⟨rfl, hwritable⟩ := run_requireWritableTerm_eq_ok hwrite
        cases hforce : sp.liftedAt with
        | some at' =>
          rw [hforce] at hrest
          cases hrest
          -- a second lift does nothing and answers zero
          exact .inl ⟨sp, hmem, rfl, by rw [hforce]; rfl, ⟨t, hterm, hwritable⟩, hrun⟩
        | none =>
          exact .inr ⟨sp, hmem, rfl, hforce, ⟨t, hterm, hwritable⟩,
            run_liftSuspension hmem hterm hwritable hforce liftedBy now⟩

end FluxTrack
