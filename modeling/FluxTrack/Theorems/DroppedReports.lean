import FluxTrack.Scheduling.RoomReporting
import FluxTrack.Scheduling.ScheduleOps
import FluxTrack.Theorems.Attendance

/-!
# Reports on a dropped class

Dropping a class leaves its past sessions as they were, but the reports reach a session
through the status of its schedule: a class that is not active counts neither with its
sessions nor with its cells of the timetable. So a report on the past after a class was
dropped is the report with that one schedule archived, and the attendance reports are the
same as before exactly if none of its sessions was in scope.

## Main definitions

* `Db.archived` — the database with one schedule archived and nothing else changed
* `ReportScope.Past` — a report on days before today
* `SameReports` — four reports over a scope agree

## Main results

* `scopedSessions_dropped`, `scopedSessions_archived` — the sessions of a report
* `cancelSchedule_history` — the reports
-/

namespace FluxTrack

open Calendar Relational Process

/-- The database with one schedule archived. -/
def Db.archived (db : Db) (schedule : ℕ) : Db :=
  { db with
    schedules := db.schedules.update (fun s => s.id == schedule) Schedule.archive
      Schedule.key_archive }

/-- No day of the report is today or later. -/
def ReportScope.Past (scope : ReportScope) (today : ℤ) : Prop := scope.lastDay < today

section

variable {db : Db} {schedule : ℕ} {actor : Option ℕ} {reason : String} {today : ℤ}
  {scope : ReportScope} {faculty : Option ℕ}

/-! ### The sessions of a report -/

/-- What is in scope is not after the last day of the report. -/
theorem date_le_lastDay {s : Session} (h : db.inScope scope faculty s = true) :
    s.date ≤ scope.lastDay := by
  simp only [Db.inScope, Bool.and_eq_true, decide_eq_true_eq] at h
  obtain ⟨⟨⟨⟨hrange, -⟩, -⟩, -⟩, hasOf⟩ := h
  unfold ReportScope.lastDay
  cases hday : scope.asOf with
  | none => exact hrange.2
  | some d =>
    rw [hday] at hasOf
    exact le_min hrange.2 (of_decide_eq_true hasOf)

/-- The sessions that dropping the class cancels. -/
def Db.callsOff (db : Db) (schedule : ℕ) (reason : String) (today : ℤ) (s : Session) : Session :=
  if s ∈ db.futureScheduled schedule today then s.cancel (cancelReason reason) else s

theorem rows_sessions_dropped :
    (db.dropped schedule actor reason today).sessions.rows =
      db.sessions.rows.map (db.callsOff schedule reason today) :=
  rows_update_futureScheduled db schedule today (Session.key_cancel _)

/-- A session before today stays as it was. -/
theorem callsOff_of_past {s : Session} (h : s.date < today) :
    db.callsOff schedule reason today s = s := by
  refine if_neg fun hmem => ?_
  have hsel := (List.mem_filter.mp hmem).2
  rw [Bool.and_eq_true, decide_eq_true_eq] at hsel
  exact absurd hsel.2 (not_le.mpr h)

/-- Dropping a class keeps everything a scope looks at. -/
theorem callsOff_fields (db : Db) (schedule : ℕ) (reason : String) (today : ℤ) (s : Session) :
    (db.callsOff schedule reason today s).date = s.date ∧
      (db.callsOff schedule reason today s).scheduledStart = s.scheduledStart ∧
      (db.callsOff schedule reason today s).schedule = s.schedule ∧
      (db.callsOff schedule reason today s).faculty = s.faculty := by
  unfold Db.callsOff
  split <;> exact ⟨rfl, rfl, rfl, rfl⟩

/-- The sessions in a past scope are those with the schedule archived. -/
theorem scopedSessions_dropped (hpast : scope.Past today) (faculty : Option ℕ) :
    (db.dropped schedule actor reason today).scopedSessions scope faculty =
      (db.archived schedule).scopedSessions scope faculty := by
  have hlist : (db.dropped schedule actor reason today).sessionList =
      db.sessionList.map (db.callsOff schedule reason today) := by
    rw [Db.sessionList, rows_sessions_dropped, Db.sessionList]
    refine (List.map_insertionSort _ _ _ _ fun a _ b _ => ?_).symm
    obtain ⟨hdate, hstart, -, -⟩ := callsOff_fields db schedule reason today a
    obtain ⟨hdate', hstart', -, -⟩ := callsOff_fields db schedule reason today b
    rw [Session.precedes, Session.precedes, hdate, hdate', hstart, hstart']
  have hscope : (db.dropped schedule actor reason today).inScope scope faculty ∘
      db.callsOff schedule reason today = (db.archived schedule).inScope scope faculty := by
    funext s
    obtain ⟨hdate, -, hsched, hfaculty⟩ := callsOff_fields db schedule reason today s
    rw [Function.comp_apply, Db.inScope, Db.inScope, hdate, hsched, hfaculty]
    rfl
  rw [Db.scopedSessions, hlist, List.filter_map, hscope]
  -- what is in scope is before today
  refine (List.map_congr_left fun s hs => ?_).trans (List.map_id _)
  have hdate := date_le_lastDay (List.mem_filter.mp hs).2
  exact callsOff_of_past (hdate.trans_lt hpast)

/-- An archived schedule is not active. -/
theorem any_active_archived (term : Option ℕ) (pk : ℕ) :
    (((db.archived schedule).schedules.get? pk).any fun a =>
        some a.term == term && a.status == .active) =
      (((db.schedules.get? pk).any fun a => some a.term == term && a.status == .active) &&
        pk != schedule) := by
  have hget : (db.archived schedule).schedules.get? pk = (db.schedules.get? pk).map fun a =>
      if (a.id == schedule) = true then a.archive else a :=
    Table.get?_update Schedule.key_archive
  rw [hget]
  cases ha : db.schedules.get? pk with
  | none => rfl
  | some a =>
    obtain ⟨-, rfl⟩ := Table.get?_eq_some_iff.mp ha
    rw [Option.map_some, Option.any_some, Option.any_some]
    by_cases hid : a.id = schedule
    · have hsame : (key a != schedule) = false := bne_eq_false_iff_eq.mpr hid
      rw [if_pos (beq_iff_eq.mpr hid), hsame, Bool.and_false]
      exact Bool.and_false _
    · have hother : (key a != schedule) = true := bne_iff_ne.mpr hid
      rw [if_neg (by simpa using hid), hother, Bool.and_true]

/-- With the schedule archived exactly its sessions are out of scope. -/
theorem scopedSessions_archived (scope : ReportScope) (faculty : Option ℕ) :
    (db.archived schedule).scopedSessions scope faculty =
      (db.scopedSessions scope faculty).filter fun s => s.schedule != schedule := by
  rw [Db.scopedSessions, Db.scopedSessions, List.filter_filter]
  refine List.filter_congr fun s _ => ?_
  rw [Db.inScope, Db.inScope, any_active_archived]
  rw [Bool.eq_iff_iff]
  simp only [Bool.and_eq_true]
  tauto

/-! ### The attendance reports -/

theorem schedule_archived {α : Type} (f : Schedule → α) (hf : ∀ a, f a.archive = f a) (pk : ℕ) :
    f (((db.archived schedule).schedules.get? pk).getD default) =
      f ((db.schedules.get? pk).getD default) :=
  Table.getD_get?_update Schedule.key_archive hf

/-- The figures of a selection do not depend on the status of the schedules. -/
theorem facultyRow_archived (qs : List Session) (pk : ℕ) :
    (db.archived schedule).facultyRow qs pk = db.facultyRow qs pk := by
  have habsence : (db.archived schedule).absenceMap qs pk = db.absenceMap qs pk := by
    refine List.map_congr_left fun s _ => ?_
    have hcode : ((db.archived schedule).scheduleOf s).courseCode = (db.scheduleOf s).courseCode :=
      schedule_archived Schedule.courseCode (fun _ => rfl) s.schedule
    have hsection : ((db.archived schedule).scheduleOf s).sectionName =
        (db.scheduleOf s).sectionName :=
      schedule_archived Schedule.sectionName (fun _ => rfl) s.schedule
    rw [hcode, hsection]
  unfold Db.facultyRow
  rw [habsence]
  rfl

/-- The attendance of the faculty is the same exactly if no session of the class is in scope. -/
theorem facultyAttendance_archived_iff :
    (db.archived schedule).facultyAttendance scope = db.facultyAttendance scope ↔
      ∀ s ∈ db.scopedSessions scope none, s.schedule ≠ schedule := by
  constructor
  · intro hsame s hs hsched
    have hrow : db.facultyRow (db.scopedSessions scope none) s.faculty ∈
        (db.archived schedule).facultyAttendance scope := by
      rw [hsame]
      exact mem_facultyAttendance.mpr ⟨s, hs, rfl⟩
    obtain ⟨s', -, hequal⟩ := mem_facultyAttendance.mp hrow
    rw [facultyRow_archived, scopedSessions_archived] at hequal
    have hfaculty : s'.faculty = s.faculty := congrArg FacultyRow.facultyId hequal
    have hcount : _ = _ := congrArg FacultyRow.scheduled hequal
    rw [hfaculty] at hcount
    change (List.filter _ (List.filter _ _)).length = (List.filter _ _).length at hcount
    rw [List.filter_comm, List.length_filter_eq_length_iff] at hcount
    have hkept := hcount s (List.mem_filter.mpr ⟨hs, beq_self_eq_true s.faculty⟩)
    exact bne_iff_ne.mp hkept hsched
  · intro hnone
    have hself : (db.scopedSessions scope none).filter (fun s => s.schedule != schedule) =
        db.scopedSessions scope none :=
      List.filter_eq_self.mpr fun s hs => bne_iff_ne.mpr (hnone s hs)
    rw [Db.facultyAttendance, scopedSessions_archived, hself]
    exact List.map_congr_left fun pk _ => facultyRow_archived _ pk

/-- The summary of a department is the same exactly if no session of the class is in scope. -/
theorem deptSummary_archived_iff :
    (db.archived schedule).deptSummary scope = db.deptSummary scope ↔
      ∀ s ∈ db.scopedSessions scope none, s.schedule ≠ schedule := by
  rw [Db.deptSummary, scopedSessions_archived]
  constructor
  · intro hsame s hs
    have hcount : (List.filter _ _).length = List.length _ := congrArg DeptSummary.scheduled hsame
    rw [List.length_filter_eq_length_iff] at hcount
    exact bne_iff_ne.mp (hcount s hs)
  · intro hnone
    rw [List.filter_eq_self.mpr fun s hs => bne_iff_ne.mpr (hnone s hs)]
    rfl

/-- The scorecard of a faculty member is the same exactly if no session of the class is in its
scope. -/
theorem facultyScorecard_archived_iff {member : User} :
    (db.archived schedule).facultyScorecard scope member = db.facultyScorecard scope member ↔
      ∀ s ∈ db.scopedSessions { scope with department := none } (some member.id),
        s.schedule ≠ schedule := by
  constructor
  · intro hsame s hs
    have hcount : (Db.scopedSessions _ _ _).length = List.length _ :=
      congrArg Scorecard.scheduled hsame
    rw [scopedSessions_archived, List.length_filter_eq_length_iff] at hcount
    exact bne_iff_ne.mp (hcount s hs)
  · intro hnone
    have hself : (db.scopedSessions { scope with department := none } (some member.id)).filter
        (fun s => s.schedule != schedule) =
        db.scopedSessions { scope with department := none } (some member.id) :=
      List.filter_eq_self.mpr fun s hs => bne_iff_ne.mpr (hnone s hs)
    have hmodality : ∀ s, (db.archived schedule).effectiveModality s = db.effectiveModality s :=
      fun s => congrArg s.declaredModality.getD
        (schedule_archived Schedule.modality (fun _ => rfl) s.schedule)
    have hbreakdown : ∀ qs, (db.archived schedule).modalityBreakdown qs = db.modalityBreakdown qs := by
      intro qs
      unfold Db.modalityBreakdown
      simp only [hmodality]
    have habsence : ∀ qs, (db.archived schedule).absenceMap qs member.id =
        db.absenceMap qs member.id := fun qs =>
      congrArg FacultyRow.absences (facultyRow_archived qs member.id)
    unfold Db.facultyScorecard
    rw [scopedSessions_archived, hself]
    dsimp only
    rw [hbreakdown, habsence]

/-! ### The rooms -/

/-- The class is not on the timetable of the term. -/
def Db.offTimetable (db : Db) (schedule : ℕ) (term : Option ℕ) : Prop :=
  ∀ sched ∈ db.schedules, sched.id = schedule → some sched.term ≠ term ∨ sched.status ≠ .active

/-- Archiving a class that is not on the timetable leaves the timetable. -/
theorem activeSchedules_archived {term : Option ℕ} (hoff : db.offTimetable schedule term) :
    (db.archived schedule).activeSchedules term = db.activeSchedules term := by
  have hsel : ∀ a ∈ db.schedules.rows, ((fun a : Schedule =>
      some a.term == term && a.status == .active) ∘ fun a =>
        if (a.id == schedule) = true then a.archive else a) a =
      (some a.term == term && a.status == .active) := by
    intro a ha
    rw [Function.comp_apply]
    by_cases hid : (a.id == schedule) = true
    · rw [if_pos hid]
      refine (Bool.and_false _).trans (Eq.symm ?_)
      rw [Bool.and_eq_false_iff, beq_eq_false_iff_ne, beq_eq_false_iff_ne]
      exact hoff a ha (beq_iff_eq.mp hid)
    · rw [if_neg hid]
  have hrows : (db.archived schedule).schedules.rows = db.schedules.rows.map fun a =>
      if (a.id == schedule) = true then a.archive else a := rfl
  unfold Db.activeSchedules
  rw [hrows, List.filter_map, List.filter_congr hsel]
  refine (List.map_congr_left fun a ha => ?_).trans (List.map_id _)
  obtain ⟨hmem, hactive⟩ := List.mem_filter.mp ha
  rw [Bool.and_eq_true, beq_iff_eq, beq_iff_eq] at hactive
  refine if_neg fun hid => ?_
  rcases hoff a hmem (beq_iff_eq.mp hid) with hterm | hstatus
  · exact hterm hactive.1
  · exact hstatus hactive.2

/-- No session of a class that is not on the timetable is in scope. -/
theorem schedule_ne_of_offTimetable (hoff : db.offTimetable schedule scope.term) {s : Session}
    (hs : s ∈ db.scopedSessions scope faculty) : s.schedule ≠ schedule := by
  intro hsched
  have hscope := (Db.mem_scopedSessions.mp hs).2
  simp only [Db.inScope, Bool.and_eq_true, Option.any_eq_true, beq_iff_eq] at hscope
  obtain ⟨⟨⟨⟨-, a, hget, hterm, hstatus⟩, -⟩, -⟩, -⟩ := hscope
  obtain ⟨ha, hid⟩ := Table.get?_eq_some_iff.mp hget
  rcases hoff a ha (hid.trans hsched) with hne | hne
  · exact hne hterm
  · exact hne hstatus

/-- The use of the rooms is the same for a class that is not on the timetable. -/
theorem roomUtilization_archived (hoff : db.offTimetable schedule scope.term) :
    (db.archived schedule).roomUtilization scope = db.roomUtilization scope := by
  have hactive := activeSchedules_archived hoff
  have hladder : (db.archived schedule).campusBlockLadder scope.term =
      db.campusBlockLadder scope.term := by
    have hblock : ∀ start, (db.archived schedule).blockAt scope.term start =
        db.blockAt scope.term start := by
      intro start
      rw [Db.blockAt, Db.blockAt, hactive]
    unfold Db.campusBlockLadder
    simp only [hactive, funext hblock]
  have hshape : (db.archived schedule).rangeCellShape scope = db.rangeCellShape scope := by
    have hcells : (db.archived schedule).timetabledCells scope.term =
        db.timetabledCells scope.term := by
      unfold Db.timetabledCells
      rw [hladder, hactive]
    unfold Db.rangeCellShape
    rw [hcells]
  have htotals : (db.archived schedule).roomTotals scope = db.roomTotals scope := by
    have hoff' : db.offTimetable schedule { scope with department := none }.term := hoff
    have hself := List.filter_eq_self.mpr fun s
        (hs : s ∈ db.scopedSessions { scope with department := none } none) =>
      bne_iff_ne.mpr (schedule_ne_of_offTimetable hoff' hs)
    unfold Db.roomTotals Db.roomSessions
    rw [scopedSessions_archived, hself]
    rfl
  unfold Db.roomUtilization
  rw [hladder, hshape, htotals]
  rfl

end

/-- The reports over a scope are the same. -/
structure SameReports (db db' : Db) (scope : ReportScope) : Prop where
  faculty : db'.facultyAttendance scope = db.facultyAttendance scope
  dept : db'.deptSummary scope = db.deptSummary scope
  scorecard : ∀ member, db'.facultyScorecard scope member = db.facultyScorecard scope member
  rooms : db'.roomUtilization scope = db.roomUtilization scope

/-- Reports on the past read the sessions that dropping a class leaves as they were. -/
theorem sameReports_dropped {db : Db} {schedule : ℕ} {actor : Option ℕ} {reason : String}
    {today : ℤ} {scope : ReportScope} (hpast : scope.Past today) :
    SameReports (db.archived schedule) (db.dropped schedule actor reason today) scope where
  faculty := by
    rw [Db.facultyAttendance, scopedSessions_dropped hpast]
    rfl
  dept := by
    rw [Db.deptSummary, scopedSessions_dropped hpast]
    rfl
  scorecard member := by
    have hpast' : ({ scope with department := none } : ReportScope).Past today := hpast
    rw [Db.facultyScorecard, scopedSessions_dropped hpast']
    rfl
  rooms := by
    have hpast' : ({ scope with department := none } : ReportScope).Past today := hpast
    rw [Db.roomUtilization, Db.roomTotals, Db.roomSessions, scopedSessions_dropped hpast']
    rfl

/-- Dropping a class leaves every session before today as it was, and every report on the past
is the one with just the schedule archived. So the attendance reports are the same as before
exactly if no session of the class is in their scope, and all reports are if the class is not on
the timetable of their term. -/
theorem cancelSchedule_history {db db' : Db} {schedule n : ℕ} {actor : Option ℕ} {reason : String}
    {today : ℤ} (h : (cancelSchedule schedule actor reason today).run db = (.ok n, db')) :
    (db'.sessions.rows.filter fun s => decide (s.date < today)) =
        (db.sessions.rows.filter fun s => decide (s.date < today)) ∧
    ∀ scope : ReportScope, scope.Past today →
      SameReports (db.archived schedule) db' scope ∧
      (db'.facultyAttendance scope = db.facultyAttendance scope ↔
        ∀ s ∈ db.scopedSessions scope none, s.schedule ≠ schedule) ∧
      (db'.deptSummary scope = db.deptSummary scope ↔
        ∀ s ∈ db.scopedSessions scope none, s.schedule ≠ schedule) ∧
      (∀ member, db'.facultyScorecard scope member = db.facultyScorecard scope member ↔
        ∀ s ∈ db.scopedSessions { scope with department := none } (some member.id),
          s.schedule ≠ schedule) ∧
      (db.offTimetable schedule scope.term → SameReports db db' scope) := by
  rcases run_cancelSchedule_cases db schedule actor reason today with
    ⟨e, hrun⟩ | ⟨sched, -, -, -, hrun⟩
  · cases hrun.symm.trans h
  · obtain rfl : db.dropped schedule actor reason today = db' :=
      (Prod.ext_iff.mp (hrun.symm.trans h)).2
    refine ⟨?_, fun scope hpast => ?_⟩
    · have hdate : (fun s => decide (s.date < today)) ∘ db.callsOff schedule reason today =
          fun s => decide (s.date < today) := by
        funext s
        rw [Function.comp_apply, (callsOff_fields db schedule reason today s).1]
      -- calling off keeps the date, so it commutes with the filter on past dates
      rw [rows_sessions_dropped, List.filter_map, hdate]
      refine (List.map_congr_left fun s hs => ?_).trans (List.map_id _)
      exact callsOff_of_past (of_decide_eq_true (List.mem_filter.mp hs).2)
    · have hsame : SameReports (db.archived schedule) (db.dropped schedule actor reason today)
          scope := sameReports_dropped hpast
      refine ⟨hsame, ?_, ?_, fun member => ?_, fun hoff => ?_⟩
      · rw [hsame.faculty]
        exact facultyAttendance_archived_iff
      · rw [hsame.dept]
        exact deptSummary_archived_iff
      · rw [hsame.scorecard]
        exact facultyScorecard_archived_iff
      · -- off the timetable of the term the class has no session in any scope of it
        have hoff' : db.offTimetable schedule { scope with department := none }.term := hoff
        exact
          { faculty := hsame.faculty.trans (facultyAttendance_archived_iff.mpr fun s hs =>
              schedule_ne_of_offTimetable hoff hs)
            dept := hsame.dept.trans (deptSummary_archived_iff.mpr fun s hs =>
              schedule_ne_of_offTimetable hoff hs)
            scorecard := fun member => (hsame.scorecard member).trans
              (facultyScorecard_archived_iff.mpr fun s hs =>
                schedule_ne_of_offTimetable hoff' hs)
            rooms := hsame.rooms.trans (roomUtilization_archived hoff) }

namespace Campus

/-- The eight o'clock class has been held on that Monday. -/
def held : Db := ((World.start campus).step (scanAt 2 8 0 0)).db

/-- A week later the class is dropped. -/
def heldDropped : Db := ((cancelSchedule 2 none "" (monday + 7)).run held).2

end Campus

/-- The session that was held stays, and the report on that day is the one with the class
archived. -/
theorem cancelSchedule_history_held :
    ((Campus.heldDropped.sessions.rows.filter fun s => decide (s.date < Campus.monday + 7)) =
      Campus.held.sessions.rows.filter fun s => decide (s.date < Campus.monday + 7)) ∧
    SameReports (Campus.held.archived 2) Campus.heldDropped Campus.mondayScope := by
  have hok : ((cancelSchedule 2 none "" (Campus.monday + 7)).run Campus.held).1 = .ok 0 := by
    decide +kernel
  have hpast : Campus.mondayScope.Past (Campus.monday + 7) := by
    unfold ReportScope.Past
    decide
  obtain ⟨hsessions, hreports⟩ := cancelSchedule_history (Prod.ext hok rfl)
  exact ⟨hsessions, (hreports Campus.mondayScope hpast).1⟩

/-- A class that has been held is dropped a week later, and the report on that day no longer
counts it. -/
theorem cancelSchedule_rewrites_report :
    ¬ ∀ (db db' : Db) (schedule n : ℕ) (actor : Option ℕ) (reason : String) (today : ℤ),
      (cancelSchedule schedule actor reason today).run db = (.ok n, db') →
        ∀ scope : ReportScope, scope.finish < today → (∀ d, scope.asOf = some d → d < today) →
          SameReports db db' scope := by
  intro h
  have hok : ((cancelSchedule 2 none "" (Campus.monday + 7)).run Campus.held).1 = .ok 0 := by
    decide +kernel
  have hsame := (h Campus.held Campus.heldDropped 2 0 none "" (Campus.monday + 7) (Prod.ext hok rfl)
    Campus.mondayScope (by decide) nofun).dept
  have hbefore : (Campus.held.deptSummary Campus.mondayScope).held = 1 := by decide +kernel
  have hafter : (Campus.heldDropped.deptSummary Campus.mondayScope).held = 0 := by decide +kernel
  rw [hsame, hbefore] at hafter
  cases hafter

end FluxTrack
