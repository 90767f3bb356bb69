import FluxTrack.Scheduling.Reporting
import FluxTrack.System

/-!
# Cancelled sessions in the attendance figures

The status counts behind the three attendance reports do not look at cancelled
sessions, except for the number of scheduled ones, which counts every row of the
scope. A report is the one that would be made without the cancelled sessions exactly
when there is none in its scope.

## Main definitions

* `Figures` — the figures the three reports share
* `Db.deleteCancelled` — the database without its cancelled sessions
* `Db.CancelledInvisible` — the reports do not depend on cancelled sessions

## Main results

* `cancelledInvisible_iff`
-/

namespace FluxTrack

open Calendar Relational Process

/-! ### Figures of a selection -/

/-- The figures that the reports have in common. -/
structure Figures where
  scheduled : ℕ
  held : ℕ
  absent : ℕ
  attendancePct : ℤ
  deriving DecidableEq

/-- The figures of a selection of sessions. -/
def figuresOf (qs : List Session) : Figures :=
  ⟨(statusCounts qs).scheduled, (statusCounts qs).held, (statusCounts qs).absent,
    pct (statusCounts qs).held (statusCounts qs).scheduled⟩

/-- The figures of a row. -/
def FacultyRow.figures (r : FacultyRow) : Figures := ⟨r.scheduled, r.held, r.absent, r.attendancePct⟩

/-- The figures of a department. -/
def DeptSummary.figures (d : DeptSummary) : Figures :=
  ⟨d.scheduled, d.held, d.absent, d.attendancePct⟩

/-- The figures of a scorecard. -/
def Scorecard.figures (c : Scorecard) : Figures := ⟨c.scheduled, c.held, c.absent, c.attendancePct⟩

/-- The session was not called off. -/
def Session.live (s : Session) : Bool := s.status != .cancelled

theorem statusCounts_perm {l l' : List Session} (h : l.Perm l') : statusCounts l = statusCounts l' := by
  unfold statusCounts
  rw [h.length_eq, (h.filter _).length_eq, (h.filter _).length_eq, (h.filter _).length_eq]

/-- Leaving out the cancelled sessions changes no figure exactly when there is none. -/
theorem figuresOf_filter_live (qs : List Session) :
    figuresOf (qs.filter Session.live) = figuresOf qs ↔ ∀ s ∈ qs, s.status ≠ .cancelled := by
  constructor
  · intro h
    have hlen : (qs.filter Session.live).length = qs.length := congrArg Figures.scheduled h
    intro s hs
    have hlive := List.length_filter_eq_length_iff.mp hlen s hs
    simpa [Session.live] using hlive
  · intro h
    have hself : qs.filter Session.live = qs :=
      List.filter_eq_self.mpr fun s hs => by simpa [Session.live] using h s hs
    rw [hself]

/-- Without a cancelled session the percentage is the one over the live sessions. -/
theorem pct_countP_live {qs : List Session} (h : ∀ s ∈ qs, s.status ≠ .cancelled) :
    (figuresOf qs).attendancePct = pct (figuresOf qs).held (qs.countP Session.live) := by
  have hall : qs.countP Session.live = qs.length :=
    List.countP_eq_length.mpr fun s hs => by simpa [Session.live] using h s hs
  rw [hall]
  rfl

/-! ### The reports without the cancelled sessions -/

/-- The database without its cancelled sessions. -/
def Db.deleteCancelled (db : Db) : Db :=
  { db with sessions := db.sessions.delete fun s => s.status == .cancelled }

section

variable {db : Db} {scope : ReportScope}

theorem scopedSessions_deleteCancelled_perm (faculty : Option ℕ) :
    (db.deleteCancelled.scopedSessions scope faculty).Perm
      ((db.scopedSessions scope faculty).filter Session.live) := by
  have hrows : db.deleteCancelled.sessions.rows = db.sessions.rows.filter Session.live := rfl
  have hsort : db.deleteCancelled.sessionList.Perm (db.sessionList.filter Session.live) := by
    calc db.deleteCancelled.sessionList
        _ |>.Perm db.deleteCancelled.sessions.rows := List.perm_insertionSort _ _
        _ |>.Perm (db.sessionList.filter Session.live) := by
          rw [hrows]
          exact ((List.perm_insertionSort _ _).filter _).symm
  have hcomm : (db.sessionList.filter Session.live).filter (db.inScope scope faculty) =
      (db.scopedSessions scope faculty).filter Session.live := by
    rw [Db.scopedSessions, List.filter_filter, List.filter_filter]
    exact List.filter_congr fun s _ => Bool.and_comm _ _
  rw [← hcomm]
  exact hsort.filter _

theorem figuresOf_perm {l l' : List Session} (h : l.Perm l') : figuresOf l = figuresOf l' := by
  unfold figuresOf
  rw [statusCounts_perm h]

/-- The sessions of one faculty member in the scope, without the cancelled ones. -/
theorem filter_faculty_deleteCancelled_perm (faculty : ℕ) :
    ((db.deleteCancelled.scopedSessions scope none).filter fun s => s.faculty == faculty).Perm
      (((db.scopedSessions scope none).filter fun s => s.faculty == faculty).filter Session.live) := by
  refine ((scopedSessions_deleteCancelled_perm none).filter _).trans (.of_eq ?_)
  rw [List.filter_filter, List.filter_filter]
  exact List.filter_congr fun s _ => Bool.and_comm _ _

/-- The figures of the reports are those of their selections. -/
theorem figures_deptSummary :
    (db.deptSummary scope).figures = figuresOf (db.scopedSessions scope none) := rfl

theorem figures_facultyRow (qs : List Session) (faculty : ℕ) :
    (db.facultyRow qs faculty).figures = figuresOf (qs.filter fun s => s.faculty == faculty) := rfl

theorem figures_facultyScorecard (faculty : User) :
    (db.facultyScorecard scope faculty).figures =
      figuresOf (db.scopedSessions { scope with department := none } (some faculty.id)) := rfl

end

/-- The attendance figures do not depend on cancelled sessions: they are those of the
database without them, and a percentage is taken over the live sessions in scope. The
rows and the scorecards are those of the faculty members who keep a session. -/
structure Db.CancelledInvisible (db : Db) (scope : ReportScope) : Prop where
  dept : (db.deleteCancelled.deptSummary scope).figures = (db.deptSummary scope).figures
  deptPct : (db.deptSummary scope).attendancePct =
    pct (db.deptSummary scope).held ((db.scopedSessions scope none).countP Session.live)
  rows : ∀ s ∈ db.scopedSessions scope none, s.status ≠ .cancelled →
    ∃ row ∈ db.facultyAttendance scope, ∃ row' ∈ db.deleteCancelled.facultyAttendance scope,
      row.facultyId = s.faculty ∧ row'.facultyId = s.faculty ∧ row'.figures = row.figures ∧
      row.attendancePct = pct row.held
        ((db.scopedSessions scope none).countP fun a => a.live && a.faculty == s.faculty)
  scorecards : ∀ faculty : User,
    (∃ s ∈ db.scopedSessions scope none, s.faculty = faculty.id ∧ s.status ≠ .cancelled) →
    (db.deleteCancelled.facultyScorecard scope faculty).figures =
        (db.facultyScorecard scope faculty).figures ∧
      (db.facultyScorecard scope faculty).attendancePct =
        pct (db.facultyScorecard scope faculty).held
          ((db.scopedSessions { scope with department := none } (some faculty.id)).countP
            Session.live)

/-- Cancelled sessions are invisible to the attendance figures of a scope exactly when
the scope has none. -/
theorem cancelledInvisible_iff (db : Db) (scope : ReportScope) :
    db.CancelledInvisible scope ↔ ∀ s ∈ db.scopedSessions scope none, s.status ≠ .cancelled := by
  constructor
  · intro h
    have hdept := h.dept
    rw [figures_deptSummary, figures_deptSummary,
      figuresOf_perm (scopedSessions_deleteCancelled_perm none)] at hdept
    exact (figuresOf_filter_live _).mp hdept
  · intro hnone
    refine ⟨?_, pct_countP_live hnone, fun s hs hlive => ?_, fun faculty hkeep => ?_⟩
    · rw [figures_deptSummary, figures_deptSummary,
        figuresOf_perm (scopedSessions_deleteCancelled_perm none)]
      exact (figuresOf_filter_live _).mpr hnone
    · have hs' : s ∈ db.deleteCancelled.scopedSessions scope none := by
        rw [(scopedSessions_deleteCancelled_perm none).mem_iff, List.mem_filter]
        exact ⟨hs, by simpa [Session.live] using hlive⟩
      have hown : ∀ a ∈ (db.scopedSessions scope none).filter fun a => a.faculty == s.faculty,
          a.status ≠ .cancelled := fun a ha => hnone a (List.mem_filter.mp ha).1
      refine ⟨_, mem_facultyAttendance.mpr ⟨s, hs, rfl⟩, _, mem_facultyAttendance.mpr ⟨s, hs', rfl⟩,
        rfl, rfl, ?_, ?_⟩
      · rw [figures_facultyRow, figures_facultyRow,
          figuresOf_perm (filter_faculty_deleteCancelled_perm s.faculty)]
        exact (figuresOf_filter_live _).mpr hown
      · rw [← List.countP_filter]
        exact pct_countP_live hown
    · -- a member with a session in scope belongs to the department of the scope
      obtain ⟨s, hs, hfac, -⟩ := hkeep
      have hin := (Db.mem_scopedSessions.mp hs).2
      have hdept : scope.department = none ∨ (db.user faculty.id).department = scope.department := by
        simp only [Db.inScope, Bool.and_eq_true, Bool.or_eq_true, beq_iff_eq, Option.isNone_iff_eq_none]
          at hin
        rw [← hfac]
        exact hin.1.1.2
      have hown : ∀ a ∈ db.scopedSessions { scope with department := none } (some faculty.id),
          a.status ≠ .cancelled := by
        rw [← filter_faculty_scopedSessions hdept]
        exact fun a ha => hnone a (List.mem_filter.mp ha).1
      refine ⟨?_, pct_countP_live hown⟩
      rw [figures_facultyScorecard, figures_facultyScorecard,
        figuresOf_perm (scopedSessions_deleteCancelled_perm _)]
      exact (figuresOf_filter_live _).mpr hown

namespace Campus

/-- The nine o'clock class of the Monday is called off, the one before was held. -/
def oneCancelled : Db :=
  { campus with
    sessions := (campus.sessions.update (fun s => s.id == 1) (Session.cancel "typhoon")).update
      (fun s => s.id == 2) (Session.checkOut (wallClock monday 9 0 0)) }

/-- The reports of that Monday. -/
def mondayScope : ReportScope := ⟨some 1, monday, monday, none, none⟩

end Campus

/-- One session held and one called off is an attendance of one half. -/
theorem cancelled_in_denominator :
    ¬ ∀ (db : Db) (scope : ReportScope), db.CancelledInvisible scope := by
  intro h
  have hdept := (h Campus.oneCancelled Campus.mondayScope).dept
  have hbefore : (Campus.oneCancelled.deptSummary Campus.mondayScope).figures = ⟨2, 1, 0, 50⟩ := by
    decide +kernel
  have hafter : (Campus.oneCancelled.deleteCancelled.deptSummary Campus.mondayScope).figures =
      ⟨1, 1, 0, 100⟩ := by
    decide +kernel
  rw [hbefore, hafter] at hdept
  exact absurd hdept (by decide)

end FluxTrack
