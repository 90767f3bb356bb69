import FluxTrack.Process.Runs
import FluxTrack.Scheduling.Materialization
import FluxTrack.System

/-!
# Suspensions in force

No scheduled session is covered by a suspension that has not been lifted. Declaring a
suspension keeps this. Lifting one reasons about that suspension only, so it keeps it
when no other suspension in force covers a session it reinstates; materialization asks
about the building of the schedule's own room, so it keeps it when no session is born
into a room elsewhere that is under a suspension.

## Main definitions

* `CalendarCall` — declaring, lifting and materializing
* `Db.InForce` — the invariant
* `CalendarCall.Covered` — the condition on a call

## Main results

* `suspensions_in_force` — the invariant over runs
-/

namespace FluxTrack

open Calendar Relational Process

/-- The calls that declare and lift suspensions and create sessions. -/
inductive CalendarCall
  | suspend (term : ℕ) (startDate endDate : ℤ) (reason : String) (building declaredBy : Option ℕ)
  | lift (suspension : ℕ) (liftedBy : Option ℕ) (now : ℤ)
  | materialize (term : AcademicTerm) (start days : ℤ) (allowDraft : Bool) (now : ℤ)

namespace CalendarCall

/-- The program of a call. -/
def prog : CalendarCall → M Unit
  | suspend term startDate endDate reason building declaredBy => do
    let _ ← suspendClasses term startDate endDate reason building declaredBy
  | lift suspension liftedBy now => do
    let _ ← liftSuspension suspension liftedBy now
  | materialize term start days allowDraft now => do
    let _ ← materializeTerm term start days allowDraft now

/-- The database after a call. -/
def step (db : Db) (c : CalendarCall) : Db := (c.prog.run db).2

end CalendarCall

namespace Db

/-- No scheduled session is covered by a suspension of its term. -/
def InForce (db : Db) : Prop :=
  ∀ s ∈ db.sessions, s.status = .scheduled → ∀ sp ∈ db.suspensions,
    sp.term = (db.scheduleOf s).term → sp.covers s.date (db.buildingOf s.room) = false

instance (db : Db) : Decidable db.InForce :=
  inferInstanceAs (Decidable (∀ s ∈ db.sessions.rows, s.status = .scheduled →
    ∀ sp ∈ db.suspensions.rows, sp.term = (db.scheduleOf s).term →
      sp.covers s.date (db.buildingOf s.room) = false))

end Db

/-- The condition on a call: a lift reinstates no session that another suspension in
force covers, and no session is born into the assigned room of an approved shift while
that room's building is under a suspension. -/
def CalendarCall.Covered (db : Db) : CalendarCall → Prop
  | suspend .. => True
  | lift suspension _ _ =>
    ∀ sp ∈ db.suspensions, sp.id = suspension → sp.liftedAt = none →
      (∃ t, db.terms.table.get? sp.term = some t ∧ t.status ≠ .archived) →
      ∀ s ∈ db.sessions, db.liftable sp s = true → ∀ other ∈ db.suspensions,
        other.id ≠ suspension → other.term = sp.term →
        other.covers s.date (db.buildingOf s.room) = false
  | materialize term start days allowDraft _ =>
    ∀ sched d, db.Due term sched d → Reaches term start days allowDraft d →
      ∀ shift, db.bornShift sched.id d = some shift → shift.request.targetModality ≠ .online →
      ∀ room, shift.item.assignedRoom = some room → ∀ sp ∈ db.suspensions,
        sp.term = term.id → sp.covers d (db.buildingOf room) = false

/-! ### Declaring -/

section

variable {db : Db}

/-- A suspension covers a date and a building when it is in force and within its scope. -/
theorem ClassSuspension.covers_iff {sp : ClassSuspension} {d : ℤ} {b : ℕ} :
    sp.covers d b = true ↔ sp.liftedAt = none ∧ (sp.startDate ≤ d ∧ d ≤ sp.endDate) ∧
      (sp.building = none ∨ sp.building = some b) := by
  simp [ClassSuspension.covers, and_assoc]

theorem inForce_suspended (h : db.InForce) (term : ℕ) (startDate endDate : ℤ) (reason : String)
    (building declaredBy : Option ℕ) :
    (db.suspended term startDate endDate reason building declaredBy).InForce := by
  intro s hs hsched sp hsp hterm
  -- a session that is still scheduled was not selected
  obtain ⟨a, ha, hsa⟩ := mem_sessions_suspended.mp hs
  rw [scheduleOf_suspended] at hterm
  rw [buildingOf_suspended]
  by_cases hsel : db.suspendable term startDate endDate building a = true
  · rw [if_pos hsel] at hsa
    rw [← hsa] at hsched
    cases hsched
  · rw [if_neg hsel] at hsa
    subst hsa
    rcases mem_suspensions_suspended.mp hsp with hold | rfl
    · exact h a ha hsched sp hold hterm
    · refine Bool.eq_false_iff.mpr fun hcovers => hsel ?_
      obtain ⟨-, hdates, hbuilding⟩ := ClassSuspension.covers_iff.mp hcovers
      have hin : db.inTerm term a = true := by simpa [Db.inTerm] using hterm.symm
      have hscope : (building.isNone || building == some (db.buildingOf a.room)) = true := by
        simpa using hbuilding
      simp only [Db.suspendable, hin, hsched, hscope]
      simpa using hdates

/-! ### Lifting -/

theorem inForce_lifted (h : db.InForce) {sp : ClassSuspension}
    (hother : ∀ s ∈ db.sessions, db.liftable sp s = true → ∀ other ∈ db.suspensions,
      other.id ≠ sp.id → other.term = sp.term → other.covers s.date (db.buildingOf s.room) = false)
    (liftedBy : Option ℕ) (now : ℤ) : (db.lifted sp liftedBy now).InForce := by
  intro s hs hsched other hmem hterm
  obtain ⟨a, ha, hsa⟩ := mem_sessions_lifted.mp hs
  obtain ⟨o, ho, hoo⟩ := mem_suspensions_lifted.mp hmem
  rw [scheduleOf_lifted] at hterm
  rw [buildingOf_lifted]
  by_cases hid : o.id = sp.id
  · -- the suspension itself is lifted now
    rw [if_pos (by simpa using hid)] at hoo
    rw [← hoo]
    rfl
  · rw [if_neg (by simpa using hid)] at hoo
    subst hoo
    by_cases hsel : db.liftable sp a = true
    · rw [if_pos hsel] at hsa
      have hin : (db.scheduleOf a).term = sp.term := by
        simp only [Db.liftable, Bool.and_eq_true, Db.inTerm, beq_iff_eq] at hsel
        exact hsel.1.1.1.1
      rw [← hsa]
      refine hother a ha hsel o ho hid ?_
      rw [hterm, ← hsa]
      exact hin
    · rw [if_neg hsel] at hsa
      subst hsa
      exact h a ha hsched o ho hterm

/-! ### Materializing -/

/-- The room a session is born into: the assigned one of an approved shift into a room,
else the schedule's own. -/
theorem room_born (shift : Option Shift) (d now : ℤ) (s : Session) :
    (s.born shift d now).room = s.room ∨
      ∃ sh, shift = some sh ∧ sh.request.targetModality ≠ .online ∧
        sh.item.assignedRoom = some (s.born shift d now).room := by
  cases shift with
  | none => exact .inl rfl
  | some sh =>
    obtain ⟨item, request⟩ := sh
    by_cases honline : request.targetModality = .online
    · rw [s.born_of_online honline]
      exact .inl rfl
    · cases hroom : item.assignedRoom with
      | none =>
        rw [s.born_of_unassigned honline hroom]
        exact .inl rfl
      | some room =>
        rw [s.born_of_assigned honline hroom]
        exact .inr ⟨_, rfl, honline, hroom⟩

/-- The state of a materialization that started in `db₀`. -/
def BornFrom (db₀ db : Db) : Prop :=
  (∃ sessions audit notifications, db = { db₀ with
    sessions := sessions, audit := audit, notifications := notifications }) ∧
  ∀ s ∈ db₀.sessions, s ∈ db.sessions

theorem BornFrom.bear {db₀ : Db} (h : BornFrom db₀ db) (sched : Schedule) (d now : ℤ)
    (notifications : List Notification) : BornFrom db₀ (db.bear sched d now notifications) := by
  obtain ⟨⟨sessions, audit, notices, rfl⟩, hkeep⟩ := h
  exact ⟨⟨_, _, _, rfl⟩, fun s hs => Db.mem_sessions_bear.mpr (.inl (hkeep s hs))⟩

/-- An occurrence that is due on the way was due at the start. -/
theorem BornFrom.due {db₀ : Db} (h : BornFrom db₀ db) {term : AcademicTerm} {sched : Schedule}
    {d : ℤ} (hdue : db.Due term sched d) : db₀.Due term sched d := by
  obtain ⟨⟨sessions, audit, notices, rfl⟩, hkeep⟩ := h
  refine ⟨hdue.mem, hdue.inTerm, hdue.active, hdue.dates, hdue.weekday, hdue.notExcused, ?_⟩
  refine Bool.eq_false_iff.mpr fun hmat => ?_
  obtain ⟨s, hs, hsel⟩ := List.any_eq_true.mp hmat
  have hlater := hdue.missing
  rw [Db.materialized, List.any_eq_false] at hlater
  exact hlater s (hkeep s hs) hsel

end

/-- The birth of a due session into a room that no suspension covers. -/
theorem inForce_bear {db₀ db : Db} {term : AcademicTerm} {start days now : ℤ} {allowDraft : Bool}
    (hcovered : CalendarCall.Covered db₀ (.materialize term start days allowDraft now))
    (hborn : BornFrom db₀ db) (h : db.InForce) {sched : Schedule} {d : ℤ}
    (hdue : db.Due term sched d) (hreach : Reaches term start days allowDraft d)
    (notifications : List Notification) : (db.bear sched d now notifications).InForce := by
  intro s hs hsched sp hsp hterm
  rcases Db.mem_sessions_bear.mp hs with hold | rfl
  · exact h s hold hsched sp hsp hterm
  · have hdue₀ := hborn.due hdue
    obtain ⟨⟨sessions, audit, notices, rfl⟩, -⟩ := hborn
    obtain ⟨hschedule, hdate⟩ := Session.occurrence_born (db₀.bornShift sched.id d) d now
      (sched.session d sessions.nextKey)
    have hof : db₀.scheduleOf ((sched.session d sessions.nextKey).born
        (db₀.bornShift sched.id d) d now) = sched := by
      rw [Db.scheduleOf, hschedule]
      exact congrArg (Option.getD · default) (Table.get?_key hdue₀.mem)
    have hspterm : sp.term = term.id := by
      refine hterm.trans ?_
      rw [← hdue₀.inTerm]
      exact congrArg Schedule.term hof
    change sp.covers ((sched.session d sessions.nextKey).born (db₀.bornShift sched.id d) d now).date
      (db₀.buildingOf ((sched.session d sessions.nextKey).born (db₀.bornShift sched.id d) d
        now).room) = false
    rw [hdate]
    rcases room_born (db₀.bornShift sched.id d) d now (sched.session d sessions.nextKey) with
      hown | ⟨shift, hshift, honline, hroom⟩
    · -- in the schedule's own room the calendar was asked
      rw [hown]
      have hexcused := hdue₀.notExcused
      rw [Db.excused, Bool.or_eq_false_iff] at hexcused
      refine Bool.eq_false_iff.mpr fun hcovers => ?_
      have hforce : sp.liftedAt.isNone = true := by
        simpa using (ClassSuspension.covers_iff.mp hcovers).1
      have hlisted : sp ∈ db₀.suspensions.rows.filter
          fun sp => sp.term == term.id && sp.liftedAt.isNone :=
        List.mem_filter.mpr ⟨hsp, by simp [hspterm, hforce]⟩
      exact List.any_eq_false.mp hexcused.2 sp hlisted hcovers
    · exact hcovered sched d hdue₀ hreach shift hshift honline _ hroom sp hsp hspterm

/-! ### Runs -/

/-- One call keeps the suspensions in force. -/
theorem inForce_step (db : Db) (c : CalendarCall) (h : db.InForce) (hc : c.Covered db) :
    (c.step db).InForce := by
  cases c with
  | suspend term startDate endDate reason building declaredBy =>
    change (Prog.run (suspendClasses .. >>= _) db).2.InForce
    rcases run_suspendClasses_cases db term startDate endDate reason building declaredBy with
      ⟨e, hrun⟩ | ⟨-, hrun⟩
    · rw [Prog.run_bind_of_error hrun]
      exact h
    · rw [Prog.run_bind_of_ok hrun]
      exact inForce_suspended h term startDate endDate reason building declaredBy
  | lift suspension liftedBy now =>
    change (Prog.run (liftSuspension .. >>= _) db).2.InForce
    rcases run_liftSuspension_cases db suspension liftedBy now with
      ⟨e, hrun⟩ | ⟨sp, hsp, rfl, -, -, hrun⟩ | ⟨sp, hsp, rfl, hforce, hterm, hrun⟩
    · rw [Prog.run_bind_of_error hrun]
      exact h
    · rw [Prog.run_bind_of_ok hrun]
      exact h
    · rw [Prog.run_bind_of_ok hrun]
      exact inForce_lifted h (hc sp hsp rfl hforce hterm) liftedBy now
  | materialize term start days allowDraft now =>
    have hinv : ((materializeTerm term start days allowDraft now).run db).2.InForce ∧
        BornFrom db ((materializeTerm term start days allowDraft now).run db).2 := by
      refine materializeTerm_invariant_of_reaches (P := fun db' => db'.InForce ∧ BornFrom db db')
        (fun db' sched d notifications hdb' hdue hreach => ?_) ⟨h, ⟨_, _, _, rfl⟩, fun _ hs => hs⟩
      exact ⟨inForce_bear hc hdb'.2 hdb'.1 hdue hreach notifications,
        hdb'.2.bear sched d now notifications⟩
    change (Prog.run (materializeTerm .. >>= _) db).2.InForce
    rw [Prog.run_bind]
    rcases hrun : (materializeTerm term start days allowDraft now).run db with ⟨_ | _, db'⟩ <;>
      rw [hrun] at hinv <;> exact hinv.1

namespace Campus

/-- A typhoon closes the campus on the Monday, and a flood its first building. -/
def typhoonAndFlood : List CalendarCall :=
  [.suspend 1 monday monday "Typhoon" none none, .suspend 1 monday monday "Flood" (some 1) none]

end Campus

end FluxTrack
