import FluxTrack.Scheduling.ScheduleOps
import FluxTrack.Scheduling.Services
import FluxTrack.System
import Mathlib.Data.List.Dedup

/-!
# Editing a schedule

An edit that moves a class is checked for every remaining date before anything is
written, and the sessions it then moves are those of the dates that were checked. So an
edit that is accepted puts the class into a room that nothing else holds, an edit that
is refused changes nothing, and no edit touches the record of what has happened.

An edit that does not move the class is not checked, but it writes the room and the times
of the schedule into the future sessions all the same. What an approved shift has moved
elsewhere is so moved back.

## Main definitions

* `Db.Remaining` — the dates on which a schedule still meets
* `Db.FreeBesides` — nothing but the own session of a date holds the room
* `StaffOnly` — nothing changed but the teachers and the number of students
* `Db.InStep` — the future sessions stand where their schedule does

## Main results

* `updateSchedule_free` — an edit of a class in a room, accepted or refused
* `updateSchedule_staffOnly_iff` — an edit that does not move the class
-/

namespace FluxTrack

open Calendar Relational Process

/-- The schedule still meets on a date: weekly up to the end of the term, or through a
scheduled session from `today` on. -/
def Db.Remaining (db : Db) (sched : Schedule) (term : AcademicTerm) (today d : ℤ) : Prop :=
  (today ≤ d ∧ d ≤ term.endDate ∧ weekday d = sched.dayOfWeek) ∨
    ∃ s ∈ db.sessions, s.schedule = sched.id ∧ s.status = .scheduled ∧ today ≤ s.date ∧ s.date = d

/-- During a slot of date `d` the room is free of active bookings, of sessions other than the
schedule's own of that date, and of the occurrences and reservations of other schedules. -/
structure Db.FreeBesides (db : Db) (schedule : ℕ) (d : ℤ) (room : ℕ) (start finish : ℤ) : Prop where
  bookings : ∀ b ∈ db.bookings, b.room = room → b.status = .active →
    overlaps b.startDatetime b.endDatetime start finish = false
  sessions : ∀ s ∈ db.sessions, db.Holds room start finish s → s.schedule = schedule ∧ s.date = d
  timetable : ∀ other ∈ db.schedules, db.Forecast room start finish other → other.id = schedule
  reservations : ∀ sh, db.Reserves room start finish sh → sh.item.schedule = schedule

/-- There is one session for each schedule and date. -/
def Db.OnePerDate (db : Db) : Prop :=
  ∀ a ∈ db.sessions, ∀ b ∈ db.sessions, a.schedule = b.schedule → a.date = b.date → a = b

section

variable {db : Db} {sched : Schedule} {term : AcademicTerm} {e : ScheduleEdit} {actor : Option ℕ}
  {today d : ℤ}

/-! ### The dates of the check -/

/-- The check asks about every remaining date. -/
theorem mem_occurrenceDates (hone : db.OnePerDate) (h : db.Remaining sched term today d) :
    d ∈ occurrenceDates (db.ownSessions sched.id today) sched.dayOfWeek today term.endDate := by
  rw [occurrenceDates, List.mem_insertionSort, List.mem_dedup, List.mem_append]
  rcases h with ⟨htoday, hlast, hday⟩ | ⟨s, hs, hsched, hstatus, htoday, rfl⟩
  · exact .inr (mem_weeklyDates htoday hlast hday)
  · have hon : sessionOn (db.ownSessions sched.id today) s.date = some s :=
      (sessionOn_eq_some_iff hone).mpr ⟨hs, hsched, htoday, rfl⟩
    have hmem : s ∈ db.ownSessions sched.id today := by
      exact List.mem_reverse.mp (List.mem_of_find?_eq_some hon)
    refine .inl (List.mem_filter.mpr ⟨List.mem_map_of_mem hmem, ?_⟩)
    rw [hon, Option.any_some, hstatus]
    rfl

/-! ### The state after the edit -/

theorem mem_sessions_edited {s : Session} :
    s ∈ (db.edited sched e actor today).sessions ↔
      ∃ a ∈ db.sessions, (if a ∈ db.futureScheduled sched.id today
        then a.followOwn (sched.edit e) else a) = s :=
  mem_update_futureScheduled db sched.id today (Session.key_followOwn _)

theorem get?_schedules_edited (pk : ℕ) :
    (db.edited sched e actor today).schedules.get? pk = (db.schedules.get? pk).map
      fun a => if a.id == sched.id then (sched.edit e).assign a else a :=
  Table.get?_update (Schedule.key_assign _)

/-- An edit leaves every modality. -/
theorem effectiveModality_edited (s : Session) :
    (db.edited sched e actor today).effectiveModality s = db.effectiveModality s := by
  have hmod : ((db.edited sched e actor today).scheduleOf s).modality =
      (db.scheduleOf s).modality := by
    rw [Db.scheduleOf, Db.scheduleOf, get?_schedules_edited]
    cases db.schedules.get? s.schedule with
    | none => rfl
    | some a =>
      rw [Option.map_some]
      by_cases hid : (a.id == sched.id) = true
      · rw [if_pos hid]
        rfl
      · rw [if_neg hid]
  rw [Db.effectiveModality, Db.effectiveModality, hmod]

/-- An edit leaves the schedule and the date of every session. -/
theorem materialized_edited (schedule : ℕ) (d : ℤ) :
    (db.edited sched e actor today).materialized schedule d = db.materialized schedule d := by
  refine Bool.eq_iff_iff.mpr ?_
  rw [Db.materialized, Db.materialized, List.any_eq_true, List.any_eq_true]
  have hkeep : ∀ (c : Prop) [Decidable c] (a : Session),
      (if c then a.followOwn (sched.edit e) else a).schedule = a.schedule ∧
        (if c then a.followOwn (sched.edit e) else a).date = a.date := by
    intro c _ a
    by_cases hc : c
    · rw [if_pos hc]
      exact ⟨rfl, rfl⟩
    · rw [if_neg hc]
      exact ⟨rfl, rfl⟩
  constructor
  · rintro ⟨s, hs, hsel⟩
    obtain ⟨a, ha, rfl⟩ := mem_sessions_edited.mp hs
    rw [(hkeep _ a).1, (hkeep _ a).2] at hsel
    exact ⟨a, ha, hsel⟩
  · rintro ⟨a, ha, hsel⟩
    refine ⟨_, mem_sessions_edited.mpr ⟨a, ha, rfl⟩, ?_⟩
    rw [(hkeep _ a).1, (hkeep _ a).2]
    exact hsel

/-- The own session of a date that the check excludes is the only session that may be there. -/
theorem holds_edited (hone : db.OnePerDate) {s : Session}
    (hs : s ∈ (db.edited sched e actor today).sessions)
    (hfree : db.roomIsFree (sched.edit e).room (makeAware d (sched.edit e).startTime)
      (makeAware d (sched.edit e).endTime)
      ((sessionOn (db.ownSessions sched.id today) d).map Session.id) (some sched.id) = true)
    (hholds : (db.edited sched e actor today).Holds (sched.edit e).room
      (makeAware d (sched.edit e).startTime) (makeAware d (sched.edit e).endTime) s) :
    s.schedule = sched.id ∧ s.date = d := by
  obtain ⟨a, ha, hsa⟩ := mem_sessions_edited.mp hs
  by_cases hsel : a ∈ db.futureScheduled sched.id today
  · -- a session the edit moved is of this schedule, and meets the slot on its own date only
    rw [if_pos hsel] at hsa
    subst hsa
    have hown := (List.mem_filter.mp hsel).2
    simp only [Bool.and_eq_true, beq_iff_eq] at hown
    refine ⟨hown.1.1, ?_⟩
    exact manila.date_eq_of_overlaps_combine hholds.overlaps
  · rw [if_neg hsel] at hsa
    subst hsa
    by_contra hother
    rw [← Bool.not_eq_false, Db.roomIsFree_eq_false_iff] at hfree
    refine hfree (.inl ⟨a, ha, ⟨hholds.room, hholds.status, hholds.unreleased, hholds.overlaps,
      effectiveModality_edited a ▸ hholds.inPerson⟩, fun heq => ?_⟩)
    obtain ⟨own, hon, hid⟩ := Option.map_eq_some_iff.mp heq
    obtain ⟨hmem, hsched, -, hdate⟩ := (sessionOn_eq_some_iff hone).mp hon
    rw [Table.eq_of_key_eq hmem ha hid] at hsched hdate
    exact hother ⟨hsched, hdate⟩

/-- What the check found free is free in the state after the edit. -/
theorem freeBesides_edited (hone : db.OnePerDate)
    (hfree : db.roomIsFree (sched.edit e).room (makeAware d (sched.edit e).startTime)
      (makeAware d (sched.edit e).endTime)
      ((sessionOn (db.ownSessions sched.id today) d).map Session.id) (some sched.id) = true) :
    (db.edited sched e actor today).FreeBesides sched.id d (sched.edit e).room
      (makeAware d (sched.edit e).startTime) (makeAware d (sched.edit e).endTime) := by
  have hnone := hfree
  rw [← Bool.not_eq_false, Db.roomIsFree_eq_false_iff] at hnone
  refine ⟨fun b hb hroom hactive => ?_, fun s hs => holds_edited hone hs hfree,
    fun other hother hforecast => ?_, fun sh hsh => ?_⟩
  · refine Bool.eq_false_iff.mpr fun hover => hnone (.inr (.inl ?_))
    refine List.any_eq_true.mpr ⟨b, hb, ?_⟩
    simp only [hroom, hactive, hover, beq_self_eq_true, Bool.and_true]
  · by_contra hne
    -- another class is as it was, so its forecast was there when the room was asked for
    obtain ⟨o, ho, hoo⟩ := (Table.mem_update_iff (Schedule.key_assign (sched.edit e))).mp hother
    have hid : other.id = o.id := by
      rw [← hoo]
      exact Table.key_ite_update (p := fun s : Schedule => s.id == sched.id)
        (Schedule.key_assign (sched.edit e)) o
    rw [if_neg (by simpa [← hid] using hne)] at hoo
    subst hoo
    refine hnone (.inr (.inr (.inl (Db.scheduleOccupies_iff.mpr ⟨o, ho, ⟨hforecast.room,
      hforecast.meets, ?_, hforecast.notExcused, hforecast.ownRoom, hforecast.overlaps⟩,
      fun heq => hne (Option.some.inj heq).symm⟩))))
    rw [← materialized_edited]
    exact hforecast.missing
  · by_contra hne
    -- the reservation of another class reads the same row of the timetable
    have hget : (db.edited sched e actor today).schedules.get? sh.item.schedule =
        db.schedules.get? sh.item.schedule := by
      rw [get?_schedules_edited]
      cases hrow : db.schedules.get? sh.item.schedule with
      | none => rfl
      | some a =>
        have hid : a.id = sh.item.schedule := (Table.get?_eq_some_iff.mp hrow).2
        rw [Option.map_some, if_neg (by simpa [hid] using hne)]
    refine hnone (.inr (.inr (.inr (Db.reservationOccupies_iff.mpr ⟨sh, ⟨hsh.approved, hsh.room,
      ?_, hsh.inPerson, ?_⟩, fun heq => hne (Option.some.inj heq).symm⟩))))
    · rw [← hget]
      exact hsh.weekday
    · rw [Db.reservedSlot, ← hget]
      exact hsh.overlaps

/-- No edit touches a session that is past or not scheduled. -/
theorem mem_sessions_edited_of_record {s : Session} (hs : s ∈ db.sessions)
    (h : s.date < today ∨ s.status ≠ .scheduled) : s ∈ (db.edited sched e actor today).sessions := by
  refine mem_sessions_edited.mpr ⟨s, hs, if_neg fun hsel => ?_⟩
  have hown := (List.mem_filter.mp hsel).2
  simp only [Bool.and_eq_true, beq_iff_eq, decide_eq_true_eq] at hown
  rcases h with hpast | hstatus
  · omega
  · exact hstatus hown.1.2

end

/-- An edit that moves a class which meets in a room: if it is accepted, the new room is free
at the new time on every remaining date that the calendar does not excuse and on which the
class has no record yet; if it is refused for a conflict, nothing has changed; and in every
case the past and the records stand. -/
theorem updateSchedule_free {db : Db} {sched : Schedule} {term : AcademicTerm}
    (hsched : sched ∈ db.schedules) (hterm : db.terms.table.get? sched.term = some term)
    (hmodality : sched.modality ≠ .online) (hone : db.OnePerDate) {e : ScheduleEdit}
    (hmoved : sched.movedBy e) (actor : Option ℕ) (today : ℤ) :
    (∀ n db', (updateSchedule sched.id e actor today).run db = (.ok n, db') →
      ∀ d, db.Remaining sched term today d →
        db.excused sched.term d (db.buildingOf (sched.edit e).room) = false →
        (∀ s ∈ db.sessions, s.schedule = sched.id → s.date = d → s.status = .scheduled) →
        db'.FreeBesides sched.id d (sched.edit e).room (makeAware d (sched.edit e).startTime)
          (makeAware d (sched.edit e).endTime)) ∧
    (∀ date db', (updateSchedule sched.id e actor today).run db =
      (.error (.scheduleConflict date), db') → db' = db) ∧
    ∀ s ∈ db.sessions, s.date < today ∨ s.status ≠ .scheduled →
      s ∈ ((updateSchedule sched.id e actor today).run db).2.sessions := by
  rcases run_updateSchedule_cases db sched.id e actor today with
    ⟨err, hrun⟩ | ⟨sched', hmem, hid, term', hterm', -, hpassed, hrun⟩
  · rw [hrun]
    refine ⟨fun n db' h => (nomatch h), fun date db' h => ?_, fun s hs _ => hs⟩
    exact (Prod.ext_iff.mp h).2.symm
  · obtain rfl : sched' = sched := Table.eq_of_key_eq hmem hsched hid
    obtain rfl : term' = term := Option.some.inj (hterm'.symm.trans hterm)
    rw [hrun]
    refine ⟨fun n db' h d hremaining hexcused hrecord => ?_, fun date db' h => (nomatch h),
      fun s hs hrecord => mem_sessions_edited_of_record hs hrecord⟩
    obtain rfl : db.edited sched' e actor today = db' := (Prod.ext_iff.mp h).2
    refine freeBesides_edited hone ?_
    refine (run_assertOccurrencesFree_eq_ok (hpassed hmoved)).2 hmodality d
      (mem_occurrenceDates hone hremaining) (fun s hon => ?_) hexcused
    obtain ⟨hs, hown, -, hdate⟩ := (sessionOn_eq_some_iff hone).mp hon
    exact hrecord s hs hown hdate

namespace Campus

/-- The nine o'clock class. -/
def nineOClock : Schedule :=
  ⟨1, 1, "CS1", "A", 30, 1, 1, 0, hour 9, hour 10, .f2f, .active⟩

/-- The class is moved to ten o'clock. -/
def toTen : ScheduleEdit := ⟨none, none, some (hour 10), some (hour 11), none⟩

end Campus

/-- The nine o'clock class can be moved to ten, and then the room is free besides it. -/
theorem updateSchedule_free_toTen :
    ((updateSchedule 1 Campus.toTen none Campus.monday).run Campus.campus).1 = .ok 1 ∧
      ((updateSchedule 1 Campus.toTen none Campus.monday).run Campus.campus).2.FreeBesides 1
        Campus.monday 1 (makeAware Campus.monday (.ofHM 10 0))
        (makeAware Campus.monday (.ofHM 11 0)) := by
  have hone : Campus.campus.OnePerDate := by
    have hrows : ∀ a ∈ Campus.campus.sessions.rows, ∀ b ∈ Campus.campus.sessions.rows,
        a.schedule = b.schedule → a.date = b.date → a = b := by decide +kernel
    exact hrows
  have hok : ((updateSchedule 1 Campus.toTen none Campus.monday).run Campus.campus).1 = .ok 1 := by
    decide +kernel
  have hsched : Campus.nineOClock ∈ Campus.campus.schedules := by
    change Campus.nineOClock ∈ Campus.campus.schedules.rows
    decide +kernel
  have hrecord : ∀ s ∈ Campus.campus.sessions.rows, s.schedule = 1 → s.date = Campus.monday →
      s.status = .scheduled := by decide +kernel
  refine ⟨hok, ?_⟩
  have hfree := (updateSchedule_free hsched
    (show Campus.campus.terms.table.get? 1 = some Campus.term by decide +kernel) (by decide) hone
    (e := Campus.toTen) (by decide) none Campus.monday).1
  exact hfree 1 _ (Prod.ext hok rfl) Campus.monday (.inl (by decide +kernel)) (by decide +kernel)
    hrecord

/-! ### Edits that do not move the class -/

/-- Nothing changed but the teacher of the future scheduled sessions and the teacher and the
number of students of the schedule, beside what is audited. -/
structure StaffOnly (schedule : ℕ) (today : ℤ) (db db' : Db) : Prop where
  sessions : ∀ pk, ∃ teacher, db'.sessions.get? pk = (db.sessions.get? pk).map fun s =>
    if s ∈ db.futureScheduled schedule today then { s with faculty := teacher } else s
  schedules : ∀ pk, ∃ teacher count, db'.schedules.get? pk = (db.schedules.get? pk).map fun a =>
    if a.id = schedule then { a with faculty := teacher, enrolledCount := count } else a
  rest : ∃ schedules sessions audit, db' = { db with
    schedules := schedules, sessions := sessions, audit := audit }

/-- The future scheduled sessions are in the room of their schedule at its time. -/
def Db.InStep (db : Db) (sched : Schedule) (today : ℤ) : Prop :=
  ∀ s ∈ db.futureScheduled sched.id today, s.room = sched.room ∧
    s.scheduledStart = makeAware s.date sched.startTime ∧
    s.scheduledEnd = makeAware s.date sched.endTime

section

variable {db : Db} {sched : Schedule} {e : ScheduleEdit} {actor : Option ℕ} {today : ℤ}

theorem StaffOnly.refl (schedule : ℕ) (today : ℤ) (db : Db) : StaffOnly schedule today db db := by
  refine ⟨fun pk => ?_, fun pk => ?_, ⟨_, _, _, rfl⟩⟩
  · cases hget : db.sessions.get? pk with
    | none => exact ⟨0, rfl⟩
    | some s => exact ⟨s.faculty, by rw [Option.map_some, ite_self]⟩
  · cases hget : db.schedules.get? pk with
    | none => exact ⟨0, 0, rfl⟩
    | some a => exact ⟨a.faculty, a.enrolledCount, by rw [Option.map_some, ite_self]⟩

/-- A session follows its schedule without moving iff it is where the schedule is. -/
theorem Session.followOwn_eq_iff {s : Session} (hmoved : ¬ sched.movedBy e) {teacher : ℕ} :
    s.followOwn (sched.edit e) = { s with faculty := teacher } ↔
      (sched.edit e).faculty = teacher ∧ s.room = sched.room ∧
        s.scheduledStart = makeAware s.date sched.startTime ∧
        s.scheduledEnd = makeAware s.date sched.endTime := by
  unfold Schedule.movedBy at hmoved
  push Not at hmoved
  obtain ⟨hroom, hstart, hend⟩ := hmoved
  simp only [Session.followOwn, Session.follow, Session.mk.injEq, hroom, hstart, hend, true_and,
    and_true]
  tauto

theorem get?_sessions_edited (pk : ℕ) :
    (db.edited sched e actor today).sessions.get? pk = (db.sessions.get? pk).map fun s =>
      if s ∈ db.futureScheduled sched.id today then s.followOwn (sched.edit e) else s := by
  cases hget : db.sessions.get? pk with
  | none =>
    refine Table.get?_eq_none_iff.mpr fun s hs => ?_
    obtain ⟨a, ha, rfl⟩ := mem_sessions_edited.mp hs
    by_cases hsel : a ∈ db.futureScheduled sched.id today
    · rw [if_pos hsel, Session.key_followOwn]
      exact Table.get?_eq_none_iff.mp hget a ha
    · rw [if_neg hsel]
      exact Table.get?_eq_none_iff.mp hget a ha
  | some a =>
    obtain ⟨ha, hid⟩ := Table.get?_eq_some_iff.mp hget
    refine Table.get?_eq_some_iff.mpr ⟨mem_sessions_edited.mpr ⟨a, ha, rfl⟩, ?_⟩
    rw [← hid]
    dsimp only
    by_cases hsel : a ∈ db.futureScheduled sched.id today
    · rw [if_pos hsel, Session.key_followOwn]
    · rw [if_neg hsel]

/-- What an edit that does not move the class writes into the schedule. -/
theorem Schedule.assign_edit (hmoved : ¬ sched.movedBy e) :
    (sched.edit e).assign sched =
      { sched with
        faculty := (sched.edit e).faculty, enrolledCount := (sched.edit e).enrolledCount } := by
  unfold Schedule.movedBy at hmoved
  push Not at hmoved
  obtain ⟨hroom, hstart, hend⟩ := hmoved
  rw [Schedule.assign, hroom, hstart, hend]

/-- An edit that does not move the class leaves its sessions where they are iff they are in
step with the schedule. -/
theorem staffOnly_edited_iff (hsched : sched ∈ db.schedules) (hmoved : ¬ sched.movedBy e) :
    StaffOnly sched.id today db (db.edited sched e actor today) ↔ db.InStep sched today := by
  constructor
  · intro h s hs
    have hmem : s ∈ db.sessions := Db.mem_sessionList.mp (List.mem_filter.mp hs).1
    obtain ⟨teacher, hget⟩ := h.sessions s.id
    rw [get?_sessions_edited, show db.sessions.get? s.id = some s from Table.get?_key hmem,
      Option.map_some, Option.map_some, if_pos hs, if_pos hs] at hget
    exact ((Session.followOwn_eq_iff hmoved).mp (Option.some.inj hget)).2
  · intro h
    refine ⟨fun pk => ⟨(sched.edit e).faculty, ?_⟩,
      fun pk => ⟨(sched.edit e).faculty, (sched.edit e).enrolledCount, ?_⟩, ⟨_, _, _, rfl⟩⟩
    · rw [get?_sessions_edited]
      refine congrArg (fun f => Option.map f (db.sessions.get? pk)) (funext fun s => ?_)
      by_cases hs : s ∈ db.futureScheduled sched.id today
      · rw [if_pos hs, if_pos hs]
        exact (Session.followOwn_eq_iff hmoved).mpr ⟨rfl, h s hs⟩
      · rw [if_neg hs, if_neg hs]
    · rw [get?_schedules_edited]
      cases hget : db.schedules.get? pk with
      | none => rfl
      | some a =>
        obtain ⟨ha, -⟩ := Table.get?_eq_some_iff.mp hget
        rw [Option.map_some, Option.map_some]
        by_cases hid : a.id = sched.id
        · obtain rfl : a = sched := Table.eq_of_key_eq ha hsched hid
          rw [if_pos (beq_self_eq_true _), if_pos rfl, Schedule.assign_edit hmoved]
        · rw [if_neg (by simpa using hid), if_neg hid]

end

/-- An edit that leaves the room and the times of the schedule as they are leaves those of its
sessions iff it is refused or the future sessions are in step with the schedule: a session that
an approved shift has moved elsewhere is moved back, unchecked. -/
theorem updateSchedule_staffOnly_iff (db : Db) (schedule : ℕ) (e : ScheduleEdit)
    (actor : Option ℕ) (today : ℤ)
    (hmoved : ∀ sched, db.schedules.get? schedule = some sched → ¬ sched.movedBy e) :
    StaffOnly schedule today db ((updateSchedule schedule e actor today).run db).2 ↔
      ∀ sched term, db.schedules.get? schedule = some sched →
        db.terms.table.get? sched.term = some term → term.status ≠ .archived →
          db.InStep sched today := by
  rcases run_updateSchedule_cases db schedule e actor today with
    ⟨err, hrun⟩ | ⟨sched, hsched, rfl, term, hterm, hwritable, -, hrun⟩
  · rw [hrun]
    refine ⟨fun _ sched term hget hterm hwritable => ?_, fun _ => .refl _ _ _⟩
    -- an edit that is not checked is refused for the term only
    obtain ⟨hsched, rfl⟩ := Table.get?_eq_some_iff.mp hget
    have hcheck : (assertMoveFree sched term e today).run db = (.ok (), db) := by
      rw [assertMoveFree, if_neg (hmoved sched hget)]
      rfl
    cases hrun.symm.trans (run_updateSchedule hsched hterm hwritable hcheck actor)
  · have hget : db.schedules.get? sched.id = some sched := Table.get?_key hsched
    rw [hrun, staffOnly_edited_iff hsched (hmoved sched hget)]
    refine ⟨fun h sched' term' hget' _ _ => ?_, fun h => h sched term hget hterm hwritable⟩
    obtain rfl : sched = sched' := Option.some.inj (hget.symm.trans hget')
    exact h

namespace Campus

/-- The approved request moves the nine o'clock class of that Monday to ten. -/
def movedToTen : Db :=
  ((applyApproval 1 dean 0).run { requested .f2f with
    items := ⟨[⟨1, 1, 1, none, none, some (hour 10), some (hour 11)⟩], by decide⟩ }).2

/-- The class gets another teacher. -/
def newTeacher : ScheduleEdit := ⟨some 2, none, none, none, none⟩

end Campus

/-- Without a shift a new teacher is all that changes. -/
theorem updateSchedule_staffOnly_newTeacher :
    StaffOnly 1 Campus.monday Campus.campus
      ((updateSchedule 1 Campus.newTeacher none Campus.monday).run Campus.campus).2 := by
  refine (updateSchedule_staffOnly_iff _ _ _ _ _ fun sched _ => ?_).mpr
    fun sched term hget _ _ s hs => ?_
  · simp [Schedule.movedBy, Schedule.edit, Campus.newTeacher]
  · have hrow : Campus.campus.schedules.get? 1 = some Campus.nineOClock := by decide +kernel
    obtain rfl : Campus.nineOClock = sched := Option.some.inj (hrow.symm.trans hget)
    have hall : ∀ s ∈ Campus.campus.futureScheduled 1 Campus.monday,
        s.room = Campus.nineOClock.room ∧
        s.scheduledStart = makeAware s.date Campus.nineOClock.startTime ∧
        s.scheduledEnd = makeAware s.date Campus.nineOClock.endTime := by
      decide +kernel
    exact hall s hs

/-- A class that was moved to ten for the day is moved back to nine when it gets another
teacher. -/
theorem updateSchedule_moves_back :
    ¬ ∀ (db : Db) (schedule : ℕ) (e : ScheduleEdit) (actor : Option ℕ) (today : ℤ),
      (∀ sched, db.schedules.get? schedule = some sched → ¬ sched.movedBy e) →
        StaffOnly schedule today db ((updateSchedule schedule e actor today).run db).2 := by
  intro h
  have hstaff := h Campus.movedToTen 1 Campus.newTeacher none Campus.monday fun sched _ => by
    simp [Schedule.movedBy, Schedule.edit, Campus.newTeacher]
  obtain ⟨teacher, hget⟩ := hstaff.sessions 1
  have hstart := congrArg (Option.map Session.scheduledStart) hget
  have hbefore : (Campus.movedToTen.sessions.get? 1).map Session.scheduledStart =
      some (wallClock Campus.monday 10 0 0) := by decide +kernel
  have hafter : (((updateSchedule 1 Campus.newTeacher none Campus.monday).run
      Campus.movedToTen).2.sessions.get? 1).map Session.scheduledStart =
      some (wallClock Campus.monday 9 0 0) := by decide +kernel
  have hkeep : (Session.scheduledStart ∘ fun s =>
      if s ∈ Campus.movedToTen.futureScheduled 1 Campus.monday
        then { s with faculty := teacher } else s) = Session.scheduledStart := by
    funext s
    rw [Function.comp_apply]
    split <;> rfl
  rw [hafter, Option.map_map, hkeep, hbefore] at hstart
  exact absurd hstart (by decide)

end FluxTrack
