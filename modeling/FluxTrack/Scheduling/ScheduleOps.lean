import FluxTrack.Ops.Availability

/-!
# Editing and dropping a schedule

`scheduling/schedule_ops.py`. Dropping a schedule archives it and cancels its future
scheduled sessions, which are selected first and then updated by primary key. An edit
that changes the room or the times first asks for every remaining date whether the room
is free, and then carries the schedule's new values into the future scheduled sessions,
one after another.

## Main definitions

* `Db.futureScheduled` — the sessions the services are about
* `cancelSchedule` — dropping a schedule
* `occurrenceDates`, `assertOccurrencesFree` — the dates of a schedule and the check
* `updateSchedule` — editing a schedule

## Main results

* `run_cancelSchedule` — dropping a schedule, run alone
* `mem_weeklyDates` — the weekly dates up to the end of the term
* `run_updateSchedule` — an edit that passes the check, run alone
-/

namespace FluxTrack

open Calendar Relational Process

/-- `_future_scheduled`: the scheduled sessions of the schedule from `today` on. -/
def Db.futureScheduled (db : Db) (schedule : ℕ) (today : ℤ) : List Session :=
  db.sessionList.filter fun s =>
    s.schedule == schedule && s.status == .scheduled && decide (today ≤ s.date)

theorem scheduled_of_futureScheduled {db : Db} {schedule : ℕ} {today : ℤ} {s : Session}
    (h : s ∈ db.futureScheduled schedule today) : s.status = .scheduled := by
  have hsel := (List.mem_filter.mp h).2
  simp only [Bool.and_eq_true, beq_iff_eq] at hsel
  exact hsel.1.2

/-- An update of the future scheduled sessions of a schedule, row by row. -/
theorem rows_update_futureScheduled (db : Db) (schedule : ℕ) (today : ℤ) {f : Session → Session}
    (hf : ∀ s, key (f s) = key s) :
    (db.sessions.update
      (fun s => ((db.futureScheduled schedule today).map Session.id).contains s.id) f hf).rows =
      db.sessions.rows.map fun s =>
        if s ∈ db.futureScheduled schedule today then f s else s := by
  rw [Table.rows_update]
  refine List.map_congr_left fun s hs => if_congr ?_ rfl rfl
  rw [List.contains_iff_mem, List.mem_map]
  constructor
  · rintro ⟨a, ha, hid⟩
    have hmem : a ∈ db.sessions := Db.mem_sessionList.mp (List.mem_filter.mp ha).1
    rwa [← Table.eq_of_key_eq hmem hs hid]
  · intro hmem
    exact ⟨s, hmem, rfl⟩

theorem mem_update_futureScheduled (db : Db) (schedule : ℕ) (today : ℤ) {f : Session → Session}
    (hf : ∀ s, key (f s) = key s) {s : Session} :
    s ∈ db.sessions.update
      (fun s => ((db.futureScheduled schedule today).map Session.id).contains s.id) f hf ↔
      ∃ a ∈ db.sessions, (if a ∈ db.futureScheduled schedule today then f a else a) = s := by
  rw [← Table.mem_rows, rows_update_futureScheduled, List.mem_map]
  rfl

/-- The schedule taken off the timetable. -/
def Schedule.archive (s : Schedule) : Schedule := { s with status := .archived }

theorem Schedule.key_archive (s : Schedule) : key s.archive = key s := rfl

/-- `(reason or "Class no longer offered").strip()[:200]`. -/
def cancelReason (reason : String) : String :=
  Py.truncate 200 (Py.strip (if reason = "" then "Class no longer offered" else reason))

/-- `cancel_schedule`: archive the schedule and cancel its future scheduled
sessions. Answers with the number of cancelled sessions. -/
def cancelSchedule (schedule : ℕ) (actor : Option ℕ) (reason : String) (today : ℤ) : M ℕ :=
  Prog.atomic do
    Prog.lock (.schedule schedule)
    match ← Prog.select fun db => do
        let sched ← db.schedules.get? schedule
        db.terms.table.get? sched.term with
    | none => .raise .doesNotExist
    | some term => do
      requireWritableTerm term
      let reason := cancelReason reason
      Prog.modify fun db => { db with
        schedules := db.schedules.update (fun s => s.id == schedule) Schedule.archive
          Schedule.key_archive }
      let ids ← Prog.select fun db => (db.futureScheduled schedule today).map Session.id
      flipAll actor ids (Session.cancel reason) (Session.key_cancel reason)
        fun pk => .sessionCancelled pk reason none (some schedule)
      createAudit actor (.scheduleArchived schedule reason ids.length)
      pure ids.length

/-- The database once a schedule has been dropped. -/
def Db.dropped (db : Db) (schedule : ℕ) (actor : Option ℕ) (reason : String) (today : ℤ) : Db :=
  { db with
    schedules := db.schedules.update (fun s => s.id == schedule) Schedule.archive
    sessions := db.sessions.update
      (fun s => ((db.futureScheduled schedule today).map Session.id).contains s.id)
      (Session.cancel (cancelReason reason)) (Session.key_cancel _)
    audit := db.audit ++
      ((db.futureScheduled schedule today).map fun s =>
        ⟨actor, .sessionCancelled s.id (cancelReason reason) none (some schedule)⟩) ++
      [⟨actor, .scheduleArchived schedule (cancelReason reason)
        (db.futureScheduled schedule today).length⟩] }

/-- Run alone in a writable term, dropping a schedule archives it, cancels exactly
its future scheduled sessions and audits each. -/
theorem run_cancelSchedule {db : Db} {sched : Schedule} {term : AcademicTerm}
    (hsched : sched ∈ db.schedules) (hterm : db.terms.table.get? sched.term = some term)
    (hwritable : term.status ≠ .archived) (actor : Option ℕ) (reason : String) (today : ℤ) :
    (cancelSchedule sched.id actor reason today).run db =
      (.ok (db.futureScheduled sched.id today).length, db.dropped sched.id actor reason today) := by
  refine Prog.run_atomic_of_ok ?_
  have hget : (do
      let s ← db.schedules.get? sched.id
      db.terms.table.get? s.term) = some term := by
    rw [show db.schedules.get? sched.id = some sched from Table.get?_key hsched]
    exact hterm
  rw [Prog.run_lock_bind, Prog.run_select_bind, hget]
  refine (Prog.run_bind_of_ok (run_requireWritableTerm hwritable)).trans ?_
  rw [Prog.run_modify_bind, Prog.run_select_bind]
  refine (Prog.run_bind_of_ok run_flipAll).trans ?_
  rw [createAudit, Prog.run_modify_bind, List.length_map, List.map_map, List.map_map]
  rfl

theorem mem_sessions_dropped {db : Db} {schedule : ℕ} {actor : Option ℕ} {reason : String}
    {today : ℤ} {s : Session} :
    s ∈ (db.dropped schedule actor reason today).sessions ↔
      ∃ a ∈ db.sessions, (if a ∈ db.futureScheduled schedule today
        then a.cancel (cancelReason reason) else a) = s :=
  mem_update_futureScheduled db schedule today (Session.key_cancel _)

theorem term_scheduleOf_dropped {db : Db} {schedule : ℕ} {actor : Option ℕ} {reason : String}
    {today : ℤ} (s : Session) :
    ((db.dropped schedule actor reason today).scheduleOf s).term = (db.scheduleOf s).term :=
  Table.getD_get?_update Schedule.key_archive (g := Schedule.term) fun _ => rfl

/-- A schedule that could not be dropped changes nothing. -/
theorem run_cancelSchedule_cases (db : Db) (schedule : ℕ) (actor : Option ℕ) (reason : String)
    (today : ℤ) :
    (∃ e, (cancelSchedule schedule actor reason today).run db = (.error e, db)) ∨
    ∃ sched ∈ db.schedules, sched.id = schedule ∧
      (∃ t, db.terms.table.get? sched.term = some t ∧ t.status ≠ .archived) ∧
      (cancelSchedule schedule actor reason today).run db =
        (.ok (db.futureScheduled schedule today).length,
          db.dropped schedule actor reason today) := by
  rcases Prog.run_cases_of_eq_atomic (q := cancelSchedule schedule actor reason today) rfl db with
    herr | ⟨n, db', hbody, -⟩
  · exact .inl herr
  · right
    rw [Prog.run_lock_bind, Prog.run_select_bind] at hbody
    cases hsched : db.schedules.get? schedule with
    | none =>
      rw [hsched] at hbody
      cases hbody
    | some sched =>
      obtain ⟨hmem, rfl⟩ := Table.get?_eq_some_iff.mp hsched
      rw [hsched] at hbody
      cases hterm : db.terms.table.get? sched.term with
      | none =>
        rw [show (some sched >>= fun s => db.terms.table.get? s.term) = none from hterm] at hbody
        cases hbody
      | some t =>
        rw [show (some sched >>= fun s => db.terms.table.get? s.term) = some t from hterm] at hbody
        obtain ⟨_, db₁, hwrite, -⟩ := Prog.run_bind_eq_ok hbody
        obtain ⟨-, hwritable⟩ := run_requireWritableTerm_eq_ok hwrite
        exact ⟨sched, hmem, rfl, ⟨t, hterm, hwritable⟩,
          run_cancelSchedule hmem hterm hwritable actor reason today⟩

/-! ### Editing a schedule -/

/-- The keyword arguments of an edit; what is left out is unchanged. -/
structure ScheduleEdit where
  faculty : Option ℕ
  room : Option ℕ
  startTime : Option TimeOfDay
  endTime : Option TimeOfDay
  enrolledCount : Option ℕ

/-- The schedule with the edit applied. -/
def Schedule.edit (e : ScheduleEdit) (s : Schedule) : Schedule :=
  { s with
    faculty := e.faculty.getD s.faculty, room := e.room.getD s.room,
    startTime := e.startTime.getD s.startTime, endTime := e.endTime.getD s.endTime,
    enrolledCount := e.enrolledCount.getD s.enrolledCount }

/-- The edit changes the room or the times. -/
def Schedule.movedBy (s : Schedule) (e : ScheduleEdit) : Prop :=
  (s.edit e).room ≠ s.room ∨ (s.edit e).startTime ≠ s.startTime ∨ (s.edit e).endTime ≠ s.endTime

instance (s : Schedule) (e : ScheduleEdit) : Decidable (s.movedBy e) :=
  inferInstanceAs (Decidable (_ ∨ _ ∨ _))

/-- The loop that adds every seventh date up to `last`. -/
def weeklyLoop (last : ℤ) : ℕ → ℤ → List ℤ
  | 0, _ => []
  | fuel + 1, d => if d ≤ last then d :: weeklyLoop last fuel (d + 7) else []

/-- The dates with a weekday from `today` to `last`. -/
def weeklyDates (dayOfWeek : ℕ) (today last : ℤ) : List ℤ :=
  let first := today + ((dayOfWeek : ℤ) - weekday today) % 7
  weeklyLoop last ((last - first).toNat + 1) first

/-- The sessions of the schedule from `today` on, by date. -/
def Db.ownSessions (db : Db) (schedule : ℕ) (today : ℤ) : List Session :=
  (db.sessions.rows.filter fun s => s.schedule == schedule && decide (today ≤ s.date)).insertionSort
    fun a b => a.date ≤ b.date

/-- The session of a date in a dictionary by date: the last one entered. -/
def sessionOn (sessions : List Session) (d : ℤ) : Option Session :=
  sessions.reverse.find? fun s => s.date == d

/-- The dates the check asks about: those of the scheduled sessions and the weekly ones. -/
def occurrenceDates (sessions : List Session) (dayOfWeek : ℕ) (today last : ℤ) : List ℤ :=
  let scheduled := (sessions.map Session.date).filter fun d =>
    (sessionOn sessions d).any fun s => s.status == .scheduled
  (scheduled ++ weeklyDates dayOfWeek today last).dedup.insertionSort (· ≤ ·)

/-- The question for one date, excluding the schedule's own session of that date. -/
def assertFreeOn (sched : Schedule) (room : ℕ) (startTime endTime : TimeOfDay) (own : Option ℕ)
    (d : ℤ) : M Unit := do
  let free ← Prog.select fun db =>
    db.roomIsFree room (makeAware d startTime) (makeAware d endTime) own (some sched.id)
  if free then pure () else .raise (.scheduleConflict d)

/-- The check for one date: nothing is asked if the own session of the date is not scheduled
any more or the calendar excuses the date. -/
def assertOn (sched : Schedule) (room : ℕ) (startTime endTime : TimeOfDay)
    (sessions : List Session) (excused : ℤ → Bool) (d : ℤ) : M Unit :=
  let own := sessionOn sessions d
  if own.any fun s => s.status != .scheduled then pure ()
  else if excused d then pure ()
  else assertFreeOn sched room startTime endTime (own.map Session.id) d

/-- `_assert_occurrences_free`. -/
def assertOccurrencesFree (sched : Schedule) (term : AcademicTerm) (room : ℕ)
    (startTime endTime : TimeOfDay) (today : ℤ) : M Unit :=
  if sched.modality = .online then pure ()
  else do
    let sessions ← Prog.select fun db => db.ownSessions sched.id today
    let excused ← excusedChecker sched.term
    let building ← Prog.select fun db => db.buildingOf room
    Prog.forEach (occurrenceDates sessions sched.dayOfWeek today term.endDate)
      (assertOn sched room startTime endTime sessions fun d => excused d building)

/-- The check of an edit, made only if it changes the room or the times. -/
def assertMoveFree (sched : Schedule) (term : AcademicTerm) (e : ScheduleEdit) (today : ℤ) :
    M Unit :=
  let edited := sched.edit e
  if sched.movedBy e then
    assertOccurrencesFree sched term edited.room edited.startTime edited.endTime today
  else pure ()

/-- The session with the values of its edited schedule on a date. -/
def Session.follow (sched : Schedule) (d : ℤ) (s : Session) : Session :=
  { s with
    faculty := sched.faculty, room := sched.room,
    scheduledStart := makeAware d sched.startTime, scheduledEnd := makeAware d sched.endTime }

theorem Session.key_follow (sched : Schedule) (d : ℤ) (s : Session) :
    key (s.follow sched d) = key s := rfl

/-- `schedule.save(update_fields=[...])` with the five edited fields. -/
def Schedule.assign (values s : Schedule) : Schedule :=
  { s with
    faculty := values.faculty, room := values.room, startTime := values.startTime,
    endTime := values.endTime, enrolledCount := values.enrolledCount }

theorem Schedule.key_assign (values s : Schedule) : key (values.assign s) = key s := rfl

/-- `update_schedule`: check an edit and carry it into the future scheduled sessions.
Answers with their number. -/
def updateSchedule (schedule : ℕ) (e : ScheduleEdit) (actor : Option ℕ) (today : ℤ) : M ℕ :=
  Prog.atomic do
    Prog.lock (.schedule schedule)
    match ← Prog.select fun db => (do
        let sched ← db.schedules.get? schedule
        let term ← db.terms.table.get? sched.term
        pure (sched, term) : Option (Schedule × AcademicTerm)) with
    | none => .raise .doesNotExist
    | some (sched, term) => do
      requireWritableTerm term
      let edited := sched.edit e
      assertMoveFree sched term e today
      Prog.modify fun db =>
        { db with
          schedules := db.schedules.update (fun s => s.id == schedule) edited.assign
            (Schedule.key_assign edited) }
      let sessions ← Prog.select fun db => db.futureScheduled schedule today
      Prog.forEach sessions fun s =>
        saveSession s.id (Session.follow edited s.date) (Session.key_follow edited s.date)
      createAudit actor (.scheduleUpdated schedule sched.faculty sched.room sched.startTime
        sched.endTime sched.enrolledCount sessions.length)
      pure sessions.length

/-! ### The dates of a schedule -/

theorem mem_weeklyLoop {last d first : ℤ} {fuel : ℕ} (hfuel : last - first < fuel)
    (hd : d ≤ last) {k : ℕ} (hk : d = first + 7 * k) : d ∈ weeklyLoop last fuel first := by
  induction fuel generalizing first k with
  | zero => omega
  | succ fuel ih =>
    rw [weeklyLoop, if_pos (by omega)]
    cases k with
    | zero => exact List.mem_cons.mpr (.inl (by omega))
    | succ k => exact List.mem_cons_of_mem _ (ih (by omega) (k := k) (by push_cast at hk; omega))

/-- Every date with the weekday from `today` to the last day is among the weekly dates. -/
theorem mem_weeklyDates {dayOfWeek : ℕ} {today last d : ℤ} (htoday : today ≤ d) (hlast : d ≤ last)
    (hday : weekday d = dayOfWeek) : d ∈ weeklyDates dayOfWeek today last := by
  subst hday
  have hoffset : ((weekday d : ℤ) - weekday today) % 7 = (d - today) % 7 := by
    unfold weekday
    omega
  refine mem_weeklyLoop (by omega) hlast (k := ((d - today) / 7).toNat) ?_
  rw [hoffset]
  omega

/-- With one session for each date, the dictionary answers with the session of the date. -/
theorem sessionOn_eq_some_iff {db : Db} {schedule : ℕ} {today d : ℤ} {s : Session}
    (hone : ∀ a ∈ db.sessions, ∀ b ∈ db.sessions, a.schedule = b.schedule → a.date = b.date → a = b) :
    sessionOn (db.ownSessions schedule today) d = some s ↔
      s ∈ db.sessions ∧ s.schedule = schedule ∧ today ≤ s.date ∧ s.date = d := by
  have hmem : ∀ a, a ∈ (db.ownSessions schedule today).reverse ↔
      a ∈ db.sessions ∧ a.schedule = schedule ∧ today ≤ a.date := by
    intro a
    rw [List.mem_reverse, Db.ownSessions, List.mem_insertionSort, List.mem_filter]
    simp only [Table.mem_rows, Bool.and_eq_true, beq_iff_eq, decide_eq_true_eq]
  constructor
  · intro hfind
    obtain ⟨hs, hsched, htoday⟩ := (hmem s).mp (List.mem_of_find?_eq_some hfind)
    exact ⟨hs, hsched, htoday, by simpa using List.find?_some hfind⟩
  · rintro ⟨hs, hsched, htoday, hdate⟩
    cases hfind : sessionOn (db.ownSessions schedule today) d with
    | none =>
      have hnone := List.find?_eq_none.mp hfind s ((hmem s).mpr ⟨hs, hsched, htoday⟩)
      simp [hdate] at hnone
    | some a =>
      obtain ⟨ha, hasched, -⟩ := (hmem a).mp (List.mem_of_find?_eq_some hfind)
      have hadate : a.date = d := by simpa using List.find?_some hfind
      rw [hone a ha s hs (hasched.trans hsched.symm) (hadate.trans hdate.symm)]

theorem run_assertOn_eq_ok {db db' : Db} {sched : Schedule} {room : ℕ}
    {startTime endTime : TimeOfDay} {sessions : List Session} {excused : ℤ → Bool} {d : ℤ}
    (h : (assertOn sched room startTime endTime sessions excused d).run db = (.ok (), db')) :
    db' = db := by
  unfold assertOn at h
  dsimp only at h
  split at h
  · cases h
    rfl
  · split at h
    · cases h
      rfl
    · rw [assertFreeOn, Prog.run_select_bind] at h
      split at h
      · cases h
        rfl
      · cases h

/-- A check that passes reads only, and found the room free on every date it asked about. -/
theorem run_assertOccurrencesFree_eq_ok {db db' : Db} {sched : Schedule} {term : AcademicTerm}
    {room : ℕ} {startTime endTime : TimeOfDay} {today : ℤ}
    (h : (assertOccurrencesFree sched term room startTime endTime today).run db = (.ok (), db')) :
    db' = db ∧ (sched.modality ≠ .online →
      ∀ d ∈ occurrenceDates (db.ownSessions sched.id today) sched.dayOfWeek today term.endDate,
        (∀ s, sessionOn (db.ownSessions sched.id today) d = some s → s.status = .scheduled) →
        db.excused sched.term d (db.buildingOf room) = false →
        db.roomIsFree room (makeAware d startTime) (makeAware d endTime)
          ((sessionOn (db.ownSessions sched.id today) d).map Session.id) (some sched.id) = true) := by
  unfold assertOccurrencesFree at h
  split at h
  · rename_i honline
    cases h
    exact ⟨rfl, fun hne => absurd honline hne⟩
  · rw [Prog.run_select_bind, Prog.run_bind_of_ok (run_excusedChecker sched.term db),
      Prog.run_select_bind] at h
    have hloop := Prog.run_forEach_eq_ok (fun d db₁ => run_assertOn_eq_ok) h
    refine ⟨hloop.1, fun _ d hd hown hexcused => ?_⟩
    have hcheck := hloop.2 d hd
    rw [assertOn, if_neg, if_neg (by simp [hexcused]), assertFreeOn, Prog.run_select_bind] at hcheck
    · by_contra hfree
      rw [if_neg hfree] at hcheck
      cases hcheck
    · rw [Option.any_eq_true]
      rintro ⟨s, hs, hne⟩
      exact bne_iff_ne.mp hne (hown s hs)

theorem run_assertMoveFree_eq_ok {db db' : Db} {sched : Schedule} {term : AcademicTerm}
    {e : ScheduleEdit} {today : ℤ}
    (h : (assertMoveFree sched term e today).run db = (.ok (), db')) :
    db' = db ∧ (sched.movedBy e → (assertOccurrencesFree sched term (sched.edit e).room
      (sched.edit e).startTime (sched.edit e).endTime today).run db = (.ok (), db)) := by
  by_cases hmoved : sched.movedBy e
  · rw [assertMoveFree, if_pos hmoved] at h
    obtain ⟨rfl, -⟩ := run_assertOccurrencesFree_eq_ok h
    exact ⟨rfl, fun _ => h⟩
  · rw [assertMoveFree, if_neg hmoved] at h
    cases h
    exact ⟨rfl, fun hm => absurd hm hmoved⟩

/-! ### The edit run alone -/

/-- The session with the values of its edited schedule on its own date. -/
def Session.followOwn (sched : Schedule) (s : Session) : Session := s.follow sched s.date

theorem Session.key_followOwn (sched : Schedule) (s : Session) : key (s.followOwn sched) = key s :=
  rfl

/-- Saving loaded sessions one after another is one update of all of them. -/
theorem run_followAll (sched : Schedule) (sessions : List Session) (db : Db)
    (hdate : ∀ s ∈ sessions, ∀ a ∈ db.sessions, a.id = s.id → a.date = s.date) :
    (Prog.forEach sessions fun s =>
        saveSession s.id (Session.follow sched s.date) (Session.key_follow sched s.date) :
        M Unit).run db =
      (.ok (), { db with
        sessions := db.sessions.update (fun a => (sessions.map Session.id).contains a.id)
          (Session.followOwn sched) (Session.key_followOwn sched) }) := by
  induction sessions generalizing db with
  | nil => simp [Prog.forEach]
  | cons s rest ih =>
    refine (Prog.run_forEach_cons rfl).trans ?_
    rw [ih]
    · refine congrArg (fun t => (Except.ok (), { db with sessions := t })) (Table.ext ?_)
      rw [Table.rows_update, Table.rows_update, Table.rows_update, List.map_map]
      refine List.map_congr_left fun a ha => ?_
      -- the loop writes the date it has loaded, which is the row's own
      have hsame : a.id = s.id → a.follow sched s.date = a.followOwn sched := fun hid => by
        rw [Session.followOwn, hdate s List.mem_cons_self a ha hid]
      by_cases hid : a.id = s.id
      · have hhead : (a.id == s.id) = true := beq_iff_eq.mpr hid
        simp only [Function.comp_apply, hhead, if_true, List.map_cons, List.contains_cons,
          Bool.true_or, hsame hid]
        split <;> rfl
      · have hhead : (a.id == s.id) = false := beq_eq_false_iff_ne.mpr hid
        simp only [Function.comp_apply, hhead, List.map_cons, List.contains_cons, Bool.false_or]
        rfl
    · intro r hr a ha hid
      -- a write keeps the date, so the later rows still agree with what was loaded
      obtain ⟨b, hb, rfl⟩ := (Table.mem_update_iff (Session.key_follow sched s.date)).mp ha
      have hkeep : ∀ c : Bool, (if c = true then b.follow sched s.date else b).date = b.date := by
        intro c
        cases c <;> rfl
      have hkey : ∀ c : Bool, (if c = true then b.follow sched s.date else b).id = b.id := by
        intro c
        cases c <;> rfl
      rw [hkeep]
      exact hdate r (List.mem_cons_of_mem _ hr) b hb ((hkey _).symm.trans hid)

/-- The database once an edit has been carried out. -/
def Db.edited (db : Db) (sched : Schedule) (e : ScheduleEdit) (actor : Option ℕ) (today : ℤ) : Db :=
  { db with
    schedules := db.schedules.update (fun s => s.id == sched.id) (sched.edit e).assign
      (Schedule.key_assign _)
    sessions := db.sessions.update
      (fun s => ((db.futureScheduled sched.id today).map Session.id).contains s.id)
      (Session.followOwn (sched.edit e)) (Session.key_followOwn _)
    audit := db.audit ++ [⟨actor, .scheduleUpdated sched.id sched.faculty sched.room sched.startTime
      sched.endTime sched.enrolledCount (db.futureScheduled sched.id today).length⟩] }

/-- In a writable term an edit that passes the check is carried out. -/
theorem run_updateSchedule {db : Db} {sched : Schedule} {term : AcademicTerm}
    (hsched : sched ∈ db.schedules) (hterm : db.terms.table.get? sched.term = some term)
    (hwritable : term.status ≠ .archived) {e : ScheduleEdit} {today : ℤ}
    (hcheck : (assertMoveFree sched term e today).run db = (.ok (), db)) (actor : Option ℕ) :
    (updateSchedule sched.id e actor today).run db =
      (.ok (db.futureScheduled sched.id today).length, db.edited sched e actor today) := by
  refine Prog.run_atomic_of_ok ?_
  have hget : (do
      let s ← db.schedules.get? sched.id
      let t ← db.terms.table.get? s.term
      pure (s, t) : Option (Schedule × AcademicTerm)) = some (sched, term) := by
    rw [show db.schedules.get? sched.id = some sched from Table.get?_key hsched, Option.bind_eq_bind,
      Option.bind_some, hterm]
    rfl
  rw [Prog.run_lock_bind, Prog.run_select_bind, hget]
  refine (Prog.run_bind_of_ok (run_requireWritableTerm hwritable)).trans ?_
  refine (Prog.run_bind_of_ok hcheck).trans ?_
  rw [Prog.run_modify_bind, Prog.run_select_bind]
  refine Prog.run_bind_of_ok (run_followAll (sched.edit e) _ _ ?_)
  intro s hs a ha hid
  rw [Table.eq_of_key_eq ha (Db.mem_sessionList.mp (List.mem_filter.mp hs).1) hid]

/-- An edit that could not be made changes nothing; one that was made has passed the check
if it moves the class. -/
theorem run_updateSchedule_cases (db : Db) (schedule : ℕ) (e : ScheduleEdit) (actor : Option ℕ)
    (today : ℤ) :
    (∃ err, (updateSchedule schedule e actor today).run db = (.error err, db)) ∨
    ∃ sched ∈ db.schedules, sched.id = schedule ∧
      ∃ term, db.terms.table.get? sched.term = some term ∧ term.status ≠ .archived ∧
      (sched.movedBy e → (assertOccurrencesFree sched term (sched.edit e).room
        (sched.edit e).startTime (sched.edit e).endTime today).run db = (.ok (), db)) ∧
      (updateSchedule schedule e actor today).run db =
        (.ok (db.futureScheduled schedule today).length, db.edited sched e actor today) := by
  rcases Prog.run_cases_of_eq_atomic (q := updateSchedule schedule e actor today) rfl db with
    herr | ⟨n, db', hbody, -⟩
  · exact .inl herr
  · right
    rw [Prog.run_lock_bind, Prog.run_select_bind] at hbody
    cases hsched : db.schedules.get? schedule with
    | none =>
      rw [hsched] at hbody
      cases hbody
    | some sched =>
      obtain ⟨hmem, rfl⟩ := Table.get?_eq_some_iff.mp hsched
      rw [hsched] at hbody
      cases hterm : db.terms.table.get? sched.term with
      | none =>
        simp only [Option.bind_eq_bind, Option.bind_some, hterm, Option.bind_none] at hbody
        cases hbody
      | some term =>
        simp only [Option.bind_eq_bind, Option.bind_some, hterm] at hbody
        obtain ⟨_, db₁, hwrite, hchecked⟩ := Prog.run_bind_eq_ok hbody
        obtain ⟨rfl, hwritable⟩ := run_requireWritableTerm_eq_ok hwrite
        obtain ⟨_, db₂, hcheck, -⟩ := Prog.run_bind_eq_ok hchecked
        obtain ⟨rfl, hfree⟩ := run_assertMoveFree_eq_ok hcheck
        exact ⟨sched, hmem, rfl, term, hterm, hwritable, hfree,
          run_updateSchedule hmem hterm hwritable hcheck actor⟩

end FluxTrack
