import FluxTrack.Theorems.BornRooms
import FluxTrack.Web.Schedules

/-!
# Classes that are added next to others

`schedule_new` looks at its own form only: nobody asks whether the room is taken on any of
the dates on which the new class meets. The sessions of the coming week are then created as
every other run creates them, and the rest of the term is forecast. An edit of a class is
refused by `_assert_occurrences_free` where an addition is not.

## Main definitions

* `Db.ClassAlone` — a class is alone in its room until the end of its term
* `Db.RoomOpen` — nothing stands in the way of a new class on a date
* `Db.addClass` — the database with the new class

## Main results

* `run_scheduleNew_cases` — a post that is refused changes nothing
* `scheduleNew_alone_iff` — when a class that was added is alone in its room
* `scheduleNew_collide` — a class that was added into another one
-/

namespace FluxTrack

open Calendar Relational Process

/-- A class that is not online is alone in its room on every date, from today to the end of
its term, on which it meets and its building is not excused. -/
def Db.ClassAlone (db : Db) (pk : ℕ) (today : ℤ) : Prop :=
  ∀ sched term, db.schedules.get? pk = some sched → db.terms.table.get? sched.term = some term →
    sched.modality ≠ .online → ∀ d, today ≤ d → d ≤ term.endDate → weekday d = sched.dayOfWeek →
      db.excused term.id d (db.buildingOf sched.room) = false →
        ∀ o, db.Occupies sched.room (makeAware d sched.startTime) (makeAware d sched.endTime) o →
          o.schedule? = some pk

/-- On a date nothing occupies a room at the times of a new class, but for occurrences of
other classes that the materialization of the coming week turns into sessions, and none of
these is born into the room at that time. -/
structure Db.RoomOpen (db : Db) (term : AcademicTerm) (today now : ℤ) (room : ℕ) (t t' : TimeOfDay)
    (d : ℤ) : Prop where
  before : ∀ o, db.Occupies room (makeAware d t) (makeAware d t') o →
    o.schedule? = some db.schedules.nextKey ∨
      ∃ other, o = .occurrence other ∧ db.Bears term today 7 false other d
  births : ∀ other, db.Bears term today 7 false other d →
    ¬ db.Holds room (makeAware d t) (makeAware d t') (db.unborn other d now)

/-- The database with the new class, before its sessions are created. -/
def Db.addClass (db : Db) (user term enrolled : ℕ) (f : ScheduleFields) : Db :=
  { db with
    schedules := db.schedules.insert (f.schedule term enrolled)
    audit := db.audit ++ [⟨some user, .scheduleCreated db.schedules.nextKey
      (Py.truncate 30 f.courseCode) (Py.truncate 30 f.sectionName) f.room.code⟩] }

/-! ### The post -/

section

variable {db db' : Db} {user : ℕ} {form : ScheduleForm} {today now : ℤ}

/-- The command of the view creates the sessions of the coming week in the active term. -/
theorem run_materializeSessions {term : AcademicTerm} (hterm : db.activeTerm = some term)
    (today now : ℤ) :
    (materializeSessions today now).run db =
      (((materializeTerm term today 7 false now).run db).1.map fun _ => (),
        ((materializeTerm term today 7 false now).run db).2) := by
  rw [materializeSessions, Prog.run_select_bind, hterm]
  dsimp only
  rw [Prog.run_bind]
  rcases (materializeTerm term today 7 false now).run db with ⟨e | result, db₁⟩ <;> rfl

/-- A post is refused, or it raises, and changes nothing, or the new class is written and the
coming week is materialized. -/
theorem run_scheduleNew_cases (user : ℕ) (form : ScheduleForm) (today now : ℤ) (db : Db) :
    (∃ r, (scheduleNew user form today now).run db = (r, db) ∧ ∀ pk, r ≠ .ok (.added pk)) ∨
    ∃ term f enrolled, db.activeTerm = some term ∧ db.checkSchedule term form = .ok f ∧
      (scheduleNew user form today now).run db =
        (((materializeTerm term today 7 false now).run
            (db.addClass user term.id enrolled f)).1.map fun _ => .added db.schedules.nextKey,
          ((materializeTerm term today 7 false now).run
            (db.addClass user term.id enrolled f)).2) := by
  rw [scheduleNew, Prog.run_select_bind]
  -- each check before the row is written answers without a trace
  cases hterm : db.activeTerm with
  | none => exact .inl ⟨_, rfl, fun pk h => by cases h⟩
  | some term =>
    dsimp only
    rw [Prog.run_select_bind]
    cases hfields : db.checkSchedule term form with
    | error message => exact .inl ⟨_, rfl, fun pk h => by cases h⟩
    | ok f =>
      dsimp only
      cases form.enrolledCount with
      | none => exact .inl ⟨_, rfl, fun pk h => by cases h⟩
      | some enrolled =>
        refine .inr ⟨term, f, enrolled, rfl, hfields, ?_⟩
        -- the command looks for the active term again, and finds the same
        have hagain : (db.addClass user term.id enrolled f).activeTerm = some term := hterm
        have hrest : (materializeSessions today now >>= fun _ =>
            pure (ScheduleReply.added db.schedules.nextKey)).run
              (db.addClass user term.id enrolled f) =
            (((materializeTerm term today 7 false now).run
                (db.addClass user term.id enrolled f)).1.map fun _ => .added db.schedules.nextKey,
              ((materializeTerm term today 7 false now).run
                (db.addClass user term.id enrolled f)).2) := by
          rw [Prog.run_bind, run_materializeSessions hagain]
          rcases (materializeTerm term today 7 false now).run
            (db.addClass user term.id enrolled f) with ⟨e | result, db₁⟩ <;> rfl
        exact hrest

/-- A post that has added a class has passed the checks, and the run after it did not raise. -/
theorem borneAll_of_added {term : AcademicTerm} {f : ScheduleFields} {pk : ℕ}
    (hterm : db.activeTerm = some term) (hfields : db.checkSchedule term form = .ok f)
    (hrun : (scheduleNew user form today now).run db = (.ok (.added pk), db')) :
    pk = db.schedules.nextKey ∧ ∃ enrolled,
      BorneAll (db.addClass user term.id enrolled f) term today 7 false now db' := by
  rcases run_scheduleNew_cases user form today now db with
    ⟨r, hsame, hno⟩ | ⟨term', f', enrolled, hterm', hfields', hadded⟩
  · rw [hsame] at hrun
    exact absurd (Prod.mk.inj hrun).1 (hno pk)
  · obtain rfl : term' = term := Option.some.inj (hterm'.symm.trans hterm)
    obtain rfl : f' = f := Except.ok.inj (hfields'.symm.trans hfields)
    rw [hadded] at hrun
    rcases hmat : (materializeTerm term' today 7 false now).run
      (db.addClass user term'.id enrolled f') with ⟨e | result, db₁⟩ <;>
      rw [hmat] at hrun <;> cases hrun
    exact ⟨rfl, enrolled, borneAll_of_ok hmat⟩

end

/-! ### The new row -/

section

variable {db : Db} {user term enrolled : ℕ} {f : ScheduleFields} {room : ℕ} {s e : ℤ}

theorem schedules_addClass :
    (db.addClass user term enrolled f).schedules =
      db.schedules.insert (f.schedule term enrolled) (f.key_schedule term enrolled) := rfl

/-- The new class does not change what another class means. -/
theorem get?_addClass {k : ℕ} (h : k ≠ db.schedules.nextKey) :
    (db.addClass user term enrolled f).schedules.get? k = db.schedules.get? k := by
  rw [schedules_addClass]
  exact Table.get?_insert_of_ne h

theorem get?_addClass_nextKey :
    (db.addClass user term enrolled f).schedules.get? db.schedules.nextKey =
      some (f.schedule term enrolled db.schedules.nextKey) := by
  rw [schedules_addClass]
  exact Table.get?_insert_nextKey

theorem mem_addClass {sched : Schedule} (h : sched.id ≠ db.schedules.nextKey) :
    sched ∈ (db.addClass user term enrolled f).schedules ↔ sched ∈ db.schedules := by
  rw [schedules_addClass]
  refine Table.mem_insert.trans (or_iff_left fun hnew => h ?_)
  rw [hnew]
  rfl

theorem holds_addClass_iff {x : Session} (h : x.schedule ≠ db.schedules.nextKey) :
    (db.addClass user term enrolled f).Holds room s e x ↔ db.Holds room s e x := by
  have hmodality : (db.addClass user term enrolled f).effectiveModality x =
      db.effectiveModality x := by
    rw [Db.effectiveModality, Db.effectiveModality, Db.scheduleOf, Db.scheduleOf, get?_addClass h]
  exact ⟨fun hx => ⟨hx.room, hx.status, hx.unreleased, hx.overlaps, hmodality ▸ hx.inPerson⟩,
    fun hx => ⟨hx.room, hx.status, hx.unreleased, hx.overlaps, hmodality.symm ▸ hx.inPerson⟩⟩

/-- Another class is born as it would have been. -/
theorem holds_unborn_addClass_iff {other : Schedule} {d now : ℤ}
    (h : other.id ≠ db.schedules.nextKey) :
    (db.addClass user term enrolled f).Holds room s e
        ((db.addClass user term enrolled f).unborn other d now) ↔
      db.Holds room s e (db.unborn other d now) :=
  holds_addClass_iff (by rwa [(Db.unborn_occurrence _ other d now).1])

theorem reserves_addClass_iff {sh : Shift} (h : sh.item.schedule ≠ db.schedules.nextKey) :
    (db.addClass user term enrolled f).Reserves room s e sh ↔ db.Reserves room s e sh := by
  have hget := @get?_addClass db user term enrolled f _ h
  have hslot : (db.addClass user term enrolled f).reservedSlot sh.item (localDate s) =
      db.reservedSlot sh.item (localDate s) := by
    rw [Db.reservedSlot, Db.reservedSlot, hget]
  constructor
  · rintro ⟨happroved, hroom, hday, hperson, hover⟩
    rw [hget] at hday
    rw [hslot] at hover
    exact ⟨happroved, hroom, hday, hperson, hover⟩
  · rintro ⟨happroved, hroom, hday, hperson, hover⟩
    rw [← hget] at hday
    rw [← hslot] at hover
    exact ⟨happroved, hroom, hday, hperson, hover⟩

/-- Nor does it change what occupies a room, but for itself. -/
theorem occupies_addClass_iff {o : Occupant} (h : o.schedule? ≠ some db.schedules.nextKey) :
    (db.addClass user term enrolled f).Occupies room s e o ↔ db.Occupies room s e o := by
  cases o with
  | session x => exact and_congr_right fun _ => holds_addClass_iff fun heq => h (congrArg some heq)
  | booking b => exact Iff.rfl
  | occurrence sched =>
    refine and_congr (mem_addClass fun heq => h (congrArg some heq)) ?_
    exact ⟨fun hs => ⟨hs.room, hs.meets, hs.missing, hs.notExcused, hs.ownRoom, hs.overlaps⟩,
      fun hs => ⟨hs.room, hs.meets, hs.missing, hs.notExcused, hs.ownRoom, hs.overlaps⟩⟩
  | reservation sh => exact reserves_addClass_iff fun heq => h (congrArg some heq)

/-- Nor the other occurrences that a run creates. -/
theorem bears_addClass_iff {t : AcademicTerm} {start days d : ℤ} {allowDraft : Bool}
    {other : Schedule} (h : other.id ≠ db.schedules.nextKey) :
    (db.addClass user term enrolled f).Bears t start days allowDraft other d ↔
      db.Bears t start days allowDraft other d := by
  refine and_congr_left fun _ => ?_
  exact ⟨fun hdue => ⟨(mem_addClass h).mp hdue.mem, hdue.inTerm, hdue.active, hdue.dates,
      hdue.weekday, hdue.notExcused, hdue.missing⟩,
    fun hdue => ⟨(mem_addClass h).mpr hdue.mem, hdue.inTerm, hdue.active, hdue.dates,
      hdue.weekday, hdue.notExcused, hdue.missing⟩⟩

end

/-! ### Alone in the room -/

section

variable {db db' : Db} {user enrolled : ℕ} {f : ScheduleFields} {term : AcademicTerm}
variable {today now : ℤ}

/-- On one date: the new class is alone at a slot after the run exactly when the room was open
before the post. -/
theorem alone_iff_roomOpen
    (h : BorneAll (db.addClass user term.id enrolled f) term today 7 false now db') {room : ℕ}
    {t t' : TimeOfDay} {d : ℤ} :
    (∀ o, db'.Occupies room (makeAware d t) (makeAware d t') o →
      o.schedule? = some db.schedules.nextKey) ↔ db.RoomOpen term today now room t t' d := by
  rw [h.occupants_iff]
  -- apart from the new class the run meets the database it would have met before
  constructor
  · rintro ⟨hbefore, hbirths⟩
    refine ⟨fun o ho => ?_, fun other hother hholds => ?_⟩
    · by_cases hown : o.schedule? = some db.schedules.nextKey
      · exact .inl hown
      · rcases hbefore o ((occupies_addClass_iff hown).mpr ho) with hP | ⟨other, rfl, hother⟩
        · exact .inl hP
        · exact .inr ⟨other, rfl,
            (bears_addClass_iff fun heq => hown (congrArg some heq)).mp hother⟩
    · -- a class of the timetable has another key than the new one
      have hne : other.id ≠ db.schedules.nextKey := (Table.key_lt_nextKey hother.1.mem).ne
      have hbears : (db.addClass user term.id enrolled f).Bears term today 7 false other d :=
        (bears_addClass_iff hne).mpr hother
      obtain ⟨x, hx, hnew, heq⟩ := h.exists_born hbears
      have hschedule := hbirths other hbears ((holds_unborn_addClass_iff hne).mpr hholds) x hx hnew heq
      exact hne ((fields_of_eq_unborn heq).1.symm.trans (Option.some.inj hschedule))
  · rintro ⟨hbefore, hbirths⟩
    refine ⟨fun o ho => ?_, fun other hother hholds x _ _ heq => ?_⟩
    · by_cases hown : o.schedule? = some db.schedules.nextKey
      · exact .inl hown
      · rcases hbefore o ((occupies_addClass_iff hown).mp ho) with hP | ⟨other, rfl, hother⟩
        · exact .inl hP
        · exact .inr ⟨other, rfl,
            (bears_addClass_iff fun heq => hown (congrArg some heq)).mpr hother⟩
    · by_cases hid : other.id = db.schedules.nextKey
      · exact congrArg some ((fields_of_eq_unborn heq).1.trans hid)
      · exact absurd ((holds_unborn_addClass_iff hid).mp hholds)
          (hbirths other ((bears_addClass_iff hid).mp hother))

end

/-- A class that a post has added is alone in its room until the end of the term exactly when
it is online, or the room was open at its times on every one of its dates. -/
theorem scheduleNew_alone_iff {db db' : Db} {user pk : ℕ} {form : ScheduleForm} {today now : ℤ}
    {term : AcademicTerm} {f : ScheduleFields} (hterm : db.activeTerm = some term)
    (hfields : db.checkSchedule term form = .ok f)
    (hrun : (scheduleNew user form today now).run db = (.ok (.added pk), db')) :
    db'.ClassAlone pk today ↔
      (f.modality ≠ .online → ∀ d, today ≤ d → d ≤ term.endDate → weekday d = f.dayOfWeek →
        db.excused term.id d (db.buildingOf f.room.id) = false →
          db.RoomOpen term today now f.room.id f.startTime f.endTime d) := by
  obtain ⟨rfl, enrolled, hborne⟩ := borneAll_of_added hterm hfields hrun
  have hget : db'.schedules.get? db.schedules.nextKey =
      some (f.schedule term.id enrolled db.schedules.nextKey) := by
    have hsame : db'.schedules = (db.addClass user term.id enrolled f).schedules := by
      obtain ⟨sessions, audit, notifications, rfl⟩ := hborne.rest
      rfl
    rw [hsame, get?_addClass_nextKey]
  have hget_term : db'.terms.table.get? term.id = some term := by
    obtain ⟨sessions, audit, notifications, rfl⟩ := hborne.rest
    exact Table.get?_eq_some_iff.mpr ⟨(Db.mem_of_activeTerm hterm).1, rfl⟩
  -- term, calendar and rooms are read alike before and after
  have hexcused : ∀ d, db'.excused term.id d (db'.buildingOf f.room.id) =
      db.excused term.id d (db.buildingOf f.room.id) := by
    obtain ⟨sessions, audit, notifications, rfl⟩ := hborne.rest
    exact fun _ => rfl
  constructor
  · intro halone hmodality d hlo hhi hday hfree
    exact (alone_iff_roomOpen hborne).mp
      (halone _ term hget hget_term hmodality d hlo hhi hday ((hexcused d).trans hfree))
  · intro hopen sched term' hsched hterm' hmodality d hlo hhi hday hfree
    obtain rfl := Option.some.inj (hget.symm.trans hsched)
    obtain rfl : term' = term := Option.some.inj (hterm'.symm.trans hget_term)
    exact (alone_iff_roomOpen hborne).mpr
      (hopen hmodality d hlo hhi hday ((hexcused d).symm.trans hfree))

/-! ### Two classes in one room -/

namespace Campus

/-- The timetable with the nine o'clock class only. -/
def oneClass : Db :=
  { timetable with
    users := ⟨[⟨2, "Tess", "Teach", .faculty, some 1, true, false, "tess", ""⟩], by decide⟩
    schedules := ⟨[nineOClock], by decide⟩ }

/-- A second class at nine o'clock in the same room. -/
def secondClass (dayOfWeek : ℕ) : ScheduleForm :=
  ⟨"CS2", "B", some 2, some 1, some dayOfWeek, some (hour 9), some (hour 10), some 30, some .f2f⟩

/-- The database after the second class has been added. -/
def twoClasses (dayOfWeek : ℕ) : Db :=
  ((scheduleNew 9 (secondClass dayOfWeek) monday 0).run oneClass).2

/-- Only the class itself occupies a room. -/
theorem eq_of_occupies_oneClass {room : ℕ} {s e : ℤ} {o : Occupant}
    (h : oneClass.Occupies room s e o) :
    o = .occurrence nineOClock := by
  cases o with
  | session x => cases h.1
  | booking b => cases h.1
  | occurrence sched => rw [List.mem_singleton.mp h.1]
  | reservation sh =>
    obtain ⟨hitem, -⟩ := Db.mem_approvedOn.mp h.approved
    cases hitem

theorem noOverlap_oneClass : oneClass.NoOverlap :=
  fun _ _ _ _ ha hb =>
    .inl ((eq_of_occupies_oneClass ha).trans (eq_of_occupies_oneClass hb).symm)

end Campus

open Campus in
/-- On a Tuesday the second class is alone in the room. -/
theorem scheduleNew_alone_tuesday : (twoClasses 1).ClassAlone 2 monday := by
  have hterm : oneClass.activeTerm = some term := rfl
  have hfields : oneClass.checkSchedule term (secondClass 1) =
      .ok ⟨"CS2", "B", ⟨2, "Tess", "Teach", .faculty, some 1, true, false, "tess", ""⟩,
        ⟨1, 1, "A101", "qr-1", "100001", false, ""⟩, 1, hour 9, hour 10, .f2f⟩ := rfl
  have hrun : (scheduleNew 9 (secondClass 1) monday 0).run oneClass =
      (.ok (.added 2), twoClasses 1) := Prod.ext (by decide +kernel) rfl
  refine (scheduleNew_alone_iff hterm hfields hrun).mpr fun _ d _ _ hday _ => ?_
  have hother : nineOClock.dayOfWeek ≠ weekday d := by
    rw [hday]
    decide
  refine ⟨fun o ho => ?_, fun other hother_bears _ => ?_⟩
  · obtain rfl := eq_of_occupies_oneClass ho
    have hmeets := ho.2.meets
    rw [show localDate (makeAware d (hour 9)) = d from manila.localDate_combine, Db.meetsOn,
      Bool.and_eq_true, beq_iff_eq] at hmeets
    exact absurd hmeets.2 hother
  · obtain rfl : other = nineOClock := List.mem_singleton.mp hother_bears.1.mem
    exact hother hother_bears.1.weekday

open Campus in
/-- On a Monday it meets together with the other class. -/
theorem scheduleNew_collide :
    ¬ ∀ db, Reached db → db.NoOverlap → ∀ user form (today now : ℤ) pk db',
      (scheduleNew user form today now).run db = (.ok (.added pk), db') →
        db'.ClassAlone pk today := by
  intro h
  have hrun : (scheduleNew 9 (secondClass 0) monday 0).run oneClass =
      (.ok (.added 2), twoClasses 0) := Prod.ext (by decide +kernel) rfl
  have halone := h oneClass (.start rfl) noOverlap_oneClass _ _ _ _ _ _ hrun
  -- the session of the first class on that Monday
  have hcollide : ∃ x ∈ (twoClasses 0).sessions.rows, x.schedule = 1 ∧ x.room = 1 ∧
      x.status.occupying = true ∧ x.roomReleasedAt = none ∧
      overlaps x.scheduledStart x.scheduledEnd (makeAware monday (hour 9))
        (makeAware monday (hour 10)) = true ∧
      (twoClasses 0).effectiveModality x ≠ .online := by
    decide +kernel
  obtain ⟨x, hx, hsched, hroom, hstatus, hunreleased, hover, hmodality⟩ := hcollide
  have hrow : (twoClasses 0).schedules.get? 2 =
      some ⟨2, 1, "CS2", "B", 30, 2, 1, 0, hour 9, hour 10, .f2f, .active⟩ := by decide +kernel
  have hown := halone _ term hrow (by decide +kernel) (by decide) monday le_rfl (by decide) (by decide)
    (by decide +kernel) (.session x) ⟨hx, hroom, hstatus, hunreleased, hover, hmodality⟩
  rw [Occupant.schedule?, hsched] at hown
  cases hown

end FluxTrack
