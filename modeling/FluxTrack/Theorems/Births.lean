import FluxTrack.Ops.Occupants
import FluxTrack.Theorems.Forecast
import FluxTrack.Theorems.SlotDates
import FluxTrack.Theorems.Terms

/-!
# The sessions that a materialization run creates

A run walks over the dates of its window and, on each, over the timetable, and creates the
session of every occurrence that is due and has none. A run that does not raise has missed
none of them. What holds a room after it is what held it before, but for the occurrences that
have become sessions.

## Main definitions

* `runDates` — the window of a run
* `Db.Bears` — the occurrences that a run creates
* `Db.unborn` — the session that an occurrence would be born as
* `Borne`, `BorneAll` — what a run leaves, and what it leaves when it does not raise

## Main results

* `run_materializeOne_eq` — one round, case by case
* `borne_materializeTerm`, `borneAll_of_ok`, `borneAll_of_oneEach` — the runs
* `BorneAll.occupants_iff` — what holds a room after a run
-/

namespace FluxTrack

open Calendar Relational Process

/-- The dates of a run: its window within the term. -/
def runDates (term : AcademicTerm) (start days : ℤ) : List ℤ :=
  dateRange (max start term.startDate) (min (start + days) (term.endDate + 1))

/-- The run creates the session of the occurrence. -/
def Db.Bears (db : Db) (term : AcademicTerm) (start days : ℤ) (allowDraft : Bool)
    (sched : Schedule) (d : ℤ) : Prop :=
  db.Due term sched d ∧ Reaches term start days allowDraft d

/-- The session that the occurrence would be born as, but for its key. -/
def Db.unborn (db : Db) (sched : Schedule) (d now : ℤ) : Session :=
  (sched.session d 0).born (db.bornShift sched.id d) d now

/-- The pairs that a result accounts for. -/
def MaterializationResult.total (r : MaterializationResult) : ℕ :=
  r.created + r.existing + r.skipped

/-- The status in which a run may be asked for. -/
def Writable (term : AcademicTerm) (allowDraft : Bool) : Prop :=
  term.status = .active ∨ term.status = .draft ∧ allowDraft = true

/-! ### The window -/

section

variable {term : AcademicTerm} {start days d : ℤ}

theorem mem_runDates :
    d ∈ runDates term start days ↔
      (start ≤ d ∧ d < start + days) ∧ term.startDate ≤ d ∧ d ≤ term.endDate := by
  rw [runDates, mem_dateRange]
  omega

theorem dateRange_eq_nil {current finish : ℤ} (h : finish ≤ current) :
    dateRange current finish = [] := by
  rw [dateRange, Int.toNat_eq_zero.mpr (by omega)]
  rfl

end

/-! ### One session -/

section

variable {db : Db} {sched : Schedule} {d now : ℤ}

theorem Session.born_eq_unborn (sched : Schedule) (d now : ℤ) (pk : ℕ) (db : Db) :
    (sched.session d pk).born (db.bornShift sched.id d) d now =
      { db.unborn sched d now with id := pk } := by
  -- no branch of a birth reads the key or writes it
  unfold Db.unborn Session.born
  split
  · rfl
  · split
    · rfl
    · split <;> rfl

theorem Db.holds_withId {room : ℕ} {start finish : ℤ} {s : Session} {pk : ℕ} :
    db.Holds room start finish { s with id := pk } ↔ db.Holds room start finish s :=
  ⟨fun h => ⟨h.room, h.status, h.unreleased, h.overlaps, h.inPerson⟩,
    fun h => ⟨h.room, h.status, h.unreleased, h.overlaps, h.inPerson⟩⟩

theorem Db.unborn_occurrence (db : Db) (sched : Schedule) (d now : ℤ) :
    (db.unborn sched d now).schedule = sched.id ∧ (db.unborn sched d now).date = d :=
  Session.occurrence_born _ _ _ _

theorem Db.slotOnDate_unborn (db : Db) (sched : Schedule) (d now : ℤ) :
    (db.unborn sched d now).SlotOnDate :=
  slotOnDate_born _ _ _ _ _

end

/-! ### Rounds -/

section

variable {db : Db}

/-- The one session of an occurrence is found. -/
theorem filter_occurrence_of_materialized (h : db.OneEach) {schedule : ℕ} {d : ℤ}
    (hmat : db.materialized schedule d = true) :
    ∃ a, (db.sessions.rows.filter fun s => s.schedule == schedule && s.date == d) = [a] := by
  have hnodup := db.sessions.rows_nodup.filter fun s => s.schedule == schedule && s.date == d
  have hall : ∀ s ∈ db.sessions.rows.filter (fun s => s.schedule == schedule && s.date == d),
      s ∈ db.sessions ∧ s.schedule = schedule ∧ s.date = d := by
    intro s hs
    obtain ⟨hmem, hsel⟩ := List.mem_filter.mp hs
    simp only [Bool.and_eq_true, beq_iff_eq] at hsel
    exact ⟨hmem, hsel⟩
  -- there is one, and two would be the same row twice
  cases hrows : db.sessions.rows.filter fun s => s.schedule == schedule && s.date == d with
  | nil =>
    obtain ⟨s, hs, hsel⟩ := List.any_eq_true.mp hmat
    exact absurd hsel (List.filter_eq_nil_iff.mp hrows s hs)
  | cons a rest =>
    cases rest with
    | nil => exact ⟨a, rfl⟩
    | cons b rest =>
      rw [hrows] at hnodup hall
      obtain ⟨ha, ha_sched, ha_date⟩ := hall a List.mem_cons_self
      obtain ⟨hb, hb_sched, hb_date⟩ := hall b (List.mem_cons_of_mem _ List.mem_cons_self)
      have hab : a = b :=
        h a ha b hb (ha_sched.trans hb_sched.symm) (ha_date.trans hb_date.symm)
      exact absurd (hab ▸ List.mem_cons_self) (List.nodup_cons.mp hnodup).1

theorem run_getOrCreateSession_of_materialized (h : db.OneEach) {sched : Schedule} {d : ℤ}
    (hmat : db.materialized sched.id d = true) :
    (getOrCreateSession sched d).run db = (.ok none, db) := by
  obtain ⟨a, hrows⟩ := filter_occurrence_of_materialized h hmat
  rw [getOrCreateSession, Prog.run_select_bind, hrows]
  rfl

/-- One round for an occurrence with at most one session. -/
theorem run_materializeOne_eq (h : db.OneEach) (now : ℤ) (excused : ℤ → ℕ → Bool) (d : ℤ)
    (row : ScheduleRow) :
    ∃ notifications, (materializeOne excused now d row).run db =
      if row.schedule.dayOfWeek ≠ weekday d then (.ok ⟨0, 0, 0⟩, db)
      else if excused d row.building = true then (.ok ⟨0, 0, 1⟩, db)
      else if db.materialized row.schedule.id d = true then (.ok ⟨0, 1, 0⟩, db)
      else (.ok ⟨1, 0, 0⟩, db.bear row.schedule d now notifications) := by
  by_cases hday : row.schedule.dayOfWeek = weekday d
  · cases hexcused : excused d row.building with
    | true =>
      refine ⟨[], ?_⟩
      rw [materializeOne, if_neg (not_not.mpr hday), if_pos hexcused, if_neg (not_not.mpr hday),
        if_pos rfl]
      rfl
    | false =>
      cases hmat : db.materialized row.schedule.id d with
      | false =>
        obtain ⟨notifications, hrun⟩ := run_materializeOne_of_due db now hday hexcused hmat
        refine ⟨notifications, ?_⟩
        rw [hrun, if_neg (not_not.mpr hday), if_neg Bool.false_ne_true, if_neg Bool.false_ne_true]
      | true =>
        refine ⟨[], ?_⟩
        rw [materializeOne, if_neg (not_not.mpr hday), if_neg (Bool.eq_false_iff.mp hexcused),
          if_neg (not_not.mpr hday), if_neg Bool.false_ne_true, if_pos rfl,
          Prog.run_bind_of_ok (run_getOrCreateSession_of_materialized h hmat)]
        rfl
  · refine ⟨[], ?_⟩
    rw [materializeOne, if_pos hday, if_pos hday]
    rfl

/-- A round leaves an occurrence with at most one session. -/
theorem run_materializeOne_ok (h : db.OneEach) (now : ℤ) (excused : ℤ → ℕ → Bool) (d : ℤ)
    (row : ScheduleRow) :
    ∃ one db', (materializeOne excused now d row).run db = (.ok one, db') ∧ db'.OneEach ∧
      one.total = if row.schedule.dayOfWeek = weekday d then 1 else 0 := by
  obtain ⟨notifications, hrun⟩ := run_materializeOne_eq h now excused d row
  rw [hrun]
  by_cases hday : row.schedule.dayOfWeek = weekday d
  · rw [if_neg (not_not.mpr hday), if_pos hday]
    split
    · exact ⟨_, _, rfl, h, rfl⟩
    · split
      · exact ⟨_, _, rfl, h, rfl⟩
      · rename_i hmissing
        exact ⟨_, _, rfl, h.bear (Bool.eq_false_iff.mpr hmissing) notifications, rfl⟩
  · rw [if_pos hday, if_neg hday]
    exact ⟨_, _, rfl, h, rfl⟩

/-- Every pair is accounted for. -/
theorem run_materializeLoop_ok (h : db.OneEach) (now : ℤ) (excused : ℤ → ℕ → Bool)
    (rounds : List (ℤ × ScheduleRow)) :
    ∃ result db', (materializeLoop excused now rounds).run db = (.ok result, db') ∧ db'.OneEach ∧
      result.total = rounds.countP fun r => decide (r.2.schedule.dayOfWeek = weekday r.1) := by
  induction rounds generalizing db with
  | nil => exact ⟨_, db, rfl, h, rfl⟩
  | cons round rounds ih =>
    obtain ⟨d, row⟩ := round
    obtain ⟨one, db₁, hone, hunique, hcount⟩ := run_materializeOne_ok h now excused d row
    obtain ⟨more, db₂, hmore, hunique₂, hcounts⟩ := ih hunique
    refine ⟨⟨one.created + more.created, one.existing + more.existing,
      one.skipped + more.skipped⟩, db₂, ?_, hunique₂, ?_⟩
    · rw [materializeLoop, Prog.run_bind_of_ok hone, Prog.run_bind_of_ok hmore]
      rfl
    · rw [List.countP_cons, ← hcounts]
      simp only [MaterializationResult.total, decide_eq_true_eq] at hcount ⊢
      omega

/-- A round that does not raise leaves a session of its occurrence, if that is due. -/
theorem materialized_of_run_one {excused : ℤ → ℕ → Bool} {now d : ℤ} {row : ScheduleRow}
    {one : MaterializationResult} {db' : Db}
    (hrun : (materializeOne excused now d row).run db = (.ok one, db')) :
    (∀ s ∈ db.sessions, s ∈ db'.sessions) ∧
      (row.schedule.dayOfWeek = weekday d → excused d row.building = false →
        db'.materialized row.schedule.id d = true) := by
  -- a round writes a new session or nothing
  have hgrows : ∀ s ∈ db.sessions, s ∈ db'.sessions := by
    rcases run_materializeOne_cases db d now excused row with
      ⟨-, -, -, notifications, hbear⟩ | ⟨r, hsame⟩
    · rw [hbear] at hrun
      cases hrun
      exact fun s hs => Db.mem_sessions_bear.mpr (.inl hs)
    · rw [hsame] at hrun
      cases hrun
      exact fun s hs => hs
  refine ⟨hgrows, fun hday hexcused => ?_⟩
  cases hmat : db.materialized row.schedule.id d with
  | true => exact Db.materialized_mono hgrows hmat
  | false =>
    obtain ⟨notifications, hbear⟩ := run_materializeOne_of_due db now hday hexcused hmat
    rw [hbear] at hrun
    cases hrun
    exact Db.materialized_bear.mpr (.inr ⟨rfl, rfl⟩)

/-- Nor does a loop that does not raise leave out any of its rounds. -/
theorem materialized_of_run_loop {excused : ℤ → ℕ → Bool} {now : ℤ}
    {rounds : List (ℤ × ScheduleRow)} {result : MaterializationResult} {db' : Db}
    (hrun : (materializeLoop excused now rounds).run db = (.ok result, db')) :
    (∀ s ∈ db.sessions, s ∈ db'.sessions) ∧
      ∀ round ∈ rounds, round.2.schedule.dayOfWeek = weekday round.1 →
        excused round.1 round.2.building = false →
          db'.materialized round.2.schedule.id round.1 = true := by
  -- on the rounds: a session that one of them leaves stays to the end
  induction rounds generalizing db result with
  | nil =>
    cases hrun
    exact ⟨fun _ hs => hs, fun _ hr => absurd hr List.not_mem_nil⟩
  | cons round rounds ih =>
    obtain ⟨d, row⟩ := round
    obtain ⟨one, db₁, hone, hrest⟩ := Prog.run_bind_eq_ok hrun
    obtain ⟨more, db₂, hmore, hend⟩ := Prog.run_bind_eq_ok hrest
    cases hend
    obtain ⟨hgrows₁, hmat₁⟩ := materialized_of_run_one hone
    obtain ⟨hgrows₂, hmat₂⟩ := ih hmore
    refine ⟨fun s hs => hgrows₂ s (hgrows₁ s hs), fun r hr hday hexcused => ?_⟩
    rcases List.mem_cons.mp hr with rfl | hr
    · exact Db.materialized_mono hgrows₂ (hmat₁ hday hexcused)
    · exact hmat₂ r hr hday hexcused

end

/-! ### A run -/

section

variable {db db' : Db} {term : AcademicTerm} {start days now : ℤ} {allowDraft : Bool}

/-- A run that is let through is the loop over its window. -/
theorem run_materializeTerm_of_writable (hterm : Writable term allowDraft) (hdays : 1 ≤ days)
    (now : ℤ) (db : Db) :
    (materializeTerm term start days allowDraft now).run db =
      (materializeLoop (db.excused term.id) now
        (materializeRounds (runDates term start days) (db.scheduleRows term.id))).run db := by
  have hvalid : (validateTerm term allowDraft).run db = (.ok (), db) := by
    unfold validateTerm
    rcases hterm with hactive | ⟨hdraft, hallow⟩
    · rw [hactive]
      rfl
    · rw [hdraft, hallow]
      rfl
  rw [materializeTerm, Prog.run_bind_of_ok hvalid, if_neg (by omega)]
  dsimp only
  split
  · rename_i hempty
    rw [runDates, dateRange_eq_nil hempty]
    rfl
  · rfl

/-- What a run leaves: the sessions it finds, and new ones of occurrences it had to create,
in a database that is otherwise the same but for notes. -/
structure Borne (db : Db) (term : AcademicTerm) (start days : ℤ) (allowDraft : Bool) (now : ℤ)
    (db' : Db) : Prop where
  rest : ∃ sessions audit notifications, db' = { db with
    sessions := sessions, audit := audit, notifications := notifications }
  old : ∀ s ∈ db.sessions, s ∈ db'.sessions
  sessions : ∀ x ∈ db'.sessions, x ∈ db.sessions ∨ (∀ s ∈ db.sessions, s.id ≠ x.id) ∧
    ∃ sched d, db.Bears term start days allowDraft sched d ∧
      x = { db.unborn sched d now with id := x.id }

/-- What a session that is born takes from its occurrence. -/
theorem fields_of_eq_unborn {sched : Schedule} {d : ℤ} {x : Session}
    (heq : x = { db.unborn sched d now with id := x.id }) :
    x.schedule = sched.id ∧ x.date = d ∧ x.room = (db.unborn sched d now).room ∧
      x.scheduledStart = (db.unborn sched d now).scheduledStart ∧
      x.scheduledEnd = (db.unborn sched d now).scheduledEnd := by
  obtain ⟨hsched, hdate⟩ := db.unborn_occurrence sched d now
  exact ⟨(congrArg Session.schedule heq).trans hsched, (congrArg Session.date heq).trans hdate,
    by rw [heq], by rw [heq], by rw [heq]⟩

theorem Borne.bear {db₁ : Db} (h : Borne db term start days allowDraft now db₁) {sched : Schedule}
    {d : ℤ} (hdue : db₁.Due term sched d) (hreach : Reaches term start days allowDraft d)
    (notifications : List Notification) :
    Borne db term start days allowDraft now (db₁.bear sched d now notifications) := by
  have hold := h.old
  have hmissing : db.materialized sched.id d = false := by
    refine Bool.eq_false_iff.mpr fun hmat => ?_
    obtain ⟨s, hs, hsel⟩ := List.any_eq_true.mp hmat
    exact Bool.eq_false_iff.mp hdue.missing (List.any_eq_true.mpr ⟨s, hold s hs, hsel⟩)
  refine ⟨?_, fun s hs => Db.mem_sessions_bear.mpr (.inl (hold s hs)), fun x hx => ?_⟩
  · obtain ⟨sessions, audit, notifications, rfl⟩ := h.rest
    exact ⟨_, _, _, rfl⟩
  · rcases Db.mem_sessions_bear.mp hx with hx | rfl
    · exact h.sessions x hx
    · right
      have hkey : ((sched.session d db₁.sessions.nextKey).born (db₁.bornShift sched.id d) d now).id =
          db₁.sessions.nextKey := Session.key_born _ _ _ _
      refine ⟨fun s hs => ?_, sched, d, ⟨?_, hreach⟩, ?_⟩
      · rw [hkey]
        exact (Table.key_lt_nextKey (hold s hs)).ne
      · obtain ⟨sessions, audit, notifications, rfl⟩ := h.rest
        exact ⟨hdue.mem, hdue.inTerm, hdue.active, hdue.dates, hdue.weekday, hdue.notExcused,
          hmissing⟩
      · rw [hkey, Session.born_eq_unborn]
        obtain ⟨sessions, audit, notifications, rfl⟩ := h.rest
        rfl

theorem borne_materializeTerm (db : Db) (term : AcademicTerm) (start days : ℤ) (allowDraft : Bool)
    (now : ℤ) :
    Borne db term start days allowDraft now
      ((materializeTerm term start days allowDraft now).run db).2 :=
  materializeTerm_invariant_of_reaches
    (fun _ _ _ notifications h hdue hreach => h.bear hdue hreach notifications)
    ⟨⟨_, _, _, rfl⟩, fun _ hs => hs, fun _ hx => .inl hx⟩

/-- What a run leaves that has created all the sessions it had to. -/
structure BorneAll (db : Db) (term : AcademicTerm) (start days : ℤ) (allowDraft : Bool) (now : ℤ)
    (db' : Db) : Prop extends Borne db term start days allowDraft now db' where
  all : ∀ sched d, db.Bears term start days allowDraft sched d →
    db'.materialized sched.id d = true

/-- A run that does not raise. -/
theorem borneAll_of_ok {result : MaterializationResult}
    (hrun : (materializeTerm term start days allowDraft now).run db = (.ok result, db')) :
    BorneAll db term start days allowDraft now db' := by
  have hborne := borne_materializeTerm db term start days allowDraft now
  rw [hrun] at hborne
  refine ⟨hborne, fun sched d hbears => ?_⟩
  obtain ⟨hdue, hterm, hlo, hhi⟩ := hbears
  have hrow : (⟨sched, db.buildingOf sched.room⟩ : ScheduleRow) ∈ db.scheduleRows term.id := by
    refine List.mem_map.mpr ⟨sched, List.mem_filter.mpr ⟨hdue.mem, ?_⟩, rfl⟩
    rw [hdue.inTerm, hdue.active, beq_self_eq_true]
    rfl
  -- the occurrence is among the rounds of the loop
  rw [run_materializeTerm_of_writable hterm (by omega)] at hrun
  exact (materialized_of_run_loop hrun).2 (d, ⟨sched, db.buildingOf sched.room⟩)
    (List.mem_flatMap.mpr ⟨d, mem_runDates.mpr ⟨⟨hlo, hhi⟩, hdue.dates⟩, List.mem_map_of_mem hrow⟩)
    hdue.weekday hdue.notExcused

/-- Where each occurrence has at most one session, a run that has something to create does not
raise. -/
theorem borneAll_of_oneEach (h : db.OneEach) (term : AcademicTerm) (start days : ℤ)
    (allowDraft : Bool) (now : ℤ) :
    BorneAll db term start days allowDraft now
      ((materializeTerm term start days allowDraft now).run db).2 := by
  refine ⟨borne_materializeTerm db term start days allowDraft now, fun sched d hbears => ?_⟩
  obtain ⟨-, hterm, hlo, hhi⟩ := id hbears
  obtain ⟨result, db', hrun, -⟩ := run_materializeLoop_ok h now (db.excused term.id)
    (materializeRounds (runDates term start days) (db.scheduleRows term.id))
  have hok : (materializeTerm term start days allowDraft now).run db = (.ok result, db') := by
    rw [run_materializeTerm_of_writable hterm (by omega), hrun]
  rw [hok]
  exact (borneAll_of_ok hok).all sched d hbears

/-- Each occurrence that a run had to create has its session, and that is new. -/
theorem BorneAll.exists_born (h : BorneAll db term start days allowDraft now db')
    {sched : Schedule} {d : ℤ} (hbears : db.Bears term start days allowDraft sched d) :
    ∃ x ∈ db'.sessions,
      (∀ s ∈ db.sessions, s.id ≠ x.id) ∧ x = { db.unborn sched d now with id := x.id } := by
  obtain ⟨x, hx, hsel⟩ := List.any_eq_true.mp (h.all sched d hbears)
  simp only [Bool.and_eq_true, beq_iff_eq] at hsel
  obtain ⟨hx_sched, hx_date⟩ := hsel
  -- what was there before is no session of an occurrence that was missing
  rcases h.sessions x hx with hold | ⟨hnew, sched', d', hbears', heq⟩
  · refine absurd (List.any_eq_true.mpr ⟨x, hold, ?_⟩) (Bool.eq_false_iff.mp hbears.1.missing)
    rw [hx_sched, hx_date, beq_self_eq_true, beq_self_eq_true]
    rfl
  · obtain ⟨hsched', hdate', -⟩ := fields_of_eq_unborn heq
    obtain rfl : d' = d := hdate'.symm.trans hx_date
    obtain rfl : sched' = sched :=
      Table.eq_of_key_eq hbears'.1.mem hbears.1.mem (hsched'.symm.trans hx_sched)
    exact ⟨x, hx, hnew, heq⟩

end

/-! ### Who holds a room afterwards -/

section

variable {db db' : Db} {term : AcademicTerm} {start days now : ℤ} {allowDraft : Bool} {room : ℕ}
variable {s e : ℤ}

theorem Borne.holds_iff (h : Borne db term start days allowDraft now db') {x : Session} :
    db'.Holds room s e x ↔ db.Holds room s e x := by
  obtain ⟨sessions, audit, notifications, rfl⟩ := h.rest
  exact ⟨fun h => ⟨h.room, h.status, h.unreleased, h.overlaps, h.inPerson⟩,
    fun h => ⟨h.room, h.status, h.unreleased, h.overlaps, h.inPerson⟩⟩

theorem Borne.booking_iff (h : Borne db term start days allowDraft now db') {b : Booking} :
    db'.Occupies room s e (.booking b) ↔ db.Occupies room s e (.booking b) := by
  obtain ⟨sessions, audit, notifications, rfl⟩ := h.rest
  exact Iff.rfl

theorem Borne.reservation_iff (h : Borne db term start days allowDraft now db') {sh : Shift} :
    db'.Occupies room s e (.reservation sh) ↔ db.Occupies room s e (.reservation sh) := by
  obtain ⟨sessions, audit, notifications, rfl⟩ := h.rest
  exact ⟨fun h => ⟨h.approved, h.room, h.weekday, h.inPerson, h.overlaps⟩,
    fun h => ⟨h.approved, h.room, h.weekday, h.inPerson, h.overlaps⟩⟩

/-- An occurrence is still forecast if it is still missing. -/
theorem Borne.occurrence_iff (h : Borne db term start days allowDraft now db') {sched : Schedule} :
    db'.Occupies room s e (.occurrence sched) ↔
      db.Occupies room s e (.occurrence sched) ∧ db'.materialized sched.id (localDate s) = false := by
  have hold := h.old
  obtain ⟨sessions, audit, notifications, rfl⟩ := h.rest
  constructor
  · rintro ⟨hmem, hroom, hmeets, hmissing, hexcused, hown, hover⟩
    refine ⟨⟨hmem, hroom, hmeets, Bool.eq_false_iff.mpr fun hmat => ?_, hexcused, hown, hover⟩,
      hmissing⟩
    obtain ⟨a, ha, hsel⟩ := List.any_eq_true.mp hmat
    exact Bool.eq_false_iff.mp hmissing (List.any_eq_true.mpr ⟨a, hold a ha, hsel⟩)
  · rintro ⟨⟨hmem, hroom, hmeets, -, hexcused, hown, hover⟩, hmissing⟩
    exact ⟨hmem, hroom, hmeets, hmissing, hexcused, hown, hover⟩

/-- An occurrence that had no session, and has one now, is one that the run created. -/
theorem Borne.bears_of_materialized (h : Borne db term start days allowDraft now db')
    {sched : Schedule} {d : ℤ} (hmem : sched ∈ db.schedules)
    (hbefore : db.materialized sched.id d = false) (hafter : db'.materialized sched.id d = true) :
    db.Bears term start days allowDraft sched d := by
  obtain ⟨x, hx, hsel⟩ := List.any_eq_true.mp hafter
  rcases h.sessions x hx with hold | ⟨-, sched', d', hbears, heq⟩
  · exact absurd (List.any_eq_true.mpr ⟨x, hold, hsel⟩) (Bool.eq_false_iff.mp hbefore)
  · simp only [Bool.and_eq_true, beq_iff_eq] at hsel
    obtain ⟨hsched, hdate, -⟩ := fields_of_eq_unborn heq
    obtain rfl : d' = d := hdate.symm.trans hsel.2
    obtain rfl : sched' = sched :=
      Table.eq_of_key_eq hbears.1.mem hmem (hsched.symm.trans hsel.1)
    exact hbears

/-- A session that is born holds rooms on the date of its occurrence only. -/
theorem date_eq_of_holds_unborn {sched : Schedule} {d d' : ℤ} {t t' : TimeOfDay}
    (h : db.Holds room (makeAware d t) (makeAware d t') (db.unborn sched d' now)) : d' = d := by
  obtain ⟨u, u', hstart, hend⟩ := db.slotOnDate_unborn sched d' now
  have hover := h.overlaps
  rw [hstart, hend, (db.unborn_occurrence sched d' now).2] at hover
  exact manila.date_eq_of_overlaps_combine hover

/-- What occupies a room after a run, at a slot of a date: what occupied it before, but for
the occurrences that the run has created, and the sessions that these were born as. -/
theorem BorneAll.occupants_iff (h : BorneAll db term start days allowDraft now db') {d : ℤ}
    {t t' : TimeOfDay} {P : Occupant → Prop} :
    (∀ o, db'.Occupies room (makeAware d t) (makeAware d t') o → P o) ↔
      (∀ o, db.Occupies room (makeAware d t) (makeAware d t') o →
        P o ∨ ∃ other, o = .occurrence other ∧ db.Bears term start days allowDraft other d) ∧
      ∀ other, db.Bears term start days allowDraft other d →
        db.Holds room (makeAware d t) (makeAware d t') (db.unborn other d now) →
        ∀ x ∈ db'.sessions, (∀ s ∈ db.sessions, s.id ≠ x.id) →
          x = { db.unborn other d now with id := x.id } → P (.session x) := by
  have hdate : localDate (makeAware d t) = d := manila.localDate_combine
  constructor
  · intro hall
    refine ⟨fun o ho => ?_, fun other _ hholds x hx _ heq => hall (.session x) ⟨hx, ?_⟩⟩
    · -- sessions, bookings and reservations stay; an occurrence that stays was not created
      cases o with
      | session x => exact .inl (hall _ ⟨h.old x ho.1, h.holds_iff.mpr ho.2⟩)
      | booking b => exact .inl (hall _ (h.booking_iff.mpr ho))
      | occurrence other =>
        by_cases hother : db.Bears term start days allowDraft other d
        · exact .inr ⟨other, rfl, hother⟩
        · refine .inl (hall _ (h.occurrence_iff.mpr ⟨ho, Bool.eq_false_iff.mpr fun hmat => ?_⟩))
          refine hother (h.bears_of_materialized ho.1 ?_ ?_)
          · exact hdate ▸ ho.2.missing
          · exact hdate ▸ hmat
      | reservation sh => exact .inl (hall _ (h.reservation_iff.mpr ho))
    · rw [h.holds_iff, heq]
      exact Db.holds_withId.mpr hholds
  · rintro ⟨hbefore, hbirths⟩ o ho
    cases o with
    | session x =>
      obtain ⟨hx, hholds⟩ := ho
      have hholds := h.holds_iff.mp hholds
      rcases h.sessions x hx with hold | ⟨hnew, other, d', hother, heq⟩
      · rcases hbefore (.session x) ⟨hold, hholds⟩ with hP | ⟨_, hno, -⟩
        · exact hP
        · cases hno
      · -- it was born on the date of the slot
        rw [heq, Db.holds_withId] at hholds
        obtain rfl : d' = d := date_eq_of_holds_unborn hholds
        exact hbirths other hother hholds x hx hnew heq
    | booking b =>
      rcases hbefore _ (h.booking_iff.mp ho) with hP | ⟨_, hno, -⟩
      · exact hP
      · cases hno
    | occurrence other =>
      obtain ⟨hoccupies, hmissing⟩ := h.occurrence_iff.mp ho
      rcases hbefore _ hoccupies with hP | ⟨_, hsame, hother⟩
      · exact hP
      · -- the run has created the occurrence, so that it is not missing
        cases hsame
        rw [hdate, h.all _ _ hother] at hmissing
        cases hmissing
    | reservation sh =>
      rcases hbefore _ (h.reservation_iff.mp ho) with hP | ⟨_, hno, -⟩
      · exact hP
      · cases hno

end

end FluxTrack
