import FluxTrack.Theorems.OpenRequests
import FluxTrack.Theorems.SlotDates
import FluxTrack.Web.ModalityShifts
import FluxTrack.Web.Schedules

/-!
# The lengths of sessions

A session gets its times from its schedule, from an edit of the schedule or from the item of a
shift request. An edit is refused where the end is not after the start; the alternative times of
a request are taken as they are posted, stored in its items, and written by the approval and by
later births. With every posted pair in order, every session has a positive length on its date.

## Main definitions

* `Session.WellTimed`, `Db.WellTimed` — the invariant
* `SlotCall` — the calls that write times
* `SlotCall.Forward` — what the form does not ask for

## Main results

* `wellTimed_run` — sessions keep positive lengths in a run of forward calls
* `lesson_backwards` — a run that leaves a class ending before it starts
-/

namespace FluxTrack

open Calendar Relational Process

/-- The session has a positive length and lies on its date. -/
structure Session.WellTimed (s : Session) : Prop where
  forward : s.scheduledStart < s.scheduledEnd
  startsOn : localDate s.scheduledStart = s.date
  endsOn : localDate s.scheduledEnd = s.date

/-- If the item moves a class, the new end is after the new start. -/
def ModalityShiftItem.Forward (i : ModalityShiftItem) : Prop :=
  ∀ st et, i.newStartTime = some st → i.newEndTime = some et → st.ticks < et.ticks

/-- Everything that times are made of runs forward. -/
structure Db.WellTimed (db : Db) : Prop where
  schedules : ∀ c ∈ db.schedules, c.startTime.ticks < c.endTime.ticks
  items : ∀ i ∈ db.items, i.Forward
  sessions : ∀ s ∈ db.sessions, s.WellTimed

/-! ### One session -/

section

variable {s : Session}

/-- A session made of two wall clock readings of its date, the second later. -/
theorem Session.wellTimed_of_readings {st et : TimeOfDay} (hlt : st.ticks < et.ticks)
    (hstart : s.scheduledStart = makeAware s.date st)
    (hend : s.scheduledEnd = makeAware s.date et) : s.WellTimed where
  forward := by
    rw [hstart, hend]
    simp only [makeAware, Zone.combine]
    omega
  startsOn := by rw [hstart, makeAware, localDate, Zone.localDate_combine]
  endsOn := by rw [hend, makeAware, localDate, Zone.localDate_combine]

theorem Session.WellTimed.of_times {t : Session} (h : s.WellTimed) (heq : t.times = s.times) :
    t.WellTimed := by
  simp only [Session.times, Prod.mk.injEq] at heq
  obtain ⟨-, hdate, hstart, hend⟩ := heq
  refine ⟨?_, ?_, ?_⟩
  · rw [hstart, hend]
    exact h.forward
  · rw [hstart, hdate]
    exact h.startsOn
  · rw [hend, hdate]
    exact h.endsOn

/-- A moved session keeps a positive length if its item runs forward. -/
theorem Session.WellTimed.place (h : s.WellTimed) {i : ModalityShiftItem} (hi : i.Forward)
    (room : ℕ) : (s.place room (i.movedSlot s.date)).WellTimed := by
  unfold ModalityShiftItem.movedSlot
  split
  · rename_i st et hst het
    exact Session.wellTimed_of_readings (hi st et hst het) rfl rfl
  · exact ⟨h.forward, h.startsOn, h.endsOn⟩

/-- A session is born with a positive length if its schedule and its item run forward. -/
theorem wellTimed_born {sched : Schedule} (hsched : sched.startTime.ticks < sched.endTime.ticks)
    {shift : Option Shift} (hshift : ∀ sh, shift = some sh → sh.item.Forward) (d now : ℤ) (pk : ℕ) :
    ((sched.session d pk).born shift d now).WellTimed := by
  have hnew : (sched.session d pk).WellTimed := Session.wellTimed_of_readings hsched rfl rfl
  unfold Session.born
  split
  · exact hnew
  · rename_i item request
    split
    · exact ⟨hnew.forward, hnew.startsOn, hnew.endsOn⟩
    · split
      · exact ⟨hnew.forward, hnew.startsOn, hnew.endsOn⟩
      · rename_i room _
        obtain ⟨hforward, hstarts, hends⟩ := hnew.place (hshift _ rfl) room
        exact ⟨hforward, hstarts, hends⟩

end

/-! ### Asking for a shift -/

/-- A change that at most enters items with the times `time`. -/
structure Enters (time : Option (TimeOfDay × TimeOfDay)) (db db' : Db) : Prop where
  schedules : db'.schedules = db.schedules
  sessions : db'.sessions = db.sessions
  items : ∀ i ∈ db'.items, i ∈ db.items ∨
    i.newStartTime = time.map Prod.fst ∧ i.newEndTime = time.map Prod.snd

namespace Enters

variable {time : Option (TimeOfDay × TimeOfDay)} {db db' : Db}

theorem kind : Prog.Kind (Enters time) where
  refl _ := ⟨rfl, rfl, fun _ hi => .inl hi⟩
  trans _ _ _ h h' := ⟨h'.schedules.trans h.schedules, h'.sessions.trans h.sessions,
    fun i hi => (h'.items i hi).elim (h.items i) .inr⟩

theorem frame (hschedules : db'.schedules = db.schedules) (hsessions : db'.sessions = db.sessions)
    (hitems : db'.items = db.items) : Enters time db db' :=
  ⟨hschedules, hsessions, fun _ hi => .inl (hitems ▸ hi)⟩

theorem lockWritableTerm (term : ℕ) : (lockWritableTerm term).Makes (Enters time) := by
  intro db
  cases hterm : db.terms.table.get? term with
  | none =>
    rw [FluxTrack.lockWritableTerm, Prog.run_bind_of_error (run_lockTerm_of_none hterm)]
    exact kind.refl db
  | some t =>
    rw [FluxTrack.lockWritableTerm, Prog.run_bind_of_ok (run_lockTerm_of_get? hterm)]
    split <;> exact kind.refl db

theorem createRequest (pk : ℕ) (faculty : User) (dean : ℕ) (target : Modality) (a b : ℤ)
    (isMove : Bool) :
    (createRequest pk faculty dean target a b isMove).Makes (Enters time) := by
  refine Prog.makes_modifyGet_bind kind (fun _ => frame rfl rfl rfl) fun fresh => ?_
  split
  · exact Prog.makes_pure kind _
  · exact Prog.makes_raise kind _

theorem insertItem (request : ℕ) (preferred : List (ℕ × Option ℕ)) (sched : Schedule) :
    Enters time db (db.insertItem request preferred time sched) := by
  unfold Db.insertItem
  split
  · refine ⟨rfl, rfl, fun i hi => ?_⟩
    rcases Table.mem_insert.mp hi with hi | rfl
    · exact .inl hi
    · exact .inr ⟨rfl, rfl⟩
  · exact kind.refl db

theorem createItem (request : ℕ) (preferred : List (ℕ × Option ℕ)) (sched : Schedule) :
    (createItem request preferred time sched).Makes (Enters time) := by
  refine Prog.makes_modifyGet_bind kind (fun _ => insertItem request preferred sched)
    fun linked => ?_
  split
  · exact Prog.makes_pure kind _
  · exact Prog.makes_raise kind _

theorem writeRequest (pk : ℕ) (faculty : User) (schedules : List Schedule) (term : ℕ)
    (target : Modality) (a b : ℤ) (dean : ℕ) (preferred : List (ℕ × Option ℕ)) :
    (writeRequest pk faculty schedules term target a b time dean preferred).Makes
      (Enters time) := by
  refine .atomic kind (.bind kind (lockWritableTerm term) fun _ =>
    .bind kind (createRequest pk faculty dean target a b time.isSome) fun _ =>
      .bind kind (fun db => kind.forEach fun sched _ t _ => ?_) fun _ db => ?_)
  · exact createItem pk preferred sched t
  · exact frame rfl rfl rfl

theorem submitModalityShift (pk : ℕ) (faculty : User) (schedules : List Schedule)
    (target : Option Modality) (a b : ℤ) (preferred : ℕ → Option ℕ) (now : ℤ) :
    (submitModalityShift pk faculty schedules target a b preferred time now).Makes
      (Enters time) := by
  intro db
  rcases run_submitModalityShift_cases db pk faculty schedules target a b preferred time now with
    ⟨e, hrun⟩ | ⟨term, target', dean, rooms, -, hrun⟩ <;> rw [hrun]
  · exact kind.refl db
  · exact writeRequest pk faculty schedules term target' a b dean rooms db

/-- Times that run forward leave everything running forward. -/
theorem wellTimed (h : Enters time db db') (hdb : db.WellTimed)
    (htime : ∀ t, time = some t → t.1.ticks < t.2.ticks) : db'.WellTimed where
  schedules := h.schedules ▸ hdb.schedules
  sessions := h.sessions ▸ hdb.sessions
  items i hi := by
    rcases h.items i hi with hi | ⟨hstart, hend⟩
    · exact hdb.items i hi
    · intro st et hst het
      cases time with
      | none => cases hstart.symm.trans hst
      | some t =>
        cases hstart.symm.trans hst
        cases hend.symm.trans het
        exact htime t rfl

end Enters

/-! ### The services that write times -/

section

variable {db : Db}

theorem item_mem_of_bornShift {schedule : ℕ} {d : ℤ} {sh : Shift}
    (h : db.bornShift schedule d = some sh) : sh.item ∈ db.items := by
  have hmem := (List.mem_insertionSort _).mp (List.mem_of_head? h)
  exact (Db.mem_approvedOn.mp (List.mem_filter.mp hmem).1).1

theorem wellTimed_materializeTerm (h : db.WellTimed) (term : AcademicTerm) (start days : ℤ)
    (allowDraft : Bool) (now : ℤ) :
    ((materializeTerm term start days allowDraft now).run db).2.WellTimed := by
  refine materializeTerm_invariant (fun db sched d notifications hdb hdue => ?_) h start days
    allowDraft
  refine ⟨hdb.schedules, hdb.items, fun s hs => ?_⟩
  rcases Db.mem_sessions_bear.mp hs with hs | rfl
  · exact hdb.sessions s hs
  · exact wellTimed_born (hdb.schedules sched hdue.mem)
      (fun sh hsh => hdb.items _ (item_mem_of_bornShift hsh)) _ _ _

/-- The rule for room shifts, with items that run forward. -/
theorem shiftRule_wellTimed (req : ModalityShiftRequest) (dean : ℕ) (now : ℤ) {db₀ : Db}
    (h₀ : db₀.WellTimed) :
    ShiftRule req dean now db₀ (fun _ => True)
      fun _ _ db => SameOccurrences db₀ db ∧ db.WellTimed where
  same h := h.1
  place {_ _ db item s room} h hitem hs _ _ _ _ := by
    refine ⟨h.1.update (f := req.shift dean now room (item.movedSlot s.date))
      (Session.key_declare_place _ _ _ _ _) (fun _ => rfl) rfl, h.2.schedules, h.2.items,
      fun a ha => ?_⟩
    have hforward : item.Forward := h₀.items item (List.mem_filter.mp hitem).1
    rcases mem_update_self (Session.key_declare_place _ _ _ _ _) hs ha with rfl | ⟨ha, -⟩
    · exact ((h.2.sessions s hs).place hforward room).of_times rfl
    · exact h.2.sessions a ha
  assign {_ _ db item room} h _ _ := by
    refine ⟨fun pk => h.1 pk, h.2.schedules, fun i hi => ?_, h.2.sessions⟩
    have hkey : ∀ a : ModalityShiftItem, key { a with assignedRoom := some room } = key a :=
      fun _ => rfl
    obtain ⟨a, ha, rfl⟩ := (Table.mem_update_iff hkey).mp hi
    have hforward : a.Forward := h.2.items a ha
    split <;> exact hforward

theorem wellTimed_applyApproval (h : db.WellTimed) (request : ℕ) (dean : User) (now : ℤ) :
    ((applyApproval request dean now).run db).2.WellTimed := by
  rcases run_applyApproval_cases request dean now db with
    ⟨e, hrun⟩ | ⟨req, -, -, ⟨reason, hrun⟩ | ⟨db₁, notifications, hshift, hrun⟩⟩ <;> rw [hrun]
  · exact h
  · exact ⟨h.schedules, h.items, h.sessions⟩
  · unfold applyShift at hshift
    split at hshift
    · -- a shift to online leaves the times alone
      obtain ⟨sessions, audit, honline, hkeeps⟩ :=
        run_applyOnline (db.affectedSessions req) dean.id now db
      cases hshift.symm.trans honline
      refine ⟨h.schedules, h.items, fun s' hs' => ?_⟩
      obtain ⟨s, hs, -, htimes⟩ := hkeeps s' hs'
      exact (h.sessions s hs).of_times htimes
    · obtain ⟨done, placed, ⟨-, hwell⟩, -⟩ :=
        applyF2f_rule (shiftRule_wellTimed req dean.id now h) ⟨fun _ => rfl, h⟩
          (fun _ _ _ _ => trivial) hshift
      exact ⟨hwell.schedules, hwell.items, hwell.sessions⟩

/-- An edit that gives a start and an end after it. -/
theorem wellTimed_updateSchedule (h : db.WellTimed) {e : ScheduleEdit} {st et : TimeOfDay}
    (hstart : e.startTime = some st) (hend : e.endTime = some et) (hlt : st.ticks < et.ticks)
    (schedule : ℕ) (actor : Option ℕ) (today : ℤ) :
    ((updateSchedule schedule e actor today).run db).2.WellTimed := by
  rcases run_updateSchedule_cases db schedule e actor today with
    ⟨err, hrun⟩ | ⟨sched, -, -, -, -, -, -, hrun⟩ <;> rw [hrun]
  · exact h
  have hedit : (sched.edit e).startTime.ticks < (sched.edit e).endTime.ticks := by
    rw [Schedule.edit, hstart, hend]
    exact hlt
  refine ⟨fun c hc => ?_, h.items, fun s hs => ?_⟩
  · obtain ⟨a, ha, rfl⟩ := (Table.mem_update_iff (Schedule.key_assign _)).mp hc
    split
    · exact hedit
    · exact h.schedules a ha
  · obtain ⟨a, ha, rfl⟩ := mem_sessions_edited.mp hs
    split
    · exact Session.wellTimed_of_readings hedit rfl rfl
    · exact h.sessions a ha

end

/-! ### Runs -/

/-- The calls that write times: a post of the form for shifts, an approval, a materialization
and a post of the form for an edit. -/
inductive SlotCall
  | ask (pk : ℕ) (user : User) (form : ShiftForm) (readAt now : ℤ)
  | approve (request : ℕ) (dean : User) (now : ℤ)
  | materialize (term : AcademicTerm) (start days : ℤ) (allowDraft : Bool) (now : ℤ)
  | edit (user pk : ℕ) (form : ScheduleForm) (today : ℤ)

namespace SlotCall

/-- The database that a call leaves. -/
def step (db : Db) : SlotCall → Db
  | ask pk user form readAt now => ((modalityNew pk user form readAt now).run db).2
  | approve request dean now => ((applyApproval request dean now).run db).2
  | materialize term start days allowDraft now =>
    ((materializeTerm term start days allowDraft now).run db).2
  | edit user pk form today => ((scheduleEdit user pk form today).run db).2

/-- If alternative times are posted, the end is after the start. -/
def Forward : SlotCall → Prop
  | ask _ _ form _ _ => ∀ st et, form.newStartTime = .value st → form.newEndTime = .value et →
    st.ticks < et.ticks
  | _ => True

end SlotCall

theorem wellTimed_step {db : Db} (h : db.WellTimed) {c : SlotCall} (hc : c.Forward) :
    (c.step db).WellTimed := by
  cases c with
  | ask pk user form readAt now =>
    rcases snd_run_modalityNew_cases pk user form readAt now db with
      hsame | ⟨fields, hcheck, hsubmit⟩
    · rw [SlotCall.step, hsame]
      exact h
    · rw [SlotCall.step, hsubmit]
      refine (Enters.submitModalityShift _ _ _ _ _ _ _ _ db).wellTimed h fun t ht => ?_
      obtain ⟨hst, het⟩ := times_of_check hcheck ht
      exact hc t.1 t.2 hst het
  | approve request dean now => exact wellTimed_applyApproval h request dean now
  | materialize term start days allowDraft now =>
    exact wellTimed_materializeTerm h term start days allowDraft now
  | edit user pk form today =>
    rcases snd_run_scheduleEdit_cases user pk form today db with
      hsame | ⟨sched, edit, enrolled, hcheck, hedit⟩
    · rw [SlotCall.step, hsame]
      exact h
    · rw [SlotCall.step, hedit]
      obtain ⟨st, et, hst, het, hlt⟩ := Db.checkEdit_eq_ok hcheck enrolled
      exact wellTimed_updateSchedule h hst het hlt sched (some user) today

/-- What a run of forward calls leaves runs forward. -/
theorem wellTimed_foldl {db : Db} (h : db.WellTimed) {calls : List SlotCall}
    (hcalls : ∀ c ∈ calls, c.Forward) : (calls.foldl SlotCall.step db).WellTimed := by
  induction calls generalizing db with
  | nil => exact h
  | cons c calls ih =>
    rw [List.forall_mem_cons] at hcalls
    exact ih (wellTimed_step h hcalls.1) hcalls.2

/-- In a run in which every posted pair of alternative times is in order, every session keeps a
positive length on its date. -/
theorem wellTimed_run {db : Db} (h : db.WellTimed) {calls : List SlotCall}
    (hcalls : ∀ c ∈ calls, c.Forward) :
    ∀ s ∈ (calls.foldl SlotCall.step db).sessions,
      s.scheduledStart < s.scheduledEnd ∧
        localDate s.scheduledStart = s.date ∧ localDate s.scheduledEnd = s.date := by
  intro s hs
  obtain ⟨hforward, hstarts, hends⟩ := (wellTimed_foldl h hcalls).sessions s hs
  exact ⟨hforward, hstarts, hends⟩

namespace Campus

/-- The timetable with the teacher and the dean, before any session. -/
def staffedTimetable : Db := { timetable with users := deaned.users }

/-- The teacher asks to hold the nine o'clock class of that Monday from `st` to `et`. -/
def askFor (st et : ℕ) : SlotCall :=
  .ask 1 teacher
    ⟨some .f2f, [("1", .value 1)], .single (.value monday), .value (hour st), .value (hour et),
      fun _ => .blank⟩
    (wallClock (monday - 10) 9 0 0) (wallClock (monday - 10) 9 0 0)

/-- The sessions are made, the teacher asks, and the dean approves. -/
def askedAndMoved (st et : ℕ) : List SlotCall :=
  [.materialize term monday 1 false 0, askFor st et,
    .approve 1 dean (wallClock (monday - 9) 9 0 0)]

theorem wellTimed_staffedTimetable : staffedTimetable.WellTimed where
  schedules := by
    have hall : ∀ c ∈ staffedTimetable.schedules.rows, c.startTime.ticks < c.endTime.ticks := by
      decide
    exact hall
  items _ hi := absurd hi List.not_mem_nil
  sessions _ hs := absurd hs List.not_mem_nil

end Campus

open Campus in
/-- The class moved to the hour from one to two. -/
theorem wellTimed_run_afternoon :
    ∃ s ∈ ((askedAndMoved 13 14).foldl SlotCall.step staffedTimetable).sessions,
      s.scheduledStart = wallClock monday 13 0 0 ∧ s.scheduledStart < s.scheduledEnd ∧
        localDate s.scheduledStart = s.date ∧ localDate s.scheduledEnd = s.date := by
  have hforward : ∀ c ∈ askedAndMoved 13 14, c.Forward := by
    intro c hc
    simp only [askedAndMoved, List.mem_cons, List.not_mem_nil, or_false] at hc
    obtain rfl | rfl | rfl := hc
    · trivial
    · intro st et hst het
      cases hst
      cases het
      decide
    · trivial
  have hone : (((askedAndMoved 13 14).foldl SlotCall.step staffedTimetable).sessions.get? 1).map
      (fun s => decide (s.scheduledStart = wallClock monday 13 0 0)) = some true := by
    decide +kernel
  obtain ⟨s, hs, hstart⟩ := Option.map_eq_some_iff.mp hone
  obtain ⟨hmem, -⟩ := Table.get?_eq_some_iff.mp hs
  exact ⟨s, hmem, of_decide_eq_true hstart,
    wellTimed_run wellTimed_staffedTimetable hforward s hmem⟩

open Campus in
/-- The form takes two o'clock to one o'clock, and the approval writes it. -/
theorem lesson_backwards :
    ¬ ∀ (db : Db) (calls : List SlotCall), db.WellTimed →
      ∀ s ∈ (calls.foldl SlotCall.step db).sessions,
        s.scheduledStart < s.scheduledEnd ∧
          localDate s.scheduledStart = s.date ∧ localDate s.scheduledEnd = s.date := by
  intro h
  have hback : (((askedAndMoved 14 13).foldl SlotCall.step staffedTimetable).sessions.get? 1).map
      (fun s => decide (s.scheduledEnd < s.scheduledStart)) = some true := by
    decide +kernel
  obtain ⟨s, hs, hlt⟩ := Option.map_eq_some_iff.mp hback
  obtain ⟨hmem, -⟩ := Table.get?_eq_some_iff.mp hs
  obtain ⟨hforward, -⟩ := h staffedTimetable _ wellTimed_staffedTimetable s hmem
  exact absurd hforward (of_decide_eq_true hlt).asymm

end FluxTrack
