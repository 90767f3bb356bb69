import FluxTrack.Theorems.Approval
import FluxTrack.Theorems.CheckIns
import FluxTrack.Theorems.ScheduleEdit

/-!
# Slots lie on their dates

Whatever writes the slot of a session makes it of two wall clock readings of the session's
date: the materialization from the times of the schedule, a time move from those of its item,
an edit from the new ones. So in every reachable state a session can only be in the way of
slots of its own date. Nor does anything but a birth make a session of an occurrence, and a
birth looks for one first, so that an occurrence has at most one.

## Main definitions

* `Session.SlotOnDate`, `Db.SlotsOnDate` — the invariant of the slots
* `Db.OneEach` — the invariant of the occurrences
* `Reached` — the states the services lead to from a database without sessions

## Main results

* `Reached.slotsOnDate`, `Reached.oneEach` — the invariants in every reachable state
* `Session.SlotOnDate.date_eq_of_overlaps` — slots of different dates do not meet
-/

namespace FluxTrack

open Calendar Relational Process

/-- The slot of the session is made of two wall clock readings of its date. -/
def Session.SlotOnDate (s : Session) : Prop :=
  ∃ t t', s.scheduledStart = makeAware s.date t ∧ s.scheduledEnd = makeAware s.date t'

/-- Every session has its slot on its date. -/
def Db.SlotsOnDate (db : Db) : Prop := ∀ s ∈ db.sessions, s.SlotOnDate

/-- An occurrence has at most one session. -/
def Db.OneEach (db : Db) : Prop :=
  ∀ a ∈ db.sessions, ∀ b ∈ db.sessions, a.schedule = b.schedule → a.date = b.date → a = b

/-- A change that makes no session and keeps the occurrence of each. -/
theorem Db.OneEach.of_rows {db db' : Db} (hdb : db.OneEach)
    (h : ∀ s' ∈ db'.sessions, ∃ s ∈ db.sessions,
      s'.id = s.id ∧ s'.schedule = s.schedule ∧ s'.date = s.date) : db'.OneEach := by
  intro a' ha' b' hb' hsched hdate
  obtain ⟨a, ha, haid, hasched, hadate⟩ := h a' ha'
  obtain ⟨b, hb, hbid, hbsched, hbdate⟩ := h b' hb'
  have hab : a = b := hdb a ha b hb (hasched.symm.trans (hsched.trans hbsched))
    (hadate.symm.trans (hdate.trans hbdate))
  exact Table.eq_of_key_eq ha' hb' (haid.trans (hab ▸ hbid.symm))

/-! ### One session -/

section

variable {s t : Session}

theorem Session.SlotOnDate.of_times (h : s.SlotOnDate) (heq : t.times = s.times) :
    t.SlotOnDate := by
  simp only [Session.times, Prod.mk.injEq] at heq
  obtain ⟨-, hdate, hstart, hend⟩ := heq
  unfold Session.SlotOnDate
  rw [hdate, hstart, hend]
  exact h

theorem Session.SlotOnDate.localDate_start (h : s.SlotOnDate) :
    localDate s.scheduledStart = s.date := by
  obtain ⟨t, _, hstart, -⟩ := h
  rw [hstart]
  exact manila.localDate_combine

/-- Slots of different dates do not meet. -/
theorem Session.SlotOnDate.date_eq_of_overlaps (hs : s.SlotOnDate) (ht : t.SlotOnDate)
    (hover : overlaps s.scheduledStart s.scheduledEnd t.scheduledStart t.scheduledEnd = true) :
    s.date = t.date := by
  obtain ⟨a, a', hstart, hend⟩ := hs
  obtain ⟨b, b', hstart', hend'⟩ := ht
  rw [hstart, hend, hstart', hend'] at hover
  exact manila.date_eq_of_overlaps_combine hover

/-- A moved slot lies on the date it was asked for. -/
theorem slotOnDate_place (room : ℕ) {i : ModalityShiftItem} {d : ℤ} (h : s.SlotOnDate)
    (hdate : s.date = d) : (s.place room (i.movedSlot d)).SlotOnDate := by
  subst hdate
  unfold ModalityShiftItem.movedSlot
  split
  · exact ⟨_, _, rfl, rfl⟩
  · exact h

theorem Session.SlotOnDate.shift {req : ModalityShiftRequest} (h : s.SlotOnDate) (dean : ℕ)
    (now : ℤ) (room : ℕ) (i : ModalityShiftItem) :
    (req.shift dean now room (i.movedSlot s.date) s).SlotOnDate :=
  slotOnDate_place room h rfl

theorem slotOnDate_born (shift : Option Shift) (sched : Schedule) (d now : ℤ) (pk : ℕ) :
    ((sched.session d pk).born shift d now).SlotOnDate := by
  have hnew : (sched.session d pk).SlotOnDate := ⟨_, _, rfl, rfl⟩
  unfold Session.born
  split
  · exact hnew
  · split
    · exact hnew
    · split
      · exact hnew
      · rename_i room _
        exact slotOnDate_place room hnew rfl

end

/-- An update of the row `s` alone. -/
theorem mem_update_self {db : Db} {s : Session} {f : Session → Session} (hf : ∀ s, key (f s) = key s)
    (hs : s ∈ db.sessions) {x : Session}
    (hx : x ∈ db.sessions.update (fun a => a.id == s.id) f hf) :
    x = f s ∨ (x ∈ db.sessions ∧ x.id ≠ s.id) := by
  obtain ⟨a, ha, rfl⟩ := (Table.mem_update_iff hf).mp hx
  by_cases hid : a.id = s.id
  · rw [if_pos (beq_iff_eq.mpr hid), Table.eq_of_key_eq ha hs hid]
    exact .inl rfl
  · rw [if_neg (by simpa using hid)]
    exact .inr ⟨ha, hid⟩

/-! ### Requests -/

/-- A change that keeps the occurrence and the slot of every session. -/
def KeepsTimes (db db' : Db) : Prop :=
  ∀ s' ∈ db'.sessions, ∃ s ∈ db.sessions, s'.id = s.id ∧ s'.times = s.times

namespace KeepsTimes

variable {db db' : Db}

theorem kind : Prog.Kind KeepsTimes where
  refl db s hs := ⟨s, hs, rfl, rfl⟩
  trans db db₁ db₂ h h' s₂ hs₂ := by
    obtain ⟨s₁, hs₁, hid₁, htimes₁⟩ := h' s₂ hs₂
    obtain ⟨s, hs, hid, htimes⟩ := h s₁ hs₁
    exact ⟨s, hs, hid₁.trans hid, htimes₁.trans htimes⟩

theorem frame (h : db'.sessions = db.sessions) : KeepsTimes db db' :=
  fun s hs => ⟨s, h ▸ hs, rfl, rfl⟩

theorem rows {p : Session → Prop} [DecidablePred p] {f : Session → Session}
    (hf : ∀ s, key (f s) = key s) (htimes : ∀ s, (f s).times = s.times)
    (h : ∀ s' ∈ db'.sessions, ∃ s ∈ db.sessions, (if p s then f s else s) = s') :
    KeepsTimes db db' := by
  intro s' hs'
  obtain ⟨s, hs, rfl⟩ := h s' hs'
  refine ⟨s, hs, ?_⟩
  split
  · exact ⟨hf s, htimes s⟩
  · exact ⟨rfl, rfl⟩

theorem update {p : Session → Bool} {f : Session → Session} (hf : ∀ s, key (f s) = key s)
    (htimes : ∀ s, (f s).times = s.times) (h : db'.sessions = db.sessions.update p f hf) :
    KeepsTimes db db' := by
  refine rows (p := fun s => p s = true) hf htimes fun s' hs' => ?_
  rw [h] at hs'
  exact (Table.mem_update_iff hf).mp hs'

theorem checkIns : CheckIns KeepsTimes where
  kind := kind
  quiet _ _ _ _ := frame rfl
  runs _ _ _ hf _ htimes := update hf htimes rfl
  misses _ _ _ := update Session.key_markAbsent (fun _ => rfl) rfl

theorem onlineChecks : OnlineChecks KeepsTimes where
  toCheckIns := checkIns
  validates _ _ := frame rfl
  flags _ _ := update Session.key_markAbsent (fun _ => rfl) rfl

theorem requests : Requests KeepsTimes where
  toCheckIns := checkIns
  moves _ _ room := update (Session.key_moveTo room) (fun _ => rfl) rfl
  breaks _ _ := frame rfl
  recalls _ _ _ _ _ hf htimes _ hrow _ := rows hf htimes hrow

/-- Every request keeps the slots. -/
theorem prog (issued : List ConfirmToken) (db : Db) (r : Request) :
    KeepsTimes db ((r.prog issued).run db).2 := by
  by_cases hr : ∀ user pk action note now last, r ≠ .onlineAction user pk action note now last
  · exact requests.prog issued db hr
  · push Not at hr
    obtain ⟨user, pk, action, note, now, last, rfl⟩ := hr
    rw [Request.prog, Prog.snd_run_bind_pure]
    exact onlineChecks.onlineAction _ _ _ _ _ _ db

theorem slotsOnDate (h : KeepsTimes db db') (hdb : db.SlotsOnDate) : db'.SlotsOnDate := by
  intro s' hs'
  obtain ⟨s, hs, -, htimes⟩ := h s' hs'
  exact (hdb s hs).of_times htimes

theorem oneEach (h : KeepsTimes db db') (hdb : db.OneEach) : db'.OneEach := by
  refine hdb.of_rows fun s' hs' => ?_
  obtain ⟨s, hs, hid, htimes⟩ := h s' hs'
  simp only [Session.times, Prod.mk.injEq] at htimes
  exact ⟨s, hs, hid, htimes.1, htimes.2.1⟩

end KeepsTimes

/-! ### The services that write slots -/

section

variable {db : Db}

theorem slotsOnDate_materializeTerm (h : db.SlotsOnDate) (term : AcademicTerm) (start days : ℤ)
    (allowDraft : Bool) (now : ℤ) :
    ((materializeTerm term start days allowDraft now).run db).2.SlotsOnDate := by
  refine materializeTerm_invariant (fun db sched d notifications hdb _ s hs => ?_) h start days
    allowDraft
  rcases Db.mem_sessions_bear.mp hs with hs | rfl
  · exact hdb s hs
  · exact slotOnDate_born _ _ _ _ _

/-- The rule for room shifts preserves the invariant. -/
theorem shiftRule_slotsOnDate (req : ModalityShiftRequest) (dean : ℕ) (now : ℤ) (db₀ : Db) :
    ShiftRule req dean now db₀ (fun _ => True)
      fun _ _ db => SameOccurrences db₀ db ∧ db.SlotsOnDate where
  same h := h.1
  place {_ _ db item s room} h _ hs _ _ _ _ := by
    refine ⟨h.1.update (f := req.shift dean now room (item.movedSlot s.date))
      (Session.key_declare_place _ _ _ _ _) (fun _ => rfl) rfl, fun a ha => ?_⟩
    obtain ⟨b, hb, rfl⟩ := (Table.mem_update_iff (Session.key_declare_place _ _ _ _ _)).mp ha
    by_cases hid : (b.id == s.id) = true
    · rw [if_pos hid]
      obtain rfl : b = s := Table.eq_of_key_eq hb hs (beq_iff_eq.mp hid)
      exact (h.2 b hb).shift _ _ _ _
    · rw [if_neg hid]
      exact h.2 b hb
  assign h _ _ := ⟨fun pk => h.1 pk, h.2⟩

/-- Moving sessions online writes the sessions and the audit log, and no slot. -/
theorem run_applyOnline (l : List Session) (dean : ℕ) (now : ℤ) (db : Db) :
    ∃ sessions audit, (applyOnline l dean now).run db =
        (.ok (), { db with sessions := sessions, audit := audit }) ∧
      KeepsTimes db { db with sessions := sessions, audit := audit } := by
  induction l generalizing db with
  | nil => exact ⟨_, _, rfl, .frame rfl⟩
  | cons s rest ih =>
    obtain ⟨sessions, audit, hrun, hkeeps⟩ := ih ((moveOnline dean now s).run db).2
    refine ⟨sessions, audit, (Prog.run_forEach_cons rfl).trans hrun, ?_⟩
    refine KeepsTimes.kind.trans db _ _ ?_ hkeeps
    refine KeepsTimes.kind.trans db { db with
      sessions := db.sessions.update (fun a => a.id == s.id)
        (Session.declare .online (some now) (some dean)) (Session.key_declare _ _ _) } _ ?_ ?_
    · exact .update (Session.key_declare _ _ _) (fun _ => rfl) rfl
    · exact .update (Session.key_release now) (fun _ => rfl) rfl

theorem slotsOnDate_applyApproval (h : db.SlotsOnDate) (request : ℕ) (dean : User) (now : ℤ) :
    ((applyApproval request dean now).run db).2.SlotsOnDate := by
  rcases run_applyApproval_cases request dean now db with
    ⟨e, hrun⟩ | ⟨req, -, -, ⟨reason, hrun⟩ | ⟨db₁, notifications, hshift, hrun⟩⟩ <;> rw [hrun]
  · exact h
  · exact h
  · unfold applyShift at hshift
    split at hshift
    · obtain ⟨sessions, audit, honline, hkeeps⟩ :=
        run_applyOnline (db.affectedSessions req) dean.id now db
      cases hshift.symm.trans honline
      exact hkeeps.slotsOnDate h
    · obtain ⟨done, placed, ⟨-, hslots⟩, -⟩ :=
        applyF2f_rule (shiftRule_slotsOnDate req dean.id now db) ⟨fun _ => rfl, h⟩
          (fun _ _ _ _ => trivial) hshift
      exact hslots

theorem slotsOnDate_updateSchedule (h : db.SlotsOnDate) (schedule : ℕ) (e : ScheduleEdit)
    (actor : Option ℕ) (today : ℤ) :
    ((updateSchedule schedule e actor today).run db).2.SlotsOnDate := by
  rcases run_updateSchedule_cases db schedule e actor today with
    ⟨err, hrun⟩ | ⟨sched, -, -, -, -, -, -, hrun⟩ <;> rw [hrun]
  · exact h
  · intro s hs
    obtain ⟨a, ha, rfl⟩ := mem_sessions_edited.mp hs
    by_cases hsel : a ∈ db.futureScheduled sched.id today
    · rw [if_pos hsel]
      exact ⟨_, _, rfl, rfl⟩
    · rw [if_neg hsel]
      exact h a ha

end

/-! ### The services that write sessions -/

section

variable {db : Db}

theorem Db.OneEach.bear (h : db.OneEach) {sched : Schedule} {d now : ℤ}
    (hmissing : db.materialized sched.id d = false) (notifications : List Notification) :
    (db.bear sched d now notifications).OneEach := by
  obtain ⟨hsched, hdate⟩ := Session.occurrence_born (db.bornShift sched.id d) d now
    (sched.session d db.sessions.nextKey)
  have hnew : ∀ s ∈ db.sessions, s.schedule = sched.id → s.date = d → False := by
    intro s hs hs_sched hs_date
    refine Bool.eq_false_iff.mp hmissing (List.any_eq_true.mpr ⟨s, hs, ?_⟩)
    rw [hs_sched, hs_date, beq_self_eq_true, beq_self_eq_true]
    rfl
  intro a ha b hb hab_sched hab_date
  rcases Db.mem_sessions_bear.mp ha with ha | rfl <;>
    rcases Db.mem_sessions_bear.mp hb with hb | rfl
  · exact h a ha b hb hab_sched hab_date
  · exact (hnew a ha (hab_sched.trans hsched) (hab_date.trans hdate)).elim
  · exact (hnew b hb (hab_sched.symm.trans hsched) (hab_date.symm.trans hdate)).elim
  · rfl

theorem oneEach_materializeTerm (h : db.OneEach) (term : AcademicTerm) (start days : ℤ)
    (allowDraft : Bool) (now : ℤ) :
    ((materializeTerm term start days allowDraft now).run db).2.OneEach :=
  materializeTerm_invariant (fun _ _ _ notifications hdb hdue => hdb.bear hdue.missing notifications)
    h start days allowDraft

theorem oneEach_applyApproval (h : db.OneEach) (request : ℕ) (dean : User) (now : ℤ) :
    ((applyApproval request dean now).run db).2.OneEach := by
  rcases run_applyApproval_cases request dean now db with
    ⟨e, hrun⟩ | ⟨req, -, -, ⟨reason, hrun⟩ | ⟨db₁, notifications, hshift, hrun⟩⟩ <;> rw [hrun]
  · exact h
  · exact h
  · obtain ⟨done, hshifting, -⟩ := shifting_applyShift hshift
    refine h.of_rows fun s' hs' => ?_
    obtain ⟨s, hs, hid, hocc⟩ := hshifting.same.exists_mem hs'
    simp only [Session.occurrence, Prod.mk.injEq] at hocc
    exact ⟨s, hs, hid.symm, hocc.1.symm, hocc.2.1.symm⟩

theorem oneEach_updateSchedule (h : db.OneEach) (schedule : ℕ) (e : ScheduleEdit)
    (actor : Option ℕ) (today : ℤ) :
    ((updateSchedule schedule e actor today).run db).2.OneEach := by
  rcases run_updateSchedule_cases db schedule e actor today with
    ⟨err, hrun⟩ | ⟨sched, -, -, -, -, -, -, hrun⟩ <;> rw [hrun]
  · exact h
  · refine h.of_rows fun s hs => ?_
    obtain ⟨a, ha, rfl⟩ := mem_sessions_edited.mp hs
    refine ⟨a, ha, ?_⟩
    split <;> exact ⟨rfl, rfl, rfl⟩

end

/-! ### Reachable states -/

/-- The states that the requests and the scheduling services lead to from a database without
sessions, with any changes of the other tables between them. -/
inductive Reached : Db → Prop
  | start {db : Db} (hempty : db.sessions.rows = []) : Reached db
  | request {db : Db} (h : Reached db) (issued : List ConfirmToken) (r : Request) :
    Reached ((r.prog issued).run db).2
  | materialize {db : Db} (h : Reached db) (term : AcademicTerm) (start days : ℤ)
    (allowDraft : Bool) (now : ℤ) :
    Reached ((materializeTerm term start days allowDraft now).run db).2
  | approve {db : Db} (h : Reached db) (request : ℕ) (dean : User) (now : ℤ) :
    Reached ((applyApproval request dean now).run db).2
  | edit {db : Db} (h : Reached db) (schedule : ℕ) (e : ScheduleEdit) (actor : Option ℕ)
    (today : ℤ) : Reached ((updateSchedule schedule e actor today).run db).2
  | other {db db' : Db} (h : Reached db) (hsessions : db'.sessions = db.sessions) : Reached db'

/-- In every reachable state every session has its slot on its date. -/
theorem Reached.slotsOnDate {db : Db} (h : Reached db) : db.SlotsOnDate := by
  induction h with
  | start hempty =>
    intro s hs
    rw [← Table.mem_rows, hempty] at hs
    cases hs
  | request _ issued r ih => exact (KeepsTimes.prog issued _ r).slotsOnDate ih
  | materialize _ term start days allowDraft now ih =>
    exact slotsOnDate_materializeTerm ih term start days allowDraft now
  | approve _ request dean now ih => exact slotsOnDate_applyApproval ih request dean now
  | edit _ schedule e actor today ih => exact slotsOnDate_updateSchedule ih schedule e actor today
  | other _ hsessions ih => exact (KeepsTimes.frame hsessions).slotsOnDate ih

/-- In every reachable state an occurrence has at most one session. -/
theorem Reached.oneEach {db : Db} (h : Reached db) : db.OneEach := by
  induction h with
  | start hempty =>
    intro s hs
    rw [← Table.mem_rows, hempty] at hs
    cases hs
  | request _ issued r ih => exact (KeepsTimes.prog issued _ r).oneEach ih
  | materialize _ term start days allowDraft now ih =>
    exact oneEach_materializeTerm ih term start days allowDraft now
  | approve _ request dean now ih => exact oneEach_applyApproval ih request dean now
  | edit _ schedule e actor today ih => exact oneEach_updateSchedule ih schedule e actor today
  | other _ hsessions ih => exact (KeepsTimes.frame hsessions).oneEach ih

end FluxTrack
