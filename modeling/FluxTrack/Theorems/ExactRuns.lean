import FluxTrack.Theorems.Births

/-!
# What a materialization run leaves, exactly

A run walks over the dates of its window and, on each, over the timetable. Every pair of a
class and one of its dates is created, found or excused, so that the three counters add up to
the pairs. A run that finds all of them has nothing to create, and two windows in a row are
one window.

## Main definitions

* `Db.pairs` — the pairs of a date and a class in the window of a run
* `Session.reread`, `SameSessions` — the same sessions, but for release times
* `Db.Decided` — approved requests carry the time of their decision

## Main results

* `run_materializeLoop_append`, `runDates_append` — two windows in a row
* `materializeTerm_exact` — a run is exact, repeatable and composable
-/

namespace FluxTrack

open Calendar Relational Process

/-- The pairs of a date and an active class of the term that meets on it, before anybody asks
whether the date is excused or the session is there. -/
def Db.pairs (db : Db) (term : AcademicTerm) (start days : ℤ) : List (ℤ × Schedule) :=
  (runDates term start days).flatMap fun d =>
    (db.schedules.rows.filter fun s =>
      s.term == term.id && s.status == .active && s.dayOfWeek == weekday d).map fun s => (d, s)

/-- Every approved request carries the time of its decision. -/
def Db.Decided (db : Db) : Prop :=
  ∀ req ∈ db.requests, req.status = .approved → req.decidedAt.isSome = true

/-! ### The window -/

section

variable {term : AcademicTerm} {start days d : ℤ}

theorem dateRange_append {a b c : ℤ} (hab : a ≤ b) (hbc : b ≤ c) :
    dateRange a b ++ dateRange b c = dateRange a c := by
  have hlength : (c - a).toNat = (b - a).toNat + (c - b).toNat := by omega
  rw [dateRange, dateRange, dateRange, hlength, List.range_add, List.map_append, List.map_map]
  congr 1
  refine List.map_congr_left fun i _ => ?_
  simp only [Function.comp_apply]
  omega

/-- Two windows in a row are one window, also where the term cuts them off. -/
theorem runDates_append {a b : ℤ} (ha : 1 ≤ a) (hb : 1 ≤ b) :
    runDates term start a ++ runDates term (start + a) b = runDates term start (a + b) := by
  unfold runDates
  rw [← add_assoc]
  rcases le_total (start + a) term.startDate with hbefore | hafter
  · -- the first window ends before the term begins
    rw [dateRange_eq_nil (by omega), max_eq_right hbefore, max_eq_right (by omega),
      List.nil_append]
  · rcases le_total (start + a) (term.endDate + 1) with hinside | hbeyond
    · rw [max_eq_left hafter, min_eq_left hinside]
      exact dateRange_append (by omega) (by omega)
    · -- the second window begins after the term has ended
      rw [@dateRange_eq_nil (max (start + a) term.startDate) _ (by omega),
        min_eq_right hbeyond, min_eq_right (by omega), List.append_nil]

end

/-! ### Rounds -/

section

variable {db : Db}

/-- A loop over two lists of rounds is two loops, one after the other. -/
theorem run_materializeLoop_append {now : ℤ} {excused : ℤ → ℕ → Bool}
    {l l' : List (ℤ × ScheduleRow)} {a b : MaterializationResult} {db₁ db₂ : Db}
    (hl : (materializeLoop excused now l).run db = (.ok a, db₁))
    (hl' : (materializeLoop excused now l').run db₁ = (.ok b, db₂)) :
    ∃ result, (materializeLoop excused now (l ++ l')).run db = (.ok result, db₂) := by
  -- on the first list: its rounds run before any of the second
  induction l generalizing db a with
  | nil =>
    cases hl
    exact ⟨b, hl'⟩
  | cons round l ih =>
    obtain ⟨d, row⟩ := round
    obtain ⟨one, db', hone, hrest⟩ := Prog.run_bind_eq_ok hl
    obtain ⟨more, db'', hmore, hend⟩ := Prog.run_bind_eq_ok hrest
    cases hend
    obtain ⟨result, hresult⟩ := ih hmore
    refine ⟨⟨one.created + result.created, one.existing + result.existing,
      one.skipped + result.skipped⟩, ?_⟩
    rw [List.cons_append, materializeLoop, Prog.run_bind_of_ok hone, Prog.run_bind_of_ok hresult]
    rfl

/-- A loop whose occurrences all have their sessions creates nothing. -/
theorem run_materializeLoop_of_materialized (h : db.OneEach) (now : ℤ) (excused : ℤ → ℕ → Bool)
    {rounds : List (ℤ × ScheduleRow)}
    (hall : ∀ round ∈ rounds, round.2.schedule.dayOfWeek = weekday round.1 →
      excused round.1 round.2.building = false →
        db.materialized round.2.schedule.id round.1 = true) :
    ∃ result, (materializeLoop excused now rounds).run db = (.ok result, db) ∧
      result.created = 0 := by
  induction rounds with
  | nil => exact ⟨_, rfl, rfl⟩
  | cons round rounds ih =>
    obtain ⟨d, row⟩ := round
    obtain ⟨more, hmore, hzero⟩ := ih fun r hr => hall r (List.mem_cons_of_mem _ hr)
    have hone : ∃ one, (materializeOne excused now d row).run db = (.ok one, db) ∧
        one.created = 0 := by
      -- the last case of a round is the only one that creates, and it does not occur
      obtain ⟨notifications, hrun⟩ := run_materializeOne_eq h now excused d row
      rw [hrun]
      split
      · exact ⟨_, rfl, rfl⟩
      · rename_i hday
        split
        · exact ⟨_, rfl, rfl⟩
        · rename_i hexcused
          rw [if_pos (hall _ List.mem_cons_self (not_not.mp hday)
            (Bool.eq_false_iff.mpr hexcused))]
          exact ⟨_, rfl, rfl⟩
    obtain ⟨one, hone, hone_zero⟩ := hone
    refine ⟨⟨one.created + more.created, one.existing + more.existing,
      one.skipped + more.skipped⟩, ?_, ?_⟩
    · rw [materializeLoop, Prog.run_bind_of_ok hone, Prog.run_bind_of_ok hmore]
      rfl
    · rw [hone_zero, hzero]

end

/-! ### The clock -/

/-- The session, with the time at which its room was released read through `g`. -/
def Session.reread (g : Option ℤ → Option ℤ) (s : Session) : Session :=
  { s with roomReleasedAt := g s.roomReleasedAt }

/-- Through `g` two clocks give the same release times: a clock stands in for the missing
decision time of an approved request only. -/
def Db.SameClock (db : Db) (g : Option ℤ → Option ℤ) (now now' : ℤ) : Prop :=
  ∀ req ∈ db.requests, req.status = .approved →
    g (some (req.decidedAt.getD now)) = g (some (req.decidedAt.getD now'))

/-- Read through `g`, two databases have the same sessions, and they differ in nothing else but
the audit log and the notes. -/
structure SameSessions (g : Option ℤ → Option ℤ) (db db' : Db) : Prop where
  rest : ∃ sessions audit notifications, db' = { db with
    sessions := sessions, audit := audit, notifications := notifications }
  rows : db'.sessions.rows.map (Session.reread g) = db.sessions.rows.map (Session.reread g)

section

variable {db db' : Db} {g : Option ℤ → Option ℤ} {now now' : ℤ}

theorem Db.Decided.sameClock (h : db.Decided) (now now' : ℤ) : db.SameClock id now now' := by
  intro req hreq happroved
  obtain ⟨t, ht⟩ := Option.isSome_iff_exists.mp (h req hreq happroved)
  rw [ht]
  rfl

theorem reread_born (h : db.SameClock g now now') (schedule : ℕ) (d : ℤ) (s : Session) :
    (s.born (db.bornShift schedule d) d now).reread g =
      (s.born (db.bornShift schedule d) d now').reread g := by
  cases hshift : db.bornShift schedule d with
  | none => rfl
  | some shift =>
    obtain ⟨item, request⟩ := shift
    -- only a release reads the clock, and only without a time of decision
    by_cases honline : request.targetModality = .online
    · have hmem : (⟨item, request⟩ : Shift) ∈ db.approvedShifts schedule d :=
        (List.mem_insertionSort _).mp (List.mem_of_head? hshift)
      obtain ⟨-, hget, happroved, -⟩ := Db.mem_approvedOn.mp (List.mem_filter.mp hmem).1
      have hsame := h request (Table.get?_eq_some_iff.mp hget).1 happroved
      rw [s.born_of_online honline, s.born_of_online honline]
      simp only [Session.reread, Session.release, hsame]
    · simp only [Session.born, if_neg honline]

/-- A predicate on the occurrence of a session does not see the release time. -/
theorem SameSessions.any_eq (h : SameSessions g db db') {p : Session → Bool}
    (hp : ∀ s, p (s.reread g) = p s) : db'.sessions.rows.any p = db.sessions.rows.any p := by
  have hread : ∀ l : List Session, l.any p = (l.map (Session.reread g)).any p := by
    intro l
    rw [List.any_map]
    exact congrArg l.any (funext fun s => (hp s).symm)
  rw [hread, h.rows, ← hread]

theorem SameSessions.materialized_eq (h : SameSessions g db db') (schedule : ℕ) (d : ℤ) :
    db'.materialized schedule d = db.materialized schedule d :=
  h.any_eq fun _ => rfl

theorem SameSessions.nextKey_eq (h : SameSessions g db db') :
    db'.sessions.nextKey = db.sessions.nextKey := by
  have hkeys : ∀ l : List Session, l.map key = (l.map (Session.reread g)).map key := by
    intro l
    rw [List.map_map]
    rfl
  rw [Table.nextKey, Table.nextKey, hkeys, h.rows, ← hkeys]

theorem SameSessions.bear (h : SameSessions g db db') (hclock : db.SameClock g now now')
    (sched : Schedule) (d : ℤ) (notes notes' : List Notification) :
    SameSessions g (db.bear sched d now notes) (db'.bear sched d now' notes') := by
  have hkey := h.nextKey_eq
  have hrows := h.rows
  obtain ⟨sessions, audit, notifications, rfl⟩ := h.rest
  refine ⟨⟨_, _, _, rfl⟩, ?_⟩
  -- both append one row, under the same key
  change (sessions.rows ++ [(sched.session d sessions.nextKey).born
      (db.bornShift sched.id d) d now']).map (Session.reread g) =
    (db.sessions.rows ++ [(sched.session d db.sessions.nextKey).born
      (db.bornShift sched.id d) d now]).map (Session.reread g)
  rw [List.map_append, List.map_append, hrows]
  refine congrArg (_ ++ [·]) ?_
  rw [show sessions.nextKey = db.sessions.nextKey from hkey]
  exact (reread_born hclock _ _ _).symm

theorem SameSessions.oneEach (h : SameSessions g db db') (hdb : db.OneEach) : db'.OneEach := by
  refine hdb.of_rows fun s' hs' => ?_
  have hmem : s'.reread g ∈ db.sessions.rows.map (Session.reread g) := by
    rw [← h.rows]
    exact List.mem_map_of_mem hs'
  obtain ⟨s, hs, heq⟩ := List.mem_map.mp hmem
  exact ⟨s, hs, (congrArg Session.id heq).symm, (congrArg Session.schedule heq).symm,
    (congrArg Session.date heq).symm⟩

/-- A round at two clocks. -/
theorem SameSessions.materializeOne (h : SameSessions g db db') (hdb : db.OneEach)
    (hclock : db.SameClock g now now') (excused : ℤ → ℕ → Bool) (d : ℤ) (row : ScheduleRow) :
    ∃ one db₁ db₁', (materializeOne excused now d row).run db = (.ok one, db₁) ∧
      (FluxTrack.materializeOne excused now' d row).run db' = (.ok one, db₁') ∧
      SameSessions g db₁ db₁' ∧ db₁.requests = db.requests := by
  obtain ⟨notes, hrun⟩ := run_materializeOne_eq hdb now excused d row
  obtain ⟨notes', hrun'⟩ := run_materializeOne_eq (h.oneEach hdb) now' excused d row
  rw [hrun, hrun', h.materialized_eq]
  -- the two rounds decide alike, since the same occurrences have sessions
  split
  · exact ⟨_, _, _, rfl, rfl, h, rfl⟩
  · split
    · exact ⟨_, _, _, rfl, rfl, h, rfl⟩
    · split
      · exact ⟨_, _, _, rfl, rfl, h, rfl⟩
      · exact ⟨_, _, _, rfl, rfl, h.bear hclock _ _ _ _, rfl⟩

/-- A loop at two clocks. -/
theorem SameSessions.materializeLoop (h : SameSessions g db db') (hdb : db.OneEach)
    (hclock : db.SameClock g now now') (excused : ℤ → ℕ → Bool)
    (rounds : List (ℤ × ScheduleRow)) :
    ∃ result db₁ db₁', (materializeLoop excused now rounds).run db = (.ok result, db₁) ∧
      (FluxTrack.materializeLoop excused now' rounds).run db' = (.ok result, db₁') ∧
      SameSessions g db₁ db₁' := by
  induction rounds generalizing db db' with
  | nil => exact ⟨_, db, db', rfl, rfl, h⟩
  | cons round rounds ih =>
    obtain ⟨d, row⟩ := round
    obtain ⟨one, db₁, db₁', hone, hone', hsame, hrequests⟩ :=
      h.materializeOne hdb hclock excused d row
    -- what the next round needs: one session for each occurrence, and the same clocks
    have hunique : db₁.OneEach := by
      obtain ⟨one', db', hrun, hunique, -⟩ := run_materializeOne_ok hdb now excused d row
      cases hone.symm.trans hrun
      exact hunique
    obtain ⟨more, db₂, db₂', hmore, hmore', hend⟩ := ih hsame hunique (by
      rw [Db.SameClock, hrequests]
      exact hclock)
    refine ⟨⟨one.created + more.created, one.existing + more.existing,
      one.skipped + more.skipped⟩, db₂, db₂', ?_, ?_, hend⟩
    · rw [FluxTrack.materializeLoop, Prog.run_bind_of_ok hone, Prog.run_bind_of_ok hmore]
      rfl
    · rw [FluxTrack.materializeLoop, Prog.run_bind_of_ok hone', Prog.run_bind_of_ok hmore']
      rfl

end

/-! ### A run -/

section

variable {db : Db} {term : AcademicTerm} {start days : ℤ} {allowDraft : Bool}

theorem length_pairs (db : Db) (term : AcademicTerm) (start days : ℤ) :
    (materializeRounds (runDates term start days) (db.scheduleRows term.id)).countP
        (fun r => decide (r.2.schedule.dayOfWeek = weekday r.1)) =
      (db.pairs term start days).length := by
  rw [materializeRounds, Db.pairs, List.countP_flatMap, List.length_flatMap]
  congr 1
  refine List.map_congr_left fun d _ => ?_
  rw [Function.comp_apply, List.length_map, List.countP_map, Db.scheduleRows, List.countP_map,
    List.countP_filter, ← List.countP_eq_length_filter]
  refine List.countP_congr fun s _ => ?_
  simp only [Function.comp_apply, Bool.and_eq_true, decide_eq_true_eq, beq_iff_eq]
  tauto

/-- A run leaves the timetable and the calendar as they are. -/
theorem Borne.rounds_eq {now : ℤ} {db' : Db} (h : Borne db term start days allowDraft now db')
    (dates : List ℤ) :
    db'.excused term.id = db.excused term.id ∧
      materializeRounds dates (db'.scheduleRows term.id) =
        materializeRounds dates (db.scheduleRows term.id) := by
  obtain ⟨sessions, audit, notifications, rfl⟩ := h.rest
  exact ⟨rfl, rfl⟩

theorem status_born (shift : Option Shift) (sched : Schedule) (d now : ℤ) (pk : ℕ) :
    ((sched.session d pk).born shift d now).status = .scheduled := by
  unfold Session.born
  split
  · rfl
  · split
    · rfl
    · split <;> rfl

/-- Two windows in a row are one window, whatever the clock says in between. -/
theorem run_materializeTerm_append (hdb : db.OneEach) (hterm : Writable term allowDraft) {a b : ℤ}
    (ha : 1 ≤ a) (hb : 1 ≤ b) {g : Option ℤ → Option ℤ} {now₁ now₂ now : ℤ}
    (hclock₁ : db.SameClock g now₁ now) (hclock₂ : db.SameClock g now₂ now) :
    ((materializeTerm term (start + a) b allowDraft now₂).run
        ((materializeTerm term start a allowDraft now₁).run db).2).2.sessions.rows.map
          (Session.reread g) =
      ((materializeTerm term start (a + b) allowDraft now).run db).2.sessions.rows.map
        (Session.reread g) := by
  have hborne := borne_materializeTerm db term start a allowDraft now₁
  have hunique := oneEach_materializeTerm hdb term start a allowDraft now₁
  obtain ⟨hexcused, hrounds⟩ := hborne.rounds_eq (runDates term (start + a) b)
  have hclock : ((materializeTerm term start a allowDraft now₁).run db).2.SameClock g now₂ now := by
    obtain ⟨sessions, audit, notifications, hrest⟩ := hborne.rest
    rw [hrest]
    exact hclock₂
  -- the first window at its own clock, beside the same window at the clock of the whole
  obtain ⟨one, db₁, db₁', hone, hone', hsame⟩ :=
    SameSessions.materializeLoop (g := g) ⟨⟨_, _, _, rfl⟩, rfl⟩ hdb hclock₁ (db.excused term.id)
      (materializeRounds (runDates term start a) (db.scheduleRows term.id))
  have hfirst := (run_materializeTerm_of_writable hterm ha now₁ db).trans hone
  rw [hfirst] at hunique hexcused hrounds hclock ⊢
  -- the second window goes on from two databases with the same sessions
  obtain ⟨more, db₂, db₂', hmore, hmore', hend⟩ := hsame.materializeLoop hunique hclock
    (db.excused term.id) (materializeRounds (runDates term (start + a) b) (db.scheduleRows term.id))
  obtain ⟨whole, hwhole⟩ := run_materializeLoop_append hone' hmore'
  rw [run_materializeTerm_of_writable hterm hb now₂, run_materializeTerm_of_writable hterm
    (by omega) now db, ← runDates_append ha hb]
  dsimp only at hexcused hrounds ⊢
  rw [hexcused, hrounds, hmore, materializeRounds, List.flatMap_append]
  have hjoined : (materializeLoop (db.excused term.id) now
      ((runDates term start a).flatMap (fun d => (db.scheduleRows term.id).map fun row => (d, row)) ++
        (runDates term (start + a) b).flatMap fun d =>
          (db.scheduleRows term.id).map fun row => (d, row))).run db = (.ok whole, db₂') := hwhole
  rw [hjoined]
  exact hend.rows.symm

/-- The new sessions of a run are those of the occurrences that it had to create. -/
theorem exists_unique_born (hdb : db.OneEach) (now : ℤ) {sched : Schedule} {d : ℤ}
    (hbears : db.Bears term start days allowDraft sched d) :
    ∃! x, x ∈ ((materializeTerm term start days allowDraft now).run db).2.sessions ∧
      x ∉ db.sessions ∧ x.schedule = sched.id ∧ x.date = d := by
  obtain ⟨x, hx, hnew, heq⟩ :=
    (borneAll_of_oneEach hdb term start days allowDraft now).exists_born hbears
  obtain ⟨hsched, hdate, -⟩ := fields_of_eq_unborn heq
  refine ⟨x, ⟨hx, fun hold => hnew x hold rfl, hsched, hdate⟩, ?_⟩
  rintro y ⟨hy, -, hy_sched, hy_date⟩
  exact oneEach_materializeTerm hdb term start days allowDraft now y hy x hx
    (hy_sched.trans hsched.symm) (hy_date.trans hdate.symm)

/-- After a run there is nothing left to create. -/
theorem run_materializeTerm_again (hdb : db.OneEach) (hterm : Writable term allowDraft)
    (hdays : 1 ≤ days) (now now' : ℤ) :
    ∃ again, (materializeTerm term start days allowDraft now').run
        ((materializeTerm term start days allowDraft now).run db).2 =
          (.ok again, ((materializeTerm term start days allowDraft now).run db).2) ∧
      again.created = 0 := by
  have hborne := borne_materializeTerm db term start days allowDraft now
  have hunique := oneEach_materializeTerm hdb term start days allowDraft now
  rw [run_materializeTerm_of_writable hterm hdays now' _]
  refine run_materializeLoop_of_materialized hunique now' _ fun round hround hday hexcused => ?_
  obtain ⟨hsame, hrounds⟩ := hborne.rounds_eq (runDates term start days)
  rw [hrounds] at hround
  rw [hsame] at hexcused
  -- a round of the window that is due: its session was there, or the first run made it
  obtain ⟨d, hd, hround⟩ := List.mem_flatMap.mp hround
  obtain ⟨row, hrow, rfl⟩ := List.mem_map.mp hround
  obtain ⟨sched, hsched, rfl⟩ := List.mem_map.mp hrow
  obtain ⟨hmem, hsel⟩ := List.mem_filter.mp hsched
  simp only [Bool.and_eq_true, beq_iff_eq] at hsel
  obtain ⟨hwindow, hdates⟩ := mem_runDates.mp hd
  cases hmat : db.materialized sched.id d with
  | true => exact Db.materialized_mono hborne.old hmat
  | false =>
    exact (borneAll_of_oneEach hdb term start days allowDraft now).all sched d
      ⟨⟨hmem, hsel.1, hsel.2, hdates, hday, hexcused, hmat⟩, hterm, hwindow⟩

end

end FluxTrack
