import FluxTrack.Process.Guarded
import FluxTrack.Scheduling.TermLifecycle
import FluxTrack.System

/-!
# One session for each occurrence

The nightly job, the creation of a schedule and the activation of a term all
materialize the same sessions, possibly at the same time. `get_or_create` is a query
and an insertion, and no constraint of the database forbids a second session for the
same schedule and date, so two runs that both miss an occurrence both create it. This
is the only way to a duplicate.

## Main definitions

* `Db.occurrences` — schedule and date of every session
* `Materializing` — a run: the command, or an activation in its transaction

## Main results

* `looks_materializeTerm`, `looks_activateTerm` — a session is only created after a
  query that missed its occurrence
* `occurrences_nodup` — without double claims no occurrence has two sessions
* `occurrence_duplicated` — two runs that miss the same occurrence
-/

namespace FluxTrack

open Calendar Relational Process

/-- The occurrence a session is of. -/
def Session.pair (s : Session) : ℕ × ℤ := (s.schedule, s.date)

/-- The occurrences that have a session, one entry for each session. -/
def Db.occurrences (db : Db) : List (ℕ × ℤ) := db.sessions.rows.map Session.pair

/-- An update of sessions that keeps their occurrences. -/
theorem occurrences_update {db : Db} {p : Session → Bool} {f : Session → Session}
    (hf : ∀ s, key (f s) = key s) (hpair : ∀ s, (f s).pair = s.pair) :
    (db.sessions.update p f hf).rows.map Session.pair = db.occurrences := by
  rw [Table.rows_update, List.map_map]
  refine List.map_congr_left fun s _ => ?_
  by_cases hp : p s = true
  · simp [hp, hpair]
  · simp [hp]

/-! ### Materialization looks before it inserts -/

section

variable {now d : ℤ}

theorem looks_saveSession {pk : ℕ} {f : Session → Session} (hf : ∀ s, key (f s) = key s)
    (hpair : ∀ s, (f s).pair = s.pair) : (saveSession pk f hf).Looks Db.occurrences none :=
  Prog.looks_modify fun _ => occurrences_update hf hpair

theorem looks_createAudit (actor : Option ℕ) (event : AuditEvent) :
    (createAudit actor event).Looks Db.occurrences none :=
  Prog.looks_modify fun _ => rfl

theorem looks_applyApprovedShift (session schedule : ℕ) :
    (applyApprovedShift session schedule d now).Looks Db.occurrences none := by
  refine (Prog.looks_select _).bind fun shift => ?_
  cases shift with
  | none => exact Prog.looks_ret _
  | some shift =>
    obtain ⟨item, request⟩ := shift
    dsimp only
    split
    · exact (looks_saveSession (Session.key_declare _ _ _) fun _ => rfl).bind fun _ =>
        (looks_saveSession (Session.key_release _) fun _ => rfl).bind fun _ =>
          looks_createAudit _ _
    · split
      · exact Prog.Looks.bind (Prog.looks_modify fun _ => rfl) fun _ =>
          looks_saveSession (Session.key_declare _ _ _) fun _ => rfl
      · exact looks_saveSession (Session.key_declare_place _ _ _ _ _) fun _ => rfl

/-- The insertion of a session whose occurrence has been missed. -/
theorem looks_createSession (sched : Schedule) :
    (createSession sched d).Looks Db.occurrences (some (sched.id, d)) := by
  refine .inl ⟨fun db => ?_, fun _ => rfl⟩
  change ((db.sessions.rows ++ [sched.session d db.sessions.nextKey]).map Session.pair).Perm _
  rw [List.map_append]
  exact List.perm_append_singleton _ _

theorem looks_getOrCreateSession (sched : Schedule) :
    (getOrCreateSession sched d).Looks Db.occurrences none := by
  refine Prog.looks_select_bind fun db => ?_
  cases hrows : db.sessions.rows.filter fun s => s.schedule == sched.id && s.date == d with
  | nil =>
    refine .inr ⟨(sched.id, d), fun hmem => ?_, ?_⟩
    · obtain ⟨s, hs, hpair⟩ := List.mem_map.mp hmem
      have hnot := List.filter_eq_nil_iff.mp hrows s hs
      simp only [Session.pair, Prod.mk.injEq] at hpair
      simp [hpair.1, hpair.2] at hnot
    · exact (looks_createSession sched).atomic.bind fun _ => Prog.looks_ret _
  | cons s rest =>
    left
    cases rest with
    | nil => exact Prog.looks_ret _
    | cons s' rest => exact Prog.looks_raise _

theorem looks_materializeLoop (excused : ℤ → ℕ → Bool) (rounds : List (ℤ × ScheduleRow)) :
    (materializeLoop excused now rounds).Looks Db.occurrences none := by
  induction rounds with
  | nil => exact Prog.looks_ret _
  | cons round rounds ih =>
    obtain ⟨d, row⟩ := round
    have hone : (materializeOne excused now d row).Looks Db.occurrences none := by
      unfold materializeOne
      split
      · exact Prog.looks_ret _
      · split
        · exact Prog.looks_ret _
        · refine (looks_getOrCreateSession row.schedule).bind fun created => ?_
          cases created with
          | none => exact Prog.looks_ret _
          | some pk => exact (looks_applyApprovedShift pk row.schedule.id).bind fun _ => rfl
    exact hone.bind fun _ => ih.bind fun _ => Prog.looks_ret _

theorem looks_materializeTerm (term : AcademicTerm) (start days : ℤ) (allowDraft : Bool) (now : ℤ) :
    (materializeTerm term start days allowDraft now).Looks Db.occurrences none := by
  have hvalid : (validateTerm term allowDraft).Looks Db.occurrences none := by
    unfold validateTerm
    split
    · exact Prog.looks_raise _
    · split
      · exact Prog.looks_ret _
      · exact Prog.looks_raise _
    · exact Prog.looks_ret _
  refine hvalid.bind fun _ => ?_
  split
  · exact Prog.looks_raise _
  · dsimp only
    split
    · exact Prog.looks_ret _
    · have hexcused : (excusedChecker term.id).Looks Db.occurrences none :=
        (Prog.looks_select _).bind fun _ => (Prog.looks_select _).bind fun _ => rfl
      exact hexcused.bind fun excused => (Prog.looks_select _).bind fun _ =>
        looks_materializeLoop excused _

end

/-! ### So does an activation -/

theorem looks_saveTerms (f : Table AcademicTerm → Table AcademicTerm) :
    (saveTerms f).Looks Db.occurrences none := by
  have hwrite : ∀ db : Db, ((db.writeTerms f).getD db).occurrences = db.occurrences := by
    intro db
    unfold Db.writeTerms
    cases TermTable.ofTable? (f db.terms.table) <;> rfl
  refine (Prog.looks_modifyGet hwrite _).bind fun found => ?_
  cases found with
  | none => exact Prog.looks_raise _
  | some found => exact Prog.looks_ret _

theorem looks_actionPreflight (t : AcademicTerm) (action : TermAction) (today : ℤ) :
    (actionPreflight t action today).Looks Db.occurrences none := by
  have hcounts : (termCounts t.id).Looks Db.occurrences none :=
    (Prog.looks_select _).bind fun _ => (Prog.looks_select _).bind fun _ =>
      (Prog.looks_select _).bind fun _ => (Prog.looks_select _).bind fun _ => Prog.looks_ret _
  refine hcounts.bind fun counts => ?_
  cases action with
  | close => exact Prog.looks_ret _
  | reopen => exact (Prog.looks_select _).bind fun _ => Prog.looks_ret _
  | activate => exact (Prog.looks_select _).bind fun _ => Prog.looks_ret _

theorem looks_activateTerm (term : ℕ) (actor : Option User) (confirmationName : Option String)
    (acknowledged : List String) (today now : ℤ) :
    (activateTerm term actor confirmationName acknowledged today now).Looks
      Db.occurrences none := by
  have hauth : (authorize actor).Looks Db.occurrences none := by
    unfold authorize
    split
    · exact Prog.looks_raise _
    · split
      · exact Prog.looks_ret _
      · exact Prog.looks_raise _
  have hlock : (lockTerm term).Looks Db.occurrences none := by
    refine (Prog.looks_lock _).bind fun _ => (Prog.looks_select _).bind fun found => ?_
    cases found with
    | none => exact Prog.looks_raise _
    | some t => exact Prog.looks_ret _
  have hlocks : ∀ p, (lockTermsWhere p).Looks Db.occurrences none := fun p =>
    (Prog.looks_select _).bind fun pks =>
      (Prog.Looks.forEach (fun pk => Prog.looks_lock _) pks).bind fun _ => Prog.looks_select _
  -- the materialization alone creates sessions, and it looks before it does
  refine Prog.Looks.elim (Prog.Looks.atomic ?_) (fun _ => rfl) fun e => ?_
  · refine hauth.bind fun _ => hlock.bind fun t => (hlocks _).bind fun _ =>
      (looks_actionPreflight t .activate today).bind fun ⟨preflight, counts⟩ => ?_
    have hvalid : (validateActivationInputs t preflight confirmationName acknowledged).Looks
        Db.occurrences none := by
      unfold validateActivationInputs
      dsimp only
      split
      · exact Prog.looks_raise _
      · exact Prog.looks_ret _
    refine hvalid.bind fun _ => (Prog.looks_select _).bind fun days =>
      (looks_materializeTerm _ _ _ _ _).bind fun result => ?_
    exact ((looks_saveTerms _).bind fun _ => Prog.looks_ret _).bind fun _ =>
      (looks_createAudit _ _).bind fun _ => Prog.looks_ret _
  · cases e with
    | integrity =>
      refine (Prog.looks_select _).bind fun another => ?_
      split <;> exact Prog.looks_raise _
    | _ => exact Prog.looks_raise _

/-! ### Concurrent runs -/

/-- A run of `materialize_term` on a term. -/
inductive Materializing
  /-- the command, as the job and `schedule_new` call it -/
  | command (start days now : ℤ)
  /-- the activation of the term -/
  | activation (actor : Option User) (confirmationName : Option String)
      (acknowledged : List String) (today now : ℤ)

/-- The program of a run. -/
def Materializing.prog (term : AcademicTerm) : Materializing → M Unit
  | command start days now => (fun _ => ()) <$> materializeTerm term start days false now
  | activation actor confirmationName acknowledged today now =>
    (fun _ => ()) <$> activateTerm term.id actor confirmationName acknowledged today now

theorem Materializing.looks (term : AcademicTerm) (run : Materializing) :
    (run.prog term).Looks Db.occurrences none := by
  cases run with
  | command start days now =>
    exact (looks_materializeTerm term start days false now).bind fun _ => rfl
  | activation actor confirmationName acknowledged today now =>
    exact (looks_activateTerm _ actor confirmationName acknowledged today now).bind fun _ => rfl

/-- In every interleaving of runs in which no two of them, at any moment, have missed the
same occurrence without its session having taken effect, no occurrence ever gets a second
session. -/
theorem occurrences_nodup {ι : Type*} [Fintype ι] [DecidableEq ι] (term : AcademicTerm)
    (runs : ι → Materializing) (db : Db) (hdb : db.occurrences.Nodup) (schedule : List ι)
    (hapart : ∀ l, l <+: schedule →
      ((Pool.start db fun i => (runs i).prog term).exec l).Apart Db.occurrences) :
    ((Pool.start db fun i => (runs i).prog term).exec schedule).store.occurrences.Nodup := by
  cases isEmpty_or_nonempty ι with
  | inl hempty =>
    cases schedule with
    | nil => exact hdb
    | cons i schedule => exact isEmptyElim i
  | inr hnonempty =>
    have hstart : (Pool.start db fun i => (runs i).prog term).Guarded Db.occurrences :=
      Pool.guarded_start hdb fun i => (runs i).looks term
    exact (Pool.nodup_exec hstart schedule hapart).nodup

namespace Campus

/-- The job and the creation of a schedule both materialize the Monday. -/
def bothRuns : Bool → Materializing := fun _ => .command monday 1 0

/-- The two runs before the first statement. -/
def bothStart : Pool Bool RowLock Db Err Unit :=
  Pool.start timetable fun i => (bothRuns i).prog term

/-- Both runs ask for the first session before either creates it. -/
def bothMiss : List Bool :=
  List.replicate 4 true ++ List.replicate 4 false ++ List.replicate 4 true ++ List.replicate 4 false

/-- A run that has not moved claims nothing. -/
theorem not_claims_bothStart (i : Bool) (x : ℕ × ℤ) :
    ¬ (bothStart.threads i).Claims Db.occurrences x := by
  have hlonger : ∀ s : Db, ¬ (Db.occurrences s).Perm (x :: Db.occurrences s) := by
    intro s hperm
    have hlength := hperm.length_eq
    simp at hlength
  rintro (hawaits | hpending)
  · -- without schedules the run ends after its queries
    rcases hawaits with hinsert | ⟨-, hawaits⟩
    · exact hlonger Db.empty (hinsert Db.empty)
    · rcases hawaits Db.empty with hinsert | ⟨-, hawaits⟩
      · exact hlonger Db.empty (hinsert Db.empty)
      · rcases hawaits Db.empty with hinsert | ⟨-, hawaits⟩
        · exact hlonger Db.empty (hinsert Db.empty)
        · exact hawaits Db.empty
  · exact absurd (hpending Db.empty) List.not_mem_nil

end Campus

open Campus in
/-- One run creates the two sessions of the Monday while the other has not begun. -/
theorem occurrences_nodup_oneRun :
    (bothStart.exec (List.replicate 40 true)).store.occurrences = [(1, monday), (2, monday)] ∧
      (bothStart.exec (List.replicate 40 true)).store.occurrences.Nodup := by
  refine ⟨by decide +kernel, occurrences_nodup term bothRuns timetable (by decide)
    (List.replicate 40 true) fun l hl i j x hi hj => ?_⟩
  have hfalse : false ∉ l := fun hmem => by
    have htrue := List.eq_of_mem_replicate (hl.subset hmem)
    cases htrue
  -- the second run has not moved
  have hidle : ¬ ((bothStart.exec l).threads false).Claims Db.occurrences x := by
    rw [Pool.threads_exec_of_notMem hfalse]
    exact not_claims_bothStart false x
  cases i with
  | false => exact absurd hi hidle
  | true =>
    cases j with
    | false => exact absurd hj hidle
    | true => rfl

open Campus in
/-- Two runs that miss the same occurrence give it two sessions. -/
theorem occurrence_duplicated :
    ¬ ∀ (term : AcademicTerm) (runs : Bool → Materializing) (db : Db), db.occurrences.Nodup →
      ∀ schedule : List Bool,
        ((Pool.start db fun i => (runs i).prog term).exec schedule).store.occurrences.Nodup := by
  intro h
  have hnodup := h term bothRuns timetable (by decide) bothMiss
  exact absurd hnodup (by decide +kernel)

end FluxTrack
