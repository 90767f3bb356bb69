import FluxTrack.Scheduling.Merge

/-!
# The status sweep

`sweep_no_shows` of `scheduling/jobs.py`: every session of the active term that
is still scheduled past grace and not calendar-excused is marked absent. The
candidates are selected once, with the floor and the building of their room, and
each is then written under a status guard.

## Main definitions

* `sweepNoShows` — the sweep
* `Db.sweepable` — the sessions a sweep at an instant is about

## Main results

* `run_sweepNoShows` — what the sweep does when it runs alone
-/

namespace FluxTrack

open Calendar Relational Process

/-- The kinds of event collected for the guards (`ops/guard_alerts.py`). -/
inductive GuardKind
  | absent | conflict
  deriving DecidableEq, Repr

/-- A sweep candidate with the related rows loaded beside it. -/
structure SweepCandidate where
  session : Session
  floor : ℕ
  building : ℕ

/-- The candidates of a sweep: scheduled sessions of the term that start before
the cutoff. -/
def Db.sweepCandidates (db : Db) (term : ℕ) (cutoff : ℤ) : List SweepCandidate :=
  (db.sessionList.filter fun s =>
      s.status == .scheduled && decide (s.scheduledStart < cutoff) && db.inTerm term s).map
    fun s => ⟨s, (db.room s.room).floor, db.buildingOf s.room⟩

/-- The guarded write of the sweep: mark the session absent if it is still
scheduled, and audit it only then. Answers whether a row was changed. -/
def sweepOne (pk : ℕ) : M Bool :=
  Prog.atomic do
    let flipped ← Prog.modifyGet
      (fun db => db.sessions.rows.any fun s => s.id == pk && s.status == .scheduled)
      fun db =>
        { db with
          sessions := db.sessions.update (fun s => s.id == pk && s.status == .scheduled)
            Session.markAbsent Session.key_markAbsent }
    if flipped then do
      createAudit none (.sessionMarkedAbsent pk none)
      pure true
    else pure false

/-- The candidate is past grace and not excused. -/
def SweepCandidate.due (c : SweepCandidate) (now graceMin : ℤ) (excused : ℤ → ℕ → Bool) : Bool :=
  isNoShowPastGrace c.session.scheduledStart now graceMin && !excused c.session.date c.building

/-- The loop over the candidates, with the count of marked sessions and the
events for the guards. -/
def sweepLoop (now graceMin : ℤ) (excused : ℤ → ℕ → Bool) :
    List SweepCandidate → M (ℕ × List (GuardKind × ℕ))
  | [] => pure (0, [])
  | c :: rest =>
    if c.due now graceMin excused then do
      let flipped ← sweepOne c.session.id
      let (marked, events) ← sweepLoop now graceMin excused rest
      pure (if flipped then (marked + 1, (.absent, c.floor) :: events) else (marked, events))
    else sweepLoop now graceMin excused rest

/-- `sweep_no_shows`: answers with the number of sessions marked absent and the
events appended to `collect`. -/
def sweepNoShows (now : ℤ) : M (ℕ × List (GuardKind × ℕ)) := do
  match ← Prog.select Db.activeTerm with
  | none => pure (0, [])
  | some term => do
    let graceMin ← Prog.select fun db => db.policy.graceMinutes
    let excused ← excusedChecker term.id
    let candidates ← Prog.select fun db =>
      db.sweepCandidates term.id (now - graceMin * minute)
    sweepLoop now graceMin excused candidates

/-! ### The sweep run alone -/

/-- The sessions a sweep at `now` has to mark: of the active term, scheduled, past
grace and not calendar-excused. -/
def Db.sweepable (db : Db) (now : ℤ) (s : Session) : Bool :=
  match db.activeTerm with
  | none => false
  | some term =>
    s.status == .scheduled && isNoShowPastGrace s.scheduledStart now db.policy.graceMinutes &&
      db.inTerm term.id s && !db.excused term.id s.date (db.buildingOf s.room)

theorem scheduled_of_sweepable {db : Db} {now : ℤ} {s : Session} (h : db.sweepable now s = true) :
    s.status = .scheduled := by
  unfold Db.sweepable at h
  split at h
  · cases h
  · simp only [Bool.and_eq_true, beq_iff_eq] at h
    exact h.1.1.1

theorem run_sweepOne_of_scheduled {db : Db} {s : Session} (hs : s ∈ db.sessions)
    (hsched : s.status = .scheduled) :
    (sweepOne s.id).run db =
      (.ok true, { db with
        sessions := db.sessions.update (fun a => a.id == s.id && a.status == .scheduled)
          Session.markAbsent Session.key_markAbsent
        audit := db.audit ++ [⟨none, .sessionMarkedAbsent s.id none⟩] }) := by
  refine Prog.run_atomic_of_ok ?_
  have hany : (db.sessions.rows.any fun a => a.id == s.id && a.status == .scheduled) = true :=
    List.any_eq_true.mpr ⟨s, hs, by simp [hsched]⟩
  rw [Prog.run_modifyGet_bind, hany]
  rfl

/-- The sessions of a list of candidates that are due. -/
def dueIds (now graceMin : ℤ) (excused : ℤ → ℕ → Bool) (cs : List SweepCandidate) : List ℕ :=
  (cs.filter fun c => c.due now graceMin excused).map fun c => c.session.id

/-- The loop over candidates that are distinct and still scheduled marks, audits
and counts exactly the due ones. -/
theorem run_sweepLoop (now graceMin : ℤ) (excused : ℤ → ℕ → Bool) (cs : List SweepCandidate)
    (db : Db) (hnodup : (cs.map fun c => c.session.id).Nodup)
    (hmem : ∀ c ∈ cs, ∃ s ∈ db.sessions, s.id = c.session.id ∧ s.status = .scheduled) :
    (sweepLoop now graceMin excused cs).run db =
      (.ok ((dueIds now graceMin excused cs).length,
          (cs.filter fun c => c.due now graceMin excused).map fun c => (.absent, c.floor)),
        { db with
          sessions := db.sessions.update
            (fun s => (dueIds now graceMin excused cs).contains s.id)
            Session.markAbsent Session.key_markAbsent
          audit := db.audit ++ (dueIds now graceMin excused cs).map
            fun pk => ⟨none, .sessionMarkedAbsent pk none⟩ }) := by
  induction cs generalizing db with
  | nil => simp [sweepLoop, dueIds]
  | cons c cs ih =>
    rw [List.map_cons, List.nodup_cons] at hnodup
    have hmem' := fun d hd => hmem d (List.mem_cons_of_mem c hd)
    by_cases hdue : c.due now graceMin excused
    · obtain ⟨s, hs, hid, hsched⟩ := hmem c List.mem_cons_self
      rw [sweepLoop, if_pos hdue, ← hid,
        Prog.run_bind_of_ok (run_sweepOne_of_scheduled hs hsched)]
      -- the remaining candidates are other rows, so they are still scheduled
      have hrest : ∀ d ∈ cs, ∃ a ∈ db.sessions.update
          (fun a => a.id == s.id && a.status == .scheduled) Session.markAbsent Session.key_markAbsent,
          a.id = d.session.id ∧ a.status = .scheduled := by
        intro d hd
        obtain ⟨a, ha, haid, hasched⟩ := hmem' d hd
        have hne : a.id ≠ s.id := by
          intro heq
          refine hnodup.1 (List.mem_map.mpr ⟨d, hd, ?_⟩)
          rw [← haid, heq, hid]
        exact ⟨a, Table.mem_update.mpr ⟨a, ha, by simp [hne]⟩, haid, hasched⟩
      rw [Prog.run_bind_of_ok (ih _ hnodup.2 hrest)]
      have hids : dueIds now graceMin excused (c :: cs) =
          s.id :: dueIds now graceMin excused cs := by
        simp [dueIds, hdue, hid]
      have hone : ∀ a ∈ db.sessions, a.id = s.id → a.status = .scheduled := by
        intro a ha haid
        rw [Table.eq_of_key_eq ha hs haid]
        exact hsched
      have hsessions : (db.sessions.update (fun a => a.id == s.id && a.status == .scheduled)
            Session.markAbsent Session.key_markAbsent).update
            (fun a => (dueIds now graceMin excused cs).contains a.id)
            Session.markAbsent Session.key_markAbsent =
          db.sessions.update (fun a => (dueIds now graceMin excused (c :: cs)).contains a.id)
            Session.markAbsent Session.key_markAbsent := by
        have hfirst : db.sessions.update (fun a => a.id == s.id && a.status == .scheduled)
            Session.markAbsent Session.key_markAbsent =
            db.sessions.update (fun a => [s.id].contains a.id)
              Session.markAbsent Session.key_markAbsent := by
          refine Table.update_congr fun a ha => ?_
          by_cases hid' : a.id = s.id
          · simp [hid', hone a ha hid']
          · simp [hid']
        rw [hfirst, hids]
        exact update_contains_append (f := Session.markAbsent) db.sessions (fun _ => rfl) [s.id] _
      simp only [Prog.run_pure, hsessions]
      simp [hids, hdue]
    · rw [sweepLoop, if_neg hdue, ih db hnodup.2 hmem']
      simp [dueIds, hdue]

/-- The due candidates of a sweep are the sessions it has to mark. -/
theorem filter_due_sweepCandidates {db : Db} {term : AcademicTerm}
    (hterm : db.activeTerm = some term) (now : ℤ) :
    (db.sweepCandidates term.id (now - db.policy.graceMinutes * minute)).filter
        (fun c => c.due now db.policy.graceMinutes (db.excused term.id)) =
      (db.sessionList.filter (db.sweepable now)).map
        fun s => ⟨s, (db.room s.room).floor, db.buildingOf s.room⟩ := by
  rw [Db.sweepCandidates, List.filter_map, List.filter_filter]
  congr 1
  refine List.filter_congr fun s _ => ?_
  have hcutoff : decide (s.scheduledStart < now - db.policy.graceMinutes * minute) =
      isNoShowPastGrace s.scheduledStart now db.policy.graceMinutes := by
    rw [isNoShowPastGrace, decide_eq_decide]
    omega
  rw [Db.sweepable, hterm, hcutoff]
  simp only [Function.comp, SweepCandidate.due]
  cases isNoShowPastGrace s.scheduledStart now db.policy.graceMinutes <;>
    cases s.status == .scheduled <;> simp [Bool.and_comm]

/-- Run alone, the sweep marks, audits, counts and reports exactly the sessions it
has to mark, and changes nothing else. -/
theorem run_sweepNoShows (now : ℤ) (db : Db) :
    (sweepNoShows now).run db =
      (.ok ((db.sessionList.filter (db.sweepable now)).length,
          (db.sessionList.filter (db.sweepable now)).map
            fun s => (.absent, (db.room s.room).floor)),
        { db with
          sessions := db.sessions.update (db.sweepable now) Session.markAbsent
            Session.key_markAbsent
          audit := db.audit ++ (db.sessionList.filter (db.sweepable now)).map
            fun s => ⟨none, .sessionMarkedAbsent s.id none⟩ }) := by
  rw [sweepNoShows, Prog.run_select_bind]
  cases hterm : db.activeTerm with
  | none =>
    have hnone : db.sweepable now = fun _ => false := by
      funext s
      rw [Db.sweepable, hterm]
    simp [hnone]
  | some term =>
    have hmem : ∀ c ∈ db.sweepCandidates term.id (now - db.policy.graceMinutes * minute),
        ∃ s ∈ db.sessions, s.id = c.session.id ∧ s.status = .scheduled := by
      intro c hc
      obtain ⟨s, hs, rfl⟩ := List.mem_map.mp hc
      obtain ⟨hs, hsel⟩ := List.mem_filter.mp hs
      simp only [Bool.and_eq_true, beq_iff_eq] at hsel
      exact ⟨s, Db.mem_sessionList.mp hs, rfl, hsel.1.1⟩
    have hnodup : ((db.sweepCandidates term.id (now - db.policy.graceMinutes * minute)).map
        fun c => c.session.id).Nodup := by
      rw [Db.sweepCandidates, List.map_map]
      exact db.nodup_map_filter_sessionList _
    -- the loop takes keys, the update afterwards takes the rows that have them
    have hids : dueIds now db.policy.graceMinutes (db.excused term.id)
        (db.sweepCandidates term.id (now - db.policy.graceMinutes * minute)) =
        (db.sessionList.filter (db.sweepable now)).map Session.id := by
      rw [dueIds, filter_due_sweepCandidates hterm, List.map_map]
      rfl
    refine (run_sweepLoop now db.policy.graceMinutes (db.excused term.id) _ db hnodup hmem).trans ?_
    rw [hids, filter_due_sweepCandidates hterm]
    rw [db.update_contains_selected, List.length_map, List.map_map, List.map_map]
    rfl

end FluxTrack
