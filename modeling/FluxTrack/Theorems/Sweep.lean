import FluxTrack.Scheduling.Jobs
import FluxTrack.Process.Interference

/-!
# Correctness of the status sweep

The sweep run alone marks exactly the sessions it has to mark and finds nothing
to do when it is run again at the same instant. Run beside others, every
statement of the sweep that changes a session finds it scheduled, and an audit
row is written only by the statement right after such a change.

## Main results

* `sweepNoShows_exact_idempotent_raceSafe`
-/

namespace FluxTrack

open Calendar Relational Process

/-! ### Run alone -/

/-- No session is left to mark after a sweep. -/
theorem sweepable_run_sweepNoShows (now : ℤ) (db : Db) (s : Session)
    (hs : s ∈ ((sweepNoShows now).run db).2.sessions) :
    ((sweepNoShows now).run db).2.sweepable now s = false := by
  rw [run_sweepNoShows] at hs ⊢
  replace hs : s ∈ db.sessions.update (db.sweepable now) Session.markAbsent
      Session.key_markAbsent := hs
  obtain ⟨a, -, rfl⟩ := Table.mem_update.mp hs
  -- the sweep leaves everything `sweepable` reads, except the sessions themselves
  change Db.sweepable db now _ = false
  by_cases hdue : db.sweepable now a
  · rw [if_pos hdue]
    unfold Db.sweepable
    split
    · rfl
    · rfl
  · rw [if_neg hdue]
    exact Bool.eq_false_iff.mpr hdue

/-- A second sweep at the same instant does nothing. -/
theorem run_sweepNoShows_twice (now : ℤ) (db : Db) :
    (sweepNoShows now).run ((sweepNoShows now).run db).2 =
      (.ok (0, []), ((sweepNoShows now).run db).2) := by
  have hnone := sweepable_run_sweepNoShows now db
  generalize ((sweepNoShows now).run db).2 = db' at hnone ⊢
  have hnil : db'.sessionList.filter (db'.sweepable now) = [] :=
    List.filter_eq_nil_iff.mpr fun s hs => by simp [hnone s (Db.mem_sessionList.mp hs)]
  have hsame : db'.sessions.update (db'.sweepable now) Session.markAbsent Session.key_markAbsent =
      db'.sessions := Table.update_eq_self hnone
  rw [run_sweepNoShows, hnil, hsame]
  simp

/-! ### Run beside others -/

/-- The statement from `s` to `t` marks session `pk`, which it finds scheduled, absent. -/
def MarksAbsent (pk : ℕ) (s t : Db) : Prop :=
  ∃ a, s.sessions.get? pk = some a ∧ a.status = .scheduled ∧
    t.sessions.get? pk = some a.markAbsent

/-- What a statement of the sweep does after the own statements `H`: a session it
changes is marked absent, and a session it audits was marked by the statement
before. -/
def SweepStatement (H : List (Db × Db)) (s t : Db) : Prop :=
  (∀ pk, t.sessions.get? pk = s.sessions.get? pk ∨ MarksAbsent pk s t) ∧
  (t.audit = s.audit ∨
    ∃ pk s' t', H.getLast? = some (s', t') ∧ MarksAbsent pk s' t' ∧
      t.audit = s.audit ++ [⟨none, .sessionMarkedAbsent pk none⟩])

theorem sweepStatement_refl (H : List (Db × Db)) (s : Db) : SweepStatement H s s :=
  ⟨fun _ => .inl rfl, .inl rfl⟩

/-- The guarded update of the sweep. -/
theorem ensures_sweepOne (H : List (Db × Db)) (pk : ℕ) :
    (sweepOne pk).Ensures SweepStatement (fun _ _ => True) H := by
  refine .atomic (sweepStatement_refl H) fun s₀ => ?_
  refine Prog.ensures_modifyGet_bind.mpr fun s => ⟨⟨fun pk' => ?_, .inl rfl⟩, ?_⟩
  · cases hget : s.sessions.get? pk' with
    | none =>
      left
      rw [Table.get?_update, hget]
      rfl
    | some a =>
      by_cases hsel : (a.id == pk && a.status == .scheduled) = true
      · right
        refine ⟨a, hget, by simpa using (Bool.and_eq_true_iff.mp hsel).2, ?_⟩
        rw [Table.get?_update, hget, Option.map_some, if_pos hsel]
      · left
        rw [Table.get?_update, hget, Option.map_some, if_neg hsel]
  · by_cases hflip :
        (s.sessions.rows.any fun a => a.id == pk && a.status == .scheduled) = true
    · obtain ⟨a, ha, hsel⟩ := List.any_eq_true.mp hflip
      have hid : a.id = pk := by simpa using (Bool.and_eq_true_iff.mp hsel).1
      have hget : s.sessions.get? pk = some a := hid ▸ Table.get?_key ha
      rw [hflip]
      refine Prog.ensures_modify_bind.mpr fun s' =>
        ⟨⟨fun _ => .inl rfl, .inr ⟨pk, s, _, List.getLast?_concat .., ?_, rfl⟩⟩, trivial⟩
      refine ⟨a, hget, by simpa using (Bool.and_eq_true_iff.mp hsel).2, ?_⟩
      rw [Table.get?_update, hget, Option.map_some, if_pos hsel]
    · rw [Bool.not_eq_true] at hflip
      rw [hflip]
      trivial

theorem ensures_sweepLoop (now graceMin : ℤ) (excused : ℤ → ℕ → Bool) (cs : List SweepCandidate)
    (H : List (Db × Db)) :
    (sweepLoop now graceMin excused cs).Ensures SweepStatement (fun _ _ => True) H := by
  induction cs generalizing H with
  | nil => trivial
  | cons c cs ih =>
    rw [sweepLoop]
    by_cases hdue : c.due now graceMin excused
    · rw [if_pos hdue]
      exact (ensures_sweepOne H c.session.id).bind fun flipped H' _ =>
        (ih H').bind fun _ _ _ => trivial
    · rw [if_neg hdue]
      exact ih H

theorem ensures_excusedChecker (term : ℕ) (H : List (Db × Db)) :
    (excusedChecker term).Ensures SweepStatement (fun _ _ => True) H := by
  refine Prog.ensures_select_bind.mpr fun s => ⟨sweepStatement_refl _ _, ?_⟩
  exact Prog.ensures_select_bind.mpr fun s' => ⟨sweepStatement_refl _ _, trivial⟩

theorem ensures_sweepNoShows (now : ℤ) (H : List (Db × Db)) :
    (sweepNoShows now).Ensures SweepStatement (fun _ _ => True) H := by
  refine Prog.ensures_select_bind.mpr fun s => ⟨sweepStatement_refl _ _, ?_⟩
  cases s.activeTerm with
  | none => trivial
  | some term =>
    refine Prog.ensures_select_bind.mpr fun s₁ => ⟨sweepStatement_refl _ _, ?_⟩
    refine (ensures_excusedChecker term.id _).bind fun excused H' _ => ?_
    exact Prog.ensures_select_bind.mpr fun s₂ =>
      ⟨sweepStatement_refl _ _, ensures_sweepLoop now _ _ _ _⟩

/-- The sweep is exact and idempotent when it runs alone, and beside any others it
neither changes nor audits a session that is not scheduled at its own update. -/
theorem sweepNoShows_exact_idempotent_raceSafe (now : ℤ) (db : Db) :
    -- alone: the rows, the audit, the count and the events
    (sweepNoShows now).run db =
      (.ok ((db.sessionList.filter (db.sweepable now)).length,
          (db.sessionList.filter (db.sweepable now)).map
            fun s => (.absent, (db.room s.room).floor)),
        { db with
          sessions := db.sessions.update (db.sweepable now) fun s => { s with status := .absent }
          audit := db.audit ++ (db.sessionList.filter (db.sweepable now)).map
            fun s => ⟨none, .sessionMarkedAbsent s.id none⟩ }) ∧
    (∀ s, db.sweepable now s = true ↔ ∃ term, db.activeTerm = some term ∧
      (db.scheduleOf s).term = term.id ∧ s.status = .scheduled ∧
      s.scheduledStart + db.policy.graceMinutes * minute < now ∧
      db.excused term.id s.date (db.buildingOf s.room) = false) ∧
    -- again
    (sweepNoShows now).run ((sweepNoShows now).run db).2 =
      (.ok (0, []), ((sweepNoShows now).run db).2) ∧
    -- beside others
    ∀ evs q t, Exec (sweepNoShows now) db evs q t →
      ∀ pre s t post, evs = pre ++ .own s t :: post →
        (∀ pk, t.sessions.get? pk = s.sessions.get? pk ∨ MarksAbsent pk s t) ∧
        (t.audit = s.audit ∨
          ∃ pk s' t', (owns pre).getLast? = some (s', t') ∧ MarksAbsent pk s' t' ∧
            t.audit = s.audit ++ [⟨none, .sessionMarkedAbsent pk none⟩]) := by
  refine ⟨run_sweepNoShows now db, fun s => ?_, run_sweepNoShows_twice now db, ?_⟩
  · unfold Db.sweepable Db.inTerm
    cases hterm : db.activeTerm with
    | none => simp
    | some term =>
      simp only [Bool.and_eq_true, beq_iff_eq, isNoShowPastGrace_iff, Bool.not_eq_true',
        Option.some.injEq, exists_eq_left']
      tauto
  · intro evs q t hexec pre s t post heq
    obtain ⟨hstmt, -⟩ := (ensures_sweepNoShows now []).of_exec hexec pre s t post heq
    rw [List.nil_append] at hstmt
    exact hstmt

end FluxTrack
