import FluxTrack.Theorems.CheckerScans

/-!
# Scans that nobody is told of

A queue that is drained forgets every scan that was answered, so a scan that was not applied
has to be reported: an audit row of its own and a notification to the facilities office.
Three kinds of scans are answered or given up without one. A scan without a uuid is flagged
and nothing is written, a scan by code over the rate limit leaves another audit row only, and
a scan that names a session or a time that cannot be read ends the batch.

## Main definitions

* `Db.Reported` — the audit row and the notification of a scan
* `Db.Tells` — a scan is applied, a duplicate, or reported
* `Db.ScanTold` — the condition

## Main results

* `replay_tells_iff` — the scans of a batch
-/

namespace FluxTrack

open Calendar Relational Process

/-- A change that only adds audit rows and notifications. -/
structure Appends (db db' : Db) : Prop where
  audit : db.audit <+: db'.audit
  notifications : db.notifications <+: db'.notifications

theorem Appends.kind : Prog.Kind Appends where
  refl _ := ⟨List.prefix_rfl, List.prefix_rfl⟩
  trans _ _ _ h h' := ⟨h.audit.trans h'.audit, h.notifications.trans h'.notifications⟩

/-- After the scan was handled in `db`, the rows up to `final` begin with a conflict that
describes it and with a notification to the facilities office. -/
def Db.Reported (db final : Db) (user : ℕ) (item : ReplayItem) : Prop :=
  ∃ (uuid : ℕ) (session : Option ℕ) (reason : ReplayReason) (recipients : List ℕ),
    item.clientUuid = some uuid ∧
    db.audit ++ [⟨some user, .checkerReplayConflict session reason uuid item.action⟩] <+:
      final.audit ∧
    (db.notifications ++ recipients.map fun u =>
      ⟨u, .checkerReplayConflict ((db.replayRoom item).map Room.code) reason⟩) <+:
      final.notifications ∧
    ∃ u ∈ recipients, u ∈ db.usersOfRole .ifoAdmin

/-- The scan is answered, and if it is neither applied nor a duplicate it is reported. -/
def Db.Tells (db final : Db) (user : ℕ) (item : ReplayItem) (now today : ℤ) : Prop :=
  ∃ result db', (replayItem user item now today).run db = (.ok result, db') ∧
    (result.status = .flagged → db.Reported final user item)

/-- The handling of the scan raises. -/
def Db.ScanRaises (db : Db) (user : ℕ) (item : ReplayItem) (now today : ℤ) : Prop :=
  (∃ uuid, db.newScan item uuid) ∧ db.scanAllowed user item now ∧ db.scanUnreadable user item now today

/-- The scan has a uuid; and unless it is a duplicate it is within the rate limit and can be
read, and it applies or there is somebody to notify. -/
def Db.ScanTold (db : Db) (user : ℕ) (item : ReplayItem) (now today : ℤ) : Prop :=
  ∃ uuid, item.clientUuid = some uuid ∧
    (db.receipts.has uuid = true ∨
      db.scanAllowed user item now ∧ ¬ db.scanUnreadable user item now today ∧
        (db.scanReason user item now today = none ∨ ∃ u, u ∈ db.usersOfRole .ifoAdmin))

section

variable {db final : Db} {user : ℕ} {item : ReplayItem} {now today : ℤ}

/-! ### One scan -/

theorem Handled.appends {r : Except Err ReplayResult × Db} (h : Handled db user item now today r) :
    Appends db r.2 := by
  cases h with
  | malformed hitem => exact Appends.kind.refl db
  | duplicate hitem hhas => exact Appends.kind.refl db
  | rateLimited hnew hover cache receipts => exact ⟨List.prefix_append _ _, List.prefix_rfl⟩
  | raised hnew hallowed hunreadable cache e => exact ⟨List.prefix_rfl, List.prefix_rfl⟩
  | conflict hnew hallowed hread hreason session cache receipts =>
    exact ⟨List.prefix_append _ _, List.prefix_append _ _⟩
  | applied hnew hallowed hread hroom haction hreason cache receipts notices =>
    exact ⟨List.prefix_append _ _, List.prefix_append _ _⟩

theorem Db.newScan.unique {uuid uuid' : ℕ} (h : db.newScan item uuid)
    (h' : item.clientUuid = some uuid') : uuid' = uuid :=
  Option.some.inj (h'.symm.trans h.1)

/-- The uuid of a new scan has no receipt. -/
theorem Db.newScan.not_has {uuid uuid' : ℕ} (h : db.newScan item uuid)
    (h' : item.clientUuid = some uuid') : db.receipts.has uuid' ≠ true := by
  obtain rfl := h.unique h'
  exact Bool.eq_false_iff.mp h.2

/-- A scan is answered exactly if its handling does not raise. -/
theorem run_replayItem_ok_iff :
    (∃ result db', (replayItem user item now today).run db = (.ok result, db')) ↔
      ¬ db.ScanRaises user item now today := by
  have hhandled := handled_replayItem db user item now today
  generalize (replayItem user item now today).run db = r at hhandled ⊢
  cases hhandled with
  | malformed hitem =>
    refine iff_of_true ⟨_, _, rfl⟩ ?_
    rintro ⟨⟨uuid, hnew, -⟩, -⟩
    rw [hitem] at hnew
    cases hnew
  | duplicate hitem hhas =>
    refine iff_of_true ⟨_, _, rfl⟩ ?_
    rintro ⟨⟨uuid, hnew⟩, -⟩
    exact hnew.not_has hitem hhas
  | rateLimited hnew hover cache receipts =>
    exact iff_of_true ⟨_, _, rfl⟩ fun h => hover h.2.1
  | raised hnew hallowed hunreadable cache e =>
    refine iff_of_false ?_ (not_not.mpr ⟨⟨_, hnew⟩, hallowed, hunreadable⟩)
    rintro ⟨result, db', hrun⟩
    cases hrun
  | conflict hnew hallowed hread hreason session cache receipts =>
    exact iff_of_true ⟨_, _, rfl⟩ fun h => hread h.2.2
  | applied hnew hallowed hread hroom haction hreason cache receipts notices =>
    exact iff_of_true ⟨_, _, rfl⟩ fun h => hread h.2.2

theorem eq_of_append_prefix {α : Type*} {l m : List α} {a b : α} (ha : l ++ [a] <+: m)
    (hb : l ++ [b] <+: m) : a = b := by
  have hprefix := List.prefix_of_prefix_length_le ha hb (by simp)
  have heq := hprefix.eq_of_length (by simp)
  simpa using heq

/-- What is written after it leaves the report of a scan in place. -/
theorem tells_iff (hfinal : ∀ result db', (replayItem user item now today).run db =
    (.ok result, db') → Appends db' final) :
    db.Tells final user item now today ↔ db.ScanTold user item now today := by
  have hhandled := handled_replayItem db user item now today
  unfold Db.Tells
  generalize (replayItem user item now today).run db = r at hhandled hfinal ⊢
  cases hhandled with
  | malformed hitem =>
    refine iff_of_false ?_ ?_
    · rintro ⟨result, db', ⟨⟩, htold⟩
      obtain ⟨uuid, -, -, -, huuid, -⟩ := htold rfl
      rw [hitem] at huuid
      cases huuid
    · rintro ⟨uuid, huuid, -⟩
      rw [hitem] at huuid
      cases huuid
  | duplicate hitem hhas => exact iff_of_true ⟨_, _, rfl, nofun⟩ ⟨_, hitem, .inl hhas⟩
  | @rateLimited uuid hnew hover cache receipts =>
    refine iff_of_false ?_ ?_
    · -- its only audit row is that of the rate limit
      rintro ⟨result, db', ⟨⟩, htold⟩
      obtain ⟨_, _, _, _, _, haudit, _⟩ := htold rfl
      have heq := eq_of_append_prefix haudit (hfinal _ _ rfl).audit
      cases heq
    · rintro ⟨uuid', huuid, hhas | ⟨hallowed, -⟩⟩
      · obtain rfl := hnew.unique huuid
        exact absurd hhas (Bool.eq_false_iff.mp hnew.2)
      · exact hover hallowed
  | @raised uuid hnew hallowed hunreadable cache =>
    refine iff_of_false ?_ ?_
    · rintro ⟨result, db', hrun, -⟩
      cases hrun
    · rintro ⟨uuid', huuid, hhas | ⟨-, hread, -⟩⟩
      · obtain rfl := hnew.unique huuid
        exact absurd hhas (Bool.eq_false_iff.mp hnew.2)
      · exact hread hunreadable
  | @conflict uuid reason hnew hallowed hread hreason session cache receipts =>
    constructor
    · rintro ⟨result, db', ⟨⟩, htold⟩
      obtain ⟨-, -, -, -, -, -, -, u, -, hu⟩ := htold rfl
      exact ⟨uuid, hnew.1, .inr ⟨hallowed, hread, .inr ⟨u, hu⟩⟩⟩
    · rintro ⟨uuid', huuid, hhas | ⟨-, -, hnone | ⟨u, hu⟩⟩⟩
      · obtain rfl := hnew.unique huuid
        exact absurd hhas (Bool.eq_false_iff.mp hnew.2)
      · rw [hreason] at hnone
        cases hnone
      · refine ⟨_, _, rfl, fun _ => ?_⟩
        have happends := hfinal _ _ rfl
        exact ⟨uuid, session, reason, db.usersOfRole .ifoAdmin, hnew.1, happends.audit,
          happends.notifications, u, hu, hu⟩
  | applied hnew hallowed hread hroom haction hreason cache receipts notices =>
    exact iff_of_true ⟨_, _, rfl, nofun⟩ ⟨_, hnew.1, .inr ⟨hallowed, hread, .inl hreason⟩⟩

/-! ### The scans of a batch -/

/-- The database after one more item of a batch. -/
def replayStep (user : ℕ) (now : ℤ) (db : Db) (head : ReplayItem × ℤ) : Db :=
  ((replayItem user head.1 now head.2).run db).2

theorem makes_replay (items : List (ReplayItem × ℤ)) : (replay user now items).Makes Appends := by
  induction items with
  | nil => exact Prog.makes_pure Appends.kind _
  | cons head items ih =>
    refine .bind Appends.kind (fun db => ?_) fun result => ?_
    · exact (handled_replayItem db user head.1 now head.2).appends
    · exact .bind Appends.kind ih fun _ => Prog.makes_pure Appends.kind _

/-- The items of a batch are answered exactly if none of them raises. -/
theorem run_replay_ok_iff {items : List (ReplayItem × ℤ)} {db' : Db} :
    (∃ results, (replay user now items).run db = (.ok results, db')) ↔
      Along (replayStep user now) (fun db head => ¬ db.ScanRaises user head.1 now head.2) db items ∧
        items.foldl (replayStep user now) db = db' := by
  induction items generalizing db with
  | nil =>
    constructor
    · rintro ⟨results, ⟨⟩⟩
      exact ⟨trivial, rfl⟩
    · rintro ⟨-, rfl⟩
      exact ⟨[], rfl⟩
  | cons head items ih =>
    constructor
    · rintro ⟨results, hrun⟩
      obtain ⟨result, db₁, hitem, hrest⟩ := Prog.run_bind_eq_ok hrun
      obtain ⟨rest, db₂, hitems, hend⟩ := Prog.run_bind_eq_ok hrest
      cases hend
      have hstep : replayStep user now db head = db₁ := congrArg Prod.snd hitem
      obtain ⟨halong, hfold⟩ := ih.mp ⟨rest, hitems⟩
      refine ⟨⟨run_replayItem_ok_iff.mp ⟨result, db₁, hitem⟩, ?_⟩, ?_⟩
      · rw [hstep]
        exact halong
      · rw [List.foldl_cons, hstep]
        exact hfold
    · rintro ⟨⟨hreads, halong⟩, hfold⟩
      have hanswers : ∃ result db₁, (replayItem user head.1 now head.2).run db = (.ok result, db₁) :=
        run_replayItem_ok_iff.mpr hreads
      obtain ⟨result, db₁, hitem⟩ := hanswers
      have hstep : replayStep user now db head = db₁ := congrArg Prod.snd hitem
      rw [hstep] at halong
      rw [List.foldl_cons, hstep] at hfold
      obtain ⟨rest, hitems⟩ := ih.mpr ⟨halong, hfold⟩
      exact ⟨result :: rest, (Prog.run_bind_of_ok hitem).trans (Prog.run_bind_of_ok hitems)⟩

/-- The items after those that are answered go on in the database these leave. -/
theorem snd_run_replay_append {pre rest : List (ReplayItem × ℤ)} {db₁ : Db}
    {results : List ReplayResult} (h : (replay user now pre).run db = (.ok results, db₁)) :
    ((replay user now (pre ++ rest)).run db).2 = ((replay user now rest).run db₁).2 := by
  induction pre generalizing db results with
  | nil =>
    cases h
    rfl
  | cons head pre ih =>
    obtain ⟨result, db₂, hitem, hrest⟩ := Prog.run_bind_eq_ok h
    obtain ⟨results', db₃, hitems, hend⟩ := Prog.run_bind_eq_ok hrest
    cases hend
    rw [List.cons_append, replay, Prog.run_bind_of_ok hitem, Prog.snd_run_bind_pure]
    exact ih hitems

end

/-- A scan of a batch is answered, and reported if it is neither applied nor a duplicate,
exactly if no scan before it raises and it meets the condition in the database these leave. -/
theorem replay_tells_iff (db : Db) (user : ℕ) (now : ℤ) (pre post : List (ReplayItem × ℤ))
    (item : ReplayItem) (today : ℤ) :
    (∃ results db₁, (replay user now pre).run db = (.ok results, db₁) ∧
      db₁.Tells ((replay user now (pre ++ (item, today) :: post)).run db).2 user item now today) ↔
    Along (replayStep user now) (fun db head => ¬ db.ScanRaises user head.1 now head.2) db pre ∧
      (pre.foldl (replayStep user now) db).ScanTold user item now today := by
  have hcondition : ∀ results db₁, (replay user now pre).run db = (.ok results, db₁) →
      (db₁.Tells ((replay user now (pre ++ (item, today) :: post)).run db).2 user item now today ↔
        db₁.ScanTold user item now today) := by
    intro results db₁ hpre
    refine tells_iff fun result db' hitem => ?_
    rw [snd_run_replay_append hpre, replay, Prog.run_bind_of_ok hitem, Prog.snd_run_bind_pure]
    exact makes_replay post db'
  constructor
  · rintro ⟨results, db₁, hpre, htells⟩
    obtain ⟨halong, hfold⟩ := run_replay_ok_iff.mp ⟨results, hpre⟩
    rw [hfold]
    exact ⟨halong, (hcondition results db₁ hpre).mp htells⟩
  · rintro ⟨halong, htold⟩
    obtain ⟨results, hpre⟩ := run_replay_ok_iff.mpr ⟨halong, rfl⟩
    exact ⟨results, _, hpre, (hcondition results _ hpre).mpr htold⟩

namespace Campus

/-- The campus with a facilities admin. -/
def staffed : Db :=
  { checked with
    users := ⟨[⟨9, "Ivy", "Facilities", .ifoAdmin, none, true, false, "ivy", ""⟩], by decide⟩ }

/-- A queued scan by a code that no room has. -/
def guess (uuid : ℕ) : ReplayItem × ℤ :=
  (⟨some uuid, "999999", true, .absent, .known .verified, "", .absent⟩, monday)

/-- Five of them, as many as the rate limit admits. -/
def fiveGuesses : List (ReplayItem × ℤ) := [guess 1, guess 2, guess 3, guess 4, guess 5]

/-- Half past eight on that Monday. -/
def halfPastEight : ℤ := wallClock monday 8 30 0

/-- The campus after the five scans. -/
def guessed : Db := ((replay 7 halfPastEight fiveGuesses).run staffed).2

end Campus

/-- The sixth scan by code within a minute is answered as flagged, which makes the queue forget
it, and nobody is told. -/
theorem replay_loses_scan :
    ¬ ∀ (db : Db) (user : ℕ) (now : ℤ) (pre : List (ReplayItem × ℤ)) (item : ReplayItem)
      (today : ℤ) (results : List ReplayResult) (result : ReplayResult) (db₁ db' : Db),
      (replay user now pre).run db = (.ok results, db₁) →
        (replayItem user item now today).run db₁ = (.ok result, db') →
          result.status = .flagged → db₁.Reported db' user item := by
  intro h
  have hfive : ((replay 7 Campus.halfPastEight Campus.fiveGuesses).run
      Campus.staffed).1.toOption.isSome = true := by decide +kernel
  have hsixth : ((replayItem 7 (Campus.guess 6).1 Campus.halfPastEight Campus.monday).run
      Campus.guessed).1.toOption = some ⟨some 6, .flagged, some .rateLimited⟩ := by
    decide +kernel
  have hnew : Campus.guessed.receipts.has 6 = false := by decide +kernel
  have hover : Campus.guessed.replayCodeAllowed 7 Campus.halfPastEight = false := by
    decide +kernel
  rcases hpre : (replay 7 Campus.halfPastEight Campus.fiveGuesses).run Campus.staffed with
    ⟨e | results, db₁⟩
  · rw [hpre] at hfive
    cases hfive
  obtain rfl : Campus.guessed = db₁ := congrArg Prod.snd hpre
  rcases hitem : (replayItem 7 (Campus.guess 6).1 Campus.halfPastEight Campus.monday).run
      Campus.guessed with ⟨e | result, db'⟩
  · rw [hitem] at hsixth
    cases hsixth
  rw [hitem] at hsixth
  cases hsixth
  have htells : Campus.guessed.Tells db' 7 (Campus.guess 6).1 Campus.halfPastEight Campus.monday :=
    ⟨_, db', hitem, h _ _ _ _ _ _ _ _ _ _ hpre hitem⟩
  have hsame : ∀ result db'', (replayItem 7 (Campus.guess 6).1 Campus.halfPastEight
      Campus.monday).run Campus.guessed = (.ok result, db'') → Appends db'' db' := by
    intro result db'' hrun
    cases hrun.symm.trans hitem
    exact Appends.kind.refl _
  obtain ⟨uuid, ⟨⟩, hhas | ⟨hallowed, -⟩⟩ := (tells_iff hsame).mp htells
  · rw [hnew] at hhas
    cases hhas
  · rw [hallowed rfl] at hover
    cases hover

end FluxTrack
