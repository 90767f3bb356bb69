import FluxTrack.Data.Builtins
import FluxTrack.Scheduling.Materialization

/-!
# The lifecycle of academic terms

`scheduling/term_lifecycle.py`: terms are created as drafts, activated, closed and
reopened. Every service is one transaction that authorizes the actor, locks the
rows it decides about, collects blockers and warnings and either raises with them
or writes the status and one audit row. Activation materializes the first sessions
in the same transaction.

Names are compared after `casefold`, which is a parameter here: nothing depends on
how it folds.

## Main definitions

* `normalizeName`, `authorize`
* `creationPreflight`, `actionPreflight` — the blockers and warnings
* `createTerm`, `closeTerm`, `reopenTerm`, `activateTerm` — the services
-/

namespace FluxTrack

open Calendar Relational Process

/-- `_normalize_name`. -/
def normalizeName (name : Option String) : String := Py.join " " (Py.words (name.getD ""))

/-- Superusers and IFO admins manage terms. -/
def User.managesTerms (u : User) : Bool := u.isSuperuser || u.role == .ifoAdmin

/-- `_authorize`. -/
def authorize (actor : Option User) : M Unit :=
  match actor with
  | none =>
    .raise (.termLifecycle "term lifecycle action requires an actor" ["unauthorized"] [])
  | some u =>
    if u.managesTerms then pure ()
    else .raise (.termLifecycle "only IFO Admins can manage academic terms" ["unauthorized"] [])

/-- `select_for_update()` on the terms that `p` selects: the rows found are locked and
read again. -/
def lockTermsWhere (p : AcademicTerm → Bool) : M (List AcademicTerm) := do
  let pks ← Prog.select fun db => (db.terms.table.rows.filter p).map AcademicTerm.id
  Prog.forEach pks fun pk => Prog.lock (.term pk)
  Prog.select fun db => db.terms.table.rows.filter fun t => pks.contains t.id && p t

/-- The table with the written rows, if the constraints on terms allow the write. -/
def Db.writeTerms (db : Db) (f : Table AcademicTerm → Table AcademicTerm) : Option Db :=
  (TermTable.ofTable? (f db.terms.table)).map fun terms => { db with terms := terms }

/-- A write to the terms, answering with the table it found. -/
def saveTerms (f : Table AcademicTerm → Table AcademicTerm) : M (Table AcademicTerm) := do
  match ← Prog.modifyGet (fun db => (db.writeTerms f).map fun _ => db.terms.table)
      fun db => (db.writeTerms f).getD db with
  | some found => pure found
  | none => .raise .integrity

/-! ### Creation -/

/-- The fields of `TermPreflight` that the services read. -/
structure TermPreflight where
  candidateName : String
  blockers : List String
  warnings : List String
  deriving DecidableEq

/-- The blocker, if the condition holds. -/
def blockIf (c : Bool) (blocker : String) : List String := if c then [blocker] else []

theorem blockIf_eq_nil {c : Bool} {blocker : String} : blockIf c blocker = [] ↔ c = false := by
  cases c <;> simp [blockIf]

/-- The dates of the term meet those of a new one. -/
def AcademicTerm.meets (t : AcademicTerm) (startDate endDate : ℤ) : Bool :=
  decide (t.startDate ≤ endDate) && decide (startDate ≤ t.endDate)

/-- `_creation_preflight_from_rows`. -/
def creationPreflight (casefold : String → String) (name : Option String)
    (startDate endDate : Option ℤ) (rows : List AcademicTerm) : TermPreflight where
  candidateName := normalizeName name
  blockers :=
    let normalized := normalizeName name
    let nameRequired := blockIf (normalized == "") "name_required"
    let dates := match startDate, endDate with
      | some s, some e => blockIf (decide (e < s)) "date_order"
      | _, _ => ["dates_required"]
    let duplicate := blockIf (normalized != "" && rows.any fun t =>
      casefold (normalizeName (some t.name)) == casefold normalized) "duplicate_name"
    let overlapping := match startDate, endDate with
      | some s, some e => blockIf (rows.any fun t => t.meets s e) "overlapping_term"
      | _, _ => []
    (nameRequired ++ dates ++ duplicate ++ overlapping).eraseDups
  warnings := []

/-- `AcademicTerm.objects.create` with status `DRAFT`. -/
def insertTerm (name : String) (startDate endDate : ℤ) : M ℕ :=
  -- the name column holds sixty characters
  if 60 < name.length then .raise .data
  else do
    let found ← saveTerms fun t => t.insert fun pk => ⟨pk, name, startDate, endDate, .draft⟩
    pure found.nextKey

/-- `term.schedules.count()`. -/
def Db.scheduleCount (db : Db) (term : ℕ) : ℕ :=
  (db.schedules.rows.filter fun s => s.term == term).length

/-- `Session.objects.filter(schedule__term=term)`, counted where `p` holds. -/
def Db.sessionCount (db : Db) (term : ℕ) (p : Session → Bool) : ℕ :=
  (db.sessions.rows.filter fun s => db.inTerm term s && p s).length

/-- `create_term`, answering with the new term. -/
def createTerm (casefold : String → String) (actor : Option User) (name : Option String)
    (startDate endDate : Option ℤ) (confirmationName : Option String) : M ℕ :=
  Prog.atomic do
    authorize actor
    let rows ← lockTermsWhere fun _ => true
    let preflight := creationPreflight casefold name startDate endDate rows
    if normalizeName confirmationName ≠ preflight.candidateName then
      .raise (.termLifecycle "confirmation must exactly match the proposed term name"
        (preflight.blockers ++ ["confirmation_mismatch"]) [])
    else if preflight.blockers ≠ [] then
      .raise (.termLifecycle "term creation preflight has blockers" preflight.blockers [])
    else do
      let pk ← insertTerm preflight.candidateName (startDate.getD 0) (endDate.getD 0)
      let scheduleCount ← Prog.select fun db => db.scheduleCount pk
      let sessionCount ← Prog.select fun db => db.sessionCount pk fun _ => true
      createAudit (actor.map User.id)
        (.termCreated pk preflight.candidateName (startDate.getD 0) (endDate.getD 0)
          scheduleCount sessionCount)
      pure pk

/-! ### Actions on a term -/

/-- `_term_counts`. -/
structure TermCounts where
  schedules : ℕ
  sessions : ℕ
  activeSessions : ℕ
  scheduledSessions : ℕ
  deriving DecidableEq

/-- `_term_counts`, one query for each count. -/
def termCounts (term : ℕ) : M TermCounts := do
  let schedules ← Prog.select fun db => db.scheduleCount term
  let sessions ← Prog.select fun db => db.sessionCount term fun _ => true
  let activeSessions ← Prog.select fun db => db.sessionCount term fun s => s.status == .active
  let scheduledSessions ← Prog.select fun db =>
    db.sessionCount term fun s => s.status == .scheduled
  pure ⟨schedules, sessions, activeSessions, scheduledSessions⟩

/-- The actions of `_action_preflight`. -/
inductive TermAction
  | close | reopen | activate
  deriving DecidableEq, Repr

/-- Another term is active. -/
def Db.anotherActive (db : Db) (term : ℕ) : Bool :=
  db.terms.table.rows.any fun t => t.status == .active && t.id != term

/-- `_action_preflight`, answering with the counts it made too. -/
def actionPreflight (term : AcademicTerm) (action : TermAction) (today : ℤ) :
    M (TermPreflight × TermCounts) := do
  let counts ← termCounts term.id
  match action with
  | .close =>
    pure (⟨"",
      blockIf (term.status != .active) "not_active" ++
        blockIf (decide (today < term.endDate)) "before_end_date" ++
        blockIf (counts.activeSessions != 0) "active_sessions",
      blockIf (counts.scheduledSessions != 0) "scheduled_sessions_present"⟩, counts)
  | .reopen => do
    let successor ← Prog.select fun db => db.anotherActive term.id
    pure (⟨"", blockIf (term.status != .archived) "not_archived",
      blockIf successor "active_successor_exists"⟩, counts)
  | .activate => do
    let another ← Prog.select fun db => db.anotherActive term.id
    pure (⟨"",
      blockIf (term.status != .draft) "not_draft" ++
        blockIf (decide (term.endDate < term.startDate)) "date_order" ++
        blockIf another "another_active",
      blockIf (counts.schedules == 0) "empty_schedule_set"⟩, counts)

/-- The two sets of warnings are the same set. -/
def sameWarnings (acknowledged current : List String) : Bool :=
  acknowledged.all (current.contains ·) && current.all (acknowledged.contains ·)

/-- The blockers of an action with what its inputs add. -/
def actionBlockers (term : AcademicTerm) (preflight : TermPreflight)
    (confirmationName : Option String) (reasonMissing : Bool) (acknowledged : List String) :
    List String :=
  preflight.blockers ++ blockIf (confirmationName.getD "" != term.name) "confirmation_mismatch" ++
    blockIf reasonMissing "reason_required" ++
    blockIf (!sameWarnings acknowledged preflight.warnings) "warnings_unacknowledged"

/-- `_validate_common_action_inputs`, answering with the reason. -/
def validateCommonActionInputs (term : AcademicTerm) (preflight : TermPreflight)
    (confirmationName reason : Option String) (acknowledged : List String) : M String :=
  let normalizedReason := Py.strip (reason.getD "")
  let blockers := actionBlockers term preflight confirmationName (normalizedReason == "") acknowledged
  if blockers ≠ [] then
    .raise (.termLifecycle "term lifecycle action has blockers" blockers.eraseDups
      preflight.warnings)
  else pure normalizedReason

/-- `_validate_activation_inputs`. -/
def validateActivationInputs (term : AcademicTerm) (preflight : TermPreflight)
    (confirmationName : Option String) (acknowledged : List String) : M Unit :=
  let blockers := actionBlockers term preflight confirmationName false acknowledged
  if blockers ≠ [] then
    .raise (.termLifecycle "term activation has blockers" blockers.eraseDups preflight.warnings)
  else pure ()

/-- The term in another status. -/
def AcademicTerm.withStatus (status : TermStatus) (t : AcademicTerm) : AcademicTerm :=
  { t with status := status }

theorem AcademicTerm.key_withStatus (status : TermStatus) (t : AcademicTerm) :
    key (t.withStatus status) = key t := rfl

/-- `term.save(update_fields=["status"])`. -/
def saveTermStatus (term : ℕ) (status : TermStatus) : M Unit := do
  let _ ← saveTerms fun t =>
    t.update (fun a => a.id == term) (AcademicTerm.withStatus status)
      (AcademicTerm.key_withStatus status)
  pure ()

/-- `close_term`. -/
def closeTerm (term : ℕ) (actor : Option User) (confirmationName reason : Option String)
    (acknowledged : List String) (today : ℤ) : M ℕ :=
  Prog.atomic do
    authorize actor
    let t ← lockTerm term
    let (preflight, counts) ← actionPreflight t .close today
    let normalizedReason ← validateCommonActionInputs t preflight confirmationName reason acknowledged
    saveTermStatus t.id .archived
    createAudit (actor.map User.id)
      (.termArchived t.id normalizedReason t.status counts.schedules counts.sessions
        counts.activeSessions preflight.warnings)
    pure t.id

/-- `reopen_term`. -/
def reopenTerm (term : ℕ) (actor : Option User) (confirmationName reason : Option String)
    (acknowledged : List String) (today : ℤ) : M ℕ :=
  Prog.atomic do
    authorize actor
    let t ← lockTerm term
    let (preflight, counts) ← actionPreflight t .reopen today
    let normalizedReason ← validateCommonActionInputs t preflight confirmationName reason acknowledged
    saveTermStatus t.id .draft
    createAudit (actor.map User.id)
      (.termReopened t.id normalizedReason t.status counts.schedules counts.sessions
        counts.activeSessions preflight.warnings)
    pure t.id

/-- The transaction of `activate_term`. -/
def activation (term : ℕ) (actor : Option User) (confirmationName : Option String)
    (acknowledged : List String) (today now : ℤ) : M ℕ :=
  Prog.atomic do
    authorize actor
    let t ← lockTerm term
    let _ ← lockTermsWhere fun a => a.status == .active && a.id != t.id
    let (preflight, counts) ← actionPreflight t .activate today
    validateActivationInputs t preflight confirmationName acknowledged
    let horizonDays ← Prog.select fun db => db.policy.materializationHorizonDays
    let start := max today t.startDate
    let result ← materializeTerm t start horizonDays true now
    saveTermStatus t.id .active
    createAudit (actor.map User.id)
      (.termActivated t.id t.status horizonDays start result.created result.existing
        result.skipped counts.schedules (counts.sessions + result.created) preflight.warnings)
    pure t.id

/-- `activate_term`: a write that loses against the unique active term is reported as a
blocker. -/
def activateTerm (term : ℕ) (actor : Option User) (confirmationName : Option String)
    (acknowledged : List String) (today now : ℤ) : M ℕ :=
  (activation term actor confirmationName acknowledged today now).elim pure
    fun
      | .integrity => do
        if ← Prog.select fun db => db.anotherActive term then
          .raise (.termLifecycle "another academic term is already active" ["another_active"] [])
        else .raise .integrity
      | e => .raise e

/-! ### The services run alone -/

section

variable {db db' : Db} {actor : Option User} {term : ℕ}

theorem run_authorize_eq_ok (h : (authorize actor).run db = (.ok (), db')) :
    db' = db ∧ ∃ u, actor = some u ∧ u.managesTerms = true := by
  cases actor with
  | none => cases h
  | some u =>
    unfold authorize at h
    dsimp only at h
    split at h
    · rename_i hu
      cases h
      exact ⟨rfl, u, rfl, hu⟩
    · cases h

theorem run_lockTermsWhere (p : AcademicTerm → Bool) :
    (lockTermsWhere p).run db = (.ok (db.terms.table.rows.filter p), db) := by
  have hlocks : ∀ pks : List ℕ,
      (Prog.forEach pks fun pk => Prog.lock (.term pk) : M Unit).run db = (.ok (), db) := by
    intro pks
    induction pks with
    | nil => rfl
    | cons pk pks ih => rw [Prog.run_forEach_cons (by rfl), ih]
  rw [lockTermsWhere, Prog.run_select_bind, Prog.run_bind_of_ok (hlocks _), Prog.run_select]
  congr 2
  refine List.filter_congr fun t ht => ?_
  by_cases hp : p t = true
  · have hmem : t.id ∈ (db.terms.table.rows.filter p).map AcademicTerm.id :=
      List.mem_map_of_mem (List.mem_filter.mpr ⟨ht, hp⟩)
    rw [hp, Bool.and_true]
    exact List.contains_iff_mem.mpr hmem
  · rw [Bool.eq_false_iff.mpr hp, Bool.and_false]

theorem run_saveTerms_eq_ok {f : Table AcademicTerm → Table AcademicTerm}
    {found : Table AcademicTerm} (h : (saveTerms f).run db = (.ok found, db')) :
    found = db.terms.table ∧
      ∃ terms, terms.table = f db.terms.table ∧ db' = { db with terms := terms } := by
  rw [saveTerms, Prog.run_modifyGet_bind] at h
  cases hwrite : TermTable.ofTable? (f db.terms.table) with
  | none =>
    rw [Db.writeTerms, hwrite] at h
    cases h
  | some terms =>
    rw [Db.writeTerms, hwrite] at h
    cases h
    exact ⟨rfl, terms, TermTable.table_of_ofTable? hwrite, rfl⟩

theorem run_insertTerm_eq_ok {name : String} {startDate endDate : ℤ} {pk : ℕ}
    (h : (insertTerm name startDate endDate).run db = (.ok pk, db')) :
    pk = db.terms.table.nextKey ∧
      ∃ terms : TermTable,
        terms.table = db.terms.table.insert (fun pk => ⟨pk, name, startDate, endDate, .draft⟩) ∧
        db' = { db with terms := terms } := by
  unfold insertTerm at h
  split at h
  · cases h
  · obtain ⟨found, db₁, hsave, hret⟩ := Prog.run_bind_eq_ok h
    obtain ⟨rfl, terms, hterms, rfl⟩ := run_saveTerms_eq_ok hsave
    cases hret
    exact ⟨rfl, terms, hterms, rfl⟩

theorem run_saveTermStatus_eq_ok {status : TermStatus}
    (h : (saveTermStatus term status).run db = (.ok (), db')) :
    ∃ terms : TermTable,
      terms.table = db.terms.table.update (fun a => a.id == term) (AcademicTerm.withStatus status)
        (AcademicTerm.key_withStatus status) ∧
      db' = { db with terms := terms } := by
  obtain ⟨found, db₁, hsave, hret⟩ := Prog.run_bind_eq_ok h
  obtain ⟨-, terms, hterms, rfl⟩ := run_saveTerms_eq_ok hsave
  cases hret
  exact ⟨terms, hterms, rfl⟩

/-- The counts of a term, as one reading of the database. -/
def Db.termCounts (db : Db) (term : ℕ) : TermCounts :=
  ⟨db.scheduleCount term, db.sessionCount term fun _ => true,
    db.sessionCount term fun s => s.status == .active,
    db.sessionCount term fun s => s.status == .scheduled⟩

/-- The status an action starts from. -/
def TermAction.before : TermAction → TermStatus
  | close => .active
  | reopen => .archived
  | activate => .draft

/-- The status an action leads to. -/
def TermAction.after : TermAction → TermStatus
  | close => .archived
  | reopen => .draft
  | activate => .active

/-- Looking at a term changes nothing, and without a blocker the term is in the status
the action starts from. -/
theorem run_actionPreflight (db : Db) (t : AcademicTerm) (action : TermAction) (today : ℤ) :
    ∃ preflight, (actionPreflight t action today).run db = (.ok (preflight, db.termCounts t.id), db) ∧
      (preflight.blockers = [] → t.status = action.before) := by
  cases action with
  | close =>
    refine ⟨_, rfl, fun hnone => ?_⟩
    simp only [List.append_eq_nil_iff, blockIf_eq_nil] at hnone
    simpa [TermAction.before] using hnone.1.1
  | reopen =>
    refine ⟨_, rfl, fun hnone => ?_⟩
    simp only [blockIf_eq_nil] at hnone
    simpa [TermAction.before] using hnone
  | activate =>
    refine ⟨_, rfl, fun hnone => ?_⟩
    simp only [List.append_eq_nil_iff, blockIf_eq_nil] at hnone
    simpa [TermAction.before] using hnone.1.1

theorem actionBlockers_eq_nil {t : AcademicTerm} {preflight : TermPreflight}
    {confirmationName : Option String} {reasonMissing : Bool} {acknowledged : List String}
    (h : actionBlockers t preflight confirmationName reasonMissing acknowledged = []) :
    preflight.blockers = [] := by
  simp only [actionBlockers, List.append_eq_nil_iff] at h
  exact h.1.1.1

theorem run_validateCommonActionInputs_eq_ok {t : AcademicTerm} {preflight : TermPreflight}
    {confirmationName reason : Option String} {acknowledged : List String} {normalized : String}
    (h : (validateCommonActionInputs t preflight confirmationName reason acknowledged).run db =
      (.ok normalized, db')) : db' = db ∧ preflight.blockers = [] := by
  unfold validateCommonActionInputs at h
  dsimp only at h
  split at h
  · cases h
  · rename_i hnone
    cases h
    exact ⟨rfl, actionBlockers_eq_nil (not_not.mp hnone)⟩

theorem run_validateActivationInputs_eq_ok {t : AcademicTerm} {preflight : TermPreflight}
    {confirmationName : Option String} {acknowledged : List String}
    (h : (validateActivationInputs t preflight confirmationName acknowledged).run db =
      (.ok (), db')) : db' = db ∧ preflight.blockers = [] := by
  unfold validateActivationInputs at h
  dsimp only at h
  split at h
  · cases h
  · rename_i hnone
    cases h
    exact ⟨rfl, actionBlockers_eq_nil (not_not.mp hnone)⟩

end

end FluxTrack
