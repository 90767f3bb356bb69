import FluxTrack.Scheduling.TermLifecycle
import FluxTrack.System

/-!
# Runs of the term lifecycle

Terms are created, activated, closed and reopened by anybody in any order. Dates
and names of terms stay apart, statuses move around one cycle, only the people in
charge change anything, and every successful call leaves its audit row. Activation
is the one call that may leave more: a session that is materialized into an approved
online shift releases its room, and that is audited too.

## Main definitions

* `TermCall` — a call of one of the four services
* `Db.TermsApart` — dates do not meet and names do not fold together
* `Births` — what materialization adds to sessions and audit log
* `LawfulTermCall` — what a call may do

## Main results

* `births_materializeTerm` — materialization only bears sessions
* `termCalls_lawful` — every sequence of calls
-/

namespace FluxTrack

open Calendar Relational Process

/-- A call of one of the lifecycle services. -/
inductive TermCall
  | create (actor : Option User) (name : Option String) (startDate endDate : Option ℤ)
      (confirmationName : Option String)
  | activate (term : ℕ) (actor : Option User) (confirmationName : Option String)
      (acknowledged : List String) (today now : ℤ)
  | close (term : ℕ) (actor : Option User) (confirmationName reason : Option String)
      (acknowledged : List String) (today : ℤ)
  | reopen (term : ℕ) (actor : Option User) (confirmationName reason : Option String)
      (acknowledged : List String) (today : ℤ)

namespace TermCall

/-- The program of a call, answering with the term. -/
def prog (casefold : String → String) : TermCall → M ℕ
  | create actor name startDate endDate confirmationName =>
    createTerm casefold actor name startDate endDate confirmationName
  | activate term actor confirmationName acknowledged today now =>
    activateTerm term actor confirmationName acknowledged today now
  | close term actor confirmationName reason acknowledged today =>
    closeTerm term actor confirmationName reason acknowledged today
  | reopen term actor confirmationName reason acknowledged today =>
    reopenTerm term actor confirmationName reason acknowledged today

/-- Who calls. -/
def actor : TermCall → Option User
  | create actor _ _ _ _ | activate _ actor _ _ _ _ | close _ actor _ _ _ _
  | reopen _ actor _ _ _ _ => actor

/-- The call is an activation. -/
def activates : TermCall → Bool
  | activate _ _ _ _ _ _ => true
  | _ => false

end TermCall

/-- The term a lifecycle event is about. -/
def AuditEvent.term? : AuditEvent → Option ℕ
  | termCreated term _ _ _ _ _ | termArchived term _ _ _ _ _ _ | termReopened term _ _ _ _ _ _
  | termActivated term _ _ _ _ _ _ _ _ _ => some term
  | _ => none

/-- The dates of two terms do not meet and their names do not fold together. -/
structure Db.TermsApart (casefold : String → String) (db : Db) : Prop where
  dates : ∀ a ∈ db.terms.table, ∀ b ∈ db.terms.table, a.id ≠ b.id →
    a.meets b.startDate b.endDate = false
  names : ∀ a ∈ db.terms.table, ∀ b ∈ db.terms.table, a.id ≠ b.id →
    casefold (normalizeName (some a.name)) ≠ casefold (normalizeName (some b.name))

/-- The status of a term stays or takes one step of the cycle. -/
def TermStatus.Moves (before after : TermStatus) : Prop :=
  before = after ∨ before = .draft ∧ after = .active ∨ before = .active ∧ after = .archived ∨
    before = .archived ∧ after = .draft

/-! ### Births -/

/-- The sessions `new` are added, and the audit rows `released` record, in the same order,
those of them that are born without their room. -/
structure Births (db db' : Db) (new : List Session) (released : List AuditLog) : Prop where
  rest : ∃ notifications, db' = { db with
    sessions := db'.sessions, audit := db.audit ++ released, notifications := notifications }
  sessions : db'.sessions.rows = db.sessions.rows ++ new
  released : released.map AuditLog.event =
    (new.filter fun s => s.roomReleasedAt.isSome).map
      fun s => .sessionRoomReleased s.id (s.roomReleasedAt.getD 0)

theorem Births.refl (db : Db) : Births db db [] [] where
  rest := ⟨db.notifications, by rw [List.append_nil]⟩
  sessions := (List.append_nil _).symm
  released := rfl

/-- The audit row of a birth is there exactly for a room that is released. -/
theorem event_bornAudit (shift : Option Shift) (sched : Schedule) (d now : ℤ) (pk : ℕ) :
    (bornAudit shift pk now).map AuditLog.event =
      ([(sched.session d pk).born shift d now].filter fun s => s.roomReleasedAt.isSome).map
        fun s => .sessionRoomReleased s.id (s.roomReleasedAt.getD 0) := by
  cases shift with
  | none => rfl
  | some shift =>
    obtain ⟨item, request⟩ := shift
    by_cases honline : request.targetModality = .online
    · rw [Session.born_of_online _ honline, bornAudit, if_pos honline]
      rfl
    · rw [bornAudit, if_neg honline]
      cases hroom : item.assignedRoom with
      | none =>
        rw [Session.born_of_unassigned _ honline hroom]
        rfl
      | some room =>
        rw [Session.born_of_assigned _ honline hroom]
        rfl

theorem Births.bear {db db' : Db} {new : List Session} {released : List AuditLog}
    (h : Births db db' new released) (sched : Schedule) (d now : ℤ)
    (notifications : List Notification) :
    ∃ new' released', Births db (db'.bear sched d now notifications) new' released' := by
  obtain ⟨old, hrest⟩ := h.rest
  refine ⟨new ++ [(sched.session d db'.sessions.nextKey).born (db'.bornShift sched.id d) d now],
    released ++ bornAudit (db'.bornShift sched.id d) db'.sessions.nextKey now,
    ⟨notifications, ?_⟩, ?_, ?_⟩
  · have haudit : db'.audit = db.audit ++ released := by rw [hrest]
    unfold Db.bear
    rw [haudit, List.append_assoc]
    rw [hrest]
  · change db'.sessions.rows ++ _ = _
    rw [h.sessions, List.append_assoc]
  · rw [List.map_append, h.released, event_bornAudit _ sched d, List.filter_append,
      List.map_append]

/-- Materialization only bears sessions. -/
theorem births_materializeTerm (db : Db) (term : AcademicTerm) (start days : ℤ)
    (allowDraft : Bool) (now : ℤ) :
    ∃ new released, Births db ((materializeTerm term start days allowDraft now).run db).2
      new released := by
  refine materializeTerm_invariant (P := fun db' => ∃ new released, Births db db' new released)
    (fun db' sched d notifications hP _ => ?_) ⟨[], [], .refl db⟩ start days allowDraft
  obtain ⟨new, released, h⟩ := hP
  exact h.bear sched d now notifications

/-! ### Creation -/

theorem AcademicTerm.meets_comm (a b : AcademicTerm) :
    a.meets b.startDate b.endDate = b.meets a.startDate a.endDate :=
  Bool.and_comm _ _

/-- A term that passes the preflight is apart from the rows. -/
theorem apart_of_creationPreflight {casefold : String → String} {name : Option String}
    {startDate endDate : Option ℤ} {rows : List AcademicTerm}
    (h : (creationPreflight casefold name startDate endDate rows).blockers = []) :
    ∃ s e, startDate = some s ∧ endDate = some e ∧ ∀ t ∈ rows, t.meets s e = false ∧
      casefold (normalizeName (some t.name)) ≠ casefold (normalizeName name) := by
  have hnil : ∀ l : List String, l.eraseDups = [] → l = [] := by
    intro l hl
    cases l with
    | nil => rfl
    | cons a l =>
      rw [List.eraseDups_cons] at hl
      cases hl
  unfold creationPreflight at h
  dsimp only at h
  have hall := hnil _ h
  simp only [List.append_eq_nil_iff, blockIf_eq_nil] at hall
  obtain ⟨⟨⟨hname, hdates⟩, hdup⟩, hover⟩ := hall
  cases startDate with
  | none => simp at hdates
  | some s =>
    cases endDate with
    | none => simp at hdates
    | some e =>
      refine ⟨s, e, rfl, rfl, fun t ht => ⟨?_, fun heq => ?_⟩⟩
      · simp only [blockIf_eq_nil, List.any_eq_false] at hover
        exact Bool.eq_false_iff.mpr (hover t ht)
      · have hne : (normalizeName name != "") = true := by
          rw [bne, hname]
          rfl
        rw [hne, Bool.true_and, List.any_eq_false] at hdup
        exact hdup t ht (beq_iff_eq.mpr heq)

/-- A creation raises and changes nothing, or adds a draft that passed the preflight. -/
theorem run_createTerm_cases (casefold : String → String) (actor : Option User)
    (name : Option String) (startDate endDate : Option ℤ) (confirmationName : Option String)
    (db : Db) :
    (∃ e, (createTerm casefold actor name startDate endDate confirmationName).run db =
      (.error e, db)) ∨
    ∃ s e event terms, (∃ u, actor = some u ∧ u.managesTerms = true) ∧
      (∀ t ∈ db.terms.table, t.meets s e = false ∧
        casefold (normalizeName (some t.name)) ≠ casefold (normalizeName name)) ∧
      event.term? = some db.terms.table.nextKey ∧
      terms.table = db.terms.table.insert (fun pk => ⟨pk, normalizeName name, s, e, .draft⟩) ∧
      (createTerm casefold actor name startDate endDate confirmationName).run db =
        (.ok db.terms.table.nextKey,
          { db with terms := terms, audit := db.audit ++ [⟨actor.map User.id, event⟩] }) := by
  rcases Prog.run_cases_of_eq_atomic
    (rfl : createTerm casefold actor name startDate endDate confirmationName = .atomic _) db with
    herror | ⟨pk, db', hrun, hok⟩
  · exact .inl herror
  · right
    rw [hok]
    obtain ⟨_, db₁, hauth, hbody⟩ := Prog.run_bind_eq_ok hrun
    obtain ⟨rfl, hactor⟩ := run_authorize_eq_ok hauth
    rw [Prog.run_bind_of_ok (run_lockTermsWhere _)] at hbody
    dsimp only at hbody
    split at hbody
    · cases hbody
    · split at hbody
      · cases hbody
      · rename_i hblockers
        obtain ⟨s, e, rfl, rfl, hapart⟩ := apart_of_creationPreflight (not_not.mp hblockers)
        obtain ⟨new, db₂, hinsert, haudit⟩ := Prog.run_bind_eq_ok hbody
        obtain ⟨rfl, terms, hterms, rfl⟩ := run_insertTerm_eq_ok hinsert
        cases haudit
        refine ⟨s, e, _, terms, hactor, fun t ht => ?_, rfl, hterms, rfl⟩
        exact hapart t (List.mem_filter.mpr ⟨ht, rfl⟩)

/-! ### Actions -/

/-- A term has gone through an action, after some births. -/
structure Acted (action : TermAction) (actor : Option User) (db : Db) (term : ℕ) (db' : Db)
    (new : List Session) (released : List AuditLog) (event : AuditEvent) : Prop where
  authorized : ∃ u, actor = some u ∧ u.managesTerms = true
  found : ∃ t ∈ db.terms.table, t.id = term ∧ t.status = action.before
  terms : db'.terms.table = db.terms.table.update (fun a => a.id == term)
    (AcademicTerm.withStatus action.after) (AcademicTerm.key_withStatus _)
  sessions : db'.sessions.rows = db.sessions.rows ++ new
  rooms : released.map AuditLog.event =
    (new.filter fun s => s.roomReleasedAt.isSome).map
      fun s => .sessionRoomReleased s.id (s.roomReleasedAt.getD 0)
  audit : db'.audit = db.audit ++ released ++ [⟨actor.map User.id, event⟩]
  about : event.term? = some term

/-- The block that closing and reopening share. -/
def statusAction (action : TermAction)
    (event : AcademicTerm → String → TermPreflight → TermCounts → AuditEvent) (term : ℕ)
    (actor : Option User) (confirmationName reason : Option String) (acknowledged : List String)
    (today : ℤ) : M ℕ :=
  Prog.atomic do
    authorize actor
    let t ← lockTerm term
    let found ← actionPreflight t action today
    let normalizedReason ←
      validateCommonActionInputs t found.1 confirmationName reason acknowledged
    saveTermStatus t.id action.after
    createAudit (actor.map User.id) (event t normalizedReason found.1 found.2)
    pure t.id

/-- A closing or reopening raises and changes nothing, or moves the term. -/
theorem run_statusAction_cases (action : TermAction)
    (event : AcademicTerm → String → TermPreflight → TermCounts → AuditEvent)
    (hevent : ∀ t r preflight counts, (event t r preflight counts).term? = some t.id) (term : ℕ)
    (actor : Option User) (confirmationName reason : Option String) (acknowledged : List String)
    (today : ℤ) (db : Db) :
    (∃ e, (statusAction action event term actor confirmationName reason acknowledged today).run
      db = (.error e, db)) ∨
    ∃ db' audited,
      (statusAction action event term actor confirmationName reason acknowledged today).run db =
        (.ok term, db') ∧ Acted action actor db term db' [] [] audited := by
  rcases Prog.run_cases_of_eq_atomic
    (rfl : statusAction action event term actor confirmationName reason acknowledged today =
      .atomic _) db with herror | ⟨pk, db', hrun, hok⟩
  · exact .inl herror
  · right
    rw [hok]
    obtain ⟨_, db₁, hauth, hbody⟩ := Prog.run_bind_eq_ok hrun
    obtain ⟨rfl, hactor⟩ := run_authorize_eq_ok hauth
    obtain ⟨t, db₂, hlock, hlocked⟩ := Prog.run_bind_eq_ok hbody
    obtain ⟨rfl, hget⟩ := run_lockTerm_eq_ok hlock
    obtain ⟨hmem, rfl⟩ := Table.get?_eq_some_iff.mp hget
    obtain ⟨preflight, hpre, hstatus⟩ := run_actionPreflight db₂ t action today
    rw [Prog.run_bind_of_ok hpre] at hlocked
    obtain ⟨normalized, db₃, hvalid, hchecked⟩ := Prog.run_bind_eq_ok hlocked
    obtain ⟨rfl, hblockers⟩ := run_validateCommonActionInputs_eq_ok hvalid
    obtain ⟨_, db₄, hsave, hsaved⟩ := Prog.run_bind_eq_ok hchecked
    obtain ⟨terms, hterms, rfl⟩ := run_saveTermStatus_eq_ok hsave
    cases hsaved
    exact ⟨_, _, rfl, hactor, ⟨t, hmem, rfl, hstatus hblockers⟩, hterms, (List.append_nil _).symm,
      rfl, congrArg (· ++ [_]) (List.append_nil _).symm, hevent _ _ _ _⟩

theorem run_closeTerm_cases (term : ℕ) (actor : Option User)
    (confirmationName reason : Option String) (acknowledged : List String) (today : ℤ) (db : Db) :
    (∃ e, (closeTerm term actor confirmationName reason acknowledged today).run db =
      (.error e, db)) ∨
    ∃ db' event, (closeTerm term actor confirmationName reason acknowledged today).run db =
      (.ok term, db') ∧ Acted .close actor db term db' [] [] event :=
  run_statusAction_cases .close
    (fun t normalizedReason preflight counts => .termArchived t.id normalizedReason t.status
      counts.schedules counts.sessions counts.activeSessions preflight.warnings)
    (fun _ _ _ _ => rfl) term actor confirmationName reason acknowledged today db

theorem run_reopenTerm_cases (term : ℕ) (actor : Option User)
    (confirmationName reason : Option String) (acknowledged : List String) (today : ℤ) (db : Db) :
    (∃ e, (reopenTerm term actor confirmationName reason acknowledged today).run db =
      (.error e, db)) ∨
    ∃ db' event, (reopenTerm term actor confirmationName reason acknowledged today).run db =
      (.ok term, db') ∧ Acted .reopen actor db term db' [] [] event :=
  run_statusAction_cases .reopen
    (fun t normalizedReason preflight counts => .termReopened t.id normalizedReason t.status
      counts.schedules counts.sessions counts.activeSessions preflight.warnings)
    (fun _ _ _ _ => rfl) term actor confirmationName reason acknowledged today db

/-- An activation raises and changes nothing, or bears sessions and moves the term. -/
theorem run_activateTerm_cases (term : ℕ) (actor : Option User) (confirmationName : Option String)
    (acknowledged : List String) (today now : ℤ) (db : Db) :
    (∃ e, (activateTerm term actor confirmationName acknowledged today now).run db =
      (.error e, db)) ∨
    ∃ db' new released event,
      (activateTerm term actor confirmationName acknowledged today now).run db = (.ok term, db') ∧
        Acted .activate actor db term db' new released event := by
  rw [activateTerm, Prog.run_elim]
  rcases Prog.run_cases_of_eq_atomic
    (rfl : activation term actor confirmationName acknowledged today now = .atomic _) db with
    ⟨e, herror⟩ | ⟨pk, db', hrun, hok⟩
  · left
    rw [herror]
    -- the constraint on active terms is answered with the name of the other term, if there is one
    cases e with
    | integrity =>
      dsimp only
      rw [Prog.run_select_bind]
      split <;> exact ⟨_, rfl⟩
    | _ => exact ⟨_, rfl⟩
  · right
    rw [hok]
    obtain ⟨_, db₁, hauth, hbody⟩ := Prog.run_bind_eq_ok hrun
    -- up to the materialization every step only reads
    obtain ⟨rfl, hactor⟩ := run_authorize_eq_ok hauth
    obtain ⟨t, db₂, hlock, hlocked⟩ := Prog.run_bind_eq_ok hbody
    obtain ⟨rfl, hget⟩ := run_lockTerm_eq_ok hlock
    obtain ⟨hmem, rfl⟩ := Table.get?_eq_some_iff.mp hget
    rw [Prog.run_bind_of_ok (run_lockTermsWhere _)] at hlocked
    obtain ⟨preflight, hpre, hstatus⟩ := run_actionPreflight db₂ t .activate today
    rw [Prog.run_bind_of_ok hpre] at hlocked
    obtain ⟨_, db₃, hvalid, hchecked⟩ := Prog.run_bind_eq_ok hlocked
    obtain ⟨rfl, hblockers⟩ := run_validateActivationInputs_eq_ok hvalid
    rw [Prog.run_select_bind] at hchecked
    obtain ⟨result, db₄, hmaterialize, hmade⟩ := Prog.run_bind_eq_ok hchecked
    obtain ⟨new, released, hbirths⟩ := births_materializeTerm db₃ t (max today t.startDate)
      db₃.policy.materializationHorizonDays true now
    rw [hmaterialize] at hbirths
    replace hbirths : Births db₃ db₄ new released := hbirths
    obtain ⟨_, db₅, hsave, hsaved⟩ := Prog.run_bind_eq_ok hmade
    -- the materialization leaves the terms alone, so the saved status is the only change to them
    obtain ⟨terms, hterms, rfl⟩ := run_saveTermStatus_eq_ok hsave
    cases hsaved
    obtain ⟨notifications, hrest⟩ := hbirths.rest
    have hold : db₄.terms = db₃.terms := by rw [hrest]
    have haudit : db₄.audit = db₃.audit ++ released := by rw [hrest]
    refine ⟨_, new, released, _, rfl, hactor, ⟨t, hmem, rfl, hstatus hblockers⟩, ?_,
      hbirths.sessions, hbirths.released, congrArg (· ++ [_]) haudit, rfl⟩
    rw [← hold]
    exact hterms

/-! ### Lawful calls -/

/-- What a call with the given outcome may do to the database. -/
structure LawfulTermCall (casefold : String → String) (call : TermCall) (db : Db)
    (outcome : Except Err ℕ) (db' : Db) : Prop where
  oneActive : ∀ a ∈ db'.terms.table, ∀ b ∈ db'.terms.table,
    a.status = .active → b.status = .active → a = b
  moves : ∀ t ∈ db.terms.table, ∃ t' ∈ db'.terms.table, t'.id = t.id ∧ t'.name = t.name ∧
    t'.startDate = t.startDate ∧ t'.endDate = t.endDate ∧ t.status.Moves t'.status
  created : ∀ t' ∈ db'.terms.table, (∃ t ∈ db.terms.table, t.id = t'.id) ∨ t'.status = .draft
  apart : db'.TermsApart casefold
  authorized : db' ≠ db →
    ∃ u, call.actor = some u ∧ (u.isSuperuser = true ∨ u.role = .ifoAdmin)
  raised : ∀ e, outcome = .error e → db' = db
  audited : ∀ term, outcome = .ok term → ∃ new released event,
    event.term? = some term ∧
    db'.audit = db.audit ++ released ++ [⟨call.actor.map User.id, event⟩] ∧
    db'.sessions.rows = db.sessions.rows ++ new ∧
    released.map AuditLog.event = (new.filter fun s => s.roomReleasedAt.isSome).map
      (fun s => .sessionRoomReleased s.id (s.roomReleasedAt.getD 0)) ∧
    (call.activates = false → new = [])

theorem User.manages_iff {u : User} :
    u.managesTerms = true ↔ u.isSuperuser = true ∨ u.role = .ifoAdmin := by
  simp [User.managesTerms]

section

variable {casefold : String → String} {call : TermCall} {db db' : Db}

theorem LawfulTermCall.error (h : db.TermsApart casefold) (e : Err) :
    LawfulTermCall casefold call db (.error e) db where
  oneActive _ ha _ hb := db.terms.eq_of_active ha hb
  moves t ht := ⟨t, ht, rfl, rfl, rfl, rfl, .inl rfl⟩
  created t ht := .inl ⟨t, ht, rfl⟩
  apart := h
  authorized hne := absurd rfl hne
  raised _ _ := rfl
  audited _ h := by cases h

/-- Terms that keep their names and dates stay apart. -/
theorem Db.TermsApart.of_back (hdb : db.TermsApart casefold)
    (hback : ∀ t' ∈ db'.terms.table, ∃ t ∈ db.terms.table, t'.id = t.id ∧ t'.name = t.name ∧
      t'.startDate = t.startDate ∧ t'.endDate = t.endDate) : db'.TermsApart casefold where
  dates a ha b hb hne := by
    obtain ⟨a₀, ha₀, hida, -, hstarta, henda⟩ := hback a ha
    obtain ⟨b₀, hb₀, hidb, -, hstartb, hendb⟩ := hback b hb
    rw [AcademicTerm.meets, hstarta, henda, hstartb, hendb]
    exact hdb.dates a₀ ha₀ b₀ hb₀ (by rwa [← hida, ← hidb])
  names a ha b hb hne := by
    obtain ⟨a₀, ha₀, hida, hnamea, -⟩ := hback a ha
    obtain ⟨b₀, hb₀, hidb, hnameb, -⟩ := hback b hb
    rw [hnamea, hnameb]
    exact hdb.names a₀ ha₀ b₀ hb₀ (by rwa [← hida, ← hidb])

/-- A new term that is apart from the others keeps them apart. -/
theorem Db.TermsApart.insert {name : Option String} {s e : ℤ} (hdb : db.TermsApart casefold)
    (hapart : ∀ t ∈ db.terms.table, t.meets s e = false ∧
      casefold (normalizeName (some t.name)) ≠ casefold (normalizeName name))
    (hterms : db'.terms.table =
      db.terms.table.insert (fun pk => ⟨pk, normalizeName name, s, e, .draft⟩)) :
    db'.TermsApart casefold := by
  have hnorm : normalizeName (some (normalizeName name)) = normalizeName name :=
    Py.join_words_join_words _
  refine ⟨fun a ha b hb hne => ?_, fun a ha b hb hne => ?_⟩ <;>
    rw [hterms, Table.mem_insert] at ha hb <;>
    rcases ha with ha | rfl <;> rcases hb with hb | rfl
  · exact hdb.dates a ha b hb hne
  · exact (hapart a ha).1
  · rw [AcademicTerm.meets_comm]
    exact (hapart b hb).1
  · exact absurd rfl hne
  · exact hdb.names a ha b hb hne
  · rw [hnorm]
    exact (hapart a ha).2
  · rw [hnorm]
    exact ((hapart b hb).2).symm
  · exact absurd rfl hne

/-- An action keeps names and dates and moves one status. -/
theorem Acted.lawful {action : TermAction} {term : ℕ} {new : List Session}
    {released : List AuditLog} {event : AuditEvent}
    (h : Acted action call.actor db term db' new released event) (hdb : db.TermsApart casefold)
    (hnew : call.activates = false → new = []) :
    LawfulTermCall casefold call db (.ok term) db' := by
  -- every row of the new table comes from a row that differs in the status only
  have hback : ∀ t' ∈ db'.terms.table, ∃ t ∈ db.terms.table, t'.id = t.id ∧ t'.name = t.name ∧
      t'.startDate = t.startDate ∧ t'.endDate = t.endDate := by
    intro t' ht'
    rw [h.terms] at ht'
    obtain ⟨t, ht, rfl⟩ := Table.mem_update.mp ht'
    refine ⟨t, ht, ?_⟩
    split <;> exact ⟨rfl, rfl, rfl, rfl⟩
  obtain ⟨t₀, ht₀, hid₀, hstatus⟩ := h.found
  refine ⟨fun _ ha _ hb => db'.terms.eq_of_active ha hb, fun t ht => ?_, fun t' ht' => ?_,
    hdb.of_back hback, fun _ => ?_, fun e he => ?_, fun pk hpk => ?_⟩
  · by_cases hid : t.id = term
    · obtain rfl : t = t₀ := Table.eq_of_key_eq ht ht₀ (hid.trans hid₀.symm)
      refine ⟨t.withStatus action.after, ?_, rfl, rfl, rfl, rfl, ?_⟩
      · rw [h.terms]
        exact Table.mem_update.mpr ⟨t, ht, by rw [if_pos (beq_iff_eq.mpr hid)]⟩
      · rw [hstatus]
        cases action with
        | close => exact .inr (.inr (.inl ⟨rfl, rfl⟩))
        | reopen => exact .inr (.inr (.inr ⟨rfl, rfl⟩))
        | activate => exact .inr (.inl ⟨rfl, rfl⟩)
    · refine ⟨t, ?_, rfl, rfl, rfl, rfl, .inl rfl⟩
      rw [h.terms]
      exact Table.mem_update.mpr ⟨t, ht, by rw [if_neg (by simpa using hid)]⟩
  · obtain ⟨t, ht, hid, -⟩ := hback t' ht'
    exact .inl ⟨t, ht, hid.symm⟩
  · obtain ⟨u, hu, hmanages⟩ := h.authorized
    exact ⟨u, hu, User.manages_iff.mp hmanages⟩
  · cases he
  · cases hpk
    exact ⟨new, released, event, h.about, h.audit, h.sessions, h.rooms, hnew⟩

/-- A creation adds a draft that is apart from the other terms. -/
theorem LawfulTermCall.creation {name : Option String} {s e : ℤ} {event : AuditEvent}
    {terms : TermTable} (hdb : db.TermsApart casefold)
    (hactor : ∃ u, call.actor = some u ∧ u.managesTerms = true)
    (hapart : ∀ t ∈ db.terms.table, t.meets s e = false ∧
      casefold (normalizeName (some t.name)) ≠ casefold (normalizeName name))
    (habout : event.term? = some db.terms.table.nextKey)
    (hterms : terms.table =
      db.terms.table.insert (fun pk => ⟨pk, normalizeName name, s, e, .draft⟩)) :
    LawfulTermCall casefold call db (.ok db.terms.table.nextKey)
      { db with terms := terms, audit := db.audit ++ [⟨call.actor.map User.id, event⟩] } where
  oneActive _ ha _ hb := terms.eq_of_active ha hb
  moves t ht := by
    refine ⟨t, ?_, rfl, rfl, rfl, rfl, .inl rfl⟩
    change t ∈ terms.table
    rw [hterms]
    exact Table.mem_insert.mpr (.inl ht)
  created t' ht' := by
    change t' ∈ terms.table at ht'
    rw [hterms] at ht'
    rcases Table.mem_insert.mp ht' with hold | rfl
    · exact .inl ⟨t', hold, rfl⟩
    · exact .inr rfl
  apart := hdb.insert hapart hterms
  authorized _ := by
    obtain ⟨u, hu, hmanages⟩ := hactor
    exact ⟨u, hu, User.manages_iff.mp hmanages⟩
  raised _ he := by cases he
  audited pk hpk := by
    cases hpk
    exact ⟨[], [], event, habout, congrArg (· ++ [_]) (List.append_nil _).symm,
      (List.append_nil _).symm, rfl, fun _ => rfl⟩

/-- One call. -/
theorem lawfulTermCall (hdb : db.TermsApart casefold) (call : TermCall) :
    LawfulTermCall casefold call db ((call.prog casefold).run db).1
      ((call.prog casefold).run db).2 := by
  cases call with
  | create actor name startDate endDate confirmationName =>
    rcases run_createTerm_cases casefold actor name startDate endDate confirmationName db with
      ⟨err, herror⟩ | ⟨s, e, event, terms, hactor, hapart, habout, hterms, hok⟩
    · rw [TermCall.prog, herror]
      exact .error hdb err
    · rw [TermCall.prog, hok]
      exact .creation hdb hactor hapart habout hterms
  | activate term actor confirmationName acknowledged today now =>
    rcases run_activateTerm_cases term actor confirmationName acknowledged today now db with
      ⟨err, herror⟩ | ⟨db', new, released, event, hok, hacted⟩
    · rw [TermCall.prog, herror]
      exact .error hdb err
    · rw [TermCall.prog, hok]
      exact hacted.lawful hdb fun hnot => by cases hnot
  | close term actor confirmationName reason acknowledged today =>
    rcases run_closeTerm_cases term actor confirmationName reason acknowledged today db with
      ⟨err, herror⟩ | ⟨db', event, hok, hacted⟩
    · rw [TermCall.prog, herror]
      exact .error hdb err
    · rw [TermCall.prog, hok]
      exact hacted.lawful hdb fun _ => rfl
  | reopen term actor confirmationName reason acknowledged today =>
    rcases run_reopenTerm_cases term actor confirmationName reason acknowledged today db with
      ⟨err, herror⟩ | ⟨db', event, hok, hacted⟩
    · rw [TermCall.prog, herror]
      exact .error hdb err
    · rw [TermCall.prog, hok]
      exact hacted.lawful hdb fun _ => rfl

end

/-- Every call of a sequence satisfies `C` of the call, the database it finds, its outcome
and the database it leaves. -/
def TermCall.Along (casefold : String → String)
    (C : TermCall → Db → Except Err ℕ → Db → Prop) : Db → List TermCall → Prop
  | _, [] => True
  | db, call :: calls =>
    C call db ((call.prog casefold).run db).1 ((call.prog casefold).run db).2 ∧
      Along casefold C ((call.prog casefold).run db).2 calls

namespace Campus

/-- An IFO admin. -/
def ifoAdmin : User := ⟨4, "Ida", "Office", .ifoAdmin, none, true, false, "ida", ""⟩

/-- The term reopened, with a request of last time that moved the nine o'clock class of a
Monday online. -/
def reopened : Db :=
  { timetable with
    terms := ⟨⟨[term.withStatus .draft], by decide⟩, by decide, by decide, by decide⟩
    requests := ⟨[⟨1, 1, some 3, some 1, .online, monday, monday, false, .approved, "", some 0,
      some 3⟩], List.nodup_singleton _⟩
    items := oneItem }

/-- The activation of the reopened term. -/
def activateAgain : TermCall :=
  .activate 1 (some ifoAdmin) (some "First Semester") [] monday (wallClock monday 7 0 0)

/-- The database it leaves. -/
def activatedAgain : Db := ((activateAgain.prog id).run reopened).2

/-- The only term there is stands apart. -/
theorem apart_reopened : reopened.TermsApart id where
  dates a ha b hb hne := by
    rw [List.mem_singleton.mp ha, List.mem_singleton.mp hb] at hne
    exact absurd rfl hne
  names a ha b hb hne := by
    rw [List.mem_singleton.mp ha, List.mem_singleton.mp hb] at hne
    exact absurd rfl hne

end Campus

end FluxTrack
