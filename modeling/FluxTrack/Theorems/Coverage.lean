import FluxTrack.Process.Runs
import FluxTrack.Scheduling.Reporting
import FluxTrack.Theorems.Attendance
import FluxTrack.Theorems.CheckIns
import FluxTrack.Theorems.CheckerScans

/-!
# Verification coverage

A report counts the verified sessions of a faculty member in any status, and the held ones
by status. Coverage is honest if every verified session is held. A checker verifies what
is running, and what is held stays held, with two exceptions: a checker who has verified an
online class may still flag its teacher as not present, and a room whose class was called
off can be verified like one that is running.

## Main definitions

* `Db.Honest` — every verified session is held
* `Keeps`, `Endorses` — the changes of the attendance record and of the validations
* `Db.OnlineFaithful`, `Db.RoomFaithful`, `ReplayFaithful` — the conditions on an online
  action, a room action and a batch of queued scans
* `CoverageCall`, `World.check` — the calls of a run
* `CoverageCall.Faithful` — neither exception is met

## Main results

* `verified_le_held` — what honesty means for a report
* `coverage_honest` — honest coverage over runs
-/

namespace FluxTrack

open Calendar Relational Process

/-- Every session with a `verified` validation is held. -/
def Db.Honest (db : Db) : Prop :=
  ∀ s ∈ db.sessions, db.verifiedByChecker s = true → s.status.isHeld = true

theorem verifiedByChecker_iff {db : Db} {s : Session} :
    db.verifiedByChecker s = true ↔
      ∃ v ∈ db.validations, v.session = some s.id ∧ v.action = .verified := by
  simp only [Db.verifiedByChecker, List.any_eq_true, Bool.and_eq_true, beq_iff_eq, Table.mem_rows]

/-- Before anything is verified the coverage is honest. -/
theorem honest_of_empty {db : Db} (h : db.validations.rows = []) : db.Honest := by
  intro s _ hverified
  obtain ⟨v, hv, -⟩ := verifiedByChecker_iff.mp hverified
  rw [← Table.mem_rows, h] at hv
  cases hv

/-! ### Reports -/

theorem length_filter_le_of_imp {α : Type*} {p q : α → Bool} {l : List α}
    (h : ∀ a ∈ l, p a = true → q a = true) : (l.filter p).length ≤ (l.filter q).length := by
  rw [← List.countP_eq_length_filter, ← List.countP_eq_length_filter]
  exact List.countP_mono_left h

/-- In an honest database no report shows more verified than held sessions. -/
theorem verified_le_held {db : Db} (h : db.Honest) {scope : ReportScope} {row : FacultyRow}
    (hrow : row ∈ db.facultyAttendance scope) :
    row.verified ≤ row.held ∧ row.held ≤ row.scheduled := by
  obtain ⟨s, -, rfl⟩ := mem_facultyAttendance.mp hrow
  refine ⟨?_, List.length_filter_le _ _⟩
  change (List.filter _ _).length ≤ (List.filter _ (List.filter _ _)).length
  rw [List.filter_filter]
  refine length_filter_le_of_imp fun a ha hsel => ?_
  rw [Bool.and_eq_true] at hsel ⊢
  exact ⟨h a (Db.mem_scopedSessions.mp ha).1 hsel.2, hsel.1⟩

/-! ### The attendance record -/

/-- A change that leaves the validations alone and under which the sessions in `V` that are
held stay held. -/
structure Keeps (V : ℕ → Prop) (db db' : Db) : Prop where
  validations : db'.validations = db.validations
  row : ∀ s' ∈ db'.sessions, ∃ s ∈ db.sessions, s.id = s'.id ∧
    (V s.id → s.status.isHeld = true → s'.status.isHeld = true)

namespace Keeps

variable {V : ℕ → Prop} {db db' : Db}

theorem kind : Prog.Kind (Keeps V) where
  refl db := ⟨rfl, fun s hs => ⟨s, hs, rfl, fun _ h => h⟩⟩
  trans db db₁ db₂ h h' := by
    refine ⟨h'.validations.trans h.validations, fun s₂ hs₂ => ?_⟩
    obtain ⟨s₁, hs₁, hid₁, hheld₁⟩ := h'.row s₂ hs₂
    obtain ⟨s, hs, hid, hheld⟩ := h.row s₁ hs₁
    exact ⟨s, hs, hid.trans hid₁, fun hV h => hheld₁ (hid ▸ hV) (hheld hV h)⟩

/-- What touches neither the sessions nor the validations. -/
theorem frame (hvalidations : db'.validations = db.validations)
    (hsessions : db'.sessions = db.sessions) : Keeps V db db' :=
  ⟨hvalidations, fun s hs => ⟨s, hsessions ▸ hs, rfl, fun _ h => h⟩⟩

/-- An update under which the selected sessions in `V` stay held. -/
theorem update {f : Session → Session} (hf : ∀ s, key (f s) = key s) {p : Session → Bool}
    (h : ∀ s ∈ db.sessions, p s = true → V s.id → s.status.isHeld = true →
      (f s).status.isHeld = true)
    (hvalidations : db'.validations = db.validations)
    (hsessions : db'.sessions = db.sessions.update p f hf) : Keeps V db db' := by
  refine ⟨hvalidations, fun s' hs' => ?_⟩
  rw [hsessions] at hs'
  obtain ⟨s, hs, rfl⟩ := (Table.mem_update_iff hf).mp hs'
  refine ⟨s, hs, (Table.key_ite_update hf s).symm, fun hV hheld => ?_⟩
  split
  case isTrue hp => exact h s hs hp hV hheld
  case isFalse => exact hheld

/-- A change of sessions none of which is held. -/
theorem unheld {p : Session → Prop} [DecidablePred p] {f : Session → Session}
    (hf : ∀ s, key (f s) = key s) (hp : ∀ s ∈ db.sessions, p s → s.status.isHeld = false)
    (hrow : ∀ s' ∈ db'.sessions, ∃ s ∈ db.sessions, (if p s then f s else s) = s')
    (hvalidations : db'.validations = db.validations) : Keeps V db db' := by
  refine ⟨hvalidations, fun s' hs' => ?_⟩
  obtain ⟨s, hs, rfl⟩ := hrow s' hs'
  by_cases hsel : p s
  · rw [if_pos hsel]
    refine ⟨s, hs, (hf s).symm, fun _ hheld => ?_⟩
    rw [hp s hs hsel] at hheld
    cases hheld
  · rw [if_neg hsel]
    exact ⟨s, hs, rfl, fun _ hheld => hheld⟩

/-- A check-in makes sessions held, and marks only scheduled ones absent. -/
theorem checkIns : CheckIns (Keeps V) where
  kind := kind
  quiet _ _ _ _ := frame rfl rfl
  runs db p f hf hstatus _ := by
    refine update hf (fun s _ _ _ _ => ?_) rfl rfl
    rcases hstatus s with h | h <;> rw [h] <;> rfl
  misses db p hsched := by
    refine update Session.key_markAbsent (fun s hs hp _ hheld => ?_) rfl rfl
    rw [hsched s hs hp] at hheld
    cases hheld

/-- What the other requests mark absent, call off or reinstate is not held. -/
theorem requests : Requests (Keeps V) where
  toCheckIns := checkIns
  moves _ _ room := update (Session.key_moveTo room) (fun _ _ _ _ hheld => hheld) rfl rfl
  breaks _ _ := frame rfl rfl
  recalls _ _ _ _ _ hf _ hp hrow hvalidations := unheld hf hp hrow hvalidations

/-- A kept database is honest as long as the verified sessions are among the kept ones. -/
theorem honest (h : Keeps V db db') (hdb : db.Honest)
    (hV : ∀ s ∈ db.sessions, db.verifiedByChecker s = true → V s.id) : db'.Honest := by
  intro s' hs' hverified
  obtain ⟨s, hs, hid, hheld⟩ := h.row s' hs'
  have hold : db.verifiedByChecker s = true := by
    rw [verifiedByChecker_iff] at hverified ⊢
    rwa [h.validations, ← hid] at hverified
  exact hheld (hV s hs hold) (hdb s hs hold)

end Keeps

/-! ### The validations -/

/-- A change of the validations that verifies only sessions that are held. -/
structure Endorses (db db' : Db) : Prop where
  sessions : db'.sessions = db.sessions
  validations : ∀ v ∈ db'.validations, v ∈ db.validations ∨
    (v.action = .verified → ∀ s ∈ db.sessions, v.session = some s.id → s.status.isHeld = true)

namespace Endorses

variable {db db' : Db}

theorem kind : Prog.Kind Endorses where
  refl db := ⟨rfl, fun _ hv => .inl hv⟩
  trans db db₁ db₂ h h' := by
    refine ⟨h'.sessions.trans h.sessions, fun v hv => ?_⟩
    rcases h'.validations v hv with hv | hv
    · exact h.validations v hv
    · right
      rwa [h.sessions] at hv

/-- What touches neither the sessions nor the validations. -/
theorem frame (hsessions : db'.sessions = db.sessions)
    (hvalidations : db'.validations = db.validations) : Endorses db db' :=
  ⟨hsessions, fun _ hv => .inl (hvalidations ▸ hv)⟩

/-- One validation is added. -/
theorem add {v₀ : CheckerValidation}
    (hvalidations : ∀ v ∈ db'.validations, v ∈ db.validations ∨ v = v₀)
    (hsessions : db'.sessions = db.sessions)
    (h : v₀.action = .verified → ∀ s ∈ db.sessions, v₀.session = some s.id →
      s.status.isHeld = true) : Endorses db db' := by
  refine ⟨hsessions, fun v hv => ?_⟩
  rcases hvalidations v hv with hv | rfl
  · exact .inl hv
  · exact .inr h

theorem honest (h : Endorses db db') (hdb : db.Honest) : db'.Honest := by
  intro s hs hverified
  rw [h.sessions] at hs
  obtain ⟨v, hv, hsession, haction⟩ := verifiedByChecker_iff.mp hverified
  rcases h.validations v hv with hv | hv
  · exact hdb s hs (verifiedByChecker_iff.mpr ⟨v, hv, hsession, haction⟩)
  · exact hv haction s hs hsession

end Endorses

/-! ### Room scans -/

section

variable {db : Db} {user : ℕ} {now today : ℤ}

theorem roomSessionState_eq_some {room : ℕ} {s : Session}
    (h : db.roomSessionState room now today = some s) :
    s ∈ db.sessions ∧ s.status ≠ .completed := by
  obtain ⟨term, -, h⟩ := Option.bind_eq_some_iff.mp h
  obtain ⟨a, hfind, h⟩ := Option.bind_eq_some_iff.mp h
  split at h
  · cases h
  · cases h
    have hmem : s ∈ db.sessions.rows.filter fun s =>
        s.room == room && s.date == today && db.inTerm term.id s && s.status != .completed := by
      rcases Option.or_eq_some_iff.mp (Option.orElse_eq_or.symm.trans hfind) with hfind | ⟨-, hfind⟩ <;>
        exact (List.perm_insertionSort _ _).mem_iff.mp (List.mem_of_find?_eq_some hfind)
    obtain ⟨hs, hsel⟩ := List.mem_filter.mp hmem
    rw [Bool.and_eq_true, bne_iff_ne] at hsel
    exact ⟨hs, hsel.2⟩

/-- The decision permits to verify only a session that is neither scheduled nor absent. -/
theorem outcome_of_permits {floors : List ℕ} {floor : ℕ} {state : Option SessionState}
    (h : (resolveCheckerScan floors floor state).outcome.permits .verified = true) :
    (resolveCheckerScan floors floor state).outcome = .activeUnverified ∧
      ∀ st, state = some st → st.status ≠ .scheduled ∧ st.status ≠ .absent := by
  unfold resolveCheckerScan at h ⊢
  by_cases hduty : floors.isEmpty = true
  · rw [if_pos hduty] at h
    cases h
  · by_cases hfloor : (!floors.contains floor) = true
    · rw [if_neg hduty, if_pos hfloor] at h
      cases h
    · rw [if_neg hduty, if_neg hfloor] at h ⊢
      cases state with
      | none => cases h
      | some st =>
        dsimp only at h ⊢
        split at h
        · cases h
        · split at h
          · cases h
          · split at h
            · cases h
            · rename_i hsched habsent hverified
              refine ⟨by rw [if_neg hsched, if_neg habsent, if_neg hverified], ?_⟩
              rintro _ ⟨⟩
              exact ⟨hsched, habsent⟩

/-- What the decision permits to verify is held, unless it was called off. -/
theorem isHeld_of_permits {room : Room}
    (hpermits : (db.roomOutcome user room now today).permits .verified = true)
    (hcancelled : db.roomOutcome user room now today = .activeUnverified →
      ∀ s, db.roomSessionState room.id now today = some s → s.status ≠ .cancelled) :
    ∀ s ∈ db.sessions, (db.roomSessionState room.id now today).map Session.id = some s.id →
      s.status.isHeld = true := by
  intro s hs hid
  obtain ⟨s', hstate, hs'⟩ := Option.map_eq_some_iff.mp hid
  obtain ⟨hmem, hcompleted⟩ := roomSessionState_eq_some hstate
  obtain rfl : s' = s := Table.eq_of_key_eq hmem hs hs'
  obtain ⟨houtcome, hst⟩ := outcome_of_permits hpermits
  obtain ⟨hsched, habsent⟩ : s'.status ≠ .scheduled ∧ s'.status ≠ .absent :=
    hst (db.sessionState s') (by rw [hstate]; rfl)
  have hnot := hcancelled houtcome s' hstate
  cases hstatus : s'.status with
  | active => rfl
  | completed => exact absurd hstatus hcompleted
  | scheduled => exact absurd hstatus hsched
  | absent => exact absurd hstatus habsent
  | cancelled => exact absurd hstatus hnot

/-- The class of a room is not verified if it was called off. -/
def Db.RoomFaithful (db : Db) (user room : ℕ) (action : ValidationAction) (now today : ℤ) : Prop :=
  action = .verified → ∀ r, db.rooms.get? room = some r →
    db.roomOutcome user r now today = .activeUnverified →
      ∀ s, db.roomSessionState r.id now today = some s →
        (cacheGet db.cache (.checkerIdem user s.id .verified (minuteOf now)) now).isNone = true →
          s.status ≠ .cancelled

theorem endorses_roomAction {room : ℕ} {action : ValidationAction} (note : String)
    (h : db.RoomFaithful user room action now today) :
    Endorses db ((roomAction user room action note now today).run db).2 := by
  have hacted := roomActed_roomAction db user room action note now today
  generalize (roomAction user room action note now today).run db = r at hacted ⊢
  cases hacted with
  | unknown hroom => exact Endorses.kind.refl db
  | refused hroom hpermits => exact .frame rfl rfl
  | noteRequired hroom hpermits hblank => exact Endorses.kind.refl db
  | repeated hroom hpermits hnote hkey cache => exact .frame rfl rfl
  | @applied r hroom hpermits hnote hkey cache notices =>
    refine .add (fun v hv => Table.mem_insert.mp hv) rfl fun haction => ?_
    dsimp only at haction
    subst haction
    refine isHeld_of_permits hpermits fun houtcome s hstate => ?_
    rw [Db.roomKeyFree, hstate] at hkey
    exact h rfl r hroom houtcome s hstate hkey

/-! ### Queued scans -/

/-- A queued scan that is applied does not verify a class that was called off. -/
def Db.ScanFaithful (db : Db) (user : ℕ) (item : ReplayItem) (now today : ℤ) : Prop :=
  item.action = .known .verified → ¬ db.scanUnreadable user item now today →
    db.scanReason user item now today = none → ∀ r, db.replayRoom item = some r →
      ∀ s, db.roomSessionState r.id now today = some s → s.status ≠ .cancelled

/-- A queued scan that is new and within the rate limit does not verify a class that was
called off. -/
def Db.ItemFaithful (db : Db) (user : ℕ) (item : ReplayItem) (now today : ℤ) : Prop :=
  (∃ uuid, db.newScan item uuid) → db.scanAllowed user item now →
    db.ScanFaithful user item now today

theorem endorses_replayItem {item : ReplayItem} (h : db.ItemFaithful user item now today) :
    Endorses db ((replayItem user item now today).run db).2 := by
  have hhandled := handled_replayItem db user item now today
  generalize (replayItem user item now today).run db = r at hhandled ⊢
  cases hhandled with
  | malformed hitem => exact Endorses.kind.refl db
  | duplicate hitem hhas => exact Endorses.kind.refl db
  | rateLimited hnew hover cache receipts => exact .frame rfl rfl
  | raised hnew hallowed hunreadable cache e => exact .frame rfl rfl
  | conflict hnew hallowed hread hreason session cache receipts => exact .frame rfl rfl
  | applied hnew hallowed hread hroom haction hreason cache receipts notices =>
    refine .add (fun v hv => Table.mem_insert.mp hv) rfl fun hverified => ?_
    dsimp only at hverified
    subst hverified
    have hpermits := hreason
    rw [Db.scanReason, hroom] at hpermits
    obtain ⟨-, -, action, hknown, hpermits, -⟩ := of_replayReason hpermits
    cases haction.symm.trans hknown
    exact isHeld_of_permits hpermits fun _ s hstate =>
      h ⟨_, hnew⟩ hallowed haction hread hreason _ hroom s hstate

/-- Every queued scan of a batch meets the condition in the database it finds. -/
def ReplayFaithful (user : ℕ) (now : ℤ) : Db → List (ReplayItem × ℤ) → Prop
  | _, [] => True
  | db, (item, today) :: items =>
    db.ItemFaithful user item now today ∧ ∀ result db',
      (replayItem user item now today).run db = (.ok result, db') →
        ReplayFaithful user now db' items

theorem endorses_replay {items : List (ReplayItem × ℤ)} (h : ReplayFaithful user now db items) :
    Endorses db ((replay user now items).run db).2 := by
  induction items generalizing db with
  | nil => exact Endorses.kind.refl db
  | cons head items ih =>
    obtain ⟨item, today⟩ := head
    have hitem := endorses_replayItem h.1
    rcases hrun : (replayItem user item now today).run db with ⟨e | result, db'⟩ <;>
      rw [hrun] at hitem
    · rw [replay, Prog.run_bind_of_error hrun]
      exact hitem
    · rw [replay, Prog.run_bind_of_ok hrun, Prog.snd_run_bind_pure]
      exact Endorses.kind.trans db db' _ hitem (ih (h.2 result db' hrun))

end

/-! ### Online classes -/

section

variable {db : Db} {user : ℕ} {s : Session} {now : ℤ}

/-- A session may be verified in a change that makes it held. -/
theorem honest_start {db' : Db} {pk : ℕ} {f : Session → Session} (hf : ∀ s, key (f s) = key s)
    (hdb : db.Honest) (hheld : ∀ s, (f s).status.isHeld = true)
    (hsessions : db'.sessions = db.sessions.update (fun a => a.id == pk) f hf)
    (hvalidations : ∀ v ∈ db'.validations, v ∈ db.validations ∨ v.session = some pk) :
    db'.Honest := by
  intro s' hs' hverified
  rw [hsessions] at hs'
  by_cases hid : s'.id = pk
  · obtain ⟨a, -, rfl⟩ := (Table.mem_update_iff hf).mp hs'
    have hsel : (a.id == pk) = true := by
      rw [beq_iff_eq, ← hid]
      exact (Table.key_ite_update (p := fun a : Session => a.id == pk) hf a).symm
    rw [if_pos hsel]
    exact hheld a
  · obtain ⟨v, hv, hsession, haction⟩ := verifiedByChecker_iff.mp hverified
    rcases hvalidations v hv with hv | hv
    · exact hdb s' (mem_of_mem_update_key hf hs' hid)
        (verifiedByChecker_iff.mpr ⟨v, hv, hsession, haction⟩)
    · exact absurd (Option.some.inj (hsession.symm.trans hv)) hid

/-- In the active term a merge does not raise. -/
theorem run_propagateMerged_of_active {term : AcademicTerm} (hs : s ∈ db.sessions)
    (hactive : db.activeTerm = some term) (hterm : db.inTerm term.id s = true)
    (actor : Option ℕ) (f : Session → Session) (hf : ∀ s, key (f s) = key s)
    (event : ℕ → AuditEvent) :
    ∃ fills db', (propagateMerged s.id actor f hf event).run db = (.ok fills, db') := by
  obtain ⟨hmem, hstatus⟩ := Db.mem_of_activeTerm hactive
  have hget : db.terms.table.get? (db.scheduleOf s).term = some term := by
    rw [beq_iff_eq.mp hterm]
    exact Table.get?_key hmem
  have hwritable : term.status ≠ .archived := by
    rw [hstatus]
    nofun
  exact ⟨_, _, run_propagateMerged hs hget hwritable⟩

/-- A verified online session of the active term is started. -/
theorem run_applyOnlineStatus_verified {term : AcademicTerm} (hs : s ∈ db.sessions)
    (hactive : db.activeTerm = some term) (hterm : db.inTerm term.id s = true)
    (user : ℕ) (scannedAt now : ℤ) :
    ∃ db', (applyOnlineStatus user s .verified scannedAt now).run db = (.ok (), db') ∧
      Keeps (fun _ => True) { db with
        sessions := db.sessions.update (fun a => a.id == s.id) (Session.verifyOnline scannedAt)
          (Session.key_verifyOnline scannedAt) } db' := by
  have hanchor : s.verifyOnline scannedAt ∈ ({ db with
      sessions := db.sessions.update (fun a => a.id == s.id) (Session.verifyOnline scannedAt)
        (Session.key_verifyOnline scannedAt) } : Db).sessions :=
    Table.mem_update_of_pos (Session.key_verifyOnline scannedAt) hs (beq_self_eq_true s.id)
  obtain ⟨fills, db', hrun⟩ := run_propagateMerged_of_active hanchor hactive hterm (some user)
    (Session.fillPresent scannedAt) (Session.key_fillPresent scannedAt)
    fun pk => .sessionMergedPresent pk s.id
  refine ⟨db', Prog.run_atomic_of_ok (Prog.run_bind_of_ok hrun), ?_⟩
  have hkeeps := (Keeps.checkIns (V := fun _ => True)).propagateMergedPresent s.id scannedAt
    (some user) { db with
    sessions := db.sessions.update (fun a => a.id == s.id) (Session.verifyOnline scannedAt)
      (Session.key_verifyOnline scannedAt) }
  rw [propagateMergedPresent, show (propagateMerged s.id (some user) _ _ _).run _ = _ from hrun]
    at hkeeps
  exact hkeeps

/-- Flagging the teacher of a session leaves every other session that is held. -/
theorem makes_applyOnlineStatus (user : ℕ) (s : Session) (scannedAt now : ℤ) :
    (applyOnlineStatus user s .flagNotPresent scannedAt now).Makes (Keeps (· ≠ s.id)) := by
  refine .atomic Keeps.kind (.bind Keeps.kind (fun db => ?_) fun _ => ?_)
  · refine Keeps.update Session.key_markAbsent (fun a _ hsel hne => ?_) rfl rfl
    exact absurd (beq_iff_eq.mp hsel) hne
  · exact .bind Keeps.kind (Keeps.checkIns.propagateMergedAbsent _ _ _)
      fun _ => Prog.makes_pure Keeps.kind _

/-- A checker who verifies a session starts it. -/
theorem honest_applyOnlineStatus_verified {db₁ : Db} {term : AcademicTerm} (hdb : db.Honest)
    (hsessions : db₁.sessions = db.sessions)
    (hvalidations : ∀ v ∈ db₁.validations, v ∈ db.validations ∨ v.session = some s.id)
    (hs : s ∈ db₁.sessions) (hactive : db₁.activeTerm = some term)
    (hterm : db₁.inTerm term.id s = true) (user : ℕ) (scannedAt now : ℤ) :
    ((applyOnlineStatus user s .verified scannedAt now).run db₁).2.Honest := by
  obtain ⟨db', hrun, hkeeps⟩ := run_applyOnlineStatus_verified hs hactive hterm user scannedAt now
  rw [hrun]
  refine hkeeps.honest ?_ fun _ _ _ => trivial
  refine honest_start (Session.key_verifyOnline scannedAt) hdb (fun _ => rfl) ?_ hvalidations
  rw [← hsessions]

/-- A checker who flags the teacher of a session has not verified it. -/
theorem honest_applyOnlineStatus_flagged (hdb : db.Honest) (hs : s ∈ db.sessions)
    (hverified : db.verifiedByChecker s = false) (user : ℕ) (scannedAt now : ℤ) :
    ((applyOnlineStatus user s .flagNotPresent scannedAt now).run db).2.Honest := by
  refine (makes_applyOnlineStatus user s scannedAt now db).honest hdb fun a ha hsel hid => ?_
  rw [Table.eq_of_key_eq ha hs hid, hverified] at hsel
  cases hsel

theorem honest_applyAction {term : AcademicTerm} {action : ValidationAction} (hdb : db.Honest)
    (hs : s ∈ db.sessions) (hactive : db.activeTerm = some term)
    (hterm : db.inTerm term.id s = true)
    (haction : action = .verified ∨
      action = .flagNotPresent ∧ db.verifiedByChecker s = false)
    (user : ℕ) (note : String) (identityMatch : Option Bool) (scannedAt now : ℤ) :
    ((applyAction user s action note identityMatch scannedAt now).run db).2.Honest := by
  rw [applyAction, Prog.run_select_bind, Prog.run_modify_bind, createAudit, Prog.run_modify_bind]
  refine Prog.snd_run_bind ?_ fun _ db' hdb' => ?_
  · rcases haction with rfl | ⟨rfl, hverified⟩
    · apply honest_applyOnlineStatus_verified hdb
      · rfl
      · intro v hv
        rcases Table.mem_insert.mp hv with hv | rfl
        · exact .inl hv
        · exact .inr rfl
      · exact hs
      · exact hactive
      · exact hterm
    · apply honest_applyOnlineStatus_flagged
      · apply Endorses.honest _ hdb
        refine .add (fun v hv => Table.mem_insert.mp hv) rfl ?_
        intro hverify
        cases hverify
      · exact hs
      · rw [Bool.eq_false_iff, Ne, verifiedByChecker_iff]
        rintro ⟨v, hv, hsession, hverify⟩
        rcases Table.mem_insert.mp hv with hv | rfl
        · rw [verifiedByChecker_iff.mpr ⟨v, hv, hsession, hverify⟩] at hverified
          cases hverified
        · cases hverify
  · split
    · exact Keeps.honest (V := fun _ => True) (.frame rfl rfl) hdb' fun _ _ _ => trivial
    · exact hdb'

/-- An online class that a checker has verified is not flagged. -/
def Db.OnlineFaithful (db : Db) (user pk : ℕ) (action : ValidationAction) (note : String)
    (now : ℤ) : Prop :=
  action = .flagNotPresent → Py.strip note ≠ "" → db.onlineOnDuty user now = true →
    ∀ s, db.onlineSession pk user = some s → s.status = .active →
      (cacheGet db.cache (.checkerIdem user s.id action (minuteOf now)) now).isNone = true →
        db.verifiedByChecker s = false

theorem honest_onlineAction {pk : ℕ} {action : ValidationAction} {note : String} (hdb : db.Honest)
    (h : db.OnlineFaithful user pk action note now) (last : ℤ) :
    ((onlineAction user pk action note now last).run db).2.Honest := by
  rw [onlineAction, Prog.run_select_bind, Prog.run_select_bind]
  cases hload : db.onlineSession pk user with
  | none => exact hdb
  | some s =>
    obtain ⟨term, hactive, hfilter⟩ := Option.bind_eq_some_iff.mp hload
    obtain ⟨hget, hsel⟩ := Option.filter_eq_some_iff.mp hfilter
    have hs : s ∈ db.sessions := (Table.get?_eq_some_iff.mp hget).1
    rw [Bool.and_eq_true, Bool.and_eq_true] at hsel
    dsimp only
    split
    · exact (Endorses.frame rfl rfl : Endorses db _).honest hdb
    · rename_i hgate
      split
      · exact hdb
      · rename_i hvalid
        split
        · exact hdb
        · rename_i hnote
          rw [Prog.run_modifyGet_bind]
          split
          · rename_i hadded
            rw [Prog.snd_run_bind_pure]
            apply honest_applyAction
            · exact hdb
            · exact hs
            · exact hactive
            · exact hsel.1.1
            · by_cases hverified : action = .verified
              · exact .inl hverified
              · have haction : action = .flagNotPresent :=
                  by_contra fun hne => hvalid ⟨hverified, hne⟩
                have hblank : Py.strip note ≠ "" := fun heq => hnote ⟨haction, heq⟩
                obtain ⟨hduty, hactionable⟩ := not_or.mp (mt Bool.or_eq_true_iff.mpr hgate)
                rw [Bool.not_eq_true', Bool.not_eq_false] at hduty hactionable
                rw [Bool.and_eq_true, bne_iff_ne, bne_iff_ne] at hactionable
                refine .inr ⟨haction, Bool.eq_false_iff.mpr fun hverify => ?_⟩
                -- what is verified is held, and what is over is refused
                have hrunning : s.status = .active := by
                  have hheld := hdb s hs hverify
                  cases hstatus : s.status with
                  | active => rfl
                  | completed => exact absurd hstatus hactionable.2
                  | _ => rw [hstatus] at hheld; cases hheld
                have hnot := h haction hblank hduty s hload hrunning hadded
                exact absurd hverify (Bool.eq_false_iff.mp hnot)
          · exact (Endorses.frame rfl rfl : Endorses db _).honest hdb

end

/-! ### Runs -/

/-- The calls of a run: the requests and the room scans of checkers. -/
inductive CoverageCall
  | request (r : Request)
  | roomAction (user room : ℕ) (action : ValidationAction) (note : String) (now today : ℤ)
  | replay (user : ℕ) (now : ℤ) (items : List (ReplayItem × ℤ))

/-- Execute one call. -/
def World.check (w : World) : CoverageCall → World
  | .request r => w.step r
  | .roomAction user room action note now today =>
    { w with db := ((FluxTrack.roomAction user room action note now today).run w.db).2 }
  | .replay user now items => { w with db := ((FluxTrack.replay user now items).run w.db).2 }

/-- The condition on a call: it does not flag the teacher of an online class that a checker
has verified, and does not verify the class of a room that was called off. -/
def CoverageCall.Faithful (db : Db) : CoverageCall → Prop
  | request (.onlineAction user pk action note now _) => db.OnlineFaithful user pk action note now
  | request _ => True
  | roomAction user room action _ now today => db.RoomFaithful user room action now today
  | replay user now items => ReplayFaithful user now db items

/-- One call keeps the coverage honest. -/
theorem honest_check (w : World) (c : CoverageCall) (hw : w.db.Honest) (hc : c.Faithful w.db) :
    (w.check c).db.Honest := by
  cases c with
  | request r =>
    change ((r.prog w.issued).run w.db).2.Honest
    by_cases hr : ∀ user pk action note now last, r ≠ .onlineAction user pk action note now last
    · have hkeeps : Keeps (fun _ => True) w.db _ := Keeps.requests.prog w.issued w.db hr
      exact hkeeps.honest hw fun _ _ _ => trivial
    · push Not at hr
      obtain ⟨user, pk, action, note, now, last, rfl⟩ := hr
      rw [Request.prog, Prog.snd_run_bind_pure]
      exact honest_onlineAction hw hc last
  | roomAction user room action note now today => exact (endorses_roomAction note hc).honest hw
  | replay user now items => exact (endorses_replay hc).honest hw

/-- In every run whose calls meet the condition, and in every report over every scope, no
faculty member has more verified sessions than held ones, or more held than scheduled. -/
theorem coverage_honest {w : World} {calls : List CoverageCall} (hw : w.db.Honest)
    (h : Along World.check (fun w c => c.Faithful w.db) w calls) {pre : List CoverageCall}
    (hpre : pre <+: calls) (scope : ReportScope) :
    ∀ row ∈ (pre.foldl World.check w).db.facultyAttendance scope,
      row.verified ≤ row.held ∧ row.held ≤ row.scheduled :=
  fun _ hrow => verified_le_held (h.invariant honest_check hw hpre) hrow

namespace Campus

/-- The checker of the floor verifies the running eight o'clock class. -/
def verifies : CoverageCall := .roomAction 7 1 .verified "" (wallClock monday 8 10 0) monday

/-- The campus with the checker of the floor on duty, before anybody checks in. -/
def onDuty : Db := { campus with assignments := checked.assignments }

/-- The Monday is called off, and the checker verifies the class of the room. -/
def verifiesCancelled : List CoverageCall :=
  [.request (.suspendClasses 1 monday monday "Typhoon" none none), verifies]

end Campus

/-- A running class is verified. -/
theorem coverage_honest_verified :
    ((World.check (.start Campus.checked) Campus.verifies).db.facultyAttendance
      Campus.mondayScope ≠ []) ∧
    ∀ row ∈ (World.check (.start Campus.checked) Campus.verifies).db.facultyAttendance
      Campus.mondayScope, row.verified ≤ row.held ∧ row.held ≤ row.scheduled := by
  have hw : (World.start Campus.checked).db.Honest := honest_of_empty (by decide +kernel)
  have hrunning : ∀ r ∈ Campus.checked.rooms.rows, (Campus.checked.roomSessionState r.id
      (wallClock Campus.monday 8 10 0) Campus.monday).all
        (fun s => s.status != .cancelled) = true := by decide +kernel
  have hfaithful : Along World.check (fun w c => c.Faithful w.db) (.start Campus.checked)
      [Campus.verifies] := by
    refine ⟨fun _ r hroom _ s hstate _ => ?_, trivial⟩
    have hall := hrunning r (Table.get?_eq_some_iff.mp hroom).1
    rw [show Campus.checked.roomSessionState r.id _ _ = some s from hstate] at hall
    simpa using hall
  exact ⟨by decide +kernel, coverage_honest hw hfaithful List.prefix_rfl Campus.mondayScope⟩

/-- The class of a room is called off and then verified: one session is verified and none is
held. -/
theorem coverage_dishonest :
    ¬ ∀ (w : World) (calls : List CoverageCall), w.db.Honest → ∀ (scope : ReportScope),
      ∀ row ∈ (calls.foldl World.check w).db.facultyAttendance scope,
        row.verified ≤ row.held ∧ row.held ≤ row.scheduled := by
  intro h
  have hw : (World.start Campus.onDuty).db.Honest := honest_of_empty (by decide +kernel)
  have hrows := h (.start Campus.onDuty) Campus.verifiesCancelled hw Campus.mondayScope
  exact absurd hrows (by decide +kernel)

end FluxTrack
