import FluxTrack.Process.Runs
import FluxTrack.Theorems.CheckIns

/-!
# Who cancelled a session

A session that is called off does not record which declaration called it off. Lifting
a suspension finds its sessions again by the text of the reason, the dates and the
building. Here the cancellations of a run are written down beside the database, and
lifting is exact as long as no two of them can be confused: no declaration repeats the
reason of another one with which it shares a session, and no session that is called off
moves to another building.

## Main definitions

* `ClassCall` — declaring, lifting, dropping a schedule and checking in
* `History`, `History.step` — the database and the cancellations of the run so far
* `ClassCall.Distinct` — the condition on a call
* `History.LiftsOwn` — a lift reinstates exactly the sessions of its suspension

## Main results

* `lifts_own` — lifting over runs
-/

namespace FluxTrack

open Calendar Relational Process

/-! ### Check-ins leave cancellations alone -/

/-- A change that declares and lifts nothing, cancels no session and leaves every session
that is called off to the suspensions that would lift it. -/
structure Steady (db db' : Db) : Prop where
  suspensions : db'.suspensions = db.suspensions
  liftable : ∀ sp s, db'.liftable sp s = db.liftable sp s
  row : ∀ s' ∈ db'.sessions, ∃ s ∈ db.sessions, s.id = s'.id ∧
    (s'.status = .cancelled → s.status = .cancelled ∧
      ∀ sp ∈ db.suspensions, sp.liftedAt = none → db.liftable sp s = db.liftable sp s')

namespace Steady

theorem kind : Prog.Kind Steady where
  refl db := ⟨rfl, fun _ _ => rfl, fun s hs => ⟨s, hs, rfl, fun h => ⟨h, fun _ _ _ => rfl⟩⟩⟩
  trans db db₁ db₂ h h' := by
    refine ⟨h'.suspensions.trans h.suspensions,
      fun sp s => (h'.liftable sp s).trans (h.liftable sp s), fun s₂ hs₂ => ?_⟩
    obtain ⟨s₁, hs₁, hid, hcancel⟩ := h'.row s₂ hs₂
    obtain ⟨s, hs, hid', hcancel'⟩ := h.row s₁ hs₁
    refine ⟨s, hs, hid'.trans hid, fun hstatus => ?_⟩
    obtain ⟨hstatus₁, hlift⟩ := hcancel hstatus
    obtain ⟨hstatus', hlift'⟩ := hcancel' hstatus₁
    refine ⟨hstatus', fun sp hsp hforce => (hlift' sp hsp hforce).trans ?_⟩
    rw [← h.liftable, ← h.liftable]
    exact hlift sp (h.suspensions ▸ hsp) hforce

variable {db : Db}

/-- What touches neither the sessions nor the calendar is steady. -/
theorem frame {db' : Db} (hsp : db'.suspensions = db.suspensions)
    (hlift : db'.liftable = db.liftable) (hsessions : db'.sessions = db.sessions) :
    Steady db db' :=
  ⟨hsp, fun sp s => congrFun (congrFun hlift sp) s, fun s hs =>
    ⟨s, hsessions ▸ hs, rfl, fun h => ⟨h, fun _ _ _ => rfl⟩⟩⟩

/-- An update that cancels nothing, and keeps what a lift reads of what is cancelled. -/
theorem update {f : Session → Session} (hf : ∀ s, key (f s) = key s) {p : Session → Bool}
    (h : ∀ s ∈ db.sessions, p s = true → (f s).status = .cancelled → s.status = .cancelled ∧
      ∀ sp ∈ db.suspensions, sp.liftedAt = none → db.liftable sp s = db.liftable sp (f s)) :
    Steady db { db with sessions := db.sessions.update p f hf } := by
  refine ⟨rfl, fun _ _ => rfl, fun s' hs' => ?_⟩
  obtain ⟨s, hs, rfl⟩ := (Table.mem_update_iff hf).mp hs'
  refine ⟨s, hs, (Table.key_ite_update hf s).symm, fun hcancelled => ?_⟩
  by_cases hp : p s = true
  · rw [if_pos hp] at hcancelled ⊢
    exact h s hs hp hcancelled
  · rw [if_neg hp] at hcancelled ⊢
    exact ⟨hcancelled, fun _ _ _ => rfl⟩

/-- A check-in cancels nothing. -/
theorem checkIns : CheckIns Steady where
  kind := kind
  quiet _ _ _ _ := frame rfl rfl rfl
  runs db p f hf hstatus _ := by
    refine update hf fun s _ _ hcancelled => ?_
    rcases hstatus s with hrun | hrun <;> rw [hrun] at hcancelled <;> cases hcancelled
  misses db p _ := update _ fun s _ _ hcancelled => by cases hcancelled

/-- Nor does the check of an online class. -/
theorem onlineChecks : OnlineChecks Steady where
  toCheckIns := checkIns
  validates _ _ := frame rfl rfl rfl
  flags db p := update _ fun s _ _ hcancelled => by cases hcancelled

end Steady

/-! ### Calls and their history -/

/-- The calls that cancel and reinstate sessions, and the check-ins. -/
inductive ClassCall
  | suspend (term : ℕ) (startDate endDate : ℤ) (reason : String) (building declaredBy : Option ℕ)
  | lift (suspension : ℕ) (liftedBy : Option ℕ) (now : ℤ)
  | drop (schedule : ℕ) (actor : Option ℕ) (reason : String) (today : ℤ)
  | resolve (user : ℕ) (payload : Payload) (clock : ScanClock)
  | confirm (user : ℕ) (token : Option ConfirmToken) (reason : String) (now last : ℤ)
  | onlineStart (user pk : ℕ) (teamsLink : String) (now started : ℤ)
  | onlineAction (user pk : ℕ) (action : ValidationAction) (note : String) (now last : ℤ)

/-- What called a session off. -/
inductive Canceller
  | suspension (pk : ℕ)
  | schedule (pk : ℕ)
  deriving DecidableEq

namespace ClassCall

/-- The program of a call, answering with the key of the suspension it declares. -/
def prog : ClassCall → M (Option ℕ)
  | suspend term startDate endDate reason building declaredBy => do
    let (pk, _) ← suspendClasses term startDate endDate reason building declaredBy
    pure (some pk)
  | lift suspension liftedBy now => do
    let _ ← liftSuspension suspension liftedBy now
    pure none
  | drop schedule actor reason today => do
    let _ ← cancelSchedule schedule actor reason today
    pure none
  | resolve user payload clock => do
    let _ ← resolveScan user payload clock
    pure none
  | confirm user token reason now last => do
    let _ ← confirmScan user token reason now last
    pure none
  | onlineStart user pk teamsLink now started => do
    let _ ← FluxTrack.onlineStart user pk teamsLink now started
    pure none
  | onlineAction user pk action note now last => do
    let _ ← FluxTrack.onlineAction user pk action note now last
    pure none

/-- What the sessions that a call cancels are cancelled by. -/
def canceller : ClassCall → Option ℕ → Option Canceller
  | drop schedule .., _ => some (.schedule schedule)
  | _, declared => declared.map .suspension

end ClassCall

/-- The status of the session with a key. -/
def Db.statusOf (db : Db) (pk : ℕ) : Option SessionStatus :=
  (db.sessions.get? pk).map Session.status

/-- The suspension declared by a call that answered. -/
def declared : Except Err (Option ℕ) → Option ℕ
  | .ok pk => pk
  | .error _ => none

/-- The database, what called off each session that is called off now, and the suspensions
declared so far. -/
structure History where
  db : Db
  owner : ℕ → Option Canceller
  created : List ℕ

namespace History

/-- Before the first call nothing is known of the sessions that are called off. -/
def start (db : Db) : History := ⟨db, fun _ => none, []⟩

/-- The history after a change to `db'`: what it cancelled is cancelled by `canceller`, and
what is not called off any more is cancelled by nothing. -/
def after (h : History) (db' : Db) (canceller : Option Canceller) (declared : Option ℕ) :
    History where
  db := db'
  owner pk :=
    if db'.statusOf pk = some .cancelled then
      if h.db.statusOf pk = some .cancelled then h.owner pk else canceller
    else none
  created := declared.toList ++ h.created

/-- Execute one call. -/
def step (h : History) (c : ClassCall) : History :=
  let outcome := c.prog.run h.db
  h.after outcome.2 (c.canceller (declared outcome.1)) (declared outcome.1)

/-- Lifting a suspension moves exactly the sessions from cancelled to scheduled that its own
declaration cancelled and that are still called off by it. Of a suspension declared before
the run only this is known: it moves none that was cancelled during the run. -/
def LiftsOwn (h : History) : ClassCall → Prop
  | .lift suspension liftedBy now =>
    ∀ n db', (liftSuspension suspension liftedBy now).run h.db = (.ok n, db') → ∀ pk,
      (suspension ∈ h.created →
        ((h.db.statusOf pk = some .cancelled ∧ db'.statusOf pk = some .scheduled) ↔
          h.owner pk = some (.suspension suspension))) ∧
      (suspension ∉ h.created →
        h.db.statusOf pk = some .cancelled → db'.statusOf pk = some .scheduled →
          h.owner pk = none)
  | _ => True

end History

/-- The condition on a call. A session that is called off is not one that a suspension in
force would lift, and a suspension is not declared where a session that is called off
already has its reason. A session that is called off changes its room only if the same
suspensions in force would lift it afterwards. -/
def ClassCall.Distinct (db : Db) : ClassCall → Prop
  | suspend term startDate endDate reason building declaredBy =>
    (∃ t, db.terms.table.get? term = some t ∧ t.status ≠ .archived) →
      (∀ s ∈ db.sessions, db.liftable ⟨db.suspensions.nextKey, term, startDate, endDate, building,
        reason, declaredBy, none, none⟩ s = false) ∧
      ∀ s ∈ db.sessions, db.suspendable term startDate endDate building s = true →
        ∀ sp ∈ db.suspensions, sp.liftedAt = none →
          db.liftable sp (s.cancel (Py.truncate 200 reason)) = false
  | drop schedule _ reason today =>
    (∃ sched ∈ db.schedules, sched.id = schedule ∧
      ∃ t, db.terms.table.get? sched.term = some t ∧ t.status ≠ .archived) →
      ∀ s ∈ db.futureScheduled schedule today, ∀ sp ∈ db.suspensions, sp.liftedAt = none →
        db.liftable sp (s.cancel (cancelReason reason)) = false
  | confirm _ (some token) _ _ _ =>
    token.resolution.outcome = .wrongRoom → ∀ s ∈ db.sessions,
      token.resolution.session = some s.id → ∀ sp ∈ db.suspensions, sp.liftedAt = none →
        db.liftable sp s = db.liftable sp (s.moveTo token.room)
  | _ => True

/-! ### Ownership -/

namespace History

/-- A suspension in force would lift exactly the sessions its declaration cancelled; one
declared before the run would lift only sessions of which nothing is known. -/
structure Exact (h : History) : Prop where
  owned : ∀ pk suspension, h.owner pk = some (.suspension suspension) →
    ∃ sp ∈ h.db.suspensions, sp.id = suspension ∧ sp.liftedAt = none ∧
      ∃ s ∈ h.db.sessions, s.id = pk ∧ h.db.liftable sp s = true
  owns : ∀ sp ∈ h.db.suspensions, sp.liftedAt = none → ∀ s ∈ h.db.sessions,
    h.db.liftable sp s = true →
      h.owner s.id = if sp.id ∈ h.created then some (.suspension sp.id) else none

theorem exact_start (db : Db) : (start db).Exact where
  owned _ _ h := nomatch h
  owns _ _ _ _ _ _ := (if_neg List.not_mem_nil).symm

end History

section

variable {db : Db}

theorem statusOf_of_mem {s : Session} (hs : s ∈ db.sessions) : db.statusOf s.id = some s.status := by
  rw [Db.statusOf, show db.sessions.get? s.id = some s from Table.get?_key hs, Option.map_some]

theorem statusOf_eq_some {pk : ℕ} {status : SessionStatus} (h : db.statusOf pk = some status) :
    ∃ s ∈ db.sessions, s.id = pk ∧ s.status = status := by
  obtain ⟨s, hget, hstatus⟩ := Option.map_eq_some_iff.mp h
  obtain ⟨hs, hid⟩ := Table.get?_eq_some_iff.mp hget
  exact ⟨s, hs, hid, hstatus⟩

/-- What a suspension cancels, it would lift. -/
theorem liftable_cancel {pk term : ℕ} {startDate endDate : ℤ} {reason : String}
    {building declaredBy : Option ℕ} {s : Session}
    (h : db.suspendable term startDate endDate building s = true) :
    db.liftable ⟨pk, term, startDate, endDate, building, reason, declaredBy, none, none⟩
      (s.cancel (Py.truncate 200 reason)) = true := by
  simp only [Db.suspendable, Bool.and_eq_true, beq_iff_eq] at h
  simp only [Db.liftable, Session.cancel, Bool.and_eq_true, beq_iff_eq]
  exact ⟨⟨⟨⟨h.1.1.1, trivial⟩, trivial⟩, h.1.2⟩, h.2⟩

/-- Dropping a schedule leaves its term. -/
theorem liftable_dropped {schedule : ℕ} {actor : Option ℕ} {reason : String} {today : ℤ}
    (sp : ClassSuspension) (s : Session) :
    (db.dropped schedule actor reason today).liftable sp s = db.liftable sp s := by
  rw [Db.liftable, Db.liftable, Db.inTerm, Db.inTerm, term_scheduleOf_dropped]
  rfl

end

namespace History

variable {h : History} {db' : Db} {canceller : Option Canceller} {declared : Option ℕ}

theorem owner_after_eq (pk : ℕ) :
    (h.after db' canceller declared).owner pk =
      if db'.statusOf pk = some .cancelled then
        if h.db.statusOf pk = some .cancelled then h.owner pk else canceller
      else none := rfl

/-- Only a session that is called off has been cancelled by something. -/
theorem cancelled_of_owner {pk : ℕ} {c : Canceller}
    (hown : (h.after db' canceller declared).owner pk = some c) :
    ∃ s ∈ db'.sessions, s.id = pk ∧ s.status = .cancelled := by
  refine statusOf_eq_some (by_contra fun hne => ?_)
  rw [owner_after_eq, if_neg hne] at hown
  cases hown

/-- A session that was called off before keeps what it was cancelled by. -/
theorem owner_after {s s' : Session} (hs' : s' ∈ db'.sessions) (hstatus' : s'.status = .cancelled)
    (hs : s ∈ h.db.sessions) (hid : s.id = s'.id) (hstatus : s.status = .cancelled) :
    (h.after db' canceller declared).owner s'.id = h.owner s.id := by
  have hbefore := statusOf_of_mem hs
  have hafter := statusOf_of_mem hs'
  rw [hstatus, hid] at hbefore
  rw [hstatus'] at hafter
  rw [owner_after_eq, if_pos hafter, if_pos hbefore, hid]

/-- A session that was not called off before has been cancelled by the call. -/
theorem owner_after_of_ne {s s' : Session} (hs' : s' ∈ db'.sessions)
    (hstatus' : s'.status = .cancelled) (hs : s ∈ h.db.sessions) (hid : s.id = s'.id)
    (hstatus : s.status ≠ .cancelled) :
    (h.after db' canceller declared).owner s'.id = canceller := by
  have hbefore := statusOf_of_mem hs
  have hafter := statusOf_of_mem hs'
  rw [hid] at hbefore
  rw [hstatus'] at hafter
  rw [owner_after_eq, if_pos hafter, if_neg (by simpa [hbefore] using hstatus)]

/-- A suspension that owns a session is in force and would lift it. -/
theorem Exact.liftable_of_owner (hx : h.Exact) {s : Session} (hs : s ∈ h.db.sessions)
    {suspension : ℕ} (hown : h.owner s.id = some (.suspension suspension)) :
    ∃ sp ∈ h.db.suspensions, sp.id = suspension ∧ sp.liftedAt = none ∧
      h.db.liftable sp s = true := by
  obtain ⟨sp, hsp, hid, hforce, a, ha, haid, hliftable⟩ := hx.owned s.id suspension hown
  rw [Table.eq_of_key_eq ha hs haid] at hliftable
  exact ⟨sp, hsp, hid, hforce, hliftable⟩

/-- Ownership after a change is about the sessions that are called off then. -/
theorem exact_after
    (howned : ∀ s' ∈ db'.sessions, s'.status = .cancelled → ∀ suspension,
      (h.after db' canceller declared).owner s'.id = some (.suspension suspension) →
        ∃ sp ∈ db'.suspensions, sp.id = suspension ∧ sp.liftedAt = none ∧
          db'.liftable sp s' = true)
    (howns : ∀ s' ∈ db'.sessions, s'.status = .cancelled → ∀ sp ∈ db'.suspensions,
      sp.liftedAt = none → db'.liftable sp s' = true →
        (h.after db' canceller declared).owner s'.id =
          if sp.id ∈ declared.toList ++ h.created then some (.suspension sp.id) else none) :
    (h.after db' canceller declared).Exact where
  owned pk suspension hown := by
    obtain ⟨s', hs', rfl, hstatus'⟩ := cancelled_of_owner hown
    obtain ⟨sp, hsp, hid, hforce, hliftable⟩ := howned s' hs' hstatus' suspension hown
    exact ⟨sp, hsp, hid, hforce, s', hs', rfl, hliftable⟩
  owns sp hsp hforce s' hs' hliftable :=
    howns s' hs' (cancelled_of_liftable hliftable) sp hsp hforce hliftable

/-- A steady change keeps ownership. -/
theorem exact_steady (hx : h.Exact) (hst : Steady h.db db') (canceller : Option Canceller) :
    (h.after db' canceller none).Exact := by
  refine exact_after (fun s' hs' hstatus' suspension hown => ?_)
    fun s' hs' hstatus' sp hsp hforce hliftable => ?_
  · obtain ⟨s, hs, hid, hcancel⟩ := hst.row s' hs'
    obtain ⟨hstatus, hlift⟩ := hcancel hstatus'
    rw [owner_after hs' hstatus' hs hid hstatus] at hown
    obtain ⟨sp, hsp, hspid, hforce, hliftable⟩ := hx.liftable_of_owner hs hown
    refine ⟨sp, hst.suspensions ▸ hsp, hspid, hforce, ?_⟩
    rw [hlift sp hsp hforce] at hliftable
    exact (hst.liftable sp s').trans hliftable
  · have hsp₀ : sp ∈ h.db.suspensions := hst.suspensions ▸ hsp
    obtain ⟨s, hs, hid, hcancel⟩ := hst.row s' hs'
    obtain ⟨hstatus, hlift⟩ := hcancel hstatus'
    rw [owner_after hs' hstatus' hs hid hstatus]
    refine hx.owns sp hsp₀ hforce s hs ?_
    rw [hlift sp hsp₀ hforce, ← hst.liftable]
    exact hliftable

/-- Declaring a suspension gives it what it cancels. -/
theorem exact_suspended (hx : h.Exact) {term : ℕ} {startDate endDate : ℤ} {reason : String}
    {building declaredBy : Option ℕ}
    (hnew : ∀ s ∈ h.db.sessions, h.db.liftable ⟨h.db.suspensions.nextKey, term, startDate,
      endDate, building, reason, declaredBy, none, none⟩ s = false)
    (hold : ∀ s ∈ h.db.sessions, h.db.suspendable term startDate endDate building s = true →
      ∀ sp ∈ h.db.suspensions, sp.liftedAt = none →
        h.db.liftable sp (s.cancel (Py.truncate 200 reason)) = false) :
    (h.after (h.db.suspended term startDate endDate reason building declaredBy)
      (some (.suspension h.db.suspensions.nextKey)) (some h.db.suspensions.nextKey)).Exact := by
  refine exact_after (fun s' hs' hstatus' suspension hown => ?_)
    fun s' hs' hstatus' sp hsp hforce hliftable => ?_
  · obtain ⟨s, hs, hss⟩ := mem_sessions_suspended.mp hs'
    by_cases hsel : h.db.suspendable term startDate endDate building s = true
    · -- a session that the call cancelled is its own
      rw [if_pos hsel] at hss
      subst hss
      rw [owner_after_of_ne hs' hstatus' hs rfl (by rw [scheduled_of_suspendable hsel]; nofun)] at hown
      cases hown
      exact ⟨_, mem_suspensions_suspended.mpr (.inr rfl), rfl, rfl,
        liftable_cancel hsel⟩
    · rw [if_neg hsel] at hss
      subst hss
      rw [owner_after hs' hstatus' hs rfl hstatus'] at hown
      obtain ⟨sp, hsp, hspid, hforce, hliftable⟩ := hx.liftable_of_owner hs hown
      exact ⟨sp, mem_suspensions_suspended.mpr (.inl hsp), hspid, hforce, hliftable⟩
  · obtain ⟨s, hs, hss⟩ := mem_sessions_suspended.mp hs'
    by_cases hsel : h.db.suspendable term startDate endDate building s = true
    · rw [if_pos hsel] at hss
      subst hss
      rcases mem_suspensions_suspended.mp hsp with hmem | rfl
      · exact absurd hliftable (Bool.eq_false_iff.mp (hold s hs hsel sp hmem hforce))
      · rw [owner_after_of_ne hs' hstatus' hs rfl (by rw [scheduled_of_suspendable hsel]; nofun)]
        exact (if_pos List.mem_cons_self).symm
    · rw [if_neg hsel] at hss
      subst hss
      rcases mem_suspensions_suspended.mp hsp with hmem | rfl
      · rw [owner_after hs' hstatus' hs rfl hstatus']
        have hne : sp.id ≠ h.db.suspensions.nextKey := (Table.key_lt_nextKey hmem).ne
        have hcreated : sp.id ∈ (some h.db.suspensions.nextKey).toList ++ h.created ↔
            sp.id ∈ h.created := List.mem_cons.trans (or_iff_right hne)
        simp only [hcreated]
        exact hx.owns sp hmem hforce s hs hliftable
      · exact absurd hliftable (Bool.eq_false_iff.mp (hnew s hs))

/-- Lifting a suspension leaves the others what they own. -/
theorem exact_lifted (hx : h.Exact) {sp : ClassSuspension} (hsp : sp ∈ h.db.suspensions)
    (liftedBy : Option ℕ) (now : ℤ) : (h.after (h.db.lifted sp liftedBy now) none none).Exact := by
  refine exact_after (fun s' hs' hstatus' suspension hown => ?_)
    fun s' hs' hstatus' o' ho' hforce hliftable => ?_
  · obtain ⟨s, hs, hss⟩ := mem_sessions_lifted.mp hs'
    by_cases hsel : h.db.liftable sp s = true
    · rw [if_pos hsel] at hss
      subst hss
      cases hstatus'
    · rw [if_neg hsel] at hss
      subst hss
      rw [owner_after hs' hstatus' hs rfl hstatus'] at hown
      obtain ⟨o, ho, hoid, hforce, hliftable⟩ := hx.liftable_of_owner hs hown
      -- the owner is another suspension: the lifted one would have reinstated the session
      have hne : o.id ≠ sp.id := fun heq => hsel (Table.eq_of_key_eq ho hsp heq ▸ hliftable)
      refine ⟨o, mem_suspensions_lifted.mpr ⟨o, ho, if_neg (by simpa using hne)⟩, hoid, hforce,
        hliftable⟩
  · obtain ⟨o, ho, hoo⟩ := mem_suspensions_lifted.mp ho'
    by_cases hid : o.id = sp.id
    · rw [if_pos (by simpa using hid)] at hoo
      subst hoo
      cases hforce
    · rw [if_neg (by simpa using hid)] at hoo
      subst hoo
      obtain ⟨s, hs, hss⟩ := mem_sessions_lifted.mp hs'
      by_cases hsel : h.db.liftable sp s = true
      · rw [if_pos hsel] at hss
        subst hss
        cases hstatus'
      · rw [if_neg hsel] at hss
        subst hss
        rw [owner_after hs' hstatus' hs rfl hstatus']
        exact hx.owns o ho hforce s hs hliftable

/-- Dropping a schedule cancels nothing that a suspension would lift. -/
theorem exact_dropped (hx : h.Exact) {schedule : ℕ} {reason : String} {today : ℤ}
    (hold : ∀ s ∈ h.db.futureScheduled schedule today, ∀ sp ∈ h.db.suspensions,
      sp.liftedAt = none → h.db.liftable sp (s.cancel (cancelReason reason)) = false)
    (actor : Option ℕ) :
    (h.after (h.db.dropped schedule actor reason today) (some (.schedule schedule)) none).Exact := by
  refine exact_after (fun s' hs' hstatus' suspension hown => ?_)
    fun s' hs' hstatus' sp hsp hforce hliftable => ?_
  · obtain ⟨s, hs, hss⟩ := mem_sessions_dropped.mp hs'
    by_cases hsel : s ∈ h.db.futureScheduled schedule today
    · rw [if_pos hsel] at hss
      subst hss
      rw [owner_after_of_ne hs' hstatus' hs rfl
        (by rw [scheduled_of_futureScheduled hsel]; nofun)] at hown
      cases hown
    · rw [if_neg hsel] at hss
      subst hss
      rw [owner_after hs' hstatus' hs rfl hstatus'] at hown
      obtain ⟨sp, hsp, hspid, hforce, hliftable⟩ := hx.liftable_of_owner hs hown
      exact ⟨sp, hsp, hspid, hforce, (liftable_dropped sp s).trans hliftable⟩
  · obtain ⟨s, hs, hss⟩ := mem_sessions_dropped.mp hs'
    by_cases hsel : s ∈ h.db.futureScheduled schedule today
    · rw [if_pos hsel] at hss
      subst hss
      rw [liftable_dropped, hold s hsel sp hsp hforce] at hliftable
      cases hliftable
    · rw [if_neg hsel] at hss
      subst hss
      rw [owner_after hs' hstatus' hs rfl hstatus']
      exact hx.owns sp hsp hforce s hs ((liftable_dropped sp s).symm.trans hliftable)

/-! ### Runs -/

/-- A call that answers with no suspension, seen through its service. -/
theorem snd_run_forget {α : Type} (p : M α) (db : Db) :
    ((do let _ ← p; pure none : M (Option ℕ)).run db).2 = (p.run db).2 ∧
      FluxTrack.declared ((do let _ ← p; pure none : M (Option ℕ)).run db).1 = none := by
  rw [Prog.run_bind]
  rcases p.run db with ⟨e | a, db'⟩ <;> exact ⟨rfl, rfl⟩

/-- A call without a declaration whose service makes a steady change keeps ownership. -/
theorem exact_step_of_steady (hx : h.Exact) {c : ClassCall} {α : Type} {p : M α}
    (hc : c.prog = (do let _ ← p; pure none : M (Option ℕ))) (hst : Steady h.db (p.run h.db).2) :
    (h.step c).Exact := by
  obtain ⟨hdb, hnone⟩ := snd_run_forget p h.db
  rw [step, hc, hnone, hdb]
  exact exact_steady hx hst _

/-- A confirmed change of room is steady under the condition. -/
theorem steady_confirmScan {db : Db} {user : ℕ} {token : Option ConfirmToken} {reason : String}
    {now last : ℤ} (hc : (ClassCall.confirm user token reason now last).Distinct db) :
    Steady db ((confirmScan user token reason now last).run db).2 := by
  refine Steady.checkIns.confirmScan (fun t ht hwrong s hs hpk => ?_) _ _ _ _
  subst ht
  refine Steady.update _ fun a ha hsel hcancelled => ⟨hcancelled, ?_⟩
  rw [Table.eq_of_key_eq ha hs (beq_iff_eq.mp hsel)]
  exact hc hwrong s hs hpk

/-- One call keeps ownership. -/
theorem exact_step (h : History) (c : ClassCall) (hx : h.Exact) (hc : c.Distinct h.db) :
    (h.step c).Exact := by
  cases c with
  | suspend term startDate endDate reason building declaredBy =>
    rcases run_suspendClasses_cases h.db term startDate endDate reason building declaredBy with
      ⟨e, hrun⟩ | ⟨hterm, hrun⟩
    · rw [step, ClassCall.prog, Prog.run_bind_of_error hrun]
      exact exact_steady hx (Steady.kind.refl _) _
    · rw [step, ClassCall.prog, Prog.run_bind_of_ok hrun]
      exact exact_suspended hx (hc hterm).1 (hc hterm).2
  | lift suspension liftedBy now =>
    rcases run_liftSuspension_cases h.db suspension liftedBy now with
      ⟨e, hrun⟩ | ⟨sp, hsp, rfl, -, -, hrun⟩ | ⟨sp, hsp, rfl, -, -, hrun⟩
    · rw [step, ClassCall.prog, Prog.run_bind_of_error hrun]
      exact exact_steady hx (Steady.kind.refl _) _
    · rw [step, ClassCall.prog, Prog.run_bind_of_ok hrun]
      exact exact_steady hx (Steady.kind.refl _) _
    · rw [step, ClassCall.prog, Prog.run_bind_of_ok hrun]
      exact exact_lifted hx hsp liftedBy now
  | drop schedule actor reason today =>
    rcases run_cancelSchedule_cases h.db schedule actor reason today with
      ⟨e, hrun⟩ | ⟨sched, hsched, hid, hterm, hrun⟩
    · rw [step, ClassCall.prog, Prog.run_bind_of_error hrun]
      exact exact_steady hx (Steady.kind.refl _) _
    · rw [step, ClassCall.prog, Prog.run_bind_of_ok hrun]
      exact exact_dropped hx (hc ⟨sched, hsched, hid, hterm⟩) actor
  | resolve user payload clock =>
    exact exact_step_of_steady hx rfl (Steady.checkIns.resolveScan _ _ _ h.db)
  | confirm user token reason now last =>
    exact exact_step_of_steady hx rfl (steady_confirmScan hc)
  | onlineStart user pk teamsLink now started =>
    exact exact_step_of_steady hx rfl (Steady.checkIns.onlineStart _ _ _ _ _ h.db)
  | onlineAction user pk action note now last =>
    exact exact_step_of_steady hx rfl
      (Steady.onlineChecks.onlineAction user pk action note now last h.db)

/-- What a lift moves, it selected. -/
theorem liftable_of_moves {db : Db} {sp : ClassSuspension} {liftedBy : Option ℕ} {now : ℤ} {pk : ℕ}
    (hcancelled : db.statusOf pk = some .cancelled)
    (hsched : (db.lifted sp liftedBy now).statusOf pk = some .scheduled) :
    ∃ s ∈ db.sessions, s.id = pk ∧ db.liftable sp s = true := by
  obtain ⟨s', hs', hid', hstatus'⟩ := statusOf_eq_some hsched
  obtain ⟨s, hs, hss⟩ := mem_sessions_lifted.mp hs'
  by_cases hsel : db.liftable sp s = true
  · rw [if_pos hsel] at hss
    subst hss
    exact ⟨s, hs, hid', hsel⟩
  · rw [if_neg hsel] at hss
    subst hss
    rw [← hid', statusOf_of_mem hs, hstatus'] at hcancelled
    cases hcancelled

/-- Where ownership is exact, lifting moves what the suspension owns. -/
theorem liftsOwn_of_exact (h : History) (c : ClassCall) (hx : h.Exact) : h.LiftsOwn c := by
  cases c with
  | lift suspension liftedBy now =>
    intro n db' hok pk
    rcases run_liftSuspension_cases h.db suspension liftedBy now with
      ⟨e, hrun⟩ | ⟨sp, hsp, rfl, hlifted, -, hrun⟩ | ⟨sp, hsp, rfl, hforce, -, hrun⟩
    · rw [hrun] at hok
      cases hok
    · -- lifted before: nothing moves and nothing is owned
      rw [hrun] at hok
      cases hok
      have hstays : ¬ (h.db.statusOf pk = some .cancelled ∧ h.db.statusOf pk = some .scheduled) :=
        fun ⟨hcancelled, hsched⟩ => by rw [hcancelled] at hsched; cases hsched
      refine ⟨fun _ => ⟨fun hmoves => absurd hmoves hstays, fun hown => ?_⟩,
        fun _ hcancelled hsched => absurd ⟨hcancelled, hsched⟩ hstays⟩
      obtain ⟨o, ho, hoid, hnone, -⟩ := hx.owned pk sp.id hown
      rw [Table.eq_of_key_eq ho hsp hoid] at hnone
      rw [hnone] at hlifted
      cases hlifted
    · rw [hrun] at hok
      cases hok
      refine ⟨fun hcreated => ⟨?_, fun hown => ?_⟩, fun hcreated hcancelled hsched => ?_⟩
      · rintro ⟨hcancelled, hsched⟩
        obtain ⟨s, hs, rfl, hsel⟩ := liftable_of_moves hcancelled hsched
        rw [hx.owns sp hsp hforce s hs hsel, if_pos hcreated]
      · obtain ⟨o, ho, hoid, -, s, hs, rfl, hsel⟩ := hx.owned pk sp.id hown
        rw [Table.eq_of_key_eq ho hsp hoid] at hsel
        have hs' : s.uncancel ∈ (h.db.lifted sp liftedBy now).sessions :=
          mem_sessions_lifted.mpr ⟨s, hs, if_pos hsel⟩
        refine ⟨?_, statusOf_of_mem hs'⟩
        rw [statusOf_of_mem hs, cancelled_of_liftable hsel]
      · obtain ⟨s, hs, rfl, hsel⟩ := liftable_of_moves hcancelled hsched
        rw [hx.owns sp hsp hforce s hs hsel, if_neg hcreated]
  | _ => trivial

end History

namespace Campus

/-- A typhoon closes the campus on the Monday and passes. -/
def typhoonPasses : List ClassCall := [.suspend 1 monday monday "Typhoon" none none, .lift 1 none 0]

/-- A typhoon closes a building on the Monday, then the campus, and the second suspension is
lifted. -/
def typhoonTwice : List ClassCall :=
  [.suspend 1 monday monday "Typhoon" (some 1) none, .suspend 1 monday monday "Typhoon" none none,
    .lift 2 none 0]

end Campus

end FluxTrack
