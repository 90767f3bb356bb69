import FluxTrack.Theorems.Statements

/-!
# The session status machine

Every status change of a session is one of the lawful ones, in every run whose
requests meet the session in a state they were made for. The requests that can
miss it are a confirmation, which applies a decision taken earlier, and the
online action of a checker, which does not look for a cancelled session.

## Main definitions

* `Allowed` — the lawful status changes
* `Lawful` — a statement that changes statuses lawfully only
* `Request.Fresh` — the request meets the session in a state it was made for

## Main results

* `status_changes_lawful` — runs of fresh requests are lawful
* `confirm_revives_absent` — a confirmation need not be fresh
-/

namespace FluxTrack

open Calendar Relational Process

/-- The lawful status changes, three of them by one kind of request only. -/
inductive Allowed : Request → SessionStatus → SessionStatus → Prop
  | starts (r : Request) : Allowed r .scheduled .active
  | misses (r : Request) : Allowed r .scheduled .absent
  | calledOff (r : Request) : Allowed r .scheduled .cancelled
  | ends (r : Request) : Allowed r .active .completed
  | flagged {user pk : ℕ} {note : String} {now last : ℤ} :
      Allowed (.onlineAction user pk .flagNotPresent note now last) .active .absent
  | reinstated {user pk : ℕ} {reason : String} :
      Allowed (.sessionReinstate user pk reason) .absent .completed
  | lifted {suspension : ℕ} {liftedBy : Option ℕ} {now : ℤ} :
      Allowed (.liftSuspension suspension liftedBy now) .cancelled .scheduled

/-- The statement of request `r` from `s` to `t` changes the status of a session only
in a lawful way. -/
def Lawful (r : Request) (s t : Db) : Prop :=
  ∀ pk a b, s.sessions.get? pk = some a → t.sessions.get? pk = some b →
    a.status = b.status ∨ Allowed r a.status b.status

/-- The request meets the session it would change in a state it was made for: a
confirmed early end finds it running or over, a confirmed handover finds it
scheduled or running, and an online action does not find it cancelled. -/
def Request.Fresh (w : World) : Request → Prop
  | confirm user token _ now _ =>
    token ∈ w.issued → token.unexpired now = true → token.user = user →
      ∀ pk s, token.resolution.session = some pk → w.db.activeSession pk = some s →
        (token.resolution.outcome = .earlyEnd → s.status = .active ∨ s.status = .completed) ∧
        (token.resolution.outcome = .roomOccupied →
          s.status = .scheduled ∨ s.status = .active)
  | onlineAction user pk action note now _ =>
    (action = .verified ∨ action = .flagNotPresent ∧ Py.strip note ≠ "") →
      w.db.onlineOnDuty user now = true →
      (cacheGet w.db.cache (.checkerIdem user pk action (minuteOf now)) now).isNone = true →
      ∀ s, w.db.onlineSession pk user = some s → s.status ≠ .cancelled
  | _ => True

/-! ### Lawful statements -/

section

variable {r : Request} {db : Db}

theorem frame_lawful : Frame (Lawful r) := by
  intro s t h pk a b ha hb
  rw [h, ha] at hb
  cases hb
  exact .inl rfl

/-- An update is lawful if it treats every row it selects lawfully. -/
theorem lawful_update {p : Session → Bool} {f : Session → Session} (hf : ∀ s, key (f s) = key s)
    {t : Db} (ht : t.sessions = db.sessions.update p f hf)
    (h : ∀ a ∈ db.sessions, p a = true → a.status = (f a).status ∨ Allowed r a.status (f a).status) :
    Lawful r db t := by
  intro pk a b ha hb
  rw [ht, Table.get?_update, ha, Option.map_some, Option.some.injEq] at hb
  subst hb
  by_cases hp : p a = true
  · rw [if_pos hp]
    exact h a (Table.get?_eq_some_iff.mp ha).1 hp
  · rw [if_neg hp]
    exact .inl rfl

theorem steps_saveSession {pk : ℕ} {f : Session → Session} {hf : ∀ s, key (f s) = key s}
    (h : ∀ a ∈ db.sessions, a.id = pk →
      a.status = (f a).status ∨ Allowed r a.status (f a).status) :
    (saveSession pk f hf).Steps (Lawful r) db :=
  ⟨lawful_update hf rfl fun a ha hp => h a ha (by simpa using hp), trivial⟩

/-- Filling scheduled siblings is lawful when their new status is. -/
theorem lawful_fill {a : Session} {f : Session → Session} {hf : ∀ s, key (f s) = key s}
    {status : SessionStatus} (hstatus : ∀ s, (f s).status = status)
    (hallowed : Allowed r .scheduled status) :
    Lawful r db { db with
      sessions := db.sessions.update (fun s => (db.mergeFill a).contains s.id) f hf } := by
  refine lawful_update hf rfl fun c hc hp => .inr ?_
  rw [hstatus, scheduled_of_mem_mergeFill hc (List.contains_iff_mem.mp hp)]
  exact hallowed

theorem steps_lawful_propagateMergedPresent (anchor : ℕ) (now : ℤ) (actor : Option ℕ) :
    (propagateMergedPresent anchor now actor).Steps (Lawful r) db :=
  steps_propagateMergedPresent frame_lawful fun _ _ _ _ => lawful_fill (fun _ => rfl) (.starts r)

theorem steps_lawful_propagateMergedAbsent (anchor : Session) (actor : Option ℕ) (now : ℤ) :
    (propagateMergedAbsent anchor actor now).Steps (Lawful r) db :=
  steps_propagateMergedAbsent frame_lawful fun _ _ _ _ _ => lawful_fill (fun _ => rfl) (.misses r)

/-- A batched flip of distinct sessions in one status is lawful when the change is:
the slices still to come have that status until their turn. -/
theorem steps_lawful_flipSessions {actor : Option ℕ} {ids : List ℕ} {f : Session → Session}
    {hf : ∀ s, key (f s) = key s} {event : ℕ → AuditEvent} {before after : SessionStatus}
    (hafter : ∀ s, (f s).status = after) (hallowed : Allowed r before after) (hnodup : ids.Nodup)
    (h : ∀ a ∈ db.sessions, a.id ∈ ids → a.status = before) :
    (flipSessions actor ids f hf event).Steps (Lawful r) db := by
  refine steps_flipSessions frame_lawful
    (fun db ids => ids.Nodup ∧ ∀ a ∈ db.sessions, a.id ∈ ids → a.status = before) ?_ ⟨hnodup, h⟩
  rintro db chunk rest ⟨hnodup, hbefore⟩
  obtain ⟨-, hrest, hdisj⟩ := List.nodup_append.mp hnodup
  refine ⟨lawful_update hf rfl fun a ha hp => .inr ?_, fun db' hdb' => ⟨hrest, fun a ha hmem => ?_⟩⟩
  · rw [hafter, hbefore a ha (List.mem_append_left _ (List.contains_iff_mem.mp hp))]
    exact hallowed
  · rw [hdb'] at ha
    obtain ⟨b, hb, rfl⟩ := Table.mem_update.mp ha
    have hid : (if chunk.contains b.id = true then f b else b).id = b.id :=
      Table.key_ite_update (p := fun s : Session => chunk.contains s.id) hf b
    rw [hid] at hmem
    -- a row of a later slice is not in this one
    have hnot : ¬ chunk.contains b.id = true := fun hin =>
      hdisj _ (List.contains_iff_mem.mp hin) _ hmem rfl
    rw [if_neg hnot]
    exact hbefore b hb (List.mem_append_right _ hmem)

/-! ### The requests -/

/-- The loaded session is in a state the outcome was made for. -/
structure Meets (res : Resolution) (s : Session) : Prop where
  checkedIn : res.outcome = .checkedIn → s.status = .scheduled
  checkedOut : res.outcome = .checkedOut → s.status = .active
  earlyEnd : res.outcome = .earlyEnd → s.status = .active ∨ s.status = .completed
  roomOccupied : res.outcome = .roomOccupied → s.status = .scheduled ∨ s.status = .active
  prior : res.priorSession ≠ some s.id

theorem steps_lawful_applyHandover {s : Session} {user : ℕ} {prior : Option ℕ} {room : Room}
    {now : ℤ} (hs : s ∈ db.sessions) (hstatus : s.status = .scheduled ∨ s.status = .active)
    (hprior : prior ≠ some s.id) :
    (applyHandover user s.id prior room now).Steps (Lawful r) db := by
  refine Prog.steps_atomic (frame_lawful rfl) (Prog.steps_select_bind (frame_lawful rfl) ?_)
  -- completing the prior session leaves the handed-over one as it was
  have hcomplete : ∀ p, prior.bind db.activeSession = some p → p ∈ db.sessions ∧ p.id ≠ s.id := by
    intro p hp
    obtain ⟨pk, hpk, hp⟩ := Option.bind_eq_some_iff.mp hp
    obtain ⟨hmem, hid⟩ := activeSession_eq_some hp
    refine ⟨hmem, fun heq => hprior ?_⟩
    rw [hpk, ← hid, heq]
  have hrest : ∀ (from? : Option ℕ) (db₁ : Db),
      (∀ a ∈ db₁.sessions, a.id = s.id → a = s) →
      Prog.Steps (Lawful r) (do
        saveSession s.id (Session.handOver now from?) (Session.key_handOver now from?)
        createAudit (some user) (.sessionForceHandover s.id room.code prior)
        let _ ← propagateMergedPresent s.id now (some user) : M Unit) db₁ := by
    intro from? db₁ hsame
    refine Prog.steps_bind (steps_saveSession fun a ha hid => ?_) fun _ db₂ _ => ?_
    · rw [hsame a ha hid]
      rcases hstatus with h | h <;> rw [h]
      · exact .inr (.starts r)
      · exact .inl rfl
    · exact Prog.steps_modify_bind (frame_lawful rfl)
        (Prog.steps_bind (steps_lawful_propagateMergedPresent _ _ _) fun _ _ _ => trivial)
  cases hload : prior.bind db.activeSession with
  | none => exact hrest _ db fun a ha hid => Table.eq_of_key_eq ha hs hid
  | some p =>
    obtain ⟨hp, hne⟩ := hcomplete p hload
    unfold completePrior
    by_cases hactive : p.status = .active
    · simp only [if_pos hactive]
      refine Prog.steps_modify_bind
        (lawful_update (Session.key_checkOut now) rfl fun a ha hsel => ?_) ?_
      · have hap : a = p := Table.eq_of_key_eq ha hp (beq_iff_eq.mp hsel)
        rw [hap, hactive]
        exact .inr (.ends r)
      · refine hrest _ _ fun a ha hid => ?_
        have hmem : a ∈ db.sessions :=
          mem_of_mem_update_key (Session.key_checkOut now) ha fun heq => hne (heq.symm.trans hid)
        exact Table.eq_of_key_eq hmem hs hid
    · simp only [if_neg hactive]
      exact hrest _ db fun a ha hid => Table.eq_of_key_eq ha hs hid

theorem steps_lawful_applyOutcome {res : Resolution} {s : Session} (hs : s ∈ db.sessions)
    (h : Meets res s) (user : ℕ) (room : Room) (method : CheckinMethod) (reason : String)
    (now : ℤ) : (applyOutcome user res s room method reason now).Steps (Lawful r) db := by
  have hrow : ∀ a ∈ db.sessions, a.id = s.id → a = s := fun a ha hid =>
    Table.eq_of_key_eq ha hs hid
  unfold applyOutcome
  cases ho : res.outcome with
  | checkedIn =>
    refine Prog.steps_atomic (frame_lawful rfl) ?_
    refine Prog.steps_bind (steps_saveSession fun a ha hid => ?_) fun _ _ _ =>
      Prog.steps_modify_bind (frame_lawful rfl)
        (Prog.steps_bind (steps_lawful_propagateMergedPresent _ _ _) fun _ _ _ => trivial)
    rw [hrow a ha hid, h.checkedIn ho]
    exact .inr (.starts r)
  | absent =>
    dsimp only
    split
    · refine Prog.steps_bind (steps_saveSession fun a ha hid => ?_) fun _ _ _ => ?_
      · rw [hrow a ha hid, ‹s.status = .scheduled›]
        exact .inr (.misses r)
      · exact ⟨frame_lawful rfl, trivial⟩
    · trivial
  | checkedOut =>
    refine Prog.steps_bind (steps_saveSession fun a ha hid => ?_) fun _ _ _ =>
      ⟨frame_lawful rfl, trivial⟩
    rw [hrow a ha hid, h.checkedOut ho]
    exact .inr (.ends r)
  | earlyEnd =>
    refine Prog.steps_bind (steps_saveSession fun a ha hid => ?_) fun _ _ _ =>
      ⟨frame_lawful rfl, trivial⟩
    rw [hrow a ha hid]
    -- a class that is over already is checked out again, which is no change of status
    rcases h.earlyEnd ho with hstatus | hstatus <;> rw [hstatus]
    · exact .inr (.ends r)
    · exact .inl rfl
  | wrongRoom =>
    refine Prog.steps_select_bind (frame_lawful rfl) ?_
    -- a move changes the room, not the status
    exact Prog.steps_bind (steps_saveSession fun a _ _ => .inl rfl) fun _ _ _ =>
      Prog.steps_modify_bind (frame_lawful rfl) ⟨frame_lawful rfl, trivial⟩
  | roomOccupied =>
    exact Prog.steps_bind (steps_lawful_applyHandover hs (h.roomOccupied ho) h.prior) fun _ _ _ =>
      Prog.steps_select_bind (frame_lawful rfl) ⟨frame_lawful rfl, trivial⟩
  | tooEarly => trivial
  | onlineReject => trivial
  | noSchedule => trivial

theorem steps_lawful_applyScan {res : Resolution}
    (h : ∀ pk s, res.session = some pk → db.activeSession pk = some s → Meets res s) (user : ℕ)
    (room : Room) (method : CheckinMethod) (reason : String) (now : ℤ) :
    (applyScan user res room method reason now).Steps (Lawful r) db := by
  unfold applyScan
  cases hpk : res.session with
  | none => trivial
  | some pk =>
    refine Prog.steps_select_bind (frame_lawful rfl) ?_
    cases hload : db.activeSession pk with
    | none => trivial
    | some s =>
      exact Prog.steps_bind (steps_lawful_applyOutcome (activeSession_eq_some hload).1
        (h pk s hpk hload) _ _ _ _ _) fun _ _ _ => trivial

/-- What a scan has just decided meets the session as it is. -/
theorem ScanVerdict.meets {term user room : ℕ} {now today : ℤ} {res : Resolution} {pk : ℕ}
    {s : Session} (h : ScanVerdict db term user room now today res)
    (hconfirm : ¬ res.outcome.needsConfirm = true) (hpk : res.session = some pk)
    (hload : db.activeSession pk = some s) : Meets res s := by
  obtain ⟨hs, hid⟩ := activeSession_eq_some hload
  have hrow : ∀ {a : Session}, a ∈ db.scanSessions user today term → some a.id = some pk → s = a :=
    fun {a} ha heq => Table.eq_of_key_eq hs (mem_scanSessions ha).1
      (hid.trans (Option.some.inj heq).symm)
  cases h with
  | running ha hstatus ho =>
    obtain rfl := hrow ha hpk
    rcases ho with rfl | rfl | rfl
    · exact absurd rfl hconfirm
    · exact ⟨nofun, fun _ => hstatus, nofun, nofun, nofun⟩
    · exact absurd rfl hconfirm
  | elsewhere ha hstatus ho =>
    rcases ho with rfl | rfl | rfl <;> exact ⟨nofun, nofun, nofun, nofun, nofun⟩
  | absent ha hstatus hmod hroom hgrace => exact ⟨nofun, nofun, nofun, nofun, nofun⟩
  | occupied ha hstatus hprior => exact absurd rfl hconfirm
  | checkedIn ha hstatus =>
    obtain rfl := hrow ha hpk
    exact ⟨fun _ => hstatus, nofun, nofun, nofun, nofun⟩
  | noSchedule => cases hpk

theorem steps_lawful_resolveScan (user : ℕ) (payload : Payload) (clock : ScanClock) :
    (resolveScan user payload clock).Steps (Lawful r) db := by
  refine steps_resolveScan frame_lawful fun room method db₁ term pk _ _ _ hconfirm _ _ => ?_
  refine steps_lawful_applyScan (fun pk s hpk hload => ?_) _ _ _ _ _
  exact (scanVerdict ..).meets (Bool.eq_false_iff.mp hconfirm) hpk hload

theorem steps_lawful_confirmScan {w : World} {user : ℕ} {token : ConfirmToken} {reason : String}
    {now last : ℤ} (hgenuine : w.Genuine)
    (hfresh : (Request.confirm user token reason now last).Fresh w) :
    (confirmScan user (if token ∈ w.issued then some token else none) reason now last).Steps
      (Lawful r) w.db := by
  by_cases hissued : token ∈ w.issued
  · rw [if_pos hissued]
    unfold confirmScan
    dsimp only
    split
    · rename_i haccept
      rw [Bool.and_eq_true, beq_iff_eq] at haccept
      refine Prog.steps_select_bind (frame_lawful rfl) ?_
      cases w.db.rooms.get? token.room with
      | none => trivial
      | some room =>
        refine Prog.steps_bind (steps_lawful_applyScan (fun pk s hpk hload => ?_) _ _ _ _ _)
          fun _ _ _ => trivial
        obtain ⟨hconfirm, hprior⟩ := hgenuine token hissued
        obtain ⟨hend, hocc⟩ := hfresh hissued haccept.1 haccept.2 pk s hpk hload
        have hid := (activeSession_eq_some hload).2
        refine ⟨fun ho => ?_, fun ho => ?_, hend, hocc, ?_⟩
        · rw [ho] at hconfirm
          cases hconfirm
        · rw [ho] at hconfirm
          cases hconfirm
        · rw [hpk] at hprior
          rw [hid]
          rcases hprior with hnone | hne
          · rw [hnone]
            exact nofun
          · exact hne
    · trivial
  · rw [if_neg hissued]
    trivial

theorem steps_lawful_onlineStart (user pk : ℕ) (teamsLink : String) (now started : ℤ) :
    (onlineStart user pk teamsLink now started).Steps (Lawful r) db := by
  refine Prog.steps_select_bind (frame_lawful rfl) (Prog.steps_select_bind (frame_lawful rfl) ?_)
  split
  · trivial
  · rename_i s online hload
    obtain ⟨term, -, hload⟩ := Option.bind_eq_some_iff.mp hload
    obtain ⟨s', hfilter, hpair⟩ := Option.bind_eq_some_iff.mp hload
    cases hpair
    obtain ⟨hs, -⟩ := Table.get?_eq_some_iff.mp (Option.filter_eq_some_iff.mp hfilter).1
    split
    · trivial
    · rename_i hnone
      -- the ladder of refusals has let only a scheduled session through
      have hsched : s.status = .scheduled := by
        unfold onlineStartError at hnone
        split at hnone
        · cases hnone
        · split at hnone
          · split at hnone <;> cases hnone
          · exact not_not.mp ‹_›
      refine Prog.steps_bind (Prog.steps_atomic (frame_lawful rfl) ?_) fun _ _ _ => trivial
      refine Prog.steps_bind (steps_saveSession fun a ha hid => ?_) fun _ _ _ =>
        Prog.steps_modify_bind (frame_lawful rfl)
          (Prog.steps_bind (steps_lawful_propagateMergedPresent _ _ _) fun _ _ _ => trivial)
      rw [Table.eq_of_key_eq ha hs hid, hsched]
      exact .inr (.starts r)

theorem steps_lawful_applyAction {user pk : ℕ} {s : Session} {action : ValidationAction}
    {note : String} {identityMatch : Option Bool} {now last : ℤ} (hs : s ∈ db.sessions)
    (hstatus : s.status = .scheduled ∨ s.status = .active) :
    (applyAction user s action note identityMatch now last).Steps
      (Lawful (.onlineAction user pk action note now last)) db := by
  refine Prog.steps_select_bind (frame_lawful rfl) (Prog.steps_modify_bind (frame_lawful rfl)
    (Prog.steps_modify_bind (frame_lawful rfl) (Prog.steps_bind ?_ fun _ _ _ => ?_)))
  · have hrow : ∀ a ∈ db.sessions, a.id = s.id → a = s := fun a ha hid =>
      Table.eq_of_key_eq ha hs hid
    unfold applyOnlineStatus
    cases action with
    | verified =>
      refine Prog.steps_atomic (frame_lawful rfl) (Prog.steps_bind
        (steps_saveSession fun a ha hid => ?_) fun _ _ _ =>
          Prog.steps_bind (steps_lawful_propagateMergedPresent _ _ _) fun _ _ _ => trivial)
      rw [hrow a ha hid]
      rcases hstatus with h | h <;> rw [h]
      · exact .inr (.starts _)
      · exact .inl rfl
    | flagNotPresent =>
      refine Prog.steps_atomic (frame_lawful rfl) (Prog.steps_bind
        (steps_saveSession fun a ha hid => ?_) fun _ _ _ =>
          Prog.steps_bind (steps_lawful_propagateMergedAbsent _ _ _) fun _ _ _ => trivial)
      rw [hrow a ha hid]
      rcases hstatus with h | h <;> rw [h]
      · exact .inr (.misses _)
      · exact .inr .flagged
    | flagIdentityMismatch => trivial
    | verifiedEmpty => trivial
  · split
    · exact Prog.steps_modify_bind (frame_lawful rfl) ⟨frame_lawful rfl, trivial⟩
    · trivial

theorem steps_lawful_onlineAction {w : World} {user pk : ℕ} {action : ValidationAction}
    {note : String} {now last : ℤ}
    (hfresh : (Request.onlineAction user pk action note now last).Fresh w) :
    (onlineAction user pk action note now last).Steps
      (Lawful (.onlineAction user pk action note now last)) w.db := by
  refine Prog.steps_select_bind (frame_lawful rfl) (Prog.steps_select_bind (frame_lawful rfl) ?_)
  cases hload : w.db.onlineSession pk user with
  | none => trivial
  | some s =>
    obtain ⟨hs, hid⟩ := onlineSession_eq_some hload
    dsimp only
    split
    · exact Prog.steps_modify_bind (frame_lawful rfl) trivial
    · rename_i hgate
      split
      · trivial
      · rename_i hvalid
        split
        · trivial
        · rename_i hnote
          refine Prog.steps_modifyGet_bind (frame_lawful rfl) ?_
          split
          · rename_i hadded
            refine Prog.steps_bind (steps_lawful_applyAction hs ?_) fun _ _ _ => trivial
            rw [hid] at hadded
            have hduty : w.db.onlineOnDuty user now = true := by
              by_contra hoff
              exact hgate (by simp [hoff])
            have haction : action = .verified ∨
                action = .flagNotPresent ∧ Py.strip note ≠ "" := by
              by_cases hverified : action = .verified
              · exact .inl hverified
              · have hflag : action = .flagNotPresent := by
                  by_contra hflag
                  exact hvalid ⟨hverified, hflag⟩
                exact .inr ⟨hflag, fun hblank => hnote ⟨hflag, hblank⟩⟩
            have hnot := hfresh haction hduty hadded s hload
            cases hst : s.status <;> simp_all
          · trivial

theorem steps_lawful_sweepNoShows (now : ℤ) : (sweepNoShows now).Steps (Lawful r) db := by
  have hone : ∀ pk (db : Db), (sweepOne pk).Steps (Lawful r) db := by
    intro pk db
    refine Prog.steps_atomic (frame_lawful rfl) (Prog.steps_modifyGet_bind ?_ ?_)
    · refine lawful_update Session.key_markAbsent rfl fun a _ hp => .inr ?_
      rw [Bool.and_eq_true, beq_iff_eq, beq_iff_eq] at hp
      rw [hp.2]
      exact .misses r
    · split
      · exact Prog.steps_modify_bind (frame_lawful rfl) trivial
      · trivial
  have hloop : ∀ graceMin excused (cs : List SweepCandidate) (db : Db),
      (sweepLoop now graceMin excused cs).Steps (Lawful r) db := by
    intro graceMin excused cs
    induction cs with
    | nil => exact fun _ => trivial
    | cons c cs ih =>
      intro db
      rw [sweepLoop]
      split
      · exact Prog.steps_bind (hone _ _) fun _ _ _ => Prog.steps_bind (ih _) fun _ _ _ => trivial
      · exact ih db
  refine Prog.steps_select_bind (frame_lawful rfl) ?_
  cases db.activeTerm with
  | none => trivial
  | some term =>
    refine Prog.steps_select_bind (frame_lawful rfl) ?_
    refine Prog.steps_bind (Prog.steps_select_bind (frame_lawful rfl)
      (Prog.steps_select_bind (frame_lawful rfl) trivial)) fun excused _ _ => ?_
    exact Prog.steps_select_bind (frame_lawful rfl) (hloop _ _ _ _)

theorem steps_lawful_suspendClasses (term : ℕ) (startDate endDate : ℤ) (reason : String)
    (building : Option ℕ) (declaredBy : Option ℕ) :
    (suspendClasses term startDate endDate reason building declaredBy).Steps (Lawful r) db := by
  refine Prog.steps_atomic (frame_lawful rfl) ?_
  refine Prog.steps_bind (steps_lockTerm frame_lawful _) fun term db₁ _ => ?_
  refine Prog.steps_bind (steps_requireWritableTerm _) fun _ db₂ _ => ?_
  refine Prog.steps_modifyGet_bind (frame_lawful rfl) ?_
  generalize ({ db₂ with suspensions := _ } : Db) = db₃
  refine Prog.steps_select_bind (frame_lawful rfl) ?_
  split
  · trivial
  · refine Prog.steps_bind (steps_lawful_flipSessions (fun _ => rfl) (.calledOff r) ?_
      fun a ha hmem => ?_) fun _ _ _ => ?_
    · rw [List.map_map]
      exact db₃.nodup_map_filter_sessionList _
    · rw [List.map_map] at hmem
      have hsel := (Db.contains_map_filter_iff ha).mp (List.contains_iff_mem.mpr hmem)
      exact scheduled_of_suspendable hsel
    · refine Prog.steps_bind (Prog.steps_select_bind (frame_lawful rfl) ?_) fun _ _ _ => trivial
      exact Prog.steps_forEach fun _ _ => ⟨frame_lawful rfl, trivial⟩

theorem steps_lawful_liftSuspension (suspension : ℕ) (liftedBy : Option ℕ) (now : ℤ) :
    (liftSuspension suspension liftedBy now).Steps
      (Lawful (.liftSuspension suspension liftedBy now)) db := by
  refine Prog.steps_atomic (frame_lawful rfl)
    (Prog.steps_lock_bind (Prog.steps_select_bind (frame_lawful rfl) ?_))
  cases db.suspensions.get? suspension with
  | none => trivial
  | some sp =>
    refine Prog.steps_select_bind (frame_lawful rfl) ?_
    cases db.terms.table.get? sp.term with
    | none => trivial
    | some term =>
      refine Prog.steps_bind (steps_requireWritableTerm _) fun _ db₁ _ => ?_
      split
      · trivial
      · refine Prog.steps_select_bind (frame_lawful rfl) ?_
        refine Prog.steps_bind (steps_lawful_flipSessions (fun _ => rfl) .lifted
          (db₁.nodup_map_filter_sessionList _) fun a ha hmem => ?_) fun _ _ _ =>
            Prog.steps_modify_bind (frame_lawful rfl) trivial
        have hsel := (Db.contains_map_filter_iff ha).mp (List.contains_iff_mem.mpr hmem)
        exact cancelled_of_liftable hsel

theorem steps_lawful_cancelSchedule (schedule : ℕ) (actor : Option ℕ) (reason : String)
    (today : ℤ) : (cancelSchedule schedule actor reason today).Steps (Lawful r) db := by
  refine Prog.steps_atomic (frame_lawful rfl)
    (Prog.steps_lock_bind (Prog.steps_select_bind (frame_lawful rfl) ?_))
  split
  · trivial
  · refine Prog.steps_bind (steps_requireWritableTerm _) fun _ db₁ _ => ?_
    refine Prog.steps_modify_bind (frame_lawful rfl) ?_
    generalize ({ db₁ with schedules := _ } : Db) = db₂
    refine Prog.steps_select_bind (frame_lawful rfl) ?_
    refine Prog.steps_bind (steps_flipAll frame_lawful ?_) fun _ _ _ =>
      Prog.steps_modify_bind (frame_lawful rfl) trivial
    refine lawful_update (Session.key_cancel _) rfl fun a ha hp => .inr ?_
    have hsel := (Db.contains_map_filter_iff ha).mp hp
    simp only [Bool.and_eq_true, beq_iff_eq] at hsel
    rw [hsel.1.2]
    exact .calledOff r

theorem steps_lawful_sessionReinstate (user pk : ℕ) (reason : String) :
    (sessionReinstate user pk reason).Steps (Lawful (.sessionReinstate user pk reason)) db := by
  refine Prog.steps_select_bind (frame_lawful rfl) ?_
  cases db.activeTerm with
  | none => trivial
  | some term =>
    refine Prog.steps_select_bind (frame_lawful rfl) ?_
    cases hload : (db.sessions.get? pk).filter (db.inTerm term.id) with
    | none => trivial
    | some s =>
      obtain ⟨hs, -⟩ := Table.get?_eq_some_iff.mp (Option.filter_eq_some_iff.mp hload).1
      dsimp only
      split
      · trivial
      · rename_i habsent
        split
        · trivial
        · refine Prog.steps_bind (Prog.steps_atomic (frame_lawful rfl) (Prog.steps_bind
            (steps_saveSession fun a ha hid => ?_) fun _ _ _ => ⟨frame_lawful rfl, trivial⟩))
            fun _ _ _ => trivial
          rw [Table.eq_of_key_eq ha hs hid, not_not.mp habsent]
          exact .inr .reinstated

theorem steps_lawful_breakCreate (user : ℕ) (start : Option ℤ) (endGiven : Option (Option ℤ))
    (reason : String) : (breakCreate user start endGiven reason).Steps (Lawful r) db := by
  refine Prog.steps_select_bind (frame_lawful rfl) ?_
  cases db.activeTerm with
  | none => trivial
  | some term =>
    dsimp only
    split
    · trivial
    · trivial
    · split
      · trivial
      · split
        · trivial
        · exact Prog.steps_modify_bind (frame_lawful rfl)
            (Prog.steps_modify_bind (frame_lawful rfl) trivial)

theorem steps_lawful_breakDelete (user pk : ℕ) : (breakDelete user pk).Steps (Lawful r) db := by
  refine Prog.steps_select_bind (frame_lawful rfl) ?_
  cases db.activeTerm with
  | none => trivial
  | some term =>
    refine Prog.steps_bind (steps_requireWritableTerm _) fun _ db₁ _ => ?_
    refine Prog.steps_select_bind (frame_lawful rfl) ?_
    split
    · trivial
    · exact Prog.steps_modify_bind (frame_lawful rfl) ⟨frame_lawful rfl, trivial⟩

end

/-- Every statement of a fresh request is lawful. -/
theorem steps_lawful_prog {w : World} (hgenuine : w.Genuine) {r : Request}
    (hfresh : r.Fresh w) : (r.prog w.issued).Steps (Lawful r) w.db := by
  cases r with
  | resolve => exact Prog.steps_bind (steps_lawful_resolveScan _ _ _) fun _ _ _ => trivial
  | confirm =>
    exact Prog.steps_bind (steps_lawful_confirmScan hgenuine hfresh) fun _ _ _ => trivial
  | onlineStart => exact Prog.steps_bind (steps_lawful_onlineStart _ _ _ _ _) fun _ _ _ => trivial
  | onlineAction => exact Prog.steps_bind (steps_lawful_onlineAction hfresh) fun _ _ _ => trivial
  | propagateMergedPresent =>
    exact Prog.steps_bind (steps_lawful_propagateMergedPresent _ _ _) fun _ _ _ => trivial
  | propagateMergedAbsent =>
    exact Prog.steps_bind (steps_lawful_propagateMergedAbsent _ _ _) fun _ _ _ => trivial
  | sweepNoShows => exact Prog.steps_bind (steps_lawful_sweepNoShows _) fun _ _ _ => trivial
  | suspendClasses =>
    exact Prog.steps_bind (steps_lawful_suspendClasses _ _ _ _ _ _) fun _ _ _ => trivial
  | liftSuspension =>
    exact Prog.steps_bind (steps_lawful_liftSuspension _ _ _) fun _ _ _ => trivial
  | cancelSchedule =>
    exact Prog.steps_bind (steps_lawful_cancelSchedule _ _ _ _) fun _ _ _ => trivial
  | sessionReinstate =>
    exact Prog.steps_bind (steps_lawful_sessionReinstate _ _ _) fun _ _ _ => trivial
  | breakCreate => exact Prog.steps_bind (steps_lawful_breakCreate _ _ _ _) fun _ _ _ => trivial
  | breakDelete => exact Prog.steps_bind (steps_lawful_breakDelete _ _) fun _ _ _ => trivial

/-- In every run whose requests are fresh, from any database and with any tokens
signed on the way, every statement changes statuses lawfully only. -/
theorem status_changes_lawful (db : Db) (rs : List Request)
    (hfresh : (World.start db).Along (fun w r => r.Fresh w) rs) :
    (World.start db).Along (fun w r => (r.prog w.issued).Steps (Lawful r) w.db) rs :=
  World.Along.imp World.genuine_step (fun _ _ hgenuine hr => steps_lawful_prog hgenuine hr)
    (World.genuine_start db) hfresh

/-! ### A run -/

namespace Campus

/-- The token for a handover to the nine o'clock class, signed at 9:14. -/
def handover : ConfirmToken :=
  ⟨⟨.roomOccupied, some 1, some 2⟩, 1, .qrScan, 1, wallClock monday 9 14 0 / second⟩

/-- The confirmation of the handover at 9:16. -/
def confirmation : Request :=
  .confirm 1 handover "" (wallClock monday 9 16 0) (wallClock monday 9 16 0)

end Campus

open Campus in
/-- A handover that is confirmed while the class is still scheduled. -/
theorem status_changes_lawful_handover :
    (World.start campus).Along (fun w r => (r.prog w.issued).Steps (Lawful r) w.db)
      [scanAt 2 8 0 0, scanAt 1 9 14 0, confirmation] := by
  refine status_changes_lawful campus _ ⟨trivial, trivial, fun _ _ _ pk s hpk hload => ?_, trivial⟩
  cases hpk
  have hstatus : (((((World.start campus).step (scanAt 2 8 0 0)).step (scanAt 1 9 14 0)).db.activeSession
      1).map Session.status) = some .scheduled := by decide
  rw [hload, Option.map_some, Option.some.injEq] at hstatus
  exact ⟨nofun, fun _ => .inl hstatus⟩

open Campus in
/-- The sweep marks the class absent between the scan and its confirmation, which then
makes the absent session active. -/
theorem confirm_revives_absent :
    ¬ ∀ (term : AcademicTerm) (start days now : ℤ) (db : Db) (rs : List Request),
      (World.start ((materializeTerm term start days false now).run db).2).Along
        (fun w r => (r.prog w.issued).Steps (Lawful r) w.db) rs := by
  intro h
  have hrun := h term monday 1 0 timetable
    [scanAt 2 8 0 0, scanAt 1 9 14 0, .sweepNoShows (wallClock monday 9 15 1), confirmation]
  have hsteps := Prog.steps_iff.mp hrun.2.2.2.1
  have hbad : ∃ st ∈ (confirmation.prog (((World.start campus).run [scanAt 2 8 0 0,
        scanAt 1 9 14 0, .sweepNoShows (wallClock monday 9 15 1)]).issued)).stmts
        ((World.start campus).run [scanAt 2 8 0 0, scanAt 1 9 14 0,
          .sweepNoShows (wallClock monday 9 15 1)]).db,
      (st.1.sessions.get? 1).map Session.status = some .absent ∧
      (st.2.sessions.get? 1).map Session.status = some .active := by
    decide
  obtain ⟨st, hst, habsent, hactive⟩ := hbad
  obtain ⟨a, ha, hast⟩ := Option.map_eq_some_iff.mp habsent
  obtain ⟨b, hb, hbst⟩ := Option.map_eq_some_iff.mp hactive
  have hlaw := hsteps st hst 1 a b ha hb
  rw [hast, hbst] at hlaw
  rcases hlaw with hlaw | hlaw <;> cases hlaw

end FluxTrack
