import FluxTrack.Scheduling.Reporting
import FluxTrack.Theorems.Statements

/-!
# What a check-in does

The programs of the scan and of the online start, seen as one change of the database. They
write the cache, the audit log and the notifications, set sessions running or completed,
mark scheduled sessions absent, and move a session to another room. A kind of change that
contains the first three contains every check-in that moves nothing. The checks of online
classes also write validations and mark sessions absent in any status, and the other requests
call off and reinstate sessions that are not held.

## Main definitions

* `Session.times` — the occurrence and the slot of a session, which no request changes
* `CheckIns` — a kind of change that contains what a check-in does
* `OnlineChecks` — one that contains what a check of an online class does
* `Requests` — one that contains what the other requests do

## Main results

* `CheckIns.resolveScan`, `CheckIns.confirmScan`, `CheckIns.onlineStart` — the programs
* `OnlineChecks.onlineAction` — the check of an online class
* `Requests.prog` — every request but that
-/

namespace FluxTrack

open Calendar Relational Process

/-- The occurrence a session is of, and its slot. -/
def Session.times (s : Session) : ℕ × ℤ × ℤ × ℤ :=
  (s.schedule, s.date, s.scheduledStart, s.scheduledEnd)

/-- A kind of change that contains what a check-in does, but for the change of room. -/
structure CheckIns (R : Db → Db → Prop) : Prop where
  kind : Prog.Kind R
  quiet : ∀ (db : Db) cache audit notifications,
    R db { db with cache := cache, audit := audit, notifications := notifications }
  runs : ∀ (db : Db) p f hf, (∀ s, (f s).status = .active ∨ (f s).status = .completed) →
    (∀ s, (f s).times = s.times) → R db { db with sessions := db.sessions.update p f hf }
  misses : ∀ (db : Db) p, (∀ s ∈ db.sessions, p s = true → s.status = .scheduled) →
    R db { db with sessions := db.sessions.update p Session.markAbsent Session.key_markAbsent }

namespace CheckIns

variable {R : Db → Db → Prop} (h : CheckIns R)

include h

/-! ### Helpers -/

theorem saveSession (pk : ℕ) {f : Session → Session} (hf : ∀ s, key (f s) = key s)
    (hstatus : ∀ s, (f s).status = .active ∨ (f s).status = .completed)
    (htimes : ∀ s, (f s).times = s.times) : (saveSession pk f hf).Makes R :=
  fun db => h.runs db _ f hf hstatus htimes

theorem createAudit (actor : Option ℕ) (event : AuditEvent) : (createAudit actor event).Makes R :=
  fun db => h.quiet db db.cache _ db.notifications

theorem notifyRole (role : Role) (notice : Notice) : (notifyRole role notice).Makes R :=
  fun db => h.quiet db db.cache db.audit _

theorem cache (g : Db → List CacheEntry) :
    (Prog.modify fun db => { db with cache := g db } : M Unit).Makes R :=
  fun db => h.quiet db (g db) db.audit db.notifications

/-- A merge changes the scheduled siblings of the anchor. -/
theorem propagateMerged {f : Session → Session} {hf : ∀ s, key (f s) = key s}
    (hfill : ∀ (db : Db) p, (∀ s ∈ db.sessions, p s = true → s.status = .scheduled) →
      R db { db with sessions := db.sessions.update p f hf })
    (anchor : ℕ) (actor : Option ℕ) (event : ℕ → AuditEvent) :
    (propagateMerged anchor actor f hf event).Makes R := by
  intro db
  rcases run_propagateMerged_cases anchor actor f hf event db with
    ⟨e, hrun⟩ | ⟨a, ha, -, -, hrun⟩ <;> rw [hrun]
  · exact h.kind.refl db
  · refine h.kind.trans db _ _ (hfill db _ fun s hs hsel => ?_) (h.quiet _ db.cache _ db.notifications)
    exact scheduled_of_mem_mergeFill hs (List.contains_iff_mem.mp hsel)

theorem propagateMergedPresent (anchor : ℕ) (now : ℤ) (actor : Option ℕ) :
    (propagateMergedPresent anchor now actor).Makes R := by
  refine h.propagateMerged (fun db p _ => ?_) _ _ _
  exact h.runs db p _ _ (fun _ => .inl rfl) fun _ => rfl

theorem propagateMergedAbsent (anchor : Session) (actor : Option ℕ) (now : ℤ) :
    (propagateMergedAbsent anchor actor now).Makes R := by
  refine Prog.makes_select_bind fun grace => ?_
  split
  · exact h.propagateMerged h.misses _ _ _
  · exact Prog.makes_pure h.kind _

/-! ### Scans -/

theorem completePrior (now : ℤ) (prior : Option Session) : (completePrior now prior).Makes R := by
  cases prior with
  | none => exact Prog.makes_pure h.kind _
  | some p =>
    rw [FluxTrack.completePrior]
    split
    · exact h.saveSession _ _ (fun _ => .inr rfl) fun _ => rfl
    · exact Prog.makes_pure h.kind _

theorem applyHandover (user pk : ℕ) (prior : Option ℕ) (room : Room) (now : ℤ) :
    (applyHandover user pk prior room now).Makes R := by
  refine .atomic h.kind (Prog.makes_select_bind fun loaded => ?_)
  refine .bind h.kind (h.completePrior now loaded) fun _ => ?_
  refine .bind h.kind (h.saveSession _ _ (fun _ => .inl rfl) fun _ => rfl) fun _ => ?_
  refine .bind h.kind (h.createAudit _ _) fun _ => ?_
  exact .bind h.kind (h.propagateMergedPresent _ _ _) fun _ => Prog.makes_pure h.kind _

/-- The effect of an outcome on the session it was loaded for. -/
theorem applyOutcome {db : Db} {r : Resolution} {s : Session} {room : Room} (hs : s ∈ db.sessions)
    (hmove : r.outcome = .wrongRoom → R db { db with
      sessions := db.sessions.update (fun a => a.id == s.id) (Session.moveTo room.id)
        (Session.key_moveTo room.id) })
    (user : ℕ) (method : CheckinMethod) (reason : String) (now : ℤ) :
    R db ((applyOutcome user r s room method reason now).run db).2 := by
  unfold FluxTrack.applyOutcome
  cases ho : r.outcome with
  | checkedIn =>
    refine Prog.Makes.atomic h.kind (.bind h.kind ?_ fun _ => ?_) db
    · exact h.saveSession _ _ (fun _ => .inl rfl) fun _ => rfl
    · refine .bind h.kind (h.createAudit _ _) fun _ => ?_
      exact .bind h.kind (h.propagateMergedPresent _ _ _) fun _ => Prog.makes_pure h.kind _
  | absent =>
    dsimp only
    split
    · refine h.kind.trans db _ _ (h.misses db (fun a => a.id == s.id) fun a ha hsel => ?_)
        (h.createAudit _ _ _)
      rwa [Table.eq_of_key_eq ha hs (beq_iff_eq.mp hsel)]
    · exact h.kind.refl db
  | checkedOut =>
    refine Prog.Makes.bind h.kind ?_ (fun _ => h.createAudit _ _) db
    exact h.saveSession _ _ (fun _ => .inr rfl) fun _ => rfl
  | earlyEnd =>
    refine Prog.Makes.bind h.kind ?_ (fun _ => h.createAudit _ _) db
    exact h.saveSession _ _ (fun _ => .inr rfl) fun _ => rfl
  | wrongRoom =>
    refine h.kind.trans db _ _ (hmove ho) ?_
    exact Prog.Makes.bind h.kind (h.createAudit _ _) (fun _ => h.notifyRole _ _) _
  | roomOccupied =>
    refine Prog.Makes.bind h.kind (h.applyHandover _ _ _ _ _) (fun _ => ?_) db
    exact Prog.makes_select_bind fun course => h.notifyRole _ _
  | tooEarly => exact h.kind.refl db
  | onlineReject => exact h.kind.refl db
  | noSchedule => exact h.kind.refl db

theorem applyScan {db : Db} {r : Resolution} {room : Room}
    (hmove : r.outcome = .wrongRoom → ∀ s ∈ db.sessions, r.session = some s.id →
      R db { db with
        sessions := db.sessions.update (fun a => a.id == s.id) (Session.moveTo room.id)
          (Session.key_moveTo room.id) })
    (user : ℕ) (method : CheckinMethod) (reason : String) (now : ℤ) :
    R db ((applyScan user r room method reason now).run db).2 := by
  unfold FluxTrack.applyScan
  cases hpk : r.session with
  | none => exact h.kind.refl db
  | some pk =>
    rw [Prog.run_select_bind]
    cases hload : db.activeSession pk with
    | none => exact h.kind.refl db
    | some s =>
      obtain ⟨hs, rfl⟩ := activeSession_eq_some hload
      have happly := h.applyOutcome hs (fun ho => hmove ho s hs hpk) user method reason now
      rw [Prog.run_bind]
      rcases hrun : (FluxTrack.applyOutcome user r s room method reason now).run db with
        ⟨e | _, db'⟩ <;> rw [hrun] at happly <;> exact happly

theorem roomFromPayload (user : ℕ) (payload : Payload) (now : ℤ) :
    (roomFromPayload user payload now).Makes R := by
  cases payload with
  | link token =>
    refine Prog.makes_select_bind fun found => ?_
    cases found <;> exact Prog.makes_pure h.kind _
  | code digits =>
    refine Prog.makes_select_bind fun limit => .bind h.kind (h.cache _) fun _ => ?_
    refine Prog.makes_select_bind fun count => ?_
    split
    · exact .bind h.kind (h.createAudit _ _) fun _ => Prog.makes_pure h.kind _
    · refine .bind h.kind (h.cache _) fun _ => Prog.makes_select_bind fun found => ?_
      cases found with
      | none => exact .bind h.kind (h.createAudit _ _) fun _ => Prog.makes_pure h.kind _
      | some room => exact Prog.makes_pure h.kind _
  | other => exact Prog.makes_pure h.kind _

/-- A scan applies no change of room without a confirmation. -/
theorem resolveScan (user : ℕ) (payload : Payload) (clock : ScanClock) :
    (resolveScan user payload clock).Makes R := by
  refine .bind h.kind (h.roomFromPayload _ _ _) fun found => ?_
  cases found with
  | error e => exact Prog.makes_pure h.kind _
  | ok found =>
    obtain ⟨room, method⟩ := found
    dsimp only
    split
    · exact Prog.makes_pure h.kind _
    · refine Prog.makes_select_bind fun term => ?_
      cases term with
      | none => exact Prog.makes_pure h.kind _
      | some term =>
        refine Prog.makes_select_bind fun r => ?_
        split
        · exact Prog.makes_pure h.kind _
        · rename_i hconfirm
          have hne : r.outcome ≠ .wrongRoom := fun ho => hconfirm (by rw [ho]; rfl)
          refine .bind h.kind ?_ fun _ => Prog.makes_pure h.kind _
          unfold applyOnce
          split
          · exact Prog.makes_pure h.kind _
          · refine Prog.makes_select_bind fun cached => ?_
            split
            · refine .bind h.kind (fun db => h.applyScan (fun ho => absurd ho hne) _ _ _ _)
                fun _ => ?_
              exact .bind h.kind (h.cache _) fun _ => Prog.makes_pure h.kind _
            · exact Prog.makes_pure h.kind _

theorem confirmScan {db : Db} {token : Option ConfirmToken}
    (hmove : ∀ t, token = some t → t.resolution.outcome = .wrongRoom → ∀ s ∈ db.sessions,
      t.resolution.session = some s.id →
        R db { db with
          sessions := db.sessions.update (fun a => a.id == s.id) (Session.moveTo t.room)
            (Session.key_moveTo t.room) })
    (user : ℕ) (reason : String) (now last : ℤ) :
    R db ((confirmScan user token reason now last).run db).2 := by
  cases token with
  | none => exact h.kind.refl db
  | some t =>
    unfold FluxTrack.confirmScan
    dsimp only
    split
    · rw [Prog.run_select_bind]
      cases hroom : db.rooms.get? t.room with
      | none => exact h.kind.refl db
      | some room =>
        have hid : room.id = t.room := (Table.get?_eq_some_iff.mp hroom).2
        have hscan : R db
            ((FluxTrack.applyScan user t.resolution room t.method reason last).run db).2 := by
          refine h.applyScan (fun ho s hs hpk => ?_) _ _ _ _
          rw [hid]
          exact hmove t rfl ho s hs hpk
        rw [Prog.run_bind]
        rcases hrun : (FluxTrack.applyScan user t.resolution room t.method reason last).run db with
          ⟨e | _, db'⟩ <;> rw [hrun] at hscan <;> exact hscan
    · exact h.kind.refl db

/-! ### Online classes -/

theorem onlineStart (user pk : ℕ) (teamsLink : String) (now started : ℤ) :
    (onlineStart user pk teamsLink now started).Makes R := by
  refine Prog.makes_select_bind fun grace => Prog.makes_select_bind fun found => ?_
  cases found with
  | none => exact Prog.makes_raise h.kind _
  | some found =>
    obtain ⟨s, online⟩ := found
    dsimp only
    split
    · exact Prog.makes_pure h.kind _
    · refine .bind h.kind (.atomic h.kind ?_) fun _ => Prog.makes_pure h.kind _
      refine .bind h.kind (h.saveSession _ _ (fun _ => .inl rfl) fun _ => rfl) fun _ => ?_
      refine .bind h.kind (h.createAudit _ _) fun _ => ?_
      exact .bind h.kind (h.propagateMergedPresent _ _ _) fun _ => Prog.makes_pure h.kind _

/-- The status change of an online action, if the sessions may be marked absent. -/
theorem applyOnlineStatus (hflags : ∀ (db : Db) p, R db { db with
      sessions := db.sessions.update p Session.markAbsent Session.key_markAbsent })
    (user : ℕ) (s : Session) (action : ValidationAction) (scannedAt now : ℤ) :
    (applyOnlineStatus user s action scannedAt now).Makes R := by
  unfold FluxTrack.applyOnlineStatus
  split
  · refine .atomic h.kind (.bind h.kind ?_ fun _ => ?_)
    · exact h.saveSession _ _ (fun _ => .inl rfl) fun _ => rfl
    · exact .bind h.kind (h.propagateMergedPresent _ _ _) fun _ => Prog.makes_pure h.kind _
  · refine .atomic h.kind (.bind h.kind (fun db => hflags db _) fun _ => ?_)
    exact .bind h.kind (h.propagateMergedAbsent _ _ _) fun _ => Prog.makes_pure h.kind _
  · exact Prog.makes_pure h.kind _

end CheckIns

/-! ### The check of an online class -/

/-- A kind of change that contains what a checker of online classes does. -/
structure OnlineChecks (R : Db → Db → Prop) : Prop extends CheckIns R where
  validates : ∀ (db : Db) validations, R db { db with validations := validations }
  flags : ∀ (db : Db) p, R db { db with
    sessions := db.sessions.update p Session.markAbsent Session.key_markAbsent }

namespace OnlineChecks

variable {R : Db → Db → Prop} (h : OnlineChecks R)

include h

theorem applyOnlineStatus (user : ℕ) (s : Session) (action : ValidationAction)
    (scannedAt now : ℤ) : (applyOnlineStatus user s action scannedAt now).Makes R :=
  h.toCheckIns.applyOnlineStatus h.flags user s action scannedAt now

theorem applyAction (user : ℕ) (s : Session) (action : ValidationAction) (note : String)
    (identityMatch : Option Bool) (scannedAt now : ℤ) :
    (applyAction user s action note identityMatch scannedAt now).Makes R := by
  refine Prog.makes_select_bind fun room => .bind h.kind (fun db => h.validates db _) fun _ => ?_
  refine .bind h.kind (h.createAudit _ _) fun _ => ?_
  refine .bind h.kind (h.applyOnlineStatus _ _ _ _ _) fun _ => ?_
  split
  · exact .bind h.kind (h.notifyRole _ _) fun _ => h.notifyRole _ _
  · exact Prog.makes_pure h.kind _

theorem onlineAction (user pk : ℕ) (action : ValidationAction) (note : String) (now last : ℤ) :
    (onlineAction user pk action note now last).Makes R := by
  refine Prog.makes_select_bind fun found => Prog.makes_select_bind fun onDuty => ?_
  cases found with
  | none => exact Prog.makes_pure h.kind _
  | some s =>
    dsimp only
    split
    · exact .bind h.kind (h.createAudit _ _) fun _ => Prog.makes_pure h.kind _
    · split
      · exact Prog.makes_pure h.kind _
      · split
        · exact Prog.makes_pure h.kind _
        · refine Prog.makes_modifyGet_bind h.kind
            (fun db => h.quiet db _ db.audit db.notifications) fun added => ?_
          split
          · exact .bind h.kind (h.applyAction _ _ _ _ _ _ _) fun _ => Prog.makes_pure h.kind _
          · exact Prog.makes_pure h.kind _

end OnlineChecks

/-! ### The other requests -/

/-- A kind of change that contains what the requests do, but for the checks of online classes:
they may also move a session to another room, change the calendar, and call off or reinstate
sessions that are not held. -/
structure Requests (R : Db → Db → Prop) : Prop extends CheckIns R where
  moves : ∀ (db : Db) p room, R db { db with
    sessions := db.sessions.update p (Session.moveTo room) (Session.key_moveTo room) }
  breaks : ∀ (db : Db) breaks, R db { db with breaks := breaks }
  recalls : ∀ (db db' : Db) (p : Session → Prop) [DecidablePred p] (f : Session → Session),
    (∀ s, key (f s) = key s) → (∀ s, (f s).times = s.times) →
    (∀ s ∈ db.sessions, p s → s.status.isHeld = false) →
    (∀ s' ∈ db'.sessions, ∃ s ∈ db.sessions, (if p s then f s else s) = s') →
    db'.validations = db.validations → R db db'

namespace Requests

variable {R : Db → Db → Prop} (h : Requests R)

include h

theorem sessionReinstate (user pk : ℕ) (reason : String) :
    (sessionReinstate user pk reason).Makes R := by
  refine Prog.makes_select_bind fun term => ?_
  cases term with
  | none => exact Prog.makes_raise h.kind _
  | some term =>
    refine Prog.makes_select_bind fun found => ?_
    cases found with
    | none => exact Prog.makes_raise h.kind _
    | some s =>
      dsimp only
      split
      · exact Prog.makes_pure h.kind _
      · split
        · exact Prog.makes_pure h.kind _
        · refine .bind h.kind (.atomic h.kind ?_) fun _ => Prog.makes_pure h.kind _
          refine .bind h.kind ?_ fun _ => h.createAudit _ _
          exact h.saveSession _ _ (fun _ => .inr rfl) fun _ => rfl

theorem breakCreate (user : ℕ) (start : Option ℤ) (endGiven : Option (Option ℤ))
    (reason : String) : (breakCreate user start endGiven reason).Makes R := by
  refine Prog.makes_select_bind fun term => ?_
  cases term with
  | none => exact Prog.makes_pure h.kind _
  | some term =>
    dsimp only
    split
    · exact Prog.makes_pure h.kind _
    · exact Prog.makes_pure h.kind _
    · split
      · exact Prog.makes_pure h.kind _
      · split
        · exact Prog.makes_pure h.kind _
        · refine .bind h.kind (fun db => h.breaks db _) fun _ => ?_
          exact .bind h.kind (h.createAudit _ _) fun _ => Prog.makes_pure h.kind _

theorem breakDelete (user pk : ℕ) : (breakDelete user pk).Makes R := by
  refine Prog.makes_select_bind fun term => ?_
  cases term with
  | none => exact Prog.makes_raise h.kind _
  | some term =>
    refine .bind h.kind (fun db => ?_) fun _ => Prog.makes_select_bind fun found => ?_
    · unfold requireWritableTerm
      split <;> exact h.kind.refl db
    · cases found with
      | none => exact Prog.makes_raise h.kind _
      | some brk => exact .bind h.kind (h.createAudit _ _) fun _ db => h.breaks db _

/-- Every request but the check of an online class. -/
theorem prog (issued : List ConfirmToken) (db : Db) {r : Request}
    (hr : ∀ user pk action note now last, r ≠ .onlineAction user pk action note now last) :
    R db ((r.prog issued).run db).2 := by
  cases r with
  | resolve user payload clock =>
    exact Prog.Makes.bind h.kind (h.resolveScan _ _ _) (fun _ => Prog.makes_pure h.kind _) db
  | confirm user token reason now last =>
    rw [Request.prog, Prog.snd_run_bind_pure]
    exact h.confirmScan (fun t _ _ s _ _ => h.moves db _ _) _ _ _ _
  | onlineStart user pk teamsLink now started =>
    rw [Request.prog, Prog.snd_run_bind_pure]
    exact h.onlineStart _ _ _ _ _ db
  | onlineAction user pk action note now last => exact absurd rfl (hr user pk action note now last)
  | propagateMergedPresent anchor now actor =>
    rw [Request.prog, Prog.snd_run_bind_pure]
    exact h.propagateMergedPresent _ _ _ db
  | propagateMergedAbsent anchor actor now =>
    rw [Request.prog, Prog.snd_run_bind_pure]
    exact h.propagateMergedAbsent _ _ _ db
  | sweepNoShows now =>
    rw [Request.prog, Prog.snd_run_bind_pure, run_sweepNoShows]
    -- what the sweep, a suspension, a lift and a drop take back was never started
    refine h.recalls db _ (fun s => db.sweepable now s = true) _ Session.key_markAbsent
      (fun _ => rfl) (fun s _ hsel => ?_)
      (fun s' hs' => (Table.mem_update_iff Session.key_markAbsent).mp hs') rfl
    rw [scheduled_of_sweepable hsel]
    rfl
  | suspendClasses term startDate endDate reason building declaredBy =>
    rw [Request.prog, Prog.snd_run_bind_pure]
    rcases run_suspendClasses_cases db term startDate endDate reason building declaredBy with
      ⟨e, hrun⟩ | ⟨-, hrun⟩ <;> rw [hrun]
    · exact h.kind.refl db
    · refine h.recalls db _ _ _ (Session.key_cancel _) (fun _ => rfl) (fun s _ hsel => ?_)
        (fun s' hs' => mem_sessions_suspended.mp hs') rfl
      rw [scheduled_of_suspendable hsel]
      rfl
  | liftSuspension suspension liftedBy now =>
    rw [Request.prog, Prog.snd_run_bind_pure]
    rcases run_liftSuspension_cases db suspension liftedBy now with
      ⟨e, hrun⟩ | ⟨sp, -, -, -, -, hrun⟩ | ⟨sp, -, -, -, -, hrun⟩ <;> rw [hrun]
    · exact h.kind.refl db
    · exact h.kind.refl db
    · refine h.recalls db _ _ _ Session.key_uncancel (fun _ => rfl) (fun s _ hsel => ?_)
        (fun s' hs' => mem_sessions_lifted.mp hs') rfl
      rw [cancelled_of_liftable hsel]
      rfl
  | cancelSchedule schedule actor reason today =>
    rw [Request.prog, Prog.snd_run_bind_pure]
    rcases run_cancelSchedule_cases db schedule actor reason today with
      ⟨e, hrun⟩ | ⟨sched, -, -, -, hrun⟩ <;> rw [hrun]
    · exact h.kind.refl db
    · refine h.recalls db _ _ _ (Session.key_cancel _) (fun _ => rfl) (fun s _ hsel => ?_)
        (fun s' hs' => mem_sessions_dropped.mp hs') rfl
      rw [scheduled_of_futureScheduled hsel]
      rfl
  | sessionReinstate user pk reason =>
    rw [Request.prog, Prog.snd_run_bind_pure]
    exact h.sessionReinstate user pk reason db
  | breakCreate user start endGiven reason =>
    rw [Request.prog, Prog.snd_run_bind_pure]
    exact h.breakCreate user start endGiven reason db
  | breakDelete user pk =>
    exact Prog.Makes.bind h.kind (h.breakDelete user pk) (fun _ => Prog.makes_pure h.kind _) db

end Requests

end FluxTrack
