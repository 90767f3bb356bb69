import FluxTrack.Theorems.Statements

/-!
# What a request does to a session

Every request leaves a session as it is or changes it in one of a few ways, each by requests
of one kind and from sessions in a known state. Invariants of the sessions over runs are read
off this list.

## Main definitions

* `Db.Edits` — every session goes over to one of the new database
* `Sibling` — the sessions a merge changes with an anchor
* `Request.Starts`, `Request.Changes` — the list of changes

## Main results

* `changes_step` — a request changes sessions only as listed
-/

namespace FluxTrack

open Calendar Relational Process

/-! ### Edits -/

/-- Every session goes over to one of the new database, as it is or changed by `C`. -/
def Db.Edits (C : Session → Session → Prop) (db db' : Db) : Prop :=
  ∃ f : Session → Session, (∀ a, key (f a) = key a) ∧
    db'.sessions.rows = db.sessions.rows.map f ∧ ∀ a ∈ db.sessions, f a = a ∨ C a (f a)

section

variable {C C₁ C₂ : Session → Session → Prop} {db db₁ db₂ : Db}

theorem edits_of_eq (h : db₁.sessions = db.sessions) : db.Edits C db₁ :=
  ⟨id, fun _ => rfl, by rw [h, List.map_id], fun _ _ => .inl rfl⟩

theorem edits_update {p : Session → Bool} {f : Session → Session} (hf : ∀ a, key (f a) = key a)
    (h : db₁.sessions = db.sessions.update p f hf)
    (hC : ∀ a ∈ db.sessions, p a = true → C a (f a)) : db.Edits C db₁ := by
  refine ⟨fun a => if p a = true then f a else a, fun a => ?_, ?_, fun a ha => ?_⟩
  · dsimp only
    split
    · exact hf a
    · rfl
  · rw [h, Table.rows_update]
  · by_cases hp : p a = true
    · simp only [if_pos hp]
      exact .inr (hC a ha hp)
    · exact .inl (if_neg hp)

theorem Db.Edits.of_mem (h : db.Edits C db₁) {b : Session} (hb : b ∈ db₁.sessions) :
    ∃ a ∈ db.sessions, b.id = a.id ∧ (b = a ∨ C a b) := by
  obtain ⟨f, hkey, hrows, hf⟩ := h
  rw [← Table.mem_rows, hrows] at hb
  obtain ⟨a, ha, rfl⟩ := List.mem_map.mp hb
  exact ⟨a, ha, hkey a, hf a ha⟩

theorem Db.Edits.mono (h : db.Edits C db₁) (hC : ∀ a ∈ db.sessions, ∀ b, C a b → C₁ a b) :
    db.Edits C₁ db₁ := by
  obtain ⟨f, hkey, hrows, hf⟩ := h
  exact ⟨f, hkey, hrows, fun a ha => (hf a ha).imp_right (hC a ha _)⟩

/-- Two edits in a row, the second of which may meet what the first has changed. -/
theorem Db.Edits.trans (h₁ : db.Edits C₁ db₁) (h₂ : db₁.Edits C₂ db₂)
    (hleft : ∀ a ∈ db.sessions, ∀ b, C₁ a b → C a b)
    (hright : ∀ a ∈ db.sessions, ∀ c, C₂ a c → C a c)
    (hboth : ∀ a ∈ db.sessions, ∀ b c, C₁ a b → C₂ b c → C a c) : db.Edits C db₂ := by
  obtain ⟨f, hfkey, hfrows, hf⟩ := h₁
  obtain ⟨g, hgkey, hgrows, hg⟩ := h₂
  refine ⟨fun a => g (f a), fun a => (hgkey (f a)).trans (hfkey a), ?_, fun a ha => ?_⟩
  · rw [hgrows, hfrows, List.map_map]
    rfl
  · have hfa : f a ∈ db₁.sessions := by
      rw [← Table.mem_rows, hfrows]
      exact List.mem_map_of_mem ha
    change g (f a) = a ∨ C a (g (f a))
    rcases hf a ha with hsame | hfirst <;> rcases hg (f a) hfa with hsame' | hsecond
    · exact .inl (hsame'.trans hsame)
    · rw [hsame] at hsecond ⊢
      exact .inr (hright a ha _ hsecond)
    · rw [hsame']
      exact .inr (hleft a ha _ hfirst)
    · exact .inr (hboth a ha _ _ hfirst hsecond)

theorem edits_atomic {α : Type} {p : M α} (h : db.Edits C (p.run db).2) :
    db.Edits C ((Prog.atomic p).run db).2 := by
  rw [Prog.run_atomic]
  rcases hp : p.run db with ⟨e | a, t⟩
  · exact edits_of_eq rfl
  · rw [hp] at h
    exact h

/-- What follows a part that has edited already. -/
theorem edits_bind {α β : Type} {p : M α} {f : α → M β} (hp : db.Edits C (p.run db).2)
    (hf : ∀ a db₁, p.run db = (.ok a, db₁) → db.Edits C ((f a).run db₁).2) :
    db.Edits C ((p >>= f).run db).2 := by
  rw [Prog.run_bind]
  rcases hrun : p.run db with ⟨e | a, db₁⟩
  · rw [hrun] at hp
    exact hp
  · exact hf a db₁ hrun

/-- What follows an edit and leaves the sessions alone. -/
theorem edits_bind_frame {α β : Type} {p : M α} {f : α → M β} {u : Db} (hp : db.Edits C (p.run u).2)
    (hf : ∀ a t, ((f a).run t).2.sessions = t.sessions) :
    db.Edits C ((p >>= f).run u).2 := by
  refine Prog.snd_run_bind hp fun a t h => ?_
  obtain ⟨g, hkey, hrows, hg⟩ := h
  exact ⟨g, hkey, by rw [hf, hrows], hg⟩

end

/-! ### Merges -/

/-- A scheduled session of the same teacher that starts with another one. -/
structure Sibling (x a : Session) : Prop where
  scheduled : a.status = .scheduled
  ne : a.id ≠ x.id
  faculty : a.faculty = x.faculty
  start : a.scheduledStart = x.scheduledStart

theorem sibling_of_mem_mergeFill {db : Db} {x a : Session} (ha : a ∈ db.sessions)
    (h : a.id ∈ db.mergeFill x) : Sibling x a := by
  obtain ⟨c, hc, hid, hstatus, -, hmerges⟩ := mem_mergeFill.mp h
  obtain rfl : c = a := Table.eq_of_key_eq hc ha hid
  simp only [mergesWith, Bool.and_eq_true, bne_iff_ne, beq_iff_eq] at hmerges
  exact ⟨hstatus, hmerges.1.1.1, hmerges.1.1.2, hmerges.1.2⟩

section

variable {db db₁ : Db} {f g : Session → Session} {hg : ∀ s, key (g s) = key s}
  {event : ℕ → AuditEvent} {actor : Option ℕ}

theorem edits_propagateMerged (anchor : ℕ) (actor : Option ℕ) (g : Session → Session)
    (hg : ∀ s, key (g s) = key s) (event : ℕ → AuditEvent) (db : Db) :
    db.Edits (fun a b => (∃ x ∈ db.sessions, x.id = anchor ∧ Sibling x a) ∧ b = g a)
      ((propagateMerged anchor actor g hg event).run db).2 := by
  rcases run_propagateMerged_cases anchor actor g hg event db with
    ⟨e, hrun⟩ | ⟨x, hx, hid, -, hrun⟩ <;> rw [hrun]
  · exact edits_of_eq rfl
  · refine edits_update hg rfl fun a ha hsel => ⟨⟨x, hx, hid, ?_⟩, rfl⟩
    exact sibling_of_mem_mergeFill ha (List.contains_iff_mem.mp hsel)

/-- A merge from a session that has just been changed leaves it and changes its siblings. -/
theorem edits_propagate_after {s : Session} (hf : ∀ s, key (f s) = key s) (hs : s ∈ db.sessions)
    (hsessions : db₁.sessions = db.sessions.update (fun a => a.id == s.id) f hf)
    (hstatus : (f s).status ≠ .scheduled) (hfaculty : (f s).faculty = s.faculty)
    (hstart : (f s).scheduledStart = s.scheduledStart) :
    db.Edits (fun a b => a = s ∧ b = f s ∨ Sibling s a ∧ b = g a)
      ((propagateMerged s.id actor g hg event).run db₁).2 := by
  have hfirst : db.Edits (fun a b => a = s ∧ b = f s) db₁ := by
    refine edits_update hf hsessions fun a ha hsel => ?_
    obtain rfl : a = s := Table.eq_of_key_eq ha hs (beq_iff_eq.mp hsel)
    exact ⟨rfl, rfl⟩
  refine hfirst.trans (edits_propagateMerged s.id actor g hg event db₁) (fun _ _ _ => .inl)
    (fun a _ c => ?_) fun a _ b c => ?_
  · rintro ⟨⟨x, hx, hid, hsibling⟩, rfl⟩
    -- the anchor the merge finds is the changed session
    have hmem : f s ∈ db₁.sessions := by
      rw [hsessions]
      exact Table.mem_update_of_pos hf hs (beq_self_eq_true s.id)
    obtain rfl : x = f s := Table.eq_of_key_eq hx hmem (hid.trans (hf s).symm)
    refine .inr ⟨⟨hsibling.scheduled, ?_, ?_, ?_⟩, rfl⟩
    · exact fun heq => hsibling.ne (heq.trans (hf s).symm)
    · rw [hsibling.faculty, hfaculty]
    · rw [hsibling.start, hstart]
  · rintro ⟨-, rfl⟩ ⟨⟨x, -, -, hsibling⟩, -⟩
    exact absurd hsibling.scheduled hstatus

end

/-! ### The list -/

/-- The room a payload names. -/
def Db.payloadRoom (db : Db) : Payload → Option Room
  | .link token => db.rooms.rows.find? fun r => r.qrToken == token
  | .code digits => db.rooms.rows.find? fun r => r.manualCode == digits
  | .other => none

/-- A scan is decided as a check-in of the session. -/
def Db.ChecksIn (db : Db) (user : ℕ) (payload : Payload) (clock : ScanClock) (s : Session) : Prop :=
  ∃ term room, db.activeTerm = some term ∧ db.payloadRoom payload = some room ∧
    db.scanResolution term.id user room.id clock.now clock.today = ⟨.checkedIn, some s.id, none⟩

/-- The token is accepted from the user at an instant. -/
def World.Accepts (w : World) (token : ConfirmToken) (user : ℕ) (now : ℤ) : Prop :=
  token ∈ w.issued ∧ token.unexpired now = true ∧ token.user = user

/-- A request starts the session `a`, which then is `b`, at the instant `t`. -/
inductive Request.Starts (w : World) : Request → ℤ → Session → Session → Prop
  | checkedIn {user : ℕ} {payload : Payload} {clock : ScanClock} {method : CheckinMethod}
      {a : Session} (hdecided : w.db.ChecksIn user payload clock a)
      (hstatus : a.status = .scheduled)
      (hgrace : isNoShowPastGrace a.scheduledStart clock.now w.db.policy.graceMinutes = false) :
      Starts w (.resolve user payload clock) clock.last a (a.checkIn clock.last method)
  | handedOver {user : ℕ} {token : ConfirmToken} {reason : String} {now last : ℤ} {a : Session}
      {prior : Option ℕ} (haccept : w.Accepts token user now)
      (houtcome : token.resolution.outcome = .roomOccupied)
      (hsession : token.resolution.session = some a.id) :
      Starts w (.confirm user token reason now last) last a (a.handOver last prior)
  | startedOnline {user pk : ℕ} {teamsLink : String} {now started : ℤ} {a : Session}
      (hid : a.id = pk) (hfaculty : a.faculty = user) (hstatus : a.status = .scheduled)
      (hgrace : isNoShowPastGrace a.scheduledStart now w.db.policy.graceMinutes = false) :
      Starts w (.onlineStart user pk teamsLink now started) started a
        (a.startOnline started (Py.strip teamsLink))
  | verified {user pk : ℕ} {note : String} {now last : ℤ} {a : Session}
      (hload : w.db.onlineSession pk user = some a) (hduty : w.db.onlineOnDuty user now = true)
      (hfirst : (cacheGet w.db.cache (.checkerIdem user pk .verified (minuteOf now)) now).isNone =
        true) (hstatus : a.status ≠ .absent ∧ a.status ≠ .completed) :
      Starts w (.onlineAction user pk .verified note now last) now a (a.verifyOnline now)

/-- A request changes the session `a` to `b`. -/
inductive Request.Changes (w : World) : Request → Session → Session → Prop
  | starts {r : Request} {t : ℤ} {a b : Session} (h : r.Starts w t a b) : Changes w r a b
  | filled {r : Request} {t : ℤ} {x y a : Session} (hx : x ∈ w.db.sessions)
      (h : r.Starts w t x y) (hsibling : Sibling x a) : Changes w r a (a.fillPresent t)
  | filledAlone {anchor : ℕ} {now : ℤ} {actor : Option ℕ} {a : Session}
      (hstatus : a.status = .scheduled) :
      Changes w (.propagateMergedPresent anchor now actor) a (a.fillPresent now)
  | missed {r : Request} {a : Session} (hstatus : a.status = .scheduled) :
      Changes w r a a.markAbsent
  | flagged {user pk : ℕ} {note : String} {now last : ℤ} {a : Session}
      (hload : w.db.onlineSession pk user = some a)
      (hstatus : a.status ≠ .absent ∧ a.status ≠ .completed) :
      Changes w (.onlineAction user pk .flagNotPresent note now last) a a.markAbsent
  | checkedOut {user : ℕ} {payload : Payload} {clock : ScanClock} {a : Session}
      (hstatus : a.status = .active) :
      Changes w (.resolve user payload clock) a (a.checkOut clock.last)
  | gaveWay {user : ℕ} {token : ConfirmToken} {reason : String} {now last : ℤ} {a : Session}
      (haccept : w.Accepts token user now) (houtcome : token.resolution.outcome = .roomOccupied)
      (hstatus : a.status = .active) (hne : token.resolution.session ≠ some a.id) :
      Changes w (.confirm user token reason now last) a (a.checkOut last)
  | endedEarly {user : ℕ} {token : ConfirmToken} {reason : String} {now last : ℤ} {a : Session}
      (haccept : w.Accepts token user now) (houtcome : token.resolution.outcome = .earlyEnd)
      (hsession : token.resolution.session = some a.id) :
      Changes w (.confirm user token reason now last) a (a.endEarly last reason)
  | moved {user : ℕ} {token : ConfirmToken} {reason : String} {now last : ℤ} {a : Session}
      (haccept : w.Accepts token user now) (houtcome : token.resolution.outcome = .wrongRoom)
      (hsession : token.resolution.session = some a.id) :
      Changes w (.confirm user token reason now last) a (a.moveTo token.room)
  | calledOff {r : Request} {a : Session} {reason : String} (hstatus : a.status = .scheduled) :
      Changes w r a (a.cancel reason)
  | lifted {suspension : ℕ} {liftedBy : Option ℕ} {now : ℤ} {a : Session}
      (hstatus : a.status = .cancelled) :
      Changes w (.liftSuspension suspension liftedBy now) a a.uncancel
  | reinstated {user pk : ℕ} {reason : String} {a : Session} (hid : a.id = pk)
      (hstatus : a.status = .absent) :
      Changes w (.sessionReinstate user pk reason) a a.reinstate

namespace Request.Starts

variable {w : World} {r : Request} {t : ℤ} {a b : Session}

@[simp] theorem status (h : r.Starts w t a b) : b.status = .active := by
  cases h <;> rfl

@[simp] theorem actualStart (h : r.Starts w t a b) : b.actualStart = some t := by
  cases h <;> rfl

@[simp] theorem actualEnd (h : r.Starts w t a b) : b.actualEnd = a.actualEnd := by
  cases h <;> rfl

@[simp] theorem endedEarly (h : r.Starts w t a b) : b.endedEarly = a.endedEarly := by
  cases h <;> rfl

end Request.Starts

/-- The readings of the clock that a request makes, in their order. -/
def Request.readings : Request → List ℤ
  | resolve _ _ clock => [clock.lookup, clock.now, clock.last]
  | confirm _ _ _ now last => [now, last]
  | onlineStart _ _ _ now started => [now, started]
  | onlineAction _ _ _ _ now last => [now, last]
  | propagateMergedPresent _ now _ => [now]
  | propagateMergedAbsent _ _ now => [now]
  | sweepNoShows now => [now]
  | liftSuspension _ _ now => [now]
  | _ => []

/-- The clock never goes back in a run. -/
def Clocked (rs : List Request) : Prop := (rs.flatMap Request.readings).Pairwise (· ≤ ·)

instance (rs : List Request) : Decidable (Clocked rs) :=
  inferInstanceAs (Decidable (List.Pairwise _ _))

theorem Request.Starts.mem_readings {w : World} {r : Request} {t : ℤ} {a b : Session}
    (h : r.Starts w t a b) : t ∈ r.readings := by
  cases h <;> simp [Request.readings]

/-! ### Scans -/

/-- The room that is looked up is the one that the payload names. -/
theorem payloadRoom_of_roomFromPayload {user : ℕ} {payload : Payload} {now : ℤ} {db : Db}
    {room : Room} {method : CheckinMethod}
    (h : ((roomFromPayload user payload now).run db).1 = .ok (.ok (room, method))) :
    db.payloadRoom payload = some room := by
  cases payload with
  | link token =>
    rw [roomFromPayload, Prog.run_select_bind] at h
    split at h
    · rename_i room' hroom
      cases h
      exact hroom
    · cases h
  | code digits =>
    rw [roomFromPayload, Prog.run_select_bind, Prog.run_modify_bind, Prog.run_select_bind] at h
    split at h
    · cases h
    · rw [Prog.run_modify_bind, Prog.run_select_bind] at h
      split at h
      · rename_i room' hroom
        cases h
        exact hroom
      · cases h
  | other => cases h

/-- A scan that checks in is within grace of the session's start. -/
theorem grace_of_scanResolution {db : Db} {term user room : ℕ} {now today : ℤ}
    (h : (db.scanResolution term user room now today).outcome = .checkedIn) :
    ∃ s ∈ db.scanSessions user today term, s.status = .scheduled ∧
      (db.scanResolution term user room now today).session = some s.id ∧
      isNoShowPastGrace s.scheduledStart now db.policy.graceMinutes = false := by
  generalize hr : db.scanResolution term user room now today = r at h ⊢
  unfold Db.scanResolution at hr
  rcases resolveFacultyScan_cases hr with ⟨s, hs, hactive, rfl⟩ | ⟨s, hs, hin, rfl⟩ | rfl
  · rcases resolveActive_cases s with heq | heq | heq <;> rw [heq] at h <;> cases h
  · have hsched : s.status = .scheduled := by
      simpa using (Bool.and_eq_true_iff.mp hin).1
    refine ⟨s, hs, hsched, ?_⟩
    unfold resolveCandidate at h ⊢
    repeat' split at h
    all_goals cases h
    simp_all
  · rcases resolveNone_cases with ⟨s, hs, hsched, heq⟩ | heq <;> rw [heq] at h <;> cases h

/-- What the outcome `r` does to the sessions when it is applied to `s`. -/
inductive Applied (r : Resolution) (s : Session) (room : ℕ) (method : CheckinMethod)
    (reason : String) (now : ℤ) : Session → Session → Prop
  | checkedIn (h : r.outcome = .checkedIn) :
      Applied r s room method reason now s (s.checkIn now method)
  | handedOver (h : r.outcome = .roomOccupied) (prior : Option ℕ) :
      Applied r s room method reason now s (s.handOver now prior)
  | filled {a : Session} (h : r.outcome = .checkedIn ∨ r.outcome = .roomOccupied)
      (ha : Sibling s a) : Applied r s room method reason now a (a.fillPresent now)
  | gaveWay {a : Session} (h : r.outcome = .roomOccupied) (hprior : r.priorSession = some a.id)
      (hstatus : a.status = .active) : Applied r s room method reason now a (a.checkOut now)
  | absent (h : r.outcome = .absent) (hstatus : s.status = .scheduled) :
      Applied r s room method reason now s s.markAbsent
  | checkedOut (h : r.outcome = .checkedOut) :
      Applied r s room method reason now s (s.checkOut now)
  | endedEarly (h : r.outcome = .earlyEnd) :
      Applied r s room method reason now s (s.endEarly now reason)
  | moved (h : r.outcome = .wrongRoom) : Applied r s room method reason now s (s.moveTo room)

section

variable {db db₁ : Db} {r : Resolution} {s : Session}

/-- An update by primary key changes the session with that key. -/
theorem edits_saveSession {C : Session → Session → Prop} (hs : s ∈ db.sessions)
    {f : Session → Session} (hf : ∀ a, key (f a) = key a)
    (h : db₁.sessions = db.sessions.update (fun a => a.id == s.id) f hf) (hC : C s (f s)) :
    db.Edits C db₁ := by
  refine edits_update hf h fun a ha hsel => ?_
  rw [Table.eq_of_key_eq ha hs (beq_iff_eq.mp hsel)]
  exact hC

theorem edits_applyHandover (hs : s ∈ db.sessions) (ho : r.outcome = .roomOccupied)
    (hprior : r.priorSession ≠ some s.id) (user : ℕ) (room : Room) (method : CheckinMethod)
    (reason : String) (now : ℤ) :
    db.Edits (Applied r s room.id method reason now)
      ((applyHandover user s.id r.priorSession room now).run db).2 := by
  refine edits_atomic ?_
  rw [Prog.run_select_bind]
  -- the rest of the block, in a database that still has the session
  have hrest : ∀ (from? : Option ℕ) (db₁ : Db), s ∈ db₁.sessions →
      db₁.Edits (fun a b => a = s ∧ b = s.handOver now from? ∨ Sibling s a ∧ b = a.fillPresent now)
        ((do
          saveSession s.id (Session.handOver now from?) (Session.key_handOver now from?)
          createAudit (some user) (.sessionForceHandover s.id room.code r.priorSession)
          let _ ← propagateMergedPresent s.id now (some user) : M Unit).run db₁).2 := by
    intro from? db₁ hs₁
    rw [saveSession, Prog.run_modify_bind, createAudit, Prog.run_modify_bind, Prog.snd_run_bind_pure]
    exact edits_propagate_after (Session.key_handOver now from?) hs₁ rfl
      (by simp [Session.handOver]) rfl rfl
  have hdone : ∀ (from? : Option ℕ) (a b : Session),
      (a = s ∧ b = s.handOver now from? ∨ Sibling s a ∧ b = a.fillPresent now) →
      Applied r s room.id method reason now a b := by
    rintro from? a b (⟨rfl, rfl⟩ | ⟨ha, rfl⟩)
    · exact .handedOver ho from?
    · exact .filled (.inr ho) ha
  cases hload : r.priorSession.bind db.activeSession with
  | none => exact (hrest none db hs).mono fun a _ b => hdone none a b
  | some p =>
    obtain ⟨pk, hpk, hp⟩ := Option.bind_eq_some_iff.mp hload
    obtain ⟨hpmem, rfl⟩ := activeSession_eq_some hp
    have hne : s.id ≠ p.id := fun heq => hprior (heq ▸ hpk)
    by_cases hactive : p.status = .active
    · have hcomplete : (completePrior now (some p)).run db = (.ok (), { db with
          sessions := db.sessions.update (fun a => a.id == p.id) (Session.checkOut now)
            (Session.key_checkOut now) }) := by
        rw [completePrior, if_pos hactive]
        rfl
      have hfirst : db.Edits (fun a b => a = p ∧ b = p.checkOut now) { db with
          sessions := db.sessions.update (fun a => a.id == p.id) (Session.checkOut now)
            (Session.key_checkOut now) } :=
        edits_saveSession hpmem (Session.key_checkOut now) rfl ⟨rfl, rfl⟩
      have hkept : s ∈ db.sessions.update (fun a => a.id == p.id) (Session.checkOut now)
          (Session.key_checkOut now) :=
        Table.mem_update_of_neg (Session.key_checkOut now) hs (by simpa using hne)
      rw [Prog.run_bind_of_ok hcomplete]
      refine hfirst.trans (hrest (some p.id) _ hkept) ?_ ?_ ?_
      · rintro a - b ⟨rfl, rfl⟩
        exact .gaveWay ho hpk hactive
      · exact fun a _ c => hdone (some p.id) a c
      · rintro a - b c ⟨rfl, rfl⟩ (⟨heq, -⟩ | ⟨hsibling, -⟩)
        · exact absurd (congrArg Session.id heq).symm hne
        · cases hsibling.scheduled
    · have hskip : (completePrior now (some p)).run db = (.ok (), db) := by
        rw [completePrior, if_neg hactive]
        rfl
      rw [Prog.run_bind_of_ok hskip]
      exact (hrest (some p.id) db hs).mono fun a _ b => hdone (some p.id) a b

theorem edits_applyOutcome (hs : s ∈ db.sessions) (hprior : r.priorSession ≠ some s.id) (user : ℕ)
    (room : Room) (method : CheckinMethod) (reason : String) (now : ℤ) :
    db.Edits (Applied r s room.id method reason now)
      ((applyOutcome user r s room method reason now).run db).2 := by
  unfold applyOutcome
  cases ho : r.outcome with
  | checkedIn =>
    refine edits_atomic ?_
    rw [saveSession, Prog.run_modify_bind, createAudit, Prog.run_modify_bind, Prog.snd_run_bind_pure]
    refine (edits_propagate_after (Session.key_checkIn now method) hs rfl
      (by simp [Session.checkIn]) rfl rfl).mono ?_
    rintro a - b (⟨rfl, rfl⟩ | ⟨ha, rfl⟩)
    · exact .checkedIn ho
    · exact .filled (.inl ho) ha
  | absent =>
    dsimp only
    split
    · exact edits_saveSession hs Session.key_markAbsent rfl (.absent ho ‹_›)
    · exact edits_of_eq rfl
  | checkedOut => exact edits_saveSession hs (Session.key_checkOut now) rfl (.checkedOut ho)
  | earlyEnd => exact edits_saveSession hs (Session.key_endEarly now reason) rfl (.endedEarly ho)
  | wrongRoom => exact edits_saveSession hs (Session.key_moveTo room.id) rfl (.moved ho)
  | roomOccupied =>
    refine edits_bind (edits_applyHandover hs ho hprior user room method reason now)
      fun _ db₁ hrun => ?_
    have hedits := edits_applyHandover hs ho hprior user room method reason now
    rw [hrun] at hedits
    exact hedits
  | tooEarly => exact edits_of_eq rfl
  | onlineReject => exact edits_of_eq rfl
  | noSchedule => exact edits_of_eq rfl

theorem edits_applyScan (hprior : r.priorSession = none ∨ r.priorSession ≠ r.session) (user : ℕ)
    (room : Room) (method : CheckinMethod) (reason : String) (now : ℤ) :
    db.Edits (fun a b => ∃ s ∈ db.sessions, r.session = some s.id ∧
        Applied r s room.id method reason now a b)
      ((applyScan user r room method reason now).run db).2 := by
  unfold applyScan
  cases hpk : r.session with
  | none => exact edits_of_eq rfl
  | some pk =>
    rw [Prog.run_select_bind]
    cases hload : db.activeSession pk with
    | none => exact edits_of_eq rfl
    | some s =>
      obtain ⟨hs, rfl⟩ := activeSession_eq_some hload
      have hne : r.priorSession ≠ some s.id := by
        rw [hpk] at hprior
        rcases hprior with hnone | hne
        · simp [hnone]
        · exact hne
      rw [Prog.snd_run_bind_pure]
      exact (edits_applyOutcome hs hne user room method reason now).mono
        fun a _ b happlied => ⟨s, hs, rfl, happlied⟩

end

/-! ### The requests -/

theorem Db.Edits.of_sessions_eq {C : Session → Session → Prop} {db db' db₁ : Db}
    (h : db.Edits C db₁) (hsessions : db'.sessions = db.sessions) : db'.Edits C db₁ := by
  unfold Db.Edits at h ⊢
  rwa [hsessions]

section

variable {w : World}

/-- A scan that is not to be confirmed has decided about the sessions it found. -/
theorem changes_decided {db : Db} {cache : List CacheEntry} {audit : List AuditLog}
    (hdb : db = { w.db with cache := cache, audit := audit }) {term : AcademicTerm} {user : ℕ}
    {room : Room} {clock : ScanClock} {payload : Payload} (method : CheckinMethod)
    (hterm : db.activeTerm = some term) (hroom : w.db.payloadRoom payload = some room)
    (hconfirm : ¬ (db.scanResolution term.id user room.id clock.now
      clock.today).outcome.needsConfirm = true) :
    w.db.Edits (Request.Changes w (.resolve user payload clock))
      ((applyScan user (db.scanResolution term.id user room.id clock.now clock.today) room method ""
        clock.last).run db).2 := by
  have hsessions : w.db.sessions = db.sessions := by rw [hdb]
  have hpolicy : w.db.policy = db.policy := by rw [hdb]
  have hactive : w.db.activeTerm = some term := by
    rw [← hterm, hdb]
    rfl
  have hsame : w.db.scanResolution term.id user room.id clock.now clock.today =
      db.scanResolution term.id user room.id clock.now clock.today := by
    rw [hdb]
    rfl
  have hverdict := scanVerdict db term.id user room.id clock.now clock.today
  have hgrace : (db.scanResolution term.id user room.id clock.now clock.today).outcome =
    .checkedIn → _ := grace_of_scanResolution
  generalize db.scanResolution term.id user room.id clock.now clock.today = r at *
  have hprior : r.priorSession = none ∨ r.priorSession ≠ r.session := by
    cases hverdict with
    | occupied => exact absurd rfl hconfirm
    | _ => exact .inl rfl
  refine ((edits_applyScan hprior user room method "" clock.last).mono ?_).of_sessions_eq hsessions
  rintro a - b ⟨s, hs, hsession, happlied⟩
  -- the session the decision is about is the one that was loaded
  have hrow : ∀ s' ∈ db.scanSessions user clock.today term.id, r.session = some s'.id → s' = s :=
    fun s' hs' hid => Table.eq_of_key_eq (mem_scanSessions hs').1 hs
      (Option.some.inj (hid.symm.trans hsession))
  have hstarts : r.outcome = .checkedIn → Request.Starts w (.resolve user payload clock) clock.last
      s (s.checkIn clock.last method) := by
    intro ho
    obtain ⟨s', hs', hstatus, hid, hin⟩ := hgrace ho
    obtain rfl := hrow s' hs' hid
    refine .checkedIn ⟨term, room, hactive, hroom, ?_⟩ hstatus (by rwa [hpolicy])
    rw [hsame, ← hsession, ← ho]
    cases hverdict with
    | occupied => cases ho
    | _ => rfl
  cases happlied with
  | checkedIn ho => exact .starts (hstarts ho)
  | handedOver ho => exact absurd (by rw [ho]; rfl) hconfirm
  | filled ho ha =>
    rcases ho with ho | ho
    · exact .filled (hsessions ▸ hs) (hstarts ho) ha
    · exact absurd (by rw [ho]; rfl) hconfirm
  | gaveWay ho => exact absurd (by rw [ho]; rfl) hconfirm
  | absent ho hstatus => exact .missed hstatus
  | checkedOut ho =>
    cases hverdict with
    | running hs' hstatus =>
      obtain rfl := hrow _ hs' rfl
      exact .checkedOut hstatus
    | elsewhere _ _ ho' =>
      cases ho
      rcases ho' with ho' | ho' | ho' <;> cases ho'
    | absent => cases ho
    | occupied => cases ho
    | checkedIn => cases ho
    | noSchedule => cases ho
  | endedEarly ho => exact absurd (by rw [ho]; rfl) hconfirm
  | moved ho => exact absurd (by rw [ho]; rfl) hconfirm

theorem changes_resolveScan (user : ℕ) (payload : Payload) (clock : ScanClock) :
    w.db.Edits (Request.Changes w (.resolve user payload clock))
      ((resolveScan user payload clock).run w.db).2 := by
  obtain ⟨cache, audit, hframe⟩ := roomFromPayload_frame user payload clock.lookup w.db
  refine edits_bind (edits_of_eq (by rw [hframe])) fun found db₁ hfound => ?_
  rw [hfound] at hframe
  change db₁ = _ at hframe
  have hsame : w.db.Edits (Request.Changes w (.resolve user payload clock)) db₁ :=
    edits_of_eq (by rw [hframe])
  cases found with
  | error e => exact hsame
  | ok found =>
    obtain ⟨room, method⟩ := found
    have hanswer := congrArg Prod.fst hfound
    dsimp only
    split
    · exact hsame
    · rw [Prog.run_select_bind]
      cases hterm : db₁.activeTerm with
      | none => exact hsame
      | some term =>
        rw [Prog.run_select_bind]
        split
        · exact hsame
        · rename_i hconfirm
          have happly := changes_decided hframe method hterm
            (payloadRoom_of_roomFromPayload hanswer) hconfirm
          rw [Prog.snd_run_bind_pure]
          unfold applyOnce
          split
          · exact hsame
          · rw [Prog.run_select_bind]
            split
            · exact edits_bind_frame happly fun _ _ => rfl
            · exact hsame

theorem changes_confirmScan (hw : w.Genuine) (user : ℕ) (token : ConfirmToken) (reason : String)
    (now last : ℤ) :
    w.db.Edits (Request.Changes w (.confirm user token reason now last))
      ((confirmScan user (if token ∈ w.issued then some token else none) reason now last).run
        w.db).2 := by
  by_cases hissued : token ∈ w.issued
  · rw [if_pos hissued]
    unfold confirmScan
    dsimp only
    split
    · rename_i hvalid
      rw [Bool.and_eq_true, beq_iff_eq] at hvalid
      have haccept : w.Accepts token user now := ⟨hissued, hvalid⟩
      obtain ⟨hconfirm, hprior⟩ := hw token hissued
      rw [Prog.run_select_bind]
      split
      · exact edits_of_eq rfl
      · rename_i room hroom
        obtain ⟨-, hid⟩ := Table.get?_eq_some_iff.mp hroom
        rw [Prog.snd_run_bind_pure]
        refine (edits_applyScan hprior user room token.method reason last).mono ?_
        rintro a - b ⟨s, hs, hsession, happlied⟩
        cases happlied with
        -- a confirmed token never carries an outcome that is applied at once
        | checkedIn ho => rw [ho] at hconfirm; cases hconfirm
        | handedOver ho prior => exact .starts (.handedOver haccept ho hsession)
        | filled ho ha =>
          rcases ho with ho | ho
          · rw [ho] at hconfirm
            cases hconfirm
          · have hstart : Request.Starts w (.confirm user token reason now last) last s
                (s.handOver last none) :=
              .handedOver haccept ho hsession
            exact .filled hs hstart ha
        | gaveWay ho hpk hstatus =>
          -- the session that gives way is not the one that starts
          refine .gaveWay haccept ho hstatus fun heq => ?_
          rw [hpk, heq] at hprior
          rcases hprior with hnone | hne
          · cases hnone
          · exact hne rfl
        | absent ho => rw [ho] at hconfirm; cases hconfirm
        | checkedOut ho => rw [ho] at hconfirm; cases hconfirm
        | endedEarly ho => exact .endedEarly haccept ho hsession
        | moved ho =>
          have hroomid : room.id = token.room := hid
          rw [hroomid]
          exact .moved haccept ho hsession
    · exact edits_of_eq rfl
  · rw [if_neg hissued]
    exact edits_of_eq rfl

theorem changes_onlineStart (user pk : ℕ) (teamsLink : String) (now started : ℤ) :
    w.db.Edits (Request.Changes w (.onlineStart user pk teamsLink now started))
      ((onlineStart user pk teamsLink now started).run w.db).2 := by
  unfold onlineStart
  rw [Prog.run_select_bind, Prog.run_select_bind]
  split
  · exact edits_of_eq rfl
  · rename_i s online hload
    obtain ⟨hs, hid, hfaculty⟩ : s ∈ w.db.sessions ∧ s.id = pk ∧ s.faculty = user := by
      obtain ⟨term, -, hrow⟩ := Option.bind_eq_some_iff.mp hload
      obtain ⟨s', hfilter, hpair⟩ := Option.bind_eq_some_iff.mp hrow
      cases hpair
      obtain ⟨hget, hsel⟩ := Option.filter_eq_some_iff.mp hfilter
      obtain ⟨hs, hid⟩ := Table.get?_eq_some_iff.mp hget
      rw [Bool.and_eq_true, beq_iff_eq] at hsel
      exact ⟨hs, hid, hsel.1⟩
    split
    · exact edits_of_eq rfl
    · rename_i hnone
      -- the ladder of refusals has let only a scheduled session within grace through
      have hstart : Request.Starts w (.onlineStart user pk teamsLink now started) started s
          (s.startOnline started (Py.strip teamsLink)) := by
        unfold onlineStartError at hnone
        split at hnone
        · cases hnone
        · split at hnone
          · split at hnone <;> cases hnone
          · rename_i hsched
            split at hnone
            · cases hnone
            · rename_i hgrace
              exact .startedOnline hid hfaculty (not_not.mp hsched) (Bool.eq_false_iff.mpr hgrace)
      rw [Prog.snd_run_bind_pure]
      refine edits_atomic ?_
      rw [saveSession, Prog.run_modify_bind, createAudit, Prog.run_modify_bind,
        Prog.snd_run_bind_pure]
      refine (edits_propagate_after (Session.key_startOnline started (Py.strip teamsLink)) hs rfl
        (by simp [Session.startOnline]) rfl rfl).mono ?_
      rintro a - b (⟨rfl, rfl⟩ | ⟨ha, rfl⟩)
      · exact .starts hstart
      · exact .filled hs hstart ha

theorem edits_propagateMergedAbsent (anchor : Session) (actor : Option ℕ) (now : ℤ) (db : Db) :
    db.Edits (fun a b => a.status = .scheduled ∧ b = a.markAbsent)
      ((propagateMergedAbsent anchor actor now).run db).2 := by
  unfold propagateMergedAbsent
  rw [Prog.run_select_bind]
  split
  · refine (edits_propagateMerged anchor.id actor Session.markAbsent Session.key_markAbsent
      (fun pk => .sessionMergedAbsent pk anchor.id) db).mono ?_
    rintro a - b ⟨⟨x, -, -, hsibling⟩, rfl⟩
    exact ⟨hsibling.scheduled, rfl⟩
  · exact edits_of_eq rfl

theorem changes_applyOnlineStatus {user pk : ℕ} {s : Session} {action : ValidationAction}
    {note : String} {now last : ℤ} {db : Db} (hsessions : w.db.sessions = db.sessions)
    (hload : w.db.onlineSession pk user = some s)
    (hverify : action = .verified → w.db.onlineOnDuty user now = true ∧
      (cacheGet w.db.cache (.checkerIdem user pk .verified (minuteOf now)) now).isNone = true)
    (hstatus : s.status ≠ .absent ∧ s.status ≠ .completed) :
    w.db.Edits (Request.Changes w (.onlineAction user pk action note now last))
      ((applyOnlineStatus user s action now last).run db).2 := by
  have hs : s ∈ db.sessions := hsessions ▸ (onlineSession_eq_some hload).1
  unfold applyOnlineStatus
  cases action with
  | verified =>
    obtain ⟨hduty, hfirst⟩ := hverify rfl
    have hstart : Request.Starts w (.onlineAction user pk .verified note now last) now s
        (s.verifyOnline now) := .verified hload hduty hfirst hstatus
    refine Db.Edits.of_sessions_eq ?_ hsessions
    refine edits_atomic ?_
    rw [saveSession, Prog.run_modify_bind, Prog.snd_run_bind_pure]
    refine (edits_propagate_after (Session.key_verifyOnline now) hs rfl
      (by simp [Session.verifyOnline]) rfl rfl).mono ?_
    rintro a - b (⟨rfl, rfl⟩ | ⟨ha, rfl⟩)
    · exact .starts hstart
    · exact .filled (onlineSession_eq_some hload).1 hstart ha
  | flagNotPresent =>
    refine Db.Edits.of_sessions_eq ?_ hsessions
    refine edits_atomic ?_
    rw [saveSession, Prog.run_modify_bind, Prog.snd_run_bind_pure]
    have hfirst : db.Edits (fun a b => a = s ∧ b = s.markAbsent) { db with
        sessions := db.sessions.update (fun a => a.id == s.id) Session.markAbsent
          Session.key_markAbsent } :=
      edits_saveSession hs Session.key_markAbsent rfl ⟨rfl, rfl⟩
    refine hfirst.trans (edits_propagateMergedAbsent s (some user) last _) ?_ ?_ ?_
    · rintro a - b ⟨rfl, rfl⟩
      exact .flagged hload hstatus
    · rintro a - c ⟨hsched, rfl⟩
      exact .missed hsched
    · -- no sibling that is missed is the flagged session, which is absent by then
      rintro a - b c ⟨-, rfl⟩ ⟨hsched, -⟩
      cases hsched
  | flagIdentityMismatch => exact edits_of_eq hsessions.symm
  | verifiedEmpty => exact edits_of_eq hsessions.symm

theorem changes_onlineAction (user pk : ℕ) (action : ValidationAction) (note : String)
    (now last : ℤ) :
    w.db.Edits (Request.Changes w (.onlineAction user pk action note now last))
      ((onlineAction user pk action note now last).run w.db).2 := by
  unfold onlineAction
  rw [Prog.run_select_bind, Prog.run_select_bind]
  cases hload : w.db.onlineSession pk user with
  | none => exact edits_of_eq rfl
  | some s =>
    dsimp only
    split
    · exact edits_of_eq rfl
    · rename_i hgate
      simp only [Bool.or_eq_true, Bool.not_eq_true', not_or, Bool.not_eq_false, Bool.and_eq_true,
        bne_iff_ne] at hgate
      split
      · exact edits_of_eq rfl
      · split
        · exact edits_of_eq rfl
        · rw [Prog.run_modifyGet_bind]
          split
          · rename_i hadded
            rw [(onlineSession_eq_some hload).2] at hadded
            rw [Prog.snd_run_bind_pure]
            unfold applyAction
            rw [Prog.run_select_bind, Prog.run_modify_bind, createAudit, Prog.run_modify_bind]
            refine edits_bind_frame (changes_applyOnlineStatus rfl hload ?_ hgate.2) fun _ t => ?_
            · rintro rfl
              exact ⟨hgate.1, hadded⟩
            · split <;> rfl
          · exact edits_of_eq rfl

theorem changes_propagateMergedPresent (anchor : ℕ) (now : ℤ) (actor : Option ℕ) :
    w.db.Edits (Request.Changes w (.propagateMergedPresent anchor now actor))
      ((propagateMergedPresent anchor now actor).run w.db).2 := by
  refine (edits_propagateMerged anchor actor (Session.fillPresent now)
    (Session.key_fillPresent now) _ w.db).mono ?_
  rintro a - b ⟨⟨x, -, -, hsibling⟩, rfl⟩
  exact .filledAlone hsibling.scheduled

theorem changes_sweepNoShows (now : ℤ) :
    w.db.Edits (Request.Changes w (.sweepNoShows now)) ((sweepNoShows now).run w.db).2 := by
  rw [run_sweepNoShows]
  exact edits_update Session.key_markAbsent rfl fun a _ hsel => .missed (scheduled_of_sweepable hsel)

theorem changes_suspendClasses (term : ℕ) (startDate endDate : ℤ) (reason : String)
    (building declaredBy : Option ℕ) :
    w.db.Edits (Request.Changes w
        (.suspendClasses term startDate endDate reason building declaredBy))
      ((suspendClasses term startDate endDate reason building declaredBy).run w.db).2 := by
  rcases run_suspendClasses_cases w.db term startDate endDate reason building declaredBy with
    ⟨e, hrun⟩ | ⟨-, hrun⟩ <;> rw [hrun]
  · exact edits_of_eq rfl
  · exact edits_update (Session.key_cancel _) rfl fun a _ hsel =>
      .calledOff (scheduled_of_suspendable hsel)

theorem changes_liftSuspension (suspension : ℕ) (liftedBy : Option ℕ) (now : ℤ) :
    w.db.Edits (Request.Changes w (.liftSuspension suspension liftedBy now))
      ((liftSuspension suspension liftedBy now).run w.db).2 := by
  rcases run_liftSuspension_cases w.db suspension liftedBy now with
    ⟨e, hrun⟩ | ⟨sp, -, -, -, -, hrun⟩ | ⟨sp, -, -, -, -, hrun⟩ <;> rw [hrun]
  · exact edits_of_eq rfl
  · exact edits_of_eq rfl
  · exact edits_update Session.key_uncancel rfl fun a _ hsel => .lifted (cancelled_of_liftable hsel)

theorem changes_cancelSchedule (schedule : ℕ) (actor : Option ℕ) (reason : String) (today : ℤ) :
    w.db.Edits (Request.Changes w (.cancelSchedule schedule actor reason today))
      ((cancelSchedule schedule actor reason today).run w.db).2 := by
  rcases run_cancelSchedule_cases w.db schedule actor reason today with
    ⟨e, hrun⟩ | ⟨sched, -, -, -, hrun⟩ <;> rw [hrun]
  · exact edits_of_eq rfl
  · refine edits_update (Session.key_cancel _) rfl fun a ha hsel => ?_
    obtain ⟨c, hc, hid⟩ := List.mem_map.mp (List.contains_iff_mem.mp hsel)
    have hmem : c ∈ w.db.sessions := Db.mem_sessionList.mp (List.mem_filter.mp hc).1
    obtain rfl := Table.eq_of_key_eq hmem ha hid
    exact .calledOff (scheduled_of_futureScheduled hc)

theorem changes_sessionReinstate (user pk : ℕ) (reason : String) :
    w.db.Edits (Request.Changes w (.sessionReinstate user pk reason))
      ((sessionReinstate user pk reason).run w.db).2 := by
  unfold sessionReinstate
  rw [Prog.run_select_bind]
  cases w.db.activeTerm with
  | none => exact edits_of_eq rfl
  | some term =>
    rw [Prog.run_select_bind]
    cases hload : (w.db.sessions.get? pk).filter (w.db.inTerm term.id) with
    | none => exact edits_of_eq rfl
    | some s =>
      obtain ⟨hs, hid⟩ := Table.get?_eq_some_iff.mp (Option.filter_eq_some_iff.mp hload).1
      dsimp only
      split
      · exact edits_of_eq rfl
      · rename_i habsent
        split
        · exact edits_of_eq rfl
        · rw [Prog.snd_run_bind_pure]
          refine edits_atomic ?_
          rw [saveSession, Prog.run_modify_bind]
          exact edits_saveSession hs Session.key_reinstate rfl
            (.reinstated hid (not_not.mp habsent))

theorem changes_breakCreate (user : ℕ) (start : Option ℤ) (endGiven : Option (Option ℤ))
    (reason : String) :
    w.db.Edits (Request.Changes w (.breakCreate user start endGiven reason))
      ((breakCreate user start endGiven reason).run w.db).2 := by
  refine edits_of_eq ?_
  unfold breakCreate
  rw [Prog.run_select_bind]
  cases w.db.activeTerm with
  | none => rfl
  | some term =>
    dsimp only
    split
    · rfl
    · rfl
    · split
      · rfl
      · split <;> rfl

theorem changes_breakDelete (user pk : ℕ) :
    w.db.Edits (Request.Changes w (.breakDelete user pk)) ((breakDelete user pk).run w.db).2 := by
  refine edits_of_eq ?_
  unfold breakDelete
  rw [Prog.run_select_bind]
  cases w.db.activeTerm with
  | none => rfl
  | some term =>
    unfold requireWritableTerm
    dsimp only
    split
    · rfl
    · rw [Prog.run_bind_of_ok (Prog.run_pure _ _), Prog.run_select_bind]
      split <;> rfl

/-- A request changes sessions only as listed. -/
theorem changes_step (hw : w.Genuine) (r : Request) : w.db.Edits (r.Changes w) (w.step r).db := by
  change w.db.Edits (r.Changes w) ((r.prog w.issued).run w.db).2
  cases r with
  | resolve =>
    exact edits_bind_frame (changes_resolveScan _ _ _) fun _ _ => rfl
  | confirm => exact edits_bind_frame (changes_confirmScan hw _ _ _ _ _) fun _ _ => rfl
  | onlineStart => exact edits_bind_frame (changes_onlineStart _ _ _ _ _) fun _ _ => rfl
  | onlineAction => exact edits_bind_frame (changes_onlineAction _ _ _ _ _ _) fun _ _ => rfl
  | propagateMergedPresent =>
    exact edits_bind_frame (changes_propagateMergedPresent _ _ _) fun _ _ => rfl
  | propagateMergedAbsent anchor actor now =>
    refine edits_bind_frame ((edits_propagateMergedAbsent anchor actor now w.db).mono ?_)
      fun _ _ => rfl
    rintro a - b ⟨hsched, rfl⟩
    exact .missed hsched
  | sweepNoShows => exact edits_bind_frame (changes_sweepNoShows _) fun _ _ => rfl
  | suspendClasses => exact edits_bind_frame (changes_suspendClasses _ _ _ _ _ _) fun _ _ => rfl
  | liftSuspension => exact edits_bind_frame (changes_liftSuspension _ _ _) fun _ _ => rfl
  | cancelSchedule => exact edits_bind_frame (changes_cancelSchedule _ _ _ _) fun _ _ => rfl
  | sessionReinstate => exact edits_bind_frame (changes_sessionReinstate _ _ _) fun _ _ => rfl
  | breakCreate => exact edits_bind_frame (changes_breakCreate _ _ _ _) fun _ _ => rfl
  | breakDelete => exact edits_bind_frame (changes_breakDelete _ _) fun _ _ => rfl

end

end FluxTrack
