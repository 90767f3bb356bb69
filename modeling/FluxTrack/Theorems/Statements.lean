import FluxTrack.System

/-!
# The statements of the services

What has to be known of the statements of a service that runs alone: a kind of
change `G` that contains everything that leaves the sessions alone (`Frame G`) is
the kind of all statements as soon as it contains the updates of sessions. The
lemmas here pass the shared helpers once; the results about single requests name
only the session updates of that request.

## Main definitions

* `Frame` — a kind of change that contains everything but session updates

## Main results

* `steps_flipAll`, `steps_flipSessions`, `steps_propagateMerged`,
  `steps_roomFromPayload` — the shared helpers
* `mem_mergeFill` — the sessions a merge propagation updates
-/

namespace FluxTrack

open Calendar Relational Process

/-- A kind of change that contains every change that leaves the sessions alone. -/
def Frame (G : Db → Db → Prop) : Prop := ∀ ⦃s t : Db⦄, t.sessions = s.sessions → G s t

section

variable {G : Db → Db → Prop} {db : Db}

theorem steps_lockTerm (hG : Frame G) (term : ℕ) : (lockTerm term).Steps G db := by
  refine Prog.steps_lock_bind (Prog.steps_select_bind (hG rfl) ?_)
  split <;> trivial

theorem steps_requireWritableTerm (term : AcademicTerm) : (requireWritableTerm term).Steps G db := by
  unfold requireWritableTerm
  split <;> trivial

variable {actor : Option ℕ} {ids : List ℕ} {f : Session → Session}
  {hf : ∀ s, key (f s) = key s} {event : ℕ → AuditEvent}

theorem steps_flipAll (hG : Frame G)
    (h : G db { db with sessions := db.sessions.update (fun s => ids.contains s.id) f hf }) :
    (flipAll actor ids f hf event).Steps G db := by
  unfold flipAll
  split
  · trivial
  · exact Prog.steps_modify_bind h ⟨hG rfl, trivial⟩

/-- The batched flip, with an invariant `P` of the store and the keys still to come. -/
theorem steps_flipSessions (hG : Frame G) (P : Db → List ℕ → Prop)
    (hstep : ∀ db chunk rest, P db (chunk ++ rest) →
      G db { db with sessions := db.sessions.update (fun s => chunk.contains s.id) f hf } ∧
      ∀ db', db'.sessions = db.sessions.update (fun s => chunk.contains s.id) f hf → P db' rest)
    (h : P db ids) : (flipSessions actor ids f hf event).Steps G db := by
  have hloop : ∀ (slices : List (List ℕ)) (db : Db), P db slices.flatten →
      (Prog.forEach slices fun chunk => do
        updateSessions chunk f hf
        bulkCreateAudit actor (chunk.map event) : M Unit).Steps G db := by
    intro slices
    induction slices with
    | nil => exact fun _ _ => trivial
    | cons chunk slices ih =>
      intro db hP
      rw [List.flatten_cons] at hP
      obtain ⟨hchunk, hrest⟩ := hstep db chunk slices.flatten hP
      exact ⟨hchunk, hG rfl, ih _ (hrest _ rfl)⟩
  refine hloop _ db ?_
  rw [Py.flatten_chunks (by decide)]
  exact h

/-- The term of a session can be written. -/
def Db.writable (db : Db) (a : Session) : Prop :=
  ∃ term, db.terms.table.get? (db.scheduleOf a).term = some term ∧ term.status ≠ .archived

/-- The only session update of a merge propagation is the one of the siblings. -/
theorem steps_propagateMerged (hG : Frame G) {anchor : ℕ}
    (h : ∀ a ∈ db.sessions, a.id = anchor → db.writable a →
      G db { db with
        sessions := db.sessions.update (fun s => (db.mergeFill a).contains s.id) f hf }) :
    (propagateMerged anchor actor f hf event).Steps G db := by
  refine Prog.steps_atomic (hG rfl) (Prog.steps_lock_bind (Prog.steps_select_bind (hG rfl) ?_))
  cases hget : db.sessions.get? anchor with
  | none => trivial
  | some a =>
    obtain ⟨ha, hid⟩ := Table.get?_eq_some_iff.mp hget
    refine Prog.steps_bind (steps_lockTerm hG _) fun term db₁ hrun => ?_
    obtain ⟨rfl, hterm⟩ := run_lockTerm_eq_ok hrun
    refine Prog.steps_bind (steps_requireWritableTerm term) fun _ db₁ hrun => ?_
    obtain ⟨rfl, hwritable⟩ := run_requireWritableTerm_eq_ok hrun
    refine Prog.steps_select_bind (hG rfl) (Prog.steps_select_bind (hG rfl) ?_)
    exact Prog.steps_bind (steps_flipAll hG (h a ha hid ⟨term, hterm, hwritable⟩))
      fun _ _ _ => trivial

theorem steps_propagateMergedPresent (hG : Frame G) {anchor : ℕ} {now : ℤ}
    (h : ∀ a ∈ db.sessions, a.id = anchor → db.writable a →
      G db { db with
        sessions := db.sessions.update (fun s => (db.mergeFill a).contains s.id)
          (Session.fillPresent now) (Session.key_fillPresent now) }) :
    (propagateMergedPresent anchor now actor).Steps G db :=
  steps_propagateMerged hG h

theorem steps_propagateMergedAbsent (hG : Frame G) {anchor : Session} {now : ℤ}
    (h : isNoShowPastGrace anchor.scheduledStart now db.policy.graceMinutes = true →
      ∀ a ∈ db.sessions, a.id = anchor.id → db.writable a →
        G db { db with
          sessions := db.sessions.update (fun s => (db.mergeFill a).contains s.id)
            Session.markAbsent Session.key_markAbsent }) :
    (propagateMergedAbsent anchor actor now).Steps G db := by
  refine Prog.steps_select_bind (hG rfl) ?_
  split
  · exact steps_propagateMerged hG (h ‹_›)
  · trivial

/-- Looking up a room changes no session. -/
theorem steps_roomFromPayload (hG : Frame G) (user : ℕ) (payload : Payload) (now : ℤ) :
    (roomFromPayload user payload now).Steps G db := by
  cases payload with
  | link token =>
    refine Prog.steps_select_bind (hG rfl) ?_
    split <;> trivial
  | code digits =>
    refine Prog.steps_select_bind (hG rfl) (Prog.steps_modify_bind (hG rfl)
      (Prog.steps_select_bind (hG rfl) ?_))
    split
    · exact Prog.steps_modify_bind (hG rfl) trivial
    · refine Prog.steps_modify_bind (hG rfl) (Prog.steps_select_bind (hG rfl) ?_)
      split
      · trivial
      · exact Prog.steps_modify_bind (hG rfl) trivial
  | other => trivial

/-- Looking up a room leaves everything but the cache and the audit log alone. -/
theorem roomFromPayload_frame (user : ℕ) (payload : Payload) (now : ℤ) (db : Db) :
    ∃ cache audit, ((roomFromPayload user payload now).run db).2 =
      { db with cache := cache, audit := audit } := by
  cases payload with
  | link token =>
    refine ⟨db.cache, db.audit, ?_⟩
    rw [roomFromPayload, Prog.run_select_bind]
    split <;> rfl
  | code digits =>
    rw [roomFromPayload, Prog.run_select_bind, Prog.run_modify_bind, Prog.run_select_bind]
    split
    · exact ⟨_, _, rfl⟩
    · rw [Prog.run_modify_bind, Prog.run_select_bind]
      split <;> exact ⟨_, _, rfl⟩
  | other => exact ⟨db.cache, db.audit, rfl⟩

/-- The session updates of a scan are those of the outcome it applies. -/
theorem steps_resolveScan (hG : Frame G) {user : ℕ} {payload : Payload} {clock : ScanClock}
    (h : ∀ room method db₁ term pk,
      (roomFromPayload user payload clock.lookup).run db = (.ok (.ok (room, method)), db₁) →
      room.outOfService = false → db₁.activeTerm = some term →
      (db₁.scanResolution term.id user room.id clock.now clock.today).outcome.needsConfirm = false →
      (db₁.scanResolution term.id user room.id clock.now clock.today).session = some pk →
      cacheGet db₁.cache (.scanIdem user pk (minuteOf clock.now)) clock.now ≠
        some (.outcome
          (db₁.scanResolution term.id user room.id clock.now clock.today).outcome) →
      (applyScan user (db₁.scanResolution term.id user room.id clock.now clock.today) room method ""
        clock.last).Steps G db₁) :
    (resolveScan user payload clock).Steps G db := by
  refine Prog.steps_bind (steps_roomFromPayload hG _ _ _) fun found db₁ hfound => ?_
  cases found with
  | error e => trivial
  | ok found =>
    obtain ⟨room, method⟩ := found
    change Prog.Steps _ (if room.outOfService = true then _ else _) db₁
    split
    · trivial
    · rename_i hservice
      refine Prog.steps_select_bind (hG rfl) ?_
      cases hterm : db₁.activeTerm with
      | none => trivial
      | some term =>
        refine Prog.steps_select_bind (hG rfl) ?_
        split
        · trivial
        · rename_i hconfirm
          refine Prog.steps_bind ?_ fun _ _ _ => trivial
          -- past the confirmation only a session whose outcome is not remembered is acted upon
          unfold applyOnce
          split
          · trivial
          · rename_i pk hpk
            refine Prog.steps_select_bind (hG rfl) ?_
            split
            · rename_i hidem
              refine Prog.steps_bind (h room method db₁ term pk hfound ?_ hterm ?_ hpk hidem)
                fun _ _ _ => Prog.steps_modify_bind (hG rfl) trivial
              · exact Bool.eq_false_iff.mpr hservice
              · exact Bool.eq_false_iff.mpr hconfirm
            · trivial

end

theorem activeSession_eq_some {db : Db} {pk : ℕ} {s : Session} (h : db.activeSession pk = some s) :
    s ∈ db.sessions ∧ s.id = pk := by
  unfold Db.activeSession at h
  obtain ⟨term, -, h⟩ := Option.bind_eq_some_iff.mp h
  exact Table.get?_eq_some_iff.mp (Option.filter_eq_some_iff.mp h).1

theorem onlineSession_eq_some {db : Db} {pk user : ℕ} {s : Session}
    (h : db.onlineSession pk user = some s) : s ∈ db.sessions ∧ s.id = pk := by
  obtain ⟨term, -, h⟩ := Option.bind_eq_some_iff.mp h
  exact Table.get?_eq_some_iff.mp (Option.filter_eq_some_iff.mp h).1

/-- A row that an update by primary key is not about was there before. -/
theorem mem_of_mem_update_key {t : Table Session} {pk : ℕ} {f : Session → Session}
    (hf : ∀ s, key (f s) = key s) {a : Session}
    (ha : a ∈ t.update (fun s => s.id == pk) f hf) (hne : a.id ≠ pk) : a ∈ t := by
  obtain ⟨b, hb, rfl⟩ := Table.mem_update.mp ha
  have hid : (if (b.id == pk) = true then f b else b).id = b.id :=
    Table.key_ite_update (p := fun s : Session => s.id == pk) hf b
  rw [hid] at hne
  rw [if_neg (by simpa using hne)]
  exact hb

/-- The sessions a merge propagation from `a` updates: scheduled, of the same faculty
member, term and start, other than `a`, and merging with it. -/
theorem mem_mergeFill {db : Db} {a : Session} {pk : ℕ} :
    pk ∈ db.mergeFill a ↔ ∃ c ∈ db.sessions, c.id = pk ∧ c.status = .scheduled ∧
      db.inTerm (db.scheduleOf a).term c = true ∧
      mergesWith (db.mergeView a) (db.mergeView c) = true := by
  simp only [Db.mergeFill, Db.scheduledAmong, List.mem_map, List.mem_filter, Db.mem_sessionList,
    Bool.and_eq_true, beq_iff_eq, List.contains_iff_mem, mergedSiblingIds, Db.mergeCandidates]
  constructor
  · rintro ⟨c, ⟨hc, ⟨v, ⟨⟨d, ⟨hd, hsel⟩, rfl⟩, hmerge⟩, hid⟩, hsched⟩, rfl⟩
    obtain rfl : d = c := Table.eq_of_key_eq hd hc hid
    exact ⟨d, hd, rfl, hsched, hsel.1.2, hmerge⟩
  · rintro ⟨c, hc, rfl, hsched, hterm, hmerge⟩
    refine ⟨c, ⟨hc, ⟨db.mergeView c, ⟨⟨c, ⟨hc, ?_⟩, rfl⟩, hmerge⟩, rfl⟩, hsched⟩, rfl⟩
    simp only [mergesWith, Bool.and_eq_true, bne_iff_ne, beq_iff_eq] at hmerge
    exact ⟨⟨⟨hmerge.1.1.2, hmerge.1.2⟩, hterm⟩, bne_iff_ne.mpr hmerge.1.1.1⟩

theorem scheduled_of_mem_mergeFill {db : Db} {a c : Session} (hc : c ∈ db.sessions)
    (h : c.id ∈ db.mergeFill a) : c.status = .scheduled := by
  obtain ⟨d, hd, hid, hsched, -⟩ := mem_mergeFill.mp h
  rw [Table.eq_of_key_eq hc hd hid.symm]
  exact hsched

end FluxTrack
