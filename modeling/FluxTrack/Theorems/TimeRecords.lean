import FluxTrack.Theorems.SessionChanges

/-!
# The time record of a session

From materialized sessions on, the times of a session fit its status in every state of a run,
as long as no early end is confirmed with a blank reason, no handover to a session that is
over, and no session reinstated that would end before it starts. The invariant also keeps
every recorded start behind the clock: what will be read later is no earlier.

## Main definitions

* `Session.TimeRecord` — the times fit the status
* `Session.Recorded` — the invariant, with the readings still to come
* `Request.KeepsRecord` — the requests that respect it

## Main results

* `time_records_kept` — every state of such a run has proper time records
* `early_end_without_reason` — an early end that is confirmed with no reason
-/

namespace FluxTrack

open Calendar Relational Process

namespace Session

/-- The session as it is materialized: scheduled, with no times. -/
def Untouched (s : Session) : Prop :=
  s.status = .scheduled ∧ s.actualStart = none ∧ s.actualEnd = none ∧ s.endedEarly = false

instance (s : Session) : Decidable s.Untouched :=
  inferInstanceAs (Decidable (_ ∧ _ ∧ _ ∧ _))

/-- The times of the session fit its status. -/
structure TimeRecord (s : Session) : Prop where
  scheduled : s.status = .scheduled → s.actualStart = none ∧ s.actualEnd = none
  active : s.status = .active → s.actualStart.isSome = true ∧ s.actualEnd = none
  completed : s.status = .completed →
    ∃ t u, s.actualStart = some t ∧ s.actualEnd = some u ∧ t ≤ u
  endedEarly : s.endedEarly = true → s.status = .completed ∧ Py.strip s.earlyEndReason ≠ ""

/-- The session has a start, and it is not after any of the readings. -/
def StartedBefore (fs : List ℤ) (s : Session) : Prop :=
  ∃ t, s.actualStart = some t ∧ ∀ u ∈ fs, t ≤ u

/-- The time record of the session with the clock still to read `fs`. -/
structure Recorded (fs : List ℤ) (s : Session) : Prop where
  idle : s.status = .scheduled ∨ s.status = .cancelled → s.actualStart = none ∧ s.actualEnd = none
  running : s.status = .active → s.StartedBefore fs ∧ s.actualEnd = none
  missed : s.status = .absent → s.actualEnd = none
  complete : s.status = .completed → ∃ t u, s.actualStart = some t ∧ s.actualEnd = some u ∧ t ≤ u
  early : s.endedEarly = true → s.status = .completed ∧ Py.strip s.earlyEndReason ≠ ""

section

variable {fs gs : List ℤ} {s : Session}

theorem StartedBefore.mono (h : s.StartedBefore fs) (hsub : gs ⊆ fs) : s.StartedBefore gs := by
  obtain ⟨t, ht, hle⟩ := h
  exact ⟨t, ht, fun u hu => hle u (hsub hu)⟩

theorem Recorded.mono (h : s.Recorded fs) (hsub : gs ⊆ fs) : s.Recorded gs :=
  ⟨h.idle, fun hactive => ⟨(h.running hactive).1.mono hsub, (h.running hactive).2⟩, h.missed,
    h.complete, h.early⟩

theorem Recorded.timeRecord (h : s.Recorded fs) : s.TimeRecord where
  scheduled hstatus := h.idle (.inl hstatus)
  active hstatus := by
    obtain ⟨⟨t, ht, -⟩, hend⟩ := h.running hstatus
    exact ⟨by rw [ht]; rfl, hend⟩
  completed := h.complete
  endedEarly := h.early

theorem Untouched.recorded (h : s.Untouched) : s.Recorded fs := by
  obtain ⟨hstatus, hstart, hend, hearly⟩ := h
  exact ⟨fun _ => ⟨hstart, hend⟩, by simp [hstatus], by simp [hstatus], by simp [hstatus],
    by simp [hearly]⟩

/-- A session that is not over has no end. -/
theorem Recorded.of_not_completed (h : s.Recorded fs) (hstatus : s.status ≠ .completed) :
    s.actualEnd = none ∧ s.endedEarly = false := by
  refine ⟨?_, Bool.eq_false_iff.mpr fun hearly => hstatus (h.early hearly).1⟩
  cases hcase : s.status with
  | scheduled => exact (h.idle (.inl hcase)).2
  | cancelled => exact (h.idle (.inr hcase)).2
  | active => exact (h.running hcase).2
  | absent => exact h.missed hcase
  | completed => exact absurd hcase hstatus

end

end Session

/-! ### The requests -/

/-- An early end is confirmed with a reason, a handover to a session that is not over, and a
reinstated session does not end before it starts. -/
def Request.KeepsRecord (w : World) : Request → Prop
  | confirm user token reason now _ =>
    w.Accepts token user now → ∀ s ∈ w.db.sessions, token.resolution.session = some s.id →
      (token.resolution.outcome = .earlyEnd → Py.strip reason ≠ "") ∧
      (token.resolution.outcome = .roomOccupied → s.status ≠ .completed)
  | sessionReinstate _ pk _ =>
    ∀ s ∈ w.db.sessions, s.id = pk → s.status = .absent →
      s.actualStart.getD s.scheduledStart ≤ s.actualEnd.getD s.scheduledEnd
  | _ => True

/-- The records of a world whose clock is still to read `fs`: those of the sessions, and the
start of every session that an early end has been signed for. -/
structure World.Recorded (w : World) (fs : List ℤ) : Prop where
  genuine : w.Genuine
  sessions : ∀ s ∈ w.db.sessions, s.Recorded fs
  signed : ∀ token ∈ w.issued, token.resolution.outcome = .earlyEnd →
    ∀ s ∈ w.db.sessions, token.resolution.session = some s.id → s.StartedBefore fs

section

variable {w : World} {r : Request} {fs : List ℤ} {t : ℤ} {a b : Session}

theorem Request.Starts.not_completed (h : r.Starts w t a b) (ha : a ∈ w.db.sessions)
    (hkeep : r.KeepsRecord w) : a.status ≠ .completed := by
  cases h with
  | checkedIn _ hstatus => simp [hstatus]
  | startedOnline _ _ hstatus => simp [hstatus]
  | verified _ _ _ hstatus => exact hstatus.2
  | handedOver haccept houtcome hsession => exact (hkeep haccept a ha hsession).2 houtcome

/-- A session that has just been started. -/
theorem Session.Recorded.started (h : a.Recorded fs) (hstatus : a.status ≠ .completed)
    {gs : List ℤ} (hle : ∀ u ∈ gs, t ≤ u) (hb : b.status = .active) (hstart : b.actualStart = some t)
    (hend : b.actualEnd = a.actualEnd) (hearly : b.endedEarly = a.endedEarly) : b.Recorded gs := by
  obtain ⟨hnone, hfalse⟩ := h.of_not_completed hstatus
  rw [hnone] at hend
  rw [hfalse] at hearly
  exact ⟨by simp [hb], fun _ => ⟨⟨t, hstart, hle⟩, hend⟩, by simp [hb], by simp [hb],
    by simp [hearly]⟩

/-- A running session that is completed at an instant. -/
theorem Session.Recorded.checkOut (h : a.Recorded fs) (hstatus : a.status = .active) (ht : t ∈ fs)
    (gs : List ℤ) : (a.checkOut t).Recorded gs := by
  obtain ⟨⟨t₀, ht₀, hle⟩, -⟩ := h.running hstatus
  have hearly : a.endedEarly = false := (h.of_not_completed (by simp [hstatus])).2
  exact ⟨by simp [Session.checkOut], by simp [Session.checkOut], by simp [Session.checkOut],
    fun _ => ⟨t₀, t, ht₀, rfl, hle t ht⟩, by simp [Session.checkOut, hearly]⟩

/-- A started session that is ended early for a reason. -/
theorem Session.StartedBefore.endEarly (h : a.StartedBefore fs) (ht : t ∈ fs) {reason : String}
    (hreason : Py.strip reason ≠ "") (gs : List ℤ) : (a.endEarly t reason).Recorded gs := by
  obtain ⟨t₀, ht₀, hle⟩ := h
  exact ⟨by simp [Session.endEarly], by simp [Session.endEarly], by simp [Session.endEarly],
    fun _ => ⟨t₀, t, ht₀, rfl, hle t ht⟩, fun _ => ⟨rfl, hreason⟩⟩

/-- An absent session that is reinstated with an end that is not before its start. -/
theorem Session.Recorded.reinstate (h : a.Recorded fs) (hstatus : a.status = .absent)
    (hle : a.actualStart.getD a.scheduledStart ≤ a.actualEnd.getD a.scheduledEnd)
    (gs : List ℤ) : a.reinstate.Recorded gs := by
  have hearly : a.endedEarly = false := (h.of_not_completed (by simp [hstatus])).2
  exact ⟨by simp [Session.reinstate], by simp [Session.reinstate], by simp [Session.reinstate],
    fun _ => ⟨_, _, rfl, rfl, hle⟩, by simp [Session.reinstate, hearly]⟩

/-- A session without times in a status that asks for none. -/
theorem Session.Recorded.unstarted (h : a.Recorded fs)
    (hstatus : a.status = .scheduled ∨ a.status = .cancelled)
    (hb : b.status = .scheduled ∨ b.status = .cancelled ∨ b.status = .absent)
    (hstart : b.actualStart = a.actualStart) (hend : b.actualEnd = a.actualEnd)
    (hearly : b.endedEarly = a.endedEarly) (gs : List ℤ) : b.Recorded gs := by
  obtain ⟨hnone, hnone'⟩ := h.idle hstatus
  have hfalse : a.endedEarly = false :=
    (h.of_not_completed (by rcases hstatus with hs | hs <;> simp [hs])).2
  rw [hnone] at hstart
  rw [hnone'] at hend
  rw [hfalse] at hearly
  rcases hb with hb | hb | hb <;>
    exact ⟨fun _ => ⟨hstart, hend⟩, by simp [hb], fun _ => hend, by simp [hb], by simp [hearly]⟩

/-- What the rest of the run reads is no earlier than what the request has read. -/
theorem le_of_clocked {rs : List Request} {t : ℤ} (h : Clocked (r :: rs)) (ht : t ∈ r.readings) :
    ∀ u ∈ rs.flatMap Request.readings, t ≤ u := by
  unfold Clocked at h
  rw [List.flatMap_cons, List.pairwise_append] at h
  exact h.2.2 t ht

theorem clocked_tail {rs : List Request} (h : Clocked (r :: rs)) : Clocked rs := by
  unfold Clocked at h ⊢
  rw [List.flatMap_cons, List.pairwise_append] at h
  exact h.2.1

/-- A changed session keeps its record. -/
theorem recorded_of_changes {rs : List Request}
    (hw : w.Recorded ((r :: rs).flatMap Request.readings)) (hclock : Clocked (r :: rs))
    (hkeep : r.KeepsRecord w) (ha : a ∈ w.db.sessions) (h : r.Changes w a b) :
    b.Recorded (rs.flatMap Request.readings) := by
  have hrec := hw.sessions a ha
  have hread : ∀ t ∈ r.readings, t ∈ (r :: rs).flatMap Request.readings := fun t ht => by
    rw [List.flatMap_cons]
    exact List.mem_append_left _ ht
  have hlater : ∀ t ∈ r.readings, ∀ u ∈ rs.flatMap Request.readings, t ≤ u := fun t ht =>
    le_of_clocked hclock ht
  cases h with
  | starts h =>
    exact hrec.started (h.not_completed ha hkeep) (hlater _ h.mem_readings) h.status h.actualStart
      h.actualEnd h.endedEarly
  | filled hx h hsibling =>
    exact hrec.started (by simp [hsibling.scheduled]) (hlater _ h.mem_readings) rfl rfl rfl rfl
  | filledAlone hstatus =>
    exact hrec.started (by simp [hstatus]) (hlater _ List.mem_cons_self) rfl rfl rfl rfl
  | missed hstatus =>
    exact hrec.unstarted (b := a.markAbsent) (.inl hstatus) (.inr (.inr rfl)) rfl rfl rfl _
  | flagged hload hstatus =>
    obtain ⟨hend, hearly⟩ := hrec.of_not_completed hstatus.2
    exact ⟨by simp [Session.markAbsent], by simp [Session.markAbsent], fun _ => hend,
      by simp [Session.markAbsent], by simp [Session.markAbsent, hearly]⟩
  | checkedOut hstatus => exact hrec.checkOut hstatus (hread _ (by simp [Request.readings])) _
  | gaveWay haccept houtcome hstatus =>
    exact hrec.checkOut hstatus (hread _ (by simp [Request.readings])) _
  | endedEarly haccept houtcome hsession =>
    exact (hw.signed _ haccept.1 houtcome a ha hsession).endEarly
      (hread _ (by simp [Request.readings])) ((hkeep haccept a ha hsession).1 houtcome) _
  | moved =>
    -- the room is no part of the record
    obtain ⟨hidle, hrunning, hmissed, hover, hearly⟩ :=
      hrec.mono (List.subset_append_right _ _ : rs.flatMap Request.readings ⊆ _)
    exact ⟨hidle, hrunning, hmissed, hover, hearly⟩
  | @calledOff _ _ reason hstatus =>
    exact hrec.unstarted (b := a.cancel reason) (.inl hstatus) (.inr (.inl rfl)) rfl rfl rfl _
  | lifted hstatus =>
    exact hrec.unstarted (b := a.uncancel) (.inr hstatus) (.inl rfl) rfl rfl rfl _
  | reinstated hid hstatus => exact hrec.reinstate hstatus (hkeep a ha hid hstatus) _

/-- A changed session has a start that is behind the clock if it had one before. -/
theorem startedBefore_of_changes {rs : List Request} (hclock : Clocked (r :: rs))
    (hstarted : a.StartedBefore ((r :: rs).flatMap Request.readings)) (h : r.Changes w a b) :
    b.StartedBefore (rs.flatMap Request.readings) := by
  have hlater : ∀ t ∈ r.readings, ∀ u ∈ rs.flatMap Request.readings, t ≤ u := fun t ht =>
    le_of_clocked hclock ht
  have hkept : a.StartedBefore (rs.flatMap Request.readings) :=
    hstarted.mono (List.subset_append_right _ _)
  cases h with
  | starts h => exact ⟨_, h.actualStart, hlater _ h.mem_readings⟩
  | filled hx h => exact ⟨_, rfl, hlater _ h.mem_readings⟩
  | filledAlone => exact ⟨_, rfl, hlater _ List.mem_cons_self⟩
  | reinstated =>
    obtain ⟨t, ht, hle⟩ := hkept
    exact ⟨t, by simp [Session.reinstate, ht], hle⟩
  | _ => exact hkept

end

/-! ### Tokens -/

/-- A scan that signs a token changes no session, and the token is for what it has decided. -/
theorem run_resolveScan_signed {db db' : Db} {user : ℕ} {payload : Payload} {clock : ScanClock}
    {reply : ScanReply} {token : ConfirmToken}
    (h : (resolveScan user payload clock).run db = (.ok (reply, some token), db')) :
    db'.sessions = db.sessions ∧ ∃ db₁ : Db, ∃ term room, db₁.sessions = db.sessions ∧
      token.resolution = db₁.scanResolution term user room clock.now clock.today := by
  obtain ⟨cache, audit, hframe⟩ := roomFromPayload_frame user payload clock.lookup db
  obtain ⟨found, db₁, hfound, h⟩ := Prog.run_bind_eq_ok h
  rw [hfound] at hframe
  change db₁ = _ at hframe
  have hsessions : db₁.sessions = db.sessions := by rw [hframe]
  cases found with
  | error e => cases h
  | ok found =>
    obtain ⟨room, method⟩ := found
    dsimp only at h
    split at h
    · cases h
    · rw [Prog.run_select_bind] at h
      cases hterm : db₁.activeTerm with
      | none =>
        rw [hterm] at h
        cases h
      | some term =>
        rw [hterm] at h
        dsimp only at h
        rw [Prog.run_select_bind] at h
        split at h
        · cases h
          exact ⟨hsessions, _, term.id, room.id, hsessions, rfl⟩
        · obtain ⟨_, _, -, h⟩ := Prog.run_bind_eq_ok h
          cases h

/-- An early end is signed for a running session. -/
theorem running_of_signed {w : World} {r : Request} {db' : Db} {token : ConfirmToken}
    (h : (r.prog w.issued).run w.db = (.ok (some token), db'))
    (houtcome : token.resolution.outcome = .earlyEnd) :
    db'.sessions = w.db.sessions ∧ ∃ s ∈ w.db.sessions, s.status = .active ∧
      token.resolution.session = some s.id := by
  cases r with
  | resolve user payload clock =>
    obtain ⟨⟨reply, signed⟩, db₂, hscan, h⟩ := Prog.run_bind_eq_ok h
    cases h
    obtain ⟨hkept, db₁, term, room, hsessions, hresolution⟩ := run_resolveScan_signed hscan
    have hverdict := scanVerdict db₁ term user room clock.now clock.today
    rw [← hresolution] at hverdict
    generalize token.resolution = decided at hverdict houtcome
    refine ⟨hkept, ?_⟩
    cases hverdict with
    | @running s _ hs hstatus =>
      have hmem : s ∈ db₁.sessions := (mem_scanSessions hs).1
      rw [hsessions] at hmem
      exact ⟨s, hmem, hstatus, rfl⟩
    | elsewhere _ _ ho => rcases ho with rfl | rfl | rfl <;> cases houtcome
    | absent => cases houtcome
    | occupied => cases houtcome
    | checkedIn => cases houtcome
    | noSchedule => cases houtcome
  | _ =>
    obtain ⟨_, _, -, h⟩ := Prog.run_bind_eq_ok h
    cases h

/-! ### Runs -/

/-- A request that keeps the record leaves a recorded world recorded. -/
theorem World.Recorded.step {w : World} {r : Request} {rs : List Request}
    (hw : w.Recorded ((r :: rs).flatMap Request.readings)) (hclock : Clocked (r :: rs))
    (hkeep : r.KeepsRecord w) : (w.step r).Recorded (rs.flatMap Request.readings) := by
  refine ⟨World.genuine_step w r hw.genuine, fun b hb => ?_, fun token htoken houtcome b hb hid => ?_⟩
  · obtain ⟨a, ha, -, rfl | hchange⟩ := (changes_step hw.genuine r).of_mem hb
    · exact (hw.sessions b ha).mono (List.subset_append_right _ _)
    · exact recorded_of_changes hw hclock hkeep ha hchange
  · rcases List.mem_append.mp htoken with hnew | hold
    · -- the token has just been signed, and the session is still running
      rcases hres : (r.prog w.issued).run w.db with ⟨_ | _ | signed, db'⟩ <;> rw [hres] at hnew
      · cases hnew
      · cases hnew
      · obtain rfl := List.mem_singleton.mp hnew
        obtain ⟨hkept, s, hs, hstatus, hsession⟩ := running_of_signed hres houtcome
        have hmem : b ∈ w.db.sessions := by
          rw [← hkept]
          change b ∈ ((r.prog w.issued).run w.db).2.sessions at hb
          rwa [hres] at hb
        obtain rfl : b = s := Table.eq_of_key_eq hmem hs (Option.some.inj (hid.symm.trans hsession))
        exact ((hw.sessions b hs).running hstatus).1.mono (List.subset_append_right _ _)
    · obtain ⟨a, ha, hkey, hchange⟩ := (changes_step hw.genuine r).of_mem hb
      rw [hkey] at hid
      have hstarted := hw.signed token hold houtcome a ha hid
      rcases hchange with rfl | hchange
      · exact hstarted.mono (List.subset_append_right _ _)
      · exact startedBefore_of_changes hclock hstarted hchange

theorem World.Recorded.run {rs : List Request} {w : World}
    (hw : w.Recorded (rs.flatMap Request.readings)) (hclock : Clocked rs)
    (hkeep : w.Along Request.KeepsRecord rs) {pre : List Request} (hpre : pre <+: rs) :
    ∀ s ∈ (w.run pre).db.sessions, s.TimeRecord := by
  induction rs generalizing w pre with
  | nil =>
    rw [List.prefix_nil.mp hpre]
    exact fun s hs => (hw.sessions s hs).timeRecord
  | cons r rs ih =>
    cases pre with
    | nil => exact fun s hs => (hw.sessions s hs).timeRecord
    | cons r' pre =>
      obtain ⟨rfl, hrest⟩ := List.cons_prefix_cons.mp hpre
      exact ih (hw.step hclock hkeep.1) (clocked_tail hclock) hkeep.2 hrest

/-- In every state of a run of requests that keep the record, from sessions as they are
materialized and with a clock that never goes back, the times of every session fit its
status. -/
theorem time_records_kept (db : Db) (rs : List Request) (hnew : ∀ s ∈ db.sessions, s.Untouched)
    (hclock : Clocked rs) (hkeep : (World.start db).Along Request.KeepsRecord rs) :
    ∀ pre, pre <+: rs → ∀ s ∈ ((World.start db).run pre).db.sessions, s.TimeRecord := by
  have hw : (World.start db).Recorded (rs.flatMap Request.readings) :=
    ⟨World.genuine_start db, fun s hs => (hnew s hs).recorded,
      fun token htoken => absurd htoken List.not_mem_nil⟩
  exact fun pre hpre => hw.run hclock hkeep hpre

/-! ### An early end -/

namespace Campus

/-- The token for an early end of the eight o'clock class, signed at half past. -/
def leaving : ConfirmToken :=
  ⟨⟨.earlyEnd, some 2, none⟩, 1, .qrScan, 2, wallClock monday 8 30 0 / second⟩

/-- The teacher checks in at eight, scans again at half past and confirms the early end. -/
def leavesEarly (reason : String) : List Request :=
  [scanAt 2 8 0 0, scanAt 2 8 30 0,
    .confirm 2 leaving reason (wallClock monday 8 31 0) (wallClock monday 8 31 0)]

end Campus

open Campus in
/-- A class that ends early for a reason. -/
theorem time_records_kept_drill :
    ∃ s ∈ ((World.start campus).run (leavesEarly "Fire drill")).db.sessions,
      s.endedEarly = true ∧ s.TimeRecord := by
  have hnew : ∀ s ∈ campus.sessions.rows, s.Untouched := by decide +kernel
  have hended : ∃ s ∈ ((World.start campus).run (leavesEarly "Fire drill")).db.sessions.rows,
      s.endedEarly = true := by
    decide +kernel
  obtain ⟨s, hs, hearly⟩ := hended
  refine ⟨s, hs, hearly, time_records_kept campus (leavesEarly "Fire drill") hnew
    (by decide +kernel) ?_ _ List.prefix_rfl s hs⟩
  exact ⟨trivial, trivial, fun _ _ _ _ => ⟨fun _ => by decide +kernel, fun h => by cases h⟩,
    trivial⟩

open Campus in
/-- The early end is confirmed with an empty reason, which is stored as it is. -/
theorem early_end_without_reason :
    ¬ ∀ (db : Db) (rs : List Request), (∀ s ∈ db.sessions, s.Untouched) → Clocked rs →
      ∀ s ∈ ((World.start db).run rs).db.sessions, s.TimeRecord := by
  intro h
  have hnew : ∀ s ∈ campus.sessions.rows, s.Untouched := by decide +kernel
  have hblank : ∃ s ∈ ((World.start campus).run (leavesEarly "")).db.sessions.rows,
      s.endedEarly = true ∧ Py.strip s.earlyEndReason = "" := by
    decide +kernel
  obtain ⟨s, hs, hearly, hreason⟩ := hblank
  have hrecord := h campus (leavesEarly "") hnew (by decide +kernel) s hs
  exact (hrecord.endedEarly hearly).2 hreason

end FluxTrack
