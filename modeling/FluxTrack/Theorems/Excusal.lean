import FluxTrack.Theorems.Statements

/-!
# Absences and the academic calendar

A session whose date is covered by a break or by a suspension in force should not
be marked absent. The sweep asks the calendar; a scan and the merge propagation do
not, so that a break which is added after the sessions were created does not
reach them.

## Main definitions

* `Db.calendarExcused` — the calendar covers the session
* `RespectsCalendar` — a statement that marks no covered session absent
* `Request.HonorsCalendar` — the request has no covered session to mark

## Main results

* `absences_respect_calendar` — runs of such requests respect the calendar, and
  there a scan and the sweep agree
* `scan_marks_absent_on_break` — a scan need not
-/

namespace FluxTrack

open Calendar Relational Process

/-- A break or a suspension in force of the session's term covers the session's date
in the building of its room. -/
def Db.calendarExcused (db : Db) (s : Session) : Bool :=
  db.excused (db.scheduleOf s).term s.date (db.buildingOf s.room)

/-- The session a request flags as not present, which is the checker's own decision. -/
def Request.flagged : Request → Option ℕ
  | onlineAction _ pk .flagNotPresent _ _ _ => some pk
  | _ => none

/-- The requests that mark sessions absent: a scan, the merge propagation, a checker's
flag through it, and the sweep. -/
def Request.marksAbsent : Request → Bool
  | resolve .. | propagateMergedAbsent .. | sweepNoShows .. => true
  | onlineAction _ _ .flagNotPresent _ _ _ => true
  | _ => false

/-- The statement of request `r` from `s` to `t` marks no session absent that the
calendar covers. -/
def RespectsCalendar (r : Request) (s t : Db) : Prop :=
  ∀ pk a b, s.sessions.get? pk = some a → t.sessions.get? pk = some b →
    a.status ≠ .absent → b.status = .absent → r.flagged ≠ some pk → s.calendarExcused a = false

/-- The request has no session to mark absent that the calendar covers: a scan that
resolves to an absence is not about one, and a merge propagation past grace has none
among the siblings it fills. -/
def Request.HonorsCalendar (w : World) : Request → Prop
  | resolve user payload clock =>
    ∀ room method db₁ term s,
      (roomFromPayload user payload clock.lookup).run w.db = (.ok (.ok (room, method)), db₁) →
      room.outOfService = false → w.db.activeTerm = some term → s ∈ w.db.sessions →
      w.db.scanResolution term.id user room.id clock.now clock.today =
        ⟨.absent, some s.id, none⟩ →
      w.db.calendarExcused s = false
  | propagateMergedAbsent anchor _ now =>
    isNoShowPastGrace anchor.scheduledStart now w.db.policy.graceMinutes = true →
      ∀ a ∈ w.db.sessions, a.id = anchor.id → w.db.writable a →
        ∀ c ∈ w.db.sessions, c.id ∈ w.db.mergeFill a → w.db.calendarExcused c = false
  | onlineAction user pk .flagNotPresent note now last =>
    ∀ s, w.db.onlineSession pk user = some s → s.status ≠ .absent → s.status ≠ .completed →
      w.db.onlineOnDuty user now = true → Py.strip note ≠ "" →
      isNoShowPastGrace s.scheduledStart last w.db.policy.graceMinutes = true →
      w.db.writable s →
        ∀ c ∈ w.db.sessions, c.id ∈ w.db.mergeFill s → w.db.calendarExcused c = false
  | _ => True

/-- A scan of `room` at `now` and the sweep agree about the session in its window. -/
def ScanAgreesWithSweep (db : Db) (user room : ℕ) (now today : ℤ) : Prop :=
  ∀ term s, db.activeTerm = some term →
    (∀ a ∈ db.scanSessions user today term.id, a.status ≠ .active) →
    windowCandidate room now checkinOpenMinutes (db.scanSessions user today term.id) = some s →
    s.room = room → db.effectiveModality s ≠ .online →
    ((db.scanResolution term.id user room now today).outcome = .absent ↔
      db.sweepable now s = true)

/-! ### Statements that respect the calendar -/

section

variable {r : Request} {db : Db}

theorem frame_respectsCalendar : Frame (RespectsCalendar r) := by
  intro s t h pk a b ha hb hne habsent
  rw [h, ha] at hb
  cases hb
  exact absurd habsent hne

/-- An update respects the calendar if it does so on every row it selects. -/
theorem respectsCalendar_update {p : Session → Bool} {f : Session → Session}
    (hf : ∀ s, key (f s) = key s) {t : Db} (ht : t.sessions = db.sessions.update p f hf)
    (h : ∀ a ∈ db.sessions, p a = true → a.status ≠ .absent → (f a).status = .absent →
      r.flagged ≠ some a.id → db.calendarExcused a = false) :
    RespectsCalendar r db t := by
  intro pk a b ha hb hne habsent hflag
  obtain ⟨hmem, hid⟩ := Table.get?_eq_some_iff.mp ha
  rw [ht, Table.get?_update, ha, Option.map_some, Option.some.injEq] at hb
  subst hb
  by_cases hp : p a = true
  · rw [if_pos hp] at habsent
    refine h a hmem hp hne habsent ?_
    rw [show a.id = pk from hid]
    exact hflag
  · rw [if_neg hp] at habsent
    exact absurd habsent hne

theorem respectsCalendar_save {pk : ℕ} {f : Session → Session} {hf : ∀ s, key (f s) = key s}
    (h : ∀ a ∈ db.sessions, a.id = pk → (f a).status = .absent → r.flagged ≠ some pk →
      db.calendarExcused a = false) :
    (saveSession pk f hf).Steps (RespectsCalendar r) db := by
  refine ⟨respectsCalendar_update hf rfl fun a ha hp _ habsent hflag => ?_, trivial⟩
  have hid : a.id = pk := by simpa using hp
  exact h a ha hid habsent (hid ▸ hflag)

theorem steps_calendar_propagateMergedPresent (anchor : ℕ) (now : ℤ) (actor : Option ℕ) :
    (propagateMergedPresent anchor now actor).Steps (RespectsCalendar r) db := by
  refine steps_propagateMergedPresent frame_respectsCalendar fun a _ _ _ => ?_
  exact respectsCalendar_update (Session.key_fillPresent now) rfl fun _ _ _ _ h => nomatch h

theorem steps_calendar_propagateMergedAbsent {anchor : Session} {actor : Option ℕ} {now : ℤ}
    (h : isNoShowPastGrace anchor.scheduledStart now db.policy.graceMinutes = true →
      ∀ a ∈ db.sessions, a.id = anchor.id → db.writable a →
        ∀ c ∈ db.sessions, c.id ∈ db.mergeFill a → db.calendarExcused c = false) :
    (propagateMergedAbsent anchor actor now).Steps (RespectsCalendar r) db := by
  refine steps_propagateMergedAbsent frame_respectsCalendar fun hgrace a ha hid hwritable => ?_
  refine respectsCalendar_update Session.key_markAbsent rfl fun c hc hp _ _ _ => ?_
  exact h hgrace a ha hid hwritable c hc (List.contains_iff_mem.mp hp)

/-- A scan marks only the session it resolves to an absence. -/
theorem steps_calendar_resolveScan {w : World} {user : ℕ} {payload : Payload} {clock : ScanClock}
    (hhonor : (Request.resolve user payload clock).HonorsCalendar w) :
    (resolveScan user payload clock).Steps (RespectsCalendar r) w.db := by
  refine steps_resolveScan frame_respectsCalendar
    fun room method db₁ term _ hfound hservice hterm hconfirm _ _ => ?_
  have hroom := hhonor room method db₁
  obtain ⟨cache, audit, hframe⟩ := roomFromPayload_frame user payload clock.lookup w.db
  obtain rfl : db₁ = { w.db with cache := cache, audit := audit } :=
    (congrArg Prod.snd hfound).symm.trans hframe
  have hsame : ({ w.db with cache := cache, audit := audit } : Db).scanResolution term.id user
      room.id clock.now clock.today =
      w.db.scanResolution term.id user room.id clock.now clock.today := rfl
  have hverdict := scanVerdict w.db term.id user room.id clock.now clock.today
  rw [hsame] at hconfirm ⊢
  generalize hres : w.db.scanResolution term.id user room.id clock.now clock.today = res
    at hverdict hconfirm ⊢
  unfold applyScan
  cases hpk : res.session with
  | none => trivial
  | some pk =>
    refine Prog.steps_select_bind (frame_respectsCalendar rfl) ?_
    split
    · trivial
    · rename_i s hload
      obtain ⟨hs, hid⟩ := activeSession_eq_some hload
      refine Prog.steps_bind ?_ fun _ _ _ => trivial
      unfold applyOutcome
      cases ho : res.outcome with
      | absent =>
        dsimp only
        split
        · refine Prog.steps_bind (respectsCalendar_save fun a ha hkey _ _ => ?_) fun _ _ _ =>
            ⟨frame_respectsCalendar rfl, trivial⟩
          -- the resolution names this very row
          have hprior : res = ⟨.absent, some a.id, none⟩ := by
            rw [hkey, hid, ← hpk, ← ho]
            cases hverdict with
            | running _ _ hout => rcases hout with rfl | rfl | rfl <;> cases ho
            | elsewhere _ _ hout => rcases hout with rfl | rfl | rfl <;> cases ho
            | absent => rfl
            | occupied => cases ho
            | checkedIn => cases ho
            | noSchedule => cases ho
          exact hroom term a hfound hservice hterm ha (hres.trans hprior)
        · trivial
      | checkedIn =>
        refine Prog.steps_atomic (frame_respectsCalendar rfl) ?_
        refine Prog.steps_bind (respectsCalendar_save fun _ _ _ h => by cases h) fun _ _ _ => ?_
        exact Prog.steps_modify_bind (frame_respectsCalendar rfl)
          (Prog.steps_bind (steps_calendar_propagateMergedPresent _ _ _) fun _ _ _ => trivial)
      | checkedOut =>
        exact Prog.steps_bind (respectsCalendar_save fun _ _ _ h => by cases h) fun _ _ _ =>
          ⟨frame_respectsCalendar rfl, trivial⟩
      | wrongRoom | roomOccupied | earlyEnd =>
        rw [ho] at hconfirm
        cases hconfirm
      | tooEarly | onlineReject | noSchedule => trivial

/-! ### The sweep -/

/-- The store of a sweep under way: the one it began with, but for marked sessions. -/
def SweptFrom (db₀ db : Db) : Prop :=
  ∃ sessions audit, db = { db₀ with sessions := sessions, audit := audit } ∧
    ∀ a ∈ sessions, ∃ b ∈ db₀.sessions, a = b ∨ a = b.markAbsent

theorem SweptFrom.sweepOne {db₀ db db' : Db} {pk : ℕ} {flipped : Bool} (h : SweptFrom db₀ db)
    (hrun : (sweepOne pk).run db = (.ok flipped, db')) : SweptFrom db₀ db' := by
  obtain ⟨sessions, audit, rfl, hrows⟩ := h
  have hmarked : ∀ a ∈ sessions.update (fun s => s.id == pk && s.status == .scheduled)
      Session.markAbsent Session.key_markAbsent, ∃ b ∈ db₀.sessions, a = b ∨ a = b.markAbsent := by
    intro a ha
    obtain ⟨c, hc, rfl⟩ := Table.mem_update.mp ha
    obtain ⟨b, hb, hcb⟩ := hrows c hc
    refine ⟨b, hb, ?_⟩
    split
    · right
      rcases hcb with rfl | rfl <;> rfl
    · exact hcb
  rw [FluxTrack.sweepOne, Prog.run_atomic, Prog.run_modifyGet_bind] at hrun
  split at hrun <;> rename_i hbody
  · cases hrun
    split at hbody <;> cases hbody <;> exact ⟨_, _, rfl, hmarked⟩
  · cases hrun

/-- The loop over candidates whose rows are known not to be covered. -/
theorem steps_calendar_sweepLoop (db₀ : Db) {now graceMin : ℤ} {excused : ℤ → ℕ → Bool}
    {cs : List SweepCandidate}
    (hcs : ∀ c ∈ cs, c.due now graceMin excused = true →
      ∀ b ∈ db₀.sessions, b.id = c.session.id → db₀.calendarExcused b = false)
    (h : SweptFrom db₀ db) :
    (sweepLoop now graceMin excused cs).Steps (RespectsCalendar r) db := by
  induction cs generalizing db with
  | nil => trivial
  | cons c cs ih =>
    have hrest := fun d hd => hcs d (List.mem_cons_of_mem c hd)
    rw [sweepLoop]
    split
    · rename_i hdue
      refine Prog.steps_bind ?_ fun _ db' hrun =>
        Prog.steps_bind (ih hrest (h.sweepOne hrun)) fun _ _ _ => trivial
      refine Prog.steps_atomic (frame_respectsCalendar rfl) (Prog.steps_modifyGet_bind ?_ ?_)
      · refine respectsCalendar_update Session.key_markAbsent rfl fun a ha hp _ _ _ => ?_
        rw [Bool.and_eq_true, beq_iff_eq] at hp
        obtain ⟨sessions, audit, rfl, hrows⟩ := h
        obtain ⟨b, hb, hab⟩ := hrows a ha
        -- marking a session moves it neither to another date nor to another room
        have hsame : db₀.calendarExcused a = db₀.calendarExcused b := by
          rcases hab with rfl | rfl <;> rfl
        have hid : b.id = c.session.id := by
          rw [← hp.1]
          rcases hab with rfl | rfl <;> rfl
        exact hsame.trans (hcs c List.mem_cons_self hdue b hb hid)
      · split
        · exact Prog.steps_modify_bind (frame_respectsCalendar rfl) trivial
        · trivial
    · exact ih hrest h

theorem steps_calendar_sweepNoShows (now : ℤ) :
    (sweepNoShows now).Steps (RespectsCalendar r) db := by
  refine Prog.steps_select_bind (frame_respectsCalendar rfl) ?_
  cases hterm : db.activeTerm with
  | none => trivial
  | some term =>
    refine Prog.steps_select_bind (frame_respectsCalendar rfl) ?_
    refine Prog.steps_bind (Prog.steps_select_bind (frame_respectsCalendar rfl)
      (Prog.steps_select_bind (frame_respectsCalendar rfl) trivial)) fun excused db₁ hrun => ?_
    rw [run_excusedChecker] at hrun
    cases hrun
    refine Prog.steps_select_bind (frame_respectsCalendar rfl) ?_
    refine steps_calendar_sweepLoop db (fun c hc hdue b hb hid => ?_)
      ⟨db.sessions, db.audit, rfl, fun a ha => ⟨a, ha, .inl rfl⟩⟩
    obtain ⟨s, hs, rfl⟩ := List.mem_map.mp hc
    obtain ⟨hs, hsel⟩ := List.mem_filter.mp hs
    simp only [Bool.and_eq_true, Db.inTerm, beq_iff_eq] at hsel
    rw [Table.eq_of_key_eq hb (Db.mem_sessionList.mp hs) hid, Db.calendarExcused, hsel.2]
    simpa using (Bool.and_eq_true_iff.mp hdue).2

end

/-! ### The checker's flag -/

/-- The flag on a session, and the absences it carries over to the merged siblings. -/
theorem steps_calendar_flag {r : Request} {db : Db} {user : ℕ} {s : Session} {now last : ℤ}
    (hs : s ∈ db.sessions) (hflag : r.flagged = some s.id)
    (h : isNoShowPastGrace s.scheduledStart last db.policy.graceMinutes = true → db.writable s →
      ∀ c ∈ db.sessions, c.id ∈ db.mergeFill s → db.calendarExcused c = false) :
    (applyOnlineStatus user s .flagNotPresent now last).Steps (RespectsCalendar r) db := by
  refine Prog.steps_atomic (frame_respectsCalendar rfl) (Prog.steps_bind
    (respectsCalendar_save fun _ _ _ _ hne => absurd hflag hne) fun _ db₁ hsave => ?_)
  cases hsave
  refine Prog.steps_bind ?_ fun _ _ _ => trivial
  refine steps_calendar_propagateMergedAbsent fun hgrace a ha hid hwritable c hc hfill => ?_
  -- the anchor is now absent, and merges with the same rows as before
  have hmarked : s.markAbsent ∈ db.sessions.update (fun a => a.id == s.id) Session.markAbsent
      Session.key_markAbsent :=
    Table.mem_update.mpr ⟨s, hs, if_pos (beq_self_eq_true s.id)⟩
  have hanchor : a = s.markAbsent := Table.eq_of_key_eq ha hmarked hid
  subst hanchor
  obtain ⟨d, hd, hkey, hsched, hterm, hmerge⟩ := mem_mergeFill.mp hfill
  obtain rfl : d = c := Table.eq_of_key_eq hd hc hkey
  have hne : d.id ≠ s.id := by
    simp only [mergesWith, Bool.and_eq_true] at hmerge
    exact bne_iff_ne.mp hmerge.1.1.1
  have hmem : d ∈ db.sessions := mem_of_mem_update_key Session.key_markAbsent hd hne
  exact h hgrace hwritable d hmem (mem_mergeFill.mpr ⟨d, hmem, rfl, hsched, hterm, hmerge⟩)

theorem steps_calendar_onlineAction {w : World} {user pk : ℕ} {note : String} {now last : ℤ}
    (hhonor : (Request.onlineAction user pk .flagNotPresent note now last).HonorsCalendar w) :
    (onlineAction user pk .flagNotPresent note now last).Steps
      (RespectsCalendar (.onlineAction user pk .flagNotPresent note now last)) w.db := by
  refine Prog.steps_select_bind (frame_respectsCalendar rfl)
    (Prog.steps_select_bind (frame_respectsCalendar rfl) ?_)
  cases hload : w.db.onlineSession pk user with
  | none => trivial
  | some s =>
    obtain ⟨hs, hid⟩ := onlineSession_eq_some hload
    dsimp only
    split
    · exact Prog.steps_modify_bind (frame_respectsCalendar rfl) trivial
    · rename_i hgate
      rw [Bool.not_eq_true, Bool.or_eq_false_iff, Bool.not_eq_false', Bool.not_eq_false',
        Bool.and_eq_true, bne_iff_ne, bne_iff_ne] at hgate
      obtain ⟨hduty, habsent, hcompleted⟩ := hgate
      split
      · trivial
      · split
        · trivial
        · rename_i hnote
          have hnote' : Py.strip note ≠ "" := fun h => hnote ⟨rfl, h⟩
          have hsiblings := hhonor s hload habsent hcompleted hduty hnote'
          refine Prog.steps_modifyGet_bind (frame_respectsCalendar rfl) ?_
          split
          · refine Prog.steps_bind ?_ fun _ _ _ => trivial
            refine Prog.steps_select_bind (frame_respectsCalendar rfl)
              (Prog.steps_modify_bind (frame_respectsCalendar rfl)
                (Prog.steps_modify_bind (frame_respectsCalendar rfl)
                  (Prog.steps_bind ?_ fun _ _ _ => ?_)))
            · exact steps_calendar_flag hs (congrArg some hid.symm) hsiblings
            · exact Prog.steps_modify_bind (frame_respectsCalendar rfl)
                ⟨frame_respectsCalendar rfl, trivial⟩
          · trivial

/-! ### Scans and the sweep -/

/-- The resolver decides about the window candidate when no session is running. -/
theorem scanResolution_eq_candidate {db : Db} {term user room : ℕ} {now today : ℤ} {s : Session}
    (hidle : ∀ a ∈ db.scanSessions user today term, a.status ≠ .active)
    (hwindow : windowCandidate room now checkinOpenMinutes (db.scanSessions user today term) =
      some s) :
    db.scanResolution term user room now today =
      resolveCandidate db.effectiveModality room (db.occupying room user term) now
        db.policy.graceMinutes s := by
  have hnone : (db.scanSessions user today term).find? (fun a => a.status == .active) = none :=
    List.find?_eq_none.mpr fun a ha => by simp [hidle a ha]
  rw [Db.scanResolution, resolveFacultyScan, hnone, hwindow]

theorem scanAgreesWithSweep_of {db : Db} {user room : ℕ} {now today : ℤ}
    (h : ∀ term s, db.activeTerm = some term → s ∈ db.sessions →
      db.scanResolution term.id user room now today = ⟨.absent, some s.id, none⟩ →
      db.calendarExcused s = false) :
    ScanAgreesWithSweep db user room now today := by
  intro term s hterm hidle hwindow hroom hmod
  have hres := scanResolution_eq_candidate hidle hwindow
  obtain ⟨hs, hin⟩ := windowCandidate_eq_some hwindow
  obtain ⟨hmem, -, -, hinTerm⟩ := mem_scanSessions hs
  have hsched : s.status = .scheduled := by simpa using (Bool.and_eq_true_iff.mp hin).1
  simp only [resolveCandidate, if_neg hmod, not_not.mpr hroom, if_false] at hres
  by_cases hgrace : isNoShowPastGrace s.scheduledStart now db.policy.graceMinutes = true
  · -- past grace the scan says absent, and so does the sweep unless the calendar objects
    rw [if_pos hgrace] at hres
    have hexcused := h term s hterm hmem hres
    rw [Db.calendarExcused, beq_iff_eq.mp hinTerm] at hexcused
    simp [hres, Db.sweepable, hterm, hsched, hgrace, hinTerm, hexcused]
  · rw [if_neg hgrace] at hres
    have hnot : (db.scanResolution term.id user room now today).outcome ≠ .absent := by
      rw [hres]
      split <;> exact fun h => by cases h
    simp [hnot, Db.sweepable, hterm, hgrace]

/-! ### Runs -/

/-- A scan among the requests and the sweep agree about the room that was scanned. -/
def Request.AgreesWithSweep (w : World) : Request → Prop
  | resolve user payload clock =>
    ∀ room method db₁,
      (roomFromPayload user payload clock.lookup).run w.db = (.ok (.ok (room, method)), db₁) →
      room.outOfService = false →
      ScanAgreesWithSweep w.db user room.id clock.now clock.today
  | _ => True

theorem agreesWithSweep_of_honorsCalendar {w : World} {r : Request} (h : r.HonorsCalendar w) :
    r.AgreesWithSweep w := by
  cases r with
  | resolve user payload clock =>
    intro room method db₁ hfound hservice
    exact scanAgreesWithSweep_of fun term s => h room method db₁ term s hfound hservice
  | _ => trivial

theorem steps_calendar_prog {w : World} {r : Request} (hmarks : r.marksAbsent = true)
    (h : r.HonorsCalendar w) : (r.prog w.issued).Steps (RespectsCalendar r) w.db := by
  cases r with
  | resolve => exact Prog.steps_bind (steps_calendar_resolveScan h) fun _ _ _ => trivial
  | propagateMergedAbsent =>
    exact Prog.steps_bind (steps_calendar_propagateMergedAbsent h) fun _ _ _ => trivial
  | sweepNoShows => exact Prog.steps_bind (steps_calendar_sweepNoShows _) fun _ _ _ => trivial
  | onlineAction user pk action note now last =>
    cases action with
    | flagNotPresent =>
      exact Prog.steps_bind (steps_calendar_onlineAction h) fun _ _ _ => trivial
    | _ => cases hmarks
  | _ => cases hmarks

/-- In every run whose requests have no covered session to mark absent, no statement of
an absence writer marks one, and every scan agrees with the sweep. -/
theorem absences_respect_calendar (db : Db) (rs : List Request)
    (hhonor : (World.start db).Along (fun w r => r.HonorsCalendar w) rs) :
    (World.start db).Along (fun w r =>
      (r.marksAbsent = true → (r.prog w.issued).Steps (RespectsCalendar r) w.db) ∧
        r.AgreesWithSweep w) rs :=
  World.Along.imp (I := fun _ => True) (fun _ _ _ => trivial)
    (fun _ _ _ h => ⟨fun hmarks => steps_calendar_prog hmarks h, agreesWithSweep_of_honorsCalendar h⟩)
    trivial hhonor

namespace Campus

/-- A break on the example's Monday, entered after its sessions were created. -/
def breakOnMonday : Request := .breakCreate 1 (some monday) none "Foundation day"

end Campus

open Campus in
/-- On an ordinary Monday a late scan marks the nine o'clock class absent. -/
theorem absences_respect_calendar_monday :
    (World.start campus).Along (fun w r =>
      (r.marksAbsent = true → (r.prog w.issued).Steps (RespectsCalendar r) w.db) ∧
        r.AgreesWithSweep w) [scanAt 1 9 16 0, .sweepNoShows (wallClock monday 9 16 0)] := by
  refine absences_respect_calendar campus _ ⟨?_, trivial, trivial⟩
  intro room method db₁ term s _ _ _ hs _
  have hnone : ∀ s ∈ campus.sessions.rows, campus.calendarExcused s = false := by decide
  exact hnone s hs

open Campus in
/-- A late scan marks a class absent although its day is a break. -/
theorem scan_marks_absent_on_break :
    ¬ ∀ (term : AcademicTerm) (start days now : ℤ) (db : Db) (rs : List Request),
      (World.start ((materializeTerm term start days false now).run db).2).Along (fun w r =>
        (r.marksAbsent = true → (r.prog w.issued).Steps (RespectsCalendar r) w.db) ∧
          r.AgreesWithSweep w) rs := by
  intro h
  have hrun := h term monday 1 0 timetable [breakOnMonday, scanAt 1 9 16 0]
  have hsteps := Prog.steps_iff.mp (hrun.2.1.1 rfl)
  have hbad : ∃ st ∈ ((scanAt 1 9 16 0).prog
        ((World.start campus).run [breakOnMonday]).issued).stmts
        ((World.start campus).run [breakOnMonday]).db,
      (st.1.sessions.get? 1).map Session.status = some .scheduled ∧
      (st.1.sessions.get? 1).map st.1.calendarExcused = some true ∧
      (st.2.sessions.get? 1).map Session.status = some .absent := by
    decide
  obtain ⟨st, hst, hsched, hexcused, habsent⟩ := hbad
  obtain ⟨a, ha, hast⟩ := Option.map_eq_some_iff.mp hsched
  obtain ⟨b, hb, hbst⟩ := Option.map_eq_some_iff.mp habsent
  rw [ha, Option.map_some, Option.some.injEq] at hexcused
  have hrespects := hsteps st hst 1 a b ha hb (by rw [hast]; exact nofun) hbst nofun
  rw [hexcused] at hrespects
  cases hrespects

end FluxTrack
