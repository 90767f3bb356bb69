import FluxTrack.Theorems.SlotDates

/-!
# Moved classes and their teachers

An approval moves the sessions of its items one after another. Each is checked, before it is
written, against the sessions of its teacher as they are then: those that were moved before are
already where they stay, and those that are moved later are checked against it in their turn.

## Main definitions

* `Db.TeacherFree` — no other session of the teacher overlaps the session
* `Db.Moved` — the session has another slot than before
* `Parted` — what holds throughout the loop

## Main results

* `applyApproval_teacherFree` — a moved session double-books nobody
-/

namespace FluxTrack

open Calendar Relational Process

/-- No other scheduled or running session of the teacher of `s` overlaps it. -/
def Db.TeacherFree (db : Db) (s : Session) : Prop :=
  ∀ t ∈ db.sessions, t.id ≠ s.id → t.faculty = s.faculty → t.status.occupying = true →
    overlaps s.scheduledStart s.scheduledEnd t.scheduledStart t.scheduledEnd = false

/-- The session has another slot than it had in `db₀`. -/
def Db.Moved (db₀ : Db) (s : Session) : Prop :=
  ∃ a ∈ db₀.sessions, a.id = s.id ∧
    (a.scheduledStart, a.scheduledEnd) ≠ (s.scheduledStart, s.scheduledEnd)

/-- The sessions that have been moved so far are scheduled or running, and their teachers have
nothing else at their times. -/
structure Parted (db₀ db : Db) : Prop where
  same : SameOccurrences db₀ db
  occupying : ∀ s ∈ db.sessions, db₀.Moved s → s.status.occupying = true
  free : ∀ s ∈ db.sessions, db₀.Moved s → db.TeacherFree s

section

variable {db₀ db : Db} {s : Session}

/-- A session whose slot is as before has not been moved either. -/
theorem Db.Moved.congr {t : Session} (h : db₀.Moved t) (hid : t.id = s.id)
    (hslot : (t.scheduledStart, t.scheduledEnd) = (s.scheduledStart, s.scheduledEnd)) :
    db₀.Moved s := by
  obtain ⟨a, ha, haid, hne⟩ := h
  exact ⟨a, ha, haid.trans hid, hslot ▸ hne⟩

theorem Parted.start (db : Db) : Parted db db where
  same _ := rfl
  occupying s hs := by
    rintro ⟨a, ha, hid, hne⟩
    exact absurd (by rw [Table.eq_of_key_eq ha hs hid]) hne
  free s hs := by
    rintro ⟨a, ha, hid, hne⟩
    exact absurd (by rw [Table.eq_of_key_eq ha hs hid]) hne

/-- Writing one session, whose teacher is free at its new time if that is another one. -/
theorem Parted.place (h : Parted db₀ db) (hs : s ∈ db.sessions) (hsocc : s.status.occupying = true)
    {f : Session → Session} (hf : ∀ s, key (f s) = key s)
    (hocc : ∀ s, (f s).occurrence = s.occurrence) (hfaculty : ∀ s, (f s).faculty = s.faculty)
    (hfree : ((f s).scheduledStart, (f s).scheduledEnd) = (s.scheduledStart, s.scheduledEnd) ∨
      db.TeacherFree (f s)) :
    Parted db₀ { db with sessions := db.sessions.update (fun a => a.id == s.id) f hf } := by
  have hid : (f s).id = s.id := hf s
  have hstatus : (f s).status = s.status := congrArg (fun o => o.2.2) (hocc s)
  refine ⟨h.same.update hf hocc rfl, fun x hx hmoved => ?occupying,
    fun x hx hmoved y hy hne hteacher hyocc => ?free⟩
  case occupying =>
    rcases mem_update_self hf hs hx with rfl | ⟨hx, -⟩
    · rw [hstatus]
      exact hsocc
    · exact h.occupying x hx hmoved
  case free =>
    rcases mem_update_self hf hs hx with rfl | ⟨hx, hxs⟩
    · -- the session that is written, against one that stays
      obtain ⟨hy, -⟩ := (mem_update_self hf hs hy).resolve_left fun heq => hne (heq ▸ rfl)
      rcases hfree with hslot | hfree
      · have hsfree := h.free s hs (hmoved.congr hid hslot) y hy (hid ▸ hne)
          (hteacher.trans (hfaculty s)) hyocc
        rw [Prod.mk.injEq] at hslot
        rw [hslot.1, hslot.2]
        exact hsfree
      · exact hfree y hy hne hteacher hyocc
    · rcases mem_update_self hf hs hy with rfl | ⟨hy, -⟩
      · -- one that was moved before, against the session that is written
        rw [hfaculty] at hteacher
        rcases hfree with hslot | hfree
        · have hxfree := h.free x hx hmoved s hs (Ne.symm hxs) hteacher hsocc
          rw [Prod.mk.injEq] at hslot
          rw [hslot.1, hslot.2]
          exact hxfree
        · rw [overlaps_comm]
          exact hfree x hx (hid.symm ▸ hxs) ((hteacher.symm).trans (hfaculty s).symm)
            (h.occupying x hx hmoved)
      · exact h.free x hx hmoved y hy hne hteacher hyocc

/-- The rule for room shifts keeps the moved sessions apart. -/
theorem shiftRule_parted (req : ModalityShiftRequest) (dean : ℕ) (now : ℤ) (db₀ : Db) :
    ShiftRule req dean now db₀ (fun _ => True) fun _ _ db => Parted db₀ db where
  same h := h.same
  place {_ _ db item s room} h _ hs hwindow _ _ hmove := by
    have hsocc : s.status.occupying = true := by
      simp only [Session.inWindow, Bool.and_eq_true] at hwindow
      exact hwindow.1.2
    refine h.place hs hsocc (Session.key_declare_place _ _ _ _ _) (fun _ => rfl) (fun _ => rfl) ?_
    cases hslot : item.movedSlot s.date with
    | none => exact .inl rfl
    | some slot =>
      refine .inr fun t ht hne hteacher hocc => ?_
      exact Db.facultyHasConflict_eq_false_iff.mp (hmove slot.1 slot.2 hslot) t ht hne hteacher hocc
  assign h _ _ := ⟨h.same, h.occupying, h.free⟩

/-- A change that keeps every slot moves no session. -/
theorem KeepsTimes.not_moved (h : KeepsTimes db₀ db) (hs : s ∈ db.sessions) : ¬ db₀.Moved s := by
  rintro ⟨a, ha, hid, hne⟩
  obtain ⟨b, hb, hbid, htimes⟩ := h s hs
  simp only [Session.times, Prod.mk.injEq] at htimes
  refine hne ?_
  rw [Table.eq_of_key_eq ha hb (hid.trans hbid), htimes.2.2.1, htimes.2.2.2]

end

/-- After an approval that ends in APPROVED no session that it has moved overlaps another
scheduled or running session of its teacher. -/
theorem applyApproval_teacherFree {db db' : Db} {request : ℕ} {dean : User} {now : ℤ}
    (h : (applyApproval request dean now).run db = (.ok .approved, db')) :
    ∀ s ∈ db'.sessions, db.Moved s → db'.TeacherFree s := by
  rcases run_applyApproval_cases request dean now db with
    ⟨e, hrun⟩ | ⟨req, -, -, ⟨reason, hrun⟩ | ⟨db₁, notifications, hshift, hrun⟩⟩
  · cases h.symm.trans hrun
  · cases h.symm.trans hrun
  · cases h.symm.trans hrun
    unfold applyShift at hshift
    split at hshift
    · -- a shift to online leaves the times alone
      obtain ⟨sessions, audit, honline, hkeeps⟩ :=
        run_applyOnline (db.affectedSessions req) dean.id now db
      cases hshift.symm.trans honline
      exact fun s hs hmoved => absurd hmoved (hkeeps.not_moved hs)
    · obtain ⟨done, placed, hparted, -⟩ := applyF2f_rule (shiftRule_parted req dean.id now db)
        (Parted.start db) (fun _ _ _ _ => trivial) hshift
      exact hparted.free

namespace Campus

/-- A pending request of the teacher to hold the nine o'clock class at one in the afternoon. -/
def afternoonRequested : Db :=
  { requested .f2f with
    items := ⟨[⟨1, 1, 1, none, none, some (hour 13), some (hour 14)⟩], by decide⟩ }

/-- The request is approved. -/
def afternoonApproved : Db :=
  ((applyApproval 1 dean (wallClock (-2) 9 0 0)).run afternoonRequested).2

end Campus

open Campus in
/-- The class is moved to the afternoon, where its teacher has nothing else. -/
theorem applyApproval_teacherFree_afternoon :
    ∃ s ∈ afternoonApproved.sessions,
      afternoonRequested.Moved s ∧ afternoonApproved.TeacherFree s := by
  have hok : ((applyApproval 1 dean (wallClock (-2) 9 0 0)).run afternoonRequested).1 =
      .ok .approved := by decide +kernel
  have hrun : (applyApproval 1 dean (wallClock (-2) 9 0 0)).run afternoonRequested =
      (.ok .approved, afternoonApproved) := Prod.ext hok rfl
  have hmoved : (afternoonApproved.sessions.get? 1).map
      (fun s => decide (s.scheduledStart = wallClock monday 13 0 0)) = some true := by
    decide +kernel
  obtain ⟨s, hs, hstart⟩ := Option.map_eq_some_iff.mp hmoved
  have hbefore : (afternoonRequested.sessions.get? 1).map
      (fun s => decide (s.scheduledStart = wallClock monday 9 0 0)) = some true := by
    decide +kernel
  obtain ⟨a, ha, haStart⟩ := Option.map_eq_some_iff.mp hbefore
  obtain ⟨hmem, hid⟩ := Table.get?_eq_some_iff.mp hs
  obtain ⟨hamem, haid⟩ := Table.get?_eq_some_iff.mp ha
  have hmove : afternoonRequested.Moved s := by
    refine ⟨a, hamem, haid.trans hid.symm, fun heq => ?_⟩
    have hsame : a.scheduledStart = s.scheduledStart := congrArg Prod.fst heq
    have hnine : a.scheduledStart = wallClock monday 9 0 0 := of_decide_eq_true haStart
    have hone : s.scheduledStart = wallClock monday 13 0 0 := of_decide_eq_true hstart
    have hdiffer : wallClock monday 9 0 0 ≠ wallClock monday 13 0 0 := by decide
    exact hdiffer (hnine.symm.trans (hsame.trans hone))
  exact ⟨s, hmem, hmove, applyApproval_teacherFree hrun s hmem hmove⟩

end FluxTrack
