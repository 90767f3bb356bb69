import FluxTrack.Theorems.Statements
import Mathlib.Logic.Relation

/-!
# One check-in for a merged group

The detector compares two sessions at a time. A check-in starts the sessions that
merge with the one it is made on, so it covers a whole group exactly when any two
members of the group merge. Sharing a room and sharing a course do not compose:
a chain of three sections is connected, and a check-in at one end leaves the other
end to the sweep.

## Main definitions

* `Db.Merges`, `Db.MergedGroup` — the pairwise relation and a connected group
* `CheckIn` — the ways a session is started
* `Db.Covers` — one check-in has started every member, for good

## Main results

* `checkIn_covers_iff` — when a check-in covers its group
-/

namespace FluxTrack

open Calendar Relational Process

/-! ### Groups -/

namespace Db

/-- `b` is a merged sibling of `a`. -/
def Merges (db : Db) (a b : Session) : Prop := mergesWith (db.mergeView a) (db.mergeView b) = true

instance (db : Db) : DecidableRel db.Merges := fun a b =>
  inferInstanceAs (Decidable (mergesWith (db.mergeView a) (db.mergeView b) = true))

/-- Scheduled sessions of one faculty member, one start and one writable term that are
connected by the detector. -/
structure MergedGroup (db : Db) (group : List Session) : Prop where
  stored : ∀ x ∈ group, x ∈ db.sessions
  scheduled : ∀ x ∈ group, x.status = .scheduled
  faculty : ∀ x ∈ group, ∀ y ∈ group, x.faculty = y.faculty
  start : ∀ x ∈ group, ∀ y ∈ group, x.scheduledStart = y.scheduledStart
  term : ∀ x ∈ group, ∀ y ∈ group, (db.scheduleOf x).term = (db.scheduleOf y).term
  writable : ∀ x ∈ group, ∃ t, db.terms.table.get? (db.scheduleOf x).term = some t ∧
    t.status ≠ .archived
  connected : ∀ x ∈ group, ∀ y ∈ group,
    Relation.ReflTransGen (fun a b => a ∈ group ∧ b ∈ group ∧ db.Merges a b) x y

/-- The session with key `pk` is running. -/
def Running (db : Db) (pk : ℕ) : Prop := ∃ s, db.sessions.get? pk = some s ∧ s.status = .active

/-- Every member of the group is running, and no sweep takes one back. -/
def Covers (db : Db) (group : List Session) : Prop :=
  ∀ y ∈ group, db.Running y.id ∧ ∀ now, ((sweepNoShows now).run db).2.Running y.id

end Db

/-! ### Check-ins -/

/-- The ways a session is started: a room scan, a confirmed handover, an online start
by the faculty member and the verification by an online checker. -/
inductive CheckIn
  | scan (user : ℕ) (room : Room) (method : CheckinMethod) (now : ℤ)
  | handover (user : ℕ) (prior : Option ℕ) (room : Room) (now : ℤ)
  | onlineStart (user : ℕ) (link : String) (started : ℤ)
  | verify (user : ℕ) (scannedAt now : ℤ)

/-- The transaction of a check-in on a loaded session. -/
def CheckIn.prog (x : Session) : CheckIn → M Unit
  | scan user room method now =>
    applyOutcome user ⟨.checkedIn, some x.id, none⟩ x room method "" now
  | handover user prior room now => applyHandover user x.id prior room now
  | onlineStart user link started =>
    Prog.atomic do
      saveSession x.id (Session.startOnline started link) (Session.key_startOnline started link)
      createAudit (some user) (.sessionTeamsLinkSet x.id x.teamsLink link)
      let _ ← propagateMergedPresent x.id started (some user)
  | verify user scannedAt now => applyOnlineStatus user x .verified scannedAt now

/-- What a check-in has done to the database before it turns to the siblings: the
session itself is running, and a session that was scheduled is as it was. -/
structure Started (db : Db) (x : Session) (db' : Db) : Prop where
  schedules : db'.schedules = db.schedules
  terms : db'.terms = db.terms
  self : ∃ x' ∈ db'.sessions, x'.status = .active ∧ db'.mergeView x' = db.mergeView x ∧
    x'.schedule = x.schedule
  others : ∀ y ∈ db.sessions, y.status = .scheduled → y.id ≠ x.id → y ∈ db'.sessions

section

variable {db db' : Db} {x y : Session} {now : ℤ} {actor : Option ℕ}

theorem scheduleOf_congr (hsched : db'.schedules = db.schedules) {s s' : Session}
    (h : s'.schedule = s.schedule) : db'.scheduleOf s' = db.scheduleOf s := by
  rw [Db.scheduleOf, Db.scheduleOf, hsched, h]

theorem mergeView_congr (hsched : db'.schedules = db.schedules) (s : Session) :
    db'.mergeView s = db.mergeView s := by
  rw [Db.mergeView, Db.mergeView, Db.effectiveModality, Db.effectiveModality,
    scheduleOf_congr hsched rfl]

/-- The siblings a propagation fills are the scheduled sessions of the term that merge
with the anchor. -/
theorem mem_mergeFill_iff (hy : y ∈ db.sessions) :
    y.id ∈ db.mergeFill x ↔
      y.status = .scheduled ∧ (db.scheduleOf y).term = (db.scheduleOf x).term ∧ db.Merges x y := by
  rw [mem_mergeFill]
  constructor
  · rintro ⟨c, hc, hid, hsched, hterm, hmerge⟩
    obtain rfl : c = y := Table.eq_of_key_eq hc hy hid
    exact ⟨hsched, by simpa [Db.inTerm] using hterm, hmerge⟩
  · rintro ⟨hsched, hterm, hmerge⟩
    exact ⟨y, hy, rfl, hsched, by simpa [Db.inTerm] using hterm, hmerge⟩

/-- The propagation of a started session `x`, seen from a session of the group. -/
theorem run_propagate_started (now : ℤ) (actor : Option ℕ) (hstart : Started db x db')
    {t : AcademicTerm} (hterm : db.terms.table.get? (db.scheduleOf x).term = some t)
    (hwritable : t.status ≠ .archived) :
    ∃ fill db'', (propagateMergedPresent x.id now actor).run db' = (.ok fill, db'') ∧
      db''.Running x.id ∧
      ∀ y ∈ db.sessions, y.status = .scheduled → y.id ≠ x.id →
        (db.scheduleOf y).term = (db.scheduleOf x).term → (db''.Running y.id ↔ db.Merges x y) := by
  obtain ⟨x', hx', hactive, hview, hschedx⟩ := hstart.self
  have hid : x'.id = x.id := congrArg MergeView.id hview
  have hsched : db'.scheduleOf x' = db.scheduleOf x := scheduleOf_congr hstart.schedules hschedx
  have hterm' : db'.terms.table.get? (db'.scheduleOf x').term = some t := by
    rw [hsched, hstart.terms]
    exact hterm
  have hrun : (propagateMergedPresent x'.id now actor).run db' = _ :=
    run_propagateMerged hx' hterm' hwritable
  rw [hid] at hrun
  refine ⟨_, _, hrun, ?_, ?_⟩
  · have hself : x.id ∉ db'.mergeFill x' := fun hmem => by
      rw [← hid, mem_mergeFill_iff hx', hactive] at hmem
      cases hmem.1
    refine ⟨x', ?_, hactive⟩
    rw [Table.get?_update, ← hid, show db'.sessions.get? x'.id = some x' from Table.get?_key hx']
    simp [hid, hself]
  · intro y hy hysched hne hyterm
    have hy' : y ∈ db'.sessions := hstart.others y hy hysched hne
    -- the start changes none of the fields that the merge compares
    have hmerge : db'.Merges x' y ↔ db.Merges x y := by
      rw [Db.Merges, Db.Merges, hview, mergeView_congr hstart.schedules]
    have hfill : y.id ∈ db'.mergeFill x' ↔ db.Merges x y := by
      rw [mem_mergeFill_iff hy', hmerge, hsched, scheduleOf_congr hstart.schedules rfl]
      exact ⟨fun h => h.2.2, fun h => ⟨hysched, hyterm, h⟩⟩
    unfold Db.Running
    rw [Table.get?_update, show db'.sessions.get? y.id = some y from Table.get?_key hy']
    by_cases hm : db.Merges x y
    · simp [hfill.mpr hm, hm, Session.fillPresent]
    · simp [mt hfill.mp hm, hm, hysched]

/-- What may have happened before the session itself is saved: scheduled sessions are
as they were. -/
structure SiblingsKept (db db₁ : Db) : Prop where
  schedules : db₁.schedules = db.schedules
  terms : db₁.terms = db.terms
  scheduled : ∀ y ∈ db.sessions, y.status = .scheduled → y ∈ db₁.sessions

theorem SiblingsKept.refl (db : Db) : SiblingsKept db db := ⟨rfl, rfl, fun _ hy _ => hy⟩

/-- Saving the started session, beside audit rows, leaves every other session. -/
theorem SiblingsKept.started {db₁ : Db} (hdb : SiblingsKept db db₁) (hx : x ∈ db.sessions)
    (hsched : x.status = .scheduled) {f : Session → Session} (hf : ∀ s, key (f s) = key s)
    (hactive : (f x).status = .active) (hview : db.mergeView (f x) = db.mergeView x)
    (hschedule : (f x).schedule = x.schedule) (audit : List AuditLog) :
    Started db x { db₁ with
      sessions := db₁.sessions.update (fun s => s.id == x.id) f hf
      audit := audit } where
  schedules := hdb.schedules
  terms := hdb.terms
  self := by
    refine ⟨f x, ?_, hactive, ?_, hschedule⟩
    · exact Table.mem_update_of_pos hf (hdb.scheduled x hx hsched) (beq_self_eq_true x.id)
    · exact (mergeView_congr hdb.schedules (f x)).trans hview
  others y hy hysched hne :=
    Table.mem_update_of_neg hf (hdb.scheduled y hy hysched) (beq_eq_false_iff_ne.mpr hne)

/-- Completing the session a handover takes the room from touches no scheduled one. -/
theorem run_completePrior (db : Db) (now : ℤ) (prior : Option ℕ) :
    ∃ db₁, (completePrior now (prior.bind db.activeSession)).run db = (.ok (), db₁) ∧
      SiblingsKept db db₁ ∧ db₁.audit = db.audit := by
  cases hprior : prior.bind db.activeSession with
  | none => exact ⟨db, rfl, .refl db, rfl⟩
  | some p =>
    by_cases hactive : p.status = .active
    · rw [completePrior, if_pos hactive]
      refine ⟨_, rfl, ⟨rfl, rfl, fun y hy hysched => ?_⟩, rfl⟩
      -- the prior session is the running row with its key, so it is not `y`
      have hp : p ∈ db.sessions := by
        obtain ⟨pk, -, hpk⟩ := Option.bind_eq_some_iff.mp hprior
        obtain ⟨term, -, hget⟩ := Option.bind_eq_some_iff.mp hpk
        exact (Table.get?_eq_some_iff.mp (Option.filter_eq_some_iff.mp hget).1).1
      have hne : y.id ≠ p.id := fun heq => by
        rw [Table.eq_of_key_eq hy hp heq, hactive] at hysched
        cases hysched
      exact Table.mem_update_of_neg (Session.key_checkOut now) hy (beq_eq_false_iff_ne.mpr hne)
    · rw [completePrior, if_neg hactive]
      exact ⟨db, rfl, .refl db, rfl⟩

/-- A check-in starts the session and, of the scheduled sessions of its term, exactly
those that merge with it. -/
theorem run_checkIn (hx : x ∈ db.sessions) (hsched : x.status = .scheduled) {t : AcademicTerm}
    (hterm : db.terms.table.get? (db.scheduleOf x).term = some t) (hwritable : t.status ≠ .archived)
    (c : CheckIn) :
    ∃ db'', (c.prog x).run db = (.ok (), db'') ∧ db''.Running x.id ∧
      ∀ y ∈ db.sessions, y.status = .scheduled → y.id ≠ x.id →
        (db.scheduleOf y).term = (db.scheduleOf x).term → (db''.Running y.id ↔ db.Merges x y) := by
  cases c with
  | scan user room method now =>
    obtain ⟨fill, db'', hrun, hpost⟩ := run_propagate_started now (some user)
      ((SiblingsKept.refl db).started hx hsched (Session.key_checkIn now method) rfl rfl rfl _)
      hterm hwritable
    refine ⟨db'', Prog.run_atomic_of_ok ?_, hpost⟩
    exact Prog.run_bind_of_ok hrun
  | handover user prior room now =>
    obtain ⟨db₁, hprior, hdb, -⟩ := run_completePrior db now prior
    obtain ⟨fill, db'', hrun, hpost⟩ := run_propagate_started now (some user)
      (hdb.started hx hsched
        (Session.key_handOver now ((prior.bind db.activeSession).map Session.id)) rfl rfl rfl _)
      hterm hwritable
    refine ⟨db'', Prog.run_atomic_of_ok ?_, hpost⟩
    rw [Prog.run_select_bind, Prog.run_bind_of_ok hprior]
    exact Prog.run_bind_of_ok hrun
  | onlineStart user link started =>
    obtain ⟨fill, db'', hrun, hpost⟩ := run_propagate_started started (some user)
      ((SiblingsKept.refl db).started hx hsched (Session.key_startOnline started link) rfl rfl rfl _)
      hterm hwritable
    refine ⟨db'', Prog.run_atomic_of_ok ?_, hpost⟩
    exact Prog.run_bind_of_ok hrun
  | verify user scannedAt now =>
    obtain ⟨fill, db'', hrun, hpost⟩ := run_propagate_started scannedAt (some user)
      ((SiblingsKept.refl db).started hx hsched (Session.key_verifyOnline scannedAt) rfl rfl rfl
        db.audit) hterm hwritable
    refine ⟨db'', Prog.run_atomic_of_ok ?_, hpost⟩
    exact Prog.run_bind_of_ok hrun

/-- A sweep leaves a running session running. -/
theorem running_sweepNoShows {pk : ℕ} (h : db.Running pk) (now : ℤ) :
    ((sweepNoShows now).run db).2.Running pk := by
  obtain ⟨s, hget, hactive⟩ := h
  have hnot : db.sweepable now s = false := by
    unfold Db.sweepable
    split
    · rfl
    · simp [hactive]
  refine ⟨s, ?_, hactive⟩
  rw [run_sweepNoShows, Table.get?_update, hget]
  simp [hnot]

end

/-! ### The groups a check-in covers -/

/-- Whichever way and on whichever member it is made, a check-in covers the whole
group, and so starts the same members, exactly when any two members merge. -/
theorem checkIn_covers_iff {db : Db} {group : List Session} (hgroup : db.MergedGroup group)
    (c : CheckIn) :
    ((∀ x ∈ group, ((c.prog x).run db).2.Covers group) ∧
      ∀ x ∈ group, ∀ x' ∈ group, ∀ y ∈ group,
        (((c.prog x).run db).2.Running y.id ↔ ((c.prog x').run db).2.Running y.id)) ↔
      ∀ x ∈ group, ∀ y ∈ group, x.id ≠ y.id → db.Merges x y := by
  -- a check-in on `x`, seen from a member `y`
  have hone : ∀ x ∈ group, ∀ y ∈ group,
      (((c.prog x).run db).2.Running y.id ↔ x.id = y.id ∨ db.Merges x y) := by
    intro x hx y hy
    obtain ⟨t, hterm, hwritable⟩ := hgroup.writable x hx
    obtain ⟨db'', hrun, hself, hothers⟩ :=
      run_checkIn (hgroup.stored x hx) (hgroup.scheduled x hx) hterm hwritable c
    rw [hrun]
    by_cases hid : x.id = y.id
    · rw [← hid]
      exact ⟨fun _ => .inl rfl, fun _ => hself⟩
    · rw [hothers y (hgroup.stored y hy) (hgroup.scheduled y hy) (Ne.symm hid)
        (hgroup.term y hy x hx)]
      exact ⟨.inr, fun h => h.resolve_left hid⟩
  constructor
  · rintro ⟨hcovers, -⟩ x hx y hy hne
    have hrunning := (hcovers x hx y hy).1
    exact ((hone x hx y hy).mp hrunning).resolve_left hne
  · intro hpair
    have hall : ∀ x ∈ group, ∀ y ∈ group, ((c.prog x).run db).2.Running y.id := by
      intro x hx y hy
      refine (hone x hx y hy).mpr ?_
      by_cases hid : x.id = y.id
      · exact .inl hid
      · exact .inr (hpair x hx y hy hid)
    refine ⟨fun x hx y hy => ⟨hall x hx y hy, fun now => ?_⟩, fun x hx x' hx' y hy => ?_⟩
    · exact running_sweepNoShows (hall x hx y hy) now
    · exact ⟨fun _ => hall x' hx' y hy, fun _ => hall x hx y hy⟩

namespace Campus

/-- A session of the example term on that Monday at nine. -/
def section9 (id schedule room : ℕ) : Session :=
  ⟨id, schedule, 1, room, monday, wallClock monday 9 0 0, wallClock monday 10 0 0, .scheduled,
    none, none, none, none, none, none, none, "", none, false, "", none, ""⟩

/-- Three sections of one teacher: the first two share a room, the last two a course. -/
def sections : List Session := [section9 1 1 1, section9 2 2 1, section9 3 3 2]

/-- The database with the three sections. -/
def merged : Db :=
  { timetable with
    schedules := ⟨[
      ⟨1, 1, "CS1", "A", 30, 1, 1, 0, hour 9, hour 10, .f2f, .active⟩,
      ⟨2, 1, "CS2", "B", 30, 1, 1, 0, hour 9, hour 10, .f2f, .active⟩,
      ⟨3, 1, "CS2", "C", 30, 1, 2, 0, hour 9, hour 10, .f2f, .active⟩], by decide⟩
    sessions := ⟨sections, by decide⟩ }

/-- The two sections in the first room. -/
def roommates : List Session := [section9 1 1 1, section9 2 2 1]

/-- A part of the sections that is connected is a merged group. -/
theorem mergedGroup_of_connected {group : List Session} (hsub : ∀ x ∈ group, x ∈ sections)
    (hconn : ∀ x ∈ group, ∀ y ∈ group,
      Relation.ReflTransGen (fun a b => a ∈ group ∧ b ∈ group ∧ merged.Merges a b) x y) :
    merged.MergedGroup group where
  stored := hsub
  scheduled x hx := (by decide : ∀ x ∈ sections, x.status = .scheduled) x (hsub x hx)
  faculty x hx y hy :=
    (by decide : ∀ x ∈ sections, ∀ y ∈ sections, x.faculty = y.faculty) x (hsub x hx) y (hsub y hy)
  start x hx y hy :=
    (by decide : ∀ x ∈ sections, ∀ y ∈ sections, x.scheduledStart = y.scheduledStart)
      x (hsub x hx) y (hsub y hy)
  term x hx y hy :=
    (by decide : ∀ x ∈ sections, ∀ y ∈ sections,
      (merged.scheduleOf x).term = (merged.scheduleOf y).term) x (hsub x hx) y (hsub y hy)
  writable x hx :=
    ⟨Campus.term, (by decide : ∀ x ∈ sections,
      merged.terms.table.get? (merged.scheduleOf x).term = some Campus.term) x (hsub x hx), by decide⟩
  connected := hconn

theorem mergedGroup_roommates : merged.MergedGroup roommates := by
  refine mergedGroup_of_connected (by decide) fun x hx y hy => ?_
  have hvia : ∀ x ∈ roommates, ∀ y ∈ roommates, x = y ∨ merged.Merges x y := by decide
  rcases hvia x hx y hy with rfl | h
  · exact .refl
  · exact .single ⟨hx, hy, h⟩

theorem mergedGroup_sections : merged.MergedGroup sections := by
  refine mergedGroup_of_connected (fun _ hx => hx) fun x hx y hy => ?_
  have hvia : ∀ x ∈ sections, ∀ y ∈ sections, x = y ∨ merged.Merges x y ∨
      (merged.Merges x (section9 2 2 1) ∧ merged.Merges (section9 2 2 1) y) := by decide
  have hmid : section9 2 2 1 ∈ sections := by decide
  rcases hvia x hx y hy with rfl | h | ⟨h, h'⟩
  · exact .refl
  · exact .single ⟨hx, hy, h⟩
  · exact .tail (.single ⟨hx, hmid, h⟩) ⟨hmid, hy, h'⟩

end Campus

/-- The first two sections share their room, so a scan of either starts both. -/
theorem checkIn_covers_roommates :
    Campus.merged.MergedGroup Campus.roommates ∧ ∀ x ∈ Campus.roommates,
      (((CheckIn.scan 1 default .qrScan (wallClock Campus.monday 9 0 0)).prog x).run
        Campus.merged).2.Covers Campus.roommates :=
  ⟨Campus.mergedGroup_roommates,
    ((checkIn_covers_iff Campus.mergedGroup_roommates _).mpr (by decide)).1⟩

/-- A scan of the first section leaves the third scheduled, and the sweep at half past
nine marks it absent. -/
theorem checkIn_leaves_third_section :
    ¬ ∀ (db : Db) (group : List Session), db.MergedGroup group → ∀ (c : CheckIn),
      ∀ x ∈ group, ((c.prog x).run db).2.Covers group := by
  intro h
  have hcovers := h _ _ Campus.mergedGroup_sections
    (.scan 1 default .qrScan (wallClock Campus.monday 9 0 0)) (Campus.section9 1 1 1) (by decide)
  obtain ⟨-, hsweep⟩ := hcovers (Campus.section9 3 3 2) (by decide)
  obtain ⟨s, hget, hactive⟩ := hsweep (wallClock Campus.monday 9 30 0)
  have habsent : ((((sweepNoShows (wallClock Campus.monday 9 30 0)).run
      (((CheckIn.scan 1 default .qrScan (wallClock Campus.monday 9 0 0)).prog
        (Campus.section9 1 1 1)).run Campus.merged).2).2.sessions.get?
      (Campus.section9 3 3 2).id).map Session.status) = some .absent := by
    decide +kernel
  rw [hget, Option.map_some, hactive] at habsent
  cases habsent

end FluxTrack
