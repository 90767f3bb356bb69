import FluxTrack.Data.First
import FluxTrack.Theorems.Coverage

/-!
# The session a checker verifies

`_room_session_state` chooses a session of the room and looks at its modality afterwards, and
`resolve_checker_scan` takes every status it does not list for a running one. So a cancelled
class can be verified while its time lasts, and an online class that is running hides a class
that is held in the room.

## Main definitions

* `Db.roomDay` — the sessions of a room that are looked at
* `Db.TargetsRunning` — a scan is about a running class, and about one if there is one

## Main results

* `targetsRunning_iff` — when it is
-/

namespace FluxTrack

open Calendar Relational Process Search

/-- The sessions of a room on a date in a term that are not completed, by start. -/
def Db.roomDay (db : Db) (room : ℕ) (today : ℤ) (term : ℕ) : List Session :=
  (db.sessions.rows.filter fun s =>
    s.room == room && s.date == today && db.inTerm term s &&
      s.status != .completed).insertionSort fun a b => a.scheduledStart ≤ b.scheduledStart

/-- A running session of the active term that is held in the room on the date. -/
structure Db.RunsIn (db : Db) (room : ℕ) (today : ℤ) (s : Session) : Prop where
  stored : s ∈ db.sessions
  inRoom : s.room = room
  onDate : s.date = today
  inTerm : ∃ term, db.activeTerm = some term ∧ db.inTerm term.id s = true
  active : s.status = .active
  notOnline : db.effectiveModality s ≠ .online

/-- The decision on a checker's scan of a room. -/
def Db.checkerResolution (db : Db) (user : ℕ) (room : Room) (now today : ℤ) : CheckerResolution :=
  resolveCheckerScan (db.activeFloorIds user now) room.floor
    ((db.roomSessionState room.id now today).map db.sessionState)

/-- The scan of a room by a checker: a session that can be verified is running, and if a class
is running in the room then the scan is about such a class. -/
structure Db.TargetsRunning (db : Db) (user : ℕ) (room : Room) (now today : ℤ) : Prop where
  verifiable : ∀ pk, db.checkerResolution user room now today = ⟨.activeUnverified, some pk⟩ →
    ∃ s, db.sessions.get? pk = some s ∧ s.status = .active
  found : (∃ a, db.RunsIn room.id today a) →
    ∃ s, db.roomSessionState room.id now today = some s ∧ db.RunsIn room.id today s

section

variable {db : Db} {user : ℕ} {room : Room} {now today : ℤ} {term : AcademicTerm} {s : Session}

theorem mem_roomDay {term : ℕ} :
    s ∈ db.roomDay room.id today term ↔
      s ∈ db.sessions ∧ s.room = room.id ∧ s.date = today ∧ db.inTerm term s = true ∧
        s.status ≠ .completed := by
  rw [Db.roomDay, List.mem_insertionSort, List.mem_filter]
  simp only [Bool.and_eq_true, beq_iff_eq, bne_iff_ne, and_assoc]
  rfl

/-- The session is in its window, both ends included. -/
def Session.windowHolds (now : ℤ) (s : Session) : Prop :=
  s.scheduledStart ≤ now ∧ now ≤ s.scheduledEnd

theorem windowHolds_eq :
    Session.windowHolds now = fun s => s.scheduledStart ≤ now ∧ now ≤ s.scheduledEnd := rfl

/-- The session of the room: the first running one, without one the first in its window, and
none if that one is online. -/
theorem roomSessionState_eq_some_iff (hterm : db.activeTerm = some term) :
    db.roomSessionState room.id now today = some s ↔
      (First (fun t => t.status = .active) (db.roomDay room.id today term.id) s ∨
        ((∀ t ∈ db.roomDay room.id today term.id, t.status ≠ .active) ∧
          First (Session.windowHolds now) (db.roomDay room.id today term.id) s)) ∧
      db.effectiveModality s ≠ .online := by
  have hchoice : ((db.roomDay room.id today term.id).find? fun t => t.status == .active).or
      ((db.roomDay room.id today term.id).find? fun t =>
        decide (t.scheduledStart ≤ now) && decide (now ≤ t.scheduledEnd)) = some s ↔
      First (fun t => t.status = .active) (db.roomDay room.id today term.id) s ∨
        ((∀ t ∈ db.roomDay room.id today term.id, t.status ≠ .active) ∧
          First (Session.windowHolds now) (db.roomDay room.id today term.id) s) := by
    rw [find?_or_eq_some_iff, windowHolds_eq]
    simp only [beq_iff_eq, beq_eq_false_iff_ne, Bool.and_eq_true, decide_eq_true_eq]
  rw [← hchoice, Db.roomSessionState, hterm]
  simp only [Option.orElse_eq_orElse, Option.orElse_eq_or, Option.bind_eq_bind, Option.bind_some]
  constructor
  · intro h
    obtain ⟨t, ht, hres⟩ := Option.bind_eq_some_iff.mp h
    split at hres
    · cases hres
    · cases hres
      exact ⟨ht, ‹_›⟩
  · rintro ⟨ht, hmod⟩
    exact Option.bind_eq_some_iff.mpr ⟨s, ht, by rw [if_neg hmod]⟩

/-- A scan by a checker on duty that can be verified is about the session of the room, which
is neither scheduled nor absent nor verified. -/
theorem checkerResolution_eq_activeUnverified_iff {pk : ℕ} :
    db.checkerResolution user room now today = ⟨.activeUnverified, some pk⟩ ↔
      room.floor ∈ db.activeFloorIds user now ∧
      ∃ s, db.roomSessionState room.id now today = some s ∧ s.id = pk ∧
        s.status ≠ .scheduled ∧ s.status ≠ .absent ∧ db.verifiedByChecker s = false := by
  unfold Db.checkerResolution resolveCheckerScan
  by_cases hfloor : room.floor ∈ db.activeFloorIds user now
  · have hnonempty : (db.activeFloorIds user now).isEmpty = false :=
      List.isEmpty_eq_false_iff_exists_mem.mpr ⟨_, hfloor⟩
    have hcontains : (db.activeFloorIds user now).contains room.floor = true :=
      List.contains_iff_mem.mpr hfloor
    rw [hnonempty, hcontains]
    cases hstate : db.roomSessionState room.id now today with
    | none => simp
    | some s =>
      by_cases hsched : s.status = .scheduled
      · simp [Db.sessionState, hsched]
      · by_cases habsent : s.status = .absent
        · simp [Db.sessionState, habsent]
        · cases hverified : db.verifiedByChecker s <;>
            simp [Db.sessionState, hsched, habsent, hverified, hfloor]
  · have hcontains : (db.activeFloorIds user now).contains room.floor = false := by
      simpa using hfloor
    simp only [hcontains, Bool.not_false, if_true]
    split <;> simp [hfloor]

/-! ### A running class -/

theorem Db.RunsIn.mem_roomDay (h : db.RunsIn room.id today s) (hterm : db.activeTerm = some term) :
    s ∈ db.roomDay room.id today term.id := by
  obtain ⟨term', hsome, hin⟩ := h.inTerm
  rw [hterm, Option.some_inj] at hsome
  subst hsome
  exact FluxTrack.mem_roomDay.mpr ⟨h.stored, h.inRoom, h.onDate, hin, by rw [h.active]; decide⟩

theorem runsIn_of_first (hterm : db.activeTerm = some term)
    (hs : First (fun t => t.status = .active) (db.roomDay room.id today term.id) s)
    (hmod : db.effectiveModality s ≠ .online) : db.RunsIn room.id today s := by
  obtain ⟨hstored, hroom, hdate, hin, -⟩ := mem_roomDay.mp hs.mem
  exact ⟨hstored, hroom, hdate, ⟨term, hterm, hin⟩, hs.prop, hmod⟩

theorem found_of_first (hterm : db.activeTerm = some term)
    (hfirst : (∃ a, db.RunsIn room.id today a) →
      ∀ s, First (fun t => t.status = .active) (db.roomDay room.id today term.id) s →
        db.effectiveModality s ≠ .online)
    (hruns : ∃ a, db.RunsIn room.id today a) :
    ∃ s, db.roomSessionState room.id now today = some s ∧ db.RunsIn room.id today s := by
  obtain ⟨a, ha⟩ := hruns
  obtain ⟨s, hs⟩ := (exists_first_iff (p := fun t : Session => t.status = .active)).mpr
    ⟨a, ha.mem_roomDay hterm, ha.active⟩
  have hmod := hfirst ⟨a, ha⟩ s hs
  exact ⟨s, (roomSessionState_eq_some_iff hterm).mpr ⟨.inl hs, hmod⟩, runsIn_of_first hterm hs hmod⟩

theorem notOnline_of_targetsRunning (hterm : db.activeTerm = some term)
    (h : db.TargetsRunning user room now today) (hruns : ∃ a, db.RunsIn room.id today a)
    (hs : First (fun t => t.status = .active) (db.roomDay room.id today term.id) s) :
    db.effectiveModality s ≠ .online := by
  obtain ⟨t, hstate, -⟩ := h.found hruns
  obtain ⟨hchoice, hmod⟩ := (roomSessionState_eq_some_iff hterm).mp hstate
  rcases hchoice with ht | ⟨hidle, -⟩
  · rwa [hs.unique ht]
  · exact absurd hs.prop (hidle s hs.mem)

/-! ### A class that can be verified -/

theorem running_of_activeUnverified {pk : ℕ} (hterm : db.activeTerm = some term)
    (hcancelled : (∀ t ∈ db.roomDay room.id today term.id, t.status ≠ .active) →
      ∀ s, First (Session.windowHolds now) (db.roomDay room.id today term.id) s →
        s.status = .cancelled → db.effectiveModality s ≠ .online →
        db.verifiedByChecker s = false → room.floor ∉ db.activeFloorIds user now)
    (h : db.checkerResolution user room now today = ⟨.activeUnverified, some pk⟩) :
    ∃ s, db.sessions.get? pk = some s ∧ s.status = .active := by
  obtain ⟨hfloor, s, hstate, rfl, hsched, habsent, hverified⟩ :=
    checkerResolution_eq_activeUnverified_iff.mp h
  obtain ⟨hchoice, hmod⟩ := (roomSessionState_eq_some_iff hterm).mp hstate
  rcases hchoice with hs | ⟨hidle, hs⟩
  · exact ⟨s, Table.get?_key (mem_roomDay.mp hs.mem).1, hs.prop⟩
  · -- in its window, neither running nor completed: only a cancelled class is left
    have hcompleted := (mem_roomDay.mp hs.mem).2.2.2.2
    have hactive := hidle s hs.mem
    cases hstatus : s.status with
    | cancelled => exact absurd hfloor (hcancelled hidle s hs hstatus hmod hverified)
    | scheduled => exact absurd hstatus hsched
    | active => exact absurd hstatus hactive
    | completed => exact absurd hstatus hcompleted
    | absent => exact absurd hstatus habsent

theorem not_cancelled_of_targetsRunning (hterm : db.activeTerm = some term)
    (h : db.TargetsRunning user room now today)
    (hidle : ∀ t ∈ db.roomDay room.id today term.id, t.status ≠ .active)
    (hs : First (Session.windowHolds now) (db.roomDay room.id today term.id) s)
    (hmod : db.effectiveModality s ≠ .online) (hverified : db.verifiedByChecker s = false)
    (hfloor : room.floor ∈ db.activeFloorIds user now) : s.status ≠ .cancelled := by
  intro hcancelled
  have hstate : db.roomSessionState room.id now today = some s :=
    (roomSessionState_eq_some_iff hterm).mpr ⟨.inr ⟨hidle, hs⟩, hmod⟩
  have hres : db.checkerResolution user room now today = ⟨.activeUnverified, some s.id⟩ :=
    checkerResolution_eq_activeUnverified_iff.mpr ⟨hfloor, s, hstate, rfl,
      by rw [hcancelled]; decide, by rw [hcancelled]; decide, hverified⟩
  obtain ⟨t, ht, hactive⟩ := h.verifiable s.id hres
  have hget : db.sessions.get? s.id = some s := Table.get?_key (mem_roomDay.mp hs.mem).1
  rw [hget] at ht
  cases ht
  exact hidle s hs.mem hactive

end

/-- A checker's scan of a room is about a running class, and about one if there is one, iff the
first running class of the room, if any class held there is running, is not online; and, if
none is running, the first one in its window is not a cancelled class, neither online nor
verified, that is scanned by a checker on duty for the floor. -/
theorem targetsRunning_iff (db : Db) (user : ℕ) (room : Room) (now today : ℤ) :
    db.TargetsRunning user room now today ↔
      ∀ term, db.activeTerm = some term →
        ((∃ a, db.RunsIn room.id today a) →
          ∀ s, First (fun t => t.status = .active) (db.roomDay room.id today term.id) s →
            db.effectiveModality s ≠ .online) ∧
        ((∀ t ∈ db.roomDay room.id today term.id, t.status ≠ .active) →
          ∀ s, First (Session.windowHolds now) (db.roomDay room.id today term.id) s →
            s.status = .cancelled → db.effectiveModality s ≠ .online →
            db.verifiedByChecker s = false → room.floor ∉ db.activeFloorIds user now) := by
  cases hterm : db.activeTerm with
  | none =>
    -- without an active term no room has a session, and nothing is asked
    refine ⟨fun _ _ hsome => absurd hsome (Option.some_ne_none _).symm, fun _ => ⟨?_, ?_⟩⟩
    · intro pk h
      obtain ⟨-, s, hstate, -⟩ := checkerResolution_eq_activeUnverified_iff.mp h
      rw [Db.roomSessionState, hterm] at hstate
      cases hstate
    · rintro ⟨a, ha⟩
      obtain ⟨term, h, -⟩ := ha.inTerm
      rw [hterm] at h
      cases h
  | some term =>
    constructor
    · intro h term' hsome
      cases hsome
      exact ⟨fun hruns s hs => notOnline_of_targetsRunning hterm h hruns hs,
        fun hidle s hs hcancelled hmod hverified hfloor =>
          not_cancelled_of_targetsRunning hterm h hidle hs hmod hverified hfloor hcancelled⟩
    · intro h
      obtain ⟨hfirst, hcancelled⟩ := h term rfl
      exact ⟨fun pk hpk => running_of_activeUnverified hterm hcancelled hpk,
        fun hruns => found_of_first hterm hfirst hruns⟩

open Campus in
/-- After the Monday is called off, the checker of the floor may verify the class of the room. -/
theorem checker_verifies_cancelled :
    ¬ ∀ (rs : List Request) (user : ℕ) (room : Room) (now today : ℤ),
      ((World.start onDuty).run rs).db.TargetsRunning user room now today := by
  intro h
  have hres : ((World.start onDuty).run
      [.suspendClasses 1 monday monday "Typhoon" none none]).db.checkerResolution 7
        (onDuty.room 1) (wallClock monday 8 10 0) monday = ⟨.activeUnverified, some 2⟩ := by
    decide +kernel
  obtain ⟨s, hs, hactive⟩ := (h _ 7 (onDuty.room 1) _ _).verifiable 2 hres
  have hstatus : (((World.start onDuty).run
      [.suspendClasses 1 monday monday "Typhoon" none none]).db.sessions.get? 2).map
        Session.status = some .cancelled := by decide +kernel
  rw [hs, Option.map_some, hactive] at hstatus
  cases hstatus

end FluxTrack
