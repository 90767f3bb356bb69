import FluxTrack.Theorems.CheckerScans

/-!
# Ambiguous scans

The session of a queued scan that names none is the first one in the room whose window contains
the time of the scan. Windows are closed, so that of two classes back to back the earlier one is
taken at the instant between them, and of two that overlap the one that starts first. What the
lookup promises of ambiguous times it keeps exactly where there is no ambiguity.

## Main definitions

* `Db.InWindow` — the sessions that contain the time
* `Db.FailsClosed` — only the one session that contains the time is taken

## Main results

* `failsClosed_iff` — when that is so
-/

namespace FluxTrack

open Calendar Relational Process

/-- An in-person session of the room and the active term, dated on the local day of the time,
whose window contains it. -/
structure Db.InWindow (db : Db) (room : ℕ) (time : ScanTime) (s : Session) : Prop where
  stored : s ∈ db.sessions
  room : s.room = room
  term : ∃ term, db.activeTerm = some term ∧ db.inTerm term.id s = true
  inPerson : db.effectiveModality s ≠ .online
  date : s.date = localDate time.instant
  starts : s.scheduledStart ≤ time.instant
  ends : time.instant ≤ s.scheduledEnd

/-- A session is only returned if it is the one that contains the time. Of several none is, and
no queued scan that names no session is attached to one of them. -/
structure Db.FailsClosed (db : Db) (room : ℕ) (time : ScanTime) : Prop where
  unique : ∀ s, db.roomSessionAt room time = .ok (some s) →
    db.InWindow room time s ∧ ∀ t, db.InWindow room time t → t = s
  ambiguous : ∀ s t, db.InWindow room time s → db.InWindow room time t → s ≠ t →
    db.roomSessionAt room time = .ok none
  detached : ∀ s t, db.InWindow room time s → db.InWindow room time t → s ≠ t →
    ∀ user item now today r, item.session = .absent → db.replayRoom item = some r →
      r.id = room → item.time now = time.instant →
      ∀ v ∈ ((replayItem user item now today).run db).2.validations, v ∉ db.validations →
        ∀ u, db.InWindow room time u → v.session ≠ some u.id

section

variable {db : Db} {room : ℕ} {time : ScanTime} {s : Session}

/-- What is found contains the time. -/
theorem inWindow_of_roomSessionAtScan (h : db.roomSessionAtScan room time.instant = some s) :
    db.InWindow room time s := by
  cases hterm : db.activeTerm with
  | none =>
    rw [Db.roomSessionAtScan, hterm] at h
    cases h
  | some term =>
    rw [Db.roomSessionAtScan, hterm, Option.bind_eq_bind, Option.bind_some] at h
    have hperson := List.find?_some h
    obtain ⟨hstored, hsel⟩ := List.mem_filter.mp
      ((List.mem_insertionSort _).mp (List.mem_of_find?_eq_some h))
    simp only [Bool.and_eq_true, beq_iff_eq, decide_eq_true_eq] at hsel
    obtain ⟨⟨⟨hroom, hdate⟩, hin⟩, hstarts, hends⟩ := hsel
    exact ⟨hstored, hroom, ⟨term, hterm, hin⟩, bne_iff_ne.mp hperson, hdate, hstarts, hends⟩

/-- Where a session contains the time, one is found. -/
theorem roomSessionAtScan_ne_none (h : db.InWindow room time s) :
    db.roomSessionAtScan room time.instant ≠ none := by
  obtain ⟨term, hterm, hin⟩ := h.term
  rw [Db.roomSessionAtScan, hterm, Option.bind_eq_bind, Option.bind_some]
  intro hnone
  refine List.find?_eq_none.mp hnone s ((List.mem_insertionSort _).mpr ?_)
    (bne_iff_ne.mpr h.inPerson)
  refine List.mem_filter.mpr ⟨h.stored, ?_⟩
  simp only [Bool.and_eq_true, beq_iff_eq, decide_eq_true_eq]
  exact ⟨⟨⟨h.room, h.date⟩, hin⟩, h.starts, h.ends⟩

/-- The lookup fails closed exactly if at most one session contains the time. -/
theorem failsClosed_iff (db : Db) (room : ℕ) (time : ScanTime) :
    db.FailsClosed room time ↔
      ∀ s t, db.InWindow room time s → db.InWindow room time t → s = t := by
  constructor
  · intro h s t hs ht
    by_contra hne
    have hnone := h.ambiguous s t hs ht hne
    rw [Db.roomSessionAt] at hnone
    split at hnone
    · cases hnone
    · exact roomSessionAtScan_ne_none hs (Except.ok.inj hnone)
  · intro h
    refine ⟨fun s hs => ?_, fun s t hs ht hne => absurd (h s t hs ht) hne,
      fun s t hs ht hne => absurd (h s t hs ht) hne⟩
    rw [Db.roomSessionAt] at hs
    split at hs
    · cases hs
    · have hwindow := inWindow_of_roomSessionAtScan (Except.ok.inj hs)
      exact ⟨hwindow, fun t ht => h t s ht hwindow⟩

end

namespace Campus

/-- A class in the first room on that Monday, for an hour. -/
def anHourFrom (id schedule hour : ℕ) : Session :=
  ⟨id, schedule, schedule, 1, monday, wallClock monday hour 0 0, wallClock monday (hour + 1) 0 0,
    .scheduled, none, none, none, none, none, none, none, "", none, false, "", none, ""⟩

/-- Two classes in the first room, back to back. -/
def backToBack : Db :=
  { timetable with sessions := ⟨[anHourFrom 1 2 8, anHourFrom 2 1 9], by decide⟩ }

/-- Nine o'clock by a clock that gives its offset. -/
def nineByClock : ScanTime := .aware (wallClock monday 9 0 0 + manila.offset) manila.offset

theorem inWindow_backToBack {s : Session} (hs : s ∈ backToBack.sessions.rows) :
    backToBack.InWindow 1 nineByClock s := by
  have hall : ∀ s ∈ backToBack.sessions.rows, s.room = 1 ∧ backToBack.inTerm term.id s = true ∧
      backToBack.effectiveModality s ≠ .online ∧ s.date = localDate nineByClock.instant ∧
      s.scheduledStart ≤ nineByClock.instant ∧ nineByClock.instant ≤ s.scheduledEnd := by decide
  obtain ⟨hroom, hin, hperson, hdate, hstarts, hends⟩ := hall s hs
  exact ⟨hs, hroom, ⟨term, by decide, hin⟩, hperson, hdate, hstarts, hends⟩

end Campus

open Campus in
/-- At nine o'clock the room has a class that ends and one that starts, and the scan is taken to
be about the first. -/
theorem scan_attached_to_first :
    ¬ ∀ (db : Db) (room : ℕ) (time : ScanTime), db.FailsClosed room time := by
  intro h
  have hnone := (h backToBack 1 nineByClock).ambiguous (anHourFrom 1 2 8) (anHourFrom 2 1 9)
    (inWindow_backToBack (by decide)) (inWindow_backToBack (by decide)) (by decide)
  have hfound : backToBack.roomSessionAt 1 nineByClock = .ok (some (anHourFrom 1 2 8)) := by
    decide
  rw [hfound] at hnone
  cases hnone

end FluxTrack
