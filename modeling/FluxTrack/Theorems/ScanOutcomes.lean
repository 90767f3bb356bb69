import FluxTrack.Data.First
import FluxTrack.System

/-!
# What a scan answers

The outcomes of `resolve_faculty_scan` as conditions on the list of sessions. The two
searches of the resolver, for a running session and for one whose window is open, stop at
their first hit. The second prefers the scanned room, so a check-in is decided by the
sessions of that room alone; the first does not, so a session that runs in another room
hides one that runs in the scanned room.

## Main definitions

* `OpenInRoom` — a scheduled session of the room whose check-in window is open
* `ScanCandidate` — the session a check-in, an absence or a handover is about

## Main results

* `resolveFacultyScan_exact` — the outcomes that change a session
* `rescan_checksOut_iff` — when the scan of a room with a running session ends one
-/

namespace FluxTrack

open Calendar Search

/-- A scheduled session in the room with `scheduled_start - open <= now <= scheduled_end`. -/
structure OpenInRoom (room : ℕ) (now openMin : ℤ) (s : Session) : Prop where
  scheduled : s.status = .scheduled
  inRoom : s.room = room
  opened : s.scheduledStart - openMin * minute ≤ now
  notOver : now ≤ s.scheduledEnd

theorem openInRoom_iff {room : ℕ} {now openMin : ℤ} {s : Session} :
    OpenInRoom room now openMin s ↔ inWindow now openMin s = true ∧ s.room = room := by
  simp only [inWindow, Bool.and_eq_true, beq_iff_eq, decide_eq_true_eq]
  constructor
  · intro h
    exact ⟨⟨h.scheduled, h.opened, h.notOver⟩, h.inRoom⟩
  · rintro ⟨⟨hsched, hopen, hover⟩, hroom⟩
    exact ⟨hsched, hroom, hopen, hover⟩

/-- The session a check-in is about: the first open one in the scanned room, not held online,
of a faculty member none of whose sessions is running. -/
structure ScanCandidate (modality : Session → Modality) (room : ℕ) (now openMin : ℤ)
    (sessions : List Session) (s : Session) : Prop where
  noneActive : ∀ t ∈ sessions, t.status ≠ .active
  first : First (OpenInRoom room now openMin) sessions s
  notOnline : modality s ≠ .online

section

variable {modality : Session → Modality} {room : ℕ} {occupying : Option ℕ}
  {now graceMin earlyEndMin openMin : ℤ} {sessions : List Session} {s : Session} {r : Resolution}

/-- The candidate is the first open session of the room, and without one the first open
session anywhere. -/
theorem windowCandidate_eq_some_iff :
    windowCandidate room now openMin sessions = some s ↔
      First (OpenInRoom room now openMin) sessions s ∨
        ((∀ t ∈ sessions, ¬ OpenInRoom room now openMin t) ∧
          First (fun t => inWindow now openMin t = true) sessions s) := by
  have hopen : OpenInRoom room now openMin =
      fun t => inWindow now openMin t = true ∧ t.room = room := by
    ext t
    exact openInRoom_iff
  rw [windowCandidate, List.head?_filter, List.find?_filter, find?_or_eq_some_iff, hopen]
  simp only [decide_eq_true_eq, decide_eq_false_iff_not, beq_iff_eq]

/-- A candidate in the scanned room is the first open session of that room. -/
theorem first_of_windowCandidate (h : windowCandidate room now openMin sessions = some s)
    (hroom : s.room = room) : First (OpenInRoom room now openMin) sessions s := by
  rcases windowCandidate_eq_some_iff.mp h with h | ⟨hnone, hfirst⟩
  · exact h
  · exact absurd (openInRoom_iff.mpr ⟨hfirst.prop, hroom⟩) (hnone s hfirst.mem)

/-- With the room and the modality settled, grace and then the occupant decide. -/
theorem resolveCandidate_of_inRoom (hmod : modality s ≠ .online) (hroom : s.room = room) :
    resolveCandidate modality room occupying now graceMin s =
      if isNoShowPastGrace s.scheduledStart now graceMin then ⟨.absent, some s.id, none⟩
      else if occupying.isSome then ⟨.roomOccupied, some s.id, occupying⟩
      else ⟨.checkedIn, some s.id, none⟩ := by
  rw [resolveCandidate, if_neg hmod, if_neg (not_not.mpr hroom)]

theorem resolveFacultyScan_of_candidate (h : ScanCandidate modality room now openMin sessions s) :
    resolveFacultyScan modality room occupying now graceMin earlyEndMin openMin sessions =
      resolveCandidate modality room occupying now graceMin s := by
  have hnone : (sessions.find? fun t => t.status == .active) = none :=
    List.find?_eq_none.mpr fun t ht => by simpa using h.noneActive t ht
  have hwindow : windowCandidate room now openMin sessions = some s :=
    windowCandidate_eq_some_iff.mpr (.inl h.first)
  rw [resolveFacultyScan, hnone, hwindow]

@[simp] theorem session_resolveCandidate (s : Session) :
    (resolveCandidate modality room occupying now graceMin s).session = some s.id := by
  unfold resolveCandidate
  split_ifs <;> rfl

@[simp] theorem session_resolveActive (s : Session) :
    (resolveActive room now earlyEndMin s).session = some s.id := by
  unfold resolveActive
  split_ifs <;> rfl

/-- A check-in, an absence and a handover are decided about the candidate. -/
theorem candidate_of_outcome
    (h : resolveFacultyScan modality room occupying now graceMin earlyEndMin openMin sessions = r)
    (ho : r.outcome = .checkedIn ∨ r.outcome = .absent ∨ r.outcome = .roomOccupied) :
    ∃ s, ScanCandidate modality room now openMin sessions s ∧
      resolveCandidate modality room occupying now graceMin s = r := by
  unfold resolveFacultyScan at h
  cases hactive : sessions.find? fun t => t.status == .active with
  | some a =>
    rw [hactive] at h
    rcases @resolveActive_cases room now earlyEndMin a with
      heq | heq | heq <;> simp [← h, heq] at ho
  | none =>
    rw [hactive] at h
    have hidle : ∀ t ∈ sessions, t.status ≠ .active := by simpa using List.find?_eq_none.mp hactive
    cases hwindow : windowCandidate room now openMin sessions with
    | none =>
      rw [hwindow] at h
      rcases @resolveNone_cases room now openMin sessions with
        ⟨t, -, -, heq⟩ | heq <;> simp [← h, heq] at ho
    | some s =>
      rw [hwindow] at h
      change resolveCandidate modality room occupying now graceMin s = r at h
      -- an online class and one in another room have outcomes of their own
      by_cases hmod : modality s = .online
      · rw [resolveCandidate, if_pos hmod] at h
        simp [← h] at ho
      · by_cases hroom : s.room = room
        · exact ⟨s, ⟨hidle, first_of_windowCandidate hwindow hroom, hmod⟩, h⟩
        · rw [resolveCandidate, if_neg hmod, if_pos hroom] at h
          simp [← h] at ho

/-! ### The outcomes that change a session -/

/-- A scan checks in exactly the candidate that is within grace, when nobody holds the room. -/
theorem checkedIn_iff {pk : ℕ} :
    resolveFacultyScan modality room occupying now graceMin earlyEndMin openMin sessions =
        ⟨.checkedIn, some pk, none⟩ ↔
      ∃ s, s.id = pk ∧ ScanCandidate modality room now openMin sessions s ∧
        now ≤ s.scheduledStart + graceMin * minute ∧ occupying = none := by
  constructor
  · intro h
    obtain ⟨s, hs, hres⟩ := candidate_of_outcome h (.inl rfl)
    rw [resolveCandidate_of_inRoom hs.notOnline hs.first.prop.inRoom] at hres
    split at hres
    · cases hres
    · rename_i hgrace
      split at hres
      · cases hres
      · rename_i hoccupied
        cases hres
        rw [isNoShowPastGrace_iff, not_lt] at hgrace
        exact ⟨s, rfl, hs, hgrace, by simpa using hoccupied⟩
  · rintro ⟨s, rfl, hs, hgrace, rfl⟩
    have hnot : ¬ isNoShowPastGrace s.scheduledStart now graceMin = true :=
      isNoShowPastGrace_iff.not.mpr (not_lt.mpr hgrace)
    rw [resolveFacultyScan_of_candidate hs,
      resolveCandidate_of_inRoom hs.notOnline hs.first.prop.inRoom, if_neg hnot]
    rfl

/-- A scan answers absent only for a candidate past grace. -/
theorem absent_of_resolveFacultyScan
    (h : resolveFacultyScan modality room occupying now graceMin earlyEndMin openMin sessions = r)
    (ho : r.outcome = .absent) :
    ∃ s, r.session = some s.id ∧ ScanCandidate modality room now openMin sessions s ∧
      isNoShowPastGrace s.scheduledStart now graceMin = true := by
  obtain ⟨s, hs, hres⟩ := candidate_of_outcome h (.inr (.inl ho))
  rw [resolveCandidate_of_inRoom hs.notOnline hs.first.prop.inRoom] at hres
  split at hres
  · rename_i hgrace
    exact ⟨s, by rw [← hres], hs, hgrace⟩
  · split at hres <;> simp [← hres] at ho

/-- A scan asks for a handover only for a candidate within grace whose room is held. -/
theorem roomOccupied_of_resolveFacultyScan
    (h : resolveFacultyScan modality room occupying now graceMin earlyEndMin openMin sessions = r)
    (ho : r.outcome = .roomOccupied) :
    ∃ s, r.session = some s.id ∧ ScanCandidate modality room now openMin sessions s ∧
      now ≤ s.scheduledStart + graceMin * minute ∧ occupying.isSome = true := by
  obtain ⟨s, hs, hres⟩ := candidate_of_outcome h (.inr (.inr ho))
  rw [resolveCandidate_of_inRoom hs.notOnline hs.first.prop.inRoom] at hres
  split at hres
  · simp [← hres] at ho
  · rename_i hgrace
    rw [isNoShowPastGrace_iff, not_lt] at hgrace
    split at hres
    · exact ⟨s, by rw [← hres], hs, hgrace, ‹_›⟩
    · simp [← hres] at ho

/-- What a scan applies at once to a session, it applies to one of the scanned room. -/
theorem inRoom_of_resolveFacultyScan
    (h : resolveFacultyScan modality room occupying now graceMin earlyEndMin openMin sessions = r)
    (ho : r.outcome = .checkedIn ∨ r.outcome = .absent ∨ r.outcome = .checkedOut) :
    ∃ s ∈ sessions, r.session = some s.id ∧ s.room = room := by
  have hcandidate : r.outcome = .checkedIn ∨ r.outcome = .absent →
      ∃ s ∈ sessions, r.session = some s.id ∧ s.room = room := by
    intro ho
    obtain ⟨s, hs, hres⟩ := candidate_of_outcome h (ho.imp_right .inl)
    exact ⟨s, hs.first.mem, by rw [← hres, session_resolveCandidate], hs.first.prop.inRoom⟩
  rcases ho with ho | ho | ho
  · exact hcandidate (.inl ho)
  · exact hcandidate (.inr ho)
  · -- only a running session is checked out, and only in its own room
    rcases resolveFacultyScan_cases h with ⟨s, hs, -, hres⟩ | ⟨s, -, -, hres⟩ | hres
    · by_cases hroom : s.room = room
      · exact ⟨s, hs, by rw [← hres, session_resolveActive], hroom⟩
      · rw [resolveActive, if_neg hroom] at hres
        simp [← hres] at ho
    · rcases @resolveCandidate_cases modality room occupying now graceMin s with
        heq | heq | ⟨heq, -⟩ | ⟨heq, -⟩ | heq <;> simp [← hres, heq] at ho
    · rcases @resolveNone_cases room now openMin sessions with
        ⟨t, -, -, heq⟩ | heq <;> simp [← hres, heq] at ho

/-- The outcomes of a scan that change a session. A check-in: no session of the faculty member
is running, the session is the first scheduled one in the scanned room whose window is open,
it is not online and within grace, and nobody holds the room. An absence: that session is past
grace, as the sweep finds it unless the calendar excuses it. A handover: the conditions of a
check-in, except the occupant. What is applied without a confirmation is about a session of
the scanned room. -/
theorem resolveFacultyScan_exact (modality : Session → Modality) (room : ℕ)
    (occupying : Option ℕ) (now graceMin earlyEndMin openMin : ℤ) (sessions : List Session) :
    let r := resolveFacultyScan modality room occupying now graceMin earlyEndMin openMin sessions
    (∀ pk, r = ⟨.checkedIn, some pk, none⟩ ↔
      ∃ s, s.id = pk ∧ ScanCandidate modality room now openMin sessions s ∧
        now ≤ s.scheduledStart + graceMin * minute ∧ occupying = none) ∧
    (r.outcome = .absent →
      ∃ s, r.session = some s.id ∧ ScanCandidate modality room now openMin sessions s ∧
        isNoShowPastGrace s.scheduledStart now graceMin = true ∧
        ∀ floor building excused,
          SweepCandidate.due ⟨s, floor, building⟩ now graceMin excused =
            !excused s.date building) ∧
    (r.outcome = .roomOccupied →
      ∃ s, r.session = some s.id ∧ ScanCandidate modality room now openMin sessions s ∧
        now ≤ s.scheduledStart + graceMin * minute ∧ occupying.isSome = true) ∧
    (r.outcome = .checkedIn ∨ r.outcome = .absent ∨ r.outcome = .checkedOut →
      ∃ s ∈ sessions, r.session = some s.id ∧ s.room = room) := by
  intro r
  refine ⟨fun pk => checkedIn_iff, ?absent, roomOccupied_of_resolveFacultyScan rfl,
    inRoom_of_resolveFacultyScan rfl⟩
  case absent =>
    intro ho
    obtain ⟨s, hsession, hs, hgrace⟩ := absent_of_resolveFacultyScan rfl ho
    refine ⟨s, hsession, hs, hgrace, ?_⟩
    intro floor building excused
    rw [SweepCandidate.due, hgrace, Bool.true_and]

/-! ### Scanning the room again -/

/-- The scan ends a session that is running in the scanned room. -/
def ChecksOut (room : ℕ) (sessions : List Session) (r : Resolution) : Prop :=
  ∃ s ∈ sessions, s.status = .active ∧ s.room = room ∧
    (r = ⟨.checkedOut, some s.id, none⟩ ∨ r = ⟨.earlyEnd, some s.id, none⟩)

/-- The first running session decides. -/
theorem resolveFacultyScan_of_active (h : First (fun t => t.status = .active) sessions s) :
    resolveFacultyScan modality room occupying now graceMin earlyEndMin openMin sessions =
      resolveActive room now earlyEndMin s := by
  have hfind : (sessions.find? fun t => t.status == .active) = some s := by
    rw [find?_eq_some_iff_first]
    simpa only [beq_iff_eq] using h
  rw [resolveFacultyScan, hfind]

/-- A running session is ended in its own room only. -/
theorem resolveActive_ends_iff :
    (resolveActive room now earlyEndMin s = ⟨.checkedOut, some s.id, none⟩ ∨
      resolveActive room now earlyEndMin s = ⟨.earlyEnd, some s.id, none⟩) ↔ s.room = room := by
  unfold resolveActive
  split_ifs with hroom <;> simp [hroom]

end

/-- The scan of a room in which a session of the faculty member is running ends one of that
room iff the first running session of the list is in that room. -/
theorem rescan_checksOut_iff (modality : Session → Modality) (room : ℕ) (occupying : Option ℕ)
    (now graceMin earlyEndMin openMin : ℤ) (sessions : List Session)
    (h : ∃ s ∈ sessions, s.status = .active ∧ s.room = room) :
    ChecksOut room sessions
        (resolveFacultyScan modality room occupying now graceMin earlyEndMin openMin sessions) ↔
      ∀ s, First (fun t => t.status = .active) sessions s → s.room = room := by
  obtain ⟨t, ht, hactive, -⟩ := h
  obtain ⟨a, ha⟩ := (exists_first_iff (p := fun s : Session => s.status = .active)).mpr
    ⟨t, ht, hactive⟩
  rw [resolveFacultyScan_of_active ha]
  constructor
  · rintro ⟨s, -, -, hroom, hres⟩ b hb
    rw [hb.unique ha]
    -- the session that is ended has the key of the first one, which is then in its room
    have hid : a.id = s.id := by
      have hsession := @session_resolveActive room now earlyEndMin a
      rcases hres with hres | hres <;> rw [hres] at hsession <;>
        exact (Option.some_inj.mp hsession).symm
    rw [← hid] at hres
    exact resolveActive_ends_iff.mp hres
  · intro hfirst
    exact ⟨a, ha.mem, ha.prop, hfirst a ha, resolveActive_ends_iff.mpr (hfirst a ha)⟩

namespace Campus

/-- Two sections of one course and one teacher at nine, in two rooms. -/
def sectionPair : Db :=
  { timetable with
    rooms := ⟨[⟨1, 1, "A101", "qr-1", "100001", false, ""⟩,
      ⟨2, 1, "A102", "qr-2", "100002", false, ""⟩],
      List.nodup_cons.mpr ⟨by decide, List.nodup_singleton _⟩⟩
    schedules := ⟨[
      ⟨1, 1, "CS2", "B", 30, 1, 1, 0, hour 9, hour 10, .f2f, .active⟩,
      ⟨2, 1, "CS2", "C", 30, 1, 2, 0, hour 9, hour 10, .f2f, .active⟩], by decide⟩ }

/-- The teacher has checked in for one of the sections in its room. -/
def checkedInAt (token : String) : Db :=
  ((World.start ((materializeTerm term monday 1 false 0).run sectionPair).2).step
    (.resolve 1 (.link token)
      ⟨wallClock monday 9 0 0, wallClock monday 9 0 0, monday, wallClock monday 9 0 0⟩)).db

/-- The list for the teacher's next scan. -/
def sectionsAfter (token : String) : List Session := (checkedInAt token).scanSessions 1 monday 1

end Campus

open Campus in
/-- After a check-in in the room of the first section, the scan of that room at ten checks out. -/
theorem rescan_checksOut_iff_first :
    ChecksOut 1 (sectionsAfter "qr-1")
      ((checkedInAt "qr-1").scanResolution 1 1 1 (wallClock monday 10 0 0) monday) := by
  refine (rescan_checksOut_iff _ 1 _ _ _ _ _ (sectionsAfter "qr-1") (by decide +kernel)).mpr ?_
  intro s hs
  have hall : ((sectionsAfter "qr-1").find? fun t => decide (t.status = .active)).all
      (fun t => t.room == 1) = true := by decide +kernel
  rw [first_iff_find?.mp hs] at hall
  exact beq_iff_eq.mp hall

open Campus in
/-- After a check-in in the room of the second section the first one, filled in its own room,
is ahead of it in the list: the scan of the same room is taken for a move of the first. -/
theorem rescan_moves_sibling :
    ¬ ∀ (modality : Session → Modality) (room : ℕ) (occupying : Option ℕ)
      (now graceMin earlyEndMin openMin : ℤ) (sessions : List Session),
      (∃ s ∈ sessions, s.status = .active ∧ s.room = room) →
        ChecksOut room sessions (resolveFacultyScan modality room occupying now graceMin
          earlyEndMin openMin sessions) := by
  intro h
  obtain ⟨s, -, -, -, hres⟩ := h (checkedInAt "qr-2").effectiveModality 2
    ((checkedInAt "qr-2").occupying 2 1 1) (wallClock monday 10 0 0) 15 15 15
    (sectionsAfter "qr-2") (by decide +kernel)
  have hmoved : (resolveFacultyScan (checkedInAt "qr-2").effectiveModality 2
      ((checkedInAt "qr-2").occupying 2 1 1) (wallClock monday 10 0 0) 15 15 15
      (sectionsAfter "qr-2")).outcome = .wrongRoom := by decide +kernel
  rcases hres with hres | hres <;> rw [hres] at hmoved <;> cases hmoved

end FluxTrack
