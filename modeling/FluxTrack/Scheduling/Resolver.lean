import FluxTrack.Models

/-!
# The scan resolver

The decision of a faculty room scan (`scheduling/resolver.py`), free of queries
and side effects. The sessions arrive with the effective modality the caller
computes for them.

## Main definitions

* `isNoShowPastGrace` — the one no-show predicate, shared with the status sweep
* `resolveFacultyScan` — the outcome of a scan
-/

namespace FluxTrack

open Calendar

/-- The outcomes of a faculty scan. -/
inductive Outcome
  | checkedIn | checkedOut | absent | tooEarly | wrongRoom | roomOccupied | earlyEnd
  | onlineReject | noSchedule
  deriving DecidableEq, Repr

/-- `CONFIRM_OUTCOMES`: the outcomes that a second request has to confirm. -/
def Outcome.needsConfirm : Outcome → Bool
  | .wrongRoom | .roomOccupied | .earlyEnd => true
  | _ => false

/-- A resolved scan: the outcome, the session it is about and, for a handover,
the session that occupies the room. -/
structure Resolution where
  outcome : Outcome
  session : Option ℕ
  priorSession : Option ℕ
  deriving DecidableEq

/-- `is_no_show_past_grace`: `now` is strictly past the start plus grace. -/
def isNoShowPastGrace (scheduledStart now graceMin : ℤ) : Bool :=
  decide (scheduledStart + graceMin * minute < now)

theorem isNoShowPastGrace_iff {start now grace : ℤ} :
    isNoShowPastGrace start now grace = true ↔ start + grace * minute < now := by
  simp [isNoShowPastGrace]

section

variable (modality : Session → Modality) (room : ℕ) (occupying : Option ℕ)
  (now graceMin earlyEndMin openMin : ℤ)

/-- A scheduled session whose check-in window contains `now`. -/
def inWindow (s : Session) : Bool :=
  s.status == .scheduled &&
    (decide (s.scheduledStart - openMin * minute ≤ now) && decide (now ≤ s.scheduledEnd))

/-- The window candidate of a scan: the first one in the scanned room, else the
first one anywhere. -/
def windowCandidate (sessions : List Session) : Option Session :=
  let candidates := sessions.filter (inWindow now openMin)
  (candidates.find? fun s => s.room == room).or candidates.head?

/-- The outcome for a session that is already running. -/
def resolveActive (s : Session) : Resolution :=
  if s.room = room then
    if now < s.scheduledEnd - earlyEndMin * minute then ⟨.earlyEnd, some s.id, none⟩
    else ⟨.checkedOut, some s.id, none⟩
  else ⟨.wrongRoom, some s.id, none⟩

/-- The outcome when no session of the day has an open window. -/
def resolveNone (sessions : List Session) : Resolution :=
  match sessions.find? fun s =>
      s.status == .scheduled && s.room == room &&
        decide (now < s.scheduledStart - openMin * minute) with
  | some s => ⟨.tooEarly, some s.id, none⟩
  | none => ⟨.noSchedule, none, none⟩

/-- The outcome for a window candidate. -/
def resolveCandidate (s : Session) : Resolution :=
  if modality s = .online then ⟨.onlineReject, some s.id, none⟩
  else if s.room ≠ room then ⟨.wrongRoom, some s.id, none⟩
  else if isNoShowPastGrace s.scheduledStart now graceMin then ⟨.absent, some s.id, none⟩
  else if occupying.isSome then ⟨.roomOccupied, some s.id, occupying⟩
  else ⟨.checkedIn, some s.id, none⟩

/-- `resolve_faculty_scan`: a running session is checked out, otherwise the
window candidate decides. -/
def resolveFacultyScan (sessions : List Session) : Resolution :=
  match sessions.find? fun s => s.status == .active with
  | some s => resolveActive room now earlyEndMin s
  | none =>
    match windowCandidate room now openMin sessions with
    | some s => resolveCandidate modality room occupying now graceMin s
    | none => resolveNone room now openMin sessions

variable {modality room occupying now graceMin earlyEndMin openMin} {sessions : List Session}

theorem windowCandidate_eq_some {s : Session} (h : windowCandidate room now openMin sessions = some s) :
    s ∈ sessions ∧ inWindow now openMin s = true := by
  unfold windowCandidate at h
  rcases Option.or_eq_some_iff.mp h with h | ⟨-, h⟩
  · exact List.mem_filter.mp (List.mem_of_find?_eq_some h)
  · exact List.mem_filter.mp (List.mem_of_head? h)

theorem resolveActive_cases (s : Session) :
    resolveActive room now earlyEndMin s = ⟨.earlyEnd, some s.id, none⟩ ∨
    resolveActive room now earlyEndMin s = ⟨.checkedOut, some s.id, none⟩ ∨
    resolveActive room now earlyEndMin s = ⟨.wrongRoom, some s.id, none⟩ := by
  unfold resolveActive
  split
  · split
    · exact .inl rfl
    · exact .inr (.inl rfl)
  · exact .inr (.inr rfl)

theorem resolveCandidate_cases (s : Session) :
    resolveCandidate modality room occupying now graceMin s = ⟨.onlineReject, some s.id, none⟩ ∨
    resolveCandidate modality room occupying now graceMin s = ⟨.wrongRoom, some s.id, none⟩ ∨
    (resolveCandidate modality room occupying now graceMin s = ⟨.absent, some s.id, none⟩ ∧
      modality s ≠ .online ∧ s.room = room ∧
      isNoShowPastGrace s.scheduledStart now graceMin = true) ∨
    (resolveCandidate modality room occupying now graceMin s =
      ⟨.roomOccupied, some s.id, occupying⟩ ∧ occupying.isSome = true) ∨
    resolveCandidate modality room occupying now graceMin s = ⟨.checkedIn, some s.id, none⟩ := by
  unfold resolveCandidate
  split
  · exact .inl rfl
  · split
    · exact .inr (.inl rfl)
    · split
      · exact .inr (.inr (.inl ⟨rfl, ‹_›, not_not.mp ‹_›, ‹_›⟩))
      · split
        · exact .inr (.inr (.inr (.inl ⟨rfl, ‹_›⟩)))
        · exact .inr (.inr (.inr (.inr rfl)))

/-- The three ways of a scan: a running session, else a candidate in its window,
else nothing but a session whose window is still to open. -/
theorem resolveFacultyScan_cases {r : Resolution}
    (h : resolveFacultyScan modality room occupying now graceMin earlyEndMin openMin sessions = r) :
    (∃ s ∈ sessions, s.status = .active ∧ resolveActive room now earlyEndMin s = r) ∨
    (∃ s ∈ sessions, inWindow now openMin s = true ∧
      resolveCandidate modality room occupying now graceMin s = r) ∨
    resolveNone room now openMin sessions = r := by
  unfold resolveFacultyScan at h
  cases hactive : sessions.find? fun s => s.status == .active with
  | some s =>
    rw [hactive] at h
    exact .inl ⟨s, List.mem_of_find?_eq_some hactive, by simpa using List.find?_some hactive, h⟩
  | none =>
    rw [hactive] at h
    cases hwindow : windowCandidate room now openMin sessions with
    | some s =>
      rw [hwindow] at h
      obtain ⟨hs, hin⟩ := windowCandidate_eq_some hwindow
      exact .inr (.inl ⟨s, hs, hin, h⟩)
    | none =>
      rw [hwindow] at h
      exact .inr (.inr h)

/-- A session whose window is still to open is scheduled. -/
theorem resolveNone_cases :
    (∃ s ∈ sessions, s.status = .scheduled ∧
      resolveNone room now openMin sessions = ⟨.tooEarly, some s.id, none⟩) ∨
    resolveNone room now openMin sessions = ⟨.noSchedule, none, none⟩ := by
  unfold resolveNone
  split
  · rename_i s hfind
    have hsel := List.find?_some hfind
    simp only [Bool.and_eq_true, beq_iff_eq] at hsel
    exact .inl ⟨s, List.mem_of_find?_eq_some hfind, hsel.1.1, rfl⟩
  · exact .inr rfl

end

end FluxTrack
