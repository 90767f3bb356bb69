import FluxTrack.Theorems.RoomTotals

/-!
# The accounts of room utilization

Booked time is used, wasted or undecided. The card of the campus accumulates the first two
apart, on separate branches for absent and for held classes, and leaves out the third, which
is the time of classes that nobody started or ended and no sweep has closed.

## Main definitions

* `Session.running`, `Session.counts`, `Session.undecided` — where a class stands
* `Db.UtilizationAccounts` — the balance of the card

## Main results

* `RoomTotals.foldl_add_eq_sum` — a figure of the card is a sum over the classes
* `roomUtilization_accounts`
-/

namespace FluxTrack

open Calendar

/-- The class was started, and nobody ended it yet. -/
def Session.running (s : Session) : Bool :=
  s.actualStart.isSome && s.actualEnd.isNone && s.status == .active

/-- The class is neither running nor called off. -/
def Session.counts (s : Session) : Bool := !s.running && s.status != .cancelled

/-- The class counts, as neither absent nor held. -/
def Session.undecided (s : Session) : Bool :=
  !s.running && s.status != .absent && !s.status.isHeld

/-- The booked time of a class that was not used. -/
def Session.unusedSeconds (s : Session) : ℤ := s.contribution.booked - s.contribution.used

/-- `wasted_seconds`. -/
def RoomTotals.wastedSeconds (t : RoomTotals) : ℤ := t.absentSeconds + t.unusedHeldSeconds

/-- The balance of the card, in unrounded seconds. -/
structure Db.UtilizationAccounts (db : Db) (scope : ReportScope) : Prop where
  /-- What is neither used nor wasted is unused time of undecided classes. -/
  balance : (db.roomTotals scope).bookedSeconds - (db.roomTotals scope).usedSeconds -
      (db.roomTotals scope).wastedSeconds =
    (((db.roomSessions scope).filter Session.undecided).map Session.unusedSeconds).sum
  closed : (∀ s ∈ db.roomSessions scope, s.status ≠ .scheduled) →
    (db.roomTotals scope).usedSeconds + (db.roomTotals scope).wastedSeconds =
      (db.roomTotals scope).bookedSeconds
  absent : (db.roomTotals scope).absentSeconds =
    (((db.roomSessions scope).filter fun s => s.status == .absent).map
      fun s => s.contribution.booked).sum
  unusedHeld : (db.roomTotals scope).unusedHeldSeconds =
    (((db.roomSessions scope).filter fun s => !s.running && s.status.isHeld).map
      Session.unusedSeconds).sum
  published : (db.roomUtilization scope).wastedHours = hours (db.roomTotals scope).wastedSeconds
  /-- Classes that are running or called off add to no figure. -/
  idle : ∀ figure ∈ [RoomTotals.bookedSeconds, RoomTotals.usedSeconds, RoomTotals.absentSeconds,
      RoomTotals.unusedHeldSeconds, RoomTotals.wastedSeconds],
    figure (db.roomTotals scope) =
      figure (((db.roomSessions scope).filter Session.counts).foldl RoomTotals.add .zero)

/-! ### One class -/

section

variable {s : Session}

theorem Session.contribution_inFlight (s : Session) : s.contribution.inFlight = s.running := by
  unfold Session.contribution Session.running
  by_cases hcancelled : s.status = .cancelled
  · -- a class that was called off is not running whatever its times are
    rw [if_pos hcancelled, hcancelled]
    simp
  · rw [if_neg hcancelled]
    by_cases hfly : s.actualStart.isSome ∧ s.actualEnd.isNone ∧ s.status = .active
    · rw [if_pos hfly]
      simp [hfly]
    · rw [if_neg hfly]
      have hrunning : (s.actualStart.isSome && s.actualEnd.isNone && s.status == .active) = false :=
        Bool.eq_false_iff.mpr fun h => hfly (by simpa [and_assoc] using h)
      rw [hrunning]
      split
      · rfl
      · split <;> rfl

/-- A class that does not count contributes nothing. -/
theorem Session.contribution_of_not_counts (h : s.counts = false) :
    s.contribution.booked = 0 ∧ s.contribution.used = 0 := by
  rw [Session.counts, Bool.and_eq_false_iff] at h
  rcases h with hrunning | hcancelled
  · have hfly : s.contribution.inFlight = true := by
      rw [s.contribution_inFlight]
      simpa using hrunning
    rw [(Session.contribution_of_inFlight hfly).1]
    exact ⟨rfl, rfl⟩
  · have hcancelled : s.status = .cancelled := by simpa using hcancelled
    rw [Session.contribution, if_pos hcancelled]
    exact ⟨rfl, rfl⟩

theorem Session.unusedSeconds_of_not_counts (h : s.counts = false) : s.unusedSeconds = 0 := by
  rw [Session.unusedSeconds, (Session.contribution_of_not_counts h).1,
    (Session.contribution_of_not_counts h).2, sub_zero]

/-- Nothing of an absent class is used. -/
theorem Session.used_of_absent (h : s.status = .absent) : s.contribution.used = 0 := by
  unfold Session.contribution
  rw [h, if_neg (by decide), if_neg fun hfly => absurd hfly.2.2 (by decide), if_pos rfl]

theorem Session.unusedSeconds_nonneg (s : Session) : 0 ≤ s.unusedSeconds :=
  sub_nonneg.mpr s.used_le_booked

/-- What a class adds to the absent time. -/
def Session.absentSeconds (s : Session) : ℤ :=
  if s.status == .absent then s.contribution.booked else 0

/-- What a class adds to the time that was held and not used. -/
def Session.unusedHeldSeconds (s : Session) : ℤ :=
  if !s.running && s.status.isHeld then s.unusedSeconds else 0

end

/-! ### The card -/

section

variable {t : RoomTotals} {s : Session}

/-- A figure that grows by a part of each class ends as the sum of the parts. -/
theorem RoomTotals.foldl_add_eq_sum {figure : RoomTotals → ℤ} {part : Session → ℤ}
    (hstep : ∀ t s, figure (t.add s) = figure t + part s) (l : List Session) (t : RoomTotals) :
    figure (l.foldl RoomTotals.add t) = figure t + (l.map part).sum := by
  induction l generalizing t with
  | nil => simp
  | cons s l ih => rw [List.foldl_cons, ih, hstep, List.map_cons, List.sum_cons, add_assoc]

theorem RoomTotals.bookedSeconds_add (t : RoomTotals) (s : Session) :
    (t.add s).bookedSeconds = t.bookedSeconds + s.contribution.booked := by
  unfold RoomTotals.add
  by_cases hfly : s.contribution.inFlight = true
  · rw [if_pos hfly, (Session.contribution_of_inFlight hfly).1, add_zero]
  · rw [if_neg hfly]

theorem RoomTotals.usedSeconds_add (t : RoomTotals) (s : Session) :
    (t.add s).usedSeconds = t.usedSeconds + s.contribution.used := by
  unfold RoomTotals.add
  by_cases hfly : s.contribution.inFlight = true
  · rw [if_pos hfly, (Session.contribution_of_inFlight hfly).1, add_zero]
  · rw [if_neg hfly]

theorem RoomTotals.absentSeconds_add (t : RoomTotals) (s : Session) :
    (t.add s).absentSeconds = t.absentSeconds + s.absentSeconds := by
  unfold RoomTotals.add Session.absentSeconds
  by_cases hfly : s.contribution.inFlight = true
  · rw [if_pos hfly, (Session.contribution_of_inFlight hfly).1, ite_self, add_zero]
  · rw [if_neg hfly]
    by_cases habsent : s.status = .absent
    · simp [habsent]
    · simp [habsent]

theorem RoomTotals.unusedHeldSeconds_add (t : RoomTotals) (s : Session) :
    (t.add s).unusedHeldSeconds = t.unusedHeldSeconds + s.unusedHeldSeconds := by
  unfold RoomTotals.add Session.unusedHeldSeconds
  rw [← s.contribution_inFlight]
  by_cases hfly : s.contribution.inFlight = true
  · rw [if_pos hfly, hfly, Bool.not_true, Bool.false_and, if_neg Bool.false_ne_true, add_zero]
  · rw [if_neg hfly, Bool.eq_false_iff.mpr hfly, Bool.not_false, Bool.true_and]
    dsimp only
    cases s.status.isHeld with
    | true =>
      rw [if_pos rfl, if_pos rfl, ← Session.unusedSeconds, max_eq_right s.unusedSeconds_nonneg]
    | false => rw [if_neg Bool.false_ne_true, if_neg Bool.false_ne_true, add_zero]

theorem RoomTotals.wastedSeconds_add (t : RoomTotals) (s : Session) :
    (t.add s).wastedSeconds = t.wastedSeconds + (s.absentSeconds + s.unusedHeldSeconds) := by
  rw [RoomTotals.wastedSeconds, RoomTotals.absentSeconds_add, RoomTotals.unusedHeldSeconds_add,
    RoomTotals.wastedSeconds, add_add_add_comm]

/-- Classes that do not count can be left out of a figure to which they add nothing. -/
theorem RoomTotals.foldl_add_filter_counts {figure : RoomTotals → ℤ} {part : Session → ℤ}
    (hstep : ∀ t s, figure (t.add s) = figure t + part s)
    (hidle : ∀ s : Session, s.counts = false → part s = 0) (l : List Session) (t : RoomTotals) :
    figure (l.foldl RoomTotals.add t) =
      figure ((l.filter Session.counts).foldl RoomTotals.add t) := by
  induction l generalizing t with
  | nil => rfl
  | cons s l ih =>
    cases hcounts : s.counts with
    | true => rw [List.filter_cons_of_pos hcounts, List.foldl_cons, List.foldl_cons, ih]
    | false =>
      rw [List.filter_cons_of_neg (Bool.eq_false_iff.mp hcounts), List.foldl_cons, ← ih,
        RoomTotals.foldl_add_eq_sum hstep, RoomTotals.foldl_add_eq_sum hstep, hstep,
        hidle s hcounts, add_zero]

/-- Parts that only some classes have add up over these classes. -/
theorem sum_map_ite (p : Session → Bool) (part : Session → ℤ) (l : List Session) :
    (l.map fun s => if p s then part s else 0).sum = ((l.filter p).map part).sum := by
  induction l with
  | nil => rfl
  | cons s l ih =>
    rw [List.map_cons, List.sum_cons, ih]
    cases hp : p s with
    | true => rw [List.filter_cons_of_pos hp, if_pos rfl, List.map_cons, List.sum_cons]
    | false =>
      rw [List.filter_cons_of_neg (Bool.eq_false_iff.mp hp), if_neg Bool.false_ne_true, zero_add]

end

/-! ### The balance -/

section

variable {s : Session}

/-- Unused time is absent, held and not used, or undecided. -/
theorem Session.unusedSeconds_eq (s : Session) : s.unusedSeconds =
    s.absentSeconds + s.unusedHeldSeconds + if s.undecided then s.unusedSeconds else 0 := by
  unfold Session.absentSeconds Session.unusedHeldSeconds Session.undecided
  cases hrunning : s.running with
  | true =>
    -- a running class has no unused time, and it is not absent
    have hcounts : s.counts = false := by
      rw [Session.counts, hrunning]
      rfl
    rw [Session.unusedSeconds_of_not_counts hcounts, (Session.contribution_of_not_counts hcounts).1]
    simp
  | false =>
    cases hstatus : s.status with
    | absent =>
      simp [Session.unusedSeconds, Session.used_of_absent hstatus, SessionStatus.isHeld]
    | scheduled => simp [SessionStatus.isHeld]
    | active => simp [SessionStatus.isHeld]
    | completed => simp [SessionStatus.isHeld]
    | cancelled => simp [SessionStatus.isHeld]

/-- A class that does not count is not absent. -/
theorem Session.absentSeconds_of_not_counts (h : s.counts = false) : s.absentSeconds = 0 := by
  rw [Session.absentSeconds, (Session.contribution_of_not_counts h).1, ite_self]

/-- A class that does not count is not held and left unused. -/
theorem Session.unusedHeldSeconds_of_not_counts (h : s.counts = false) :
    s.unusedHeldSeconds = 0 := by
  rw [Session.unusedHeldSeconds, Session.unusedSeconds_of_not_counts h, ite_self]

/-- Only a scheduled class is undecided and has unused time. -/
theorem Session.unusedSeconds_of_undecided (h : s.undecided = true) (hs : s.status ≠ .scheduled) :
    s.unusedSeconds = 0 := by
  refine Session.unusedSeconds_of_not_counts ?_
  unfold Session.undecided at h
  unfold Session.counts
  cases hstatus : s.status with
  | cancelled => simp
  | scheduled => exact absurd hstatus hs
  | absent => simp [hstatus] at h
  | active => simp [hstatus, SessionStatus.isHeld] at h
  | completed => simp [hstatus, SessionStatus.isHeld] at h

/-- The balance of a list of classes. -/
theorem RoomTotals.balance_foldl (l : List Session) :
    (l.foldl RoomTotals.add .zero).bookedSeconds - (l.foldl RoomTotals.add .zero).usedSeconds -
        (l.foldl RoomTotals.add .zero).wastedSeconds =
      ((l.filter Session.undecided).map Session.unusedSeconds).sum := by
  -- the difference of the three figures grows by the undecided time of each class
  have hstep : ∀ (t : RoomTotals) (s : Session),
      (t.add s).bookedSeconds - (t.add s).usedSeconds - (t.add s).wastedSeconds =
        t.bookedSeconds - t.usedSeconds - t.wastedSeconds +
          if s.undecided then s.unusedSeconds else 0 := by
    intro t s
    have hparts := s.unusedSeconds_eq
    have hunused : s.unusedSeconds = s.contribution.booked - s.contribution.used := rfl
    rw [RoomTotals.bookedSeconds_add, RoomTotals.usedSeconds_add, RoomTotals.wastedSeconds_add]
    omega
  rw [@RoomTotals.foldl_add_eq_sum
    (fun t => t.bookedSeconds - t.usedSeconds - t.wastedSeconds) _ hstep, sum_map_ite]
  exact zero_add _

end

/-- Without undecided time the booked time is used or wasted. -/
theorem sum_undecided_eq_zero {l : List Session}
    (hclosed : ∀ s ∈ l, s.status ≠ .scheduled) :
    ((l.filter Session.undecided).map Session.unusedSeconds).sum = 0 := by
  refine List.sum_eq_zero fun a ha => ?_
  obtain ⟨s, hs, rfl⟩ := List.mem_map.mp ha
  obtain ⟨hs, hundecided⟩ := List.mem_filter.mp hs
  exact Session.unusedSeconds_of_undecided hundecided (hclosed s hs)

/-- The used time of a class is between nothing and its booked time, and the card of the
campus keeps its balance. -/
theorem roomUtilization_accounts :
    (∀ s : Session, 0 ≤ s.contribution.used ∧ s.contribution.used ≤ s.contribution.booked) ∧
    ∀ (db : Db) (scope : ReportScope), db.UtilizationAccounts scope := by
  refine ⟨fun s => ⟨s.contribution_nonneg.2, s.used_le_booked⟩, fun db scope => ?_⟩
  have hbalance := RoomTotals.balance_foldl (db.roomSessions scope)
  refine ⟨hbalance, fun hclosed => ?_, ?_, ?_, rfl, ?_⟩
  · rw [sum_undecided_eq_zero hclosed] at hbalance
    have hsame : db.roomTotals scope = (db.roomSessions scope).foldl RoomTotals.add .zero := rfl
    rw [hsame]
    omega
  · rw [← sum_map_ite]
    exact (RoomTotals.foldl_add_eq_sum RoomTotals.absentSeconds_add _ _).trans (zero_add _)
  · rw [← sum_map_ite]
    exact (RoomTotals.foldl_add_eq_sum RoomTotals.unusedHeldSeconds_add _ _).trans (zero_add _)
  · -- every figure is a sum over the classes, and nothing for one that does not count
    have hwasted : ∀ s : Session, s.counts = false → s.absentSeconds + s.unusedHeldSeconds = 0 :=
      fun s h => by
        rw [s.absentSeconds_of_not_counts h, s.unusedHeldSeconds_of_not_counts h, add_zero]
    intro figure hfigure
    simp only [List.mem_cons, List.not_mem_nil, or_false] at hfigure
    rcases hfigure with rfl | rfl | rfl | rfl | rfl
    · exact RoomTotals.foldl_add_filter_counts RoomTotals.bookedSeconds_add
        (fun s h => (Session.contribution_of_not_counts h).1) _ _
    · exact RoomTotals.foldl_add_filter_counts RoomTotals.usedSeconds_add
        (fun s h => (Session.contribution_of_not_counts h).2) _ _
    · exact RoomTotals.foldl_add_filter_counts RoomTotals.absentSeconds_add
        (fun s h => s.absentSeconds_of_not_counts h) _ _
    · exact RoomTotals.foldl_add_filter_counts RoomTotals.unusedHeldSeconds_add
        (fun s h => s.unusedHeldSeconds_of_not_counts h) _ _
    · exact RoomTotals.foldl_add_filter_counts RoomTotals.wastedSeconds_add hwasted _ _

end FluxTrack
