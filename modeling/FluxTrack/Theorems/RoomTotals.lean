import FluxTrack.Scheduling.RoomBreakdown
import FluxTrack.Theorems.HeatGrid
import Mathlib.Algebra.Order.BigOperators.Group.List
import Mathlib.Data.List.Induction

/-!
# The rows by room and the campus card

Both reports fold over the same sessions, but the rows are made for the rooms in service
only. A room that went out of service after sessions were held in it keeps them on the card
and has no row, so that the rows add up to the card exactly when no such session books time.

## Main definitions

* `Db.OutOfService` — the room has no row
* `Db.BreakdownReconciles` — the rows add up to the card

## Main results

* `accounted_roomSessions` — the card is the rows and what the rows miss
* `breakdown_reconciles_iff`
-/

namespace FluxTrack

open Calendar Relational

/-- No room in service has this primary key. -/
def Db.OutOfService (db : Db) (pk : ℕ) : Prop := ∀ r ∈ db.rooms, r.id = pk → r.outOfService = true

/-- The seconds of the rows add up to the seconds behind the campus card. -/
def Db.BreakdownReconciles (db : Db) (scope : ReportScope) : Prop :=
  ((db.roomBreakdown scope).map RoomLoad.usedSeconds).sum = (db.roomTotals scope).usedSeconds ∧
  ((db.roomBreakdown scope).map RoomLoad.bookedSeconds).sum = (db.roomTotals scope).bookedSeconds ∧
  ((db.roomBreakdown scope).map RoomLoad.wastedSeconds).sum =
    (db.roomTotals scope).absentSeconds + (db.roomTotals scope).unusedHeldSeconds

/-! ### One session -/

/-- What a session adds to the wasted time. -/
def Session.wastedSeconds (s : Session) : ℤ :=
  if s.status = .absent then s.contribution.booked
  else if s.status.isHeld then max 0 (s.contribution.booked - s.contribution.used)
  else 0

section

variable {s : Session}

theorem Session.contribution_of_inFlight (h : s.contribution.inFlight = true) :
    s.contribution = ⟨0, 0, true⟩ ∧ s.status = .active := by
  unfold Session.contribution at h ⊢
  -- none of the other branches sets the mark of a session in flight
  split
  · rename_i hcancelled
    rw [if_pos hcancelled] at h
    cases h
  · rename_i hlive
    rw [if_neg hlive] at h
    split
    · rename_i hfly
      exact ⟨rfl, hfly.2.2⟩
    · rename_i hlanded
      rw [if_neg hlanded] at h
      split at h
      · cases h
      · split at h <;> cases h

theorem wholeSeconds_mono {a b : ℤ} (h : a ≤ b) : wholeSeconds a ≤ wholeSeconds b :=
  max_le_max_left _ (Int.tdiv_le_tdiv (by decide) h)

/-- The used time is clamped to the slot. -/
theorem Session.used_le_booked (s : Session) : s.contribution.used ≤ s.contribution.booked := by
  unfold Session.contribution
  split
  · exact le_refl 0
  · split
    · exact le_refl 0
    · split
      · exact wholeSeconds_nonneg _
      · split
        · exact wholeSeconds_mono (sub_le_sub (min_le_right _ _) (le_max_right _ _))
        · exact wholeSeconds_nonneg _

theorem Session.wastedSeconds_of_booked (h : s.contribution.booked = 0) : s.wastedSeconds = 0 := by
  have hused := s.contribution_nonneg.2
  unfold Session.wastedSeconds
  split
  · exact h
  · split
    · rw [h]
      omega
    · rfl

end

/-! ### What the rows miss -/

/-- What the sessions in other rooms than those of the rows add. -/
def missed (keys : List ℕ) (f : Session → ℤ) (l : List Session) : ℤ :=
  ((l.filter fun s => !keys.contains s.room).map f).sum

/-- The totals of the card are those of the rows and what the rows miss. -/
structure Accounted (keys : List ℕ) (l : List Session) (acc : BreakdownAcc) (t : RoomTotals) :
    Prop where
  used : t.usedSeconds = acc.used.total keys + missed keys (fun s => s.contribution.used) l
  booked : t.bookedSeconds = acc.booked.total keys + missed keys (fun s => s.contribution.booked) l
  wasted : t.absentSeconds + t.unusedHeldSeconds =
    acc.wasted.total keys + missed keys Session.wastedSeconds l

section

variable {keys : List ℕ} {l : List Session} {acc : BreakdownAcc} {t : RoomTotals} {s : Session}

theorem missed_append_singleton (f : Session → ℤ) :
    missed keys f (l ++ [s]) = missed keys f l + if s.room ∈ keys then 0 else f s := by
  rw [missed, List.filter_append, List.map_append, List.sum_append, ← missed]
  by_cases hmem : s.room ∈ keys
  · simp [hmem]
  · simp [hmem]

/-- An amount posted under the room of a session goes to a row or is missed. -/
theorem total_post_add_missed (hnodup : keys.Nodup) {f : Session → ℤ} {total : ℤ} {u : Tally ℕ}
    (h : total = u.total keys + missed keys f l) :
    total + f s = (u.post (s.room, f s)).total keys + missed keys f (l ++ [s]) := by
  rw [missed_append_singleton]
  -- the room has a row, or the amount is missed; either way the totals grow by it
  by_cases hmem : s.room ∈ keys
  · rw [Tally.total_post hnodup hmem, if_pos hmem, h]
    omega
  · rw [Tally.total_post_of_notMem hmem, if_neg hmem, h]
    omega

/-- A session that adds nothing is not missed. -/
theorem total_add_missed_of_zero {f : Session → ℤ} {total : ℤ} {u : Tally ℕ} (hf : f s = 0)
    (h : total = u.total keys + missed keys f l) :
    total = u.total keys + missed keys f (l ++ [s]) := by
  rw [missed_append_singleton, hf, ite_self, add_zero]
  exact h

/-- One session more in both folds. -/
theorem Accounted.add (h : Accounted keys l acc t) (hnodup : keys.Nodup) :
    Accounted keys (l ++ [s]) (acc.add s) (t.add s) := by
  unfold BreakdownAcc.add RoomTotals.add
  by_cases hfly : s.contribution.inFlight = true
  · -- a class that is still running adds nothing to either
    obtain ⟨hzero, hactive⟩ := Session.contribution_of_inFlight hfly
    have hwasted : s.wastedSeconds = 0 := Session.wastedSeconds_of_booked (by rw [hzero])
    rw [if_pos hfly, if_pos hfly]
    exact ⟨total_add_missed_of_zero (by rw [hzero]) h.used,
      total_add_missed_of_zero (by rw [hzero]) h.booked,
      total_add_missed_of_zero hwasted h.wasted⟩
  · rw [if_neg hfly, if_neg hfly]
    refine ⟨total_post_add_missed hnodup h.used, total_post_add_missed hnodup h.booked, ?_⟩
    dsimp only
    -- the card keeps absences and unused time apart, the rows post both as wasted
    by_cases habsent : s.status = .absent
    · have hwasted : s.wastedSeconds = s.contribution.booked := if_pos habsent
      have hheld : s.status.isHeld = false := by
        rw [habsent]
        rfl
      rw [if_pos habsent, if_pos habsent, hheld, if_neg Bool.false_ne_true, ← hwasted,
        add_right_comm]
      exact total_post_add_missed hnodup h.wasted
    · rw [if_neg habsent, if_neg habsent]
      cases hheld : s.status.isHeld with
      | true =>
        have hwasted : s.wastedSeconds = max 0 (s.contribution.booked - s.contribution.used) := by
          rw [Session.wastedSeconds, if_neg habsent, if_pos hheld]
        rw [if_pos rfl, if_pos rfl, ← hwasted, ← add_assoc]
        exact total_post_add_missed hnodup h.wasted
      | false =>
        have hwasted : s.wastedSeconds = 0 := by
          rw [Session.wastedSeconds, if_neg habsent, hheld, if_neg Bool.false_ne_true]
        rw [if_neg Bool.false_ne_true, if_neg Bool.false_ne_true]
        exact total_add_missed_of_zero hwasted h.wasted

/-- The card is the rows and what the rows miss. -/
theorem accounted_foldl (hnodup : keys.Nodup) (l : List Session) :
    Accounted keys l (l.foldl BreakdownAcc.add .zero) (l.foldl RoomTotals.add .zero) := by
  -- from the end, as the folds run: what is missed grows by the last session
  induction l using List.reverseRecOn with
  | nil =>
    have hzero : (0 : ℤ) = Tally.zero.total keys + 0 := by rw [Tally.total_zero, add_zero]
    exact ⟨hzero, hzero, hzero⟩
  | append_singleton l s ih =>
    rw [List.foldl_append, List.foldl_append]
    exact ih.add hnodup

end

/-! ### The rows -/

section

variable {db : Db} {scope : ReportScope}

/-- The primary keys of the rows. -/
def Db.rowKeys (db : Db) : List ℕ := db.physicalRooms.map Room.id

theorem nodup_rowKeys (db : Db) : db.rowKeys.Nodup :=
  db.rooms.nodup.sublist (List.filter_sublist.map _)

/-- A column of the rows adds up to the total of its tally. -/
theorem sum_roomBreakdown {column : RoomLoad → ℤ} {u : Tally ℕ}
    (hcolumn : ∀ r, column (db.roomLoad (db.breakdownAcc scope)
      (db.rangeCellShape scope).cellSeconds r) = u r.id) :
    ((db.roomBreakdown scope).map column).sum = u.total db.rowKeys := by
  -- the order of rooms and of rows does not matter to a sum
  have hsorted := ((List.perm_insertionSort (fun a b : RoomLoad =>
    a.utilizationPct < b.utilizationPct ∨ a.utilizationPct = b.utilizationPct ∧ a.code ≤ b.code)
      ((db.physicalRooms.insertionSort db.roomOrder).map (db.roomLoad (db.breakdownAcc scope)
        (db.rangeCellShape scope).cellSeconds))).map column).sum_eq
  have hrooms := ((List.perm_insertionSort db.roomOrder db.physicalRooms).map
    fun r => u r.id).sum_eq
  rw [Db.roomBreakdown, hsorted, List.map_map, Tally.total, Db.rowKeys, List.map_map]
  exact (congrArg List.sum (List.map_congr_left fun r _ => hcolumn r)).trans hrooms

/-- A session of the report whose room has no row is in a room that is out of service. -/
theorem notMem_rowKeys_iff {s : Session} (hs : s ∈ db.roomSessions scope) :
    s.room ∉ db.rowKeys ↔ db.OutOfService s.room := by
  have hphysical : (db.room s.room).isVirtual = false := by
    simpa using (List.mem_filter.mp hs).2
  constructor
  · intro hnot r hr hid
    have hget : db.rooms.get? s.room = some r := Table.get?_eq_some_iff.mpr ⟨hr, hid⟩
    rw [Db.room, hget, Option.getD_some] at hphysical
    -- a physical room in service would have a row
    by_contra hopen
    refine hnot (List.mem_map.mpr ⟨r, List.mem_filter.mpr ⟨hr, ?_⟩, hid⟩)
    rw [hphysical, Bool.eq_false_iff.mpr hopen]
    rfl
  · intro hout hmem
    obtain ⟨r, hr, hid⟩ := List.mem_map.mp hmem
    obtain ⟨hr, hsel⟩ := List.mem_filter.mp hr
    rw [hout r hr hid, Bool.not_true, Bool.and_false] at hsel
    cases hsel

theorem missed_eq_zero_iff {f : Session → ℤ} (hf : ∀ s, 0 ≤ f s) (db : Db) (scope : ReportScope) :
    missed db.rowKeys f (db.roomSessions scope) = 0 ↔
      ∀ s ∈ db.roomSessions scope, db.OutOfService s.room → f s = 0 := by
  have hmem : ∀ s ∈ db.roomSessions scope,
      (!db.rowKeys.contains s.room) = true ↔ db.OutOfService s.room := by
    intro s hs
    rw [← notMem_rowKeys_iff hs]
    simp
  constructor
  · intro hzero s hs hout
    refine List.all_zero_of_le_zero_le_of_sum_eq_zero (l := (((db.roomSessions scope).filter
      fun s : Session => !db.rowKeys.contains s.room).map f)) (fun a ha => ?_) hzero
        (List.mem_map_of_mem (List.mem_filter.mpr ⟨hs, (hmem s hs).mpr hout⟩))
    obtain ⟨s', -, rfl⟩ := List.mem_map.mp ha
    exact hf s'
  · intro hall
    refine List.sum_eq_zero fun a ha => ?_
    obtain ⟨s, hs, rfl⟩ := List.mem_map.mp ha
    obtain ⟨hs, hsel⟩ := List.mem_filter.mp hs
    exact hall s hs ((hmem s hs).mp hsel)

end

/-- The rows add up to the campus card exactly when no session of the report that is in a
room out of service books time. -/
theorem breakdown_reconciles_iff (db : Db) (scope : ReportScope) :
    db.BreakdownReconciles scope ↔
      ∀ s ∈ db.roomSessions scope, db.OutOfService s.room → s.contribution.booked = 0 := by
  have hacc : Accounted db.rowKeys (db.roomSessions scope) (db.breakdownAcc scope)
      (db.roomTotals scope) := accounted_foldl (nodup_rowKeys db) _
  have hbooked := missed_eq_zero_iff (fun s => s.contribution_nonneg.1) db scope
  rw [Db.BreakdownReconciles, sum_roomBreakdown (u := (db.breakdownAcc scope).used) fun _ => rfl,
    sum_roomBreakdown (u := (db.breakdownAcc scope).booked) fun _ => rfl,
    sum_roomBreakdown (u := (db.breakdownAcc scope).wasted) fun _ => rfl, hacc.used, hacc.booked,
    hacc.wasted, ← hbooked]
  constructor
  · rintro ⟨-, hsame, -⟩
    omega
  · intro hnone
    have hall := hbooked.mp hnone
    -- a session that books nothing uses and wastes nothing
    have hused : missed db.rowKeys (fun s => s.contribution.used) (db.roomSessions scope) = 0 :=
      (missed_eq_zero_iff (fun s => s.contribution_nonneg.2) db scope).mpr fun s hs hout =>
        le_antisymm ((s.used_le_booked).trans (hall s hs hout).le) s.contribution_nonneg.2
    have hwasted : missed db.rowKeys Session.wastedSeconds (db.roomSessions scope) = 0 := by
      refine List.sum_eq_zero fun a ha => ?_
      obtain ⟨s, hs, rfl⟩ := List.mem_map.mp ha
      obtain ⟨hs, hsel⟩ := List.mem_filter.mp hs
      have hroom : s.room ∉ db.rowKeys := by simpa using hsel
      exact Session.wastedSeconds_of_booked (hall s hs ((notMem_rowKeys_iff hs).mp hroom))
    rw [hused, hwasted, hnone]
    omega

namespace Campus

/-- After the class the room is closed for repairs. -/
def renovated : Db :=
  { oneHeld with rooms := ⟨[⟨1, 1, "A101", "qr-1", "100001", true, "Repairs"⟩], by decide⟩ }

end Campus

open Campus in
/-- The class stays on the card, and there is no row for its room. -/
theorem breakdown_misses_renovated : ¬ ∀ (db : Db) (scope : ReportScope),
    db.BreakdownReconciles scope := by
  intro h
  have hused := (h renovated ⟨some 1, monday, monday, none, none⟩).1
  have hcard : (renovated.roomTotals ⟨some 1, monday, monday, none, none⟩).usedSeconds = 3300 := by
    decide +kernel
  have hrows : renovated.roomBreakdown ⟨some 1, monday, monday, none, none⟩ = [] := by
    decide +kernel
  rw [hrows, hcard] at hused
  exact absurd hused (by decide)

end FluxTrack
