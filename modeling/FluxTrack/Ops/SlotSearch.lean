import FluxTrack.Data.Strides
import FluxTrack.Ops.Availability

/-!
# Alternative times

`available_times_for` of `ops/availability.py`: the day of a session is walked through in
strides of the session's own length, and a stride is offered when a room of the building and
the teacher are free.

## Main definitions

* `dayOpen`, `dayClose` — the hours of the campus
* `Db.offersSlot` — the tests a stride has to pass
* `Db.availableTimesFor` — the search

## Main results

* `availableTimesFor_ends_iff` — the search ends iff the session has a positive length
* `soundSlot_of_availableTimesFor`, `apart_of_availableTimesFor` — what it answers with
-/

namespace FluxTrack

open Calendar Relational Process Strides

/-- `_DAY_OPEN`. -/
def dayOpen : TimeOfDay := .ofHM 7 0

/-- `_DAY_CLOSE`. -/
def dayClose : TimeOfDay := .ofHM 21 0

namespace Db

/-- The building of the room of the session's schedule. -/
def homeBuilding (db : Db) (s : Session) : ℕ := db.buildingOf (db.scheduleOf s).room

/-- The tests of one round: the slot is not the session's own, a room of the building is free,
and the teacher is. -/
def offersSlot (db : Db) (s : Session) (start finish : ℤ) : Bool :=
  !(start == s.scheduledStart && finish == s.scheduledEnd) &&
    !(db.freeRoomsInBuilding (db.homeBuilding s) start finish (some s.id) none).isEmpty &&
    !db.facultyHasConflict s.faculty start finish (some s.id)

/-- `available_times_for`, if `fuel` evaluations of the condition of its loop reach the end.
Dates are unbounded, so that a search backwards goes on for ever. -/
def availableTimesFor (db : Db) (fuel : ℕ) (s : Session) : Option (List (ℤ × ℤ)) :=
  let duration := s.scheduledEnd - s.scheduledStart
  let day := localDate s.scheduledStart
  walk duration (makeAware day dayClose) (db.offersSlot s) fuel (makeAware day dayOpen)

/-- What an offered slot promises. -/
structure SoundSlot (db : Db) (s : Session) (slot : ℤ × ℤ) : Prop where
  duration : slot.2 - slot.1 = s.scheduledEnd - s.scheduledStart
  opens : makeAware (localDate s.scheduledStart) dayOpen ≤ slot.1
  closes : slot.2 ≤ makeAware (localDate s.scheduledStart) dayClose
  other : slot ≠ (s.scheduledStart, s.scheduledEnd)
  room : ∃ r ∈ db.rooms, db.buildingOf r.id = db.homeBuilding s ∧
    db.roomIsFree r.id slot.1 slot.2 (some s.id) none = true
  teacher : ∀ t ∈ db.sessions, t.id ≠ s.id → t.faculty = s.faculty → t.status.occupying = true →
    overlaps slot.1 slot.2 t.scheduledStart t.scheduledEnd = false

end Db

section

variable {db : Db} {s : Session}

theorem dayOpen_lt_dayClose (d : ℤ) : makeAware d dayOpen < makeAware d dayClose := by
  have hhours : dayOpen.ticks < dayClose.ticks := by decide
  simp only [makeAware, Zone.combine]
  omega

/-- The search ends iff the session has a positive length. -/
theorem availableTimesFor_ends_iff :
    (∃ fuel slots, db.availableTimesFor fuel s = some slots) ↔
      s.scheduledStart < s.scheduledEnd := by
  refine walk_ends_iff.trans ?_
  have hday := dayOpen_lt_dayClose (localDate s.scheduledStart)
  constructor
  · rintro (hpos | hlong)
    · exact sub_pos.mp hpos
    · -- a stride that does not fit into the day is longer than none
      omega
  · exact fun hpos => .inl (sub_pos.mpr hpos)

/-- Of a session without a positive length the search never ends. -/
theorem availableTimesFor_eq_none (h : s.scheduledEnd ≤ s.scheduledStart) (fuel : ℕ) :
    db.availableTimesFor fuel s = none := by
  by_contra hends
  obtain ⟨slots, hslots⟩ := Option.ne_none_iff_exists'.mp hends
  exact absurd (availableTimesFor_ends_iff.mp ⟨fuel, slots, hslots⟩) (not_lt.mpr h)

variable {fuel : ℕ} {slots : List (ℤ × ℤ)}

/-- Every slot that is offered keeps its promises. -/
theorem soundSlot_of_availableTimesFor (hpos : s.scheduledStart < s.scheduledEnd)
    (h : db.availableTimesFor fuel s = some slots) {slot : ℤ × ℤ} (hslot : slot ∈ slots) :
    db.SoundSlot s slot := by
  obtain ⟨hopens, hlength, hcloses, hoffer⟩ := interval_of_walk (sub_pos.mpr hpos) h hslot
  simp only [Db.offersSlot, Bool.and_eq_true, Bool.not_eq_true', Bool.and_eq_false_iff,
    beq_eq_false_iff_ne] at hoffer
  obtain ⟨⟨hother, hroom⟩, hteacher⟩ := hoffer
  refine ⟨by omega, hopens, hcloses, ?other, ?room,
    Db.facultyHasConflict_eq_false_iff.mp hteacher⟩
  case other =>
    rintro rfl
    exact hother.elim (fun hne => hne rfl) fun hne => hne rfl
  case room =>
    obtain ⟨r, hr⟩ := List.isEmpty_eq_false_iff_exists_mem.mp hroom
    obtain ⟨⟨a, ha, hbuilding, rfl⟩, hfree⟩ := Db.mem_freeRoomsInBuilding_none.mp hr
    exact ⟨a, ha, hbuilding, hfree⟩

/-- The slots that are offered are apart from each other. -/
theorem apart_of_availableTimesFor (hpos : s.scheduledStart < s.scheduledEnd)
    (h : db.availableTimesFor fuel s = some slots) :
    slots.Pairwise fun a b => overlaps a.1 a.2 b.1 b.2 = false := by
  refine (pairwise_of_walk (sub_pos.mpr hpos) h).imp fun {a b} hab => ?_
  rw [Bool.eq_false_iff, ne_eq, overlaps_iff]
  exact fun hover => absurd hover.2 (not_lt.mpr hab)

end

end FluxTrack
