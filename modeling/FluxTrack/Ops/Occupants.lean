import FluxTrack.Ops.Availability

/-!
# Who holds a room

The four ways to hold a room, as one relation between a room, a slot and its occupant. A
room is free for a slot if nothing but what the question leaves out occupies it.

## Main definitions

* `Occupant`, `Db.Occupies` — what can hold a room, and what does
* `Occupant.schedule?` — the schedule an occupant belongs to
* `Occupant.Excluded` — what a question about a room leaves out

## Main results

* `Db.roomIsFree_iff` — a free room
-/

namespace FluxTrack

open Calendar Relational

/-- What can hold a room: a session, a booking, an occurrence of the timetable without a
session, or an approved shift. -/
inductive Occupant
  | session (s : Session)
  | booking (b : Booking)
  | occurrence (sched : Schedule)
  | reservation (sh : Shift)

namespace Occupant

/-- The schedule of an occupant; a booking has none. -/
def schedule? : Occupant → Option ℕ
  | session s => some s.schedule
  | booking _ => none
  | occurrence sched => some sched.id
  | reservation sh => some sh.item.schedule

/-- The question excludes the occupant: its session by its own key, its occurrences and
reservations by that of their schedule. -/
def Excluded (excludeSession excludeSchedule : Option ℕ) : Occupant → Prop
  | session s => excludeSession = some s.id
  | booking _ => False
  | occurrence sched => excludeSchedule = some sched.id
  | reservation sh => excludeSchedule = some sh.item.schedule

/-- A question that excludes nothing. -/
theorem not_excluded_none (o : Occupant) : ¬ o.Excluded none none := by
  cases o <;> exact nofun

end Occupant

namespace Db

/-- The occupant holds the room at some time of the slot. -/
def Occupies (db : Db) (room : ℕ) (start finish : ℤ) : Occupant → Prop
  | .session s => s ∈ db.sessions ∧ db.Holds room start finish s
  | .booking b => b ∈ db.bookings ∧ b.room = room ∧ b.status = .active ∧
      overlaps b.startDatetime b.endDatetime start finish = true
  | .occurrence sched => sched ∈ db.schedules ∧ db.Forecast room start finish sched
  | .reservation sh => db.Reserves room start finish sh

variable {db : Db} {room : ℕ} {start finish : ℤ}

theorem bookingOccupies_iff :
    db.bookingOccupies room start finish = true ↔
      ∃ b, db.Occupies room start finish (.booking b) := by
  rw [bookingOccupies, List.any_eq_true]
  refine exists_congr fun b => and_congr_right fun _ => ?_
  simp only [Bool.and_eq_true, beq_iff_eq, and_assoc]

/-- A room is free iff nothing occupies it but what the question excludes. -/
theorem roomIsFree_iff {excludeSession excludeSchedule : Option ℕ} :
    db.roomIsFree room start finish excludeSession excludeSchedule = true ↔
      ∀ o, db.Occupies room start finish o → o.Excluded excludeSession excludeSchedule := by
  rw [← not_iff_not, Bool.not_eq_true, roomIsFree_eq_false_iff, bookingOccupies_iff,
    scheduleOccupies_iff, reservationOccupies_iff]
  push Not
  constructor
  · rintro (⟨s, hs, hholds, hne⟩ | ⟨b, hb⟩ | ⟨sched, hsched, hforecast, hne⟩ | ⟨sh, hsh, hne⟩)
    · exact ⟨.session s, ⟨hs, hholds⟩, hne⟩
    · exact ⟨.booking b, hb, id⟩
    · exact ⟨.occurrence sched, ⟨hsched, hforecast⟩, hne⟩
    · exact ⟨.reservation sh, hsh, hne⟩
  · rintro ⟨o, ho, hne⟩
    cases o with
    | session s => exact .inl ⟨s, ho.1, ho.2, hne⟩
    | booking b => exact .inr (.inl ⟨b, ho⟩)
    | occurrence sched => exact .inr (.inr (.inl ⟨sched, ho.1, ho.2, hne⟩))
    | reservation sh => exact .inr (.inr (.inr ⟨sh, ho, hne⟩))

/-- A room is free for a question that excludes nothing iff it is not occupied. -/
theorem roomIsFree_none_iff :
    db.roomIsFree room start finish none none = true ↔ ∀ o, ¬ db.Occupies room start finish o := by
  rw [roomIsFree_iff]
  exact forall_congr' fun o => imp_congr_right fun _ => iff_false_intro o.not_excluded_none

end Db

end FluxTrack
