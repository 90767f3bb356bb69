import FluxTrack.Ops.Occupants
import FluxTrack.Theorems.RoomShift
import FluxTrack.Theorems.SlotDates

/-!
# Reservations that outlive their class

An approved room shift reserves its room for the whole window. Nothing that happens to the
class takes the reservation back: it stands when the class is dropped, it stands when the
class goes online, and it stands in the way of the class itself when that is shifted again.

## Main definitions

* `Db.Stays` — the occupants that dropping a class leaves
* `Db.withoutItemsOf` — the database without the shift items of a schedule

## Main results

* `resolveShiftRoom_original_iff` — the original room for a class that only stands in its own way
* `cancelSchedule_frees_iff` — what is free once a class has been dropped
* `onlineApproval_frees_iff` — the rooms of the sessions that an approval moves online
-/

namespace FluxTrack

open Calendar Relational Process

section

variable {db db' : Db} {room schedule : ℕ} {start finish today : ℤ}

/-! ### A class in its own way -/

/-- A class that nothing but its own session and its own reservations keeps out of its room is
given the room iff none of the reservations is there. -/
theorem resolveShiftRoom_original_iff (item : ModalityShiftItem) {sched : Schedule} {s : Session}
    (hown : ∀ o, db.Occupies sched.room start finish o →
      o = .session s ∨ ∃ sh, o = .reservation sh ∧ sh.item.schedule = s.schedule) :
    ((resolveShiftRoom sched item.preferredRoom start finish s.id).run db).1 =
        .ok (some sched.room) ↔
      ∀ sh, ¬ db.Occupies sched.room start finish (.reservation sh) := by
  have hfree : db.roomIsFree sched.room start finish (some s.id) none = true ↔
      ∀ sh, ¬ db.Occupies sched.room start finish (.reservation sh) := by
    rw [Db.roomIsFree_iff]
    constructor
    · intro hexcluded sh hsh
      cases hexcluded _ hsh
    · intro hnone o ho
      rcases hown o ho with rfl | ⟨sh, rfl, -⟩
      · rfl
      · exact absurd ho (hnone sh)
  rw [← hfree, resolveShiftRoom, Prog.run_select_bind]
  by_cases hroom : db.roomIsFree sched.room start finish (some s.id) none = true
  · rw [if_pos hroom]
    exact iff_of_true rfl hroom
  · -- the room is not among the free rooms of the building either
    rw [if_neg hroom, Prog.run_select]
    refine iff_of_false (fun hhead => hroom ?_) hroom
    exact Db.roomIsFree_of_mem_freeRooms (List.mem_of_head? (Except.ok.inj hhead))

/-- What is left when a question excludes the session and the reservations of its schedule. -/
theorem own_of_roomIsFree {s : Session} (hs : s ∈ db.sessions)
    (hfree : db.roomIsFree room start finish (some s.id) (some s.schedule) = true)
    (htimetable : db.scheduleOccupies room start finish none = false) (o : Occupant)
    (ho : db.Occupies room start finish o) :
    o = .session s ∨ ∃ sh, o = .reservation sh ∧ sh.item.schedule = s.schedule := by
  have hexcluded := Db.roomIsFree_iff.mp hfree o ho
  cases o with
  | session t => exact .inl (congrArg _ (Table.eq_of_key_eq ho.1 hs (Option.some.inj hexcluded).symm))
  | booking b => cases hexcluded
  | occurrence sched =>
    have hocc : db.scheduleOccupies room start finish none = true :=
      Db.scheduleOccupies_iff.mpr ⟨sched, ho.1, ho.2, nofun⟩
    rw [htimetable] at hocc
    cases hocc
  | reservation sh => exact .inr ⟨sh, rfl, (Option.some.inj hexcluded).symm⟩

end

namespace Campus

/-- The nine o'clock class has its room by an approved shift. -/
def reserved : Db := ((applyApproval 1 dean 0).run (requested .f2f)).2

/-- Nine o'clock of that Monday. -/
def nine : ℤ := wallClock monday 9 0 0

/-- Ten o'clock of that Monday. -/
def ten : ℤ := wallClock monday 10 0 0

end Campus

open Campus in
/-- A class without shifts is given its own room again. -/
theorem resolveShiftRoom_original_unshifted :
    ∃ s ∈ campus.sessions, s.id = 1 ∧
      ((resolveShiftRoom nineOClock none nine ten s.id).run campus).1 = .ok (some 1) := by
  obtain ⟨s, hs, hid, hfree⟩ : ∃ s ∈ campus.sessions.rows, s.id = 1 ∧
      campus.roomIsFree nineOClock.room nine ten (some s.id) (some s.schedule) = true := by
    decide +kernel
  refine ⟨s, hs, hid, (resolveShiftRoom_original_iff ⟨1, 1, 1, none, none, none, none⟩
    (own_of_roomIsFree hs hfree (by decide +kernel))).mpr fun sh hsh => ?_⟩
  have hitems : campus.items.rows = [] := by decide +kernel
  have hitem : sh.item ∈ campus.items.rows := (Db.mem_approvedOn.mp hsh.approved).1
  rw [hitems] at hitem
  cases hitem

open Campus in
/-- The class that holds its room by an approved shift is not given the room again: there is
no other one, so that a second shift would be denied. -/
theorem resolveShiftRoom_own_reservation :
    ¬ ∀ (db : Db) (item : ModalityShiftItem) (sched : Schedule) (s : Session) (start finish : ℤ),
      s ∈ db.sessions →
      (∀ o, db.Occupies sched.room start finish o →
        o = .session s ∨ ∃ sh, o = .reservation sh ∧ sh.item.schedule = s.schedule) →
      ((resolveShiftRoom sched item.preferredRoom start finish s.id).run db).1 =
        .ok (some sched.room) := by
  intro h
  obtain ⟨s, hs, hid, hsched⟩ : ∃ s ∈ reserved.sessions.rows, s.id = 1 ∧ s.schedule = 1 := by
    decide +kernel
  have hfree : reserved.roomIsFree nineOClock.room nine ten (some s.id) (some s.schedule) = true := by
    rw [hid, hsched]
    decide +kernel
  have hgiven := h reserved ⟨2, 2, 1, none, none, none, none⟩ nineOClock s nine ten hs
    (own_of_roomIsFree hs hfree (by decide +kernel))
  have hnone : ((resolveShiftRoom nineOClock none nine ten 1).run reserved).1 = .ok none := by
    decide +kernel
  rw [hid] at hgiven
  cases hnone.symm.trans hgiven

section

variable {db db' : Db} {room schedule : ℕ} {start finish today : ℤ}

/-! ### Dropping a class -/

/-- What keeps the room when the class is dropped: everything but its future scheduled
sessions, the occurrences that have no session yet and its reservations. -/
def Db.Stays (db : Db) (schedule : ℕ) (today : ℤ) : Occupant → Prop
  | .session s => s ∉ db.futureScheduled schedule today
  | .booking _ => True
  | .occurrence sched => sched.id ≠ schedule
  | .reservation sh => sh.item.schedule ≠ schedule

/-- The occupant is a reservation of the schedule. -/
def Occupant.ReservedFor (schedule : ℕ) : Occupant → Prop
  | .reservation sh => sh.item.schedule = schedule
  | _ => False

/-- The database with every shift item of the schedule deleted. -/
def Db.withoutItemsOf (db : Db) (schedule : ℕ) : Db :=
  { db with items := db.items.delete fun i => i.schedule == schedule }

theorem schedule_dropped (db : Db) {α : Type} (f : Schedule → α) (hf : ∀ a, f a.archive = f a)
    (actor : Option ℕ) (reason : String) (pk : ℕ) :
    f (((db.dropped schedule actor reason today).schedules.get? pk).getD default) =
      f ((db.schedules.get? pk).getD default) :=
  Table.getD_get?_update Schedule.key_archive hf

/-- Dropping a class keeps the schedule and the date of every session. -/
theorem materialized_dropped (db : Db) (actor : Option ℕ) (reason : String) (pk : ℕ) (d : ℤ) :
    (db.dropped schedule actor reason today).materialized pk d = db.materialized pk d := by
  refine (List.any_map ..).trans (congrArg (fun p => db.sessions.rows.any p) (funext fun s => ?_))
  rw [Function.comp_apply]
  split <;> rfl

/-- A session that dropping a class leaves. -/
theorem occupies_session_dropped {actor : Option ℕ} {reason : String} {s : Session} :
    (db.dropped schedule actor reason today).Occupies room start finish (.session s) ↔
      db.Occupies room start finish (.session s) ∧ s ∉ db.futureScheduled schedule today := by
  have hmod : (db.dropped schedule actor reason today).effectiveModality s =
      db.effectiveModality s :=
    congrArg s.declaredModality.getD (schedule_dropped db Schedule.modality (fun _ => rfl) _ _ _)
  constructor
  · rintro ⟨hs, hholds⟩
    obtain ⟨a, ha, rfl⟩ := mem_sessions_dropped.mp hs
    by_cases hsel : a ∈ db.futureScheduled schedule today
    · -- a cancelled session holds no room
      rw [if_pos hsel] at hholds
      cases hholds.status
    · rw [if_neg hsel] at hholds hmod ⊢
      exact ⟨⟨ha, hholds.room, hholds.status, hholds.unreleased, hholds.overlaps,
        hmod ▸ hholds.inPerson⟩, hsel⟩
  · rintro ⟨⟨hs, hholds⟩, hsel⟩
    refine ⟨mem_sessions_dropped.mpr ⟨s, hs, if_neg hsel⟩, hholds.room, hholds.status,
      hholds.unreleased, hholds.overlaps, ?_⟩
    rw [hmod]
    exact hholds.inPerson

/-- An occurrence that dropping a class leaves. -/
theorem occupies_occurrence_dropped {actor : Option ℕ} {reason : String} {sched : Schedule} :
    (db.dropped schedule actor reason today).Occupies room start finish (.occurrence sched) ↔
      db.Occupies room start finish (.occurrence sched) ∧ sched.id ≠ schedule := by
  have hforecast : ∀ a : Schedule,
      (db.dropped schedule actor reason today).Forecast room start finish a ↔
        db.Forecast room start finish a := by
    intro a
    have hmissing : (db.dropped schedule actor reason today).materialized a.id (localDate start) =
        db.materialized a.id (localDate start) := materialized_dropped db actor reason _ _
    constructor
    · intro h
      exact ⟨h.room, h.meets, hmissing ▸ h.missing, h.notExcused, h.ownRoom, h.overlaps⟩
    · intro h
      exact ⟨h.room, h.meets, hmissing.trans h.missing, h.notExcused, h.ownRoom, h.overlaps⟩
  constructor
  · rintro ⟨hsched, h⟩
    obtain ⟨a, ha, rfl⟩ := (Table.mem_update_iff Schedule.key_archive).mp hsched
    by_cases hid : a.id = schedule
    · -- an archived schedule does not meet
      rw [if_pos (beq_iff_eq.mpr hid)] at h
      cases (Bool.and_eq_true_iff.mp (Bool.and_eq_true_iff.mp h.meets).1).1
    · rw [if_neg (by simpa using hid)] at h ⊢
      exact ⟨⟨ha, (hforecast a).mp h⟩, hid⟩
  · rintro ⟨⟨hsched, h⟩, hid⟩
    refine ⟨Table.mem_update_of_neg Schedule.key_archive hsched ?_, (hforecast sched).mpr h⟩
    simpa using hid

/-- Dropping a class leaves every reservation. -/
theorem occupies_reservation_dropped {actor : Option ℕ} {reason : String} {sh : Shift} :
    (db.dropped schedule actor reason today).Occupies room start finish (.reservation sh) ↔
      db.Occupies room start finish (.reservation sh) := by
  have hday : (((db.dropped schedule actor reason today).schedules.get?
      sh.item.schedule).getD default).dayOfWeek =
        ((db.schedules.get? sh.item.schedule).getD default).dayOfWeek :=
    schedule_dropped db Schedule.dayOfWeek (fun _ => rfl) actor reason _
  have hslot : (db.dropped schedule actor reason today).reservedSlot sh.item (localDate start) =
      db.reservedSlot sh.item (localDate start) :=
    schedule_dropped db (fun a => (makeAware (localDate start) (sh.item.newStartTime.getD
      a.startTime), makeAware (localDate start) (sh.item.newEndTime.getD a.endTime)))
      (fun _ => rfl) actor reason _
  constructor
  · intro h
    exact ⟨h.approved, h.room, hday ▸ h.weekday, h.inPerson, hslot ▸ h.overlaps⟩
  · intro h
    refine ⟨h.approved, h.room, hday.trans h.weekday, h.inPerson, ?_⟩
    rw [hslot]
    exact h.overlaps

/-! ### Without the items of a schedule -/

theorem mem_approvedOn_withoutItemsOf {d : ℤ} {sh : Shift} :
    sh ∈ (db.withoutItemsOf schedule).approvedOn d ↔
      sh ∈ db.approvedOn d ∧ sh.item.schedule ≠ schedule := by
  have hitem : sh.item ∈ (db.withoutItemsOf schedule).items ↔
      sh.item ∈ db.items ∧ sh.item.schedule ≠ schedule := by
    refine List.mem_filter.trans (and_congr_right fun _ => ?_)
    simp only [Bool.not_eq_true', beq_eq_false_iff_ne]
  rw [Db.mem_approvedOn, Db.mem_approvedOn, hitem]
  constructor
  · rintro ⟨⟨hmem, hne⟩, hrest⟩
    exact ⟨⟨hmem, hrest⟩, hne⟩
  · rintro ⟨⟨hmem, hrest⟩, hne⟩
    exact ⟨⟨hmem, hne⟩, hrest⟩

/-- The shifts of another schedule are as they were. -/
theorem approvedShifts_withoutItemsOf {other : ℕ} (hne : other ≠ schedule) (d : ℤ) :
    (db.withoutItemsOf schedule).approvedShifts other d = db.approvedShifts other d := by
  simp only [Db.approvedShifts, Db.approvedOn, Db.withoutItemsOf, Table.delete,
    List.filterMap_filter, List.filter_filterMap]
  refine List.filterMap_congr fun i _ => ?_
  by_cases hi : i.schedule = schedule
  · -- an item of the schedule is none of the other one's
    rw [hi, beq_self_eq_true, Bool.not_true, if_neg Bool.false_ne_true]
    refine Eq.symm (Option.filter_eq_none_iff.mpr fun sh hsh => ?_)
    obtain ⟨r, -, rfl⟩ := Option.map_eq_some_iff.mp (Option.filter_eq_some_iff.mp hsh).1
    rw [beq_iff_eq, hi]
    exact hne.symm
  · rw [beq_eq_false_iff_ne.mpr hi, Bool.not_false, if_pos rfl]

/-- Without the items of an archived schedule its reservations are gone, and nothing else. -/
theorem occupies_withoutItemsOf
    (harchived : ∀ a ∈ db.schedules, a.id = schedule → a.status = .archived) (o : Occupant) :
    (db.withoutItemsOf schedule).Occupies room start finish o ↔
      db.Occupies room start finish o ∧ ¬ o.ReservedFor schedule := by
  cases o with
  | session s =>
    constructor
    · rintro ⟨hs, h⟩
      exact ⟨⟨hs, ⟨h.room, h.status, h.unreleased, h.overlaps, h.inPerson⟩⟩, id⟩
    · rintro ⟨⟨hs, h⟩, -⟩
      exact ⟨hs, ⟨h.room, h.status, h.unreleased, h.overlaps, h.inPerson⟩⟩
  | booking b => exact ⟨fun h => ⟨h, id⟩, And.left⟩
  | occurrence sched =>
    by_cases hid : sched.id = schedule
    · -- an archived class meets on no date, with or without its items
      have hgone : ∀ db₀ : Db, db₀.schedules = db.schedules →
          ¬ db₀.Occupies room start finish (.occurrence sched) := by
        rintro db₀ hsame ⟨hsched, h⟩
        have hactive := (Bool.and_eq_true_iff.mp (Bool.and_eq_true_iff.mp h.meets).1).1
        rw [harchived sched (hsame ▸ hsched) hid] at hactive
        cases hactive
      exact iff_of_false (hgone _ rfl) fun h => hgone db rfl h.1
    · -- the latest shift of another class is not one of the removed items
      have hown : (db.withoutItemsOf schedule).heldInOwnRoom sched (localDate start) =
          db.heldInOwnRoom sched (localDate start) := by
        rw [Db.heldInOwnRoom, Db.heldInOwnRoom, Db.latestShift, Db.latestShift,
          approvedShifts_withoutItemsOf hid]
      constructor
      · rintro ⟨hs, h⟩
        exact ⟨⟨hs, ⟨h.room, h.meets, h.missing, h.notExcused, hown ▸ h.ownRoom, h.overlaps⟩⟩, id⟩
      · rintro ⟨⟨hs, h⟩, -⟩
        exact ⟨hs, ⟨h.room, h.meets, h.missing, h.notExcused, hown.trans h.ownRoom, h.overlaps⟩⟩
  | reservation sh =>
    constructor
    · intro h
      obtain ⟨happroved, hne⟩ := mem_approvedOn_withoutItemsOf.mp h.approved
      exact ⟨⟨happroved, h.room, h.weekday, h.inPerson, h.overlaps⟩, hne⟩
    · rintro ⟨h, hne⟩
      exact ⟨mem_approvedOn_withoutItemsOf.mpr ⟨h.approved, hne⟩, h.room, h.weekday,
        h.inPerson, h.overlaps⟩

/-- What holds a room once the class has been dropped. -/
theorem occupies_dropped {actor : Option ℕ} {reason : String} (o : Occupant) :
    (db.dropped schedule actor reason today).Occupies room start finish o ↔
      db.Occupies room start finish o ∧ (db.Stays schedule today o ∨ o.ReservedFor schedule) := by
  cases o with
  | session s =>
    rw [occupies_session_dropped]
    exact and_congr_right fun _ => (or_iff_left id).symm
  | booking b => exact ⟨fun h => ⟨h, .inl trivial⟩, And.left⟩
  | occurrence sched =>
    rw [occupies_occurrence_dropped]
    exact and_congr_right fun _ => (or_iff_left id).symm
  | reservation sh =>
    rw [occupies_reservation_dropped]
    exact ⟨fun h => ⟨h, (ne_or_eq _ _)⟩, And.left⟩

/-- What stays when a class is dropped is none of its reservations. -/
theorem Db.Stays.not_reservedFor {o : Occupant} (h : db.Stays schedule today o) :
    ¬ o.ReservedFor schedule := by
  cases o with
  | reservation sh => exact h
  | _ => exact id

end

/-- A class that has been dropped leaves a room as free as if its shifts had never been asked
for iff none of its reservations holds the room, or something else does that stays. -/
theorem cancelSchedule_frees_iff {db db' : Db} {schedule n : ℕ} {actor : Option ℕ}
    {reason : String} {today : ℤ}
    (h : (cancelSchedule schedule actor reason today).run db = (.ok n, db')) (room : ℕ)
    (start finish : ℤ) :
    db'.roomIsFree room start finish none none =
        (db'.withoutItemsOf schedule).roomIsFree room start finish none none ↔
      (∀ sh, db.Occupies room start finish (.reservation sh) → sh.item.schedule ≠ schedule) ∨
      ∃ o, db.Occupies room start finish o ∧ db.Stays schedule today o := by
  rcases run_cancelSchedule_cases db schedule actor reason today with
    ⟨e, hrun⟩ | ⟨sched, -, -, -, hrun⟩
  · cases hrun.symm.trans h
  · obtain rfl : db.dropped schedule actor reason today = db' :=
      (Prod.ext_iff.mp (hrun.symm.trans h)).2
    have harchived : ∀ a ∈ (db.dropped schedule actor reason today).schedules,
        a.id = schedule → a.status = .archived := by
      intro a ha hid
      obtain ⟨b, -, rfl⟩ := (Table.mem_update_iff Schedule.key_archive).mp ha
      by_cases hb : (b.id == schedule) = true
      · rw [if_pos hb]
        rfl
      · rw [if_neg hb] at hid
        exact absurd (beq_iff_eq.mpr hid) hb
    rw [Bool.eq_iff_iff, Db.roomIsFree_none_iff, Db.roomIsFree_none_iff]
    -- both sides are now about who occupies the room before the drop
    simp only [occupies_withoutItemsOf harchived, occupies_dropped]
    constructor
    · intro hsame
      by_cases hstays : ∃ o, db.Occupies room start finish o ∧ db.Stays schedule today o
      · exact .inr hstays
      · refine .inl fun sh hsh hown => ?_
        -- with nobody who stays, the room would be free but for the reservation
        refine hsame.mpr (fun o ho => ?_) (.reservation sh) ⟨hsh, .inr hown⟩
        exact hstays ⟨o, ho.1.1, ho.1.2.resolve_right ho.2⟩
    · rintro (hnone | ⟨o, ho, hstays⟩)
      · refine ⟨fun hfree o ho => hfree o ho.1, fun hfree o ho => ?_⟩
        refine hfree o ⟨ho, fun hown => ?_⟩
        cases o with
        | reservation sh => exact hnone sh ho.1 hown
        | _ => exact hown
      · -- an occupant who stays keeps the room in both databases
        refine iff_of_false (fun hfree => ?_) fun hfree => ?_
        · exact hfree o ⟨ho, .inl hstays⟩
        · exact hfree o ⟨⟨ho, .inl hstays⟩, hstays.not_reservedFor⟩

namespace Campus

/-- The reserved class is dropped. -/
def droppedReserved : Db := ((cancelSchedule 1 none "" monday).run reserved).2

end Campus

open Campus in
/-- A class without shifts is dropped, and nothing of it keeps the room. -/
theorem cancelSchedule_frees_unshifted :
    ((cancelSchedule 1 none "" monday).run campus).2.roomIsFree 1 nine ten none none =
      (((cancelSchedule 1 none "" monday).run campus).2.withoutItemsOf 1).roomIsFree 1 nine ten
        none none := by
  have hok : ((cancelSchedule 1 none "" monday).run campus).1 = .ok 1 := by decide +kernel
  refine (cancelSchedule_frees_iff (Prod.ext hok rfl) 1 nine ten).mpr (.inl fun sh hsh => ?_)
  -- there are no shift items at all
  have hitems : campus.items.rows = [] := by decide +kernel
  have hitem : sh.item ∈ campus.items.rows := (Db.mem_approvedOn.mp hsh.approved).1
  rw [hitems] at hitem
  cases hitem

open Campus in
/-- The class whose shift was approved is dropped, and its room stays taken. -/
theorem cancelSchedule_keeps_reservation :
    ¬ ∀ (db db' : Db) (schedule n : ℕ) (actor : Option ℕ) (reason : String) (today : ℤ),
      (cancelSchedule schedule actor reason today).run db = (.ok n, db') →
        ∀ room start finish, today ≤ localDate start →
          db'.roomIsFree room start finish none none =
            (db'.withoutItemsOf schedule).roomIsFree room start finish none none := by
  intro h
  have hok : ((cancelSchedule 1 none "" monday).run reserved).1 = .ok 1 := by decide +kernel
  have hsame := h reserved droppedReserved 1 1 none "" monday (Prod.ext hok rfl) 1 nine ten
    (by decide +kernel)
  have htaken : droppedReserved.roomIsFree 1 nine ten none none = false := by decide +kernel
  have hfree : (droppedReserved.withoutItemsOf 1).roomIsFree 1 nine ten none none = true := by
    decide +kernel
  rw [htaken, hfree] at hsame
  cases hsame

/-! ### Going online -/

section

variable {db db' : Db} {req : ModalityShiftRequest} {dean room : ℕ} {now start finish : ℤ}
  {audit : List AuditLog} {notifications : List Notification}

/-- The approval of an online shift neither reserves a room nor takes a reservation back. -/
theorem reserves_approve_iff (hget : db.requests.get? req.id = some req)
    (hpending : req.status = .pending) (honline : req.targetModality = .online) {sh : Shift} :
    (db.approve req dean now audit notifications).Reserves room start finish sh ↔
      db.Reserves room start finish sh := by
  constructor
  · intro h
    rcases mem_approvedOn_approve h.approved with hold | ⟨-, hreq⟩
    · exact ⟨hold, h.room, h.weekday, h.inPerson, h.overlaps⟩
    · -- a shift of the request is online
      have hrow := (Db.mem_approvedOn.mp h.approved).2.1
      have hnew : (db.approve req dean now audit notifications).requests.get? sh.item.request =
          some (req.approve dean now) := by
        rw [hreq]
        refine (Table.get?_update (ModalityShiftRequest.key_approve _ _)).trans ?_
        rw [hget, Option.map_some, if_pos (beq_self_eq_true req.id)]
      have hsame := Option.some.inj (hrow.symm.trans hnew)
      exact absurd (by rw [hsame]; exact honline) h.inPerson
  · intro h
    exact ⟨approvedOn_subset_approve hget hpending h.approved, h.room, h.weekday, h.inPerson,
      h.overlaps⟩

/-- Going online leaves every reservation as it is. -/
theorem reservation_applyOnline_iff (hget : db.requests.get? req.id = some req)
    (hpending : req.status = .pending) (honline : req.targetModality = .online) {db₁ : Db}
    (hshift : (applyShift req (db.affectedSessions req) dean now).run db = (.ok (), db₁))
    {sh : Shift} :
    (db₁.approve req dean now audit notifications).Occupies room start finish (.reservation sh) ↔
      db.Occupies room start finish (.reservation sh) := by
  rw [applyShift, if_pos honline] at hshift
  obtain ⟨sessions, audit', hrun, -⟩ := run_applyOnline (db.affectedSessions req) dean now db
  cases hshift.symm.trans hrun
  refine (reserves_approve_iff ?_ hpending honline).trans ⟨fun h => ?_, fun h => ?_⟩
  · exact hget
  · exact ⟨h.approved, h.room, h.weekday, h.inPerson, h.overlaps⟩
  · exact ⟨h.approved, h.room, h.weekday, h.inPerson, h.overlaps⟩

/-- A request affects the live sessions of a class on a date together. -/
theorem affects_of_sameDate {s t : Session} (haffects : req.affects db s = true)
    (hstatus : t.status.occupying = true) (hsched : t.schedule = s.schedule)
    (hdate : t.date = s.date) : req.affects db t = true := by
  obtain ⟨i, hi, hwindow⟩ := List.any_eq_true.mp haffects
  refine ModalityShiftRequest.affects_of_inWindow hi ?_
  rw [Session.inWindow, Bool.and_eq_true, Bool.and_eq_true] at hwindow
  rw [Session.inWindow, hstatus, hsched, hdate, hwindow.1.1, hwindow.2]
  rfl

/-- A shift that is done has declared the modality of every session it affects. -/
theorem Shifting.declared_of_affects {done : List ℕ} (h : Shifting req db done db')
    (hall : ∀ s ∈ db.sessions, req.affects db s = true → s.id ∈ done) {t : Session}
    (ht : t ∈ db'.sessions) (haffects : req.affects db t = true) :
    t.declaredModality = some req.targetModality := by
  obtain ⟨t₀, ht₀, hid, hocc⟩ := h.same.exists_mem ht
  have hdone := hall t₀ ht₀ ((ModalityShiftRequest.affects_congr hocc).trans haffects)
  exact h.declared t ht (hid ▸ hdone)

end

/-- In every reachable state: once a request to go online has been approved, the room of each
of its sessions, if no other class and no booking is in it, is free iff no approved room shift
of the class reserves it; and the approval has left all reservations as they were. -/
theorem onlineApproval_frees_iff {db db' : Db} (hreached : Reached db) {request : ℕ} {dean : User}
    {now : ℤ} (hrun : (applyApproval request dean now).run db = (.ok .approved, db'))
    {req : ModalityShiftRequest} (hget : db.requests.get? request = some req)
    (honline : req.targetModality = .online) :
    (∀ s₀ ∈ db.sessions, req.affects db s₀ = true → ∃ s ∈ db'.sessions, s.id = s₀.id ∧
      ((∀ o, db'.Occupies s.room s.scheduledStart s.scheduledEnd o → o.schedule? = some s.schedule) →
        (db'.roomIsFree s.room s.scheduledStart s.scheduledEnd none none = true ↔
          ∀ sh, db.Occupies s.room s.scheduledStart s.scheduledEnd (.reservation sh) →
            sh.item.schedule ≠ s.schedule))) ∧
    ∀ room start finish sh, db'.Occupies room start finish (.reservation sh) ↔
      db.Occupies room start finish (.reservation sh) := by
  have hslots : db'.SlotsOnDate := by
    have hnext := (hreached.approve request dean now).slotsOnDate
    rw [hrun] at hnext
    exact hnext
  rcases run_applyApproval_cases request dean now db with ⟨e, herror⟩ |
    ⟨req', hget', hpending, ⟨reason, hdenied⟩ | ⟨db₁, notifications, hshift, happroved⟩⟩
  · cases hrun.symm.trans herror
  · cases hrun.symm.trans hdenied
  · obtain rfl : req = req' := Option.some.inj (hget.symm.trans hget')
    have hid : req.id = request := (Table.get?_eq_some_iff.mp hget).2
    obtain ⟨done, hshifting, hall⟩ := shifting_applyShift hshift
    have hreservations : ∀ room start finish sh, db'.Occupies room start finish (.reservation sh) ↔
        db.Occupies room start finish (.reservation sh) := by
      intro room start finish sh
      cases hrun.symm.trans happroved
      exact reservation_applyOnline_iff (hid ▸ hget) hpending honline hshift
    refine ⟨fun s₀ hs₀ haffects => ?_, hreservations⟩
    have hsessions : db'.sessions = db₁.sessions := by
      cases hrun.symm.trans happroved
      rfl
    obtain ⟨s, hs, hsid, hocc⟩ := hshifting.same.symm.exists_mem hs₀
    rw [← ModalityShiftRequest.affects_congr hocc] at haffects
    rw [← hsessions] at hs
    refine ⟨s, hs, hsid, fun hothers => ?_⟩
    rw [Db.roomIsFree_none_iff]
    constructor
    · intro hfree sh hsh _
      exact hfree (.reservation sh) ((hreservations _ _ _ sh).mpr hsh)
    · intro hnone o ho
      have hmine := hothers o ho
      cases o with
      | session t =>
        -- a session of the class in the slot has its date, so it has gone online too
        obtain ⟨ht, hholds⟩ := ho
        have hdate := (hslots t ht).date_eq_of_overlaps (hslots s hs) hholds.overlaps
        have htaffects := affects_of_sameDate haffects hholds.status (Option.some.inj hmine) hdate
        rw [hsessions] at ht
        refine hholds.inPerson ?_
        rw [Db.effectiveModality, hshifting.declared_of_affects hall ht htaffects]
        exact honline
      | booking b => cases hmine
      | occurrence sched =>
        -- the occurrence of the date has its session
        have hmissing := ho.2.missing
        have hsched : s.schedule = sched.id := (Option.some.inj hmine).symm
        have hmat : db'.materialized sched.id (localDate s.scheduledStart) = true := by
          refine List.any_eq_true.mpr ⟨s, hs, ?_⟩
          simp only [hsched, (hslots s hs).localDate_start, beq_self_eq_true, Bool.and_self]
        rw [hmissing] at hmat
        cases hmat
      | reservation sh =>
        exact hnone sh ((hreservations _ _ _ sh).mp ho) (Option.some.inj hmine)

namespace Campus

/-- A second request moves the class that has its room by an approved shift online. -/
def reservedToOnline : Db :=
  { reserved with
    requests := reserved.requests.insert fun pk =>
      ⟨pk, 1, some 3, some 1, .online, monday, monday, false, .pending, "", none, none⟩
    items := reserved.items.insert fun pk =>
      ⟨pk, reserved.requests.nextKey, 1, none, none, none, none⟩ }

/-- The second request is approved. -/
def reservedOnline : Db := ((applyApproval 2 dean 0).run reservedToOnline).2

theorem reached_requested (target : Modality) : Reached (requested target) :=
  .other (.materialize (.start (show timetable.sessions.rows = [] from rfl)) term monday 1 false 0)
    rfl

theorem reached_reservedToOnline : Reached reservedToOnline :=
  .other (.approve (reached_requested .f2f) 1 dean 0) rfl

end Campus

/-- What is left when a question excludes a schedule belongs to it. -/
theorem Occupant.schedule?_of_excluded {schedule : ℕ} {o : Occupant}
    (h : o.Excluded none (some schedule)) : o.schedule? = some schedule := by
  cases o with
  | session s => cases h
  | booking b => cases h
  | occurrence sched => exact h.symm
  | reservation sh => exact h.symm

open Campus in
/-- A class without room shifts goes online, and its room is free. -/
theorem onlineApproval_frees_unreserved :
    ∃ s ∈ ((applyApproval 1 dean 0).run (requested .online)).2.sessions, s.id = 1 ∧
      ((applyApproval 1 dean 0).run (requested .online)).2.roomIsFree s.room s.scheduledStart
        s.scheduledEnd none none = true := by
  have hok : ((applyApproval 1 dean 0).run (requested .online)).1 = .ok .approved := by
    decide +kernel
  obtain ⟨req, hget, honline⟩ : ∃ req, (requested .online).requests.get? 1 = some req ∧
      req.targetModality = .online := ⟨_, rfl, rfl⟩
  have hscope : ∀ req ∈ (requested .online).requests.rows,
      ∃ s₀ ∈ (requested .online).sessions.rows, s₀.id = 1 ∧
        req.affects (requested .online) s₀ = true := by decide +kernel
  obtain ⟨s₀, hs₀, hid₀, haffects⟩ := hscope req (Table.get?_eq_some_iff.mp hget).1
  obtain ⟨hrooms, -⟩ := onlineApproval_frees_iff (reached_requested .online) (Prod.ext hok rfl)
    hget honline
  obtain ⟨s, hs, hid, hiff⟩ := hrooms s₀ hs₀ haffects
  have hfree : ∀ s ∈ ((applyApproval 1 dean 0).run (requested .online)).2.sessions.rows, s.id = 1 →
      ((applyApproval 1 dean 0).run (requested .online)).2.roomIsFree s.room s.scheduledStart
        s.scheduledEnd none (some s.schedule) = true := by decide +kernel
  refine ⟨s, hs, hid.trans hid₀, (hiff fun o ho => ?_).mpr fun sh hsh => ?_⟩
  · exact Occupant.schedule?_of_excluded
      (Db.roomIsFree_iff.mp (hfree s hs (hid.trans hid₀)) o ho)
  · -- the item of the request has no room
    have hitems : ∀ i ∈ (requested .online).items.rows, i.assignedRoom = none := by decide +kernel
    have hroom := hsh.room
    rw [hitems sh.item (Db.mem_approvedOn.mp hsh.approved).1] at hroom
    cases hroom

open Campus in
/-- The class whose room shift was approved goes online, and its room stays taken. -/
theorem onlineApproval_keeps_reservation :
    ¬ ∀ db db' : Db, Reached db → ∀ (request : ℕ) (dean : User) (now : ℤ),
      (applyApproval request dean now).run db = (.ok .approved, db') →
      ∀ req, db.requests.get? request = some req → req.targetModality = .online →
        ∀ s₀ ∈ db.sessions, req.affects db s₀ = true → ∃ s ∈ db'.sessions, s.id = s₀.id ∧
          ((∀ o, db'.Occupies s.room s.scheduledStart s.scheduledEnd o →
              o.schedule? = some s.schedule) →
            db'.roomIsFree s.room s.scheduledStart s.scheduledEnd none none = true) := by
  intro h
  have hok : ((applyApproval 2 dean 0).run reservedToOnline).1 = .ok .approved := by decide +kernel
  have hscope : ∃ req ∈ reservedToOnline.requests.rows, req.id = 2 ∧ req.targetModality = .online ∧
      ∃ s₀ ∈ reservedToOnline.sessions.rows, s₀.id = 1 ∧
        req.affects reservedToOnline s₀ = true := by decide +kernel
  obtain ⟨req, hreq, hkey, honline, s₀, hs₀, hid₀, haffects⟩ := hscope
  obtain ⟨s, hs, hid, hfree⟩ := h reservedToOnline reservedOnline reached_reservedToOnline 2 dean 0
    (Prod.ext hok rfl) req (Table.get?_eq_some_iff.mpr ⟨hreq, hkey⟩) honline s₀ hs₀ haffects
  have htaken : ∀ s ∈ reservedOnline.sessions.rows, s.id = 1 →
      reservedOnline.roomIsFree s.room s.scheduledStart s.scheduledEnd none (some s.schedule) = true ∧
        reservedOnline.roomIsFree s.room s.scheduledStart s.scheduledEnd none none = false := by
    decide +kernel
  obtain ⟨hown, htaken⟩ := htaken s hs (hid.trans hid₀)
  rw [hfree fun o ho => Occupant.schedule?_of_excluded (Db.roomIsFree_iff.mp hown o ho)] at htaken
  cases htaken

end FluxTrack
