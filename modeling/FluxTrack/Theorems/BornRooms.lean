import FluxTrack.Theorems.Births

/-!
# Sessions that are born into an assigned room

A session whose occurrence is covered by an approved room shift is born into the room that
the shift has assigned. Nobody looks whether the room is free then: the assignment was made
for the sessions there were when the shift was approved, and the last of their rooms holds
for the later dates too.

## Main definitions

* `Db.RoomKept` — nothing stands in the way of a session in the room it is assigned
* `Db.NoOverlap` — no two occupants are in one room at the same time

## Main results

* `bornAssigned_alone_iff` — when the sessions of a run are alone in their assigned rooms
* `bornAssigned_collide` — a run in a reopened term puts two classes into one room
-/

namespace FluxTrack

open Calendar Relational Process

/-- The room that a session of the occurrence is assigned by an approved room shift. -/
def Db.bornRoom? (db : Db) (schedule : ℕ) (d : ℤ) : Option ℕ :=
  (db.bornShift schedule d).bind fun sh =>
    if sh.request.targetModality = .online then none else sh.item.assignedRoom

/-- A session that is assigned a room is born there. -/
theorem Db.room_unborn {db : Db} {sched : Schedule} {d now : ℤ} {room : ℕ}
    (h : db.bornRoom? sched.id d = some room) :
    (db.unborn sched d now).room = room := by
  obtain ⟨⟨item, request⟩, hshift, hroom⟩ := Option.bind_eq_some_iff.mp h
  split at hroom
  · cases hroom
  · rename_i honline
    rw [Db.unborn, hshift, Session.born_of_assigned _ honline hroom]
    rfl

/-! ### Alone in the room -/

/-- Before a run, nothing stands in the way of the session of an occurrence in its room: what
occupies the room is a reservation of its own class or an occurrence that the run creates
too, and no other session of the run is born into the room at that time. -/
structure Db.RoomKept (db : Db) (term : AcademicTerm) (start days : ℤ) (allowDraft : Bool) (now : ℤ)
    (sched : Schedule) (d : ℤ) : Prop where
  before : ∀ o, db.Occupies (db.unborn sched d now).room (db.unborn sched d now).scheduledStart
    (db.unborn sched d now).scheduledEnd o →
      o.Excluded none (some sched.id) ∨
        ∃ other, o = .occurrence other ∧ db.Bears term start days allowDraft other d
  births : ∀ other, db.Bears term start days allowDraft other d → other.id ≠ sched.id →
    ¬ db.Holds (db.unborn sched d now).room (db.unborn sched d now).scheduledStart
      (db.unborn sched d now).scheduledEnd (db.unborn other d now)

section

variable {db : Db} {term : AcademicTerm} {start days now : ℤ} {allowDraft : Bool}
variable {sched : Schedule} {d : ℤ} {x : Session}

/-- A session that a run creates is alone in its room exactly when that was kept for it. -/
theorem roomIsFree_born_iff (hdb : db.OneEach)
    (hx : x ∈ ((materializeTerm term start days allowDraft now).run db).2.sessions)
    (hnew : ∀ s ∈ db.sessions, s.id ≠ x.id)
    (heq : x = { db.unborn sched d now with id := x.id }) :
    ((materializeTerm term start days allowDraft now).run db).2.roomIsFree
      (db.unborn sched d now).room (db.unborn sched d now).scheduledStart
      (db.unborn sched d now).scheduledEnd (some x.id) (some sched.id) = true ↔
    db.RoomKept term start days allowDraft now sched d := by
  have hborne := borneAll_of_oneEach hdb term start days allowDraft now
  obtain ⟨t, t', hstart, hend⟩ := db.slotOnDate_unborn sched d now
  rw [(db.unborn_occurrence sched d now).2] at hstart hend
  have hkept : db.RoomKept term start days allowDraft now sched d ↔
      (∀ o, db.Occupies (db.unborn sched d now).room (makeAware d t) (makeAware d t') o →
        o.Excluded none (some sched.id) ∨
          ∃ other, o = .occurrence other ∧ db.Bears term start days allowDraft other d) ∧
      ∀ other, db.Bears term start days allowDraft other d → other.id ≠ sched.id →
        ¬ db.Holds (db.unborn sched d now).room (makeAware d t) (makeAware d t')
          (db.unborn other d now) := by
    rw [← hstart, ← hend]
    exact ⟨fun h => ⟨h.before, h.births⟩, fun h => ⟨h.1, h.2⟩⟩
  rw [Db.roomIsFree_iff, hstart, hend, hborne.occupants_iff, hkept]
  -- what was there before, and what is born beside it
  refine and_congr (forall_congr' fun o => imp_congr_right fun ho => or_congr_left ?_)
    (forall_congr' fun other => imp_congr_right fun hother => ?_)
  · cases o with
    | session s =>
      refine iff_of_false (fun h => hnew s ho.1 (Option.some.inj h).symm) fun h => ?_
      cases h
    | booking b => exact Iff.rfl
    | occurrence other => exact Iff.rfl
    | reservation sh => exact Iff.rfl
  · constructor
    · intro h hne hholds
      obtain ⟨y, hy, hy_new, hy_eq⟩ := hborne.exists_born hother
      have hxy : x = y := Table.eq_of_key_eq hx hy (Option.some.inj (h hholds y hy hy_new hy_eq))
      refine hne ?_
      rw [← (fields_of_eq_unborn heq).1, hxy, (fields_of_eq_unborn hy_eq).1]
    · intro h hholds y hy _ hy_eq
      -- another session of the occurrence would be one too many
      have hid : other.id = sched.id := by
        by_contra hne
        exact h hne hholds
      obtain ⟨hx_sched, hx_date, -⟩ := fields_of_eq_unborn heq
      obtain ⟨hy_sched, hy_date, -⟩ := fields_of_eq_unborn hy_eq
      have hxy : x = y := oneEach_materializeTerm hdb term start days allowDraft now x hx y hy
        (by rw [hx_sched, hy_sched, hid]) (by rw [hx_date, hy_date])
      exact congrArg (fun z : Session => some z.id) hxy

end

/-- In every reachable state the sessions that a run creates into assigned rooms are alone
there, but for the reservations of their own classes, exactly when nothing stood in their
way before. -/
theorem bornAssigned_alone_iff {db : Db} (hreached : Reached db) (term : AcademicTerm)
    (start days : ℤ) (allowDraft : Bool) (now : ℤ) :
    (∀ x ∈ ((materializeTerm term start days allowDraft now).run db).2.sessions,
      (∀ s ∈ db.sessions, s.id ≠ x.id) →
      ∀ room, db.bornRoom? x.schedule x.date = some room → x.room = room ∧
        ((materializeTerm term start days allowDraft now).run db).2.roomIsFree room
          x.scheduledStart x.scheduledEnd (some x.id) (some x.schedule) = true) ↔
    ∀ sched d, db.Bears term start days allowDraft sched d →
      (db.bornRoom? sched.id d).isSome = true →
        db.RoomKept term start days allowDraft now sched d := by
  constructor
  · intro h sched d hbears hassigned
    obtain ⟨room, hroom⟩ := Option.isSome_iff_exists.mp hassigned
    obtain ⟨x, hx, hnew, heq⟩ :=
      (borneAll_of_oneEach hreached.oneEach term start days allowDraft now).exists_born hbears
    obtain ⟨hsched, hdate, -, hstart, hend⟩ := fields_of_eq_unborn heq
    obtain ⟨-, hfree⟩ := h x hx hnew room (by rw [hsched, hdate, hroom])
    rw [← db.room_unborn hroom, hstart, hend, hsched] at hfree
    exact (roomIsFree_born_iff hreached.oneEach hx hnew heq).mp hfree
  · intro h x hx hnew room hroom
    rcases (borne_materializeTerm db term start days allowDraft now).sessions x hx with
      hold | ⟨-, sched, d, hbears, heq⟩
    · exact absurd rfl (hnew x hold)
    · obtain ⟨hsched, hdate, hx_room, hstart, hend⟩ := fields_of_eq_unborn heq
      rw [hsched, hdate] at hroom
      have hkept := h sched d hbears (Option.isSome_iff_exists.mpr ⟨room, hroom⟩)
      refine ⟨hx_room.trans (db.room_unborn hroom), ?_⟩
      rw [← db.room_unborn hroom, hstart, hend, hsched]
      exact (roomIsFree_born_iff hreached.oneEach hx hnew heq).mpr hkept

/-! ### A collision -/

/-- The slot of an occupant on a date. -/
def Db.occupantSlot (db : Db) (d : ℤ) : Occupant → ℤ × ℤ
  | .session s => (s.scheduledStart, s.scheduledEnd)
  | .booking b => (b.startDatetime, b.endDatetime)
  | .occurrence sched => (makeAware d sched.startTime, makeAware d sched.endTime)
  | .reservation sh => db.reservedSlot sh.item d

/-- No two occupants are in one room at the same time, but what belongs to one class. -/
def Db.NoOverlap (db : Db) : Prop :=
  ∀ room d a b, db.Occupies room (db.occupantSlot d b).1 (db.occupantSlot d b).2 a →
    db.Occupies room (db.occupantSlot d b).1 (db.occupantSlot d b).2 b →
      a = b ∨ ∃ schedule, a.schedule? = some schedule ∧ b.schedule? = some schedule

namespace Campus

/-- The term, when it ends on the following Monday. -/
def shortTerm : AcademicTerm := ⟨1, "First Semester", 0, monday + 7, .active⟩

/-- The timetable of that term. -/
def shortTimetable : Db :=
  { timetable with terms := ⟨⟨[shortTerm], by decide⟩, by decide, by decide, by decide⟩ }

/-- The eight o'clock class is to go online on that Monday, and the nine o'clock class is to
meet at eight on both Mondays. -/
def twoRequests : Db :=
  { ((materializeTerm shortTerm monday 1 false 0).run shortTimetable).2 with
    requests := ⟨[
      ⟨1, 2, some 3, some 1, .online, monday, monday, false, .pending, "", none, none⟩,
      ⟨2, 1, some 3, some 1, .f2f, monday, monday + 7, true, .pending, "", none, none⟩],
      by decide⟩
    items := ⟨[⟨1, 1, 2, none, none, none, none⟩,
      ⟨2, 2, 1, none, none, some (hour 8), some (hour 9)⟩], by decide⟩ }

/-- Both requests are approved. -/
def bothApproved : Db :=
  ((applyApproval 2 dean 2).run ((applyApproval 1 dean 1).run twoRequests).2).2

/-- On its last day the term is closed, and reopened. -/
def closedAndReopened : Db :=
  ((reopenTerm 1 (some ifoAdmin) (some "First Semester") (some "Grades") [] (monday + 7)).run
    ((closeTerm 1 (some ifoAdmin) (some "First Semester") (some "Over")
      ["scheduled_sessions_present"] (monday + 7)).run bothApproved).2).2

theorem reached_twoRequests : Reached twoRequests :=
  .other (.materialize (.start (show shortTimetable.sessions.rows = [] from rfl)) shortTerm monday 1
    false 0) rfl

theorem reached_closedAndReopened : Reached closedAndReopened := by
  have hboth : Reached bothApproved := .approve (.approve reached_twoRequests 1 dean 1) 2 dean 2
  exact .other hboth (Table.ext (by decide +kernel))

/-- Whatever holds a room then belongs to the class that was moved. -/
theorem schedule?_of_occupies {room : ℕ} {start finish : ℤ} {o : Occupant}
    (h : closedAndReopened.Occupies room start finish o) : o.schedule? = some 1 := by
  cases o with
  | session s =>
    have hrows : ∀ s ∈ closedAndReopened.sessions.rows, s.roomReleasedAt = none →
        s.schedule = 1 := by decide +kernel
    exact congrArg some (hrows s h.1 h.2.unreleased)
  | booking b =>
    have hnone : closedAndReopened.bookings.rows = [] := by decide +kernel
    have hmem : b ∈ closedAndReopened.bookings.rows := h.1
    rw [hnone] at hmem
    cases hmem
  | occurrence sched =>
    -- the term is a draft, so that nothing is forecast
    have hdraft : ∀ t ∈ closedAndReopened.terms.table.rows, t.status ≠ .active := by decide +kernel
    have hmeets := h.2.meets
    simp only [Db.meetsOn, Bool.and_eq_true, Option.any_eq_true, beq_iff_eq] at hmeets
    obtain ⟨⟨-, t, hget, hactive, -⟩, -⟩ := hmeets
    exact absurd hactive (hdraft t (Table.get?_eq_some_iff.mp hget).1)
  | reservation sh =>
    have hitems : ∀ i ∈ closedAndReopened.items.rows, ∀ r ∈ closedAndReopened.requests.rows,
        r.id = i.request → r.targetModality ≠ .online → i.schedule = 1 := by decide +kernel
    obtain ⟨hitem, hget, -⟩ := Db.mem_approvedOn.mp h.approved
    obtain ⟨hrow, hkey⟩ := Table.get?_eq_some_iff.mp hget
    exact congrArg some (hitems _ hitem _ hrow hkey h.inPerson)

theorem noOverlap_closedAndReopened : closedAndReopened.NoOverlap :=
  fun _ _ _ _ ha hb => .inr ⟨1, schedule?_of_occupies ha, schedule?_of_occupies hb⟩

end Campus

open Campus in
/-- The class that was moved to ten is born into its new room, and nothing was in its way. -/
theorem bornAssigned_alone_shifted :
    (∃ x ∈ ((materializeTerm term monday 1 false 0).run shifted).2.sessions.rows,
      shifted.bornRoom? x.schedule x.date = some 2) ∧
    ∀ sched d, shifted.Bears term monday 1 false sched d →
      (shifted.bornRoom? sched.id d).isSome = true →
        shifted.RoomKept term monday 1 false 0 sched d := by
  refine ⟨by decide +kernel, (bornAssigned_alone_iff (.start rfl) term monday 1 false 0).mp ?_⟩
  have hrows : ∀ x ∈ ((materializeTerm term monday 1 false 0).run shifted).2.sessions.rows,
      (shifted.bornRoom? x.schedule x.date).all (fun room => decide (x.room = room) &&
        ((materializeTerm term monday 1 false 0).run shifted).2.roomIsFree room x.scheduledStart
          x.scheduledEnd (some x.id) (some x.schedule)) = true := by
    decide +kernel
  intro x hx _ room hroom
  have hx := hrows x hx
  rw [hroom, Option.all_some, Bool.and_eq_true, decide_eq_true_eq] at hx
  exact hx

open Campus in
/-- The term is activated again, and the two classes are born into one room at one time. -/
theorem bornAssigned_collide :
    ¬ ∀ db, Reached db → db.NoOverlap → ∀ term ∈ db.terms.table, ∀ (start days : ℤ)
      (allowDraft : Bool) (now : ℤ),
      ∀ x ∈ ((materializeTerm term start days allowDraft now).run db).2.sessions,
        (∀ s ∈ db.sessions, s.id ≠ x.id) →
        ∀ room, db.bornRoom? x.schedule x.date = some room → x.room = room ∧
          ((materializeTerm term start days allowDraft now).run db).2.roomIsFree room
            x.scheduledStart x.scheduledEnd (some x.id) (some x.schedule) = true := by
  intro h
  have hcollide : ∃ t ∈ closedAndReopened.terms.table.rows,
      ∃ x ∈ ((materializeTerm t (monday + 7) 1 true 3).run closedAndReopened).2.sessions.rows,
        (∀ s ∈ closedAndReopened.sessions.rows, s.id ≠ x.id) ∧
        closedAndReopened.bornRoom? x.schedule x.date = some 1 ∧
        ((materializeTerm t (monday + 7) 1 true 3).run closedAndReopened).2.roomIsFree 1
          x.scheduledStart x.scheduledEnd (some x.id) (some x.schedule) = false := by
    decide +kernel
  obtain ⟨t, ht, x, hx, hnew, hroom, hfree⟩ := hcollide
  obtain ⟨-, hfree'⟩ := h closedAndReopened reached_closedAndReopened noOverlap_closedAndReopened t ht
    (monday + 7) 1 true 3 x hx hnew 1 hroom
  rw [hfree] at hfree'
  cases hfree'

end FluxTrack
