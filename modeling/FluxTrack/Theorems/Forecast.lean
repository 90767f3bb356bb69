import FluxTrack.System

/-!
# Materialization and the forecast

Before its session exists, an occurrence of the timetable holds a room by forecast:
through the schedule itself or through the reservation of the latest approved shift.
Afterwards the session holds it. Both derivations agree, so that creating sessions
changes the answer to no question about a slot within one day.

## Main definitions

* `Db.ShiftsInOrder` — the latest shift of an occurrence is determined

## Main results

* `bornShift_eq_latestShift` — a session is born with the shift that was forecast
* `roomIsFree_bear` — the birth of one session changes no answer
* `roomIsFree_materializeTerm` — materialization changes no answer
-/

namespace FluxTrack

open Calendar Relational Process

/-- The latest approved shift of an occurrence is determined: the requests that cover it
were decided at different times, a request lists a schedule once, and a time move
has both ends. -/
structure Db.ShiftsInOrder (db : Db) : Prop where
  decidedApart : ∀ schedule d, ∀ a ∈ db.approvedShifts schedule d,
    ∀ b ∈ db.approvedShifts schedule d,
      a.request.decidedAt = b.request.decidedAt → a.request.id = b.request.id
  listedOnce : ∀ i ∈ db.items, ∀ j ∈ db.items,
    i.request = j.request → i.schedule = j.schedule → i = j
  wholeMoves : ∀ i ∈ db.items, i.newStartTime.isSome = i.newEndTime.isSome

/-! ### The latest shift -/

section

theorem decidedLE_total (a b : Option ℤ) : decidedLE a b ∨ decidedLE b a := by
  cases a with
  | none => exact .inl trivial
  | some a =>
    cases b with
    | none => exact .inr trivial
    | some b => exact le_total a b

theorem decidedLE_trans {a b c : Option ℤ} (hab : decidedLE a b) (hbc : decidedLE b c) :
    decidedLE a c := by
  cases a with
  | none => trivial
  | some a =>
    cases b with
    | none => cases hab
    | some b =>
      cases c with
      | none => cases hbc
      | some c => exact le_trans hab hbc

theorem decidedLE_antisymm {a b : Option ℤ} (hab : decidedLE a b) (hba : decidedLE b a) : a = b := by
  cases a with
  | none =>
    cases b with
    | none => rfl
    | some b => cases hba
  | some a =>
    cases b with
    | none => cases hab
    | some b => exact congrArg some (le_antisymm hab hba)

instance : Std.Total Shift.newer := ⟨fun _ _ => decidedLE_total _ _⟩

instance : IsTrans Shift Shift.newer := ⟨fun _ _ _ hab hbc => decidedLE_trans hbc hab⟩

instance : Std.Total Shift.newerByKey where
  total a b := by
    rcases decidedLE_total b.request.decidedAt a.request.decidedAt with hab | hba
    · by_cases hkey : b.newer a → b.item.id ≤ a.item.id
      · exact .inl ⟨hab, hkey⟩
      · push Not at hkey
        exact .inr ⟨hkey.1, fun _ => hkey.2.le⟩
    · by_cases hkey : a.newer b → a.item.id ≤ b.item.id
      · exact .inr ⟨hba, hkey⟩
      · push Not at hkey
        exact .inl ⟨hkey.1, fun _ => hkey.2.le⟩

instance : IsTrans Shift Shift.newerByKey where
  trans a b c hab hbc := by
    refine ⟨decidedLE_trans hbc.1 hab.1, fun hca => ?_⟩
    have hba : b.newer a := decidedLE_trans hca hbc.1
    have hcb : c.newer b := decidedLE_trans hab.1 hca
    exact (hbc.2 hcb).trans (hab.2 hba)

/-- The head of a sorted list precedes every element. -/
theorem head?_insertionSort {α : Type*} {r : α → α → Prop} [DecidableRel r] [Std.Total r]
    [IsTrans α r] {l : List α} {a : α} (h : (l.insertionSort r).head? = some a) :
    a ∈ l ∧ ∀ b ∈ l, b = a ∨ r a b := by
  have hsorted := List.pairwise_insertionSort r l
  refine ⟨(List.mem_insertionSort r).mp (List.mem_of_head? h), fun b hb => ?_⟩
  replace hb := (List.mem_insertionSort r).mpr hb
  cases hl : l.insertionSort r with
  | nil =>
    rw [hl] at h
    cases h
  | cons c rest =>
    rw [hl] at h hsorted hb
    obtain rfl : c = a := Option.some.inj h
    rcases List.mem_cons.mp hb with rfl | hb
    · exact .inl rfl
    · exact .inr ((List.pairwise_cons.mp hsorted).1 b hb)

theorem head?_insertionSort_eq_none {α : Type*} {r : α → α → Prop} [DecidableRel r] {l : List α} :
    (l.insertionSort r).head? = none ↔ l = [] := by
  rw [List.head?_eq_none_iff, ← List.length_eq_zero_iff, List.length_insertionSort,
    List.length_eq_zero_iff]

theorem mem_approvedShifts {db : Db} {schedule : ℕ} {d : ℤ} {sh : Shift} :
    sh ∈ db.approvedShifts schedule d ↔ sh ∈ db.approvedOn d ∧ sh.item.schedule = schedule := by
  rw [Db.approvedShifts, List.mem_filter, beq_iff_eq]

/-- Two approved shifts of an occurrence that were decided at the same time are one. -/
theorem Db.ShiftsInOrder.eq_of_decidedAt {db : Db} (h : db.ShiftsInOrder) {schedule : ℕ} {d : ℤ}
    {a b : Shift} (ha : a ∈ db.approvedShifts schedule d) (hb : b ∈ db.approvedShifts schedule d)
    (hat : a.request.decidedAt = b.request.decidedAt) : a = b := by
  have hid := h.decidedApart schedule d a ha b hb hat
  obtain ⟨haon, hasched⟩ := mem_approvedShifts.mp ha
  obtain ⟨hbon, hbsched⟩ := mem_approvedShifts.mp hb
  obtain ⟨hai, harow, -⟩ := Db.mem_approvedOn.mp haon
  obtain ⟨hbi, hbrow, -⟩ := Db.mem_approvedOn.mp hbon
  have hreq : a.item.request = b.item.request := by
    rw [← (Table.get?_eq_some_iff.mp harow).2, ← (Table.get?_eq_some_iff.mp hbrow).2]
    exact hid
  have hitem : a.item = b.item := h.listedOnce _ hai _ hbi hreq (hasched.trans hbsched.symm)
  have hrequest : a.request = b.request := by
    rw [hreq, hbrow] at harow
    exact (Option.some.inj harow).symm
  cases a
  cases b
  cases hitem
  cases hrequest
  rfl

/-- A session is born with the shift that was forecast. -/
theorem bornShift_eq_latestShift {db : Db} (h : db.ShiftsInOrder) (schedule : ℕ) (d : ℤ) :
    db.bornShift schedule d = db.latestShift schedule d := by
  cases hborn : db.bornShift schedule d with
  | none =>
    exact (head?_insertionSort_eq_none.mpr (head?_insertionSort_eq_none.mp hborn)).symm
  | some a =>
    cases hlatest : db.latestShift schedule d with
    | none =>
      rw [Db.bornShift, head?_insertionSort_eq_none.mp hlatest] at hborn
      cases hborn
    | some b =>
      obtain ⟨ha, hnewest⟩ := head?_insertionSort hborn
      obtain ⟨hb, hlast⟩ := head?_insertionSort hlatest
      -- each is at least as new as the other
      rcases hnewest b hb with heq | hab
      · rw [heq]
      · rcases hlast a ha with heq | hba
        · rw [heq]
        · rw [h.eq_of_decidedAt ha hb (decidedLE_antisymm hba.1 hab)]

end

/-! ### The birth of one session -/

section

variable {db : Db} {room : ℕ} {start finish : ℤ}

variable {term : AcademicTerm} {sched : Schedule} {d now : ℤ} {pk : ℕ}

theorem Db.Due.meetsOn (h : db.Due term sched d) (hterm : term ∈ db.terms.table)
    (hactive : term.status = .active) : db.meetsOn sched d = true := by
  have hget : db.terms.table.get? sched.term = some term := by
    rw [h.inTerm]
    exact Table.get?_key hterm
  simp [Db.meetsOn, hget, h.active, hactive, h.dates.1, h.dates.2, h.weekday]

/-- A due occurrence that would be held in its own room holds it by forecast. -/
theorem Db.Due.forecast (h : db.Due term sched d) (hterm : term ∈ db.terms.table)
    (hactive : term.status = .active) (hday : manila.WithinDay start finish)
    (hroom : sched.room = room) (hown : db.heldInOwnRoom sched d = true)
    (hover : Calendar.overlaps (makeAware d sched.startTime) (makeAware d sched.endTime)
      start finish = true) :
    db.Forecast room start finish sched := by
  obtain rfl : d = localDate start := manila.eq_of_overlaps_combine hday hover
  refine ⟨hroom, h.meetsOn hterm hactive, h.missing, ?_, hown, hover⟩
  rw [h.inTerm]
  exact h.notExcused

theorem scheduleOf_eq {s : Session} (hsched : sched ∈ db.schedules) (h : s.schedule = sched.id) :
    db.scheduleOf s = sched := by
  rw [Db.scheduleOf, h, show db.schedules.get? sched.id = some sched from Table.get?_key hsched]
  rfl

/-- The slot a session is born into is the reserved one. -/
theorem slot_born_eq_reservedSlot (d : ℤ) (pk : ℕ) {i : ModalityShiftItem}
    (hsched : sched ∈ db.schedules) (hi : i.schedule = sched.id)
    (hwhole : i.newStartTime.isSome = i.newEndTime.isSome) (r : ℕ) :
    (((sched.session d pk).place r (i.movedSlot d)).scheduledStart,
      ((sched.session d pk).place r (i.movedSlot d)).scheduledEnd) = db.reservedSlot i d := by
  have hget : (db.schedules.get? i.schedule).getD default = sched := by
    rw [hi, show db.schedules.get? sched.id = some sched from Table.get?_key hsched]
    rfl
  rw [Db.reservedSlot, hget]
  cases hst : i.newStartTime with
  | none =>
    have het : i.newEndTime = none := by
      rw [hst] at hwhole
      exact Option.isSome_eq_false_iff.mp hwhole.symm |> Option.isNone_iff_eq_none.mp
    simp [ModalityShiftItem.movedSlot, hst, het, Session.place, Schedule.session]
  | some st =>
    rw [hst] at hwhole
    obtain ⟨et, het⟩ := Option.isSome_iff_exists.mp hwhole.symm
    simp [ModalityShiftItem.movedSlot, hst, het, Session.place]

/-- A room that a new session holds was held by forecast. -/
theorem held_of_holds_born (h : db.Due term sched d) (hterm : term ∈ db.terms.table)
    (hactive : term.status = .active) (horder : db.ShiftsInOrder)
    (hday : manila.WithinDay start finish)
    (hx : db.Holds room start finish ((sched.session d pk).born (db.bornShift sched.id d) d now)) :
    db.Forecast room start finish sched ∨ db.reservationOccupies room start finish none = true := by
  rw [bornShift_eq_latestShift horder] at hx
  cases hshift : db.latestShift sched.id d with
  | none =>
    rw [hshift] at hx
    have hmod := hx.inPerson
    rw [Db.effectiveModality, scheduleOf_eq h.mem rfl] at hmod
    refine .inl (h.forecast hterm hactive hday hx.room ?_ hx.overlaps)
    rw [Db.heldInOwnRoom, hshift]
    exact bne_iff_ne.mpr hmod
  | some sh =>
    rw [hshift] at hx
    obtain ⟨item, request⟩ := sh
    obtain ⟨hmem, -⟩ := head?_insertionSort hshift
    obtain ⟨hon, hitem⟩ := mem_approvedShifts.mp hmem
    by_cases honline : request.targetModality = .online
    · rw [Session.born_of_online _ honline] at hx
      exact absurd hx.unreleased nofun
    · cases hassigned : item.assignedRoom with
      | none =>
        rw [Session.born_of_unassigned _ honline hassigned] at hx
        refine .inl (h.forecast hterm hactive hday hx.room ?_ hx.overlaps)
        simp [Db.heldInOwnRoom, hshift, honline, hassigned]
      | some r =>
        -- the session is where, and when, the shift has reserved the room
        rw [Session.born_of_assigned _ honline hassigned] at hx
        have hslot := slot_born_eq_reservedSlot d pk h.mem hitem
          (horder.wholeMoves item (Db.mem_approvedOn.mp hon).1) r
        have hover : Calendar.overlaps (db.reservedSlot item d).1 (db.reservedSlot item d).2
            start finish = true := by
          rw [← hslot]
          exact hx.overlaps
        obtain rfl : d = localDate start := manila.eq_of_overlaps_combine hday hover
        refine .inr (List.any_eq_true.mpr ⟨⟨item, request⟩, hon, ?_⟩)
        have hsched : (db.schedules.get? item.schedule).getD default = sched := by
          rw [show item.schedule = sched.id from hitem,
            show db.schedules.get? sched.id = some sched from Table.get?_key h.mem]
          rfl
        have hroom : r = room := hx.room
        simp [hassigned, hroom, hsched, h.weekday, honline, hover]

/-- A room that was held by forecast for a due occurrence is held by its new session. -/
theorem holds_born_of_forecast (pk : ℕ) (now : ℤ) (h : db.Due term sched (localDate start))
    (horder : db.ShiftsInOrder) (hx : db.Forecast room start finish sched) :
    db.Holds room start finish
      ((sched.session (localDate start) pk).born (db.bornShift sched.id (localDate start))
        (localDate start) now) := by
  have hown := hx.ownRoom
  rw [bornShift_eq_latestShift horder]
  cases hshift : db.latestShift sched.id (localDate start) with
  | none =>
    rw [Db.heldInOwnRoom, hshift] at hown
    refine ⟨hx.room, rfl, rfl, hx.overlaps, ?_⟩
    rw [Db.effectiveModality, scheduleOf_eq h.mem rfl]
    exact bne_iff_ne.mp hown
  | some sh =>
    obtain ⟨item, request⟩ := sh
    rw [Db.heldInOwnRoom, hshift] at hown
    simp only [Bool.and_eq_true, bne_iff_ne, Option.isNone_iff_eq_none] at hown
    rw [Session.born_of_unassigned _ hown.1 hown.2]
    exact ⟨hx.room, rfl, rfl, hx.overlaps, hown.1⟩

/-- The birth of a session ends the forecast for its own occurrence only. -/
theorem forecast_bear_iff {other : Schedule} {notifications : List Notification} :
    (db.bear sched d now notifications).Forecast room start finish other ↔
      db.Forecast room start finish other ∧ ¬ (sched.id = other.id ∧ d = localDate start) := by
  constructor
  · rintro ⟨hroom, hmeets, hmissing, hexcused, hown, hover⟩
    have hnot := mt Db.materialized_bear.mpr (Bool.eq_false_iff.mp hmissing)
    push Not at hnot
    exact ⟨⟨hroom, hmeets, Bool.eq_false_iff.mpr hnot.1, hexcused, hown, hover⟩,
      fun hsame => hnot.2 hsame.1 hsame.2⟩
  · rintro ⟨⟨hroom, hmeets, hmissing, hexcused, hown, hover⟩, hother⟩
    refine ⟨hroom, hmeets, Bool.eq_false_iff.mpr fun hmat => ?_, hexcused, hown, hover⟩
    rcases Db.materialized_bear.mp hmat with hmat | hsame
    · exact Bool.eq_false_iff.mp hmissing hmat
    · exact hother hsame

/-- The birth of one session changes no answer about a slot within one day. -/
theorem roomIsFree_bear (h : db.Due term sched d) (hterm : term ∈ db.terms.table)
    (hactive : term.status = .active) (horder : db.ShiftsInOrder)
    (hday : manila.WithinDay start finish) (notifications : List Notification) :
    (db.bear sched d now notifications).roomIsFree room start finish none none =
      db.roomIsFree room start finish none none := by
  have hiff : (db.bear sched d now notifications).roomIsFree room start finish none none = false ↔
      db.roomIsFree room start finish none none = false := by
    rw [Db.roomIsFree_eq_false_iff, Db.roomIsFree_eq_false_iff, Db.scheduleOccupies_iff,
      Db.scheduleOccupies_iff]
    constructor
    · rintro (⟨s, hs, hholds, hne⟩ | hbooked | ⟨other, hother, hforecast, hexcl⟩ | hreserved)
      · replace hholds : db.Holds room start finish s := ⟨hholds.room, hholds.status,
          hholds.unreleased, hholds.overlaps, hholds.inPerson⟩
        rcases Db.mem_sessions_bear.mp hs with hs | rfl
        · exact .inl ⟨s, hs, hholds, hne⟩
        · rcases held_of_holds_born h hterm hactive horder hday hholds with hforecast | hreserved
          · exact .inr (.inr (.inl ⟨sched, h.mem, hforecast, nofun⟩))
          · exact .inr (.inr (.inr hreserved))
      · exact .inr (.inl hbooked)
      · exact .inr (.inr (.inl ⟨other, hother, (forecast_bear_iff.mp hforecast).1, hexcl⟩))
      · exact .inr (.inr (.inr hreserved))
    · rintro (⟨s, hs, hholds, hne⟩ | hbooked | ⟨other, hother, hforecast, hexcl⟩ | hreserved)
      · exact .inl ⟨s, Db.mem_sessions_bear.mpr (.inl hs), ⟨hholds.room, hholds.status,
          hholds.unreleased, hholds.overlaps, hholds.inPerson⟩, hne⟩
      · exact .inr (.inl hbooked)
      · by_cases hsame : sched.id = other.id ∧ d = localDate start
        · -- the forecast was for the very occurrence that now has its session
          obtain ⟨hid, rfl⟩ := hsame
          obtain rfl : sched = other := Table.eq_of_key_eq h.mem hother hid
          have hborn := holds_born_of_forecast db.sessions.nextKey now h horder
            hforecast
          exact .inl ⟨_, Db.mem_sessions_bear.mpr (.inr rfl), ⟨hborn.room, hborn.status,
            hborn.unreleased, hborn.overlaps, hborn.inPerson⟩, nofun⟩
        · exact .inr (.inr (.inl ⟨other, hother,
            forecast_bear_iff.mpr ⟨hforecast, hsame⟩, hexcl⟩))
      · exact .inr (.inr (.inr hreserved))
  exact Bool.eq_iff_iff.mpr (by simpa using not_congr hiff)

end

/-! ### Materialization -/

/-- Materializing an active term changes the answer to no question whether a room is free
during a slot within one local day. -/
theorem roomIsFree_materializeTerm (db : Db) (term : AcademicTerm) (hterm : term ∈ db.terms.table)
    (hactive : term.status = .active) (horder : db.ShiftsInOrder) (start days now : ℤ) (room : ℕ)
    (s e : ℤ) (hday : manila.WithinDay s e) :
    ((materializeTerm term start days false now).run db).2.roomIsFree room s e none none =
      db.roomIsFree room s e none none := by
  refine (materializeTerm_invariant (P := fun db' => term ∈ db'.terms.table ∧ db'.ShiftsInOrder ∧
    db'.roomIsFree room s e none none = db.roomIsFree room s e none none) ?_
    ⟨hterm, horder, rfl⟩ start days false).2.2
  rintro db' sched d notifications ⟨hterm', horder', hsame⟩ hdue
  refine ⟨hterm', ⟨horder'.decidedApart, horder'.listedOnce, horder'.wholeMoves⟩, ?_⟩
  rw [roomIsFree_bear hdue hterm' hactive horder' hday]
  exact hsame

namespace Campus

/-- The timetable with a second room, into which the nine o'clock class has been shifted
for that Monday, an hour later. -/
def shifted : Db :=
  { timetable with
    rooms := ⟨[⟨1, 1, "A101", "qr-1", "100001", false, ""⟩,
      ⟨2, 1, "A102", "qr-2", "100002", false, ""⟩], by decide⟩
    requests := ⟨[⟨1, 1, some 3, some 1, .f2f, monday, monday, true, .approved, "", some 0,
      some 3⟩], by decide⟩
    items := ⟨[⟨1, 1, 1, none, some 2, some (hour 10), some (hour 11)⟩], by decide⟩ }

theorem shiftsInOrder_shifted : shifted.ShiftsInOrder := by
  have hone : ∀ i ∈ shifted.items.rows, ∀ j ∈ shifted.items.rows, i = j := by decide
  refine ⟨fun schedule d a ha b hb _ => ?_, fun i hi j hj _ _ => hone i hi j hj, by decide⟩
  obtain ⟨hai, harow, -⟩ := Db.mem_approvedOn.mp (mem_approvedShifts.mp ha).1
  obtain ⟨hbi, hbrow, -⟩ := Db.mem_approvedOn.mp (mem_approvedShifts.mp hb).1
  rw [hone _ hai _ hbi, hbrow] at harow
  rw [Option.some.inj harow]

end Campus

open Campus in
/-- The second room is taken at half past ten, before and after the session is created. -/
theorem roomIsFree_materializeTerm_shifted :
    shifted.roomIsFree 2 (wallClock monday 10 30 0) (wallClock monday 11 0 0) none none = false ∧
    ((materializeTerm term monday 1 false 0).run shifted).2.roomIsFree 2
      (wallClock monday 10 30 0) (wallClock monday 11 0 0) none none =
      shifted.roomIsFree 2 (wallClock monday 10 30 0) (wallClock monday 11 0 0) none none :=
  ⟨by decide, roomIsFree_materializeTerm shifted term (List.mem_singleton.mpr rfl) rfl
    shiftsInOrder_shifted _ _ _ _ _ _ (by unfold Zone.WithinDay; decide)⟩

end FluxTrack
