import FluxTrack.Theorems.Approval
import FluxTrack.Theorems.Forecast

/-!
# Approved room shifts hold a room

A room shift checks every room when it takes it, against a database that its own loop
is changing, and the reservations it leaves behind are only seen once the request is
approved. What it places is held alone, as long as no session in its scope carries
an old release stamp, which the shift does not clear, and no two schedules of the
request overlap, since an item reserves the room of its last session for the whole
window.

## Main definitions

* `Db.HeldAlone` — a session holds its room, and nothing else does
* `ModalityShiftRequest.Clear` — the scope of a room shift is in order

## Main results

* `roomShifts_held_alone` — in every history, a clear room shift is held alone
* `roomShift_after_online` — a room shift after a shift to Online need not be
-/

namespace FluxTrack

open Calendar Relational Process

/-- The session occupies its room during its slot, and nothing else does. -/
structure Db.HeldAlone (db : Db) (s : Session) : Prop where
  occupant : ∀ start finish, overlaps s.scheduledStart s.scheduledEnd start finish = true →
    s ∈ db.sessionOccupants s.room start finish none
  inPerson : db.effectiveModality s ≠ .online
  sessions : ∀ t ∈ db.sessions, t.id ≠ s.id →
    ¬ db.Holds s.room s.scheduledStart s.scheduledEnd t
  bookings : db.bookingOccupies s.room s.scheduledStart s.scheduledEnd = false
  timetable : db.scheduleOccupies s.room s.scheduledStart s.scheduledEnd none = false
  reservations :
    db.reservationOccupies s.room s.scheduledStart s.scheduledEnd (some s.schedule) = false

/-- The schedule meets on date `d` at a time that overlaps the slot. -/
def Db.clashes (db : Db) (j : ModalityShiftItem) (d : ℤ) (slot : ℤ × ℤ) : Bool :=
  let sched := (db.schedules.get? j.schedule).getD default
  sched.dayOfWeek == weekday d &&
    (overlaps (db.reservedSlot j d).1 (db.reservedSlot j d).2 slot.1 slot.2 ||
      overlaps (makeAware d sched.startTime) (makeAware d sched.endTime) slot.1 slot.2)

/-- The scope of a room shift is in order: its sessions carry no release stamp, and no
other schedule of the request meets when they do. -/
def ModalityShiftRequest.Clear (req : ModalityShiftRequest) (db : Db) : Prop :=
  ∀ i ∈ db.itemsOf req.id, ∀ s ∈ db.sessions,
    s.inWindow i.schedule req.windowStart req.windowEnd = true →
      s.roomReleasedAt = none ∧
      ∀ j ∈ db.itemsOf req.id, j.schedule ≠ i.schedule →
        db.clashes j (localDate (i.slotFor s).1) (i.slotFor s) = false

/-! ### The loop of a room shift -/

section

variable {req : ModalityShiftRequest} {dean : ℕ} {now : ℤ} {db₀ db : Db} {done placed : List ℕ}

/-- Nothing but the session and its own reservations is in its room, with the timetable
and the reservations as they were in `db₀`. -/
structure Alone (db₀ db : Db) (s : Session) : Prop where
  sessions : ∀ t ∈ db.sessions, t.id ≠ s.id →
    ¬ db.Holds s.room s.scheduledStart s.scheduledEnd t
  bookings : db₀.bookingOccupies s.room s.scheduledStart s.scheduledEnd = false
  timetable : db₀.scheduleOccupies s.room s.scheduledStart s.scheduledEnd none = false
  reservations : db₀.reservationOccupies s.room s.scheduledStart s.scheduledEnd none = false

/-- A room shift under way: the sessions in `done` are alone in their rooms, at a slot
their items ask for, and the items in `placed` have a room. -/
structure Placing (req : ModalityShiftRequest) (db₀ : Db) (done placed : List ℕ) (db : Db) :
    Prop where
  shifting : Shifting req db₀ done db
  fresh : ∀ s ∈ db₀.sessions, s.id ∉ done → s ∈ db.sessions
  unreleased : ∀ s ∈ db.sessions, req.affects db₀ s = true → s.roomReleasedAt = none
  alone : ∀ s ∈ db.sessions, s.id ∈ done → Alone db₀ db s ∧ req.affects db₀ s = true ∧
    ∃ i ∈ db₀.itemsOf req.id, ∃ s₀ ∈ db₀.sessions,
      s₀.occurrence = s.occurrence ∧ s₀.inWindow i.schedule req.windowStart req.windowEnd = true ∧
      (s.scheduledStart, s.scheduledEnd) = i.slotFor s₀
  approved : ∀ d, db.approvedOn d = db₀.approvedOn d
  items : ∀ i ∈ db.items, ∃ i₀ ∈ db₀.items,
    i = { i₀ with assignedRoom := i.assignedRoom } ∧
      (i.id ∈ placed → i.assignedRoom.isSome = true)

theorem Placing.start (hclear : req.Clear db) : Placing req db [] [] db where
  shifting := .start req db
  fresh _ hs _ := hs
  unreleased s hs haffects := by
    obtain ⟨i, hi, hwindow⟩ := List.any_eq_true.mp haffects
    exact (hclear i hi s hs hwindow).1
  alone _ _ hmem := absurd hmem List.not_mem_nil
  approved _ := rfl
  items i hi := ⟨i, hi, rfl, fun hmem => absurd hmem List.not_mem_nil⟩

/-- The timetable and the reservations read what the shift leaves alone. -/
theorem Placing.materialized (h : SameOccurrences db₀ db) (schedule : ℕ) (d : ℤ) :
    db.materialized schedule d = db₀.materialized schedule d := by
  have himp : ∀ {db₁ db₂ : Db}, SameOccurrences db₁ db₂ →
      db₂.materialized schedule d = true → db₁.materialized schedule d = true := by
    intro db₁ db₂ h hmat
    obtain ⟨s, hs, hsel⟩ := List.any_eq_true.mp hmat
    obtain ⟨a, ha, -, hocc⟩ := h.exists_mem hs
    refine List.any_eq_true.mpr ⟨a, ha, ?_⟩
    simp only [Session.occurrence, Prod.mk.injEq] at hocc
    rw [hocc.1, hocc.2.1]
    exact hsel
  exact Bool.eq_iff_iff.mpr ⟨himp h, himp h.symm⟩

theorem Placing.scheduleOccupies (h : Placing req db₀ done placed db) (room : ℕ)
    (start finish : ℤ) :
    db.scheduleOccupies room start finish none = db₀.scheduleOccupies room start finish none := by
  have hmat := Placing.materialized h.shifting.same
  have happroved := h.approved
  obtain ⟨sessions, items, audit, rfl⟩ := h.shifting.rest
  simp only [Db.scheduleOccupies, Db.heldInOwnRoom, Db.latestShift, Db.approvedShifts, hmat,
    happroved]
  rfl

theorem Placing.reservationOccupies (h : Placing req db₀ done placed db) (room : ℕ)
    (start finish : ℤ) :
    db.reservationOccupies room start finish none =
      db₀.reservationOccupies room start finish none := by
  have happroved := h.approved
  obtain ⟨sessions, items, audit, rfl⟩ := h.shifting.rest
  simp only [Db.reservationOccupies, happroved]
  rfl

theorem occupying_of_affects {s : Session} (h : req.affects db s = true) :
    s.status.occupying = true := by
  obtain ⟨i, -, hwindow⟩ := List.any_eq_true.mp h
  exact (Bool.and_eq_true_iff.mp (Bool.and_eq_true_iff.mp hwindow).1).2

/-- A free room has no holder but the excluded session. -/
theorem not_holds_of_roomIsFree {room pk : ℕ} {start finish : ℤ}
    (hfree : db.roomIsFree room start finish (some pk) none = true) {t : Session}
    (ht : t ∈ db.sessions) (hne : t.id ≠ pk) : ¬ db.Holds room start finish t := by
  intro hholds
  have hfalse : db.roomIsFree room start finish (some pk) none = false :=
    Db.roomIsFree_eq_false_iff.mpr (.inl ⟨t, ht, hholds, fun heq => hne (Option.some.inj heq).symm⟩)
  rw [hfree] at hfalse
  cases hfalse

/-- A placed session has the slot its item asks for. -/
theorem slot_shift (req : ModalityShiftRequest) (dean : ℕ) (now : ℤ) (room : ℕ)
    (i : ModalityShiftItem) (s : Session) :
    ((req.shift dean now room (i.movedSlot s.date) s).scheduledStart,
      (req.shift dean now room (i.movedSlot s.date) s).scheduledEnd) = i.slotFor s := by
  unfold ModalityShiftItem.slotFor ModalityShiftRequest.shift Session.declare Session.place
  cases i.movedSlot s.date <;> rfl

/-- The session that has just been placed is alone. -/
theorem Placing.alone_placed (h : Placing req db₀ done placed db) {item : ModalityShiftItem}
    {s : Session} {room : ℕ}
    (hfree : db.roomIsFree room (item.slotFor s).1 (item.slotFor s).2 (some s.id) none = true)
    (dean : ℕ) (now : ℤ) {sessions : Table Session}
    (hsessions : ∀ t ∈ sessions, t.id ≠ s.id → t ∈ db.sessions) :
    Alone db₀ { db with sessions := sessions }
      (req.shift dean now room (item.movedSlot s.date) s) := by
  have hslot := slot_shift req dean now room item s
  have hfree' := mt Db.roomIsFree_eq_false_iff.mpr (by rw [hfree]; exact nofun)
  push Not at hfree'
  obtain ⟨-, hbook, hsched, hreserved⟩ := hfree'
  rw [← hslot] at hfree hbook hsched hreserved
  rw [h.scheduleOccupies] at hsched
  rw [h.reservationOccupies] at hreserved
  refine ⟨fun t ht hne hholds => ?_, ?_, Bool.eq_false_iff.mpr hsched,
    Bool.eq_false_iff.mpr hreserved⟩
  · exact not_holds_of_roomIsFree hfree (hsessions t ht hne) hne ⟨hholds.room, hholds.status,
      hholds.unreleased, hholds.overlaps, hholds.inPerson⟩
  · obtain ⟨_, _, _, hrest⟩ := h.shifting.rest
    rw [hrest] at hbook
    exact Bool.eq_false_iff.mpr hbook

/-- The slot of a session that is placed again is still one its items ask for. -/
theorem Placing.slotFor (h : Placing req db₀ done placed db) {item : ModalityShiftItem}
    {s : Session} (hitem : item ∈ db₀.itemsOf req.id) (hs : s ∈ db.sessions)
    (hwindow : s.inWindow item.schedule req.windowStart req.windowEnd = true) :
    ∃ i ∈ db₀.itemsOf req.id, ∃ s₀ ∈ db₀.sessions, s₀.occurrence = s.occurrence ∧
      s₀.inWindow i.schedule req.windowStart req.windowEnd = true ∧
      item.slotFor s = i.slotFor s₀ := by
  obtain ⟨s₀, hs₀, hid, hocc⟩ := h.shifting.same.exists_mem hs
  have hwindow₀ : s₀.inWindow item.schedule req.windowStart req.windowEnd = true := by
    rw [Session.inWindow_congr hocc]
    exact hwindow
  have hdate : s₀.date = s.date := by
    simp only [Session.occurrence, Prod.mk.injEq] at hocc
    exact hocc.2.1
  by_cases hdone : s.id ∈ done
  · cases hmove : item.movedSlot s.date with
    | some slot =>
      refine ⟨item, hitem, s₀, hs₀, hocc, hwindow₀, ?_⟩
      rw [ModalityShiftItem.slotFor, ModalityShiftItem.slotFor, hdate, hmove]
      rfl
    | none =>
      obtain ⟨-, -, i, hi, s₁, hs₁, hocc₁, hwindow₁, hslot⟩ := h.alone s hs hdone
      refine ⟨i, hi, s₁, hs₁, hocc₁, hwindow₁, ?_⟩
      rw [ModalityShiftItem.slotFor, hmove]
      exact hslot
  · -- the session has not been touched yet
    have hsame : s₀ = s :=
      Table.eq_of_key_eq (h.fresh s₀ hs₀ (hid ▸ hdone)) hs hid
    subst hsame
    exact ⟨item, hitem, s₀, hs₀, rfl, hwindow, rfl⟩

/-- Placing one session keeps the placed ones alone: it would have found them in its way. -/
theorem Placing.place (hroom : req.targetModality ≠ .online) (h : Placing req db₀ done placed db)
    {item : ModalityShiftItem} {s : Session} {room : ℕ} (hitem : item ∈ db₀.itemsOf req.id)
    (hs : s ∈ db.sessions)
    (hwindow : s.inWindow item.schedule req.windowStart req.windowEnd = true)
    (hfree : db.roomIsFree room (item.slotFor s).1 (item.slotFor s).2 (some s.id) none = true) :
    Placing req db₀ (s.id :: done) placed { db with
      sessions := db.sessions.update (fun a => a.id == s.id)
        (req.shift dean now room (item.movedSlot s.date)) (Session.key_declare_place _ _ _ _ _) } := by
  have haffects : req.affects db₀ s = true :=
    ModalityShiftRequest.affects_of_inWindow hitem hwindow
  have hslot := slot_shift req dean now room item s
  -- the rows of the new table
  have hrows : ∀ t ∈ db.sessions.update (fun a => a.id == s.id)
      (req.shift dean now room (item.movedSlot s.date)) (Session.key_declare_place _ _ _ _ _),
      t = req.shift dean now room (item.movedSlot s.date) s ∨ t ∈ db.sessions ∧ t.id ≠ s.id := by
    intro t ht
    obtain ⟨b, hb, rfl⟩ := Table.mem_update.mp ht
    by_cases heq : b.id = s.id
    · obtain rfl : b = s := Table.eq_of_key_eq hb hs heq
      exact .inl (if_pos (beq_self_eq_true _))
    · rw [if_neg (by simpa using heq)]
      exact .inr ⟨hb, heq⟩
  have hothers : ∀ t ∈ db.sessions.update (fun a => a.id == s.id)
      (req.shift dean now room (item.movedSlot s.date)) (Session.key_declare_place _ _ _ _ _),
      t.id ≠ s.id → t ∈ db.sessions := by
    intro t ht hne
    rcases hrows t ht with rfl | ⟨hmem, -⟩
    · exact absurd rfl hne
    · exact hmem
  have hshifting := h.shifting.update hs haffects db.audit
    (f := req.shift dean now room (item.movedSlot s.date)) (Session.key_declare_place _ _ _ _ _)
    (fun _ => rfl) rfl
  refine ⟨hshifting, fun a ha hnot => ?_, fun a ha haff => ?_, fun a ha hmem => ?_, h.approved,
    h.items⟩
  · rw [List.mem_cons, not_or] at hnot
    have hmem := h.fresh a ha hnot.2
    change a ∈ db.sessions.update (fun a => a.id == s.id)
      (req.shift dean now room (item.movedSlot s.date)) (Session.key_declare_place _ _ _ _ _)
    exact Table.mem_update.mpr ⟨a, hmem, if_neg (by simpa using hnot.1)⟩
  · rcases hrows a ha with rfl | ⟨hmem, -⟩
    · exact h.unreleased s hs haffects
    · exact h.unreleased a hmem haff
  · rcases hrows a ha with rfl | ⟨hmemdb, hne⟩
    · obtain ⟨i, hi, s₀, hs₀, hocc, hwindow₀, hsame⟩ := h.slotFor hitem hs hwindow
      exact ⟨h.alone_placed hfree dean now hothers, haffects, i, hi, s₀, hs₀, hocc, hwindow₀,
        hslot.trans hsame⟩
    · obtain ⟨hold, haff, hasked⟩ := h.alone a hmemdb ((List.mem_cons.mp hmem).resolve_left hne)
      refine ⟨⟨fun t ht hta hholds => ?_, hold.bookings, hold.timetable, hold.reservations⟩,
        haff, hasked⟩
      rcases hrows t ht with rfl | ⟨htdb, -⟩
      · -- the placed session would be in the room of `a`, which was not free then
        refine not_holds_of_roomIsFree hfree hmemdb hne ⟨hholds.room.symm,
          occupying_of_affects haff, h.unreleased a hmemdb haff, ?_, ?_⟩
        · rw [overlaps_comm, ← hslot]
          exact hholds.overlaps
        · rw [Db.effectiveModality, h.shifting.declared a hmemdb
            ((List.mem_cons.mp hmem).resolve_left hne)]
          exact hroom
      · exact hold.sessions t htdb hta ⟨hholds.room, hholds.status, hholds.unreleased,
          hholds.overlaps, hholds.inPerson⟩

/-- A room given to an item of a pending request is not reserved yet. -/
theorem approvedOn_assign {pk room : ℕ}
    (hpending : ∀ i ∈ db.items, i.id = pk → ∀ r, db.requests.get? i.request = some r →
      r.status ≠ .approved) (d : ℤ) :
    ({ db with
      items := db.items.update (fun i => i.id == pk)
        fun i => { i with assignedRoom := some room } } : Db).approvedOn d = db.approvedOn d := by
  rw [Db.approvedOn, Db.approvedOn, List.filter_filterMap, List.filter_filterMap]
  change List.filterMap _ (db.items.rows.map _) = _
  rw [List.filterMap_map]
  refine List.filterMap_congr fun i hi => ?_
  by_cases heq : i.id = pk
  · simp only [Function.comp, heq, beq_self_eq_true, if_true]
    cases hget : db.requests.get? i.request with
    | none => rfl
    | some r =>
      have hne : (r.status == .approved) = false := by
        simpa using hpending i hi heq r hget
      simp [Option.filter, hne]
  · have hne : (i.id == pk) = false := by simpa using heq
    simp only [Function.comp, hne]
    rfl

/-- Giving a room to an item changes no reservation yet. -/
theorem Placing.assign (hget : db₀.requests.get? req.id = some req)
    (hpending : req.status = .pending) (h : Placing req db₀ done placed db)
    {item : ModalityShiftItem} (room : ℕ) (hitem : item ∈ db₀.itemsOf req.id) :
    Placing req db₀ done (item.id :: placed) { db with
      items := db.items.update (fun i => i.id == item.id)
        fun i => { i with assignedRoom := some room } } := by
  obtain ⟨himem, hireq⟩ := List.mem_filter.mp hitem
  refine ⟨h.shifting.assign room hitem, h.fresh, h.unreleased, fun s hs hmem => ?_, fun d => ?_,
    fun i hi => ?_⟩
  · obtain ⟨halone, haffects, hasked⟩ := h.alone s hs hmem
    exact ⟨⟨fun t ht hne hholds => halone.sessions t ht hne ⟨hholds.room, hholds.status,
      hholds.unreleased, hholds.overlaps, hholds.inPerson⟩, halone.bookings, halone.timetable,
      halone.reservations⟩, haffects, hasked⟩
  · rw [← h.approved d]
    refine approvedOn_assign (fun i hi heq r hr => ?_) d
    -- the row is the item's own, and its request is still pending
    obtain ⟨i₀, hi₀, hsame, -⟩ := h.items i hi
    have hid : i₀.id = item.id := by
      rw [← heq, hsame]
    obtain rfl : i₀ = item := Table.eq_of_key_eq hi₀ himem hid
    have hrow : i.request = req.id := by
      rw [hsame]
      exact beq_iff_eq.mp hireq
    obtain ⟨_, _, _, hrest⟩ := h.shifting.rest
    rw [hrow, hrest] at hr
    obtain rfl : req = r := Option.some.inj (hget.symm.trans hr)
    rw [hpending]
    exact nofun
  · replace hi : i ∈ db.items.update (fun i => i.id == item.id)
        fun i => { i with assignedRoom := some room } := hi
    obtain ⟨c, hc, rfl⟩ := Table.mem_update.mp hi
    obtain ⟨i₀, hi₀, hsame, hplaced⟩ := h.items c hc
    by_cases heq : c.id = item.id
    · refine ⟨i₀, hi₀, ?_, fun _ => ?_⟩
      · rw [if_pos (beq_iff_eq.mpr heq), hsame]
      · rw [if_pos (beq_iff_eq.mpr heq)]
        rfl
    · rw [if_neg (by simpa using heq)]
      exact ⟨i₀, hi₀, hsame, fun hmem => hplaced ((List.mem_cons.mp hmem).resolve_left heq)⟩

/-- A room shift places what it shifts. -/
theorem shiftRule_placing (dean : ℕ) (now : ℤ) (hroom : req.targetModality ≠ .online)
    (hget : db₀.requests.get? req.id = some req) (hpending : req.status = .pending) :
    ShiftRule req dean now db₀ (fun _ => True) (Placing req db₀) where
  same h := h.shifting.same
  place h hitem hs hwindow hfree _ _ := h.place hroom hitem hs hwindow hfree
  assign {_ _ _ _ room} h hitem _ := h.assign hget hpending room hitem

end

/-! ### The approval -/

section

variable {req : ModalityShiftRequest} {dean : ℕ} {now : ℤ} {db₀ db : Db} {done placed : List ℕ}

/-- The request is approved, with whatever is written beside it. -/
def Db.approve (db : Db) (req : ModalityShiftRequest) (dean : ℕ) (now : ℤ)
    (audit : List AuditLog) (notifications : List Notification) : Db :=
  { db with
    requests := db.requests.update (fun r => r.id == req.id)
      (ModalityShiftRequest.approve dean now) (ModalityShiftRequest.key_approve _ _)
    audit := audit
    notifications := notifications }

variable {audit : List AuditLog} {notifications : List Notification}

/-- Approving a request adds the shifts of its own items. -/
theorem mem_approvedOn_approve {d : ℤ} {sh : Shift}
    (h : sh ∈ (db.approve req dean now audit notifications).approvedOn d) :
    sh ∈ db.approvedOn d ∨ sh.item ∈ db.items ∧ sh.item.request = req.id := by
  obtain ⟨hitem, hget, hrest⟩ := Db.mem_approvedOn.mp h
  by_cases hreq : sh.item.request = req.id
  · exact .inr ⟨hitem, hreq⟩
  · left
    refine Db.mem_approvedOn.mpr ⟨hitem, ?_, hrest⟩
    replace hget : (db.requests.update (fun r => r.id == req.id)
      (ModalityShiftRequest.approve dean now) (ModalityShiftRequest.key_approve _ _)).get?
        sh.item.request = some sh.request := hget
    rw [Table.get?_update] at hget
    obtain ⟨r, hr, hsame⟩ := Option.map_eq_some_iff.mp hget
    have hid : r.id = sh.item.request := (Table.get?_eq_some_iff.mp hr).2
    rw [if_neg (by simpa [hid] using hreq)] at hsame
    rw [hr, hsame]

/-- Approving a pending request takes no shift away. -/
theorem approvedOn_subset_approve (hget : db.requests.get? req.id = some req)
    (hpending : req.status = .pending) {d : ℤ} {sh : Shift} (h : sh ∈ db.approvedOn d) :
    sh ∈ (db.approve req dean now audit notifications).approvedOn d := by
  obtain ⟨hitem, hrow, happroved, hwindow⟩ := Db.mem_approvedOn.mp h
  refine Db.mem_approvedOn.mpr ⟨hitem, ?_, happroved, hwindow⟩
  have hne : sh.request.id ≠ req.id := by
    intro heq
    obtain ⟨hmem, -⟩ := Table.get?_eq_some_iff.mp hrow
    obtain ⟨hmem', -⟩ := Table.get?_eq_some_iff.mp hget
    rw [Table.eq_of_key_eq hmem hmem' heq, hpending] at happroved
    cases happroved
  change (db.requests.update (fun r => r.id == req.id)
    (ModalityShiftRequest.approve dean now) (ModalityShiftRequest.key_approve _ _)).get? _ = _
  rw [Table.get?_update, hrow, Option.map_some, if_neg (by simpa using hne)]

/-- The latest shift is the one that no other is newer than. -/
theorem latestShift_eq_of_newest {schedule : ℕ} {d : ℤ} {sh : Shift}
    (hmem : sh ∈ db.approvedShifts schedule d)
    (hnewest : ∀ b ∈ db.approvedShifts schedule d, b = sh ∨ sh.newerByKey b) :
    db.latestShift schedule d = some sh := by
  cases hlatest : db.latestShift schedule d with
  | none =>
    rw [head?_insertionSort_eq_none.mp hlatest] at hmem
    cases hmem
  | some b =>
    obtain ⟨hb, hall⟩ := head?_insertionSort hlatest
    rcases hnewest b hb with rfl | hshb
    · rfl
    · rcases hall sh hmem with rfl | hbsh
      · rfl
      · -- both are newest, so they have the same key
        have hid : sh.item.id = b.item.id := le_antisymm (hbsh.2 hshb.1) (hshb.2 hbsh.1)
        obtain ⟨hon, -⟩ := mem_approvedShifts.mp hmem
        obtain ⟨hbon, -⟩ := mem_approvedShifts.mp hb
        obtain ⟨hi, hrow, -⟩ := Db.mem_approvedOn.mp hon
        obtain ⟨hbi, hbrow, -⟩ := Db.mem_approvedOn.mp hbon
        have hitem : sh.item = b.item := Table.eq_of_key_eq hi hbi hid
        rw [hitem, hbrow] at hrow
        cases sh
        cases b
        cases hitem
        cases hrow
        rfl

/-- What an approval can add to the timetable's own rooms: an occurrence of one of its
schedules whose item has no room. -/
theorem heldInOwnRoom_approve (hget : db.requests.get? req.id = some req)
    (hpending : req.status = .pending) {sched : Schedule} {d : ℤ}
    (h : (db.approve req dean now audit notifications).heldInOwnRoom sched d = true) :
    db.heldInOwnRoom sched d = true ∨ ∃ i ∈ db.items, i.request = req.id ∧
      i.schedule = sched.id ∧ i.assignedRoom = none := by
  have hsub : ∀ sh ∈ db.approvedShifts sched.id d,
      sh ∈ (db.approve req dean now audit notifications).approvedShifts sched.id d := by
    intro sh hsh
    obtain ⟨hon, hsched⟩ := mem_approvedShifts.mp hsh
    exact mem_approvedShifts.mpr ⟨approvedOn_subset_approve hget hpending hon, hsched⟩
  unfold Db.heldInOwnRoom at h
  cases hlatest : (db.approve req dean now audit notifications).latestShift sched.id d with
  | none =>
    rw [hlatest] at h
    have hnone : db.latestShift sched.id d = none := by
      refine head?_insertionSort_eq_none.mpr (List.eq_nil_iff_forall_not_mem.mpr fun sh hsh => ?_)
      have hmem := hsub sh hsh
      rw [head?_insertionSort_eq_none.mp hlatest] at hmem
      cases hmem
    left
    rw [Db.heldInOwnRoom, hnone]
    exact h
  | some sh =>
    rw [hlatest] at h
    obtain ⟨hmem, hall⟩ := head?_insertionSort hlatest
    obtain ⟨hon, hsched⟩ := mem_approvedShifts.mp hmem
    rcases mem_approvedOn_approve hon with hold | ⟨hitem, hreq⟩
    · have hsame := latestShift_eq_of_newest (mem_approvedShifts.mpr ⟨hold, hsched⟩)
        fun b hb => hall b (hsub b hb)
      left
      rw [Db.heldInOwnRoom, hsame]
      exact h
    · simp only [Bool.and_eq_true, Option.isNone_iff_eq_none] at h
      exact .inr ⟨sh.item, hitem, hreq, hsched, h.2⟩

/-- The items of the request are those it had at first, with the rooms they were given. -/
theorem Placing.itemsOf (h : Placing req db₀ done placed db) {j : ModalityShiftItem}
    (hj : j ∈ db.items) (hjreq : j.request = req.id) :
    ∃ j₀ ∈ db₀.itemsOf req.id, j.schedule = j₀.schedule ∧
      (∀ d, db.reservedSlot j d = db₀.reservedSlot j₀ d) ∧
      (j₀.id ∈ placed → j.assignedRoom.isSome = true) := by
  obtain ⟨j₀, hj₀, hsame, hassigned⟩ := h.items j hj
  have hreq₀ : j₀.request = req.id := by
    rw [← hjreq, hsame]
  have hkey : j.id = j₀.id := by rw [hsame]
  refine ⟨j₀, List.mem_filter.mpr ⟨hj₀, by simp [hreq₀]⟩, by rw [hsame], fun d => ?_,
    fun hmem => hassigned (hkey ▸ hmem)⟩
  obtain ⟨_, _, _, hrest⟩ := h.shifting.rest
  rw [hsame, hrest]
  rfl

/-- No other schedule of the request meets at the time of a placed session, when the scope was
clear. -/
theorem Placing.clashes (h : Placing req db₀ done placed db) (hclear : req.Clear db₀)
    {s : Session} (hs : s ∈ db.sessions) (hdone : s.id ∈ done) :
    (∃ i ∈ db₀.itemsOf req.id, i.schedule = s.schedule ∧ ∃ s₀ ∈ db₀.sessions,
      s₀.inWindow i.schedule req.windowStart req.windowEnd = true) ∧
    ∀ j₀ ∈ db₀.itemsOf req.id, j₀.schedule ≠ s.schedule →
      db₀.clashes j₀ (localDate s.scheduledStart) (s.scheduledStart, s.scheduledEnd) = false := by
  obtain ⟨-, -, i, hi, s₀, hs₀, hocc, hwindow, hslot⟩ := h.alone s hs hdone
  have hsched : i.schedule = s.schedule := by
    simp only [Session.occurrence, Prod.mk.injEq] at hocc
    have hin := (Bool.and_eq_true_iff.mp (Bool.and_eq_true_iff.mp hwindow).1).1
    rw [← hocc.1, beq_iff_eq.mp hin]
  refine ⟨⟨i, hi, hsched, s₀, hs₀, hwindow⟩, fun j₀ hj₀ hne => ?_⟩
  have hstart : s.scheduledStart = (i.slotFor s₀).1 := congrArg Prod.fst hslot
  rw [hslot, hstart]
  exact (hclear i hi s₀ hs₀ hwindow).2 j₀ hj₀ (hsched ▸ hne)

/-- No class meets in its own room where a session has been placed. -/
theorem Placing.timetable_approve (hclear : req.Clear db₀)
    (hget : db₀.requests.get? req.id = some req) (hpending : req.status = .pending)
    (h : Placing req db₀ done placed db)
    (hplaced : ∀ i ∈ db₀.itemsOf req.id, ∀ s ∈ db₀.sessions,
      s.inWindow i.schedule req.windowStart req.windowEnd = true → i.id ∈ placed)
    {s : Session} (hs : s ∈ db.sessions) (hdone : s.id ∈ done) :
    (db.approve req dean now audit notifications).scheduleOccupies s.room s.scheduledStart
      s.scheduledEnd none = false := by
  obtain ⟨halone, -⟩ := h.alone s hs hdone
  obtain ⟨⟨i, -, hsched, s₀, hs₀, hwindow⟩, hclash⟩ := h.clashes hclear hs hdone
  have hschedules : db.schedules = db₀.schedules := by
    obtain ⟨_, _, _, rfl⟩ := h.shifting.rest
    rfl
  have hgetdb : db.requests.get? req.id = some req := by
    obtain ⟨_, _, _, rfl⟩ := h.shifting.rest
    exact hget
  rw [← Bool.not_eq_true, Db.scheduleOccupies_iff]
  rintro ⟨sched, hmem, hforecast, -⟩
  rcases heldInOwnRoom_approve hgetdb hpending hforecast.ownRoom with hown |
    ⟨j, hj, hjreq, hjsched, hjroom⟩
  · have hbefore : db.scheduleOccupies s.room s.scheduledStart s.scheduledEnd none = true :=
      Db.scheduleOccupies_iff.mpr ⟨sched, hmem, ⟨hforecast.room, hforecast.meets,
        hforecast.missing, hforecast.notExcused, hown, hforecast.overlaps⟩,
        Option.not_mem_none _⟩
    rw [h.scheduleOccupies, halone.timetable] at hbefore
    cases hbefore
  · obtain ⟨j₀, hj₀, hsame, -, hassigned⟩ := h.itemsOf hj hjreq
    by_cases hmine : j₀.schedule = s.schedule
    · -- an item of the session's own schedule has been given its room
      have hwindow₀ : s₀.inWindow j₀.schedule req.windowStart req.windowEnd = true := by
        rw [hmine, ← hsched]
        exact hwindow
      have hsome := hassigned (hplaced j₀ hj₀ s₀ hs₀ hwindow₀)
      rw [hjroom] at hsome
      cases hsome
    · have hclash₀ := hclash j₀ hj₀ hmine
      have hrow : (db₀.schedules.get? j₀.schedule).getD default = sched := by
        rw [← hsame, hjsched, ← hschedules,
          show db.schedules.get? sched.id = some sched from Table.get?_key hmem]
        rfl
      have hweekday : sched.dayOfWeek = weekday (localDate s.scheduledStart) :=
        beq_iff_eq.mp (Bool.and_eq_true_iff.mp hforecast.meets).2
      have hover := hforecast.overlaps
      simp only [Db.clashes, hrow, hweekday, hover, beq_self_eq_true, Bool.or_true,
        Bool.and_true] at hclash₀
      cases hclash₀

/-- No other class has a reservation where a session has been placed. -/
theorem Placing.reservations_approve (hclear : req.Clear db₀)
    (h : Placing req db₀ done placed db) {s : Session} (hs : s ∈ db.sessions)
    (hdone : s.id ∈ done) :
    (db.approve req dean now audit notifications).reservationOccupies s.room s.scheduledStart
      s.scheduledEnd (some s.schedule) = false := by
  obtain ⟨halone, -⟩ := h.alone s hs hdone
  obtain ⟨-, hclash⟩ := h.clashes hclear hs hdone
  have hschedules : db.schedules = db₀.schedules := by
    obtain ⟨_, _, _, rfl⟩ := h.shifting.rest
    rfl
  rw [← Bool.not_eq_true]
  intro hreserved
  obtain ⟨sh, hsh, hsel⟩ := List.any_eq_true.mp hreserved
  simp only [Bool.and_eq_true, beq_iff_eq, bne_iff_ne] at hsel
  obtain ⟨⟨⟨⟨hassigned, hweekday⟩, honline⟩, hother⟩, hover⟩ := hsel
  -- a reservation is an earlier one, or one of this request's own items
  rcases mem_approvedOn_approve hsh with hold | ⟨hitem, hreq⟩
  · have hbefore : db.reservationOccupies s.room s.scheduledStart s.scheduledEnd none = true := by
      refine List.any_eq_true.mpr ⟨sh, hold, ?_⟩
      simp only [Bool.and_eq_true, beq_iff_eq, bne_iff_ne]
      exact ⟨⟨⟨⟨hassigned, hweekday⟩, honline⟩, (Option.some_ne_none _).symm⟩, hover⟩
    rw [h.reservationOccupies, halone.reservations] at hbefore
    cases hbefore
  · obtain ⟨j₀, hj₀, hsame, hreservedSlot, -⟩ := h.itemsOf hitem hreq
    have hne : j₀.schedule ≠ s.schedule := by
      intro heq
      exact hother (by rw [hsame, heq])
    -- the items of the request do not clash with each other
    have hclash₀ := hclash j₀ hj₀ hne
    replace hweekday : ((db.schedules.get? sh.item.schedule).getD default).dayOfWeek =
      weekday (localDate s.scheduledStart) := hweekday
    replace hover : overlaps (db.reservedSlot sh.item (localDate s.scheduledStart)).1
      (db.reservedSlot sh.item (localDate s.scheduledStart)).2 s.scheduledStart
      s.scheduledEnd = true := hover
    rw [hreservedSlot] at hover
    rw [hsame, hschedules] at hweekday
    simp only [Db.clashes, hweekday, hover, beq_self_eq_true, Bool.true_or,
      Bool.and_true] at hclash₀
    cases hclash₀

/-- A placed session is held alone once the request is approved, when the scope was
clear. -/
theorem Placing.heldAlone (hclear : req.Clear db₀) (hroom : req.targetModality ≠ .online)
    (hget : db₀.requests.get? req.id = some req) (hpending : req.status = .pending)
    (h : Placing req db₀ done placed db)
    (hplaced : ∀ i ∈ db₀.itemsOf req.id, ∀ s ∈ db₀.sessions,
      s.inWindow i.schedule req.windowStart req.windowEnd = true → i.id ∈ placed)
    {s : Session} (hs : s ∈ db.sessions) (hdone : s.id ∈ done) :
    (db.approve req dean now audit notifications).HeldAlone s := by
  obtain ⟨halone, haffects, -⟩ := h.alone s hs hdone
  refine ⟨fun start finish hover => ?_, ?_, fun t ht hne hholds => ?_, ?_,
    h.timetable_approve hclear hget hpending hplaced hs hdone,
    h.reservations_approve hclear hs hdone⟩
  · refine List.mem_filter.mpr ⟨Db.mem_sessionList.mpr hs, ?_⟩
    simp [occupying_of_affects haffects, h.unreleased s hs haffects, overlaps_iff.mp hover]
  · change db.effectiveModality s ≠ .online
    rw [Db.effectiveModality, h.shifting.declared s hs hdone]
    exact hroom
  · exact halone.sessions t ht hne ⟨hholds.room, hholds.status, hholds.unreleased,
      hholds.overlaps, hholds.inPerson⟩
  · obtain ⟨_, _, _, hrest⟩ := h.shifting.rest
    rw [hrest]
    exact halone.bookings

end

/-! ### Histories -/

/-- A step of a history: an approval, or any other change of the database. -/
inductive HistoryStep
  | approval (request : ℕ) (dean : User) (now : ℤ)
  | other (change : Db → Db)

namespace HistoryStep

/-- The database after the step. -/
def apply (db : Db) : HistoryStep → Db
  | approval request dean now => ((applyApproval request dean now).run db).2
  | other change => change db

/-- Every step of a history meets `C` in the database it finds. -/
def Along (C : Db → HistoryStep → Prop) : Db → List HistoryStep → Prop
  | _, [] => True
  | db, step :: steps => C db step ∧ Along C (step.apply db) steps

/-- A room shift that the step approves has a clear scope. -/
def Clear (db : Db) : HistoryStep → Prop
  | approval request _ _ => ∀ req, db.requests.get? request = some req → req.status = .pending →
      req.targetModality ≠ .online → req.Clear db
  | other _ => True

/-- A room shift that the step approves is held alone, session by session. -/
def ShiftHeldAlone (db : Db) : HistoryStep → Prop
  | approval request dean now => ∀ db',
      (applyApproval request dean now).run db = (.ok .approved, db') →
      ∀ req, db.requests.get? request = some req → req.targetModality ≠ .online →
        ∀ s ∈ db.sessions, req.affects db s = true →
          ∃ s' ∈ db'.sessions, s'.id = s.id ∧ db'.HeldAlone s'
  | other _ => True

end HistoryStep

/-- One approval of a clear room shift. -/
theorem shiftHeldAlone_of_clear {db : Db} {step : HistoryStep} (hclear : step.Clear db) :
    step.ShiftHeldAlone db := by
  cases step with
  | other change => trivial
  | approval request dean now =>
    intro db' hrun req hget hroom s hs haffects
    rcases run_applyApproval_cases request dean now db with ⟨e, herror⟩ |
      ⟨req', hget', hpending, ⟨reason, hdenied⟩ | ⟨db₁, notifications, hshift, happroved⟩⟩
    · rw [herror] at hrun
      cases hrun
    · rw [hdenied] at hrun
      cases hrun
    · obtain rfl : req' = req := Option.some.inj (hget'.symm.trans hget)
      have hclear' := hclear req' hget hpending hroom
      have hid : req'.id = request := (Table.get?_eq_some_iff.mp hget).2
      rw [applyShift, if_neg hroom] at hshift
      obtain ⟨done, placed, hplacing, hall⟩ := applyF2f_rule
        (shiftRule_placing dean.id now hroom (hid ▸ hget) hpending) (.start hclear')
        (fun _ _ _ _ => trivial) hshift
      obtain ⟨i, hi, hwindow⟩ := List.any_eq_true.mp haffects
      obtain ⟨s', hs', hid', -⟩ := hplacing.shifting.same.symm.exists_mem hs
      have hdone : s'.id ∈ done := hid' ▸ (hall i hi s hs hwindow).1
      rw [happroved] at hrun
      cases hrun
      exact ⟨s', hs', hid', hplacing.heldAlone hclear' hroom (hid ▸ hget) hpending
        (fun i hi s hs hwindow => (hall i hi s hs hwindow).2) hs' hdone⟩

/-- In every history whose room shifts have a clear scope, every approved room shift is
held alone. -/
theorem roomShifts_held_alone (db : Db) (steps : List HistoryStep)
    (hclear : HistoryStep.Along HistoryStep.Clear db steps) :
    HistoryStep.Along HistoryStep.ShiftHeldAlone db steps := by
  induction steps generalizing db with
  | nil => trivial
  | cons step steps ih => exact ⟨shiftHeldAlone_of_clear hclear.1, ih _ hclear.2⟩

/-! ### A history -/

namespace Campus

/-- A second request for the same class, back into a room. -/
def backToRoom (db : Db) : Db :=
  { db with
    requests := db.requests.insert fun pk =>
      ⟨pk, 1, some 3, some 1, .f2f, monday, monday, false, .pending, "", none, none⟩
    items := db.items.insert fun pk => ⟨pk, db.requests.nextKey, 1, none, none, none, none⟩ }

/-- The class goes online. -/
def wentOnline : HistoryStep := .approval 1 dean (wallClock (-2) 9 0 0)

/-- Three days later it is to go back into a room. -/
def cameBack : HistoryStep := .approval 2 dean (wallClock 1 12 0 0)

/-- The database that the second approval finds. -/
def inBetween : Db := backToRoom (wentOnline.apply (requested .online))

/-- The database that the second approval leaves. -/
def afterwards : Db := cameBack.apply inBetween

end Campus

open Campus in
/-- A first room shift is approved and held alone. -/
theorem roomShifts_held_alone_first :
    ((applyApproval 1 dean 0).run (requested .f2f)).1.toOption = some .approved ∧
    HistoryStep.Along HistoryStep.ShiftHeldAlone (requested .f2f) [.approval 1 dean 0] := by
  refine ⟨by decide, roomShifts_held_alone _ _ ⟨fun req hget _ _ i hi s hs _ => ?_, trivial⟩⟩
  have hreleased : ∀ s ∈ (requested .f2f).sessions.rows, s.roomReleasedAt = none := by decide
  have hone : ∀ i ∈ (requested .f2f).items.rows, i.schedule = 1 := by decide
  refine ⟨hreleased s hs, fun j hj hne => absurd ?_ hne⟩
  rw [hone i (List.mem_filter.mp hi).1, hone j (List.mem_filter.mp hj).1]

open Campus in
/-- A class that was moved online keeps its release stamp when it is moved back, so that
its new room looks free. -/
theorem roomShift_after_online :
    ¬ ∀ (db : Db) (steps : List HistoryStep),
      HistoryStep.Along HistoryStep.ShiftHeldAlone db steps := by
  intro h
  have hlast : cameBack.ShiftHeldAlone inBetween :=
    (h (requested .online) [wentOnline, .other backToRoom, cameBack]).2.2.1
  have happroved : ((applyApproval 2 dean (wallClock 1 12 0 0)).run inBetween).1 = .ok .approved := by
    decide
  -- the class is in the scope, and no longer among the occupants
  have hscope : ∃ req ∈ inBetween.requests.rows, req.id = 2 ∧ req.targetModality ≠ .online ∧
      ∃ s ∈ inBetween.sessions.rows, s.id = 1 ∧ req.affects inBetween s = true := by
    decide
  have hbad : ∀ s ∈ afterwards.sessions.rows, s.id = 1 →
      overlaps s.scheduledStart s.scheduledEnd s.scheduledStart s.scheduledEnd = true ∧
        s ∉ afterwards.sessionOccupants s.room s.scheduledStart s.scheduledEnd none := by
    decide
  obtain ⟨req, hreq, hkey, hroom, s, hs, hid, haffects⟩ := hscope
  have hget : inBetween.requests.get? 2 = some req := Table.get?_eq_some_iff.mpr ⟨hreq, hkey⟩
  obtain ⟨s', hs', hid', hheld⟩ :=
    hlast afterwards (Prod.ext happroved rfl) req hget hroom s hs haffects
  obtain ⟨hover, hnot⟩ := hbad s' hs' (hid'.trans hid)
  exact hnot (hheld.occupant _ _ hover)

end FluxTrack
