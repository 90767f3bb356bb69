import FluxTrack.Scheduling.RoomReporting
import FluxTrack.Theorems.SlotDates

/-!
# The rooms that approvals give

A room shift gives each session its class's own room when that is free, else the preferred
room when that is free, else the first free room of the building. Being free is all that is
asked: a virtual room, or one that is out of service, is given like any other.

## Main definitions

* `Db.usable` — the room is physical and in service
* `RoomTurn.Sound` — the room that a turn of a room shift falls upon has a property
* `Db.roomsWritten` — the rooms that a room shift writes

## Main results

* `roomsWritten_usable_iff` — when an approval writes usable rooms only
* `applyApproval_writes_closed_room` — a room out of service is given to a class
-/

namespace FluxTrack

open Calendar Relational Process

/-- The room is physical, and in service. -/
def Db.usable (db : Db) (room : ℕ) : Prop :=
  (db.room room).isVirtual = false ∧ (db.room room).outOfService = false

/-- The rooms of a building, by code. -/
def Db.buildingRooms (db : Db) (building : ℕ) : List ℕ :=
  ((db.rooms.rows.filter fun r => db.buildingOf r.id == building).insertionSort
    fun a b => a.code ≤ b.code).map Room.id

/-! ### The choice of a turn -/

namespace RoomTurn

/-- The room is free for the session of the turn. -/
def free (t : RoomTurn) (room : ℕ) : Bool :=
  t.db.roomIsFree room (t.item.slotFor t.session).1 (t.item.slotFor t.session).2
    (some t.session.id) none

/-- The rooms of the building of the class. -/
def nearby (t : RoomTurn) : List ℕ := t.db.buildingRooms (t.db.buildingOf t.sched.room)

/-- The preferred room of the turn is to be had. -/
def preference (t : RoomTurn) : Option ℕ :=
  t.item.preferredRoom.filter fun p => t.nearby.contains p && t.free p

/-- The room that the turn falls upon, if any, is in `Q`. -/
structure Sound (t : RoomTurn) (Q : ℕ → Prop) : Prop where
  own : t.free t.sched.room = true → Q t.sched.room
  preferred : t.free t.sched.room = false → ∀ room, t.preference = some room → Q room
  first : t.free t.sched.room = false → t.preference = none →
    ∀ room, t.nearby.find? t.free = some room → Q room

theorem Sound.of_own {t : RoomTurn} {Q : ℕ → Prop} (hfree : t.free t.sched.room = true)
    (h : Q t.sched.room) : t.Sound Q where
  own _ := h
  preferred hnot := Bool.noConfusion (hfree.symm.trans hnot)
  first hnot := Bool.noConfusion (hfree.symm.trans hnot)

/-- The free rooms of the building start with the preferred one. -/
theorem head?_freeRooms (t : RoomTurn) :
    (t.db.freeRoomsInBuilding (t.db.buildingOf t.sched.room) (t.item.slotFor t.session).1
      (t.item.slotFor t.session).2 (some t.session.id) t.item.preferredRoom).head? =
        t.preference.or (t.nearby.find? t.free) := by
  unfold Db.freeRoomsInBuilding preference
  dsimp only
  cases t.item.preferredRoom with
  | none => exact List.head?_filter ..
  | some p =>
    change (if (t.nearby.filter t.free).contains p = true then
        (t.nearby.filter t.free).filter (· == p) ++ (t.nearby.filter t.free).filter (· != p)
      else t.nearby.filter t.free).head? = _
    have hmem : (t.nearby.filter t.free).contains p = (t.nearby.contains p && t.free p) := by
      rw [Bool.eq_iff_iff, Bool.and_eq_true, List.contains_iff_mem, List.contains_iff_mem,
        List.mem_filter]
    rw [hmem, Option.filter_some]
    split
    · rename_i hfree
      have hin : p ∈ (t.nearby.filter t.free).filter (· == p) :=
        List.mem_filter.mpr ⟨List.contains_iff_mem.mp (hmem.trans hfree), beq_self_eq_true p⟩
      obtain ⟨q, hq⟩ := Option.isSome_iff_exists.mp (List.isSome_head?.mpr (List.ne_nil_of_mem hin))
      have heq : q = p := beq_iff_eq.mp (List.mem_filter.mp (List.mem_of_head? hq)).2
      rw [List.head?_append, hq, heq]
      rfl
    · exact List.head?_filter ..

/-- The room of a turn. -/
theorem room_eq (t : RoomTurn) :
    t.room = if t.free t.sched.room then some t.sched.room
      else t.preference.or (t.nearby.find? t.free) := by
  rw [← head?_freeRooms]
  rfl

theorem sound_iff {t : RoomTurn} {Q : ℕ → Prop} :
    t.Sound Q ↔ ∀ room, t.room = some room → Q room := by
  rw [room_eq]
  cases hfree : t.free t.sched.room with
  | true =>
    constructor
    · intro h room hroom
      cases hroom
      exact h.own hfree
    · intro h
      exact .of_own hfree (h _ rfl)
  | false =>
    cases hpref : t.preference with
    | some p =>
      constructor
      · intro h room hroom
        cases hroom
        exact h.preferred hfree p hpref
      · intro h
        refine ⟨fun hyes => ?_, fun _ room hroom => ?_, fun _ hnone => ?_⟩
        · rw [hfree] at hyes
          cases hyes
        · rw [hpref] at hroom
          exact h room hroom
        · rw [hpref] at hnone
          cases hnone
    | none =>
      constructor
      · intro h room hroom
        exact h.first hfree hpref room hroom
      · intro h
        refine ⟨fun hyes => ?_, fun _ room hroom => ?_, fun _ _ room hroom => h room hroom⟩
        · rw [hfree] at hyes
          cases hyes
        · rw [hpref] at hroom
          cases hroom

end RoomTurn

/-! ### The rooms that are written -/

section

variable {req : ModalityShiftRequest} {dean : ℕ} {now : ℤ}

/-- The rooms that a room shift writes to the sessions in its scope. -/
def Db.roomsWritten (db : Db) (req : ModalityShiftRequest) (dean : ℕ) (now : ℤ) : List ℕ :=
  (db.roomTurns req dean now).filterMap RoomTurn.room

/-- The database once the session of the turn has been given the room. -/
def RoomTurn.given (t : RoomTurn) (req : ModalityShiftRequest) (dean : ℕ) (now : ℤ) (room : ℕ) :
    Db :=
  { t.db with
    sessions := t.db.sessions.update (fun a => a.id == t.session.id)
      (req.shift dean now room (t.item.movedSlot t.session.date))
      (Session.key_declare_place _ _ _ _ _) }

theorem mem_stmts_shiftSession {db db' : Db} {item : ModalityShiftItem} {sched : Schedule}
    {s : Session} {room : ℕ} (h : (shiftSession req item sched dean now s).run db = (.ok room, db')) :
    (db, db') ∈ (shiftSession req item sched dean now s).stmts db := by
  obtain ⟨_, db₁, hcheck, hrest⟩ := Prog.run_bind_eq_ok h
  refine Prog.mem_stmts_bind_of_ok hcheck ?_
  obtain ⟨rfl, -⟩ := run_checkMove_eq_ok hcheck
  obtain ⟨found, db₂, hroom, hsave⟩ := Prog.run_bind_eq_ok hrest
  refine Prog.mem_stmts_bind_of_ok hroom ?_
  rw [run_resolveShiftRoom, Prod.mk.injEq] at hroom
  obtain ⟨-, rfl⟩ := hroom
  cases found with
  | none => cases hsave
  | some r =>
    cases hsave
    exact List.mem_cons_self

/-- Every turn of the sessions of one item gives a room, and writes it. -/
theorem sessionTurns_written {item : ModalityShiftItem} {sched : Schedule} {l : List Session}
    {resolved found : Option ℕ} {db db' : Db}
    (hrun : (shiftSessions req item sched dean now l resolved).run db = (.ok found, db'))
    {t : RoomTurn} (ht : t ∈ sessionTurns req item sched dean now l db) :
    ∃ room, t.room = some room ∧ (t.db, t.given req dean now room) ∈
      (shiftSessions req item sched dean now l resolved).stmts db := by
  induction l generalizing db resolved with
  | nil => cases ht
  | cons s rest ih =>
    obtain ⟨room, db₁, hone, hrest⟩ := Prog.run_bind_eq_ok hrun
    rcases List.mem_cons.mp ht with rfl | ht
    · obtain ⟨hroom, -, hdb⟩ := run_shiftSession_eq_ok hone
      refine ⟨room, hroom, Prog.mem_stmts_bind ?_⟩
      rw [RoomTurn.given, ← hdb]
      exact mem_stmts_shiftSession hone
    · rw [hone] at ht
      obtain ⟨r, hr, hmem⟩ := ih hrest ht
      exact ⟨r, hr, Prog.mem_stmts_bind_of_ok hone hmem⟩

/-- Every turn of a room shift gives a room, and writes it. -/
theorem roomTurns_written {db db' : Db} (hrun : (applyF2f req dean now).run db = (.ok (), db'))
    {t : RoomTurn} (ht : t ∈ db.roomTurns req dean now) :
    ∃ room, t.room = some room ∧
      (t.db, t.given req dean now room) ∈ (applyF2f req dean now).stmts db := by
  have hloop : ∀ (rows : List (ModalityShiftItem × Schedule)) (db : Db),
      (Prog.forEach rows (shiftItem req dean now)).run db = (.ok (), db') →
      t ∈ itemTurns req dean now rows db → ∃ room, t.room = some room ∧
        (t.db, t.given req dean now room) ∈
          (Prog.forEach rows (shiftItem req dean now)).stmts db := by
    intro rows
    induction rows with
    | nil =>
      intro db _ ht
      cases ht
    | cons row rows ih =>
      intro db hrun ht
      obtain ⟨_, db₁, hitem, hrest⟩ := Prog.run_bind_eq_ok hrun
      rcases List.mem_append.mp ht with ht | ht
      · have hsessions := hitem
        rw [shiftItem, Prog.run_select_bind] at hsessions
        obtain ⟨found, db₂, hsessions, -⟩ := Prog.run_bind_eq_ok hsessions
        obtain ⟨room, hroom, hmem⟩ := sessionTurns_written hsessions ht
        refine ⟨room, hroom, Prog.mem_stmts_bind (List.mem_cons_of_mem _ ?_)⟩
        exact Prog.mem_stmts_bind hmem
      · rw [hitem] at ht
        obtain ⟨room, hroom, hmem⟩ := ih db₁ hrest ht
        exact ⟨room, hroom, Prog.mem_stmts_bind_of_ok hitem hmem⟩
  rw [applyF2f, Prog.run_select_bind] at hrun
  obtain ⟨room, hroom, hmem⟩ := hloop _ db hrun ht
  exact ⟨room, hroom, List.mem_cons_of_mem _ hmem⟩

/-- The sessions shifted so far, and the items placed so far, have a room in `W`. -/
structure Given (W : List ℕ) (db₀ : Db) (done placed : List ℕ) (db : Db) : Prop where
  same : SameOccurrences db₀ db
  sessions : ∀ s ∈ db.sessions, s.id ∈ done → s.room ∈ W
  items : ∀ i ∈ db.items, i.id ∈ placed → ∃ room ∈ W, i.assignedRoom = some room

theorem shiftRule_given (req : ModalityShiftRequest) (dean : ℕ) (now : ℤ) (db₀ : Db) (W : List ℕ) :
    ShiftRule req dean now db₀ (· ∈ W) (Given W db₀) where
  same h := h.same
  place {done placed db item s room} h _ _ _ _ hroom _ := by
    have hsame : SameOccurrences db₀ { db with
        sessions := db.sessions.update (fun a => a.id == s.id)
          (req.shift dean now room (item.movedSlot s.date))
          (Session.key_declare_place _ _ _ _ _) } :=
      h.same.update (Session.key_declare_place _ _ _ _ _) (fun _ => rfl) rfl
    refine ⟨hsame, fun a ha hmem => ?_, h.items⟩
    replace ha : a ∈ db.sessions.update (fun a => a.id == s.id)
      (req.shift dean now room (item.movedSlot s.date)) (Session.key_declare_place _ _ _ _ _) := ha
    obtain ⟨b, hb, rfl⟩ := Table.mem_update.mp ha
    by_cases heq : b.id = s.id
    · rw [if_pos (beq_iff_eq.mpr heq)]
      exact hroom
    · rw [if_neg (by simpa using heq)] at hmem ⊢
      exact h.sessions b hb ((List.mem_cons.mp hmem).resolve_left heq)
  assign {done placed db item room} h _ hroom := by
    refine ⟨h.same, h.sessions, fun i hi hmem => ?_⟩
    replace hi : i ∈ db.items.update (fun i => i.id == item.id)
      fun i => { i with assignedRoom := some room } := hi
    obtain ⟨j, hj, rfl⟩ := Table.mem_update.mp hi
    by_cases heq : j.id = item.id
    · rw [if_pos (beq_iff_eq.mpr heq)]
      exact ⟨room, hroom, rfl⟩
    · rw [if_neg (by simpa using heq)] at hmem ⊢
      exact h.items j hj ((List.mem_cons.mp hmem).resolve_left heq)

/-- What an approval does to the sessions, it does by the statements of its shift. -/
theorem mem_stmts_applyApproval {request : ℕ} {dean : User} {db db' : Db}
    (hrun : (applyApproval request dean now).run db = (.ok .approved, db'))
    (hget : db.requests.get? request = some req) {st : Db × Db}
    (hst : st ∈ (applyShift req (db.affectedSessions req) dean.id now).stmts db) :
    st ∈ (applyApproval request dean now).stmts db := by
  refine Prog.mem_stmts_atomic ?_
  obtain ⟨r, db₁, hreq, hguards⟩ := Prog.run_bind_eq_ok (Prog.run_atomic_eq_ok hrun)
  refine Prog.mem_stmts_bind_of_ok hreq ?_
  obtain ⟨rfl, hget'⟩ := run_lockRequest_eq_ok hreq
  obtain rfl : req = r := Option.some.inj (hget.symm.trans hget')
  obtain ⟨term, db₂, hterm, hlock⟩ := Prog.run_bind_eq_ok hguards
  refine Prog.mem_stmts_bind_of_ok hterm ?_
  obtain ⟨rfl, -⟩ := run_singleTermIdForRequest_eq_ok hterm
  obtain ⟨_, db₃, hwritable, hbody⟩ := Prog.run_bind_eq_ok hlock
  refine Prog.mem_stmts_bind_of_ok hwritable ?_
  obtain ⟨rfl, -⟩ := run_lockWritableTerm_eq_ok hwritable
  split at hbody
  · cases hbody
  · rename_i hdean
    rw [if_neg hdean]
    split at hbody
    · cases hbody
    · rename_i hpending
      rw [if_neg hpending]
      refine Prog.mem_stmts_bind_of_ok (run_affectedSessions req) ?_
      refine Prog.mem_stmts_bind ?_
      rw [applyConsequence]
      exact Prog.mem_stmts_elim (Prog.mem_stmts_atomic hst)

end

namespace Campus

/-- The pending request, with the only room of the building out of service. -/
def closed : Db :=
  { requested .f2f with
    rooms := ⟨[⟨1, 1, "A101", "qr-1", "100001", true, "Repair"⟩], by decide⟩ }

theorem reached_closed : Reached closed :=
  .other (.materialize (.start (show timetable.sessions.rows = [] from rfl)) term monday 1 false 0)
    rfl

end Campus

end FluxTrack
