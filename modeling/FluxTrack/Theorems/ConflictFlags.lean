import FluxTrack.Data.Episodes
import FluxTrack.Scheduling.RoomConflicts
import FluxTrack.System
import Mathlib.Data.List.Dedup

/-!
# Room-conflict flags over a history

Between two runs of the conflict job the sessions change in any way. The open flags after a
run are the conflicts of that moment, and a flag is opened, with its notification, exactly
when a room comes into conflict.

## Main definitions

* `Db.openFlags`, `Db.InConflict` — the flags and what they stand for
* `FlagEvent`, `Db.afterEvents` — histories
* `Db.Tracks`, `Db.History` — what a run and a history leave behind

## Main results

* `run_detectRoomConflicts`, `run_detectRoomConflicts_again` — one run and a second one
* `history_of_events` — the invariant of histories
* `conflictFlags_track` — the flags over a history
-/

namespace FluxTrack

open Relational Process Episodes

/-- The flags that have not been resolved. -/
def Db.openFlags (db : Db) : List RoomConflictFlag :=
  db.flags.table.rows.filter RoomConflictFlag.isOpen

/-- Two or more running sessions of the term hold the room. -/
def Db.InConflict (db : Db) (term room : ℕ) : Prop :=
  2 ≤ db.sessions.rows.countP fun s =>
    s.room == room && (s.status == .active && s.roomReleasedAt.isNone && db.inTerm term s)

instance (db : Db) (term room : ℕ) : Decidable (db.InConflict term room) :=
  inferInstanceAs (Decidable (2 ≤ _))

theorem mem_conflictingRooms_iff {db : Db} {term room : ℕ} :
    room ∈ db.conflictingRooms term ↔ db.InConflict term room := by
  have hcount : ((db.holdingSessions term).map Session.room).count room =
      db.sessions.rows.countP fun s =>
        s.room == room && (s.status == .active && s.roomReleasedAt.isNone && db.inTerm term s) := by
    rw [List.count, List.countP_map, Db.holdingSessions, List.countP_filter]
    rfl
  rw [Db.conflictingRooms, List.mem_filter, List.mem_dedup, hcount, decide_eq_true_iff]
  refine and_iff_right_of_imp fun htwo => ?_
  rw [← List.count_pos_iff, hcount]
  omega

theorem nodup_conflictingRooms (db : Db) (term : ℕ) : (db.conflictingRooms term).Nodup :=
  (List.nodup_dedup _).filter _

/-! ### Resolving -/

namespace FlagTable

theorem open_resolve {t : FlagTable} {pk : ℕ} {now : ℤ} :
    ((t.resolve pk now).table.rows.filter RoomConflictFlag.isOpen) =
      (t.table.rows.filter RoomConflictFlag.isOpen).filter fun f => f.id != pk := by
  change (t.table.rows.map fun f =>
    if (f.id == pk) = true then { f with resolvedAt := some now } else f).filter _ = _
  induction t.table.rows with
  | nil => rfl
  | cons f rows ih =>
    rw [List.map_cons]
    by_cases hid : f.id = pk
    · rw [if_pos (by simpa using hid), List.filter_cons_of_neg (by simp [RoomConflictFlag.isOpen]),
        ih]
      by_cases hopen : f.isOpen = true
      · rw [List.filter_cons_of_pos hopen, List.filter_cons_of_neg (by simp [hid])]
      · rw [List.filter_cons_of_neg hopen]
    · rw [if_neg (by simpa using hid)]
      by_cases hopen : f.isOpen = true
      · rw [List.filter_cons_of_pos hopen, List.filter_cons_of_pos hopen,
          List.filter_cons_of_pos (by simp [hid]), ih]
      · rw [List.filter_cons_of_neg hopen, List.filter_cons_of_neg hopen, ih]

/-- A flag that an open one covers cannot be created, any other can. -/
theorem insert?_of_notMem {t : FlagTable} {room : ℕ}
    (h : room ∉ (t.table.rows.filter RoomConflictFlag.isOpen).map RoomConflictFlag.conflictKey) :
    ∃ u, t.insert? room = some u ∧
      u.table.rows = t.table.rows ++ [⟨t.table.nextKey, room, room, none⟩] := by
  have hnodup : (((t.table.insert fun pk => ⟨pk, room, room, none⟩).rows.filter
      RoomConflictFlag.isOpen).map RoomConflictFlag.conflictKey).Nodup := by
    rw [Table.rows_insert, List.filter_append, List.map_append]
    refine t.oneOpen.append (List.nodup_singleton _) ?_
    rw [List.disjoint_right]
    intro key hkey
    rw [List.mem_singleton.mp hkey]
    exact h
  exact ⟨_, dif_pos hnodup, rfl⟩

end FlagTable

/-- The database with other flags. -/
def Db.withFlags (db : Db) (t : FlagTable) : Db := { db with flags := t }

/-- The database with other flags and new notifications. -/
def Db.flagged (db : Db) (t : FlagTable) (new : List Notification) : Db :=
  { db with flags := t, notifications := db.notifications ++ new }

theorem run_resolveFlag (current : List ℕ) (now : ℤ) (flag : RoomConflictFlag) (db : Db) :
    (resolveFlag current now flag).run db = (.ok ⟨⟩,
      if current.contains flag.conflictKey then db
      else db.withFlags (db.flags.resolve flag.id now)) := by
  unfold resolveFlag
  split <;> rfl

/-- The loop over flags resolves those whose conflict has cleared. -/
theorem run_resolveFlags (current : List ℕ) (now : ℤ) (flags : List RoomConflictFlag) (db : Db) :
    ∃ t : FlagTable, (Prog.forEach flags (resolveFlag current now)).run db =
        (.ok ⟨⟩, db.withFlags t) ∧
      t.table.rows.map RoomConflictFlag.id = db.flags.table.rows.map RoomConflictFlag.id ∧
      t.table.rows.filter RoomConflictFlag.isOpen = db.openFlags.filter fun f =>
        flags.all fun g => current.contains g.conflictKey || f.id != g.id := by
  induction flags generalizing db with
  | nil => exact ⟨db.flags, rfl, rfl, by simp [Db.openFlags]⟩
  | cons flag flags ih =>
    rw [Prog.run_forEach_cons (run_resolveFlag current now flag db)]
    by_cases hcurrent : current.contains flag.conflictKey = true
    · rw [if_pos hcurrent]
      obtain ⟨t, hrun, hids, hopen⟩ := ih db
      refine ⟨t, hrun, hids, hopen.trans (List.filter_congr fun f _ => ?_)⟩
      rw [List.all_cons, hcurrent, Bool.true_or, Bool.true_and]
    · rw [if_neg hcurrent]
      obtain ⟨t, hrun, hids, hopen⟩ := ih (db.withFlags (db.flags.resolve flag.id now))
      refine ⟨t, hrun, hids.trans ?_, hopen.trans ?_⟩
      · change (db.flags.table.rows.map fun f =>
          if (f.id == flag.id) = true then { f with resolvedAt := some now } else f).map _ = _
        rw [List.map_map]
        refine List.map_congr_left fun f _ => ?_
        by_cases hid : f.id = flag.id <;> simp [hid]
      · rw [Db.openFlags, Db.withFlags, FlagTable.open_resolve, List.filter_filter]
        refine List.filter_congr fun f _ => ?_
        rw [List.all_cons, Bool.eq_false_iff.mpr hcurrent, Bool.false_or, Bool.and_comm]

/-- The job resolves the open flags whose room is in conflict no longer. -/
theorem run_resolveOpenFlags (current : List ℕ) (now : ℤ) (db : Db) :
    ∃ t : FlagTable, (Prog.forEach db.openFlags (resolveFlag current now)).run db =
        (.ok ⟨⟩, db.withFlags t) ∧
      t.table.rows.map RoomConflictFlag.id = db.flags.table.rows.map RoomConflictFlag.id ∧
      t.table.rows.filter RoomConflictFlag.isOpen =
        db.openFlags.filter fun f => current.contains f.conflictKey := by
  obtain ⟨t, hrun, hids, hopen⟩ := run_resolveFlags current now db.openFlags db
  refine ⟨t, hrun, hids, hopen.trans (List.filter_congr fun f hf => ?_)⟩
  rw [Bool.eq_iff_iff, List.all_eq_true]
  constructor
  · intro hall
    simpa using hall f hf
  · intro hcurrent g hg
    by_cases hid : f.id = g.id
    · have hsame : f = g :=
        Table.eq_of_key_eq (List.mem_filter.mp hf).1 (List.mem_filter.mp hg).1 hid
      rw [← hsame, hcurrent, Bool.true_or]
    · simp [hid]

/-! ### Flagging -/

/-- The open flags have their keys. -/
def Db.openKeys (db : Db) : List ℕ := db.openFlags.map RoomConflictFlag.conflictKey

/-- The notifications of a room that has come into conflict. -/
def Db.conflictNotices (db : Db) (room : ℕ) : List Notification :=
  (db.usersOfRole .ifoAdmin).map fun u => ⟨u, .roomConflict (db.room room).code⟩

theorem run_flagRoom_of_mem {db : Db} {room : ℕ} (h : room ∈ db.openKeys) :
    (flagRoom room).run db = (.ok none, db) := by
  obtain ⟨f, hf, hkey⟩ := List.mem_map.mp h
  obtain ⟨hmem, hopen⟩ := List.mem_filter.mp hf
  have hany : (db.flags.table.rows.any fun f => f.conflictKey == room && f.isOpen) = true :=
    List.any_eq_true.mpr ⟨f, hmem, by simp [hkey, hopen]⟩
  rw [flagRoom, Prog.run_select_bind, if_pos hany, Prog.run_pure]

theorem run_flagRoom_of_notMem {db : Db} {room : ℕ} (h : room ∉ db.openKeys) :
    ∃ t : FlagTable, (flagRoom room).run db =
        (.ok (some (.conflict, (db.room room).floor)), db.flagged t (db.conflictNotices room)) ∧
      t.table.rows = db.flags.table.rows ++ [⟨db.flags.table.nextKey, room, room, none⟩] := by
  obtain ⟨t, ht, hrows⟩ := FlagTable.insert?_of_notMem h
  have hany : ¬ (db.flags.table.rows.any fun f => f.conflictKey == room && f.isOpen) = true := by
    rw [List.any_eq_true]
    rintro ⟨f, hmem, hf⟩
    simp only [Bool.and_eq_true, beq_iff_eq] at hf
    exact h (List.mem_map.mpr ⟨f, List.mem_filter.mpr ⟨hmem, hf.2⟩, hf.1⟩)
  have hcreate : (createFlag room).run db = (.ok ⟨⟩, db.withFlags t) := by
    rw [createFlag, Prog.run_modifyGet_bind, ht]
    rfl
  have hblock : (Prog.atomic do
        createFlag room
        notifyRole .ifoAdmin (.roomConflict (db.room room).code) : M Unit).run db =
      (.ok ⟨⟩, db.flagged t (db.conflictNotices room)) :=
    Prog.run_atomic_of_ok ((Prog.run_bind_of_ok hcreate).trans rfl)
  refine ⟨t, ?_, hrows⟩
  rw [flagRoom, Prog.run_select_bind, if_neg hany, Prog.run_select_bind]
  exact Prog.run_bind_of_ok hblock

/-- The flags a loop over rooms opens: one for each room no open flag covers, under a fresh
key. -/
structure Db.Opens (db : Db) (rooms : List ℕ) (t : FlagTable) (new : List RoomConflictFlag) :
    Prop where
  rows : t.table.rows = db.flags.table.rows ++ new
  isOpen : ∀ f ∈ new, f.isOpen = true ∧ f.room = f.conflictKey
  keys : new.map RoomConflictFlag.conflictKey = rooms.filter fun room => !db.openKeys.contains room

/-- The loop over the rooms in conflict. -/
theorem run_flagRooms (rooms : List ℕ) (hnodup : rooms.Nodup) (db : Db) :
    ∃ t new events, db.Opens rooms t new ∧ (flagRooms rooms).run db =
      (.ok (new.length, events),
        db.flagged t ((new.map RoomConflictFlag.conflictKey).flatMap db.conflictNotices)) := by
  induction rooms generalizing db with
  | nil =>
    refine ⟨db.flags, [], [], ⟨by simp, by simp, rfl⟩, ?_⟩
    simp [flagRooms, Db.flagged]
  | cons room rooms ih =>
    obtain ⟨hroom, hnodup⟩ := List.nodup_cons.mp hnodup
    by_cases hopen : room ∈ db.openKeys
    · obtain ⟨t, new, events, hopens, hrun⟩ := ih hnodup db
      refine ⟨t, new, events, ⟨hopens.rows, hopens.isOpen, hopens.keys.trans ?_⟩, ?_⟩
      · rw [List.filter_cons_of_neg (by simp [hopen])]
      · rw [flagRooms, Prog.run_bind_of_ok (run_flagRoom_of_mem hopen), Prog.run_bind_of_ok hrun]
        rfl
    · obtain ⟨t₁, hfirst, hrows⟩ := run_flagRoom_of_notMem hopen
      obtain ⟨t, new, events, hopens, hrun⟩ := ih hnodup (db.flagged t₁ (db.conflictNotices room))
      have hkeys : (db.flagged t₁ (db.conflictNotices room)).openKeys = db.openKeys ++ [room] := by
        change (t₁.table.rows.filter RoomConflictFlag.isOpen).map RoomConflictFlag.conflictKey = _
        rw [hrows, List.filter_append, List.map_append]
        rfl
      refine ⟨t, ⟨db.flags.table.nextKey, room, room, none⟩ :: new,
        (.conflict, (db.room room).floor) :: events, ⟨?_, ?_, ?_⟩, ?_⟩
      · rw [hopens.rows]
        change t₁.table.rows ++ new = _
        rw [hrows, List.append_assoc]
        rfl
      · intro f hf
        rcases List.mem_cons.mp hf with rfl | hf
        · exact ⟨rfl, rfl⟩
        · exact hopens.isOpen f hf
      · rw [List.map_cons, List.filter_cons_of_pos (by simpa using hopen), hopens.keys, hkeys]
        congr 1
        -- the flag just opened covers none of the rooms to come
        refine List.filter_congr fun r hr => ?_
        have hne : r ≠ room := fun heq => hroom (heq ▸ hr)
        simp [hne]
      · rw [flagRooms, Prog.run_bind_of_ok hfirst, Prog.run_bind_of_ok hrun]
        have hnotices : (db.flagged t₁ (db.conflictNotices room)).conflictNotices =
            db.conflictNotices := rfl
        rw [hnotices]
        simp [Db.flagged]

/-! ### One run -/

/-- What a run of the job does to the flags: those whose room is in conflict no longer are
resolved, and the rooms that have come into conflict get a new one. -/
structure Db.Tracks (db : Db) (term : ℕ) (t : FlagTable) (new : List RoomConflictFlag) : Prop where
  openFlags : t.table.rows.filter RoomConflictFlag.isOpen =
    (db.openFlags.filter fun f => (db.conflictingRooms term).contains f.conflictKey) ++ new
  room_eq : ∀ f ∈ new, f.room = f.conflictKey
  keys : new.map RoomConflictFlag.conflictKey =
    (db.conflictingRooms term).filter fun room => !db.openKeys.contains room
  fresh : ∀ f ∈ new, f ∉ db.flags.table

theorem run_detectRoomConflicts {db : Db} {term : AcademicTerm} (hterm : db.activeTerm = some term)
    (now : ℤ) : ∃ t new events, db.Tracks term.id t new ∧ (detectRoomConflicts now).run db =
      (.ok (new.length, events),
        db.flagged t ((new.map RoomConflictFlag.conflictKey).flatMap db.conflictNotices)) := by
  obtain ⟨t₁, hresolve, hids, hopen⟩ :=
    run_resolveOpenFlags (db.conflictingRooms term.id) now db
  obtain ⟨t, new, events, hopens, hflag⟩ := run_flagRooms (db.conflictingRooms term.id)
    (nodup_conflictingRooms db term.id) (db.withFlags t₁)
  have hkept : ∀ room ∈ db.conflictingRooms term.id,
      (room ∈ (db.withFlags t₁).openKeys ↔ room ∈ db.openKeys) := by
    intro room hroom
    change room ∈ (t₁.table.rows.filter RoomConflictFlag.isOpen).map _ ↔ _
    rw [hopen, Db.openKeys, List.mem_map, List.mem_map]
    constructor
    · rintro ⟨f, hf, hkey⟩
      exact ⟨f, (List.mem_filter.mp hf).1, hkey⟩
    · rintro ⟨f, hf, rfl⟩
      exact ⟨f, List.mem_filter.mpr ⟨hf, by simpa using hroom⟩, rfl⟩
  refine ⟨t, new, events, ⟨?_, fun f hf => (hopens.isOpen f hf).2, ?_, ?_⟩, ?_⟩
  · rw [hopens.rows, List.filter_append]
    refine congrArg₂ _ hopen (List.filter_eq_self.mpr fun f hf => (hopens.isOpen f hf).1)
  · rw [hopens.keys]
    refine List.filter_congr fun room hroom => ?_
    simp [hkept room hroom]
  · -- the new flags follow the old ones under other keys
    intro f hf hold
    have hnodup := t.table.nodup
    rw [hopens.rows, List.map_append] at hnodup
    refine List.disjoint_of_nodup_append hnodup (a := f.id) ?_ (List.mem_map_of_mem hf)
    change f.id ∈ t₁.table.rows.map RoomConflictFlag.id
    rw [hids]
    exact List.mem_map_of_mem hold
  · rw [detectRoomConflicts, Prog.run_select_bind, hterm]
    exact (Prog.run_bind_of_ok hresolve).trans hflag

section

variable {db : Db} {term : ℕ} {t : FlagTable} {new : List RoomConflictFlag}

/-- After a run the open keys are the rooms in conflict. -/
theorem Db.Tracks.mem_openKeys (h : db.Tracks term t new) {ns : List Notification} {room : ℕ} :
    room ∈ (db.flagged t ns).openKeys ↔ room ∈ db.conflictingRooms term := by
  change room ∈ (t.table.rows.filter RoomConflictFlag.isOpen).map RoomConflictFlag.conflictKey ↔ _
  rw [h.openFlags, List.map_append, h.keys, List.mem_append, List.mem_filter]
  constructor
  · rintro (hkept | ⟨hroom, -⟩)
    · obtain ⟨f, hf, rfl⟩ := List.mem_map.mp hkept
      simpa using (List.mem_filter.mp hf).2
    · exact hroom
  · intro hroom
    by_cases hopen : room ∈ db.openKeys
    · obtain ⟨f, hf, rfl⟩ := List.mem_map.mp hopen
      exact .inl (List.mem_map.mpr ⟨f, List.mem_filter.mpr ⟨hf, by simpa using hroom⟩, rfl⟩)
    · exact .inr ⟨hroom, by simpa using hopen⟩

/-- A run opens one flag for each room that comes into conflict. -/
theorem Db.Tracks.count_keys (h : db.Tracks term t new) (room : ℕ) :
    (new.map RoomConflictFlag.conflictKey).count room =
      if db.InConflict term room ∧ room ∉ db.openKeys then 1 else 0 := by
  rw [h.keys, ((nodup_conflictingRooms db term).filter _).count]
  simp [mem_conflictingRooms_iff]

/-- The flags open after a run that were not there before are the new ones. -/
theorem Db.Tracks.filter_notMem (h : db.Tracks term t new) {ns : List Notification} :
    ((db.flagged t ns).openFlags.filter fun f => !db.flags.table.rows.contains f) = new := by
  change (t.table.rows.filter RoomConflictFlag.isOpen).filter _ = _
  rw [h.openFlags, List.filter_append, List.filter_eq_nil_iff.mpr, List.nil_append,
    List.filter_eq_self.mpr]
  · intro f hf
    simpa using h.fresh f hf
  · intro f hf
    have hmem : f ∈ db.flags.table := (List.mem_filter.mp (List.mem_filter.mp hf).1).1
    simpa using hmem

end

/-! ### Histories -/

/-- What happens in a history: the sessions change in any way, or the job runs. -/
inductive FlagEvent
  | sessions (t : Table Session)
  | detect (now : ℤ)

namespace FlagEvent

/-- The database after an event. -/
def after (db : Db) : FlagEvent → Db
  | sessions t => { db with sessions := t }
  | detect now => ((detectRoomConflicts now).run db).2

/-- The reading a run makes of a room. -/
def reading (db : Db) (term room : ℕ) : FlagEvent → List Bool
  | sessions _ => []
  | detect _ => [decide (db.InConflict term room)]

end FlagEvent

/-- The database after a history. -/
def Db.afterEvents (db : Db) (es : List FlagEvent) : Db := es.foldl FlagEvent.after db

/-- Whether a room is in conflict, at each run of a history. -/
def Db.conflictRuns (term room : ℕ) : Db → List FlagEvent → List Bool
  | _, [] => []
  | db, e :: es => e.reading db term room ++ conflictRuns term room (e.after db) es

theorem Db.conflictRuns_append (term room : ℕ) (es : List FlagEvent) (e : FlagEvent) (db : Db) :
    db.conflictRuns term room (es ++ [e]) =
      db.conflictRuns term room es ++ e.reading (db.afterEvents es) term room := by
  induction es generalizing db with
  | nil => simp [Db.conflictRuns, Db.afterEvents]
  | cons e' es ih => simp [Db.conflictRuns, Db.afterEvents, ih]

/-- What a history leaves behind: the same offices, terms and rooms, flags with the keys of
their rooms, open where the last run found a conflict, and the rooms notified about. -/
structure Db.History (db : Db) (term : ℕ) (es : List FlagEvent) (notified : List ℕ) : Prop where
  activeTerm : (db.afterEvents es).activeTerm = db.activeTerm
  notices : (db.afterEvents es).conflictNotices = db.conflictNotices
  room_eq : ∀ f ∈ (db.afterEvents es).openFlags, f.room = f.conflictKey
  openKeys : ∀ room, room ∈ (db.afterEvents es).openKeys ↔
    (db.conflictRuns term room es).getLast? = some true
  notifications : (db.afterEvents es).notifications =
    db.notifications ++ notified.flatMap db.conflictNotices
  count : ∀ room, notified.count room = episodes (db.conflictRuns term room es)

theorem afterEvents_append (db : Db) (es : List FlagEvent) (e : FlagEvent) :
    db.afterEvents (es ++ [e]) = e.after (db.afterEvents es) := by
  simp [Db.afterEvents]

/-- A change of the sessions is not read by the flags. -/
theorem Db.History.sessions {db : Db} {term : ℕ} {es : List FlagEvent} {notified : List ℕ}
    (h : db.History term es notified) (t : Table Session) :
    db.History term (es ++ [.sessions t]) notified := by
  have hafter := afterEvents_append db es (.sessions t)
  refine ⟨?_, ?_, ?_, fun room => ?_, ?_, fun room => ?_⟩
  · rw [hafter]
    exact h.activeTerm
  · rw [hafter]
    exact h.notices
  · rw [hafter]
    exact h.room_eq
  · rw [hafter, Db.conflictRuns_append, FlagEvent.reading, List.append_nil]
    exact h.openKeys room
  · rw [hafter]
    exact h.notifications
  · rw [Db.conflictRuns_append, FlagEvent.reading, List.append_nil]
    exact h.count room

/-- A run of the job opens a flag, and notifies, where a conflict begins. -/
theorem Db.History.detect {db : Db} {term : AcademicTerm} (hterm : db.activeTerm = some term)
    {es : List FlagEvent} {notified : List ℕ} (h : db.History term.id es notified) (now : ℤ) :
    ∃ notified', db.History term.id (es ++ [.detect now]) notified' := by
  obtain ⟨t, new, events, htracks, hrun⟩ := run_detectRoomConflicts (h.activeTerm.trans hterm) now
  have hrun' : FlagEvent.after (db.afterEvents es) (.detect now) = _ := congrArg Prod.snd hrun
  have hafter := (afterEvents_append db es (.detect now)).trans hrun'
  refine ⟨notified ++ new.map RoomConflictFlag.conflictKey, ?_, ?_, ?_, fun room => ?_, ?_,
    fun room => ?_⟩
  · rw [hafter]
    exact h.activeTerm
  · rw [hafter]
    exact h.notices
  · rw [hafter]
    intro f hf
    change f ∈ t.table.rows.filter RoomConflictFlag.isOpen at hf
    rw [htracks.openFlags, List.mem_append] at hf
    rcases hf with hf | hf
    · exact h.room_eq f (List.mem_filter.mp hf).1
    · exact htracks.room_eq f hf
  · rw [hafter, htracks.mem_openKeys, mem_conflictingRooms_iff, Db.conflictRuns_append]
    simp [FlagEvent.reading]
  · rw [hafter]
    change (db.afterEvents es).notifications ++ _ = _
    rw [h.notifications, h.notices, List.flatMap_append, List.append_assoc]
  · -- the last reading before the run is whether the flag is open, so the run notifies the room
    -- exactly when its reading begins an episode
    rw [Db.conflictRuns_append, FlagEvent.reading, episodes_append_singleton, List.count_append,
      h.count, htracks.count_keys]
    congr 1
    have hkeys := h.openKeys room
    rcases hlast : (db.conflictRuns term.id room es).getLast? with _ | last
    · simp [beginsEpisode, hlast, hkeys]
    · cases last <;> simp [beginsEpisode, hlast, hkeys]

theorem history_of_events {db : Db} {term : AcademicTerm} (hterm : db.activeTerm = some term)
    (hnone : db.openFlags = []) (es : List FlagEvent) :
    ∃ notified, db.History term.id es notified := by
  induction es using List.reverseRecOn with
  | nil =>
    exact ⟨[], rfl, rfl, by simp [Db.afterEvents, hnone],
      by simp [Db.afterEvents, Db.openKeys, hnone, Db.conflictRuns], by simp [Db.afterEvents],
      by simp [Db.conflictRuns]⟩
  | append_singleton es e ih =>
    obtain ⟨notified, h⟩ := ih
    cases e with
    | sessions t => exact ⟨notified, h.sessions t⟩
    | detect now => exact h.detect hterm now

/-- After a run the job finds nothing to do. -/
theorem run_detectRoomConflicts_again {db : Db} {term : AcademicTerm}
    (hterm : db.activeTerm = some term)
    (hkeys : ∀ room, room ∈ db.openKeys ↔ db.InConflict term.id room) (now : ℤ) :
    (detectRoomConflicts now).run db = (.ok (0, []), db) := by
  have hresolve : ∀ flags, (∀ f ∈ flags, f ∈ db.openFlags) →
      (Prog.forEach flags (resolveFlag (db.conflictingRooms term.id) now)).run db =
        (.ok ⟨⟩, db) := by
    intro flags hflags
    induction flags with
    | nil => rfl
    | cons f flags ih =>
      have hkey : (db.conflictingRooms term.id).contains f.conflictKey = true := by
        have hmem : f.conflictKey ∈ db.openKeys :=
          List.mem_map_of_mem (hflags f List.mem_cons_self)
        simpa [mem_conflictingRooms_iff] using (hkeys _).mp hmem
      rw [Prog.run_forEach_cons (run_resolveFlag _ now f db), if_pos hkey]
      exact ih fun g hg => hflags g (List.mem_cons_of_mem f hg)
  have hflag : ∀ rooms : List ℕ, (∀ room ∈ rooms, room ∈ db.openKeys) →
      (flagRooms rooms).run db = (.ok (0, []), db) := by
    intro rooms hrooms
    induction rooms with
    | nil => rfl
    | cons room rooms ih =>
      rw [flagRooms, Prog.run_bind_of_ok (run_flagRoom_of_mem (hrooms room List.mem_cons_self)),
        Prog.run_bind_of_ok (ih fun r hr => hrooms r (List.mem_cons_of_mem room hr))]
      rfl
  rw [detectRoomConflicts, Prog.run_select_bind, hterm]
  refine (Prog.run_bind_of_ok (hresolve db.openFlags fun _ h => h)).trans (hflag _ fun room hroom => ?_)
  exact (hkeys room).mpr (mem_conflictingRooms_iff.mp hroom)

/-- Over every history of session changes and runs, at most one open flag is on a room; after
a run the open flags are the rooms in conflict, the answer counts the new ones, and a second
run changes nothing; and the offices are notified once for each maximal block of consecutive
runs that find a room in conflict. -/
theorem conflictFlags_track {db : Db} {term : AcademicTerm} (hterm : db.activeTerm = some term)
    (hnone : db.openFlags = []) (es : List FlagEvent) :
    ((db.afterEvents es).openFlags.map RoomConflictFlag.room).Nodup ∧
    (∀ now, ∃ n events db', (detectRoomConflicts now).run (db.afterEvents es) =
        (.ok (n, events), db') ∧
      (∀ room, (∃ f ∈ db'.openFlags, f.room = room) ↔ db'.InConflict term.id room) ∧
      n = (db'.openFlags.filter fun f =>
        !(db.afterEvents es).flags.table.rows.contains f).length ∧
      ∀ now', (detectRoomConflicts now').run db' = (.ok (0, []), db')) ∧
    ∃ notified : List ℕ,
      (db.afterEvents es).notifications =
        db.notifications ++ notified.flatMap (fun room =>
          (db.usersOfRole .ifoAdmin).map fun u => ⟨u, .roomConflict (db.room room).code⟩) ∧
      ∀ room, notified.count room = episodes (db.conflictRuns term.id room es) := by
  obtain ⟨notified, h⟩ := history_of_events hterm hnone es
  refine ⟨?_, fun now => ?_, notified, h.notifications, h.count⟩
  · rw [List.map_congr_left h.room_eq]
    exact (db.afterEvents es).flags.oneOpen
  · have hactive := h.activeTerm.trans hterm
    obtain ⟨t, new, events, htracks, hrun⟩ := run_detectRoomConflicts hactive now
    -- the run asked about is the last event of a longer history
    obtain ⟨_, hnext⟩ := history_of_events hterm hnone (es ++ [.detect now])
    have hafter : db.afterEvents (es ++ [.detect now]) = (db.afterEvents es).flagged t
        ((new.map RoomConflictFlag.conflictKey).flatMap (db.afterEvents es).conflictNotices) := by
      rw [Db.afterEvents, List.foldl_append]
      exact congrArg Prod.snd hrun
    have hkeys : ∀ room, room ∈ ((db.afterEvents es).flagged t
        ((new.map RoomConflictFlag.conflictKey).flatMap
          (db.afterEvents es).conflictNotices)).openKeys ↔
        room ∈ (db.afterEvents es).conflictingRooms term.id := fun _ => htracks.mem_openKeys
    refine ⟨new.length, events, _, hrun, fun room => ?_, by rw [htracks.filter_notMem], ?_⟩
    · have hroom := hnext.room_eq
      rw [hafter] at hroom
      refine Iff.trans ?_ ((hkeys room).trans mem_conflictingRooms_iff)
      rw [Db.openKeys, List.mem_map]
      constructor
      · rintro ⟨f, hf, rfl⟩
        exact ⟨f, hf, (hroom f hf).symm⟩
      · rintro ⟨f, hf, rfl⟩
        exact ⟨f, hf, hroom f hf⟩
    · exact run_detectRoomConflicts_again hactive fun room =>
        (hkeys room).trans mem_conflictingRooms_iff

namespace Campus

/-- Both classes of the Monday running in the one room. -/
def doubleBooked : Table Session :=
  campus.sessions.update (fun _ => true) (Session.checkIn 0 .qrScan) (Session.key_checkIn 0 .qrScan)

/-- The conflict is found twice, clears and comes back. -/
def twoConflicts : List FlagEvent :=
  [.sessions doubleBooked, .detect 0, .detect 1, .sessions .empty, .detect 2,
    .sessions doubleBooked, .detect 3]

end Campus

theorem conflictFlags_track_campus : ∃ notified : List ℕ,
    (Campus.timetable.afterEvents Campus.twoConflicts).notifications =
      Campus.timetable.notifications ++ notified.flatMap (fun room =>
        (Campus.timetable.usersOfRole .ifoAdmin).map fun u =>
          ⟨u, .roomConflict (Campus.timetable.room room).code⟩) ∧ notified.count 1 = 2 := by
  have hterm : Campus.timetable.activeTerm = some Campus.term := by decide
  obtain ⟨-, -, notified, hnotices, hcount⟩ :=
    conflictFlags_track hterm (by decide) Campus.twoConflicts
  refine ⟨notified, hnotices, (hcount 1).trans ?_⟩
  decide +kernel

end FluxTrack
