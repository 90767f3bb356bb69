import FluxTrack.Ops.GuardAlerts
import FluxTrack.System

/-!
# Who is told about a floor

An alert goes to the guards with a posting for the floor, of whatever term. The floors that a
guard is shown are those of the active term, so that the two agree exactly if every active guard
who is posted to a floor of the events is posted to one of them for the active term.

## Main definitions

* `Db.AlertsExact` — the alerts go to the guards of the floors, with the counts of the floors
* `Db.PostedForTerm` — the postings that make it so

## Main results

* `alertsExact_iff` — when the alerts are exact
-/

namespace FluxTrack

open Calendar Relational Process

/-- Something happened on the floor. -/
def HasEvent (events : List FloorEvent) (floor : ℕ) : Prop := ∃ e ∈ events, e.2 = some floor

/-- The user may be told. -/
def Db.isActiveUser (db : Db) (user : ℕ) : Bool := (db.users.get? user).any User.isActive

/-- The alerts of a run go to the active users with a floor of the events, one to each, and tell
of each floor the numbers of its events. -/
def Db.AlertsExact (db : Db) (events : List FloorEvent) (now : ℤ) : Prop :=
  ∃ notes, (notifyFloorGuards events now).run db = (.ok notes.length, db.withNotes notes) ∧
    (notes.map Notification.user).Nodup ∧
    (∀ user, user ∈ notes.map Notification.user ↔ db.isActiveUser user = true ∧
      ∃ floor ∈ db.guardFloorIds user now, HasEvent events floor) ∧
    ∀ note ∈ notes, ∃ rows : List (ℕ × FloorCounts), rows ≠ [] ∧ (rows.map Prod.fst).Nodup ∧
      (∀ r ∈ rows, HasEvent events r.1 ∧
        r.2 = ⟨events.count (.absent, some r.1), events.count (.conflict, some r.1)⟩) ∧
      note.notice = .guardFloorAlert
        (summarizeFloorEvents (rows.map fun r => (db.floorLabel r.1, r.2))).1
        (summarizeFloorEvents (rows.map fun r => (db.floorLabel r.1, r.2))).2 "/guard/monitor"

/-- Every active guard who is posted to a floor of the events is posted to one of them for the
active term. -/
def Db.PostedForTerm (db : Db) (events : List FloorEvent) (now : ℤ) : Prop :=
  ∀ a ∈ db.assignments, a.guardsNow now = true → db.isActiveUser a.user = true →
    (∃ floor ∈ a.floors, HasEvent events floor) →
    ∃ term, db.activeTerm = some term ∧ ∃ b ∈ db.assignments, b.user = a.user ∧
      b.term = some term.id ∧ b.guardsNow now = true ∧ ∃ floor ∈ b.floors, HasEvent events floor

section

variable {db : Db} {events : List FloorEvent} {now : ℤ} {user floor : ℕ}

/-! ### The guards of a run -/

theorem mem_onDutyGuards {a : Assignment} : a ∈ db.onDutyGuards now ↔
    a ∈ db.assignments ∧ a.guardsNow now = true ∧ db.isActiveUser a.user = true := by
  rw [Db.onDutyGuards, List.mem_filter, Bool.and_eq_true]
  rfl

theorem mem_alertedGuards :
    user ∈ db.alertedGuards (tallyEvents events) now ↔ ∃ a ∈ db.assignments,
      a.user = user ∧ a.guardsNow now = true ∧ db.isActiveUser user = true ∧
        ∃ floor ∈ a.floors, HasEvent events floor := by
  rw [Db.alertedGuards, List.mem_eraseDups, List.mem_map]
  constructor
  · rintro ⟨a, ha, rfl⟩
    obtain ⟨ha, hfloors⟩ := List.mem_filter.mp ha
    obtain ⟨hmem, hguards, hactive⟩ := mem_onDutyGuards.mp ha
    obtain ⟨floor, hfloor, hevent⟩ := List.any_eq_true.mp hfloors
    exact ⟨a, hmem, rfl, hguards, hactive, floor, hfloor,
      (isSome_lookup_tallyEvents events floor).mp hevent⟩
  · rintro ⟨a, hmem, rfl, hguards, hactive, floor, hfloor, hevent⟩
    refine ⟨a, List.mem_filter.mpr ⟨mem_onDutyGuards.mpr ⟨hmem, hguards, hactive⟩, ?_⟩, rfl⟩
    exact List.any_eq_true.mpr
      ⟨floor, hfloor, (isSome_lookup_tallyEvents events floor).mpr hevent⟩

theorem mem_alertedFloors :
    floor ∈ db.alertedFloors (tallyEvents events) now user ↔ HasEvent events floor ∧
      ∃ a ∈ db.assignments, a.user = user ∧ a.guardsNow now = true ∧
        db.isActiveUser user = true ∧ floor ∈ a.floors := by
  rw [Db.alertedFloors, List.mem_eraseDups, List.mem_filter, isSome_lookup_tallyEvents, and_comm]
  refine and_congr_right fun _ => ?_
  rw [List.mem_flatMap]
  constructor
  · rintro ⟨a, hsel, hfloor⟩
    obtain ⟨hduty, huser⟩ := List.mem_filter.mp hsel
    obtain rfl := beq_iff_eq.mp huser
    obtain ⟨hmem, hguards, hactive⟩ := mem_onDutyGuards.mp hduty
    exact ⟨a, hmem, rfl, hguards, hactive, hfloor⟩
  · rintro ⟨a, hmem, rfl, hguards, hactive, hfloor⟩
    exact ⟨a, List.mem_filter.mpr ⟨mem_onDutyGuards.mpr ⟨hmem, hguards, hactive⟩,
      beq_self_eq_true _⟩, hfloor⟩

/-! ### The text of an alert -/

theorem map_fst_alertRows : ((db.alertRows (tallyEvents events) now user).map Prod.fst).Perm
    (db.alertedFloors (tallyEvents events) now user) := by
  rw [Db.alertRows, List.map_map, show Prod.fst ∘ (fun f => (f, ((tallyEvents events).lookup
    f).getD ⟨0, 0⟩)) = id from rfl, List.map_id]
  exact List.perm_insertionSort _ _

theorem counts_of_mem_alertRows {r : ℕ × FloorCounts}
    (hr : r ∈ db.alertRows (tallyEvents events) now user) : HasEvent events r.1 ∧
      r.2 = ⟨events.count (.absent, some r.1), events.count (.conflict, some r.1)⟩ := by
  refine ⟨(mem_alertedFloors.mp (map_fst_alertRows.mem_iff.mp (List.mem_map_of_mem hr))).1, ?_⟩
  obtain ⟨f, -, rfl⟩ := List.mem_map.mp hr
  exact getD_lookup_tallyEvents events f

theorem append_on_ne (what place : String) : what ++ " on " ++ place ≠ "" := by
  simp [String.append_eq_empty_iff]

theorem summarizeFloorEvents_ne {rows : List (String × FloorCounts)} {r : String × FloorCounts}
    (hr : r ∈ rows) (hcount : (r.2.absent != 0 || r.2.conflict != 0) = true) :
    (summarizeFloorEvents rows).1 ≠ "" := by
  have hmem : r ∈ rows.filter fun r => r.2.absent != 0 || r.2.conflict != 0 :=
    List.mem_filter.mpr ⟨hr, hcount⟩
  rw [summarizeFloorEvents]
  dsimp only
  rw [if_neg (by rw [List.isEmpty_iff]; exact List.ne_nil_of_mem hmem)]
  exact append_on_ne _ _

/-- Every guard with a floor of the events has something to be told. -/
theorem alertText_ne (huser : user ∈ db.alertedGuards (tallyEvents events) now) :
    db.alertRows (tallyEvents events) now user ≠ [] ∧
      (db.alertText (tallyEvents events) now user).1 ≠ "" := by
  obtain ⟨a, ha, rfl, hguards, hactive, floor, hfloor, hevent⟩ := mem_alertedGuards.mp huser
  have hmem := map_fst_alertRows.mem_iff.mpr
    (mem_alertedFloors.mpr ⟨hevent, a, ha, rfl, hguards, hactive, hfloor⟩)
  obtain ⟨r, hr, rfl⟩ := List.mem_map.mp hmem
  refine ⟨List.ne_nil_of_mem hr, summarizeFloorEvents_ne (List.mem_map_of_mem hr) ?_⟩
  obtain ⟨-, hcounts⟩ := counts_of_mem_alertRows hr
  obtain ⟨⟨kind, place⟩, he, hplace⟩ := hevent
  obtain rfl : place = some r.1 := hplace
  have hpos := List.count_pos_iff.mpr he
  dsimp only
  rw [hcounts, Bool.or_eq_true, bne_iff_ne, bne_iff_ne]
  cases kind with
  | absent => exact .inl (Nat.pos_iff_ne_zero.mp hpos)
  | conflict => exact .inr (Nat.pos_iff_ne_zero.mp hpos)

/-! ### The run -/

/-- The alerts of a run. -/
def Db.floorAlerts (db : Db) (events : List FloorEvent) (now : ℤ) : List Notification :=
  (db.alertedGuards (tallyEvents events) now).map fun u =>
    ⟨u, .guardFloorAlert (db.alertText (tallyEvents events) now u).1
      (db.alertText (tallyEvents events) now u).2 "/guard/monitor"⟩

theorem run_notifyFloorGuards (db : Db) (events : List FloorEvent) (now : ℤ) :
    (notifyFloorGuards events now).run db =
      (.ok (db.floorAlerts events now).length, db.withNotes (db.floorAlerts events now)) := by
  rw [notifyFloorGuards]
  split
  · rename_i hempty
    have hnone : db.alertedGuards (tallyEvents events) now = [] := by
      refine List.eq_nil_iff_forall_not_mem.mpr fun u hu => ?_
      obtain ⟨-, -, -, -, -, floor, -, hevent⟩ := mem_alertedGuards.mp hu
      have hsome := (isSome_lookup_tallyEvents events floor).mpr hevent
      rw [List.isEmpty_iff.mp hempty] at hsome
      cases hsome
    rw [Db.floorAlerts, hnone, List.map_nil, Db.withNotes_nil]
    rfl
  · have hall : ((db.alertedGuards (tallyEvents events) now).map fun u =>
        (u, db.alertText (tallyEvents events) now u)).filter (fun alert => alert.2.1 != "") =
        (db.alertedGuards (tallyEvents events) now).map fun u =>
          (u, db.alertText (tallyEvents events) now u) := by
      refine List.filter_eq_self.mpr fun alert halert => ?_
      obtain ⟨u, hu, rfl⟩ := List.mem_map.mp halert
      exact bne_iff_ne.mpr (alertText_ne hu).2
    rw [Prog.run_select_bind, hall, Prog.run_bind_of_ok (run_forEach_notifyUsers _ _ _ db),
      List.map_map, Db.floorAlerts, List.length_map, List.length_map]
    rfl

theorem map_user_floorAlerts (db : Db) (events : List FloorEvent) (now : ℤ) :
    (db.floorAlerts events now).map Notification.user =
      db.alertedGuards (tallyEvents events) now := by
  rw [Db.floorAlerts, List.map_map]
  exact List.map_id _

/-- The alerts go to the guards who are shown a floor of the events exactly if every active guard
with such a floor has one for the active term. -/
theorem alertsExact_iff (db : Db) (events : List FloorEvent) (now : ℤ) :
    db.AlertsExact events now ↔ db.PostedForTerm events now := by
  have hshown : ∀ user, (∃ floor ∈ db.guardFloorIds user now, HasEvent events floor) ↔
      ∃ term, db.activeTerm = some term ∧ ∃ b ∈ db.assignments, b.user = user ∧
        b.term = some term.id ∧ b.guardsNow now = true ∧
          ∃ floor ∈ b.floors, HasEvent events floor := by
    intro user
    simp only [mem_guardFloorIds]
    constructor
    · rintro ⟨floor, ⟨term, hterm, b, hb, huser, hbterm, hguards, hfloor⟩, hevent⟩
      exact ⟨term, hterm, b, hb, huser, hbterm, hguards, floor, hfloor, hevent⟩
    · rintro ⟨term, hterm, b, hb, huser, hbterm, hguards, floor, hfloor, hevent⟩
      exact ⟨floor, ⟨term, hterm, b, hb, huser, hbterm, hguards, hfloor⟩, hevent⟩
  constructor
  · rintro ⟨notes, hrun, -, hreach, -⟩ a ha hguards hactive hfloors
    -- the alerts are those of the run, and one of them is for this guard
    have hnotes : notes = db.floorAlerts events now :=
      List.append_cancel_left (congrArg Db.notifications
        (congrArg Prod.snd (hrun.symm.trans (run_notifyFloorGuards db events now))))
    refine (hshown a.user).mp ((hreach a.user).mp ?_).2
    rw [hnotes, map_user_floorAlerts]
    exact mem_alertedGuards.mpr ⟨a, ha, rfl, hguards, hactive, hfloors⟩
  · intro hposted
    refine ⟨db.floorAlerts events now, run_notifyFloorGuards db events now, ?_, fun user => ?_,
      fun note hnote => ?_⟩
    · rw [map_user_floorAlerts]
      exact Py.nodup_eraseDups _
    · rw [map_user_floorAlerts, mem_alertedGuards, hshown]
      constructor
      · rintro ⟨a, ha, rfl, hguards, hactive, hfloors⟩
        exact ⟨hactive, hposted a ha hguards hactive hfloors⟩
      · rintro ⟨hactive, term, -, b, hb, huser, -, hguards, hfloors⟩
        exact ⟨b, hb, huser, hguards, hactive, hfloors⟩
    · obtain ⟨u, hu, rfl⟩ := List.mem_map.mp hnote
      exact ⟨db.alertRows (tallyEvents events) now u, (alertText_ne hu).1,
        map_fst_alertRows.nodup_iff.mpr (Py.nodup_eraseDups _),
        fun r hr => counts_of_mem_alertRows hr, rfl⟩

end

namespace Campus

/-- A guard with a standing posting on the first floor, from a term that is archived by now. -/
def formerGuard : Db :=
  { timetable with
    users := ⟨[⟨5, "Gus", "Guard", .guard, none, true, false, "gus", ""⟩], by decide⟩
    terms := ⟨⟨[term, ⟨2, "Midyear", 0, 100, .archived⟩], by decide⟩, by decide, by decide,
      by decide⟩
    assignments := ⟨[⟨1, 5, .guard, [1], .floor, none, none, none, some 2, true⟩], by decide⟩ }

end Campus

/-- The guard posted for the archived term is told about the floor, though shown none. -/
theorem alerts_reach_former_guards :
    ¬ ∀ (db : Db) (events : List FloorEvent) (now : ℤ), db.AlertsExact events now := by
  intro h
  obtain ⟨notes, hrun, -, hreach, -⟩ := h Campus.formerGuard [(.absent, some 1)] 0
  have htold : notes.map Notification.user = [5] := by
    have hnotes : notes = Campus.formerGuard.floorAlerts [(.absent, some 1)] 0 :=
      List.append_cancel_left (congrArg Db.notifications
        (congrArg Prod.snd (hrun.symm.trans (run_notifyFloorGuards _ _ _))))
    rw [hnotes, map_user_floorAlerts]
    decide
  obtain ⟨-, floor, hfloor, -⟩ := (hreach 5).mp (htold ▸ List.mem_singleton_self 5)
  cases hfloor

end FluxTrack
