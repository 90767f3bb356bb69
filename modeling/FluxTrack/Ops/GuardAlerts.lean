import FluxTrack.Web.Guard

/-!
# Floor alerts

`ops/guard_alerts.py`: a sweep collects what happened on which floor, and one alert for each
guard on duty tells about the floors of the guard.

## Main definitions

* `tallyEvents` — the events by floor
* `summarizeFloorEvents` — the text of an alert
* `notifyFloorGuards` — the alerts of a run

## Main results

* `getD_lookup_tallyEvents` — the counts of a floor
-/

namespace FluxTrack

open Calendar Relational Process

/-- The kinds of events a sweep collects. -/
inductive FloorEventKind
  | absent | conflict
  deriving DecidableEq, Repr

/-- An event with its floor. -/
abbrev FloorEvent := FloorEventKind × Option ℕ

/-- The counts of a floor. -/
structure FloorCounts where
  absent : ℕ
  conflict : ℕ
  deriving DecidableEq

/-- One more event of the kind. -/
def FloorCounts.bump (kind : FloorEventKind) (c : FloorCounts) : FloorCounts :=
  match kind with
  | .absent => { c with absent := c.absent + 1 }
  | .conflict => { c with conflict := c.conflict + 1 }

/-- One round of the loop over the events. -/
def tallyEvent (tally : List (ℕ × FloorCounts)) (e : FloorEvent) : List (ℕ × FloorCounts) :=
  match e.2 with
  | none => tally
  | some floor =>
    let tally := if (tally.lookup floor).isSome then tally else tally ++ [(floor, ⟨0, 0⟩)]
    tally.map fun r => (r.1, if r.1 == floor then r.2.bump e.1 else r.2)

/-- The events by floor. -/
def tallyEvents (events : List FloorEvent) : List (ℕ × FloorCounts) := events.foldl tallyEvent []

/-- `_plural`. -/
def plural (n : ℕ) (word : String) : String :=
  if n = 1 then s!"{n} {word}" else s!"{n} {word}s"

/-- `summarize_floor_events`: the title and the body for the floors with their counts. -/
def summarizeFloorEvents (rows : List (String × FloorCounts)) : String × String :=
  let rows := rows.filter fun r => r.2.absent != 0 || r.2.conflict != 0
  if rows.isEmpty then ("", "")
  else
    let absent := (rows.map fun r => r.2.absent).sum
    let conflict := (rows.map fun r => r.2.conflict).sum
    let parts :=
      (if absent = 0 then [] else [plural absent "room" ++ " now free"]) ++
        if conflict = 0 then [] else [plural conflict "room conflict" ++ " detected"]
    let place := match rows with
      | [r] => r.1
      | _ => plural rows.length "floor"
    let lines := rows.map fun r =>
      let detail :=
        (if r.2.absent = 0 then [] else [plural r.2.absent "room" ++ " now free"]) ++
          if r.2.conflict = 0 then [] else [plural r.2.conflict "room conflict"]
      r.1 ++ ": " ++ Py.join ", " detail ++ "."
    (Py.join " and " parts ++ " on " ++ place, Py.join "\n" lines)

namespace Db

/-- `Floor.__str__`. -/
def floorLabel (db : Db) (pk : ℕ) : String :=
  let floor := (db.floors.get? pk).getD default
  ((db.buildings.get? floor.building).map Building.code).getD "" ++ s!" F{floor.number}"

/-- The postings of active guards that cover the instant; those of every term. -/
def onDutyGuards (db : Db) (now : ℤ) : List Assignment :=
  db.assignments.rows.filter fun a =>
    a.guardsNow now && (db.users.get? a.user).any User.isActive

/-- The guards with a floor of the tally. -/
def alertedGuards (db : Db) (tally : List (ℕ × FloorCounts)) (now : ℤ) : List ℕ :=
  (((db.onDutyGuards now).filter fun a =>
    a.floors.any fun f => (tally.lookup f).isSome).map Assignment.user).eraseDups

/-- The floors of the tally that the guard is on. -/
def alertedFloors (db : Db) (tally : List (ℕ × FloorCounts)) (now : ℤ) (user : ℕ) : List ℕ :=
  ((((db.onDutyGuards now).filter fun a => a.user == user).flatMap Assignment.floors).filter
    fun f => (tally.lookup f).isSome).eraseDups

/-- The rows of a guard's alert, by the labels of the floors. -/
def alertRows (db : Db) (tally : List (ℕ × FloorCounts)) (now : ℤ) (user : ℕ) :
    List (ℕ × FloorCounts) :=
  ((db.alertedFloors tally now user).insertionSort fun f g =>
    db.floorLabel f ≤ db.floorLabel g).map fun f => (f, (tally.lookup f).getD ⟨0, 0⟩)

/-- The title and the body of a guard's alert. -/
def alertText (db : Db) (tally : List (ℕ × FloorCounts)) (now : ℤ) (user : ℕ) : String × String :=
  summarizeFloorEvents ((db.alertRows tally now user).map fun r => (db.floorLabel r.1, r.2))

end Db

/-- `notify_floor_guards`: answers with the number of guards told. -/
def notifyFloorGuards (events : List FloorEvent) (now : ℤ) : M ℕ := do
  let tally := tallyEvents events
  if tally.isEmpty then pure 0
  else do
    let alerts ← Prog.select fun db =>
      ((db.alertedGuards tally now).map fun u => (u, db.alertText tally now u)).filter
        fun alert => alert.2.1 != ""
    Prog.forEach alerts fun alert =>
      notifyUsers [alert.1] (.guardFloorAlert alert.2.1 alert.2.2 "/guard/monitor")
    pure alerts.length

/-! ### The tally -/

section

variable {tally : List (ℕ × FloorCounts)} {events : List FloorEvent} {floor : ℕ}

theorem lookup_map_counts (f : ℕ → FloorCounts → FloorCounts) :
    (tally.map fun r => (r.1, f r.1 r.2)).lookup floor = (tally.lookup floor).map (f floor) := by
  induction tally with
  | nil => rfl
  | cons r tally ih =>
    rw [List.map_cons, List.lookup_cons, List.lookup_cons]
    cases hkey : floor == r.1 with
    | false => exact ih
    | true =>
      rw [beq_iff_eq.mp hkey]
      rfl

theorem lookup_tallyEvent (e : FloorEvent) :
    (tallyEvent tally e).lookup floor =
      if e.2 = some floor then some (((tally.lookup floor).getD ⟨0, 0⟩).bump e.1)
      else tally.lookup floor := by
  obtain ⟨kind, _ | f⟩ := e
  · rfl
  rw [tallyEvent, lookup_map_counts fun key c => if key == f then c.bump kind else c]
  by_cases hfloor : f = floor
  · subst hfloor
    cases hlookup : tally.lookup f with
    | some c => simp [hlookup]
    | none => simp [hlookup, List.lookup_append]
  · have hne : (floor == f) = false := beq_eq_false_iff_ne.mpr (Ne.symm hfloor)
    cases hlookup : tally.lookup f with
    | some c => simp [hne, hfloor]
    | none => simp [hne, hfloor, List.lookup_append, List.lookup_cons]

theorem tallyEvents_concat (events : List FloorEvent) (e : FloorEvent) :
    tallyEvents (events ++ [e]) = tallyEvent (tallyEvents events) e := by
  rw [tallyEvents, List.foldl_append]
  rfl

/-- A floor has the counts of its events. -/
theorem getD_lookup_tallyEvents (events : List FloorEvent) (floor : ℕ) :
    ((tallyEvents events).lookup floor).getD ⟨0, 0⟩ =
      ⟨events.count (.absent, some floor), events.count (.conflict, some floor)⟩ := by
  induction events using List.reverseRecOn with
  | nil => rfl
  | append_singleton events e ih =>
    rw [tallyEvents_concat, lookup_tallyEvent, List.count_append, List.count_append]
    obtain ⟨kind, place⟩ := e
    by_cases hfloor : place = some floor
    · subst hfloor
      rw [if_pos rfl, Option.getD_some, ih]
      cases kind <;> simp [FloorCounts.bump]
    · rw [if_neg hfloor, ih]
      simp [hfloor]

theorem isSome_lookup_tallyEvents (events : List FloorEvent) (floor : ℕ) :
    ((tallyEvents events).lookup floor).isSome = true ↔ ∃ e ∈ events, e.2 = some floor := by
  induction events using List.reverseRecOn with
  | nil => exact iff_of_false Bool.false_ne_true fun ⟨_, he, _⟩ => nomatch he
  | append_singleton events e ih =>
    rw [tallyEvents_concat, lookup_tallyEvent]
    by_cases hfloor : e.2 = some floor
    · rw [if_pos hfloor]
      exact iff_of_true rfl ⟨e, List.mem_append_right _ (List.mem_singleton_self e), hfloor⟩
    · rw [if_neg hfloor, ih]
      constructor
      · rintro ⟨e', he', hplace⟩
        exact ⟨e', List.mem_append_left _ he', hplace⟩
      · rintro ⟨e', he', hplace⟩
        rcases List.mem_append.mp he' with he' | he'
        · exact ⟨e', he', hplace⟩
        · exact absurd (List.mem_singleton.mp he' ▸ hplace) hfloor

end

end FluxTrack
