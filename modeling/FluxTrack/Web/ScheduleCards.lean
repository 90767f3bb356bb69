import FluxTrack.Data.Clusters
import FluxTrack.Scheduling.Merge

/-!
# The cards of a schedule

`_group_merged` and `_faculty_cards` of `web/faculty.py`: sections that one teacher holds at one
instant are shown as one card.

## Main definitions

* `ScheduleCard` — a card
* `Db.groupMerged` — the cards of a list of sessions
* `Db.facultyCards` — the cards of today and of the week

## Main results

* `sessions_groupMerged` — the sessions of the cards are greedy clusters of the merge relation
-/

namespace FluxTrack

open Calendar Relational

/-- A card: its representative with the sessions of its group and what is shown of them. -/
structure ScheduleCard where
  rep : Session
  sessions : List Session
  merged : Bool
  count : ℕ
  rooms : List String
  roomsLabel : String
  students : ℕ
  modality : Modality
  deriving DecidableEq

namespace Db

/-- The card of a group. -/
def scheduleCard (db : Db) (anchor : Session) (group : List Session) : ScheduleCard :=
  let rooms := (group.map fun s => (db.room s.room).code).eraseDups
  { rep := anchor
    sessions := group
    merged := decide (1 < group.length)
    count := group.length
    rooms := rooms
    roomsLabel := Py.join ", " rooms
    students := (group.map fun s => (db.scheduleOf s).enrolledCount).sum
    modality := db.effectiveModality anchor }

/-- The merged siblings of the anchor among the sessions. -/
def siblingOf (db : Db) (sessions : List Session) (anchor s : Session) : Bool :=
  (mergedSiblingIds (db.mergeView anchor) (sessions.map db.mergeView)).contains s.id

/-- The loop of `_group_merged` over the anchors that are left; `used` has the sessions that are
on a card. -/
def collectCards (db : Db) (sessions : List Session) : List ℕ → List Session → List ScheduleCard
  | _, [] => []
  | used, anchor :: rest =>
    if used.contains anchor.id then db.collectCards sessions used rest
    else
      let group := anchor :: sessions.filter (db.siblingOf sessions anchor)
      -- an anchor must not be on a card yet, its siblings may be
      db.scheduleCard anchor group ::
        db.collectCards sessions (used ++ group.map Session.id) rest

/-- `_group_merged`. -/
def groupMerged (db : Db) (sessions : List Session) : List ScheduleCard :=
  db.collectCards sessions [] sessions

/-- `_faculty_cards`: the cards of today, and those of the six days after it. -/
def facultyCards (db : Db) (user : ℕ) (now : ℤ) : List ScheduleCard × List ScheduleCard :=
  match db.activeTerm with
  | none => ([], [])
  | some term =>
    let today := localDate now
    let sessions := (db.sessions.rows.filter fun s =>
      s.faculty == user && (decide (today ≤ s.date) && decide (s.date < today + 7)) &&
        db.inTerm term.id s).insertionSort fun a b =>
      a.date < b.date ∨ a.date = b.date ∧ a.scheduledStart ≤ b.scheduledStart
    (db.groupMerged (sessions.filter fun s => s.date == today),
      db.groupMerged (sessions.filter fun s => s.date != today))

end Db

section

variable {db : Db} {sessions : List Session}

theorem sessions_collectCards (used : List ℕ) (rest : List Session) :
    (db.collectCards sessions used rest).map ScheduleCard.sessions =
      Clusters.gather Session.id (db.siblingOf sessions) sessions used rest := by
  induction rest generalizing used with
  | nil => rfl
  | cons anchor rest ih =>
    rw [Db.collectCards, Clusters.gather]
    split
    · exact ih used
    · rw [List.map_cons, ih]
      rfl

/-- The sessions of the cards are the greedy clusters of the merge relation. -/
theorem sessions_groupMerged (hids : (sessions.map Session.id).Nodup) :
    (db.groupMerged sessions).map ScheduleCard.sessions =
      (Clusters.heads (db.siblingOf sessions) [] sessions).map
        (Clusters.cluster (db.siblingOf sessions) sessions) := by
  rw [Db.groupMerged, sessions_collectCards, Clusters.gather_eq hids]

/-- A card adds up the students of its sessions. -/
theorem students_groupMerged (sessions : List Session) :
    ∀ card ∈ db.groupMerged sessions,
      card.students = (card.sessions.map fun s => (db.scheduleOf s).enrolledCount).sum := by
  suffices h : ∀ used rest, ∀ card ∈ db.collectCards sessions used rest,
      card.students = (card.sessions.map fun s => (db.scheduleOf s).enrolledCount).sum from
    h [] sessions
  intro used rest
  induction rest generalizing used with
  | nil => exact fun _ hcard => absurd hcard List.not_mem_nil
  | cons anchor rest ih =>
    intro card hcard
    rw [Db.collectCards] at hcard
    split at hcard
    · exact ih used card hcard
    · rcases List.mem_cons.mp hcard with rfl | hcard
      · rfl
      · exact ih _ card hcard

end

end FluxTrack
