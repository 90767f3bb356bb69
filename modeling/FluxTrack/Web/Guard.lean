import FluxTrack.Web.Checker

/-!
# The floors of a guard

`_guard_floor_ids` of `web/guard.py`: the floors that a guard is posted to right now.

## Main definitions

* `Assignment.guardsNow` — a posting that puts a guard on its floors
* `Db.guardFloorIds` — the floors
-/

namespace FluxTrack

open Calendar Relational

/-- An active floor posting of a guard that covers the instant. -/
def Assignment.guardsNow (a : Assignment) (now : ℤ) : Bool :=
  a.role == .guard && a.scope == .floor && a.active &&
    a.coversNow (localDate now) (manila.localTime now)

/-- `_guard_floor_ids`. -/
def Db.guardFloorIds (db : Db) (user : ℕ) (now : ℤ) : List ℕ :=
  match db.activeTerm with
  | none => []
  | some term =>
    ((db.assignments.rows.filter fun a =>
      a.user == user && a.term == some term.id && a.guardsNow now).flatMap
        Assignment.floors).eraseDups

theorem mem_guardFloorIds {db : Db} {user floor : ℕ} {now : ℤ} :
    floor ∈ db.guardFloorIds user now ↔ ∃ term, db.activeTerm = some term ∧
      ∃ a ∈ db.assignments, a.user = user ∧ a.term = some term.id ∧ a.guardsNow now = true ∧
        floor ∈ a.floors := by
  rw [Db.guardFloorIds]
  cases db.activeTerm with
  | none => simp
  | some term =>
    simp only [List.mem_eraseDups, List.mem_flatMap, List.mem_filter, Bool.and_eq_true,
      beq_iff_eq, Option.some.injEq, exists_eq_left', Table.mem_rows]
    exact exists_congr fun a => by tauto

end FluxTrack
