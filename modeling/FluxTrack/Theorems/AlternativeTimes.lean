import FluxTrack.Theorems.SlotLengths

/-!
# The search for alternative times

The search steps through the day by the length of the session, so that it ends exactly where
that length is positive; then everything it offers is as promised. A time move to an empty slot
is stored like any other, and the picker never comes back from it.

## Main definitions

* `Db.SearchSound` — the search ends, and what it offers is as promised

## Main results

* `searchSound_iff` — it does so iff the session has a positive length
* `modalityRooms_of_forward` — after a run of forward calls the picker is always shown
-/

namespace FluxTrack

open Calendar Relational Process

/-- The search for alternative times ends; every slot that it answers with keeps its promises,
and no two of them overlap. -/
structure Db.SearchSound (db : Db) (s : Session) : Prop where
  ends : ∃ fuel slots, db.availableTimesFor fuel s = some slots
  sound : ∀ fuel slots, db.availableTimesFor fuel s = some slots →
    ∀ slot ∈ slots, db.SoundSlot s slot
  apart : ∀ fuel slots, db.availableTimesFor fuel s = some slots →
    slots.Pairwise fun a b => overlaps a.1 a.2 b.1 b.2 = false

/-- The search ends and is sound iff the session has a positive length. -/
theorem searchSound_iff (db : Db) (s : Session) :
    db.SearchSound s ↔ s.scheduledStart < s.scheduledEnd := by
  constructor
  · intro h
    exact availableTimesFor_ends_iff.mp h.ends
  · intro hpos
    refine ⟨availableTimesFor_ends_iff.mpr hpos, fun fuel slots hslots slot hslot => ?_,
      fun fuel slots hslots => apart_of_availableTimesFor hpos hslots⟩
    exact soundSlot_of_availableTimesFor hpos hslots hslot

open Campus in
/-- A class that was moved to the slot from one to one is searched for ever. -/
theorem search_never_ends :
    ¬ ∀ (calls : List SlotCall), ∀ s ∈ (calls.foldl SlotCall.step staffedTimetable).sessions,
      (calls.foldl SlotCall.step staffedTimetable).SearchSound s := by
  intro h
  have hempty : (((askedAndMoved 13 13).foldl SlotCall.step staffedTimetable).sessions.get? 1).map
      (fun s => decide (s.scheduledEnd ≤ s.scheduledStart)) = some true := by
    decide +kernel
  obtain ⟨s, hs, hle⟩ := Option.map_eq_some_iff.mp hempty
  obtain ⟨hmem, -⟩ := Table.get?_eq_some_iff.mp hs
  obtain ⟨fuel, slots, hslots⟩ := (h (askedAndMoved 13 13) s hmem).ends
  rw [availableTimesFor_eq_none (of_decide_eq_true hle)] at hslots
  cases hslots

/-! ### The picker -/

section

variable {db : Db}

theorem mem_of_nextSession {schedule : ℕ} {today : ℤ} {s : Session}
    (h : db.nextSession schedule today = some s) : s ∈ db.sessions := by
  have hmem := (List.mem_insertionSort _).mp (List.mem_of_head? h)
  exact (List.mem_filter.mp hmem).1

/-- Where everything runs forward the picker is shown, whatever it is asked for. -/
theorem Db.WellTimed.modalityRooms (h : db.WellTimed) (user : ℕ) (ids : List ℕ) (today : ℤ) :
    ∃ fuel rows, db.modalityRooms fuel user ids today = some rows :=
  modalityRooms_ends_iff.mpr fun _ _ s hnext => (h.sessions s (mem_of_nextSession hnext)).forward

/-- After a run of forward calls the picker is shown. -/
theorem modalityRooms_of_forward (h : db.WellTimed) {calls : List SlotCall}
    (hcalls : ∀ c ∈ calls, c.Forward) (user : ℕ) (ids : List ℕ) (today : ℤ) :
    ∃ fuel rows, (calls.foldl SlotCall.step db).modalityRooms fuel user ids today = some rows :=
  (wellTimed_foldl h hcalls).modalityRooms user ids today

end

end FluxTrack
