import FluxTrack.Data.First
import FluxTrack.System
import FluxTrack.Web.RoomState

/-!
# The truth of a room tile

`room_tile` reads one session: the first one of the room's list whose slot contains `now`.
The tile says what the slot is like exactly when that session speaks for the others: nothing
that runs is behind it, and no cancelled class is ahead that tells another story.

## Main definitions

* `Db.InSlot` — the session uses the room now
* `Db.BoardTruth` — what the tile of a list has to say

## Main results

* `boardTruth_iff` — when it does
-/

namespace FluxTrack

open Calendar Relational Process Search

/-- The session occupies the room, and its slot `[scheduled_start, scheduled_end)` contains
`now`. -/
structure Db.InSlot (db : Db) (room : Room) (now : ℤ) (s : Session) : Prop where
  occupies : db.occupies s room = true
  started : s.scheduledStart ≤ now
  notEnded : now < s.scheduledEnd

/-- The states a cancelled class may not change. -/
def RoomState.Telling (x : RoomState) : Prop := x = .absent ∨ x = .starting ∨ x = .inSession

/-- The tile of a list tells the truth: in session iff a session of the slot is running; absent
only for a session of the slot that is absent or past grace, and not while one is running; and
leaving out cancelled sessions of the list makes no difference to these states. -/
structure Db.BoardTruth (db : Db) (room : Room) (sessions : List Session) (now graceMin : ℤ) :
    Prop where
  inSession : (db.roomTile room sessions now (graceMin * minute)).state = .inSession ↔
    ∃ s ∈ sessions, db.InSlot room now s ∧ s.status = .active
  absent : (db.roomTile room sessions now (graceMin * minute)).state = .absent →
    (∃ s ∈ sessions, db.InSlot room now s ∧ (s.status = .absent ∨
      (s.status = .scheduled ∧ isNoShowPastGrace s.scheduledStart now graceMin = true))) ∧
    ∀ s ∈ sessions, db.InSlot room now s → s.status ≠ .active
  cancelled : ∀ keep : Session → Bool,
    (∀ s ∈ sessions, s.status ≠ .cancelled → keep s = true) → ∀ x : RoomState, x.Telling →
      ((db.roomTile room (sessions.filter keep) now (graceMin * minute)).state = x ↔
        (db.roomTile room sessions now (graceMin * minute)).state = x)

/-- The session `t` speaks for a cancelled one of its slot that is listed ahead of it: the board
says the same of both. -/
def SpeaksFor (now graceMin : ℤ) (t c : Session) : Prop :=
  (t.status = .scheduled ∧ (isNoShowPastGrace c.scheduledStart now graceMin =
    isNoShowPastGrace t.scheduledStart now graceMin)) ∨
  (t.status = .absent ∧ isNoShowPastGrace c.scheduledStart now graceMin = true)

section

variable {db : Db} {room : Room} {sessions : List Session} {now grace graceMin : ℤ}
  {s t c : Session}

/-! ### The current session decides -/

theorem state_of_first (h : First (db.InSlot room now) sessions s) :
    (db.roomTile room sessions now grace).state = tileState s now grace := by
  have hfind : ((sessions.filter fun s => db.occupies s room).find? fun s =>
      decide (s.scheduledStart ≤ now) && decide (now < s.scheduledEnd)) = some s := by
    rw [find?_eq_some_iff_first, first_filter_iff]
    refine (first_congr fun a _ => ?_).mpr h
    rw [Bool.and_eq_true, decide_eq_true_eq, decide_eq_true_eq]
    exact ⟨fun h => ⟨h.1, h.2.1, h.2.2⟩, fun h => ⟨h.occupies, h.started, h.notEnded⟩⟩
  rw [Db.roomTile, hfind]

theorem state_of_empty (h : ∀ s ∈ sessions, ¬ db.InSlot room now s) :
    ¬ (db.roomTile room sessions now grace).state.Telling := by
  have hfind : ((sessions.filter fun s => db.occupies s room).find? fun s =>
      decide (s.scheduledStart ≤ now) && decide (now < s.scheduledEnd)) = none := by
    rw [List.find?_eq_none]
    intro a ha
    obtain ⟨ha, ho⟩ := List.mem_filter.mp ha
    rw [Bool.and_eq_true, decide_eq_true_eq, decide_eq_true_eq]
    rintro ⟨hs, he⟩
    exact h a ha ⟨ho, hs, he⟩
  rw [Db.roomTile, hfind]
  dsimp only
  split <;> simp [RoomState.Telling]

theorem tileState_eq_inSession_iff : tileState s now grace = .inSession ↔ s.status = .active := by
  unfold tileState
  cases s.status <;> simp <;> split <;> simp

theorem tileState_of_cancelled (h : s.status = .cancelled) :
    tileState s now (graceMin * minute) =
      if isNoShowPastGrace s.scheduledStart now graceMin then .absent else .starting := by
  simp [tileState, h, isNoShowPastGrace]

theorem tileState_of_scheduled (h : s.status = .scheduled) :
    tileState s now (graceMin * minute) =
      if isNoShowPastGrace s.scheduledStart now graceMin then .absent else .starting := by
  simp [tileState, h, isNoShowPastGrace]

/-- A tile that says absent has an absent session, one past grace or a cancelled one. -/
theorem absent_or_late_of_tileState (h : tileState s now (graceMin * minute) = .absent)
    (hlive : s.status ≠ .cancelled) :
    s.status = .absent ∨
      (s.status = .scheduled ∧ isNoShowPastGrace s.scheduledStart now graceMin = true) := by
  cases hstatus : s.status with
  | absent => exact .inl rfl
  | scheduled =>
    rw [tileState_of_scheduled hstatus] at h
    split at h
    · exact .inr ⟨rfl, ‹_›⟩
    · cases h
  | cancelled => exact absurd hstatus hlive
  | active => simp [tileState, hstatus] at h
  | completed => simp [tileState, hstatus] at h

/-- A cancelled class of the slot is taken for one that nobody has come to yet. -/
theorem telling_of_cancelled (h : s.status = .cancelled) :
    (tileState s now (graceMin * minute)).Telling := by
  rw [tileState_of_cancelled h]
  split <;> simp [RoomState.Telling]

theorem speaksFor_iff (hc : c.status = .cancelled) (ht : t.status ≠ .cancelled) :
    SpeaksFor now graceMin t c ↔
      tileState c now (graceMin * minute) = tileState t now (graceMin * minute) := by
  rw [tileState_of_cancelled hc]
  cases hstatus : t.status with
  | scheduled =>
    rw [tileState_of_scheduled hstatus]
    simp only [SpeaksFor, hstatus]
    cases isNoShowPastGrace c.scheduledStart now graceMin <;>
      cases isNoShowPastGrace t.scheduledStart now graceMin <;> simp
  | absent => simp [SpeaksFor, tileState, hstatus]
  | active => simp [SpeaksFor, tileState, hstatus]; split <;> simp
  | completed => simp [SpeaksFor, tileState, hstatus]; split <;> simp
  | cancelled => exact absurd hstatus ht

/-! ### Leaving out cancelled sessions -/

/-- A session that speaks for the cancelled ones ahead of it gives the tile its state, whichever
of them are left out. -/
theorem state_filter_of_speaksFor {ahead behind : List Session} {keep : Session → Bool}
    (hkeep : ∀ s ∈ ahead ++ t :: behind, s.status ≠ .cancelled → keep s = true)
    (ht : db.InSlot room now t) (hlive : t.status ≠ .cancelled)
    (hahead : ∀ c ∈ ahead, db.InSlot room now c →
      c.status = .cancelled ∧ SpeaksFor now graceMin t c) :
    (db.roomTile room ((ahead ++ t :: behind).filter keep) now (graceMin * minute)).state =
      tileState t now (graceMin * minute) := by
  have hmem : t ∈ ahead ++ t :: behind := List.mem_append_right ahead List.mem_cons_self
  have htkeep : keep t = true := hkeep t hmem hlive
  obtain ⟨c, hc⟩ := (exists_first_iff (p := db.InSlot room now)).mpr
    ⟨t, List.mem_filter.mpr ⟨hmem, htkeep⟩, ht⟩
  rw [state_of_first hc]
  rcases (first_filter_iff.mp hc).eq_or_mem_ahead ⟨htkeep, ht⟩ with rfl | hin
  · rfl
  · obtain ⟨hcancelled, hspeaks⟩ := hahead c hin hc.prop
    exact (speaksFor_iff hcancelled hlive).mp hspeaks

/-- The tile of a list without the cancelled sessions but one. -/
theorem state_filter_of_cancelled {ahead behind : List Session} (hc : c ∈ ahead)
    (hslot : db.InSlot room now c)
    (hahead : ∀ s ∈ ahead, db.InSlot room now s → s.status = .cancelled) :
    (db.roomTile room ((ahead ++ behind).filter fun s => s.status != .cancelled || s == c) now
      grace).state = tileState c now grace := by
  have hkeep : c ∈ (ahead ++ behind).filter fun s => s.status != .cancelled || s == c :=
    List.mem_filter.mpr ⟨List.mem_append_left behind hc, by simp⟩
  obtain ⟨x, hx⟩ := (exists_first_iff (p := db.InSlot room now)).mpr ⟨c, hkeep, hslot⟩
  rw [state_of_first hx]
  obtain ⟨before, after, rfl⟩ := List.append_of_mem hc
  have hfirst := first_filter_iff.mp hx
  rw [List.append_assoc, List.cons_append] at hfirst
  rcases hfirst.eq_or_mem_ahead ⟨by simp, hslot⟩ with rfl | hin
  · rfl
  · -- what is ahead of `c` is cancelled, so it was left out unless it is `c`
    have hcancelled := hahead x (List.mem_append_left _ hin) hx.prop
    have hkept := hfirst.prop.1
    rw [hcancelled] at hkept
    rw [show x = c by simpa using hkept]

/-- The tile of a list without its cancelled sessions is that of the first other one. -/
theorem state_filter_live (h : First (fun s => db.InSlot room now s ∧ s.status ≠ .cancelled)
    sessions t) :
    (db.roomTile room (sessions.filter fun s => s.status != .cancelled) now grace).state =
      tileState t now grace := by
  refine state_of_first (first_filter_iff.mpr ((first_congr fun s _ => ?_).mp h))
  rw [bne_iff_ne]
  exact and_comm

/-! ### When the tile tells the truth -/

/-- The session of a truthful tile: the first one of the slot that is not cancelled. -/
theorem Db.BoardTruth.speaksFor {ahead behind : List Session}
    (h : db.BoardTruth room (ahead ++ t :: behind) now graceMin) (ht : db.InSlot room now t)
    (hlive : t.status ≠ .cancelled)
    (hahead : ∀ c ∈ ahead, db.InSlot room now c → c.status = .cancelled)
    (hc : c ∈ ahead) (hslot : db.InSlot room now c) : SpeaksFor now graceMin t c := by
  have hcancelled := hahead c hc hslot
  have htelling := @telling_of_cancelled now graceMin c hcancelled
  have hfirst : First (fun s => db.InSlot room now s ∧ s.status ≠ .cancelled)
      (ahead ++ t :: behind) t :=
    ⟨⟨ht, hlive⟩, ahead, behind, rfl, fun a ha hlive => hlive.2 (hahead a ha hlive.1)⟩
  -- the list with `c` as its only cancelled session, and the list without any
  have hone := h.cancelled (fun s => s.status != .cancelled || s == c)
    (fun s _ hs => by simp [hs]) _ htelling
  have hnone := h.cancelled (fun s => s.status != .cancelled) (fun s _ hs => by simp [hs]) _
    htelling
  rw [state_filter_of_cancelled hc hslot hahead] at hone
  rw [state_filter_live hfirst] at hnone
  exact (speaksFor_iff hcancelled hlive).mpr (hnone.mpr (hone.mp rfl)).symm

/-- A truthful tile with a session in its slot has one that is not cancelled. -/
theorem Db.BoardTruth.exists_live (h : db.BoardTruth room sessions now graceMin)
    (hs : s ∈ sessions) (hslot : db.InSlot room now s) :
    ∃ t ∈ sessions, db.InSlot room now t ∧ t.status ≠ .cancelled := by
  by_contra hnone
  have hall : ∀ t ∈ sessions, db.InSlot room now t → t.status = .cancelled :=
    fun t ht hin => not_not.mp fun hlive => hnone ⟨t, ht, hin, hlive⟩
  obtain ⟨c, hc⟩ := (exists_first_iff (p := db.InSlot room now)).mpr ⟨s, hs, hslot⟩
  have htelling := @telling_of_cancelled now graceMin c (hall c hc.mem hc.prop)
  have hiff := h.cancelled (fun s => s.status != .cancelled) (fun s _ hs => by simp [hs]) _ htelling
  have hempty : ∀ t ∈ sessions.filter fun s => s.status != .cancelled, ¬ db.InSlot room now t := by
    intro t ht hin
    obtain ⟨ht, hlive⟩ := List.mem_filter.mp ht
    exact bne_iff_ne.mp hlive (hall t ht hin)
  rw [state_of_first hc] at hiff
  exact state_of_empty hempty (hiff.mpr rfl ▸ htelling)

/-- The tile of a room tells the truth iff no session is in the slot, or the first session of
the slot that is not cancelled speaks for the cancelled ones ahead of it and is running if any
session of the slot is. -/
theorem boardTruth_iff (db : Db) (room : Room) (sessions : List Session) (now graceMin : ℤ) :
    db.BoardTruth room sessions now graceMin ↔
      (∀ s ∈ sessions, ¬ db.InSlot room now s) ∨
      ∃ ahead t behind, sessions = ahead ++ t :: behind ∧ db.InSlot room now t ∧
        t.status ≠ .cancelled ∧
        (∀ c ∈ ahead, db.InSlot room now c → c.status = .cancelled ∧ SpeaksFor now graceMin t c) ∧
        (t.status = .active ∨ ∀ s ∈ sessions, db.InSlot room now s → s.status ≠ .active) := by
  constructor
  · intro h
    by_cases hempty : ∀ s ∈ sessions, ¬ db.InSlot room now s
    · exact .inl hempty
    right
    simp only [not_forall, not_not, exists_prop] at hempty
    obtain ⟨s, hs, hslot⟩ := hempty
    obtain ⟨t, ⟨ht, hlive⟩, ahead, behind, rfl, hnot⟩ :=
      exists_first_iff.mpr (h.exists_live hs hslot)
    have hahead : ∀ c ∈ ahead, db.InSlot room now c → c.status = .cancelled :=
      fun c hc hin => not_not.mp fun hlive => hnot c hc ⟨hin, hlive⟩
    refine ⟨ahead, t, behind, rfl, ht, hlive, fun c hc hin =>
      ⟨hahead c hc hin, h.speaksFor ht hlive hahead hc hin⟩, ?_⟩
    by_cases hactive : t.status = .active
    · exact .inl hactive
    · refine .inr fun a ha hin hrun => ?_
      -- the tile would have to say in session, but its session is `t` or a cancelled one
      have hstate := h.inSession.mpr ⟨a, ha, hin, hrun⟩
      obtain ⟨c, hc⟩ := (exists_first_iff (p := db.InSlot room now)).mpr ⟨a, ha, hin⟩
      rw [state_of_first hc, tileState_eq_inSession_iff] at hstate
      rcases hc.eq_or_mem_ahead ht with rfl | hmem
      · exact hactive hstate
      · rw [hahead c hmem hc.prop] at hstate
        cases hstate
  · rintro (hempty | ⟨ahead, t, behind, rfl, ht, hlive, hahead, hrun⟩)
    · have hsilent := @state_of_empty db room sessions now (graceMin * minute) hempty
      refine ⟨⟨fun h => absurd (.inr (.inr h)) hsilent, ?_⟩, fun h => absurd (.inl h) hsilent, ?_⟩
      · rintro ⟨s, hs, hslot, -⟩
        exact absurd hslot (hempty s hs)
      · intro keep _ x hx
        have hpart : ¬ (db.roomTile room (sessions.filter keep) now
            (graceMin * minute)).state.Telling :=
          state_of_empty fun s hs => hempty s (List.mem_of_mem_filter hs)
        exact ⟨fun h => absurd (h ▸ hx) hpart, fun h => absurd (h ▸ hx) hsilent⟩
    · have hmem : t ∈ ahead ++ t :: behind := List.mem_append_right ahead List.mem_cons_self
      have hfull : (db.roomTile room (ahead ++ t :: behind) now (graceMin * minute)).state =
          tileState t now (graceMin * minute) := by
        have hkeep := @state_filter_of_speaksFor db room now graceMin t ahead behind (fun _ => true)
          (fun _ _ _ => rfl) ht hlive hahead
        rwa [List.filter_true] at hkeep
      refine ⟨?inSession, ?absent, fun keep hkeep x _ => ?cancelled⟩
      case inSession =>
        rw [hfull, tileState_eq_inSession_iff]
        constructor
        · intro hactive
          exact ⟨t, hmem, ht, hactive⟩
        · rintro ⟨a, ha, hin, hactive⟩
          exact hrun.resolve_right fun hnone => hnone a ha hin hactive
      case absent =>
        rw [hfull]
        intro habsent
        have hnotActive : t.status ≠ .active := by
          intro hactive
          rw [tileState_eq_inSession_iff.mpr hactive] at habsent
          cases habsent
        exact ⟨⟨t, hmem, ht, absent_or_late_of_tileState habsent hlive⟩,
          hrun.resolve_left hnotActive⟩
      case cancelled =>
        rw [hfull, state_filter_of_speaksFor hkeep ht hlive hahead]

end

namespace Campus

/-- The Monday is called off. -/
def typhoonMonday : Db := ((suspendClasses 1 monday monday "Typhoon" none none).run campus).2

/-- The sessions of the one room on the one day, by start. -/
def boardList (db : Db) : List Session :=
  db.sessions.rows.insertionSort fun a b => a.scheduledStart ≤ b.scheduledStart

end Campus

open Campus in
/-- A suspended class is shown as a no-show once its grace is over. -/
theorem boardTruth_suspended :
    ¬ ∀ (db : Db) (room : Room) (sessions : List Session) (now graceMin : ℤ),
      sessions.Pairwise (fun a b => a.scheduledStart ≤ b.scheduledStart) →
        db.BoardTruth room sessions now graceMin := by
  intro h
  have htruth := h typhoonMonday (typhoonMonday.room 1) (boardList typhoonMonday)
    (wallClock monday 9 20 0) 15
    (by decide +kernel)
  have hstate : (typhoonMonday.roomTile (typhoonMonday.room 1) (boardList typhoonMonday)
      (wallClock monday 9 20 0) (15 * minute)).state = .absent := by decide +kernel
  have hcancelled : ∀ s ∈ boardList typhoonMonday, s.status = .cancelled := by decide +kernel
  obtain ⟨⟨s, hs, -, hstatus⟩, -⟩ := htruth.absent hstate
  rw [hcancelled s hs] at hstatus
  rcases hstatus with hstatus | ⟨hstatus, -⟩ <;> cases hstatus

end FluxTrack
