import FluxTrack.Theorems.SessionChanges
import FluxTrack.Theorems.StatusMachine

/-!
# Check-ins within grace

A request of a faculty member activates a session within grace of its start as long as the
decision and its effect are on the same side of the limit. The test is made once, when the
decision is taken: what the clock reads when the effect is written is not looked at again,
and for a confirmed handover that can be minutes later.

## Main definitions

* `World.ActivatesInGrace` — what a request of a faculty member should respect
* `Request.OnTime` — the effect of a decision comes within grace

## Main results

* `checkin_within_grace` — a run of requests on time activates sessions within grace only
* `handover_past_grace` — a handover is confirmed when grace is over
-/

namespace FluxTrack

open Calendar Relational Process

/-- The request is one of a faculty member's. -/
def Request.byFaculty : Request → Bool
  | resolve .. | confirm .. | onlineStart .. => true
  | _ => false

/-- A session is past grace at an instant. -/
def Db.pastGrace (db : Db) (s : Session) (t : ℤ) : Bool :=
  isNoShowPastGrace s.scheduledStart t db.policy.graceMinutes

/-- What a faculty member's request activates, it activates within grace. -/
def World.ActivatesInGrace (w : World) (r : Request) : Prop :=
  r.byFaculty = true → ∀ a ∈ w.db.sessions, ∀ b ∈ (w.step r).db.sessions, b.id = a.id →
    a.status ≠ .active → b.status = .active →
      ∃ t, b.actualStart = some t ∧ t ≤ a.scheduledStart + w.db.policy.graceMinutes * minute

/-- The session that a request starts is not past grace yet when the effect is written: the one
a scan has just been decided to check in, the one a handover was signed for, and the one that
was in time for an online start. -/
def Request.OnTime (w : World) : Request → Prop
  | resolve user payload clock =>
    ∀ s ∈ w.db.sessions, w.db.ChecksIn user payload clock s → w.db.pastGrace s clock.last = false
  | confirm user token _ now last =>
    w.Accepts token user now → token.resolution.outcome = .roomOccupied →
      ∀ s ∈ w.db.sessions, token.resolution.session = some s.id → w.db.pastGrace s last = false
  | onlineStart user pk _ now started =>
    ∀ s ∈ w.db.sessions, s.id = pk → s.faculty = user → s.status = .scheduled →
      w.db.pastGrace s now = false → w.db.pastGrace s started = false
  | _ => True

section

variable {w : World} {r : Request} {t : ℤ} {a b : Session}

theorem Request.Starts.within (h : r.Starts w t a b) (ha : a ∈ w.db.sessions)
    (hfaculty : r.byFaculty = true) (htime : r.OnTime w) :
    t ≤ a.scheduledStart + w.db.policy.graceMinutes * minute := by
  have hlimit : w.db.pastGrace a t = false := by
    cases h with
    | checkedIn hdecided => exact htime a ha hdecided
    | handedOver haccept houtcome hsession => exact htime haccept houtcome a ha hsession
    | startedOnline hid hfac hstatus hgrace => exact htime a ha hid hfac hstatus hgrace
    | verified => cases hfaculty
  rw [Db.pastGrace, Bool.eq_false_iff, Ne, isNoShowPastGrace_iff] at hlimit
  omega

/-- A request on time activates sessions within grace only. -/
theorem activatesInGrace_of_onTime (hw : w.Genuine) (htime : r.OnTime w) : w.ActivatesInGrace r := by
  intro hfaculty a ha b hb hid hbefore hafter
  obtain ⟨c, hc, hcid, hchange⟩ := (changes_step hw r).of_mem hb
  obtain rfl : c = a := Table.eq_of_key_eq hc ha (hcid.symm.trans hid)
  rcases hchange with rfl | hchange
  · exact absurd hafter hbefore
  · cases hchange with
    | starts h => exact ⟨_, h.actualStart, h.within ha hfaculty htime⟩
    | filled hx h hsibling =>
      -- a sibling starts when the session it is filled with does
      refine ⟨_, rfl, ?_⟩
      rw [hsibling.start]
      exact h.within hx hfaculty htime
    | filledAlone => cases hfaculty
    | moved => exact absurd hafter hbefore
    | missed => cases hafter
    | flagged => cases hafter
    | checkedOut => cases hafter
    | gaveWay => cases hafter
    | endedEarly => cases hafter
    | calledOff => cases hafter
    | lifted => cases hafter
    | reinstated => cases hafter

end

/-- In every run of requests on time, every session that a faculty member's request activates is
activated within grace of its start. -/
theorem checkin_within_grace (db : Db) (rs : List Request)
    (htime : (World.start db).Along (fun w r => r.OnTime w) rs) :
    (World.start db).Along World.ActivatesInGrace rs :=
  World.Along.imp World.genuine_step (fun _ _ hw htime => activatesInGrace_of_onTime hw htime)
    (World.genuine_start db) htime

open Campus in
/-- The class of eight o'clock is checked in on time. -/
theorem checkin_within_grace_eight :
    (World.start campus).Along World.ActivatesInGrace [scanAt 2 8 0 0] := by
  have htime : ∀ s ∈ campus.sessions.rows, campus.pastGrace s (wallClock monday 8 0 0) = false := by
    decide +kernel
  exact checkin_within_grace campus [scanAt 2 8 0 0] ⟨fun s hs _ => htime s hs, trivial⟩

open Campus in
/-- The handover to the nine o'clock class is signed at 9:14 and confirmed at 9:16, a minute past
grace. -/
theorem handover_past_grace :
    ¬ ∀ (db : Db) (rs : List Request), Clocked rs →
      (World.start db).Along World.ActivatesInGrace rs := by
  intro h
  have hrun := h campus [scanAt 2 8 0 0, scanAt 1 9 14 0, confirmation] (by decide +kernel)
  have hlate : ∃ a ∈ ((World.start campus).run [scanAt 2 8 0 0, scanAt 1 9 14 0]).db.sessions.rows,
      ∃ b ∈ ((World.start campus).run [scanAt 2 8 0 0, scanAt 1 9 14 0,
          confirmation]).db.sessions.rows,
        b.id = a.id ∧ a.status ≠ .active ∧ b.status = .active ∧
          b.actualStart = some (wallClock monday 9 16 0) ∧
          a.scheduledStart + campus.policy.graceMinutes * minute < wallClock monday 9 16 0 := by
    decide +kernel
  obtain ⟨a, ha, b, hb, hid, hbefore, hafter, hstart, hlimit⟩ := hlate
  obtain ⟨t, ht, hle⟩ := hrun.2.2.1 rfl a ha b hb hid hbefore hafter
  rw [hstart, Option.some.injEq] at ht
  subst ht
  exact absurd hle (not_le.mpr hlimit)

end FluxTrack
