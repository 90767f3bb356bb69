import FluxTrack.Data.Table
import FluxTrack.Data.Calendar

/-!
# The data model

The rows the scheduling, campus, verification and operations apps store, with
the fields their services read and write. Instants are microseconds from the
epoch, dates are local days from the epoch; a nullable column is an `Option`,
and so is a text column whose blank value means "not set" (`declaredModality`,
`checkinMethod`).

Audit rows and notifications are kept as typed values: one constructor for each
event type of the source, carrying the target and the payload of that event.
-/

namespace FluxTrack

open Calendar Relational

/-! ### Identity -/

/-- `accounts.models.Role`. -/
inductive Role
  | faculty | checker | ifoAdmin | hrAdmin | guard | dean | systemAdmin
  deriving DecidableEq, Repr

/-- `accounts.models.User`. -/
structure User where
  id : ℕ
  firstName : String
  lastName : String
  role : Role
  department : Option ℕ
  isActive : Bool
  isSuperuser : Bool
  username : String
  email : String
  deriving DecidableEq

instance : Keyed User := ⟨User.id⟩

/-! ### Campus -/

/-- `campus.models.Building`. -/
structure Building where
  id : ℕ
  code : String
  name : String
  deriving DecidableEq

instance : Keyed Building := ⟨Building.id⟩

/-- `campus.models.Floor`. -/
structure Floor where
  id : ℕ
  building : ℕ
  number : ℤ
  deriving DecidableEq, Inhabited

instance : Keyed Floor := ⟨Floor.id⟩

/-- `campus.models.Room`. -/
structure Room where
  id : ℕ
  floor : ℕ
  code : String
  qrToken : String
  manualCode : String
  outOfService : Bool
  outOfServiceReason : String
  deriving DecidableEq, Inhabited

instance : Keyed Room := ⟨Room.id⟩

/-! ### Academics -/

/-- `scheduling.models.Modality`. -/
inductive Modality
  | f2f | blended | online
  deriving DecidableEq, Repr, Inhabited

/-- `AcademicTerm.Status`. -/
inductive TermStatus
  | draft | active | archived
  deriving DecidableEq, Repr

/-- `scheduling.models.AcademicTerm`. -/
structure AcademicTerm where
  id : ℕ
  name : String
  startDate : ℤ
  endDate : ℤ
  status : TermStatus
  deriving DecidableEq

instance : Keyed AcademicTerm := ⟨AcademicTerm.id⟩

/-- `scheduling.models.AcademicBreak`. -/
structure AcademicBreak where
  id : ℕ
  term : ℕ
  startDate : ℤ
  endDate : ℤ
  reason : String
  deriving DecidableEq

instance : Keyed AcademicBreak := ⟨AcademicBreak.id⟩

/-- `scheduling.models.ClassSuspension`; no building means campus-wide. -/
structure ClassSuspension where
  id : ℕ
  term : ℕ
  startDate : ℤ
  endDate : ℤ
  building : Option ℕ
  reason : String
  declaredBy : Option ℕ
  liftedAt : Option ℤ
  liftedBy : Option ℕ
  deriving DecidableEq

instance : Keyed ClassSuspension := ⟨ClassSuspension.id⟩

/-- `ClassSuspension.covers`: the suspension is in force and covers date `d` in
building `b`. -/
def ClassSuspension.covers (sp : ClassSuspension) (d : ℤ) (b : ℕ) : Bool :=
  sp.liftedAt.isNone && (decide (sp.startDate ≤ d) && decide (d ≤ sp.endDate)) &&
    (sp.building.isNone || sp.building == some b)

/-- `scheduling.models.ScheduleStatus`. -/
inductive ScheduleStatus
  | active | archived
  deriving DecidableEq, Repr, Inhabited

/-- `scheduling.models.Schedule`: a recurring class slot of a term. -/
structure Schedule where
  id : ℕ
  term : ℕ
  courseCode : String
  sectionName : String
  enrolledCount : ℕ
  faculty : ℕ
  room : ℕ
  dayOfWeek : ℕ
  startTime : TimeOfDay
  endTime : TimeOfDay
  modality : Modality
  status : ScheduleStatus
  deriving DecidableEq

instance : Keyed Schedule := ⟨Schedule.id⟩

/-- `scheduling.models.SessionStatus`. -/
inductive SessionStatus
  | scheduled | active | completed | absent | cancelled
  deriving DecidableEq, Repr

/-- `scheduling.models.CheckinMethod`. -/
inductive CheckinMethod
  | qrScan | manualCode | onlineManual | onlineSelf | forceHandover | merged
  deriving DecidableEq, Repr

/-- `scheduling.models.Session`: one dated occurrence of a class. -/
structure Session where
  id : ℕ
  schedule : ℕ
  faculty : ℕ
  room : ℕ
  date : ℤ
  scheduledStart : ℤ
  scheduledEnd : ℤ
  status : SessionStatus
  actualStart : Option ℤ
  actualEnd : Option ℤ
  checkinMethod : Option CheckinMethod
  declaredModality : Option Modality
  modalityChangedAt : Option ℤ
  modalityChangedBy : Option ℕ
  handoverFrom : Option ℕ
  teamsLink : String
  onlineChecker : Option ℕ
  endedEarly : Bool
  earlyEndReason : String
  roomReleasedAt : Option ℤ
  cancelledReason : String
  deriving DecidableEq

instance : Keyed Session := ⟨Session.id⟩

/-- `Session.Meta.ordering`: latest date first, then by start. -/
def Session.precedes (a b : Session) : Prop :=
  b.date < a.date ∨ (a.date = b.date ∧ a.scheduledStart ≤ b.scheduledStart)

instance : DecidableRel Session.precedes := fun a b =>
  inferInstanceAs (Decidable (b.date < a.date ∨ (a.date = b.date ∧ _)))

/-- `scheduling.models.ModalityShiftStatus`. -/
inductive ModalityShiftStatus
  | pending | approved | rejected | withdrawn | denied
  deriving DecidableEq, Repr

/-- `scheduling.models.ModalityShiftRequest`. -/
structure ModalityShiftRequest where
  id : ℕ
  requester : ℕ
  dean : Option ℕ
  department : Option ℕ
  targetModality : Modality
  windowStart : ℤ
  windowEnd : ℤ
  isTimeMove : Bool
  status : ModalityShiftStatus
  decisionReason : String
  decidedAt : Option ℤ
  decidedBy : Option ℕ
  deriving DecidableEq

instance : Keyed ModalityShiftRequest := ⟨ModalityShiftRequest.id⟩

/-- `scheduling.models.ModalityShiftItem`: one affected schedule of a request. -/
structure ModalityShiftItem where
  id : ℕ
  request : ℕ
  schedule : ℕ
  preferredRoom : Option ℕ
  assignedRoom : Option ℕ
  newStartTime : Option TimeOfDay
  newEndTime : Option TimeOfDay
  deriving DecidableEq

instance : Keyed ModalityShiftItem := ⟨ModalityShiftItem.id⟩

/-! ### Verification -/

/-- `verification.models.DutyRole`. -/
inductive DutyRole
  | checker | guard
  deriving DecidableEq, Repr

/-- `verification.models.AssignmentScope`. -/
inductive AssignmentScope
  | floor | online
  deriving DecidableEq, Repr

/-- `verification.models.Assignment`; a standing posting has no date. -/
structure Assignment where
  id : ℕ
  user : ℕ
  role : DutyRole
  floors : List ℕ
  scope : AssignmentScope
  date : Option ℤ
  startTime : Option TimeOfDay
  endTime : Option TimeOfDay
  term : Option ℕ
  active : Bool
  deriving DecidableEq

instance : Keyed Assignment := ⟨Assignment.id⟩

/-- `verification.models.ValidationAction`. -/
inductive ValidationAction
  | verified | flagIdentityMismatch | flagNotPresent | verifiedEmpty
  deriving DecidableEq, Repr

/-- `verification.models.CheckerValidation`. -/
structure CheckerValidation where
  id : ℕ
  session : Option ℕ
  room : ℕ
  checker : ℕ
  action : ValidationAction
  identityMatch : Option Bool
  note : String
  scannedAt : Option ℤ
  offlineQueued : Bool
  deriving DecidableEq

instance : Keyed CheckerValidation := ⟨CheckerValidation.id⟩

/-- The outcomes of a checker's room scan (`verification/resolver.py`). -/
inductive CheckerOutcome
  | offDuty | wrongFloor | noSession | activeUnverified | alreadyVerified | absentExcluded
  deriving DecidableEq, Repr

/-- Why a queued scan was not applied. -/
inductive ReplayReason
  | badPayload | rateLimited | badRoom | sessionChanged | actionIncongruent | noteRequired
  /-- the outcome that is not actionable now -/
  | gated (outcome : CheckerOutcome)
  deriving DecidableEq, Repr

/-- The action of a queued scan: a validation action, or any other text or null. -/
inductive ReplayAction
  | known (action : ValidationAction)
  | other (text : Option String)
  deriving DecidableEq

/-- The values of `CheckerReplayReceipt.status`. -/
inductive ReceiptStatus
  | applied | flagged
  deriving DecidableEq, Repr

/-- `verification.models.CheckerReplayReceipt`. -/
structure CheckerReplayReceipt where
  id : ℕ
  clientUuid : ℕ
  checker : ℕ
  status : ReceiptStatus
  reason : Option ReplayReason
  deriving DecidableEq

instance : Keyed CheckerReplayReceipt := ⟨CheckerReplayReceipt.id⟩

/-! ### Operations -/

/-- The two values `Booking.status` is given. -/
inductive BookingStatus
  | active | cancelled
  deriving DecidableEq, Repr

/-- `ops.models.Booking`. -/
structure Booking where
  id : ℕ
  room : ℕ
  createdBy : Option ℕ
  occupantName : String
  purpose : String
  startDatetime : ℤ
  endDatetime : ℤ
  status : BookingStatus
  deriving DecidableEq

instance : Keyed Booking := ⟨Booking.id⟩

/-- `ops.models.RoomConflictFlag`; its key `room:<id>` is kept as the id. -/
structure RoomConflictFlag where
  id : ℕ
  room : ℕ
  conflictKey : ℕ
  resolvedAt : Option ℤ
  deriving DecidableEq

instance : Keyed RoomConflictFlag := ⟨RoomConflictFlag.id⟩

/-- The refusals of an online checker action, as shown and as audited. -/
inductive OnlineRefusal
  | offDuty | absentExcluded
  deriving DecidableEq, Repr

/-- `ops.models.ImportStaging`: the row of an uploaded file. -/
structure ImportStaging where
  id : ℕ
  token : String
  uploadedBy : ℕ
  term : Option ℕ
  originalName : String
  sizeBytes : ℕ
  consumedAt : Option ℤ
  deriving DecidableEq

instance : Keyed ImportStaging := ⟨ImportStaging.id⟩

/-- What an audit row records: the event type with its target and payload. -/
inductive AuditEvent
  /-- `scan.rate_limited` -/
  | scanRateLimited (attempts : ℕ)
  /-- `scan.bad_manual_code` -/
  | scanBadManualCode
  /-- `session.checked_in` -/
  | sessionCheckedIn (session : ℕ) (room : String) (method : CheckinMethod)
  /-- `session.marked_absent`, written by a scan in the given room or by the sweep -/
  | sessionMarkedAbsent (session : ℕ) (room : Option String)
  /-- `session.checked_out` -/
  | sessionCheckedOut (session : ℕ) (room : String)
  /-- `session.ended_early` -/
  | sessionEndedEarly (session : ℕ) (room : String) (reason : String)
  /-- `session.room_changed` -/
  | sessionRoomChanged (session : ℕ) (oldRoom newRoom : String)
  /-- `session.force_handover` -/
  | sessionForceHandover (session : ℕ) (room : String) (priorSession : Option ℕ)
  /-- `session.merged_present` -/
  | sessionMergedPresent (session : ℕ) (mergedFrom : ℕ)
  /-- `session.merged_absent` -/
  | sessionMergedAbsent (session : ℕ) (mergedFrom : ℕ)
  /-- `session.teams_link_set` -/
  | sessionTeamsLinkSet (session : ℕ) (previous link : String)
  /-- `session.absent_corrected` -/
  | sessionAbsentCorrected (session : ℕ) (reason : String)
  /-- `session.room_released` -/
  | sessionRoomReleased (session : ℕ) (releasedAt : ℤ)
  /-- `session.cancelled`, by a suspension or by dropping a schedule -/
  | sessionCancelled (session : ℕ) (reason : String) (suspension schedule : Option ℕ)
  /-- `session.suspension_lifted` -/
  | sessionSuspensionLifted (session : ℕ) (suspension : ℕ)
  /-- `schedule.updated`, with the edited fields as they were -/
  | scheduleUpdated (schedule : ℕ) (faculty room : ℕ) (startTime endTime : TimeOfDay)
      (enrolledCount : ℕ) (futureSessionsUpdated : ℕ)
  /-- `schedule.created` -/
  | scheduleCreated (schedule : ℕ) (course sectionName room : String)
  /-- `schedule.archived` -/
  | scheduleArchived (schedule : ℕ) (reason : String) (sessionsCancelled : ℕ)
  /-- `schedule.imported` -/
  | scheduleImported (staging : ℕ) (originalName : String) (sizeBytes : ℕ) (schedulesCreated : ℤ)
      (term : ℕ) (termName : String)
  /-- `checker.<action>` -/
  | checkerAction (action : ValidationAction) (session : Option ℕ) (room : String)
      (offline online : Bool)
  /-- `checker.action_refused` on a session -/
  | checkerActionRefused (session : ℕ) (outcome : OnlineRefusal) (action : ValidationAction)
  /-- `checker.action_refused` on a room -/
  | checkerRoomActionRefused (room : ℕ) (outcome : CheckerOutcome) (action : ValidationAction)
  /-- `checker.rate_limited` in a replay -/
  | checkerReplayRateLimited (uuid : ℕ)
  /-- `checker.replay_conflict` -/
  | checkerReplayConflict (session : Option ℕ) (outcome : ReplayReason) (uuid : ℕ)
      (action : ReplayAction)
  /-- `session.online_checker_assigned` -/
  | sessionOnlineCheckerAssigned (session checker : ℕ)
  /-- `modality_shift.submitted` -/
  | modalityShiftSubmitted (request : ℕ) (target : Modality) (windowStart windowEnd : ℤ)
      (isTimeMove : Bool) (schedules : List ℕ)
  /-- `modality_shift.withdrawn` -/
  | modalityShiftWithdrawn (request : ℕ)
  /-- `modality_shift.rejected` -/
  | modalityShiftRejected (request : ℕ) (reason : String)
  /-- `modality_shift.denied` -/
  | modalityShiftDenied (request : ℕ) (reason : String)
  /-- `modality_shift.approved` -/
  | modalityShiftApproved (request : ℕ) (target : Modality)
  /-- `academicbreak.created` -/
  | academicBreakCreated (term : ℕ) (startDate endDate : ℤ) (reason : String)
  /-- `academicbreak.deleted` -/
  | academicBreakDeleted (term : ℕ) (startDate endDate : ℤ) (reason : String)
  /-- `booking.created` -/
  | bookingCreated (booking : ℕ) (room : String) (occupant : String) (start finish : ℤ)
  /-- `term.created` -/
  | termCreated (term : ℕ) (name : String) (startDate endDate : ℤ)
      (scheduleCount sessionCount : ℕ)
  /-- `term.archived` -/
  | termArchived (term : ℕ) (reason : String) (before : TermStatus)
      (scheduleCount sessionCount activeSessionCount : ℕ) (acknowledged : List String)
  /-- `term.reopened` -/
  | termReopened (term : ℕ) (reason : String) (before : TermStatus)
      (scheduleCount sessionCount activeSessionCount : ℕ) (acknowledged : List String)
  /-- `term.activated` -/
  | termActivated (term : ℕ) (before : TermStatus) (horizonDays : ℤ) (materializationStart : ℤ)
      (created existing skipped : ℕ) (scheduleCount sessionCount : ℕ)
      (acknowledged : List String)
  deriving DecidableEq

/-- `ops.models.AuditLog`. -/
structure AuditLog where
  actor : Option ℕ
  event : AuditEvent
  deriving DecidableEq

/-- What a notification says: its type with the values its text is made of. -/
inductive Notice
  /-- `room_event`, a confirmed room change -/
  | roomChange (user : ℕ) (course oldRoom newRoom : String)
  /-- `room_event`, a force handover -/
  | forceHandover (room course : String)
  /-- `room_conflict` -/
  | roomConflict (room : String)
  /-- `class_suspended` -/
  | classSuspended (count : ℕ) (startDate : ℤ) (building : Option ℕ) (reason : String)
  /-- `checker_flag`; the copy for HR does not name the checker -/
  | checkerFlag (room : String) (action : ValidationAction) (checker : Option ℕ) (note : String)
  /-- `checker_replay_conflict`; the room may be unknown -/
  | checkerReplayConflict (room : Option String) (reason : ReplayReason)
  /-- `modality_materialize_no_room` -/
  | modalityMaterializeNoRoom (schedule : ℕ) (date : ℤ)
  /-- `online_unassigned` -/
  | onlineUnassigned (count : ℕ) (date : ℤ)
  /-- `online_assigned` -/
  | onlineAssigned (count : ℕ) (date : ℤ)
  /-- `modality_shift_submitted` -/
  | modalityShiftSubmitted (requester : ℕ) (target : Modality) (windowStart windowEnd : ℤ)
  /-- `modality_shift_rejected` -/
  | modalityShiftRejected (reason : String)
  /-- `modality_shift_denied` -/
  | modalityShiftDenied (reason : String)
  /-- `modality_shift_approved` -/
  | modalityShiftApproved (target : Modality) (windowStart windowEnd : ℤ)
  /-- `modality_shift_applied`, to Online -/
  | modalityShiftAppliedOnline (count : ℕ) (windowStart windowEnd : ℤ)
  /-- `modality_shift_applied`, to a room -/
  | modalityShiftAppliedRooms (target : Modality) (rooms : List String) (windowStart windowEnd : ℤ)
  /-- `guard_floor_alert` -/
  | guardFloorAlert (title body link : String)
  deriving DecidableEq

/-- `ops.models.Notification`. -/
structure Notification where
  user : ℕ
  notice : Notice
  deriving DecidableEq

/-- The policy values the modelled services read (`settings.FLUXTRACK_POLICY`,
overridden by `SystemSetting` rows). -/
structure Policy where
  graceMinutes : ℤ
  earlyEndThresholdMinutes : ℤ
  manualCodeRateLimitPerMin : ℤ
  materializationHorizonDays : ℤ
  modalityShiftLeadDays : ℤ
  deriving DecidableEq

end FluxTrack
