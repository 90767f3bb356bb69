import FluxTrack.Scheduling.Materialization

/-!
# Modality-shift requests

`scheduling/services.py`: a faculty member withdraws a pending request, the dean of
its department rejects or approves it. Approval applies the shift to the sessions in
the window inside an inner block; when no room can be found the inner block is
undone and the request ends denied.

## Main definitions

* `Db.inWindowSessions`, `affectedSessions` — the sessions a request is about
* `resolveShiftRoom` — the room for a shifted session
* `withdrawModalityShift`, `rejectModalityShift`, `applyApproval` — the services
-/

namespace FluxTrack

open Calendar Relational Process

/-! ### Scope of a request -/

/-- `order_by("date", "scheduled_start")`. -/
def Session.earlier (a b : Session) : Prop :=
  a.date < b.date ∨ (a.date = b.date ∧ a.scheduledStart ≤ b.scheduledStart)

instance : DecidableRel Session.earlier := fun a b =>
  inferInstanceAs (Decidable (a.date < b.date ∨ (a.date = b.date ∧ _)))

/-- The session is one that a request on the schedule over the window affects. -/
def Session.inWindow (schedule : ℕ) (windowStart windowEnd : ℤ) (s : Session) : Bool :=
  s.schedule == schedule && s.status.occupying &&
    (decide (windowStart ≤ s.date) && decide (s.date ≤ windowEnd))

/-- `_in_window_sessions`. -/
def Db.inWindowSessions (db : Db) (schedule : ℕ) (windowStart windowEnd : ℤ) : List Session :=
  (db.sessions.rows.filter (Session.inWindow schedule windowStart windowEnd)).insertionSort
    Session.earlier

/-- `request.items.all()`. -/
def Db.itemsOf (db : Db) (request : ℕ) : List ModalityShiftItem :=
  db.items.rows.filter fun i => i.request == request

/-- The loop of `affected_sessions` over the items of a request. -/
def affectedLoop (req : ModalityShiftRequest) : List ModalityShiftItem → M (List Session)
  | [] => pure []
  | item :: rest => do
    let sessions ← Prog.select fun db =>
      db.inWindowSessions item.schedule req.windowStart req.windowEnd
    let more ← affectedLoop req rest
    pure (sessions ++ more)

/-- `affected_sessions`. -/
def affectedSessions (req : ModalityShiftRequest) : M (List Session) := do
  let items ← Prog.select fun db => db.itemsOf req.id
  affectedLoop req items

/-! ### Guards -/

/-- `ModalityShiftRequest.objects.select_for_update().get(pk=pk)`. -/
def lockRequest (pk : ℕ) : M ModalityShiftRequest := do
  Prog.lock (.request pk)
  match ← Prog.select fun db => db.requests.get? pk with
  | some req => pure req
  | none => .raise .doesNotExist

/-- The distinct terms of the schedules of a request. -/
def Db.termIdsOf (db : Db) (request : ℕ) : List ℕ :=
  ((db.itemsOf request).map fun i => ((db.schedules.get? i.schedule).getD default).term).dedup

/-- `_single_term_id_for_request`. -/
def singleTermIdForRequest (request : ℕ) : M ℕ := do
  match ← Prog.select fun db => db.termIdsOf request with
  | [term] => pure term
  | _ => .raise (.modalityShift "request schedules must belong to one academic term")

/-- `_lock_writable_term`. -/
def lockWritableTerm (term : ℕ) : M Unit := do
  let term ← lockTerm term
  if term.status = .archived then
    .raise (.modalityShift "archived academic terms are read-only")
  else pure ()

/-- The dean decides about the request: of its department, and a dean. -/
def ModalityShiftRequest.decidableBy (req : ModalityShiftRequest) (dean : User) : Bool :=
  dean.role == .dean && req.department == dean.department

namespace ModalityShiftRequest

/-- The request pulled back by its requester. -/
def withdraw (req : ModalityShiftRequest) : ModalityShiftRequest :=
  { req with status := .withdrawn }

/-- The request turned down by `dean` for a reason, with the given final status. -/
def decline (status : ModalityShiftStatus) (reason : String) (dean : ℕ) (now : ℤ)
    (req : ModalityShiftRequest) : ModalityShiftRequest :=
  { req with
    status := status, decisionReason := reason, decidedBy := some dean, decidedAt := some now }

/-- The request approved by `dean`. -/
def approve (dean : ℕ) (now : ℤ) (req : ModalityShiftRequest) : ModalityShiftRequest :=
  { req with status := .approved, decidedBy := some dean, decidedAt := some now }

theorem key_withdraw (req : ModalityShiftRequest) : key req.withdraw = key req := rfl

theorem key_decline (status : ModalityShiftStatus) (reason : String) (dean : ℕ) (now : ℤ)
    (req : ModalityShiftRequest) : key (req.decline status reason dean now) = key req := rfl

theorem key_approve (dean : ℕ) (now : ℤ) (req : ModalityShiftRequest) :
    key (req.approve dean now) = key req := rfl

end ModalityShiftRequest

/-- `req.save(update_fields=...)`. -/
def saveRequest (pk : ℕ) (f : ModalityShiftRequest → ModalityShiftRequest)
    (hf : ∀ r, key (f r) = key r) : M Unit :=
  Prog.modify fun db => { db with requests := db.requests.update (fun r => r.id == pk) f hf }

/-! ### Withdrawing and rejecting -/

/-- `withdraw_modality_shift`. -/
def withdrawModalityShift (request actor : ℕ) : M Unit :=
  Prog.atomic do
    let req ← lockRequest request
    let term ← singleTermIdForRequest req.id
    lockWritableTerm term
    if req.requester ≠ actor then
      .raise (.modalityShift "only the requester may withdraw this request")
    else if req.status ≠ .pending then
      .raise (.modalityShift "only a pending request may be withdrawn")
    else do
      saveRequest req.id ModalityShiftRequest.withdraw ModalityShiftRequest.key_withdraw
      createAudit (some actor) (.modalityShiftWithdrawn req.id)

/-- `reject_modality_shift`. -/
def rejectModalityShift (request : ℕ) (dean : User) (reason : String) (now : ℤ) : M Unit :=
  Prog.atomic do
    let req ← lockRequest request
    let term ← singleTermIdForRequest req.id
    lockWritableTerm term
    if req.decidableBy dean = false then
      .raise (.modalityShift "only the routed department Dean may reject this request")
    else if req.status ≠ .pending then
      .raise (.modalityShift "only a pending request may be rejected")
    else do
      saveRequest req.id (ModalityShiftRequest.decline .rejected reason dean.id now)
        (ModalityShiftRequest.key_decline _ _ _ _)
      createAudit (some dean.id) (.modalityShiftRejected req.id reason)
      notifyUsers [req.requester] (.modalityShiftRejected reason)

/-! ### Approving -/

/-- `resolve_shift_room`: the schedule's own room, else the first free room of its
building. -/
def resolveShiftRoom (sched : Schedule) (preferredRoom : Option ℕ) (start finish : ℤ)
    (excludeSession : ℕ) : M (Option ℕ) := do
  if ← Prog.select fun db => db.roomIsFree sched.room start finish (some excludeSession) none then
    pure (some sched.room)
  else
    Prog.select fun db =>
      (db.freeRoomsInBuilding (db.buildingOf sched.room) start finish (some excludeSession)
        preferredRoom).head?

/-- The slot a shifted session will have. -/
def ModalityShiftItem.slotFor (i : ModalityShiftItem) (s : Session) : ℤ × ℤ :=
  (i.movedSlot s.date).getD (s.scheduledStart, s.scheduledEnd)

/-- The D-17 re-check of a time move. -/
def checkMove (item : ModalityShiftItem) (s : Session) : M Unit :=
  match item.movedSlot s.date with
  | none => pure ()
  | some (start, finish) => do
    if ← Prog.select fun db => db.facultyHasConflict s.faculty start finish (some s.id) then
      .raise (.noRoomAvailable "the new time double-books the requesting faculty")
    else pure ()

/-- One session of `_apply_f2f`, answering with the room it was given. -/
def shiftSession (req : ModalityShiftRequest) (item : ModalityShiftItem) (sched : Schedule)
    (dean : ℕ) (now : ℤ) (s : Session) : M ℕ := do
  checkMove item s
  match ← resolveShiftRoom sched item.preferredRoom (item.slotFor s).1 (item.slotFor s).2 s.id with
  | none => .raise (.noRoomAvailable "No room available that day.")
  | some room => do
    saveSession s.id
      (fun a => (a.place room (item.movedSlot s.date)).declare req.targetModality (some now)
        (some dean))
      (Session.key_declare_place _ _ _ _ _)
    pure room

/-- The sessions of one item, answering with the room of the last one. -/
def shiftSessions (req : ModalityShiftRequest) (item : ModalityShiftItem) (sched : Schedule)
    (dean : ℕ) (now : ℤ) : List Session → Option ℕ → M (Option ℕ)
  | [], resolved => pure resolved
  | s :: rest, _ => do
    let room ← shiftSession req item sched dean now s
    shiftSessions req item sched dean now rest (some room)

/-- `item.save(update_fields=["assigned_room"])`. -/
def saveAssignedRoom (pk room : ℕ) : M Unit :=
  Prog.modify fun db =>
    { db with
      items := db.items.update (fun i => i.id == pk)
        (fun i => { i with assignedRoom := some room }) }

/-- One item of `_apply_f2f`. -/
def shiftItem (req : ModalityShiftRequest) (dean : ℕ) (now : ℤ)
    (row : ModalityShiftItem × Schedule) : M Unit := do
  let sessions ← Prog.select fun db =>
    db.inWindowSessions row.1.schedule req.windowStart req.windowEnd
  match ← shiftSessions req row.1 row.2 dean now sessions none with
  | none => pure ()
  | some room => saveAssignedRoom row.1.id room

/-- `_apply_f2f`. -/
def applyF2f (req : ModalityShiftRequest) (dean : ℕ) (now : ℤ) : M Unit := do
  let rows ← Prog.select fun db =>
    (db.itemsOf req.id).map fun i => (i, (db.schedules.get? i.schedule).getD default)
  Prog.forEach rows (shiftItem req dean now)

/-- One session of `_apply_online`. -/
def moveOnline (dean : ℕ) (now : ℤ) (s : Session) : M Unit := do
  saveSession s.id (Session.declare .online (some now) (some dean)) (Session.key_declare _ _ _)
  releaseRoom s.id (some dean) now

/-- `_apply_online`. -/
def applyOnline (sessions : List Session) (dean : ℕ) (now : ℤ) : M Unit :=
  Prog.forEach sessions (moveOnline dean now)

/-- The session updates of an approval. -/
def applyShift (req : ModalityShiftRequest) (sessions : List Session) (dean : ℕ) (now : ℤ) :
    M Unit :=
  if req.targetModality = .online then applyOnline sessions dean now else applyF2f req dean now

/-- The consequence of an approval in a block of its own, answering with the reason for
a denial. -/
def applyConsequence (req : ModalityShiftRequest) (sessions : List Session) (dean : ℕ) (now : ℤ) :
    M (Option String) :=
  (Prog.atomic (applyShift req sessions dean now)).elim
    (fun _ => pure none)
    fun
      | .noRoomAvailable reason => pure (some reason)
      | e => .raise e

/-- What the IFO office is told about an applied shift. -/
def appliedNotice (req : ModalityShiftRequest) (sessions : List Session) (db : Db) : Notice :=
  if req.targetModality = .online then
    .modalityShiftAppliedOnline sessions.length req.windowStart req.windowEnd
  else
    .modalityShiftAppliedRooms req.targetModality
      ((((db.itemsOf req.id).filterMap ModalityShiftItem.assignedRoom).map
        fun r => (db.room r).code).dedup.insertionSort fun a b => a ≤ b)
      req.windowStart req.windowEnd

/-- `apply_approval`, answering with the status the request ends in. -/
def applyApproval (request : ℕ) (dean : User) (now : ℤ) : M ModalityShiftStatus :=
  Prog.atomic do
    let req ← lockRequest request
    let term ← singleTermIdForRequest req.id
    lockWritableTerm term
    if req.decidableBy dean = false then
      .raise (.modalityShift "only the routed department Dean may approve this request")
    else if req.status ≠ .pending then
      .raise (.modalityShift "only a pending request may be approved")
    else do
      let sessions ← affectedSessions req
      match ← applyConsequence req sessions dean.id now with
      | some reason => do
        saveRequest req.id (ModalityShiftRequest.decline .denied reason dean.id now)
          (ModalityShiftRequest.key_decline _ _ _ _)
        createAudit (some dean.id) (.modalityShiftDenied req.id reason)
        notifyUsers [req.requester] (.modalityShiftDenied reason)
        pure .denied
      | none => do
        saveRequest req.id (ModalityShiftRequest.approve dean.id now)
          (ModalityShiftRequest.key_approve _ _)
        createAudit (some dean.id) (.modalityShiftApproved req.id req.targetModality)
        notifyUsers [req.requester]
          (.modalityShiftApproved req.targetModality req.windowStart req.windowEnd)
        let notice ← Prog.select (appliedNotice req sessions)
        notifyRole .ifoAdmin notice
        pure .approved

/-! ### The services run alone -/

section

variable {db db' : Db} {dean : User} {now : ℤ}

theorem run_lockRequest_eq_ok {pk : ℕ} {req : ModalityShiftRequest}
    (h : (lockRequest pk).run db = (.ok req, db')) : db' = db ∧ db.requests.get? pk = some req := by
  rw [lockRequest, Prog.run_lock_bind, Prog.run_select_bind] at h
  cases hget : db.requests.get? pk with
  | none =>
    rw [hget] at h
    cases h
  | some req' =>
    rw [hget] at h
    cases h
    exact ⟨rfl, rfl⟩

theorem run_singleTermIdForRequest_eq_ok {request term : ℕ}
    (h : (singleTermIdForRequest request).run db = (.ok term, db')) :
    db' = db ∧ db.termIdsOf request = [term] := by
  rw [singleTermIdForRequest, Prog.run_select_bind] at h
  split at h <;> cases h
  exact ⟨rfl, ‹_›⟩

theorem run_lockWritableTerm_eq_ok {term : ℕ}
    (h : (lockWritableTerm term).run db = (.ok (), db')) :
    db' = db ∧ ∃ t, db.terms.table.get? term = some t ∧ t.status ≠ .archived := by
  obtain ⟨t, db₁, hterm, hbody⟩ := Prog.run_bind_eq_ok h
  obtain ⟨rfl, hget⟩ := run_lockTerm_eq_ok hterm
  split at hbody <;> cases hbody
  exact ⟨rfl, t, hget, ‹_›⟩

/-- The guards of a decision on a request: it exists, its schedules are of one term, and that
term is writable. -/
theorem run_guarded_eq_ok {α : Type} {request : ℕ} {f : ModalityShiftRequest → M α} {a : α}
    (h : (do
      let req ← lockRequest request
      let term ← singleTermIdForRequest req.id
      lockWritableTerm term
      f req : M α).run db = (.ok a, db')) :
    ∃ req term t, db.requests.get? request = some req ∧ db.termIdsOf req.id = [term] ∧
      db.terms.table.get? term = some t ∧ t.status ≠ .archived ∧
      (f req).run db = (.ok a, db') := by
  obtain ⟨req, db₁, hreq, hguards⟩ := Prog.run_bind_eq_ok h
  obtain ⟨rfl, hget⟩ := run_lockRequest_eq_ok hreq
  obtain ⟨term, db₂, hterm, hlock⟩ := Prog.run_bind_eq_ok hguards
  obtain ⟨rfl, hone⟩ := run_singleTermIdForRequest_eq_ok hterm
  obtain ⟨_, db₃, hwritable, hbody⟩ := Prog.run_bind_eq_ok hlock
  obtain ⟨rfl, t, hrow, hopen⟩ := run_lockWritableTerm_eq_ok hwritable
  exact ⟨req, term, t, hget, hone, hrow, hopen, hbody⟩

/-- Looking up the sessions of a request changes nothing. -/
theorem run_affectedLoop (req : ModalityShiftRequest) (items : List ModalityShiftItem) :
    (affectedLoop req items).run db =
      (.ok (items.flatMap fun i => db.inWindowSessions i.schedule req.windowStart req.windowEnd),
        db) := by
  induction items with
  | nil => rfl
  | cons item rest ih =>
    rw [affectedLoop, Prog.run_select_bind, Prog.run_bind_of_ok ih]
    rfl

/-- The sessions a request affects, as one reading of the database. -/
def Db.affectedSessions (db : Db) (req : ModalityShiftRequest) : List Session :=
  (db.itemsOf req.id).flatMap fun i =>
    db.inWindowSessions i.schedule req.windowStart req.windowEnd

theorem run_affectedSessions (req : ModalityShiftRequest) :
    (affectedSessions req).run db = (.ok (db.affectedSessions req), db) :=
  run_affectedLoop req _

theorem run_applyConsequence (req : ModalityShiftRequest) (sessions : List Session) (dean : ℕ) :
    (applyConsequence req sessions dean now).run db =
      match (applyShift req sessions dean now).run db with
      | (.ok _, db') => (.ok none, db')
      | (.error (.noRoomAvailable reason), _) => (.ok (some reason), db)
      | (.error e, _) => (.error e, db) := by
  rw [applyConsequence, Prog.run_elim, Prog.run_atomic]
  rcases (applyShift req sessions dean now).run db with ⟨e | _, db'⟩
  · cases e <;> rfl
  · rfl

/-- What an approval does: it raises and changes nothing, it denies the pending request,
or it applies the shift and approves the request. -/
theorem run_applyApproval_cases (request : ℕ) (dean : User) (now : ℤ) (db : Db) :
    (∃ e, (applyApproval request dean now).run db = (.error e, db)) ∨
    ∃ req, db.requests.get? request = some req ∧ req.status = .pending ∧
      ((∃ reason, (applyApproval request dean now).run db =
        (.ok .denied, { db with
          requests := db.requests.update (fun r => r.id == req.id)
            (ModalityShiftRequest.decline .denied reason dean.id now)
            (ModalityShiftRequest.key_decline _ _ _ _)
          audit := db.audit ++ [⟨some dean.id, .modalityShiftDenied req.id reason⟩]
          notifications := db.notifications ++ [⟨req.requester, .modalityShiftDenied reason⟩] })) ∨
      ∃ db₁ notifications,
        (applyShift req (db.affectedSessions req) dean.id now).run db = (.ok (), db₁) ∧
        (applyApproval request dean now).run db =
          (.ok .approved, { db₁ with
            requests := db₁.requests.update (fun r => r.id == req.id)
              (ModalityShiftRequest.approve dean.id now) (ModalityShiftRequest.key_approve _ _)
            audit := db₁.audit ++
              [⟨some dean.id, .modalityShiftApproved req.id req.targetModality⟩]
            notifications := notifications })) := by
  rcases hrun : (applyApproval request dean now).run db with ⟨e | status, db'⟩
  · refine .inl ⟨e, ?_⟩
    have hsame := Prog.snd_run_atomic_of_error (congrArg Prod.fst hrun)
    change ((applyApproval request dean now).run db).2 = db at hsame
    rw [hrun] at hsame
    -- what raises takes the whole block back
    rw [show db' = db from hsame]
  · right
    obtain ⟨req, term, t, hget, -, -, -, hbody⟩ := run_guarded_eq_ok (Prog.run_atomic_eq_ok hrun)
    split at hbody
    · cases hbody
    · split at hbody
      · cases hbody
      · rename_i hpending
        refine ⟨req, hget, not_not.mp hpending, ?_⟩
        rw [Prog.run_bind_of_ok (run_affectedSessions req)] at hbody
        obtain ⟨denied, db₁, happly, hdecision⟩ := Prog.run_bind_eq_ok hbody
        rw [run_applyConsequence] at happly
        rcases hshift : (applyShift req (db.affectedSessions req) dean.id now).run db with
          ⟨e | _, db₂⟩ <;> rw [hshift] at happly
        · cases e with
          -- only a missing room is caught; it denies the request with the reason
          | noRoomAvailable reason =>
            cases happly
            cases hdecision
            exact .inl ⟨reason, rfl⟩
          | _ => cases happly
        · cases happly
          cases hdecision
          exact .inr ⟨_, _, rfl, rfl⟩

end

end FluxTrack
