import FluxTrack.Scheduling.Services
import Mathlib.Data.List.Dedup

/-!
# Asking for a modality shift

`submit_modality_shift` of `scheduling/services.py`: everything about a new request is
checked against readings of the database that are made before the term of the request is
locked; then the request and its items are written in one block.

## Main definitions

* `Db.recentRequest`, `Db.beforeLeadCutoff`, `Db.routeToDean` — the guards
* `submitModalityShift` — the service
-/

namespace FluxTrack

open Calendar Relational Process

/-- `_REREQUEST_COOLDOWN_DAYS`. -/
def rerequestCooldownDays : ℤ := 2

namespace Db

/-- The faculty member has a request for the schedule that is pending or was decided within the
cooldown. -/
def recentRequest (db : Db) (faculty schedule : ℕ) (now : ℤ) : Bool :=
  db.requests.rows.any fun r =>
    r.requester == faculty &&
      (db.items.rows.any fun i => i.request == r.id && i.schedule == schedule) &&
      (r.status == .pending ||
        r.decidedAt.any fun t => decide (now - rerequestCooldownDays * dayLength ≤ t))

/-- `is_before_lead_cutoff`. -/
def beforeLeadCutoff (db : Db) (earliest now : ℤ) : Bool :=
  decide (now < manila.midnight (earliest - db.policy.modalityShiftLeadDays))

/-- `route_to_dean`: the first active dean of the department. -/
def routeToDean (db : Db) (faculty : User) : Option User := do
  let department ← faculty.department
  ((db.users.rows.filter fun u =>
      u.role == .dean && u.department == some department && u.isActive).insertionSort
    fun a b => a.id ≤ b.id).head?

/-- `available_rooms_for`. -/
def availableRoomsFor (db : Db) (s : Session) : List ℕ :=
  let room := (db.scheduleOf s).room
  db.freeRoomsInBuilding (db.buildingOf room) s.scheduledStart s.scheduledEnd (some s.id)
    (some room)

end Db

/-- The value a dictionary built entry by entry has for a key: that of the last entry. -/
def lastEntry {α : Type} (entries : List (ℕ × α)) (k : ℕ) : Option α :=
  (entries.reverse.find? fun e => e.1 == k).map Prod.snd

/-- `_single_term_id_for_schedules`. -/
def singleTermIdForSchedules (schedules : List Schedule) : M ℕ :=
  match (schedules.map Schedule.term).dedup with
  | [term] => pure term
  | _ => .raise (.modalityShift "selected schedules must belong to one academic term")

/-- The text of the refusal of a second request. -/
def recentRequestText (sched : Schedule) : String :=
  "You already have a recent request for " ++ sched.courseCode ++ " " ++ sched.sectionName ++
    ". Withdraw the pending one, or wait " ++ toString rerequestCooldownDays ++
    " days after a decision."

/-- The no-double-request guard for one schedule. -/
def checkNoRequest (faculty : ℕ) (now : ℤ) (sched : Schedule) : M Unit := do
  if ← Prog.select fun db => db.recentRequest faculty sched.id now then
    .raise (.modalityShift (recentRequestText sched))
  else pure ()

/-- The sessions in the window, read for one schedule after the other. -/
def gatherSessions (windowStart windowEnd : ℤ) : List Schedule → M (List (ℕ × List Session))
  | [] => pure []
  | sched :: rest => do
    let sessions ← Prog.select fun db => db.inWindowSessions sched.id windowStart windowEnd
    let more ← gatherSessions windowStart windowEnd rest
    pure ((sched.id, sessions) :: more)

/-- The D-17 guard for one session. -/
def checkNewTime (faculty : ℕ) (time : TimeOfDay × TimeOfDay) (s : Session) : M Unit := do
  if ← Prog.select fun db =>
      db.facultyHasConflict faculty (makeAware s.date time.1) (makeAware s.date time.2)
        (some s.id) then
    .raise (.modalityShift "the new time double-books the requesting faculty")
  else pure ()

/-- The room is free for every session; the first one it is not free for ends the search. -/
def roomFreeForAll (room : ℕ) : List Session → M Bool
  | [] => pure true
  | s :: rest => do
    if (← Prog.select fun db => db.availableRoomsFor s).contains room then
      roomFreeForAll room rest
    else pure false

/-- The preferred rooms that are kept, with the schedules they are for. -/
def validatePreferred (preferred : ℕ → Option ℕ) (sessions : List (ℕ × List Session)) :
    List Schedule → M (List (ℕ × Option ℕ))
  | [] => pure []
  | sched :: rest =>
    match preferred sched.id with
    | none => validatePreferred preferred sessions rest
    | some room => do
      let own := (lastEntry sessions sched.id).getD []
      let ok ← if own.isEmpty then pure false else roomFreeForAll room own
      let more ← validatePreferred preferred sessions rest
      pure ((sched.id, if ok then some room else none) :: more)

/-- `ModalityShiftRequest.objects.create` under the primary key `pk`; the insertion fails when the
key is taken. -/
def createRequest (pk : ℕ) (faculty : User) (dean : ℕ) (target : Modality)
    (windowStart windowEnd : ℤ) (isMove : Bool) : M Unit := do
  let fresh ← Prog.modifyGet (fun db => (db.requests.get? pk).isNone) fun db =>
    { db with
      requests := db.requests.add
        ⟨pk, faculty.id, some dean, faculty.department, target, windowStart, windowEnd, isMove,
          .pending, "", none, none⟩ }
  if fresh then pure () else .raise .integrity

/-- A new item of a request; without the request its foreign key is refused. -/
def Db.insertItem (db : Db) (request : ℕ) (preferred : List (ℕ × Option ℕ))
    (time : Option (TimeOfDay × TimeOfDay)) (sched : Schedule) : Db :=
  if (db.requests.get? request).isSome then
    { db with
      items := db.items.insert fun pk =>
        ⟨pk, request, sched.id, (lastEntry preferred sched.id).join, none, time.map Prod.fst,
          time.map Prod.snd⟩ }
  else db

/-- `ModalityShiftItem.objects.create`. -/
def createItem (request : ℕ) (preferred : List (ℕ × Option ℕ))
    (time : Option (TimeOfDay × TimeOfDay)) (sched : Schedule) : M Unit := do
  let linked ← Prog.modifyGet (fun db => (db.requests.get? request).isSome) fun db =>
    db.insertItem request preferred time sched
  if linked then pure () else .raise .integrity

/-- The block that writes the request. -/
def writeRequest (pk : ℕ) (faculty : User) (schedules : List Schedule) (term : ℕ)
    (target : Modality) (windowStart windowEnd : ℤ) (time : Option (TimeOfDay × TimeOfDay))
    (dean : ℕ) (preferred : List (ℕ × Option ℕ)) : M ℕ :=
  Prog.atomic do
    lockWritableTerm term
    createRequest pk faculty dean target windowStart windowEnd time.isSome
    Prog.forEach schedules (createItem pk preferred time)
    createAudit (some faculty.id)
      (.modalityShiftSubmitted pk target windowStart windowEnd time.isSome
        (schedules.map Schedule.id))
    notifyUsers [dean] (.modalityShiftSubmitted faculty.id target windowStart windowEnd)
    pure pk

/-- `submit_modality_shift`: answers with the primary key of the request. The schedules and the
faculty member are rows that the caller has loaded; `target` is none for any other text; `pk` is
the key that the database hands out for the request. -/
def submitModalityShift (pk : ℕ) (faculty : User) (schedules : List Schedule) (target : Option Modality)
    (windowStart windowEnd : ℤ) (preferred : ℕ → Option ℕ)
    (time : Option (TimeOfDay × TimeOfDay)) (now : ℤ) : M ℕ :=
  if schedules.isEmpty then .raise (.modalityShift "no schedules selected")
  else do
    let term ← singleTermIdForSchedules schedules
    match target with
    | none => .raise (.modalityShift "invalid target modality")
    | some target =>
      if windowEnd < windowStart then
        .raise (.modalityShift "window start is after window end")
      else do
        Prog.forEach schedules (checkNoRequest faculty.id now)
        if time.isSome && target == .online then
          .raise (.modalityShift "a time-move must be bundled with a F2F or Blended shift")
        else do
          let sessions ← gatherSessions windowStart windowEnd schedules
          match (sessions.flatMap fun e => e.2.map Session.date).min? with
          | none => .raise (.modalityShift "no in-window sessions to shift")
          | some earliest => do
            if ← Prog.select fun db => db.beforeLeadCutoff earliest now then do
              match ← Prog.select fun db => db.routeToDean faculty with
              | none => .raise (.modalityShift "no Dean assigned - contact IFO")
              | some dean => do
                match time with
                | none => pure ()
                | some time =>
                  Prog.forEach (schedules.flatMap fun sched =>
                      (lastEntry sessions sched.id).getD [])
                    (checkNewTime faculty.id time)
                let preferred ← validatePreferred preferred sessions schedules
                writeRequest pk faculty schedules term target windowStart windowEnd time dean.id
                  preferred
            else .raise (.modalityShift "request is past the lead-time cutoff")

/-! ### The service run alone -/

section

variable {db : Db} {now : ℤ}

theorem run_forEach_of_reads {ι : Type} {f : ι → M Unit} {l : List ι}
    (hf : ∀ i, ((f i).run db).2 = db) : ((Prog.forEach l f).run db).2 = db := by
  induction l with
  | nil => rfl
  | cons i l ih =>
    rcases Prog.run_bind_cases_of_reads (hf i) fun _ => Prog.forEach l f with
      ⟨e, hrun⟩ | ⟨_, -, hrun⟩
    · exact congrArg Prod.snd hrun
    · exact (congrArg Prod.snd hrun).trans ih

theorem run_checkNoRequest (faculty : ℕ) (now : ℤ) (sched : Schedule) :
    ((checkNoRequest faculty now sched).run db).2 = db := by
  rw [checkNoRequest, Prog.run_select_bind]
  split <;> rfl

theorem run_checkNewTime (faculty : ℕ) (time : TimeOfDay × TimeOfDay) (s : Session) :
    ((checkNewTime faculty time s).run db).2 = db := by
  rw [checkNewTime, Prog.run_select_bind]
  split <;> rfl

theorem run_gatherSessions (windowStart windowEnd : ℤ) (schedules : List Schedule) :
    (gatherSessions windowStart windowEnd schedules).run db =
      (.ok (schedules.map fun c => (c.id, db.inWindowSessions c.id windowStart windowEnd)), db) := by
  induction schedules with
  | nil => rfl
  | cons c rest ih =>
    rw [gatherSessions, Prog.run_select_bind, Prog.run_bind_of_ok ih]
    rfl

theorem run_roomFreeForAll (room : ℕ) (sessions : List Session) :
    ((roomFreeForAll room sessions).run db).2 = db := by
  induction sessions with
  | nil => rfl
  | cons s rest ih =>
    rw [roomFreeForAll, Prog.run_select_bind]
    split
    · exact ih
    · rfl

theorem run_validatePreferred (preferred : ℕ → Option ℕ) (sessions : List (ℕ × List Session))
    (schedules : List Schedule) : ((validatePreferred preferred sessions schedules).run db).2 = db := by
  induction schedules with
  | nil => rfl
  | cons c rest ih =>
    rw [validatePreferred]
    split
    · exact ih
    · rename_i room _
      have hmore : ∀ ok : Bool, (Prog.run (do
          let more ← validatePreferred preferred sessions rest
          pure ((c.id, if ok then some room else none) :: more)) db).2 = db := by
        intro ok
        rw [Prog.snd_run_bind_pure]
        exact ih
      dsimp only
      split
      · exact hmore false
      · refine Prog.snd_run_bind (P := fun t => t = db) (run_roomFreeForAll _ _) fun ok t ht => ?_
        rw [ht]
        exact hmore ok

theorem run_singleTermIdForSchedules (db : Db) (schedules : List Schedule) :
    ((singleTermIdForSchedules schedules).run db).2 = db := by
  unfold singleTermIdForSchedules
  split <;> rfl

theorem run_singleTermIdForSchedules_eq_ok {schedules : List Schedule} {term : ℕ} {db' : Db}
    (h : (singleTermIdForSchedules schedules).run db = (.ok term, db')) :
    ∀ c ∈ schedules, c.term = term := by
  unfold singleTermIdForSchedules at h
  split at h <;> cases h
  rename_i hone
  intro c hc
  have hmem : c.term ∈ (schedules.map Schedule.term).dedup :=
    List.mem_dedup.mpr (List.mem_map_of_mem hc)
  rwa [hone, List.mem_singleton] at hmem

/-- Everything before the block that writes the request only reads. -/
theorem run_submitModalityShift_cases (db : Db) (pk : ℕ) (faculty : User) (schedules : List Schedule)
    (target : Option Modality) (windowStart windowEnd : ℤ) (preferred : ℕ → Option ℕ)
    (time : Option (TimeOfDay × TimeOfDay)) (now : ℤ) :
    (∃ e, (submitModalityShift pk faculty schedules target windowStart windowEnd preferred time
      now).run db = (.error e, db)) ∨
    ∃ term target' dean rooms, (∀ c ∈ schedules, c.term = term) ∧
      (submitModalityShift pk faculty schedules target windowStart windowEnd preferred time now).run
          db =
        (writeRequest pk faculty schedules term target' windowStart windowEnd time dean rooms).run
          db := by
  generalize hend : (submitModalityShift pk faculty schedules target windowStart windowEnd preferred
    time now).run db = r
  unfold submitModalityShift at hend
  split at hend
  · exact .inl ⟨_, hend.symm⟩
  rcases Prog.run_bind_cases_of_reads (run_singleTermIdForSchedules db schedules) _ with
    ⟨e, hrun⟩ | ⟨term, hterm, hrun⟩
  · exact .inl ⟨e, hend.symm.trans hrun⟩
  have hone := run_singleTermIdForSchedules_eq_ok hterm
  replace hend := hrun.symm.trans hend
  cases target with
  | none => exact .inl ⟨_, hend.symm⟩
  | some target =>
    dsimp only at hend
    split at hend
    · exact .inl ⟨_, hend.symm⟩
    rcases Prog.run_bind_cases_of_reads (run_forEach_of_reads (l := schedules)
        (run_checkNoRequest faculty.id now)) _ with ⟨e, hrun⟩ | ⟨_, -, hrun⟩
    · exact .inl ⟨e, hend.symm.trans hrun⟩
    replace hend := hrun.symm.trans hend
    split at hend
    · exact .inl ⟨_, hend.symm⟩
    rw [Prog.run_bind_of_ok (run_gatherSessions _ _ _)] at hend
    split at hend
    · exact .inl ⟨_, hend.symm⟩
    rw [Prog.run_select_bind] at hend
    split at hend
    · rw [Prog.run_select_bind] at hend
      split at hend
      · exact .inl ⟨_, hend.symm⟩
      rename_i dean _
      -- with the rooms looked up, what is left is the block
      have hrest : ∀ own : List (ℕ × List Session), (do
            let rooms ← validatePreferred preferred own schedules
            writeRequest pk faculty schedules term target windowStart windowEnd time dean.id rooms
            : M ℕ).run db = r →
          (∃ e, r = (.error e, db)) ∨ ∃ term target dean rooms,
            (∀ c ∈ schedules, c.term = term) ∧
              r = (writeRequest pk faculty schedules term target windowStart windowEnd time dean
                rooms).run db := by
        intro own h
        rcases Prog.run_bind_cases_of_reads (run_validatePreferred preferred own schedules) _ with
          ⟨e, hrun⟩ | ⟨rooms, -, hrun⟩
        · exact .inl ⟨e, h.symm.trans hrun⟩
        · exact .inr ⟨term, target, dean.id, rooms, hone, h.symm.trans hrun⟩
      cases time with
      | none => exact hrest _ hend
      | some time =>
        rcases Prog.run_bind_cases_of_reads (run_forEach_of_reads
          (run_checkNewTime faculty.id time)) _ with ⟨e, hrun⟩ | ⟨_, -, hrun⟩
        · exact .inl ⟨e, hend.symm.trans hrun⟩
        · exact hrest _ (hrun.symm.trans hend)
    · exact .inl ⟨_, hend.symm⟩

end

end FluxTrack
