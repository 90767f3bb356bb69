import FluxTrack.Process.Bids
import FluxTrack.Scheduling.ShiftRequests
import FluxTrack.System

/-!
# One open request for a class

A submission first looks for a request of the same faculty member that is pending on one of the
classes. It locks the term of the classes only after that, and it does not look again under the
lock. Two submissions that both look before either has committed both go through, one after the
other, and leave two pending requests for the class; this is the only way to a second one.

## Main definitions

* `Db.OneOpenRequest` — no two pending requests of the faculty member cover one class
* `openRequests` — the pending requests of a faculty member as a ledger
* `Submission` — a call of `submit_modality_shift`

## Main results

* `every_submission` — all a submission does is enter its request for its classes
* `not_bids_submission` — it looks for a pending request on every one of them first
* `oneOpenRequest_exec` — without rivals there is never a second open request
* `openRequest_doubled` — two submissions that look at the same time
-/

namespace FluxTrack

open Calendar Relational Process

namespace Db

/-- The request is pending, of the faculty member, and covers the class. -/
def OpenFor (db : Db) (faculty : ℕ) (r : ModalityShiftRequest) (schedule : ℕ) : Prop :=
  r.requester = faculty ∧ r.status = .pending ∧
    ∃ i ∈ db.items, i.request = r.id ∧ i.schedule = schedule

instance (db : Db) (faculty : ℕ) (r : ModalityShiftRequest) (schedule : ℕ) :
    Decidable (db.OpenFor faculty r schedule) :=
  inferInstanceAs (Decidable (_ ∧ _ ∧ ∃ i ∈ db.items.rows, i.request = r.id ∧ i.schedule = schedule))

/-- No class has two pending requests of the faculty member. -/
def OneOpenRequest (db : Db) (faculty : ℕ) : Prop :=
  ∀ r ∈ db.requests, ∀ r' ∈ db.requests, ∀ schedule,
    db.OpenFor faculty r schedule → db.OpenFor faculty r' schedule → r = r'

/-- Every item is of a stored request. -/
def ItemsLinked (db : Db) : Prop := ∀ i ∈ db.items, ∃ r ∈ db.requests, r.id = i.request

end Db

/-- The open requests of a faculty member: who holds a class is a pending request for it. -/
def openRequests (faculty : ℕ) : Ledger Db ℕ ℕ where
  Valid := Db.ItemsLinked
  Holds db schedule pk := ∃ r ∈ db.requests, r.id = pk ∧ db.OpenFor faculty r schedule

/-- The ledger keeps the requests apart by their keys. -/
theorem oneHolder_iff {db : Db} {faculty : ℕ} :
    (openRequests faculty).OneHolder db ↔ db.OneOpenRequest faculty := by
  constructor
  · intro h r hr r' hr' schedule hopen hopen'
    exact Table.eq_of_key_eq hr hr' (h schedule r.id r'.id ⟨r, hr, rfl, hopen⟩ ⟨r', hr', rfl, hopen'⟩)
  · rintro h schedule _ _ ⟨r, hr, rfl, hopen⟩ ⟨r', hr', rfl, hopen'⟩
    exact congrArg ModalityShiftRequest.id (h r hr r' hr' schedule hopen hopen')

/-! ### What a submission enters -/

section

variable {N : (Db → Db) → Prop} {faculty h : ℕ} {S : Set ℕ}

theorem every_singleTermIdForSchedules (schedules : List Schedule) :
    (singleTermIdForSchedules schedules).Every N := by
  unfold singleTermIdForSchedules
  split <;> trivial

theorem every_checkNoRequest (hN : N id) (now : ℤ) (c : Schedule) :
    (checkNoRequest faculty now c).Every N := by
  refine (Prog.every_select hN _).bind fun recent => ?_
  split <;> trivial

theorem every_gatherSessions (hN : N id) (a b : ℤ) (schedules : List Schedule) :
    (gatherSessions a b schedules).Every N := by
  induction schedules with
  | nil => trivial
  | cons c rest ih => exact (Prog.every_select hN _).bind fun _ => ih.bind fun _ => trivial

theorem every_checkNewTime (hN : N id) (time : TimeOfDay × TimeOfDay) (s : Session) :
    (checkNewTime faculty time s).Every N := by
  refine (Prog.every_select hN _).bind fun clash => ?_
  split <;> trivial

theorem every_roomFreeForAll (hN : N id) (room : ℕ) (sessions : List Session) :
    (roomFreeForAll room sessions).Every N := by
  induction sessions with
  | nil => trivial
  | cons s rest ih =>
    refine (Prog.every_select hN _).bind fun rooms => ?_
    split
    · exact ih
    · trivial

theorem every_validatePreferred (hN : N id) (preferred : ℕ → Option ℕ)
    (sessions : List (ℕ × List Session)) (schedules : List Schedule) :
    (validatePreferred preferred sessions schedules).Every N := by
  induction schedules with
  | nil => trivial
  | cons c rest ih =>
    rw [validatePreferred]
    split
    · exact ih
    · dsimp only
      split
      · exact ih.bind fun _ => trivial
      · exact (every_roomFreeForAll hN _ _).bind fun _ => ih.bind fun _ => trivial

theorem every_lockWritableTerm (hN : N id) (term : ℕ) : (lockWritableTerm term).Every N := by
  have hlock : (lockTerm term).Every N := by
    refine (Prog.every_select hN _).bind fun found => ?_
    cases found <;> trivial
  refine hlock.bind fun t => ?_
  split <;> trivial

/-- A new request has no items yet. -/
theorem adds_createRequest {r : ModalityShiftRequest} :
    (openRequests faculty).Adds h S fun db => { db with requests := db.requests.add r } where
  valid db hdb i hi := by
    obtain ⟨r', hr', hid⟩ := hdb i hi
    exact ⟨r', Table.mem_add.mpr (.inl hr'), hid⟩
  keeps db c pk _ hx := by
    obtain ⟨r', hr', hid, hopen⟩ := hx
    exact ⟨r', Table.mem_add.mpr (.inl hr'), hid, hopen⟩
  only db c pk hdb hx := by
    left
    obtain ⟨r', hr', hid, hopen⟩ := hx
    rcases Table.mem_add.mp hr' with hold | ⟨rfl, hfresh⟩
    · exact ⟨r', hold, hid, hopen⟩
    · -- an item with the new key would be of a stored request
      obtain ⟨-, -, i, hi, hreq, -⟩ := hopen
      obtain ⟨r'', hr'', hid''⟩ := hdb i hi
      exact absurd (List.mem_map.mpr ⟨r'', hr'', hid''.trans hreq⟩) hfresh

/-- An item enters its request for its class. -/
theorem adds_insertItem (request : ℕ) (preferred : List (ℕ × Option ℕ))
    (time : Option (TimeOfDay × TimeOfDay)) (c : Schedule) :
    (openRequests faculty).Adds request {c.id} fun db =>
      db.insertItem request preferred time c where
  valid db hdb := by
    rw [Db.insertItem]
    split
    · rename_i hlinked
      intro i hi
      rcases Table.mem_insert.mp hi with hold | rfl
      · exact hdb i hold
      · obtain ⟨r, hr⟩ := Option.isSome_iff_exists.mp hlinked
        exact ⟨r, Table.get?_eq_some_iff.mp hr⟩
    · exact hdb
  keeps db x pk _ hx := by
    obtain ⟨r, hr, hid, hreq, hstatus, i, hi, hir, hix⟩ := hx
    rw [Db.insertItem]
    split
    · exact ⟨r, hr, hid, hreq, hstatus, i, Table.mem_insert.mpr (.inl hi), hir, hix⟩
    · exact ⟨r, hr, hid, hreq, hstatus, i, hi, hir, hix⟩
  only db x pk _ hx := by
    rw [Db.insertItem] at hx
    split at hx
    · obtain ⟨r, hr, rfl, hreq, hstatus, i, hi, hir, hix⟩ := hx
      rcases Table.mem_insert.mp hi with hold | rfl
      · exact .inl ⟨r, hr, rfl, hreq, hstatus, i, hold, hir, hix⟩
      · exact .inr ⟨hix.symm, hir.symm⟩
    · exact .inl hx

/-- A change of neither the requests nor the items. -/
theorem adds_of_eq {u : Db → Db} (hrequests : ∀ db, (u db).requests = db.requests)
    (hitems : ∀ db, (u db).items = db.items) : (openRequests faculty).Adds h S u := by
  refine Ledger.adds_of_same (fun db hdb i hi => ?_) fun db c pk => ?_
  · rw [hitems] at hi
    rw [hrequests]
    exact hdb i hi
  · simp only [openRequests, Db.OpenFor, hrequests, hitems]

theorem every_createAudit (actor : Option ℕ) (event : AuditEvent) :
    (createAudit actor event).Every ((openRequests faculty).Adds h S) :=
  Prog.every_modify (adds_of_eq (fun _ => rfl) fun _ => rfl)

theorem every_notifyUsers (users : List ℕ) (notice : Notice) :
    (notifyUsers users notice).Every ((openRequests faculty).Adds h S) :=
  Prog.every_modify (adds_of_eq (fun _ => rfl) fun _ => rfl)

end

/-- A call of `submit_modality_shift` with the key that the database hands out for it. -/
structure Submission where
  pk : ℕ
  faculty : User
  schedules : List Schedule
  target : Option Modality
  windowStart : ℤ
  windowEnd : ℤ
  preferred : ℕ → Option ℕ
  time : Option (TimeOfDay × TimeOfDay)
  now : ℤ

namespace Submission

/-- The program of the call. -/
def prog (s : Submission) : M ℕ :=
  submitModalityShift s.pk s.faculty s.schedules s.target s.windowStart s.windowEnd s.preferred
    s.time s.now

/-- The classes the call is about. -/
def classes (s : Submission) : Set ℕ := { x | ∃ c ∈ s.schedules, c.id = x }

end Submission

section

variable {faculty x : ℕ} {db : Db}

theorem every_writeRequest (pk : ℕ) (user : User) (schedules : List Schedule) (term : ℕ)
    (target : Modality) (a b : ℤ) (time : Option (TimeOfDay × TimeOfDay)) (dean : ℕ)
    (preferred : List (ℕ × Option ℕ)) :
    (writeRequest pk user schedules term target a b time dean preferred).Every
      ((openRequests faculty).Adds pk { x | ∃ c ∈ schedules, c.id = x }) := by
  refine Prog.Every.atomic Ledger.adds_id ?_
  refine (every_lockWritableTerm Ledger.adds_id term).bind fun _ => Prog.Every.bind ?_ fun _ =>
    Prog.Every.bind (Prog.Every.forEach fun c hc => ?_) fun _ => ?_
  · refine (Prog.every_modifyGet adds_createRequest _).bind fun fresh => ?_
    split <;> trivial
  · have hclass : {c.id} ⊆ { x | ∃ c ∈ schedules, c.id = x } :=
      Set.singleton_subset_iff.mpr ⟨c, hc, rfl⟩
    have hitem : (openRequests faculty).Adds pk _ _ :=
      (adds_insertItem pk preferred time c).mono hclass
    refine (Prog.every_modifyGet hitem _).bind fun linked => ?_
    split <;> trivial
  · exact (every_createAudit _ _).bind fun _ => (every_notifyUsers _ _).bind fun _ => trivial

/-- A submission enters its request for its classes and nothing else. -/
theorem every_submission (s : Submission) :
    s.prog.Every ((openRequests faculty).Adds s.pk s.classes) := by
  unfold Submission.prog submitModalityShift
  split
  · trivial
  refine (every_singleTermIdForSchedules _).bind fun term => ?_
  cases s.target with
  | none => trivial
  | some target =>
    dsimp only
    split
    · trivial
    refine (Prog.Every.forEach fun c _ => every_checkNoRequest Ledger.adds_id _ c).bind fun _ => ?_
    split
    · trivial
    refine (every_gatherSessions Ledger.adds_id _ _ _).bind fun sessions => ?_
    split
    · trivial
    refine (Prog.every_select Ledger.adds_id _).bind fun early => ?_
    split
    · refine (Prog.every_select Ledger.adds_id _).bind fun found => ?_
      cases found with
      | none => trivial
      | some dean =>
        -- up to the dean everything only reads; the writes come last
        have hrest : ∀ rooms, (writeRequest s.pk s.faculty s.schedules term target s.windowStart
            s.windowEnd s.time dean.id rooms).Every
              ((openRequests faculty).Adds s.pk s.classes) := fun rooms =>
          every_writeRequest _ _ _ _ _ _ _ _ _ _
        cases hmove : s.time with
        | none => exact (every_validatePreferred Ledger.adds_id _ _ _).bind (hmove ▸ hrest)
        | some time =>
          refine (Prog.Every.forEach fun c _ => every_checkNewTime Ledger.adds_id _ c).bind
            fun _ => ?_
          exact (every_validatePreferred Ledger.adds_id _ _ _).bind (hmove ▸ hrest)
    · trivial

/-! ### What it looks for first -/

theorem recentRequest_of_held (h : (openRequests faculty).Held db x) (now : ℤ) :
    db.recentRequest faculty x now = true := by
  obtain ⟨pk, r, hr, rfl, hreq, hstatus, i, hi, hir, hix⟩ := h
  refine List.any_eq_true.mpr ⟨r, hr, ?_⟩
  have hitem : (db.items.rows.any fun i => i.request == r.id && i.schedule == x) = true :=
    List.any_eq_true.mpr ⟨i, hi, by simp [hir, hix]⟩
  simp [hreq, hstatus, hitem]

/-- The guard does not let a class through that has a pending request. -/
theorem not_passes_checkNoRequest (now : ℤ) (c : Schedule) :
    ¬ (checkNoRequest faculty now c).Passes
      (fun db => (openRequests faculty).Valid db ∧ (openRequests faculty).Held db c.id) ⟨⟩ := by
  intro hpass
  obtain ⟨db, ⟨-, hheld⟩, hrest⟩ := Prog.Passes.of_select_bind hpass
  rw [recentRequest_of_held hheld now, if_pos rfl] at hrest
  exact hrest

/-- Without the guards no submission gets to its block. -/
theorem not_bids_submission (s : Submission) (x : ℕ) :
    ¬ s.prog.Bids (openRequests s.faculty.id) x := by
  by_cases hx : x ∈ s.classes
  swap
  · exact Prog.not_bids_of_every (every_submission s) hx
  obtain ⟨c, hc, rfl⟩ := hx
  -- what only reads does not bid
  have hreads : ∀ {α : Type} {p : M α},
      p.Every ((openRequests s.faculty.id).Adds 0 ∅) → ¬ p.Bids (openRequests s.faculty.id) c.id :=
    fun hp => Prog.not_bids_of_every hp (Set.notMem_empty _)
  unfold Submission.prog submitModalityShift
  split
  · exact id
  intro hbids
  rcases Prog.bids_bind hbids with hterm | ⟨term, -, hbids⟩
  · exact hreads (every_singleTermIdForSchedules _) hterm
  cases htarget : s.target with
  | none =>
    rw [htarget] at hbids
    exact hbids
  | some target =>
    rw [htarget] at hbids
    dsimp only at hbids
    split at hbids
    · exact hbids
    rcases Prog.bids_bind hbids with hguard | ⟨_, hpass, -⟩
    · exact hreads (Prog.Every.forEach fun c _ => every_checkNoRequest Ledger.adds_id _ c) hguard
    · exact not_passes_checkNoRequest s.now c (hpass.of_forEach c hc)

end

/-! ### Submissions at the same time -/

/-- In every interleaving of submissions by one faculty member in which no two of them, at any
moment, are past the guard for the same class without having committed or given up, no class
ever has two pending requests. -/
theorem oneOpenRequest_exec {ι : Type*} [Fintype ι] [DecidableEq ι] (faculty : ℕ)
    (calls : ι → Submission) (hby : ∀ i, (calls i).faculty.id = faculty) (db : Db)
    (hlinked : db.ItemsLinked) (hone : db.OneOpenRequest faculty) (schedule : List ι)
    (hrivals : ∀ l, l <+: schedule →
      ((Pool.start db fun i => (calls i).prog).exec l).NoRivals (openRequests faculty)) :
    ((Pool.start db fun i => (calls i).prog).exec schedule).store.OneOpenRequest faculty := by
  have hstart : (Pool.start db fun i => (calls i).prog).Sole (openRequests faculty)
      fun i => (calls i).pk := by
    refine Pool.sole_start hlinked (oneHolder_iff.mpr hone) (fun i => ?_) fun i x => ?_
    · exact (every_submission (calls i)).mono fun u hu => hu.mono (Set.subset_univ _)
    · rw [← hby i]
      exact not_bids_submission (calls i) x
  exact oneHolder_iff.mp (Pool.sole_exec hstart schedule hrivals).one

namespace Campus

/-- The teacher of the nine o'clock class. -/
def teacher : User := ⟨1, "Tess", "Teacher", .faculty, some 1, true, false, "tess", ""⟩

/-- The campus with the teacher and the dean of the department. -/
def deaned : Db := { campus with users := ⟨[teacher, dean], by decide⟩ }

/-- The teacher asks twice to give the nine o'clock class online. -/
def submissions (first : Bool) : Submission where
  pk := if first then 1 else 2
  faculty := teacher
  schedules := campus.schedules.rows.take 1
  target := some .online
  windowStart := monday
  windowEnd := monday
  preferred _ := none
  time := none
  now := wallClock (monday - 10) 9 0 0

/-- The request of a submission. -/
def submitted (pk : ℕ) : ModalityShiftRequest :=
  ⟨pk, 1, some 3, some 1, .online, monday, monday, false, .pending, "", none, none⟩

/-- The two submissions before the first statement. -/
def submitStart : Pool Bool RowLock Db Err ℕ := .start deaned fun i => (submissions i).prog

/-- The second submission is made between the guard and the block of the first. -/
def submitBetween : List Bool :=
  List.replicate 3 true ++ List.replicate 20 false ++ List.replicate 20 true

theorem itemsLinked_deaned : deaned.ItemsLinked := fun _ hi => absurd hi List.not_mem_nil

theorem oneOpenRequest_deaned : deaned.OneOpenRequest 1 :=
  fun _ hr => absurd hr List.not_mem_nil

end Campus

open Campus in
/-- The first submission goes through while the second has not begun. -/
theorem oneOpenRequest_exec_alone :
    (submitStart.exec (List.replicate 20 true)).store.requests.rows = [submitted 1] ∧
      (submitStart.exec (List.replicate 20 true)).store.OneOpenRequest 1 := by
  refine ⟨by decide +kernel, oneOpenRequest_exec 1 submissions (fun _ => rfl) deaned
    itemsLinked_deaned oneOpenRequest_deaned (List.replicate 20 true) fun l hl i j x hi hj => ?_⟩
  have hfalse : false ∉ l := fun hmem => by
    have htrue := List.eq_of_mem_replicate (hl.subset hmem)
    cases htrue
  -- the second submission has not moved
  have hidle : ¬ ((submitStart.exec l).threads false).Bids (openRequests 1) x := by
    rw [Pool.threads_exec_of_notMem hfalse]
    exact fun hbids => not_bids_submission (submissions false) x (Pool.bids_start hbids)
  cases i with
  | false => exact absurd hi hidle
  | true =>
    cases j with
    | false => exact absurd hj hidle
    | true => rfl

open Campus in
/-- Two submissions that both look before either has committed leave two open requests. -/
theorem openRequest_doubled :
    ¬ ∀ (faculty : ℕ) (calls : Bool → Submission), (∀ i, (calls i).faculty.id = faculty) →
      ∀ db : Db, db.ItemsLinked → db.OneOpenRequest faculty → ∀ schedule : List Bool,
        ((Pool.start db fun i => (calls i).prog).exec schedule).store.OneOpenRequest faculty := by
  intro h
  have hone := h 1 submissions (fun _ => rfl) deaned itemsLinked_deaned oneOpenRequest_deaned
    submitBetween
  have hrows : (submitStart.exec submitBetween).store.requests.rows = [submitted 2, submitted 1] := by
    decide +kernel
  have hopen : ∀ pk ∈ [1, 2],
      (submitStart.exec submitBetween).store.OpenFor 1 (submitted pk) 1 := by
    decide +kernel
  have hmem : ∀ pk ∈ [1, 2], submitted pk ∈ (submitStart.exec submitBetween).store.requests.rows := by
    rw [hrows]
    decide
  have hsame := hone (submitted 1) (hmem 1 (by decide)) (submitted 2) (hmem 2 (by decide)) 1
    (hopen 1 (by decide)) (hopen 2 (by decide))
  exact absurd hsame (by decide)

end FluxTrack
