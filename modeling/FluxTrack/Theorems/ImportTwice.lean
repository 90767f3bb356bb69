import FluxTrack.Process.Repeats
import FluxTrack.System
import FluxTrack.Theorems.ImportPreview

/-!
# Importing a grid twice

The importer looks up every row before it makes it. What a run has found or made is the only
answer to its lookup, and it stays the only one, since a row is made only where a lookup has
no answer. So the same grid finds everything the second time.

## Main definitions

* `Lookup`, `Db.answers` — the lookups of the importer
* `Db.Keeps` — the lookups with one answer keep it

## Main results

* `import_again`
-/

namespace FluxTrack

open Calendar Relational Process

/-! ### Lookups -/

/-- What the importer looks up: a user by e-mail or by user name, a building by code, a floor by
building and number, a room by code, and a class by its term, course, section, day, room and
start. -/
inductive Lookup
  | email (e : String) (he : e ≠ "")
  | username (name : String)
  | building (code : String)
  | floor (building : ℕ) (number : ℤ)
  | room (code : String)
  | schedule (term : ℕ) (courseCode sectionName : String) (day room : ℕ) (startTime : TimeOfDay)

/-- The primary keys a lookup finds. -/
def Db.answers (db : Db) : Lookup → List ℕ
  | .email e _ => (db.users.rows.filter fun u => u.email == e).map key
  | .username name => (db.users.rows.filter fun u => u.username == name).map key
  | .building code => (db.buildings.rows.filter fun b => b.code == code).map key
  | .floor building number =>
    (db.floors.rows.filter fun f => f.building == building && f.number == number).map key
  | .room code => (db.rooms.rows.filter fun r => r.code == code).map key
  | .schedule term courseCode sectionName day room startTime =>
    (db.schedules.rows.filter fun s =>
      s.term == term && s.courseCode == courseCode && s.sectionName == sectionName &&
        s.dayOfWeek == day && s.room == room && s.startTime == startTime).map key

/-- The terms stay, and every lookup with one answer keeps it. -/
structure Db.Keeps (db db' : Db) : Prop where
  terms : db'.terms = db.terms
  answers : ∀ l k, db.answers l = [k] → db'.answers l = [k]

theorem Db.Keeps.kind : Prog.Kind Db.Keeps where
  refl _ := ⟨rfl, fun _ _ h => h⟩
  trans _ _ _ h h' := ⟨h'.terms.trans h.terms, fun l k hl => h'.answers l k (h.answers l k hl)⟩

section

variable {α : Type} [Keyed α] {t : Table α} {mk : ℕ → α} {hmk : ∀ n, key (mk n) = n}
  {q : α → Bool} {k : ℕ}

/-- A new row spoils no lookup that has an answer, if the lookups it answers had none. -/
theorem answer_insert (hnew : q (mk t.nextKey) = true → t.rows.filter q = [])
    (h : (t.rows.filter q).map key = [k]) : ((t.insert mk hmk).rows.filter q).map key = [k] := by
  have hother : q (mk t.nextKey) = false := by
    refine Bool.eq_false_iff.mpr fun hyes => ?_
    rw [hnew hyes] at h
    cases h
  rw [Table.filter_insert hother, h]

/-- A new row is the only answer to a lookup that had none. -/
theorem answer_new (hnone : t.rows.filter q = []) (hnew : q (mk t.nextKey) = true) :
    ((t.insert mk hmk).rows.filter q).map key = [t.nextKey] := by
  rw [Table.rows_insert, List.filter_append, hnone, List.filter_cons_of_pos hnew,
    List.nil_append, List.filter_nil, List.map_singleton, hmk]

/-- What is found or made is found again, if making it spoils no lookup. -/
theorem repeats_getOrCreate {find : Db → List α} {create create' : M ℕ} {l : Lookup}
    (hfind : ∀ db, (find db).map key = db.answers l)
    (hcreate : ∀ db k db', find db = [] → create.run db = (.ok k, db') →
      db.Keeps db' ∧ (find db').map key = [k]) :
    (getOrCreate find create).Repeats Db.Keeps (getOrCreate find create') := by
  have hfound : ∀ db k, (find db).map key = [k] →
      ∀ c, (getOrCreate find c).run db = (.ok k, db) := by
    intro db k hk c
    obtain ⟨row, hrow, rfl⟩ := List.map_eq_singleton_iff.mp hk
    rw [getOrCreate, Prog.run_select_bind, hrow]
    rfl
  have hkeep : ∀ db k db', (find db).map key = [k] → db.Keeps db' →
      (getOrCreate find create').run db' = (.ok k, db') := by
    intro db k db' hk hdb
    refine hfound db' k ?_ create'
    rw [hfind] at hk ⊢
    exact hdb.answers l k hk
  -- nothing found: it is made now, and found in every later state; found once: nothing is made
  intro db k db' h
  cases hrows : find db with
  | nil =>
    rw [getOrCreate, Prog.run_select_bind, hrows] at h
    obtain ⟨hdb, hk⟩ := hcreate db k db' hrows h
    exact ⟨hdb, fun t ht => hkeep db' k t hk ht⟩
  | cons row rest =>
    cases rest with
    | nil =>
      have hk : (find db).map key = [key row] := congrArg (List.map key) hrows
      rw [hfound db (key row) hk] at h
      cases h
      exact ⟨Db.Keeps.kind.refl db, fun t ht => hkeep db (key row) t hk ht⟩
    | cons row' rest =>
      rw [getOrCreate, Prog.run_select_bind, hrows] at h
      cases h

end

/-- What the making keeps is kept. -/
theorem makes_getOrCreate {α : Type} [Keyed α] {R : Db → Db → Prop} (hR : Prog.Kind R)
    {find : Db → List α} {create : M ℕ} (h : create.Makes R) :
    (getOrCreate find create).Makes R := by
  refine Prog.makes_select_bind fun rows => ?_
  split
  · exact h
  · exact Prog.makes_pure hR _
  · exact Prog.makes_raise hR _

/-- A meeting writes only what lies on the campus, and classes. -/
theorem makes_importMeeting {R : Db → Db → Prop} (hR : Prog.Kind R)
    (hplaces : ∀ (db : Db) buildings floors rooms schedules, R db { db with
      buildings := buildings, floors := floors, rooms := rooms, schedules := schedules })
    (term faculty : ℕ) (row : PlannedRow) (m : PlannedMeeting) :
    (importMeeting term faculty row m).Makes R := by
  have hroom : (roomFor m).Makes R := by
    refine (makes_getOrCreate hR fun db => ?_).bind hR fun building => ?_
    · exact hplaces db _ db.floors db.rooms db.schedules
    refine (makes_getOrCreate hR fun db => ?_).bind hR fun floor => ?_
    · exact hplaces db db.buildings _ db.rooms db.schedules
    · exact makes_getOrCreate hR fun db => hplaces db db.buildings db.floors _ db.schedules
  refine hroom.bind hR fun room => ?_
  refine (makes_getOrCreate hR fun db => ?_).bind hR fun _ => Prog.makes_pure hR _
  exact hplaces db db.buildings db.floors db.rooms _

/-! ### The rows of a run -/

theorem run_createUser_eq_ok {row : PlannedRow} {db db' : Db} {k : ℕ}
    (h : (createUser row).run db = (.ok k, db')) :
    (db.users.rows.filter fun u => u.username == row.username) = [] ∧ k = db.users.nextKey ∧
      db' = { db with
        users := db.users.insert fun pk =>
          ⟨pk, row.firstName, row.lastName, .faculty, none, true, false, row.username,
            row.email⟩ } := by
  unfold createUser at h
  rw [Prog.run_select_bind] at h
  split at h
  · cases h
  · rename_i hfree
    cases h
    refine ⟨?_, rfl, ?_⟩
    · rw [Bool.not_eq_true, List.any_eq_false] at hfree
      exact List.filter_eq_nil_iff.mpr hfree
    · -- the names are written into the row that was just made
      refine congrArg (fun users => { db with users := users }) ?_
      exact Table.update_insert
        (fun u hu => beq_false_of_ne (Table.key_lt_nextKey hu).ne) (beq_self_eq_true _)

/-- A user made under a name that was free and an e-mail that was free or is blank. -/
theorem keeps_createUser {row : PlannedRow} {db db' : Db} {k : ℕ}
    (hemail : row.email ≠ "" → (db.users.rows.filter fun u => u.email == row.email) = [])
    (h : (createUser row).run db = (.ok k, db')) :
    db.Keeps db' ∧ db'.answers (.username row.username) = [k] ∧
      ∀ he : row.email ≠ "", db'.answers (.email row.email he) = [k] := by
  obtain ⟨hfree, rfl, rfl⟩ := run_createUser_eq_ok h
  refine ⟨⟨rfl, fun l n hl => ?_⟩, answer_new hfree (beq_self_eq_true _),
    fun he => answer_new (hemail he) (beq_self_eq_true _)⟩
  -- a new user answers lookups of users only, by its two names
  cases l with
  | email e he =>
    refine answer_insert (fun heq => ?_) hl
    obtain rfl : row.email = e := eq_of_beq heq
    exact hemail he
  | username name =>
    refine answer_insert (fun heq => ?_) hl
    obtain rfl : row.username = name := eq_of_beq heq
    exact hfree
  | building _ => exact hl
  | floor _ _ => exact hl
  | room _ => exact hl
  | schedule _ _ _ _ _ _ => exact hl

/-- A meeting without what is minted for its room. -/
def PlannedMeeting.unminted (m : PlannedMeeting) : PlannedMeeting :=
  { m with qrToken := "", manualCode := "" }

/-- A row without what is minted for its rooms. -/
def PlannedRow.unminted (row : PlannedRow) : PlannedRow :=
  { row with meetings := row.meetings.map PlannedMeeting.unminted }

section

variable {row row' : PlannedRow} {m m' : PlannedMeeting}

theorem repeats_facultyFor (h : row.unminted = row'.unminted) (cache : List (String × ℕ)) :
    (facultyFor row cache).Repeats Db.Keeps (facultyFor row' cache) := by
  obtain ⟨email, nameKey, username, firstName, lastName, courseCode, sectionName, enrolled, ms⟩ :=
    row
  obtain ⟨_, _, _, _, _, _, _, _, ms'⟩ := row'
  simp only [PlannedRow.unminted, PlannedRow.mk.injEq] at h
  obtain ⟨rfl, rfl, rfl, rfl, rfl, rfl, rfl, rfl, -⟩ := h
  unfold facultyFor
  dsimp only
  -- with an e-mail the user is looked up by it, else by name unless the run has met the name
  split
  · rename_i he
    refine Prog.Repeats.bind Db.Keeps.kind ?_ fun pk => Prog.repeats_pure Db.Keeps.kind _
    refine repeats_getOrCreate (l := .email email he) (fun _ => rfl) fun db k db' hnone hrun => ?_
    obtain ⟨hkeeps, -, hanswer⟩ := keeps_createUser (fun _ => hnone) hrun
    exact ⟨hkeeps, hanswer he⟩
  · rename_i he
    cases cache.find? fun e => e.1 == nameKey with
    | some e => exact Prog.repeats_pure Db.Keeps.kind _
    | none =>
      refine Prog.Repeats.bind Db.Keeps.kind ?_ fun pk => Prog.repeats_pure Db.Keeps.kind _
      refine repeats_getOrCreate (l := .username username) (fun _ => rfl)
        fun db k db' hnone hrun => ?_
      obtain ⟨hkeeps, hanswer, -⟩ := keeps_createUser (fun hne => absurd hne he) hrun
      exact ⟨hkeeps, hanswer⟩

theorem repeats_roomFor (h : m.unminted = m'.unminted) :
    (roomFor m).Repeats Db.Keeps (roomFor m') := by
  obtain ⟨day, startTime, endTime, modality, roomCode, buildingCode, buildingName, floor, _, _⟩ := m
  obtain ⟨_, _, _, _, _, _, _, _, _, _⟩ := m'
  simp only [PlannedMeeting.unminted, PlannedMeeting.mk.injEq] at h
  obtain ⟨rfl, rfl, rfl, rfl, rfl, rfl, rfl, rfl, -⟩ := h
  -- building, floor and room, each found by what the one before has answered
  refine Prog.Repeats.bind Db.Keeps.kind ?_ fun building => ?_
  · refine repeats_getOrCreate (l := .building buildingCode) (fun _ => rfl)
      fun db k db' hnone hrun => ?_
    cases hrun
    refine ⟨⟨rfl, fun l n hl => ?_⟩, answer_new hnone (beq_self_eq_true _)⟩
    cases l with
    | building code =>
      refine answer_insert (fun heq => ?_) hl
      obtain rfl : buildingCode = code := eq_of_beq heq
      exact hnone
    | _ => exact hl
  refine Prog.Repeats.bind Db.Keeps.kind ?_ fun floorPk => ?_
  · refine repeats_getOrCreate (l := .floor building floor) (fun _ => rfl)
      fun db k db' hnone hrun => ?_
    cases hrun
    refine ⟨⟨rfl, fun l n hl => ?_⟩, answer_new hnone (by simp)⟩
    cases l with
    | floor b f =>
      refine answer_insert (fun heq => ?_) hl
      obtain ⟨rfl, rfl⟩ : building = b ∧ floor = f := by simpa using heq
      exact hnone
    | _ => exact hl
  · refine repeats_getOrCreate (l := .room roomCode) (fun _ => rfl) fun db k db' hnone hrun => ?_
    cases hrun
    refine ⟨⟨rfl, fun l n hl => ?_⟩, answer_new hnone (beq_self_eq_true _)⟩
    cases l with
    | room code =>
      refine answer_insert (fun heq => ?_) hl
      obtain rfl : roomCode = code := eq_of_beq heq
      exact hnone
    | _ => exact hl

theorem repeats_getOrCreateSchedule (hrow : row.unminted = row'.unminted)
    (hm : m.unminted = m'.unminted) (term faculty room : ℕ) :
    (getOrCreateSchedule term faculty room row m).Repeats Db.Keeps
      (getOrCreateSchedule term faculty room row' m') := by
  obtain ⟨_, _, _, _, _, courseCode, sectionName, _, _⟩ := row
  obtain ⟨_, _, _, _, _, _, _, _, _⟩ := row'
  obtain ⟨day, startTime, _, _, _, _, _, _, _, _⟩ := m
  obtain ⟨_, _, _, _, _, _, _, _, _, _⟩ := m'
  simp only [PlannedRow.unminted, PlannedRow.mk.injEq] at hrow
  simp only [PlannedMeeting.unminted, PlannedMeeting.mk.injEq] at hm
  obtain ⟨-, -, -, -, -, rfl, rfl, -, -⟩ := hrow
  obtain ⟨rfl, rfl, -⟩ := hm
  refine repeats_getOrCreate (l := .schedule term courseCode sectionName day room startTime)
    (fun _ => rfl) fun db k db' hnone hrun => ?_
  cases hrun
  refine ⟨⟨rfl, fun l n hl => ?_⟩, answer_new hnone (by simp)⟩
  cases l with
  | schedule t c sec d r st =>
    refine answer_insert (fun heq => ?_) hl
    simp only [Bool.and_eq_true, beq_iff_eq] at heq
    obtain ⟨⟨⟨⟨⟨rfl, rfl⟩, rfl⟩, rfl⟩, rfl⟩, rfl⟩ := heq
    exact hnone
  | _ => exact hl

theorem repeats_importMeeting (hrow : row.unminted = row'.unminted)
    (hm : m.unminted = m'.unminted) (term faculty : ℕ) :
    (importMeeting term faculty row m).Repeats Db.Keeps (importMeeting term faculty row' m') := by
  refine (repeats_roomFor hm).bind Db.Keeps.kind fun room => ?_
  refine (repeats_getOrCreateSchedule hrow hm term faculty room).bind Db.Keeps.kind fun _ => ?_
  exact Prog.repeats_pure Db.Keeps.kind _

end

/-- The rows of a grid, looked up again with the credentials minted anew. -/
theorem repeats_importRows (term : ℕ) {rows rows' : List PlannedRow}
    (h : rows.map PlannedRow.unminted = rows'.map PlannedRow.unminted)
    (cache : List (String × ℕ)) :
    (importRows term rows cache).Repeats Db.Keeps (importRows term rows' cache) := by
  -- on the rows, for every cache: both runs hand on the same one
  induction rows generalizing rows' cache with
  | nil =>
    obtain rfl : rows' = [] := List.map_eq_nil_iff.mp h.symm
    exact Prog.repeats_pure Db.Keeps.kind _
  | cons row rest ih =>
    obtain ⟨row', rest', rfl, hrow, hrest⟩ := List.map_eq_cons_iff.mp h.symm
    refine (repeats_facultyFor hrow.symm cache).bind Db.Keeps.kind fun found => ?_
    refine Prog.Repeats.bind Db.Keeps.kind ?_ fun _ => ih hrest.symm found.2
    refine Prog.Repeats.forEach Db.Keeps.kind ?_
    have hmeetings : row.meetings.map PlannedMeeting.unminted =
        row'.meetings.map PlannedMeeting.unminted := congrArg PlannedRow.meetings hrow.symm
    rw [← List.forall₂_eq_eq_eq, List.forall₂_map_left_iff, List.forall₂_map_right_iff] at hmeetings
    exact hmeetings.imp fun m m' hm => repeats_importMeeting hrow.symm hm term found.1

/-! ### The command -/

theorem repeats_resolveTerm (lookup : TermLookup) :
    (resolveTerm lookup).Repeats Db.Keeps (resolveTerm lookup) := by
  cases lookup with
  | blank => exact Prog.repeats_raise _ _
  | pk _ | name _ =>
    refine (Prog.repeats_select Db.Keeps.kind fun db db' h => ?_).bind Db.Keeps.kind fun found => ?_
    · rw [h.terms]
    · cases found with
      | none => exact Prog.repeats_raise _ _
      | some term =>
        dsimp only
        split
        · exact Prog.repeats_raise _ _
        · exact Prog.repeats_pure Db.Keeps.kind term

theorem repeats_importOfferings (lookup : TermLookup) {rows rows' : List PlannedRow}
    (h : rows.map PlannedRow.unminted = rows'.map PlannedRow.unminted) (dryRun : Bool) :
    (importOfferings lookup rows dryRun).Repeats Db.Keeps
      (importOfferings lookup rows' dryRun) := by
  refine (repeats_resolveTerm lookup).bind Db.Keeps.kind fun term => ?_
  split
  · exact Prog.repeats_pure Db.Keeps.kind _
  · exact (repeats_importRows term.id h []).atomic

/-- Applying a function to what is read from a list reads the list through that function. -/
theorem map_mapM_option {α β γ : Type} (f : α → Option β) (g : β → γ) (l : List α) :
    (l.mapM f).map (List.map g) = l.mapM fun a => (f a).map g := by
  induction l with
  | nil => rfl
  | cons a l ih =>
    rw [List.mapM_cons, List.mapM_cons, ← ih]
    cases f a with
    | none => rfl
    | some b => cases l.mapM f <;> rfl

/-- What is planned does not depend on what is minted. -/
theorem unminted_plannedRows (tables : TextTables) (col : String → Option ℕ)
    (mint mint' : ℕ → ℕ → String × String) (plans : List PlannedSection) :
    (plannedRows tables col mint plans).map (List.map PlannedRow.unminted) =
      (plannedRows tables col mint' plans).map (List.map PlannedRow.unminted) := by
  rw [plannedRows, plannedRows, map_mapM_option, map_mapM_option]
  congr 1
  funext p
  rw [plannedRow, plannedRow, Option.map_map, Option.map_map]
  congr 1
  funext enrolled
  simp only [Function.comp_apply, PlannedRow.unminted, List.map_map]
  rfl

theorem repeats_importGrid (tables : TextTables) (lookup : TermLookup) (grid : List (List String))
    (o : ImportOptions) (mint mint' : ℕ → ℕ → String × String) :
    (importGrid tables lookup grid o mint).Repeats Db.Keeps
      (importGrid tables lookup grid o mint') := by
  cases grid with
  | nil =>
    refine (repeats_resolveTerm lookup).bind Db.Keeps.kind fun _ => ?_
    exact Prog.repeats_pure Db.Keeps.kind _
  | cons header data =>
    have hplans := unminted_plannedRows tables (columns header) mint mint'
      (planGrid tables o (columns header) data).planned
    unfold importGrid
    dsimp only
    -- the two runs mint different credentials, and plan the same rows but for these
    cases hrows : plannedRows tables (columns header) mint
        (planGrid tables o (columns header) data).planned with
    | none =>
      rw [hrows, Option.map_none, eq_comm, Option.map_eq_none_iff] at hplans
      rw [hplans]
      dsimp only
      split
      · exact repeats_importOfferings lookup rfl true
      · refine (repeats_resolveTerm lookup).bind Db.Keeps.kind fun _ => ?_
        exact Prog.repeats_raise _ _
    | some rows =>
      rw [hrows, Option.map_some, eq_comm, Option.map_eq_some_iff] at hplans
      obtain ⟨rows', hrows', heq⟩ := hplans
      rw [hrows']
      exact repeats_importOfferings lookup heq.symm o.dryRun

namespace Campus

/-- The grid of offerings with its header. -/
def offeringGrid : List (List String) :=
  ["Code", "Sec", "Schedule", "Mode", "Instructor", "Email", "Enrolled"] :: offerings

/-- Credentials numbered from `n` on. -/
def mintFrom (n row entry : ℕ) : String × String :=
  (Nat.repr (n + 10 * row + entry), Nat.repr (n + 10 * row + entry))

/-- The database after the grid has been imported. -/
def imported : Db :=
  ((importGrid asciiTables (.pk 1) offeringGrid ⟨"", none, 0, false⟩ (mintFrom 200000)).run
    timetable).2

end Campus

end FluxTrack
