import FluxTrack.Scheduling.Admin
import FluxTrack.System

/-!
# The guard of the admin site

The guard asks for the owner of the record as it is submitted, not for the stored one. A record
of an archived term can therefore be saved under a writable one; nothing else gets past it.

## Main definitions

* `Db.owner`, `Db.adminVerdict` — the owner of a record, and what the guard says to it
* `AdminCall`, `AdminCall.Guarded` — calls on records, and what the guard is for
* `AdminCall.KeepsArchived` — the save does not take a record out of an archived term

## Main results

* `adminCall_guarded_iff` — the guard holds exactly for these calls
* `adminCall_unguarded_moved` — a class that is moved out of an archived term
-/

namespace FluxTrack

open Calendar Relational Process

/-- The term a record belongs to. -/
def Db.owner (db : Db) : Record → Option AcademicTerm
  | .academicBreak b => db.terms.table.get? b.term
  | .schedule c => db.terms.table.get? c.term
  | .session s => (db.schedules.get? s.schedule).bind fun c => db.terms.table.get? c.term

/-- The record belongs to an archived term. -/
def Db.OwnedByArchived (db : Db) (r : Record) : Prop :=
  ∃ t, db.owner r = some t ∧ t.status = .archived

/-- The record belongs to a term that is not archived. -/
def Db.OwnedByWritable (db : Db) (r : Record) : Prop :=
  ∃ t, db.owner r = some t ∧ t.status ≠ .archived

/-- What the guard says to a record. -/
def Db.adminVerdict (db : Db) (obj : Record) : Except Err Unit :=
  if obj.ownerKey = 0 then
    .error (.permissionDenied "This record has no unambiguous academic-term owner.")
  else
    match db.owner obj with
    | none => .error .doesNotExist
    | some t =>
      if t.status = .archived then
        .error (.permissionDenied "Archived academic-term records are read-only.")
      else .ok ()

/-- Primary keys begin at one, and the foreign keys of the stored records point somewhere. -/
structure Db.Linked (db : Db) : Prop where
  terms : ∀ t ∈ db.terms.table.rows, t.id ≠ 0
  schedules : ∀ c ∈ db.schedules.rows, c.id ≠ 0 ∧ (db.terms.table.get? c.term).isSome
  sessions : ∀ s ∈ db.sessions.rows, (db.schedules.get? s.schedule).isSome
  breaks : ∀ b ∈ db.breaks.rows, (db.terms.table.get? b.term).isSome

section

variable {db : Db} {obj r : Record}

/-! ### The guard run alone -/

theorem run_relatedTerm (db : Db) (pk : ℕ) :
    (relatedTerm pk).run db =
      (if pk = 0 then .ok none
        else (db.terms.table.get? pk).elim (.error .doesNotExist) fun t => .ok (some t), db) := by
  unfold relatedTerm
  split
  · rfl
  · rw [Prog.run_select_bind]
    cases db.terms.table.get? pk <;> rfl

theorem run_relatedScheduleTerm (db : Db) (pk : ℕ) :
    (relatedScheduleTerm pk).run db =
      (if pk = 0 then .ok none
        else ((db.schedules.get? pk).bind fun c => db.terms.table.get? c.term).elim
          (.error .doesNotExist) fun t => .ok (some t), db) := by
  unfold relatedScheduleTerm
  split
  · rfl
  · rw [Prog.run_select_bind]
    cases db.schedules.get? pk with
    | none => rfl
    | some c =>
      dsimp only [Option.bind]
      rw [Prog.run_select_bind]
      cases db.terms.table.get? c.term <;> rfl

/-- The owner is read off the chain of keys. -/
theorem run_owningTerm (db : Db) (obj : Record) :
    (owningTerm obj).run db =
      (if obj.ownerKey = 0 then
          .error (.permissionDenied "This record has no unambiguous academic-term owner.")
        else (db.owner obj).elim (.error .doesNotExist) .ok, db) := by
  have hend : ∀ (p : M (Option AcademicTerm)) (f : Option AcademicTerm → M AcademicTerm) (pk : ℕ)
      (owner : Option AcademicTerm),
      f none = .raise (.permissionDenied "This record has no unambiguous academic-term owner.") →
      (∀ t, f (some t) = pure t) →
      p.run db = (if pk = 0 then .ok none
        else owner.elim (.error .doesNotExist) fun t => .ok (some t), db) →
      (p >>= f).run db = (if pk = 0 then
          .error (.permissionDenied "This record has no unambiguous academic-term owner.")
        else owner.elim (.error .doesNotExist) .ok, db) := by
    intro p f pk owner hnone hsome hp
    rw [Prog.run_bind, hp]
    by_cases hpk : pk = 0
    · simp only [if_pos hpk, hnone]
      rfl
    · simp only [if_neg hpk]
      cases owner with
      | none => rfl
      | some t =>
        dsimp only [Option.elim]
        rw [hsome]
        rfl
  cases obj with
  | academicBreak b => exact hend _ _ b.term _ rfl (fun _ => rfl) (run_relatedTerm db b.term)
  | schedule c => exact hend _ _ c.term _ rfl (fun _ => rfl) (run_relatedTerm db c.term)
  | session s =>
    exact hend _ _ s.schedule _ rfl (fun _ => rfl) (run_relatedScheduleTerm db s.schedule)

/-- The guard only reads. -/
theorem run_requireAdminWritableObject (db : Db) (obj : Record) :
    (requireAdminWritableObject obj).run db = (db.adminVerdict obj, db) := by
  have howner := run_owningTerm db obj
  rw [requireAdminWritableObject, Prog.run_elim, Prog.run_bind, howner, Db.adminVerdict]
  by_cases hkey : obj.ownerKey = 0
  · simp only [if_pos hkey]
    rfl
  · simp only [if_neg hkey]
    cases db.owner obj with
    | none => rfl
    | some t =>
      dsimp only [Option.elim]
      by_cases harch : t.status = .archived
      · rw [run_requireWritableTerm_of_archived harch]
        simp only [if_pos harch]
        rfl
      · rw [run_requireWritableTerm harch]
        simp only [if_neg harch]
        rfl

theorem adminVerdict_of_archived (h : db.OwnedByArchived obj) :
    ∃ message, db.adminVerdict obj = .error (.permissionDenied message) := by
  obtain ⟨t, ht, harch⟩ := h
  by_cases hkey : obj.ownerKey = 0
  · exact ⟨_, if_pos hkey⟩
  · rw [Db.adminVerdict, if_neg hkey, ht]
    exact ⟨_, if_pos harch⟩

/-- A writable owner has a key, so that the guard finds it. -/
theorem adminVerdict_of_writable (hdb : db.Linked) (h : db.OwnedByWritable obj) :
    db.adminVerdict obj = .ok () := by
  obtain ⟨t, ht, hopen⟩ := h
  have hkey : obj.ownerKey ≠ 0 := by
    cases obj with
    | academicBreak b =>
      obtain ⟨hmem, hid⟩ := Table.get?_eq_some_iff.mp ht
      exact fun hkey => hdb.terms t hmem (hid.trans hkey)
    | schedule c =>
      obtain ⟨hmem, hid⟩ := Table.get?_eq_some_iff.mp ht
      exact fun hkey => hdb.terms t hmem (hid.trans hkey)
    | session s =>
      obtain ⟨c, hc, -⟩ := Option.bind_eq_some_iff.mp ht
      obtain ⟨hmem, hid⟩ := Table.get?_eq_some_iff.mp hc
      exact fun hkey => (hdb.schedules c hmem).1 (hid.trans hkey)
  rw [Db.adminVerdict, if_neg hkey, ht]
  exact if_neg hopen

theorem denied_iff :
    (∃ message, db.adminVerdict obj = .error (.permissionDenied message)) ↔
      obj.ownerKey = 0 ∨ db.OwnedByArchived obj := by
  constructor
  · rintro ⟨message, h⟩
    by_cases hkey : obj.ownerKey = 0
    · exact .inl hkey
    · rw [Db.adminVerdict, if_neg hkey] at h
      split at h
      · cases h
      · rename_i t ht
        split at h
        · exact .inr ⟨t, ht, ‹_›⟩
        · cases h
  · rintro (hkey | harch)
    · exact ⟨_, if_pos hkey⟩
    · exact adminVerdict_of_archived harch

/-- A stored record has an owner. -/
theorem owner_isSome_of_stored (hdb : db.Linked) {m : AdminModel} (h : r ∈ db.recordsOf m) :
    (db.owner r).isSome := by
  cases m with
  | academicBreak =>
    obtain ⟨b, hb, rfl⟩ := List.mem_map.mp h
    exact hdb.breaks b hb
  | schedule =>
    obtain ⟨c, hc, rfl⟩ := List.mem_map.mp h
    exact (hdb.schedules c hc).2
  | session =>
    obtain ⟨s, hs, rfl⟩ := List.mem_map.mp h
    obtain ⟨c, hc⟩ := Option.isSome_iff_exists.mp (hdb.sessions s hs)
    change ((db.schedules.get? s.schedule).bind _).isSome = true
    rw [hc]
    exact (hdb.schedules c (Table.get?_eq_some_iff.mp hc).1).2

theorem archived_or_writable (hdb : db.Linked) {m : AdminModel} (h : r ∈ db.recordsOf m) :
    db.OwnedByArchived r ∨ db.OwnedByWritable r := by
  obtain ⟨t, ht⟩ := Option.isSome_iff_exists.mp (owner_isSome_of_stored hdb h)
  by_cases harch : t.status = .archived
  · exact .inl ⟨t, ht, harch⟩
  · exact .inr ⟨t, ht, harch⟩

end

/-! ### The calls -/

/-- A call of the admin on records: a save of a record with submitted values, the deletion of a
record that the view has loaded, and the deletion of a selection. -/
inductive AdminCall
  | saveModel (obj : Record)
  | deleteModel (m : AdminModel) (pk : ℕ)
  | deleteQueryset (m : AdminModel) (pks : List ℕ)

namespace AdminCall

def prog : AdminCall → M Unit
  | saveModel obj => FluxTrack.saveModel obj
  | deleteModel m pk => do
    match ← Prog.select fun db => db.stored m pk with
    | none => .raise .http404
    | some obj => FluxTrack.deleteModel obj
  | deleteQueryset m pks => FluxTrack.deleteQueryset m pks

/-- The stored records that the call is on. -/
def stored (db : Db) : AdminCall → List Record
  | saveModel obj => (db.stored obj.model obj.pk).toList
  | deleteModel m pk => (db.stored m pk).toList
  | deleteQueryset m pks => (db.recordsOf m).filter fun r => pks.contains r.pk

/-- The records as they are submitted. -/
def submitted : AdminCall → List Record
  | saveModel obj => [obj]
  | _ => []

/-- A call on a record of an archived term is denied and changes nothing, and one whose stored
and submitted records all belong to writable terms is not denied. -/
def Guarded (db : Db) (c : AdminCall) : Prop :=
  ((∃ r ∈ c.stored db, db.OwnedByArchived r) →
    ∃ message, c.prog.run db = (.error (.permissionDenied message), db)) ∧
  ((∀ r ∈ c.stored db ++ c.submitted, db.OwnedByWritable r) →
    ∀ message, (c.prog.run db).1 ≠ .error (.permissionDenied message))

/-- A save of a record of an archived term submits an archived owner for it, or none. -/
def KeepsArchived (db : Db) : AdminCall → Prop
  | saveModel obj => (∃ r ∈ db.stored obj.model obj.pk, db.OwnedByArchived r) →
      obj.ownerKey = 0 ∨ db.OwnedByArchived obj
  | _ => True

end AdminCall

section

variable {db : Db}

/-- Deleting is not denied. -/
theorem deleteRecords_ne_denied (m : AdminModel) (pks : List ℕ) (message : String) :
    ((deleteRecords m pks).run db).1 ≠ .error (.permissionDenied message) := by
  cases m with
  | academicBreak =>
    intro h
    cases h
  | schedule =>
    rw [deleteRecords, Prog.run_select_bind]
    split <;> intro h <;> cases h
  | session =>
    intro h
    cases h

theorem guarded_saveModel_iff (hdb : db.Linked) (obj : Record) :
    (AdminCall.saveModel obj).Guarded db ↔ (AdminCall.saveModel obj).KeepsArchived db := by
  have hrun : (AdminCall.saveModel obj).prog.run db =
      (requireAdminWritableObject obj >>= fun _ => Prog.modify fun db => db.put obj : M Unit).run
        db := rfl
  constructor
  · rintro ⟨hdenied, -⟩ ⟨r, hr, harch⟩
    obtain ⟨message, hend⟩ := hdenied ⟨r, Option.mem_toList.mpr hr, harch⟩
    refine denied_iff.mp ⟨message, ?_⟩
    rw [hrun, Prog.run_bind, run_requireAdminWritableObject] at hend
    rcases hverdict : db.adminVerdict obj with e | _ <;> rw [hverdict] at hend
    · cases hend
      rfl
    · cases hend
  · intro hkeeps
    constructor
    · rintro ⟨r, hr, harch⟩
      obtain ⟨message, hverdict⟩ := denied_iff.mpr (hkeeps ⟨r, Option.mem_toList.mp hr, harch⟩)
      refine ⟨message, ?_⟩
      rw [hrun]
      exact Prog.run_bind_of_error (by rw [run_requireAdminWritableObject, hverdict])
    · intro hall message
      have hobj : db.OwnedByWritable obj := hall obj (by simp [AdminCall.submitted])
      have hok : (requireAdminWritableObject obj).run db = (.ok (), db) := by
        rw [run_requireAdminWritableObject, adminVerdict_of_writable hdb hobj]
      rw [hrun, Prog.run_bind_of_ok hok]
      intro h
      cases h

theorem guarded_deleteModel (hdb : db.Linked) (m : AdminModel) (pk : ℕ) :
    (AdminCall.deleteModel m pk).Guarded db := by
  cases hstored : db.stored m pk with
  | none =>
    have hrun : (AdminCall.deleteModel m pk).prog.run db = (.error .http404, db) := by
      rw [AdminCall.prog, Prog.run_select_bind, hstored]
      rfl
    rw [AdminCall.Guarded, hrun, AdminCall.stored, hstored]
    exact ⟨fun h => by simp at h, fun _ message h => by cases h⟩
  | some r =>
    have hrun : (AdminCall.deleteModel m pk).prog.run db = (deleteModel r).run db := by
      rw [AdminCall.prog, Prog.run_select_bind, hstored]
    rw [AdminCall.Guarded, hrun, AdminCall.stored, hstored]
    have hguard := run_requireAdminWritableObject db r
    constructor
    · rintro ⟨r', hr', harch⟩
      obtain rfl : r' = r := by simpa using hr'
      obtain ⟨message, hverdict⟩ := adminVerdict_of_archived harch
      rw [hverdict] at hguard
      exact ⟨message, Prog.run_bind_of_error hguard⟩
    · intro hall message
      have hr : db.OwnedByWritable r := hall r (by simp)
      rw [adminVerdict_of_writable hdb hr] at hguard
      rw [deleteModel, Prog.run_bind_of_ok hguard]
      exact deleteRecords_ne_denied _ _ message

/-- A selection is checked up to the first record of an archived term. -/
theorem run_guards (hdb : db.Linked) {m : AdminModel} {objects : List Record}
    (h : ∀ r ∈ objects, r ∈ db.recordsOf m) :
    ((∃ r ∈ objects, db.OwnedByArchived r) ∧
      ∃ message, (Prog.forEach objects requireAdminWritableObject).run db =
        (.error (.permissionDenied message), db)) ∨
    (∀ r ∈ objects, db.OwnedByWritable r) ∧
      (Prog.forEach objects requireAdminWritableObject).run db = (.ok (), db) := by
  induction objects with
  | nil => exact .inr ⟨fun _ hr => absurd hr List.not_mem_nil, rfl⟩
  | cons r rest ih =>
    have hguard := run_requireAdminWritableObject db r
    rcases archived_or_writable hdb (h r List.mem_cons_self) with harch | hopen
    · obtain ⟨message, hverdict⟩ := adminVerdict_of_archived harch
      rw [hverdict] at hguard
      exact .inl ⟨⟨r, List.mem_cons_self, harch⟩, message, Prog.run_bind_of_error hguard⟩
    · rw [adminVerdict_of_writable hdb hopen] at hguard
      rw [Prog.run_forEach_cons hguard]
      rcases ih fun r' hr' => h r' (List.mem_cons_of_mem r hr') with
        ⟨⟨r', hr', harch⟩, hrun⟩ | ⟨hall, hrun⟩
      · exact .inl ⟨⟨r', List.mem_cons_of_mem r hr', harch⟩, hrun⟩
      · exact .inr ⟨List.forall_mem_cons.mpr ⟨hopen, hall⟩, hrun⟩

theorem guarded_deleteQueryset (hdb : db.Linked) (m : AdminModel) (pks : List ℕ) :
    (AdminCall.deleteQueryset m pks).Guarded db := by
  have hmem : ∀ r ∈ (AdminCall.deleteQueryset m pks).stored db, r ∈ db.recordsOf m :=
    fun r hr => (List.mem_filter.mp hr).1
  have hrun : (AdminCall.deleteQueryset m pks).prog.run db =
      (do
        Prog.forEach ((AdminCall.deleteQueryset m pks).stored db) requireAdminWritableObject
        deleteRecords m (((AdminCall.deleteQueryset m pks).stored db).map Record.pk)
        : M Unit).run db := rfl
  rw [AdminCall.Guarded, hrun]
  generalize (AdminCall.deleteQueryset m pks).stored db = objects at hmem ⊢
  rcases run_guards hdb hmem with ⟨⟨r, hr, harch⟩, message, hend⟩ | ⟨hall, hend⟩
  · rw [Prog.run_bind_of_error hend]
    refine ⟨fun _ => ⟨message, rfl⟩, fun hall => ?_⟩
    obtain ⟨t, ht, hopen⟩ := hall r (List.mem_append_left _ hr)
    obtain ⟨t', ht', harch⟩ := harch
    obtain rfl : t' = t := Option.some.inj (ht'.symm.trans ht)
    exact absurd harch hopen
  · rw [Prog.run_bind_of_ok hend]
    refine ⟨?_, fun _ message => deleteRecords_ne_denied _ _ message⟩
    rintro ⟨r, hr, t, ht, harch⟩
    obtain ⟨t', ht', hopen⟩ := hall r hr
    obtain rfl : t' = t := Option.some.inj (ht'.symm.trans ht)
    exact absurd harch hopen

end

/-- The guard does what it is for exactly in the calls that save no record of an archived term
under another owner. -/
theorem adminCall_guarded_iff {db : Db} (hdb : db.Linked) (c : AdminCall) :
    c.Guarded db ↔ c.KeepsArchived db := by
  cases c with
  | saveModel obj => exact guarded_saveModel_iff hdb obj
  | deleteModel m pk => exact iff_of_true (guarded_deleteModel hdb m pk) trivial
  | deleteQueryset m pks => exact iff_of_true (guarded_deleteQueryset hdb m pks) trivial

/-! ### A class of an archived term -/

namespace Campus

/-- The classes are those of an archived term, and the next term has begun. -/
def rollover : Db :=
  { timetable with
    terms := ⟨⟨[{ term with status := .archived }, ⟨2, "Second Semester", 101, 200, .active⟩],
      by decide⟩, by decide, by decide, by decide⟩ }

/-- The eight o'clock class with the next term chosen in its form. -/
def movedClass : Schedule := ⟨2, 2, "CS2", "B", 30, 2, 1, 0, hour 8, hour 9, .f2f, .active⟩

end Campus

theorem adminCall_guarded_iff_rollover :
    (AdminCall.deleteQueryset .schedule [1, 2]).Guarded Campus.rollover ↔
      (AdminCall.deleteQueryset .schedule [1, 2]).KeepsArchived Campus.rollover :=
  adminCall_guarded_iff ⟨by decide, by decide, by decide, by decide⟩ _

/-- Saving a class of an archived term under the next one is not denied and moves it. -/
theorem adminCall_unguarded_moved :
    Campus.rollover.Linked ∧
      ¬ (AdminCall.saveModel (.schedule Campus.movedClass)).Guarded Campus.rollover ∧
      ((AdminCall.saveModel (.schedule Campus.movedClass)).prog.run
        Campus.rollover).2.stored .schedule 2 = some (.schedule Campus.movedClass) := by
  refine ⟨⟨by decide, by decide, by decide, by decide⟩, ?_, by decide +kernel⟩
  rintro ⟨hdenied, -⟩
  have hstored : (∃ r ∈ (AdminCall.saveModel (.schedule Campus.movedClass)).stored Campus.rollover,
      Campus.rollover.OwnedByArchived r) :=
    ⟨.schedule { Campus.movedClass with term := 1 }, by decide +kernel, _, rfl, rfl⟩
  obtain ⟨message, hrun⟩ := hdenied hstored
  have hok : ((AdminCall.saveModel (.schedule Campus.movedClass)).prog.run Campus.rollover).1 =
      .ok () := by decide +kernel
  rw [hrun] at hok
  cases hok

end FluxTrack
