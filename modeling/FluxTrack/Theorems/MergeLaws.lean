import FluxTrack.Theorems.MergeGroup

/-!
# The laws of merging

The detector compares two sessions in the same way in both directions, and among online
sessions it only asks for one teacher and one start, so that "the same or merged" is an
equivalence there. The fill starts the scheduled siblings of its anchor and nothing else;
afterwards none of them is scheduled, and filling again finds nothing.

## Main definitions

* `Db.FillsFrom` — the sessions the fill is about
* `Db.MergeFilled` — what the fill does

## Main results

* `merge_laws` — the laws of the detector and of the fill
-/

namespace FluxTrack

open Calendar Relational Process

/-! ### The detector -/

section

variable {a b c : MergeView} {views : List MergeView}

theorem mergesWith_iff :
    mergesWith a c = true ↔ c.id ≠ a.id ∧ c.faculty = a.faculty ∧
      c.scheduledStart = a.scheduledStart ∧
      ((a.isOnline = true ∧ c.isOnline = true) ∨ c.room = a.room ∨ c.courseCode = a.courseCode) := by
  simp only [mergesWith, Bool.and_eq_true, Bool.or_eq_true, bne_iff_ne, beq_iff_eq, and_assoc]

theorem mergesWith_symm (h : mergesWith a b = true) : mergesWith b a = true := by
  obtain ⟨hne, hfaculty, hstart, harm⟩ := mergesWith_iff.mp h
  refine mergesWith_iff.mpr ⟨hne.symm, hfaculty.symm, hstart.symm, ?_⟩
  rcases harm with ⟨ha, hb⟩ | hroom | hcourse
  · exact .inl ⟨hb, ha⟩
  · exact .inr (.inl hroom.symm)
  · exact .inr (.inr hcourse.symm)

/-- Two online sessions merge if they are two of one teacher at one start. -/
theorem mergesWith_iff_of_online (ha : a.isOnline = true) (hc : c.isOnline = true) :
    mergesWith a c = true ↔
      c.id ≠ a.id ∧ c.faculty = a.faculty ∧ c.scheduledStart = a.scheduledStart := by
  rw [mergesWith_iff]
  simp only [ha, hc, and_self, true_or, and_true]

theorem not_mem_mergedSiblingIds_self : a.id ∉ mergedSiblingIds a views := by
  rw [mergedSiblingIds, List.mem_map]
  rintro ⟨c, hc, hid⟩
  exact (mergesWith_iff.mp (List.mem_filter.mp hc).2).1 hid

/-- In a list that holds each session once, the detector answers with the sessions that merge. -/
theorem mem_mergedSiblingIds (hids : ∀ x ∈ views, ∀ y ∈ views, x.id = y.id → x = y)
    (hb : b ∈ views) : b.id ∈ mergedSiblingIds a views ↔ mergesWith a b = true := by
  rw [mergedSiblingIds, List.mem_map]
  constructor
  · rintro ⟨c, hc, hid⟩
    obtain ⟨hc, hmerges⟩ := List.mem_filter.mp hc
    rwa [← hids c hc b hb hid]
  · intro hmerges
    exact ⟨b, List.mem_filter.mpr ⟨hb, hmerges⟩, rfl⟩

/-- The same session, or a merged sibling. -/
def SameOrSibling (views : List MergeView) (a b : MergeView) : Prop :=
  a = b ∨ b.id ∈ mergedSiblingIds a views

/-- Among the online sessions of a list, what is the same or merged is what has one teacher and
one start. -/
theorem sameOrSibling_iff_of_online (hids : ∀ x ∈ views, ∀ y ∈ views, x.id = y.id → x = y)
    (ha : a ∈ views) (hb : b ∈ views) (haonline : a.isOnline = true)
    (hbonline : b.isOnline = true) :
    SameOrSibling views a b ↔ b.faculty = a.faculty ∧ b.scheduledStart = a.scheduledStart := by
  rw [SameOrSibling, mem_mergedSiblingIds hids hb, mergesWith_iff_of_online haonline hbonline]
  constructor
  · rintro (rfl | ⟨-, hfaculty, hstart⟩)
    · exact ⟨rfl, rfl⟩
    · exact ⟨hfaculty, hstart⟩
  · rintro ⟨hfaculty, hstart⟩
    by_cases hid : b.id = a.id
    · exact .inl (hids b hb a ha hid).symm
    · exact .inr ⟨hid, hfaculty, hstart⟩

theorem equivalence_sameOrSibling (hids : ∀ x ∈ views, ∀ y ∈ views, x.id = y.id → x = y) :
    Equivalence fun a b : {x // x ∈ views ∧ x.isOnline = true} =>
      SameOrSibling views a.1 b.1 := by
  have hiff : ∀ a b : {x // x ∈ views ∧ x.isOnline = true}, SameOrSibling views a.1 b.1 ↔
      b.1.faculty = a.1.faculty ∧ b.1.scheduledStart = a.1.scheduledStart :=
    fun a b => sameOrSibling_iff_of_online hids a.2.1 b.2.1 a.2.2 b.2.2
  refine ⟨fun a => .inl rfl, ?symm, ?trans⟩
  case symm =>
    intro a b hab
    obtain ⟨hfaculty, hstart⟩ := (hiff a b).mp hab
    exact (hiff b a).mpr ⟨hfaculty.symm, hstart.symm⟩
  case trans =>
    intro a b c hab hbc
    obtain ⟨hfaculty, hstart⟩ := (hiff a b).mp hab
    obtain ⟨hfaculty', hstart'⟩ := (hiff b c).mp hbc
    exact (hiff a c).mpr ⟨hfaculty'.trans hfaculty, hstart'.trans hstart⟩

end

/-! ### The fill -/

/-- A session the fill from `a` starts: a scheduled merged sibling of the same term. -/
structure Db.FillsFrom (db : Db) (a s : Session) : Prop where
  scheduled : s.status = .scheduled
  sameTerm : (db.scheduleOf s).term = (db.scheduleOf a).term
  sibling : s.id ∈ mergedSiblingIds (db.mergeView a) (db.sessions.rows.map db.mergeView)

/-- The fill from `a` at `now` has returned `ids` and left `db'`: the siblings are started, each
with one audit row, and everything else is as it was. -/
structure Db.MergeFilled (db : Db) (a : Session) (now : ℤ) (actor : Option ℕ) (ids : List ℕ)
    (db' : Db) : Prop where
  nodup : ids.Nodup
  returned : ∀ pk, pk ∈ ids ↔ ∃ s ∈ db.sessions, s.id = pk ∧ db.FillsFrom a s
  filled : ∀ s ∈ db.sessions, db.FillsFrom a s → db'.sessions.get? s.id =
    some { s with status := .active, actualStart := some now, checkinMethod := some .merged }
  kept : ∀ s ∈ db.sessions, ¬ db.FillsFrom a s → db'.sessions.get? s.id = some s
  unborn : ∀ pk, db.sessions.get? pk = none → db'.sessions.get? pk = none
  others : db' = { db with
    sessions := db'.sessions
    audit := db.audit ++ ids.map fun pk => ⟨actor, .sessionMergedPresent pk a.id⟩ }

section

variable {db : Db} {a s : Session} {now : ℤ} {actor : Option ℕ} {t : AcademicTerm}

theorem fillsFrom_iff (hs : s ∈ db.sessions) : db.FillsFrom a s ↔ s.id ∈ db.mergeFill a := by
  have hids : ∀ x ∈ db.sessions.rows.map db.mergeView, ∀ y ∈ db.sessions.rows.map db.mergeView,
      x.id = y.id → x = y := by
    intro x hx y hy hid
    obtain ⟨u, hu, rfl⟩ := List.mem_map.mp hx
    obtain ⟨v, hv, rfl⟩ := List.mem_map.mp hy
    rw [Table.eq_of_key_eq hu hv hid]
  have hmem : db.mergeView s ∈ db.sessions.rows.map db.mergeView := List.mem_map_of_mem hs
  rw [mem_mergeFill_iff hs]
  constructor
  · rintro ⟨hsched, hterm, hsib⟩
    exact ⟨hsched, hterm, (mem_mergedSiblingIds hids hmem).mp hsib⟩
  · rintro ⟨hsched, hterm, hmerges⟩
    exact ⟨hsched, hterm, (mem_mergedSiblingIds hids hmem).mpr hmerges⟩

/-- A filled session is another one of the anchor's faculty member. -/
theorem Db.FillsFrom.faculty (h : db.FillsFrom a s) (hs : s ∈ db.sessions) :
    s.faculty = a.faculty ∧ s.id ≠ a.id := by
  obtain ⟨-, -, hmerges⟩ := (mem_mergeFill_iff hs).mp ((fillsFrom_iff hs).mp h)
  obtain ⟨hne, hfaculty, -⟩ := mergesWith_iff.mp hmerges
  exact ⟨hfaculty, hne⟩

/-- What the fill leaves. -/
def Db.afterFill (db : Db) (a : Session) (now : ℤ) (actor : Option ℕ) : Db :=
  { db with
    sessions := db.sessions.update (fun s => (db.mergeFill a).contains s.id)
      (Session.fillPresent now) (Session.key_fillPresent now)
    audit := db.audit ++ (db.mergeFill a).map fun pk => ⟨actor, .sessionMergedPresent pk a.id⟩ }

theorem run_propagateMergedPresent (ha : a ∈ db.sessions)
    (hterm : db.terms.table.get? (db.scheduleOf a).term = some t)
    (hwritable : t.status ≠ .archived) :
    (propagateMergedPresent a.id now actor).run db =
      (.ok (db.mergeFill a), db.afterFill a now actor) := by
  rw [propagateMergedPresent, run_propagateMerged ha hterm hwritable, List.map_map]
  rfl

theorem get?_afterFill (hs : s ∈ db.sessions) :
    (db.afterFill a now actor).sessions.get? s.id =
      some (if s.id ∈ db.mergeFill a then s.fillPresent now else s) := by
  have hget : db.sessions.get? s.id = some s := Table.get?_key hs
  rw [Db.afterFill, Table.get?_update, hget, Option.map_some]
  simp only [List.contains_iff_mem]

theorem mergeFilled_afterFill :
    db.MergeFilled a now actor (db.mergeFill a) (db.afterFill a now actor) where
  nodup := db.nodup_map_filter_sessionList _
  returned pk := by
    constructor
    · intro hpk
      obtain ⟨s, hs, rfl, -⟩ := mem_mergeFill.mp hpk
      exact ⟨s, hs, rfl, (fillsFrom_iff hs).mpr hpk⟩
    · rintro ⟨s, hs, rfl, hfills⟩
      exact (fillsFrom_iff hs).mp hfills
  filled s hs hfills := by
    rw [get?_afterFill hs, if_pos ((fillsFrom_iff hs).mp hfills)]
    rfl
  kept s hs hfills := by
    rw [get?_afterFill hs, if_neg (mt (fillsFrom_iff hs).mpr hfills)]
  unborn pk hpk := by
    rw [Db.afterFill, Table.get?_update, hpk, Option.map_none]
  others := rfl

/-- After a fill nothing is left to fill. -/
theorem mergeFill_afterFill :
    (db.afterFill a now actor).mergeFill a = [] := by
  rw [List.eq_nil_iff_forall_not_mem]
  intro pk hpk
  obtain ⟨c, hc, rfl, hsched, hterm, hmerges⟩ := mem_mergeFill.mp hpk
  obtain ⟨s, hs, hsc⟩ := (Table.mem_update_iff (Session.key_fillPresent now)).mp hc
  by_cases hfill : (db.mergeFill a).contains s.id = true
  · rw [if_pos hfill] at hsc
    rw [← hsc] at hsched
    cases hsched
  · -- a row that was left is still what it was, so it would have been filled
    rw [if_neg hfill] at hsc
    subst hsc
    exact hfill (List.contains_iff_mem.mpr (mem_mergeFill.mpr ⟨s, hs, rfl, hsched, hterm, hmerges⟩))

theorem run_propagateMergedPresent_again (ha : a ∈ db.sessions)
    (hterm : db.terms.table.get? (db.scheduleOf a).term = some t) (hwritable : t.status ≠ .archived)
    (now' : ℤ) (actor' : Option ℕ) :
    (propagateMergedPresent a.id now' actor').run (db.afterFill a now actor) =
      (.ok [], db.afterFill a now actor) := by
  have hkept : a ∈ (db.afterFill a now actor).sessions := by
    have hself : a.id ∉ db.mergeFill a := by
      intro hmem
      exact ((fillsFrom_iff ha).mpr hmem).faculty ha |>.2 rfl
    have hget := @get?_afterFill db a a now actor ha
    rw [if_neg hself] at hget
    exact (Table.get?_eq_some_iff.mp hget).1
  have hempty := @mergeFill_afterFill db a now actor
  rw [run_propagateMergedPresent hkept hterm hwritable, hempty]
  congr 1
  rw [Db.afterFill, hempty]
  simp

theorem run_propagateMergedPresent_of_archived (ha : a ∈ db.sessions)
    (hterm : db.terms.table.get? (db.scheduleOf a).term = some t) (harchived : t.status = .archived) :
    (propagateMergedPresent a.id now actor).run db = (.error .archivedTerm, db) := by
  refine @Prog.run_atomic_of_error _ _ _ _ _ _ db _ ?_
  have hget : db.sessions.get? a.id = some a := Table.get?_key ha
  rw [Prog.run_lock_bind, Prog.run_select_bind, hget]
  refine (Prog.run_bind_of_ok (run_lockTerm_of_get? hterm)).trans ?_
  exact Prog.run_bind_of_error (run_requireWritableTerm_of_archived harchived)

end

/-! ### The laws -/

/-- In every list of sessions, merging goes both ways, never to the session itself, and with
equality is an equivalence among the online ones. From every anchor whose term can be written,
a fill starts and audits exactly the scheduled siblings of its term and changes nothing else,
and the fill after it returns nothing and changes nothing; in an archived term it raises. -/
theorem merge_laws :
    (∀ views : List MergeView, (∀ x ∈ views, ∀ y ∈ views, x.id = y.id → x = y) →
      (∀ a ∈ views, ∀ b ∈ views,
        b.id ∈ mergedSiblingIds a views ↔ a.id ∈ mergedSiblingIds b views) ∧
      (∀ a, a.id ∉ mergedSiblingIds a views) ∧
      Equivalence fun a b : {x // x ∈ views ∧ x.isOnline = true} =>
        SameOrSibling views a.1 b.1) ∧
    (∀ (db : Db) (a : Session) (now : ℤ) (actor : Option ℕ) (t : AcademicTerm),
      a ∈ db.sessions → a.status = .active →
      db.terms.table.get? (db.scheduleOf a).term = some t →
      (t.status ≠ .archived →
        ∃ ids db', (propagateMergedPresent a.id now actor).run db = (.ok ids, db') ∧
          db.MergeFilled a now actor ids db' ∧
          (∀ s ∈ db.sessions, db.FillsFrom a s → s.faculty = a.faculty ∧ s.id ≠ a.id) ∧
          ∀ now' actor', (propagateMergedPresent a.id now' actor').run db' = (.ok [], db')) ∧
      (t.status = .archived →
        (propagateMergedPresent a.id now actor).run db = (.error .archivedTerm, db))) := by
  constructor
  · intro views hids
    refine ⟨?_, fun a => not_mem_mergedSiblingIds_self, equivalence_sameOrSibling hids⟩
    intro a ha b hb
    rw [mem_mergedSiblingIds hids hb, mem_mergedSiblingIds hids ha]
    exact ⟨mergesWith_symm, mergesWith_symm⟩
  · intro db a now actor t ha _ hterm
    refine ⟨fun hwritable => ?_, run_propagateMergedPresent_of_archived ha hterm⟩
    exact ⟨db.mergeFill a, db.afterFill a now actor, run_propagateMergedPresent ha hterm hwritable,
      mergeFilled_afterFill, fun s hs hfills => hfills.faculty hs,
      fun now' actor' => run_propagateMergedPresent_again ha hterm hwritable now' actor'⟩

namespace Campus

/-- The second section, running. -/
def runningSection : Session := { section9 2 2 1 with status := .active }

/-- The three sections with the second one running. -/
def secondRunning : Db :=
  { merged with sessions := ⟨[section9 1 1 1, runningSection, section9 3 3 2], by decide⟩ }

/-- The same in an archived term. -/
def archivedRunning : Db := { secondRunning with terms := archivedTerms }

end Campus

open Campus in
/-- From the second section, which shares its room with the first and its course with the third,
both are filled. -/
theorem merge_laws_second :
    ∃ ids db', (propagateMergedPresent 2 (wallClock monday 9 0 0) none).run secondRunning =
        (.ok ids, db') ∧ ids = [1, 3] ∧
      ∀ now' actor', (propagateMergedPresent 2 now' actor').run db' = (.ok [], db') := by
  have hmem : runningSection ∈ secondRunning.sessions :=
    (Table.get?_eq_some_iff.mp (by decide : secondRunning.sessions.get? 2 = some runningSection)).1
  obtain ⟨ids, db', hrun, -, -, hagain⟩ := (merge_laws.2 secondRunning runningSection
    (wallClock monday 9 0 0) none term hmem rfl (by decide)).1 (by decide)
  refine ⟨ids, db', hrun, ?_, hagain⟩
  have hids : ((propagateMergedPresent 2 (wallClock monday 9 0 0) none).run secondRunning).1 =
      .ok [1, 3] := by decide +kernel
  have hfst : ((propagateMergedPresent 2 (wallClock monday 9 0 0) none).run secondRunning).1 =
      .ok ids := congrArg Prod.fst hrun
  rw [hids] at hfst
  cases hfst
  rfl

open Campus in
/-- In an archived term nothing is filled from a running anchor. -/
theorem merge_refused_archived :
    ¬ ∀ (db : Db) (a : Session) (now : ℤ) (actor : Option ℕ), a ∈ db.sessions →
      a.status = .active → ∃ ids db',
        (propagateMergedPresent a.id now actor).run db = (.ok ids, db') ∧
          db.MergeFilled a now actor ids db' := by
  intro h
  have hmem : runningSection ∈ archivedRunning.sessions :=
    (Table.get?_eq_some_iff.mp (by decide : archivedRunning.sessions.get? 2 = some runningSection)).1
  obtain ⟨ids, db', hrun, -⟩ := h archivedRunning runningSection 0 none hmem rfl
  have hraised : ((propagateMergedPresent 2 0 none).run archivedRunning).1 =
      .error .archivedTerm := by decide +kernel
  have hfst : ((propagateMergedPresent 2 0 none).run archivedRunning).1 = .ok ids :=
    congrArg Prod.fst hrun
  rw [hraised] at hfst
  cases hfst

end FluxTrack
