import FluxTrack.Data.First
import FluxTrack.Process.Raises
import FluxTrack.Theorems.ReportScopes

/-!
# Impossible dates in filters and forms

A text that is shaped like a date or a time and is none makes its parser raise, and so does a
text of digits that is no number. The filters of the reports and the form of a shift request
parse without a net, so that a page fails exactly where such a text is reached.

## Main definitions

* `QueryDict.PossibleDate`, `PossibleNumber` — a text that its parser does not raise on
* `Db.SelectsTerm` — the term that a request is about
* `ShiftForm.Raises` — the form has such a text behind fields that pass their checks

## Main results

* `check_eq_value_iff` — the checks of the form
* `filters_return_iff`
-/

namespace FluxTrack

open Calendar Relational Process

/-! ### Texts -/

/-- A parameter that is no text shaped like a date for which there is no day. -/
def QueryDict.PossibleDate (get : QueryDict) (parsers : DateParsers) (key : String) : Prop :=
  get.text key ≠ "" → parsers.parseDate (get.text key) ≠ .raising

/-- A text that is a number if `isdigit` accepts it. -/
def PossibleNumber (tables : TextTables) (text : String) : Prop :=
  tables.isDigit text = true → tables.int text ≠ none

/-- The term that a request is about. -/
def Db.SelectsTerm (db : Db) (tables : TextTables) (get : QueryDict) (term : AcademicTerm) : Prop :=
  match get "term" with
  | none => db.activeTerm = some term
  | some raw => tables.isDigit (Py.strip raw) = true ∧
      ∃ pk, tables.int (Py.strip raw) = some pk ∧ db.terms.table.get? pk = some term

section

variable {ε α β : Type} {x : Except ε α} {f : α → Except ε β} {e : ε}

/-- A sequence returns if its parts do. -/
theorem bind_returns_iff : (∃ b, (x >>= f) = .ok b) ↔ ∃ a, x = .ok a ∧ ∃ b, f a = .ok b := by
  constructor
  · rintro ⟨b, h⟩
    obtain ⟨a, ha, hb⟩ := bind_eq_ok_iff.mp h
    exact ⟨a, ha, b, hb⟩
  · rintro ⟨a, ha, b, hb⟩
    exact ⟨b, bind_eq_ok_iff.mpr ⟨a, ha, hb⟩⟩

/-- A sequence fails where its first part does, or the rest after it. -/
theorem bind_eq_error_iff :
    (x >>= f) = .error e ↔ x = .error e ∨ ∃ a, x = .ok a ∧ f a = .error e := by
  cases x with
  | error e' =>
    constructor
    · intro h
      cases h
      exact .inl rfl
    · rintro (h | ⟨a, h, -⟩)
      · cases h
        rfl
      · cases h
  | ok a =>
    constructor
    · intro h
      exact .inr ⟨a, rfl, h⟩
    · rintro (h | ⟨a', h, hf⟩)
      · cases h
      · cases h
        exact hf

/-- A sequence of a first part that fails under one condition and returns under another. -/
theorem bind_fails_iff {A B C : Prop} (hfails : x = .error e ↔ A) (hreturns : (∃ a, x = .ok a) ↔ B)
    (hrest : ∀ a, x = .ok a → (f a = .error e ↔ C)) : (x >>= f) = .error e ↔ A ∨ B ∧ C := by
  rw [bind_eq_error_iff, hfails, ← hreturns, ← exists_and_right]
  exact or_congr_right (exists_congr fun a => and_congr_right (hrest a))

end

/-! ### The filters of a report -/

section

variable {db : Db} {tables : TextTables} {parsers : DateParsers} {get : QueryDict} {today : ℤ}

/-- The term is looked up unless its number is none. -/
theorem requestedTerm_returns_iff : (∃ r, db.requestedTerm tables get = .ok r) ↔
    ∀ raw, get "term" = some raw → PossibleNumber tables (Py.strip raw) := by
  unfold Db.requestedTerm PossibleNumber
  cases get "term" with
  | none => exact iff_of_true ⟨_, rfl⟩ fun raw h => nomatch h
  | some raw =>
    dsimp only
    by_cases hdigit : tables.isDigit (Py.strip raw) = true
    · rw [if_pos hdigit]
      cases hint : tables.int (Py.strip raw) with
      | none =>
        exact iff_of_false (fun ⟨_, h⟩ => nomatch h) fun h => h raw rfl hdigit hint
      | some pk =>
        refine iff_of_true ⟨_, rfl⟩ fun raw' h _ => ?_
        cases h
        rw [hint]
        exact Option.some_ne_none pk
    · rw [if_neg hdigit]
      refine iff_of_true ⟨_, rfl⟩ fun raw' h hdigit' => ?_
      cases h
      exact absurd hdigit' hdigit

/-- The term that is looked up is the one the request is about. -/
theorem requestedTerm_eq_ok_iff {term : AcademicTerm} :
    db.requestedTerm tables get = .ok (.ok term) ↔ db.SelectsTerm tables get term := by
  unfold Db.requestedTerm Db.SelectsTerm
  cases get "term" with
  | none =>
    dsimp only
    cases db.activeTerm with
    | none => exact iff_of_false (fun h => nomatch h) fun h => nomatch h
    | some t => simp
  | some raw =>
    dsimp only
    by_cases hdigit : tables.isDigit (Py.strip raw) = true
    · rw [if_pos hdigit]
      cases tables.int (Py.strip raw) with
      | none => exact iff_of_false (fun h => nomatch h) fun h => nomatch h.2
      | some pk =>
        dsimp only
        cases hget : db.terms.table.get? pk with
        | none => simp [hget]
        | some t => simp [hget, hdigit]
    · rw [if_neg hdigit]
      exact iff_of_false (fun h => nomatch h) fun h => hdigit h.1

/-- The scope is made unless the term is no number, or the default window or a date of the
report raises. -/
theorem reportScope_returns_iff {defaultWindow : AcademicTerm → Except Err (ℤ × ℤ)} :
    (∃ r, db.reportScope tables parsers defaultWindow get today = .ok r) ↔
      (∀ raw, get "term" = some raw → PossibleNumber tables (Py.strip raw)) ∧
      ∀ term, db.SelectsTerm tables get term → (∃ r, termWindow defaultWindow term = .ok r) ∧
        ∀ key ∈ ["from", "to", "as_of"], get.PossibleDate parsers key := by
  have hdates : (∀ key ∈ ["from", "to", "as_of"], get.PossibleDate parsers key) ↔
      (∃ d, get.readDate parsers "from" = .ok d) ∧ (∃ d, get.readDate parsers "to" = .ok d) ∧
        ∃ d, get.readDate parsers "as_of" = .ok d := by
    simp only [List.forall_mem_cons, List.not_mem_nil, false_implies, implies_true, and_true,
      readDate_returns_iff, QueryDict.PossibleDate]
  rw [Db.reportScope, bind_returns_iff, ← requestedTerm_returns_iff, hdates]
  -- the window and the dates are read behind a term that is found, and only there
  constructor
  · rintro ⟨requested, hrequested, hrest⟩
    refine ⟨⟨requested, hrequested⟩, fun term hselects => ?_⟩
    cases (requestedTerm_eq_ok_iff.mpr hselects).symm.trans hrequested
    obtain ⟨window, hwindow, hrest⟩ := bind_returns_iff.mp hrest
    obtain ⟨start, hstart, hrest⟩ := bind_returns_iff.mp hrest
    obtain ⟨finish, hfinish, hrest⟩ := bind_returns_iff.mp hrest
    obtain ⟨asOf, hasOf, -⟩ := bind_returns_iff.mp hrest
    exact ⟨⟨window, hwindow⟩, ⟨start, hstart⟩, ⟨finish, hfinish⟩, asOf, hasOf⟩
  · rintro ⟨⟨requested, hrequested⟩, hread⟩
    refine ⟨requested, hrequested, ?_⟩
    cases requested with
    | error e => exact ⟨_, rfl⟩
    | ok term =>
      obtain ⟨⟨window, hwindow⟩, ⟨start, hstart⟩, ⟨finish, hfinish⟩, asOf, hasOf⟩ :=
        hread term (requestedTerm_eq_ok_iff.mp hrequested)
      exact bind_returns_iff.mpr ⟨window, hwindow, bind_returns_iff.mpr ⟨start, hstart,
        bind_returns_iff.mpr ⟨finish, hfinish, bind_returns_iff.mpr ⟨asOf, hasOf, _, rfl⟩⟩⟩⟩

/-- The reporting week is found unless one of its dates is no day. -/
theorem reportingRange_returns_iff {weekStart : String} :
    (∃ r, reportingRange tables parsers weekStart get today = .ok r) ↔
      ∀ key ∈ ["from", "to"], get.PossibleDate parsers key := by
  have hdates : (∀ key ∈ ["from", "to"], get.PossibleDate parsers key) ↔
      (∃ d, get.readDate parsers "from" = .ok d) ∧ ∃ d, get.readDate parsers "to" = .ok d := by
    simp only [List.forall_mem_cons, List.not_mem_nil, false_implies, implies_true, and_true,
      readDate_returns_iff, QueryDict.PossibleDate]
  rw [hdates]
  unfold reportingRange
  constructor
  · intro h
    obtain ⟨start, hstart, h⟩ := bind_returns_iff.mp h
    obtain ⟨finish, hfinish, -⟩ := bind_returns_iff.mp h
    exact ⟨⟨start, hstart⟩, finish, hfinish⟩
  · rintro ⟨⟨start, hstart⟩, finish, hfinish⟩
    exact bind_returns_iff.mpr ⟨start, hstart, bind_returns_iff.mpr ⟨finish, hfinish, _, rfl⟩⟩

/-- A callback that returns makes a window for every term. -/
theorem termWindow_returns {w : AcademicTerm → ℤ × ℤ} (term : AcademicTerm) :
    ∃ r, termWindow (fun t => .ok (w t)) term = .ok r := by
  unfold termWindow
  split <;> exact ⟨_, rfl⟩

/-- So does a reporting week whose dates are days. -/
theorem termWindow_week_returns {weekStart : String}
    (h : ∀ key ∈ ["from", "to"], get.PossibleDate parsers key) (term : AcademicTerm) :
    ∃ r, termWindow (fun _ => (reportingRange tables parsers weekStart get today).map
      fun r => (r.start, r.finish)) term = .ok r := by
  obtain ⟨r, hr⟩ : ∃ r, reportingRange tables parsers weekStart get today = .ok r :=
    reportingRange_returns_iff.mpr h
  unfold termWindow
  split
  · rw [hr]
    exact ⟨_, rfl⟩
  · exact ⟨_, rfl⟩

end

/-! ### The form of a shift request -/

/-- A text that its parser raises on is what the window is read from. -/
def PostedWindow.Raises : PostedWindow → Prop
  | .single onDate => onDate = .raising
  | .weeks n => n = .raising

/-- The window is a date, or a number of weeks in range. -/
def PostedWindow.Reads : PostedWindow → Prop
  | .single onDate => ∃ d, onDate = .value d
  | .weeks n => ∃ k, n = .value k ∧ 1 ≤ k ∧ k ≤ maxWeeks

namespace ShiftForm

/-- The start is raised on, or the end behind a start that is a time. -/
def TimesRaise (form : ShiftForm) : Prop :=
  form.newStartTime = .raising ∨
    (∃ st, form.newStartTime = .value st) ∧ form.newEndTime = .raising

/-- Both times are given, or none. -/
def TimesRead (form : ShiftForm) : Prop :=
  form.newStartTime = .blank ∧ form.newEndTime = .blank ∨
    (∃ st, form.newStartTime = .value st) ∧ ∃ et, form.newEndTime = .value et

/-- The schedules that are asked for and are the teacher's own. -/
def ownSchedules (form : ShiftForm) (db : Db) (user : ℕ) : List Schedule :=
  db.schedules.rows.filter fun s =>
    form.schedules.any (fun p => p.2 == .value s.id) && s.faculty == user && s.status == .active

/-- The first preferred room that is no number is raised on. -/
def RoomRaises (form : ShiftForm) (schedules : List Schedule) : Prop :=
  ∃ s, Search.First (fun s => form.preferredRoom s.id = .raising ∨
    form.preferredRoom s.id = .unreadable) schedules s ∧ form.preferredRoom s.id = .raising

/-- The form has a text that is raised on behind fields that pass their checks: the date or the
number of weeks, the times, a class, or a preferred room. -/
def Raises (form : ShiftForm) (db : Db) (user : ℕ) : Prop :=
  form.target.isSome ∧ form.schedules ≠ [] ∧ (∀ s ∈ form.schedules, s.2.isDigit = true) ∧
  (form.window.Raises ∨ form.window.Reads ∧
    (form.TimesRaise ∨ form.TimesRead ∧
      ((∃ s ∈ form.schedules, s.2 = .raising) ∨ (∀ s ∈ form.schedules, s.2 ≠ .raising) ∧
        (form.ownSchedules db user).length = (form.schedules.map Prod.fst).dedup.length ∧
        form.RoomRaises (form.ownSchedules db user))))

end ShiftForm

section

variable {db : Db} {user : ℕ} {now : ℤ} {form : ShiftForm}

theorem Posted.read_eq_value_iff {α : Type} {p : Posted α} {error : String} :
    p.read error = .error .value ↔ p = .raising := by
  cases p <;> simp [Posted.read]

theorem Posted.read_eq_ok_iff {α : Type} {p : Posted α} {error : String} {a : α} :
    p.read error = .ok a ↔ p = .value a := by
  cases p <;> simp [Posted.read]

theorem readWindow_eq_value_iff {window : PostedWindow} :
    db.readWindow now window = .error .value ↔ window.Raises := by
  cases window with
  | single onDate =>
    rw [Db.readWindow, bind_eq_error_iff, Posted.read_eq_value_iff, PostedWindow.Raises,
      or_iff_left]
    rintro ⟨d, -, h⟩
    cases h
  | weeks n =>
    rw [Db.readWindow, bind_eq_error_iff, Posted.read_eq_value_iff, PostedWindow.Raises,
      or_iff_left]
    rintro ⟨k, -, h⟩
    split at h <;> cases h

theorem readWindow_returns_iff {window : PostedWindow} :
    (∃ w, db.readWindow now window = .ok w) ↔ window.Reads := by
  cases window with
  | single onDate =>
    rw [Db.readWindow, bind_returns_iff]
    simp only [Posted.read_eq_ok_iff, PostedWindow.Reads]
    exact exists_congr fun d => and_iff_left ⟨_, rfl⟩
  | weeks n =>
    rw [Db.readWindow, bind_returns_iff]
    simp only [Posted.read_eq_ok_iff, PostedWindow.Reads]
    refine exists_congr fun k => and_congr_right fun _ => ?_
    split
    · exact iff_of_true ⟨_, rfl⟩ ‹_›
    · refine iff_of_false ?_ ‹_›
      rintro ⟨_, h⟩
      cases h

theorem readTimes_eq_value_iff :
    readTimes form.newStartTime form.newEndTime = .error .value ↔ form.TimesRaise := by
  unfold readTimes ShiftForm.TimesRaise
  split
  · rename_i hblank
    simp [hblank.1]
  · rw [bind_eq_error_iff, Posted.read_eq_value_iff]
    simp only [bind_eq_error_iff, Posted.read_eq_value_iff, Posted.read_eq_ok_iff]
    simp [pure, Except.pure]

theorem readTimes_returns_iff :
    (∃ t, readTimes form.newStartTime form.newEndTime = .ok t) ↔ form.TimesRead := by
  unfold readTimes ShiftForm.TimesRead
  split
  · rename_i hblank
    exact iff_of_true ⟨_, rfl⟩ (.inl hblank)
  · rename_i hgiven
    rw [bind_returns_iff]
    simp only [bind_returns_iff, Posted.read_eq_ok_iff, hgiven, false_or]
    simp [pure, Except.pure]

/-- A text of digits is a number or is raised on. -/
theorem Posted.eq_of_isDigit {α : Type} {p : Posted α} (h : p.isDigit = true) :
    p = .raising ∨ ∃ a, p = .value a := by
  cases p with
  | blank => cases h
  | unreadable => cases h
  | raising => exact .inl rfl
  | value a => exact .inr ⟨a, rfl⟩

/-- The numbers of the classes are not read if one of them is raised on. -/
theorem mapM_read_eq_value_iff {error : String} {l : List (String × Posted ℕ)}
    (h : ∀ s ∈ l, s.2.isDigit = true) :
    (l.mapM fun s => s.2.read error) = .error .value ↔ ∃ s ∈ l, s.2 = .raising := by
  induction l with
  | nil => exact iff_of_false (fun h => nomatch h) fun ⟨_, h, _⟩ => nomatch h
  | cons s l ih =>
    obtain ⟨hs, hl⟩ := List.forall_mem_cons.mp h
    rw [List.mapM_cons, bind_eq_error_iff, Posted.read_eq_value_iff, List.exists_mem_cons_iff,
      ← ih hl]
    rcases Posted.eq_of_isDigit hs with hraising | ⟨a, ha⟩
    · exact iff_of_true (.inl hraising) (.inl hraising)
    · simp only [ha, Posted.read_eq_ok_iff, reduceCtorEq, false_or, bind_eq_error_iff]
      constructor
      · rintro ⟨_, -, hrest | ⟨ids, -, hrest⟩⟩
        · exact hrest
        · cases hrest
      · intro hrest
        exact ⟨a, rfl, .inl hrest⟩

/-- The numbers that are read are those of the classes. -/
theorem mapM_read_eq_ok_iff {error : String} {l : List (String × Posted ℕ)} {ids : List ℕ} :
    (l.mapM fun s => s.2.read error) = .ok ids ↔ l.map Prod.snd = ids.map Posted.value := by
  induction l generalizing ids with
  | nil =>
    cases ids with
    | nil => exact iff_of_true rfl rfl
    | cons a ids => exact iff_of_false (fun h => nomatch h) fun h => nomatch h
  | cons s l ih =>
    rw [List.mapM_cons, bind_eq_ok_iff]
    simp only [Posted.read_eq_ok_iff, bind_eq_ok_iff, ih]
    constructor
    · rintro ⟨a, ha, rest, hrest, heq⟩
      cases heq
      rw [List.map_cons, ha, hrest, List.map_cons]
    · intro h
      cases ids with
      | nil => cases h
      | cons a ids =>
        rw [List.map_cons, List.map_cons, List.cons.injEq] at h
        exact ⟨a, h.1, ids, h.2, rfl⟩

/-- The numbers of the classes are read if none of them is raised on. -/
theorem mapM_read_returns_iff {error : String} {l : List (String × Posted ℕ)}
    (h : ∀ s ∈ l, s.2.isDigit = true) :
    (∃ ids, (l.mapM fun s => s.2.read error) = .ok ids) ↔ ∀ s ∈ l, s.2 ≠ .raising := by
  simp only [mapM_read_eq_ok_iff]
  induction l with
  | nil => exact iff_of_true ⟨[], rfl⟩ fun s hs => absurd hs List.not_mem_nil
  | cons s l ih =>
    obtain ⟨hs, hl⟩ := List.forall_mem_cons.mp h
    rw [List.forall_mem_cons, ← ih hl]
    constructor
    · rintro ⟨ids, hids⟩
      cases ids with
      | nil => cases hids
      | cons a ids =>
        rw [List.map_cons, List.map_cons, List.cons.injEq] at hids
        refine ⟨fun hraising => ?_, ids, hids.2⟩
        cases hraising.symm.trans hids.1
    · rintro ⟨hs', ids, hids⟩
      obtain ⟨a, ha⟩ := (Posted.eq_of_isDigit hs).resolve_left hs'
      exact ⟨a :: ids, by rw [List.map_cons, List.map_cons, ha, hids]⟩

/-- The schedules with the numbers that are read are those that are asked for. -/
theorem filter_own_eq {ids : List ℕ} (h : form.schedules.map Prod.snd = ids.map Posted.value) :
    (db.schedules.rows.filter fun s =>
      ids.contains s.id && s.faculty == user && s.status == .active) =
        form.ownSchedules db user := by
  refine List.filter_congr fun s _ => ?_
  have hany : form.schedules.any (fun p => p.2 == .value s.id) = ids.contains s.id := by
    have hmap : form.schedules.any (fun p => p.2 == .value s.id) =
        (form.schedules.map Prod.snd).any fun p => p == .value s.id := by
      rw [List.any_map]
      rfl
    rw [hmap, h, Bool.eq_iff_iff, List.any_eq_true, List.contains_iff_mem]
    constructor
    · rintro ⟨p, hp, heq⟩
      obtain ⟨a, ha, rfl⟩ := List.mem_map.mp hp
      cases eq_of_beq heq
      exact ha
    · intro hmem
      exact ⟨_, List.mem_map_of_mem hmem, beq_self_eq_true _⟩
  rw [hany]

/-- The preferred rooms are not read if the first of them that is no number is raised on. -/
theorem readPreferred_eq_value_iff {schedules : List Schedule} :
    db.readPreferred form.preferredRoom schedules = .error .value ↔ form.RoomRaises schedules := by
  unfold ShiftForm.RoomRaises
  induction schedules with
  | nil => exact iff_of_false (fun h => nomatch h) fun ⟨_, h, _⟩ => absurd h.mem List.not_mem_nil
  | cons s rest ih =>
    simp only [Search.first_cons_iff]
    unfold Db.readPreferred
    cases hroom : form.preferredRoom s.id with
    | blank =>
      rw [if_pos rfl, ih]
      simp
    | unreadable =>
      rw [if_neg (by decide)]
      refine iff_of_false (fun h => nomatch h) ?_
      rintro ⟨a, ⟨-, rfl⟩ | ⟨hnone, -⟩, ha⟩
      · rw [hroom] at ha
        cases ha
      · exact hnone (.inr rfl)
    | raising =>
      rw [if_neg (by decide)]
      exact iff_of_true rfl ⟨s, .inl ⟨.inl rfl, rfl⟩, hroom⟩
    | value pk =>
      rw [if_neg fun h => nomatch h]
      simp only [Posted.read, reduceCtorEq, or_self, false_and, not_false_eq_true, true_and,
        false_or]
      rw [← ih]
      change (db.readPreferred form.preferredRoom rest >>= _) = _ ↔ _
      rw [bind_eq_error_iff, or_iff_left]
      rintro ⟨more, -, h⟩
      split at h <;> cases h

/-- The checks of the form end with `ValueError` exactly if a text is raised on behind fields
that pass. -/
theorem check_eq_value_iff :
    form.check db user now = .error .value ↔ form.Raises db user := by
  unfold ShiftForm.check ShiftForm.Raises
  cases form.target with
  | none => exact iff_of_false (fun h => nomatch h) fun h => nomatch h.1
  | some target =>
    dsimp only
    simp only [Option.isSome_some, true_and]
    split
    · rename_i hempty
      exact iff_of_false (fun h => nomatch h) fun h => h.1 (List.isEmpty_iff.mp hempty)
    rename_i hchosen
    rw [List.isEmpty_iff] at hchosen
    split
    · rename_i hdigits
      refine iff_of_false (fun h => nomatch h) fun h => ?_
      rw [List.all_eq_true.mpr h.2.1] at hdigits
      cases hdigits
    rename_i hdigits
    have hdigits : ∀ s ∈ form.schedules, s.2.isDigit = true := by
      simpa using hdigits
    rw [and_iff_right hchosen, and_iff_right hdigits]
    -- behind the digits, each part is reached if those before it are read
    refine bind_fails_iff readWindow_eq_value_iff readWindow_returns_iff fun window _ => ?_
    refine bind_fails_iff readTimes_eq_value_iff readTimes_returns_iff fun time _ => ?_
    refine bind_fails_iff (mapM_read_eq_value_iff hdigits) (mapM_read_returns_iff hdigits)
      fun ids hids => ?_
    rw [filter_own_eq (mapM_read_eq_ok_iff.mp hids)]
    split
    · rename_i hforeign
      exact iff_of_false (fun h => nomatch h) fun h => hforeign h.1
    · rename_i hown
      rw [and_iff_right (not_not.mp hown), bind_eq_error_iff, readPreferred_eq_value_iff,
        or_iff_left]
      rintro ⟨_, -, h⟩
      cases h

end

/-! ### The service behind the form -/

section

variable {pk : ℕ} {faculty : User} {schedules : List Schedule} {target : Modality}
  {windowStart windowEnd : ℤ} {time : Option (TimeOfDay × TimeOfDay)} {dean : ℕ} {now : ℤ}

theorem raisesOnly_gatherSessions (schedules : List Schedule) :
    (gatherSessions windowStart windowEnd schedules).RaisesOnly (· ≠ .value) := by
  induction schedules with
  | nil => exact trivial
  | cons sched rest ih =>
    exact (Prog.raisesOnly_select _).bind fun _ => ih.bind fun _ => Prog.raisesOnly_pure _

theorem raisesOnly_roomFreeForAll (room : ℕ) (sessions : List Session) :
    (roomFreeForAll room sessions).RaisesOnly (· ≠ .value) := by
  induction sessions with
  | nil => exact trivial
  | cons s rest ih => exact (Prog.raisesOnly_select _).bind fun rooms => .ite ih trivial

theorem raisesOnly_validatePreferred (preferred : ℕ → Option ℕ) (sessions : List (ℕ × List Session))
    (schedules : List Schedule) :
    (validatePreferred preferred sessions schedules).RaisesOnly (· ≠ .value) := by
  induction schedules with
  | nil => exact trivial
  | cons sched rest ih =>
    unfold validatePreferred
    split
    · exact ih
    · rename_i room _
      have hmore : ∀ ok : Bool, (do
          let more ← validatePreferred preferred sessions rest
          pure ((sched.id, if ok then some room else none) :: more) :
            M (List (ℕ × Option ℕ))).RaisesOnly (· ≠ .value) :=
        fun ok => ih.bind fun _ => Prog.raisesOnly_pure _
      dsimp only
      split
      · exact hmore false
      · exact (raisesOnly_roomFreeForAll _ _).bind hmore

theorem raisesOnly_lockWritableTerm (term : ℕ) :
    (lockWritableTerm term).RaisesOnly (· ≠ .value) := by
  refine Prog.RaisesOnly.bind ?_ fun term => .ite nofun (Prog.raisesOnly_pure _)
  refine (Prog.raisesOnly_lock _).bind fun _ => (Prog.raisesOnly_select _).bind fun row => ?_
  cases row with
  | none => exact nofun
  | some term => exact Prog.raisesOnly_pure _

/-- What raises in the block that writes the request are its lock and its keys. -/
theorem raisesOnly_writeRequest {term : ℕ} {preferred : List (ℕ × Option ℕ)} :
    (writeRequest pk faculty schedules term target windowStart windowEnd time dean
      preferred).RaisesOnly (· ≠ .value) := by
  have hkey : ∀ fresh : Bool, (if fresh then pure () else .raise .integrity : M Unit).RaisesOnly
      (· ≠ .value) := fun fresh => .ite (Prog.raisesOnly_pure _) nofun
  refine Prog.RaisesOnly.atomic ((raisesOnly_lockWritableTerm term).bind fun _ => ?_)
  refine Prog.RaisesOnly.bind ((Prog.raisesOnly_modifyGet _ _).bind hkey) fun _ => ?_
  refine Prog.RaisesOnly.bind (Prog.RaisesOnly.forEach (fun sched =>
    (Prog.raisesOnly_modifyGet _ _).bind hkey) schedules) fun _ => ?_
  refine (Prog.raisesOnly_modify _).bind fun _ => (Prog.raisesOnly_modify _).bind fun _ => ?_
  exact Prog.raisesOnly_pure _

theorem raisesOnly_checkNoRequest (sched : Schedule) :
    (checkNoRequest faculty.id now sched).RaisesOnly (· ≠ .value) :=
  (Prog.raisesOnly_select _).bind fun _ => .ite nofun (Prog.raisesOnly_pure _)

theorem raisesOnly_checkNewTime (time : TimeOfDay × TimeOfDay) (s : Session) :
    (checkNewTime faculty.id time s).RaisesOnly (· ≠ .value) :=
  (Prog.raisesOnly_select _).bind fun _ => .ite nofun (Prog.raisesOnly_pure _)

/-- The service raises no `ValueError`. -/
theorem raisesOnly_submitModalityShift {target : Option Modality} {preferred : ℕ → Option ℕ} :
    (submitModalityShift pk faculty schedules target windowStart windowEnd preferred time
      now).RaisesOnly (· ≠ .value) := by
  unfold submitModalityShift
  refine .ite nofun (Prog.RaisesOnly.bind ?_ fun term => ?_)
  · unfold singleTermIdForSchedules
    split
    · exact Prog.raisesOnly_pure _
    · exact nofun
  cases target with
  | none => exact nofun
  | some target =>
    refine .ite nofun (Prog.RaisesOnly.bind (.forEach raisesOnly_checkNoRequest _) fun _ => ?_)
    refine .ite nofun ((raisesOnly_gatherSessions schedules).bind fun sessions => ?_)
    split
    · exact nofun
    refine (Prog.raisesOnly_select _).bind fun early => .ite ?_ nofun
    refine (Prog.raisesOnly_select _).bind fun route => ?_
    cases route with
    | none => exact nofun
    | some dean =>
      cases time with
      | none => exact (raisesOnly_validatePreferred _ _ _).bind fun _ => raisesOnly_writeRequest
      | some time =>
        exact Prog.RaisesOnly.bind (.forEach (raisesOnly_checkNewTime time) _) fun _ =>
          (raisesOnly_validatePreferred _ _ _).bind fun _ => raisesOnly_writeRequest

/-- The view raises `ValueError` exactly if a text of the form is raised on behind fields that
pass their checks. -/
theorem modalityNew_raises_iff {user : User} {form : ShiftForm} {readAt : ℤ} {db : Db} :
    ((modalityNew pk user form readAt now).run db).1 = .error .value ↔ form.Raises db user.id := by
  have hforms : form.check db user.id readAt = .error .value ↔ form.Raises db user.id :=
    check_eq_value_iff
  rw [← hforms, modalityNew, Prog.run_select_bind]
  cases hcheck : form.check db user.id readAt with
  | error failure =>
    cases failure with
    | shown message => exact iff_of_false (by rintro ⟨⟩) (by rintro ⟨⟩)
    | value => exact iff_of_true rfl rfl
  | ok fields =>
    refine iff_of_false (fun h => ?_) (by rintro ⟨⟩)
    -- the page shows what the service refuses and passes every other exception on
    refine (Prog.RaisesOnly.elim (E := (· ≠ .value)) raisesOnly_submitModalityShift
      (fun _ => Prog.raisesOnly_pure _) fun e he => ?_).of_run h rfl
    cases e <;> first | exact Prog.raisesOnly_pure _ | exact he

end

/-- The scope of a report is returned exactly if the term's number is one and, once a term is
found, no date of the query is shaped like a date without being one; a default window that is
the reporting week makes no difference. The reporting week needs its two dates to be possible.
The form of a shift request is answered without `ValueError` exactly if no such text is reached
behind fields that pass their checks. -/
theorem filters_return_iff (tables : TextTables) (parsers : DateParsers) :
    (∀ (db : Db) (w : AcademicTerm → ℤ × ℤ) (get : QueryDict) (today : ℤ),
      (∃ r, db.reportScope tables parsers (fun t => .ok (w t)) get today = .ok r) ↔
        (∀ raw, get "term" = some raw → PossibleNumber tables (Py.strip raw)) ∧
        ∀ term, db.SelectsTerm tables get term →
          ∀ key ∈ ["from", "to", "as_of"], get.PossibleDate parsers key) ∧
    (∀ (db : Db) (weekStart : String) (get : QueryDict) (today : ℤ),
      (∃ r, db.weekScope tables parsers weekStart get today = .ok r) ↔
        (∀ raw, get "term" = some raw → PossibleNumber tables (Py.strip raw)) ∧
        ∀ term, db.SelectsTerm tables get term →
          ∀ key ∈ ["from", "to", "as_of"], get.PossibleDate parsers key) ∧
    (∀ (weekStart : String) (get : QueryDict) (today : ℤ),
      (∃ r, reportingRange tables parsers weekStart get today = .ok r) ↔
        ∀ key ∈ ["from", "to"], get.PossibleDate parsers key) ∧
    ∀ (db : Db) (pk : ℕ) (user : User) (post : ShiftPost) (readAt now : ℤ),
      ((modalityNew pk user (post.form tables parsers) readAt now).run db).1 ≠ .error .value ↔
        ¬ (post.form tables parsers).Raises db user.id := by
  refine ⟨fun db w get today => ?_, fun db weekStart get today => ?_,
    fun weekStart get today => reportingRange_returns_iff,
    fun db pk user post readAt now => not_congr modalityNew_raises_iff⟩
  · rw [reportScope_returns_iff]
    exact and_congr_right fun _ => forall₂_congr fun term _ =>
      and_iff_right (termWindow_returns term)
  · rw [Db.weekScope, reportScope_returns_iff]
    refine and_congr_right fun _ => forall₂_congr fun term _ => ⟨And.right, fun h => ⟨?_, h⟩⟩
    refine termWindow_week_returns (fun key hkey => h key ?_) term
    rcases List.mem_cons.mp hkey with rfl | hkey
    · exact List.mem_cons_self
    · rw [List.mem_singleton.mp hkey]
      decide

namespace Campus

/-- A post for the nine o'clock class with a date that is none. -/
def impossiblePost : ShiftPost where
  targetModality := some "online"
  windowMode := some "single"
  weeks := none
  onDate := some "1970-13-45"
  schedules := ["1"]
  newStartTime := none
  newEndTime := none
  preferredRoom := fun _ => none

end Campus

open Campus in
/-- A date in a thirteenth month ends all three with `ValueError`. -/
theorem filters_raise_impossible_date :
    (¬ ∀ (db : Db) (get : QueryDict) (today : ℤ), ∃ r,
      db.reportScope asciiTables isoParsers (fun t => .ok (hrDefaultWindow t)) get today = .ok r) ∧
    (¬ ∀ (get : QueryDict) (today : ℤ), ∃ r,
      reportingRange asciiTables isoParsers "monday" get today = .ok r) ∧
    ¬ ∀ (db : Db) (pk : ℕ) (user : User) (post : ShiftPost) (readAt now : ℤ),
      ((modalityNew pk user (post.form asciiTables isoParsers) readAt now).run db).1 ≠
        .error .value := by
  have hdate : (plainQuery "from=1970-13-45").readDate isoParsers "from" = .error .value := by
    decide +kernel
  have hscope : campus.reportScope asciiTables isoParsers (fun t => .ok (hrDefaultWindow t))
      (plainQuery "from=1970-13-45") 0 = .error .value := by
    decide +kernel
  refine ⟨fun h => ?_, fun h => ?_, fun h => ?_⟩
  · obtain ⟨r, hr⟩ := h campus (plainQuery "from=1970-13-45") 0
    cases hscope.symm.trans hr
  · obtain ⟨r, hr⟩ := h (plainQuery "from=1970-13-45") 0
    obtain ⟨start, hstart, -⟩ := bind_eq_ok_iff.mp hr
    cases hdate.symm.trans hstart
  · refine h campus 1 dean impossiblePost 0 0 (modalityNew_raises_iff.mpr ⟨by decide +kernel,
      by decide +kernel, by decide +kernel, .inl ?_⟩)
    have hmode : impossiblePost.mode = "single" := by decide +kernel
    have hraises : Posted.ofParsed isoParsers.parseDate (postText impossiblePost.onDate) =
        .raising := by
      decide +kernel
    rw [ShiftPost.form, if_pos hmode]
    exact hraises

end FluxTrack
