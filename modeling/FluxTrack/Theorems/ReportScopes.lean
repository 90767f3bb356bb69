import FluxTrack.System
import FluxTrack.Theorems.ImportPreview
import FluxTrack.Web.ReportingCommon

/-!
# The scope of a report

A scope lies within its term, is seen from no later than its end and today, and is what its own
query asks for: the links on a page lead to the page that was seen, whatever the request had
been and whatever the default window is then.

## Main definitions

* `Db.ReadsBack` — the query of a scope is read as it was written

## Main results

* `pageScope_bounds`, `pageScope_again` — one window of a term
* `reportScope_bounded`
-/

namespace FluxTrack

open Calendar Relational

/-! ### Windows -/

section

variable {value lower upper : ℤ}

theorem clamp_bounds (h : lower ≤ upper) :
    lower ≤ clamp value lower upper ∧ clamp value lower upper ≤ upper := by
  unfold clamp
  omega

/-- A value within the bounds stays. -/
theorem clamp_of_mem (hlower : lower ≤ value) (hupper : value ≤ upper) :
    clamp value lower upper = value := by
  unfold clamp
  omega

end

section

variable {w : AcademicTerm → ℤ × ℤ} {term : AcademicTerm} {params : ScopeParams} {today : ℤ}

/-- The default window lies within the term. -/
theorem defaultRange_bounds (hterm : term.startDate ≤ term.endDate) :
    term.startDate ≤ (defaultRange w term).1 ∧ (defaultRange w term).1 ≤ (defaultRange w term).2 ∧
      (defaultRange w term).2 ≤ term.endDate := by
  unfold defaultRange
  dsimp only
  generalize (if term.status = .active then w term else (term.startDate, term.endDate)) = window
  split
  · exact ⟨le_refl _, hterm, le_refl _⟩
  · rename_i hordered
    exact ⟨(clamp_bounds hterm).1, not_lt.mp hordered, (clamp_bounds hterm).2⟩

/-- The day a window is seen from. -/
theorem asOf_pageScope (w : AcademicTerm → ℤ × ℤ) (term : AcademicTerm) (params : ScopeParams)
    (today : ℤ) : (pageScope w term params today).asOf =
      if term.startDate ≤ min (pageScope w term params today).finish today then
        clamp (params.asOf.join.getD (min (pageScope w term params today).finish today))
          term.startDate (min (pageScope w term params today).finish today)
      else min (pageScope w term params today).finish today := rfl

/-- A window lies within its term and is not seen from later than its end or today. -/
theorem pageScope_bounds (w : AcademicTerm → ℤ × ℤ) (params : ScopeParams) (today : ℤ)
    (hterm : term.startDate ≤ term.endDate) :
    term.startDate ≤ (pageScope w term params today).start ∧
    (pageScope w term params today).start ≤ (pageScope w term params today).finish ∧
    (pageScope w term params today).finish ≤ term.endDate ∧
    (pageScope w term params today).asOf ≤ min (pageScope w term params today).finish today := by
  have hrange : term.startDate ≤ (pageScope w term params today).start ∧
      (pageScope w term params today).start ≤ (pageScope w term params today).finish ∧
      (pageScope w term params today).finish ≤ term.endDate := by
    unfold pageScope
    dsimp only
    split
    · exact defaultRange_bounds hterm
    · exact ⟨(clamp_bounds hterm).1, not_lt.mp ‹_›, (clamp_bounds hterm).2⟩
  refine ⟨hrange.1, hrange.2.1, hrange.2.2, ?_⟩
  rw [asOf_pageScope]
  split
  · rename_i hbegun
    exact (clamp_bounds hbegun).2
  · exact le_refl _

/-- The window that is asked for by its own dates is the same, without a note. -/
theorem pageScope_again (hterm : term.startDate ≤ term.endDate) (w' : AcademicTerm → ℤ × ℤ)
    (named : Option (Option ℕ)) {scope : PageScope}
    (hscope : scope = pageScope w term params today) :
    pageScope w' term ⟨named, some (some scope.start), some (some scope.finish),
      some (some scope.asOf)⟩ today = { scope with note := none } := by
  have hbounds := pageScope_bounds w params today hterm
  have hasOf := asOf_pageScope w term params today
  have hof : scope.term = term := by
    rw [hscope]
    rfl
  rw [← hscope] at hbounds hasOf
  obtain ⟨hstart, hordered, hfinish, hcap⟩ := hbounds
  have hstart' : clamp scope.start term.startDate term.endDate = scope.start :=
    clamp_of_mem hstart (hordered.trans hfinish)
  have hfinish' : clamp scope.finish term.startDate term.endDate = scope.finish :=
    clamp_of_mem (hstart.trans hordered) hfinish
  have hsome : ∀ d : ℤ, (some (some d) == (some none : Option (Option ℤ))) = false := fun d => rfl
  unfold pageScope
  simp only [Option.join_some, Option.getD_some, hstart', hfinish', if_neg (not_lt.mpr hordered),
    hsome, Bool.or_false, Bool.false_eq_true, if_false]
  by_cases hbegun : term.startDate ≤ min scope.finish today
  · rw [if_pos hbegun] at hasOf
    have hlower : term.startDate ≤ scope.asOf := hasOf ▸ (clamp_bounds hbegun).1
    rw [if_pos hbegun, clamp_of_mem hlower hcap, ← hof]
  · rw [if_neg hbegun] at hasOf
    rw [if_neg hbegun, ← hasOf, ← hof]

end

/-! ### Requests -/

/-- The query of a scope, its number and its dates are read as they were written. -/
structure PageScope.ReadsBack (tables : TextTables) (parsers : DateParsers)
    (queryDict : String → QueryDict) (scope : PageScope) : Prop where
  queryDict : ∀ key, queryDict scope.scopeQuery key = scope.queryParams.lookup key
  isDigit : tables.isDigit (toString scope.term.id) = true
  int : tables.int (toString scope.term.id) = some scope.term.id
  parseDate : ∀ d ∈ [scope.start, scope.finish, scope.asOf],
    parsers.parseDate (Py.isoformat d) = .value d

section

variable {db : Db} {tables : TextTables} {parsers : DateParsers} {get : QueryDict} {today : ℤ}
  {queryDict : String → QueryDict} {scope : PageScope}

/-- The term of a request is a term of the database. -/
theorem get?_of_requestedTerm {term : AcademicTerm}
    (h : db.requestedTerm tables get = .ok (.ok term)) :
    db.terms.table.get? term.id = some term := by
  unfold Db.requestedTerm at h
  split at h
  · -- no term is named, and the active one is taken
    have hactive : db.activeTerm = some term := by
      cases hterm : db.activeTerm with
      | none =>
        rw [hterm] at h
        cases h
      | some t =>
        rw [hterm] at h
        cases h
        rfl
    exact Table.get?_eq_some_iff.mpr ⟨(Db.mem_of_activeTerm hactive).1, rfl⟩
  · split at h
    · split at h
      · cases h
      · rename_i pk _
        cases hget : db.terms.table.get? pk with
        | none =>
          rw [hget] at h
          cases h
        | some t =>
          rw [hget] at h
          cases h
          have hid : term.id = pk := (Table.get?_eq_some_iff.mp hget).2
          rw [hid]
          exact hget
    · cases h

/-- The query of a scope names its term. -/
theorem requestedTerm_scopeQuery (hread : scope.ReadsBack tables parsers queryDict)
    (hterm : db.terms.table.get? scope.term.id = some scope.term) :
    db.requestedTerm tables (queryDict scope.scopeQuery) = .ok (.ok scope.term) := by
  have hraw : queryDict scope.scopeQuery "term" = some (toString scope.term.id) :=
    hread.queryDict "term"
  rw [Db.requestedTerm, hraw]
  dsimp only
  rw [Py.strip_toString, if_pos hread.isDigit, hread.int]
  dsimp only
  rw [hterm]
  rfl

/-- A date in the query of a scope is read. -/
theorem readDate_scopeQuery (hread : scope.ReadsBack tables parsers queryDict) {key : String}
    {d : ℤ} (hkey : scope.queryParams.lookup key = some (Py.isoformat d))
    (hd : d ∈ [scope.start, scope.finish, scope.asOf]) :
    (queryDict scope.scopeQuery).readDate parsers key = .ok (some (some d)) := by
  have htext : (queryDict scope.scopeQuery).text key = Py.isoformat d := by
    rw [QueryDict.text, hread.queryDict, hkey, Option.getD_some, Py.strip_isoformat]
  rw [QueryDict.readDate, htext, if_neg (Py.isoformat_ne_empty d), hread.parseDate d hd]

end

/-- A scope that is returned lies within its term and is seen from no later than its end and
today. Its own query asks for the same scope, on the same day and whatever the default window
is then. -/
theorem reportScope_bounded {db : Db} {tables : TextTables} {parsers : DateParsers}
    {queryDict : String → QueryDict} {defaultWindow : AcademicTerm → Except Err (ℤ × ℤ)}
    {get : QueryDict} {today : ℤ} {scope : PageScope}
    (h : db.reportScope tables parsers defaultWindow get today = .ok (.ok scope))
    (hterm : scope.term.startDate ≤ scope.term.endDate)
    (hread : scope.ReadsBack tables parsers queryDict) :
    (scope.term.startDate ≤ scope.start ∧ scope.start ≤ scope.finish ∧
      scope.finish ≤ scope.term.endDate ∧ scope.asOf ≤ min scope.finish today) ∧
    ∀ window' : AcademicTerm → Except Err (ℤ × ℤ),
      (window' = defaultWindow ∨ ∃ r, window' scope.term = .ok r) →
      ∃ again, db.reportScope tables parsers window' (queryDict scope.scopeQuery) today =
          .ok (.ok again) ∧
        again.term = scope.term ∧ again.start = scope.start ∧ again.finish = scope.finish ∧
        again.asOf = scope.asOf ∧ again.scopeQuery = scope.scopeQuery ∧ again.note = none := by
  obtain ⟨term, window, start, finish, asOf, hrequested, hwindow, -, -, -, hscope⟩ :=
    reportScope_eq_ok_iff.mp h
  have hof : scope.term = term := by
    rw [hscope]
    rfl
  have hbounds := pageScope_bounds (fun _ => window) ⟨some (some term.id), start, finish, asOf⟩
    today (hof ▸ hterm)
  rw [← hscope, ← hof] at hbounds
  refine ⟨hbounds, fun window' hreturns => ⟨{ scope with note := none }, ?_, rfl, rfl, rfl, rfl,
    rfl, rfl⟩⟩
  -- the second run gets a default window too, and does not use it
  obtain ⟨r, hr⟩ : ∃ r, termWindow window' scope.term = .ok r := by
    rcases hreturns with rfl | ⟨r, hr⟩
    · exact ⟨window, hof ▸ hwindow⟩
    · unfold termWindow
      split
      · exact ⟨r, hr⟩
      · exact ⟨_, rfl⟩
  refine reportScope_eq_ok_iff.mpr ⟨scope.term, r, some (some scope.start),
    some (some scope.finish), some (some scope.asOf), ?_, hr, ?_, ?_, ?_, ?_⟩
  · exact requestedTerm_scopeQuery hread (hof ▸ get?_of_requestedTerm hrequested)
  · exact readDate_scopeQuery hread rfl (by simp)
  · exact readDate_scopeQuery hread rfl (by simp)
  · exact readDate_scopeQuery hread rfl (by simp)
  · exact (pageScope_again hterm (fun _ => r) _ (hof.symm ▸ hscope)).symm

deriving instance DecidableEq for PageScope

namespace Campus

/-- The days up to a date since the first of January 1970. -/
def dayNumber (y m d : ℤ) : ℤ :=
  let year := if m ≤ 2 then y - 1 else y
  let month := if m ≤ 2 then m + 9 else m - 3
  let ofEra := year % 400 * 365 + year % 400 / 4 - year % 400 / 100 + (153 * month + 2) / 5 + d - 1
  year / 400 * 146097 + ofEra - 719468

/-- The number that a text of digits is. -/
def decimal (l : List Char) : ℕ := l.foldl (fun n c => 10 * n + (c.toNat - 48)) 0

/-- The dates of the shape `YYYY-MM-DD`. -/
def isoDate (s : String) : Parsed ℤ :=
  match Py.split '-' s with
  | [y, m, d] =>
    if [y, m, d].map String.length = [4, 2, 2] ∧ (y ++ m ++ d).toList.all Char.isDigit then
      let n := dayNumber (decimal y.toList) (decimal m.toList) (decimal d.toList)
      -- an impossible date is not the date of any day
      if Py.isoformat n = s then .value n else .raising
    else .nothing
  | _ => .nothing

/-- The times of the shape `HH:MM`. -/
def isoTime (s : String) : Parsed TimeOfDay :=
  match Py.split ':' s with
  | [h, m] =>
    if [h, m].map String.length = [2, 2] ∧ (h ++ m).toList.all Char.isDigit then
      if hlt : decimal h.toList < 24 ∧ decimal m.toList < 60 then
        .value (.ofHM (decimal h.toList) (decimal m.toList) (by rw [dayLength]; omega))
      else .raising
    else .nothing
  | _ => .nothing

theorem isoDate_empty : isoDate "" = .nothing := by decide +kernel

theorem isoTime_empty : isoTime "" = .nothing := by decide +kernel

/-- Parsers of these shapes. -/
def isoParsers : DateParsers := ⟨isoDate, isoTime, isoDate_empty, isoTime_empty⟩

/-- The fields of a query without quoted characters. -/
def plainFields (s : String) : List (String × String) :=
  (Py.split '&' s).filterMap fun field =>
    match Py.split '=' field with
    | [k, v] => some (k, v)
    | _ => none

/-- The parameters of a query without quoted characters. -/
def plainQuery (s : String) : QueryDict := fun key => (plainFields s).reverse.lookup key

/-- A request for the term from its second week on, in the wrong order of dates. -/
def invertedQuery : QueryDict := plainQuery "term=1&from=1970-02-01&to=1970-01-12&as_of=1970-09-09"

/-- The scope of the whole term that it gets on the tenth of February. -/
def wholeTerm : PageScope :=
  ⟨term, 0, 100, 40, some
    "The start date was after the end date, so the report used the selected term's default range."⟩

end Campus

open Campus in
/-- The dates in the wrong order are dropped; the link to the page asks for the whole term up to
today. -/
theorem reportScope_bounded_inverted :
    campus.reportScope asciiTables isoParsers (fun t => .ok (hrDefaultWindow t)) invertedQuery 40 =
      .ok (.ok wholeTerm) ∧
    wholeTerm.scopeQuery = "term=1&from=1970-01-01&to=1970-04-11&as_of=1970-02-10" ∧
    wholeTerm.asOf ≤ min wholeTerm.finish 40 ∧
    ∃ again, campus.reportScope asciiTables isoParsers (fun t => .ok (hrDefaultWindow t))
      (plainQuery wholeTerm.scopeQuery) 40 = .ok (.ok again) ∧ again.asOf = wholeTerm.asOf := by
  have hscope : campus.reportScope asciiTables isoParsers (fun t => .ok (hrDefaultWindow t))
      invertedQuery 40 = .ok (.ok wholeTerm) := by
    decide +kernel
  have hquery : wholeTerm.scopeQuery =
      "term=1&from=1970-01-01&to=1970-04-11&as_of=1970-02-10" := by
    decide +kernel
  have hfields : plainFields wholeTerm.scopeQuery = wholeTerm.queryParams := by
    decide +kernel
  have hread : wholeTerm.ReadsBack asciiTables isoParsers plainQuery :=
    { queryDict := by
        intro key
        rw [plainQuery, hfields, PageScope.queryParams]
        -- no key is given twice
        by_cases hkey : key ∈ ["term", "from", "to", "as_of"]
        · simp only [List.mem_cons, List.not_mem_nil, or_false] at hkey
          rcases hkey with rfl | rfl | rfl | rfl
          · rfl
          · rfl
          · rfl
          · rfl
        · simp only [List.mem_cons, List.not_mem_nil, or_false, not_or] at hkey
          obtain ⟨hterm, hfrom, hto, hasOf⟩ := hkey
          simp [List.lookup_cons, beq_false_of_ne hterm, beq_false_of_ne hfrom, beq_false_of_ne hto,
            beq_false_of_ne hasOf]
      isDigit := by decide +kernel
      int := by decide +kernel
      parseDate := by decide +kernel }
  obtain ⟨hbounds, hagain⟩ := reportScope_bounded hscope (by decide) hread
  obtain ⟨again, hrun, -, -, -, hsame, -, -⟩ := hagain _ (.inl rfl)
  exact ⟨hscope, hquery, hbounds.2.2.2, again, hrun, hsame⟩

end FluxTrack
