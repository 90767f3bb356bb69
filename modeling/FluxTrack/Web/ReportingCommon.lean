import FluxTrack.Data.QueryText
import FluxTrack.Scheduling.Importing
import FluxTrack.Web.Hr
import FluxTrack.Web.ModalityShifts

/-!
# Filters as texts

The views of `web/reporting_common.py` and `web/faculty.py` on the texts of a request. A text is
read as a date or a time by a parser that answers `None` for what is not shaped like one and
raises `ValueError` for one that is no date or time, and as a number by `int` where `isdigit`
accepts it, which accepts more.

## Main definitions

* `DateParsers`, `QueryDict` — the parsers and the parameters of a request
* `Db.reportScope` — `selected_report_scope` of a request
* `reportingRange` — `reporting_range`
* `PageScope.scopeQuery` — the query of a scope
* `ShiftPost.form` — the form of `modality_new` as it is read

## Main results

* `reportScope_eq_ok_iff` — without a `ValueError` the texts are read before the scope is made
-/

namespace FluxTrack

open Calendar Relational

/-! ### Texts -/

/-- What a parser makes of a text: `None`, `ValueError`, or a value. -/
inductive Parsed (α : Type)
  | nothing
  | raising
  | value (a : α)
  deriving DecidableEq

/-- `parse_date` and `parse_time`; the empty text has the shape of neither. -/
structure DateParsers where
  parseDate : String → Parsed ℤ
  parseTime : String → Parsed TimeOfDay
  parseDate_empty : parseDate "" = .nothing
  parseTime_empty : parseTime "" = .nothing

/-- `request.GET`: the last value of each parameter. -/
def QueryDict := String → Option String

/-- `(request.GET.get(key) or "").strip()`. -/
def QueryDict.text (get : QueryDict) (key : String) : String := Py.strip ((get key).getD "")

/-- A date parameter: not given, no date, or a date. -/
def QueryDict.readDate (get : QueryDict) (parsers : DateParsers) (key : String) :
    Except Err (Option (Option ℤ)) :=
  if get.text key = "" then .ok none
  else
    match parsers.parseDate (get.text key) with
    | .nothing => .ok (some none)
    | .raising => .error .value
    | .value d => .ok (some (some d))

/-! ### The scope of a report -/

/-- The term of a request, or one of the named error states. -/
def Db.requestedTerm (db : Db) (tables : TextTables) (get : QueryDict) :
    Except Err (Except ScopeError AcademicTerm) :=
  match get "term" with
  | none => .ok (db.activeTerm.elim (.error noActiveTerm) .ok)
  | some raw =>
    if tables.isDigit (Py.strip raw) then
      -- not every text of digits is a number
      match tables.int (Py.strip raw) with
      | none => .error .value
      | some pk => .ok ((db.terms.table.get? pk).elim (.error invalidTerm) .ok)
    else .ok (.error invalidTerm)

/-- The window a term starts from: an archived one is shown as a whole. -/
def termWindow (defaultWindow : AcademicTerm → Except Err (ℤ × ℤ)) (term : AcademicTerm) :
    Except Err (ℤ × ℤ) :=
  if term.status = .active then defaultWindow term else .ok (term.startDate, term.endDate)

/-- `selected_report_scope` of a request; the callback may raise too. -/
def Db.reportScope (db : Db) (tables : TextTables) (parsers : DateParsers)
    (defaultWindow : AcademicTerm → Except Err (ℤ × ℤ)) (get : QueryDict) (today : ℤ) :
    Except Err (Except ScopeError PageScope) := do
  match ← db.requestedTerm tables get with
  | .error e => return .error e
  | .ok term => do
    let window ← termWindow defaultWindow term
    let start ← get.readDate parsers "from"
    let finish ← get.readDate parsers "to"
    let asOf ← get.readDate parsers "as_of"
    return .ok (pageScope (fun _ => window) term ⟨some (some term.id), start, finish, asOf⟩ today)

/-- `normalized`. -/
def PageScope.queryParams (scope : PageScope) : List (String × String) :=
  [("term", toString scope.term.id), ("from", Py.isoformat scope.start),
    ("to", Py.isoformat scope.finish), ("as_of", Py.isoformat scope.asOf)]

/-- `scope_query`. -/
def PageScope.scopeQuery (scope : PageScope) : String := Py.urlencode scope.queryParams

/-- `_WEEKDAY_INDEX`. -/
def weekdayIndex (name : String) : ℤ :=
  (([("monday", 0), ("tuesday", 1), ("wednesday", 2), ("thursday", 3), ("friday", 4),
    ("saturday", 5), ("sunday", 6)] : List (String × ℤ)).lookup name).getD 0

/-- The window of a reporting week, with the day it is seen from. -/
structure ReportingRange where
  start : ℤ
  finish : ℤ
  asOf : ℤ
  note : Option String

/-- `reporting_range`; the policy names the first day of the week. -/
def reportingRange (tables : TextTables) (parsers : DateParsers) (weekStart : String)
    (get : QueryDict) (today : ℤ) : Except Err ReportingRange := do
  let defaultStart := today - (weekday today - weekdayIndex (tables.lower weekStart)) % 7
  let start ← get.readDate parsers "from"
  let finish ← get.readDate parsers "to"
  -- one date that is none drops both
  let invalid := start == some none || finish == some none
  let from' := if invalid then defaultStart else start.join.getD defaultStart
  let to' := if invalid then today else finish.join.getD today
  return if to' < from' then
      ⟨defaultStart, today, today,
        some "The start date was after the end date, so we're showing the current week."⟩
    else
      ⟨from', to', today,
        if invalid then some "That date range wasn't valid, so we're showing the current week."
        else none⟩

/-- `_ifo_report_scope` and its sibling for deans: the default is the reporting week. -/
def Db.weekScope (db : Db) (tables : TextTables) (parsers : DateParsers) (weekStart : String)
    (get : QueryDict) (today : ℤ) : Except Err (Except ScopeError PageScope) :=
  db.reportScope tables parsers
    (fun _ => (reportingRange tables parsers weekStart get today).map fun r => (r.start, r.finish))
    get today

/-! ### The form of a shift request -/

/-- A text that is read as a number where it is one of digits. -/
def Posted.ofNumber (tables : TextTables) (text : String) : Posted ℕ :=
  if text = "" then .blank
  else if tables.isDigit text then (tables.int text).elim .raising .value
  else .unreadable

/-- A text that is parsed. -/
def Posted.ofParsed {α : Type} (parse : String → Parsed α) (text : String) : Posted α :=
  if text = "" then .blank
  else
    match parse text with
    | .nothing => .unreadable
    | .raising => .raising
    | .value a => .value a

/-- `Modality.values`. -/
def Modality.ofValue : String → Option Modality
  | "f2f" => some .f2f
  | "blended" => some .blended
  | "online" => some .online
  | _ => none

/-- `request.POST` of `modality_new`. -/
structure ShiftPost where
  targetModality : Option String
  windowMode : Option String
  weeks : Option String
  onDate : Option String
  schedules : List String
  newStartTime : Option String
  newEndTime : Option String
  preferredRoom : ℕ → Option String

/-- `(request.POST.get(key) or "").strip()`. -/
def postText (raw : Option String) : String := Py.strip (raw.getD "")

/-- The window mode; weeks unless a mode is given. -/
def ShiftPost.mode (post : ShiftPost) : String :=
  Py.strip (match post.windowMode with
    | none | some "" => "weeks"
    | some raw => raw)

/-- The form as it is read. -/
def ShiftPost.form (tables : TextTables) (parsers : DateParsers) (post : ShiftPost) :
    ShiftForm where
  target := post.targetModality.bind Modality.ofValue
  schedules := post.schedules.map fun s => (s, Posted.ofNumber tables s)
  window :=
    if post.mode = "single" then .single (Posted.ofParsed parsers.parseDate (postText post.onDate))
    else .weeks (Posted.ofNumber tables (postText post.weeks))
  newStartTime := Posted.ofParsed parsers.parseTime (postText post.newStartTime)
  newEndTime := Posted.ofParsed parsers.parseTime (postText post.newEndTime)
  preferredRoom := fun pk => Posted.ofNumber tables (postText (post.preferredRoom pk))

/-! ### What is read -/

section

variable {db : Db} {tables : TextTables} {parsers : DateParsers} {get : QueryDict} {today : ℤ}

theorem bind_eq_ok_iff {ε α β : Type} {x : Except ε α} {f : α → Except ε β} {b : β} :
    (x >>= f) = .ok b ↔ ∃ a, x = .ok a ∧ f a = .ok b := by
  refine ⟨eq_ok_of_bind, ?_⟩
  rintro ⟨a, rfl, h⟩
  exact h

/-- A date is read unless its text is shaped like a date and is none. -/
theorem readDate_returns_iff {key : String} : (∃ d, get.readDate parsers key = .ok d) ↔
    (get.text key ≠ "" → parsers.parseDate (get.text key) ≠ .raising) := by
  unfold QueryDict.readDate
  by_cases hblank : get.text key = ""
  · rw [if_pos hblank]
    exact iff_of_true ⟨none, rfl⟩ fun h => absurd hblank h
  · rw [if_neg hblank]
    cases hparsed : parsers.parseDate (get.text key) with
    | nothing => exact iff_of_true ⟨_, rfl⟩ fun _ => nofun
    | raising => exact iff_of_false (fun ⟨_, h⟩ => by cases h) fun h => h hblank rfl
    | value d => exact iff_of_true ⟨_, rfl⟩ fun _ => nofun

/-- The scope of a request, once a term is found and the dates are read. -/
theorem reportScope_eq_ok_iff {defaultWindow : AcademicTerm → Except Err (ℤ × ℤ)}
    {scope : PageScope} :
    db.reportScope tables parsers defaultWindow get today = .ok (.ok scope) ↔
      ∃ term window start finish asOf, db.requestedTerm tables get = .ok (.ok term) ∧
        termWindow defaultWindow term = .ok window ∧
        get.readDate parsers "from" = .ok start ∧ get.readDate parsers "to" = .ok finish ∧
        get.readDate parsers "as_of" = .ok asOf ∧
        scope =
          pageScope (fun _ => window) term ⟨some (some term.id), start, finish, asOf⟩ today := by
  unfold Db.reportScope
  constructor
  · intro h
    obtain ⟨requested, hterm, h⟩ := eq_ok_of_bind h
    cases requested with
    | error e => cases h
    | ok term =>
      obtain ⟨window, hwindow, h⟩ := eq_ok_of_bind h
      obtain ⟨start, hstart, h⟩ := eq_ok_of_bind h
      obtain ⟨finish, hfinish, h⟩ := eq_ok_of_bind h
      obtain ⟨asOf, hasOf, h⟩ := eq_ok_of_bind h
      cases h
      exact ⟨term, window, start, finish, asOf, hterm, hwindow, hstart, hfinish, hasOf, rfl⟩
  · rintro ⟨term, window, start, finish, asOf, hterm, hwindow, hstart, hfinish, hasOf, rfl⟩
    exact bind_eq_ok_iff.mpr ⟨.ok term, hterm, bind_eq_ok_iff.mpr ⟨window, hwindow,
      bind_eq_ok_iff.mpr ⟨start, hstart, bind_eq_ok_iff.mpr ⟨finish, hfinish,
        bind_eq_ok_iff.mpr ⟨asOf, hasOf, rfl⟩⟩⟩⟩⟩

end

end FluxTrack
