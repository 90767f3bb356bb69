import FluxTrack.Data.QueryText
import FluxTrack.Theorems.ImportPreview
import Mathlib.Data.Fintype.Basic
import Mathlib.Tactic.FinCases
import Mathlib.Tactic.IntervalCases

/-!
# Meetings in a schedule cell

Meetings that are written down with their day, their times on a clock of twelve hours and their
room, and joined with commas, are read back as they are.

## Main definitions

* `AsciiDigits` — the table of digits agrees with ASCII
* `Meeting`, `Meeting.text` — a meeting, and how it is written

## Main results

* `parseTime_clockText` — a time of the clock is read back
* `parsePart_text` — a meeting is read back
* `parseMeetings_join` — a list of meetings is read back
-/

namespace FluxTrack

open Calendar

/-- The table of digits agrees with ASCII. -/
def AsciiDigits (tables : TextTables) : Prop :=
  ∀ c : Char, c.toNat < 128 → tables.digit c = if c.isDigit then some (c.toNat - 48) else none

/-! ### Times -/

/-- The digits of an hour of the clock. -/
def hourDigits (h : ℕ) : List Char :=
  if h < 10 then [Nat.digitChar h] else [Nat.digitChar (h / 10), Nat.digitChar (h % 10)]

/-- The digits of a minute. -/
def minuteDigits (m : ℕ) : List Char := [Nat.digitChar (m / 10), Nat.digitChar (m % 10)]

/-- The hour on a clock of twelve hours. -/
def hour12 (h : ℕ) : ℕ := if h % 12 = 0 then 12 else h % 12

/-- `h:mmAM` or `h:mmPM`. -/
def clockText (h m : ℕ) : List Char :=
  hourDigits (hour12 h) ++ ':' :: minuteDigits m ++ [if 12 ≤ h then 'P' else 'A', 'M']

section

variable {tables : TextTables} {h m d : ℕ}

theorem digitChar_spec (hd : d < 10) : (Nat.digitChar d).isDigit = true ∧
    (Nat.digitChar d).toNat = 48 + d := by
  interval_cases d <;> decide

theorem digit_digitChar (hascii : AsciiDigits tables) (hd : d < 10) :
    tables.digit (Nat.digitChar d) = some d := by
  obtain ⟨hdigit, hnat⟩ := digitChar_spec hd
  rw [hascii _ (by omega), if_pos hdigit, hnat, Nat.add_sub_cancel_left]

theorem number_hourDigits (hascii : AsciiDigits tables) (hh : h < 100) :
    tables.number (hourDigits h) = h := by
  unfold hourDigits TextTables.number
  split
  · simp [digit_digitChar hascii (by assumption : h < 10)]
  · simp [digit_digitChar hascii (by omega : h / 10 < 10),
      digit_digitChar hascii (by omega : h % 10 < 10)]
    omega

theorem number_minuteDigits (hascii : AsciiDigits tables) (hm : m < 100) :
    tables.number (minuteDigits m) = m := by
  simp only [minuteDigits, TextTables.number, List.foldl_cons, List.foldl_nil,
    digit_digitChar hascii (by omega : m / 10 < 10), digit_digitChar hascii (by omega : m % 10 < 10),
    Option.getD_some]
  omega

/-- The hour of the clock and its half of the day are the hour. -/
theorem hourOf_hour12 (hh : h < 24) : hourOf (hour12 h) (decide (12 ≤ h)) = h := by
  unfold hourOf hour12
  interval_cases h <;> rfl

theorem hour12_bounds (h : ℕ) : 1 ≤ hour12 h ∧ hour12 h ≤ 12 := by
  unfold hour12
  split <;> omega

theorem isDigit_of_mem_hourDigits {c : Char} (hc : c ∈ hourDigits (hour12 h)) :
    c.isDigit = true := by
  have hbounds := hour12_bounds h
  unfold hourDigits at hc
  split at hc
  · rw [List.mem_singleton.mp hc]
    exact (digitChar_spec (by omega)).1
  · rcases List.mem_pair.mp hc with rfl | rfl
    · exact (digitChar_spec (by omega)).1
    · exact (digitChar_spec (by omega)).1

theorem isDigit_of_mem_minuteDigits {c : Char} (hm : m < 60) (hc : c ∈ minuteDigits m) :
    c.isDigit = true := by
  rcases List.mem_pair.mp hc with rfl | rfl
  · exact (digitChar_spec (by omega)).1
  · exact (digitChar_spec (by omega)).1

/-- The characters of a time. -/
theorem mem_clockText {c : Char} (hm : m < 60) (hc : c ∈ clockText h m) :
    c.isDigit = true ∨ c ∈ [':', 'A', 'P', 'M'] := by
  rcases List.mem_append.mp hc with hc | hc
  · rcases List.mem_append.mp hc with hc | hc
    · exact .inl (isDigit_of_mem_hourDigits hc)
    · rcases List.mem_cons.mp hc with rfl | hc
      · exact .inr (by decide)
      · exact .inl (isDigit_of_mem_minuteDigits hm hc)
  · rcases List.mem_pair.mp hc with rfl | rfl
    · split <;> exact .inr (by decide)
    · exact .inr (by decide)

theorem isTimeChar_of_mem_clockText {c : Char} (hm : m < 60) (hc : c ∈ clockText h m) :
    isTimeChar c = true := by
  rcases mem_clockText hm hc with hdigit | hletter
  · rw [Char.isDigit, Bool.and_eq_true, decide_eq_true_iff, decide_eq_true_iff] at hdigit
    simp only [isTimeChar, Bool.or_eq_true, decide_eq_true_eq]
    exact .inl (.inl (.inl (.inl (.inl hdigit))))
  · simp only [List.mem_cons, List.not_mem_nil, or_false] at hletter
    rcases hletter with rfl | rfl | rfl | rfl <;> rfl

theorem not_isSpace_of_mem_clockText {c : Char} (hm : m < 60) (hc : c ∈ clockText h m) :
    Py.isSpace c = false := by
  rcases mem_clockText hm hc with hdigit | hletter
  · exact Py.not_isSpace_of_isDigit hdigit
  · simp only [List.mem_cons, List.not_mem_nil, or_false] at hletter
    rcases hletter with rfl | rfl | rfl | rfl <;> rfl

/-- The digits of the hour are one or two. -/
theorem prefers_hourDigits (hascii : AsciiDigits tables) (rest : List Char) :
    let digit : Char → Bool := fun c => (tables.digit c).isSome
    Pattern.Prefers (.group (.seq (.char digit) (.opt (.char digit)))) (hourDigits (hour12 h))
      (':' :: rest) [hourDigits (hour12 h)] := by
  have hbounds := hour12_bounds h
  refine Pattern.Prefers.capture ?_
  unfold hourDigits
  split
  · refine Pattern.Prefers.one_of_two ?_ ?_
    · rw [digit_digitChar hascii (by omega)]
      rfl
    · rintro c ⟨⟩
      rw [hascii ':' (by decide)]
      rfl
  · refine Pattern.Prefers.two_of_two ?_ ?_
    · rw [digit_digitChar hascii (by omega)]
      rfl
    · rw [digit_digitChar hascii (by omega)]
      rfl

/-- The whole time matches, with the hour, the minute and the half of the day. -/
theorem matchStart_clockText (hascii : AsciiDigits tables) (hm : m < 60) :
    (timeRe tables).matchStart (clockText h m) =
      some ⟨[hourDigits (hour12 h), minuteDigits m, [if 12 ≤ h then 'P' else 'A']], []⟩ := by
  have hminute : ∀ d, d < 10 → (tables.digit (Nat.digitChar d)).isSome = true := by
    intro d hd
    rw [digit_digitChar hascii hd]
    rfl
  have hmatch : Pattern.Prefers (timeRe tables)
      (hourDigits (hour12 h) ++ ([':'] ++ (minuteDigits m ++
        ([if 12 ≤ h then 'P' else 'A'] ++ (['M'] ++ ([] ++ [])))))) []
      ([hourDigits (hour12 h)] ++ ([] ++ ([minuteDigits m] ++
        ([[if 12 ≤ h then 'P' else 'A']] ++ ([] ++ ([] ++ [])))))) := by
    refine (prefers_hourDigits hascii _).all_cons (Pattern.Prefers.lit.all_cons ?_)
    refine Pattern.Prefers.all_cons (Pattern.Prefers.capture ?_) ?_
    · exact .two (hminute _ (by omega)) (hminute _ (by omega))
    refine Pattern.Prefers.all_cons (Pattern.Prefers.capture (.char ?_)) ?_
    · split <;> rfl
    refine Pattern.Prefers.all_cons (.opt (.char rfl)) ?_
    exact Pattern.Prefers.stop.all_cons .eps
  have hstart := hmatch.matchStart
  simpa [clockText] using hstart

/-- A time of the clock is read back. -/
theorem parseTime_clockText (hascii : AsciiDigits tables) (hh : h < 24) (hm : m < 60) :
    parseTime tables (clockText h m) = timeOf h m := by
  have hstrip : Py.strip (String.ofList (clockText h m)) = String.ofList (clockText h m) :=
    Py.strip_of_forall_not_isSpace fun c hc =>
      not_isSpace_of_mem_clockText hm (by rwa [String.toList_ofList] at hc)
  -- neither trimming nor the removal of blanks changes the text
  have hblank : (clockText h m).filter (fun c => c != ' ') = clockText h m :=
    List.filter_eq_self.mpr fun c hc => by
      have hspace := not_isSpace_of_mem_clockText hm hc
      rw [bne_iff_ne]
      rintro rfl
      cases hspace
  rw [parseTime, hstrip, String.toList_ofList, hblank, matchStart_clockText hascii hm]
  have hbounds := hour12_bounds h
  have hhalf : ((([if 12 ≤ h then 'P' else 'A'] : List Char) == ['P']) ||
      ([if 12 ≤ h then 'P' else 'A'] == ['p'])) = decide (12 ≤ h) := by
    by_cases hle : 12 ≤ h <;> simp [hle]
  simp only [hhalf, number_hourDigits hascii (by omega : hour12 h < 100),
    number_minuteDigits hascii (by omega : m < 100), hourOf_hour12 hh]

end

/-! ### Meetings -/

/-- A time of whole minutes. -/
structure ClockTime where
  hour : Fin 24
  minute : Fin 60
  deriving DecidableEq

namespace ClockTime

/-- The time as it is written. -/
def text (t : ClockTime) : List Char := clockText t.hour t.minute

/-- The time of the day. -/
def time (t : ClockTime) : TimeOfDay :=
  .ofHM t.hour t.minute (lt_dayLength_of_le ⟨by omega, by omega⟩)

theorem parseTime_text {tables : TextTables} (hascii : AsciiDigits tables) (t : ClockTime) :
    parseTime tables t.text = some t.time := by
  have hle : (t.hour : ℕ) ≤ 23 ∧ (t.minute : ℕ) ≤ 59 := ⟨by omega, by omega⟩
  rw [text, parseTime_clockText hascii t.hour.isLt t.minute.isLt, timeOf, dif_pos hle]
  rfl

end ClockTime

/-- The token of a day of the week. -/
def dayToken : Fin 7 → List Char
  | 0 => ['M']
  | 1 => ['T']
  | 2 => ['W']
  | 3 => ['T', 'H']
  | 4 => ['F']
  | 5 => ['S']
  | 6 => ['S', 'U']

/-- A meeting that a schedule cell can say. -/
structure Meeting where
  day : Fin 7
  start : ClockTime
  finish : ClockTime
  room : String
  roomChars : ∀ c ∈ room.toList, isRoomChar c = true

namespace Meeting

/-- `DAY [START-END] ROOM`. -/
def text (m : Meeting) : String :=
  String.ofList (dayToken m.day ++ ([' '] ++ (['['] ++ (m.start.text ++ (['-'] ++
    (m.finish.text ++ ([']'] ++ ([' '] ++ m.room.toList))))))))

/-- What the meeting is read as. -/
def parsed (m : Meeting) : MeetingParse :=
  ⟨some m.day, some m.start.time, some m.finish.time, m.room⟩

end Meeting

theorem dayMap_dayToken (d : Fin 7) : dayMap (String.ofList (dayToken d)) = some (d : ℕ) := by
  fin_cases d <;> rfl

section

variable {rest : List Char} {c : Char}

/-- A day has one capital or two, and a blank behind. -/
theorem prefers_dayToken (d : Fin 7) :
    Pattern.Prefers (.group (.seq (.char isCapital) (.opt (.char isCapital)))) (dayToken d)
      (' ' :: rest) [dayToken d] := by
  have hblank : ∀ c ∈ (' ' :: rest).head?, isCapital c = false := by
    rintro c ⟨⟩
    rfl
  refine Pattern.Prefers.capture ?_
  fin_cases d
  · exact .one_of_two rfl hblank
  · exact .one_of_two rfl hblank
  · exact .one_of_two rfl hblank
  · exact .two_of_two rfl rfl
  · exact .one_of_two rfl hblank
  · exact .one_of_two rfl hblank
  · exact .two_of_two rfl rfl

/-- A time ends where a character that none has comes next. -/
theorem prefers_time (t : ClockTime) (hrest : ∀ c ∈ rest.head?, isTimeChar c = false) :
    Pattern.Prefers (.group (.plus isTimeChar)) t.text rest [t.text] := by
  have htime : ∀ c ∈ t.text, isTimeChar c = true :=
    fun c hc => isTimeChar_of_mem_clockText t.minute.isLt hc
  have hne : t.text ≠ [] := by simp [ClockTime.text, clockText]
  obtain ⟨c, cs, htext⟩ := List.exists_cons_of_ne_nil hne
  rw [htext] at htime ⊢
  exact Pattern.Prefers.group (Pattern.Prefers.plus (htime c List.mem_cons_self)
    (fun d hd => htime d (List.mem_cons_of_mem c hd)) hrest)

theorem not_isSpace_of_isRoomChar (hc : isRoomChar c = true) : Py.isSpace c = false := by
  simp only [isRoomChar, isCapital, Bool.or_eq_true, decide_eq_true_eq, Char.le_def,
    UInt32.le_iff_toNat_le, beq_iff_eq] at hc
  have hcode : ('A'.toNat ≤ c.toNat ∧ c.toNat ≤ 'Z'.toNat ∨ 'a'.toNat ≤ c.toNat ∧
      c.toNat ≤ 'z'.toNat ∨ '0'.toNat ≤ c.toNat ∧ c.toNat ≤ '9'.toNat) ∨ c = '-' := by
    tauto
  rcases hcode with hcode | rfl
  · simp only [Char.reduceToNat] at hcode
    unfold Py.isSpace
    simp only [Bool.or_eq_false_iff, Bool.and_eq_false_iff, decide_eq_false_iff_not,
      beq_eq_false_iff_ne]
    omega
  · rfl

/-- A written meeting matches as a whole. -/
theorem search_meeting (m : Meeting) : meetRe.search m.text.toList =
    some ⟨[dayToken m.day, m.start.text, m.finish.text, m.room.toList], []⟩ := by
  have hnonblank : ∀ c ∈ m.room.toList.head?, Py.isSpace c = false := fun c hc =>
    not_isSpace_of_isRoomChar (m.roomChars c (List.mem_of_head? hc))
  have hmatch : Pattern.Prefers meetRe
      (dayToken m.day ++ ([' '] ++ (['['] ++ (m.start.text ++ (['-'] ++ (m.finish.text ++ ([']'] ++
        ([' '] ++ (m.room.toList ++ []))))))))) []
      ([dayToken m.day] ++ ([] ++ ([] ++ ([m.start.text] ++ ([] ++ ([m.finish.text] ++ ([] ++
        ([] ++ ([m.room.toList] ++ []))))))))) := by
    -- one part of the pattern after another; each stops where the next one begins
    refine (prefers_dayToken m.day).all_cons ?_
    refine Pattern.Prefers.all_cons (.many (by simp [Py.isSpace]) (by rintro c ⟨⟩; rfl)) ?_
    refine Pattern.Prefers.lit.all_cons ?_
    refine (prefers_time m.start (by rintro c ⟨⟩; rfl)).all_cons (Pattern.Prefers.lit.all_cons ?_)
    refine (prefers_time m.finish (by rintro c ⟨⟩; rfl)).all_cons (Pattern.Prefers.lit.all_cons ?_)
    refine Pattern.Prefers.all_cons (.many (by simp [Py.isSpace]) (by simpa using hnonblank)) ?_
    exact Pattern.Prefers.all_cons
      (Pattern.Prefers.group (.many m.roomChars (by simp))) .eps
  have hsearch := hmatch.search
  simpa [Meeting.text] using hsearch

/-- A meeting is read back. -/
theorem parsePart_text {tables : TextTables} (hascii : AsciiDigits tables) (m : Meeting) :
    parsePart tables m.text = some m.parsed := by
  have hroom : Py.strip m.room = m.room := Py.strip_of_forall_not_isSpace fun c hc =>
    not_isSpace_of_isRoomChar (m.roomChars c hc)
  rw [parsePart, search_meeting]
  change some (MeetingParse.mk _ _ _ _) = _
  rw [dayMap_dayToken, m.start.parseTime_text hascii, m.finish.parseTime_text hascii,
    String.ofList_toList, hroom, Meeting.parsed]

/-- No meeting has a comma in it. -/
theorem comma_notMem_text (m : Meeting) : ',' ∉ m.text.toList := by
  have htime : ∀ t : ClockTime, ',' ∉ t.text := fun t h => by
    cases isTimeChar_of_mem_clockText t.minute.isLt h
  have hday : ',' ∉ dayToken m.day := by
    generalize m.day = d
    fin_cases d <;> decide
  have hroom : ',' ∉ m.room.toList := fun h => by cases m.roomChars ',' h
  rw [Meeting.text, String.toList_ofList]
  simp only [List.mem_append, not_or]
  exact ⟨hday, by decide, by decide, htime m.start, by decide, htime m.finish, by decide,
    by decide, hroom⟩

end

/-- A list of meetings is read back. -/
theorem parseMeetings_join {tables : TextTables} (hascii : AsciiDigits tables) (l : List Meeting) :
    parseMeetings tables (Py.join "," (l.map Meeting.text)) = l.map Meeting.parsed := by
  rcases eq_or_ne l [] with rfl | hne
  · rfl
  · have hsplit : Py.split ',' (Py.join "," (l.map Meeting.text)) = l.map Meeting.text := by
      refine Py.split_join (fun s hs => ?_) (by simpa using hne)
      obtain ⟨m, -, rfl⟩ := List.mem_map.mp hs
      exact comma_notMem_text m
    rw [parseMeetings, hsplit, List.filterMap_map]
    refine (List.filterMap_congr fun m _ => parsePart_text hascii m).trans ?_
    exact congrFun (List.filterMap_eq_map (f := Meeting.parsed)) l

/-- A meeting in a room from noon on, and one without a room up to midnight. -/
def noonAndMidnight : List Meeting :=
  [⟨3, ⟨12, 0⟩, ⟨13, 15⟩, "V-415", List.all_eq_true.mp rfl⟩,
    ⟨0, ⟨0, 5⟩, ⟨23, 59⟩, "", List.all_eq_true.mp rfl⟩]

open Campus in
theorem parseMeetings_join_noon :
    parseMeetings asciiTables "TH [12:00PM-1:15PM] V-415,M [12:05AM-11:59PM] " =
      [⟨some 3, some (.ofHM 12 0), some (.ofHM 13 15), "V-415"⟩,
        ⟨some 0, some (.ofHM 0 5), some (.ofHM 23 59), ""⟩] := by
  have hascii : AsciiDigits asciiTables := fun _ _ => rfl
  have htext : Py.join "," (noonAndMidnight.map Meeting.text) =
      "TH [12:00PM-1:15PM] V-415,M [12:05AM-11:59PM] " := by decide +kernel
  rw [← htext, parseMeetings_join hascii]
  rfl

end FluxTrack
