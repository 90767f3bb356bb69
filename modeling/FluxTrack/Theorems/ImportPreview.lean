import FluxTrack.Scheduling.ImportPlan

/-!
# The preview of an import

The rows of a grid are told apart twice: by the reconciliation that the operator is shown, and
by the importer. Without a filter or a limit the two agree on every row. What both pass over is
a part of a schedule cell that the pattern does not match; and the importer leaves out the
meetings without a room of a row that has others with one.

## Main definitions

* `Buckets` — the counters of the reconciliation
* `nonBlankParts`, `lostParts` — the parts of a row, and those that leave no trace

## Main results

* `length_rowMeetings` — the meetings of a row by kind
* `preview_agrees`
* `parts_accounted_iff`
-/

namespace FluxTrack

open Calendar Relational Process

/-! ### Counts of a row -/

/-- The meeting has no slot. -/
def MeetingParse.slotless (m : MeetingParse) : Bool := m.slot?.isNone

/-- The meeting has a slot and a real room. -/
def MeetingParse.inRoom (tables : TextTables) (sec : String) (m : MeetingParse) : Bool :=
  m.slot?.isSome && isRealRoom tables m.roomRaw sec

/-- The meeting has a slot and no real room. -/
def MeetingParse.roomless (tables : TextTables) (sec : String) (m : MeetingParse) : Bool :=
  m.slot?.isSome && !isRealRoom tables m.roomRaw sec

section

variable {tables : TextTables} {o : ImportOptions} {col : String → Option ℕ} {row : List String}

/-- Without a filter every room passes. -/
theorem admits_of_not_filtered (h : o.filtered = false) (info : RoomInfo) :
    o.admits tables info = true := by
  obtain ⟨hbuilding, hfloor⟩ := Bool.or_eq_false_iff.mp h
  rw [Option.isSome_eq_false_iff, Option.isNone_iff_eq_none] at hfloor
  rw [ImportOptions.admits, hfloor, bne_eq_false_iff_eq.mp hbuilding]
  rfl

/-- One meeting more. -/
theorem length_add (h : o.filtered = false) (sec : String) (ms : RowMeetings) (m : MeetingParse) :
    (ms.add tables o sec m).badTime = ms.badTime + (if m.slotless then 1 else 0) ∧
    (ms.add tables o sec m).real.length = ms.real.length + (if m.inRoom tables sec then 1 else 0) ∧
    (ms.add tables o sec m).roomless.length =
      ms.roomless.length + (if m.roomless tables sec then 1 else 0) := by
  unfold RowMeetings.add MeetingParse.slotless MeetingParse.inRoom MeetingParse.roomless
  cases m.slot? with
  | none => exact ⟨rfl, rfl, rfl⟩
  | some slot =>
    cases hroom : isRealRoom tables m.roomRaw sec with
    | true => simp [admits_of_not_filtered h]
    | false => simp

/-- The meetings of a row by kind. -/
theorem length_rowMeetings (h : o.filtered = false) (schedule sec : String) :
    (rowMeetings tables o schedule sec).badTime =
      (parseMeetings tables schedule).countP MeetingParse.slotless ∧
    (rowMeetings tables o schedule sec).real.length =
      (parseMeetings tables schedule).countP (MeetingParse.inRoom tables sec) ∧
    (rowMeetings tables o schedule sec).roomless.length =
      (parseMeetings tables schedule).countP (MeetingParse.roomless tables sec) := by
  have hfold : ∀ (l : List MeetingParse) (ms : RowMeetings),
      (l.foldl (RowMeetings.add tables o sec) ms).badTime =
        ms.badTime + l.countP MeetingParse.slotless ∧
      (l.foldl (RowMeetings.add tables o sec) ms).real.length =
        ms.real.length + l.countP (MeetingParse.inRoom tables sec) ∧
      (l.foldl (RowMeetings.add tables o sec) ms).roomless.length =
        ms.roomless.length + l.countP (MeetingParse.roomless tables sec) := by
    intro l
    -- from any counters on: the fold goes on where the meetings before have left it
    induction l with
    | nil => exact fun ms => ⟨rfl, rfl, rfl⟩
    | cons m l ih =>
      intro ms
      obtain ⟨hbad, hreal, hroomless⟩ := @length_add tables o h sec ms m
      obtain ⟨ihbad, ihreal, ihroomless⟩ := ih (ms.add tables o sec m)
      rw [List.foldl_cons, ihbad, ihreal, ihroomless, hbad, hreal, hroomless, List.countP_cons,
        List.countP_cons, List.countP_cons]
      omega
  have hrow := hfold (parseMeetings tables schedule) ⟨0, 0, [], []⟩
  simp only [zero_add, List.length_nil] at hrow
  exact hrow

theorem length_realMeetings (schedule sec : String) :
    (realMeetings tables schedule sec).length =
      (parseMeetings tables schedule).countP (MeetingParse.inRoom tables sec) := by
  rw [realMeetings, List.countP_eq_length_filter]
  rfl

/-- A meeting is of one kind. -/
theorem countP_kinds (sec : String) (l : List MeetingParse) :
    l.countP MeetingParse.slotless + l.countP (MeetingParse.inRoom tables sec) +
      l.countP (MeetingParse.roomless tables sec) = l.length := by
  induction l with
  | nil => rfl
  | cons m l ih =>
    have hkind : (if m.slotless then 1 else 0) + (if m.inRoom tables sec then 1 else 0) +
        (if m.roomless tables sec then 1 else 0) = 1 := by
      unfold MeetingParse.slotless MeetingParse.inRoom MeetingParse.roomless
      -- without a slot the room is not asked for
      cases m.slot? <;> cases isRealRoom tables m.roomRaw sec <;> simp
    rw [List.countP_cons, List.countP_cons, List.countP_cons, List.length_cons]
    omega

theorem strip_rowCell (row : List String) (col : String → Option ℕ) (name : String) :
    Py.strip (rowCell row col name) = rowCell row col name := by
  unfold rowCell
  cases col name with
  | none => rfl
  | some i => exact Py.strip_strip _

/-- The kind of a row without a filter, and how many entries its plan has. -/
theorem planEntries_kind (h : o.filtered = false) (courseMode : String) (ms : RowMeetings) :
    (planEntries tables o courseMode ms).1 =
      (if ms.real ≠ [] then .real
        else if tables.lower (Py.strip courseMode) = "online" then .online else .tba) ∧
    (planEntries tables o courseMode ms).2.length =
      if ms.real ≠ [] then ms.real.length else ms.roomless.length := by
  unfold planEntries
  rw [h]
  split
  · exact ⟨rfl, List.length_map _⟩
  · rw [if_neg Bool.false_ne_true]
    split
    · exact ⟨rfl, List.length_map _⟩
    · exact ⟨rfl, List.length_map _⟩

/-- A plan has the meetings in real rooms, or without any the others. -/
theorem length_planEntries (h : o.filtered = false) (courseMode schedule sec : String) :
    (planEntries tables o courseMode (rowMeetings tables o schedule sec)).2.length =
      if (parseMeetings tables schedule).countP (MeetingParse.inRoom tables sec) = 0 then
        (parseMeetings tables schedule).countP (MeetingParse.roomless tables sec)
      else (parseMeetings tables schedule).countP (MeetingParse.inRoom tables sec) := by
  obtain ⟨-, hreal, hroomless⟩ := @length_rowMeetings tables o h schedule sec
  rw [(planEntries_kind h courseMode _).2, ← hreal, ← hroomless]
  by_cases hnil : (rowMeetings tables o schedule sec).real = []
  · rw [if_neg (not_not.mpr hnil), if_pos (List.length_eq_zero_iff.mpr hnil)]
  · rw [if_pos hnil, if_neg (mt List.length_eq_zero_iff.mp hnil)]

/-- Without a limit the loop runs over all rows. -/
theorem planRows_eq_foldl (h : o.limit = 0) (data : List (List String)) (acc : PlanAcc) :
    planRows tables o col data acc = data.foldl (PlanAcc.addRow tables o col) acc := by
  induction data generalizing acc with
  | nil => rfl
  | cons row data ih =>
    rw [planRows, if_neg fun hstop => hstop.1 h, List.foldl_cons]
    exact ih _

end

/-! ### The reconciliation -/

/-- The counters of the reconciliation. -/
structure Buckets where
  noSchedule : ℕ
  intact : ℕ
  roomless : ℕ
  online : ℕ
  totalMeetings : ℕ
  deriving DecidableEq

/-- The counters of the accumulators. -/
def ReconcileAcc.buckets (acc : ReconcileAcc) : Buckets :=
  ⟨acc.noSchedule, acc.intact, acc.roomless, acc.online, acc.totalMeetings⟩

section

variable {tables : TextTables} {col : String → Option ℕ}

theorem buckets_addInstructor (acc : ReconcileAcc) (name email : String) :
    (acc.addInstructor tables name email).buckets = acc.buckets := by
  unfold ReconcileAcc.addInstructor
  dsimp only
  split
  · rfl
  · split <;> rfl

theorem buckets_foldl_addRoom (l : List MeetingParse) (acc : ReconcileAcc) :
    (l.foldl (fun acc m => acc.addRoom tables m.roomRaw) acc).buckets = acc.buckets := by
  induction l generalizing acc with
  | nil => rfl
  | cons m l ih => exact ih _

/-- One row goes to one bucket. -/
theorem buckets_addRow (acc : ReconcileAcc) (row : List String) :
    (acc.addRow tables col row).buckets =
      if rowCell row col "Schedule" = "" then
        { acc.buckets with noSchedule := acc.noSchedule + 1 }
      else
        let real := realMeetings tables (rowCell row col "Schedule") (rowCell row col "Sec")
        let counted := { acc.buckets with totalMeetings := acc.totalMeetings + real.length }
        if real ≠ [] then { counted with intact := acc.intact + 1 }
        else if tables.lower (rowCell row col "Mode") = "online" then
          { counted with online := acc.online + 1 }
        else { counted with roomless := acc.roomless + 1 } := by
  have hfold := @buckets_foldl_addRoom tables
    (realMeetings tables (rowCell row col "Schedule") (rowCell row col "Sec"))
    (acc.addInstructor tables (rowCell row col "Instructor") (rowCell row col "Email"))
  rw [buckets_addInstructor] at hfold
  simp only [ReconcileAcc.buckets, Buckets.mk.injEq] at hfold
  obtain ⟨hno, hintact, hroomless, honline, htotal⟩ := hfold
  have hplain := @buckets_addInstructor tables acc (rowCell row col "Instructor")
    (rowCell row col "Email")
  simp only [ReconcileAcc.buckets, Buckets.mk.injEq] at hplain
  unfold ReconcileAcc.addRow
  dsimp only
  split
  · simp only [ReconcileAcc.buckets, hplain]
  · split
    · simp only [ReconcileAcc.buckets, hno, hintact, hroomless, honline, htotal]
    · split
      · simp only [ReconcileAcc.buckets, hno, hintact, hroomless, honline, htotal]
      · simp only [ReconcileAcc.buckets, hno, hintact, hroomless, honline, htotal]

/-- The rows that are planned in real rooms. -/
def PlanAcc.inRooms (acc : PlanAcc) : List PlannedSection :=
  acc.planned.filter fun p => p.kind == .real

/-- The counters of the importer and of the reconciliation agree so far. -/
structure Agrees (acc : PlanAcc) (b : Buckets) : Prop where
  noSchedule : b.noSchedule = acc.stats.skipNoSchedule
  roomless : b.roomless = acc.stats.tbaRows
  online : b.online = acc.stats.onlineNoRoomRows
  intact : b.intact = acc.inRooms.length
  meetings : b.totalMeetings = (acc.inRooms.map fun p => p.entries.length).sum

/-- One row more, told apart alike by both. -/
theorem Agrees.addRow {o : ImportOptions} (hfilter : o.filtered = false) {acc : PlanAcc}
    {r : ReconcileAcc} (h : Agrees acc r.buckets) (row : List String) :
    Agrees (acc.addRow tables o col row) (r.addRow tables col row).buckets := by
  obtain ⟨hno, hroomless, honline, hintact, hmeetings⟩ := h
  simp only [ReconcileAcc.buckets] at hno hroomless honline hintact hmeetings
  rw [buckets_addRow]
  unfold PlanAcc.addRow
  dsimp only [ReconcileAcc.buckets]
  -- a row with a blank schedule is counted by both and goes no further
  split
  · exact ⟨congrArg (· + 1) hno, hroomless, honline, hintact, hmeetings⟩
  · obtain ⟨hkind, hlength⟩ := @planEntries_kind tables o hfilter (rowCell row col "Mode")
      (rowMeetings tables o (rowCell row col "Schedule") (rowCell row col "Sec"))
    have hreal := (@length_rowMeetings tables o hfilter (rowCell row col "Schedule")
      (rowCell row col "Sec")).2.1.trans (length_realMeetings _ _).symm
    rw [strip_rowCell] at hkind
    -- only the kind of the row and the number of its entries matter from here on
    generalize rowMeetings tables o (rowCell row col "Schedule") (rowCell row col "Sec") = ms at *
    generalize realMeetings tables (rowCell row col "Schedule") (rowCell row col "Sec") = real at *
    generalize planEntries tables o (rowCell row col "Mode") ms = plan at *
    by_cases hsome : real ≠ []
    · -- a row with a real room: both count its rooms
      have hsome' : ms.real ≠ [] := by
        rw [← List.length_pos_iff, hreal]
        exact List.length_pos_iff.mpr hsome
      rw [if_pos hsome'] at hkind hlength
      have hplan : plan.2 ≠ [] := by
        rw [← List.length_pos_iff, hlength]
        exact List.length_pos_iff.mpr hsome'
      rw [if_pos hsome, if_neg hplan, if_neg hplan, hkind]
      refine ⟨hno, hroomless, honline, ?_, ?_⟩
      · rw [PlanAcc.inRooms, List.filter_append, List.length_append, ← PlanAcc.inRooms]
        exact congrArg (· + 1) hintact
      · rw [PlanAcc.inRooms, List.filter_append, List.map_append, List.sum_append,
          ← PlanAcc.inRooms, ← hmeetings, ← hreal, ← hlength]
        rfl
    · -- a row without a real room adds nothing to the rooms
      have hnone' : ¬ ms.real ≠ [] := by
        rw [← List.length_pos_iff, hreal, List.length_pos_iff]
        exact hsome
      have hzero : real.length = 0 := by
        rw [List.length_eq_zero_iff]
        exact not_not.mp hsome
      rw [if_neg hnone'] at hkind
      have hrooms : plan.1 ≠ .real → (if plan.2 = [] then acc.planned
          else acc.planned ++ [⟨row, plan.1, plan.2⟩]).filter (fun p => p.kind == .real) =
            acc.inRooms := by
        intro hne
        split
        · rfl
        · rw [List.filter_append, List.filter_singleton, beq_eq_false_iff_ne.mpr hne]
          exact List.append_nil _
      rw [if_neg hsome, hzero]
      -- the importer and the report read the same cell for the mode
      by_cases hmode : tables.lower (rowCell row col "Mode") = "online"
      · rw [if_pos hmode] at hkind
        rw [if_pos hmode]
        have hrooms := hrooms (by rw [hkind]; decide)
        rw [hkind] at hrooms ⊢
        refine ⟨hno, hroomless, congrArg (· + 1) honline, ?_, ?_⟩
        · rw [PlanAcc.inRooms, hrooms, ← hintact]
        · rw [PlanAcc.inRooms, hrooms, ← hmeetings]
          rfl
      · rw [if_neg hmode] at hkind
        rw [if_neg hmode]
        have hrooms := hrooms (by rw [hkind]; decide)
        rw [hkind] at hrooms ⊢
        refine ⟨hno, congrArg (· + 1) hroomless, honline, ?_, ?_⟩
        · rw [PlanAcc.inRooms, hrooms, ← hintact]
        · rw [PlanAcc.inRooms, hrooms, ← hmeetings]
          rfl

/-- All rows, told apart alike by both. -/
theorem Agrees.foldl {o : ImportOptions} (hfilter : o.filtered = false) (data : List (List String))
    {acc : PlanAcc} {r : ReconcileAcc} (h : Agrees acc r.buckets) :
    Agrees (data.foldl (PlanAcc.addRow tables o col) acc)
      (data.foldl (ReconcileAcc.addRow tables col) r).buckets := by
  induction data generalizing acc r with
  | nil => exact h
  | cons row data ih => exact ih (h.addRow hfilter row)

/-- The rows in the four buckets. -/
def Buckets.rows (b : Buckets) : ℕ := b.noSchedule + b.intact + b.roomless + b.online

theorem rows_addRow (acc : ReconcileAcc) (row : List String) :
    (acc.addRow tables col row).buckets.rows = acc.buckets.rows + 1 := by
  rw [buckets_addRow]
  dsimp only [ReconcileAcc.buckets, Buckets.rows]
  split
  · dsimp only
    omega
  · split
    · dsimp only
      omega
    · split <;> dsimp only <;> omega

/-- Every row goes to one bucket. -/
theorem rows_foldl (data : List (List String)) (acc : ReconcileAcc) :
    (data.foldl (ReconcileAcc.addRow tables col) acc).buckets.rows =
      acc.buckets.rows + data.length := by
  induction data generalizing acc with
  | nil => rfl
  | cons row data ih =>
    rw [List.foldl_cons, ih, rows_addRow, List.length_cons]
    omega

end

/-- The preview agrees with every run over the grid without a filter or a limit. -/
theorem preview_agrees (tables : TextTables) {o : ImportOptions} (hfilter : o.filtered = false)
    (hlimit : o.limit = 0) (col : String → Option ℕ) (data : List (List String)) :
    let run := planGrid tables o col data
    let report := reconcile tables data col
    report.noSchedule = run.stats.skipNoSchedule ∧
      report.roomlessTbaRows = run.stats.tbaRows ∧
      report.onlineNoRoomRows = run.stats.onlineNoRoomRows ∧
      report.intactRows = run.inRooms.length ∧
      report.totalMeetings = (run.inRooms.map fun p => p.entries.length).sum ∧
      report.noSchedule + report.intactRows + report.roomlessTbaRows + report.onlineNoRoomRows =
        report.totalRows := by
  have hstart : Agrees ⟨.zero, []⟩ ReconcileAcc.zero.buckets := ⟨rfl, rfl, rfl, rfl, rfl⟩
  have hend := @Agrees.foldl tables col o hfilter data _ _ hstart
  have hrows := @rows_foldl tables col data .zero
  dsimp only
  -- both loops start at zero and run over all rows
  rw [planGrid, planRows_eq_foldl hlimit]
  refine ⟨hend.noSchedule, hend.roomless, hend.online, hend.intact, hend.meetings, ?_⟩
  exact hrows.trans (Nat.zero_add _)

/-! ### What leaves no trace -/

/-- The parts of a schedule cell that are not blank. -/
def nonBlankParts (schedule : String) : List String :=
  (Py.split ',' schedule).filter fun part => Py.strip part != ""

/-- The entries of all plans. -/
def PlanAcc.entries (acc : PlanAcc) : ℕ := (acc.planned.map fun p => p.entries.length).sum

/-- The parts of a row that neither give an entry nor are counted as skipped: those that the
pattern does not match, and the meetings without a room beside others with one. -/
def lostParts (tables : TextTables) (col : String → Option ℕ) (row : List String) : ℕ :=
  let schedule := rowCell row col "Schedule"
  let sec := rowCell row col "Sec"
  ((nonBlankParts schedule).countP fun part => (parsePart tables part).isNone) +
    if (parseMeetings tables schedule).countP (MeetingParse.inRoom tables sec) = 0 then 0
    else (parseMeetings tables schedule).countP (MeetingParse.roomless tables sec)

section

variable {tables : TextTables} {o : ImportOptions} {col : String → Option ℕ} {row : List String}

theorem needs_meetRe : Pattern.Needs isCapital meetRe := .inl (.inl fun _ h => h)

theorem not_isCapital_of_isSpace {c : Char} (h : Py.isSpace c = true) : isCapital c = false := by
  refine decide_eq_false fun hcapital => ?_
  -- no capital letter is white space
  have hlow : 65 ≤ c.toNat := hcapital.1
  have hhigh : c.toNat ≤ 90 := hcapital.2
  simp only [Py.isSpace, Bool.or_eq_true, Bool.and_eq_true, decide_eq_true_eq, beq_iff_eq] at h
  omega

/-- A part is read as a meeting exactly when the pattern matches it. -/
theorem isSome_parsePart (part : String) :
    (parsePart tables part).isSome = (meetRe.search part.toList).isSome := by
  unfold parsePart
  cases hsearch : meetRe.search part.toList with
  | none => rfl
  | some m =>
    obtain ⟨s, hm⟩ := Pattern.mem_run_of_search hsearch
    -- the four groups of the pattern are there in every match
    have hlength : m.groups.length = 4 := Pattern.length_groups rfl hm
    obtain ⟨groups, rest⟩ := m
    obtain ⟨day, start, finish, room, rfl⟩ : ∃ a b c d, groups = [a, b, c, d] :=
      List.length_eq_four.mp hlength
    rfl

/-- A blank part is no meeting. -/
theorem parsePart_of_blank {part : String} (h : Py.strip part = "") : parsePart tables part = none := by
  have hsearch : meetRe.search part.toList = none := Pattern.search_eq_none needs_meetRe
    fun c hc => not_isCapital_of_isSpace (Py.isSpace_of_strip_eq h c hc)
  rw [← Option.isNone_iff_eq_none, ← Option.not_isSome, isSome_parsePart, hsearch]
  rfl

/-- The parts that are not blank are meetings or no match. -/
theorem length_nonBlankParts (schedule : String) :
    (nonBlankParts schedule).length = (parseMeetings tables schedule).length +
      (nonBlankParts schedule).countP fun part => (parsePart tables part).isNone := by
  rw [parseMeetings, nonBlankParts]
  induction Py.split ',' schedule with
  | nil => rfl
  | cons part parts ih =>
    -- a blank part is neither counted nor read
    by_cases hblank : Py.strip part = ""
    · rw [List.filter_cons_of_neg (by simp [hblank]),
        List.filterMap_cons_none (parsePart_of_blank hblank)]
      exact ih
    · rw [List.filter_cons_of_pos (by simp [hblank]), List.length_cons, List.countP_cons, ih]
      cases hparse : parsePart tables part with
      | none =>
        rw [List.filterMap_cons_none hparse]
        simp
        omega
      | some m =>
        rw [List.filterMap_cons_some hparse]
        simp
        omega

/-- An empty plan is left out. -/
theorem sum_planned (planned : List PlannedSection) (row : List String) (kind : RowKind)
    (entries : List PlanEntry) :
    ((if entries = [] then planned else planned ++ [⟨row, kind, entries⟩]).map
      fun p => p.entries.length).sum =
        (planned.map fun p => p.entries.length).sum + entries.length := by
  split
  · rename_i hnil
    rw [hnil]
    rfl
  · rw [List.map_append, List.sum_append]
    rfl

/-- What a row adds to the plans and to the skipped parts, and what it loses. -/
theorem entries_addRow (hfilter : o.filtered = false) (acc : PlanAcc) (row : List String) :
    (acc.addRow tables o col row).entries + (acc.addRow tables o col row).stats.skipBadTime +
        lostParts tables col row =
      acc.entries + acc.stats.skipBadTime + (nonBlankParts (rowCell row col "Schedule")).length := by
  unfold PlanAcc.addRow
  dsimp only
  split
  · rename_i hblank
    rw [lostParts, hblank]
    rfl
  · have hlength := @length_planEntries tables o hfilter (rowCell row col "Mode")
      (rowCell row col "Schedule") (rowCell row col "Sec")
    have hbad := (@length_rowMeetings tables o hfilter (rowCell row col "Schedule")
      (rowCell row col "Sec")).1
    have hparts := @length_nonBlankParts tables (rowCell row col "Schedule")
    have hkinds := @countP_kinds tables (rowCell row col "Sec")
      (parseMeetings tables (rowCell row col "Schedule"))
    rw [PlanAcc.entries, sum_planned, hlength, lostParts, hbad, hparts]
    dsimp only [PlanAcc.entries]
    -- entries, skipped meetings and lost parts are all the parts there are
    split <;> omega

/-- What all rows add, and what they lose. -/
theorem entries_foldl (hfilter : o.filtered = false) (data : List (List String)) (acc : PlanAcc) :
    (data.foldl (PlanAcc.addRow tables o col) acc).entries +
        (data.foldl (PlanAcc.addRow tables o col) acc).stats.skipBadTime +
        (data.map (lostParts tables col)).sum =
      acc.entries + acc.stats.skipBadTime +
        (data.map fun row => (nonBlankParts (rowCell row col "Schedule")).length).sum := by
  induction data generalizing acc with
  | nil => rfl
  | cons row data ih =>
    have hrow := @entries_addRow tables o col hfilter acc row
    have hrest := ih (acc.addRow tables o col row)
    rw [List.foldl_cons, List.map_cons, List.map_cons, List.sum_cons, List.sum_cons]
    omega

/-- A row loses nothing exactly when the pattern matches each of its parts that is not blank,
and it does not mix meetings with a room and without. -/
theorem lostParts_eq_zero_iff (row : List String) :
    lostParts tables col row = 0 ↔
      (∀ part ∈ nonBlankParts (rowCell row col "Schedule"),
        (meetRe.search part.toList).isSome = true) ∧
      ∀ m ∈ parseMeetings tables (rowCell row col "Schedule"),
        m.inRoom tables (rowCell row col "Sec") = true →
        ∀ m' ∈ parseMeetings tables (rowCell row col "Schedule"),
          m'.roomless tables (rowCell row col "Sec") = false := by
  unfold lostParts
  dsimp only
  rw [Nat.add_eq_zero_iff, List.countP_eq_zero]
  refine and_congr (forall₂_congr fun part _ => ?_) ?_
  · rw [← @isSome_parsePart tables]
    cases parsePart tables part <;> simp
  · by_cases hnone : (parseMeetings tables (rowCell row col "Schedule")).countP
        (MeetingParse.inRoom tables (rowCell row col "Sec")) = 0
    · rw [if_pos hnone]
      exact ⟨fun _ m hm hroom => absurd hroom (List.countP_eq_zero.mp hnone m hm), fun _ => rfl⟩
    · rw [if_neg hnone, List.countP_eq_zero]
      -- with one meeting in a room, those without a room are what is lost
      obtain ⟨m, hm, hroom⟩ := List.countP_pos_iff.mp (Nat.pos_of_ne_zero hnone)
      constructor
      · exact fun hall _ _ _ m' hm' => Bool.eq_false_iff.mpr (hall m' hm')
      · exact fun hall m' hm' => Bool.eq_false_iff.mp (hall m hm hroom m' hm')

end

/-- Every part of a schedule cell that is not blank gives an entry of a plan or is counted as
skipped. -/
def PartsAccounted (tables : TextTables) (o : ImportOptions) (col : String → Option ℕ)
    (data : List (List String)) : Prop :=
  (planGrid tables o col data).entries + (planGrid tables o col data).stats.skipBadTime =
    (data.map fun row => (nonBlankParts (rowCell row col "Schedule")).length).sum

/-- Nothing is dropped exactly when the pattern matches every part that is not blank, and no
row has a meeting in a real room beside one that has a slot and no room. -/
theorem parts_accounted_iff (tables : TextTables) {o : ImportOptions} (hfilter : o.filtered = false)
    (hlimit : o.limit = 0) (col : String → Option ℕ) (data : List (List String)) :
    PartsAccounted tables o col data ↔ ∀ row ∈ data,
      (∀ part ∈ nonBlankParts (rowCell row col "Schedule"),
        (meetRe.search part.toList).isSome = true) ∧
      ∀ m ∈ parseMeetings tables (rowCell row col "Schedule"),
        m.inRoom tables (rowCell row col "Sec") = true →
        ∀ m' ∈ parseMeetings tables (rowCell row col "Schedule"),
          m'.roomless tables (rowCell row col "Sec") = false := by
  have hsum := @entries_foldl tables o col hfilter data ⟨.zero, []⟩
  have hlost : PartsAccounted tables o col data ↔ (data.map (lostParts tables col)).sum = 0 := by
    rw [PartsAccounted, planGrid, planRows_eq_foldl hlimit]
    simp only [PlanAcc.entries, ImportStats.zero, List.map_nil, List.sum_nil] at hsum ⊢
    omega
  rw [hlost, List.sum_eq_zero_iff_forall_eq_nat, List.forall_mem_map]
  exact forall₂_congr fun row _ => lostParts_eq_zero_iff row

namespace Campus

/-- The tables for texts in ASCII. -/
def asciiTables : TextTables where
  upper s := String.ofList (s.toList.map Char.toUpper)
  lower s := String.ofList (s.toList.map Char.toLower)
  title s := s
  slugify s := String.ofList ((s.toList.map Char.toLower).map fun c => if c == ' ' then '-' else c)
  isAlpha c := c.isAlpha
  isDigit s := !s.toList.isEmpty && s.toList.all Char.isDigit
  int s := some (s.toList.foldl (fun n c => 10 * n + (c.toNat - 48)) 0)
  digit c := if c.isDigit then some (c.toNat - 48) else none

/-- The columns of an export. -/
def offeringColumns : String → Option ℕ :=
  columns ["Code", "Sec", "Schedule", "Mode", "Instructor", "Email", "Enrolled"]

/-- A class with a room, a class without one, and a class without a schedule. -/
def offerings : List (List String) :=
  [["CS1", "A1", "F [7:00AM-8:15AM] V415,M [7:00AM-8:15AM] R415", "blended", "Reyes, Ana", "", "30"],
    ["CS2", "A2", "TH [1:00PM-2:15PM]", "f2f", "Reyes, Ana", "", ""],
    ["CS3", "A3", "", "f2f", "Reyes, Ana", "", ""]]

/-- A class that meets in a room on Mondays and has none yet on Tuesdays. -/
def mixedOffering : List (List String) :=
  [["CS4", "A4", "M [7:00AM-8:15AM] R415,T [7:00AM-8:15AM]", "f2f", "Reyes, Ana", "", ""]]

end Campus

open Campus in
/-- One row in rooms with two meetings, one row without a room, one without a schedule. -/
theorem preview_agrees_offerings :
    (reconcile asciiTables offerings offeringColumns).totalMeetings = 2 ∧
    (planGrid asciiTables ⟨"", none, 0, true⟩ offeringColumns offerings).inRooms.length = 1 ∧
    (planGrid asciiTables ⟨"", none, 0, true⟩ offeringColumns offerings).stats.tbaRows = 1 := by
  obtain ⟨-, htba, -, hintact, -, -⟩ := preview_agrees asciiTables (o := ⟨"", none, 0, true⟩) rfl rfl
    offeringColumns offerings
  have hreport : (reconcile asciiTables offerings offeringColumns).totalMeetings = 2 ∧
      (reconcile asciiTables offerings offeringColumns).intactRows = 1 ∧
      (reconcile asciiTables offerings offeringColumns).roomlessTbaRows = 1 := by
    decide +kernel
  exact ⟨hreport.1, hintact.symm.trans hreport.2.1, htba.symm.trans hreport.2.2⟩

open Campus in
/-- All parts of that grid are accounted for. -/
theorem parts_accounted_offerings :
    PartsAccounted asciiTables ⟨"", none, 0, true⟩ offeringColumns offerings :=
  (parts_accounted_iff asciiTables rfl rfl offeringColumns offerings).mpr (by decide +kernel)

open Campus in
/-- The Tuesday of the mixed class is neither planned nor counted. -/
theorem parts_lost_mixedOffering :
    ¬ ∀ (tables : TextTables) (o : ImportOptions) (col : String → Option ℕ)
      (data : List (List String)), o.filtered = false → o.limit = 0 →
        PartsAccounted tables o col data := by
  intro h
  have hsum := h asciiTables ⟨"", none, 0, true⟩ offeringColumns mixedOffering rfl rfl
  have hrun : (planGrid asciiTables ⟨"", none, 0, true⟩ offeringColumns mixedOffering).entries +
      (planGrid asciiTables ⟨"", none, 0, true⟩ offeringColumns mixedOffering).stats.skipBadTime =
        1 := by
    decide +kernel
  have hparts : (mixedOffering.map fun row =>
      (nonBlankParts (rowCell row offeringColumns "Schedule")).length).sum = 2 := by
    decide +kernel
  exact absurd (hrun.symm.trans (hsum.trans hparts)) (by decide)

end FluxTrack
