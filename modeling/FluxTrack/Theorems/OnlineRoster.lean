import FluxTrack.Data.RoundRobin
import FluxTrack.System
import FluxTrack.Verification.OnlineDuty

/-!
# Dealing out the online sessions

The online sessions that nobody owns are dealt out in turn, by the checkers whose posting covers
their start. An owner is on duty when the session starts, no session with a checker is left, and
among the sessions with the same checkers the shares differ by one at most. Only the sessions of
the active term take part, and only the postings that stand or are dated to the day.

## Main definitions

* `Db.unownedOnline`, `Db.postedOnline` — the sessions, and the checkers of each
* `Db.given` — a session that got an owner
* `Db.DutyDealt` — what the assignment does

## Main results

* `assignOnlineSessions_deals` — the assignment, and a second one after it
-/

namespace FluxTrack

open Calendar Relational Process

namespace Db

/-- An unowned online session of the date, in any term. -/
def unownedOnlineOn (db : Db) (date : ℤ) (s : Session) : Bool :=
  s.date == date && s.onlineChecker.isNone && db.effectiveModality s == .online

/-- An unowned online session of the date and the active term. -/
def unownedOnline (db : Db) (date : ℤ) (s : Session) : Bool :=
  db.unownedOnlineOn date s && db.activeTerm.any fun term => db.inTerm term.id s

/-- The checker has an active online posting of the active term that stands or is dated to the
date, and covers the start of the session. -/
def postedOnline (db : Db) (date : ℤ) (s : Session) (checker : ℕ) : Bool :=
  match db.activeTerm with
  | none => false
  | some term =>
    db.assignments.rows.any fun a =>
      a.user == checker && a.role == .checker && a.scope == .online && a.active &&
        a.term == some term.id && a.date.all (· == date) &&
        a.coversNow (localDate s.scheduledStart) (manila.localTime s.scheduledStart)

/-- Between the two states the session got the checker for its owner. -/
def given (db db' : Db) (s : Session) (checker : ℕ) : Bool :=
  (db.sessions.get? s.id).any (fun t => t.onlineChecker.isNone) &&
    (db'.sessions.get? s.id).any fun t => t.onlineChecker == some checker

/-- The assignment for a date, of the sessions that count and the checkers that may own each. -/
structure DutyDealt (db : Db) (date : ℤ) (counts : Session → Bool) (may : Session → ℕ → Bool)
    (answer : ℕ × ℕ) (db' : Db) : Prop where
  sound : ∀ s ∈ db.sessions, ∀ c, db.given db' s c = true → counts s = true ∧ may s c = true
  complete : ∀ s ∈ db.sessions, counts s = true → (∃ c, may s c = true) →
    ∃ c, db.given db' s c = true
  /-- Owned sessions are as they were, and so is whatever got no owner. -/
  kept : ∀ s ∈ db.sessions, (∀ c, db.given db' s c = false) → db'.sessions.get? s.id = some s
  owned : ∀ s ∈ db.sessions, ∀ c, db.given db' s c = true →
    db'.sessions.get? s.id = some (s.assignTo c)
  /-- In a group of sessions with the same checkers the shares of these differ by one at most. -/
  fair : ∀ group : List Session, group.Nodup → ∀ may' : ℕ → Bool,
    (∀ s, s ∈ group ↔ s ∈ db.sessions ∧ counts s = true ∧ ∀ c, may s c = may' c) →
    ∀ c c', may' c = true → may' c' = true →
      group.countP (fun s => db.given db' s c) ≤ group.countP (fun s => db.given db' s c') + 1
  total : answer.1 + answer.2 = (db.sessions.rows.filter counts).length
  /-- One audit row for each assignment, and one notification for each checker with one. -/
  recorded : ∃ owners : List (Session × ℕ), owners.Nodup ∧
    (∀ s c, (s, c) ∈ owners ↔ s ∈ db.sessions ∧ db.given db' s c = true) ∧
    answer.1 = owners.length ∧
    db'.audit = db.audit ++ owners.map (fun e =>
      ⟨none, .sessionOnlineCheckerAssigned e.1.id e.2⟩) ∧
    ∃ notes, db'.notifications = db.notifications ++ notes ∧
      ∀ c n d, notes.count ⟨c, .onlineAssigned n d⟩ =
        if c ∈ owners.map Prod.snd ∧ n = (owners.map Prod.snd).count c ∧ d = date then 1 else 0

end Db

/-! ### Who may own a session -/

section

variable {db : Db} {date : ℤ} {term : AcademicTerm} {s t : Session} {c : ℕ}

theorem mem_candidateOnlineSessions (hterm : db.activeTerm = some term) :
    s ∈ db.candidateOnlineSessions date term.id ↔
      s ∈ db.sessions ∧ db.unownedOnline date s = true := by
  rw [Db.candidateOnlineSessions, List.mem_filter, List.mem_insertionSort, List.mem_filter,
    Db.unownedOnline, Db.unownedOnlineOn, hterm, Option.any_some, Table.mem_rows]
  simp only [Bool.and_eq_true]
  tauto

theorem candidateOnlineSessions_perm (hterm : db.activeTerm = some term) :
    (db.candidateOnlineSessions date term.id).Perm
      (db.sessions.rows.filter (db.unownedOnline date)) := by
  have hnodup : (db.candidateOnlineSessions date term.id).Nodup :=
    (((List.perm_insertionSort _ _).nodup_iff).mpr (db.sessions.rows_nodup.filter _)).filter _
  refine (List.perm_ext_iff_of_nodup hnodup (db.sessions.rows_nodup.filter _)).mpr fun s => ?_
  rw [mem_candidateOnlineSessions hterm, List.mem_filter, Table.mem_rows]

theorem mem_eligibleCheckers (hterm : db.activeTerm = some term) :
    c ∈ eligibleCheckers (db.onlineDutyAssignments date term.id) s ↔
      db.postedOnline date s c = true := by
  rw [eligibleCheckers, List.mem_insertionSort, List.mem_dedup, List.mem_map, Db.postedOnline,
    hterm, List.any_eq_true]
  refine exists_congr fun a => ?_
  rw [List.mem_filter, Db.onlineDutyAssignments, List.mem_insertionSort, List.mem_filter]
  simp only [Bool.and_eq_true, beq_iff_eq]
  tauto

theorem nodup_eligibleCheckers (assignments : List Assignment) (s : Session) :
    (eligibleCheckers assignments s).Nodup :=
  ((List.perm_insertionSort _ _).nodup_iff).mpr (List.nodup_dedup _)

/-- The checkers of a session are in order, so that two sessions have the same list if they have
the same checkers. -/
theorem eligibleCheckers_eq_iff (hterm : db.activeTerm = some term) :
    eligibleCheckers (db.onlineDutyAssignments date term.id) s =
        eligibleCheckers (db.onlineDutyAssignments date term.id) t ↔
      ∀ c, db.postedOnline date s c = db.postedOnline date t c := by
  constructor
  · intro h c
    rw [Bool.eq_iff_iff, ← mem_eligibleCheckers hterm, ← mem_eligibleCheckers hterm, h]
  · intro h
    have hperm : (eligibleCheckers (db.onlineDutyAssignments date term.id) s).Perm
        (eligibleCheckers (db.onlineDutyAssignments date term.id) t) :=
      (List.perm_ext_iff_of_nodup (nodup_eligibleCheckers _ _) (nodup_eligibleCheckers _ _)).mpr
        fun c => by rw [mem_eligibleCheckers hterm, mem_eligibleCheckers hterm, h c]
    exact hperm.eq_of_pairwise' (List.pairwise_insertionSort _ _) (List.pairwise_insertionSort _ _)

/-- Whoever may own a session is on duty when it starts. -/
theorem onlineOnDuty_of_postedOnline (h : db.postedOnline date s c = true) :
    db.onlineOnDuty c s.scheduledStart = true := by
  cases hterm : db.activeTerm with
  | none =>
    simp only [Db.postedOnline, hterm] at h
    cases h
  | some term =>
    simp only [Db.postedOnline, Db.onlineOnDuty, hterm, List.any_eq_true, Bool.and_eq_true] at h ⊢
    obtain ⟨a, ha, ⟨hposting, -⟩, hcovers⟩ := h
    exact ⟨a, ha, hposting, hcovers⟩

/-- A session that starts on the date may be owned by everybody who is on duty then. -/
theorem postedOnline_eq (hdate : localDate s.scheduledStart = date) :
    db.postedOnline date s c = db.onlineOnDuty c s.scheduledStart := by
  refine Bool.eq_iff_iff.mpr ⟨onlineOnDuty_of_postedOnline, fun h => ?_⟩
  cases hterm : db.activeTerm with
  | none =>
    simp only [Db.onlineOnDuty, hterm] at h
    cases h
  | some term =>
    simp only [Db.postedOnline, Db.onlineOnDuty, hterm, List.any_eq_true, Bool.and_eq_true] at h ⊢
    obtain ⟨a, ha, hposting, hcovers⟩ := h
    refine ⟨a, ha, ⟨hposting, ?_⟩, hcovers⟩
    -- a dated posting that covers the start is dated to it
    cases hpost : a.date with
    | none => rfl
    | some d =>
      simp only [Assignment.coversNow, hpost, Bool.and_eq_true, hdate] at hcovers
      exact hcovers.1.1

/-! ### Who gets which session -/

theorem onlineMapping_eq (assignments : List Assignment) (sessions : List Session) :
    onlineMapping assignments sessions =
      (RoundRobin.dealGroups 0 (eligibleCheckers assignments) sessions).map
        (Prod.map Session.id id) := by
  rw [onlineMapping, RoundRobin.dealGroups, List.map_flatMap]
  refine congrArg (List.flatMap · _) (funext fun eligible => ?_)
  rw [distributeOnlineSessions]
  split
  · rfl
  · exact RoundRobin.deal_map 0 eligible Session.id _

/-- The sessions with their new owners, in the order of the sessions. -/
def ownersOf (assignments : List Assignment) (sessions : List Session) : List (Session × ℕ) :=
  sessions.filterMap fun s =>
    ((onlineMapping assignments sessions).find? fun e => e.1 == s.id).map fun e => (s, e.2)

section

variable {assignments : List Assignment} {sessions : List Session}

theorem mem_ownersOf (hids : (sessions.map Session.id).Nodup) :
    (s, c) ∈ ownersOf assignments sessions ↔
      (s, c) ∈ RoundRobin.dealGroups 0 (eligibleCheckers assignments) sessions := by
  have hinj := List.inj_on_of_nodup_map hids
  -- an entry of the mapping names one session only, since the keys differ
  have hkey : ∀ e ∈ onlineMapping assignments sessions, ∀ x ∈ sessions, e.1 = x.id →
      (x, e.2) ∈ RoundRobin.dealGroups 0 (eligibleCheckers assignments) sessions := by
    intro e he x hx hid
    rw [onlineMapping_eq] at he
    obtain ⟨⟨t, y⟩, hmem, rfl⟩ := List.mem_map.mp he
    obtain rfl := hinj (RoundRobin.mem_hands_of_mem_dealGroups hmem).1 hx hid
    exact hmem
  have hfound : ∀ {e x}, (onlineMapping assignments sessions).find? (fun e => e.1 == x.id) =
      some e → x ∈ sessions →
      (x, e.2) ∈ RoundRobin.dealGroups 0 (eligibleCheckers assignments) sessions := by
    intro e x hfind hx
    have hid := List.find?_some hfind
    exact hkey e (List.mem_of_find?_eq_some hfind) x hx (beq_iff_eq.mp hid)
  rw [ownersOf, List.mem_filterMap]
  constructor
  · rintro ⟨x, hx, hmap⟩
    obtain ⟨e, hfind, heq⟩ := Option.map_eq_some_iff.mp hmap
    obtain ⟨rfl, rfl⟩ := Prod.mk.inj heq
    exact hfound hfind hx
  · intro hmem
    have hx := (RoundRobin.mem_hands_of_mem_dealGroups hmem).1
    refine ⟨s, hx, ?_⟩
    cases hfind : (onlineMapping assignments sessions).find? fun e => e.1 == s.id with
    | none =>
      refine absurd (List.find?_eq_none.mp hfind (s.id, c) ?_) (by simp)
      rw [onlineMapping_eq]
      exact List.mem_map_of_mem (f := Prod.map Session.id id) hmem
    | some e =>
      rw [Option.map_some, RoundRobin.eq_of_mem_dealGroups (List.Nodup.of_map Session.id hids)
        (hfound hfind hx) hmem]

theorem map_fst_ownersOf_sublist :
    ((ownersOf assignments sessions).map Prod.fst).Sublist sessions := by
  rw [ownersOf]
  generalize onlineMapping assignments sessions = mapping
  induction sessions with
  | nil => exact List.Sublist.refl _
  | cons x l ih =>
    rw [List.filterMap_cons]
    cases mapping.find? fun e => e.1 == x.id with
    | none => exact ih.cons x
    | some e => exact ih.cons_cons x

end

/-! ### The run -/

/-- The sessions with the owner of one of them written. -/
def withOwner (t : Table Session) (pk checker : ℕ) : Table Session :=
  t.update (fun s => s.id == pk) (Session.assignTo checker) (Session.key_assignTo checker)

/-- The state with the owners written and audited. -/
def Db.withOwners (db : Db) (owners : List (ℕ × ℕ)) : Db :=
  { db with
    sessions := owners.foldl (fun t e => withOwner t e.1 e.2) db.sessions
    audit := db.audit ++ owners.map fun e => ⟨none, .sessionOnlineCheckerAssigned e.1 e.2⟩ }

theorem run_assignSessions (owners : List (ℕ × ℕ)) :
    (Prog.forEach owners assignSession).run db = (.ok ⟨⟩, db.withOwners owners) := by
  induction owners generalizing db with
  | nil =>
    rw [Db.withOwners, List.map_nil, List.append_nil]
    rfl
  | cons e owners ih =>
    have hone : (assignSession e).run db = (.ok ⟨⟩, db.withOwners [e]) := rfl
    rw [Prog.run_forEach_cons hone, ih]
    simp only [Db.withOwners, List.foldl_cons, List.foldl_nil, List.map_cons, List.map_nil,
      List.append_assoc, List.singleton_append]

/-- The notifications of the checkers. -/
def assignedNotes (date : ℤ) (owners : List (ℕ × ℕ)) (checkers : List ℕ) : List Notification :=
  checkers.map fun c => ⟨c, .onlineAssigned ((owners.map Prod.snd).count c) date⟩

theorem run_notifyAssigned {owners : List (ℕ × ℕ)} {checkers : List ℕ}
    (husers : ∀ c ∈ checkers, (db.users.get? c).isSome = true) :
    (Prog.forEach checkers (notifyAssigned date owners)).run db =
      (.ok ⟨⟩, db.withNotes (assignedNotes date owners checkers)) := by
  induction checkers generalizing db with
  | nil =>
    rw [assignedNotes, List.map_nil, Db.withNotes_nil]
    rfl
  | cons c checkers ih =>
    have hone : (notifyAssigned date owners c).run db =
        (.ok ⟨⟩, db.withNotes (assignedNotes date owners [c])) := by
      rw [notifyAssigned, Prog.run_select_bind, if_pos (husers c List.mem_cons_self)]
      rfl
    have hrest : ∀ c' ∈ checkers, ((db.withNotes (assignedNotes date owners [c])).users.get?
        c').isSome = true := fun c' hc' => husers c' (List.mem_cons_of_mem c hc')
    rw [Prog.run_forEach_cons hone, ih hrest, Db.withNotes_withNotes]
    rfl

/-- A session after the owners are written. -/
theorem get?_withOwners (db : Db) {owners : List (ℕ × ℕ)} (hkeys : (owners.map Prod.fst).Nodup)
    (pk : ℕ) :
    (db.withOwners owners).sessions.get? pk =
      (db.sessions.get? pk).map fun s =>
        (owners.find? fun e => e.1 == s.id).elim s fun e => s.assignTo e.2 := by
  rw [Db.withOwners]
  dsimp only
  generalize db.sessions = t
  induction owners generalizing t with
  | nil => simp
  | cons e owners ih =>
    obtain ⟨hnot, hkeys⟩ := List.nodup_cons.mp hkeys
    rw [List.foldl_cons, ih hkeys, withOwner, Table.get?_update, Option.map_map]
    refine congrArg (Option.map · _) (funext fun s => ?_)
    rw [Function.comp_apply, List.find?_cons]
    by_cases hid : s.id = e.1
    · -- no later owner is for the same session
      have hnone : owners.find? (fun e' => e'.1 == e.1) = none :=
        List.find?_eq_none.mpr fun e' he' heq =>
          hnot (List.mem_map.mpr ⟨e', he', beq_iff_eq.mp heq⟩)
      simp [hid, Session.assignTo, hnone]
    · have hne : (e.1 == s.id) = false := beq_eq_false_iff_ne.mpr (Ne.symm hid)
      simp [hid, hne]

/-! ### The owners of a run -/

section

variable {owners : List (Session × ℕ)} {notes : List Notification}

/-- The state after a run that made these owners and notifications. -/
def Db.dealt (db : Db) (owners : List (Session × ℕ)) (notes : List Notification) : Db :=
  (db.withOwners (owners.map (Prod.map Session.id id))).withNotes notes

/-- Each of the sessions is stored, has no owner and gets one. -/
def Db.MayOwn (db : Db) (owners : List (Session × ℕ)) : Prop :=
  (owners.map Prod.fst).Nodup ∧ ∀ e ∈ owners, e.1 ∈ db.sessions ∧ e.1.onlineChecker = none

theorem Db.MayOwn.nodup_ids (h : db.MayOwn owners) :
    ((owners.map (Prod.map Session.id id)).map Prod.fst).Nodup := by
  rw [List.map_map, show Prod.fst ∘ Prod.map Session.id id = Session.id ∘ Prod.fst from rfl,
    ← List.map_map]
  refine h.1.map_on fun a ha b hb hid => ?_
  obtain ⟨e, he, rfl⟩ := List.mem_map.mp ha
  obtain ⟨e', he', rfl⟩ := List.mem_map.mp hb
  exact Table.eq_of_key_eq (h.2 e he).1 (h.2 e' he').1 hid

theorem Db.MayOwn.get?_of_mem (h : db.MayOwn owners) (hmem : (s, c) ∈ owners) :
    (db.dealt owners notes).sessions.get? s.id = some (s.assignTo c) := by
  have hget := get?_withOwners db h.nodup_ids s.id
  have hfind : (owners.map (Prod.map Session.id id)).find? (fun e => e.1 == s.id) =
      some (s.id, c) := by
    cases hfind : (owners.map (Prod.map Session.id id)).find? fun e => e.1 == s.id with
    | none =>
      exact absurd (beq_self_eq_true s.id)
        (List.find?_eq_none.mp hfind _ (List.mem_map_of_mem (f := Prod.map Session.id id) hmem))
    | some e =>
      have hid := List.find?_some hfind
      exact congrArg some (List.inj_on_of_nodup_map h.nodup_ids (List.mem_of_find?_eq_some hfind)
        (List.mem_map_of_mem (f := Prod.map Session.id id) hmem) (beq_iff_eq.mp hid))
  rw [show db.sessions.get? s.id = some s from Table.get?_key (h.2 _ hmem).1, Option.map_some,
    hfind] at hget
  exact hget

theorem Db.MayOwn.get?_of_forall_notMem (h : db.MayOwn owners) (hs : s ∈ db.sessions)
    (hnot : ∀ c, (s, c) ∉ owners) : (db.dealt owners notes).sessions.get? s.id = some s := by
  have hget := get?_withOwners db h.nodup_ids s.id
  have hfind : (owners.map (Prod.map Session.id id)).find? (fun e => e.1 == s.id) = none := by
    refine List.find?_eq_none.mpr fun e he heq => ?_
    obtain ⟨⟨t, c⟩, hmem, rfl⟩ := List.mem_map.mp he
    obtain rfl : t = s := Table.eq_of_key_eq (h.2 _ hmem).1 hs (beq_iff_eq.mp heq)
    exact hnot c hmem
  rw [show db.sessions.get? s.id = some s from Table.get?_key hs, Option.map_some, hfind] at hget
  exact hget

theorem Db.MayOwn.given_iff (h : db.MayOwn owners) (hs : s ∈ db.sessions) :
    db.given (db.dealt owners notes) s c = true ↔ (s, c) ∈ owners := by
  rw [Db.given, show db.sessions.get? s.id = some s from Table.get?_key hs, Option.any_some,
    Bool.and_eq_true]
  by_cases hmem : ∃ c', (s, c') ∈ owners
  · obtain ⟨c', hmem⟩ := hmem
    rw [h.get?_of_mem hmem, Option.any_some, (h.2 _ hmem).2]
    constructor
    · rintro ⟨-, heq⟩
      obtain rfl : c' = c := Option.some.inj (beq_iff_eq.mp heq)
      exact hmem
    · intro hmem'
      have heq := List.inj_on_of_nodup_map h.1 hmem hmem' rfl
      rw [(Prod.mk.inj heq).2]
      exact ⟨rfl, beq_self_eq_true _⟩
  · have hnot : ∀ c', (s, c') ∉ owners := fun c' hc' => hmem ⟨c', hc'⟩
    rw [h.get?_of_forall_notMem hs hnot, Option.any_some]
    refine iff_of_false (fun ⟨hnone, hsome⟩ => ?_) (hnot c)
    rw [beq_iff_eq.mp hsome] at hnone
    cases hnone

end

end

/-! ### The assignment -/

section

variable {db : Db} {date : ℤ} {term : AcademicTerm} {s : Session} {c : ℕ}

/-- The owners that an assignment for the date makes. -/
def Db.newOwners (db : Db) (date : ℤ) : List (Session × ℕ) :=
  match db.activeTerm with
  | none => []
  | some term =>
    ownersOf (db.onlineDutyAssignments date term.id) (db.candidateOnlineSessions date term.id)

/-- The postings are of users. -/
def Db.PostingsOfUsers (db : Db) : Prop :=
  ∀ a ∈ db.assignments, (db.users.get? a.user).isSome = true

instance (db : Db) : Decidable db.PostingsOfUsers :=
  inferInstanceAs (Decidable (∀ a ∈ db.assignments.rows, (db.users.get? a.user).isSome = true))

/-- The notifications tell each checker with a session how many there are. -/
def TellsOwners (date : ℤ) (owners : List (Session × ℕ)) (notes : List Notification) : Prop :=
  ∀ c n d, notes.count ⟨c, .onlineAssigned n d⟩ =
    if c ∈ owners.map Prod.snd ∧ n = (owners.map Prod.snd).count c ∧ d = date then 1 else 0

theorem nodup_ids_candidates (db : Db) (date : ℤ) (term : ℕ) :
    ((db.candidateOnlineSessions date term).map Session.id).Nodup := by
  have hsorted := ((List.perm_insertionSort Session.startsFirst (db.sessions.rows.filter fun s =>
    s.date == date && s.onlineChecker.isNone && db.inTerm term s)).map Session.id).nodup_iff.mpr
      (db.sessions.nodup.sublist (List.filter_sublist.map key))
  exact hsorted.sublist (List.filter_sublist.map _)

theorem mem_newOwners (hterm : db.activeTerm = some term) :
    (s, c) ∈ db.newOwners date ↔ (s, c) ∈ RoundRobin.dealGroups 0
      (eligibleCheckers (db.onlineDutyAssignments date term.id))
      (db.candidateOnlineSessions date term.id) := by
  rw [Db.newOwners, hterm]
  exact mem_ownersOf (nodup_ids_candidates db date term.id)

theorem counts_of_mem_newOwners (h : (s, c) ∈ db.newOwners date) :
    s ∈ db.sessions ∧ db.unownedOnline date s = true ∧ db.postedOnline date s c = true := by
  cases hterm : db.activeTerm with
  | none =>
    rw [Db.newOwners, hterm] at h
    cases h
  | some term =>
    obtain ⟨hs, hc⟩ := RoundRobin.mem_hands_of_mem_dealGroups ((mem_newOwners hterm).mp h)
    obtain ⟨hmem, hcounts⟩ := (mem_candidateOnlineSessions hterm).mp hs
    exact ⟨hmem, hcounts, (mem_eligibleCheckers hterm).mp hc⟩

theorem exists_mem_newOwners (hs : s ∈ db.sessions) (hcounts : db.unownedOnline date s = true)
    (hc : db.postedOnline date s c = true) : ∃ c', (s, c') ∈ db.newOwners date := by
  cases hterm : db.activeTerm with
  | none =>
    rw [Db.postedOnline, hterm] at hc
    cases hc
  | some term =>
    have hne := List.ne_nil_of_mem ((mem_eligibleCheckers hterm).mpr hc)
    obtain ⟨c', hc'⟩ := RoundRobin.exists_mem_dealGroups
      ((mem_candidateOnlineSessions hterm).mpr ⟨hs, hcounts⟩) hne
    exact ⟨c', (mem_newOwners hterm).mpr hc'⟩

theorem mayOwn_newOwners (db : Db) (date : ℤ) : db.MayOwn (db.newOwners date) := by
  constructor
  · rw [Db.newOwners]
    split
    · exact List.nodup_nil
    · exact (List.Nodup.of_map Session.id (nodup_ids_candidates db date _)).sublist
        map_fst_ownersOf_sublist
  · rintro ⟨s, c⟩ he
    obtain ⟨hs, hcounts, -⟩ := counts_of_mem_newOwners he
    simp only [Db.unownedOnline, Db.unownedOnlineOn, Bool.and_eq_true] at hcounts
    exact ⟨hs, Option.isNone_iff_eq_none.mp hcounts.1.1.2⟩

theorem map_snd_map_id (owners : List (Session × ℕ)) :
    (owners.map (Prod.map Session.id id)).map Prod.snd = owners.map Prod.snd := by
  rw [List.map_map]
  rfl

theorem tellsOwners_assignedNotes (date : ℤ) (owners : List (Session × ℕ)) :
    TellsOwners date owners (assignedNotes date (owners.map (Prod.map Session.id id))
      (owners.map Prod.snd).eraseDups) := by
  intro c n d
  have hnodup : (assignedNotes date (owners.map (Prod.map Session.id id))
      (owners.map Prod.snd).eraseDups).Nodup :=
    (Py.nodup_eraseDups _).map fun _ _ h => congrArg Notification.user h
  rw [hnodup.count, assignedNotes, map_snd_map_id]
  refine if_congr ?_ rfl rfl
  rw [List.mem_map]
  constructor
  · rintro ⟨c', hc', heq⟩
    injection heq with huser hnotice
    injection hnotice with hn hd
    subst huser
    exact ⟨List.mem_eraseDups.mp hc', hn.symm, hd.symm⟩
  · rintro ⟨hc, rfl, rfl⟩
    exact ⟨c, List.mem_eraseDups.mpr hc, rfl⟩

/-- Where nobody becomes an owner, other notifications tell everything. -/
theorem tellsOwners_nil {notes : List Notification}
    (hother : ∀ note ∈ notes, ∀ n d, note.notice ≠ .onlineAssigned n d) :
    TellsOwners date [] notes := by
  intro c n d
  rw [if_neg (fun h => List.not_mem_nil h.1), List.count_eq_zero]
  exact fun hmem => hother _ hmem n d rfl

theorem dealt_nil (db : Db) (notes : List Notification) :
    db.dealt [] notes = db.withNotes notes := by
  rw [Db.dealt, List.map_nil, Db.withOwners, List.map_nil, List.append_nil]
  rfl

theorem newOwners_eq (hterm : db.activeTerm = some term) :
    db.newOwners date = ownersOf (db.onlineDutyAssignments date term.id)
      (db.candidateOnlineSessions date term.id) := by
  rw [Db.newOwners, hterm]

/-- The sessions and owners that are written are those of the assignment. -/
theorem map_newOwners (hterm : db.activeTerm = some term) :
    (db.newOwners date).map (Prod.map Session.id id) =
      (db.candidateOnlineSessions date term.id).filterMap fun s =>
        ((onlineMapping (db.onlineDutyAssignments date term.id)
          (db.candidateOnlineSessions date term.id)).find? fun e => e.1 == s.id).map
            fun e => (s.id, e.2) := by
  rw [newOwners_eq hterm, ownersOf, List.map_filterMap]
  refine List.filterMap_congr fun s _ => ?_
  rw [Option.map_map]
  rfl

/-- The new owners are users. -/
theorem isSome_of_mem_newOwners (husers : db.PostingsOfUsers)
    (hmem : (s, c) ∈ db.newOwners date) : (db.users.get? c).isSome = true := by
  have hposted := (counts_of_mem_newOwners hmem).2.2
  cases hterm : db.activeTerm with
  | none =>
    rw [Db.postedOnline, hterm] at hposted
    cases hposted
  | some term =>
    rw [Db.postedOnline, hterm] at hposted
    obtain ⟨a, ha, hsel⟩ := List.any_eq_true.mp hposted
    simp only [Bool.and_eq_true, beq_iff_eq] at hsel
    obtain rfl := hsel.1.1.1.1.1.1
    exact husers a ha

/-- The owners are written, and each of them is told. -/
theorem run_assign_notify (husers : db.PostingsOfUsers) (date : ℤ) {α : Type} (answer : α) :
    (do
      Prog.forEach ((db.newOwners date).map (Prod.map Session.id id)) assignSession
      Prog.forEach (((db.newOwners date).map (Prod.map Session.id id)).map Prod.snd).eraseDups
        (notifyAssigned date ((db.newOwners date).map (Prod.map Session.id id)))
      (pure answer : M α)).run db =
      (.ok answer, db.dealt (db.newOwners date) (assignedNotes date
        ((db.newOwners date).map (Prod.map Session.id id))
        ((db.newOwners date).map Prod.snd).eraseDups)) := by
  rw [map_snd_map_id]
  have hchecked : ∀ c ∈ ((db.newOwners date).map Prod.snd).eraseDups,
      ((db.withOwners ((db.newOwners date).map (Prod.map Session.id id))).users.get? c).isSome =
        true := by
    intro c hc
    obtain ⟨⟨s, c⟩, hmem, rfl⟩ := List.mem_map.mp (List.mem_eraseDups.mp hc)
    have huser : (db.users.get? c).isSome = true := isSome_of_mem_newOwners husers hmem
    exact huser
  rw [Prog.run_bind_of_ok (run_assignSessions _), Prog.run_bind_of_ok (run_notifyAssigned hchecked)]
  rfl

/-- The assignment makes its owners, and answers with how many sessions got one and how many did
not. -/
theorem run_assignOnlineSessions (husers : db.PostingsOfUsers) (date : ℤ) :
    ∃ notes, TellsOwners date (db.newOwners date) notes ∧
      (assignOnlineSessions date).run db =
        (.ok ((db.newOwners date).length,
          (db.sessions.rows.filter (db.unownedOnline date)).length - (db.newOwners date).length),
          db.dealt (db.newOwners date) notes) := by
  have hsilent : TellsOwners date [] [] := tellsOwners_nil fun _ h => absurd h List.not_mem_nil
  rw [assignOnlineSessions, Prog.run_select_bind]
  cases hterm : db.activeTerm with
  | none =>
    have hnil : db.newOwners date = [] := by rw [Db.newOwners, hterm]
    have hcounts : db.sessions.rows.filter (db.unownedOnline date) = [] :=
      List.filter_eq_nil_iff.mpr fun s _ => by simp [Db.unownedOnline, hterm]
    rw [hnil, hcounts]
    refine ⟨[], hsilent, ?_⟩
    rw [dealt_nil, Db.withNotes_nil]
    rfl
  | some term =>
    rw [← (candidateOnlineSessions_perm hterm).length_eq]
    dsimp only
    rw [Prog.run_select_bind]
    split
    · -- no session is without an owner
      rename_i hnocandidate
      have hcandidates := List.isEmpty_iff.mp hnocandidate
      have hnil : db.newOwners date = [] := by
        rw [newOwners_eq hterm, hcandidates]
        rfl
      rw [hnil, hcandidates]
      refine ⟨[], hsilent, ?_⟩
      rw [dealt_nil, Db.withNotes_nil]
      rfl
    · rw [Prog.run_select_bind]
      split
      · -- nobody is posted, and the office is told
        rename_i hnomapping
        have hnil : db.newOwners date = [] := by
          rw [newOwners_eq hterm, ownersOf, List.isEmpty_iff.mp hnomapping]
          exact List.filterMap_eq_nil_iff.mpr fun _ _ => rfl
        rw [hnil]
        refine ⟨(db.usersOfRole .ifoAdmin).map fun u => ⟨u, .onlineUnassigned
          (db.candidateOnlineSessions date term.id).length date⟩, tellsOwners_nil ?_, ?_⟩
        · intro note hnote n d heq
          obtain ⟨u, -, rfl⟩ := List.mem_map.mp hnote
          cases heq
        · rw [dealt_nil]
          rfl
      · rw [← map_newOwners hterm, run_assign_notify husers date, List.length_map]
        exact ⟨_, tellsOwners_assignedNotes date _, rfl⟩

/-- The shares of two checkers in a group of sessions with the same checkers. -/
theorem countP_newOwners_le {group : List Session} (hnodup : group.Nodup) {may : ℕ → Bool}
    (hgroup : ∀ s, s ∈ group ↔ s ∈ db.sessions ∧ db.unownedOnline date s = true ∧
      ∀ c, db.postedOnline date s c = may c)
    {c' : ℕ} (hc : may c = true) (hc' : may c' = true) :
    group.countP (fun s => decide ((s, c) ∈ db.newOwners date)) ≤
      group.countP (fun s => decide ((s, c') ∈ db.newOwners date)) + 1 := by
  rcases group.eq_nil_or_concat with rfl | ⟨init, first, rfl⟩
  · exact Nat.zero_le _
  have hfirst : first ∈ init.concat first := by simp
  obtain ⟨hmem, hcounts, hmay⟩ := (hgroup first).mp hfirst
  cases hterm : db.activeTerm with
  | none =>
    rw [Db.unownedOnline, hterm] at hcounts
    simp at hcounts
  | some term =>
    have hsessions := List.Nodup.of_map Session.id (nodup_ids_candidates db date term.id)
    -- the group is the sessions with the checkers of its first one
    have hperm : (init.concat first).Perm ((db.candidateOnlineSessions date term.id).filter
        fun s => eligibleCheckers (db.onlineDutyAssignments date term.id) s ==
          eligibleCheckers (db.onlineDutyAssignments date term.id) first) := by
      refine (List.perm_ext_iff_of_nodup hnodup (hsessions.filter _)).mpr fun s => ?_
      rw [hgroup, List.mem_filter, mem_candidateOnlineSessions hterm, beq_iff_eq,
        eligibleCheckers_eq_iff hterm, and_assoc, funext hmay]
    have hmember : ∀ {x}, may x = true →
        x ∈ eligibleCheckers (db.onlineDutyAssignments date term.id) first :=
      fun hx => (mem_eligibleCheckers hterm).mpr ((hmay _).trans hx)
    rw [hperm.countP_eq, hperm.countP_eq]
    simp only [mem_newOwners hterm]
    exact RoundRobin.countP_dealGroups_le hsessions (nodup_eligibleCheckers _ _) (hmember hc)
      (hmember hc')

/-- Every owner has a session of its own that had none. -/
theorem length_newOwners_le (db : Db) (date : ℤ) :
    (db.newOwners date).length ≤ (db.sessions.rows.filter (db.unownedOnline date)).length := by
  have hsub : ((db.newOwners date).map Prod.fst).Subperm
      (db.sessions.rows.filter (db.unownedOnline date)) := by
    refine (mayOwn_newOwners db date).1.subperm fun s hs => ?_
    obtain ⟨⟨s, c⟩, hmem, rfl⟩ := List.mem_map.mp hs
    obtain ⟨hstored, hcounts, -⟩ := counts_of_mem_newOwners hmem
    exact List.mem_filter.mpr ⟨hstored, hcounts⟩
  have hle := hsub.length_le
  rwa [List.length_map] at hle

theorem dutyDealt_dealt {notes : List Notification}
    (htells : TellsOwners date (db.newOwners date) notes) :
    db.DutyDealt date (db.unownedOnline date) (db.postedOnline date)
      ((db.newOwners date).length,
        (db.sessions.rows.filter (db.unownedOnline date)).length - (db.newOwners date).length)
      (db.dealt (db.newOwners date) notes) := by
  have howns := mayOwn_newOwners db date
  have hgiven : ∀ s ∈ db.sessions, ∀ c, db.given (db.dealt (db.newOwners date) notes) s c =
      decide ((s, c) ∈ db.newOwners date) := fun s hs c =>
    Bool.eq_iff_iff.mpr ((howns.given_iff hs).trans (decide_eq_true_iff).symm)
  have hstored : ∀ {s c}, (s, c) ∈ db.newOwners date → s ∈ db.sessions :=
    fun hmem => (counts_of_mem_newOwners hmem).1
  refine ⟨fun s hs c hc => ?_, fun s hs hcounts ⟨c, hc⟩ => ?_, fun s hs hnone => ?_,
    fun s hs c hc => ?_, fun group hnodup may hgroup c c' hc hc' => ?_, ?_, ?_⟩
  · exact (counts_of_mem_newOwners ((howns.given_iff hs).mp hc)).2
  · obtain ⟨c', hc'⟩ := exists_mem_newOwners hs hcounts hc
    exact ⟨c', (howns.given_iff hs).mpr hc'⟩
  · refine howns.get?_of_forall_notMem hs fun c hmem => ?_
    have hfalse := hnone c
    rw [(howns.given_iff hs).mpr hmem] at hfalse
    cases hfalse
  · exact howns.get?_of_mem ((howns.given_iff hs).mp hc)
  · have hcongr : ∀ x, group.countP (fun s => db.given (db.dealt (db.newOwners date) notes) s x) =
        group.countP fun s => decide ((s, x) ∈ db.newOwners date) := fun x =>
      List.countP_congr fun s hs => by rw [hgiven s ((hgroup s).mp hs).1 x]
    rw [hcongr, hcongr]
    exact countP_newOwners_le hnodup hgroup hc hc'
  · exact Nat.add_sub_cancel' (length_newOwners_le db date)
  · refine ⟨db.newOwners date, List.Nodup.of_map Prod.fst howns.1, fun s c => ?_, rfl, ?_, notes,
      rfl, htells⟩
    · exact ⟨fun hmem => ⟨hstored hmem, (howns.given_iff (hstored hmem)).mpr hmem⟩,
        fun ⟨hs, hc⟩ => (howns.given_iff hs).mp hc⟩
    · -- the audit rows are written for the same pairs
      change db.audit ++ ((db.newOwners date).map (Prod.map Session.id id)).map _ = _
      rw [List.map_map]
      rfl

/-- After an assignment no unowned session has a checker. -/
theorem newOwners_dealt (db : Db) (date : ℤ) (notes : List Notification) :
    (db.dealt (db.newOwners date) notes).newOwners date = [] := by
  have howns := mayOwn_newOwners db date
  refine List.eq_nil_iff_forall_not_mem.mpr fun ⟨s', c⟩ hmem => ?_
  obtain ⟨hs', hcounts, hposted⟩ := counts_of_mem_newOwners hmem
  have hget' := Table.get?_key hs'
  cases hget : db.sessions.get? (key s') with
  | none =>
    have hnone := get?_withOwners db howns.nodup_ids (key s')
    rw [hget, Option.map_none] at hnone
    exact Option.some_ne_none _ (hget'.symm.trans hnone)
  | some s =>
    obtain ⟨hs, hid⟩ := Table.get?_eq_some_iff.mp hget
    -- the session was given an owner, or it would have been given one
    by_cases hown : ∃ c', (s, c') ∈ db.newOwners date
    · obtain ⟨c', hc'⟩ := hown
      have hafter : (db.dealt (db.newOwners date) notes).sessions.get? (key s') =
          some (s.assignTo c') := hid ▸ howns.get?_of_mem hc'
      obtain rfl := Option.some.inj (hget'.symm.trans hafter)
      simp only [Db.unownedOnline, Db.unownedOnlineOn, Bool.and_eq_true] at hcounts
      exact absurd hcounts.1.1.2 Bool.false_ne_true
    · have hnot : ∀ c', (s, c') ∉ db.newOwners date := fun c' hc' => hown ⟨c', hc'⟩
      have hafter : (db.dealt (db.newOwners date) notes).sessions.get? (key s') = some s :=
        hid ▸ howns.get?_of_forall_notMem hs hnot
      obtain rfl := Option.some.inj (hget'.symm.trans hafter)
      exact hown (exists_mem_newOwners hs hcounts hposted)

/-- The assignment deals out the unowned online sessions of the date and the active term, and a
second one right after it makes no owner. -/
theorem assignOnlineSessions_deals (husers : db.PostingsOfUsers) (date : ℤ) :
    ∃ answer db', (assignOnlineSessions date).run db = (.ok answer, db') ∧
      db.DutyDealt date (db.unownedOnline date) (db.postedOnline date) answer db' ∧
      (∀ s c, db.postedOnline date s c = true → db.onlineOnDuty c s.scheduledStart = true) ∧
      (∀ s c, localDate s.scheduledStart = date →
        db.postedOnline date s c = db.onlineOnDuty c s.scheduledStart) ∧
      ∃ left db'', (assignOnlineSessions date).run db' = (.ok (0, left), db'') ∧
        db''.sessions = db'.sessions ∧ db''.audit = db'.audit := by
  obtain ⟨notes, htells, hrun⟩ := run_assignOnlineSessions husers date
  refine ⟨_, _, hrun, dutyDealt_dealt htells, fun _ _ => onlineOnDuty_of_postedOnline,
    fun _ _ => postedOnline_eq, ?_⟩
  have husers' : (db.dealt (db.newOwners date) notes).PostingsOfUsers := husers
  obtain ⟨notes', -, hagain⟩ := run_assignOnlineSessions husers' date
  rw [newOwners_dealt] at hagain
  exact ⟨_, _, hagain, rfl, List.append_nil _⟩

end

namespace Campus

/-- An unowned session on that Monday. -/
def unwatched (id schedule : ℕ) (start : ℤ) : Session :=
  ⟨id, schedule, 1, 1, monday, start, start + 3600000000, .scheduled, none, none, none, none, none,
    none, none, "", none, false, "", none, ""⟩

/-- Online classes of the term and of an archived one, and two checkers with a standing online
posting for the term. -/
def rostered : Db :=
  { timetable with
    users := ⟨[⟨7, "Cleo", "Checker", .checker, none, true, false, "cleo", ""⟩,
      ⟨8, "Chad", "Checker", .checker, none, true, false, "chad", ""⟩], by decide⟩
    terms := ⟨⟨[term, ⟨2, "Summer", 0, 100, .archived⟩], by decide⟩, by decide, by decide,
      by decide⟩
    schedules := ⟨[
      ⟨1, 1, "CS1", "A", 30, 1, 1, 0, hour 9, hour 10, .online, .active⟩,
      ⟨2, 2, "CS2", "B", 30, 1, 1, 0, hour 9, hour 10, .online, .active⟩], by decide⟩
    assignments := ⟨[⟨1, 7, .checker, [], .online, none, none, none, some 1, true⟩,
      ⟨2, 8, .checker, [], .online, none, none, none, some 1, true⟩], by decide⟩ }

/-- Three sessions of the term. -/
def threeUnwatched : Db :=
  { rostered with
    sessions := ⟨[unwatched 1 1 (wallClock monday 9 0 0), unwatched 2 1 (wallClock monday 10 0 0),
      unwatched 3 1 (wallClock monday 11 0 0)], by decide⟩ }

/-- A session of the archived term. -/
def unwatchedOfSummer : Db :=
  { rostered with sessions := ⟨[unwatched 1 2 (wallClock monday 9 0 0)], by decide⟩ }

/-- A session of that Monday that starts on Tuesday, and a posting for Tuesday. -/
def unwatchedOnTuesday : Db :=
  { rostered with
    assignments := ⟨[⟨1, 7, .checker, [], .online, some (monday + 1), none, none, some 1, true⟩],
      by decide⟩
    sessions := ⟨[unwatched 1 1 (wallClock (monday + 1) 9 0 0)], by decide⟩ }

end Campus

open Campus in
/-- Two of the three sessions go to the first checker, one to the second. -/
theorem assignOnlineSessions_deals_three :
    threeUnwatched.PostingsOfUsers ∧
      ∃ answer db', (assignOnlineSessions monday).run threeUnwatched = (.ok answer, db') ∧
        threeUnwatched.DutyDealt monday (threeUnwatched.unownedOnline monday)
          (threeUnwatched.postedOnline monday) answer db' :=
  ⟨by decide, by
    obtain ⟨answer, db', hrun, hdealt, -⟩ :=
      assignOnlineSessions_deals (by decide : threeUnwatched.PostingsOfUsers) monday
    exact ⟨answer, db', hrun, hdealt⟩⟩

open Campus in
/-- A session of another term is left, and so is one that starts on another day than its date,
though a checker has a posting for that day. -/
theorem assignOnlineSessions_leaves :
    (¬ ∀ (db : Db) (date : ℤ), db.PostingsOfUsers → ∀ answer db',
      (assignOnlineSessions date).run db = (.ok answer, db') →
        db.DutyDealt date (db.unownedOnlineOn date) (fun s c => db.onlineOnDuty c s.scheduledStart)
          answer db') ∧
    ¬ ∀ (db : Db) (date : ℤ), db.PostingsOfUsers → ∀ answer db',
      (assignOnlineSessions date).run db = (.ok answer, db') →
        db.DutyDealt date (db.unownedOnline date) (fun s c => db.onlineOnDuty c s.scheduledStart)
          answer db' := by
  constructor
  · intro h
    have htotal := (h unwatchedOfSummer monday (by decide) (0, 0) unwatchedOfSummer
      (by decide)).total
    revert htotal
    decide
  · intro h
    obtain ⟨c, hc⟩ := (h unwatchedOnTuesday monday (by decide) (0, 1) unwatchedOnTuesday
      (by decide)).complete _ List.mem_cons_self (by decide) ⟨7, by decide⟩
    cases hc

end FluxTrack
