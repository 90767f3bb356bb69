import FluxTrack.Process.Interference
import FluxTrack.System

/-!
# Status flips beside other transactions

Declaring a suspension, dropping a schedule and the two merge propagations select
the primary keys of scheduled sessions in one statement and update by primary key
in a later one. Every update changes only rows that the SELECT found scheduled;
whether they still are at the update depends on what others commit in between.

## Main definitions

* `FlipCall` — a call of one of the four services
* `Undisturbed` — between the SELECT of a call and an update of a session, nobody
  else takes that session out of `scheduled`

## Main results

* `flipCall_changes_only_scheduled` — an undisturbed call changes only scheduled rows
* `suspendClasses_overwrites_checkIn` — a disturbed one need not
-/

namespace FluxTrack

open Calendar Relational Process

/-- A call of one of the services that flip selected sessions. -/
inductive FlipCall
  | suspendClasses (term : ℕ) (startDate endDate : ℤ) (reason : String) (building : Option ℕ)
      (declaredBy : Option ℕ)
  | cancelSchedule (schedule : ℕ) (actor : Option ℕ) (reason : String) (today : ℤ)
  | propagateMergedPresent (anchor : ℕ) (now : ℤ) (actor : Option ℕ)
  | propagateMergedAbsent (anchor : Session) (actor : Option ℕ) (now : ℤ)

namespace FlipCall

/-- The program of a call. -/
def prog : FlipCall → M Unit
  | suspendClasses term startDate endDate reason building declaredBy => do
    let _ ← FluxTrack.suspendClasses term startDate endDate reason building declaredBy
  | cancelSchedule schedule actor reason today => do
    let _ ← FluxTrack.cancelSchedule schedule actor reason today
  | propagateMergedPresent anchor now actor => do
    let _ ← FluxTrack.propagateMergedPresent anchor now actor
  | propagateMergedAbsent anchor actor now => do
    let _ ← FluxTrack.propagateMergedAbsent anchor actor now

/-- The number of statements a call issues before it selects the keys to update. -/
def selectAt : FlipCall → ℕ
  -- BEGIN, the term, the new suspension
  | suspendClasses .. => 3
  -- BEGIN, the schedule, its new status
  | cancelSchedule .. => 3
  -- BEGIN, the anchor, the term, the candidates
  | propagateMergedPresent .. => 4
  -- the grace period first
  | propagateMergedAbsent .. => 5

end FlipCall

/-- Session `pk` is scheduled. -/
def Db.isScheduled (db : Db) (pk : ℕ) : Prop :=
  ∃ s, db.sessions.get? pk = some s ∧ s.status = .scheduled

/-- The statement from `s` to `t` changes session `pk`. -/
def Changes (pk : ℕ) (s t : Db) : Prop := t.sessions.get? pk ≠ s.sessions.get? pk

/-- Between own statement number `n` and an own statement that changes a session,
nobody else takes that session out of `scheduled`. -/
def Undisturbed (n : ℕ) (evs : List (Event Db)) : Prop :=
  ∀ pre s₀ t₀ mid s t post, evs = pre ++ .own s₀ t₀ :: mid ++ .own s t :: post →
    (owns pre).length = n → ∀ pk, Changes pk s t →
      ∀ s' t', .env s' t' ∈ mid → s'.isScheduled pk → t'.isScheduled pk

/-! ### What the calls ensure -/

/-- Own statement number `n` found session `pk` scheduled and the own statements
since have left it alone. -/
def SelectedAt (n : ℕ) (H : List (Db × Db)) (pk : ℕ) : Prop :=
  ∃ H₁ s₀ H₂, H = H₁ ++ (s₀, s₀) :: H₂ ∧ H₁.length = n ∧ s₀.isScheduled pk ∧
    ∀ st ∈ H₂, ¬ Changes pk st.1 st.2

/-- A statement of a call changes only sessions that were selected. -/
def FlipStatement (n : ℕ) (H : List (Db × Db)) (s t : Db) : Prop :=
  ∀ pk, Changes pk s t → SelectedAt n H pk

section

variable {n : ℕ} {H : List (Db × Db)} {s t : Db} {pk : ℕ}

theorem flipStatement_of_sessions_eq (h : t.sessions = s.sessions) : FlipStatement n H s t :=
  fun pk hch => absurd (congrArg (fun u : Table Session => u.get? pk) h) hch

theorem SelectedAt.concat (h : SelectedAt n H pk) (hst : ¬ Changes pk s t) :
    SelectedAt n (H ++ [(s, t)]) pk := by
  obtain ⟨H₁, s₀, H₂, rfl, hlen, hsched, hrest⟩ := h
  refine ⟨H₁, s₀, H₂ ++ [(s, t)], by simp, hlen, hsched, fun st hmem => ?_⟩
  rcases List.mem_append.mp hmem with hmem | hmem
  · exact hrest st hmem
  · obtain rfl := List.mem_singleton.mp hmem
    exact hst

theorem SelectedAt.select (hlen : H.length = n) (h : s.isScheduled pk) :
    SelectedAt n (H ++ [(s, s)]) pk :=
  ⟨H, s, [], rfl, hlen, h, fun _ hmem => absurd hmem List.not_mem_nil⟩

/-- The keys of selected rows that are scheduled. -/
theorem isScheduled_of_mem_map_filter {p : Session → Bool}
    (hp : ∀ a, p a = true → a.status = .scheduled)
    (h : pk ∈ (s.sessionList.filter p).map Session.id) : s.isScheduled pk := by
  obtain ⟨a, ha, rfl⟩ := List.mem_map.mp h
  obtain ⟨hmem, hpa⟩ := List.mem_filter.mp ha
  exact ⟨a, Table.get?_key (Db.mem_sessionList.mp hmem), hp a hpa⟩

/-- An update by primary key changes only rows with these keys. -/
theorem mem_of_changes_updateSessions {ids : List ℕ} {f : Session → Session}
    {hf : ∀ s, key (f s) = key s}
    (h : Changes pk s { s with sessions := s.sessions.update (fun a => ids.contains a.id) f hf }) :
    pk ∈ ids := by
  by_contra hnot
  refine h ?_
  change (s.sessions.update _ f hf).get? pk = _
  rw [Table.get?_update]
  cases hget : s.sessions.get? pk with
  | none => rfl
  | some a =>
    obtain rfl : a.id = pk := (Table.get?_eq_some_iff.mp hget).2
    rw [Option.map_some, if_neg (by simpa using hnot)]

theorem ensures_createAudit (actor : Option ℕ) (event : AuditEvent) :
    (createAudit actor event).Ensures (FlipStatement n) (fun _ _ => True) H :=
  fun _ => ⟨flipStatement_of_sessions_eq rfl, trivial⟩

theorem ensures_lockTerm (term : ℕ) :
    (lockTerm term).Ensures (FlipStatement n) (fun H' _ => H'.length = H.length + 1) H := by
  refine Prog.ensures_lock_bind.mpr (Prog.ensures_select_bind.mpr fun s =>
    ⟨flipStatement_of_sessions_eq rfl, ?_⟩)
  cases s.terms.table.get? term with
  | none => trivial
  | some t => exact List.length_append

theorem ensures_requireWritableTerm (term : AcademicTerm) :
    (requireWritableTerm term).Ensures (FlipStatement n) (fun H' _ => H' = H) H := by
  unfold requireWritableTerm
  by_cases h : term.status = .archived
  · rw [if_pos h]
    trivial
  · rw [if_neg h]
    rfl

variable {actor : Option ℕ} {f : Session → Session} {hf : ∀ s, key (f s) = key s}
  {event : ℕ → AuditEvent}

theorem ensures_flipAll {ids : List ℕ} (h : ∀ pk ∈ ids, SelectedAt n H pk) :
    (flipAll actor ids f hf event).Ensures (FlipStatement n) (fun _ _ => True) H := by
  unfold flipAll
  by_cases hids : ids.isEmpty
  · rw [if_pos hids]
    trivial
  · rw [if_neg hids]
    refine Prog.ensures_modify_bind.mpr fun s =>
      ⟨fun pk hch => h pk (mem_of_changes_updateSessions hch), fun t => ?_⟩
    exact ⟨flipStatement_of_sessions_eq rfl, trivial⟩

/-- A batched flip of distinct selected keys: the keys of the slices still to come
have not been touched. -/
theorem ensures_flipSessions {ids : List ℕ} (hnodup : ids.Nodup)
    (h : ∀ pk ∈ ids, SelectedAt n H pk) :
    (flipSessions actor ids f hf event).Ensures (FlipStatement n) (fun _ _ => True) H := by
  have hflat : (Py.chunks flipChunk ids).flatten = ids := Py.flatten_chunks (by decide) ids
  rw [← hflat] at hnodup h
  refine Prog.Ensures.mono (Prog.Ensures.forEach
    (fun slices H => slices.flatten.Nodup ∧ ∀ pk ∈ slices.flatten, SelectedAt n H pk)
    ?_ ⟨hnodup, h⟩) fun _ _ _ => trivial
  intro chunk slices H' hinv
  rw [List.flatten_cons, List.nodup_append] at hinv
  obtain ⟨⟨-, hrest, hdisj⟩, hsel⟩ := hinv
  refine Prog.ensures_modify_bind.mpr fun s => ⟨fun pk hch => ?_, fun t => ?_⟩
  · exact hsel pk (List.mem_append_left _ (mem_of_changes_updateSessions hch))
  · refine ⟨flipStatement_of_sessions_eq rfl, hrest, fun pk hpk => ?_⟩
    refine SelectedAt.concat (SelectedAt.concat (hsel pk (List.mem_append_right _ hpk)) ?_)
      (fun hch => hch rfl)
    intro hch
    exact hdisj pk (mem_of_changes_updateSessions hch) pk hpk rfl

theorem ensures_notifySuspended (rows : List (ℕ × ℕ)) (startDate : ℤ) (building : Option ℕ)
    (reason : String) :
    (notifySuspended rows startDate building reason).Ensures (FlipStatement n)
      (fun _ _ => True) H := by
  refine Prog.ensures_select_bind.mpr fun s => ⟨flipStatement_of_sessions_eq rfl, ?_⟩
  refine Prog.Ensures.forEach (fun _ _ => True) (fun fid _ H' _ => ?_) trivial
  exact fun t => ⟨flipStatement_of_sessions_eq rfl, trivial⟩

theorem ensures_suspendClasses (term : ℕ) (startDate endDate : ℤ) (reason : String)
    (building : Option ℕ) (declaredBy : Option ℕ) :
    (suspendClasses term startDate endDate reason building declaredBy).Ensures (FlipStatement 3)
      (fun _ _ => True) [] := by
  refine .atomic (fun s => flipStatement_of_sessions_eq rfl) fun s₀ => ?_
  refine (ensures_lockTerm term).bind fun term H₁ hlen => ?_
  refine (ensures_requireWritableTerm term).bind fun _ H₂ hH₂ => ?_
  subst hH₂
  refine Prog.ensures_modifyGet_bind.mpr fun s₂ => ⟨flipStatement_of_sessions_eq rfl, ?_⟩
  refine Prog.ensures_select_bind.mpr fun s => ⟨flipStatement_of_sessions_eq rfl, ?_⟩
  split
  · trivial
  · have hids : ((s.sessionList.filter
        (s.suspendable term.id startDate endDate building)).map fun a => (a.id, a.faculty)).map
        Prod.fst =
        (s.sessionList.filter (s.suspendable term.id startDate endDate building)).map
          Session.id := by
      rw [List.map_map]
      rfl
    rw [hids]
    refine (ensures_flipSessions ?_ fun pk hpk => ?_).bind fun _ _ _ =>
      (ensures_notifySuspended _ _ _ _).bind fun _ _ _ => trivial
    · exact s.nodup_map_filter_sessionList _
    · refine .select (by simp [hlen]) (isScheduled_of_mem_map_filter (fun a ha => ?_) hpk)
      exact scheduled_of_suspendable ha

theorem ensures_cancelSchedule (schedule : ℕ) (actor : Option ℕ) (reason : String) (today : ℤ) :
    (cancelSchedule schedule actor reason today).Ensures (FlipStatement 3)
      (fun _ _ => True) [] := by
  refine .atomic (fun s => flipStatement_of_sessions_eq rfl) fun s₀ => ?_
  refine Prog.ensures_lock_bind.mpr (Prog.ensures_select_bind.mpr fun s₁ =>
    ⟨flipStatement_of_sessions_eq rfl, ?_⟩)
  split
  · trivial
  · refine (ensures_requireWritableTerm _).bind fun _ H₂ hH₂ => ?_
    subst hH₂
    refine Prog.ensures_modify_bind.mpr fun s₂ => ⟨flipStatement_of_sessions_eq rfl, ?_⟩
    refine Prog.ensures_select_bind.mpr fun s => ⟨flipStatement_of_sessions_eq rfl, ?_⟩
    refine (ensures_flipAll fun pk hpk => ?_).bind fun _ _ _ =>
      (ensures_createAudit _ _).bind fun _ _ _ => trivial
    refine .select (by simp) (isScheduled_of_mem_map_filter (fun a ha => ?_) hpk)
    simp only [Bool.and_eq_true, beq_iff_eq] at ha
    exact ha.1.2

/-- The propagation started after `k` statements selects its keys at statement `k + 4`. -/
theorem ensures_propagateMerged (hn : n = H.length + 4) (anchor : ℕ) :
    (propagateMerged anchor actor f hf event).Ensures (FlipStatement n) (fun _ _ => True) H := by
  refine .atomic (fun s => flipStatement_of_sessions_eq rfl) fun s₀ => ?_
  refine Prog.ensures_lock_bind.mpr (Prog.ensures_select_bind.mpr fun s₁ =>
    ⟨flipStatement_of_sessions_eq rfl, ?_⟩)
  split
  · trivial
  · refine (ensures_lockTerm _).bind fun term H₁ hlen => ?_
    refine (ensures_requireWritableTerm term).bind fun _ H₂ hH₂ => ?_
    subst hH₂
    refine Prog.ensures_select_bind.mpr fun s₂ => ⟨flipStatement_of_sessions_eq rfl, ?_⟩
    refine Prog.ensures_select_bind.mpr fun s => ⟨flipStatement_of_sessions_eq rfl, ?_⟩
    refine (ensures_flipAll fun pk hpk => ?_).bind fun _ _ _ => trivial
    refine .select (by simp [hlen, hn]) (isScheduled_of_mem_map_filter (fun a ha => ?_) hpk)
    simp only [Bool.and_eq_true, beq_iff_eq] at ha
    exact ha.2

theorem ensures_prog (call : FlipCall) :
    call.prog.Ensures (FlipStatement call.selectAt) (fun _ _ => True) [] := by
  cases call with
  | suspendClasses term startDate endDate reason building declaredBy =>
    exact (ensures_suspendClasses _ _ _ _ _ _).bind fun _ _ _ => trivial
  | cancelSchedule schedule actor reason today =>
    exact (ensures_cancelSchedule _ _ _ _).bind fun _ _ _ => trivial
  | propagateMergedPresent anchor now actor =>
    exact (ensures_propagateMerged rfl anchor).bind fun _ _ _ => trivial
  | propagateMergedAbsent anchor actor now =>
    refine Prog.Ensures.bind (Q := fun _ _ => True) ?_ fun _ _ _ => trivial
    refine Prog.ensures_select_bind.mpr fun s => ⟨flipStatement_of_sessions_eq rfl, ?_⟩
    split
    · exact ensures_propagateMerged rfl anchor.id
    · trivial

end

/-! ### The results -/

/-- In every execution beside any others that is undisturbed between its SELECT and
its updates, a call changes only sessions that are scheduled at the instant of the
update. -/
theorem flipCall_changes_only_scheduled (call : FlipCall) (db db' : Db) (q : M Unit)
    (evs : List (Event Db)) (hexec : Exec call.prog db evs q db')
    (hcalm : Undisturbed call.selectAt evs) :
    ∀ pre s t post, evs = pre ++ .own s t :: post → ∀ pk, Changes pk s t → s.isScheduled pk := by
  intro pre s t post heq pk hch
  obtain ⟨hstmt, hundo⟩ := (ensures_prog call).of_exec hexec pre s t post heq
  obtain ⟨H₁, s₀, H₂, hown, hlen, hsched, hkeep⟩ := hstmt pk hch
  rw [List.nil_append] at hown
  obtain ⟨pre₁, mid, rfl, rfl, rfl⟩ := exists_split_of_owns hown
  have hchain := hexec.chain
  rw [heq, List.append_assoc, chain_append] at hchain
  obtain ⟨s₁, -, hfirst, hchain⟩ := hchain
  obtain ⟨s₂, hmid, hlast, -⟩ := chain_append.mp hchain
  change s = s₂ at hlast
  subst hlast
  -- from the SELECT to the update every event keeps the session scheduled
  refine hmid.stable (X := fun db => db.isScheduled pk) hsched fun ev hev hbefore => ?_
  cases ev with
  | own s' t' =>
    have hsame : ¬ Changes pk s' t' := hkeep (s', t') (List.mem_filterMap.mpr ⟨_, hev, rfl⟩)
    obtain ⟨a, ha, hast⟩ := hbefore
    exact ⟨a, (not_not.mp hsame).trans ha, hast⟩
  | env s' t' => exact hcalm pre₁ s₀ s₀ mid s t post (by simpa using heq) hlen pk hch s' t' hev hbefore
  | undo s' t' => exact absurd (by simp [hev]) (hundo s' t')

/-! ### A calm and a disturbed call -/

namespace Campus

/-- The Monday is called off. -/
def typhoon : FlipCall := .suspendClasses 1 monday monday "Typhoon" none none

/-- The events of the call when others do nothing. -/
def calmEvents : List (Event Db) := (typhoon.prog.play (fun _ db => db) 0 campus).1

/-- The eight o'clock teacher checks in between the SELECT and the update. -/
def checkInBetween (n : ℕ) (db : Db) : Db :=
  if n = typhoon.selectAt + 1 then
    ((resolveScan 2 (.link "qr-1")
      ⟨wallClock monday 8 0 0, wallClock monday 8 0 0, monday, wallClock monday 8 0 0⟩).run db).2
  else db

/-- The events of the call beside that check-in. -/
def typhoonEvents : List (Event Db) := (typhoon.prog.play checkInBetween 0 campus).1

end Campus

open Campus in
/-- A calm call cancels the eight o'clock class, which is scheduled then. -/
theorem flipCall_changes_only_scheduled_calm :
    (∃ st ∈ owns calmEvents, (st.2.sessions.get? 2).map Session.status = some .cancelled) ∧
    ∀ pre s t post, calmEvents = pre ++ .own s t :: post →
      ∀ pk, Changes pk s t → s.isScheduled pk := by
  refine ⟨by decide, flipCall_changes_only_scheduled typhoon _ _ _ _
    (Prog.exec_play (fun _ db => db) 0 typhoon.prog campus) ?_⟩
  intro pre s₀ t₀ mid s t post heq _ pk _ s' t' hev hsched
  have hmem : .env s' t' ∈ calmEvents := by
    rw [heq]
    simp [hev]
  obtain ⟨_, rfl⟩ := Prog.env_mem_play hmem
  exact hsched

open Campus in
/-- Declaring a suspension cancels a class whose check-in has committed first. -/
theorem suspendClasses_overwrites_checkIn :
    ¬ ∀ (call : FlipCall) (db db' : Db) (q : M Unit) (evs : List (Event Db)),
      Exec call.prog db evs q db' →
      (∀ s t, .env s t ∈ evs → t = s ∨
        ∃ user payload clock, t = ((resolveScan user payload clock).run s).2) →
      ∀ pre s t post, evs = pre ++ .own s t :: post →
        ∀ pk, Changes pk s t → s.isScheduled pk := by
  intro h
  have hbad : ∃ st ∈ owns typhoonEvents,
      (st.1.sessions.get? 2).map Session.status = some .active ∧
      (st.2.sessions.get? 2).map Session.status = some .cancelled := by
    decide
  obtain ⟨⟨s, t⟩, hmem, hactive, hcancelled⟩ := hbad
  obtain ⟨H₁, H₂, hsplit⟩ := List.append_of_mem hmem
  obtain ⟨pre, post, heq, -, -⟩ := exists_split_of_owns hsplit
  have henv : ∀ s t, .env s t ∈ typhoonEvents → t = s ∨
      ∃ user payload clock, t = ((resolveScan user payload clock).run s).2 := by
    intro s t hev
    obtain ⟨n, rfl⟩ := Prog.env_mem_play hev
    unfold checkInBetween
    split
    · exact .inr ⟨_, _, _, rfl⟩
    · exact .inl rfl
  obtain ⟨a, ha, hast⟩ := h typhoon _ _ _ _ (Prog.exec_play checkInBetween 0 typhoon.prog campus)
    henv pre s t post heq 2 (fun hsame => by
      rw [hsame, hactive] at hcancelled
      cases hcancelled)
  rw [ha, Option.map_some, hast] at hactive
  cases hactive

end FluxTrack
