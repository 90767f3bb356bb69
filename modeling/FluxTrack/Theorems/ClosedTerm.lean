import FluxTrack.Process.Locking
import FluxTrack.Scheduling.TermLifecycle
import FluxTrack.System

/-!
# A closed term has nobody checked in

Closing a term and checking in run at the same time. Closing locks the term, counts the
running sessions and archives the term; a check-in starts the session, and only then locks
the term and asks if it is writable, at the end of the merge it shares its transaction
with. What makes this safe is that the start is still pending when the term is locked:
while a program holds the lock of a term, nobody else commits a start in it and nobody
else archives it.

## Main definitions

* `Vacated` — no session of an archived term is running
* `termFacts` — what a program may rely on about a term whose lock it holds
* `Starts`, `Shuts` — the changes that the programs commit
* `ClosingCall` — the calls that run at the same time

## Main results

* `guards_propagateMerged` — the merge at the end of a check-in
* `vacated_exec` — every interleaving of any calls
-/

namespace FluxTrack

open Calendar Relational Process

/-- No session of an archived term is running. -/
def Vacated (db : Db) : Prop :=
  ∀ s ∈ db.sessions, s.status = .active →
    ∀ t ∈ db.terms.table, t.id = (db.scheduleOf s).term → t.status ≠ .archived

/-- What a program may rely on about a term. -/
inductive TermFact
  /-- the term is not archived -/
  | writable (term : ℕ)
  /-- no session of the term is running -/
  | vacant (term : ℕ)
  /-- the session is of the term -/
  | belongs (session term : ℕ)

/-- The first two can be made false under the lock of the term only, the third never. -/
def termFacts : Facts TermFact RowLock Db where
  Holds
    | .writable term, db => ∀ t ∈ db.terms.table, t.id = term → t.status ≠ .archived
    | .vacant term, db => ∀ s ∈ db.sessions, (db.scheduleOf s).term = term → s.status ≠ .active
    | .belongs pk term, db => ∀ s ∈ db.sessions, s.id = pk → (db.scheduleOf s).term = term
  lock
    | .writable term | .vacant term => some (.term term)
    | .belongs _ _ => none

/-! ### The changes -/

/-- A change that starts none but the sessions `ids`, and leaves the terms and the
schedules alone. -/
structure Starts (ids : List ℕ) (db db' : Db) : Prop where
  terms : db'.terms = db.terms
  schedules : db'.schedules = db.schedules
  sessions : ∀ s' ∈ db'.sessions, ∃ s ∈ db.sessions, s'.id = s.id ∧ s'.schedule = s.schedule ∧
    (s'.status = .active → s.status = .active ∨ s'.id ∈ ids)

/-- A change that archives none but one term, and leaves the rest alone. -/
structure Shuts (term : ℕ) (db db' : Db) : Prop where
  sessions : db'.sessions = db.sessions
  schedules : db'.schedules = db.schedules
  terms : ∀ t' ∈ db'.terms.table, t'.status = .archived →
    t'.id = term ∨ ∃ t ∈ db.terms.table, t.id = t'.id ∧ t.status = .archived

section

variable {ids ids' : List ℕ} {db db' db'' : Db}

theorem starts_of_eq (hterms : db'.terms = db.terms) (hschedules : db'.schedules = db.schedules)
    (hsessions : db'.sessions = db.sessions) : Starts ids db db' :=
  ⟨hterms, hschedules, fun s' hs' => ⟨s', hsessions ▸ hs', rfl, rfl, .inl⟩⟩

theorem Starts.trans (h : Starts ids db db') (h' : Starts ids' db' db'') :
    Starts (ids' ++ ids) db db'' where
  terms := h'.terms.trans h.terms
  schedules := h'.schedules.trans h.schedules
  sessions s'' hs'' := by
    obtain ⟨s', hs', hid', hsched', hactive'⟩ := h'.sessions s'' hs''
    obtain ⟨s, hs, hid, hsched, hactive⟩ := h.sessions s' hs'
    refine ⟨s, hs, hid'.trans hid, hsched'.trans hsched, fun hrun => ?_⟩
    rcases hactive' hrun with hrun' | hmem
    · rcases hactive hrun' with hrun₀ | hmem
      · exact .inl hrun₀
      · exact .inr (List.mem_append_right ids' (hid' ▸ hmem))
    · exact .inr (List.mem_append_left ids hmem)

/-- A further change that touches neither terms nor schedules nor sessions. -/
theorem Starts.quiet (h : Starts ids db db') (hterms : db''.terms = db'.terms)
    (hschedules : db''.schedules = db'.schedules) (hsessions : db''.sessions = db'.sessions) :
    Starts ids db db'' :=
  h.trans (starts_of_eq hterms hschedules hsessions : Starts [] db' db'')

/-- An update of the sessions that starts at most the given ones. -/
theorem starts_update {p : Session → Bool} {f : Session → Session} {hf : ∀ s, key (f s) = key s}
    (hsched : ∀ s, (f s).schedule = s.schedule)
    (hactive : ∀ s, p s = true → (f s).status = .active → s.status = .active ∨ s.id ∈ ids) :
    Starts ids db { db with sessions := db.sessions.update p f hf } where
  terms := rfl
  schedules := rfl
  sessions s' hs' := by
    obtain ⟨s, hs, rfl⟩ := (Table.mem_update_iff hf).mp hs'
    refine ⟨s, hs, ?_⟩
    split
    case isTrue hp =>
      refine ⟨hf s, hsched s, fun hrun => (hactive s hp hrun).imp_right fun hmem => ?_⟩
      rw [show (f s).id = s.id from hf s]
      exact hmem
    case isFalse => exact ⟨rfl, rfl, .inl⟩

/-- The schedule of a session survives. -/
theorem Starts.scheduleOf (h : Starts ids db db') {s s' : Session}
    (hsched : s'.schedule = s.schedule) : db'.scheduleOf s' = db.scheduleOf s := by
  rw [Db.scheduleOf, Db.scheduleOf, h.schedules, hsched]

/-- The sessions survive with their term. -/
theorem Starts.belongs (h : Starts ids db db') {s' : Session} (hs' : s' ∈ db'.sessions) :
    termFacts.Holds (.belongs s'.id (db'.scheduleOf s').term) db := by
  intro s hs hid
  obtain ⟨s₀, hs₀, hid₀, hsched, -⟩ := h.sessions s' hs'
  cases Table.eq_of_key_eq hs hs₀ (hid.trans hid₀)
  rw [h.scheduleOf hsched]

end

/-! ### Commits -/

/-- Starts are safe if the sessions belong to writable terms whose locks are held. -/
theorem Starts.safe {ids : List ℕ} {held : List RowLock} {db db' : Db} (h : Starts ids db db')
    (hdb : Vacated db)
    (hids : ∀ pk ∈ ids, ∃ term, termFacts.Holds (.belongs pk term) db ∧
      termFacts.Holds (.writable term) db ∧ .term term ∈ held) :
    Vacated db' ∧ termFacts.Kept held db db' := by
  constructor
  · intro s' hs' hrun t ht hid
    obtain ⟨s, hs, hkey, hsched, hactive⟩ := h.sessions s' hs'
    rw [h.scheduleOf hsched] at hid
    rw [h.terms] at ht
    rcases hactive hrun with hrun₀ | hmem
    · exact hdb s hs hrun₀ t ht hid
    · obtain ⟨term, hbelongs, hwritable, -⟩ := hids _ hmem
      exact hwritable t ht (hid.trans (hbelongs s hs hkey.symm))
  · intro f hf hlock
    cases f with
    | writable term =>
      intro t ht
      rw [h.terms] at ht
      exact hf t ht
    | vacant term =>
      intro s' hs' hterm hrun
      obtain ⟨s, hs, hkey, hsched, hactive⟩ := h.sessions s' hs'
      rw [h.scheduleOf hsched] at hterm
      rcases hactive hrun with hrun₀ | hmem
      · exact hf s hs hterm hrun₀
      · -- the lock of the term of a session that is started is held
        obtain ⟨term', hbelongs, -, hheld⟩ := hids _ hmem
        refine hlock (.term term) rfl ?_
        rwa [← hterm, hbelongs s hs hkey.symm]
    | belongs pk term =>
      intro s' hs' hid
      obtain ⟨s, hs, hkey, hsched, -⟩ := h.sessions s' hs'
      rw [h.scheduleOf hsched]
      exact hf s hs (hkey.symm.trans hid)

/-- Archiving is safe if the term is vacant and its lock is held. -/
theorem Shuts.safe {term : ℕ} {held : List RowLock} {db db' : Db} (h : Shuts term db db')
    (hdb : Vacated db) (hvacant : termFacts.Holds (.vacant term) db) (hheld : .term term ∈ held) :
    Vacated db' ∧ termFacts.Kept held db db' := by
  have hscheduleOf : ∀ s, db'.scheduleOf s = db.scheduleOf s := fun s => by
    rw [Db.scheduleOf, Db.scheduleOf, h.schedules]
  constructor
  · intro s hs hrun t' ht' hid harchived
    rw [h.sessions] at hs
    rw [hscheduleOf] at hid
    rcases h.terms t' ht' harchived with rfl | ⟨t, ht, hkey, hstatus⟩
    · exact hvacant s hs hid.symm hrun
    · exact hdb s hs hrun t ht (hkey.trans hid) hstatus
  · intro f hf hlock
    cases f with
    | writable term' =>
      intro t' ht' hid harchived
      rcases h.terms t' ht' harchived with hterm | ⟨t, ht, hkey, hstatus⟩
      · refine hlock (.term term') rfl ?_
        rwa [← hid, hterm]
      · exact hf t ht (hkey.trans hid) hstatus
    | vacant term' =>
      intro s hs hterm
      rw [h.sessions] at hs
      rw [hscheduleOf] at hterm
      exact hf s hs hterm
    | belongs pk term' =>
      intro s hs hid
      rw [h.sessions] at hs
      rw [hscheduleOf]
      exact hf s hs hid

section

variable {v : View TermFact RowLock Db} {b : List (Db → Db)} {L : List RowLock}
  {K : Set TermFact}

/-- Starts may take effect if the sessions belong to terms that are known to be writable. -/
theorem commits_of_starts {ids : List ℕ} (h : v.Inside termFacts b (Starts ids) L K)
    (hids : ∀ pk ∈ ids, ∃ term, .belongs pk term ∈ K ∧ .writable term ∈ K) :
    v.Commits Vacated termFacts := by
  intro db hfinds
  refine (h.pending db).safe hfinds.1 fun pk hpk => ?_
  obtain ⟨term, hbelongs, hwritable⟩ := hids pk hpk
  obtain ⟨hfound, hheld⟩ := h.found _ hwritable
  exact ⟨term, hfinds.2 _ (h.found _ hbelongs).1, hfinds.2 _ hfound, hheld (.term term) rfl⟩

/-- A term may be archived if it is known to be vacant. -/
theorem commits_of_shuts {term : ℕ} (h : v.Inside termFacts b (Shuts term) L K)
    (hvacant : .vacant term ∈ K) : v.Commits Vacated termFacts := by
  intro db hfinds
  obtain ⟨hfound, hheld⟩ := h.found _ hvacant
  exact (h.pending db).safe hfinds.1 (hfinds.2 _ hfound) (hheld (.term term) rfl)

end

/-! ### Inside a transaction -/

section

variable {x : Db → Db} {bs : List (Db → Db)} {R : Db → Db → Prop} {L : List RowLock}
  {K : Set TermFact} {v : View TermFact RowLock Db} {ids : List ℕ}

theorem guards_lockTerm (h : v.Inside termFacts (x :: bs) R L K)
    (hR : ∀ db db', R db db' → db'.terms = db.terms) (pk : ℕ) :
    (lockTerm pk).Guards Vacated termFacts
      (fun v' term => ∃ db, db.terms.table.get? pk = some term ∧
        v'.Inside termFacts (x :: bs) R (.term pk :: L) (K ∪ termFacts.sure (.term pk :: L) db))
      (Prog.Raised (x :: bs)) v := by
  refine Prog.guards_lock_bind h fun v₁ h₁ => Prog.guards_select_bind h₁ ?_
  intro db db' v₂ _ _ hdb h₂
  rw [hR db db' hdb]
  cases hget : db.terms.table.get? pk with
  | none => exact h₂.blocks
  | some term => exact ⟨db, hget, h₂⟩

/-- A term that is read under its lock is known to be writable. -/
theorem mem_sure_writable {db : Db} {term : AcademicTerm} {pk : ℕ}
    (hget : db.terms.table.get? pk = some term) (hstatus : term.status ≠ .archived)
    (hlock : .term pk ∈ L) : .writable pk ∈ termFacts.sure L db := by
  refine ⟨fun t ht hid => ?_, fun r hr => ?_⟩
  · obtain ⟨hmem, hkey⟩ := Table.get?_eq_some_iff.mp hget
    rwa [Table.eq_of_key_eq ht hmem (hid.trans hkey.symm)]
  · cases hr
    exact hlock

theorem mem_sure_belongs {db : Db} {pk term : ℕ}
    (h : termFacts.Holds (.belongs pk term) db) : .belongs pk term ∈ termFacts.sure L db :=
  ⟨h, fun _ hr => by cases hr⟩

theorem guards_flipAll {f : Session → Session} {hf : ∀ s, key (f s) = key s}
    (h : v.Inside termFacts (x :: bs) (Starts ids) L K)
    (hsched : ∀ s, (f s).schedule = s.schedule) (actor : Option ℕ) (fills : List ℕ)
    (event : ℕ → AuditEvent) :
    (flipAll actor fills f hf event).Guards Vacated termFacts
      (fun v' _ => v'.Inside termFacts (x :: bs) (Starts (fills ++ ids)) L K)
      (Prog.Raised (x :: bs)) v := by
  unfold flipAll
  split
  case isTrue hnil =>
    rw [List.isEmpty_iff.mp hnil]
    exact h
  case isFalse =>
    refine Prog.guards_modify_bind (S := Starts (fills ++ ids)) h (fun db db' hdb => ?_)
      fun db₁ v₁ h₁ => ?_
    · exact hdb.trans (starts_update hsched fun s hp _ => .inr (by simpa using hp))
    · refine Prog.guards_stmt (h₁.mono Set.subset_union_left) (fun db db' hdb => ?_)
        fun _ _ v₂ _ _ _ h₂ => h₂.mono Set.subset_union_left
      exact hdb.quiet rfl rfl rfl

theorem mem_of_mem_scheduledAmong {db : Db} {l : List ℕ} {pk : ℕ}
    (h : pk ∈ db.scheduledAmong l) : pk ∈ l := by
  obtain ⟨s, hs, rfl⟩ := List.mem_map.mp h
  simpa using (Bool.and_eq_true_iff.mp (List.mem_filter.mp hs).2).1

/-- The candidates for a merge are of the term of the anchor. -/
theorem Starts.belongs_of_sibling {db db' : Db} (h : Starts ids db db') {view : MergeView}
    {anchor : Session} {term pk : ℕ}
    (hpk : pk ∈ mergedSiblingIds view (db'.mergeCandidates anchor term)) :
    termFacts.Holds (.belongs pk term) db := by
  obtain ⟨c, hc, rfl⟩ := List.mem_map.mp hpk
  obtain ⟨s', hs', rfl⟩ := List.mem_map.mp (List.mem_filter.mp hc).1
  obtain ⟨hmem, hsel⟩ := List.mem_filter.mp hs'
  have hterm : (db'.scheduleOf s').term = term := by
    simpa [Db.inTerm] using (Bool.and_eq_true_iff.mp (Bool.and_eq_true_iff.mp hsel).1).2
  rw [← hterm]
  exact h.belongs (Db.mem_sessionList.mp hmem)

/-- The merge at the end of a check-in: when it ends, the anchor and the siblings it starts are
known to be of one term, which is known to be writable. -/
theorem guards_propagateMerged {f : Session → Session} {hf : ∀ s, key (f s) = key s}
    (h : v.Inside termFacts (x :: bs) (Starts ids) L K)
    (hsched : ∀ s, (f s).schedule = s.schedule) (anchor : ℕ) (actor : Option ℕ)
    (event : ℕ → AuditEvent) :
    (propagateMerged anchor actor f hf event).Guards Vacated termFacts
      (fun v' _ => ∃ fills term L' K', v'.Inside termFacts (x :: bs) (Starts (fills ++ ids)) L' K' ∧
        .writable term ∈ K' ∧ ∀ pk ∈ anchor :: fills, .belongs pk term ∈ K')
      (Prog.Raised (x :: bs)) v := by
  refine Prog.Guards.atomic h fun y v₁ h₁ => ?_
  refine Prog.guards_lock_bind h₁ fun v₂ h₂ => Prog.guards_select_bind h₂ ?_
  intro db db' v₃ _ _ hdb h₃
  cases hget : db'.sessions.get? anchor with
  | none => exact h₃.blocks
  | some s =>
    obtain ⟨hs, hid⟩ := Table.get?_eq_some_iff.mp hget
    change s.id = anchor at hid
    have hanchor := hdb.belongs hs
    rw [hid] at hanchor
    refine (guards_lockTerm h₃ (fun _ _ hdb => hdb.terms) _).bind ?_
    rintro term v₄ ⟨db₄, hterm, h₄⟩
    by_cases hstatus : term.status = .archived
    · -- the term was archived while the start was pending
      rw [requireWritableTerm, if_pos hstatus]
      exact h₄.blocks
    · rw [requireWritableTerm, if_neg hstatus]
      refine Prog.guards_select_bind h₄ fun db₅ db₅' v₅ _ _ hdb₅ h₅ => ?_
      refine Prog.guards_select_bind h₅ fun db₆ db₆' v₆ _ _ _ h₆ => ?_
      refine (guards_flipAll h₆ hsched actor _ event).bind fun _ v₇ h₇ => ⟨h₇.blocks, ?_⟩
      refine ⟨_, (db'.scheduleOf s).term, _, _, h₇.withBlocks (x :: bs), ?_, fun pk hpk => ?_⟩
      · exact .inl (.inl (.inr (mem_sure_writable hterm hstatus List.mem_cons_self)))
      · rcases List.mem_cons.mp hpk with rfl | hpk
        · exact .inl (.inl (.inl (.inr (mem_sure_belongs hanchor))))
        · exact .inl (.inr (mem_sure_belongs
            (hdb₅.belongs_of_sibling (mem_of_mem_scheduledAmong hpk))))

/-- After the merge what is pending may take effect, if it starts no more than the anchor and
its siblings. -/
theorem commits_of_propagateMerged {f : Session → Session} {hf : ∀ s, key (f s) = key s}
    {anchor : ℕ} (h : v.Inside termFacts (x :: bs) (Starts ids) L K) (hids : ∀ pk ∈ ids, pk = anchor)
    (hsched : ∀ s, (f s).schedule = s.schedule) (actor : Option ℕ) (event : ℕ → AuditEvent) :
    (propagateMerged anchor actor f hf event).Guards Vacated termFacts
      (fun v' _ => v'.blocks = x :: bs ∧ v'.Commits Vacated termFacts)
      (Prog.Raised (x :: bs)) v := by
  refine (guards_propagateMerged h hsched anchor actor event).mono ?_
  rintro _ v' ⟨fills, term, L', K', h', hwritable, hbelongs⟩
  refine ⟨h'.blocks, commits_of_starts h' fun pk hpk => ⟨term, hbelongs pk ?_, hwritable⟩⟩
  rcases List.mem_append.mp hpk with hpk | hpk
  · exact List.mem_cons_of_mem anchor hpk
  · rw [hids pk hpk]
    exact List.mem_cons_self

/-- The rest of a check-in once its session has been started. -/
theorem commits_of_present {pk : ℕ} (h : v.Inside termFacts (x :: bs) (Starts [pk]) L K) (now : ℤ)
    (actor : Option ℕ) :
    (propagateMergedPresent pk now actor >>= fun _ => pure ()).Guards Vacated termFacts
      (fun v' _ => v'.blocks = x :: bs ∧ v'.Commits Vacated termFacts)
      (Prog.Raised (x :: bs)) v := by
  have hids : ∀ pk' ∈ [pk], pk' = pk := fun _ hpk => List.mem_singleton.mp hpk
  unfold propagateMergedPresent
  refine (commits_of_propagateMerged h hids ?_ actor _).bind fun _ _ h' => h'
  exact fun _ => rfl

theorem commits_of_absent {s : Session} (h : v.Inside termFacts (x :: bs) (Starts []) L K)
    (actor : Option ℕ) (now : ℤ) :
    (propagateMergedAbsent s actor now >>= fun _ => pure ()).Guards Vacated termFacts
      (fun v' _ => v'.blocks = x :: bs ∧ v'.Commits Vacated termFacts)
      (Prog.Raised (x :: bs)) v := by
  have hids : ∀ pk ∈ ([] : List ℕ), pk = s.id := fun _ hpk => absurd hpk List.not_mem_nil
  refine Prog.Guards.bind (Q := fun v' _ => v'.blocks = x :: bs ∧ v'.Commits Vacated termFacts)
    ?_ fun _ _ h' => h'
  refine Prog.guards_select_bind h fun db db' v₁ _ _ _ h₁ => ?_
  split
  · refine commits_of_propagateMerged h₁ hids ?_ actor _
    exact fun _ => rfl
  · exact ⟨h₁.blocks, commits_of_starts h₁ fun _ hpk => absurd hpk List.not_mem_nil⟩

theorem guards_createAudit (h : v.Inside termFacts (x :: bs) (Starts ids) L K) (actor : Option ℕ)
    (event : AuditEvent) :
    (createAudit actor event).Guards Vacated termFacts
      (fun v' _ => v'.Inside termFacts (x :: bs) (Starts ids) L K) (Prog.Raised (x :: bs)) v :=
  Prog.guards_stmt h (fun _ _ hdb => hdb.quiet rfl rfl rfl) fun _ _ _ _ _ _ h' =>
    h'.mono Set.subset_union_left

/-- A session is started inside a transaction. -/
theorem guards_startSession (h : v.Inside termFacts (x :: bs) (Starts ids) L K) (pk : ℕ)
    {f : Session → Session} (hf : ∀ s, key (f s) = key s)
    (hsched : ∀ s, (f s).schedule = s.schedule) :
    (saveSession pk f hf).Guards Vacated termFacts
      (fun v' _ => v'.Inside termFacts (x :: bs) (Starts (pk :: ids)) L K)
      (Prog.Raised (x :: bs)) v := by
  refine Prog.guards_stmt (S := Starts (pk :: ids)) h (fun db db' hdb => ?_)
    fun _ _ _ _ _ _ h' => h'.mono Set.subset_union_left
  have hstart : Starts [pk] db' { db' with
      sessions := db'.sessions.update (fun s => s.id == pk) f hf } :=
    starts_update hsched fun s hp _ => .inr (List.mem_singleton.mpr (by simpa using hp))
  exact hdb.trans hstart

/-- A session is saved inside a transaction, and not started. -/
theorem guards_saveSession (h : v.Inside termFacts (x :: bs) (Starts ids) L K) (pk : ℕ)
    {f : Session → Session} (hf : ∀ s, key (f s) = key s)
    (hsched : ∀ s, (f s).schedule = s.schedule)
    (hactive : ∀ s, (f s).status = .active → s.status = .active) :
    (saveSession pk f hf).Guards Vacated termFacts
      (fun v' _ => v'.Inside termFacts (x :: bs) (Starts ids) L K) (Prog.Raised (x :: bs)) v := by
  refine Prog.guards_stmt (S := Starts ids) h (fun db db' hdb => ?_)
    fun _ _ _ _ _ _ h' => h'.mono Set.subset_union_left
  have hsave : Starts [] db' { db' with
      sessions := db'.sessions.update (fun s => s.id == pk) f hf } :=
    starts_update hsched fun s _ hrun => .inl (hactive s hrun)
  exact hdb.trans hsave

end

/-- Nothing is pending when a transaction begins. -/
theorem inside_entered :
    (View.entered : View TermFact RowLock Db).Inside termFacts [id] (Starts []) [] ∅ :=
  View.entered_inside fun _ => starts_of_eq rfl rfl rfl

/-! ### The calls -/

/-- The call keeps archived terms vacated, whatever the others do. -/
abbrev Vacates {α : Type} (p : M α) : Prop := p.Free Vacated termFacts

/-- A statement outside every transaction that starts no session. -/
theorem vacates_modify {u : Db → Db} (h : ∀ db, Starts [] db (u db)) :
    Vacates (Prog.modify u : M Unit) :=
  Prog.free_modify fun db hdb => (h db).safe hdb fun _ hpk => absurd hpk List.not_mem_nil

theorem vacates_createAudit (actor : Option ℕ) (event : AuditEvent) :
    Vacates (createAudit actor event) :=
  vacates_modify fun _ => starts_of_eq rfl rfl rfl

theorem vacates_notifyRole (role : Role) (notice : Notice) : Vacates (notifyRole role notice) :=
  vacates_modify fun _ => starts_of_eq rfl rfl rfl

theorem vacates_cache {g : Db → List CacheEntry} :
    Vacates (Prog.modify fun db => { db with cache := g db } : M Unit) :=
  vacates_modify fun _ => starts_of_eq rfl rfl rfl

theorem vacates_saveSession (pk : ℕ) {f : Session → Session} (hf : ∀ s, key (f s) = key s)
    (hsched : ∀ s, (f s).schedule = s.schedule)
    (hactive : ∀ s, (f s).status = .active → s.status = .active) :
    Vacates (saveSession pk f hf) :=
  vacates_modify fun _ => starts_update hsched fun s _ hrun => .inl (hactive s hrun)

theorem vacates_roomFromPayload (user : ℕ) (payload : Payload) (now : ℤ) :
    Vacates (roomFromPayload user payload now) := by
  cases payload with
  | link token =>
    refine (Prog.free_select _).bind fun found => ?_
    cases found <;> exact Prog.free_pure _
  | code digits =>
    refine (Prog.free_select _).bind fun limit => ?_
    refine vacates_cache.bind fun _ => ?_
    refine (Prog.free_select _).bind fun count => ?_
    split
    · exact (vacates_createAudit _ _).bind fun _ => Prog.free_pure _
    · refine vacates_cache.bind fun _ => ?_
      refine (Prog.free_select _).bind fun found => ?_
      cases found with
      | some room => exact Prog.free_pure _
      | none => exact (vacates_createAudit _ _).bind fun _ => Prog.free_pure _
  | other => exact Prog.free_pure _

theorem vacates_applyHandover (user pk : ℕ) (prior : Option ℕ) (room : Room) (now : ℤ) :
    Vacates (applyHandover user pk prior room now) := by
  refine Prog.Guards.block (Prog.guards_select_bind inside_entered ?_)
  intro db db' v₁ _ _ _ h₁
  have hprior : (completePrior now (prior.bind db'.activeSession)).Guards Vacated termFacts
      (fun v _ => v.Inside termFacts [id] (Starts []) [] (∅ ∪ termFacts.sure [] db))
      (Prog.Raised [id]) v₁ := by
    cases prior.bind db'.activeSession with
    | none => exact h₁
    | some p =>
      rw [completePrior]
      split
      · refine guards_saveSession h₁ p.id (Session.key_checkOut now) (fun _ => rfl) fun s hrun => ?_
        simp [Session.checkOut] at hrun
      · exact h₁
  refine hprior.bind fun _ v₂ h₂ => ?_
  refine (guards_startSession h₂ pk (Session.key_handOver now _) fun _ => rfl).bind
    fun _ v₃ h₃ => ?_
  exact (guards_createAudit h₃ _ _).bind fun _ v₄ h₄ => commits_of_present h₄ now _

theorem vacates_applyOutcome (user : ℕ) (r : Resolution) (s : Session) (room : Room)
    (method : CheckinMethod) (reason : String) (now : ℤ) :
    Vacates (applyOutcome user r s room method reason now) := by
  unfold applyOutcome
  split
  · -- the start and the merge share a transaction
    refine Prog.Guards.block ?_
    refine (guards_startSession inside_entered s.id (Session.key_checkIn now method)
      fun _ => rfl).bind fun _ v₁ h₁ => ?_
    exact (guards_createAudit h₁ _ _).bind fun _ v₂ h₂ => commits_of_present h₂ now _
  · split
    · refine (vacates_saveSession s.id Session.key_markAbsent (fun _ => rfl) fun t hrun => ?_).bind
        fun _ => vacates_createAudit _ _
      simp [Session.markAbsent] at hrun
    · exact Prog.free_pure _
  · refine (vacates_saveSession s.id (Session.key_checkOut now) (fun _ => rfl)
      fun t hrun => ?_).bind fun _ => vacates_createAudit _ _
    simp [Session.checkOut] at hrun
  · refine (vacates_saveSession s.id (Session.key_endEarly now reason) (fun _ => rfl)
      fun t hrun => ?_).bind fun _ => vacates_createAudit _ _
    simp [Session.endEarly] at hrun
  · refine (Prog.free_select _).bind fun old => ?_
    refine (vacates_saveSession s.id (Session.key_moveTo room.id) (fun _ => rfl)
      fun _ hrun => hrun).bind fun _ => ?_
    exact (vacates_createAudit _ _).bind fun _ => vacates_notifyRole _ _
  · refine (vacates_applyHandover user s.id r.priorSession room now).bind fun _ => ?_
    exact (Prog.free_select _).bind fun course => vacates_notifyRole _ _
  all_goals exact Prog.free_pure _

theorem vacates_applyScan (user : ℕ) (r : Resolution) (room : Room) (method : CheckinMethod)
    (reason : String) (now : ℤ) : Vacates (applyScan user r room method reason now) := by
  unfold applyScan
  split
  · exact Prog.free_pure _
  · refine (Prog.free_select _).bind fun found => ?_
    cases found with
    | none => exact Prog.free_pure _
    | some s =>
      exact (vacates_applyOutcome user r s room method reason now).bind fun _ => Prog.free_pure _

theorem vacates_applyOnce (user : ℕ) (r : Resolution) (room : Room) (method : CheckinMethod)
    (clock : ScanClock) : Vacates (applyOnce user r room method clock) := by
  unfold applyOnce
  split
  · exact Prog.free_pure _
  · refine (Prog.free_select _).bind fun cached => ?_
    split
    · refine (vacates_applyScan user r room method "" clock.last).bind fun reply => ?_
      exact vacates_cache.bind fun _ => Prog.free_pure _
    · exact Prog.free_pure _

theorem vacates_resolveScan (user : ℕ) (payload : Payload) (clock : ScanClock) :
    Vacates (resolveScan user payload clock) := by
  refine (vacates_roomFromPayload user payload clock.lookup).bind fun found => ?_
  cases found with
  | error e => exact Prog.free_pure _
  | ok found =>
    obtain ⟨room, method⟩ := found
    dsimp only
    split
    · exact Prog.free_pure _
    · refine (Prog.free_select _).bind fun term => ?_
      cases term with
      | none => exact Prog.free_pure _
      | some term =>
        refine (Prog.free_select _).bind fun r => ?_
        split
        · exact Prog.free_pure _
        · exact (vacates_applyOnce user r room method clock).bind fun _ => Prog.free_pure _

theorem vacates_confirmScan (user : ℕ) (token : Option ConfirmToken) (reason : String)
    (now last : ℤ) : Vacates (confirmScan user token reason now last) := by
  cases token with
  | none => exact Prog.free_pure _
  | some token =>
    unfold confirmScan
    dsimp only
    split
    · refine (Prog.free_select _).bind fun found => ?_
      cases found with
      | none => exact Prog.free_raise _
      | some room => exact (vacates_applyScan _ _ _ _ _ _).bind fun _ => Prog.free_pure _
    · exact Prog.free_pure _

theorem vacates_onlineStart (user pk : ℕ) (teamsLink : String) (now started : ℤ) :
    Vacates (onlineStart user pk teamsLink now started) := by
  refine (Prog.free_select _).bind fun graceMin => (Prog.free_select _).bind fun found => ?_
  cases found with
  | none => exact Prog.free_raise _
  | some found =>
    obtain ⟨s, online⟩ := found
    dsimp only
    split
    · exact Prog.free_pure _
    · refine Prog.Free.bind (Prog.Guards.block ?_) fun _ => Prog.free_pure _
      refine (guards_startSession inside_entered s.id (Session.key_startOnline started _)
        fun _ => rfl).bind fun _ v₁ h₁ => ?_
      exact (guards_createAudit h₁ _ _).bind fun _ v₂ h₂ => commits_of_present h₂ started _

theorem vacates_applyOnlineStatus (user : ℕ) (s : Session) (action : ValidationAction)
    (scannedAt now : ℤ) : Vacates (applyOnlineStatus user s action scannedAt now) := by
  unfold applyOnlineStatus
  split
  · refine Prog.Guards.block ?_
    exact (guards_startSession inside_entered s.id (Session.key_verifyOnline scannedAt)
      fun _ => rfl).bind fun _ v₁ h₁ => commits_of_present h₁ scannedAt _
  · refine Prog.Guards.block ?_
    refine (guards_saveSession inside_entered s.id Session.key_markAbsent (fun _ => rfl)
      fun t hrun => ?_).bind fun _ v₁ h₁ => ?_
    · simp [Session.markAbsent] at hrun
    · exact commits_of_absent h₁ _ now
  · exact Prog.free_pure _

theorem vacates_applyAction (user : ℕ) (s : Session) (action : ValidationAction) (note : String)
    (identityMatch : Option Bool) (scannedAt now : ℤ) :
    Vacates (applyAction user s action note identityMatch scannedAt now) := by
  refine (Prog.free_select _).bind fun room => ?_
  refine Prog.Free.bind (vacates_modify fun db => starts_of_eq ?_ ?_ ?_) fun _ => ?_
  iterate 3 rfl
  refine (vacates_createAudit _ _).bind fun _ => ?_
  refine (vacates_applyOnlineStatus user s action scannedAt now).bind fun _ => ?_
  split
  · exact (vacates_notifyRole _ _).bind fun _ => vacates_notifyRole _ _
  · exact Prog.free_pure _

theorem vacates_onlineAction (user pk : ℕ) (action : ValidationAction) (note : String)
    (now last : ℤ) : Vacates (onlineAction user pk action note now last) := by
  refine (Prog.free_select _).bind fun found => (Prog.free_select _).bind fun onDuty => ?_
  cases found with
  | none => exact Prog.free_pure _
  | some s =>
    dsimp only
    split
    · exact (vacates_createAudit _ _).bind fun _ => Prog.free_pure _
    · split
      · exact Prog.free_pure _
      · split
        · exact Prog.free_pure _
        · refine Prog.Free.bind (Prog.free_modifyGet fun db hdb =>
            (starts_of_eq ?_ ?_ ?_ : Starts [] db _).safe hdb fun _ hpk =>
              absurd hpk List.not_mem_nil) fun added => ?_
          iterate 3 rfl
          · split
            · exact (vacates_applyAction _ _ _ _ _ _ _).bind fun _ => Prog.free_pure _
            · exact Prog.free_pure _

/-! ### Closing a term -/

section

variable {x : Db → Db} {bs : List (Db → Db)} {L : List RowLock} {K : Set TermFact}
  {v : View TermFact RowLock Db}

theorem mem_sure_vacant {db : Db} {term : ℕ}
    (hcount : db.sessionCount term (fun s => s.status == .active) = 0) (hlock : .term term ∈ L) :
    .vacant term ∈ termFacts.sure L db := by
  refine ⟨fun s hs hterm hrun => ?_, fun r hr => ?_⟩
  · have hnil := List.filter_eq_nil_iff.mp (List.length_eq_zero_iff.mp hcount) s hs
    simp [Db.inTerm, hterm, hrun] at hnil
  · cases hr
    exact hlock

/-- A count of zero under the lock of the term makes the term known to be vacant. -/
theorem guards_termCounts {term : ℕ}
    (h : v.Inside termFacts (x :: bs) (fun db db' => db' = db) L K) (hlock : .term term ∈ L) :
    (termCounts term).Guards Vacated termFacts
      (fun v' counts => ∃ K', v'.Inside termFacts (x :: bs) (fun db db' => db' = db) L K' ∧
        (counts.activeSessions = 0 → .vacant term ∈ K'))
      (Prog.Raised (x :: bs)) v := by
  refine Prog.guards_select_bind h fun _ _ v₁ _ _ _ h₁ => ?_
  refine Prog.guards_select_bind h₁ fun _ _ v₂ _ _ _ h₂ => ?_
  refine Prog.guards_select_bind h₂ fun db db' v₃ _ _ hdb h₃ => ?_
  refine Prog.guards_select_bind h₃ fun _ _ v₄ _ _ _ h₄ => ⟨_, h₄, fun hcount => ?_⟩
  subst hdb
  exact .inl (.inr (mem_sure_vacant hcount hlock))

/-- Without a blocker the term is known to be vacant. -/
theorem guards_closePreflight {t : AcademicTerm}
    (h : v.Inside termFacts (x :: bs) (fun db db' => db' = db) L K) (hlock : .term t.id ∈ L)
    (today : ℤ) :
    (actionPreflight t .close today).Guards Vacated termFacts
      (fun v' answer => ∃ K', v'.Inside termFacts (x :: bs) (fun db db' => db' = db) L K' ∧
        (answer.1.blockers = [] → .vacant t.id ∈ K'))
      (Prog.Raised (x :: bs)) v := by
  refine (guards_termCounts h hlock).bind ?_
  rintro counts v₁ ⟨K', h₁, hvacant⟩
  refine ⟨K', h₁, fun hnone => hvacant ?_⟩
  simp only [List.append_eq_nil_iff, blockIf_eq_nil] at hnone
  simpa using hnone.2

theorem guards_saveTermStatus {term : ℕ}
    (h : v.Inside termFacts (x :: bs) (fun db db' => db' = db) L K) :
    (saveTermStatus term .archived).Guards Vacated termFacts
      (fun v' _ => v'.Inside termFacts (x :: bs) (Shuts term) L K) (Prog.Raised (x :: bs)) v := by
  refine Prog.Guards.bind (Q := fun v' _ => v'.Inside termFacts (x :: bs) (Shuts term) L K)
    (Prog.guards_stmt (S := Shuts term) h (fun db db' hdb => ?_) fun _ db' v₁ _ _ _ h₁ => ?_)
    fun _ _ h₁ => h₁
  · subst hdb
    rcases hwrite : db'.writeTerms _ with _ | written
    · exact ⟨rfl, rfl, fun t ht harchived => .inr ⟨t, ht, rfl, harchived⟩⟩
    · obtain ⟨terms, htable, rfl⟩ := Option.map_eq_some_iff.mp hwrite
      refine ⟨rfl, rfl, fun t' ht' harchived => ?_⟩
      change t' ∈ terms.table at ht'
      rw [TermTable.table_of_ofTable? htable, Table.mem_update_iff] at ht'
      obtain ⟨t, ht, rfl⟩ := ht'
      by_cases hid : (t.id == term) = true
      · rw [if_pos hid]
        exact .inl (beq_iff_eq.mp hid)
      · rw [if_neg hid] at harchived ⊢
        exact .inr ⟨t, ht, rfl, harchived⟩
  · dsimp only
    cases db'.writeTerms _ with
    | none => exact h₁.blocks
    | some _ => exact h₁.mono Set.subset_union_left

end

theorem vacates_closeTerm (term : ℕ) (actor : Option User) (confirmationName reason : Option String)
    (acknowledged : List String) (today : ℤ) :
    Vacates (closeTerm term actor confirmationName reason acknowledged today) := by
  refine Prog.Guards.block ?_
  have hentered : (View.entered : View TermFact RowLock Db).Inside termFacts [id]
      (fun db db' => db' = db) [] ∅ := View.entered_inside fun _ => rfl
  have hauthorize : (authorize actor).Guards Vacated termFacts
      (fun v _ => v.Inside termFacts [id] (fun db db' => db' = db) [] ∅) (Prog.Raised [id])
      .entered := by
    unfold authorize
    split
    · exact hentered.blocks
    · split
      · exact hentered
      · exact hentered.blocks
  refine hauthorize.bind fun _ v₁ h₁ => ?_
  refine (guards_lockTerm h₁ (fun _ _ hdb => by rw [hdb]) term).bind ?_
  rintro t v₂ ⟨db, hget, h₂⟩
  obtain rfl : t.id = term := (Table.get?_eq_some_iff.mp hget).2
  refine (guards_closePreflight h₂ List.mem_cons_self today).bind ?_
  rintro ⟨preflight, counts⟩ v₃ ⟨K', h₃, hvacant⟩
  refine Prog.Guards.bind (Q := fun v _ => v = v₃ ∧ preflight.blockers = []) ?_ ?_
  · unfold validateCommonActionInputs
    dsimp only
    split
    case isTrue => exact h₃.blocks
    case isFalse hnone => exact ⟨rfl, actionBlockers_eq_nil (not_not.mp hnone)⟩
  · rintro normalizedReason v₄ ⟨rfl, hnone⟩
    refine (guards_saveTermStatus h₃).bind fun _ v₅ h₅ => ?_
    refine Prog.guards_modify_bind (S := Shuts t.id) h₅ (fun db db' hdb => ?_) fun _ v₆ h₆ => ?_
    · exact ⟨hdb.sessions, hdb.schedules, hdb.terms⟩
    · exact ⟨h₆.blocks, commits_of_shuts h₆ (.inl (hvacant hnone))⟩

/-! ### At the same time -/

/-- The calls that run at the same time: closing a term, and what can check in. -/
inductive ClosingCall
  | closeTerm (term : ℕ) (actor : Option User) (confirmationName reason : Option String)
      (acknowledged : List String) (today : ℤ)
  | resolve (user : ℕ) (payload : Payload) (clock : ScanClock)
  | confirm (user : ℕ) (token : Option ConfirmToken) (reason : String) (now last : ℤ)
  | onlineStart (user pk : ℕ) (teamsLink : String) (now started : ℤ)
  | onlineAction (user pk : ℕ) (action : ValidationAction) (note : String) (now last : ℤ)

/-- The program of a call. -/
def ClosingCall.prog : ClosingCall → M Unit
  | closeTerm term actor confirmationName reason acknowledged today => do
    let _ ← FluxTrack.closeTerm term actor confirmationName reason acknowledged today
  | resolve user payload clock => do
    let _ ← resolveScan user payload clock
  | confirm user token reason now last => do
    let _ ← confirmScan user token reason now last
  | onlineStart user pk teamsLink now started => do
    let _ ← FluxTrack.onlineStart user pk teamsLink now started
  | onlineAction user pk action note now last => do
    let _ ← FluxTrack.onlineAction user pk action note now last

theorem ClosingCall.vacates (call : ClosingCall) : Vacates call.prog := by
  cases call with
  | closeTerm term actor confirmationName reason acknowledged today =>
    exact (vacates_closeTerm _ _ _ _ _ _).bind fun _ => Prog.free_pure _
  | resolve user payload clock =>
    exact (vacates_resolveScan _ _ _).bind fun _ => Prog.free_pure _
  | confirm user token reason now last =>
    exact (vacates_confirmScan _ _ _ _ _).bind fun _ => Prog.free_pure _
  | onlineStart user pk teamsLink now started =>
    exact (vacates_onlineStart _ _ _ _ _).bind fun _ => Prog.free_pure _
  | onlineAction user pk action note now last =>
    exact (vacates_onlineAction _ _ _ _ _ _).bind fun _ => Prog.free_pure _

/-- A closed term has nobody checked in: whatever number of calls close terms and check in, in
whatever order their statements come, no state that is ever committed has a running session
in an archived term. -/
theorem vacated_exec {ι : Type} [DecidableEq ι] [Fintype ι] {db : Db} (h : Vacated db)
    (calls : ι → ClosingCall) (schedule : List ι) :
    Vacated ((Pool.start db fun i => (calls i).prog).exec schedule).store :=
  (Pool.sound_start h fun i => (calls i).vacates).exec schedule

namespace Campus

/-- The term is closed on its last day while a teacher scans. -/
def closing : Fin 2 → ClosingCall
  | 0 => .closeTerm 1 (some ⟨4, "Ida", "Office", .ifoAdmin, none, true, false, "ida", ""⟩)
      (some "First Semester") (some "over") ["scheduled_sessions_present"] 100
  | 1 => .resolve 2 (.link "qr-1")
      ⟨wallClock monday 8 0 0, wallClock monday 8 0 0, monday, wallClock monday 8 0 0⟩

/-- The scan has started its session when the term is closed. -/
def closingRace : List (Fin 2) := .replicate 9 1 ++ .replicate 20 0 ++ .replicate 20 1

end Campus

open Campus in
/-- The scan loses the race, and its start is undone. -/
theorem vacated_exec_closing :
    let P := (Pool.start campus fun i => (closing i).prog).exec closingRace
    P.outcomes 1 = some (.error .archivedTerm) ∧ Vacated P.store := by
  intro P
  have hvacated : Vacated campus := by
    have hrows : ∀ s ∈ campus.sessions.rows, s.status = .scheduled := by decide +kernel
    intro s hs hrun
    rw [hrows s hs] at hrun
    cases hrun
  exact ⟨by decide +kernel, vacated_exec hvacated closing closingRace⟩

end FluxTrack
