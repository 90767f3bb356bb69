import FluxTrack.Theorems.FrozenTerms
import FluxTrack.Theorems.ImportTwice
import FluxTrack.Theorems.RequestLifecycle
import FluxTrack.Web.ImportCommit

/-!
# A staged upload is committed once

Commits of one upload take the lock on its row before they look whether it is still live, and
they consume it before they let go. So of any number of them one at most imports the file.

## Main definitions

* `Commits` — what a commit does
* `CommittedOnce` — at most one of the requests has done it

## Main results

* `committed_once`
-/

namespace FluxTrack

open Calendar Relational Process

/-! ### What an import leaves alone -/

/-- The audit trail, the staged uploads and the terms are as they were. -/
def Db.SameUploads (db db' : Db) : Prop :=
  db'.audit = db.audit ∧ db'.stagings = db.stagings ∧ db'.terms = db.terms

theorem sameUploads_kind : Prog.Kind Db.SameUploads where
  refl _ := ⟨rfl, rfl, rfl⟩
  trans _ _ _ h h' := ⟨h'.1.trans h.1, h'.2.1.trans h.2.1, h'.2.2.trans h.2.2⟩

section

variable {α : Type} [Keyed α]

theorem nested_getOrCreate {find : Db → List α} {create : M ℕ} (h : create.Nested) :
    (getOrCreate find create).Nested := by
  refine (Prog.nested_select _).bind fun rows => ?_
  split
  · exact h
  · exact Prog.nested_ret _
  · exact Prog.nested_raise _

end

theorem sameUploads_createUser (row : PlannedRow) : (createUser row).Makes Db.SameUploads := by
  refine Prog.makes_select_bind fun taken => ?_
  split
  · exact Prog.makes_raise sameUploads_kind _
  · exact fun _ => ⟨rfl, rfl, rfl⟩

theorem nested_createUser (row : PlannedRow) : (createUser row).Nested := by
  refine (Prog.nested_select _).bind fun taken => ?_
  split
  · exact Prog.nested_raise _
  · refine (Prog.nested_stmt fun _ => Prog.nested_ret _).bind fun pk => ?_
    exact (Prog.nested_modify _).bind fun _ => Prog.nested_ret _

theorem sameUploads_facultyFor (row : PlannedRow) (cache : List (String × ℕ)) :
    (facultyFor row cache).Makes Db.SameUploads := by
  have hget : ∀ find : Db → List User, (getOrCreate find (createUser row)).Makes Db.SameUploads :=
    fun find => makes_getOrCreate sameUploads_kind (sameUploads_createUser row)
  unfold facultyFor
  split
  · exact (hget _).bind sameUploads_kind fun pk => Prog.makes_pure sameUploads_kind _
  · split
    · exact Prog.makes_pure sameUploads_kind _
    · exact (hget _).bind sameUploads_kind fun pk => Prog.makes_pure sameUploads_kind _

theorem nested_facultyFor (row : PlannedRow) (cache : List (String × ℕ)) :
    (facultyFor row cache).Nested := by
  have hget : ∀ find : Db → List User, (getOrCreate find (createUser row)).Nested :=
    fun find => nested_getOrCreate (nested_createUser row)
  unfold facultyFor
  split
  · exact (hget _).bind fun pk => Prog.nested_ret _
  · split
    · exact Prog.nested_ret _
    · exact (hget _).bind fun pk => Prog.nested_ret _

theorem sameUploads_importMeeting (term faculty : ℕ) (row : PlannedRow) (m : PlannedMeeting) :
    (importMeeting term faculty row m).Makes Db.SameUploads :=
  makes_importMeeting sameUploads_kind (fun _ _ _ _ _ => ⟨rfl, rfl, rfl⟩) term faculty row m

theorem nested_importMeeting (term faculty : ℕ) (row : PlannedRow) (m : PlannedMeeting) :
    (importMeeting term faculty row m).Nested := by
  have hcreate : ∀ (f : Db → ℕ) (u : Db → Db), (Prog.modifyGet f u : M ℕ).Nested :=
    fun f u => Prog.nested_stmt fun _ => Prog.nested_ret _
  have hroom : (roomFor m).Nested := by
    refine (nested_getOrCreate (hcreate _ _)).bind fun building => ?_
    refine (nested_getOrCreate (hcreate _ _)).bind fun floor => ?_
    exact nested_getOrCreate (hcreate _ _)
  refine hroom.bind fun room => ?_
  exact (nested_getOrCreate (hcreate _ _)).bind fun _ => Prog.nested_ret _

theorem sameUploads_importRows (term : ℕ) (rows : List PlannedRow) (cache : List (String × ℕ)) :
    (importRows term rows cache).Makes Db.SameUploads := by
  induction rows generalizing cache with
  | nil => exact Prog.makes_pure sameUploads_kind _
  | cons row rest ih =>
    refine (sameUploads_facultyFor row cache).bind sameUploads_kind fun found => ?_
    refine Prog.Makes.bind sameUploads_kind ?_ fun _ => ih found.2
    exact fun db => sameUploads_kind.forEach fun m _ t _ =>
      sameUploads_importMeeting term found.1 row m t

theorem nested_importRows (term : ℕ) (rows : List PlannedRow) (cache : List (String × ℕ)) :
    (importRows term rows cache).Nested := by
  induction rows generalizing cache with
  | nil => exact Prog.nested_ret _
  | cons row rest ih =>
    refine (nested_facultyFor row cache).bind fun found => ?_
    exact (Prog.Nested.forEach (nested_importMeeting term found.1 row) _).bind fun _ => ih found.2

section

variable (lookup : TermLookup)

theorem sameUploads_resolveTerm : (resolveTerm lookup).Makes Db.SameUploads := by
  intro db
  rcases @run_resolveTerm_cases db lookup with ⟨e, hrun⟩ | ⟨t, -, -, hrun⟩ <;> rw [hrun] <;>
    exact sameUploads_kind.refl db

theorem nested_resolveTerm : (resolveTerm lookup).Nested := by
  cases lookup with
  | blank => exact Prog.nested_raise _
  | pk _ | name _ =>
    refine (Prog.nested_select _).bind fun found => ?_
    split
    · exact Prog.nested_raise _
    · split
      · exact Prog.nested_raise _
      · exact Prog.nested_ret _

theorem sameUploads_importOfferings (rows : List PlannedRow) (dryRun : Bool) :
    (importOfferings lookup rows dryRun).Makes Db.SameUploads := by
  refine (sameUploads_resolveTerm lookup).bind sameUploads_kind fun term => ?_
  split
  · exact Prog.makes_pure sameUploads_kind _
  · exact (sameUploads_importRows term.id rows []).atomic sameUploads_kind

theorem nested_importOfferings (rows : List PlannedRow) (dryRun : Bool) :
    (importOfferings lookup rows dryRun).Nested := by
  refine (nested_resolveTerm lookup).bind fun term => ?_
  split
  · exact Prog.nested_ret _
  · exact (nested_importRows term.id rows []).atomic

variable (tables : TextTables) (o : ImportOptions) (mint : ℕ → ℕ → String × String)

theorem sameUploads_importGrid (grid : List (List String)) :
    (importGrid tables lookup grid o mint).Makes Db.SameUploads := by
  unfold importGrid
  split
  · exact (sameUploads_resolveTerm lookup).bind sameUploads_kind fun _ =>
      Prog.makes_pure sameUploads_kind _
  · dsimp only
    split
    · exact sameUploads_importOfferings lookup _ _
    · split
      · exact sameUploads_importOfferings lookup _ _
      · exact (sameUploads_resolveTerm lookup).bind sameUploads_kind fun _ =>
          Prog.makes_raise sameUploads_kind _

theorem nested_importGrid (grid : List (List String)) :
    (importGrid tables lookup grid o mint).Nested := by
  unfold importGrid
  split
  · exact (nested_resolveTerm lookup).bind fun _ => Prog.nested_ret _
  · dsimp only
    split
    · exact nested_importOfferings lookup _ _
    · split
      · exact nested_importOfferings lookup _ _
      · exact (nested_resolveTerm lookup).bind fun _ => Prog.nested_raise _

variable (file : Option (List (List String)))

theorem sameUploads_importFile :
    (importFile tables lookup file o mint).Makes Db.SameUploads := by
  cases file with
  | some grid => exact sameUploads_importGrid lookup tables o mint grid
  | none =>
    exact (sameUploads_resolveTerm lookup).bind sameUploads_kind fun _ =>
      Prog.makes_raise sameUploads_kind _

theorem nested_importFile : (importFile tables lookup file o mint).Nested := by
  cases file with
  | some grid => exact nested_importGrid lookup tables o mint grid
  | none => exact (nested_resolveTerm lookup).bind fun _ => Prog.nested_raise _

end

theorem nested_commitStaged (tables : TextTables) (c : CommitRequest)
    (staging : Option ImportStaging) : (commitStaged tables c staging).Nested := by
  unfold commitStaged
  split
  · exact Prog.nested_ret _
  · split
    · exact Prog.nested_ret _
    · refine (nested_lockTerm _).bind fun term => ?_
      split
      · exact Prog.nested_ret _
      · refine (Prog.nested_select _).bind fun before => ?_
        refine (nested_importFile _ tables _ _ _).bind fun _ => ?_
        refine (Prog.nested_select _).bind fun created => (Prog.nested_modify _).bind fun _ => ?_
        exact (nested_createAudit _ _).bind fun _ => Prog.nested_ret _

/-! ### One commit -/

/-- What a commit that imports does to `db`: the row is the live one of the token, it is staged
for a draft, the file is imported into that term as in `imported`, and with it the row is
consumed and one audit row is written. -/
structure Commits (tables : TextTables) (c : CommitRequest) (token : String) (db : Db)
    (staging : ImportStaging) (term : AcademicTerm) (imported : Db) (created : ℤ) (db' : Db) :
    Prop where
  live : db.stagings.live? token c.user = some staging
  target : staging.term = some term.id
  stored : db.terms.table.get? term.id = some term
  draft : term.status = .draft
  run : (importFile tables (.pk term.id) c.file ⟨"", none, 0, false⟩ c.mint).run db =
    (.ok (), imported)
  counted : created = imported.scheduleCount term.id - db.scheduleCount term.id
  final : db' = { imported with
    stagings := db.stagings.consume staging.id c.now
    audit := db.audit ++ [⟨some c.user, .scheduleImported staging.id staging.originalName
      staging.sizeBytes created term.id term.name⟩] }

/-- The reply follows an import. -/
def CommitReply.imports : CommitReply → Bool
  | .committed _ _ => true
  | _ => false

section

variable {tables : TextTables} {c : CommitRequest} {token : String} {db : Db}

/-- The block raises, or it answers without having changed anything, or it imports. -/
theorem run_commitStaged_cases (tables : TextTables) (c : CommitRequest) (token : String) (db : Db) :
    (∃ e db', (commitStaged tables c (db.stagings.live? token c.user)).run db = (.error e, db')) ∨
    (∃ reply : CommitReply, reply.imports = false ∧
      (commitStaged tables c (db.stagings.live? token c.user)).run db = (.ok reply, db)) ∨
    ∃ staging term imported created db',
      Commits tables c token db staging term imported created db' ∧
      (commitStaged tables c (db.stagings.live? token c.user)).run db =
        (.ok (.committed created staging.originalName), db') := by
  -- in the order of the checks: the upload, its target, the term, its status, the import
  cases hlive : db.stagings.live? token c.user with
  | none => exact .inr (.inl ⟨.unavailable, rfl, rfl⟩)
  | some staging =>
    unfold commitStaged
    cases htarget : staging.term with
    | none =>
      refine .inr (.inl ⟨.noTarget, rfl, ?_⟩)
      simp only [htarget]
      rfl
    | some pk =>
      simp only [htarget]
      cases hterm : db.terms.table.get? pk with
      | none => exact .inl ⟨_, _, Prog.run_bind_of_error (run_lockTerm_of_none hterm)⟩
      | some term =>
        rw [Prog.run_bind_of_ok (run_lockTerm_of_get? hterm)]
        by_cases hdraft : term.status = .draft
        · rw [if_neg (not_not.mpr hdraft), commitUpload, Prog.run_select_bind]
          have hpk : pk = term.id := (Table.get?_eq_some_iff.mp hterm).2.symm
          subst hpk
          rcases hrun : (importFile tables (.pk term.id) c.file ⟨"", none, 0, false⟩ c.mint).run db
            with ⟨e | ⟨⟩, imported⟩
          · exact .inl ⟨_, _, Prog.run_bind_of_error hrun⟩
          · -- the import itself writes neither to the trail nor to the uploads
            have hsame := sameUploads_importFile (.pk term.id) tables ⟨"", none, 0, false⟩ c.mint
              c.file db
            rw [hrun] at hsame
            obtain ⟨haudit, hstagings, -⟩ := hsame
            rw [Prog.run_bind_of_ok hrun]
            refine .inr (.inr ⟨staging, term, imported, _, _,
              ⟨hlive, htarget, hterm, hdraft, hrun, rfl, rfl⟩, ?_⟩)
            rw [← haudit, ← hstagings]
            rfl
        · rw [if_pos hdraft]
          exact .inr (.inl ⟨.notDraft, rfl, rfl⟩)

end

/-- What a commit does is determined by what it finds. -/
theorem Commits.unique {tables : TextTables} {c : CommitRequest} {token : String}
    {db db₁ db₂ imported₁ imported₂ : Db} {staging₁ staging₂ : ImportStaging}
    {term₁ term₂ : AcademicTerm} {n₁ n₂ : ℤ}
    (h₁ : Commits tables c token db staging₁ term₁ imported₁ n₁ db₁)
    (h₂ : Commits tables c token db staging₂ term₂ imported₂ n₂ db₂) : db₁ = db₂ := by
  -- the row, its target, the term and the import are read off the same database
  obtain rfl := Option.some.inj (h₁.live.symm.trans h₂.live)
  have hid : term₁.id = term₂.id := Option.some.inj (h₁.target.symm.trans h₂.target)
  obtain rfl : term₁ = term₂ := by
    have hstored := h₁.stored
    rw [hid] at hstored
    exact Option.some.inj (hstored.symm.trans h₂.stored)
  obtain rfl : imported₁ = imported₂ := congrArg Prod.snd (h₁.run.symm.trans h₂.run)
  rw [h₁.final, h₂.final, h₁.counted, h₂.counted]

/-- A consumed upload is live for nobody. -/
theorem StagingTable.live?_consume {t : StagingTable} {token : String} {user : ℕ}
    {staging : ImportStaging} (h : t.live? token user = some staging) (now : ℤ) (user' : ℕ) :
    (t.consume staging.id now).live? token user' = none := by
  have hmem : staging ∈ t.table.rows := List.mem_of_find?_eq_some h
  have htoken : staging.token = token := by
    have hfound := List.find?_some h
    simp only [Bool.and_eq_true, beq_iff_eq] at hfound
    exact hfound.1.1
  refine List.find?_eq_none.mpr fun x hx hlive => ?_
  obtain ⟨y, hy, rfl⟩ := mem_consume.mp hx
  simp only [Bool.and_eq_true, beq_iff_eq, Option.isNone_iff_eq_none] at hlive
  -- the row itself has been consumed, and no other has its token
  by_cases hid : y.id = staging.id
  · rw [if_pos hid] at hlive
    cases hlive.2
  · rw [if_neg hid] at hlive
    have heq : y = staging :=
      List.inj_on_of_nodup_map t.uniqueToken hy hmem (hlive.1.1.trans htoken.symm)
    exact hid (congrArg ImportStaging.id heq)

/-! ### Many commits -/

/-- The block of a request that carries the token, after it has got the lock. -/
def commitLive {ι : Type*} (tables : TextTables) (token : String) (reqs : ι → CommitRequest)
    (i : ι) : M CommitReply :=
  Prog.select (fun db => db.stagings.live? token (reqs i).user) >>= commitStaged tables (reqs i)

section

variable {ι : Type*}

/-- The request has imported the file. -/
def HasImported (replies : ι → Option (Except Err CommitReply)) (i : ι) : Prop :=
  ∃ created name, replies i = some (.ok (.committed created name))

/-- Of the requests that carry a token at most one has imported the file, and what it did is all
that has happened. -/
structure CommittedOnce (tables : TextTables) (token : String) (reqs : ι → CommitRequest)
    (db store : Db) (replies : ι → Option (Except Err CommitReply)) : Prop where
  once : ∀ i j, HasImported replies i → HasImported replies j → i = j
  applied : ∀ i created name, replies i = some (.ok (.committed created name)) →
    ∃ staging term imported, name = staging.originalName ∧
      Commits tables (reqs i) token db staging term imported created store
  untouched : (∀ i, ¬ HasImported replies i) → store = db

variable {tables : TextTables} {token : String} {reqs : ι → CommitRequest} {db store : Db}
  {replies replies' : ι → Option (Except Err CommitReply)}

theorem CommittedOnce.congr (h : CommittedOnce tables token reqs db store replies)
    (hsame : ∀ i created name, replies' i = some (.ok (.committed created name)) ↔
      replies i = some (.ok (.committed created name))) :
    CommittedOnce tables token reqs db store replies' := by
  have happlied : ∀ i, HasImported replies' i ↔ HasImported replies i := fun i =>
    exists_congr fun created => exists_congr fun name => hsame i created name
  refine ⟨fun i j hi hj => h.once i j ((happlied i).mp hi) ((happlied j).mp hj),
    fun i created name hi => h.applied i created name ((hsame i created name).mp hi),
    fun hnone => h.untouched fun i hi => hnone i ((happlied i).mpr hi)⟩

/-- Once the file is imported the upload is live for nobody. -/
theorem CommittedOnce.live?_eq_none (h : CommittedOnce tables token reqs db store replies) {i : ι}
    (hi : HasImported replies i) (user : ℕ) : store.stagings.live? token user = none := by
  obtain ⟨created, name, hi⟩ := hi
  obtain ⟨staging, term, imported, -, hcommits⟩ := h.applied i created name hi
  rw [hcommits.final]
  exact StagingTable.live?_consume hcommits.live _ user

/-- The row of the token is consumed exactly when the file has been imported. -/
theorem CommittedOnce.consumed_iff (h : CommittedOnce tables token reqs db store replies)
    {staging : ImportStaging} (hmem : staging ∈ db.stagings.table) (htoken : staging.token = token)
    (hlive : staging.consumedAt = none) :
    ∃ staging', store.stagings.table.get? staging.id = some staging' ∧
      (staging'.consumedAt.isSome = true ↔ ∃ i, HasImported replies i) := by
  by_cases hsome : ∃ i, HasImported replies i
  · obtain ⟨i, created, name, hi⟩ := hsome
    obtain ⟨row, term, imported, -, hcommits⟩ := h.applied i created name hi
    have hfound := List.find?_some hcommits.live
    simp only [Bool.and_eq_true, beq_iff_eq] at hfound
    obtain rfl : staging = row := List.inj_on_of_nodup_map db.stagings.uniqueToken hmem
      (List.mem_of_find?_eq_some hcommits.live) (htoken.trans hfound.1.1.symm)
    refine ⟨staging.consume (reqs i).now, ?_, ?_⟩
    · rw [hcommits.final]
      refine Table.get?_eq_some_iff.mpr
        ⟨StagingTable.mem_consume.mpr ⟨staging, hmem, ?_⟩, rfl⟩
      rw [if_pos (beq_self_eq_true _)]
    · exact ⟨fun _ => ⟨i, created, name, hi⟩, fun _ => rfl⟩
  · obtain rfl := h.untouched fun i hi => hsome ⟨i, hi⟩
    refine ⟨staging, Table.get?_key hmem, ?_⟩
    rw [hlive]
    exact ⟨fun hfalse => absurd hfalse Bool.false_ne_true, fun hex => absurd hex hsome⟩

/-- Where a request has stopped and the other replies are as they were, the store is too. -/
theorem CommittedOnce.store_eq_of_stopped {store' : Db} {i : ι} {e : Err}
    (h : CommittedOnce tables token reqs db store replies)
    (h' : CommittedOnce tables token reqs db store' replies') (hi : replies i = none)
    (hstopped : replies' i = some (.ok (.stopped e)))
    (hothers : ∀ j, j ≠ i → replies' j = replies j) : store' = store := by
  have hsame : ∀ j created name, replies' j = some (.ok (.committed created name)) ↔
      replies j = some (.ok (.committed created name)) := by
    intro j created name
    by_cases hj : j = i
    · subst hj
      rw [hi, hstopped]
      simp
    · rw [hothers j hj]
  -- the same request has imported in both, so that its store is determined
  by_cases hsome : ∃ j, HasImported replies j
  · obtain ⟨j, created, name, hj⟩ := hsome
    obtain ⟨_, _, _, -, hcommits⟩ := h.applied j created name hj
    obtain ⟨_, _, _, -, hcommits'⟩ := h'.applied j created name ((hsame j created name).mpr hj)
    exact hcommits'.unique hcommits
  · have hnone : ∀ j, ¬ HasImported replies j := fun j hj => hsome ⟨j, hj⟩
    rw [h.untouched hnone]
    refine h'.untouched fun j hj => ?_
    obtain ⟨created, name, hj⟩ := hj
    exact hnone j ⟨created, name, (hsame j created name).mp hj⟩

variable [DecidableEq ι]

/-- A reply without an import. -/
theorem CommittedOnce.idle (h : CommittedOnce tables token reqs db store replies) {i : ι}
    (hi : replies i = none) {reply : CommitReply} (hreply : reply.imports = false) :
    CommittedOnce tables token reqs db store (Function.update replies i (some (.ok reply))) := by
  refine h.congr fun j created name => ?_
  by_cases hj : j = i
  · subst hj
    rw [Function.update_self, hi]
    constructor
    · intro hsome
      rw [Except.ok.inj (Option.some.inj hsome)] at hreply
      cases hreply
    · intro hnone
      cases hnone
  · rw [Function.update_of_ne hj]

/-- An import is the first. -/
theorem CommittedOnce.imported (h : CommittedOnce tables token reqs db store replies) {i : ι}
    {staging : ImportStaging} {term : AcademicTerm} {imported store' : Db} {created : ℤ}
    (hcommits : Commits tables (reqs i) token store staging term imported created store') :
    CommittedOnce tables token reqs db store'
      (Function.update replies i (some (.ok (.committed created staging.originalName)))) := by
  -- an import before this one would have consumed the row that it has found live
  have hfirst : ∀ j, ¬ HasImported replies j := by
    intro j hj
    have hnone := h.live?_eq_none hj (reqs i).user
    rw [hcommits.live] at hnone
    cases hnone
  obtain rfl : store = db := h.untouched hfirst
  have honly : ∀ j, HasImported (Function.update replies i
      (some (.ok (.committed created staging.originalName)))) j → j = i := by
    intro j hj
    by_contra hne
    rw [HasImported, Function.update_of_ne hne] at hj
    exact hfirst j hj
  refine ⟨fun j k hj hk => ?_, fun j n name hj => ?_, fun hnone => ?_⟩
  · rw [honly j hj, honly k hk]
  · obtain rfl := honly j ⟨n, name, hj⟩
    rw [Function.update_self] at hj
    cases hj
    exact ⟨staging, term, imported, rfl, hcommits⟩
  · exact absurd ⟨created, staging.originalName, Function.update_self i _ _⟩ (hnone i)

/-- One request that runs alone. -/
theorem CommittedOnce.step (h : CommittedOnce tables token reqs db store replies) {i : ι}
    (hi : replies i = none) :
    CommittedOnce tables token reqs db
      ((Pool.block (.staging token) (commitLive tables token reqs) i).run store).2
      (Function.update replies i (some (.ok (answer .stopped
        ((Pool.block (.staging token) (commitLive tables token reqs) i).run store).1)))) := by
  -- what a block does that nobody else interrupts
  rw [Pool.run_block, commitLive, Prog.run_select_bind]
  rcases run_commitStaged_cases tables (reqs i) token store with ⟨e, db', hrun⟩ |
    ⟨reply, hreply, hrun⟩ | ⟨staging, term, imported, created, db', hcommits, hrun⟩
  · rw [hrun]
    exact h.idle hi rfl
  · rw [hrun]
    exact h.idle hi hreply
  · rw [hrun]
    exact h.imported hcommits

end

/-- In every interleaving of commits that carry the same token, whatever statements fail in it,
at most one imports the file; it does so as if it ran alone, consumes the upload and leaves one
audit row. A commit that stops changes nothing, and without an import nothing has changed. -/
theorem committed_once {ι : Type*} [Fintype ι] [DecidableEq ι] (tables : TextTables)
    {token : String} {reqs : ι → CommitRequest} (hreqs : ∀ i, (reqs i).token = some token) (db : Db)
    (moves : List (Pool.Move ι Err)) :
    let P := (Pool.start db fun i => importCommit tables (reqs i)).play
      (fun e => .ret (.stopped e)) moves
    CommittedOnce tables token reqs db P.store P.outcomes ∧
      (∀ staging ∈ db.stagings.table, staging.token = token → staging.consumedAt = none →
        ∃ staging', P.store.stagings.table.get? staging.id = some staging' ∧
          (staging'.consumedAt.isSome = true ↔ ∃ i, HasImported P.outcomes i)) ∧
      ∀ m i e, P.outcomes i = none →
        (P.play (fun e => .ret (.stopped e)) [m]).outcomes i = some (.ok (.stopped e)) →
        (P.play (fun e => .ret (.stopped e)) [m]).store = P.store := by
  -- a commit is a block behind the lock of its row, with a handler around it
  have hblock : (fun i => importCommit tables (reqs i)) = fun i =>
      (Pool.block (.staging token) (commitLive tables token reqs) i).rescue .stopped := by
    funext i
    rw [importCommit, hreqs i]
    rfl
  have hnested : ∀ i, (commitLive tables token reqs i).Nested := fun i =>
    (Prog.nested_select _).bind fun staging => nested_commitStaged tables (reqs i) staging
  have hstart : CommittedOnce tables token reqs db db fun _ => none :=
    ⟨fun _ _ hi => (by obtain ⟨_, _, hi⟩ := hi; cases hi), fun _ _ _ hi => (by cases hi),
      fun _ => rfl⟩
  have honce : ∀ moves, CommittedOnce tables token reqs db
      ((Pool.start db fun i => importCommit tables (reqs i)).play (fun e => .ret (.stopped e))
        moves).store
      ((Pool.start db fun i => importCommit tables (reqs i)).play (fun e => .ret (.stopped e))
        moves).outcomes := by
    intro moves
    rw [hblock]
    exact Pool.play_rescue hnested (fun s out i hs hi => hs.step hi)
      (fun s out i e hs hi => hs.idle hi rfl) hstart moves
  refine ⟨honce moves, fun staging hmem htoken hlive => (honce moves).consumed_iff hmem htoken hlive,
    fun m i e hi hstopped => ?_⟩
  -- one move more is a run too
  have hnext := honce (moves ++ [m])
  rw [Pool.play_append] at hnext
  exact (honce moves).store_eq_of_stopped hnext hi hstopped fun j hj =>
    Pool.outcomes_play_of_ne (by rw [hstopped, hi]; exact Option.some_ne_none _) hj

namespace Campus

/-- A database with an upload that is staged for a draft. -/
def stagedUpload : Db :=
  { Db.empty with
    terms := ⟨⟨[{ term with status := .draft }], by decide⟩, by decide, by decide, by decide⟩
    stagings := ⟨⟨[⟨1, "upload", 7, some 1, "offerings.csv", 512, none⟩], by decide⟩, by decide⟩ }

/-- Two requests to commit it. -/
def commitTwice (second : Bool) : CommitRequest :=
  ⟨7, some "upload", some offeringGrid, mintFrom (if second then 300000 else 200000), 5⟩

/-- The first request fails inside the import, with the second waiting for the row. -/
def failingCommit : List (Pool.Move Bool Err) :=
  .replicate 20 (.go false) ++ [.go true, .go true, .go true, .fail false .integrity] ++
    .replicate 100 (.go true)

end Campus

open Campus in
/-- The request that fails leaves the upload to the other one. -/
theorem committed_once_failingCommit :
    let P := (Pool.start stagedUpload fun i => importCommit asciiTables (commitTwice i)).play
      (fun e => .ret (.stopped e)) failingCommit
    (P.outcomes false = some (.ok (.stopped .integrity)) ∧
      P.outcomes true = some (.ok (.committed 3 "offerings.csv"))) ∧
    CommittedOnce asciiTables "upload" commitTwice stagedUpload P.store P.outcomes := by
  refine ⟨by decide +kernel, ?_⟩
  have hreqs : ∀ i, (commitTwice i).token = some "upload" := fun _ => rfl
  exact (committed_once asciiTables hreqs stagedUpload failingCommit).1

end FluxTrack
