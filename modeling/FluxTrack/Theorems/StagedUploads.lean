import FluxTrack.Process.Runs
import FluxTrack.Theorems.ImportCommits
import FluxTrack.Theorems.ImportPreview
import FluxTrack.Web.ImportConsole

/-!
# Uploads from the preview to the import

Any requests to the import console, of any users and sessions, one after another and beside anything
that leaves the rows of the uploads alone. The three places an upload is kept in stay in step.

## Main definitions

* `Preview` — an upload whose report has been shown
* `ConsoleRun`, `ConsoleEvent`, `ConsoleRun.step` — the console, and the reports it has shown
* `ConsoleRun.Tidy` — the invariant
* `ImportConsole.Moves` — what a request may do that shows no new report

## Main results

* `staged_files_exact` — the files are those of the uploads that are not consumed
* `commit_imports_preview` — an import is of what its session was last shown, and never again
-/

namespace FluxTrack

open Calendar Relational Process

/-! ### Requests -/

/-- A report that has been shown: the session and the user it was shown to, the upload it is on,
the term and the token. -/
structure Preview where
  session : ℕ
  user : ℕ
  file : UploadedFile
  term : ℕ
  token : String
  report : ImportReport
  deriving DecidableEq

/-- Where the upload is stored. -/
def Preview.path (tables : TextTables) (p : Preview) : String :=
  stagingName p.token (tables.lower (splitExt p.file.name))

/-- The console and the reports that it has shown, the last one first. -/
structure ConsoleRun where
  console : ImportConsole
  previews : List Preview

/-- A request to the console, or something beside it. -/
inductive ConsoleEvent
  | page (session user : ℕ) (now : ℤ)
  /-- an upload; the token is drawn, and `other` is the name it gets if its own is taken -/
  | preview (session user : ℕ) (file : Option UploadedFile) (term token other : String) (now : ℤ)
  | commit (session user : ℕ) (mint : ℕ → ℕ → String × String) (now : ℤ)
  | discard (session user : ℕ)
  /-- the end of a session -/
  | flush (session : ℕ)
  /-- a statement of another request -/
  | other (u : Db → Db)

namespace ConsoleRun

variable (tables : TextTables)

/-- No upload yet. -/
def start (db : Db) : ConsoleRun := ⟨⟨db, ∅, ∅, ∅⟩, []⟩

/-- The report that a reply shows, for an upload into a term. -/
def shown (session user : ℕ) (token : String) :
    Option UploadedFile → Except Err (Option AcademicTerm) → ImportConsole.Reply → Option Preview
  | some file, .ok (some term), .report r => some ⟨session, user, file, term.id, token, r⟩
  | _, _, _ => none

/-- What a request does. -/
def step (W : ConsoleRun) : ConsoleEvent → ConsoleRun
  | .page session user now => { W with console := (W.console.importPage tables session user now).2 }
  | .preview session user file term token other now =>
    let answer := W.console.importPreview tables session user file term token other now
    { console := answer.2
      previews := (shown session user token file (W.console.draftTermFromPost tables term)
        answer.1).toList ++ W.previews }
  | .commit session user mint now =>
    { W with console := (W.console.commit tables session user mint now).2 }
  | .discard session user => { W with console := W.console.importDiscard session user }
  | .flush session => { W with console := W.console.popToken session }
  | .other u => { W with console := { W.console with db := u W.console.db } }

/-- The requests in turn. -/
def run (W : ConsoleRun) (events : List ConsoleEvent) : ConsoleRun := events.foldl (step tables) W

/-- A token that is drawn is new and has no dot in it, and other requests leave the rows of the
uploads alone. -/
def Admits (W : ConsoleRun) : ConsoleEvent → Prop
  | .preview _ _ _ _ token _ _ => '.' ∉ token.toList ∧ ∀ p ∈ W.previews, p.token ≠ token
  | .other u => (u W.console.db).stagings = W.console.db.stagings
  | _ => True

/-- The last report that a session was shown. -/
def last (W : ConsoleRun) (session : ℕ) : Option Preview :=
  W.previews.find? fun p => p.session == session

end ConsoleRun

/-! ### Names of files -/

theorem stagingName_inj {token token' ext ext' : String} (htoken : '.' ∉ token.toList)
    (htoken' : '.' ∉ token'.toList) (hext : ext ∈ allowedExtensions)
    (hext' : ext' ∈ allowedExtensions) (h : stagingName token ext = stagingName token' ext') :
    token = token' := by
  have hlist : token.toList ++ ext.toList = token'.toList ++ ext'.toList := by
    have hall := congrArg String.toList h
    simp only [stagingName, String.toList_append, List.append_assoc] at hall
    exact List.append_cancel_left hall
  -- both names end with their first dot
  have hdot : ∀ e ∈ allowedExtensions, ∃ rest, e.toList = '.' :: rest := by
    intro e he
    rcases List.mem_pair.mp he with rfl | rfl
    · exact ⟨"xlsx".toList, by decide⟩
    · exact ⟨"csv".toList, by decide⟩
  have hstem : ∀ t e : String, '.' ∉ t.toList → e ∈ allowedExtensions →
      (t.toList ++ e.toList).takeWhile (fun c => c != '.') = t.toList := by
    intro t e ht he
    obtain ⟨rest, hrest⟩ := hdot e he
    have hall : ∀ c ∈ t.toList, (c != '.') = true := fun c hc =>
      bne_iff_ne.mpr fun heq => ht (heq ▸ hc)
    rw [hrest, List.takeWhile_append_of_pos hall, List.takeWhile_cons_of_neg (by decide),
      List.append_nil]
  refine String.ext ?_
  rw [← hstem token ext htoken hext, hlist, hstem token' ext' htoken' hext']

/-! ### What a request does to the uploads -/

namespace ImportConsole

/-- The uploads are as they were; a session may have lost its token. -/
structure Alike (c c' : ImportConsole) : Prop where
  rows : ∀ row, row ∈ c'.db.stagings.table ↔ row ∈ c.db.stagings.table
  path : ∀ row ∈ c.db.stagings.table, c'.path row = c.path row
  storage : ∀ path, c'.storage.lookup path = c.storage.lookup path
  sessions : ∀ session token, c'.sessions.lookup session = some token →
    c.sessions.lookup session = some token

/-- An upload gives up its file: its row is removed or consumed. -/
structure Retires (c : ImportConsole) (row : ImportStaging) (c' : ImportConsole) : Prop where
  rows : ∀ r ∈ c'.db.stagings.table,
    r ∈ c.db.stagings.table ∧ r.id ≠ row.id ∨ ∃ now, r = row.consume now
  others : ∀ r ∈ c.db.stagings.table, r.id ≠ row.id →
    r ∈ c'.db.stagings.table ∧ c'.path r = c.path r
  storage : ∀ path, c'.storage.lookup path =
    if path = c.path row then none else c.storage.lookup path
  sessions : ∀ session token, c'.sessions.lookup session = some token →
    c.sessions.lookup session = some token

/-- What becomes of the uploads where no report is shown: nothing, or a live one is retired. -/
inductive Moves (c c' : ImportConsole) : Prop
  | alike (h : Alike c c')
  | retires (row : ImportStaging) (hmem : row ∈ c.db.stagings.table)
      (hlive : row.consumedAt = none) (h : Retires c row c')

variable {c c' : ImportConsole}

theorem moves_popToken (session : ℕ) : Moves c (c.popToken session) := by
  refine .alike ⟨fun _ => Iff.rfl, fun _ _ => rfl, fun _ => rfl, fun s token hs => ?_⟩
  by_cases heq : s = session
  · rw [heq, popToken, AList.lookup_erase] at hs
    cases hs
  · rwa [popToken, AList.lookup_erase_ne heq] at hs

theorem lookup_deleteFile (path path' : String) : (c.deleteFile path).storage.lookup path' =
    if path' = path then none else c.storage.lookup path' := by
  split
  · rename_i heq
    rw [heq, deleteFile, AList.lookup_erase]
  · rename_i hne
    rw [deleteFile, AList.lookup_erase_ne hne]

theorem mem_delete {t : StagingTable} {pk : ℕ} {row : ImportStaging} :
    row ∈ (t.delete pk).table ↔ row ∈ t.table ∧ row.id ≠ pk := by
  have hmem : row ∈ (t.delete pk).table ↔ row ∈ t.table ∧ (!row.id == pk) = true := List.mem_filter
  rw [hmem, Bool.not_eq_true', beq_eq_false_iff_ne]

theorem path_discardStaged {row r : ImportStaging} (hne : r.id ≠ row.id) :
    (c.discardStaged row).path r = c.path r := by
  rw [path, path, discardStaged, AList.lookup_erase_ne hne]

theorem moves_discardStaged {row : ImportStaging} (hmem : row ∈ c.db.stagings.table)
    (hlive : row.consumedAt = none) : Moves c (c.discardStaged row) := by
  refine .retires row hmem hlive ⟨fun r hr => .inl (mem_delete.mp hr), fun r hr hne => ?_,
    lookup_deleteFile (c.path row), fun _ _ hs => hs⟩
  exact ⟨mem_delete.mpr ⟨hr, hne⟩, path_discardStaged hne⟩

/-- The upload a session has is live. -/
theorem of_stagedFor {session user : ℕ} {row : ImportStaging}
    (h : c.stagedFor session user = some row) :
    c.sessions.lookup session = some row.token ∧ c.db.stagings.live? row.token user = some row ∧
      row ∈ c.db.stagings.table ∧ row.uploadedBy = user ∧ row.consumedAt = none := by
  obtain ⟨token, htoken, hlive⟩ := Option.bind_eq_some_iff.mp h
  have hfound := List.find?_some hlive
  simp only [Bool.and_eq_true, beq_iff_eq, Option.isNone_iff_eq_none] at hfound
  obtain ⟨⟨rfl, huser⟩, hnone⟩ := hfound
  exact ⟨htoken, hlive, List.mem_of_find?_eq_some hlive, huser, hnone⟩

theorem moves_discardStaged_of_stagedFor {session user : ℕ} {row : ImportStaging}
    (h : c.stagedFor session user = some row) : Moves c (c.discardStaged row) := by
  obtain ⟨-, -, hmem, -, hlive⟩ := of_stagedFor h
  exact moves_discardStaged hmem hlive

/-- The uploads that are left after some are discarded are among those before. -/
theorem moves_foldl_discardStaged {rows : List ImportStaging} (hnodup : (rows.map key).Nodup)
    (h : ∀ row ∈ rows, row ∈ c.db.stagings.table ∧ row.consumedAt = none) :
    Relation.ReflTransGen Moves c (rows.foldl discardStaged c) := by
  induction rows generalizing c with
  | nil => exact .refl
  | cons row rows ih =>
    obtain ⟨hmem, hlive⟩ := h row List.mem_cons_self
    obtain ⟨hnew, hnodup⟩ := List.nodup_cons.mp hnodup
    refine .head (moves_discardStaged hmem hlive) (ih hnodup fun r hr => ?_)
    obtain ⟨hr', hlive'⟩ := h r (List.mem_cons_of_mem row hr)
    -- the rows have keys of their own, so this one is still there
    have hne : r.id ≠ row.id := fun heq => hnew (List.mem_map.mpr ⟨r, hr, heq⟩)
    exact ⟨mem_delete.mpr ⟨hr', hne⟩, hlive'⟩

theorem moves_sweepAbandoned (now : ℤ) : Relation.ReflTransGen Moves c (c.sweepAbandoned now) := by
  refine moves_foldl_discardStaged ?_ fun row hrow => ?_
  · exact c.db.stagings.table.nodup.sublist (List.filter_sublist.map _)
  · obtain ⟨hmem, habandoned⟩ := List.mem_filter.mp hrow
    rw [isAbandoned, Bool.and_eq_true, Option.isNone_iff_eq_none] at habandoned
    exact ⟨hmem, habandoned.1⟩

theorem moves_importPage (tables : TextTables) (session user : ℕ) (now : ℤ) :
    Relation.ReflTransGen Moves c (c.importPage tables session user now).2 := by
  have hsweep := moves_sweepAbandoned now (c := c)
  unfold importPage
  dsimp only
  split
  · exact hsweep
  · rename_i staging hstaged
    split
    · exact (hsweep.tail (moves_discardStaged_of_stagedFor hstaged)).tail (moves_popToken session)
    · exact hsweep

theorem moves_dropPrevious (session user : ℕ) :
    Relation.ReflTransGen Moves c (c.dropPrevious session user) := by
  unfold dropPrevious
  split
  · exact .refl
  · rename_i staging hstaged
    exact .tail (.single (moves_discardStaged_of_stagedFor hstaged)) (moves_popToken session)

theorem moves_importDiscard (session user : ℕ) :
    Relation.ReflTransGen Moves c (c.importDiscard session user) := by
  unfold importDiscard
  cases hstaged : c.stagedFor session user with
  | none => exact .single (moves_popToken session)
  | some staging =>
    exact .tail (.single (moves_discardStaged_of_stagedFor hstaged)) (moves_popToken session)

/-- A commit changes nothing, or it imports the live upload of its token. -/
theorem run_importCommit_cases (tables : TextTables) (r : CommitRequest) (db : Db) :
    (∃ reply : CommitReply, reply.imports = false ∧
      (importCommit tables r).run db = (.ok reply, db)) ∨
    ∃ token staging term imported created db', r.token = some token ∧
      Commits tables r token db staging term imported created db' ∧
      (importCommit tables r).run db = (.ok (.committed created staging.originalName), db') := by
  have hrescue : ∀ p : M CommitReply, (p.rescue .stopped).run db =
      (.ok (answer .stopped (p.run db).1), (p.run db).2) := by
    intro p
    rw [Prog.rescue, Prog.run_elim]
    rcases p.run db with ⟨e | reply, db'⟩ <;> rfl
  rw [importCommit, hrescue]
  cases htoken : r.token with
  | none => exact .inl ⟨.unavailable, rfl, rfl⟩
  | some token =>
    have hblock : (lockedStagingFor (some token) r.user >>= commitStaged tables r).run db =
        (commitStaged tables r (db.stagings.live? token r.user)).run db := rfl
    rcases run_commitStaged_cases tables r token db with ⟨e, db', hrun⟩ |
      ⟨reply, hreply, hrun⟩ | ⟨staging, term, imported, created, db', hcommits, hrun⟩
    · rw [Prog.run_atomic_of_error (hblock.trans hrun)]
      exact .inl ⟨.stopped e, rfl, rfl⟩
    · rw [Prog.run_atomic_of_ok (hblock.trans hrun)]
      exact .inl ⟨reply, hreply, rfl⟩
    · rw [Prog.run_atomic_of_ok (hblock.trans hrun)]
      exact .inr ⟨token, staging, term, imported, created, db', rfl, hcommits, rfl⟩

/-- What is left of the console once an upload is imported. -/
def committed (c : ImportConsole) (session : ℕ) (row : ImportStaging) (db : Db) : ImportConsole :=
  ({ c with db := db }.deleteFile (c.path row)).popToken session

/-- A commit leaves the console as it is, or the upload of the session is imported. -/
theorem commit_cases (tables : TextTables) (c : ImportConsole) (session user : ℕ)
    (mint : ℕ → ℕ → String × String) (now : ℤ) :
    (∃ reply : CommitReply, reply.imports = false ∧
      c.commit tables session user mint now = (.ok reply, c)) ∨
    ∃ row term imported created db', c.stagedFor session user = some row ∧
      Commits tables (c.commitRequest session user mint now) row.token c.db row term imported
        created db' ∧
      c.commit tables session user mint now =
        (.ok (.committed created row.originalName), c.committed session row db') := by
  rcases run_importCommit_cases tables (c.commitRequest session user mint now) c.db with
    ⟨reply, hreply, hrun⟩ | ⟨token, row, term, imported, created, db', htoken, hcommits, hrun⟩
  · refine .inl ⟨reply, hreply, ?_⟩
    rw [commit, hrun]
    cases reply with
    | committed created name => cases hreply
    | unavailable | noTarget | notDraft | stopped e => rfl
  · have hstaged : c.stagedFor session user = some row :=
      Option.bind_eq_some_iff.mpr ⟨token, htoken, hcommits.live⟩
    obtain ⟨hsession, -, -, -, -⟩ := of_stagedFor hstaged
    obtain rfl : token = row.token := Option.some.inj (htoken.symm.trans hsession)
    refine .inr ⟨row, term, imported, created, db', hstaged, hcommits, ?_⟩
    rw [commit, hrun, hstaged]
    rfl

theorem moves_commit (tables : TextTables) (session user : ℕ) (mint : ℕ → ℕ → String × String)
    (now : ℤ) : Relation.ReflTransGen Moves c (c.commit tables session user mint now).2 := by
  rcases commit_cases tables c session user mint now with ⟨reply, -, hrun⟩ |
    ⟨row, term, imported, created, db', hstaged, hcommits, hrun⟩
  · rw [hrun]
  · rw [hrun]
    obtain ⟨-, -, hmem, -, hlive⟩ := of_stagedFor hstaged
    have hrows : ∀ r, r ∈ db'.stagings.table ↔
        ∃ s ∈ c.db.stagings.table, (if s.id == row.id then s.consume now else s) = r := by
      intro r
      rw [hcommits.final]
      exact StagingTable.mem_consume
    -- the row is consumed and its file removed, and then the token is dropped
    have hretires : Retires c row ({ c with db := db' }.deleteFile (c.path row)) := by
      refine ⟨fun r hr => ?_, fun r hr hne => ⟨?_, rfl⟩, lookup_deleteFile (c.path row),
        fun _ _ hs => hs⟩
      · obtain ⟨s, hs, rfl⟩ := (hrows r).mp hr
        by_cases heq : s.id = row.id
        · rw [if_pos (beq_iff_eq.mpr heq), Table.eq_of_key_eq hs hmem heq]
          exact .inr ⟨now, rfl⟩
        · rw [if_neg (fun h => heq (beq_iff_eq.mp h))]
          exact .inl ⟨hs, heq⟩
      · refine (hrows r).mpr ⟨r, hr, ?_⟩
        rw [if_neg fun h => hne (beq_iff_eq.mp h)]
    exact .tail (.single (.retires row hmem hlive hretires)) (moves_popToken session)

end ImportConsole

/-! ### The invariant -/

/-- A row is the upload that was shown: its file is stored and is what was read for the report. -/
structure Preview.Staged (tables : TextTables) (p : Preview) (c : ImportConsole)
    (row : ImportStaging) : Prop where
  token : p.token = row.token
  user : p.user = row.uploadedBy
  term : row.term = some p.term
  name : row.originalName = p.file.name
  size : row.sizeBytes = p.file.size
  path : c.path row = p.path tables
  stored : c.storage.lookup (p.path tables) = some p.file.content

/-- The rows, the files and the sessions are in step with the reports that have been shown. -/
structure ConsoleRun.Tidy (tables : TextTables) (W : ConsoleRun) : Prop where
  named : ∀ p ∈ W.previews, '.' ∉ p.token.toList ∧
    tables.lower (splitExt p.file.name) ∈ allowedExtensions
  tokens : (W.previews.map Preview.token).Nodup
  read : ∀ p ∈ W.previews, importReport tables p.file.content = .ok p.report
  rows : ∀ row ∈ W.console.db.stagings.table, ∃ p ∈ W.previews, p.token = row.token ∧
    (row.consumedAt = none → p.Staged tables W.console row)
  files : ∀ path content, W.console.storage.lookup path = some content →
    ∃ row ∈ W.console.db.stagings.table, row.consumedAt = none ∧ W.console.path row = path
  sessions : ∀ session token, W.console.sessions.lookup session = some token →
    ∃ p, W.last session = some p ∧ p.token = token

namespace ConsoleRun

variable {tables : TextTables} {W : ConsoleRun} {c' : ImportConsole}

/-- A live row is one of the uploads shown. -/
theorem Tidy.staged (h : W.Tidy tables) {row : ImportStaging}
    (hmem : row ∈ W.console.db.stagings.table) (hlive : row.consumedAt = none) :
    ∃ p ∈ W.previews, p.Staged tables W.console row := by
  obtain ⟨p, hp, -, hstaged⟩ := h.rows row hmem
  exact ⟨p, hp, hstaged hlive⟩

theorem Tidy.eq_of_token (h : W.Tidy tables) {p q : Preview} (hp : p ∈ W.previews)
    (hq : q ∈ W.previews) (heq : p.token = q.token) : p = q :=
  List.inj_on_of_nodup_map h.tokens hp hq heq

/-- Different uploads are stored under different names. -/
theorem Tidy.eq_of_path (h : W.Tidy tables) {p q : Preview} (hp : p ∈ W.previews)
    (hq : q ∈ W.previews) (heq : p.path tables = q.path tables) : p = q := by
  obtain ⟨hdot, hext⟩ := h.named p hp
  obtain ⟨hdot', hext'⟩ := h.named q hq
  exact h.eq_of_token hp hq (stagingName_inj hdot hdot' hext hext' heq)

theorem Tidy.alike (h : W.Tidy tables) (halike : W.console.Alike c') :
    ({ W with console := c' } : ConsoleRun).Tidy tables where
  named := h.named
  tokens := h.tokens
  read := h.read
  rows row hrow := by
    have hrow := (halike.rows row).mp hrow
    obtain ⟨p, hp, htoken, hstaged⟩ := h.rows row hrow
    refine ⟨p, hp, htoken, fun hlive => ?_⟩
    have hold := hstaged hlive
    exact { hold with
      path := (halike.path row hrow).trans hold.path
      stored := (halike.storage _).trans hold.stored }
  files path content hlookup := by
    rw [halike.storage] at hlookup
    obtain ⟨row, hrow, hlive, hpath⟩ := h.files path content hlookup
    exact ⟨row, (halike.rows row).mpr hrow, hlive, (halike.path row hrow).trans hpath⟩
  sessions session token hs := h.sessions session token (halike.sessions session token hs)

theorem Tidy.retires (h : W.Tidy tables) {row : ImportStaging}
    (hmem : row ∈ W.console.db.stagings.table) (hlive : row.consumedAt = none)
    (hretires : W.console.Retires row c') :
    ({ W with console := c' } : ConsoleRun).Tidy tables where
  named := h.named
  tokens := h.tokens
  read := h.read
  rows r hr := by
    rcases hretires.rows r hr with ⟨hold, hne⟩ | ⟨now, rfl⟩
    · obtain ⟨p, hp, htoken, hstaged⟩ := h.rows r hold
      refine ⟨p, hp, htoken, fun hr => ?_⟩
      have hkept := hstaged hr
      -- the file removed is that of another token
      have hother : p.path tables ≠ W.console.path row := by
        intro heq
        obtain ⟨q, hq, hq'⟩ := h.staged hmem hlive
        obtain rfl := h.eq_of_path hp hq (heq.trans hq'.path)
        have hsame : r = row := List.inj_on_of_nodup_map W.console.db.stagings.uniqueToken hold hmem
          (hkept.token.symm.trans hq'.token)
        exact hne (congrArg ImportStaging.id hsame)
      exact { hkept with
        path := (hretires.others r hold hne).2.trans hkept.path
        stored := by rw [hretires.storage, if_neg hother, hkept.stored] }
    · obtain ⟨p, hp, htoken, -⟩ := h.rows row hmem
      exact ⟨p, hp, htoken, fun hnone => (by cases hnone)⟩
  files path content hlookup := by
    rw [hretires.storage] at hlookup
    split at hlookup
    · cases hlookup
    · rename_i hne
      obtain ⟨r, hr, hrlive, hpath⟩ := h.files path content hlookup
      have hid : r.id ≠ row.id := by
        intro heq
        rw [Table.eq_of_key_eq hr hmem heq] at hpath
        exact hne hpath.symm
      obtain ⟨hr', hpath'⟩ := hretires.others r hr hid
      exact ⟨r, hr', hrlive, hpath'.trans hpath⟩
  sessions session token hs := h.sessions session token (hretires.sessions session token hs)

theorem Tidy.moves (h : W.Tidy tables)
    (hmoves : Relation.ReflTransGen ImportConsole.Moves W.console c') :
    ({ W with console := c' } : ConsoleRun).Tidy tables := by
  induction hmoves with
  | refl => exact h
  | tail _ hmove ih =>
    cases hmove with
    | alike halike => exact ih.alike halike
    | retires row hmem hlive hretires => exact ih.retires hmem hlive hretires

end ConsoleRun

/-! ### A new upload -/

namespace ImportConsole

variable {c : ImportConsole} {tables : TextTables} {t : StagingTable} {file : UploadedFile}
  {user term : ℕ} {token other : String} {now : ℤ}

/-- The row of a new upload. -/
def newRow (c : ImportConsole) (file : UploadedFile) (user term : ℕ) (token : String) :
    ImportStaging :=
  ⟨c.db.stagings.table.nextKey, token, user, some term, file.name, file.size, none⟩

/-- The console with a new upload under a name that was free; `t` are the rows with its row. -/
def withUpload (c : ImportConsole) (t : StagingTable) (file : UploadedFile) (name : String)
    (now : ℤ) : ImportConsole where
  db := { c.db with stagings := t }
  staged := c.staged.insert c.db.stagings.table.nextKey ⟨name, now⟩
  storage := c.storage.insert name file.content
  sessions := c.sessions

/-- The rows are those of before and the new one. -/
def Adds (c : ImportConsole) (t : StagingTable) (new : ImportStaging) : Prop :=
  ∀ row, row ∈ t.table ↔ row ∈ c.db.stagings.table ∨ row = new

/-- A new token is not refused. -/
theorem insert?_of_fresh (user term : ℕ) (name : String) (size : ℕ)
    (h : ∀ row ∈ c.db.stagings.table, row.token ≠ token) :
    ∃ t : StagingTable, c.db.stagings.insert? token user (some term) name size = some t ∧
      c.Adds t ⟨c.db.stagings.table.nextKey, token, user, some term, name, size, none⟩ := by
  have hnodup : ((c.db.stagings.table.insert fun pk =>
      (⟨pk, token, user, some term, name, size, none⟩ : ImportStaging)).rows.map
        ImportStaging.token).Nodup := by
    rw [Table.rows_insert, List.map_append, List.map_singleton]
    refine c.db.stagings.uniqueToken.append (List.nodup_singleton _) ?_
    rw [List.disjoint_singleton]
    intro hmem
    obtain ⟨row, hrow, htoken⟩ := List.mem_map.mp hmem
    exact h row hrow htoken
  exact ⟨⟨_, hnodup⟩, dif_pos hnodup, fun row => Table.mem_insert⟩

/-- An upload is refused, or it is stored under its own name. -/
theorem stageUpload_cases (tables : TextTables) (file : UploadedFile) (user term : ℕ)
    (other : String) (now : ℤ) (hrows : ∀ row ∈ c.db.stagings.table, row.token ≠ token)
    (hstorage : ∀ ext ∈ allowedExtensions, c.storage.lookup (stagingName token ext) = none) :
    (∃ e, c.stageUpload tables file user term token other now = .error e) ∨
    tables.lower (splitExt file.name) ∈ allowedExtensions ∧
      ∃ t, c.Adds t (c.newRow file user term token) ∧
        c.stageUpload tables file user term token other now =
          .ok (.ok (c.newRow file user term token), c.withUpload t file
            (stagingName token (tables.lower (splitExt file.name))) now) := by
  unfold stageUpload
  dsimp only
  split
  · exact .inl ⟨_, rfl⟩
  · rename_i hext
    have hext := not_not.mp hext
    split
    · exact .inl ⟨_, rfl⟩
    · obtain ⟨t, ht, hadds⟩ := insert?_of_fresh user term file.name file.size hrows
      refine .inr ⟨hext, t, hadds, ?_⟩
      rw [ht, hstorage _ hext]
      rfl

theorem fileOf_withUpload (t : StagingTable) (name : String) :
    (c.withUpload t file name now).path (c.newRow file user term token) = name ∧
      (c.withUpload t file name now).fileOf (c.newRow file user term token) = file.content := by
  have hpath : (c.withUpload t file name now).path (c.newRow file user term token) = name := by
    rw [path, withUpload, newRow, AList.lookup_insert]
    rfl
  refine ⟨hpath, ?_⟩
  rw [fileOf, hpath, withUpload, AList.lookup_insert]
  rfl

theorem path_withUpload (t : StagingTable) (file : UploadedFile) (name : String) (now : ℤ)
    {row : ImportStaging} (hrow : row ∈ c.db.stagings.table) :
    (c.withUpload t file name now).path row = c.path row := by
  have hne : row.id ≠ c.db.stagings.table.nextKey := (Table.key_lt_nextKey hrow).ne
  rw [path, path, withUpload, AList.lookup_insert_ne hne]

/-- An upload that is discarded at once has left no trace. -/
theorem alike_discardStaged_withUpload {name : String} (now : ℤ)
    (hadds : c.Adds t (c.newRow file user term token)) (hname : c.storage.lookup name = none) :
    c.Alike ((c.withUpload t file name now).discardStaged (c.newRow file user term token)) := by
  have hnew : ∀ row ∈ c.db.stagings.table, row.id ≠ c.db.stagings.table.nextKey := fun row hrow =>
    (Table.key_lt_nextKey hrow).ne
  have hrow : ∀ row, row ∈ (t.delete c.db.stagings.table.nextKey).table ↔
      row ∈ c.db.stagings.table := by
    intro row
    rw [mem_delete, hadds]
    constructor
    · rintro ⟨hold | rfl, hne⟩
      · exact hold
      · exact absurd rfl hne
    · exact fun hold => ⟨.inl hold, hnew row hold⟩
  refine ⟨hrow, fun row hold => ?_, fun path' => ?_, fun _ _ hs => hs⟩
  · exact (path_discardStaged (hnew row hold)).trans (path_withUpload t file name now hold)
  · refine (lookup_deleteFile _ path').trans ?_
    rw [(fileOf_withUpload t name).1]
    split
    · rename_i heq
      rw [heq, hname]
    · rename_i hne
      exact AList.lookup_insert_ne hne

/-- An upload is not shown, or it is the new one and its token is kept in the session. -/
theorem previewFile_cases (tables : TextTables) (file : UploadedFile) (session user term : ℕ)
    (other : String) (now : ℤ)
    (hrows : ∀ row ∈ (c.dropPrevious session user).db.stagings.table, row.token ≠ token)
    (hstorage : ∀ ext ∈ allowedExtensions,
      (c.dropPrevious session user).storage.lookup (stagingName token ext) = none) :
    (∃ reply c', c.previewFile tables session user file term token other now = (reply, c') ∧
      (∀ r, reply ≠ .report r) ∧ Relation.ReflTransGen Moves c c') ∨
    ∃ r c₁ t, Relation.ReflTransGen Moves c c₁ ∧ c₁.Adds t (c₁.newRow file user term token) ∧
      tables.lower (splitExt file.name) ∈ allowedExtensions ∧
      importReport tables file.content = .ok r ∧
      c.previewFile tables session user file term token other now =
        (.report r, { c₁.withUpload t file
          (stagingName token (tables.lower (splitExt file.name))) now with
            sessions := c₁.sessions.insert session token }) := by
  have hdrop := moves_dropPrevious session user (c := c)
  rcases stageUpload_cases tables file user term other now hrows hstorage with ⟨e, hstage⟩ |
    ⟨hext, t, hadds, hstage⟩
  · refine .inl ⟨.error e, _, ?_, fun r => by simp, hdrop⟩
    rw [previewFile]
    simp only [hstage]
  · cases hreport : importReport tables file.content with
    | error e =>
      refine .inl ⟨.error e, _, ?_, fun r => by simp,
        hdrop.tail (.alike (alike_discardStaged_withUpload now hadds (hstorage _ hext)))⟩
      rw [previewFile]
      simp only [hstage, (fileOf_withUpload _ _).2, hreport]
    | ok r =>
      refine .inr ⟨r, _, t, hdrop, hadds, hext, rfl, ?_⟩
      rw [previewFile]
      simp only [hstage, (fileOf_withUpload _ _).2, hreport]
      rfl

end ImportConsole

/-! ### Every request keeps the invariant -/

namespace ImportConsole

/-- The console with a new upload that its session has been shown. -/
def showing (tables : TextTables) (c : ImportConsole) (t : StagingTable) (p : Preview) (now : ℤ) :
    ImportConsole :=
  { c.withUpload t p.file (p.path tables) now with
    sessions := c.sessions.insert p.session p.token }

/-- The row of an upload that has been shown. -/
abbrev rowOf (c : ImportConsole) (p : Preview) : ImportStaging :=
  c.newRow p.file p.user p.term p.token

end ImportConsole

namespace ConsoleRun

variable {tables : TextTables} {W : ConsoleRun}

/-- What a request does: no new report, or a new upload with its report. -/
inductive Takes (tables : TextTables) (W : ConsoleRun) : ConsoleRun → Prop
  | moves {c' : ImportConsole} (h : Relation.ReflTransGen ImportConsole.Moves W.console c') :
      Takes tables W { W with console := c' }
  | shows {c : ImportConsole} {t : StagingTable} (p : Preview) (now : ℤ)
      (hmoves : Relation.ReflTransGen ImportConsole.Moves W.console c)
      (hadds : c.Adds t (c.rowOf p)) (hdot : '.' ∉ p.token.toList)
      (hfresh : ∀ q ∈ W.previews, q.token ≠ p.token)
      (hext : tables.lower (splitExt p.file.name) ∈ allowedExtensions)
      (hread : importReport tables p.file.content = .ok p.report) :
      Takes tables W ⟨c.showing tables t p now, p :: W.previews⟩

/-- No row and no file has a token that has not been drawn. -/
theorem Tidy.fresh (h : W.Tidy tables) {token : String} (hdot : '.' ∉ token.toList)
    (hfresh : ∀ p ∈ W.previews, p.token ≠ token) :
    (∀ row ∈ W.console.db.stagings.table, row.token ≠ token) ∧
      ∀ ext ∈ allowedExtensions, W.console.storage.lookup (stagingName token ext) = none := by
  refine ⟨fun row hrow heq => ?_, fun ext hext => ?_⟩
  · obtain ⟨p, hp, htoken, -⟩ := h.rows row hrow
    exact hfresh p hp (htoken.trans heq)
  · cases hlookup : W.console.storage.lookup (stagingName token ext) with
    | none => rfl
    | some content =>
      obtain ⟨row, hrow, hlive, hpath⟩ := h.files _ content hlookup
      obtain ⟨p, hp, hstaged⟩ := h.staged hrow hlive
      obtain ⟨hdot', hext'⟩ := h.named p hp
      exact absurd (stagingName_inj hdot' hdot hext' hext (hstaged.path.symm.trans hpath))
        (hfresh p hp)

theorem takes_step (h : W.Tidy tables) {e : ConsoleEvent} (hadmits : W.Admits e) :
    Takes tables W (step tables W e) := by
  cases e with
  | page session user now => exact .moves (ImportConsole.moves_importPage tables session user now)
  | commit session user mint now =>
    exact .moves (ImportConsole.moves_commit tables session user mint now)
  | discard session user => exact .moves (ImportConsole.moves_importDiscard session user)
  | flush session => exact .moves (.single (ImportConsole.moves_popToken session))
  | other u =>
    refine .moves (.single (.alike ⟨fun row => ?_, fun _ _ => rfl, fun _ => rfl, fun _ _ hs => hs⟩))
    change row ∈ (u W.console.db).stagings.table ↔ _
    rw [show (u W.console.db).stagings = W.console.db.stagings from hadmits]
  | preview session user file raw token other now =>
    obtain ⟨hdot, hfresh⟩ := hadmits
    have hidle : ∀ c', Relation.ReflTransGen ImportConsole.Moves W.console c' →
        Takes tables W ⟨c', [] ++ W.previews⟩ := fun c' hc' => .moves hc'
    have hdropped := (h.moves (ImportConsole.moves_dropPrevious session user)).fresh hdot hfresh
    unfold step ImportConsole.importPreview
    dsimp only
    cases file with
    | none => exact hidle _ .refl
    | some file =>
      cases hterm : W.console.draftTermFromPost tables raw with
      | error e => exact hidle _ .refl
      | ok term =>
        cases term with
        | none => exact hidle _ .refl
        | some term =>
          rcases ImportConsole.previewFile_cases tables file session user term.id other now
            hdropped.1 hdropped.2 with ⟨reply, c', hrun, hreply, hmoves⟩ |
            ⟨r, c, t, hmoves, hadds, hext, hread, hrun⟩
          · simp only [hrun]
            cases reply with
            | report r => exact absurd rfl (hreply r)
            | error _ | nothing | failed _ => exact hidle c' hmoves
          · simp only [hrun]
            exact .shows ⟨session, user, file, term.id, token, r⟩ now hmoves hadds hdot hfresh hext
              hread

theorem Tidy.takes (h : W.Tidy tables) {W' : ConsoleRun} (htakes : Takes tables W W') :
    W'.Tidy tables := by
  cases htakes with
  | moves hmoves => exact h.moves hmoves
  | @shows c t p now hmoves hadds hdot hfresh hext hread =>
    have hold := h.moves hmoves
    obtain ⟨hnewrow, hnewfile⟩ := hold.fresh hdot hfresh
    have hnone : c.storage.lookup (p.path tables) = none := hnewfile _ hext
    have hpath : ∀ row ∈ c.db.stagings.table, (c.showing tables t p now).path row = c.path row :=
      fun row hrow => ImportConsole.path_withUpload t p.file (p.path tables) now hrow
    have hkeep : ∀ path content, c.storage.lookup path = some content →
        (c.showing tables t p now).storage.lookup path = some content := by
      intro path content hlookup
      have hne : path ≠ p.path tables := by
        intro heq
        rw [heq, hnone] at hlookup
        cases hlookup
      exact (AList.lookup_insert_ne hne).trans hlookup
    have hnew : p.Staged tables (c.showing tables t p now) (c.rowOf p) :=
      ⟨rfl, rfl, rfl, rfl, rfl, (ImportConsole.fileOf_withUpload t (p.path tables)).1,
        AList.lookup_insert _⟩
    exact {
      named := List.forall_mem_cons.mpr ⟨⟨hdot, hext⟩, h.named⟩
      tokens := by
        refine List.nodup_cons.mpr ⟨fun hmem => ?_, h.tokens⟩
        obtain ⟨q, hq, heq⟩ := List.mem_map.mp hmem
        exact hfresh q hq heq
      read := List.forall_mem_cons.mpr ⟨hread, h.read⟩
      rows row hrow := by
        rcases (hadds row).mp hrow with hrow | rfl
        · obtain ⟨q, hq, htoken, hstaged⟩ := hold.rows row hrow
          refine ⟨q, List.mem_cons_of_mem p hq, htoken, fun hlive => ?_⟩
          have hq' := hstaged hlive
          exact { hq' with
            path := (hpath row hrow).trans hq'.path
            stored := hkeep _ _ hq'.stored }
        · exact ⟨p, List.mem_cons_self, rfl, fun _ => hnew⟩
      files path content hlookup := by
        by_cases heq : path = p.path tables
        · exact ⟨c.rowOf p, (hadds _).mpr (.inr rfl), rfl, hnew.path.trans heq.symm⟩
        · obtain ⟨row, hrow, hlive, hrowpath⟩ := hold.files path content
            ((AList.lookup_insert_ne heq).symm.trans hlookup)
          exact ⟨row, (hadds row).mpr (.inl hrow), hlive, (hpath row hrow).trans hrowpath⟩
      sessions session token hs := by
        by_cases heq : session = p.session
        · subst heq
          have hs : some p.token = some token := (AList.lookup_insert _).symm.trans hs
          exact ⟨p, List.find?_cons_of_pos (beq_self_eq_true _), Option.some.inj hs⟩
        · obtain ⟨q, hq, htoken⟩ := hold.sessions session token
            ((AList.lookup_insert_ne heq).symm.trans hs)
          refine ⟨q, ?_, htoken⟩
          have hother : ¬ (p.session == session) = true := fun h => heq (beq_iff_eq.mp h).symm
          exact (List.find?_cons_of_neg (p := fun r : Preview => r.session == session) hother).trans
            hq }

theorem tidy_start {db : Db} (hdb : db.stagings.table.rows = []) : (start db).Tidy tables where
  named p hp := absurd hp List.not_mem_nil
  tokens := List.nodup_nil
  read p hp := absurd hp List.not_mem_nil
  rows row hrow := by
    have hrow : row ∈ db.stagings.table.rows := hrow
    rw [hdb] at hrow
    exact absurd hrow List.not_mem_nil
  files path content hlookup := by cases hlookup
  sessions session token hs := by cases hs

theorem tidy_run (h : W.Tidy tables) {events : List ConsoleEvent}
    (hadmits : Along (step tables) Admits W events) : (W.run tables events).Tidy tables :=
  hadmits.invariant (fun _ _ hW he => hW.takes (takes_step hW he)) h (List.prefix_refl events)

/-! ### Uploads that have been imported -/

/-- The upload has been shown, and it is consumed. -/
structure Spent (p : Preview) (W : ConsoleRun) : Prop where
  shown : p ∈ W.previews
  spent : ∃ row ∈ W.console.db.stagings.table, row.token = p.token ∧ row.consumedAt ≠ none

variable {p : Preview}

theorem Spent.takes (h : W.Spent p) {W' : ConsoleRun} (htakes : Takes tables W W') :
    W'.Spent p := by
  have hmoves : ∀ c', Relation.ReflTransGen ImportConsole.Moves W.console c' →
      ∃ row ∈ c'.db.stagings.table, row.token = p.token ∧ row.consumedAt ≠ none := by
    intro c' hc'
    induction hc' with
    | refl => exact h.spent
    | tail _ hmove ih =>
      obtain ⟨row, hrow, htoken, hspent⟩ := ih
      cases hmove with
      | alike halike => exact ⟨row, (halike.rows row).mpr hrow, htoken, hspent⟩
      | retires r hmem hlive hretires =>
        -- only a row that is live gives up its file
        have hne : row.id ≠ r.id := by
          intro heq
          rw [Table.eq_of_key_eq hrow hmem heq] at hspent
          exact hspent hlive
        exact ⟨row, (hretires.others row hrow hne).1, htoken, hspent⟩
  cases htakes with
  | moves hc' => exact ⟨h.shown, hmoves _ hc'⟩
  | shows q now hc hadds =>
    obtain ⟨row, hrow, htoken, hspent⟩ := hmoves _ hc
    exact ⟨List.mem_cons_of_mem q h.shown, row, (hadds row).mpr (.inl hrow), htoken, hspent⟩

theorem Spent.consumed (h : W.Spent p) {row : ImportStaging}
    (hmem : row ∈ W.console.db.stagings.table) (htoken : row.token = p.token) :
    row.consumedAt ≠ none := by
  obtain ⟨r, hr, hr', hspent⟩ := h.spent
  rwa [List.inj_on_of_nodup_map W.console.db.stagings.uniqueToken hmem hr (htoken.trans hr'.symm)]

theorem Spent.live? (h : W.Spent p) (user : ℕ) :
    W.console.db.stagings.live? p.token user = none := by
  refine List.find?_eq_none.mpr fun r hr hlive => ?_
  simp only [Bool.and_eq_true, beq_iff_eq, Option.isNone_iff_eq_none] at hlive
  exact h.consumed hr hlive.1.1 hlive.2

/-- Nothing is stored for it any more. -/
theorem Spent.lookup (h : W.Spent p) (htidy : W.Tidy tables) :
    W.console.storage.lookup (p.path tables) = none := by
  cases hlookup : W.console.storage.lookup (p.path tables) with
  | none => rfl
  | some content =>
    obtain ⟨row, hrow, hlive, hpath⟩ := htidy.files _ content hlookup
    obtain ⟨q, hq, hstaged⟩ := htidy.staged hrow hlive
    obtain rfl := htidy.eq_of_path hq h.shown (hstaged.path.symm.trans hpath)
    exact absurd hlive (h.consumed hrow hstaged.token.symm)

theorem spent_run (h : W.Tidy tables) (hspent : W.Spent p) {events : List ConsoleEvent}
    (hadmits : Along (step tables) Admits W events) : (W.run tables events).Spent p :=
  (hadmits.invariant (I := fun W => W.Tidy tables ∧ W.Spent p)
    (fun _ _ hW he => ⟨hW.1.takes (takes_step hW.1 he), hW.2.takes (takes_step hW.1 he)⟩)
    ⟨h, hspent⟩ (List.prefix_refl events)).2

end ConsoleRun

open ConsoleRun

/-- In every run the files are those of the uploads that are not consumed, each with the content
that its owner was shown the report of. -/
theorem staged_files_exact (tables : TextTables) {db : Db} (hdb : db.stagings.table.rows = [])
    {events : List ConsoleEvent}
    (hadmits : Along (step tables) Admits (start db) events) (path : String) (content : FileRows) :
    let W := (start db).run tables events
    W.console.storage.lookup path = some content ↔
      ∃ row ∈ W.console.db.stagings.table, row.consumedAt = none ∧ W.console.path row = path ∧
        ∃ p ∈ W.previews, p.token = row.token ∧ p.user = row.uploadedBy ∧
          row.term = some p.term ∧ p.path tables = path ∧ p.file.content = content ∧
          importReport tables content = .ok p.report := by
  intro W
  have htidy : W.Tidy tables := tidy_run (tidy_start hdb) hadmits
  constructor
  · intro hlookup
    obtain ⟨row, hrow, hlive, hpath⟩ := htidy.files path content hlookup
    obtain ⟨p, hp, hstaged⟩ := htidy.staged hrow hlive
    obtain rfl : p.path tables = path := hstaged.path.symm.trans hpath
    obtain rfl : p.file.content = content := Option.some.inj (hstaged.stored.symm.trans hlookup)
    exact ⟨row, hrow, hlive, hpath, p, hp, hstaged.token, hstaged.user, hstaged.term, rfl, rfl,
      htidy.read p hp⟩
  · rintro ⟨row, hrow, hlive, -, p, hp, htoken, -, -, rfl, rfl, -⟩
    obtain ⟨q, hq, hstaged⟩ := htidy.staged hrow hlive
    obtain rfl := htidy.eq_of_token hp hq (htoken.trans hstaged.token.symm)
    exact hstaged.stored

namespace Campus

/-- The database with a draft, before anything is uploaded. -/
def drafting : Db := { stagedUpload with stagings := Db.empty.stagings }

/-- One operator previews the offerings, and another drops an upload of his own. -/
def twoPreviews : List ConsoleEvent :=
  [.preview 1 7 (some ⟨"offerings.CSV", 512, some offeringGrid⟩) "1" "abc" "other" 0,
    .preview 2 8 (some ⟨"offerings.xlsx", 512, some offeringGrid⟩) " 1 " "def" "other" minute,
    .discard 2 8]

theorem admits_twoPreviews :
    Along (step asciiTables) Admits (start drafting) twoPreviews := by
  refine ⟨⟨by decide, fun p hp => absurd hp List.not_mem_nil⟩, ⟨by decide, ?_⟩, trivial, trivial⟩
  decide +kernel

end Campus

open Campus in
/-- The first of the files is still there. -/
theorem staged_file_twoPreviews :
    let W := (start drafting).run asciiTables twoPreviews
    W.console.storage.lookup "imports/staging/abc.csv" = some (some offeringGrid) ∧
      ∃ row ∈ W.console.db.stagings.table, row.consumedAt = none ∧
        W.console.path row = "imports/staging/abc.csv" ∧
        ∃ p ∈ W.previews, p.token = row.token ∧ p.user = row.uploadedBy ∧
          row.term = some p.term ∧ p.path asciiTables = "imports/staging/abc.csv" ∧
          p.file.content = some offeringGrid ∧
          importReport asciiTables (some offeringGrid) = .ok p.report := by
  have hstored : ((start drafting).run asciiTables twoPreviews).console.storage.lookup
      "imports/staging/abc.csv" = some (some offeringGrid) := by
    decide +kernel
  exact ⟨hstored, (staged_files_exact asciiTables rfl admits_twoPreviews _ _).mp hstored⟩

/-- In every run a commit that imports, imports the file of the last report that its session was
shown, for the user it was shown to, into the draft that was chosen for it; and from then on nobody
has the upload, and no file has its name. -/
theorem commit_imports_preview (tables : TextTables) {db : Db} (hdb : db.stagings.table.rows = [])
    {events : List ConsoleEvent} (hadmits : Along (step tables) Admits (start db) events)
    {session user : ℕ} {mint : ℕ → ℕ → String × String} {now created : ℤ} {name : String}
    (hcommit : (((start db).run tables events).console.commit tables session user mint now).1 =
      .ok (.committed created name)) :
    let W := (start db).run tables events
    let W' := step tables W (.commit session user mint now)
    ∃ p term row imported, W.last session = some p ∧ p.user = user ∧ p.file.name = name ∧
      importReport tables p.file.content = .ok p.report ∧
      W.console.db.terms.table.get? p.term = some term ∧ term.status = .draft ∧
      (importFile tables (.pk p.term) p.file.content ⟨"", none, 0, false⟩ mint).run W.console.db =
        (.ok (), imported) ∧
      created = imported.scheduleCount p.term - W.console.db.scheduleCount p.term ∧
      W'.console.db = { imported with
        stagings := W.console.db.stagings.consume row now
        audit := W.console.db.audit ++ [⟨some user, .scheduleImported row name p.file.size created
          p.term term.name⟩] } ∧
      ∀ more, Along (step tables) Admits W' more →
        (∀ u, (W'.run tables more).console.db.stagings.live? p.token u = none) ∧
        (W'.run tables more).console.storage.lookup (p.path tables) = none := by
  intro W W'
  have htidy : W.Tidy tables := tidy_run (tidy_start hdb) hadmits
  rcases ImportConsole.commit_cases tables W.console session user mint now with
    ⟨reply, hreply, hrun⟩ | ⟨row, term, imported, n, db', hstaged, hcommits, hrun⟩
  · rw [show (W.console.commit tables session user mint now).1 = .ok reply by rw [hrun]] at hcommit
    obtain rfl := Except.ok.inj hcommit
    cases hreply
  · have hsame := (congrArg Prod.fst hrun).symm.trans hcommit
    obtain ⟨rfl, rfl⟩ := CommitReply.committed.inj (Except.ok.inj hsame)
    obtain ⟨hsession, -, hmem, huser, hlive⟩ := ImportConsole.of_stagedFor hstaged
    -- the upload of the session is the one it was last shown
    obtain ⟨p, hlast, htoken⟩ := htidy.sessions session row.token hsession
    have hp : p ∈ W.previews := List.mem_of_find?_eq_some hlast
    obtain ⟨q, hq, hq'⟩ := htidy.staged hmem hlive
    obtain rfl := htidy.eq_of_token hp hq (htoken.trans hq'.token.symm)
    have hterm : p.term = term.id := Option.some.inj (hq'.term.symm.trans hcommits.target)
    have hcontent : W.console.fileOf row = p.file.content := by
      rw [ImportConsole.fileOf, hq'.path, hq'.stored]
      rfl
    have hfile : (W.console.commitRequest session user mint now).file = p.file.content := by
      rw [ImportConsole.commitRequest, hstaged]
      exact hcontent
    have himport := hcommits.run
    rw [hfile] at himport
    have hconsole : W'.console = W.console.committed session row db' := congrArg Prod.snd hrun
    have hadmit : W.Admits (.commit session user mint now) := trivial
    have htidy' : W'.Tidy tables := htidy.takes (takes_step htidy hadmit)
    refine ⟨p, term, row.id, imported, hlast, hq'.user.trans huser, hq'.name.symm,
      htidy.read p hp, hterm ▸ hcommits.stored, hcommits.draft, hterm ▸ himport,
      hterm ▸ hcommits.counted, ?_, fun more hmore => ?_⟩
    · rw [hconsole, hterm, ← hq'.size]
      exact hcommits.final
    · have hspent : W'.Spent p := by
        refine ⟨hp, row.consume now, ?_, hq'.token.symm, fun hnone => by cases hnone⟩
        rw [hconsole]
        change _ ∈ db'.stagings.table
        rw [hcommits.final]
        refine StagingTable.mem_consume.mpr ⟨row, hmem, ?_⟩
        rw [if_pos (beq_self_eq_true _)]
        rfl
      have hlater := spent_run htidy' hspent hmore
      exact ⟨hlater.live?, hlater.lookup (tidy_run htidy' hmore)⟩

open Campus in
/-- The operator commits it, and nobody has it afterwards. -/
theorem commit_twoPreviews :
    let W := (start drafting).run asciiTables twoPreviews
    let W' := step asciiTables W (.commit 1 7 (mintFrom 200000) (2 * minute))
    ∃ p, W.last 1 = some p ∧ p.user = 7 ∧ p.file.name = "offerings.CSV" ∧
      ∀ u, (W'.run asciiTables [.page 2 8 0]).console.db.stagings.live? p.token u = none := by
  have hcommit : (((start drafting).run asciiTables twoPreviews).console.commit asciiTables 1 7
      (mintFrom 200000) (2 * minute)).1 = .ok (.committed 3 "offerings.CSV") := by
    decide +kernel
  obtain ⟨p, -, -, -, hlast, huser, hname, -, -, -, -, -, -, hlater⟩ :=
    commit_imports_preview asciiTables rfl admits_twoPreviews hcommit
  exact ⟨p, hlast, huser, hname, (hlater [.page 2 8 0] ⟨trivial, trivial⟩).1⟩

end FluxTrack
