import FluxTrack.Process.Rescue
import FluxTrack.Scheduling.ImportPlan
import FluxTrack.Scheduling.TermLifecycle

/-!
# Committing an upload

`import_commit` of `web/ifo.py`: the file that was staged with the token of the session is
imported into the term it was staged for, once. The rows it looks up are those of
`ops/import_staging.py`.

## Main definitions

* `lockedStagingFor` — the live row of the token, locked
* `importCommit` — the view
-/

namespace FluxTrack

open Calendar Relational Process

/-- A request to commit: its user, the token in its session if there is one, the file as it is
read, the credentials that are minted, and the time the upload would be consumed at. -/
structure CommitRequest where
  user : ℕ
  token : Option String
  file : Option (List (List String))
  mint : ℕ → ℕ → String × String
  now : ℤ

/-- The panels that are rendered. -/
inductive CommitReply
  /-- "That upload is no longer available. ..." -/
  | unavailable
  /-- "That upload has no Draft term target. ..." -/
  | noTarget
  /-- "That target is no longer a Draft term. ..." -/
  | notDraft
  /-- "The import stopped partway through: ..." -/
  | stopped (e : Err)
  | committed (created : ℤ) (originalName : String)
  deriving DecidableEq

/-- `_locked_staging_for`. -/
def lockedStagingFor (token : Option String) (user : ℕ) : M (Option ImportStaging) :=
  match token with
  | none => pure none
  | some token => do
    -- `select_for_update`: a second commit of the upload waits here
    Prog.lock (.staging token)
    Prog.select fun db => db.stagings.live? token user

/-- `import_offerings` on a file, which may turn out not to be readable. -/
def importFile (tables : TextTables) (lookup : TermLookup) (file : Option (List (List String)))
    (o : ImportOptions) (mint : ℕ → ℕ → String × String) : M Unit :=
  match file with
  | some grid => importGrid tables lookup grid o mint
  | none => do
    let _ ← resolveTerm lookup
    .raise .unreadable

/-- What `import_commit` does to a staged upload whose target is a draft. -/
def commitUpload (tables : TextTables) (c : CommitRequest) (staging : ImportStaging)
    (term : AcademicTerm) : M CommitReply := do
  let before ← Prog.select fun db => (db.scheduleCount term.id : ℤ)
  -- the command imports into the term of the upload, whatever was posted
  importFile tables (.pk term.id) c.file ⟨"", none, 0, false⟩ c.mint
  let created ← Prog.select fun db => (db.scheduleCount term.id : ℤ) - before
  -- consumed in the same block: an import that fails leaves the upload live
  Prog.modify fun db => { db with stagings := db.stagings.consume staging.id c.now }
  createAudit (some c.user)
    (.scheduleImported staging.id staging.originalName staging.sizeBytes created term.id term.name)
  pure (.committed created staging.originalName)

/-- The block of `import_commit`, with the row that `_locked_staging_for` has found. -/
def commitStaged (tables : TextTables) (c : CommitRequest) (staging : Option ImportStaging) :
    M CommitReply :=
  match staging with
  | none => pure .unavailable
  | some staging =>
    match staging.term with
    | none => pure .noTarget
    | some pk => do
      let term ← lockTerm pk
      if term.status ≠ .draft then pure .notDraft
      else commitUpload tables c staging term

/-- `import_commit`. -/
def importCommit (tables : TextTables) (c : CommitRequest) : M CommitReply :=
  (Prog.atomic (lockedStagingFor c.token c.user >>= commitStaged tables c)).rescue .stopped

end FluxTrack
