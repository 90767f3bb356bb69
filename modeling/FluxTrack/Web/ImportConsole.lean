import FluxTrack.Data.Grouping
import FluxTrack.Web.ImportCommit

/-!
# The import console

The staging of uploads (`ops/import_staging.py`) and the console that previews, commits and
discards them (`web/ifo.py`). An upload lives in three places: its bytes in a file under a path made
of its token, its row in the database, and its token in the session of the operator.

The content of a file is what `_read_rows` makes of it, or nothing where that raises.

## Main definitions

* `ImportConsole` — the three places
* `stageUpload`, `discardStaged`, `sweepAbandoned` — the operations on uploads
* `importPage`, `importPreview`, `commitRequest`, `importDiscard` — the views
-/

namespace FluxTrack

open Calendar Relational Process

/-! ### Rows -/

namespace StagingTable

/-- `ImportStaging.objects.create`, unless the token is taken. -/
def insert? (t : StagingTable) (token : String) (user : ℕ) (term : Option ℕ) (name : String)
    (size : ℕ) : Option StagingTable :=
  let table := t.table.insert fun pk => ⟨pk, token, user, term, name, size, none⟩
  if h : (table.rows.map ImportStaging.token).Nodup then some ⟨table, h⟩ else none

/-- `staging.delete()` -/
def delete (t : StagingTable) (pk : ℕ) : StagingTable where
  table := t.table.delete fun s => s.id == pk
  uniqueToken := t.uniqueToken.sublist (List.filter_sublist.map _)

end StagingTable

/-! ### Names -/

/-- `os.path.splitext(name)[1]`: the text from the last dot of the last part of a path on, unless
there are only dots before it. -/
def splitExt (name : String) : String :=
  let file := (name.toList.reverse.takeWhile fun c => c != '/').reverse
  let suffix := (file.reverse.takeWhile fun c => c != '.').reverse
  let stem := file.take (file.length - suffix.length - 1)
  if suffix.length < file.length && stem.any fun c => c != '.' then String.ofList ('.' :: suffix)
  else ""

example : splitExt "offerings.v2.XLSX" = ".XLSX" := by decide +kernel

/-- `ALLOWED_EXTENSIONS` -/
def allowedExtensions : List String := [".xlsx", ".csv"]

/-- `MAX_UPLOAD_BYTES` -/
def maxUploadBytes : ℕ := 10 * 1024 * 1024

/-- `MAX_PARSED_ROWS` -/
def maxParsedRows : ℕ := 20000

/-- `STAGING_TTL_HOURS`, as a duration. -/
def stagingTtl : ℤ := 2 * 60 * minute

/-- `f"{STAGING_PREFIX}{token}{ext}"` -/
def stagingName (token ext : String) : String := "imports/staging/" ++ token ++ ext

/-! ### The console -/

/-- The rows of a file, if it can be read. -/
abbrev FileRows := Option (List (List String))

/-- The columns of `ImportStaging` that are not in its row of the database. -/
structure StagedFile where
  storedPath : String
  createdAt : ℤ
  deriving DecidableEq

/-- The database, the remaining columns of the uploads by their keys, the files under `MEDIA_ROOT`,
and the token in each session. -/
structure ImportConsole where
  db : Db
  staged : Dict ℕ StagedFile
  storage : Dict String FileRows
  sessions : Dict ℕ String

/-- A file of a request. -/
structure UploadedFile where
  name : String
  size : ℕ
  content : FileRows
  deriving DecidableEq

/-- The refusals of an upload. -/
inductive UploadError
  /-- "Choose a file to upload." -/
  | noFile
  /-- "Select a Draft term." -/
  | noTerm
  /-- "Unsupported file type. ..." -/
  | badExtension
  /-- "That file is too large. ..." -/
  | tooLarge
  /-- "That file could not be read as an offerings export. ..." -/
  | unreadable
  /-- "That file has no rows in it." -/
  | empty
  /-- "That file has ... rows, which is beyond the ...-row limit for a single import." -/
  | tooManyRows (n : ℕ)
  /-- "That staged upload was created before term selection was required. ..." -/
  | noTarget
  deriving DecidableEq

/-- The report on a file and the number of its data rows. -/
abbrev ImportReport := Reconciliation × ℕ

/-- `_import_report`, without the narrative of the dry run. -/
def importReport (tables : TextTables) : FileRows → Except UploadError ImportReport
  | none => .error .unreadable
  | some [] => .error .empty
  | some (header :: data) =>
    if maxParsedRows < data.length + 1 then .error (.tooManyRows (data.length + 1))
    else .ok (reconcile tables data (columns header), data.length)

namespace ImportConsole

variable (c : ImportConsole)

/-- `_staged_for` -/
def stagedFor (session user : ℕ) : Option ImportStaging :=
  (c.sessions.lookup session).bind fun token => c.db.stagings.live? token user

/-- The path of an upload. -/
def path (staging : ImportStaging) : String := ((c.staged.lookup staging.id).map
  StagedFile.storedPath).getD ""

/-- What is read of the file of an upload; a file that is not there is not read. -/
def fileOf (staging : ImportStaging) : FileRows := (c.storage.lookup (c.path staging)).join

/-- `_delete_file`, and `_delete_staged_file` -/
def deleteFile (path : String) : ImportConsole := { c with storage := c.storage.erase path }

/-- `discard_staged` -/
def discardStaged (staging : ImportStaging) : ImportConsole :=
  { c.deleteFile (c.path staging) with
    db := { c.db with stagings := c.db.stagings.delete staging.id }
    staged := c.staged.erase staging.id }

/-- `request.session.pop(IMPORT_SESSION_KEY, None)` -/
def popToken (session : ℕ) : ImportConsole := { c with sessions := c.sessions.erase session }

/-- The upload is not consumed and was made before `cutoff`. -/
def isAbandoned (cutoff : ℤ) (staging : ImportStaging) : Bool :=
  staging.consumedAt.isNone && (c.staged.lookup staging.id).any fun f => f.createdAt < cutoff

/-- `sweep_abandoned` -/
def sweepAbandoned (now : ℤ) : ImportConsole :=
  (c.db.stagings.table.rows.filter (c.isAbandoned (now - stagingTtl))).foldl discardStaged c

/-- `stage_upload` for a term, with the token that is drawn. The file is stored under its name, or
under `other` if there is one of that name, before the row is made. -/
def stageUpload (tables : TextTables) (file : UploadedFile) (user term : ℕ) (token other : String)
    (now : ℤ) : Except UploadError (Except Err ImportStaging × ImportConsole) :=
  let ext := tables.lower (splitExt file.name)
  if ext ∉ allowedExtensions then .error .badExtension
  else if maxUploadBytes < file.size then .error .tooLarge
  else
    let name := stagingName token ext
    let path := if (c.storage.lookup name).isSome then other else name
    let pk := c.db.stagings.table.nextKey
    let storage := c.storage.insert path file.content
    .ok <| match c.db.stagings.insert? token user (some term) file.name file.size with
      | none => (.error .integrity, { c with storage := storage })
      | some stagings => (.ok ⟨pk, token, user, some term, file.name, file.size, none⟩,
        { c with
          db := { c.db with stagings := stagings }
          staged := c.staged.insert pk ⟨path, now⟩
          storage := storage })

/-- `_draft_term_from_post`, where the number may turn out not to be one. -/
def draftTermFromPost (tables : TextTables) (raw : String) : Except Err (Option AcademicTerm) :=
  if tables.isDigit (Py.strip raw) then
    match tables.int (Py.strip raw) with
    | none => .error .value
    | some pk =>
      .ok ((c.db.terms.table.get? pk).filter fun term => term.status == .draft)
  else .ok none

/-! ### The views -/

/-- The answer to a request: a panel with a report, a panel with an error, or an error page. -/
inductive Reply
  | report (r : ImportReport)
  | error (e : UploadError)
  | nothing
  | failed (e : Err)
  deriving DecidableEq

/-- The panel of a report or of an error. -/
def Reply.of : Except UploadError ImportReport → Reply
  | .ok r => .report r
  | .error e => .error e

/-- `import_page` -/
def importPage (tables : TextTables) (session user : ℕ) (now : ℤ) : Reply × ImportConsole :=
  let c := c.sweepAbandoned now
  match c.stagedFor session user with
  | none => (.nothing, c)
  | some staging =>
    if staging.term.isNone then (.error .noTarget, (c.discardStaged staging).popToken session)
    else (.of (importReport tables (c.fileOf staging)), c)

/-- The previous upload of the session is dropped. -/
def dropPrevious (session user : ℕ) : ImportConsole :=
  match c.stagedFor session user with
  | none => c
  | some staging => (c.discardStaged staging).popToken session

/-- What `import_preview` does with a file and a term. -/
def previewFile (tables : TextTables) (session user : ℕ) (file : UploadedFile) (term : ℕ)
    (token other : String) (now : ℤ) : Reply × ImportConsole :=
  let c := c.dropPrevious session user
  match c.stageUpload tables file user term token other now with
  | .error e => (.error e, c)
  | .ok (.error e, c) => (.failed e, c)
  | .ok (.ok staging, c) =>
    match importReport tables (c.fileOf staging) with
    | .error e => (.error e, c.discardStaged staging)
    | .ok report => (.report report, { c with sessions := c.sessions.insert session token })

/-- `import_preview` -/
def importPreview (tables : TextTables) (session user : ℕ) (file : Option UploadedFile)
    (term token other : String) (now : ℤ) : Reply × ImportConsole :=
  match file with
  | none => (.error .noFile, c)
  | some file =>
    match c.draftTermFromPost tables term with
    | .error e => (.failed e, c)
    | .ok none => (.error .noTerm, c)
    | .ok (some term) => c.previewFile tables session user file term.id token other now

/-- The request to commit that a session makes. -/
def commitRequest (session user : ℕ) (mint : ℕ → ℕ → String × String) (now : ℤ) : CommitRequest where
  user := user
  token := c.sessions.lookup session
  file := (c.stagedFor session user).bind c.fileOf
  mint := mint
  now := now

/-- `import_commit`: after the block, the file of a committed upload is removed and the token
dropped. -/
def commit (tables : TextTables) (session user : ℕ) (mint : ℕ → ℕ → String × String) (now : ℤ) :
    Except Err CommitReply × ImportConsole :=
  let request := c.commitRequest session user mint now
  match (importCommit tables request).run c.db with
  | (.ok (.committed created name), db) =>
    (.ok (.committed created name),
      ({ c with db := db }.deleteFile (((c.stagedFor session user).map c.path).getD "")).popToken
        session)
  | (reply, db) => (reply, { c with db := db })

/-- `import_discard` -/
def importDiscard (session user : ℕ) : ImportConsole :=
  ((c.stagedFor session user).elim c c.discardStaged).popToken session

end ImportConsole

end FluxTrack
