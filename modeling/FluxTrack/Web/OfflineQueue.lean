import FluxTrack.Data.Grouping
import FluxTrack.Web.QueuedScans
import FluxTrack.Web.RoomTokens
import Mathlib.Data.String.Basic

/-!
# The queue of offline scans

What `static/checker/offline_queue.js` keeps in the browser of a checker: an object store whose
records have the uuid as their key. A scan is put into the store when it is made offline, the whole
store is posted to `replay` when there is a connection again, and what the answer names is removed.

## Main definitions

* `QueueRecord`, `enqueue` — the records, and how a scan becomes one
* `getAllItems`, `drainBody` — what is posted
* `answeredUuids`, `removeItem` — what is removed after an answer
-/

namespace FluxTrack

/-! ### Uuids -/

/-- The last `w` hexadecimal digits of a number, the first one first. -/
def hexDigits (n : ℕ) : ℕ → List Char
  | 0 => []
  | w + 1 => Nat.digitChar (n / 16 ^ w % 16) :: hexDigits n w

/-- `str(UUID(int=n))`, which is also the form of `crypto.randomUUID()`. -/
def uuidText (n : ℕ) : String :=
  let hex := hexDigits n 32
  String.ofList ("-".toList.intercalate
    [hex.take 8, (hex.drop 8).take 4, (hex.drop 12).take 4, (hex.drop 16).take 4, hex.drop 20])

example : uuidText 0x6ba7b8109dad41d180b400c04fd430c8 = "6ba7b810-9dad-41d1-80b4-00c04fd430c8" := by
  decide +kernel

/-! ### The store -/

/-- A record of the store. -/
structure QueueRecord where
  clientUuid : String
  token : String
  sessionId : Option String
  action : String
  note : String
  scannedAt : String
  deriving DecidableEq

/-- The object store `queue`, whose key path is `client_uuid`. -/
abbrev ScanQueue := Dict String QueueRecord

/-- The argument of `enqueue`; a field that is not there is `none`. -/
structure Capture where
  token : Option String
  payload : String
  sessionId : Option String
  action : String
  note : Option String
  scannedAt : Option String
  deriving DecidableEq

/-- `a || b`, where `a` is a text or nothing. -/
def jsOr (a : Option String) (b : Option String) : Option String :=
  (a.filter fun s => s != "").or b

/-- The record of a scan, unless its token cannot be read; `uuid` is a new one and `clock` the time
now. -/
def Capture.record? (item : Capture) (uuid clock : String) : Option QueueRecord :=
  (jsOr (jsOr item.token (extractToken item.payload)) none).map fun token =>
    { clientUuid := uuid
      token := token
      sessionId := jsOr item.sessionId none
      action := item.action
      note := (jsOr item.note (some "")).getD ""
      scannedAt := (jsOr item.scannedAt (some clock)).getD "" }

/-- `store.put(record)` -/
def ScanQueue.putRecord (queue : ScanQueue) (r : QueueRecord) : ScanQueue :=
  queue.insert r.clientUuid r

/-- `enqueue`; a scan whose token cannot be read is refused. -/
def enqueue (queue : ScanQueue) (item : Capture) (uuid clock : String) : ScanQueue :=
  (item.record? uuid clock).elim queue queue.putRecord

/-- `getAllItems`: the records in the order of their keys. -/
def getAllItems (queue : ScanQueue) : List QueueRecord := queue.sortedItems.map Prod.snd

/-- A record as `drain` posts it. -/
def QueueRecord.posted (r : QueueRecord) : QueuedScan :=
  ⟨some r.clientUuid, some r.token, r.sessionId, some r.action, some r.note, some r.scannedAt⟩

/-- The body of the request that `drain` makes, if it makes one. -/
def drainBody (queue : ScanQueue) : Option (List QueuedScan) :=
  if getAllItems queue = [] then none else some ((getAllItems queue).map QueueRecord.posted)

/-- The uuid in the result of a scan. -/
def ReplayResult.uuidText (r : ReplayResult) : String := r.uuid.elim "" FluxTrack.uuidText

/-- The uuids that `drain` removes after an answer: those of the terminal results, which all
are. -/
def answeredUuids (results : List ReplayResult) : List String :=
  (results.filter fun r =>
    r.status == .applied || r.status == .flagged || r.status == .duplicate).map
      ReplayResult.uuidText

/-- `removeItem` -/
def removeItem (queue : ScanQueue) (uuid : String) : ScanQueue := queue.erase uuid

section

variable {queue : ScanQueue} {r : QueueRecord} {uuid uuid' : String}

theorem mem_getAllItems : r ∈ getAllItems queue ↔ ∃ key, queue.lookup key = some r := by
  simp only [getAllItems, List.mem_map, Prod.exists, exists_eq_right]
  exact exists_congr fun key => Dict.mem_sortedItems

@[simp] theorem lookup_putRecord : (queue.putRecord r).lookup r.clientUuid = some r :=
  AList.lookup_insert queue

theorem lookup_putRecord_of_ne (h : uuid ≠ r.clientUuid) :
    (queue.putRecord r).lookup uuid = queue.lookup uuid :=
  AList.lookup_insert_ne h

@[simp] theorem lookup_removeItem : (removeItem queue uuid).lookup uuid = none :=
  AList.lookup_erase uuid queue

theorem lookup_removeItem_of_ne (h : uuid' ≠ uuid) :
    (removeItem queue uuid).lookup uuid' = queue.lookup uuid' :=
  AList.lookup_erase_ne h

/-- All results are terminal. -/
theorem answeredUuids_eq (results : List ReplayResult) :
    answeredUuids results = results.map ReplayResult.uuidText := by
  rw [answeredUuids, List.filter_eq_self.mpr]
  intro result _
  cases result.status <;> rfl

/-- The record of a scan has the uuid that was made for it. -/
theorem Capture.clientUuid_of_record? {item : Capture} {clock : String}
    (h : item.record? uuid clock = some r) : r.clientUuid = uuid := by
  obtain ⟨token, -, rfl⟩ := Option.map_eq_some_iff.mp h
  rfl

end

end FluxTrack
