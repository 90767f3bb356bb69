import FluxTrack.Web.ReportingCommon
import FluxTrack.Web.RoomCheck

/-!
# Queued scans as they are posted

The items of a batch before `replay` of `web/checker.py` has read them: objects whose fields are
texts or null. A field that is null is read as the empty text, and so is one that is left out.

## Main definitions

* `QueuedScan` — an item
* `QueuedScan.item` — what `replay` reads of it
* `QueuedScan.malformed` — a field that should have a value has none
-/

namespace FluxTrack

/-- The fields of a queued scan; `none` is null. A field that is left out is the empty text. -/
structure QueuedScan where
  clientUuid : Option String
  token : Option String
  sessionId : Option String
  action : Option String
  note : Option String
  scannedAt : Option String
  deriving DecidableEq

/-- `UUID(...)`, or none where it raises, and `parse_datetime`; the empty text is neither. -/
structure ScanParsers where
  uuid : String → Option ℕ
  parseDatetime : String → Parsed ScanTime
  uuid_empty : uuid "" = none
  parseDatetime_empty : parseDatetime "" = .nothing

/-- The values of `ValidationAction`. -/
def ValidationAction.value : ValidationAction → String
  | .verified => "verified"
  | .flagIdentityMismatch => "flag_identity_mismatch"
  | .flagNotPresent => "flag_not_present"
  | .verifiedEmpty => "verified_empty"

/-- The action of a text: one of `_VALID_ACTIONS` or another. -/
def ReplayAction.ofText (text : Option String) : ReplayAction :=
  (([.verified, .flagIdentityMismatch, .flagNotPresent, .verifiedEmpty] :
    List ValidationAction).find? fun a => text == some a.value).elim (.other text) .known

/-- `re.fullmatch(r"\d{6}", token)`. -/
def isManualCode (tables : TextTables) (token : String) : Bool :=
  token.toList.length == 6 && token.toList.all fun c => (tables.digit c).isSome

/-- The session an item names: `str(...).isdigit()` comes before `int(...)`. -/
def ClaimedSession.ofText (tables : TextTables) (text : String) : ClaimedSession :=
  if text = "" then .absent
  else if tables.isDigit text then (tables.int text).elim .unreadable .id
  else .notDigits

/-- The time an item gives. -/
def ClaimedTime.ofParsed : Parsed ScanTime → ClaimedTime
  | .nothing => .absent
  | .raising => .unreadable
  | .value t => .time t.instant

namespace QueuedScan

variable (tables : TextTables) (parsers : ScanParsers) (scan : QueuedScan)

/-- The item as it is read. -/
def item : ReplayItem where
  clientUuid := parsers.uuid (scan.clientUuid.getD "")
  token := Py.strip (scan.token.getD "")
  sixDigits := isManualCode tables (Py.strip (scan.token.getD ""))
  session := .ofText tables (scan.sessionId.getD "")
  action := .ofText scan.action
  note := scan.note.getD ""
  scannedAt := .ofParsed (parsers.parseDatetime (scan.scannedAt.getD ""))

/-- The time is given, and is none or an impossible one. -/
def badTime : Bool :=
  scan.scannedAt.getD "" != "" &&
    (parsers.parseDatetime (scan.scannedAt.getD "") == .nothing ||
      parsers.parseDatetime (scan.scannedAt.getD "") == .raising)

/-- A session is named, and not by a number. -/
def badSession : Bool :=
  scan.sessionId.getD "" != "" &&
    !(tables.isDigit (scan.sessionId.getD "") && (tables.int (scan.sessionId.getD "")).isSome)

/-- The uuid, the time or the session is not one, in an item whose token is no manual code. -/
def malformed : Bool :=
  !(scan.item tables parsers).sixDigits &&
    ((scan.item tables parsers).clientUuid.isNone || scan.badTime parsers || scan.badSession tables)

end QueuedScan

end FluxTrack
