import FluxTrack.Data.Builtins
import FluxTrack.Data.Pattern
import FluxTrack.Data.Percent
import FluxTrack.Web.Scan

/-!
# Room tokens in scanned texts

A scanned text is a link with a token in it, a code of six digits, or neither. It is read twice:
by the page that keeps scans while it is offline, `extractToken` of `offline_queue.js`, and by the
server, `_room_from_payload` of `web/checker.py`.

## Main definitions

* `tokenField`, `extractToken` — what the page reads
* `ScanTables` — the tables of the interpreter
* `urlQuery`, `urlRaises`, `parseQsl` — the parts of `urllib.parse` that the server uses
* `linkField`, `readPayload` — what the server reads
-/

namespace FluxTrack

/-- A list without the members at either end that a test accepts. -/
def trim {α : Type*} (p : α → Bool) (l : List α) : List α :=
  ((l.dropWhile p).reverse.dropWhile p).reverse

/-- `t=` occurs in the text. -/
def hasT (l : List Char) : Bool := decide (['t', '='] <:+: l)

/-- The text is six digits. -/
def isCode (digit : Char → Bool) (l : List Char) : Bool := decide (l.length = 6) && l.all digit

/-! ### The page -/

/-- The white space and line ends of `String.prototype.trim`. -/
def isJsSpace (c : Char) : Bool :=
  let n := c.toNat
  (9 ≤ n && n ≤ 13) || n == 32 || n == 160 || n == 5760 || (8192 ≤ n && n ≤ 8202) || n == 8232 ||
    n == 8233 || n == 8239 || n == 8287 || n == 12288 || n == 65279

/-- `s.trim()` -/
def jsTrim (s : String) : String := String.ofList (trim isJsSpace s.toList)

/-- `/[?&]t=([^&]+)/` -/
def tokenRe : Pattern :=
  .all [.char fun c => c == '?' || c == '&', .lit 't', .lit '=', .group (.plus fun c => c != '&')]

/-- The field that the page takes the token from. -/
def tokenField (payload : List Char) : Option (List Char) :=
  if hasT payload then
    match tokenRe.search payload with
    | some ⟨[field], _⟩ => some field
    | _ => none
  else none

/-- `extractToken` -/
def extractToken (payload : String) : Option String :=
  let payload := (jsTrim payload).toList
  if payload = [] then none
  else match tokenField payload with
    -- a field that cannot be decoded is taken as it is
    | some field => some (String.ofList ((Percent.decodeURIComponent field).getD field))
    | none => if isCode Char.isDigit payload then some (String.ofList payload) else none

/-! ### The server -/

/-- What the server reads off the tables of the interpreter: `\d`, and the network locations for
which `urlsplit` raises. -/
structure ScanTables where
  isDecimal : Char → Bool
  isDecimal_ascii : ∀ c : Char, c.toNat < 128 → isDecimal c = c.isDigit
  rejects : List Char → Bool

/-- `urlparse(s)` raises. -/
def urlRaises (tables : ScanTables) (s : String) : Bool :=
  match (Py.splitScheme s).2 with
  | '/' :: '/' :: rest => tables.rejects (rest.takeWhile fun c => c != '/' && c != '?' && c != '#')
  | _ => false

/-- `urlparse(s).query` -/
def urlQuery (s : String) : List Char :=
  let url := match (Py.splitScheme s).2 with
    | '/' :: '/' :: rest => rest.dropWhile fun c => c != '/' && c != '?' && c != '#'
    | url => url
  ((url.takeWhile fun c => c != '#').dropWhile fun c => c != '?').drop 1

/-- The fields of a query that have a value, as they are written. -/
def queryFields (query : List Char) : List (List Char × List Char) :=
  (query.splitOnP fun c => c == '&').filterMap fun field =>
    match field.dropWhile fun c => c != '=' with
    | _ :: c :: value => some (field.takeWhile fun c => c != '=', c :: value)
    | _ => none

/-- `parse_qsl(query)` -/
def parseQsl (query : List Char) : List (List Char × List Char) :=
  (queryFields query).map fun field => (Percent.unquotePlus field.1, Percent.unquotePlus field.2)

/-- `(parse_qs(urlparse(payload).query).get("t") or [None])[0]`, where the text has `t=`. -/
def linkToken (payload : String) : Option (List Char) :=
  if hasT payload.toList then
    ((parseQsl (urlQuery payload)).find? fun field => field.1 == ['t']).map Prod.snd
  else none

/-- What `_room_from_payload` looks a room up by; nothing where it raises. -/
def readPayload (tables : ScanTables) (payload : String) : Option Payload :=
  let payload := Py.strip payload
  if hasT payload.toList && urlRaises tables payload then none
  else
    match (linkToken payload).filter fun token => !token.isEmpty with
    | some token => some (.link (String.ofList token))
    | none =>
      if isCode tables.isDecimal payload.toList then some (.code payload) else some .other

end FluxTrack
