import FluxTrack.Data.Calendar
import FluxTrack.Ops.Notifications
import FluxTrack.Process.Prog

/-!
# Web push

The subscriptions of browsers (`web/push.py`) and the pass of the scheduler that sends out what has
not been pushed (`ops/push.py`).

## Main definitions

* `subscribe`, `unsubscribe` — the subscriptions of a user
* `sendOne`, `sendPushOutbox` — the pass
-/

namespace FluxTrack

open Calendar Relational Process

/-! ### Bodies of requests -/

/-- What a text in JSON says. -/
inductive Json
  | null
  | bool (b : Bool)
  | number (x : ℚ)
  | text (s : String)
  | array (items : List Json)
  | object (fields : List (String × Json))

namespace Json

/-- `bool(x)` -/
def truthy : Json → Bool
  | null => false
  | bool b => b
  | number x => decide (x ≠ 0)
  | text s => s != ""
  | array items => !items.isEmpty
  | object fields => !fields.isEmpty

/-- `x.get(name, default)`, which only an object has. -/
def get? (x : Json) (name : String) (default : Json) : Option Json :=
  match x with
  | object fields => some ((fields.lookup name).getD default)
  | _ => none

/-- `isinstance(x, dict) and x.get(name)`, as a condition -/
def hasTruthy (x : Json) (name : String) : Bool := ((x.get? name null).map truthy).getD false

end Json

/-- What the endpoints read off the interpreter: `json.loads` with the decoding before it, the text
of a value that is no text, and the collation of the column. -/
structure PushTexts where
  parse : List UInt8 → Option Json
  str : Json → String
  collate : String → String

/-! ### Subscriptions -/

/-- A row of `PushSubscription`. -/
structure PushSubscription where
  id : ℕ
  user : ℕ
  endpoint : String
  keys : Json

instance : Keyed PushSubscription := ⟨PushSubscription.id⟩

/-- The notifications and the subscriptions. -/
structure PushRoom extends Mailroom where
  subscriptions : Table PushSubscription

/-- The answer of an endpoint. -/
inductive PushReply
  | ok
  | badRequest (message : String)
  /-- an exception -/
  | failed
  deriving DecidableEq

/-- `_parse_json` -/
def parseJson (texts : PushTexts) (body : List UInt8) : Json := (texts.parse body).getD (.object [])

/-- What `subscribe` accepts. -/
def validSubscription (endpoint : String) (keys : Json) : Bool :=
  "https://".toList.isPrefixOf endpoint.toList && keys.hasTruthy "p256dh" && keys.hasTruthy "auth"

namespace PushRoom

variable (p : PushRoom) (texts : PushTexts)

/-- `PushSubscription.objects.update_or_create(endpoint=...)` -/
def updateOrCreate (user : ℕ) (endpoint : String) (keys : Json) : PushReply × PushRoom :=
  match p.subscriptions.rows.filter fun s => texts.collate s.endpoint == texts.collate endpoint with
  | [] =>
    if 500 < endpoint.length then (.failed, p)
    else (.ok, { p with subscriptions := p.subscriptions.insert fun pk => ⟨pk, user, endpoint, keys⟩ })
  | [s] =>
    (.ok, { p with
      subscriptions := p.subscriptions.update (fun r => r.id == s.id) fun r =>
        { r with user := user, keys := keys } })
  -- `MultipleObjectsReturned`
  | _ => (.failed, p)

/-- `subscribe` -/
def subscribe (user : ℕ) (body : List UInt8) : PushReply × PushRoom :=
  let data := parseJson texts body
  match data.get? "endpoint" (.text ""), data.get? "keys" (.object []) with
  | some (.text endpoint), some keys =>
    if validSubscription endpoint keys then p.updateOrCreate texts user endpoint keys
    else (.badRequest "invalid subscription", p)
  | some _, some _ => (.badRequest "invalid subscription", p)
  -- not an object
  | _, _ => (.failed, p)

/-- `unsubscribe` -/
def unsubscribe (user : ℕ) (body : List UInt8) : PushReply × PushRoom :=
  match (parseJson texts body).get? "endpoint" (.text "") with
  | none => (.failed, p)
  | some endpoint =>
    if !endpoint.truthy then (.badRequest "missing endpoint", p)
    else
      let text := match endpoint with
        | .text s => s
        | other => texts.str other
      (.ok, { p with
        subscriptions := p.subscriptions.delete fun s =>
          s.user == user && texts.collate s.endpoint == texts.collate text })

end PushRoom

/-! ### The pass -/

/-- How an attempt to push ends. -/
inductive PushOutcome
  | delivered
  /-- `WebPushException`, with the status of its response if there is one -/
  | refused (status : Option ℕ)
  /-- any other exception -/
  | raised
  deriving DecidableEq

/-- What `_send_one` answers: a subscription is kept unless its endpoint is gone. -/
def PushOutcome.keeps : PushOutcome → Bool
  | .delivered => true
  | .refused status => !(status == some 404 || status == some 410)
  | .raised => true

/-- A request to the endpoint of a subscription. -/
structure PushAttempt where
  notification : ℕ
  subscription : PushSubscription
  title : String
  body : String
  link : String

/-- The rows, the clock, and the attempts that have been made. -/
structure PushWorld extends PushRoom where
  now : ℤ
  attempts : List PushAttempt

/-- `_WINDOW_MINUTES` -/
def windowMinutes : ℤ := 15

/-- The rows that a pass starts with. -/
def PushWorld.candidates (w : PushWorld) : List NotificationRow :=
  (w.notifications.rows.filter fun n =>
    pushTypes.contains n.type && n.pushedAt.isNone &&
      decide (w.now - windowMinutes * minute ≤ n.createdAt)).mergeSort
        fun a b => decide (b.createdAt ≤ a.createdAt)

/-- The pass is a program over these rows; it takes no locks. -/
abbrev PushM := Prog Empty PushWorld Empty

/-- `_send_one`; the answers of the endpoints are given by the number of the attempt. -/
def sendOne (vendor : ℕ → PushOutcome) (n : NotificationRow) (sub : PushSubscription) : PushM Bool :=
  Prog.modifyGet (fun w => (vendor w.attempts.length).keeps) fun w =>
    { w with
      attempts := w.attempts ++
        [⟨n.id, sub, n.title, n.body, if n.link = "" then "/notifications" else n.link⟩] }

/-- `n.save(update_fields=["pushed_at"])` -/
def stampPushed (n : NotificationRow) : PushM PUnit :=
  Prog.modify fun w => { w with
    notifications := w.notifications.update (fun r => r.id == n.id) fun r =>
      { r with pushedAt := some w.now } }

/-- `sub.delete()` -/
def pruneSubscription (sub : PushSubscription) : PushM PUnit :=
  Prog.modify fun w => { w with subscriptions := w.subscriptions.delete fun s => s.id == sub.id }

/-- `n.user.push_subscriptions.all()` -/
def PushRoom.subscriptionsOf (p : PushRoom) (user : ℕ) : List PushSubscription :=
  p.subscriptions.rows.filter fun s => s.user == user

/-- The attempts for one notification. -/
def pushToAll (vendor : ℕ → PushOutcome) (n : NotificationRow) (subs : List PushSubscription) :
    PushM PUnit :=
  Prog.forEach subs fun sub => do
    if !(← sendOne vendor n sub) then pruneSubscription sub

/-- One round of the loop: whether the notification counts as sent. -/
def pushRow (vendor : ℕ → PushOutcome) (n : NotificationRow) : PushM Bool := do
  if (← Prog.select fun w => (w.mutedTypes n.user).contains n.type) then
    stampPushed n
    pure false
  else
    let subs ← Prog.select fun w => w.subscriptionsOf n.user
    pushToAll vendor n subs
    stampPushed n
    pure true

/-- The rows in turn, with the number of those sent. -/
def pushRows (vendor : ℕ → PushOutcome) : List NotificationRow → ℕ → PushM ℕ
  | [], sent => pure sent
  | n :: rows, sent => do
    let counts ← pushRow vendor n
    pushRows vendor rows (if counts then sent + 1 else sent)

/-- `send_push_outbox` -/
def sendPushOutbox (keyPath : String) (vendor : ℕ → PushOutcome) : PushM ℕ :=
  if keyPath = "" then pure 0
  else do
    let rows ← Prog.select PushWorld.candidates
    pushRows vendor rows 0

end FluxTrack
