import FluxTrack.Data.References

/-!
# Notifications

The notifications of a user, the categories that may be muted, and what the bell, the drop-down and
the page of notifications show and mark as read: `ops/notifications.py`, `ops/notify.py` and
`web/notifications.py`.

## Main definitions

* `NotificationCategory`, `categoryTypes`, `mutedTypes` — muting
* `visible`, `unreadCount`, `markRead` — the notifications of a user
* `bell`, `dropdown`, `listPage`, `muteToggle` — the views
-/

namespace FluxTrack

open Relational

/-! ### Categories -/

/-- `NotificationCategory` -/
inductive NotificationCategory
  | room | reports | system
  deriving DecidableEq, Repr

namespace NotificationCategory

/-- The value that is stored. -/
def value : NotificationCategory → String
  | .room => "room"
  | .reports => "reports"
  | .system => "system"

/-- `NotificationCategory.values`, as categories -/
def all : List NotificationCategory := [.room, .reports, .system]

/-- The category with a value. -/
def ofValue? (s : String) : Option NotificationCategory := all.find? fun c => c.value == s

end NotificationCategory

/-- `WEEKLY_REPORT_READY` -/
def weeklyReportReady : String := "weekly_report_ready"

/-- `GUARD_FLOOR_ALERT` -/
def guardFloorAlert : String := "guard_floor_alert"

/-- `CATEGORY_TYPES` -/
def categoryTypes : NotificationCategory → List String
  | .room => ["room_event", "room_conflict", guardFloorAlert]
  | .reports => [weeklyReportReady]
  | .system => ["job_failed", "modality_materialize_no_room"]

/-- `PUSH_TYPES` -/
def pushTypes : List String := ["room_event", "room_conflict", weeklyReportReady, guardFloorAlert]

/-! ### Rows -/

/-- A row of `Notification`. -/
structure NotificationRow where
  id : ℕ
  user : ℕ
  type : String
  title : String
  body : String
  link : String
  readAt : Option ℤ
  pushedAt : Option ℤ
  createdAt : ℤ
  deriving DecidableEq

instance : Keyed NotificationRow := ⟨NotificationRow.id⟩

/-- A row of `NotificationMute`. -/
structure NotificationMute where
  id : ℕ
  user : ℕ
  category : String
  deriving DecidableEq

instance : Keyed NotificationMute := ⟨NotificationMute.id⟩

/-- The notifications, and what is muted. -/
structure Mailroom where
  notifications : Table NotificationRow
  mutes : Table NotificationMute

/-- The slices of the drop-down and of the page: `PREVIEW_LIMIT`, `LIST_LIMIT`. -/
def previewLimit : ℕ := 5

/-- See `previewLimit`. -/
def listLimit : ℕ := 50

namespace Mailroom

variable (m : Mailroom)

/-- `muted_types`; a category that is not known contributes nothing. -/
def mutedTypes (user : ℕ) : List String :=
  (m.mutes.rows.filter fun r => r.user == user).flatMap fun r =>
    ((NotificationCategory.ofValue? r.category).map categoryTypes).getD []

/-- The notification is one of the user, and not muted. -/
def shows (user : ℕ) (n : NotificationRow) : Bool :=
  n.user == user && !(m.mutedTypes user).contains n.type

/-- `visible_qs`, the newest first. -/
def visible (user : ℕ) : List NotificationRow :=
  (m.notifications.rows.filter (m.shows user)).mergeSort fun a b => decide (b.createdAt ≤ a.createdAt)

/-- `unread_count` -/
def unreadCount (user : ℕ) : ℕ := (m.visible user).countP fun n => n.readAt.isNone

/-- `_mark_read`, of those notifications of the user that have been shown. -/
def markRead (user : ℕ) (shown : List ℕ) (now : ℤ) : Mailroom :=
  { m with
    notifications := m.notifications.update
      (fun n => n.user == user && shown.contains n.id && n.readAt.isNone)
      fun n => { n with readAt := some now } }

/-- `notify`, with the recipients it has made out. -/
def notify (type title body link : String) (recipients : List ℕ) (now : ℤ) : Mailroom :=
  recipients.foldl (fun m user => { m with
    notifications := m.notifications.insert fun pk =>
      ⟨pk, user, type, title, body, link, none, none, now⟩ }) m

/-! ### Views -/

/-- `bell`: the badge and a preview. It marks nothing. -/
def bell (user : ℕ) : ℕ × List NotificationRow :=
  (m.unreadCount user, (m.visible user).take previewLimit)

/-- A view that shows the first notifications and then marks them as read. -/
def openPage (limit user : ℕ) (now : ℤ) : List NotificationRow × Mailroom :=
  let rows := (m.visible user).take limit
  (rows, m.markRead user (rows.map NotificationRow.id) now)

/-- `dropdown` -/
def dropdown (user : ℕ) (now : ℤ) : List NotificationRow × Mailroom := m.openPage previewLimit user now

/-- `list_page` -/
def listPage (user : ℕ) (now : ℤ) : List NotificationRow × Mailroom := m.openPage listLimit user now

/-- A row that mutes the category for the user. -/
def mutes? (user : ℕ) (category : String) : Bool :=
  m.mutes.rows.any fun r => r.user == user && r.category == category

/-- `_settings_groups`: the categories, and which of them are muted. -/
def settingsGroups (user : ℕ) : List (NotificationCategory × Bool) :=
  NotificationCategory.all.map fun c => (c, m.mutes? user c.value)

/-- `mute_toggle`: nothing where there is no such category. -/
def muteToggle (user : ℕ) (category : String) : Option Mailroom :=
  if (NotificationCategory.ofValue? category).isNone then none
  else if m.mutes? user category then
    some { m with mutes := m.mutes.delete fun r => r.user == user && r.category == category }
  else some { m with mutes := m.mutes.insert fun pk => ⟨pk, user, category⟩ }

end Mailroom

end FluxTrack
