import FluxTrack.Process.Prog
import FluxTrack.Scheduling.Resolver
import Mathlib.Data.List.Sort

/-!
# The database

The tables, the shared cache and the policy values as one store, the errors the
services raise, and the statements they are built of. A foreign key that points
nowhere cannot occur under the declared constraints; the lookups that follow
one are total and answer with a default row there.

The constraints declared on `AcademicTerm` are fields of `TermTable`, so a state
with two active terms cannot be built and a write that would break a constraint
raises instead; so with the unique client uuid of `CheckerReplayReceipt`, with the one open flag of
`RoomConflictFlag` and with the unique token of `ImportStaging`.

## Main definitions

* `FluxTrack.Db` — the store
* `FluxTrack.M` — programs over the store
* `Db.activeTerm`, `requireWritableTerm` — `scheduling/term_scope.py`
* `notifyUsers`, `notifyRole` — `ops/notify.py`
-/

namespace FluxTrack

open Calendar Relational Process

/-- The local zone of the deployment, Asia/Manila. -/
def manila : Zone := ⟨28800000000⟩

/-- `timezone.make_aware(datetime.combine(d, t))`. -/
abbrev makeAware (d : ℤ) (t : TimeOfDay) : ℤ := manila.combine d t

/-- `timezone.localtime(i).date()`. -/
abbrev localDate (i : ℤ) : ℤ := manila.localDate i

/-- The instant of the wall clock reading `h:m:s` on date `d`. -/
def wallClock (d : ℤ) (h m s : ℕ) : ℤ := manila.midnight d + (h * 3600 + m * 60 + s : ℕ) * second

/-- The minute an instant falls in, as in the `%Y%m%d%H%M` cache keys. -/
def minuteOf (now : ℤ) : ℤ := now / minute

/-- Two minutes are more than one. -/
theorem lt_of_minuteOf_eq {a b : ℤ} (h : minuteOf a = minuteOf b) : a < b + 120 * second := by
  unfold minuteOf minute second at *
  omega

instance : Inhabited TimeOfDay := ⟨⟨0, by decide⟩⟩

instance : Inhabited Schedule :=
  ⟨⟨0, 0, "", "", 0, 0, 0, 0, default, default, default, default⟩⟩

/-! ### Terms -/

/-- The `AcademicTerm` table with its declared constraints. -/
structure TermTable where
  table : Table AcademicTerm
  oneActive : (table.rows.filter fun t => t.status == .active).length ≤ 1
  ordered : ∀ t ∈ table.rows, t.startDate ≤ t.endDate
  uniqueName : (table.rows.map AcademicTerm.name).Nodup
  deriving DecidableEq

namespace TermTable

/-- The table with the new rows, unless a constraint forbids it. -/
def ofTable? (t : Table AcademicTerm) : Option TermTable :=
  if h : (t.rows.filter fun t => t.status == .active).length ≤ 1 ∧
      (∀ a ∈ t.rows, a.startDate ≤ a.endDate) ∧ (t.rows.map AcademicTerm.name).Nodup
  then some ⟨t, h.1, h.2.1, h.2.2⟩ else none

theorem table_of_ofTable? {t : Table AcademicTerm} {u : TermTable} (h : ofTable? t = some u) :
    u.table = t := by
  unfold ofTable? at h
  split at h
  · cases h
    rfl
  · cases h

/-- Two active terms are the same term. -/
theorem eq_of_active (t : TermTable) {a b : AcademicTerm} (ha : a ∈ t.table) (hb : b ∈ t.table)
    (hact : a.status = .active) (hbct : b.status = .active) : a = b := by
  have hmem : ∀ c ∈ t.table, c.status = .active →
      c ∈ t.table.rows.filter fun t => t.status == .active := fun c hc hs =>
    List.mem_filter.mpr ⟨hc, by simp [hs]⟩
  have hone := t.oneActive
  have ha' := hmem a ha hact
  have hb' := hmem b hb hbct
  match hl : t.table.rows.filter fun t => t.status == .active with
  | [] => rw [hl] at ha'; cases ha'
  | [c] =>
    rw [hl, List.mem_singleton] at ha' hb'
    rw [ha', hb']
  | _ :: _ :: _ => rw [hl] at hone; simp at hone

end TermTable

/-! ### Receipts -/

/-- The `CheckerReplayReceipt` table with its declared constraint. -/
structure ReceiptTable where
  table : Table CheckerReplayReceipt
  uniqueUuid : (table.rows.map CheckerReplayReceipt.clientUuid).Nodup
  deriving DecidableEq

namespace ReceiptTable

/-- The receipt table with the new rows, unless the constraint forbids it. -/
def ofTable? (t : Table CheckerReplayReceipt) : Option ReceiptTable :=
  if h : (t.rows.map CheckerReplayReceipt.clientUuid).Nodup then some ⟨t, h⟩ else none

/-- There is a receipt for a client uuid. -/
def has (t : ReceiptTable) (uuid : ℕ) : Bool :=
  t.table.rows.any fun r => r.clientUuid == uuid

theorem has_iff {t : ReceiptTable} {uuid : ℕ} :
    t.has uuid = true ↔ ∃ r ∈ t.table, r.clientUuid = uuid := by
  simp [has]

/-- The table with one more receipt, unless its uuid is taken. -/
def insert? (t : ReceiptTable) (uuid checker : ℕ) (status : ReceiptStatus)
    (reason : Option ReplayReason) : Option ReceiptTable :=
  ofTable? (t.table.insert fun pk => ⟨pk, uuid, checker, status, reason⟩)

end ReceiptTable

/-! ### Conflict flags -/

/-- The flag has not been resolved. -/
def RoomConflictFlag.isOpen (f : RoomConflictFlag) : Bool := f.resolvedAt.isNone

/-- The `RoomConflictFlag` table with its declared constraint: one open flag for a key. -/
structure FlagTable where
  table : Table RoomConflictFlag
  oneOpen : ((table.rows.filter RoomConflictFlag.isOpen).map RoomConflictFlag.conflictKey).Nodup
  deriving DecidableEq

namespace FlagTable

/-- The flag table with the new rows, unless the constraint forbids it. -/
def ofTable? (t : Table RoomConflictFlag) : Option FlagTable :=
  if h : ((t.rows.filter RoomConflictFlag.isOpen).map RoomConflictFlag.conflictKey).Nodup
  then some ⟨t, h⟩ else none

/-- The flag table with one more open flag for a room, unless there is one. -/
def insert? (t : FlagTable) (room : ℕ) : Option FlagTable :=
  ofTable? (t.table.insert fun pk => ⟨pk, room, room, none⟩)

/-- A resolved flag leaves the open ones. -/
theorem sublist_open_resolve (l : List RoomConflictFlag) (p : RoomConflictFlag → Bool) (now : ℤ) :
    ((l.map fun f => if p f then { f with resolvedAt := some now } else f).filter
      RoomConflictFlag.isOpen).Sublist (l.filter RoomConflictFlag.isOpen) := by
  induction l with
  | nil => exact List.Sublist.refl _
  | cons f l ih =>
    rw [List.map_cons]
    by_cases hp : p f = true
    · rw [if_pos hp, List.filter_cons_of_neg (by simp [RoomConflictFlag.isOpen])]
      exact ih.trans (List.Sublist.filter _ (List.sublist_cons_self f l))
    · rw [if_neg hp]
      by_cases hopen : f.isOpen = true
      · rw [List.filter_cons_of_pos hopen, List.filter_cons_of_pos hopen]
        exact ih.cons_cons f
      · rw [List.filter_cons_of_neg hopen, List.filter_cons_of_neg hopen]
        exact ih

/-- `flag.save(update_fields=["resolved_at"])`. -/
def resolve (t : FlagTable) (pk : ℕ) (now : ℤ) : FlagTable where
  table := t.table.update (fun f => f.id == pk) fun f => { f with resolvedAt := some now }
  oneOpen := t.oneOpen.sublist ((sublist_open_resolve _ _ _).map _)

end FlagTable

/-! ### Staged uploads -/

/-- The row, consumed. -/
def ImportStaging.consume (now : ℤ) (s : ImportStaging) : ImportStaging :=
  { s with consumedAt := some now }

theorem ImportStaging.key_consume (now : ℤ) (s : ImportStaging) : key (s.consume now) = key s := rfl

/-- The `ImportStaging` table with its declared constraint. -/
structure StagingTable where
  table : Table ImportStaging
  uniqueToken : (table.rows.map ImportStaging.token).Nodup
  deriving DecidableEq

namespace StagingTable

/-- The row with a token that belongs to the user and has not been consumed. -/
def live? (t : StagingTable) (token : String) (user : ℕ) : Option ImportStaging :=
  t.table.rows.find? fun s => s.token == token && s.uploadedBy == user && s.consumedAt.isNone

/-- `consume_staged`. -/
def consume (t : StagingTable) (pk : ℕ) (now : ℤ) : StagingTable where
  table := t.table.update (fun s => s.id == pk) (ImportStaging.consume now)
    (ImportStaging.key_consume now)
  uniqueToken := by
    have htokens : (t.table.update (fun s => s.id == pk) (ImportStaging.consume now)
        (ImportStaging.key_consume now)).rows.map ImportStaging.token =
        t.table.rows.map ImportStaging.token := by
      rw [Table.rows_update, List.map_map]
      refine List.map_congr_left fun s _ => ?_
      rw [Function.comp_apply]
      split <;> rfl
    rw [htokens]
    exact t.uniqueToken

theorem mem_consume {t : StagingTable} {pk : ℕ} {now : ℤ} {x : ImportStaging} :
    x ∈ (t.consume pk now).table ↔
      ∃ s ∈ t.table, (if s.id == pk then s.consume now else s) = x :=
  Table.mem_update_iff (ImportStaging.key_consume now)

end StagingTable

/-! ### The cache -/

/-- The keys of the shared cache. -/
inductive CacheKey
  /-- `scan-rl:<user>:<minute>` -/
  | scanRl (user : ℕ) (minute : ℤ)
  /-- `scan-idem:<user>:<session>:<minute>` -/
  | scanIdem (user session : ℕ) (minute : ℤ)
  /-- `checker-replay-rl:<user>:<minute>` -/
  | checkerReplayRl (user : ℕ) (minute : ℤ)
  /-- `checker-idem:<user>:<session or room>:<action>:<minute>` -/
  | checkerIdem (user scope : ℕ) (action : ValidationAction) (minute : ℤ)
  deriving DecidableEq

/-- The values of the shared cache. -/
inductive CacheValue
  | count (n : ℕ)
  | outcome (o : Outcome)
  | flag
  deriving DecidableEq

/-- A cache entry with the instant it expires at. -/
structure CacheEntry where
  key : CacheKey
  value : CacheValue
  expires : ℤ
  deriving DecidableEq

/-- The value stored under a key that has not expired. -/
def cacheGet (cache : List CacheEntry) (key : CacheKey) (now : ℤ) : Option CacheValue :=
  (cache.find? fun c => c.key == key && decide (now < c.expires)).map CacheEntry.value

/-- Store a value under a key. -/
def cacheSet (cache : List CacheEntry) (key : CacheKey) (value : CacheValue) (expires : ℤ) :
    List CacheEntry :=
  ⟨key, value, expires⟩ :: cache.filter fun c => c.key != key

/-- `cache.add`, and the write of `cache.get_or_set`: store a value unless the key holds one. -/
def cacheAdd (cache : List CacheEntry) (key : CacheKey) (value : CacheValue) (now expires : ℤ) :
    List CacheEntry :=
  if (cacheGet cache key now).isSome then cache else cacheSet cache key value expires

/-- The number stored under a counter key, or zero. -/
def cacheCount (cache : List CacheEntry) (key : CacheKey) (now : ℤ) : ℕ :=
  match cacheGet cache key now with
  | some (.count n) => n
  | _ => 0

/-- One more under a counter key; the expiry stays. -/
def CacheEntry.incr (c : CacheEntry) : CacheEntry :=
  match c.value with
  | .count n => { c with value := .count (n + 1) }
  | _ => c

/-- `cache.incr`. -/
def cacheIncr (cache : List CacheEntry) (key : CacheKey) : List CacheEntry :=
  cache.map fun c => if c.key = key then c.incr else c

section

variable {cache : List CacheEntry} {key key' : CacheKey} {v : CacheValue} {now expires : ℤ}

theorem cacheGet_cacheSet_self (h : now < expires) :
    cacheGet (cacheSet cache key v expires) key now = some v := by
  simp [cacheGet, cacheSet, h]

theorem cacheGet_cacheSet_of_ne (h : key ≠ key') :
    cacheGet (cacheSet cache key v expires) key' now = cacheGet cache key' now := by
  rw [cacheGet, cacheSet, List.find?_cons_of_neg (by simp [h]), List.find?_filter, cacheGet]
  refine congrArg (fun p => (cache.find? p).map CacheEntry.value) (funext fun c => ?_)
  by_cases hc : c.key = key' <;> simp [hc, Ne.symm h]

theorem cacheGet_cacheAdd_of_ne (h : key ≠ key') (now' : ℤ) :
    cacheGet (cacheAdd cache key v now' expires) key' now = cacheGet cache key' now := by
  rw [cacheAdd]
  split
  · rfl
  · exact cacheGet_cacheSet_of_ne h

theorem cacheGet_cacheIncr_of_ne (h : key ≠ key') :
    cacheGet (cacheIncr cache key) key' now = cacheGet cache key' now := by
  induction cache with
  | nil => rfl
  | cons c cache ih =>
    by_cases hc : c.key = key
    · have hincr : c.incr.key = c.key := by
        rw [CacheEntry.incr]
        split <;> rfl
      simpa [cacheGet, cacheIncr, hc, hincr, h] using ih
    · by_cases hlive : (c.key == key' && decide (now < c.expires)) = true
      · simp [cacheGet, cacheIncr, hc, hlive]
      · simpa [cacheGet, cacheIncr, hc, hlive] using ih

end

/-! ### The store -/

/-- The database, the shared cache and the policy values. -/
structure Db where
  users : Table User
  buildings : Table Building
  floors : Table Floor
  rooms : Table Room
  terms : TermTable
  breaks : Table AcademicBreak
  suspensions : Table ClassSuspension
  schedules : Table Schedule
  sessions : Table Session
  requests : Table ModalityShiftRequest
  items : Table ModalityShiftItem
  bookings : Table Booking
  assignments : Table Assignment
  validations : Table CheckerValidation
  receipts : ReceiptTable
  flags : FlagTable
  stagings : StagingTable
  audit : List AuditLog
  notifications : List Notification
  policy : Policy
  cache : List CacheEntry
  deriving DecidableEq

/-- `settings.FLUXTRACK_POLICY`. -/
def Policy.default : Policy where
  graceMinutes := 15
  earlyEndThresholdMinutes := 15
  manualCodeRateLimitPerMin := 5
  materializationHorizonDays := 14
  modalityShiftLeadDays := 2

/-- A database without rows. -/
def Db.empty : Db where
  users := .empty
  buildings := .empty
  floors := .empty
  rooms := .empty
  terms := ⟨.empty, by decide, by decide, by decide⟩
  breaks := .empty
  suspensions := .empty
  schedules := .empty
  sessions := .empty
  requests := .empty
  items := .empty
  bookings := .empty
  assignments := .empty
  validations := .empty
  receipts := ⟨.empty, List.nodup_nil⟩
  flags := ⟨.empty, List.nodup_nil⟩
  stagings := ⟨.empty, List.nodup_nil⟩
  audit := []
  notifications := []
  policy := .default
  cache := []

namespace Db

/-- `Session.objects.all()` in the order of `Session.Meta.ordering`. -/
def sessionList (db : Db) : List Session := db.sessions.rows.insertionSort Session.precedes

@[simp] theorem mem_sessionList {db : Db} {s : Session} : s ∈ db.sessionList ↔ s ∈ db.sessions :=
  List.mem_insertionSort _

theorem nodup_map_filter_sessionList (db : Db) (p : Session → Bool) :
    ((db.sessionList.filter p).map Session.id).Nodup := by
  refine List.Nodup.sublist (List.Sublist.map _ List.filter_sublist) ?_
  exact ((List.perm_insertionSort _ _).map _).nodup_iff.mpr db.sessions.nodup

/-- A row of the table is among the keys of the selected rows iff it is selected. -/
theorem contains_map_filter_iff {db : Db} {p : Session → Bool} {s : Session}
    (hs : s ∈ db.sessions) :
    ((db.sessionList.filter p).map Session.id).contains s.id = true ↔ p s = true := by
  rw [List.contains_iff_mem, List.mem_map]
  constructor
  · rintro ⟨a, ha, hid⟩
    obtain ⟨hat, hpa⟩ := List.mem_filter.mp ha
    rwa [← Table.eq_of_key_eq (mem_sessionList.mp hat) hs hid]
  · intro hp
    exact ⟨s, List.mem_filter.mpr ⟨mem_sessionList.mpr hs, hp⟩, rfl⟩

/-- An update of the rows with the selected keys is an update of the selected rows. -/
theorem update_contains_selected (db : Db) (p : Session → Bool) (f : Session → Session)
    (hf : ∀ s, key (f s) = key s) :
    db.sessions.update (fun s => ((db.sessionList.filter p).map Session.id).contains s.id) f hf =
      db.sessions.update p f hf := by
  refine Table.update_congr fun s hs => ?_
  have hiff := contains_map_filter_iff (p := p) hs
  by_cases hp : p s = true
  · rw [if_pos hp, if_pos (hiff.mpr hp)]
  · rw [if_neg hp, if_neg (mt hiff.mp hp)]

/-- `session.schedule`. -/
def scheduleOf (db : Db) (s : Session) : Schedule := (db.schedules.get? s.schedule).getD default

/-- The room with a primary key. -/
def room (db : Db) (pk : ℕ) : Room := (db.rooms.get? pk).getD default

/-- `room.floor.building_id`. -/
def buildingOf (db : Db) (room : ℕ) : ℕ :=
  ((db.floors.get? (db.room room).floor).getD default).building

/-- `session.declared_modality or session.schedule.modality`. -/
def effectiveModality (db : Db) (s : Session) : Modality :=
  s.declaredModality.getD (db.scheduleOf s).modality

/-- `schedule__term=term` on a session. -/
def inTerm (db : Db) (term : ℕ) (s : Session) : Bool := (db.scheduleOf s).term == term

/-- `get_active_term`. -/
def activeTerm (db : Db) : Option AcademicTerm :=
  db.terms.table.rows.find? fun t => t.status == .active

theorem mem_of_activeTerm {db : Db} {t : AcademicTerm} (h : db.activeTerm = some t) :
    t ∈ db.terms.table ∧ t.status = .active :=
  ⟨List.mem_of_find?_eq_some h, by simpa using List.find?_some h⟩

/-- The active users of a role, in table order. -/
def usersOfRole (db : Db) (role : Role) : List ℕ :=
  (db.users.rows.filter fun u => u.role == role && u.isActive).map User.id

end Db

/-! ### Programs -/

/-- The rows that services lock with `select_for_update`. -/
inductive RowLock
  | session (pk : ℕ)
  | term (pk : ℕ)
  | schedule (pk : ℕ)
  | suspension (pk : ℕ)
  | request (pk : ℕ)
  | staging (token : String)
  deriving DecidableEq

/-- Why a command is given up: the texts of `CommandError`. -/
inductive CommandFailure
  /-- "--term is required" -/
  | termRequired
  /-- "AcademicTerm not found for --term ..." -/
  | termNotFound
  /-- "archived academic terms are read-only" -/
  | termArchived
  /-- "No ACTIVE academic term." -/
  | noActiveTerm
  deriving DecidableEq

/-- The exceptions the services raise. -/
inductive Err
  /-- `DoesNotExist` from a `get` on a missing row -/
  | doesNotExist
  /-- `MultipleObjectsReturned` -/
  | multipleObjects
  /-- `IntegrityError` -/
  | integrity
  /-- `ArchivedTermError` -/
  | archivedTerm
  /-- `MaterializationError` -/
  | materialization (message : String)
  /-- `ModalityShiftError` -/
  | modalityShift (message : String)
  /-- the internal `_NoRoomAvailable` sentinel -/
  | noRoomAvailable (reason : String)
  /-- `DataError`, a value too long for its column -/
  | data
  /-- `TermLifecycleError` with its blockers and warnings -/
  | termLifecycle (message : String) (blockers warnings : List String)
  /-- `Http404` -/
  | http404
  /-- `ScheduleConflictError`: "The room is occupied on <date> during that time." -/
  | scheduleConflict (date : ℤ)
  /-- `ValueError` -/
  | value
  /-- `OverflowError` -/
  | overflow
  /-- `CommandError` -/
  | command (failure : CommandFailure)
  /-- `PermissionDenied` -/
  | permissionDenied (message : String)
  /-- `ProtectedError` -/
  | protectedRows
  /-- `OSError`, `BadZipFile` and the like, from reading an uploaded file -/
  | unreadable
  deriving DecidableEq

/-- A service: statements over the database that may raise. -/
abbrev M := Prog RowLock Db Err

/-- `session.save(update_fields=...)` and other updates by primary key. -/
def saveSession (pk : ℕ) (f : Session → Session)
    (hf : ∀ s, key (f s) = key s := by intro _; rfl) : M Unit :=
  Prog.modify fun db => { db with sessions := db.sessions.update (fun s => s.id == pk) f hf }

/-- `AuditLog.objects.create`. -/
def createAudit (actor : Option ℕ) (event : AuditEvent) : M Unit :=
  Prog.modify fun db => { db with audit := db.audit ++ [⟨actor, event⟩] }

/-- `AuditLog.objects.bulk_create`. -/
def bulkCreateAudit (actor : Option ℕ) (events : List AuditEvent) : M Unit :=
  Prog.modify fun db => { db with audit := db.audit ++ events.map fun e => ⟨actor, e⟩ }

/-- The state with more notifications. -/
def Db.withNotes (db : Db) (notes : List Notification) : Db :=
  { db with notifications := db.notifications ++ notes }

theorem Db.withNotes_nil (db : Db) : db.withNotes [] = db := by
  rw [Db.withNotes, List.append_nil]

theorem Db.withNotes_withNotes (db : Db) (notes notes' : List Notification) :
    (db.withNotes notes).withNotes notes' = db.withNotes (notes ++ notes') := by
  simp only [Db.withNotes, List.append_assoc]

/-- `notify(users=...)`: one notification for each recipient. -/
def notifyUsers (users : List ℕ) (notice : Notice) : M Unit :=
  Prog.modify fun db =>
    { db with notifications := db.notifications ++ users.map fun u => ⟨u, notice⟩ }

/-- A loop that notifies one user at a time. -/
theorem run_forEach_notifyUsers {ι : Type} (l : List ι) (whom : ι → ℕ) (notice : ι → Notice)
    (db : Db) :
    (Prog.forEach l fun i => notifyUsers [whom i] (notice i)).run db =
      (.ok ⟨⟩, db.withNotes (l.map fun i => ⟨whom i, notice i⟩)) := by
  induction l generalizing db with
  | nil =>
    rw [List.map_nil, Db.withNotes_nil]
    rfl
  | cons i l ih =>
    have hone : (notifyUsers [whom i] (notice i)).run db =
        (.ok ⟨⟩, db.withNotes [⟨whom i, notice i⟩]) := rfl
    rw [Prog.run_forEach_cons (f := fun i => notifyUsers [whom i] (notice i)) hone, ih,
      Db.withNotes_withNotes, List.map_cons, List.singleton_append]

/-- `notify(role=...)`: one notification for each active user of the role. -/
def notifyRole (role : Role) (notice : Notice) : M Unit :=
  Prog.modify fun db =>
    { db with
      notifications := db.notifications ++ (db.usersOfRole role).map fun u => ⟨u, notice⟩ }

/-- `AcademicTerm.objects.select_for_update().get(pk=pk)`. -/
def lockTerm (pk : ℕ) : M AcademicTerm := do
  Prog.lock (.term pk)
  match ← Prog.select fun db => db.terms.table.get? pk with
  | some term => pure term
  | none => .raise .doesNotExist

/-- `require_writable_term`. -/
def requireWritableTerm (term : AcademicTerm) : M Unit :=
  if term.status = .archived then .raise .archivedTerm else pure ()

theorem run_lockTerm_of_get? {db : Db} {pk : ℕ} {term : AcademicTerm}
    (h : db.terms.table.get? pk = some term) : (lockTerm pk).run db = (.ok term, db) := by
  rw [lockTerm, Prog.run_lock_bind, Prog.run_select_bind, h]
  rfl

theorem run_lockTerm_of_none {db : Db} {pk : ℕ} (h : db.terms.table.get? pk = none) :
    (lockTerm pk).run db = (.error .doesNotExist, db) := by
  rw [lockTerm, Prog.run_lock_bind, Prog.run_select_bind, h]
  rfl

theorem run_requireWritableTerm {db : Db} {term : AcademicTerm} (h : term.status ≠ .archived) :
    (requireWritableTerm term).run db = (.ok (), db) := by
  rw [requireWritableTerm, if_neg h]
  rfl

theorem run_requireWritableTerm_of_archived {db : Db} {term : AcademicTerm}
    (h : term.status = .archived) : (requireWritableTerm term).run db = (.error .archivedTerm, db) := by
  rw [requireWritableTerm, if_pos h]
  rfl

theorem run_lockTerm_eq_ok {db db' : Db} {term : ℕ} {t : AcademicTerm}
    (h : (lockTerm term).run db = (.ok t, db')) : db' = db ∧ db.terms.table.get? term = some t := by
  cases hterm : db.terms.table.get? term with
  | none =>
    rw [run_lockTerm_of_none hterm] at h
    cases h
  | some u =>
    rw [run_lockTerm_of_get? hterm] at h
    cases h
    exact ⟨rfl, rfl⟩

theorem run_requireWritableTerm_eq_ok {db db' : Db} {term : AcademicTerm}
    (h : (requireWritableTerm term).run db = (.ok (), db')) :
    db' = db ∧ term.status ≠ .archived := by
  by_cases harch : term.status = .archived
  · rw [run_requireWritableTerm_of_archived harch] at h
    cases h
  · rw [run_requireWritableTerm harch] at h
    cases h
    exact ⟨rfl, harch⟩

end FluxTrack
