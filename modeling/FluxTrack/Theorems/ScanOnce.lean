import FluxTrack.Process.Once
import FluxTrack.System

/-!
# A scan sent twice

A scan is applied unless the cache says that it has been applied in this minute, and the cache is
told only when it has been. Two requests for the same scan may both ask before either tells; this
is the only way in which both apply it. Otherwise the database is left as one of them alone
leaves it, but for the cache: the session has changed once, its one audit row is written once,
and its merged siblings are filled once.

## Main definitions

* `Db.uncached` — the database without the cache
* `idemEntries` — the entries of the cache, as the requests see them
* `Db.AppliedOnce` — what a scan that is applied once leaves

## Main results

* `agree_applyScan` — what a scan does has nothing to do with the cache
* `around_resolveScan` — before it is applied a scan only looks around
* `appliedOnce_exec` — without two requests between the question and the entry a scan is applied
  once
* `scan_applied_twice` — two requests that ask at the same time
-/

namespace FluxTrack

open Calendar Relational Process

/-- The database without the cache. -/
def Db.uncached (db : Db) : Db := { db with cache := [] }

/-! ### What a scan does has nothing to do with the cache -/

section

theorem agree_read {α : Type} {g : Db → α} (hg : ∀ db : Db, g db.uncached = g db) :
    (Prog.select g : M α).Agree Db.uncached Db.cache 0 (.select g) :=
  Prog.agree_select fun s s' h => by rw [← hg s, h, hg s']

theorem agree_write (u : Db → Db)
    (hu : ∀ db : Db, (u db.uncached).uncached = (u db).uncached)
    (hcache : ∀ db : Db, (u db).cache = db.cache) :
    (Prog.modify u : M Unit).Agree Db.uncached Db.cache 0 (.modify u) :=
  Prog.agree_modify (fun s s' h => by rw [← hu s, h, hu s']) hcache

theorem agree_saveSession (pk : ℕ) (f : Session → Session) (hf : ∀ s, key (f s) = key s) :
    (saveSession pk f hf).Agree Db.uncached Db.cache 0 (saveSession pk f hf) :=
  agree_write _ (fun _ => rfl) fun _ => rfl

theorem agree_createAudit (actor : Option ℕ) (event : AuditEvent) :
    (createAudit actor event).Agree Db.uncached Db.cache 0 (createAudit actor event) :=
  agree_write _ (fun _ => rfl) fun _ => rfl

theorem agree_notifyRole (role : Role) (notice : Notice) :
    (notifyRole role notice).Agree Db.uncached Db.cache 0 (notifyRole role notice) :=
  agree_write _ (fun _ => rfl) fun _ => rfl

theorem agree_flipAll (actor : Option ℕ) (ids : List ℕ) (f : Session → Session)
    (hf : ∀ s, key (f s) = key s) (event : ℕ → AuditEvent) :
    (flipAll actor ids f hf event).Agree Db.uncached Db.cache 0 (flipAll actor ids f hf event) := by
  unfold flipAll
  split
  · exact .ret _
  · exact Prog.Agree.bind (agree_write _ (fun _ => rfl) fun _ => rfl) fun _ =>
      agree_write _ (fun _ => rfl) fun _ => rfl

theorem agree_lockTerm (pk : ℕ) : (lockTerm pk).Agree Db.uncached Db.cache 0 (lockTerm pk) := by
  refine (Prog.agree_lock _).bind fun _ => (agree_read fun _ => rfl).bind fun found => ?_
  cases found with
  | none => exact .raise 0 _
  | some term => exact .ret _

theorem agree_propagateMerged (anchor : ℕ) (actor : Option ℕ) (f : Session → Session)
    (hf : ∀ s, key (f s) = key s) (event : ℕ → AuditEvent) :
    (propagateMerged anchor actor f hf event).Agree Db.uncached Db.cache 0
      (propagateMerged anchor actor f hf event) := by
  refine Prog.Agree.atomic
    ((Prog.agree_lock _).bind fun _ => (agree_read fun _ => rfl).bind fun found => ?_)
  cases found with
  | none => exact .raise 0 _
  | some found =>
    obtain ⟨a, schedule, view⟩ := found
    have hwritable : ∀ term, (requireWritableTerm term).Agree Db.uncached Db.cache 0
        (requireWritableTerm term) := by
      intro term
      unfold requireWritableTerm
      split
      · exact .raise 0 _
      · exact .ret _
    refine (agree_lockTerm _).bind fun term => (hwritable term).bind fun _ => ?_
    exact (agree_read fun _ => rfl).bind fun _ => (agree_read fun _ => rfl).bind fun _ =>
      (agree_flipAll _ _ _ _ _).bind fun _ => .ret _

theorem agree_propagateMergedPresent (anchor : ℕ) (now : ℤ) (actor : Option ℕ) :
    (propagateMergedPresent anchor now actor).Agree Db.uncached Db.cache 0
      (propagateMergedPresent anchor now actor) :=
  agree_propagateMerged _ _ _ _ _

theorem agree_applyHandover (user pk : ℕ) (prior : Option ℕ) (room : Room) (now : ℤ) :
    (applyHandover user pk prior room now).Agree Db.uncached Db.cache 0
      (applyHandover user pk prior room now) := by
  have hprior : ∀ p, (completePrior now p).Agree Db.uncached Db.cache 0 (completePrior now p) := by
    intro p
    cases p with
    | none => exact .ret _
    | some p =>
      rw [completePrior]
      split
      · exact agree_saveSession _ _ _
      · exact .ret _
  refine Prog.Agree.atomic ((agree_read fun _ => rfl).bind fun p => (hprior p).bind fun _ => ?_)
  exact (agree_saveSession _ _ _).bind fun _ => (agree_createAudit _ _).bind fun _ =>
    (agree_propagateMergedPresent _ _ _).bind fun _ => .ret _

theorem agree_applyOutcome (user : ℕ) (r : Resolution) (s : Session) (room : Room)
    (method : CheckinMethod) (reason : String) (now : ℤ) :
    (applyOutcome user r s room method reason now).Agree Db.uncached Db.cache 0
      (applyOutcome user r s room method reason now) := by
  unfold applyOutcome
  cases r.outcome with
  | checkedIn =>
    exact Prog.Agree.atomic ((agree_saveSession _ _ _).bind fun _ =>
      (agree_createAudit _ _).bind fun _ =>
        (agree_propagateMergedPresent _ _ _).bind fun _ => .ret _)
  | absent =>
    dsimp only
    split
    · exact (agree_saveSession _ _ _).bind fun _ => agree_createAudit _ _
    · exact .ret _
  | checkedOut => exact (agree_saveSession _ _ _).bind fun _ => agree_createAudit _ _
  | earlyEnd => exact (agree_saveSession _ _ _).bind fun _ => agree_createAudit _ _
  | wrongRoom =>
    exact (agree_read fun _ => rfl).bind fun _ => (agree_saveSession _ _ _).bind fun _ =>
      (agree_createAudit _ _).bind fun _ => agree_notifyRole _ _
  | roomOccupied =>
    exact (agree_applyHandover _ _ _ _ _).bind fun _ => (agree_read fun _ => rfl).bind fun _ =>
      agree_notifyRole _ _
  | tooEarly => exact .ret _
  | onlineReject => exact .ret _
  | noSchedule => exact .ret _

/-- What a scan does has nothing to do with the cache. -/
theorem agree_applyScan (user : ℕ) (r : Resolution) (room : Room) (method : CheckinMethod)
    (reason : String) (now : ℤ) :
    (applyScan user r room method reason now).Agree Db.uncached Db.cache 0
      (applyScan user r room method reason now) := by
  unfold applyScan
  split
  · exact .ret _
  · refine (agree_read fun _ => rfl).bind fun found => ?_
    cases found with
    | none => exact .ret _
    | some s => exact (agree_applyOutcome _ _ _ _ _ _ _).bind fun _ => .ret _

end

/-! ### Before it is applied a scan only looks around -/

/-- The room that a payload stands for, with the method it is given by. -/
def Db.scannedRoom (db : Db) : Payload → Option (Room × CheckinMethod)
  | .link token => (db.rooms.rows.find? fun r => r.qrToken == token).map fun room => (room, .qrScan)
  | .code digits =>
    (db.rooms.rows.find? fun r => r.manualCode == digits).map fun room => (room, .manualCode)
  | .other => none

/-- The outcomes that the cache has for the keys of scans, where every one of the requests finds
them. -/
def idemEntries {ι : Type*} (clocks : ι → ScanClock) : Ledger Db (CacheKey × Outcome) Unit where
  Valid _ := True
  Holds db entry _ := ∀ i, cacheGet db.cache entry.1 (clocks i).now = some (.outcome entry.2)

/-- The task of the requests for a scan that resolves to `r` for the session `pk`. -/
def scanTask {ι : Type*} (user : ℕ) (payload : Payload) (clocks : ι → ScanClock) (db : Db)
    (r : Resolution) (pk : ℕ) (m : ℤ) :
    Task ι RowLock Db Err (ScanReply × Option ConfirmToken) ScanReply Db (CacheKey × Outcome) Unit
      (List CacheEntry) where
  view := Db.uncached
  rest := Db.cache
  seen i db := cacheGet db.cache (.scanIdem user pk m) (clocks i).now = some (.outcome r.outcome)
  ledger := idemEntries clocks
  note := (.scanIdem user pk m, r.outcome)
  doers body := ∃ i room method term, db.scannedRoom payload = some (room, method) ∧
    db.activeTerm = some term ∧
    db.scanResolution term.id user room.id (clocks i).now (clocks i).today = r ∧
    body = applyScan user r room method "" (clocks i).last
  answer := (⟨some r, none⟩, none)

/-- The view `resolve` after the room has been found. -/
def resolveIn (user : ℕ) (room : Room) (method : CheckinMethod) (clock : ScanClock) :
    M (ScanReply × Option ConfirmToken) :=
  if room.outOfService then pure (⟨none, some (.outOfService (outOfServiceDetail room))⟩, none)
  else do
    match ← Prog.select Db.activeTerm with
    | none => pure (⟨none, some .badPayload⟩, none)
    | some term => do
      let r ← Prog.select fun db => db.scanResolution term.id user room.id clock.now clock.today
      if r.outcome.needsConfirm then
        pure (⟨some r, none⟩, some ⟨r, room.id, method, user, clock.last / second⟩)
      else do
        let reply ← applyOnce user r room method clock
        pure (reply, none)

theorem resolveScan_eq (user : ℕ) (payload : Payload) (clock : ScanClock) :
    resolveScan user payload clock = (do
      match ← roomFromPayload user payload clock.lookup with
      | .error e => pure (⟨none, some e⟩, none)
      | .ok (room, method) => resolveIn user room method clock) :=
  rfl

section

variable {ι : Type*} {user pk : ℕ} {payload : Payload} {clocks : ι → ScanClock} {m : ℤ} {db : Db}
  {r : Resolution} {C : Prop} {i : ι} {room : Room} {method : CheckinMethod}

/-- The answer names the resolution, or none. -/
theorem passes_applyOnce {I : Db → Prop} {r' : Resolution} {clock : ScanClock} {reply : ScanReply}
    (h : (applyOnce user r' room method clock).Passes I reply) :
    ∀ r₀ ∈ reply.resolution, r₀ = r' := by
  have hscan : ∀ {reply}, (applyScan user r' room method "" clock.last).Passes I reply →
      ∀ r₀ ∈ reply.resolution, r₀ = r' := by
    intro reply h
    unfold applyScan at h
    split at h
    · obtain rfl : _ = reply := h
      intro r₀ h₀
      exact (Option.some.inj h₀).symm
    · obtain ⟨s, -, h⟩ := Prog.Passes.of_select_bind h
      split at h
      · obtain rfl : _ = reply := h
        intro r₀ h₀
        cases h₀
      · obtain ⟨_, -, h⟩ := Prog.Passes.of_elim h
        obtain rfl : _ = reply := h
        intro r₀ h₀
        exact (Option.some.inj h₀).symm
  unfold applyOnce at h
  split at h
  · obtain rfl : _ = reply := h
    intro r₀ h₀
    exact (Option.some.inj h₀).symm
  · dsimp only at h
    obtain ⟨s, -, h⟩ := Prog.Passes.of_select_bind h
    split at h
    · obtain ⟨reply', hreply, hrest⟩ := Prog.Passes.of_elim h
      obtain ⟨_, -, rfl⟩ := hrest
      exact hscan hreply
    · obtain rfl : _ = reply := h
      intro r₀ h₀
      exact (Option.some.inj h₀).symm

/-- A scan that resolves to something else gives another answer. -/
theorem avoids_applyOnce {r' : Resolution} (hne : r' ≠ r) (clock : ScanClock) :
    (applyOnce user r' room method clock >>= fun reply => pure (reply, none)).Avoids
      ((⟨some r, none⟩, none) : ScanReply × Option ConfirmToken) := by
  refine Prog.Avoids.bind fun reply hpass => ?_
  rintro ⟨⟩
  exact hne (passes_applyOnce hpass r rfl).symm

theorem notes_cacheSet (hminute : ∀ i, minuteOf (clocks i).now = m)
    (hclock : ∀ i, (clocks i).now ≤ (clocks i).last) (i : ι) :
    (scanTask user payload clocks db r pk m).Notes fun db =>
      { db with
        cache := cacheSet db.cache (.scanIdem user pk m) (.outcome r.outcome)
          ((clocks i).last + 120 * second) } := by
  have hset : ∀ (s : Db) (j : ι),
      cacheGet (cacheSet s.cache (.scanIdem user pk m) (.outcome r.outcome)
        ((clocks i).last + 120 * second)) (.scanIdem user pk m) (clocks j).now =
          some (.outcome r.outcome) := by
    intro s j
    refine cacheGet_cacheSet_self ?_
    have hlt := lt_of_minuteOf_eq ((hminute j).trans (hminute i).symm)
    have hle := hclock i
    omega
  refine ⟨fun _ => rfl, hset, Db.empty, (), trivial, fun hheld => ?_, hset _⟩
  exact absurd (hheld i) (by simp [Db.empty, cacheGet])

/-- Whatever the cache holds, the entry may be there. -/
theorem exists_held (hminute : ∀ i, minuteOf (clocks i).now = m)
    (hclock : ∀ i, (clocks i).now ≤ (clocks i).last) (i : ι) (s : Db) :
    ∃ s' : Db, s.uncached = s'.uncached ∧ (idemEntries clocks).Valid s' ∧
      (idemEntries clocks).Held s' (.scanIdem user pk m, r.outcome) := by
  have hnotes : (scanTask user .other clocks s r pk m).Notes _ := notes_cacheSet hminute hclock i
  exact ⟨_, (hnotes.view s).symm, trivial, (), hnotes.seen s⟩

/-- The look for the entry, and what follows. -/
theorem around_applyOnce (hr : r.session = some pk) (hminute : ∀ i, minuteOf (clocks i).now = m)
    (hclock : ∀ i, (clocks i).now ≤ (clocks i).last)
    (hC : C → (scanTask user payload clocks db r pk m).doers
      (applyScan user r room method "" (clocks i).last)) :
    (scanTask user payload clocks db r pk m).Around C db.uncached i
      (applyOnce user r room method (clocks i) >>= fun reply => pure (reply, none)) := by
  rw [applyOnce, hr]
  dsimp only
  rw [bind_assoc, hminute]
  refine Task.around_select_bind fun s => ?_
  by_cases hseen : cacheGet s.cache (.scanIdem user pk m) (clocks i).now = some (.outcome r.outcome)
  · rw [if_neg (not_not_intro hseen)]
    exact .around False (Task.around_ret False.elim) fun _ _ hmissed => hmissed hseen
  · rw [if_pos hseen, bind_assoc]
    have hnotes : (scanTask user payload clocks db r pk m).Notes _ := notes_cacheSet hminute hclock i
    have hagree := agree_applyScan user r room method "" (clocks i).last
    refine .begins hseen (hnotes.avoids_or_bids hagree (fun reply => (reply, none))
      (exists_held hminute hclock i)) fun h hs => ?_
    exact ⟨_, _, fun reply => (reply, none), hC h, hagree, hnotes, rfl⟩

/-- A change of another entry of the cache. -/
theorem idle_cache (u : List CacheEntry → List CacheEntry)
    (hu : ∀ cache now, cacheGet (u cache) (.scanIdem user pk m) now =
      cacheGet cache (.scanIdem user pk m) now) :
    (scanTask user payload clocks db r pk m).Idle fun s => { s with cache := u s.cache } :=
  ⟨fun _ => rfl, fun s j => by
    change cacheGet (u s.cache) _ _ = _ ↔ _
    rw [hu]
    exact Iff.rfl⟩

theorem eq_of_uncached {α : Type} {s : Db} (h : s.uncached = db.uncached) (g : Db → α)
    (hg : ∀ db : Db, g db.uncached = g db) : g s = g db := by
  rw [← hg s, h, hg db]

/-- The view, once the room has been found. -/
theorem around_resolveIn (hr : r.session = some pk) (hminute : ∀ i, minuteOf (clocks i).now = m)
    (hclock : ∀ i, (clocks i).now ≤ (clocks i).last) (i : ι) :
    (scanTask user payload clocks db r pk m).Around
      (db.scannedRoom payload = some (room, method)) db.uncached i
      (resolveIn user room method (clocks i)) := by
  unfold resolveIn
  split
  · exact Task.around_ret fun _ => by simp [scanTask]
  refine Task.around_select_bind fun s => ?_
  cases hterm : s.activeTerm with
  | none => exact .around True (Task.around_ret fun _ => by simp [scanTask]) fun _ _ _ => trivial
  | some term =>
    refine .around (db.scannedRoom payload = some (room, method) ∧ db.activeTerm = some term) ?_
      fun hroom hs _ => ⟨hroom, (eq_of_uncached hs Db.activeTerm fun _ => rfl).symm.trans hterm⟩
    refine Task.around_select_bind fun s' => ?_
    split
    · exact .around True (Task.around_ret fun _ => by simp [scanTask]) fun _ _ _ => trivial
    · by_cases hsame : s'.scanResolution term.id user room.id (clocks i).now (clocks i).today = r
      · rw [hsame]
        refine .around _ (around_applyOnce hr hminute hclock id) fun h hs _ => ?_
        refine ⟨i, room, method, term, h.1, h.2, ?_, rfl⟩
        rw [← hsame]
        exact (eq_of_uncached hs (fun d =>
          d.scanResolution term.id user room.id (clocks i).now (clocks i).today)
          fun _ => rfl).symm
      · exact .avoids (avoids_applyOnce hsame _)

/-- The look-up of the room; only the rate limit and an unknown code are written down. -/
theorem around_roomFromPayload {F : Except ScanError (Room × CheckinMethod) →
      M (ScanReply × Option ConfirmToken)}
    (herror : ∀ e, F (.error e) = pure (⟨none, some e⟩, none))
    (hok : ∀ room method, (scanTask user payload clocks db r pk m).Around
      (db.scannedRoom payload = some (room, method)) db.uncached i (F (.ok (room, method))))
    (now : ℤ) :
    (scanTask user payload clocks db r pk m).Around True db.uncached i
      (roomFromPayload user payload now >>= F) := by
  have hrefused : ∀ e, (scanTask user payload clocks db r pk m).Around True db.uncached i
      (pure (.error e) >>= F) := by
    intro e
    rw [pure_bind, herror]
    exact Task.around_ret fun _ => by simp [scanTask]
  have haudited : ∀ event e, Prog.Avoids (⟨some r, none⟩, none)
      ((createAudit (some user) event >>= fun _ => pure (.error e)) >>= F) := by
    intro event e
    rw [bind_assoc]
    intro s
    change (F (.error e)).Avoids _
    rw [herror]
    simp [Prog.Avoids, pure]
  cases payload with
  | link token =>
    rw [roomFromPayload, bind_assoc]
    refine Task.around_select_bind fun s => ?_
    cases hfind : s.rooms.rows.find? fun room => room.qrToken == token with
    | none => exact .around True (hrefused _) fun _ _ _ => trivial
    | some room =>
      refine .around _ (hok room .qrScan) fun _ hs _ => ?_
      exact (eq_of_uncached hs (fun d => d.scannedRoom (.link token)) fun _ => rfl).symm.trans
        (congrArg (Option.map fun room => (room, CheckinMethod.qrScan)) hfind)
  | code digits =>
    have hne : CacheKey.scanRl user (minuteOf now) ≠ .scanIdem user pk m := by simp
    rw [roomFromPayload, bind_assoc]
    refine Task.around_select_bind fun s => .around True ?_ fun _ _ _ => trivial
    dsimp only
    rw [bind_assoc]
    -- the counter of the rate limit is another entry
    refine Task.around_modify_bind (idle_cache _ fun cache now => cacheGet_cacheAdd_of_ne hne _)
      fun _ => .around True ?_ fun _ _ _ => trivial
    rw [bind_assoc]
    refine Task.around_select_bind fun s' => ?_
    split
    · exact .avoids (haudited _ _)
    refine .around True ?_ fun _ _ _ => trivial
    rw [bind_assoc]
    refine Task.around_modify_bind (idle_cache _ fun cache now => cacheGet_cacheIncr_of_ne hne)
      fun _ => .around True ?_ fun _ _ _ => trivial
    rw [bind_assoc]
    refine Task.around_select_bind fun s => ?_
    cases hfind : s.rooms.rows.find? fun room => room.manualCode == digits with
    | none => exact .avoids (haudited _ _)
    | some room =>
      refine .around _ (hok room .manualCode) fun _ hs _ => ?_
      exact (eq_of_uncached hs (fun d => d.scannedRoom (.code digits)) fun _ => rfl).symm.trans
        (congrArg (Option.map fun room => (room, CheckinMethod.manualCode)) hfind)
  | other => exact hrefused .badPayload

/-- Before it is applied a scan only looks around. -/
theorem around_resolveScan (hr : r.session = some pk) (hminute : ∀ i, minuteOf (clocks i).now = m)
    (hclock : ∀ i, (clocks i).now ≤ (clocks i).last) (i : ι) :
    (scanTask user payload clocks db r pk m).Around True db.uncached i
      (resolveScan user payload (clocks i)) := by
  rw [resolveScan_eq]
  exact around_roomFromPayload (fun _ => rfl) (fun _ _ => around_resolveIn hr hminute hclock i) _

end

/-! ### Applied once -/

/-- The audit row of a scan that is applied at once. -/
def Resolution.auditEvent (r : Resolution) (pk : ℕ) (room : Room) (method : CheckinMethod) :
    Option AuditEvent :=
  match r.outcome with
  | .checkedIn => some (.sessionCheckedIn pk room.code method)
  | .absent => some (.sessionMarkedAbsent pk (some room.code))
  | .checkedOut => some (.sessionCheckedOut pk room.code)
  | _ => none

/-- The requests have left the database, but for the cache, as one application of the outcome
leaves it, and this has written the one audit row of the scan. -/
def Db.AppliedOnce {ι : Type*} (db : Db) (user : ℕ) (payload : Payload) (clocks : ι → ScanClock)
    (r : Resolution) (final : Db) : Prop :=
  ∃ i room method pk db', db.scannedRoom payload = some (room, method) ∧ r.session = some pk ∧
    (applyScan user r room method "" (clocks i).last).run db = (.ok ⟨some r, none⟩, db') ∧
    final.uncached = db'.uncached ∧
    ∀ e ∈ r.auditEvent pk room method,
      final.audit.count ⟨some user, e⟩ = db.audit.count ⟨some user, e⟩ + 1

section

variable {db db' : Db} {user pk : ℕ} {r : Resolution} {room : Room} {method : CheckinMethod}
  {s : Session}

/-- Run alone, a start writes its one row and those of the siblings. -/
theorem count_propagateMergedPresent {a : AuditEvent}
    (ha : ∀ pk anchor, a ≠ .sessionMergedPresent pk anchor) {anchor : ℕ} {now : ℤ} {fills : List ℕ}
    (h : (propagateMergedPresent anchor now (some user)).run db = (.ok fills, db')) :
    db'.audit.count ⟨some user, a⟩ = db.audit.count ⟨some user, a⟩ := by
  rcases run_propagateMerged_cases anchor (some user) (Session.fillPresent now)
    (Session.key_fillPresent now) (fun pk => .sessionMergedPresent pk anchor) db with
    ⟨e, hrun⟩ | ⟨s, -, -, -, hrun⟩
  · cases hrun.symm.trans h
  · obtain ⟨-, rfl⟩ := Prod.mk.inj (hrun.symm.trans h)
    rw [List.count_append, Nat.add_eq_left, List.count_eq_zero]
    intro hmem
    obtain ⟨e, he, heq⟩ := List.mem_map.mp hmem
    obtain ⟨pk, -, rfl⟩ := List.mem_map.mp he
    exact ha pk anchor (by simpa using heq.symm)

/-- Applying an outcome writes its audit row once. -/
theorem count_applyOutcome (habsent : r.outcome = .absent → s.status = .scheduled) {now : ℤ}
    (h : (applyOutcome user r s room method "" now).run db = (.ok (), db')) :
    ∀ e ∈ r.auditEvent s.id room method,
      db'.audit.count ⟨some user, e⟩ = db.audit.count ⟨some user, e⟩ + 1 := by
  intro e he
  unfold Resolution.auditEvent at he
  unfold applyOutcome at h
  cases houtcome : r.outcome <;> rw [houtcome] at he h <;> cases he
  case checkedIn =>
    obtain ⟨_, db₁, hsave, hrest⟩ := Prog.run_bind_eq_ok (Prog.run_atomic_eq_ok h)
    obtain ⟨_, db₂, haudit, hrest⟩ := Prog.run_bind_eq_ok hrest
    obtain ⟨fills, db₃, hfill, hend⟩ := Prog.run_bind_eq_ok hrest
    cases hsave
    cases haudit
    cases hend
    rw [count_propagateMergedPresent (fun _ _ h => by cases h) hfill]
    simp
  case absent =>
    dsimp only at h
    rw [if_pos (habsent houtcome)] at h
    cases h
    simp
  case checkedOut =>
    cases h
    simp

/-- The session a scan resolves to is loaded when the outcome is applied. -/
theorem run_applyScan_of_resolution {term : AcademicTerm} {now today last : ℤ} {reply : ScanReply}
    (hactive : db.activeTerm = some term)
    (hresolved : db.scanResolution term.id user room.id now today = r) (hr : r.session = some pk)
    (h : (applyScan user r room method "" last).run db = (.ok reply, db')) :
    reply = ⟨some r, none⟩ ∧ ∀ e ∈ r.auditEvent pk room method,
      db'.audit.count ⟨some user, e⟩ = db.audit.count ⟨some user, e⟩ + 1 := by
  obtain ⟨s, hs, hid, habsent⟩ : ∃ s ∈ db.scanSessions user today term.id, s.id = pk ∧
      (r.outcome = .absent → s.status = .scheduled) := by
    have hverdict := scanVerdict db term.id user room.id now today
    rw [hresolved] at hverdict
    cases hverdict with
    | running hs hstatus ho =>
      refine ⟨_, hs, Option.some.inj hr, fun habs => ?_⟩
      rcases ho with rfl | rfl | rfl <;> cases habs
    | elsewhere hs hstatus ho => exact ⟨_, hs, Option.some.inj hr, fun _ => hstatus⟩
    | absent hs hstatus => exact ⟨_, hs, Option.some.inj hr, fun _ => hstatus⟩
    | occupied hs hstatus => exact ⟨_, hs, Option.some.inj hr, fun _ => hstatus⟩
    | checkedIn hs hstatus => exact ⟨_, hs, Option.some.inj hr, fun _ => hstatus⟩
    | noSchedule => cases hr
  obtain ⟨hmem, -, -, hterm⟩ := mem_scanSessions hs
  have hload : db.activeSession pk = some s := by
    refine Option.bind_eq_some_iff.mpr ⟨term, hactive, Option.filter_eq_some_iff.mpr ⟨?_, hterm⟩⟩
    exact Table.get?_eq_some_iff.mpr ⟨hmem, hid⟩
  rw [applyScan, hr] at h
  dsimp only at h
  rw [Prog.run_select_bind, hload] at h
  obtain ⟨_, db₁, houtcome, hend⟩ := Prog.run_bind_eq_ok h
  cases hend
  exact ⟨rfl, hid ▸ count_applyOutcome habsent houtcome⟩

end

/-- When requests for the same scan in the same minute are all answered with the same outcome for
the same session, and no two of them were ever between the question to the cache and the entry in
it, the outcome has been applied once. -/
theorem appliedOnce_exec {ι : Type*} [Fintype ι] [DecidableEq ι] [Nonempty ι] (user : ℕ)
    (payload : Payload) (clocks : ι → ScanClock) (m : ℤ)
    (hminute : ∀ i, minuteOf (clocks i).now = m) (hclock : ∀ i, (clocks i).now ≤ (clocks i).last)
    (db : Db) (r : Resolution) (pk : ℕ) (hr : r.session = some pk)
    (hfirst : ∀ i, cacheGet db.cache (.scanIdem user pk m) (clocks i).now ≠
      some (.outcome r.outcome))
    (schedule : List ι)
    (hanswer : ∀ i, ((Pool.start db fun i => resolveScan user payload (clocks i)).exec
      schedule).outcomes i = some (.ok (⟨some r, none⟩, none)))
    (hrivals : ∀ l, l <+: schedule → ((Pool.start db fun i =>
      resolveScan user payload (clocks i)).exec l).NoRivals (idemEntries clocks)) :
    db.AppliedOnce user payload clocks r
      ((Pool.start db fun i => resolveScan user payload (clocks i)).exec schedule).store := by
  have hstart : ∀ i, (scanTask user payload clocks db r pk m).Fresh db.uncached i
      (resolveScan user payload (clocks i)) := fun i =>
    (around_resolveScan hr hminute hclock i).2 trivial
  obtain ⟨_, reply, db', ⟨i, room, method, term, hroom, hactive, hresolved, rfl⟩, hrun, hview⟩ :=
    Task.done_exec (T := scanTask user payload clocks db r pk m)
      (exists_held hminute hclock (Classical.arbitrary ι)) hstart hfirst schedule hrivals hanswer
  obtain ⟨rfl, haudit⟩ := run_applyScan_of_resolution hactive hresolved hr hrun
  refine ⟨i, room, method, pk, db', hroom, hr, hrun, hview, fun e he => ?_⟩
  rw [← haudit e he]
  exact congrArg (fun d : Db => d.audit.count ⟨some user, e⟩) hview

/-! ### Who is between the question and the entry -/

section

variable {ι : Type*} {user : ℕ} {clocks : ι → ScanClock} {i : ι} {room : Room}
  {method : CheckinMethod}

/-- What leaves the cache alone makes no entry in it. -/
theorem not_bids_of_agree {α : Type} {p : M α} {n : ℕ} (hp : p.Agree Db.uncached Db.cache n p)
    (x : CacheKey × Outcome) : ¬ p.Bids (idemEntries clocks) x := by
  have hevery : p.Every ((idemEntries clocks).Adds () ∅) := by
    refine hp.every.mono fun u hu => Ledger.adds_of_same (fun _ _ => trivial) fun s x k => ?_
    simp only [idemEntries, hu s]
  exact Prog.not_bids_of_every hevery (Set.notMem_empty x)

/-- The only entry a request makes is the one it has missed. -/
theorem not_bids_applyOnce (hclock : (clocks i).now ≤ (clocks i).last) (r : Resolution)
    (x : CacheKey × Outcome) :
    ¬ (applyOnce user r room method (clocks i) >>= fun reply => pure (reply, none)
      : M (ScanReply × Option ConfirmToken)).Bids (idemEntries clocks) x := by
  intro h
  rcases Prog.bids_bind h with h | ⟨_, -, h⟩
  swap
  · exact h
  unfold applyOnce at h
  split at h
  · exact h
  rename_i pk _
  dsimp only at h
  obtain ⟨s, ⟨-, _, hheld⟩, h⟩ := Prog.Bids.of_select_bind h
  split at h
  swap
  · exact h
  rename_i hmissed
  rcases Prog.bids_bind h with h | ⟨reply, -, h⟩
  · exact not_bids_of_agree (agree_applyScan _ _ _ _ _ _) x h
  obtain ⟨key, o⟩ := x
  rcases h with ⟨s', _, -, hnot, hgiven⟩ | ⟨_, -, h⟩
  swap
  · exact h
  by_cases hkey : CacheKey.scanIdem user pk (minuteOf (clocks i).now) = key
  · -- the entry would be for the outcome that has just been missed
    subst hkey
    have hlive : (clocks i).now < (clocks i).last + 120 * second := by
      unfold second
      omega
    have hsame : some (CacheValue.outcome r.outcome) = some (.outcome o) :=
      (cacheGet_cacheSet_self hlive).symm.trans (hgiven i)
    obtain rfl : r.outcome = o := by simpa using hsame
    exact hmissed (hheld i)
  · refine hnot fun j => ?_
    have hset := hgiven j
    rwa [cacheGet_cacheSet_of_ne hkey] at hset

/-- A scan of a code looks up the room, the term and the sessions before it asks the cache. -/
theorem silent_resolveScan (hclock : (clocks i).now ≤ (clocks i).last) (token : String) :
    (resolveScan user (.link token) (clocks i)).Silent (idemEntries clocks) 3 := by
  rw [resolveScan_eq, roomFromPayload, bind_assoc]
  refine Prog.silent_select_bind fun s => ?_
  split
  swap
  · trivial
  · rename_i room _
    change (resolveIn user room .qrScan (clocks i)).Silent (idemEntries clocks) 2
    unfold resolveIn
    split
    · trivial
    refine Prog.silent_select_bind fun s => ?_
    cases s.activeTerm with
    | none => trivial
    | some term =>
      refine Prog.silent_select_bind fun s => ?_
      split
      · exact fun _ h => h
      · exact not_bids_applyOnce hclock _

end

namespace Campus

/-- Two requests of the teacher at nine, ten seconds apart. -/
def scanClocks (first : Bool) : ScanClock :=
  let t := wallClock monday 9 0 (if first then 10 else 20)
  ⟨t, t, monday, t⟩

/-- The two requests before the first statement. -/
def scanStart : Pool Bool RowLock Db Err (ScanReply × Option ConfirmToken) :=
  .start campus fun i => resolveScan 1 (.link "qr-1") (scanClocks i)

/-- The check-in to the nine o'clock class. -/
def startsAtNine : Resolution := ⟨.checkedIn, some 1, none⟩

/-- The second request resolves before the first, which is then applied. -/
def firstApplied : List Bool := List.replicate 3 false ++ List.replicate 20 true

/-- Both requests ask the cache before either is applied. -/
def asksAtOnce : List Bool :=
  List.replicate 4 true ++ List.replicate 20 false ++ List.replicate 20 true

theorem minuteOf_scanClocks (i : Bool) :
    minuteOf (scanClocks i).now = minuteOf (wallClock monday 9 0 0) := by
  revert i
  decide +kernel

/-- The second request asks the cache only after the first has told it. -/
theorem noRivals_firstApplied (l : List Bool) (hl : l <+: firstApplied ++ List.replicate 4 false) :
    (scanStart.exec l).NoRivals (idemEntries scanClocks) := by
  have hone : ∀ x, ¬ ((scanStart.exec l).threads false).Bids (idemEntries scanClocks) x ∨
      ¬ ((scanStart.exec l).threads true).Bids (idemEntries scanClocks) x := by
    intro x
    rcases List.prefix_or_prefix_of_prefix hl (List.prefix_append firstApplied _) with hl | ⟨l', rfl⟩
    · -- it has not asked yet
      refine .inl (Pool.not_bids_exec_of_silent ⟨rfl, rfl⟩
        (silent_resolveScan (i := false) (le_refl (scanClocks false).now) "qr-1") ?_ x)
      exact hl.sublist.count_le false
    · -- the first has been answered
      right
      have htail : true ∉ l' := fun hmem => by
        have hrest := List.prefix_append_right_inj firstApplied |>.mp hl
        cases List.eq_of_mem_replicate (hrest.subset hmem)
      rw [Pool.exec_append, Pool.threads_exec_of_notMem htail]
      have hout : ((scanStart.exec firstApplied).threads true).Outside :=
        Pool.outside_exec (fun _ => ⟨rfl, rfl⟩) _ (List.isEmpty_iff.mp (by decide +kernel))
      refine hout.not_bids ?_
      have hended : ((scanStart.exec firstApplied).outcomes true).isSome = true := by decide +kernel
      rw [Pool.outcomes, Thread.outcome] at hended
      split at hended
      · rename_i hprog
        rw [hprog]
        exact id
      · rename_i hprog
        rw [hprog]
        exact id
      · cases hended
  intro i j x hi hj
  rcases hone x with h | h <;> cases i <;> cases j <;>
    first | rfl | exact absurd hi h | exact absurd hj h

end Campus

open Campus in
/-- Two overlapping requests check the session in once. -/
theorem appliedOnce_exec_firstApplied :
    campus.AppliedOnce 1 (.link "qr-1") scanClocks startsAtNine
      (scanStart.exec (firstApplied ++ List.replicate 4 false)).store :=
  appliedOnce_exec 1 (.link "qr-1") scanClocks _ minuteOf_scanClocks (fun _ => le_refl _) campus
    startsAtNine 1 rfl (by decide +kernel) (firstApplied ++ List.replicate 4 false)
    (by decide +kernel) noRivals_firstApplied

open Campus in
/-- Two requests that ask the cache at the same time both check the session in. -/
theorem scan_applied_twice :
    ¬ ∀ (user : ℕ) (payload : Payload) (clocks : Bool → ScanClock) (m : ℤ),
      (∀ i, minuteOf (clocks i).now = m) → (∀ i, (clocks i).now ≤ (clocks i).last) →
      ∀ (db : Db) (r : Resolution) (pk : ℕ), r.session = some pk →
        (∀ i, cacheGet db.cache (.scanIdem user pk m) (clocks i).now ≠
          some (.outcome r.outcome)) →
        ∀ schedule : List Bool,
          (∀ i, ((Pool.start db fun i => resolveScan user payload (clocks i)).exec
            schedule).outcomes i = some (.ok (⟨some r, none⟩, none))) →
          db.AppliedOnce user payload clocks r
            ((Pool.start db fun i => resolveScan user payload (clocks i)).exec schedule).store := by
  intro h
  obtain ⟨i, room, method, pk, db', hroom, hr, -, -, haudit⟩ := h 1 (.link "qr-1") scanClocks _
    minuteOf_scanClocks (fun _ => le_refl _) campus startsAtNine 1 rfl (by decide +kernel)
    asksAtOnce (by decide +kernel)
  cases hr
  have hfound : campus.scannedRoom (.link "qr-1") =
      some (⟨1, 1, "A101", "qr-1", "100001", false, ""⟩, .qrScan) := by
    decide +kernel
  cases hfound.symm.trans hroom
  have hcount := haudit _ rfl
  have htwice : (scanStart.exec asksAtOnce).store.audit.count
      ⟨some 1, .sessionCheckedIn 1 "A101" .qrScan⟩ = 2 := by
    decide +kernel
  have hnone : campus.audit.count ⟨some 1, .sessionCheckedIn 1 "A101" .qrScan⟩ = 0 := by
    decide +kernel
  rw [hnone] at hcount
  exact absurd (htwice.symm.trans hcount) (by decide)

end FluxTrack
