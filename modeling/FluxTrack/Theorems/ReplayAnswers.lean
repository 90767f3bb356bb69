import FluxTrack.Theorems.ReplayReports

/-!
# What a queued scan is answered

The handling of a queued scan in two steps: what it is answered is decided from what it reads,
and the answer is then written down. The decision reads the receipts, the cache and the
validations in one place each.

## Main definitions

* `Answer` — the result of a scan and the rows that go with it
* `Db.answer` — the decision
* `Db.record` — the rows, written down
* `Db.Answers` — the ways in which a scan is answered
* `scanEffects` — what the handling of a scan leaves

## Main results

* `run_replayItem` — the handling of a scan writes down its answer
* `answers_answer`, `scanEffects_of_answer` — what an answer says, and what it leaves
-/

namespace FluxTrack

open Calendar Relational Process

/-- The result of a scan and the rows that go with it; the keys are given when they are written. -/
structure Answer where
  result : ReplayResult
  receipt : Option (ℕ × ReceiptStatus × Option ReplayReason)
  validation : Option CheckerValidation
  audit : List AuditLog
  notices : List Notification

/-- An answer without rows. -/
def Answer.silent (result : ReplayResult) : Answer := ⟨result, none, none, [], []⟩

namespace Db

/-- The answer to a scan over the rate limit. -/
def answerRateLimited (user uuid : ℕ) : Answer where
  result := ⟨some uuid, .flagged, some .rateLimited⟩
  receipt := some (uuid, .flagged, some .rateLimited)
  validation := none
  audit := [⟨some user, .checkerReplayRateLimited uuid⟩]
  notices := []

/-- The answer to a scan that no longer applies. -/
def answerConflict (db : Db) (user uuid : ℕ) (action : ReplayAction) (session : Option Session)
    (room : Option Room) (reason : ReplayReason) : Answer where
  result := ⟨some uuid, .flagged, some reason⟩
  receipt := some (uuid, .flagged, some reason)
  validation := none
  audit := [⟨some user, .checkerReplayConflict (session.map Session.id) reason uuid action⟩]
  notices := (db.usersOfRole .ifoAdmin).map fun u =>
    ⟨u, .checkerReplayConflict (room.map Room.code) reason⟩

/-- The answer to a scan that applies. -/
def answerApplied (db : Db) (user uuid : ℕ) (item : ReplayItem) (action : ValidationAction)
    (session : Option Session) (room : Room) (scannedAt : ℤ) : Answer where
  result := ⟨some uuid, .applied, none⟩
  receipt := some (uuid, .applied, none)
  validation := some ⟨0, session.map Session.id, room.id, user, action, action.identityMatch,
    item.note, some scannedAt, true⟩
  audit := [⟨some user, .checkerAction action (session.map Session.id) room.code true false⟩]
  notices :=
    if action.isFlag then
      ((db.usersOfRole .ifoAdmin).map fun u =>
        ⟨u, .checkerFlag room.code action (some user) item.note⟩) ++
      (db.usersOfRole .hrAdmin).map fun u => ⟨u, .checkerFlag room.code action none item.note⟩
    else []

instance (db : Db) (item : ReplayItem) (scannedAt : ℤ) :
    Decidable (db.expectedRaises item scannedAt) := inferInstanceAs (Decidable (_ ∨ _))

/-- What a new scan in a room is answered, if its session can be read. -/
def answerRoom (db : Db) (user uuid : ℕ) (item : ReplayItem) (now today : ℤ) (room : Room) :
    Option Answer :=
  let session := db.roomSessionState room.id now today
  match replayReason item (db.roomOutcome user room now today)
      (db.replayExpected item room (item.time now)) (session.map Session.id), item.action with
  | none, .known action =>
    if isDatetime (item.time now) then
      some (db.answerApplied user uuid item action session room (item.time now))
    else none
  | none, .other _ => none
  | some reason, _ => some (db.answerConflict user uuid item.action session (some room) reason)

/-- What a new scan within the rate limit is answered, if its time can be read. -/
def answerScan (db : Db) (user uuid : ℕ) (item : ReplayItem) (now today : ℤ) : Option Answer :=
  if item.scannedAt = .unreadable then none
  else
    match db.replayRoom item with
    | none => some (db.answerConflict user uuid item.action none none .badRoom)
    | some room =>
      if db.expectedRaises item (item.time now) then none
      else db.answerRoom user uuid item now today room

/-- What a scan is answered, or none where its handling raises. -/
def answer (db : Db) (user : ℕ) (item : ReplayItem) (now today : ℤ) : Option Answer :=
  match item.clientUuid with
  | none => some (.silent ⟨none, .flagged, some .badPayload⟩)
  | some uuid =>
    if db.receipts.has uuid then some (.silent ⟨some uuid, .duplicate, none⟩)
    else if item.sixDigits && !db.replayCodeAllowed user now then
      some (answerRateLimited user uuid)
    else db.answerScan user uuid item now today

/-- The cache after a scan: one by code is counted. -/
def cacheAfter (db : Db) (user : ℕ) (item : ReplayItem) (now : ℤ) : List CacheEntry :=
  if item.sixDigits && item.clientUuid.any fun uuid => !db.receipts.has uuid then
    ((replayManualCodeAllowed user now).run db).2.cache
  else db.cache

/-- The receipts with that of an answer. -/
def receiptsWith (db : Db) (user : ℕ) (receipt : Option (ℕ × ReceiptStatus × Option ReplayReason)) :
    ReceiptTable :=
  receipt.elim db.receipts fun r => (db.receipts.insert? r.1 user r.2.1 r.2.2).getD db.receipts

/-- The validations with that of an answer. -/
def validationsWith (db : Db) (validation : Option CheckerValidation) : Table CheckerValidation :=
  validation.elim db.validations fun v => db.validations.insert fun pk => { v with id := pk }

/-- The database with the rows of an answer. -/
def record (db : Db) (user : ℕ) (a : Answer) (cache : List CacheEntry) : Db :=
  { db with
    cache := cache
    receipts := db.receiptsWith user a.receipt
    validations := db.validationsWith a.validation
    audit := db.audit ++ a.audit
    notifications := db.notifications ++ a.notices }

/-- The run returns the answer and has written it down, or it has raised where there is none. -/
def Writes (db : Db) (user : ℕ) (a : Option Answer) (cache : List CacheEntry)
    (r : Except Err ReplayResult × Db) : Prop :=
  match a with
  | none => ∃ e, r = (.error e, { db with cache := cache })
  | some a => r = (.ok a.result, db.record user a cache)

end Db

section

variable {db : Db} {user uuid : ℕ} {item : ReplayItem} {now today : ℤ}

theorem Db.record_silent (result : ReplayResult) :
    db.record user (.silent result) db.cache = db := by
  simp only [Db.record, Answer.silent, Db.receiptsWith, Db.validationsWith, Option.elim_none,
    List.append_nil]

theorem Db.record_rateLimited (db : Db) (user uuid : ℕ) (cache : List CacheEntry) :
    db.record user (answerRateLimited user uuid) cache = { db with
      cache := cache
      receipts := db.receiptsWith user (some (uuid, .flagged, some .rateLimited))
      audit := db.audit ++ [⟨some user, .checkerReplayRateLimited uuid⟩] } := by
  simp only [Db.record, answerRateLimited, Db.validationsWith, Option.elim_none, List.append_nil]

/-- A new uuid is claimed with the effect that goes with it, in the database with its receipt. -/
theorem run_claiming_of_free {effect : M Unit} {status : ReceiptStatus}
    {reason : Option ReplayReason} {db' : Db} (hnew : db.receipts.has uuid = false)
    (heffect : effect.run
      { db with receipts := db.receiptsWith user (some (uuid, status, reason)) } = (.ok (), db')) :
    (claiming user uuid status reason effect).run db = (.ok true, db') := by
  obtain ⟨receipts, hinsert, -⟩ := ReceiptTable.insert?_eq_some hnew user status reason
  have hreceipts : db.receiptsWith user (some (uuid, status, reason)) = receipts := by
    rw [Db.receiptsWith, Option.elim_some, hinsert, Option.getD_some]
  rw [hreceipts] at heffect
  rw [claiming, Prog.run_whole]
  refine Prog.run_atomic_of_ok ((Prog.run_bind_of_ok (run_claimReplayReceipt hinsert)).trans ?_)
  rw [if_pos rfl, Prog.run_bind_of_ok heffect]
  rfl

/-- A scan that no longer applies is recorded with its reason. -/
theorem run_replayFlagged_conflict (action : ReplayAction) (session : Option Session)
    (room : Option Room) (reason : ReplayReason) (hnew : db.receipts.has uuid = false)
    (cache : List CacheEntry) :
    (replayFlagged user uuid reason (replayConflict user uuid action session room reason)).run
      { db with cache := cache } =
      (.ok (db.answerConflict user uuid action session room reason).result,
        db.record user (db.answerConflict user uuid action session room reason) cache) := by
  rw [replayFlagged, Prog.run_bind_of_ok (run_claiming_of_free (by exact hnew) rfl)]
  rfl

/-- A scan that applies is applied, if its time can be stored. -/
theorem run_replayApplied (action : ValidationAction) (session : Option Session) (room : Room)
    (hnew : db.receipts.has uuid = false) (cache : List CacheEntry)
    (htime : isDatetime (item.time now) = true) :
    (replayApplied user uuid item action session room (item.time now)).run
        { db with cache := cache } =
      (.ok (db.answerApplied user uuid item action session room (item.time now)).result,
        db.record user (db.answerApplied user uuid item action session room (item.time now))
          cache) := by
  -- the effect appends the rows of the answer, whatever it finds
  have heffect : ∀ db₀ : Db, (applyOffline user session room action item.note
      (item.time now)).run db₀ = (.ok (), { db₀ with
        validations := db₀.validations.insert fun pk => ⟨pk, session.map Session.id, room.id, user,
          action, action.identityMatch, item.note, some (item.time now), true⟩
        audit := db₀.audit ++ (db₀.answerApplied user uuid item action session room
          (item.time now)).audit
        notifications := db₀.notifications ++ (db₀.answerApplied user uuid item action session room
          (item.time now)).notices }) := by
    intro db₀
    rw [applyOffline, if_pos htime, applyRoomAction, Prog.run_modify_bind, createAudit,
      Prog.run_modify_bind]
    cases hflag : action.isFlag with
    | true =>
      rw [if_pos rfl, Db.answerApplied, hflag, if_pos rfl, ← List.append_assoc]
      rfl
    | false =>
      rw [if_neg Bool.false_ne_true, Db.answerApplied, hflag, if_neg Bool.false_ne_true,
        List.append_nil]
      rfl
  rw [replayApplied, Prog.run_bind_of_ok (run_claiming_of_free (by exact hnew) (heffect _))]
  rfl

/-- What a scan in a room comes to, once the session it was about is read. -/
theorem writes_answerRoom (room : Room) (hnew : db.receipts.has uuid = false)
    (cache : List CacheEntry) :
    db.Writes user (db.answerRoom user uuid item now today room) cache
      (Prog.run (match replayReason item (db.roomOutcome user room now today)
          (db.replayExpected item room (item.time now))
          ((db.roomSessionState room.id now today).map Session.id), item.action with
        | none, .known action =>
          replayApplied user uuid item action (db.roomSessionState room.id now today) room
            (item.time now)
        | none, .other _ => .raise .value
        | some reason, _ =>
          replayFlagged user uuid reason (replayConflict user uuid item.action
            (db.roomSessionState room.id now today) (some room) reason))
        { db with cache := cache }) := by
  unfold Db.answerRoom
  dsimp only
  split
  · rename_i action hreason haction
    cases htime : isDatetime (item.time now) with
    | true =>
      rw [if_pos rfl]
      exact run_replayApplied action _ room hnew cache htime
    | false =>
      -- the time cannot be stored, and the receipt is rolled back
      have hfresh : ({ db with cache := cache } : Db).receipts.has uuid = false := hnew
      rw [if_neg Bool.false_ne_true, replayApplied, applyOffline, htime,
        if_neg Bool.false_ne_true, Prog.run_bind_of_error (by rw [run_claiming_raise, hfresh]; rfl)]
      exact ⟨_, rfl⟩
  · exact ⟨_, rfl⟩
  · exact run_replayFlagged_conflict item.action _ (some room) _ hnew cache

theorem writes_answerScan (hnew : db.receipts.has uuid = false) (cache : List CacheEntry) :
    db.Writes user (db.answerScan user uuid item now today) cache
      ((replayScan user uuid item now today).run { db with cache := cache }) := by
  rw [Db.answerScan, replayScan, Prog.run_bind_of_ok (run_roomFromReplayToken item),
    show ({ db with cache := cache } : Db).replayRoom item = db.replayRoom item from rfl]
  rcases run_parseScannedAt { db with cache := cache } item now with
    ⟨htime, hrun⟩ | ⟨htime, hrun⟩
  · rw [Prog.run_bind_of_error hrun, if_pos htime]
    exact ⟨_, rfl⟩
  rw [Prog.run_bind_of_ok hrun, if_neg htime]
  cases db.replayRoom item with
  | none => exact run_replayFlagged_conflict item.action none none .badRoom hnew cache
  | some room =>
    dsimp only
    rw [Prog.run_select_bind, Prog.run_select_bind, map_fst_sessionState, map_snd_sessionState]
    rcases run_expectedSession { db with cache := cache } item room (item.time now) with
      ⟨hraises, e, hrun⟩ | ⟨hexpected, hrun⟩
    · rw [Prog.run_bind_of_error hrun, if_pos (by exact hraises)]
      exact ⟨e, rfl⟩
    · rw [Prog.run_bind_of_ok hrun, if_neg (by exact hexpected)]
      exact writes_answerRoom room hnew cache

/-- The handling of a scan writes down its answer. -/
theorem run_replayItem (db : Db) (user : ℕ) (item : ReplayItem) (now today : ℤ) :
    db.Writes user (db.answer user item now today) (db.cacheAfter user item now)
      ((replayItem user item now today).run db) := by
  unfold replayItem Db.answer Db.cacheAfter
  cases item.clientUuid with
  | none =>
    -- without a uuid nothing is written
    rw [Option.any_none, Bool.and_false, if_neg Bool.false_ne_true]
    exact Prod.ext rfl (Db.record_silent _).symm
  | some uuid =>
    dsimp only
    rw [Prog.run_select_bind]
    cases hhas : db.receipts.has uuid with
    | true =>
      rw [if_pos rfl, Option.any_some, hhas, Bool.not_true, Bool.and_false,
        if_neg Bool.false_ne_true]
      exact Prod.ext rfl (Db.record_silent _).symm
    | false =>
      rw [if_neg Bool.false_ne_true, if_neg Bool.false_ne_true, Option.any_some, hhas,
        Bool.not_false, Bool.and_true]
      cases item.sixDigits with
      | false => exact writes_answerScan hhas db.cache
      | true =>
        obtain ⟨cache, hrun⟩ := run_replayManualCodeAllowed db user now
        rw [if_pos rfl, if_pos rfl, Prog.run_bind_of_ok hrun, hrun, Bool.true_and]
        cases db.replayCodeAllowed user now with
        | true => exact writes_answerScan hhas cache
        | false =>
          -- over the limit: the receipt is claimed, with no effect beside it
          have hfresh : ({ db with cache := cache } : Db).receipts.has uuid = false := hhas
          rw [if_neg Bool.false_ne_true, replayFlagged,
            Prog.run_bind_of_ok (run_claiming_of_free hfresh rfl)]
          exact Prod.ext rfl (db.record_rateLimited user uuid cache).symm

/-! ### What an answer says -/

/-- The answers to a scan. -/
inductive Db.Answers (db : Db) (user : ℕ) (item : ReplayItem) (now today : ℤ) : Answer → Prop
  | malformed (hitem : item.clientUuid = none) :
      db.Answers user item now today (.silent ⟨none, .flagged, some .badPayload⟩)
  | duplicate {uuid : ℕ} (hitem : item.clientUuid = some uuid)
      (hhas : db.receipts.has uuid = true) :
      db.Answers user item now today (.silent ⟨some uuid, .duplicate, none⟩)
  | rateLimited {uuid : ℕ} (hnew : db.newScan item uuid) (hover : ¬ db.scanAllowed user item now) :
      db.Answers user item now today (answerRateLimited user uuid)
  | conflict {uuid : ℕ} {reason : ReplayReason} (hnew : db.newScan item uuid)
      (hallowed : db.scanAllowed user item now)
      (hreason : db.scanReason user item now today = some reason) (session : Option Session)
      (room : Option Room) :
      db.Answers user item now today (db.answerConflict user uuid item.action session room reason)
  | applied {uuid : ℕ} {room : Room} {action : ValidationAction} (hnew : db.newScan item uuid)
      (hallowed : db.scanAllowed user item now) (hroom : db.replayRoom item = some room)
      (haction : item.action = .known action)
      (hreason : db.scanReason user item now today = none) :
      db.Answers user item now today (db.answerApplied user uuid item action
        (db.roomSessionState room.id now today) room (item.time now))

variable {a : Answer}

theorem answers_answerScan (hnew : db.newScan item uuid) (hallowed : db.scanAllowed user item now)
    (h : db.answerScan user uuid item now today = some a) : db.Answers user item now today a := by
  unfold Db.answerScan at h
  split at h
  · cases h
  split at h
  · rename_i hroom
    cases h
    exact .conflict hnew hallowed (by rw [Db.scanReason, hroom]) none none
  · rename_i room hroom
    split at h
    · cases h
    have hscan : db.scanReason user item now today = replayReason item
        (db.roomOutcome user room now today) (db.replayExpected item room (item.time now))
        ((db.roomSessionState room.id now today).map Session.id) := by
      rw [Db.scanReason, hroom]
    unfold Db.answerRoom at h
    dsimp only at h
    split at h
    · rename_i action hreason haction
      split at h
      · cases h
        exact .applied hnew hallowed hroom haction (hscan.trans hreason)
      · cases h
    · cases h
    · rename_i reason hreason
      cases h
      exact .conflict hnew hallowed (hscan.trans hreason) _ (some room)

/-- A scan that is answered is answered in one of five ways. -/
theorem answers_answer (h : db.answer user item now today = some a) :
    db.Answers user item now today a := by
  unfold Db.answer at h
  split at h
  · rename_i hitem
    cases h
    exact .malformed hitem
  · rename_i uuid hitem
    split at h
    · rename_i hhas
      cases h
      exact .duplicate hitem hhas
    · rename_i hhas
      have hnew : db.newScan item uuid := ⟨hitem, Bool.not_eq_true _ ▸ hhas⟩
      split at h
      · rename_i hover
        rw [Bool.and_eq_true, Bool.not_eq_true'] at hover
        cases h
        refine .rateLimited hnew fun hallowed => ?_
        rw [hallowed hover.1] at hover
        cases hover.2
      · rename_i hover
        refine answers_answerScan hnew (fun hdigits => ?_) h
        rw [hdigits, Bool.true_and, Bool.not_eq_true', Bool.not_eq_false] at hover
        exact hover

/-- The receipt of an answer is for the uuid of a new scan. -/
theorem Db.Answers.receipt_iff (h : db.Answers user item now today a) :
    a.receipt.map Prod.fst = some uuid ↔ db.newScan item uuid := by
  have hnew_iff : ∀ {uuid'}, db.newScan item uuid' →
      (some uuid' = some uuid ↔ db.newScan item uuid) := fun hnew =>
    ⟨fun heq => Option.some.inj heq ▸ hnew, fun h => hnew.1.symm.trans h.1⟩
  cases h with
  | malformed hitem =>
    refine iff_of_false nofun fun hnew => ?_
    rw [hnew.1] at hitem
    cases hitem
  | duplicate hitem hhas =>
    exact iff_of_false nofun fun hnew => hnew.not_has hitem hhas
  | rateLimited hnew _ => exact hnew_iff hnew
  | conflict hnew _ _ _ _ => exact hnew_iff hnew
  | applied hnew _ _ _ _ => exact hnew_iff hnew

/-- A new scan is not answered as a duplicate. -/
theorem Db.Answers.status_ne_duplicate (h : db.Answers user item now today a)
    (hnew : db.newScan item uuid) : a.result.status ≠ .duplicate := by
  cases h with
  | duplicate hitem hhas => exact absurd hhas (hnew.not_has hitem)
  | _ => nofun

/-- The receipt of an answer is for a uuid without one. -/
theorem Db.Answers.fresh (h : db.Answers user item now today a)
    {r : ℕ × ReceiptStatus × Option ReplayReason} (hr : a.receipt = some r) :
    db.receipts.has r.1 = false :=
  (h.receipt_iff.mp (congrArg (Option.map Prod.fst) hr)).2

/-! ### What is written down -/

/-- A checker has verified the session. -/
def Db.Verified (db : Db) (s : ℕ) : Prop :=
  ∃ v ∈ db.validations.rows, v.session = some s ∧ v.action = .verified

theorem verifiedByChecker_iff_verified {s : Session} :
    db.verifiedByChecker s = true ↔ db.Verified s.id := by
  simp only [Db.verifiedByChecker, Db.Verified, List.any_eq_true, Bool.and_eq_true, beq_iff_eq]

theorem receipts_receiptsWith {r : ℕ × ReceiptStatus × Option ReplayReason}
    (h : db.receipts.has r.1 = false) :
    (db.receiptsWith user (some r)).table.rows =
      db.receipts.table.rows ++ [⟨db.receipts.table.nextKey, r.1, user, r.2.1, r.2.2⟩] := by
  obtain ⟨receipts, hinsert, htable⟩ := ReceiptTable.insert?_eq_some h user r.2.1 r.2.2
  rw [Db.receiptsWith, Option.elim_some, hinsert, Option.getD_some, htable, Table.rows_insert]

/-- The uuids with a receipt are those of before and that of a new scan. -/
theorem has_record (h : db.Answers user item now today a) (cache : List CacheEntry) :
    (db.record user a cache).receipts.has uuid = true ↔
      db.receipts.has uuid = true ∨ db.newScan item uuid := by
  rw [← h.receipt_iff]
  cases hr : a.receipt with
  | none =>
    rw [Db.record, hr]
    exact (or_iff_left nofun).symm
  | some r =>
    rw [ReceiptTable.has, Db.record, hr, receipts_receiptsWith (h.fresh hr), List.any_append,
      Bool.or_eq_true]
    refine or_congr Iff.rfl ?_
    rw [List.any_cons, List.any_nil, Bool.or_false, beq_iff_eq, Option.map_some, Option.some.injEq]

/-- The sessions that are verified are those of before and that of a new validation. -/
theorem verified_record (a : Answer) (cache : List CacheEntry) {s : ℕ} :
    (db.record user a cache).Verified s ↔
      db.Verified s ∨ ∃ v, a.validation = some v ∧ v.session = some s ∧ v.action = .verified := by
  unfold Db.Verified Db.record Db.validationsWith
  cases a.validation with
  | none => exact (or_iff_left fun ⟨_, h, _⟩ => nomatch h).symm
  | some v =>
    dsimp only
    rw [Option.elim_some, Table.rows_insert]
    simp only [List.mem_append, List.mem_singleton, or_and_right, exists_or, exists_eq_left,
      Option.some.injEq, exists_eq_left']

/-- What the handling of a scan leaves: its result, the rows it adds without their keys, and the
cache. -/
structure ScanEffects where
  result : Except Err ReplayResult
  receipts : List CheckerReplayReceipt
  validations : List CheckerValidation
  audit : List AuditLog
  notifications : List Notification
  cache : List CacheEntry

/-- What the handling of a scan leaves in a database. -/
def scanEffects (user : ℕ) (now : ℤ) (db : Db) (head : ReplayItem × ℤ) : ScanEffects :=
  let r := (replayItem user head.1 now head.2).run db
  { result := r.1
    receipts := (r.2.receipts.table.rows.drop db.receipts.table.rows.length).map fun receipt =>
      { receipt with id := 0 }
    validations := (r.2.validations.rows.drop db.validations.rows.length).map fun v =>
      { v with id := 0 }
    audit := r.2.audit.drop db.audit.length
    notifications := r.2.notifications.drop db.notifications.length
    cache := r.2.cache }

/-- What an answer leaves. -/
def Answer.effects (a : Answer) (user : ℕ) (cache : List CacheEntry) : ScanEffects where
  result := .ok a.result
  receipts := a.receipt.elim [] fun r => [⟨0, r.1, user, r.2.1, r.2.2⟩]
  validations := a.validation.elim [] fun v => [{ v with id := 0 }]
  audit := a.audit
  notifications := a.notices
  cache := cache

/-- A scan leaves its answer. -/
theorem scanEffects_of_answer (h : db.answer user item now today = some a) :
    scanEffects user now db (item, today) = a.effects user (db.cacheAfter user item now) := by
  have hrun := run_replayItem db user item now today
  rw [h] at hrun
  have hreceipts : ((db.receiptsWith user a.receipt).table.rows.drop
      db.receipts.table.rows.length).map (fun receipt => { receipt with id := 0 }) =
      a.receipt.elim [] fun r => [⟨0, r.1, user, r.2.1, r.2.2⟩] := by
    cases hr : a.receipt with
    | none => rw [Db.receiptsWith, Option.elim_none, List.drop_length]; rfl
    | some r =>
      rw [receipts_receiptsWith ((answers_answer h).fresh hr), List.drop_left]
      rfl
  have hvalidations : ((db.validationsWith a.validation).rows.drop
      db.validations.rows.length).map (fun v => { v with id := 0 }) =
      a.validation.elim [] fun v => [{ v with id := 0 }] := by
    cases a.validation with
    | none => rw [Db.validationsWith, Option.elim_none, List.drop_length]; rfl
    | some v =>
      rw [Db.validationsWith, Option.elim_some, Table.rows_insert, List.drop_left]
      rfl
  unfold scanEffects
  dsimp only
  rw [show (replayItem user item now today).run db =
    (.ok a.result, db.record user a (db.cacheAfter user item now)) from hrun]
  dsimp only [Db.record]
  rw [hreceipts, hvalidations, List.drop_left, List.drop_left]
  rfl

/-- A scan that is answered leaves the database with its answer. -/
theorem replayStep_of_answer (h : db.answer user item now today = some a) :
    replayStep user now db (item, today) = db.record user a (db.cacheAfter user item now) := by
  have hrun := run_replayItem db user item now today
  rw [h] at hrun
  exact congrArg Prod.snd hrun

/-- A scan has an answer exactly if its handling does not raise. -/
theorem exists_answer_iff :
    (∃ a, db.answer user item now today = some a) ↔ ¬ db.ScanRaises user item now today := by
  have hrun := run_replayItem db user item now today
  rw [← run_replayItem_ok_iff]
  cases ha : db.answer user item now today with
  | none =>
    rw [ha] at hrun
    obtain ⟨e, hrun⟩ := hrun
    rw [hrun]
    exact iff_of_false (fun ⟨_, hnone⟩ => nomatch hnone) fun ⟨_, _, hok⟩ => nomatch hok
  | some a =>
    rw [ha] at hrun
    exact iff_of_true ⟨a, rfl⟩ ⟨_, _, hrun⟩

end

end FluxTrack
