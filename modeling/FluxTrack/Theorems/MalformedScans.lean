import FluxTrack.Process.Purge
import FluxTrack.Theorems.ImportPreview
import FluxTrack.Theorems.ReplayAnswers
import FluxTrack.Web.QueuedScans

/-!
# Malformed scans in a batch

The items of a batch are committed one after another. A malformed item should be answered and
leave the others alone, as if it had not been sent. But a time that is shaped like one and is
none, a session in digits that are no number and a time at the end of the calendar raise, and
what comes after them is not handled. A malformed item also takes the receipt of its uuid, and
one whose time is not read may verify a session.

## Main definitions

* `Db.JudgedOn`, `Db.Verifies` — the scans that a verified session matters to, and those that
  verify one
* `Disturbs` — a scan takes the uuid of another, or verifies the session it is judged on
* `ReplaysIndependently` — every item is answered, as if the malformed ones had not been sent

## Main results

* `purges_replay` — two runs of a batch, with and without the malformed items
* `replays_independently_iff`
-/

namespace FluxTrack

open Calendar Relational Process

/-! ### Verified sessions -/

/-- A new scan within the rate limit, about the session that its room has now, on a floor of the
checker, where the session is neither still to come nor absent: it applies unless the session is
verified. -/
structure Db.JudgedOn (db : Db) (user : ℕ) (item : ReplayItem) (now today : ℤ) (s : ℕ) : Prop where
  new : ∃ uuid, db.newScan item uuid
  allowed : db.scanAllowed user item now
  session : ∃ room t, db.replayRoom item = some room ∧
    db.roomSessionState room.id now today = some t ∧ t.id = s ∧
    db.replayExpected item room (item.time now) = some s ∧
    t.status ≠ .scheduled ∧ t.status ≠ .absent ∧
    (db.activeFloorIds user now).contains room.floor = true

/-- A new scan within the rate limit that verifies the session its room has now. -/
structure Db.Verifies (db : Db) (user : ℕ) (item : ReplayItem) (now today : ℤ) (s : ℕ) : Prop where
  new : ∃ uuid, db.newScan item uuid
  allowed : db.scanAllowed user item now
  action : item.action = .known .verified
  applies : db.scanReason user item now today = none
  session : ∃ room t, db.replayRoom item = some room ∧
    db.roomSessionState room.id now today = some t ∧ t.id = s

section

variable {db : Db} {user : ℕ} {item : ReplayItem} {now today : ℤ} {room : Room} {t : Session}
  {a : Answer} {s : ℕ}

/-- Of a session under way it matters whether it is verified. -/
theorem roomOutcome_of_running (ht : db.roomSessionState room.id now today = some t)
    (hscheduled : t.status ≠ .scheduled) (habsent : t.status ≠ .absent)
    (hfloor : (db.activeFloorIds user now).contains room.floor = true) :
    db.roomOutcome user room now today =
      if db.verifiedByChecker t then .alreadyVerified else .activeUnverified := by
  have hduty : (db.activeFloorIds user now).isEmpty = false := by
    cases hfloors : db.activeFloorIds user now with
    | nil =>
      rw [hfloors] at hfloor
      cases hfloor
    | cons _ _ => rfl
  unfold Db.roomOutcome resolveCheckerScan
  rw [ht, hduty, hfloor]
  simp only [Bool.false_eq_true, if_false, Bool.not_true, Option.map_some, Db.sessionState,
    if_neg hscheduled, if_neg habsent]
  split <;> rfl

/-- What is open to be verified is under way, on a floor of the checker, and not verified. -/
theorem running_of_roomOutcome (h : db.roomOutcome user room now today = .activeUnverified) :
    ∃ t, db.roomSessionState room.id now today = some t ∧ t.status ≠ .scheduled ∧
      t.status ≠ .absent ∧ (db.activeFloorIds user now).contains room.floor = true ∧
      db.verifiedByChecker t = false := by
  unfold Db.roomOutcome resolveCheckerScan at h
  split at h
  · cases h
  split at h
  · cases h
  rename_i hfloor
  cases ht : db.roomSessionState room.id now today with
  | none =>
    rw [ht] at h
    cases h
  | some t =>
    rw [ht, Option.map_some] at h
    dsimp only [Db.sessionState] at h
    split at h
    · cases h
    rename_i hscheduled
    split at h
    · cases h
    rename_i habsent
    split at h
    · cases h
    rename_i hverified
    exact ⟨t, rfl, hscheduled, habsent, by simpa using hfloor, by simpa using hverified⟩

theorem scanReason_of_room (h : db.replayRoom item = some room) :
    db.scanReason user item now today = replayReason item (db.roomOutcome user room now today)
      (db.replayExpected item room (item.time now))
      ((db.roomSessionState room.id now today).map Session.id) := by
  rw [Db.scanReason, h]

/-- A scan that verifies a session is judged on it, and it was not verified. -/
theorem Db.Verifies.judgedOn (h : db.Verifies user item now today s) :
    db.JudgedOn user item now today s ∧ ¬ db.Verified s := by
  obtain ⟨room, t, hroom, ht, rfl⟩ := h.session
  obtain ⟨hexpected, -, action, haction, hpermits, -⟩ :=
    of_replayReason ((scanReason_of_room hroom).symm.trans h.applies)
  obtain rfl : ValidationAction.verified = action :=
    ReplayAction.known.inj (h.action.symm.trans haction)
  -- the action is open in one outcome only
  have houtcome : db.roomOutcome user room now today = .activeUnverified := by
    cases houtcome : db.roomOutcome user room now today with
    | activeUnverified => rfl
    | _ =>
      rw [houtcome] at hpermits
      cases hpermits
  obtain ⟨t', ht', hscheduled, habsent, hfloor, hverified⟩ := running_of_roomOutcome houtcome
  obtain rfl : t = t' := Option.some.inj (ht.symm.trans ht')
  rw [ht, Option.map_some] at hexpected
  refine ⟨⟨h.new, h.allowed, room, t, hroom, ht, rfl, hexpected, hscheduled, habsent, hfloor⟩, ?_⟩
  rw [← verifiedByChecker_iff_verified, hverified]
  exact Bool.false_ne_true

/-- A scan is gated by the verification of the session it is judged on. -/
theorem scanReason_of_judgedOn (h : db.JudgedOn user item now today s) :
    db.scanReason user item now today = some (.gated .alreadyVerified) ↔ db.Verified s := by
  obtain ⟨room, t, hroom, ht, rfl, hexpected, hscheduled, habsent, hfloor⟩ := h.session
  -- a text that is no number is no session that it expects
  have hdigits : item.session ≠ .notDigits := by
    intro hdigits
    rw [Db.replayExpected, hdigits] at hexpected
    cases hexpected
  rw [scanReason_of_room hroom, roomOutcome_of_running ht hscheduled habsent hfloor, hexpected, ht,
    ← verifiedByChecker_iff_verified, Option.map_some, replayReason, if_neg hdigits,
    if_neg (not_not.mpr rfl)]
  cases hverified : db.verifiedByChecker t with
  | true => exact iff_of_true rfl rfl
  | false =>
    refine iff_of_false ?_ Bool.false_ne_true
    rw [if_neg Bool.false_ne_true, if_neg (by decide)]
    split
    · nofun
    · split
      · nofun
      · split <;> nofun

/-- The validation of an answer verifies the session that the scan verifies. -/
theorem Db.Answers.verifies_iff (h : db.Answers user item now today a) :
    (∃ v, a.validation = some v ∧ v.session = some s ∧ v.action = .verified) ↔
      db.Verifies user item now today s := by
  cases h with
  | @applied uuid room action hnew hallowed hroom haction hreason =>
    constructor
    · rintro ⟨v, ⟨⟩, hs, rfl⟩
      obtain ⟨t, ht, rfl⟩ := Option.map_eq_some_iff.mp hs
      exact ⟨⟨uuid, hnew⟩, hallowed, haction, hreason, room, t, hroom, ht, rfl⟩
    · rintro ⟨-, -, hverified, -, room', t, hroom', ht, rfl⟩
      obtain rfl : room = room' := Option.some.inj (hroom.symm.trans hroom')
      refine ⟨_, rfl, ?_, ReplayAction.known.inj (haction.symm.trans hverified)⟩
      exact congrArg (Option.map Session.id) ht
  | malformed hitem =>
    refine iff_of_false nofun fun hv => ?_
    obtain ⟨uuid, hnew⟩ := hv.new
    cases hitem.symm.trans hnew.1
  | duplicate hitem hhas =>
    refine iff_of_false nofun fun hv => ?_
    obtain ⟨uuid, hnew⟩ := hv.new
    exact hnew.not_has hitem hhas
  | rateLimited hnew hover => exact iff_of_false nofun fun hv => hover hv.allowed
  | conflict hnew hallowed hreason session room =>
    exact iff_of_false nofun fun hv => nomatch hreason.symm.trans hv.applies

/-- A scan that is judged on a session is answered that it is verified exactly if it is. -/
theorem Db.Answers.reason_iff (h : db.Answers user item now today a)
    (hjudged : db.JudgedOn user item now today s) :
    a.result.reason = some (.gated .alreadyVerified) ↔ db.Verified s := by
  rw [← scanReason_of_judgedOn hjudged]
  obtain ⟨uuid', hnew'⟩ := hjudged.new
  cases h with
  | malformed hitem => cases hitem.symm.trans hnew'.1
  | duplicate hitem hhas => exact absurd hhas (hnew'.not_has hitem)
  | rateLimited hnew hover => exact absurd hjudged.allowed hover
  | conflict hnew hallowed hreason session room =>
    rw [hreason]
    exact Iff.rfl
  | applied hnew hallowed hroom haction hreason =>
    rw [hreason]
    exact Iff.rfl

end

/-! ### Two databases that a scan finds -/

/-- The databases differ in what scans write, the cache apart. -/
def Db.SameCampus (db db' : Db) : Prop :=
  ∃ receipts validations audit notifications, db' = { db with
    receipts := receipts
    validations := validations
    audit := audit
    notifications := notifications }

section

variable {db db' : Db} {user uuid : ℕ} {item : ReplayItem} {now today : ℤ} {room : Room}
  {a : Answer} {s : ℕ}

/-- The sessions a scan may be judged on are verified in both databases or in neither. -/
def Db.AgreeOn (db db' : Db) (user : ℕ) (item : ReplayItem) (now today : ℤ) : Prop :=
  ∀ s, db.JudgedOn user item now today s → (db'.Verified s ↔ db.Verified s)

/-- The decisions on a room can only differ by a session under way that one database has
verified. -/
theorem roomOutcome_eq (hsame : db.SameCampus db')
    (hverified : ∀ t, db.roomSessionState room.id now today = some t → t.status ≠ .scheduled →
      t.status ≠ .absent → (db.activeFloorIds user now).contains room.floor = true →
      db'.verifiedByChecker t = db.verifiedByChecker t) :
    db'.roomOutcome user room now today = db.roomOutcome user room now today := by
  obtain ⟨receipts, validations, audit, notifications, rfl⟩ := hsame
  change (resolveCheckerScan (db.activeFloorIds user now) room.floor
    ((db.roomSessionState room.id now today).map (Db.sessionState _))).outcome = _
  unfold Db.roomOutcome resolveCheckerScan
  cases (db.activeFloorIds user now).isEmpty with
  | true => rfl
  | false =>
    cases hfloor : (db.activeFloorIds user now).contains room.floor with
    | false => rfl
    | true =>
      cases ht : db.roomSessionState room.id now today with
      | none => rfl
      | some t =>
        by_cases hscheduled : t.status = .scheduled
        · simp only [Option.map_some, Db.sessionState, if_pos hscheduled]
        by_cases habsent : t.status = .absent
        · simp only [Option.map_some, Db.sessionState, if_neg hscheduled, if_pos habsent]
        · simp only [Option.map_some, Db.sessionState, hverified t ht hscheduled habsent hfloor]

/-- The reason is the same, since where the decision on the room is not, the session of the scan
is another. -/
theorem replayReason_eq (hsame : db.SameCampus db') (hagree : db.AgreeOn db' user item now today)
    (hnew : db.newScan item uuid) (hallowed : db.scanAllowed user item now)
    (hroom : db.replayRoom item = some room) :
    replayReason item (db'.roomOutcome user room now today)
        (db.replayExpected item room (item.time now))
        ((db.roomSessionState room.id now today).map Session.id) =
      replayReason item (db.roomOutcome user room now today)
        (db.replayExpected item room (item.time now))
        ((db.roomSessionState room.id now today).map Session.id) := by
  by_cases hexpected : db.replayExpected item room (item.time now) =
      (db.roomSessionState room.id now today).map Session.id
  · rw [roomOutcome_eq hsame fun t ht hscheduled habsent hfloor => ?_]
    have hjudged : db.JudgedOn user item now today t.id :=
      ⟨⟨uuid, hnew⟩, hallowed, room, t, hroom, ht, rfl,
        hexpected.trans (congrArg (Option.map Session.id) ht), hscheduled, habsent, hfloor⟩
    rw [Bool.eq_iff_iff, verifiedByChecker_iff_verified, verifiedByChecker_iff_verified]
    exact hagree t.id hjudged
  · unfold replayReason
    rw [if_pos hexpected, if_pos hexpected]

/-- The answer in a room is the same where the reason is. -/
theorem answerRoom_eq (hsame : db.SameCampus db')
    (hreason : replayReason item (db'.roomOutcome user room now today)
        (db.replayExpected item room (item.time now))
        ((db.roomSessionState room.id now today).map Session.id) =
      replayReason item (db.roomOutcome user room now today)
        (db.replayExpected item room (item.time now))
        ((db.roomSessionState room.id now today).map Session.id)) :
    db'.answerRoom user uuid item now today room = db.answerRoom user uuid item now today room := by
  have hstate : db'.roomSessionState room.id now today = db.roomSessionState room.id now today := by
    obtain ⟨receipts, validations, audit, notifications, rfl⟩ := hsame
    rfl
  have hexpected : db'.replayExpected item room (item.time now) =
      db.replayExpected item room (item.time now) := by
    obtain ⟨receipts, validations, audit, notifications, rfl⟩ := hsame
    rfl
  unfold Db.answerRoom
  dsimp only
  rw [hstate, hexpected, hreason]
  -- the rows of the answer are read from tables that are the same
  obtain ⟨receipts, validations, audit, notifications, rfl⟩ := hsame
  rfl

theorem answerScan_eq (hsame : db.SameCampus db') (hagree : db.AgreeOn db' user item now today)
    (hnew : db.newScan item uuid) (hallowed : db.scanAllowed user item now) :
    db'.answerScan user uuid item now today = db.answerScan user uuid item now today := by
  have htoken : db'.replayRoom item = db.replayRoom item := by
    obtain ⟨receipts, validations, audit, notifications, rfl⟩ := hsame
    rfl
  have hexpected : db'.expectedRaises item (item.time now) ↔
      db.expectedRaises item (item.time now) := by
    obtain ⟨receipts, validations, audit, notifications, rfl⟩ := hsame
    exact Iff.rfl
  unfold Db.answerScan
  by_cases htime : item.scannedAt = .unreadable
  · rw [if_pos htime, if_pos htime]
  rw [if_neg htime, if_neg htime, htoken]
  cases hroom : db.replayRoom item with
  | none =>
    obtain ⟨receipts, validations, audit, notifications, rfl⟩ := hsame
    rfl
  | some room =>
    dsimp only
    by_cases hraises : db.expectedRaises item (item.time now)
    · rw [if_pos hraises, if_pos (hexpected.mpr hraises)]
    · rw [if_neg hraises, if_neg (mt hexpected.mp hraises)]
      exact answerRoom_eq hsame (replayReason_eq hsame hagree hnew hallowed hroom)

/-- A scan is answered the same where its uuid is as new and it is judged on no session that only
one database has verified. -/
theorem answer_eq (hsame : db.SameCampus db') (hagree : db.AgreeOn db' user item now today)
    (hhas : ∀ uuid, item.clientUuid = some uuid → db'.receipts.has uuid = db.receipts.has uuid) :
    db'.answer user item now today = db.answer user item now today := by
  unfold Db.answer
  cases hitem : item.clientUuid with
  | none => rfl
  | some uuid =>
    dsimp only
    rw [hhas uuid hitem]
    cases hnew : db.receipts.has uuid with
    | true => rfl
    | false =>
      have hcode : db'.replayCodeAllowed user now = db.replayCodeAllowed user now := by
        obtain ⟨receipts, validations, audit, notifications, rfl⟩ := hsame
        rfl
      rw [hcode, if_neg Bool.false_ne_true, if_neg Bool.false_ne_true]
      split
      · rfl
      · rename_i hover
        refine answerScan_eq hsame hagree ⟨hitem, hnew⟩ fun hdigits => ?_
        rwa [hdigits, Bool.true_and, Bool.not_eq_true', Bool.not_eq_false] at hover

/-- The cache after a scan is the same where its uuid is as new. -/
theorem cacheAfter_eq (hsame : db.SameCampus db')
    (hhas : ∀ uuid, item.clientUuid = some uuid → db'.receipts.has uuid = db.receipts.has uuid) :
    db'.cacheAfter user item now = db.cacheAfter user item now := by
  have hany : (item.clientUuid.any fun uuid => !db'.receipts.has uuid) =
      item.clientUuid.any fun uuid => !db.receipts.has uuid := by
    cases hitem : item.clientUuid with
    | none => rfl
    | some uuid => rw [Option.any_some, Option.any_some, hhas uuid hitem]
  obtain ⟨receipts, validations, audit, notifications, rfl⟩ := hsame
  unfold Db.cacheAfter
  rw [hany]
  unfold replayManualCodeAllowed
  simp only [Prog.run_select_bind, Prog.run_modify_bind]
  split
  · split <;> rfl
  · rfl

end

/-! ### With and without the malformed items -/

/-- An item of a batch as it is read, with the date that is read for it. -/
def readScan (tables : TextTables) (parsers : ScanParsers) (head : QueuedScan × ℤ) :
    ReplayItem × ℤ := (head.1.item tables parsers, head.2)

/-- A scan takes the uuid of another that finds `db`, or verifies the session it is judged on. -/
def Disturbs (tables : TextTables) (parsers : ScanParsers) (user : ℕ) (now : ℤ)
    (p : Db × (QueuedScan × ℤ)) (db : Db) (head : QueuedScan × ℤ) : Prop :=
  (∃ uuid, p.1.newScan (p.2.1.item tables parsers) uuid ∧
    (head.1.item tables parsers).clientUuid = some uuid) ∨
  ∃ s, p.1.Verifies user (p.2.1.item tables parsers) now p.2.2 s ∧
    db.JudgedOn user (head.1.item tables parsers) now head.2 s

/-- What the scans `d` that were left out have done to the first database and not to the second:
they have taken their uuids, and verified sessions. -/
structure Purged (tables : TextTables) (parsers : ScanParsers) (user : ℕ) (now : ℤ)
    (d : List (Db × (QueuedScan × ℤ))) (db db' : Db) : Prop where
  same : db.SameCampus db'
  receipts : ∀ uuid, db.receipts.has uuid = true ↔ db'.receipts.has uuid = true ∨
    ∃ p ∈ d, p.1.newScan (p.2.1.item tables parsers) uuid
  fresh : ∀ p ∈ d, ∀ uuid, p.1.newScan (p.2.1.item tables parsers) uuid →
    db'.receipts.has uuid = false
  verified : ∀ s, db.Verified s ↔ db'.Verified s ∨
    ∃ p ∈ d, p.1.Verifies user (p.2.1.item tables parsers) now p.2.2 s
  unverified : ∀ p ∈ d, ∀ s, p.1.Verifies user (p.2.1.item tables parsers) now p.2.2 s →
    ¬ db'.Verified s

section

variable {tables : TextTables} {parsers : ScanParsers} {user : ℕ} {now : ℤ}
  {d : List (Db × (QueuedScan × ℤ))} {db db' : Db} {head : QueuedScan × ℤ} {a : Answer}

theorem purged_refl (db : Db) : Purged tables parsers user now [] db db where
  same := ⟨_, _, _, _, rfl⟩
  receipts _ := (or_iff_left fun ⟨_, h, _⟩ => nomatch h).symm
  fresh _ h := nomatch h
  verified _ := (or_iff_left fun ⟨_, h, _⟩ => nomatch h).symm
  unverified _ h := nomatch h

theorem sameCampus_record (h : db.SameCampus db') (a a' : Answer) (cache : List CacheEntry) :
    (db.record user a cache).SameCampus (db'.record user a' cache) := by
  obtain ⟨receipts, validations, audit, notifications, rfl⟩ := h
  exact ⟨_, _, _, _, rfl⟩

/-- Where no scan that was left out disturbs it, a scan finds its uuid as new in both. -/
theorem Purged.has_eq (h : Purged tables parsers user now d db db')
    (hclear : ∀ p ∈ d, ¬ Disturbs tables parsers user now p db head) :
    ∀ uuid, (head.1.item tables parsers).clientUuid = some uuid →
      db'.receipts.has uuid = db.receipts.has uuid := by
  intro uuid huuid
  rw [Bool.eq_iff_iff, h.receipts uuid]
  exact (or_iff_left fun ⟨p, hp, hnew⟩ => hclear p hp (.inl ⟨uuid, hnew, huuid⟩)).symm

/-- Where no scan that was left out disturbs it, a scan is judged on sessions that both have
verified or neither. -/
theorem Purged.agreeOn (h : Purged tables parsers user now d db db')
    (hclear : ∀ p ∈ d, ¬ Disturbs tables parsers user now p db head) :
    db.AgreeOn db' user (head.1.item tables parsers) now head.2 := by
  intro s hjudged
  rw [h.verified s]
  exact (or_iff_left fun ⟨p, hp, hv⟩ => hclear p hp (.inr ⟨s, hv, hjudged⟩)).symm

/-- A malformed scan joins those that were left out. -/
theorem Purged.drop (h : Purged tables parsers user now d db db')
    (hdigits : (head.1.item tables parsers).sixDigits = false)
    (ha : db.answer user (head.1.item tables parsers) now head.2 = some a) :
    Purged tables parsers user now ((db, head) :: d)
      (replayStep user now db (readScan tables parsers head)) db' := by
  have hanswers := answers_answer ha
  have hcache : db.cacheAfter user (head.1.item tables parsers) now = db.cache := by
    rw [Db.cacheAfter, hdigits, Bool.false_and, if_neg Bool.false_ne_true]
  rw [readScan, replayStep_of_answer ha, hcache]
  constructor
  · obtain ⟨receipts, validations, audit, notifications, rfl⟩ := h.same
    exact ⟨_, _, _, _, rfl⟩
  · intro uuid
    rw [has_record hanswers, h.receipts uuid, List.exists_mem_cons_iff]
    exact or_assoc.trans (or_congr Iff.rfl or_comm)
  · intro p hp uuid hnew
    rcases List.mem_cons.mp hp with rfl | hp
    · rw [Bool.eq_false_iff]
      exact fun hhas => absurd ((h.receipts uuid).mpr (.inl hhas)) (Bool.eq_false_iff.mp hnew.2)
    · exact h.fresh p hp uuid hnew
  · intro s
    rw [verified_record, hanswers.verifies_iff, h.verified s, List.exists_mem_cons_iff]
    exact or_assoc.trans (or_congr Iff.rfl or_comm)
  · intro p hp s hv
    rcases List.mem_cons.mp hp with rfl | hp
    · exact fun hverified => hv.judgedOn.2 ((h.verified s).mpr (.inl hverified))
    · exact h.unverified p hp s hv

/-- A scan that is not disturbed does the same to both. -/
theorem Purged.keep (h : Purged tables parsers user now d db db')
    (hclear : ∀ p ∈ d, ¬ Disturbs tables parsers user now p db head)
    (ha : db.answer user (head.1.item tables parsers) now head.2 = some a) :
    Purged tables parsers user now d (replayStep user now db (readScan tables parsers head))
      (replayStep user now db' (readScan tables parsers head)) := by
  have hhas := h.has_eq hclear
  have ha' : db'.answer user (head.1.item tables parsers) now head.2 = some a :=
    (answer_eq h.same (h.agreeOn hclear) hhas).trans ha
  have hnew : ∀ uuid, db'.newScan (head.1.item tables parsers) uuid ↔
      db.newScan (head.1.item tables parsers) uuid := fun uuid =>
    and_congr_right fun huuid => by rw [hhas uuid huuid]
  rw [readScan, replayStep_of_answer ha, replayStep_of_answer ha', cacheAfter_eq h.same hhas]
  constructor
  · exact sameCampus_record h.same a a _
  · intro uuid
    rw [has_record (answers_answer ha), has_record (answers_answer ha'), h.receipts uuid, hnew]
    exact or_right_comm
  · intro p hp uuid htaken
    -- the scan itself has another uuid, or it would be disturbed
    rw [Bool.eq_false_iff, ne_eq, has_record (answers_answer ha')]
    rintro (hbefore | hscan)
    · exact Bool.eq_false_iff.mp (h.fresh p hp uuid htaken) hbefore
    · exact hclear p hp (.inl ⟨uuid, htaken, hscan.1⟩)
  · intro s
    rw [verified_record, verified_record, h.verified s]
    exact or_right_comm
  · intro p hp s hv
    rw [verified_record, (answers_answer ha).verifies_iff]
    rintro (hbefore | hscan)
    · exact h.unverified p hp s hv hbefore
    · exact hclear p hp (.inr ⟨s, hv, hscan.judgedOn.1⟩)

/-- A scan that is disturbed is answered otherwise than without the disturbance. -/
theorem Purged.result_ne (h : Purged tables parsers user now d db db')
    {p : Db × (QueuedScan × ℤ)} (hp : p ∈ d)
    (hdisturbs : Disturbs tables parsers user now p db head)
    (ha : db.answer user (head.1.item tables parsers) now head.2 = some a) {a' : Answer}
    (ha' : db'.answer user (head.1.item tables parsers) now head.2 = some a') :
    a.result ≠ a'.result := by
  intro hresult
  rcases hdisturbs with ⟨uuid, htaken, huuid⟩ | ⟨s, hv, hjudged⟩
  · -- the uuid is a duplicate in the first, and new in the second
    have hhas : db.receipts.has uuid = true := (h.receipts uuid).mpr (.inr ⟨p, hp, htaken⟩)
    have hdup : a = .silent ⟨some uuid, .duplicate, none⟩ := by
      unfold Db.answer at ha
      rw [huuid] at ha
      dsimp only at ha
      rw [hhas, if_pos rfl] at ha
      exact (Option.some.inj ha).symm
    refine (answers_answer ha').status_ne_duplicate ⟨huuid, h.fresh p hp uuid htaken⟩ ?_
    rw [← hresult, hdup]
    rfl
  · -- the session is verified in the first, and not in the second
    have hverified : db.Verified s := (h.verified s).mpr (.inr ⟨p, hp, hv⟩)
    obtain ⟨uuid, hnew⟩ := hjudged.new
    have hnew' : db'.newScan (head.1.item tables parsers) uuid := by
      refine ⟨hnew.1, ?_⟩
      rw [Bool.eq_false_iff]
      exact fun hhas => absurd ((h.receipts uuid).mpr (.inl hhas)) (Bool.eq_false_iff.mp hnew.2)
    have hjudged' : db'.JudgedOn user (head.1.item tables parsers) now head.2 s := by
      obtain ⟨receipts, validations, audit, notifications, rfl⟩ := h.same
      exact ⟨⟨uuid, hnew'⟩, hjudged.allowed, hjudged.session⟩
    have hgated := ((answers_answer ha).reason_iff hjudged).mpr hverified
    rw [hresult] at hgated
    exact h.unverified p hp s hv (((answers_answer ha').reason_iff hjudged').mp hgated)

/-- A scan leaves the same in both exactly if no scan that was left out disturbs it. -/
theorem Purged.scanEffects_eq_iff (h : Purged tables parsers user now d db db')
    (ha : db.answer user (head.1.item tables parsers) now head.2 = some a) :
    scanEffects user now db (readScan tables parsers head) =
        scanEffects user now db' (readScan tables parsers head) ↔
      ∀ p ∈ d, ¬ Disturbs tables parsers user now p db head := by
  rw [readScan, scanEffects_of_answer ha]
  constructor
  · intro heq p hp hdisturbs
    cases ha' : db'.answer user (head.1.item tables parsers) now head.2 with
    | none =>
      have hrun := run_replayItem db' user (head.1.item tables parsers) now head.2
      rw [ha'] at hrun
      obtain ⟨e, hrun⟩ := hrun
      have hresult := congrArg ScanEffects.result heq
      rw [scanEffects, hrun] at hresult
      cases hresult
    | some a' =>
      rw [scanEffects_of_answer ha'] at heq
      have hresult : a.result = a'.result := Except.ok.inj (congrArg ScanEffects.result heq)
      exact h.result_ne hp hdisturbs ha ha' hresult
  · intro hclear
    have hhas := h.has_eq hclear
    rw [scanEffects_of_answer ((answer_eq h.same (h.agreeOn hclear) hhas).trans ha),
      cacheAfter_eq h.same hhas]

end

/-! ### A batch -/

section

variable (tables : TextTables) (parsers : ScanParsers) (user : ℕ) (now : ℤ)

/-- The item of a batch is not malformed. -/
def isWellFormed (head : QueuedScan × ℤ) : Bool := !head.1.malformed tables parsers

/-- The handling of an item as it is posted. -/
def scanStep (db : Db) (head : QueuedScan × ℤ) : Db :=
  replayStep user now db (readScan tables parsers head)

/-- What the handling of an item as it is posted leaves. -/
def scanOutput (db : Db) (head : QueuedScan × ℤ) : ScanEffects :=
  scanEffects user now db (readScan tables parsers head)

/-- The handling of an item as it is posted does not raise. -/
def ScanReturns (db : Db) (head : QueuedScan × ℤ) : Prop :=
  ¬ db.ScanRaises user (head.1.item tables parsers) now head.2

/-- The two runs of a batch, with the malformed items and without. -/
theorem purges_replay : Purges (isWellFormed tables parsers) (scanStep tables parsers user now)
    (scanOutput tables parsers user now) (ScanReturns tables parsers user now)
    (Disturbs tables parsers user now) (Purged tables parsers user now) where
  drop h hreturns hmalformed := by
    obtain ⟨a, ha⟩ := exists_answer_iff.mpr hreturns
    refine h.drop ?_ ha
    rw [isWellFormed, Bool.not_eq_false', QueuedScan.malformed, Bool.and_eq_true,
      Bool.not_eq_true'] at hmalformed
    exact hmalformed.1
  out_eq_iff h hreturns _ := by
    obtain ⟨a, ha⟩ := exists_answer_iff.mpr hreturns
    exact h.scanEffects_eq_iff ha
  keep h hreturns _ hclear := by
    obtain ⟨a, ha⟩ := exists_answer_iff.mpr hreturns
    exact h.keep hclear ha

/-- Every item of a batch is answered, in the order of the batch, and those that are not malformed
leave what they leave in a batch of their own. -/
structure ReplaysIndependently (db : Db) (batch : List (QueuedScan × ℤ)) : Prop where
  answered : ∃ results db',
    (replay user now (batch.map (readScan tables parsers))).run db = (.ok results, db') ∧
      results.map Except.ok = (outputs (scanStep tables parsers user now)
        (scanOutput tables parsers user now) db batch).map ScanEffects.result
  independent : keptOutputs (isWellFormed tables parsers) (scanStep tables parsers user now)
      (scanOutput tables parsers user now) db batch =
    outputs (scanStep tables parsers user now) (scanOutput tables parsers user now) db
      (batch.filter (isWellFormed tables parsers))

variable {tables parsers user now}

/-- A batch is answered exactly if no item raises, each with its own result. -/
theorem run_replay_answered_iff {db : Db} {batch : List (QueuedScan × ℤ)} :
    (∃ results db',
      (replay user now (batch.map (readScan tables parsers))).run db = (.ok results, db') ∧
        results.map Except.ok = (outputs (scanStep tables parsers user now)
          (scanOutput tables parsers user now) db batch).map ScanEffects.result) ↔
      Along (scanStep tables parsers user now) (ScanReturns tables parsers user now) db batch := by
  induction batch generalizing db with
  | nil => exact iff_of_true ⟨[], db, rfl, rfl⟩ trivial
  | cons head batch ih =>
    constructor
    · rintro ⟨results, db', hrun, hresults⟩
      obtain ⟨result, db₁, hitem, hrest⟩ := Prog.run_bind_eq_ok hrun
      obtain ⟨rest, db₂, hitems, hend⟩ := Prog.run_bind_eq_ok hrest
      cases hend
      have hstep : scanStep tables parsers user now db head = db₁ := congrArg Prod.snd hitem
      refine ⟨run_replayItem_ok_iff.mp ⟨result, db₁, hitem⟩, ih.mp ⟨rest, db', ?_, ?_⟩⟩
      · rw [hstep]
        exact hitems
      · exact (List.cons.inj hresults).2
    · rintro ⟨hreturns, halong⟩
      have hanswers : ∃ result db₁, (replayItem user (head.1.item tables parsers) now
          head.2).run db = (.ok result, db₁) := run_replayItem_ok_iff.mpr hreturns
      obtain ⟨result, db₁, hitem⟩ := hanswers
      obtain ⟨rest, db', hitems, hrest⟩ := ih.mpr halong
      have hstep : scanStep tables parsers user now db head = db₁ := congrArg Prod.snd hitem
      have hresult : (scanOutput tables parsers user now db head).result = .ok result :=
        congrArg Prod.fst hitem
      rw [hstep] at hitems
      refine ⟨result :: rest, db',
        (Prog.run_bind_of_ok hitem).trans (Prog.run_bind_of_ok hitems), ?_⟩
      rw [outputs, List.map_cons, List.map_cons, hresult, hrest]

end

/-- A batch is answered as if its malformed items had not been sent exactly if no item of it
raises and no malformed one disturbs a later one that is not. -/
theorem replays_independently_iff (tables : TextTables) (parsers : ScanParsers) (user : ℕ)
    (now : ℤ) (db : Db) (batch : List (QueuedScan × ℤ)) :
    ReplaysIndependently tables parsers user now db batch ↔
      Along (scanStep tables parsers user now) (ScanReturns tables parsers user now) db batch ∧
        NoDisturbance (isWellFormed tables parsers) (scanStep tables parsers user now)
          (Disturbs tables parsers user now) db batch := by
  have hpurges := purges_replay tables parsers user now
  constructor
  · rintro ⟨hanswered, hindependent⟩
    have hreturns := run_replay_answered_iff.mp hanswered
    exact ⟨hreturns, (hpurges.outputs_eq_iff (purged_refl db) hreturns).mp hindependent⟩
  · rintro ⟨hreturns, hundisturbed⟩
    exact ⟨run_replay_answered_iff.mpr hreturns,
      (hpurges.outputs_eq_iff (purged_refl db) hreturns).mpr hundisturbed⟩

namespace Campus

/-- Parsers that know two uuids and a day that February does not have. -/
def scanParsers : ScanParsers where
  uuid text :=
    if text = "00000000-0000-4000-8000-000000000063" then some 99
    else if text = "00000000-0000-4000-8000-000000000064" then some 100
    else none
  parseDatetime text := if text = "2026-02-30T08:30:00+08:00" then .raising else .nothing
  uuid_empty := by decide
  parseDatetime_empty := by decide

/-- A scan that verifies the class in the first room. -/
def goodScan : QueuedScan :=
  ⟨some "00000000-0000-4000-8000-000000000063", some "qr-1", none, some "verified", none, none⟩

/-- A scan on the thirtieth of February. -/
def impossibleScan : QueuedScan :=
  ⟨some "00000000-0000-4000-8000-000000000064", some "qr-1", none, some "verified", none,
    some "2026-02-30T08:30:00+08:00"⟩

/-- The two in a batch. -/
def impossibleBatch : List (QueuedScan × ℤ) := [(goodScan, monday), (impossibleScan, monday)]

end Campus

open Campus in
/-- The first scan is applied and kept, and the second makes the request fail. -/
theorem replay_fails_on_impossible_time :
    ((replay 7 halfPastEight (impossibleBatch.map (readScan asciiTables scanParsers))).run
        checked).1 = .error .value ∧
    ((replay 7 halfPastEight (impossibleBatch.map (readScan asciiTables scanParsers))).run
        checked).2.validations.rows.length = checked.validations.rows.length + 1 ∧
    ¬ ReplaysIndependently asciiTables scanParsers 7 halfPastEight checked impossibleBatch := by
  have hraises : ((replay 7 halfPastEight (impossibleBatch.map
      (readScan asciiTables scanParsers))).run checked).1 = .error .value := by
    decide +kernel
  refine ⟨hraises, by decide +kernel, fun h => ?_⟩
  obtain ⟨results, db', hrun, -⟩ := h.answered
  rw [hrun] at hraises
  cases hraises

end FluxTrack
