import FluxTrack.Theorems.Replay
import FluxTrack.Theorems.ReplayAnswers

/-!
# Receipts of offline scans

What the handling of a queued scan does to the receipts, statement by statement: it gives one to
the uuid of the scan or to none, and an offline validation goes with each receipt that says applied.
A result is only given when the uuid has its receipt.

## Main definitions

* `Settles`, `Told` — what a statement of the handling of a uuid does, and what its result says

## Main results

* `ensures_replayItem_told` — the statements of an item and its result
-/

namespace FluxTrack

open Calendar Relational Process

/-! ### The statements of an item -/

/-- The validations of offline scans. -/
def Db.offlineValidations (db : Db) : ℕ :=
  db.validations.rows.countP CheckerValidation.offlineQueued

/-- The receipts that say applied. -/
def Db.appliedReceipts (db : Db) : ℕ :=
  db.receipts.table.rows.countP fun r => r.status == .applied

/-- A change that gives a receipt to `uuid` or to none, and an offline validation with each receipt
that says applied. -/
structure Settles (uuid : ℕ) (db db' : Db) : Prop where
  stays : ∀ u, db.receipts.has u = true → db'.receipts.has u = true
  only : ∀ u, db'.receipts.has u = true → db.receipts.has u = true ∨ u = uuid
  balance : db'.offlineValidations + db.appliedReceipts =
    db.offlineValidations + db'.appliedReceipts

/-- The result is for `uuid`, which has had its receipt after one of the statements. -/
def Told (uuid : ℕ) (H : List (Db × Db)) (result : ReplayResult) : Prop :=
  result.uuid = some uuid ∧ ∃ st ∈ H, st.2.receipts.has uuid = true

section

variable {db db' : Db} {user uuid : ℕ} {status : ReceiptStatus} {reason : Option ReplayReason}

theorem Settles.of_eq (hreceipts : db'.receipts = db.receipts)
    (hvalidations : db'.offlineValidations = db.offlineValidations) : Settles uuid db db' where
  stays u h := hreceipts ▸ h
  only u h := .inl (hreceipts ▸ h)
  balance := by rw [hvalidations, Db.appliedReceipts, Db.appliedReceipts, hreceipts]

theorem Settles.refl (uuid : ℕ) (db : Db) : Settles uuid db db := .of_eq rfl rfl

/-- The offline validations that go with a receipt. -/
def ReceiptStatus.effects (status : ReceiptStatus) : ℕ := if status = .applied then 1 else 0

/-- A receipt for the uuid with what goes with it. -/
theorem Settles.of_insert
    (htable : db'.receipts.table =
      db.receipts.table.insert fun pk => ⟨pk, uuid, user, status, reason⟩)
    (hvalidations : db'.offlineValidations = db.offlineValidations + status.effects) :
    Settles uuid db db' := by
  have hhas : ∀ u, db'.receipts.has u = true ↔ db.receipts.has u = true ∨ u = uuid := by
    intro u
    rw [ReceiptTable.has_iff, ReceiptTable.has_iff, htable]
    constructor
    · rintro ⟨r, hr, rfl⟩
      rcases Table.mem_insert.mp hr with hr | rfl
      · exact .inl ⟨r, hr, rfl⟩
      · exact .inr rfl
    · rintro (⟨r, hr, hid⟩ | rfl)
      · exact ⟨r, Table.mem_insert.mpr (.inl hr), hid⟩
      · exact ⟨_, Table.mem_insert.mpr (.inr rfl), rfl⟩
  refine ⟨fun u h => (hhas u).mpr (.inl h), fun u h => (hhas u).mp h, ?_⟩
  have hcount : db'.appliedReceipts = db.appliedReceipts + status.effects := by
    rw [Db.appliedReceipts, htable, Table.rows_insert, List.countP_append]
    cases status <;> rfl
  rw [hvalidations, hcount]
  omega

/-- The program settles nothing but the uuid, and its result satisfies `Q`. -/
abbrev SettlesWith {α : Type} (uuid : ℕ) (Q : List (Db × Db) → α → Prop) (p : M α) : Prop :=
  ∀ H, p.Ensures (fun _ => Settles uuid) Q H

/-- The program settles nothing but the uuid. -/
abbrev SettlesOnly {α : Type} (uuid : ℕ) (p : M α) : Prop := SettlesWith uuid (fun _ _ => True) p

theorem SettlesOnly.bind {α β : Type} {Q : List (Db × Db) → β → Prop} {p : M α} {f : α → M β}
    (hp : SettlesOnly uuid p) (hf : ∀ a, SettlesWith uuid Q (f a)) :
    SettlesWith uuid Q (p >>= f) :=
  fun H => (hp H).bind fun a H' _ => hf a H'

theorem settlesOnly_pure {α : Type} (a : α) : SettlesOnly uuid (pure a : M α) := fun _ => trivial

theorem settles_raise {α : Type} {Q : List (Db × Db) → α → Prop} (e : Err) :
    SettlesWith uuid Q (.raise e : M α) := fun _ => trivial

theorem settlesOnly_select {α : Type} (g : Db → α) : SettlesOnly uuid (Prog.select g : M α) :=
  fun _ db => ⟨.refl uuid db, trivial⟩

theorem settlesOnly_cache {g : Db → List CacheEntry} :
    SettlesOnly uuid (Prog.modify fun db => { db with cache := g db } : M Unit) :=
  fun _ _ => ⟨.of_eq rfl rfl, trivial⟩

theorem settlesOnly_replayManualCodeAllowed (now : ℤ) :
    SettlesOnly uuid (replayManualCodeAllowed user now) := by
  refine (settlesOnly_select _).bind fun limit => settlesOnly_cache.bind fun _ =>
    (settlesOnly_select _).bind fun count => ?_
  split
  · exact settlesOnly_pure _
  · exact settlesOnly_cache.bind fun _ => settlesOnly_pure _

theorem settlesOnly_roomFromReplayToken (item : ReplayItem) :
    SettlesOnly uuid (roomFromReplayToken item) := by
  unfold roomFromReplayToken
  split
  · exact settlesOnly_pure _
  · refine (settlesOnly_select _).bind fun found => ?_
    cases found with
    | some room => exact settlesOnly_pure _
    | none =>
      dsimp only
      split
      · exact settlesOnly_select _
      · exact settlesOnly_pure _

theorem settlesOnly_parseScannedAt (item : ReplayItem) (now : ℤ) :
    SettlesOnly uuid (parseScannedAt item now) := by
  unfold parseScannedAt
  split
  · exact settles_raise _
  · exact settlesOnly_pure _

theorem settlesOnly_expectedSession (item : ReplayItem) (room : Room) (scannedAt : ℤ) :
    SettlesOnly uuid (expectedSession item room scannedAt) := by
  unfold expectedSession
  split
  · exact settlesOnly_pure _
  · exact settles_raise _
  · refine (settlesOnly_select _).bind fun overflows => ?_
    cases overflows with
    | true => exact settles_raise _
    | false => exact settlesOnly_select _
  · exact settlesOnly_pure _

/-- The transaction of an item leaves the uuid with a receipt. -/
theorem settles_claiming {effect : M Unit}
    (heffect : ∀ db, ∃ db', effect.run db = (.ok (), db') ∧ db'.receipts = db.receipts ∧
      db'.offlineValidations = db.offlineValidations + status.effects) :
    SettlesWith uuid (fun H (_ : Bool) => ∃ st ∈ H, st.2.receipts.has uuid = true)
      (claiming user uuid status reason effect) := by
  intro H
  refine Prog.ensures_whole fun db => ?_
  rw [← Prog.run_whole]
  change Settles uuid db ((claiming user uuid status reason effect).run db).2 ∧
    ∀ b, ((claiming user uuid status reason effect).run db).1 = .ok b →
      ∃ st ∈ H ++ [(db, ((claiming user uuid status reason effect).run db).2)],
        st.2.receipts.has uuid = true
  rcases run_claiming heffect user uuid status reason db with
    ⟨hhas, hrun⟩ | ⟨-, receipts, db', htable, ⟨hreceipts, hvalidations⟩, hrun⟩
  · rw [hrun]
    exact ⟨.refl uuid db, fun _ _ => ⟨(db, db), by simp, hhas⟩⟩
  · rw [hrun]
    have htable' : db'.receipts.table =
        db.receipts.table.insert fun pk => ⟨pk, uuid, user, status, reason⟩ := by
      rw [hreceipts]
      exact htable
    refine ⟨.of_insert htable' hvalidations, fun _ _ => ⟨(db, db'), by simp, ?_⟩⟩
    rw [ReceiptTable.has_iff, htable']
    exact ⟨_, Table.mem_insert.mpr (.inr rfl), rfl⟩

/-- A transaction whose effect raises leaves no trace. -/
theorem settles_claiming_raise (e : Err) :
    SettlesWith uuid (fun H (_ : Bool) => ∃ st ∈ H, st.2.receipts.has uuid = true)
      (claiming user uuid status reason (.raise e)) := by
  intro H
  refine Prog.ensures_whole fun db => ?_
  rw [← Prog.run_whole]
  change Settles uuid db ((claiming user uuid status reason (.raise e)).run db).2 ∧
    ∀ b, ((claiming user uuid status reason (.raise e)).run db).1 = .ok b →
      ∃ st ∈ H ++ [(db, ((claiming user uuid status reason (.raise e)).run db).2)],
        st.2.receipts.has uuid = true
  rw [run_claiming_raise]
  refine ⟨.refl uuid db, fun b hb => ⟨(db, db), by simp, ?_⟩⟩
  cases hhas : db.receipts.has uuid with
  | true => rfl
  | false =>
    rw [hhas, if_neg Bool.false_ne_true] at hb
    cases hb

/-- The result of a claimed item is told. -/
theorem SettlesWith.told {p : M Bool} {status : ReplayStatus}
    (hp : SettlesWith uuid (fun H _ => ∃ st ∈ H, st.2.receipts.has uuid = true) p) :
    SettlesWith uuid (Told uuid) (p >>= fun claimed =>
      pure (claimResult uuid status reason claimed)) :=
  fun H => (hp H).bind fun claimed H' hhas => by
    refine ⟨?_, hhas⟩
    cases claimed <;> rfl

theorem told_replayFlagged {reason : ReplayReason} {effect : M Unit}
    (heffect : ∀ db, ∃ db', effect.run db = (.ok (), db') ∧
      db'.receipts = db.receipts ∧ db'.validations = db.validations) :
    SettlesWith uuid (Told uuid) (replayFlagged user uuid reason effect) := by
  refine (settles_claiming fun db => ?_).told
  obtain ⟨db', hrun, hreceipts, hvalidations⟩ := heffect db
  exact ⟨db', hrun, hreceipts, by rw [Db.offlineValidations, hvalidations]; rfl⟩

theorem told_replayConflict (action : ReplayAction) (session : Option Session)
    (room : Option Room) (reason : ReplayReason) :
    SettlesWith uuid (Told uuid)
      (replayFlagged user uuid reason (replayConflict user uuid action session room reason)) :=
  told_replayFlagged fun _ => ⟨_, rfl, rfl, rfl⟩

theorem told_replayApplied (item : ReplayItem) (action : ValidationAction)
    (session : Option Session) (room : Room) (scannedAt : ℤ) :
    SettlesWith uuid (Told uuid) (replayApplied user uuid item action session room scannedAt) := by
  unfold replayApplied applyOffline
  split
  case isFalse => exact (settles_claiming_raise _).told
  refine (settles_claiming fun db => ?_).told
  obtain ⟨notices, hrun⟩ := run_applyRoomAction user session room action item.note
    action.identityMatch scannedAt true db
  refine ⟨_, hrun, rfl, ?_⟩
  rw [Db.offlineValidations, Table.rows_insert, List.countP_append]
  rfl

theorem told_replayScan (item : ReplayItem) (now today : ℤ) :
    SettlesWith uuid (Told uuid) (replayScan user uuid item now today) := by
  refine (settlesOnly_roomFromReplayToken item).bind fun found =>
    (settlesOnly_parseScannedAt item now).bind fun scannedAt => ?_
  cases found with
  | none => exact told_replayConflict _ _ _ _
  | some room =>
    refine (settlesOnly_select _).bind fun found => (settlesOnly_select _).bind fun floors =>
      (settlesOnly_expectedSession item room scannedAt).bind fun expected => ?_
    dsimp only
    split
    · exact told_replayApplied _ _ _ _ _
    · exact settles_raise _
    · exact told_replayConflict _ _ _ _

/-- Every statement of the handling of an item settles nothing but its uuid, and a result is only
given when the uuid has its receipt. -/
theorem ensures_replayItem_told {item : ReplayItem} (hitem : item.clientUuid = some uuid)
    (now today : ℤ) : SettlesWith uuid (Told uuid) (replayItem user item now today) := by
  intro H
  unfold replayItem
  rw [hitem]
  refine Prog.ensures_select_bind.mpr fun db => ⟨.refl uuid db, ?_⟩
  cases hhas : db.receipts.has uuid with
  | true => exact ⟨rfl, (db, db), by simp, hhas⟩
  | false =>
    rw [if_neg Bool.false_ne_true]
    split
    · refine ((settlesOnly_replayManualCodeAllowed now).bind fun allowed => ?_) _
      split
      · exact told_replayScan item now today
      · exact told_replayFlagged fun _ => ⟨_, rfl, rfl, rfl⟩
    · exact told_replayScan item now today _

end

end FluxTrack
