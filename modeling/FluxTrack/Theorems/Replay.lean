import FluxTrack.Process.Interference
import FluxTrack.System
import FluxTrack.Web.RoomCheck

/-!
# Offline scans are applied once

Any number of workers, each with a batch of queued scans, that move one statement at a
time in any order. Every statement of the handling of an item touches the rate limit
only, or is the transaction that claims the uuid of the item: then it finds the uuid
claimed and writes nothing, or adds the receipt together with the effect. So a uuid has
at most one receipt and at most one validation, and it has a validation exactly if its
receipt says that it was applied.

## Main definitions

* `ReplayMove` — what a statement of the handling of an item can do
* `Worker`, `ReplayWorld`, `ReplayWorld.step` — batches in progress; a world also keeps
  the validations made for each uuid

## Main results

* `ensures_replayItem` — the statements of an item
* `replay_exactly_once` — every interleaving of any batches
-/

namespace FluxTrack

open Calendar Relational Process

/-! ### Receipts -/

namespace ReceiptTable

variable {t : ReceiptTable} {uuid checker : ℕ} {status : ReceiptStatus}
  {reason : Option ReplayReason}

/-- A receipt can be added exactly if its uuid is free. -/
theorem insert?_eq_none (h : t.has uuid = true) : t.insert? uuid checker status reason = none := by
  obtain ⟨r, hr, rfl⟩ := has_iff.mp h
  refine dif_neg fun hnodup => ?_
  rw [Table.rows_insert, List.map_append, List.map_singleton] at hnodup
  exact List.disjoint_of_nodup_append hnodup (List.mem_map_of_mem hr) (List.mem_singleton.mpr rfl)

theorem insert?_eq_some (h : t.has uuid = false) (checker : ℕ) (status : ReceiptStatus)
    (reason : Option ReplayReason) :
    ∃ t', t.insert? uuid checker status reason = some t' ∧
      t'.table = t.table.insert fun pk => ⟨pk, uuid, checker, status, reason⟩ := by
  have hnodup : ((t.table.insert fun pk => ⟨pk, uuid, checker, status, reason⟩).rows.map
      CheckerReplayReceipt.clientUuid).Nodup := by
    rw [Table.rows_insert, List.map_append, List.map_singleton]
    refine t.uniqueUuid.append (List.nodup_singleton _) ?_
    rw [List.disjoint_singleton]
    intro hmem
    obtain ⟨r, hr, hid⟩ := List.mem_map.mp hmem
    rw [has_iff.mpr ⟨r, hr, hid⟩] at h
    cases h
  exact ⟨⟨_, hnodup⟩, dif_pos hnodup, rfl⟩

end ReceiptTable

/-! ### The statements of an item -/

/-- What a statement of the handling of `uuid` can do: touch the cache only, or claim a uuid
that is free, together with a new validation if it is applied. -/
inductive ReplayMove (uuid : ℕ) (db : Db) : Db → Prop
  | quiet (cache : List CacheEntry) : ReplayMove uuid db { db with cache := cache }
  | applied {db' : Db} (fresh : db.receipts.has uuid = false)
      (receipt : ∃ checker reason, db'.receipts.table =
        db.receipts.table.insert fun pk => ⟨pk, uuid, checker, .applied, reason⟩)
      (validation : ∃ mk hmk, db'.validations = db.validations.insert mk hmk) :
      ReplayMove uuid db db'
  | flagged {db' : Db} (fresh : db.receipts.has uuid = false)
      (receipt : ∃ checker reason, db'.receipts.table =
        db.receipts.table.insert fun pk => ⟨pk, uuid, checker, .flagged, reason⟩)
      (validation : db'.validations = db.validations) : ReplayMove uuid db db'

/-- Nothing is touched. -/
theorem ReplayMove.refl (uuid : ℕ) (db : Db) : ReplayMove uuid db db := .quiet db.cache

section

variable {db : Db} {user uuid : ℕ} {status : ReceiptStatus} {reason : Option ReplayReason}

theorem run_claimReplayReceipt_of_has (h : db.receipts.has uuid = true) :
    (claimReplayReceipt user uuid status reason).run db = (.ok false, db) := by
  have hcreate : (createReceipt uuid user status reason).run db = (.error .integrity, db) := by
    rw [createReceipt, Prog.run_modifyGet_bind, ReceiptTable.insert?_eq_none h]
    rfl
  rw [claimReplayReceipt, Prog.run_elim, Prog.run_atomic_of_error hcreate]
  rfl

theorem run_claimReplayReceipt {receipts : ReceiptTable}
    (h : db.receipts.insert? uuid user status reason = some receipts) :
    (claimReplayReceipt user uuid status reason).run db =
      (.ok true, { db with receipts := receipts }) := by
  have hcreate : (createReceipt uuid user status reason).run db =
      (.ok (), { db with receipts := receipts }) := by
    rw [createReceipt, Prog.run_modifyGet_bind, h]
    rfl
  rw [claimReplayReceipt, Prog.run_elim, Prog.run_atomic_of_ok hcreate]
  rfl

/-- The transaction of an item writes nothing if the uuid is claimed, and otherwise the
receipt and the effect. -/
theorem run_claiming {effect : M Unit} {E : Db → Db → Prop}
    (heffect : ∀ db, ∃ db', effect.run db = (.ok (), db') ∧ E db db') (user uuid : ℕ)
    (status : ReceiptStatus) (reason : Option ReplayReason) (db : Db) :
    (db.receipts.has uuid = true ∧
      (claiming user uuid status reason effect).run db = (.ok false, db)) ∨
    (db.receipts.has uuid = false ∧ ∃ (receipts : ReceiptTable) (db' : Db),
      receipts.table = (db.receipts.table.insert fun pk => ⟨pk, uuid, user, status, reason⟩) ∧
      E { db with receipts := receipts } db' ∧
      (claiming user uuid status reason effect).run db = (.ok true, db')) := by
  rw [claiming, Prog.run_whole]
  cases hhas : db.receipts.has uuid with
  | true =>
    refine .inl ⟨rfl, Prog.run_atomic_of_ok ?_⟩
    exact Prog.run_bind_of_ok (run_claimReplayReceipt_of_has hhas)
  | false =>
    obtain ⟨receipts, hinsert, htable⟩ := ReceiptTable.insert?_eq_some hhas user status reason
    obtain ⟨db', hrun, hE⟩ := heffect { db with receipts := receipts }
    refine .inr ⟨rfl, receipts, db', htable, hE, Prog.run_atomic_of_ok ?_⟩
    refine (Prog.run_bind_of_ok (run_claimReplayReceipt hinsert)).trans ?_
    exact Prog.run_bind_of_ok hrun

/-- Every statement is one that the handling of the uuid can make. -/
abbrev Handles {α : Type} (uuid : ℕ) (p : M α) : Prop :=
  ∀ H, p.Ensures (fun _ => ReplayMove uuid) (fun _ _ => True) H

theorem handles_pure {α : Type} (a : α) : Handles uuid (pure a : M α) := fun _ => trivial

theorem handles_raise {α : Type} (e : Err) : Handles uuid (.raise e : M α) := fun _ => trivial

theorem Handles.bind {α β : Type} {p : M α} {f : α → M β} (hp : Handles uuid p)
    (hf : ∀ a, Handles uuid (f a)) : Handles uuid (p >>= f) :=
  fun H => (hp H).bind fun a H' _ => hf a H'

theorem handles_select {α : Type} (g : Db → α) : Handles uuid (Prog.select g : M α) :=
  fun _ db => ⟨.refl uuid db, trivial⟩

/-- A statement that touches the cache only. -/
theorem handles_cache {g : Db → List CacheEntry} :
    Handles uuid (Prog.modify fun db => { db with cache := g db } : M Unit) :=
  fun _ db => ⟨.quiet (g db), trivial⟩

/-- The transaction of an item, with an effect that does not raise. -/
theorem handles_claiming {effect : M Unit} {E : Db → Db → Prop}
    (heffect : ∀ db, ∃ db', effect.run db = (.ok (), db') ∧ E db db')
    (hmove : ∀ db db' (receipts : ReceiptTable), db.receipts.has uuid = false →
      receipts.table = (db.receipts.table.insert fun pk => ⟨pk, uuid, user, status, reason⟩) →
      E { db with receipts := receipts } db' → ReplayMove uuid db db') :
    Handles uuid (claiming user uuid status reason effect) := by
  intro H
  refine Prog.ensures_whole fun db => ⟨?_, fun _ _ => trivial⟩
  rw [← Prog.run_whole]
  change ReplayMove uuid db ((claiming user uuid status reason effect).run db).2
  rcases run_claiming heffect user uuid status reason db with
    ⟨-, hrun⟩ | ⟨hfresh, receipts, db', htable, hE, hrun⟩
  · rw [hrun]
    exact .refl uuid db
  · rw [hrun]
    exact hmove db db' receipts hfresh htable hE

/-- The transaction of an item whose effect raises leaves no trace. -/
theorem run_claiming_raise (e : Err) (user uuid : ℕ) (status : ReceiptStatus)
    (reason : Option ReplayReason) (db : Db) :
    (claiming user uuid status reason (.raise e)).run db =
      (if db.receipts.has uuid then .ok false else .error e, db) := by
  rw [claiming, Prog.run_whole]
  cases hhas : db.receipts.has uuid with
  | true =>
    rw [if_pos rfl]
    exact Prog.run_atomic_of_ok (Prog.run_bind_of_ok (run_claimReplayReceipt_of_has hhas))
  | false =>
    obtain ⟨receipts, hinsert, -⟩ := ReceiptTable.insert?_eq_some hhas user status reason
    rw [if_neg Bool.false_ne_true]
    exact Prog.run_atomic_of_error ((Prog.run_bind_of_ok (run_claimReplayReceipt hinsert)).trans rfl)

theorem handles_claiming_raise (e : Err) :
    Handles uuid (claiming user uuid status reason (.raise e)) := by
  intro H
  refine Prog.ensures_whole fun db => ⟨?_, fun _ _ => trivial⟩
  rw [← Prog.run_whole]
  change ReplayMove uuid db ((claiming user uuid status reason (.raise e)).run db).2
  rw [run_claiming_raise]
  exact .refl uuid db

theorem handles_replayFlagged {reason : ReplayReason} {effect : M Unit}
    (heffect : ∀ db, ∃ db', effect.run db = (.ok (), db') ∧
      db'.receipts = db.receipts ∧ db'.validations = db.validations) :
    Handles uuid (replayFlagged user uuid reason effect) := by
  refine (handles_claiming heffect fun db db' receipts hfresh htable hE => ?_).bind
    fun _ => handles_pure _
  refine .flagged hfresh ⟨user, some reason, ?_⟩ hE.2
  rw [hE.1]
  exact htable

/-- The effect of a room action: one validation with its audit row, and notifications. -/
theorem run_applyRoomAction (user : ℕ) (session : Option Session) (room : Room)
    (action : ValidationAction) (note : String) (identityMatch : Option Bool) (scannedAt : ℤ)
    (offline : Bool) (db : Db) :
    ∃ notices, (applyRoomAction user session room action note identityMatch scannedAt
        offline).run db = (.ok (), { db with
      validations := db.validations.insert fun pk => ⟨pk, session.map Session.id, room.id, user,
        action, identityMatch, note, some scannedAt, offline⟩
      audit := db.audit ++ [⟨some user, .checkerAction action (session.map Session.id) room.code
        offline false⟩]
      notifications := db.notifications ++ notices }) := by
  rw [applyRoomAction, Prog.run_modify_bind, createAudit, Prog.run_modify_bind]
  split
  · refine ⟨((db.usersOfRole .ifoAdmin).map fun u =>
        ⟨u, .checkerFlag room.code action (some user) note⟩) ++
      (db.usersOfRole .hrAdmin).map fun u => ⟨u, .checkerFlag room.code action none note⟩, ?_⟩
    rw [← List.append_assoc]
    rfl
  · exact ⟨[], by rw [List.append_nil]; rfl⟩

theorem handles_replayApplied (item : ReplayItem) (action : ValidationAction)
    (session : Option Session) (room : Room) (scannedAt : ℤ) :
    Handles uuid (replayApplied user uuid item action session room scannedAt) := by
  unfold replayApplied applyOffline
  split
  case isFalse => exact (handles_claiming_raise _).bind fun _ => handles_pure _
  refine (handles_claiming (E := fun db db' => db'.receipts = db.receipts ∧
    ∃ mk hmk, db'.validations = db.validations.insert mk hmk) (fun db => ?_)
    fun db db' receipts hfresh htable hE => ?_).bind fun _ => handles_pure _
  · obtain ⟨notices, hrun⟩ := run_applyRoomAction user session room action item.note
      action.identityMatch scannedAt true db
    exact ⟨_, hrun, rfl, fun pk => ⟨pk, session.map Session.id, room.id, user, action,
      action.identityMatch, item.note, some scannedAt, true⟩, fun _ => rfl, rfl⟩
  · refine .applied hfresh ⟨user, none, ?_⟩ hE.2
    rw [hE.1]
    exact htable

theorem handles_replayConflict (action : ReplayAction) (session : Option Session)
    (room : Option Room) (reason : ReplayReason) :
    Handles uuid (replayFlagged user uuid reason
      (replayConflict user uuid action session room reason)) :=
  handles_replayFlagged fun _ => ⟨_, rfl, rfl, rfl⟩

theorem handles_replayManualCodeAllowed (now : ℤ) :
    Handles uuid (replayManualCodeAllowed user now) := by
  refine (handles_select _).bind fun limit => handles_cache.bind fun _ =>
    (handles_select _).bind fun count => ?_
  split
  · exact handles_pure _
  · exact handles_cache.bind fun _ => handles_pure _

theorem handles_roomFromReplayToken (item : ReplayItem) :
    Handles uuid (roomFromReplayToken item) := by
  unfold roomFromReplayToken
  split
  · exact handles_pure _
  · refine (handles_select _).bind fun found => ?_
    cases found with
    | some room => exact handles_pure _
    | none =>
      dsimp only
      split
      · exact handles_select _
      · exact handles_pure _

theorem handles_parseScannedAt (item : ReplayItem) (now : ℤ) :
    Handles uuid (parseScannedAt item now) := by
  unfold parseScannedAt
  split
  · exact handles_raise _
  · exact handles_pure _

theorem handles_expectedSession (item : ReplayItem) (room : Room) (scannedAt : ℤ) :
    Handles uuid (expectedSession item room scannedAt) := by
  unfold expectedSession
  split
  · exact handles_pure _
  · exact handles_raise _
  · refine (handles_select _).bind fun overflows => ?_
    cases overflows with
    | true => exact handles_raise _
    | false => exact handles_select _
  · exact handles_pure _

theorem handles_replayScan (item : ReplayItem) (now today : ℤ) :
    Handles uuid (replayScan user uuid item now today) := by
  refine (handles_roomFromReplayToken item).bind fun found =>
    (handles_parseScannedAt item now).bind fun scannedAt => ?_
  cases found with
  | none => exact handles_replayConflict _ _ _ _
  | some room =>
    refine (handles_select _).bind fun found => (handles_select _).bind fun floors =>
      (handles_expectedSession item room scannedAt).bind fun expected => ?_
    dsimp only
    split
    · exact handles_replayApplied _ _ _ _ _
    · exact handles_raise _
    · exact handles_replayConflict _ _ _ _

/-- Every statement of the handling of an item touches the rate limit only, or is the one
transaction of the item. -/
theorem handles_replayItem {item : ReplayItem} (hitem : item.clientUuid = some uuid)
    (now today : ℤ) : Handles uuid (replayItem user item now today) := by
  unfold replayItem
  rw [hitem]
  refine (handles_select _).bind fun known => ?_
  split
  · exact handles_pure _
  · split
    · refine (handles_replayManualCodeAllowed now).bind fun allowed => ?_
      split
      · exact handles_replayScan item now today
      · exact handles_replayFlagged fun _ => ⟨_, rfl, rfl, rfl⟩
    · exact handles_replayScan item now today

end

/-! ### Batches in progress -/

/-- A batch in progress: the items that are left, the current one first, each with the date
read for it; what is left of the handling of the current one, once it has begun; and the
results so far. -/
structure Worker where
  user : ℕ
  now : ℤ
  todo : List (ReplayItem × ℤ)
  prog : Option (M ReplayResult)
  results : List ReplayResult

/-- A batch as it is posted. -/
structure Batch where
  user : ℕ
  now : ℤ
  items : List (ReplayItem × ℤ)

/-- A batch of which nothing has been handled. -/
def Batch.worker (b : Batch) : Worker := ⟨b.user, b.now, b.items, none, []⟩

/-- What is left of the handling of the current item. -/
def Worker.rest (w : Worker) (item : ReplayItem) (today : ℤ) : M ReplayResult :=
  w.prog.getD (replayItem w.user item w.now today)

/-- The keys of the validations that are new. -/
def newValidations (db db' : Db) : List ℕ :=
  (db'.validations.rows.map CheckerValidation.id).filter fun pk =>
    !(db.validations.rows.map CheckerValidation.id).contains pk

/-- The database, the batches in progress, and for each validation that was made while an
item was handled the uuid of that item. -/
structure ReplayWorld (ι : Type) where
  db : Db
  workers : ι → Worker
  made : List (ℕ × ℕ)

namespace ReplayWorld

variable {ι : Type} [DecidableEq ι]

/-- The world in which the batches are posted. -/
def start (db : Db) (made : List (ℕ × ℕ)) (batches : ι → Batch) : ReplayWorld ι :=
  ⟨db, fun i => (batches i).worker, made⟩

/-- Worker `i` goes on as `w`. -/
def put (W : ReplayWorld ι) (i : ι) (w : Worker) : ReplayWorld ι :=
  { W with workers := Function.update W.workers i w }

/-- Worker `i` makes one move in the handling of an item of which `p` is left, with `items`
after it: a statement, or the step to the next item. A batch that raises is given up. -/
def advance (W : ReplayWorld ι) (i : ι) (item : ReplayItem) (items : List (ReplayItem × ℤ)) :
    M ReplayResult → ReplayWorld ι
  | .ret result =>
    W.put i { W.workers i with
      todo := items, prog := none, results := (W.workers i).results ++ [result] }
  | .raise _ => W.put i { W.workers i with todo := [], prog := none }
  | .stmt u k =>
    { db := u W.db
      workers := Function.update W.workers i { W.workers i with prog := some (k W.db) }
      made := W.made ++ item.clientUuid.toList.flatMap fun uuid =>
        (newValidations W.db (u W.db)).map fun pk => (uuid, pk) }
  -- The transaction of an item is one statement, so no block is open between two moves.
  | .mark _ k => W.put i { W.workers i with prog := some k }
  | .rollback _ k => W.put i { W.workers i with prog := some k }

/-- Worker `i` makes one move, unless its batch is done. -/
def step (W : ReplayWorld ι) (i : ι) : ReplayWorld ι :=
  match (W.workers i).todo with
  | [] => W
  | (item, today) :: items => W.advance i item items ((W.workers i).rest item today)

/-- The workers move in the order of a schedule. -/
def exec (W : ReplayWorld ι) (schedule : List ι) : ReplayWorld ι := schedule.foldl step W

variable {W : ReplayWorld ι} {i : ι} {item : ReplayItem} {today : ℤ}
  {items : List (ReplayItem × ℤ)}

theorem step_of_nil (h : (W.workers i).todo = []) : W.step i = W := by
  rw [step, h]

theorem step_of_cons (h : (W.workers i).todo = (item, today) :: items) :
    W.step i = W.advance i item items ((W.workers i).rest item today) := by
  rw [step, h]

/-- A move is made by one worker only. -/
theorem step_workers_of_ne {j : ι} (h : i ≠ j) : (W.step j).workers i = W.workers i := by
  cases htodo : (W.workers j).todo with
  | nil => rw [step_of_nil htodo]
  | cons head items =>
    rw [step_of_cons htodo]
    cases (W.workers j).rest head.1 head.2 <;> exact Function.update_of_ne h _ _

/-- A worker that does not move stays where it is. -/
theorem exec_workers_of_notMem {schedule : List ι} (h : i ∉ schedule) :
    (W.exec schedule).workers i = W.workers i := by
  induction schedule generalizing W with
  | nil => rfl
  | cons j schedule ih =>
    rw [List.mem_cons, not_or] at h
    exact (ih h.2).trans (step_workers_of_ne h.1)

/-- The receipts and the validations made for them agree: no uuid has two validations, a uuid
has one exactly if its receipt says applied, and it is there. -/
structure Settled (W : ReplayWorld ι) : Prop where
  once : (W.made.map Prod.fst).Nodup
  applied : ∀ uuid, uuid ∈ W.made.map Prod.fst ↔
    ∃ r ∈ W.db.receipts.table, r.clientUuid = uuid ∧ r.status = .applied
  there : ∀ uuid pk, (uuid, pk) ∈ W.made → ∃ v ∈ W.db.validations, v.id = pk

/-- Every batch is at a point of the handling of its current item; an item without a uuid is
handled without a statement. -/
structure Handling (W : ReplayWorld ι) : Prop where
  known : ∀ i item today items uuid, (W.workers i).todo = (item, today) :: items →
    item.clientUuid = some uuid →
    ∃ H, ((W.workers i).rest item today).Ensures (fun _ => ReplayMove uuid) (fun _ _ => True) H
  unknown : ∀ i item today items, (W.workers i).todo = (item, today) :: items →
    item.clientUuid = none → (W.workers i).prog = none

omit [DecidableEq ι] in
theorem handling_start (db : Db) (made : List (ℕ × ℕ)) (batches : ι → Batch) :
    (start db made batches).Handling where
  known _ _ _ _ _ _ hitem := ⟨[], handles_replayItem hitem _ _ []⟩
  unknown _ _ _ _ _ _ := rfl

/-- A batch that is at a point of its handling may take the place of another. -/
theorem Handling.put (h : W.Handling) {w : Worker}
    (hknown : ∀ item today items uuid, w.todo = (item, today) :: items →
      item.clientUuid = some uuid →
      ∃ H, (w.rest item today).Ensures (fun _ => ReplayMove uuid) (fun _ _ => True) H)
    (hunknown : ∀ item today items, w.todo = (item, today) :: items →
      item.clientUuid = none → w.prog = none) {W' : ReplayWorld ι}
    (hW' : W'.workers = Function.update W.workers i w) : W'.Handling where
  known j item today items uuid := by
    rw [hW']
    by_cases hij : j = i
    · subst hij
      rw [Function.update_self]
      exact hknown item today items uuid
    · rw [Function.update_of_ne hij]
      exact h.known j item today items uuid
  unknown j item today items := by
    rw [hW']
    by_cases hij : j = i
    · subst hij
      rw [Function.update_self]
      exact hunknown item today items
    · rw [Function.update_of_ne hij]
      exact h.unknown j item today items

omit [DecidableEq ι] in
/-- The handling of an item without a uuid is a result. -/
theorem rest_of_unknown (h : W.Handling) (htodo : (W.workers i).todo = (item, today) :: items)
    (hitem : item.clientUuid = none) :
    (W.workers i).rest item today = .ret ⟨none, .flagged, some .badPayload⟩ := by
  rw [Worker.rest, h.unknown i item today items htodo hitem, Option.getD_none, replayItem, hitem]
  rfl

/-- What a move of worker `i` can be. -/
inductive Moved (W : ReplayWorld ι) (i : ι) : ReplayWorld ι → Prop
  | stays (w : Worker) : Moved W i (W.put i w)
  | ended (htodo : (W.workers i).todo = []) : Moved W i W
  | stmt {item : ReplayItem} {today : ℤ} {items : List (ReplayItem × ℤ)} {uuid : ℕ} {db' : Db}
      (htodo : (W.workers i).todo = (item, today) :: items) (hitem : item.clientUuid = some uuid)
      (hmove : ReplayMove uuid W.db db') (w : Worker) :
      Moved W i ⟨db', Function.update W.workers i w,
        W.made ++ (newValidations W.db db').map fun pk => (uuid, pk)⟩

/-- A batch that goes to its next item is at a point of its handling. -/
theorem Handling.next (h : W.Handling) (i : ι) (w : Worker) (hw : w.prog = none) :
    (W.put i w).Handling := by
  refine h.put (i := i) (w := w) (fun item today items uuid _ hitem => ⟨[], ?_⟩)
    (fun _ _ _ _ _ => hw) rfl
  rw [Worker.rest, hw]
  exact handles_replayItem hitem _ _ []

/-- A batch that goes on with its current item is at a point of its handling. -/
theorem Handling.goOn (h : W.Handling) {uuid : ℕ} {k : M ReplayResult} {H : List (Db × Db)}
    (htodo : (W.workers i).todo = (item, today) :: items) (hitem : item.clientUuid = some uuid)
    (hk : k.Ensures (fun _ => ReplayMove uuid) (fun _ _ => True) H) {W' : ReplayWorld ι}
    (hW' : W'.workers = Function.update W.workers i { W.workers i with prog := some k }) :
    W'.Handling := by
  refine h.put (i := i) (fun item' today' items' uuid' htodo' hitem' => ⟨H, ?_⟩)
    (fun item' today' items' htodo' hitem' => ?_) hW'
  · cases htodo.symm.trans htodo'
    cases hitem.symm.trans hitem'
    exact hk
  · cases htodo.symm.trans htodo'
    cases hitem.symm.trans hitem'

/-- A move keeps the batches at a point of their handling, and is a statement of the current
item or none. -/
theorem Handling.step (h : W.Handling) (i : ι) : (W.step i).Handling ∧ W.Moved i (W.step i) := by
  cases htodo : (W.workers i).todo with
  | nil =>
    rw [step_of_nil htodo]
    exact ⟨h, .ended htodo⟩
  | cons head items =>
    obtain ⟨item, today⟩ := head
    rw [step_of_cons htodo]
    cases hitem : item.clientUuid with
    | none =>
      rw [rest_of_unknown h htodo hitem]
      exact ⟨h.next i _ rfl, .stays _⟩
    | some uuid =>
      obtain ⟨H, hE⟩ := h.known i item today items uuid htodo hitem
      cases hrest : (W.workers i).rest item today with
      | ret result => exact ⟨h.next i _ rfl, .stays _⟩
      | raise e => exact ⟨h.next i _ rfl, .stays _⟩
      | stmt u k =>
        rw [hrest] at hE
        obtain ⟨hmove, hk⟩ := hE W.db
        refine ⟨h.goOn htodo hitem hk rfl, ?_⟩
        have hmade := Moved.stmt htodo hitem hmove { W.workers i with prog := some (k W.db) }
        rw [advance, hitem]
        simpa using hmade
      | mark m k =>
        rw [hrest] at hE
        exact ⟨h.goOn (k := k) htodo hitem hE rfl, .stays _⟩
      | rollback s₀ k =>
        rw [hrest] at hE
        exact ⟨h.goOn htodo hitem (Prog.Fails.ensures hE (H := H)) rfl, .stays _⟩

/-! ### Settlement -/

theorem newValidations_of_eq {db db' : Db} (h : db'.validations = db.validations) :
    newValidations db db' = [] := by
  rw [newValidations, h, List.filter_eq_nil_iff]
  simp

theorem newValidations_of_insert {db db' : Db} {mk : ℕ → CheckerValidation}
    {hmk : ∀ n, key (mk n) = n} (h : db'.validations = db.validations.insert mk hmk) :
    newValidations db db' = [db.validations.nextKey] := by
  have hold : (db.validations.rows.map CheckerValidation.id).filter
      (fun pk => !(db.validations.rows.map CheckerValidation.id).contains pk) = [] := by
    rw [List.filter_eq_nil_iff]
    simp
  have hnew : (db.validations.rows.map CheckerValidation.id).contains
      (mk db.validations.nextKey).id = false := by
    rw [show (mk db.validations.nextKey).id = db.validations.nextKey from hmk _,
      ← Bool.not_eq_true, List.contains_iff_mem]
    exact Table.nextKey_notMem
  rw [newValidations, h, Table.rows_insert, List.map_append, List.filter_append, hold]
  simp only [List.map_singleton, List.filter_singleton, hnew]
  exact congrArg (fun n => [n]) (hmk db.validations.nextKey)

omit [DecidableEq ι] in
/-- An item that is applied writes its receipt and its validation together. -/
theorem Settled.applied_item (h : W.Settled) {uuid : ℕ} {db' : Db} (workers : ι → Worker)
    (fresh : W.db.receipts.has uuid = false)
    (receipt : ∃ checker reason, db'.receipts.table =
      W.db.receipts.table.insert fun pk => ⟨pk, uuid, checker, .applied, reason⟩)
    (validation : ∃ mk hmk, db'.validations = W.db.validations.insert mk hmk) :
    Settled ⟨db', workers, W.made ++ (newValidations W.db db').map fun pk => (uuid, pk)⟩ := by
  obtain ⟨checker, reason, htable⟩ := receipt
  obtain ⟨mk, hmk, hval⟩ := validation
  rw [newValidations_of_insert hval]
  -- a validation made for the item before would have left a receipt
  have hfree : uuid ∉ W.made.map Prod.fst := fun hmem => by
    obtain ⟨r, hr, hid, -⟩ := (h.applied uuid).mp hmem
    rw [ReceiptTable.has_iff.mpr ⟨r, hr, hid⟩] at fresh
    cases fresh
  refine ⟨?_, fun u => ?_, fun u pk hmem => ?_⟩
  · simp only [List.map_append, List.map_singleton]
    refine h.once.append (List.nodup_singleton _) ?_
    rwa [List.disjoint_singleton]
  · simp only [List.map_append, List.map_singleton, List.mem_append, List.mem_singleton,
      h.applied u, htable, Table.mem_insert]
    constructor
    · rintro (⟨r, hr, hid, hstatus⟩ | rfl)
      · exact ⟨r, .inl hr, hid, hstatus⟩
      · exact ⟨_, .inr rfl, rfl, rfl⟩
    · rintro ⟨r, hr | rfl, hid, hstatus⟩
      · exact .inl ⟨r, hr, hid, hstatus⟩
      · exact .inr hid.symm
  · change ∃ v ∈ db'.validations, v.id = pk
    rw [hval]
    rcases List.mem_append.mp hmem with hold | hnew
    · obtain ⟨v, hv, hid⟩ := h.there u pk hold
      exact ⟨v, Table.mem_insert.mpr (.inl hv), hid⟩
    · cases List.mem_singleton.mp hnew
      exact ⟨_, Table.mem_insert.mpr (.inr rfl), hmk _⟩

omit [DecidableEq ι] in
/-- An item that is flagged writes its receipt alone. -/
theorem Settled.flagged_item (h : W.Settled) {uuid : ℕ} {db' : Db} (workers : ι → Worker)
    (receipt : ∃ checker reason, db'.receipts.table =
      W.db.receipts.table.insert fun pk => ⟨pk, uuid, checker, .flagged, reason⟩)
    (validation : db'.validations = W.db.validations) :
    Settled ⟨db', workers, W.made ++ (newValidations W.db db').map fun pk => (uuid, pk)⟩ := by
  obtain ⟨checker, reason, htable⟩ := receipt
  rw [newValidations_of_eq validation, List.map_nil, List.append_nil]
  refine ⟨h.once, fun u => ?_, fun u pk hmem => ?_⟩
  · simp only [h.applied u, htable, Table.mem_insert]
    constructor
    · rintro ⟨r, hr, hid, hstatus⟩
      exact ⟨r, .inl hr, hid, hstatus⟩
    · rintro ⟨r, hr | rfl, hid, hstatus⟩
      · exact ⟨r, hr, hid, hstatus⟩
      · cases hstatus
  · change ∃ v ∈ db'.validations, v.id = pk
    rw [validation]
    exact h.there u pk hmem

/-- A move keeps the receipts and the validations in agreement. -/
theorem Settled.moved {W' : ReplayWorld ι} (h : W.Settled) (hmoved : W.Moved i W') :
    W'.Settled := by
  cases hmoved with
  | stays w => exact ⟨h.once, h.applied, h.there⟩
  | ended htodo => exact h
  | @stmt item today items uuid db' htodo hitem hmove w =>
    cases hmove with
    | quiet cache =>
      have hvalidations : { W.db with cache := cache }.validations = W.db.validations := rfl
      rw [newValidations_of_eq hvalidations, List.map_nil, List.append_nil]
      exact ⟨h.once, h.applied, h.there⟩
    | applied fresh receipt validation => exact h.applied_item _ fresh receipt validation
    | flagged fresh receipt validation => exact h.flagged_item _ receipt validation

/-- A receipt stays. -/
theorem Moved.receipt {W' : ReplayWorld ι} (hmoved : W.Moved i W') {r : CheckerReplayReceipt}
    (hr : r ∈ W.db.receipts.table) : r ∈ W'.db.receipts.table := by
  cases hmoved with
  | stays w => exact hr
  | ended htodo => exact hr
  | @stmt item today items uuid db' htodo hitem hmove w =>
    cases hmove with
    | quiet cache => exact hr
    | applied fresh receipt validation =>
      obtain ⟨checker, reason, htable⟩ := receipt
      change r ∈ db'.receipts.table
      rw [htable]
      exact Table.mem_insert.mpr (.inl hr)
    | flagged fresh receipt validation =>
      obtain ⟨checker, reason, htable⟩ := receipt
      change r ∈ db'.receipts.table
      rw [htable]
      exact Table.mem_insert.mpr (.inl hr)

/-- Once its uuid has a receipt, an item touches the cache only. -/
theorem Moved.quiet {W' : ReplayWorld ι} (hmoved : W.Moved i W') {uuid : ℕ}
    (htodo : (W.workers i).todo = (item, today) :: items) (hitem : item.clientUuid = some uuid)
    (hhas : W.db.receipts.has uuid = true) : ∃ cache, W'.db = { W.db with cache := cache } := by
  cases hmoved with
  | stays w => exact ⟨W.db.cache, rfl⟩
  | ended htodo => exact ⟨W.db.cache, rfl⟩
  | stmt htodo' hitem' hmove w =>
    cases htodo.symm.trans htodo'
    cases hitem.symm.trans hitem'
    cases hmove with
    | quiet cache => exact ⟨cache, rfl⟩
    | applied fresh receipt validation =>
      rw [hhas] at fresh
      cases fresh
    | flagged fresh receipt validation =>
      rw [hhas] at fresh
      cases fresh

/-- A duplicate is found before anything is written. -/
theorem step_of_has (htodo : (W.workers i).todo = (item, today) :: items)
    (hbegin : (W.workers i).prog = none) {uuid : ℕ} (hitem : item.clientUuid = some uuid)
    (hhas : W.db.receipts.has uuid = true) :
    (W.step i).db = W.db ∧ (W.step i).workers i =
      { W.workers i with prog := some (.ret ⟨some uuid, .duplicate, none⟩) } := by
  rw [step_of_cons htodo, Worker.rest, hbegin, Option.getD_none, replayItem, hitem]
  refine ⟨rfl, ?_⟩
  change Function.update W.workers i _ i = _
  rw [Function.update_self]
  simp only [hhas]
  rfl

/-- A handling that is over is reported. -/
theorem step_of_ret (htodo : (W.workers i).todo = (item, today) :: items)
    {result : ReplayResult} (hprog : (W.workers i).prog = some (.ret result)) :
    (W.step i).db = W.db ∧
      ((W.step i).workers i).results = (W.workers i).results ++ [result] := by
  rw [step_of_cons htodo, Worker.rest, hprog, Option.getD_some]
  refine ⟨rfl, ?_⟩
  change (Function.update W.workers i _ i).results = _
  rw [Function.update_self]

/-- Once its uuid has a receipt, a submission reports a duplicate in its two moves, and
neither writes anything. -/
theorem duplicate_of_has (htodo : (W.workers i).todo = (item, today) :: items)
    (hbegin : (W.workers i).prog = none) {uuid : ℕ} (hitem : item.clientUuid = some uuid)
    (hhas : W.db.receipts.has uuid = true) {later : List ι} (hlater : i ∉ later) :
    (((W.step i).exec later).step i).db = ((W.step i).exec later).db ∧
      ((((W.step i).exec later).step i).workers i).results =
        (W.workers i).results ++ [⟨some uuid, .duplicate, none⟩] := by
  have hworker := exec_workers_of_notMem (W := W.step i) hlater
  rw [(step_of_has htodo hbegin hitem hhas).2] at hworker
  have htodo' : (((W.step i).exec later).workers i).todo = (item, today) :: items := by
    rw [hworker, htodo]
  have hstep := step_of_ret htodo' (congrArg Worker.prog hworker)
  rw [hworker] at hstep
  exact hstep

/-- The two invariants along a schedule, and the receipts that are there. -/
theorem exec_invariant (hsettled : W.Settled) (hhandling : W.Handling) (schedule : List ι) :
    (W.exec schedule).Settled ∧ (W.exec schedule).Handling ∧
      ∀ r ∈ W.db.receipts.table, r ∈ (W.exec schedule).db.receipts.table := by
  induction schedule generalizing W with
  | nil => exact ⟨hsettled, hhandling, fun _ hr => hr⟩
  | cons j schedule ih =>
    obtain ⟨hnext, hmoved⟩ := hhandling.step j
    obtain ⟨hsettled', hhandling', hreceipts⟩ := ih (hsettled.moved hmoved) hnext
    exact ⟨hsettled', hhandling', fun r hr => hreceipts r (hmoved.receipt hr)⟩

end ReplayWorld

/-- Replay is exactly-once. From a database in which the receipts and the validations made for
them agree, after any interleaving of any batches: a uuid has at most one receipt, which
stays; at most one validation has been made for it, and there is one exactly if the receipt
says applied; and once there is a receipt, a submission of the uuid writes nothing but the
rate limit, and one that only begins then has two moves, of which neither writes anything and
the second reports a duplicate, whatever the others do in between. -/
theorem replay_exactly_once {ι : Type} [DecidableEq ι] {db : Db} {made : List (ℕ × ℕ)}
    {batches : ι → Batch} (h : (ReplayWorld.start db made batches).Settled) (schedule : List ι) :
    let W := (ReplayWorld.start db made batches).exec schedule
    (∀ r ∈ W.db.receipts.table, ∀ r' ∈ W.db.receipts.table,
      r.clientUuid = r'.clientUuid → r = r') ∧
    (∀ r ∈ W.db.receipts.table, ∀ later, r ∈ (W.exec later).db.receipts.table) ∧
    (∀ uuid, (W.made.filter fun m => m.1 == uuid).length ≤ 1) ∧
    (∀ uuid, (∃ v ∈ W.db.validations, (uuid, v.id) ∈ W.made) ↔
      ∃ r ∈ W.db.receipts.table, r.clientUuid = uuid ∧ r.status = .applied) ∧
    ∀ i item today items uuid, (W.workers i).todo = (item, today) :: items →
      item.clientUuid = some uuid → W.db.receipts.has uuid = true →
      (∃ cache, (W.step i).db = { W.db with cache := cache }) ∧
      ((W.workers i).prog = none → (W.step i).db = W.db ∧ ∀ later, i ∉ later →
        (((W.step i).exec later).step i).db = ((W.step i).exec later).db ∧
        ((((W.step i).exec later).step i).workers i).results =
          (W.workers i).results ++ [⟨some uuid, .duplicate, none⟩]) := by
  intro W
  obtain ⟨hsettled, hhandling, -⟩ :=
    ReplayWorld.exec_invariant h (ReplayWorld.handling_start db made batches) schedule
  refine ⟨fun r hr r' hr' huuid => ?_, fun r hr later => ?_, fun uuid => ?_, fun uuid => ?_,
    fun i item today items uuid htodo hitem hhas => ⟨?_, fun hbegin => ?_⟩⟩
  · exact List.inj_on_of_nodup_map W.db.receipts.uniqueUuid hr hr' huuid
  · exact (ReplayWorld.exec_invariant hsettled hhandling later).2.2 r hr
  · have hcount := List.nodup_iff_count_le_one.mp hsettled.once uuid
    rwa [List.count_eq_countP, List.countP_map, List.countP_eq_length_filter] at hcount
  · rw [← hsettled.applied uuid]
    constructor
    · rintro ⟨v, -, hmem⟩
      exact List.mem_map_of_mem hmem
    · intro hmem
      obtain ⟨⟨u, pk⟩, hmade, rfl⟩ := List.mem_map.mp hmem
      obtain ⟨v, hv, rfl⟩ := hsettled.there u pk hmade
      exact ⟨v, hv, hmade⟩
  · exact (hhandling.step i).2.quiet htodo hitem hhas
  · exact ⟨(ReplayWorld.step_of_has htodo hbegin hitem hhas).1, fun later hlater =>
      ReplayWorld.duplicate_of_has htodo hbegin hitem hhas hlater⟩

namespace Campus

/-- A checker is on duty on the floor, and the eight o'clock class is running. -/
def checked : Db :=
  { ((World.start campus).step (scanAt 2 8 0 0)).db with
    assignments := ⟨[⟨1, 7, .checker, [1], .floor, none, none, none, some 1, true⟩], by decide⟩ }

/-- A queued scan that verifies the class. -/
def queuedScan : ReplayItem :=
  ⟨some 99, "qr-1", false, .absent, .known .verified, "", .time (wallClock monday 8 10 0)⟩

/-- The same batch posted twice. -/
def postedTwice : Fin 2 → Batch := fun _ => ⟨7, wallClock monday 8 30 0, [(queuedScan, monday)]⟩

/-- The two workers take turns. -/
def alternating : List (Fin 2) := (List.replicate 8 (List.finRange 2)).flatten

end Campus

/-- Two workers race for the same scan: it is applied once and reported as a duplicate to the
other. -/
theorem replay_exactly_once_race :
    let W := (ReplayWorld.start Campus.checked [] Campus.postedTwice).exec Campus.alternating
    (W.workers 0).results = [⟨some 99, .applied, none⟩] ∧
      (W.workers 1).results = [⟨some 99, .duplicate, none⟩] ∧
      (W.made.filter fun m => m.1 == 99).length ≤ 1 ∧
      ((∃ v ∈ W.db.validations, (99, v.id) ∈ W.made) ↔
        ∃ r ∈ W.db.receipts.table, r.clientUuid = 99 ∧ r.status = .applied) := by
  intro W
  have hsettled : (ReplayWorld.start Campus.checked [] Campus.postedTwice).Settled := by
    have hnone : Campus.checked.receipts.table.rows = [] := by decide +kernel
    refine ⟨List.nodup_nil, fun uuid => ⟨fun hmem => absurd hmem List.not_mem_nil, ?_⟩,
      fun uuid pk hmem => absurd hmem List.not_mem_nil⟩
    rintro ⟨r, hr, -⟩
    have hempty : (ReplayWorld.start Campus.checked [] Campus.postedTwice).db.receipts.table.rows
        = [] := hnone
    rw [← Table.mem_rows, hempty] at hr
    cases hr
  obtain ⟨-, -, honce, hiff, -⟩ := replay_exactly_once hsettled Campus.alternating
  exact ⟨by decide +kernel, by decide +kernel, honce 99, hiff 99⟩

end FluxTrack
