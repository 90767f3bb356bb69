import FluxTrack.Process.Delivery
import FluxTrack.Process.Runs
import FluxTrack.Theorems.ImportPreview
import FluxTrack.Theorems.OfflineReceipts
import FluxTrack.Web.OfflineQueue

/-!
# Offline scans from the browser to the record

The queue of every browser, the requests that post them and the server that handles these, item by
item and statement by statement, beside anything else the server does. Requests may be made from
several pages at once and be lost or cut off anywhere, and so may their answers. Seen from outside
this is delivery until there is a receipt.

## Main definitions

* `OfflineWorld`, `OfflineEvent`, `OfflineWorld.step` — the browsers and the server
* `OfflineWorld.post` — the delivery that this amounts to
* `OfflineWorld.Sound` — the invariant

## Main results

* `OfflineWorld.move_step` — every event is a move of the delivery
* `offline_scans_safe` — in every run no scan is lost, and none takes effect twice
-/

namespace FluxTrack

open Calendar Relational Process

/-! ### Browsers and server -/

/-- The browsers `δ` of the checkers and the server. -/
structure OfflineWorld (δ : Type) where
  /-- the database and the requests, by number, that the server handles -/
  server : ReplayWorld ℕ
  /-- the browser that waits for the answer to a request, and the number of its items -/
  waiting : ℕ → Option (δ × ℕ)
  /-- the number of the next request -/
  next : ℕ
  queues : δ → ScanQueue
  /-- the removals that an answer has begun -/
  removing : List (δ × String)
  /-- the scans recorded so far -/
  scans : List (δ × QueueRecord)

/-- What happens to a browser, to a request, or beside them. -/
inductive OfflineEvent (δ : Type)
  /-- a scan is made offline -/
  | scan (d : δ) (item : Capture) (uuid clock : String)
  /-- the queue is posted, by whoever is logged in; the dates are those read for the items -/
  | drain (d : δ) (user : ℕ) (now : ℤ) (today : ℕ → ℤ)
  /-- the server makes one move in a request -/
  | work (i : ℕ)
  /-- a request does not arrive, is refused or is cut off, and so is its answer -/
  | drop (i : ℕ)
  /-- the answer to a request that has been handled arrives -/
  | answer (i : ℕ)
  /-- a removal is carried out -/
  | remove (d : δ) (uuid : String)
  /-- the pages of a browser are closed -/
  | close (d : δ)
  /-- a statement of another request -/
  | other (u : Db → Db)

namespace OfflineWorld

variable {δ : Type} [DecidableEq δ]

/-- Empty queues, and no request. -/
def start (db : Db) : OfflineWorld δ where
  server := .start db [] fun _ => ⟨0, 0, []⟩
  waiting _ := none
  next := 0
  queues _ := ∅
  removing := []
  scans := []

section

variable (tables : TextTables) (parsers : ScanParsers)

/-- The items of a request as the server reads them. -/
def items (today : ℕ → ℤ) (body : List QueuedScan) : List (ReplayItem × ℤ) :=
  body.zipIdx.map fun p => (p.1.item tables parsers, today p.2)

/-- What an event does. -/
def step (W : OfflineWorld δ) : OfflineEvent δ → OfflineWorld δ
  | .scan d item uuid clock =>
    { W with
      queues := Function.update W.queues d (enqueue (W.queues d) item uuid clock)
      scans := W.scans ++ ((item.record? uuid clock).map fun r => (d, r)).toList }
  | .drain d user now today =>
    match drainBody (W.queues d) with
    | none => W
    | some body =>
      { W with
        server := W.server.put W.next (Batch.worker ⟨user, now, items tables parsers today body⟩)
        waiting := Function.update W.waiting W.next (some (d, body.length))
        next := W.next + 1 }
  | .work i => { W with server := W.server.step i }
  | .drop i =>
    { W with
      server := W.server.put i { W.server.workers i with todo := [], prog := none }
      waiting := Function.update W.waiting i none }
  | .answer i =>
    match W.waiting i with
    | none => W
    | some (d, n) =>
      if (W.server.workers i).todo = [] ∧ (W.server.workers i).results.length = n then
        { W with
          removing := W.removing ++
            (answeredUuids (W.server.workers i).results).map fun uuid => (d, uuid)
          waiting := Function.update W.waiting i none }
      -- a request that has raised is answered with an error
      else W
  | .remove d uuid =>
    if (d, uuid) ∈ W.removing then
      { W with queues := Function.update W.queues d (removeItem (W.queues d) uuid) }
    else W
  | .close d =>
    { W with
      waiting := fun i => (W.waiting i).filter fun p => p.1 != d
      removing := W.removing.filter fun p => p.1 != d }
  | .other u => { W with server := { W.server with db := u W.server.db } }

/-- The events in turn. -/
def run (W : OfflineWorld δ) (events : List (OfflineEvent δ)) : OfflineWorld δ :=
  events.foldl (step tables parsers) W

/-- The text of a uuid in the form in which it is read and written. -/
def Canonical (uuid : String) : Prop := ∃ n, parsers.uuid uuid = some n ∧ uuidText n = uuid

/-- The uuid of a scan has never been used, and other requests leave the receipts and the offline
validations alone. -/
def Admits (W : OfflineWorld δ) : OfflineEvent δ → Prop
  | .scan _ _ uuid _ =>
    Canonical parsers uuid ∧ (∀ s ∈ W.scans, s.2.clientUuid ≠ uuid) ∧
      ∀ n, W.server.db.receipts.has n = true → uuidText n ≠ uuid
  | .other u =>
    (u W.server.db).receipts = W.server.db.receipts ∧
      (u W.server.db).offlineValidations = W.server.db.offlineValidations
  | _ => True

end

/-! ### What the server has told -/

/-- A request is at a point of its handling: what it has answered so far has a receipt, the items
left are those of scans, and the current one is told when it is answered. -/
structure Served (item? : ReplayItem → Prop) (db : Db) (w : Worker) : Prop where
  results : ∀ r ∈ w.results, ∃ n, r.uuid = some n ∧ db.receipts.has n = true
  todo : ∀ p ∈ w.todo, item? p.1
  current : ∀ item today rest n, w.todo = (item, today) :: rest → item.clientUuid = some n →
    ∃ H, (w.rest item today).Ensures (fun _ => Settles n) (Told n) H ∧
      ∀ st ∈ H, ∀ u, st.2.receipts.has u = true → db.receipts.has u = true

variable {item? : ReplayItem → Prop} {db db' : Db} {w : Worker}

/-- The receipts stay, so what has been told stays true. -/
theorem Served.mono {item?' : ReplayItem → Prop} (h : Served item? db w)
    (hitem : ∀ item, item? item → item?' item)
    (hstays : ∀ u, db.receipts.has u = true → db'.receipts.has u = true) :
    Served item?' db' w where
  results r hr := by
    obtain ⟨n, hn, hhas⟩ := h.results r hr
    exact ⟨n, hn, hstays n hhas⟩
  todo p hp := hitem _ (h.todo p hp)
  current item today rest n htodo hn := by
    obtain ⟨H, hE, hH⟩ := h.current item today rest n htodo hn
    exact ⟨H, hE, fun st hst u hu => hstays u (hH st hst u hu)⟩

/-- A request that has nothing in progress. -/
theorem Served.of_none (hresults : ∀ r ∈ w.results, ∃ n, r.uuid = some n ∧
    db.receipts.has n = true) (htodo : ∀ p ∈ w.todo, item? p.1) (hprog : w.prog = none) :
    Served item? db w where
  results := hresults
  todo := htodo
  current item today rest n _ hn := by
    refine ⟨[], ?_, fun _ hst => absurd hst List.not_mem_nil⟩
    rw [Worker.rest, hprog]
    exact ensures_replayItem_told hn w.now today []

/-- The move of a request: it goes on, and settles nothing but the uuid of its current item. -/
theorem Served.step {server : ReplayWorld ℕ} {i : ℕ}
    (h : Served item? server.db (server.workers i))
    (hknown : ∀ item, item? item → ∃ n, item.clientUuid = some n) :
    Served item? (server.step i).db ((server.step i).workers i) ∧
      ((server.step i).db = server.db ∨
        ∃ item n, item? item ∧ item.clientUuid = some n ∧
          Settles n server.db (server.step i).db) := by
  cases htodo : (server.workers i).todo with
  | nil =>
    rw [ReplayWorld.step_of_nil htodo]
    exact ⟨h, .inl rfl⟩
  | cons head rest =>
    obtain ⟨item, today⟩ := head
    have hitem : item? item := h.todo (item, today) (by rw [htodo]; exact List.mem_cons_self)
    have hrest : ∀ p ∈ rest, item? p.1 := fun p hp =>
      h.todo p (by rw [htodo]; exact List.mem_cons_of_mem _ hp)
    obtain ⟨n, hn⟩ := hknown item hitem
    obtain ⟨H, hE, hH⟩ := h.current item today rest n htodo hn
    rw [ReplayWorld.step_of_cons htodo]
    -- the program that is left of the item decides what the move is
    cases hprog : (server.workers i).rest item today with
    | ret result =>
      rw [hprog] at hE
      obtain ⟨huuid, st, hst, hhas⟩ := hE
      refine ⟨?_, .inl rfl⟩
      change Served item? server.db (Function.update server.workers i _ i)
      rw [Function.update_self]
      refine .of_none (fun r hr => ?_) hrest rfl
      rcases List.mem_append.mp hr with hr | hr
      · exact h.results r hr
      · rw [List.mem_singleton.mp hr]
        exact ⟨n, huuid, hH st hst n hhas⟩
    | raise e =>
      refine ⟨?_, .inl rfl⟩
      change Served item? server.db (Function.update server.workers i _ i)
      rw [Function.update_self]
      exact .of_none h.results (fun _ hp => absurd hp List.not_mem_nil) rfl
    | stmt u k =>
      rw [hprog] at hE
      obtain ⟨hsettles, hk⟩ := hE server.db
      refine ⟨?_, .inr ⟨item, n, hitem, hn, hsettles⟩⟩
      change Served item? (u server.db) (Function.update server.workers i _ i)
      rw [Function.update_self]
      refine ⟨fun r hr => ?_, h.todo, fun item' today' rest' n' htodo' hn' => ?_⟩
      · obtain ⟨m, hm, hhas⟩ := h.results r hr
        exact ⟨m, hm, hsettles.stays m hhas⟩
      · cases htodo.symm.trans htodo'
        cases hn.symm.trans hn'
        refine ⟨H ++ [(server.db, u server.db)], hk, fun st hst v hv => ?_⟩
        rcases List.mem_append.mp hst with hst | hst
        · exact hsettles.stays v (hH st hst v hv)
        · rw [List.mem_singleton.mp hst] at hv
          exact hv
    | mark m k =>
      rw [hprog] at hE
      refine ⟨?_, .inl rfl⟩
      change Served item? server.db (Function.update server.workers i _ i)
      rw [Function.update_self]
      refine ⟨h.results, h.todo, fun item' today' rest' n' htodo' hn' => ?_⟩
      cases htodo.symm.trans htodo'
      cases hn.symm.trans hn'
      exact ⟨H, hE, hH⟩
    | rollback s₀ k =>
      rw [hprog] at hE
      refine ⟨?_, .inl rfl⟩
      change Served item? server.db (Function.update server.workers i _ i)
      rw [Function.update_self]
      refine ⟨h.results, h.todo, fun item' today' rest' n' htodo' hn' => ?_⟩
      cases htodo.symm.trans htodo'
      cases hn.symm.trans hn'
      exact ⟨H, Prog.Fails.ensures hE, hH⟩

/-! ### The delivery -/

/-- The item is what is read of a scan recorded so far. -/
def Recorded (tables : TextTables) (parsers : ScanParsers) (W : OfflineWorld δ)
    (item : ReplayItem) : Prop :=
  ∃ s ∈ W.scans, item = s.2.posted.item tables parsers

/-- What the browsers keep, what has a receipt, and what they know of it. -/
def post (W : OfflineWorld δ) : Post δ String where
  accepted := {p | ∃ s ∈ W.scans, (s.1, s.2.clientUuid) = p}
  outbox := {p | ∃ r, (W.queues p.1).lookup p.2 = some r}
  receipts := {uuid | ∃ n, W.server.db.receipts.has n = true ∧ uuidText n = uuid}
  told := {p | p ∈ W.removing}

/-- The requests are served, and the queues hold scans recorded so far under their uuids. -/
structure Coherent (tables : TextTables) (parsers : ScanParsers) (W : OfflineWorld δ) : Prop where
  served : ∀ i, Served (Recorded tables parsers W) W.server.db (W.server.workers i)
  queued : ∀ d uuid r, (W.queues d).lookup uuid = some r → r.clientUuid = uuid ∧ (d, r) ∈ W.scans
  canonical : ∀ s ∈ W.scans, Canonical parsers s.2.clientUuid
  distinct : (W.scans.map fun s => s.2.clientUuid).Nodup

section

variable {tables : TextTables} {parsers : ScanParsers} {W : OfflineWorld δ}

omit [DecidableEq δ] in
theorem coherent_start (db : Db) : Coherent tables parsers (start db : OfflineWorld δ) where
  served _ := .of_none (fun _ h => absurd h List.not_mem_nil) (fun _ h => absurd h List.not_mem_nil)
    rfl
  queued _ _ _ h := by cases h
  canonical _ h := absurd h List.not_mem_nil
  distinct := List.nodup_nil

omit [DecidableEq δ] in
/-- The uuid of an item that is posted is the one of its scan. -/
theorem Coherent.clientUuid (h : Coherent tables parsers W) {s : δ × QueueRecord}
    (hs : s ∈ W.scans) : ∃ n, (s.2.posted.item tables parsers).clientUuid = some n ∧
      uuidText n = s.2.clientUuid :=
  h.canonical s hs

omit [DecidableEq δ] in
theorem Coherent.known (h : Coherent tables parsers W) (item : ReplayItem)
    (hitem : Recorded tables parsers W item) : ∃ n, item.clientUuid = some n := by
  obtain ⟨s, hs, rfl⟩ := hitem
  obtain ⟨n, hn, -⟩ := h.clientUuid hs
  exact ⟨n, hn⟩

omit [DecidableEq δ] in
/-- The items of a posted queue are those of scans. -/
theorem Coherent.recorded_items (h : Coherent tables parsers W) {d : δ} {body : List QueuedScan}
    (hbody : drainBody (W.queues d) = some body) (today : ℕ → ℤ) :
    ∀ p ∈ items tables parsers today body, Recorded tables parsers W p.1 := by
  rintro p hp
  obtain ⟨⟨scan, i⟩, hmem, rfl⟩ := List.mem_map.mp hp
  have hscan : scan ∈ body := (List.mem_zipIdx' hmem).2 ▸ List.getElem_mem _
  rw [drainBody] at hbody
  split at hbody
  · cases hbody
  · cases hbody
    obtain ⟨r, hr, rfl⟩ := List.mem_map.mp hscan
    obtain ⟨key, hkey⟩ := mem_getAllItems.mp hr
    exact ⟨(d, r), (h.queued d key r hkey).2, rfl⟩

/-- What the server has done for a request shows in the receipts. -/
theorem Coherent.work (h : Coherent tables parsers W) (i : ℕ) :
    Coherent tables parsers (W.step tables parsers (.work i)) ∧
      ((W.server.step i).db = W.server.db ∨
        ∃ s ∈ W.scans, ∃ n, uuidText n = s.2.clientUuid ∧
          Settles n W.server.db (W.server.step i).db) := by
  obtain ⟨hserved, hdb⟩ := (h.served i).step h.known
  have hstays : ∀ u, W.server.db.receipts.has u = true →
      (W.server.step i).db.receipts.has u = true := by
    rcases hdb with heq | ⟨item, n, -, -, hsettles⟩
    · rw [heq]
      exact fun _ hu => hu
    · exact hsettles.stays
  refine ⟨⟨fun j => ?_, h.queued, h.canonical, h.distinct⟩, hdb.imp_right ?_⟩
  · change Served _ (W.server.step i).db ((W.server.step i).workers j)
    by_cases hji : j = i
    · subst hji
      exact hserved
    · rw [ReplayWorld.step_workers_of_ne hji]
      exact (h.served j).mono (fun _ hitem => hitem) hstays
  · rintro ⟨item, n, ⟨s, hs, rfl⟩, hn, hsettles⟩
    obtain ⟨m, hm, htext⟩ := h.clientUuid hs
    cases hn.symm.trans hm
    exact ⟨s, hs, n, htext, hsettles⟩

/-- What a queue holds after a scan has been recorded. -/
theorem Coherent.queued_scan (h : Coherent tables parsers W) (d : δ) (item : Capture)
    (uuid clock : String) :
    let W' := W.step tables parsers (.scan d item uuid clock)
    ∀ e key r, (W'.queues e).lookup key = some r → r.clientUuid = key ∧ (e, r) ∈ W'.scans := by
  intro W' e key r hlookup
  have hold : (W.queues e).lookup key = some r → r.clientUuid = key ∧ (e, r) ∈ W'.scans :=
    fun hlookup => (h.queued e key r hlookup).imp_right (List.mem_append_left _)
  change ((Function.update W.queues d _ e).lookup key) = some r at hlookup
  by_cases hed : e = d
  · subst hed
    rw [Function.update_self, enqueue] at hlookup
    cases hrec : item.record? uuid clock with
    | none =>
      rw [hrec] at hlookup
      exact hold hlookup
    | some new =>
      rw [hrec, Option.elim_some] at hlookup
      by_cases hkey : key = new.clientUuid
      · subst hkey
        rw [lookup_putRecord] at hlookup
        cases hlookup
        refine ⟨rfl, List.mem_append_right _ ?_⟩
        simp [hrec]
      · rw [lookup_putRecord_of_ne hkey] at hlookup
        exact hold hlookup
  · rw [Function.update_of_ne hed] at hlookup
    exact hold hlookup

/-- A scan that is recorded has a new uuid. -/
theorem Coherent.scan (h : Coherent tables parsers W) {d : δ} {item : Capture} {uuid clock : String}
    (hadmits : Admits parsers W (.scan d item uuid clock)) :
    Coherent tables parsers (W.step tables parsers (.scan d item uuid clock)) := by
  refine ⟨fun i => (h.served i).mono ?_ fun _ hu => hu, h.queued_scan d item uuid clock,
    fun s hs => ?_, ?_⟩
  · rintro _ ⟨s, hs, rfl⟩
    exact ⟨s, List.mem_append_left _ hs, rfl⟩
  · rcases List.mem_append.mp hs with hs | hs
    · exact h.canonical s hs
    · obtain ⟨r, hr, rfl⟩ : ∃ r, item.record? uuid clock = some r ∧ (d, r) = s := by
        simpa using hs
      rw [Capture.clientUuid_of_record? hr]
      exact hadmits.1
  · change ((W.scans ++ _).map fun s => s.2.clientUuid).Nodup
    cases hrec : item.record? uuid clock with
    | none =>
      rw [Option.map_none, Option.toList_none, List.append_nil]
      exact h.distinct
    | some r =>
      rw [Option.map_some, Option.toList_some, List.map_append, List.map_singleton]
      refine h.distinct.append (List.nodup_singleton _) (List.disjoint_singleton.mpr ?_)
      intro hmem
      obtain ⟨s, hs, heq⟩ := List.mem_map.mp hmem
      exact hadmits.2.1 s hs (heq.trans (Capture.clientUuid_of_record? hrec))

omit [DecidableEq δ] in
/-- A request starts, or is over, with its worker; the others go on. -/
theorem Coherent.update_worker (h : Coherent tables parsers W) {w : Worker} (i : ℕ)
    (hw : Served (Recorded tables parsers W) W.server.db w) (j : ℕ) :
    Served (Recorded tables parsers W) W.server.db (Function.update W.server.workers i w j) := by
  by_cases hji : j = i
  · subst hji
    rw [Function.update_self]
    exact hw
  · rw [Function.update_of_ne hji]
    exact h.served j

/-- A queue without one of its records. -/
theorem Coherent.queued_remove (h : Coherent tables parsers W) (d : δ) (uuid : String) :
    ∀ e key r, (Function.update W.queues d (removeItem (W.queues d) uuid) e).lookup key = some r →
      r.clientUuid = key ∧ (e, r) ∈ W.scans := by
  intro e key r hlookup
  by_cases hed : e = d
  · subst hed
    rw [Function.update_self] at hlookup
    by_cases hkey : key = uuid
    · subst hkey
      rw [lookup_removeItem] at hlookup
      cases hlookup
    · rw [lookup_removeItem_of_ne hkey] at hlookup
      exact h.queued e key r hlookup
  · rw [Function.update_of_ne hed] at hlookup
    exact h.queued e key r hlookup

/-- Coherence is kept by every event. -/
theorem Coherent.step (h : Coherent tables parsers W) {e : OfflineEvent δ}
    (hadmits : Admits parsers W e) : Coherent tables parsers (W.step tables parsers e) := by
  cases e with
  | scan d item uuid clock => exact h.scan hadmits
  | drain d user now today =>
    rw [OfflineWorld.step]
    split
    · exact h
    · rename_i body hbody
      exact ⟨h.update_worker W.next (.of_none (fun _ hr => absurd hr List.not_mem_nil)
        (h.recorded_items hbody today) rfl), h.queued, h.canonical, h.distinct⟩
  | work i => exact (h.work i).1
  | drop i =>
    exact ⟨h.update_worker i (.of_none (h.served i).results (fun _ hp => absurd hp List.not_mem_nil)
      rfl), h.queued, h.canonical, h.distinct⟩
  | answer i =>
    rw [OfflineWorld.step]
    split
    · exact h
    · split
      · exact ⟨h.served, h.queued, h.canonical, h.distinct⟩
      · exact h
  | remove d uuid =>
    rw [OfflineWorld.step]
    split
    · exact ⟨h.served, h.queued_remove d uuid, h.canonical, h.distinct⟩
    · exact h
  | close d => exact ⟨h.served, h.queued, h.canonical, h.distinct⟩
  | other u =>
    refine ⟨fun i => (h.served i).mono (fun _ hitem => hitem) fun v hv => ?_, h.queued, h.canonical,
      h.distinct⟩
    change (u W.server.db).receipts.has v = true
    rw [hadmits.1]
    exact hv

/-! ### Every event is a move -/

omit [DecidableEq δ] in
/-- A scan is put into the outbox. -/
theorem post_putRecord (d : δ) (r : QueueRecord) [DecidableEq δ] :
    post { W with
      queues := Function.update W.queues d ((W.queues d).putRecord r)
      scans := W.scans ++ [(d, r)] } =
    { post W with
      accepted := insert (d, r.clientUuid) (post W).accepted
      outbox := insert (d, r.clientUuid) (post W).outbox } := by
  simp only [post, Post.mk.injEq, and_true]
  constructor
  · ext p
    simp only [Set.mem_ofPred_eq, Set.mem_insert_iff, List.mem_append, List.mem_singleton]
    constructor
    · rintro ⟨s, hs | rfl, rfl⟩
      · exact .inr ⟨s, hs, rfl⟩
      · exact .inl rfl
    · rintro (rfl | ⟨s, hs, rfl⟩)
      · exact ⟨(d, r), .inr rfl, rfl⟩
      · exact ⟨s, .inl hs, rfl⟩
  · ext ⟨e, key⟩
    simp only [Set.mem_ofPred_eq, Set.mem_insert_iff, Prod.mk.injEq]
    by_cases hed : e = d
    · subst hed
      rw [Function.update_self]
      by_cases hkey : key = r.clientUuid
      · subst hkey
        simp
      · rw [lookup_putRecord_of_ne hkey]
        simp [hkey]
    · rw [Function.update_of_ne hed]
      simp [hed]

/-- A record is removed from the outbox. -/
theorem post_removeItem (d : δ) (uuid : String) :
    post { W with queues := Function.update W.queues d (removeItem (W.queues d) uuid) } =
      { post W with outbox := (post W).outbox \ {(d, uuid)} } := by
  simp only [post, Post.mk.injEq, and_true, true_and]
  ext ⟨e, key⟩
  simp only [Set.mem_ofPred_eq, Set.mem_sdiff, Set.mem_singleton_iff, Prod.mk.injEq]
  by_cases hed : e = d
  · subst hed
    rw [Function.update_self]
    by_cases hkey : key = uuid
    · subst hkey
      simp
    · rw [lookup_removeItem_of_ne hkey]
      simp [hkey]
  · rw [Function.update_of_ne hed]
    simp [hed]

omit [DecidableEq δ] in
/-- What the server settles is a receipt for a scan, or nothing. -/
theorem move_settles {server : ReplayWorld ℕ} {s : δ × QueueRecord} (hs : s ∈ W.scans) {n : ℕ}
    (htext : uuidText n = s.2.clientUuid) (h : Settles n W.server.db server.db) :
    Relation.ReflTransGen Post.Move (post W) (post { W with server := server }) := by
  by_cases hnew : server.db.receipts.has n = true
  · have hpost : post { W with server := server } =
        { post W with receipts := insert s.2.clientUuid (post W).receipts } := by
      simp only [post, Post.mk.injEq, and_true, true_and]
      ext uuid
      simp only [Set.mem_ofPred_eq, Set.mem_insert_iff]
      constructor
      · rintro ⟨u, hu, rfl⟩
        rcases h.only u hu with hold | rfl
        · exact .inr ⟨u, hold, rfl⟩
        · exact .inl htext
      · rintro (rfl | ⟨u, hu, rfl⟩)
        · exact ⟨n, hnew, htext⟩
        · exact ⟨u, h.stays u hu, rfl⟩
    rw [hpost]
    exact .single (.receive s.1 s.2.clientUuid ⟨s, hs, rfl⟩)
  · have hpost : post { W with server := server } = post W := by
      simp only [post, Post.mk.injEq, and_true, true_and]
      ext uuid
      simp only [Set.mem_ofPred_eq]
      constructor
      · rintro ⟨u, hu, rfl⟩
        rcases h.only u hu with hold | rfl
        · exact ⟨u, hold, rfl⟩
        · exact absurd hu hnew
      · rintro ⟨u, hu, rfl⟩
        exact ⟨u, h.stays u hu, rfl⟩
    rw [hpost]

/-- Every event is a move of the delivery, or none. -/
theorem move_step (h : Coherent tables parsers W) {e : OfflineEvent δ}
    (hadmits : Admits parsers W e) :
    Relation.ReflTransGen Post.Move (post W) (post (W.step tables parsers e)) := by
  cases e with
  | scan d item uuid clock =>
    rw [OfflineWorld.step, enqueue]
    cases hrec : item.record? uuid clock with
    | none =>
      rw [Option.elim_none, Function.update_eq_self, Option.map_none, Option.toList_none,
        List.append_nil]
    | some r =>
      obtain ⟨-, hfresh, hunused⟩ := hadmits
      rw [Option.elim_some, Option.map_some, Option.toList_some, post_putRecord]
      obtain rfl := Capture.clientUuid_of_record? hrec
      refine .single (.accept d r.clientUuid ?_ ?_)
      · rintro e ⟨s, hs, heq⟩
        exact hfresh s hs (congrArg Prod.snd heq)
      · rintro ⟨n, hn, htext⟩
        exact hunused n hn htext
  | drain d user now today =>
    rw [OfflineWorld.step]
    split <;> exact .refl
  | work i =>
    rcases (h.work i).2 with heq | ⟨s, hs, n, htext, hsettles⟩
    · have hpost : post (W.step tables parsers (.work i)) = post W := by
        rw [post, OfflineWorld.step]
        simp only [heq]
        rfl
      rw [hpost]
    · exact move_settles hs htext hsettles
  | drop i => exact .refl
  | answer i =>
    rw [OfflineWorld.step]
    split
    · exact .refl
    · rename_i d n hwaiting
      split
      · -- what the answer tells the browser is true
        have hpost : ∀ waiting, post { W with
            removing := W.removing ++
              (answeredUuids (W.server.workers i).results).map fun uuid => (d, uuid)
            waiting := waiting } = { post W with
              told := (post W).told ∪
                {p | p ∈ (answeredUuids (W.server.workers i).results).map fun uuid =>
                  (d, uuid)} } := by
          intro waiting
          simp only [post, Post.mk.injEq, true_and]
          ext p
          exact List.mem_append
        rw [hpost]
        refine .single (.tell _ ?_)
        intro p hp
        obtain ⟨uuid, huuid, rfl⟩ := List.mem_map.mp hp
        rw [answeredUuids_eq] at huuid
        obtain ⟨result, hresult, rfl⟩ := List.mem_map.mp huuid
        obtain ⟨m, hm, hhas⟩ := (h.served i).results result hresult
        exact ⟨m, hhas, by rw [ReplayResult.uuidText, hm]; rfl⟩
      · exact .refl
  | remove d uuid =>
    rw [OfflineWorld.step]
    split
    · rename_i hmem
      rw [post_removeItem]
      exact .single (.remove d uuid hmem)
    · exact .refl
  | close d =>
    refine .single (.forget _ ?_)
    intro p hp
    exact (List.mem_filter.mp hp).1
  | other u =>
    have hpost : post (W.step tables parsers (.other u)) = post W := by
      rw [post, OfflineWorld.step]
      simp only [hadmits.1]
      rfl
    rw [hpost]

/-! ### Effects -/

/-- Every event keeps the offline validations in step with the receipts that say applied. -/
theorem balance_step (h : Coherent tables parsers W) {e : OfflineEvent δ}
    (hadmits : Admits parsers W e) {db₀ : Db}
    (hbalance : W.server.db.offlineValidations + db₀.appliedReceipts =
      db₀.offlineValidations + W.server.db.appliedReceipts) :
    (W.step tables parsers e).server.db.offlineValidations + db₀.appliedReceipts =
      db₀.offlineValidations + (W.step tables parsers e).server.db.appliedReceipts := by
  cases e with
  | work i =>
    rcases (h.work i).2 with heq | ⟨s, hs, n, htext, hsettles⟩
    · change (W.server.step i).db.offlineValidations + _ =
        _ + (W.server.step i).db.appliedReceipts
      rw [heq]
      exact hbalance
    · have hstep := hsettles.balance
      change (W.server.step i).db.offlineValidations + _ =
        _ + (W.server.step i).db.appliedReceipts
      omega
  | other u =>
    have happlied : (u W.server.db).appliedReceipts = W.server.db.appliedReceipts := by
      rw [Db.appliedReceipts, hadmits.1]
      rfl
    change (u W.server.db).offlineValidations + _ = _ + (u W.server.db).appliedReceipts
    rw [hadmits.2, happlied]
    exact hbalance
  | scan d item uuid clock => exact hbalance
  | drain d user now today =>
    rw [OfflineWorld.step]
    split <;> exact hbalance
  | drop i => exact hbalance
  | answer i =>
    rw [OfflineWorld.step]
    split
    · exact hbalance
    · split <;> exact hbalance
  | remove d uuid =>
    rw [OfflineWorld.step]
    split <;> exact hbalance
  | close d => exact hbalance

/-- The invariant of the whole: requests and queues agree with the scans, the delivery is safe,
and the effects are in step with the receipts. -/
structure Sound (tables : TextTables) (parsers : ScanParsers) (db₀ : Db) (W : OfflineWorld δ) :
    Prop where
  coherent : Coherent tables parsers W
  safe : (post W).Safe {uuid | ∃ n, db₀.receipts.has n = true ∧ uuidText n = uuid}
  balance : W.server.db.offlineValidations + db₀.appliedReceipts =
    db₀.offlineValidations + W.server.db.appliedReceipts

omit [DecidableEq δ] in
theorem sound_start (db₀ : Db) : Sound tables parsers db₀ (start db₀ : OfflineWorld δ) where
  coherent := coherent_start db₀
  safe := by
    have hpost : post (start db₀ : OfflineWorld δ) =
        ⟨∅, ∅, {uuid | ∃ n, db₀.receipts.has n = true ∧ uuidText n = uuid}, ∅⟩ := by
      simp [post, start, ReplayWorld.start]
    rw [hpost]
    exact Post.safe_start _
  balance := rfl

theorem Sound.step {db₀ : Db} (h : Sound tables parsers db₀ W) {e : OfflineEvent δ}
    (hadmits : Admits parsers W e) : Sound tables parsers db₀ (W.step tables parsers e) where
  coherent := h.coherent.step hadmits
  safe := h.safe.run (move_step h.coherent hadmits)
  balance := balance_step h.coherent hadmits h.balance

/-- Every world of a run is sound. -/
theorem Sound.run {db₀ : Db} (hW : Sound tables parsers db₀ W) {events : List (OfflineEvent δ)}
    (h : Along (OfflineWorld.step tables parsers) (Admits parsers) W events) :
    Sound tables parsers db₀ (W.run tables parsers events) :=
  h.invariant (fun _ _ hsound hadmits => hsound.step hadmits) hW List.prefix_rfl

theorem sound_run (db₀ : Db) {events : List (OfflineEvent δ)}
    (h : Along (OfflineWorld.step tables parsers) (Admits parsers) (start db₀) events) :
    Sound tables parsers db₀ ((start db₀ : OfflineWorld δ).run tables parsers events) :=
  (sound_start db₀).run h

end

end OfflineWorld

/-! ### Every run -/

/-- No scan made offline is lost, and none takes effect twice. In every run of any number of
browsers and requests, with losses anywhere, a recorded scan is in the queue of its browser as it
was recorded, or its uuid has a receipt; the queues hold nothing else; the receipts that are new are
those of recorded scans; and as many offline validations are new as receipts that say applied. -/
theorem offline_scans_safe {δ : Type} [DecidableEq δ] (tables : TextTables) (parsers : ScanParsers)
    (db₀ : Db) (events : List (OfflineEvent δ))
    (h : Along (OfflineWorld.step tables parsers) (OfflineWorld.Admits parsers) (.start db₀)
      events) :
    let W := (OfflineWorld.start db₀).run tables parsers events
    (∀ d r, (d, r) ∈ W.scans → (W.queues d).lookup r.clientUuid = some r ∨
      ∃ n, W.server.db.receipts.has n = true ∧ uuidText n = r.clientUuid) ∧
    (∀ d key r, (W.queues d).lookup key = some r → r.clientUuid = key ∧ (d, r) ∈ W.scans) ∧
    (∀ n, W.server.db.receipts.has n = true →
      (∃ m, db₀.receipts.has m = true ∧ uuidText m = uuidText n) ∨
        ∃ s ∈ W.scans, s.2.clientUuid = uuidText n) ∧
    W.server.db.offlineValidations + db₀.appliedReceipts =
      db₀.offlineValidations + W.server.db.appliedReceipts := by
  intro W
  have hsound : W.Sound tables parsers db₀ := OfflineWorld.sound_run db₀ h
  refine ⟨fun d r hr => ?_, hsound.coherent.queued, fun n hn => ?_, hsound.balance⟩
  · rcases hsound.safe.kept d r.clientUuid ⟨(d, r), hr, rfl⟩ with ⟨q, hq⟩ | hreceipt
    · -- what is under its uuid is the scan itself, since no two scans share one
      obtain ⟨huuid, hmem⟩ := hsound.coherent.queued d _ q hq
      have hsame := List.inj_on_of_nodup_map hsound.coherent.distinct hmem hr huuid
      exact .inl (hq.trans (congrArg some (congrArg Prod.snd hsame)))
    · exact .inr hreceipt
  · rcases hsound.safe.receipts (uuidText n) ⟨n, hn, rfl⟩ with hbefore | ⟨d, s, hs, heq⟩
    · exact .inl hbefore
    · exact .inr ⟨s, hs, congrArg Prod.snd heq⟩

namespace Campus

/-- Parsers that know one uuid and ten past eight on that Monday. -/
def offlineParsers : ScanParsers where
  uuid text :=
    if text = "00000000-0000-4000-8000-000000000063" then some 0x40008000000000000063 else none
  parseDatetime text :=
    if text = "1970-01-05T00:10:00.000Z" then .value (.aware (wallClock monday 8 10 0) 0)
    else .nothing
  uuid_empty := by decide
  parseDatetime_empty := by decide

/-- The class in the first room is verified while there is no connection. -/
def offlineScan : OfflineEvent Unit :=
  .scan () ⟨none, "/checker/?t=qr-1", none, "verified", some "", none⟩
    "00000000-0000-4000-8000-000000000063" "1970-01-05T00:10:00.000Z"

/-- The scan is posted, and the request is cut off once the server has looked for a receipt and
somebody else has read the notifications. -/
def offlineEvents : List (OfflineEvent Unit) :=
  [offlineScan, .drain () 7 halfPastEight fun _ => monday, .work 0,
    .other fun db => { db with notifications := [] }, .drop 0]

theorem admits_offlineScan :
    OfflineWorld.Admits offlineParsers (.start checked) offlineScan := by
  refine ⟨⟨0x40008000000000000063, by decide, by decide +kernel⟩,
    fun _ hs => absurd hs List.not_mem_nil, fun n hn => ?_⟩
  obtain ⟨r, hr, -⟩ := ReceiptTable.has_iff.mp hn
  have hnone : checked.receipts.table.rows = [] := by decide +kernel
  have hmem : r ∈ checked.receipts.table.rows := hr
  rw [hnone] at hmem
  cases hmem

theorem along_offlineEvents : Along (OfflineWorld.step asciiTables offlineParsers)
    (OfflineWorld.Admits offlineParsers) (.start checked) offlineEvents :=
  ⟨admits_offlineScan, trivial, trivial, ⟨rfl, rfl⟩, trivial, trivial⟩

end Campus

open Campus in
/-- The scan that was posted in vain is still in the queue, or has a receipt. -/
theorem offline_scan_safe_on_campus :
    let W := (OfflineWorld.start checked).run asciiTables offlineParsers offlineEvents
    ∀ d r, (d, r) ∈ W.scans → (W.queues d).lookup r.clientUuid = some r ∨
      ∃ n, W.server.db.receipts.has n = true ∧ uuidText n = r.clientUuid :=
  (offline_scans_safe asciiTables offlineParsers checked offlineEvents along_offlineEvents).1

end FluxTrack
