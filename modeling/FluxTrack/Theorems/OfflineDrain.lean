import FluxTrack.Theorems.MalformedScans
import FluxTrack.Theorems.OfflineQueue

/-!
# A drain that is carried out

A queue is posted, the server handles the request to its end, the answer arrives and what it names
is removed. If the records of the queue can be read, no item of the request raises, so that the
whole queue is answered and emptied.

## Main definitions

* `OfflineWorld.Readable` — a record whose time and session can be read
* `OfflineWorld.drained` — the events of a drain

## Main results

* `OfflineWorld.exists_exec_items` — a request is handled to its end
* `drain_settles` — a drain empties the queue and leaves receipts
-/

namespace FluxTrack

open Calendar Relational Process

namespace OfflineWorld

variable {δ : Type} [DecidableEq δ]

section

variable {tables : TextTables} {parsers : ScanParsers} {W : OfflineWorld δ}

/-! ### A request that nothing disturbs -/

/-- Moves of one request that return from the item at hand: its result is added, and it is for the
uuid of the item. -/
theorem exists_exec_item {p : M ReplayResult} {H : List (Db × Db)} {server : ReplayWorld ℕ} {i : ℕ}
    {item : ReplayItem} {today : ℤ} {rest : List (ReplayItem × ℤ)} {n : ℕ} {result : ReplayResult}
    {db' : Db} (htodo : (server.workers i).todo = (item, today) :: rest)
    (hrest : (server.workers i).rest item today = p)
    (hE : p.Ensures (fun _ => Settles n) (Told n) H) (hrun : p.run server.db = (.ok result, db')) :
    ∃ k, (server.exec (.replicate k i)).db = db' ∧ result.uuid = some n ∧
      (server.exec (.replicate k i)).workers = Function.update server.workers i
        { server.workers i with
          todo := rest, prog := none, results := (server.workers i).results ++ [result] } := by
  induction p generalizing H server with
  | ret a =>
    cases hrun
    refine ⟨1, ?_, hE.1, ?_⟩
    · change (server.step i).db = _
      rw [ReplayWorld.step_of_cons htodo, hrest]
      rfl
    · change (server.step i).workers = _
      rw [ReplayWorld.step_of_cons htodo, hrest]
      rfl
  | raise e => cases hrun
  | stmt u k ih =>
    obtain ⟨-, hk⟩ := hE server.db
    have hstep : server.step i = server.advance i item rest (.stmt u k) := by
      rw [ReplayWorld.step_of_cons htodo, hrest]
    have hself : (server.step i).workers i =
        { server.workers i with prog := some (k server.db) } := by
      rw [hstep]
      exact Function.update_self ..
    have htodo' : ((server.step i).workers i).todo = (item, today) :: rest := by rw [hself, htodo]
    obtain ⟨m, hdb, huuid, hworkers⟩ := ih server.db htodo' (by rw [hself]; rfl) hk
      (by rw [hstep]; exact hrun)
    refine ⟨m + 1, hdb, huuid, hworkers.trans ?_⟩
    rw [hself, hstep]
    exact Function.update_idem ..
  | mark m k ih =>
    have hstep : server.step i = server.advance i item rest (.mark m k) := by
      rw [ReplayWorld.step_of_cons htodo, hrest]
    have hself : (server.step i).workers i = { server.workers i with prog := some k } := by
      rw [hstep]
      exact Function.update_self ..
    have htodo' : ((server.step i).workers i).todo = (item, today) :: rest := by rw [hself, htodo]
    obtain ⟨m, hdb, huuid, hworkers⟩ := ih htodo' (by rw [hself]; rfl) hE
      (by rw [hstep]; exact hrun)
    refine ⟨m + 1, hdb, huuid, hworkers.trans ?_⟩
    rw [hself, hstep]
    exact Function.update_idem ..
  | rollback s₀ k ih => exact absurd hrun (Prog.Fails.run_ne_ok hE)

/-- The handling of the item returns, whatever the database is. -/
def Returns (user : ℕ) (now : ℤ) (p : ReplayItem × ℤ) : Prop :=
  ∀ db, ∃ result db', (replayItem user p.1 now p.2).run db = (.ok result, db')

/-- A request whose items all return is handled to its end, with one result for each item. -/
theorem exists_exec_items {server : ReplayWorld ℕ} {i : ℕ} (hprog : (server.workers i).prog = none)
    (hknown : ∀ p ∈ (server.workers i).todo, ∃ n, p.1.clientUuid = some n)
    (hreturns : ∀ p ∈ (server.workers i).todo,
      Returns (server.workers i).user (server.workers i).now p) :
    ∃ k, ((server.exec (.replicate k i)).workers i).todo = [] ∧
      ((server.exec (.replicate k i)).workers i).results.map ReplayResult.uuid =
        (server.workers i).results.map ReplayResult.uuid ++
          (server.workers i).todo.map fun p => p.1.clientUuid := by
  generalize htodo : (server.workers i).todo = todo at hknown hreturns
  induction todo generalizing server with
  | nil =>
    refine ⟨0, htodo, ?_⟩
    rw [List.map_nil, List.append_nil]
    rfl
  | cons head rest ih =>
    obtain ⟨item, today⟩ := head
    obtain ⟨n, hn⟩ := hknown _ List.mem_cons_self
    obtain ⟨result, db', hrun⟩ := hreturns _ List.mem_cons_self server.db
    have hrest : (server.workers i).rest item today =
        replayItem (server.workers i).user item (server.workers i).now today := by
      rw [Worker.rest, hprog]
      rfl
    obtain ⟨k, hdb, huuid, hworkers⟩ := exists_exec_item htodo hrest
      (ensures_replayItem_told hn _ _ []) hrun
    have hself := congrFun hworkers i
    rw [Function.update_self] at hself
    have hprog' : ((server.exec (.replicate k i)).workers i).prog = none := by rw [hself]
    obtain ⟨m, hend, hresults⟩ := ih hprog' (by rw [hself])
      (fun p hp => hknown p (List.mem_cons_of_mem _ hp))
      (fun p hp => by
        rw [hself]
        exact hreturns p (List.mem_cons_of_mem _ hp))
    have hexec : server.exec (.replicate (k + m) i) =
        (server.exec (.replicate k i)).exec (.replicate m i) := by
      rw [List.replicate_add]
      exact List.foldl_append
    refine ⟨k + m, by rw [hexec]; exact hend, ?_⟩
    rw [hexec, hresults, hself, List.map_append, List.append_assoc, List.map_singleton, huuid,
      List.map_cons, hn]
    rfl

/-- The time of the record is one that has a date here, and its session a number or none. -/
def Readable (tables : TextTables) (parsers : ScanParsers) (r : QueueRecord) : Prop :=
  (∃ t, parsers.parseDatetime r.scannedAt = .value t ∧ localizes t.instant = true) ∧
    ClaimedSession.ofText tables (r.sessionId.getD "") ≠ .unreadable

/-- The handling of a record that can be read returns. -/
theorem Readable.returns {r : QueueRecord} (h : Readable tables parsers r) (user : ℕ)
    (now today : ℤ) : Returns user now (r.posted.item tables parsers, today) := by
  intro db
  refine run_replayItem_ok_iff.mpr ?_
  obtain ⟨⟨t, ht, hlocal⟩, hsession⟩ := h
  have htime : (r.posted.item tables parsers).scannedAt = .time t.instant := by
    change ClaimedTime.ofParsed (parsers.parseDatetime r.scannedAt) = _
    rw [ht]
    rfl
  have hinstant : (r.posted.item tables parsers).time now = t.instant := by
    rw [ReplayItem.time, htime]
  rintro ⟨-, -, hbad | ⟨-, hsess | ⟨-, -, hlocal'⟩⟩ | ⟨-, hstore⟩⟩
  · rw [htime] at hbad
    cases hbad
  · exact hsession hsess
  · rw [hinstant, hlocal] at hlocal'
    cases hlocal'
  · rw [localizes, Bool.and_eq_true] at hlocal
    rw [hinstant, hlocal.1] at hstore
    cases hstore

theorem run_works (W : OfflineWorld δ) (i k : ℕ) :
    W.run tables parsers (.replicate k (.work i)) =
      { W with server := W.server.exec (.replicate k i) } := by
  induction k generalizing W with
  | zero => rfl
  | succ k ih => exact ih _

/-- Removals that an answer has begun empty the queue of what they name. -/
theorem run_removes (W : OfflineWorld δ) (d : δ) (uuids : List String)
    (h : ∀ uuid ∈ uuids, (d, uuid) ∈ W.removing) :
    let W' := W.run tables parsers (uuids.map fun uuid => .remove d uuid)
    W'.server = W.server ∧ W'.scans = W.scans ∧ (∀ e, e ≠ d → W'.queues e = W.queues e) ∧
      ∀ key r, (W'.queues d).lookup key = some r →
        key ∉ uuids ∧ (W.queues d).lookup key = some r := by
  induction uuids generalizing W with
  | nil => exact ⟨rfl, rfl, fun _ _ => rfl, fun _ _ hr => ⟨List.not_mem_nil, hr⟩⟩
  | cons uuid uuids ih =>
    have hstep : W.step tables parsers (.remove d uuid) =
        { W with queues := Function.update W.queues d (removeItem (W.queues d) uuid) } :=
      if_pos (h uuid List.mem_cons_self)
    obtain ⟨hserver, hscans, hothers, hqueue⟩ := ih (W.step tables parsers (.remove d uuid))
      fun u hu => by
        rw [hstep]
        exact h u (List.mem_cons_of_mem _ hu)
    refine ⟨hserver.trans (by rw [hstep]), hscans.trans (by rw [hstep]), fun e he => ?_,
      fun key r hr => ?_⟩
    · refine (hothers e he).trans ?_
      rw [hstep]
      exact Function.update_of_ne he _ _
    · obtain ⟨hrest, hlookup⟩ := hqueue key r hr
      rw [hstep] at hlookup
      change (Function.update W.queues d _ d).lookup key = some r at hlookup
      rw [Function.update_self] at hlookup
      by_cases hkey : key = uuid
      · subst hkey
        rw [lookup_removeItem] at hlookup
        cases hlookup
      · rw [lookup_removeItem_of_ne hkey] at hlookup
        exact ⟨fun hmem => (List.mem_cons.mp hmem).elim hkey hrest, hlookup⟩

/-- A drain that is carried out: the request is posted, makes `k` moves and is answered, and the
records that were posted are removed. -/
def drained (W : OfflineWorld δ) (d : δ) (user : ℕ) (now : ℤ) (today : ℕ → ℤ) (k : ℕ) :
    List (OfflineEvent δ) :=
  .drain d user now today :: (.replicate k (.work W.next) ++ .answer W.next ::
    ((getAllItems (W.queues d)).map QueueRecord.clientUuid).map fun uuid => .remove d uuid)

/-- The events of a drain need nothing. -/
theorem along_drained (W' : OfflineWorld δ) (d : δ) (user : ℕ) (now : ℤ) (today : ℕ → ℤ) (k : ℕ) :
    Along (OfflineWorld.step tables parsers) (Admits parsers) W (W'.drained d user now today k) := by
  refine .of_forall (fun e he V => ?_) W
  simp only [drained, List.mem_cons, List.mem_append, List.mem_replicate, List.mem_map] at he
  obtain rfl | ⟨-, rfl⟩ | rfl | ⟨_, -, rfl⟩ := he <;> trivial

omit [DecidableEq δ] in
/-- The items that are posted are those of the records, with their uuids. -/
theorem Coherent.uuid_mem_items (h : Coherent tables parsers W) {d : δ} {body : List QueuedScan}
    (hbody : drainBody (W.queues d) = some body) (today : ℕ → ℤ) {r : QueueRecord}
    (hr : r ∈ getAllItems (W.queues d)) :
    ∃ n, some n ∈ (items tables parsers today body).map (fun p => p.1.clientUuid) ∧
      uuidText n = r.clientUuid := by
  obtain ⟨key, hkey⟩ := mem_getAllItems.mp hr
  obtain ⟨n, hn, htext⟩ := h.clientUuid (h.queued d key r hkey).2
  refine ⟨n, ?_, htext⟩
  rw [drainBody] at hbody
  split at hbody
  · cases hbody
  · cases hbody
    obtain ⟨i, hi, hget⟩ := List.getElem_of_mem (List.mem_map_of_mem (f := QueueRecord.posted) hr)
    rw [items, List.map_map, List.mem_map]
    refine ⟨(r.posted, i), ?_, hn⟩
    rw [List.mem_zipIdx_iff_getElem?, List.getElem?_eq_getElem hi, hget]

omit [DecidableEq δ] in
theorem items_returns {d : δ} {body : List QueuedScan}
    (hreadable : ∀ r ∈ getAllItems (W.queues d), Readable tables parsers r)
    (hbody : drainBody (W.queues d) = some body) (user : ℕ) (now : ℤ) (today : ℕ → ℤ) :
    ∀ p ∈ items tables parsers today body, Returns user now p := by
  rintro p hp
  obtain ⟨⟨scan, i⟩, hmem, rfl⟩ := List.mem_map.mp hp
  have hscan : scan ∈ body := (List.mem_zipIdx' hmem).2 ▸ List.getElem_mem _
  rw [drainBody] at hbody
  split at hbody
  · cases hbody
  · cases hbody
    obtain ⟨r, hr, rfl⟩ := List.mem_map.mp hscan
    exact (hreadable r hr).returns user now (today i)

/-- A drain that is carried out, with enough moves, empties the queue. -/
theorem Coherent.drained (h : Coherent tables parsers W) (d : δ)
    (hreadable : ∀ r ∈ getAllItems (W.queues d), Readable tables parsers r) (user : ℕ) (now : ℤ)
    (today : ℕ → ℤ) :
    ∃ k, let W' := W.run tables parsers (W.drained d user now today k)
      W'.scans = W.scans ∧ (∀ e, e ≠ d → W'.queues e = W.queues e) ∧
        ∀ key r, (W'.queues d).lookup key ≠ some r := by
  cases hbody : drainBody (W.queues d) with
  | none =>
    -- nothing is posted, and nothing is there
    have hnone : getAllItems (W.queues d) = [] := by
      rw [drainBody] at hbody
      split at hbody
      · assumption
      · cases hbody
    refine ⟨0, ?_⟩
    have hdrain : W.step tables parsers (.drain d user now today) = W := by
      rw [OfflineWorld.step, hbody]
    have hrun : W.run tables parsers (W.drained d user now today 0) =
        W.step tables parsers (.answer W.next) := by
      rw [OfflineWorld.run, OfflineWorld.drained, hnone, List.foldl_cons, hdrain]
      rfl
    have hqueues : (W.step tables parsers (.answer W.next)).queues = W.queues ∧
        (W.step tables parsers (.answer W.next)).scans = W.scans := by
      rw [OfflineWorld.step]
      split
      · exact ⟨rfl, rfl⟩
      · split <;> exact ⟨rfl, rfl⟩
    dsimp only
    rw [hrun, hqueues.1, hqueues.2]
    refine ⟨rfl, fun _ _ => rfl, fun key r hr => ?_⟩
    have hmem := mem_getAllItems.mpr ⟨key, hr⟩
    rw [hnone] at hmem
    cases hmem
  | some body =>
    let batch : Batch := ⟨user, now, items tables parsers today body⟩
    let posted : OfflineWorld δ :=
      { W with
        server := W.server.put W.next batch.worker
        waiting := Function.update W.waiting W.next (some (d, body.length))
        next := W.next + 1 }
    have hposted : W.step tables parsers (.drain d user now today) = posted := by
      rw [OfflineWorld.step, hbody]
    have hworker : posted.server.workers W.next = batch.worker := Function.update_self ..
    have hidle : (posted.server.workers W.next).prog = none := by rw [hworker]; rfl
    obtain ⟨k, htodo, hresults⟩ := exists_exec_items hidle
      (by
        rw [hworker]
        exact fun p hp => h.known p.1 (h.recorded_items hbody today p hp))
      (by
        rw [hworker]
        exact items_returns hreadable hbody user now today)
    rw [hworker] at hresults
    change _ = [] ++ (items tables parsers today body).map (fun p => p.1.clientUuid) at hresults
    rw [List.nil_append] at hresults
    let handled : ReplayWorld ℕ := posted.server.exec (.replicate k W.next)
    have hlength : (handled.workers W.next).results.length = body.length := by
      have hlen := congrArg List.length hresults
      rwa [List.length_map, List.length_map, items, List.length_map, List.length_zipIdx] at hlen
    let answered : OfflineWorld δ :=
      { posted with
        server := handled
        removing := W.removing ++
          (answeredUuids (handled.workers W.next).results).map fun uuid => (d, uuid)
        waiting := Function.update posted.waiting W.next none }
    have hanswered : ({ posted with server := handled } : OfflineWorld δ).step tables parsers
        (.answer W.next) = answered := by
      have hwaiting : posted.waiting W.next = some (d, body.length) := Function.update_self ..
      rw [OfflineWorld.step]
      simp only [hwaiting]
      exact if_pos ⟨htodo, hlength⟩
    -- every record that was posted is named by the answer
    have hnamed : ∀ uuid ∈ (getAllItems (W.queues d)).map QueueRecord.clientUuid,
        (d, uuid) ∈ answered.removing := by
      intro uuid huuid
      obtain ⟨r, hr, rfl⟩ := List.mem_map.mp huuid
      obtain ⟨n, hn, htext⟩ := h.uuid_mem_items hbody today hr
      rw [← hresults] at hn
      obtain ⟨result, hresult, hresultuuid⟩ := List.mem_map.mp hn
      refine List.mem_append_right _ (List.mem_map.mpr ⟨r.clientUuid, ?_, rfl⟩)
      rw [answeredUuids_eq]
      exact List.mem_map.mpr ⟨result, hresult, by rw [ReplayResult.uuidText, hresultuuid]; exact htext⟩
    have hrun : W.run tables parsers (W.drained d user now today k) = answered.run tables parsers
        (((getAllItems (W.queues d)).map QueueRecord.clientUuid).map fun uuid =>
          .remove d uuid) := by
      have hworks : (List.replicate k (.work W.next)).foldl (OfflineWorld.step tables parsers)
          posted = { posted with server := handled } := run_works posted W.next k
      rw [OfflineWorld.run, OfflineWorld.drained, List.foldl_cons, hposted, List.foldl_append,
        hworks, List.foldl_cons]
      exact congrArg (List.foldl _ · _) hanswered
    obtain ⟨-, hscans, hothers, hqueue⟩ := run_removes answered d _ hnamed
    refine ⟨k, ?_⟩
    dsimp only
    rw [hrun]
    refine ⟨hscans, hothers, fun key r hr => ?_⟩
    obtain ⟨hnotMem, hold⟩ := hqueue key r hr
    have hkey := (h.queued d key r hold).1
    exact hnotMem (List.mem_map.mpr ⟨r, mem_getAllItems.mpr ⟨key, hold⟩, hkey⟩)

end

end OfflineWorld

/-! ### The result -/

/-- A drain settles what it posts. In any world of a run, if the records of a queue can be read, a
drain that nothing disturbs empties the queue after some number of moves of the server, leaves every
scan that was in it with a receipt, and leaves the other queues alone. -/
theorem drain_settles {δ : Type} [DecidableEq δ] (tables : TextTables) (parsers : ScanParsers)
    (db₀ : Db) (events : List (OfflineEvent δ)) (d : δ)
    (h : Along (OfflineWorld.step tables parsers) (OfflineWorld.Admits parsers) (.start db₀)
      events)
    (hreadable : ∀ r ∈ getAllItems (((OfflineWorld.start db₀).run tables parsers events).queues d),
      OfflineWorld.Readable tables parsers r) (user : ℕ) (now : ℤ) (today : ℕ → ℤ) :
    let W := (OfflineWorld.start db₀).run tables parsers events
    ∃ k, let W' := W.run tables parsers (W.drained d user now today k)
      getAllItems (W'.queues d) = [] ∧
      (∀ r ∈ getAllItems (W.queues d),
        ∃ n, W'.server.db.receipts.has n = true ∧ uuidText n = r.clientUuid) ∧
      ∀ e, e ≠ d → W'.queues e = W.queues e := by
  intro W
  have hsound : W.Sound tables parsers db₀ := OfflineWorld.sound_run db₀ h
  obtain ⟨k, hscans, hothers, hempty⟩ := hsound.coherent.drained d hreadable user now today
  have hsound' := hsound.run (OfflineWorld.along_drained (W := W) W d user now today k)
  refine ⟨k, ?_, fun r hr => ?_, hothers⟩
  · refine List.eq_nil_iff_forall_not_mem.mpr fun r hr => ?_
    obtain ⟨key, hkey⟩ := mem_getAllItems.mp hr
    exact hempty key r hkey
  · -- what is recorded and no longer there has its receipt
    obtain ⟨key, hkey⟩ := mem_getAllItems.mp hr
    refine hsound'.safe.receipt_of_notMem (d := d) ⟨(d, r), ?_, rfl⟩ ?_
    · rw [hscans]
      exact (hsound.coherent.queued d key r hkey).2
    · rintro ⟨q, hq⟩
      exact hempty _ _ hq

open Campus in
/-- A drain carries the scan from the browser to the record. -/
theorem drain_settles_on_campus :
    let W := (OfflineWorld.start checked).run asciiTables offlineParsers [offlineScan]
    ∃ k,
      let W' := W.run asciiTables offlineParsers (W.drained () 7 halfPastEight (fun _ => monday) k)
      getAllItems (W'.queues ()) = [] ∧
      (∀ r ∈ getAllItems (W.queues ()),
        ∃ n, W'.server.db.receipts.has n = true ∧ uuidText n = r.clientUuid) ∧
      ∀ e, e ≠ () → W'.queues e = W.queues e := by
  refine drain_settles asciiTables offlineParsers checked [offlineScan] ()
    ⟨admits_offlineScan, trivial⟩ (fun r hr => ?_) 7 halfPastEight fun _ => monday
  have hitems : getAllItems (((OfflineWorld.start checked).run asciiTables offlineParsers
      [offlineScan]).queues ()) = [⟨"00000000-0000-4000-8000-000000000063", "qr-1", none,
        "verified", "", "1970-01-05T00:10:00.000Z"⟩] := by
    decide +kernel
  rw [hitems] at hr
  obtain rfl := List.mem_singleton.mp hr
  exact ⟨⟨.aware (wallClock monday 8 10 0) 0, rfl, by decide +kernel⟩, by decide⟩

end FluxTrack
