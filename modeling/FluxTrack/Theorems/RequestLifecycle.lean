import FluxTrack.Process.Pool
import FluxTrack.System
import FluxTrack.Theorems.Approval

/-!
# The life of a modality-shift request

Any number of people withdraw, reject and approve one request at the same time.
Each of the three services is one transaction that starts with the row lock on the
request, so the calls take effect one after another, and the first that succeeds
takes the request out of `pending` for good.

## Main definitions

* `Decision` — a call of one of the three services
* `ModalityShiftRequest.Recorded` — who decided and when is recorded exactly for a
  decision by the dean
* `ModalityShiftStatus.Moves` — the status changes that a run may show

## Main results

* `Decision.run_cases` — a call raises and changes nothing, or decides a pending request
* `request_decided_once` — every interleaving
-/

namespace FluxTrack

open Calendar Relational Process

/-- A call of one of the services that end a request. -/
inductive Decision
  | withdraw (actor : ℕ)
  | reject (dean : User) (reason : String) (now : ℤ)
  | approve (dean : User) (now : ℤ)

/-- The program of a call on a request. -/
def Decision.prog (request : ℕ) : Decision → M Unit
  | withdraw actor => withdrawModalityShift request actor
  | reject dean reason now => rejectModalityShift request dean reason now
  | approve dean now => (fun _ => ()) <$> applyApproval request dean now

/-- A decision by the dean. -/
def ModalityShiftStatus.decided (status : ModalityShiftStatus) : Bool :=
  status == .rejected || status == .approved || status == .denied

/-- `decided_at` and `decided_by` are set exactly when the dean has decided. -/
structure ModalityShiftRequest.Recorded (req : ModalityShiftRequest) : Prop where
  decidedAt : req.decidedAt.isSome = true ↔ req.status.decided = true
  decidedBy : req.decidedBy.isSome = true ↔ req.status.decided = true

/-- The status of a request, if there is such a request. -/
def Db.requestStatus (db : Db) (request : ℕ) : Option ModalityShiftStatus :=
  (db.requests.get? request).map ModalityShiftRequest.status

/-- The status stays, or leaves `pending` for one of the four others. -/
def ModalityShiftStatus.Moves (before after : Option ModalityShiftStatus) : Prop :=
  before = after ∨ before = some .pending ∧
    (after = some .withdrawn ∨ after = some .rejected ∨ after = some .approved ∨
      after = some .denied)

theorem ModalityShiftStatus.Moves.of_pending {before after : Option ModalityShiftStatus}
    (h : Moves before after) (hafter : after = some .pending) : before = some .pending := by
  rcases h with heq | ⟨hbefore, -⟩
  · exact heq.trans hafter
  · exact hbefore

/-! ### The services are blocks under the request's lock -/

section

variable {req : ModalityShiftRequest} {dean : ℕ} {now : ℤ}

theorem nested_createAudit (actor : Option ℕ) (event : AuditEvent) :
    (createAudit actor event).Nested :=
  Prog.nested_modify _

theorem nested_lockTerm (pk : ℕ) : (lockTerm pk).Nested := by
  refine (Prog.nested_lock _).bind fun _ => (Prog.nested_select _).bind fun term => ?_
  cases term with
  | none => exact Prog.nested_raise _
  | some term => exact Prog.nested_ret _

theorem nested_singleTermIdForRequest (request : ℕ) : (singleTermIdForRequest request).Nested := by
  refine (Prog.nested_select _).bind fun terms => ?_
  split
  · exact Prog.nested_ret _
  · exact Prog.nested_raise _

theorem nested_lockWritableTerm (term : ℕ) : (lockWritableTerm term).Nested := by
  refine (nested_lockTerm term).bind fun t => ?_
  split
  · exact Prog.nested_raise _
  · exact Prog.nested_ret _

theorem nested_affectedLoop (items : List ModalityShiftItem) : (affectedLoop req items).Nested := by
  induction items with
  | nil => exact Prog.nested_ret _
  | cons item rest ih =>
    exact (Prog.nested_select _).bind fun _ => ih.bind fun _ => Prog.nested_ret _

theorem nested_shiftSession (item : ModalityShiftItem) (sched : Schedule) (s : Session) :
    (shiftSession req item sched dean now s).Nested := by
  have hmove : (checkMove item s).Nested := by
    unfold checkMove
    split
    · exact Prog.nested_ret _
    · refine (Prog.nested_select _).bind fun conflict => ?_
      split
      · exact Prog.nested_raise _
      · exact Prog.nested_ret _
  have hroom : ∀ start finish,
      (resolveShiftRoom sched item.preferredRoom start finish s.id).Nested := by
    intro start finish
    refine (Prog.nested_select _).bind fun free => ?_
    split
    · exact Prog.nested_ret _
    · exact Prog.nested_select _
  refine hmove.bind fun _ => (hroom _ _).bind fun room => ?_
  cases room with
  | none => exact Prog.nested_raise _
  | some room => exact (Prog.nested_modify _).bind fun _ => Prog.nested_ret _

theorem nested_shiftSessions (item : ModalityShiftItem) (sched : Schedule) (sessions : List Session)
    (resolved : Option ℕ) : (shiftSessions req item sched dean now sessions resolved).Nested := by
  induction sessions generalizing resolved with
  | nil => exact Prog.nested_ret _
  | cons s rest ih => exact (nested_shiftSession item sched s).bind fun room => ih (some room)

theorem nested_applyShift (sessions : List Session) : (applyShift req sessions dean now).Nested := by
  unfold applyShift
  split
  · exact Prog.Nested.forEach (fun s => (Prog.nested_modify _).bind fun _ =>
      (Prog.nested_modify _).bind fun _ => nested_createAudit _ _) _
  · refine (Prog.nested_select _).bind fun rows => Prog.Nested.forEach (fun row => ?_) _
    refine (Prog.nested_select _).bind fun sessions =>
      (nested_shiftSessions _ _ _ _).bind fun room => ?_
    cases room with
    | none => exact Prog.nested_ret _
    | some room => exact Prog.nested_modify _

theorem nested_applyConsequence (sessions : List Session) :
    (applyConsequence req sessions dean now).Nested := by
  refine (nested_applyShift sessions).atomic.elim (fun _ => Prog.nested_ret _) fun e => ?_
  cases e with
  | noRoomAvailable reason => exact Prog.nested_ret _
  | _ => exact Prog.nested_raise _

end

/-- A transaction that starts by locking the request. -/
theorem exists_body_of_lockRequest {α : Type} (request : ℕ) {f : ModalityShiftRequest → M α}
    (hf : ∀ req, (f req).Nested) :
    ∃ body : M α, body.Nested ∧
      Prog.atomic (lockRequest request >>= f) =
        Prog.atomic (Prog.lock (.request request) >>= fun _ => body) := by
  refine ⟨_, Prog.nested_stmt fun db => ?_, rfl⟩
  dsimp only
  generalize db.requests.get? request = found
  cases found with
  | none => exact Prog.nested_raise _
  | some req => exact hf req

/-- Every call is one block under the lock on the request. -/
theorem Decision.exists_body (request : ℕ) (d : Decision) :
    ∃ body : M Unit, body.Nested ∧
      d.prog request = Prog.atomic (Prog.lock (.request request) >>= fun _ => body) := by
  cases d with
  | withdraw actor =>
    refine exists_body_of_lockRequest request fun req =>
      (nested_singleTermIdForRequest _).bind fun term => (nested_lockWritableTerm _).bind fun _ => ?_
    split
    · exact Prog.nested_raise _
    · split
      · exact Prog.nested_raise _
      · exact (Prog.nested_modify _).bind fun _ => nested_createAudit _ _
  | reject dean reason now =>
    refine exists_body_of_lockRequest request fun req =>
      (nested_singleTermIdForRequest _).bind fun term => (nested_lockWritableTerm _).bind fun _ => ?_
    split
    · exact Prog.nested_raise _
    · split
      · exact Prog.nested_raise _
      · exact (Prog.nested_modify _).bind fun _ => (nested_createAudit _ _).bind fun _ =>
          Prog.nested_modify _
  | approve dean now =>
    obtain ⟨body, hbody, heq⟩ : ∃ body : M ModalityShiftStatus, body.Nested ∧
        applyApproval request dean now =
          Prog.atomic (Prog.lock (.request request) >>= fun _ => body) := by
      refine exists_body_of_lockRequest request fun req =>
        (nested_singleTermIdForRequest _).bind fun term =>
          (nested_lockWritableTerm _).bind fun _ => ?_
      split
      · exact Prog.nested_raise _
      · split
        · exact Prog.nested_raise _
        · refine ((Prog.nested_select _).bind fun items => nested_affectedLoop _).bind
            fun sessions => (nested_applyConsequence sessions).bind fun denied => ?_
          cases denied with
          | some reason =>
            exact (Prog.nested_modify _).bind fun _ => (nested_createAudit _ _).bind fun _ =>
              (Prog.nested_modify _).bind fun _ => Prog.nested_ret _
          | none =>
            exact (Prog.nested_modify _).bind fun _ => (nested_createAudit _ _).bind fun _ =>
              (Prog.nested_modify _).bind fun _ => (Prog.nested_select _).bind fun _ =>
                (Prog.nested_modify _).bind fun _ => Prog.nested_ret _
    -- the answer of the approval is dropped, its block is the same
    refine ⟨(fun _ => ()) <$> body, hbody.bind fun _ => Prog.nested_ret _, ?_⟩
    change (fun _ => ()) <$> applyApproval request dean now = _
    rw [heq, Prog.map_atomic]
    rfl

/-! ### A call alone -/

/-- How a successful call leaves the request. -/
def Decision.decides : Decision → ModalityShiftRequest → ModalityShiftRequest → Prop
  | withdraw _, req, req' => req' = req.withdraw
  | reject dean reason now, req, req' => req' = req.decline .rejected reason dean.id now
  | approve dean now, req, req' =>
    req' = req.approve dean.id now ∨ ∃ reason, req' = req.decline .denied reason dean.id now

/-- The request under a key after it has been saved. -/
theorem get?_saved {t : Table ModalityShiftRequest} {request : ℕ} {req : ModalityShiftRequest}
    (hget : t.get? request = some req) {f : ModalityShiftRequest → ModalityShiftRequest}
    (hf : ∀ r, key (f r) = key r) :
    (t.update (fun r => r.id == req.id) f hf).get? request = some (f req) := by
  rw [Table.get?_update, hget, Option.map_some]
  simp

/-- A call raises and changes nothing, or it decides the pending request. -/
theorem Decision.run_cases (request : ℕ) (d : Decision) (db : Db) :
    (∃ e, (d.prog request).run db = (.error e, db)) ∨
    ∃ req req' db', db.requests.get? request = some req ∧ req.status = .pending ∧
      (d.prog request).run db = (.ok (), db') ∧ db'.requests.get? request = some req' ∧
      d.decides req req' := by
  obtain ⟨body, -, heq⟩ := d.exists_body request
  rcases hrun : (d.prog request).run db with ⟨e | _, db'⟩
  · refine .inl ⟨e, ?_⟩
    -- an error leaves nothing of the block behind
    have hsame : db' = db := by
      have hend := Prog.snd_run_atomic_of_error (congrArg Prod.fst (heq ▸ hrun))
      rwa [← heq, hrun] at hend
    rw [hsame]
  · right
    cases d with
    | withdraw actor =>
      obtain ⟨req, term, t, hget, -, -, -, hbody⟩ :=
        run_guarded_eq_ok (Prog.run_atomic_eq_ok hrun)
      split at hbody
      · cases hbody
      · split at hbody
        · cases hbody
        · rename_i hpending
          cases hbody
          -- past the two checks the request is this requester's and pending
          exact ⟨req, _, _, hget, not_not.mp hpending, rfl,
            get?_saved hget ModalityShiftRequest.key_withdraw, rfl⟩
    | reject dean reason now =>
      obtain ⟨req, term, t, hget, -, -, -, hbody⟩ :=
        run_guarded_eq_ok (Prog.run_atomic_eq_ok hrun)
      split at hbody
      · cases hbody
      · split at hbody
        · cases hbody
        · rename_i hpending
          cases hbody
          exact ⟨req, _, _, hget, not_not.mp hpending, rfl, get?_saved hget
            (ModalityShiftRequest.key_decline _ _ _ _), rfl⟩
    | approve dean now =>
      obtain ⟨status, db₁, happly, hret⟩ := Prog.run_bind_eq_ok hrun
      cases hret
      rcases run_applyApproval_cases request dean now db with ⟨e, herror⟩ |
        ⟨req, hget, hpending, ⟨reason, hdenied⟩ | ⟨db₁, notifications, hshift, happroved⟩⟩
      · rw [herror] at happly
        cases happly
      · rw [hdenied] at happly
        cases happly
        exact ⟨req, _, _, hget, hpending, rfl, get?_saved hget
          (ModalityShiftRequest.key_decline _ _ _ _), .inr ⟨reason, rfl⟩⟩
      · rw [happroved] at happly
        cases happly
        obtain ⟨done, hshifting, -⟩ := shifting_applyShift hshift
        obtain ⟨sessions, items, audit, rfl⟩ := hshifting.rest
        exact ⟨req, _, _, hget, hpending, rfl, get?_saved hget
          (ModalityShiftRequest.key_approve _ _), .inl rfl⟩

/-- A request that the dean has decided, with the time and the dean. -/
theorem ModalityShiftRequest.recorded_of_decided {req : ModalityShiftRequest}
    (hdecided : req.status.decided = true) (hat : req.decidedAt.isSome = true)
    (hby : req.decidedBy.isSome = true) : req.Recorded :=
  ⟨iff_of_true hat hdecided, iff_of_true hby hdecided⟩

/-- A successful call moves the request to one of the four final statuses and records the
dean's decisions only. -/
theorem Decision.decides_final {d : Decision} {req req' : ModalityShiftRequest}
    (h : d.decides req req') (hreq : req.Recorded) (hpending : req.status = .pending) :
    req'.status ≠ .pending ∧
      ModalityShiftStatus.Moves (some req.status) (some req'.status) ∧ req'.Recorded := by
  have hnot : req.status.decided = false := by rw [hpending]; rfl
  cases d with
  | withdraw actor =>
    subst h
    refine ⟨ModalityShiftStatus.noConfusion, .inr ⟨congrArg some hpending, .inl rfl⟩, ⟨?_, ?_⟩⟩
    · exact hreq.decidedAt.trans (by rw [hnot]; exact Iff.rfl)
    · exact hreq.decidedBy.trans (by rw [hnot]; exact Iff.rfl)
  | reject dean reason now =>
    subst h
    exact ⟨ModalityShiftStatus.noConfusion, .inr ⟨congrArg some hpending, .inr (.inl rfl)⟩,
      ModalityShiftRequest.recorded_of_decided rfl rfl rfl⟩
  | approve dean now =>
    rcases h with rfl | ⟨reason, rfl⟩
    · exact ⟨ModalityShiftStatus.noConfusion,
        .inr ⟨congrArg some hpending, .inr (.inr (.inl rfl))⟩,
        ModalityShiftRequest.recorded_of_decided rfl rfl rfl⟩
    · exact ⟨ModalityShiftStatus.noConfusion,
        .inr ⟨congrArg some hpending, .inr (.inr (.inr rfl))⟩,
        ModalityShiftRequest.recorded_of_decided rfl rfl rfl⟩

/-! ### Any number of calls -/

/-- At most one call has succeeded; the database is what this call leaves when it runs
alone, and unchanged as long as none has. -/
structure DecidedOnce {ι : Type*} (request : ℕ) (calls : ι → Decision) (db store : Db)
    (outcomes : ι → Option (Except Err Unit)) : Prop where
  once : ∀ i j, outcomes i = some (.ok ()) → outcomes j = some (.ok ()) → i = j
  winner : ∀ i, outcomes i = some (.ok ()) → ((calls i).prog request).run db = (.ok (), store)
  unchanged : (∀ i, outcomes i ≠ some (.ok ())) → store = db
  recorded : ∀ req, store.requests.get? request = some req → req.Recorded

section

variable {ι : Type*} [DecidableEq ι] {request : ℕ} {calls : ι → Decision} {db store : Db}
  {outcomes : ι → Option (Except Err Unit)}

omit [DecidableEq ι] in
/-- Once a call has succeeded the request is no longer pending. -/
theorem DecidedOnce.not_pending (h : DecidedOnce request calls db store outcomes)
    (hdb : ∀ req, db.requests.get? request = some req → req.Recorded) {i : ι}
    (hi : outcomes i = some (.ok ())) : store.requestStatus request ≠ some .pending := by
  have hwin := h.winner i hi
  rcases (calls i).run_cases request db with ⟨e, herror⟩ |
    ⟨req, req', db', hget, hpending, hrun, hget', hdecides⟩
  · rw [herror] at hwin
    cases hwin
  · rw [hrun] at hwin
    cases hwin
    rw [Db.requestStatus, hget', Option.map_some]
    exact fun heq => (Decision.decides_final hdecides (hdb req hget) hpending).1 (Option.some.inj heq)

/-- A call that raises is not counted. -/
theorem DecidedOnce.raised (h : DecidedOnce request calls db store outcomes) {i : ι}
    (hi : outcomes i = none) (e : Err) :
    DecidedOnce request calls db store (Function.update outcomes i (some (.error e))) := by
  have hok : ∀ j, Function.update outcomes i (some (.error e)) j = some (.ok ()) ↔
      outcomes j = some (.ok ()) := by
    intro j
    by_cases hj : j = i
    · subst hj
      simp [hi]
    · rw [Function.update_of_ne hj]
  refine ⟨fun j k hj hk => ?_, fun j hj => ?_, fun hnone => ?_, h.recorded⟩
  · exact h.once j k ((hok j).mp hj) ((hok k).mp hk)
  · exact h.winner j ((hok j).mp hj)
  · exact h.unchanged fun j hj => hnone j ((hok j).mpr hj)

/-- A call that succeeds is the first. -/
theorem DecidedOnce.succeeded (h : DecidedOnce request calls db store outcomes)
    (hdb : ∀ req, db.requests.get? request = some req → req.Recorded) {i : ι}
    {req req' : ModalityShiftRequest} {store' : Db}
    (hget : store.requests.get? request = some req) (hpending : req.status = .pending)
    (hrun : ((calls i).prog request).run store = (.ok (), store'))
    (hget' : store'.requests.get? request = some req') (hdecides : (calls i).decides req req') :
    DecidedOnce request calls db store' (Function.update outcomes i (some (.ok ()))) := by
  have hstatus : store.requestStatus request = some .pending := by
    rw [Db.requestStatus, hget, Option.map_some, hpending]
  have hfirst : ∀ j, outcomes j ≠ some (.ok ()) := fun j hj => h.not_pending hdb hj hstatus
  obtain rfl : store = db := h.unchanged hfirst
  have honly : ∀ j, Function.update outcomes i (some (.ok ())) j = some (.ok ()) → j = i := by
    intro j hj
    by_contra hne
    rw [Function.update_of_ne hne] at hj
    exact hfirst j hj
  refine ⟨fun j k hj hk => ?_, fun j hj => ?_, fun hnone => ?_, fun r hr => ?_⟩
  · rw [honly j hj, honly k hk]
  · rw [honly j hj]
    exact hrun
  · exact absurd (Function.update_self i _ _) (hnone i)
  · obtain rfl : req' = r := Option.some.inj (hget'.symm.trans hr)
    exact (Decision.decides_final hdecides (hdb req hget) hpending).2.2

/-- One call that runs alone. -/
theorem DecidedOnce.step (h : DecidedOnce request calls db store outcomes)
    (hdb : ∀ req, db.requests.get? request = some req → req.Recorded) {i : ι}
    (hi : outcomes i = none) :
    DecidedOnce request calls db (((calls i).prog request).run store).2
        (Function.update outcomes i (some (((calls i).prog request).run store).1)) ∧
      ModalityShiftStatus.Moves (store.requestStatus request)
        ((((calls i).prog request).run store).2.requestStatus request) := by
  rcases (calls i).run_cases request store with ⟨e, herror⟩ |
    ⟨req, req', store', hget, hpending, hrun, hget', hdecides⟩
  · rw [herror]
    exact ⟨h.raised hi e, .inl rfl⟩
  · rw [hrun]
    refine ⟨h.succeeded hdb hget hpending hrun hget' hdecides, ?_⟩
    rw [Db.requestStatus, Db.requestStatus, hget, hget']
    exact (Decision.decides_final hdecides (h.recorded req hget) hpending).2.1

end

theorem ModalityShiftStatus.Moves.trans {a b c : Option ModalityShiftStatus} (h : Moves a b)
    (h' : Moves b c) : Moves a c := by
  rcases h' with rfl | ⟨hb, hc⟩
  · exact h
  · exact .inr ⟨h.of_pending hb, hc⟩

/-- In every interleaving of withdrawals, rejections and approvals of one request at most
one call succeeds and the others raise without a trace, the status leaves `pending` at most
once, the dean's decisions and nothing else are recorded, and no call gets stuck. -/
theorem request_decided_once {ι : Type*} [Fintype ι] [DecidableEq ι] (request : ℕ)
    (calls : ι → Decision) (db : Db)
    (hdb : ∀ req, db.requests.get? request = some req → req.Recorded) (schedule : List ι) :
    let P := (Pool.start db fun i => (calls i).prog request).exec schedule
    DecidedOnce request calls db P.store P.outcomes ∧
      (∀ more, ModalityShiftStatus.Moves (P.store.requestStatus request)
        ((P.exec more).store.requestStatus request)) ∧
      ∃ more, ∀ i, ((P.exec more).outcomes i).isSome = true := by
  choose body hnested heq using fun i => (calls i).exists_body request
  have hstart : Pool.Exclusive (.request request) body
      (Pool.start db fun i => (calls i).prog request) := by
    rw [funext heq]
    exact Pool.exclusive_start db
  have hfirst : DecidedOnce request calls db db
      (Pool.start db fun i => (calls i).prog request).outcomes := by
    have hnone : (Pool.start db fun i => (calls i).prog request).outcomes = fun _ => none := by
      rw [funext heq]
      rfl
    rw [hnone]
    exact ⟨fun _ _ hi _ => (by cases hi), fun _ hi => (by cases hi), fun _ => rfl, hdb⟩
  have hstep : ∀ s out i, DecidedOnce request calls db s out → out i = none →
      DecidedOnce request calls db ((Pool.block (.request request) body i).run s).2
          (Function.update out i (some ((Pool.block (.request request) body i).run s).1)) ∧
        ModalityShiftStatus.Moves (s.requestStatus request)
          (((Pool.block (.request request) body i).run s).2.requestStatus request) := by
    intro s out i hs hi
    have hblock : Pool.block (.request request) body i = (calls i).prog request := (heq i).symm
    rw [hblock]
    exact hs.step hdb hi
  obtain ⟨hexcl, hnow⟩ := hstart.exec hnested (fun s out i hs hi => (hstep s out i hs hi).1)
    hfirst schedule
  refine ⟨hnow, fun more => ?_, hexcl.exists_exec_ended hnested⟩
  -- from here the invariant carries the moves along, seen from the status reached so far
  refine (hexcl.exec (Φ := fun s out => DecidedOnce request calls db s out ∧
    ModalityShiftStatus.Moves _ (s.requestStatus request)) hnested (fun s out i hs hi => ?_)
    ⟨hnow, .inl rfl⟩ more).2.2
  obtain ⟨hnext, hmoves⟩ := hstep s out i hs.1 hi
  exact ⟨hnext, hs.2.trans hmoves⟩

namespace Campus

/-- The requester withdraws while the dean rejects. -/
def dispute : Bool → Decision
  | true => .withdraw 1
  | false => .reject dean "no" 0

/-- The two take turns. -/
def turns : List Bool := (List.replicate 20 [true, false]).flatten

/-- What has become of the request then. -/
def disputed : Pool Bool RowLock Db Err Unit :=
  (Pool.start (requested .online) fun i => (dispute i).prog 1).exec turns

end Campus

open Campus in
/-- The withdrawal comes first and the rejection raises. -/
theorem request_decided_once_withdrawn :
    (disputed.outcomes true = some (.ok ()) ∧
      disputed.outcomes false =
        some (.error (.modalityShift "only a pending request may be rejected"))) ∧
    DecidedOnce 1 dispute (requested .online) disputed.store disputed.outcomes := by
  refine ⟨by decide, (request_decided_once 1 dispute (requested .online) ?_ turns).1⟩
  intro req hget
  obtain rfl := List.mem_singleton.mp (Table.get?_eq_some_iff.mp hget).1
  exact ⟨by decide, by decide⟩

end FluxTrack
