import FluxTrack.Scheduling.ImportOfferings
import FluxTrack.Scheduling.ShiftRequests
import FluxTrack.Theorems.CheckerScans
import FluxTrack.Theorems.SessionChanges
import FluxTrack.Theorems.Sweep
import FluxTrack.Verification.OnlineDuty
import Mathlib.Data.List.Dedup

/-!
# Archived terms

What an archived term owns stays as it is, whatever is called. Some services refuse a call that
is about an archived term; the others select what they touch by the active one.

A schedule and a suspension name their term. A session and an item of a shift request are owned
through their schedule, a request through its items.

## Main definitions

* `Db.ofTerm`, `Db.ownsRequest` — ownership
* `Db.Spares` — what a term owns is the same in two databases
* `WriterCall` — the calls, with what they are about

## Main results

* `spares_writerCall` — every call spares an archived term
* `frozen_of_archived` — and refuses what is about it
-/

namespace FluxTrack

open Calendar Relational Process

/-! ### Ownership -/

namespace Db

/-- The schedules of a term. -/
def ownedSchedules (db : Db) (T : ℕ) : List Schedule := db.schedules.rows.filter fun c => c.term == T

/-- The schedule with this key is one of the term. -/
def ofTerm (db : Db) (T pk : ℕ) : Bool := (db.ownedSchedules T).any fun c => c.id == pk

def ownedSessions (db : Db) (T : ℕ) : List Session :=
  db.sessions.rows.filter fun s => db.ofTerm T s.schedule

def ownedSuspensions (db : Db) (T : ℕ) : List ClassSuspension :=
  db.suspensions.rows.filter fun sp => sp.term == T

def ownedItems (db : Db) (T : ℕ) : List ModalityShiftItem :=
  db.items.rows.filter fun i => db.ofTerm T i.schedule

/-- The request with this key has an item of the term. -/
def ownsRequest (db : Db) (T pk : ℕ) : Bool := (db.ownedItems T).any fun i => i.request == pk

/-- The term is archived. -/
def Archived (db : Db) (T : ℕ) : Prop :=
  ∃ t, db.terms.table.get? T = some t ∧ t.status = .archived

/-- What the term owns in `db` is the same in `db'`. -/
structure Spares (T : ℕ) (db db' : Db) : Prop where
  term : db'.terms.table.get? T = db.terms.table.get? T
  schedules : db'.ownedSchedules T = db.ownedSchedules T
  sessions : db'.ownedSessions T = db.ownedSessions T
  suspensions : db'.ownedSuspensions T = db.ownedSuspensions T
  items : db'.ownedItems T = db.ownedItems T
  requests : ∀ r ∈ db.requests, db.ownsRequest T r.id = true → r ∈ db'.requests

/-- No session with this key is owned by the term. -/
def Foreign (db : Db) (T pk : ℕ) : Prop :=
  ∀ s ∈ db.sessions, s.id = pk → db.ofTerm T s.schedule = false

section

variable {db db₁ : Db} {T k pk : ℕ} {s : Session}

theorem ofTerm_iff : db.ofTerm T pk = true ↔ ∃ c ∈ db.schedules, c.id = pk ∧ c.term = T := by
  simp [ofTerm, ownedSchedules, and_assoc, and_comm]

theorem ownsRequest_iff :
    db.ownsRequest T pk = true ↔
      ∃ i ∈ db.items, i.request = pk ∧ db.ofTerm T i.schedule = true := by
  simp [ownsRequest, ownedItems, and_comm]

theorem Archived.ne (hT : db.Archived T) {t : AcademicTerm} (h : db.terms.table.get? k = some t)
    (ht : t.status ≠ .archived) : k ≠ T := by
  rintro rfl
  obtain ⟨u, hu, harch⟩ := hT
  obtain rfl : t = u := Option.some.inj (h.symm.trans hu)
  exact ht harch

theorem Archived.ne_of_active (hT : db.Archived T) {t : AcademicTerm}
    (h : db.activeTerm = some t) : t.id ≠ T := by
  obtain ⟨hmem, hact⟩ := mem_of_activeTerm h
  exact hT.ne (Table.get?_key hmem) (by simp [hact])

/-- A schedule of another term is not one of the term. -/
theorem ofTerm_eq_false {c : Schedule} (hc : c ∈ db.schedules) (hne : c.term ≠ T) :
    db.ofTerm T c.id = false := by
  rw [Bool.eq_false_iff]
  intro h
  obtain ⟨c', hc', hid, hterm⟩ := ofTerm_iff.mp h
  obtain rfl : c' = c := Table.eq_of_key_eq hc' hc hid
  exact hne hterm

theorem term_of_ofTerm (h : db.ofTerm T pk = true) :
    ((db.schedules.get? pk).getD default).term = T := by
  obtain ⟨c, hc, rfl, hterm⟩ := ofTerm_iff.mp h
  rw [show db.schedules.get? c.id = some c from Table.get?_key hc]
  exact hterm

theorem ofTerm_of_inTerm (h : db.inTerm k s = true) (hne : k ≠ T) :
    db.ofTerm T s.schedule = false := by
  rw [Bool.eq_false_iff]
  intro howned
  refine hne ?_
  rw [← term_of_ofTerm howned]
  exact (beq_iff_eq.mp h).symm

theorem foreign_of_mem (hs : s ∈ db.sessions) (h : db.ofTerm T s.schedule = false) :
    db.Foreign T s.id := by
  intro a ha hid
  rwa [Table.eq_of_key_eq ha hs hid]

end

/-! ### Sparing -/

namespace Spares

variable {T pk : ℕ}

theorem ofTerm {db db₁ : Db} (h : db.Spares T db₁) (pk : ℕ) : db₁.ofTerm T pk = db.ofTerm T pk := by
  rw [Db.ofTerm, Db.ofTerm, h.schedules]

theorem ownsRequest {db db₁ : Db} (h : db.Spares T db₁) (pk : ℕ) :
    db₁.ownsRequest T pk = db.ownsRequest T pk := by
  rw [Db.ownsRequest, Db.ownsRequest, h.items]

theorem archived {db db₁ : Db} (h : db.Spares T db₁) (hT : db.Archived T) : db₁.Archived T := by
  obtain ⟨t, ht⟩ := hT
  exact ⟨t, by rwa [h.term]⟩

/-- A foreign session stays foreign. -/
theorem foreign {db db₁ : Db} (h : db.Spares T db₁) (hpk : db.Foreign T pk) : db₁.Foreign T pk := by
  intro s hs hid
  rw [Bool.eq_false_iff]
  intro howned
  have hmem : s ∈ db.ownedSessions T := by
    rw [← h.sessions]
    exact List.mem_filter.mpr ⟨hs, howned⟩
  obtain ⟨hold, hown⟩ := List.mem_filter.mp hmem
  exact Bool.eq_false_iff.mp (hpk s hold hid) hown

theorem kind : Prog.Kind (Spares T) where
  refl _ := ⟨rfl, rfl, rfl, rfl, rfl, fun _ hr _ => hr⟩
  trans a b c h h' := by
    refine ⟨h'.term.trans h.term, h'.schedules.trans h.schedules, h'.sessions.trans h.sessions,
      h'.suspensions.trans h.suspensions, h'.items.trans h.items, fun r hr howned => ?_⟩
    exact h'.requests r (h.requests r hr howned) (by rwa [h.ownsRequest])

end Spares

end Db

section

variable {db db₁ : Db} {T : ℕ}

/-- A change of none of the tables that a term owns rows of, but for schedules of others. -/
theorem spares_of_eq (hterms : db₁.terms = db.terms)
    (hschedules : db₁.ownedSchedules T = db.ownedSchedules T)
    (hsessions : db₁.sessions = db.sessions) (hsuspensions : db₁.suspensions = db.suspensions)
    (hitems : db₁.items = db.items) (hrequests : db₁.requests = db.requests) :
    db.Spares T db₁ where
  term := by rw [hterms]
  schedules := hschedules
  sessions := by simp only [Db.ownedSessions, Db.ofTerm, hsessions, hschedules]
  suspensions := by simp only [Db.ownedSuspensions, hsuspensions]
  items := by simp only [Db.ownedItems, Db.ofTerm, hitems, hschedules]
  requests := by rw [hrequests]; exact fun _ hr _ => hr

/-- A change of sessions that the term does not own. -/
theorem spares_sessions {p : Session → Bool} {f : Session → Session} (hf : ∀ a, key (f a) = key a)
    (hsessions : db₁.sessions = db.sessions.update p f hf) (hterms : db₁.terms = db.terms)
    (hschedules : db₁.ownedSchedules T = db.ownedSchedules T)
    (hsuspensions : db₁.ownedSuspensions T = db.ownedSuspensions T)
    (hitems : db₁.items = db.items) (hrequests : db₁.requests = db.requests)
    (hsel : ∀ a ∈ db.sessions, p a = true → db.ofTerm T a.schedule = false)
    (hkept : ∀ a, (f a).schedule = a.schedule) : db.Spares T db₁ where
  term := by rw [hterms]
  schedules := hschedules
  sessions := by
    simp only [Db.ownedSessions, Db.ofTerm, hschedules, hsessions]
    refine Table.filter_update hf fun a ha hp => ?_
    rw [hkept]
    exact ⟨hsel a ha hp, hsel a ha hp⟩
  suspensions := hsuspensions
  items := by simp only [Db.ownedItems, Db.ofTerm, hschedules, hitems]
  requests := by rw [hrequests]; exact fun _ hr _ => hr

theorem spares_saveSession {pk : ℕ} (hpk : db.Foreign T pk) {f : Session → Session}
    {hf : ∀ a, key (f a) = key a} (hkept : ∀ a, (f a).schedule = a.schedule) :
    db.Spares T ((saveSession pk f hf).run db).2 :=
  spares_sessions hf rfl rfl rfl rfl rfl rfl (fun a ha hsel => hpk a ha (beq_iff_eq.mp hsel)) hkept

/-- A statement about none of these tables. -/
theorem spares_createAudit (actor : Option ℕ) (event : AuditEvent) :
    db.Spares T ((createAudit actor event).run db).2 :=
  spares_of_eq rfl rfl rfl rfl rfl rfl

theorem spares_notifyRole (role : Role) (notice : Notice) :
    db.Spares T ((notifyRole role notice).run db).2 :=
  spares_of_eq rfl rfl rfl rfl rfl rfl

theorem spares_bind {α β : Type} {p : M α} {f : α → M β} (hp : db.Spares T (p.run db).2)
    (hf : ∀ a t, p.run db = (.ok a, t) → db.Spares T t → t.Spares T ((f a).run t).2) :
    db.Spares T ((p >>= f).run db).2 :=
  Db.Spares.kind.bind hp hf

theorem spares_of_run {α : Type} {p : M α} {a : α} (hrun : p.run db = (.ok a, db₁))
    (h : db.Spares T (p.run db).2) : db.Spares T db₁ := by
  rwa [hrun] at h

theorem spares_map {α β : Type} {p : M α} {f : α → β} (hp : db.Spares T (p.run db).2) :
    db.Spares T ((p >>= fun a => pure (f a)).run db).2 := by
  rwa [Prog.snd_run_bind_pure]

end

/-! ### Services -/

section

variable {db db₁ : Db} {T : ℕ}

/-- A session of the term is found by no query for another term. -/
theorem foreign_of_inTerm {k : ℕ} {s : Session} (hs : s ∈ db.sessions) (h : db.inTerm k s = true)
    (hne : k ≠ T) : db.Foreign T s.id :=
  Db.foreign_of_mem hs (Db.ofTerm_of_inTerm h hne)

theorem spares_propagateMerged (hT : db.Archived T) (anchor : ℕ) (actor : Option ℕ)
    {f : Session → Session} {hf : ∀ s, key (f s) = key s} (hkept : ∀ a, (f a).schedule = a.schedule)
    (event : ℕ → AuditEvent) : db.Spares T ((propagateMerged anchor actor f hf event).run db).2 := by
  rcases run_propagateMerged_cases anchor actor f hf event db with
    ⟨e, hrun⟩ | ⟨x, -, -, ⟨t, ht, hopen⟩, hrun⟩ <;> rw [hrun]
  · exact Db.Spares.kind.refl db
  · refine spares_sessions hf rfl rfl rfl rfl rfl rfl (fun a ha hsel => ?_) hkept
    obtain ⟨c, hc, hid, -, hterm, -⟩ := mem_mergeFill.mp (List.contains_iff_mem.mp hsel)
    obtain rfl : c = a := Table.eq_of_key_eq hc ha hid
    exact Db.ofTerm_of_inTerm hterm (hT.ne ht hopen)

theorem spares_propagateMergedPresent (hT : db.Archived T) (anchor : ℕ) (now : ℤ)
    (actor : Option ℕ) : db.Spares T ((propagateMergedPresent anchor now actor).run db).2 := by
  refine spares_propagateMerged hT anchor actor ?_ _
  exact fun _ => rfl

theorem spares_propagateMergedAbsent (hT : db.Archived T) (anchor : Session) (actor : Option ℕ)
    (now : ℤ) : db.Spares T ((propagateMergedAbsent anchor actor now).run db).2 := by
  rw [propagateMergedAbsent, Prog.run_select_bind]
  split
  · refine spares_propagateMerged hT anchor.id actor ?_ _
    exact fun _ => rfl
  · exact Db.Spares.kind.refl db

theorem spares_sweepNoShows (hT : db.Archived T) (now : ℤ) :
    db.Spares T ((sweepNoShows now).run db).2 := by
  rw [run_sweepNoShows]
  refine spares_sessions Session.key_markAbsent rfl rfl rfl rfl rfl rfl (fun a ha hsel => ?_)
    fun _ => rfl
  unfold Db.sweepable at hsel
  split at hsel
  · cases hsel
  · rename_i t hactive
    simp only [Bool.and_eq_true] at hsel
    exact Db.ofTerm_of_inTerm hsel.1.2 (hT.ne_of_active hactive)

/-- An update of one schedule of another term, which stays in its term. -/
theorem ownedSchedules_update {c : Schedule} (hc : c ∈ db.schedules) (hne : c.term ≠ T)
    {f : Schedule → Schedule} (hf : ∀ a, key (f a) = key a) (hkept : ∀ a, (f a).term = a.term)
    (h : db₁.schedules = db.schedules.update (fun a => a.id == c.id) f hf) :
    db₁.ownedSchedules T = db.ownedSchedules T := by
  rw [Db.ownedSchedules, h]
  refine Table.filter_update hf fun a ha hsel => ?_
  obtain rfl : a = c := Table.eq_of_key_eq ha hc (beq_iff_eq.mp hsel)
  rw [hkept]
  exact ⟨beq_false_of_ne hne, beq_false_of_ne hne⟩

theorem ofTerm_of_futureScheduled {c : Schedule} (hc : c ∈ db.schedules) (hne : c.term ≠ T)
    {today : ℤ} {a : Session} (ha : a ∈ db.sessions)
    (hsel : ((db.futureScheduled c.id today).map Session.id).contains a.id = true) :
    db.ofTerm T a.schedule = false := by
  obtain ⟨b, hb, hid⟩ := List.mem_map.mp (List.contains_iff_mem.mp hsel)
  obtain ⟨hmem, hsched⟩ := List.mem_filter.mp hb
  obtain rfl : b = a := Table.eq_of_key_eq (Db.mem_sessionList.mp hmem) ha hid
  simp only [Bool.and_eq_true, beq_iff_eq] at hsched
  rw [hsched.1.1]
  exact Db.ofTerm_eq_false hc hne

theorem spares_cancelSchedule (hT : db.Archived T) (schedule : ℕ) (actor : Option ℕ)
    (reason : String) (today : ℤ) :
    db.Spares T ((cancelSchedule schedule actor reason today).run db).2 := by
  rcases run_cancelSchedule_cases db schedule actor reason today with
    ⟨e, hrun⟩ | ⟨c, hc, rfl, ⟨t, ht, hopen⟩, hrun⟩ <;> rw [hrun]
  · exact Db.Spares.kind.refl db
  · have hne := hT.ne ht hopen
    have hschedules : (db.dropped c.id actor reason today).ownedSchedules T =
        db.ownedSchedules T :=
      ownedSchedules_update hc hne Schedule.key_archive (fun _ => rfl) rfl
    exact spares_sessions (Session.key_cancel _) rfl rfl hschedules rfl rfl rfl
      (fun a ha => ofTerm_of_futureScheduled hc hne ha) fun _ => rfl

theorem spares_updateSchedule (hT : db.Archived T) (schedule : ℕ) (e : ScheduleEdit)
    (actor : Option ℕ) (today : ℤ) :
    db.Spares T ((updateSchedule schedule e actor today).run db).2 := by
  rcases run_updateSchedule_cases db schedule e actor today with
    ⟨e, hrun⟩ | ⟨c, hc, rfl, t, ht, hopen, -, hrun⟩ <;> rw [hrun]
  · exact Db.Spares.kind.refl db
  · have hne := hT.ne ht hopen
    have hschedules : (db.edited c e actor today).ownedSchedules T = db.ownedSchedules T :=
      ownedSchedules_update hc hne (Schedule.key_assign _) (fun _ => rfl) rfl
    exact spares_sessions (Session.key_followOwn _) rfl rfl hschedules rfl rfl rfl
      (fun a ha => ofTerm_of_futureScheduled hc hne ha) fun _ => rfl

theorem spares_suspendClasses (hT : db.Archived T) (term : ℕ) (startDate endDate : ℤ)
    (reason : String) (building declaredBy : Option ℕ) :
    db.Spares T ((suspendClasses term startDate endDate reason building declaredBy).run db).2 := by
  rcases run_suspendClasses_cases db term startDate endDate reason building declaredBy with
    ⟨e, hrun⟩ | ⟨⟨t, ht, hopen⟩, hrun⟩ <;> rw [hrun]
  · exact Db.Spares.kind.refl db
  · have hne := hT.ne ht hopen
    have hsuspensions : (db.suspended term startDate endDate reason building
        declaredBy).ownedSuspensions T = db.ownedSuspensions T :=
      Table.filter_insert (beq_false_of_ne hne)
    refine spares_sessions (Session.key_cancel _) rfl rfl rfl hsuspensions rfl rfl
      (fun a ha hsel => ?_) fun _ => rfl
    simp only [Db.suspendable, Bool.and_eq_true] at hsel
    exact Db.ofTerm_of_inTerm hsel.1.1.1 hne

theorem spares_liftSuspension (hT : db.Archived T) (suspension : ℕ) (liftedBy : Option ℕ)
    (now : ℤ) : db.Spares T ((liftSuspension suspension liftedBy now).run db).2 := by
  rcases run_liftSuspension_cases db suspension liftedBy now with
    ⟨e, hrun⟩ | ⟨sp, -, -, -, -, hrun⟩ | ⟨sp, hsp, -, -, ⟨t, ht, hopen⟩, hrun⟩ <;> rw [hrun]
  · exact Db.Spares.kind.refl db
  · exact Db.Spares.kind.refl db
  · have hne := hT.ne ht hopen
    have hsuspensions : (db.lifted sp liftedBy now).ownedSuspensions T = db.ownedSuspensions T := by
      refine Table.filter_update (f := ClassSuspension.lift now liftedBy) (fun _ => rfl)
        fun a ha hsel => ?_
      obtain rfl : a = sp := Table.eq_of_key_eq ha hsp (beq_iff_eq.mp hsel)
      exact ⟨beq_false_of_ne hne, beq_false_of_ne hne⟩
    refine spares_sessions Session.key_uncancel rfl rfl rfl hsuspensions rfl rfl
      (fun a ha hsel => ?_) fun _ => rfl
    simp only [Db.liftable, Bool.and_eq_true] at hsel
    exact Db.ofTerm_of_inTerm hsel.1.1.1.1 hne

/-- A birth in another term. -/
theorem spares_bear {c : Schedule} (hc : c ∈ db.schedules) (hne : c.term ≠ T) (d now : ℤ)
    (notifications : List Notification) : db.Spares T (db.bear c d now notifications) where
  term := rfl
  schedules := rfl
  sessions := by
    refine Table.filter_insert ?_
    rw [(Session.occurrence_born _ _ _ _).1]
    exact Db.ofTerm_eq_false hc hne
  suspensions := rfl
  items := rfl
  requests := fun _ hr _ => hr

theorem spares_materializeTerm (hT : db.Archived T) {t : AcademicTerm}
    (ht : t ∈ db.terms.table) (start days : ℤ) (allowDraft : Bool) (now : ℤ) :
    db.Spares T ((materializeTerm t start days allowDraft now).run db).2 := by
  refine materializeTerm_invariant_of_reaches (P := fun db' => db.Spares T db')
    (fun db' c d notifications hspares hdue hreaches => ?_) (Db.Spares.kind.refl db)
  refine Db.Spares.kind.trans db db' _ hspares (spares_bear hdue.mem ?_ d now notifications)
  rw [hdue.inTerm]
  refine hT.ne (Table.get?_key ht) fun harch => ?_
  rcases hreaches.1 with hactive | ⟨hdraft, -⟩
  · rw [harch] at hactive
    cases hactive
  · rw [harch] at hdraft
    cases hdraft

end

/-! ### Requests -/

section

variable {db db₁ : Db} {T : ℕ} {req : ModalityShiftRequest} {term : ℕ}

/-- An item of a request whose schedules are of another term. -/
theorem ofTerm_of_termIdsOf (h : db.termIdsOf req.id = [term]) (hne : term ≠ T)
    {i : ModalityShiftItem} (hi : i ∈ db.itemsOf req.id) : db.ofTerm T i.schedule = false := by
  rw [Bool.eq_false_iff]
  intro howned
  have hmem : T ∈ db.termIdsOf req.id := by
    rw [Db.termIdsOf, List.mem_dedup, List.mem_map]
    exact ⟨i, hi, Db.term_of_ofTerm howned⟩
  rw [h, List.mem_singleton] at hmem
  exact hne hmem.symm

theorem ownsRequest_of_termIdsOf (h : db.termIdsOf req.id = [term]) (hne : term ≠ T) :
    db.ownsRequest T req.id = false := by
  rw [Bool.eq_false_iff]
  intro howned
  obtain ⟨i, hi, hreq, hown⟩ := Db.ownsRequest_iff.mp howned
  have hitem : i ∈ db.itemsOf req.id := List.mem_filter.mpr ⟨hi, beq_iff_eq.mpr hreq⟩
  exact Bool.eq_false_iff.mp (ofTerm_of_termIdsOf h hne hitem) hown

/-- A write to a request that the term does not own. -/
theorem spares_saveRequest {pk : ℕ} (h : db.ownsRequest T pk = false)
    {f : ModalityShiftRequest → ModalityShiftRequest} {hf : ∀ r, key (f r) = key r} :
    db.Spares T ((saveRequest pk f hf).run db).2 where
  term := rfl
  schedules := rfl
  sessions := rfl
  suspensions := rfl
  items := rfl
  requests r hr howned := by
    refine Table.mem_update_of_neg hf hr (beq_false_of_ne fun hpk => ?_)
    rw [hpk] at howned
    exact Bool.eq_false_iff.mp h howned

/-- A decision that no more than saves the request and tells about it. -/
theorem spares_decide {α : Type} {pk : ℕ} (h : db.ownsRequest T pk = false)
    {f : ModalityShiftRequest → ModalityShiftRequest} {hf : ∀ r, key (f r) = key r}
    {rest : M α} (hrest : ∀ t : Db, t.Spares T (rest.run t).2) :
    db.Spares T ((saveRequest pk f hf >>= fun _ => rest).run db).2 :=
  spares_bind (spares_saveRequest h) fun _ t _ _ => hrest t

theorem spares_withdrawModalityShift (hT : db.Archived T) (request actor : ℕ) :
    db.Spares T ((withdrawModalityShift request actor).run db).2 := by
  refine Db.Spares.kind.atomic fun _ db' hrun => ?_
  obtain ⟨req, term, t, -, hone, ht, hopen, hbody⟩ := run_guarded_eq_ok hrun
  split at hbody
  · cases hbody
  · split at hbody
    · cases hbody
    · have hforeign := ownsRequest_of_termIdsOf hone (hT.ne ht hopen)
      exact spares_of_run hbody (spares_decide hforeign fun _ => spares_createAudit _ _)

theorem spares_rejectModalityShift (hT : db.Archived T) (request : ℕ) (dean : User)
    (reason : String) (now : ℤ) :
    db.Spares T ((rejectModalityShift request dean reason now).run db).2 := by
  refine Db.Spares.kind.atomic fun _ db' hrun => ?_
  obtain ⟨req, term, t, -, hone, ht, hopen, hbody⟩ := run_guarded_eq_ok hrun
  split at hbody
  · cases hbody
  · split at hbody
    · cases hbody
    · have hforeign := ownsRequest_of_termIdsOf hone (hT.ne ht hopen)
      exact spares_of_run hbody
        (spares_decide hforeign fun _ => spares_of_eq rfl rfl rfl rfl rfl rfl)

/-! ### Approving -/

/-- The sessions that a request of another term is about. -/
theorem foreign_of_inWindow {schedule : ℕ} (hschedule : db.ofTerm T schedule = false) {a b : ℤ}
    {s : Session} (hs : s ∈ db.inWindowSessions schedule a b) : db.Foreign T s.id := by
  obtain ⟨hmem, hsel⟩ := List.mem_filter.mp ((List.mem_insertionSort _).mp hs)
  simp only [Session.inWindow, Bool.and_eq_true, beq_iff_eq] at hsel
  refine Db.foreign_of_mem hmem ?_
  rwa [hsel.1.1]

theorem spares_applyOnline {sessions : List Session} (h : ∀ s ∈ sessions, db.Foreign T s.id)
    (dean : ℕ) (now : ℤ) : db.Spares T ((applyOnline sessions dean now).run db).2 := by
  refine Db.Spares.kind.forEach fun s hs db₁ hspares => ?_
  refine spares_bind (spares_saveSession (hspares.foreign (h s hs)) fun _ => rfl) fun _ t _ ht => ?_
  refine spares_bind (spares_saveSession (ht.foreign (hspares.foreign (h s hs))) fun _ => rfl)
    fun _ t _ _ => spares_createAudit _ _

theorem spares_checkMove (item : ModalityShiftItem) (s : Session) :
    db.Spares T ((checkMove item s).run db).2 := by
  unfold checkMove
  split
  · exact Db.Spares.kind.refl db
  · rw [Prog.run_select_bind]
    split <;> exact Db.Spares.kind.refl db

theorem spares_resolveShiftRoom (sched : Schedule) (preferred : Option ℕ) (start finish : ℤ)
    (pk : ℕ) : db.Spares T ((resolveShiftRoom sched preferred start finish pk).run db).2 := by
  rw [resolveShiftRoom, Prog.run_select_bind]
  split <;> exact Db.Spares.kind.refl db

theorem spares_shiftSession {s : Session} (h : db.Foreign T s.id) (item : ModalityShiftItem)
    (sched : Schedule) (dean : ℕ) (now : ℤ) :
    db.Spares T ((shiftSession req item sched dean now s).run db).2 := by
  refine spares_bind (spares_checkMove item s) fun _ db₁ _ h₁ => ?_
  refine spares_bind (spares_resolveShiftRoom _ _ _ _ _) fun room db₂ _ h₂ => ?_
  cases room with
  | none => exact Db.Spares.kind.refl db₂
  | some room => exact spares_map (spares_saveSession (h₂.foreign (h₁.foreign h)) fun _ => rfl)

theorem spares_shiftSessions (item : ModalityShiftItem) (sched : Schedule) (dean : ℕ) (now : ℤ)
    {sessions : List Session} (h : ∀ s ∈ sessions, db.Foreign T s.id) (resolved : Option ℕ) :
    db.Spares T ((shiftSessions req item sched dean now sessions resolved).run db).2 := by
  induction sessions generalizing db resolved with
  | nil => exact Db.Spares.kind.refl db
  | cons s rest ih =>
    refine spares_bind (spares_shiftSession (h s List.mem_cons_self) item sched dean now)
      fun room db₁ _ h₁ => ?_
    exact ih (fun s' hs' => h₁.foreign (h s' (List.mem_cons_of_mem s hs'))) (some room)

/-- No item with this key is owned by the term. -/
def Db.ForeignItem (db : Db) (T pk : ℕ) : Prop :=
  ∀ i ∈ db.items, i.id = pk → db.ofTerm T i.schedule = false

theorem Db.Spares.foreignItem (h : db.Spares T db₁) {pk : ℕ} (hpk : db.ForeignItem T pk) :
    db₁.ForeignItem T pk := by
  intro i hi hid
  rw [Bool.eq_false_iff]
  intro howned
  have hmem : i ∈ db.ownedItems T := by
    rw [← h.items]
    exact List.mem_filter.mpr ⟨hi, howned⟩
  obtain ⟨hold, hown⟩ := List.mem_filter.mp hmem
  exact Bool.eq_false_iff.mp (hpk i hold hid) hown

theorem spares_saveAssignedRoom {i : ModalityShiftItem}
    (h : db.ForeignItem T i.id) (room : ℕ) :
    db.Spares T ((saveAssignedRoom i.id room).run db).2 where
  term := rfl
  schedules := rfl
  sessions := rfl
  suspensions := rfl
  items := by
    refine Table.filter_update
      (f := fun j : ModalityShiftItem => { j with assignedRoom := some room }) (fun _ => rfl)
      fun j hj hsel => ?_
    exact ⟨h j hj (beq_iff_eq.mp hsel), h j hj (beq_iff_eq.mp hsel)⟩
  requests := fun _ hr _ => hr

theorem spares_applyF2f (hone : db.termIdsOf req.id = [term]) (hne : term ≠ T) (dean : ℕ)
    (now : ℤ) : db.Spares T ((applyF2f req dean now).run db).2 := by
  rw [applyF2f, Prog.run_select_bind]
  refine Db.Spares.kind.forEach fun row hrow db₁ h₁ => ?_
  obtain ⟨i, hi, rfl⟩ := List.mem_map.mp hrow
  have hschedule : db.ofTerm T i.schedule = false := ofTerm_of_termIdsOf hone hne hi
  have hitem : db.ForeignItem T i.id := by
    intro j hj hid
    rwa [Table.eq_of_key_eq hj (List.mem_filter.mp hi).1 hid]
  rw [shiftItem, Prog.run_select_bind]
  refine spares_bind (spares_shiftSessions _ _ _ _ (fun s hs => ?_) none) fun room db₂ _ h₂ => ?_
  · exact foreign_of_inWindow (by rwa [h₁.ofTerm]) hs
  · cases room with
    | none => exact Db.Spares.kind.refl db₂
    | some room => exact spares_saveAssignedRoom (h₂.foreignItem (h₁.foreignItem hitem)) room

theorem spares_applyShift (hone : db.termIdsOf req.id = [term]) (hne : term ≠ T) (dean : ℕ)
    (now : ℤ) : db.Spares T ((applyShift req (db.affectedSessions req) dean now).run db).2 := by
  unfold applyShift
  split
  · refine spares_applyOnline (fun s hs => ?_) dean now
    obtain ⟨i, hi, hs⟩ := List.mem_flatMap.mp hs
    exact foreign_of_inWindow (ofTerm_of_termIdsOf hone hne hi) hs
  · exact spares_applyF2f hone hne dean now

theorem spares_applyConsequence (hone : db.termIdsOf req.id = [term]) (hne : term ≠ T) (dean : ℕ)
    (now : ℤ) :
    db.Spares T ((applyConsequence req (db.affectedSessions req) dean now).run db).2 := by
  have hshift := spares_applyShift hone hne dean now
  rw [run_applyConsequence]
  split
  · rename_i hrun
    rwa [hrun] at hshift
  · exact Db.Spares.kind.refl db
  · exact Db.Spares.kind.refl db

theorem spares_applyApproval (hT : db.Archived T) (request : ℕ) (dean : User) (now : ℤ) :
    db.Spares T ((applyApproval request dean now).run db).2 := by
  refine Db.Spares.kind.atomic fun _ db' hrun => ?_
  obtain ⟨req, term, t, -, hone, ht, hopen, hbody⟩ := run_guarded_eq_ok hrun
  have hne := hT.ne ht hopen
  split at hbody
  · cases hbody
  · split at hbody
    · cases hbody
    · rw [Prog.run_bind_of_ok (run_affectedSessions req)] at hbody
      refine spares_of_run hbody (spares_bind (spares_applyConsequence hone hne dean.id now)
        fun denied db₁ _ h₁ => ?_)
      have hforeign : db₁.ownsRequest T req.id = false := by
        rw [h₁.ownsRequest]
        exact ownsRequest_of_termIdsOf hone hne
      cases denied with
      | none => exact spares_decide hforeign fun _ => spares_of_eq rfl rfl rfl rfl rfl rfl
      | some reason => exact spares_decide hforeign fun _ => spares_of_eq rfl rfl rfl rfl rfl rfl

end

/-! ### Asking -/

section

variable {db : Db} {T : ℕ}

/-- What follows a statement as a check of its answer changes nothing. -/
theorem spares_modifyGet_check {α : Type} {g : Db → α} {u : Db → Db} {f : α → M Unit}
    (h : db.Spares T (u db)) (hf : ∀ a t, ((f a).run t).2 = t) :
    db.Spares T ((Prog.modifyGet g u >>= f).run db).2 := by
  rw [Prog.run_modifyGet_bind, hf]
  exact h

theorem spares_createRequest (pk : ℕ) (faculty : User) (dean : ℕ) (target : Modality) (a b : ℤ)
    (isMove : Bool) : db.Spares T ((createRequest pk faculty dean target a b isMove).run db).2 := by
  refine spares_modifyGet_check ⟨rfl, rfl, rfl, rfl, rfl, fun _ hr _ => ?_⟩ fun fresh t => ?_
  · exact Table.mem_add.mpr (.inl hr)
  · split <;> rfl

theorem spares_insertItem {c : Schedule} (hc : db.ofTerm T c.id = false) (request : ℕ)
    (preferred : List (ℕ × Option ℕ)) (time : Option (TimeOfDay × TimeOfDay)) :
    db.Spares T (db.insertItem request preferred time c) := by
  rw [Db.insertItem]
  split
  · exact ⟨rfl, rfl, rfl, rfl, Table.filter_insert hc, fun _ hr _ => hr⟩
  · exact Db.Spares.kind.refl db

theorem spares_createItem {c : Schedule} (hc : db.ofTerm T c.id = false) (request : ℕ)
    (preferred : List (ℕ × Option ℕ)) (time : Option (TimeOfDay × TimeOfDay)) :
    db.Spares T ((createItem request preferred time c).run db).2 := by
  refine spares_modifyGet_check (spares_insertItem hc request preferred time) fun linked t => ?_
  split <;> rfl

theorem spares_writeRequest (hT : db.Archived T) {schedules : List Schedule} {term : ℕ}
    (hrows : ∀ c ∈ schedules, c ∈ db.schedules) (hone : ∀ c ∈ schedules, c.term = term)
    (pk : ℕ) (faculty : User) (target : Modality) (a b : ℤ)
    (time : Option (TimeOfDay × TimeOfDay)) (dean : ℕ) (preferred : List (ℕ × Option ℕ)) :
    db.Spares T
      ((writeRequest pk faculty schedules term target a b time dean preferred).run db).2 := by
  refine Db.Spares.kind.atomic fun _ db' hrun => ?_
  obtain ⟨_, db₁, hlock, hbody⟩ := Prog.run_bind_eq_ok hrun
  obtain ⟨rfl, t, ht, hopen⟩ := run_lockWritableTerm_eq_ok hlock
  have hforeign : ∀ c ∈ schedules, db₁.ofTerm T c.id = false := fun c hc =>
    Db.ofTerm_eq_false (hrows c hc) (by rw [hone c hc]; exact hT.ne ht hopen)
  refine spares_of_run hbody (spares_bind (spares_createRequest _ _ _ _ _ _ _)
    fun _ db₂ _ h₂ => ?_)
  refine spares_bind (Db.Spares.kind.forEach fun c hc db₃ h₃ => ?_) fun _ db₃ _ _ => ?_
  · exact spares_createItem (by rw [h₃.ofTerm, h₂.ofTerm]; exact hforeign c hc) _ _ _
  · exact spares_of_eq rfl rfl rfl rfl rfl rfl

theorem spares_submitModalityShift (hT : db.Archived T) {schedules : List Schedule}
    (hrows : ∀ c ∈ schedules, c ∈ db.schedules) (pk : ℕ) (faculty : User)
    (target : Option Modality) (a b : ℤ) (preferred : ℕ → Option ℕ)
    (time : Option (TimeOfDay × TimeOfDay)) (now : ℤ) :
    db.Spares T
      ((submitModalityShift pk faculty schedules target a b preferred time now).run db).2 := by
  rcases run_submitModalityShift_cases db pk faculty schedules target a b preferred time now with
    ⟨e, hrun⟩ | ⟨term, target', dean, rooms, hone, hrun⟩ <;> rw [hrun]
  · exact Db.Spares.kind.refl db
  · exact spares_writeRequest hT hrows hone _ _ _ _ _ _ _ _

end

/-! ### Scans -/

section

variable {db : Db} {T : ℕ}

theorem foreign_of_activeSession (hT : db.Archived T) {pk : ℕ} {s : Session}
    (h : db.activeSession pk = some s) : db.Foreign T s.id := by
  obtain ⟨term, hterm, hload⟩ := Option.bind_eq_some_iff.mp h
  obtain ⟨hget, hin⟩ := Option.filter_eq_some_iff.mp hload
  exact foreign_of_inTerm (Table.get?_eq_some_iff.mp hget).1 hin (hT.ne_of_active hterm)

theorem spares_completePrior {prior : Option Session} (h : ∀ p ∈ prior, db.Foreign T p.id)
    (now : ℤ) : db.Spares T ((completePrior now prior).run db).2 := by
  cases prior with
  | none => exact Db.Spares.kind.refl db
  | some p =>
    rw [completePrior]
    split
    · exact spares_saveSession (h p rfl) fun _ => rfl
    · exact Db.Spares.kind.refl db

/-- A session is changed and its siblings with it. -/
theorem spares_save_propagate (hT : db.Archived T) {pk : ℕ} (hpk : db.Foreign T pk)
    {f : Session → Session} {hf : ∀ a, key (f a) = key a} {rest : M Unit}
    (hkept : ∀ a, (f a).schedule = a.schedule)
    (hrest : ∀ t : Db, t.Archived T → t.Spares T (rest.run t).2) :
    db.Spares T ((saveSession pk f hf >>= fun _ => rest).run db).2 :=
  spares_bind (spares_saveSession hpk hkept) fun _ t _ h => hrest t (h.archived hT)

/-- What ends a start: an audit row and the fill of the siblings. -/
theorem spares_audit_propagate {t : Db} (hT : t.Archived T) (actor : Option ℕ) (event : AuditEvent)
    (anchor : ℕ) (now : ℤ) :
    t.Spares T ((do
      createAudit actor event
      let _ ← propagateMergedPresent anchor now actor : M Unit).run t).2 := by
  refine spares_bind (spares_createAudit actor event) fun _ t _ h => ?_
  exact spares_map (spares_propagateMergedPresent (h.archived hT) anchor now actor)

theorem spares_applyHandover (hT : db.Archived T) {pk : ℕ} (hpk : db.Foreign T pk) (user : ℕ)
    (prior : Option ℕ) (room : Room) (now : ℤ) :
    db.Spares T ((applyHandover user pk prior room now).run db).2 := by
  refine Db.Spares.kind.atomic fun _ db' hrun => ?_
  rw [Prog.run_select_bind] at hrun
  have hprior : ∀ p ∈ prior.bind db.activeSession, db.Foreign T p.id := by
    intro p hp
    obtain ⟨pk', -, hload⟩ := Option.bind_eq_some_iff.mp hp
    exact foreign_of_activeSession hT hload
  refine spares_of_run hrun (spares_bind (spares_completePrior hprior now) fun _ t _ h => ?_)
  exact spares_save_propagate (h.archived hT) (h.foreign hpk) (fun _ => rfl)
    fun u hu => spares_audit_propagate hu _ _ _ _

theorem spares_applyOutcome (hT : db.Archived T) {s : Session} (hs : db.Foreign T s.id) (user : ℕ)
    (r : Resolution) (room : Room) (method : CheckinMethod) (reason : String) (now : ℤ) :
    db.Spares T ((applyOutcome user r s room method reason now).run db).2 := by
  unfold applyOutcome
  cases r.outcome with
  | checkedIn =>
    refine Db.Spares.kind.atomic fun _ db' hrun => spares_of_run hrun ?_
    exact spares_save_propagate hT hs (fun _ => rfl) fun u hu => spares_audit_propagate hu _ _ _ _
  | absent =>
    dsimp only
    split
    · exact spares_save_propagate hT hs (fun _ => rfl) fun u _ => spares_createAudit _ _
    · exact Db.Spares.kind.refl db
  | checkedOut =>
    exact spares_save_propagate hT hs (fun _ => rfl) fun u _ => spares_createAudit _ _
  | earlyEnd =>
    exact spares_save_propagate hT hs (fun _ => rfl) fun u _ => spares_createAudit _ _
  | wrongRoom =>
    exact spares_save_propagate hT hs (fun _ => rfl) fun u _ =>
      spares_of_eq rfl rfl rfl rfl rfl rfl
  | roomOccupied =>
    exact spares_bind (spares_applyHandover hT hs user _ room now)
      fun _ t _ _ => spares_of_eq rfl rfl rfl rfl rfl rfl
  | tooEarly => exact Db.Spares.kind.refl db
  | onlineReject => exact Db.Spares.kind.refl db
  | noSchedule => exact Db.Spares.kind.refl db

theorem spares_applyScan (hT : db.Archived T) (user : ℕ) (r : Resolution) (room : Room)
    (method : CheckinMethod) (reason : String) (now : ℤ) :
    db.Spares T ((applyScan user r room method reason now).run db).2 := by
  unfold applyScan
  cases r.session with
  | none => exact Db.Spares.kind.refl db
  | some pk =>
    rw [Prog.run_select_bind]
    cases hload : db.activeSession pk with
    | none => exact Db.Spares.kind.refl db
    | some s =>
      exact spares_map
        (spares_applyOutcome hT (foreign_of_activeSession hT hload) user r room method reason now)

theorem spares_applyOnce (hT : db.Archived T) (user : ℕ) (r : Resolution) (room : Room)
    (method : CheckinMethod) (clock : ScanClock) :
    db.Spares T ((applyOnce user r room method clock).run db).2 := by
  unfold applyOnce
  cases r.session with
  | none => exact Db.Spares.kind.refl db
  | some pk =>
    dsimp only
    rw [Prog.run_select_bind]
    split
    · exact spares_bind (spares_applyScan hT user r room method "" clock.last)
        fun _ t _ _ => spares_of_eq rfl rfl rfl rfl rfl rfl
    · exact Db.Spares.kind.refl db

theorem spares_resolveScan (hT : db.Archived T) (user : ℕ) (payload : Payload) (clock : ScanClock) :
    db.Spares T ((resolveScan user payload clock).run db).2 := by
  obtain ⟨cache, audit, hlookup⟩ := roomFromPayload_frame user payload clock.lookup db
  refine spares_bind (by rw [hlookup]; exact spares_of_eq rfl rfl rfl rfl rfl rfl)
    fun found db₁ _ h₁ => ?_
  cases found with
  | error e => exact Db.Spares.kind.refl db₁
  | ok found =>
    obtain ⟨room, method⟩ := found
    dsimp only
    split
    · exact Db.Spares.kind.refl db₁
    · rw [Prog.run_select_bind]
      cases db₁.activeTerm with
      | none => exact Db.Spares.kind.refl db₁
      | some term =>
        rw [Prog.run_select_bind]
        split
        · exact Db.Spares.kind.refl db₁
        · exact spares_map (spares_applyOnce (h₁.archived hT) user _ room method clock)

theorem spares_confirmScan (hT : db.Archived T) (user : ℕ) (token : Option ConfirmToken)
    (reason : String) (now last : ℤ) :
    db.Spares T ((confirmScan user token reason now last).run db).2 := by
  cases token with
  | none => exact Db.Spares.kind.refl db
  | some token =>
    unfold confirmScan
    dsimp only
    split
    · rw [Prog.run_select_bind]
      split
      · exact Db.Spares.kind.refl db
      · exact spares_map (spares_applyScan hT user _ _ _ reason last)
    · exact Db.Spares.kind.refl db

end

/-! ### Checkers -/

section

variable {db : Db} {T : ℕ}

theorem foreign_of_onlineSession (hT : db.Archived T) {pk user : ℕ} {s : Session}
    (h : db.onlineSession pk user = some s) : db.Foreign T s.id := by
  obtain ⟨term, hterm, hload⟩ := Option.bind_eq_some_iff.mp h
  obtain ⟨hget, hsel⟩ := Option.filter_eq_some_iff.mp hload
  simp only [Bool.and_eq_true] at hsel
  exact foreign_of_inTerm (Table.get?_eq_some_iff.mp hget).1 hsel.1.1 (hT.ne_of_active hterm)

theorem spares_applyOnlineStatus (hT : db.Archived T) {s : Session} (hs : db.Foreign T s.id)
    (user : ℕ) (action : ValidationAction) (scannedAt now : ℤ) :
    db.Spares T ((applyOnlineStatus user s action scannedAt now).run db).2 := by
  unfold applyOnlineStatus
  cases action with
  | verified =>
    refine Db.Spares.kind.atomic fun _ db' hrun => spares_of_run hrun ?_
    exact spares_save_propagate hT hs (fun _ => rfl)
      fun u hu => spares_map (spares_propagateMergedPresent hu _ _ _)
  | flagNotPresent =>
    refine Db.Spares.kind.atomic fun _ db' hrun => spares_of_run hrun ?_
    exact spares_save_propagate hT hs (fun _ => rfl)
      fun u hu => spares_map (spares_propagateMergedAbsent hu _ _ _)
  | flagIdentityMismatch => exact Db.Spares.kind.refl db
  | verifiedEmpty => exact Db.Spares.kind.refl db

theorem spares_applyAction (hT : db.Archived T) {s : Session} (hs : db.Foreign T s.id) (user : ℕ)
    (action : ValidationAction) (note : String) (identityMatch : Option Bool) (scannedAt now : ℤ) :
    db.Spares T ((applyAction user s action note identityMatch scannedAt now).run db).2 := by
  rw [applyAction, Prog.run_select_bind]
  -- the validation and its audit row
  refine spares_bind (spares_of_eq rfl rfl rfl rfl rfl rfl) fun _ db₁ _ h₁ => ?_
  refine spares_bind (spares_createAudit _ _) fun _ db₂ _ h₂ => ?_
  refine spares_bind (spares_applyOnlineStatus (h₂.archived (h₁.archived hT))
    (h₂.foreign (h₁.foreign hs)) _ _ _ _) fun _ db₃ _ _ => ?_
  split
  · exact spares_of_eq rfl rfl rfl rfl rfl rfl
  · exact Db.Spares.kind.refl db₃

theorem spares_onlineAction (hT : db.Archived T) (user pk : ℕ) (action : ValidationAction)
    (note : String) (now last : ℤ) :
    db.Spares T ((onlineAction user pk action note now last).run db).2 := by
  rw [onlineAction, Prog.run_select_bind, Prog.run_select_bind]
  cases hload : db.onlineSession pk user with
  | none => exact Db.Spares.kind.refl db
  | some s =>
    dsimp only
    split
    · exact spares_map (spares_createAudit _ _)
    · split
      · exact Db.Spares.kind.refl db
      · split
        · exact Db.Spares.kind.refl db
        · refine spares_bind (spares_of_eq rfl rfl rfl rfl rfl rfl) fun added db₁ _ h₁ => ?_
          cases added with
          | false => exact Db.Spares.kind.refl db₁
          | true =>
            exact spares_map (spares_applyAction (h₁.archived hT)
              (h₁.foreign (foreign_of_onlineSession hT hload)) _ _ _ _ _ _)

theorem spares_applyRoomAction (user : ℕ) (session : Option Session) (room : Room)
    (action : ValidationAction) (note : String) (identityMatch : Option Bool) (scannedAt : ℤ)
    (offline : Bool) :
    db.Spares T ((applyRoomAction user session room action note identityMatch scannedAt
      offline).run db).2 := by
  unfold applyRoomAction
  split <;> exact spares_of_eq rfl rfl rfl rfl rfl rfl

theorem spares_roomAction (user room : ℕ) (action : ValidationAction) (note : String)
    (now today : ℤ) : db.Spares T ((roomAction user room action note now today).run db).2 := by
  rw [roomAction, Prog.run_select_bind]
  cases db.rooms.get? room with
  | none => exact Db.Spares.kind.refl db
  | some room =>
    dsimp only
    rw [Prog.run_select_bind, Prog.run_select_bind]
    split
    · exact spares_map (spares_createAudit _ _)
    · split
      · exact Db.Spares.kind.refl db
      · refine spares_bind (spares_of_eq rfl rfl rfl rfl rfl rfl) fun added db₁ _ _ => ?_
        cases added with
        | false => exact Db.Spares.kind.refl db₁
        | true => exact spares_map (spares_applyRoomAction _ _ _ _ _ _ _ _)

theorem spares_actionView (hT : db.Archived T) (user : ℕ) (room session : PostedId)
    (action : ReplayAction) (note : String) (now today last : ℤ) :
    db.Spares T ((actionView user room session action note now today last).run db).2 := by
  unfold actionView
  cases action with
  | other => exact Db.Spares.kind.refl db
  | known action =>
    dsimp only
    split
    · refine spares_map ?_
      unfold onlineActionOn
      split
      · exact spares_onlineAction hT _ _ _ _ _ _
      · rw [Prog.run_select_bind]
        split <;> exact Db.Spares.kind.refl db
      · exact Db.Spares.kind.refl db
    · split
      · exact spares_map (spares_roomAction _ _ _ _ _ _)
      · exact Db.Spares.kind.refl db
      · exact Db.Spares.kind.refl db

/-- Whatever is made of an offline scan, it is written beside the sessions. -/
theorem Handled.spares {user : ℕ} {item : ReplayItem} {now today : ℤ}
    {r : Except Err ReplayResult × Db} (h : Handled db user item now today r) :
    db.Spares T r.2 := by
  cases h <;> exact spares_of_eq rfl rfl rfl rfl rfl rfl

theorem spares_replay (user : ℕ) (now : ℤ) (items : List (ReplayItem × ℤ)) :
    db.Spares T ((replay user now items).run db).2 := by
  induction items generalizing db with
  | nil => exact Db.Spares.kind.refl db
  | cons head items ih =>
    refine spares_bind (handled_replayItem db user head.1 now head.2).spares fun _ db₁ _ _ => ?_
    exact spares_map ih

theorem spares_assignSession {e : ℕ × ℕ} (h : db.Foreign T e.1) :
    db.Spares T ((assignSession e).run db).2 := by
  refine Db.Spares.kind.atomic fun _ db' hrun => spares_of_run hrun ?_
  exact spares_bind (spares_saveSession h fun _ => rfl) fun _ t _ _ => spares_createAudit _ _

theorem spares_notifyAssigned (date : ℤ) (assigned : List (ℕ × ℕ)) (checker : ℕ) :
    db.Spares T ((notifyAssigned date assigned checker).run db).2 := by
  rw [notifyAssigned, Prog.run_select_bind]
  split
  · exact spares_of_eq rfl rfl rfl rfl rfl rfl
  · exact Db.Spares.kind.refl db

theorem spares_assignOnlineSessions (hT : db.Archived T) (date : ℤ) :
    db.Spares T ((assignOnlineSessions date).run db).2 := by
  rw [assignOnlineSessions, Prog.run_select_bind]
  cases hterm : db.activeTerm with
  | none => exact Db.Spares.kind.refl db
  | some term =>
    dsimp only
    rw [Prog.run_select_bind]
    split
    · exact Db.Spares.kind.refl db
    · rw [Prog.run_select_bind]
      split
      · exact spares_map (spares_notifyRole _ _)
      · refine spares_bind (Db.Spares.kind.forEach fun e he db₁ h₁ => ?_) fun _ db₁ _ _ => ?_
        · -- only candidates are assigned, and they are sessions of the active term
          obtain ⟨s, hs, hassigned⟩ := List.mem_filterMap.mp he
          obtain ⟨e', -, rfl⟩ := Option.map_eq_some_iff.mp hassigned
          obtain ⟨hs, -⟩ := List.mem_filter.mp hs
          obtain ⟨hmem, hsel⟩ := List.mem_filter.mp ((List.mem_insertionSort _).mp hs)
          simp only [Bool.and_eq_true] at hsel
          exact spares_assignSession
            (h₁.foreign (foreign_of_inTerm hmem hsel.2 (hT.ne_of_active hterm)))
        · exact spares_map (Db.Spares.kind.forEach fun _ _ _ _ => spares_notifyAssigned _ _ _)

end

/-! ### Importing -/

section

variable {db : Db} {T : ℕ}

theorem spares_getOrCreate {α : Type} [Keyed α] {find : Db → List α} {create : M ℕ}
    (h : db.Spares T (create.run db).2) : db.Spares T ((getOrCreate find create).run db).2 := by
  rw [getOrCreate, Prog.run_select_bind]
  split
  · exact h
  · exact Db.Spares.kind.refl db
  · exact Db.Spares.kind.refl db

theorem spares_createUser (row : PlannedRow) : db.Spares T ((createUser row).run db).2 := by
  rw [createUser, Prog.run_select_bind]
  split
  · exact Db.Spares.kind.refl db
  · exact spares_of_eq rfl rfl rfl rfl rfl rfl

theorem spares_facultyFor (row : PlannedRow) (cache : List (String × ℕ)) :
    db.Spares T ((facultyFor row cache).run db).2 := by
  unfold facultyFor
  split
  · exact spares_map (spares_getOrCreate (spares_createUser row))
  · split
    · exact Db.Spares.kind.refl db
    · exact spares_map (spares_getOrCreate (spares_createUser row))

theorem spares_roomFor (m : PlannedMeeting) : db.Spares T ((roomFor m).run db).2 := by
  refine spares_bind (spares_getOrCreate (spares_of_eq rfl rfl rfl rfl rfl rfl)) fun _ db₁ _ _ => ?_
  refine spares_bind (spares_getOrCreate (spares_of_eq rfl rfl rfl rfl rfl rfl)) fun _ db₂ _ _ => ?_
  exact spares_getOrCreate (spares_of_eq rfl rfl rfl rfl rfl rfl)

/-- A schedule that is created in another term. -/
theorem spares_getOrCreateSchedule {term : ℕ} (hne : term ≠ T) (faculty room : ℕ)
    (row : PlannedRow) (m : PlannedMeeting) :
    db.Spares T ((getOrCreateSchedule term faculty room row m).run db).2 := by
  refine spares_getOrCreate (spares_of_eq rfl ?_ rfl rfl rfl rfl)
  exact Table.filter_insert (beq_false_of_ne hne)

theorem spares_importRows {term : ℕ} (hne : term ≠ T) (rows : List PlannedRow)
    (cache : List (String × ℕ)) : db.Spares T ((importRows term rows cache).run db).2 := by
  induction rows generalizing db cache with
  | nil => exact Db.Spares.kind.refl db
  | cons row rest ih =>
    refine spares_bind (spares_facultyFor row cache) fun found db₁ _ _ => ?_
    refine spares_bind (Db.Spares.kind.forEach fun m _ db₂ _ => ?_) fun _ db₂ _ _ => ih _
    refine spares_bind (spares_roomFor m) fun room db₃ _ _ => ?_
    exact spares_map (spares_getOrCreateSchedule hne _ _ _ _)

/-- The term that `--term` gives. -/
def Db.lookupTerm (db : Db) : TermLookup → Option AcademicTerm
  | .blank => none
  | .pk n => db.terms.table.get? n
  | .name text => db.terms.table.rows.find? fun t => t.name == text

theorem Db.mem_of_lookupTerm {lookup : TermLookup} {t : AcademicTerm}
    (h : db.lookupTerm lookup = some t) : t ∈ db.terms.table := by
  cases lookup with
  | blank => cases h
  | pk n => exact (Table.get?_eq_some_iff.mp h).1
  | name text => exact List.mem_of_find?_eq_some h

/-- Resolving the term finds a writable one or raises. -/
theorem run_resolveTerm_cases (lookup : TermLookup) :
    (∃ e, (resolveTerm lookup).run db = (.error e, db)) ∨
    ∃ t, db.lookupTerm lookup = some t ∧ t.status ≠ .archived ∧
      (resolveTerm lookup).run db = (.ok t, db) := by
  generalize hend : (resolveTerm lookup).run db = r
  cases lookup with
  | blank => exact .inl ⟨_, hend.symm⟩
  | pk _ | name _ =>
    unfold resolveTerm at hend
    rw [Prog.run_select_bind] at hend
    split at hend
    · exact .inl ⟨_, hend.symm⟩
    · split at hend
      · exact .inl ⟨_, hend.symm⟩
      · exact .inr ⟨_, ‹_›, ‹_›, hend.symm⟩

theorem spares_importOfferings (hT : db.Archived T) (lookup : TermLookup) (rows : List PlannedRow)
    (dryRun : Bool) : db.Spares T ((importOfferings lookup rows dryRun).run db).2 := by
  rcases run_resolveTerm_cases lookup with ⟨e, hrun⟩ | ⟨t, ht, hopen, hrun⟩
  · rw [importOfferings, Prog.run_bind_of_error hrun]
    exact Db.Spares.kind.refl db
  · rw [importOfferings, Prog.run_bind_of_ok hrun]
    split
    · exact Db.Spares.kind.refl db
    · refine Db.Spares.kind.atomic fun _ db' hrun => spares_of_run hrun ?_
      exact spares_importRows (hT.ne (Table.get?_key (Db.mem_of_lookupTerm ht)) hopen) rows []

end

/-! ### The calls -/

/-- A call with its arguments. Schedules and terms that are passed as rows are those stored when
the call is made. -/
inductive WriterCall
  | submit (pk : ℕ) (faculty : User) (schedules : List ℕ) (target : Option Modality)
      (windowStart windowEnd : ℤ) (preferred : ℕ → Option ℕ)
      (time : Option (TimeOfDay × TimeOfDay)) (now : ℤ)
  | withdraw (request actor : ℕ)
  | reject (request : ℕ) (dean : User) (reason : String) (now : ℤ)
  | approve (request : ℕ) (dean : User) (now : ℤ)
  | updateSchedule (schedule : ℕ) (e : ScheduleEdit) (actor : Option ℕ) (today : ℤ)
  | cancelSchedule (schedule : ℕ) (actor : Option ℕ) (reason : String) (today : ℤ)
  | suspendClasses (term : ℕ) (startDate endDate : ℤ) (reason : String)
      (building declaredBy : Option ℕ)
  | liftSuspension (suspension : ℕ) (liftedBy : Option ℕ) (now : ℤ)
  | propagateMergedPresent (anchor : ℕ) (now : ℤ) (actor : Option ℕ)
  | propagateMergedAbsent (anchor : Session) (actor : Option ℕ) (now : ℤ)
  | materialize (term : ℕ) (start days : ℤ) (allowDraft : Bool) (now : ℤ)
  | sweepNoShows (now : ℤ)
  | assignOnlineSessions (date : ℤ)
  | resolve (user : ℕ) (payload : Payload) (clock : ScanClock)
  | confirm (user : ℕ) (token : Option ConfirmToken) (reason : String) (now last : ℤ)
  | actionView (user : ℕ) (room session : PostedId) (action : ReplayAction) (note : String)
      (now today last : ℤ)
  | replay (user : ℕ) (now : ℤ) (items : List (ReplayItem × ℤ))
  | importOfferings (lookup : TermLookup) (rows : List PlannedRow) (dryRun : Bool)

namespace WriterCall

/-- The program of a call: it answers whether it has done something, if it does not raise. -/
def prog : WriterCall → M Bool
  | submit pk faculty schedules target windowStart windowEnd preferred time now => do
    let rows ← Prog.select fun db => schedules.filterMap db.schedules.get?
    let _ ← submitModalityShift pk faculty rows target windowStart windowEnd preferred time now
    pure true
  | withdraw request actor => do
    withdrawModalityShift request actor
    pure true
  | reject request dean reason now => do
    rejectModalityShift request dean reason now
    pure true
  | approve request dean now => do
    let _ ← applyApproval request dean now
    pure true
  | updateSchedule schedule e actor today => do
    let _ ← FluxTrack.updateSchedule schedule e actor today
    pure true
  | cancelSchedule schedule actor reason today => do
    let _ ← FluxTrack.cancelSchedule schedule actor reason today
    pure true
  | suspendClasses term startDate endDate reason building declaredBy => do
    let _ ← FluxTrack.suspendClasses term startDate endDate reason building declaredBy
    pure true
  | liftSuspension suspension liftedBy now => do
    let _ ← FluxTrack.liftSuspension suspension liftedBy now
    pure true
  | propagateMergedPresent anchor now actor => do
    let _ ← FluxTrack.propagateMergedPresent anchor now actor
    pure true
  | propagateMergedAbsent anchor actor now => do
    let ids ← FluxTrack.propagateMergedAbsent anchor actor now
    pure !ids.isEmpty
  | materialize term start days allowDraft now => do
    match ← Prog.select fun db => db.terms.table.get? term with
    | none => .raise .doesNotExist
    | some term => do
      let _ ← materializeTerm term start days allowDraft now
      pure true
  | sweepNoShows now => do
    let _ ← FluxTrack.sweepNoShows now
    pure true
  | assignOnlineSessions date => do
    let _ ← FluxTrack.assignOnlineSessions date
    pure true
  | resolve user payload clock => do
    let (reply, _) ← resolveScan user payload clock
    pure reply.error.isNone
  | confirm user token reason now last => do
    let reply ← confirmScan user token reason now last
    pure (reply.any fun r => r.error.isNone)
  | actionView user room session action note now today last => do
    let reply ← FluxTrack.actionView user room session action note now today last
    pure (reply == .room .applied || reply == .online .applied)
  | replay user now items => do
    let _ ← FluxTrack.replay user now items
    pure true
  | importOfferings lookup rows dryRun => do
    FluxTrack.importOfferings lookup rows dryRun
    pure true

/-- The call is about something that the term owns, or about the term itself. -/
def Targets (db : Db) (T : ℕ) : WriterCall → Prop
  | submit _ _ schedules .. => ∃ c ∈ schedules, db.ofTerm T c = true
  | withdraw request _ | reject request .. | approve request .. => db.ownsRequest T request = true
  | updateSchedule schedule .. | cancelSchedule schedule .. => db.ofTerm T schedule = true
  | suspendClasses term .. | materialize term .. => term = T
  | liftSuspension suspension .. => ∃ sp ∈ db.ownedSuspensions T, sp.id = suspension
  | propagateMergedPresent anchor .. => ∃ s ∈ db.ownedSessions T, s.id = anchor
  | propagateMergedAbsent anchor .. => ∃ s ∈ db.ownedSessions T, s.id = anchor.id
  | confirm _ token .. => ∃ s ∈ db.ownedSessions T, ∃ t ∈ token, t.resolution.session = some s.id
  | actionView _ room session .. => room = .absent ∧ ∃ s ∈ db.ownedSessions T, session = .id s.id
  | importOfferings lookup .. => ∃ t, db.lookupTerm lookup = some t ∧ t.id = T
  | sweepNoShows .. | assignOnlineSessions .. | resolve .. | replay .. => False

end WriterCall

section

variable {db : Db} {T : ℕ}

/-- Every call spares an archived term. -/
theorem spares_writerCall (hT : db.Archived T) (c : WriterCall) : db.Spares T (c.prog.run db).2 := by
  cases c with
  | submit =>
    rw [WriterCall.prog, Prog.run_select_bind]
    refine spares_map (spares_submitModalityShift hT (fun c hc => ?_) _ _ _ _ _ _ _ _)
    obtain ⟨pk, -, hget⟩ := List.mem_filterMap.mp hc
    exact (Table.get?_eq_some_iff.mp hget).1
  | withdraw => exact spares_map (spares_withdrawModalityShift hT _ _)
  | reject => exact spares_map (spares_rejectModalityShift hT _ _ _ _)
  | approve => exact spares_map (spares_applyApproval hT _ _ _)
  | updateSchedule => exact spares_map (spares_updateSchedule hT _ _ _ _)
  | cancelSchedule => exact spares_map (spares_cancelSchedule hT _ _ _ _)
  | suspendClasses => exact spares_map (spares_suspendClasses hT _ _ _ _ _ _)
  | liftSuspension => exact spares_map (spares_liftSuspension hT _ _ _)
  | propagateMergedPresent => exact spares_map (spares_propagateMergedPresent hT _ _ _)
  | propagateMergedAbsent => exact spares_map (spares_propagateMergedAbsent hT _ _ _)
  | materialize term =>
    rw [WriterCall.prog, Prog.run_select_bind]
    cases hget : db.terms.table.get? term with
    | none => exact Db.Spares.kind.refl db
    | some t =>
      exact spares_map (spares_materializeTerm hT (Table.get?_eq_some_iff.mp hget).1 _ _ _ _)
  | sweepNoShows => exact spares_map (spares_sweepNoShows hT _)
  | assignOnlineSessions => exact spares_map (spares_assignOnlineSessions hT _)
  | resolve => exact spares_map (spares_resolveScan hT _ _ _)
  | confirm => exact spares_map (spares_confirmScan hT _ _ _ _ _)
  | actionView => exact spares_map (spares_actionView hT _ _ _ _ _ _ _ _)
  | replay => exact spares_map (spares_replay _ _ _)
  | importOfferings => exact spares_map (spares_importOfferings hT _ _ _)

/-! ### Refusals -/

theorem Db.mem_ownedSessions {s : Session} :
    s ∈ db.ownedSessions T ↔ s ∈ db.sessions ∧ db.ofTerm T s.schedule = true :=
  List.mem_filter

/-- A session of the term is not one of the active term. -/
theorem inTerm_of_owned {s : Session} (hs : s ∈ db.ownedSessions T) {k : ℕ} (hne : k ≠ T) :
    db.inTerm k s = false := by
  rw [Bool.eq_false_iff]
  intro hin
  exact Bool.eq_false_iff.mp (Db.ofTerm_of_inTerm hin hne) (Db.mem_ownedSessions.mp hs).2

theorem submit_refused (hT : db.Archived T) {schedules : List Schedule} {c : Schedule}
    (hc : c ∈ schedules) (hterm : c.term = T) {key : ℕ} {faculty : User} {target : Option Modality}
    {a b : ℤ} {preferred : ℕ → Option ℕ} {time : Option (TimeOfDay × TimeOfDay)} {now : ℤ}
    {db' : Db} {pk : ℕ} :
    (submitModalityShift key faculty schedules target a b preferred time now).run db ≠
      (.ok pk, db') := by
  intro hok
  rcases run_submitModalityShift_cases db key faculty schedules target a b preferred time now with
    ⟨e, hrun⟩ | ⟨term, target', dean, rooms, hone, hrun⟩ <;> rw [hrun] at hok
  · cases hok
  · obtain ⟨_, db₁, hlock, -⟩ := Prog.run_bind_eq_ok (Prog.run_atomic_eq_ok hok)
    obtain ⟨-, t, ht, hopen⟩ := run_lockWritableTerm_eq_ok hlock
    exact hT.ne ht hopen ((hone c hc).symm.trans hterm)

/-- The guards of a decision let no request of the term through. -/
theorem guarded_refused (hT : db.Archived T) {request : ℕ} (h : db.ownsRequest T request = true)
    {α : Type} {f : ModalityShiftRequest → M α} {a : α} {db' : Db} :
    (Prog.atomic (do
      let req ← lockRequest request
      let term ← singleTermIdForRequest req.id
      lockWritableTerm term
      f req) : M α).run db ≠ (.ok a, db') := by
  intro hok
  obtain ⟨req, term, t, hget, hone, ht, hopen, -⟩ := run_guarded_eq_ok (Prog.run_atomic_eq_ok hok)
  obtain ⟨-, rfl⟩ := Table.get?_eq_some_iff.mp hget
  exact Bool.eq_false_iff.mp (ownsRequest_of_termIdsOf hone (hT.ne ht hopen)) h

/-- A schedule of the term is in no other. -/
theorem term_of_owned {c : Schedule} (hc : c ∈ db.schedules) (h : db.ofTerm T c.id = true) :
    c.term = T := by
  by_contra hne
  exact Bool.eq_false_iff.mp (Db.ofTerm_eq_false hc hne) h

theorem propagateMerged_refused (hT : db.Archived T) {anchor : ℕ}
    (h : ∃ s ∈ db.ownedSessions T, s.id = anchor) {actor : Option ℕ} {f : Session → Session}
    {hf : ∀ s, key (f s) = key s} {event : ℕ → AuditEvent} {ids : List ℕ} {db' : Db} :
    (propagateMerged anchor actor f hf event).run db ≠ (.ok ids, db') := by
  intro hok
  obtain ⟨s, hs, rfl⟩ := h
  rcases run_propagateMerged_cases s.id actor f hf event db with
    ⟨e, hrun⟩ | ⟨x, hx, hid, ⟨t, ht, hopen⟩, hrun⟩ <;> rw [hrun] at hok
  · cases hok
  · obtain ⟨hmem, howned⟩ := Db.mem_ownedSessions.mp hs
    obtain rfl : x = s := Table.eq_of_key_eq hx hmem hid
    exact hT.ne ht hopen (Db.term_of_ofTerm howned)

/-- A scan that names a session of the term is answered with an error. -/
theorem run_applyScan_of_owned (hT : db.Archived T) {r : Resolution} {s : Session}
    (hs : s ∈ db.ownedSessions T) (hr : r.session = some s.id) (user : ℕ) (room : Room)
    (method : CheckinMethod) (reason : String) (now : ℤ) :
    (applyScan user r room method reason now).run db = (.ok ⟨none, some .badPayload⟩, db) := by
  have hnone : db.activeSession s.id = none := by
    rw [Db.activeSession, Option.bind_eq_bind, Option.bind_eq_none_iff]
    intro term hterm
    rw [Option.filter_eq_none_iff]
    intro s' hs'
    rw [show db.sessions.get? s.id = some s from
      Table.get?_key (Db.mem_ownedSessions.mp hs).1] at hs'
    obtain rfl := Option.some.inj hs'
    exact Bool.eq_false_iff.mp (inTerm_of_owned hs (hT.ne_of_active hterm))
  rw [applyScan, hr]
  dsimp only
  rw [Prog.run_select_bind, hnone]
  rfl

theorem onlineSession_of_owned (hT : db.Archived T) {s : Session} (hs : s ∈ db.ownedSessions T)
    (user : ℕ) : db.onlineSession s.id user = none := by
  rw [Option.eq_none_iff_forall_ne_some]
  intro s' hload
  obtain ⟨hmem, hid⟩ := onlineSession_eq_some hload
  obtain rfl : s' = s := Table.eq_of_key_eq hmem (Db.mem_ownedSessions.mp hs).1 hid
  have hforeign := foreign_of_onlineSession hT hload s' hmem rfl
  exact Bool.eq_false_iff.mp hforeign (Db.mem_ownedSessions.mp hs).2

theorem updateSchedule_refused (hT : db.Archived T) {schedule : ℕ} (h : db.ofTerm T schedule = true)
    {e : ScheduleEdit} {actor : Option ℕ} {today : ℤ} {n : ℕ} {db' : Db} :
    (updateSchedule schedule e actor today).run db ≠ (.ok n, db') := by
  intro hok
  rcases run_updateSchedule_cases db schedule e actor today with
    ⟨e, hrun⟩ | ⟨c, hc, rfl, t, ht, hopen, -, -⟩
  · cases hrun.symm.trans hok
  · exact absurd (term_of_owned hc h) (hT.ne ht hopen)

theorem cancelSchedule_refused (hT : db.Archived T) {schedule : ℕ} (h : db.ofTerm T schedule = true)
    {actor : Option ℕ} {reason : String} {today : ℤ} {n : ℕ} {db' : Db} :
    (cancelSchedule schedule actor reason today).run db ≠ (.ok n, db') := by
  intro hok
  rcases run_cancelSchedule_cases db schedule actor reason today with
    ⟨e, hrun⟩ | ⟨c, hc, rfl, ⟨t, ht, hopen⟩, -⟩
  · cases hrun.symm.trans hok
  · exact absurd (term_of_owned hc h) (hT.ne ht hopen)

theorem liftSuspension_refused (hT : db.Archived T) {suspension : ℕ}
    (h : ∃ sp ∈ db.ownedSuspensions T, sp.id = suspension) {liftedBy : Option ℕ} {now : ℤ} {n : ℕ}
    {db' : Db} : (liftSuspension suspension liftedBy now).run db ≠ (.ok n, db') := by
  intro hok
  obtain ⟨sp, hsp, rfl⟩ := h
  obtain ⟨hmem, hterm⟩ := List.mem_filter.mp hsp
  have hone : ∀ sp' ∈ db.suspensions, sp'.id = sp.id → sp'.term = T := by
    intro sp' hsp' hid
    rw [Table.eq_of_key_eq hsp' hmem hid]
    exact beq_iff_eq.mp hterm
  -- lifted before or lifted now, the suspension is of a writable term
  rcases run_liftSuspension_cases db sp.id liftedBy now with
    ⟨e, hrun⟩ | ⟨sp', hsp', hid, -, ⟨t, ht, hopen⟩, -⟩ | ⟨sp', hsp', hid, -, ⟨t, ht, hopen⟩, -⟩
  · cases hrun.symm.trans hok
  · exact absurd (hone sp' hsp' hid) (hT.ne ht hopen)
  · exact absurd (hone sp' hsp' hid) (hT.ne ht hopen)

/-- The validation of a run raises for an archived term. -/
theorem materializeTerm_refused {t : AcademicTerm} (harch : t.status = .archived) {start days : ℤ}
    {allowDraft : Bool} {now : ℤ} {a : MaterializationResult} {db' : Db} :
    (materializeTerm t start days allowDraft now).run db ≠ (.ok a, db') := by
  intro hok
  have hraise : ∃ e, (validateTerm t allowDraft).run db = (.error e, db) := by
    rw [validateTerm, harch]
    exact ⟨_, rfl⟩
  obtain ⟨e, hraise⟩ := hraise
  cases (Prog.run_bind_of_error hraise).symm.trans hok

theorem importOfferings_refused (hT : db.Archived T) {lookup : TermLookup}
    (h : ∃ t, db.lookupTerm lookup = some t ∧ t.id = T) {rows : List PlannedRow} {dryRun : Bool}
    {a : Unit} {db' : Db} : (importOfferings lookup rows dryRun).run db ≠ (.ok a, db') := by
  intro hok
  obtain ⟨t, ht, rfl⟩ := h
  obtain ⟨u, hu, harch⟩ := hT
  rcases run_resolveTerm_cases lookup with ⟨e, hraise⟩ | ⟨t', ht', hopen, -⟩
  · cases (Prog.run_bind_of_error hraise).symm.trans hok
  · -- the term that is found is the archived one
    obtain rfl := Option.some.inj (ht.symm.trans ht')
    rw [show db.terms.table.get? t.id = some t from
      Table.get?_key (Db.mem_of_lookupTerm ht)] at hu
    obtain rfl := Option.some.inj hu
    exact absurd harch hopen

/-- A confirmation of a scan that is about a session of the term answers with an error. -/
theorem confirmScan_refused (hT : db.Archived T) {s : Session} (hs : s ∈ db.ownedSessions T)
    {token : ConfirmToken} (hsession : token.resolution.session = some s.id) {user : ℕ}
    {reason : String} {now last : ℤ} {reply : Option ScanReply} {db' : Db}
    (hrun : (confirmScan user (some token) reason now last).run db = (.ok reply, db')) :
    (reply.any fun r => r.error.isNone) = false := by
  unfold confirmScan at hrun
  dsimp only at hrun
  split at hrun
  · rw [Prog.run_select_bind] at hrun
    split at hrun
    · cases hrun
    · rw [Prog.run_bind_of_ok (run_applyScan_of_owned hT hs hsession _ _ _ _ _)] at hrun
      cases hrun
      rfl
  · cases hrun
    rfl

/-- A checker is off duty for an online session of the term. -/
theorem run_onlineAction_of_owned (hT : db.Archived T) {s : Session} (hs : s ∈ db.ownedSessions T)
    (user : ℕ) (action : ValidationAction) (note : String) (now last : ℤ) :
    (onlineAction user s.id action note now last).run db = (.ok (.refused .offDuty), db) := by
  rw [onlineAction, Prog.run_select_bind, Prog.run_select_bind, onlineSession_of_owned hT hs user]
  rfl

/-- A call that is about the term raises or answers that it has done nothing. -/
theorem refused_of_targets (hT : db.Archived T) {c : WriterCall} (h : c.Targets db T) {acted : Bool}
    (hok : (c.prog.run db).1 = .ok acted) : acted = false := by
  cases c with
  | submit pk faculty schedules =>
    rw [WriterCall.prog, Prog.run_select_bind] at hok
    obtain ⟨_, db', hrun, -⟩ := Prog.fst_run_map_eq_ok hok
    obtain ⟨pk', hpk, howned⟩ := h
    obtain ⟨c, hc, rfl, hterm⟩ := Db.ofTerm_iff.mp howned
    have hrow : c ∈ schedules.filterMap db.schedules.get? :=
      List.mem_filterMap.mpr ⟨c.id, hpk, Table.get?_key hc⟩
    exact absurd hrun (submit_refused hT hrow hterm)
  | withdraw request actor =>
    obtain ⟨_, db', hrun, -⟩ := Prog.fst_run_map_eq_ok hok
    exact absurd hrun (guarded_refused hT h)
  | reject request dean reason now =>
    obtain ⟨_, db', hrun, -⟩ := Prog.fst_run_map_eq_ok hok
    exact absurd hrun (guarded_refused hT h)
  | approve request dean now =>
    obtain ⟨_, db', hrun, -⟩ := Prog.fst_run_map_eq_ok hok
    exact absurd hrun (guarded_refused hT h)
  | updateSchedule schedule e actor today =>
    obtain ⟨_, db', hrun, -⟩ := Prog.fst_run_map_eq_ok hok
    exact absurd hrun (updateSchedule_refused hT h)
  | cancelSchedule schedule actor reason today =>
    obtain ⟨_, db', hrun, -⟩ := Prog.fst_run_map_eq_ok hok
    exact absurd hrun (cancelSchedule_refused hT h)
  | suspendClasses term startDate endDate reason building declaredBy =>
    obtain ⟨_, db', hok, -⟩ := Prog.fst_run_map_eq_ok hok
    rcases run_suspendClasses_cases db term startDate endDate reason building declaredBy with
      ⟨e, hrun⟩ | ⟨⟨t, ht, hopen⟩, -⟩
    · cases hrun.symm.trans hok
    · exact absurd h (hT.ne ht hopen)
  | liftSuspension suspension liftedBy now =>
    obtain ⟨_, db', hrun, -⟩ := Prog.fst_run_map_eq_ok hok
    exact absurd hrun (liftSuspension_refused hT h)
  | propagateMergedPresent anchor now actor =>
    obtain ⟨_, db', hrun, -⟩ := Prog.fst_run_map_eq_ok hok
    exact absurd hrun (propagateMerged_refused hT h)
  | propagateMergedAbsent anchor actor now =>
    obtain ⟨ids, db', hrun, rfl⟩ := Prog.fst_run_map_eq_ok hok
    rw [propagateMergedAbsent, Prog.run_select_bind] at hrun
    split at hrun
    · exact absurd hrun (propagateMerged_refused hT h)
    · cases hrun
      rfl
  | materialize term start days allowDraft now =>
    obtain ⟨t, hget, harch⟩ := hT
    obtain rfl : term = T := h
    rw [WriterCall.prog, Prog.run_select_bind, hget] at hok
    obtain ⟨_, db', hrun, -⟩ := Prog.fst_run_map_eq_ok hok
    exact absurd hrun (materializeTerm_refused harch)
  | sweepNoShows => exact h.elim
  | assignOnlineSessions => exact h.elim
  | resolve => exact h.elim
  | confirm user token reason now last =>
    obtain ⟨s, hs, token, rfl, hsession⟩ := h
    obtain ⟨reply, db', hrun, rfl⟩ := Prog.fst_run_map_eq_ok hok
    exact confirmScan_refused hT hs hsession hrun
  | actionView user room session action note now today last =>
    obtain ⟨rfl, s, hs, rfl⟩ := h
    obtain ⟨reply, db', hrun, rfl⟩ := Prog.fst_run_map_eq_ok hok
    unfold actionView at hrun
    cases action with
    | other =>
      cases hrun
      rfl
    | known action =>
      dsimp only at hrun
      rw [if_pos ⟨rfl, by simp⟩] at hrun
      cases (Prog.run_bind_of_ok
        (run_onlineAction_of_owned hT hs user action note now last)).symm.trans hrun
      rfl
  | replay => exact h.elim
  | importOfferings lookup rows dryRun =>
    obtain ⟨_, db', hrun, -⟩ := Prog.fst_run_map_eq_ok hok
    exact absurd hrun (importOfferings_refused hT h)

end

/-- The database with a pending request, in a term that has been archived since. -/
def Campus.shelved : Db :=
  { Campus.requested .online with
    terms := ⟨⟨[{ Campus.term with status := .archived }], List.nodup_singleton _⟩, by decide,
      by decide, List.nodup_singleton _⟩ }

end FluxTrack
