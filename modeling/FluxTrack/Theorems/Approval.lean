import FluxTrack.Scheduling.Services

/-!
# Approval is all or nothing, and exact

An approval either raises and changes nothing, or it denies the request and changes
nothing else, or it gives every session in the scope of the request the target
modality and touches nothing outside that scope.

## Main definitions

* `ModalityShiftRequest.affects` — the scope of a request
* `RoomTurn`, `Db.roomTurns` — the turns of the sessions in a room shift
* `ShiftRule` — what one session, and one item, of a room shift has to preserve
* `ShiftApplied` — the effect of an approval

## Main results

* `applyF2f_rule` — the rule for the loops of a room shift
* `applyApproval_exact` — the three outcomes of an approval
-/

namespace FluxTrack

open Calendar Relational Process

/-- The occurrence a session is of, and its status. -/
def Session.occurrence (s : Session) : ℕ × ℤ × SessionStatus := (s.schedule, s.date, s.status)

theorem Session.inWindow_congr {a b : Session} (h : a.occurrence = b.occurrence) (schedule : ℕ)
    (windowStart windowEnd : ℤ) :
    a.inWindow schedule windowStart windowEnd = b.inWindow schedule windowStart windowEnd := by
  simp only [Session.occurrence, Prod.mk.injEq] at h
  simp only [Session.inWindow, h.1, h.2.1, h.2.2]

/-- Every session is of the same occurrence, and in the same status, as before. -/
def SameOccurrences (db₀ db : Db) : Prop :=
  ∀ pk, (db.sessions.get? pk).map Session.occurrence = (db₀.sessions.get? pk).map Session.occurrence

theorem SameOccurrences.exists_mem {db₀ db : Db} (h : SameOccurrences db₀ db) {s : Session}
    (hs : s ∈ db.sessions) : ∃ a ∈ db₀.sessions, a.id = s.id ∧ a.occurrence = s.occurrence := by
  have hget := h s.id
  rw [show db.sessions.get? s.id = some s from Table.get?_key hs, Option.map_some] at hget
  obtain ⟨a, ha, hocc⟩ := Option.map_eq_some_iff.mp hget.symm
  obtain ⟨hmem, hid⟩ := Table.get?_eq_some_iff.mp ha
  exact ⟨a, hmem, hid, hocc⟩

theorem SameOccurrences.symm {db₀ db : Db} (h : SameOccurrences db₀ db) : SameOccurrences db db₀ :=
  fun pk => (h pk).symm

/-- An update that keeps occurrences and statuses. -/
theorem SameOccurrences.update {db₀ db : Db} (h : SameOccurrences db₀ db) {p : Session → Bool}
    {f : Session → Session} (hf : ∀ s, key (f s) = key s)
    (hocc : ∀ s, (f s).occurrence = s.occurrence) {db' : Db}
    (hdb' : db'.sessions = db.sessions.update p f hf) : SameOccurrences db₀ db' := by
  intro pk
  rw [← h pk, hdb', Table.map_get?_update hf hocc]

/-! ### The rule for room shifts -/

section

variable {req : ModalityShiftRequest} {dean : ℕ} {now : ℤ} {db₀ : Db}

/-- The session of a room shift, once it has been placed. -/
def ModalityShiftRequest.shift (req : ModalityShiftRequest) (dean : ℕ) (now : ℤ) (room : ℕ)
    (slot : Option (ℤ × ℤ)) (s : Session) : Session :=
  (s.place room slot).declare req.targetModality (some now) (some dean)

/-- The room that a session of a room shift is given, if there is one. -/
def Db.shiftRoom (db : Db) (item : ModalityShiftItem) (sched : Schedule) (s : Session) :
    Option ℕ :=
  if db.roomIsFree sched.room (item.slotFor s).1 (item.slotFor s).2 (some s.id) none then
    some sched.room
  else
    (db.freeRoomsInBuilding (db.buildingOf sched.room) (item.slotFor s).1 (item.slotFor s).2
      (some s.id) item.preferredRoom).head?

theorem run_resolveShiftRoom (db : Db) (item : ModalityShiftItem) (sched : Schedule)
    (s : Session) :
    (resolveShiftRoom sched item.preferredRoom (item.slotFor s).1 (item.slotFor s).2 s.id).run db =
      (.ok (db.shiftRoom item sched s), db) := by
  unfold Db.shiftRoom
  rw [resolveShiftRoom, Prog.run_select_bind]
  split <;> rfl

/-- A room that is given is free. -/
theorem roomIsFree_of_shiftRoom {db : Db} {item : ModalityShiftItem} {sched : Schedule}
    {s : Session} {room : ℕ} (h : db.shiftRoom item sched s = some room) :
    db.roomIsFree room (item.slotFor s).1 (item.slotFor s).2 (some s.id) none = true := by
  unfold Db.shiftRoom at h
  split at h
  · cases h
    assumption
  · exact Db.roomIsFree_of_mem_freeRooms (List.mem_of_head? h)

/-- The turn of one session in the loops of a room shift, with the database it finds. -/
structure RoomTurn where
  db : Db
  item : ModalityShiftItem
  sched : Schedule
  session : Session

/-- The room that the turn gives. -/
def RoomTurn.room (t : RoomTurn) : Option ℕ := t.db.shiftRoom t.item t.sched t.session

/-- The turns of the sessions of one item. -/
def sessionTurns (req : ModalityShiftRequest) (item : ModalityShiftItem) (sched : Schedule)
    (dean : ℕ) (now : ℤ) : List Session → Db → List RoomTurn
  | [], _ => []
  | s :: rest, db =>
    ⟨db, item, sched, s⟩ ::
      sessionTurns req item sched dean now rest ((shiftSession req item sched dean now s).run db).2

/-- The turns of the items of a request. -/
def itemTurns (req : ModalityShiftRequest) (dean : ℕ) (now : ℤ) :
    List (ModalityShiftItem × Schedule) → Db → List RoomTurn
  | [], _ => []
  | row :: rows, db =>
    sessionTurns req row.1 row.2 dean now
        (db.inWindowSessions row.1.schedule req.windowStart req.windowEnd) db ++
      itemTurns req dean now rows ((shiftItem req dean now row).run db).2

/-- The turns of a room shift. -/
def Db.roomTurns (db : Db) (req : ModalityShiftRequest) (dean : ℕ) (now : ℤ) : List RoomTurn :=
  itemTurns req dean now
    ((db.itemsOf req.id).map fun i => (i, (db.schedules.get? i.schedule).getD default)) db

/-- The teacher of the session is free at the time the item moves it to, if it moves it. -/
def ModalityShiftItem.Unconflicted (item : ModalityShiftItem) (db : Db) (s : Session) : Prop :=
  ∀ start finish, item.movedSlot s.date = some (start, finish) →
    db.facultyHasConflict s.faculty start finish (some s.id) = false

/-- What a property `P` of the sessions shifted so far, the items placed so far and the
database has to satisfy to hold throughout a room shift of `req` from `db₀` that gives rooms
in `R` only. -/
structure ShiftRule (req : ModalityShiftRequest) (dean : ℕ) (now : ℤ) (db₀ : Db) (R : ℕ → Prop)
    (P : List ℕ → List ℕ → Db → Prop) : Prop where
  same : ∀ {done placed db}, P done placed db → SameOccurrences db₀ db
  place : ∀ {done placed db item s room}, P done placed db → item ∈ db₀.itemsOf req.id →
    s ∈ db.sessions → s.inWindow item.schedule req.windowStart req.windowEnd = true →
    db.roomIsFree room (item.slotFor s).1 (item.slotFor s).2 (some s.id) none = true → R room →
    item.Unconflicted db s →
    P (s.id :: done) placed { db with
      sessions := db.sessions.update (fun a => a.id == s.id)
        (req.shift dean now room (item.movedSlot s.date)) (Session.key_declare_place _ _ _ _ _) }
  assign : ∀ {done placed db item room}, P done placed db → item ∈ db₀.itemsOf req.id → R room →
    P done (item.id :: placed) { db with
      items := db.items.update (fun i => i.id == item.id)
        fun i => { i with assignedRoom := some room } }

theorem run_checkMove_eq_ok {db db' : Db} {item : ModalityShiftItem} {s : Session}
    (h : (checkMove item s).run db = (.ok (), db')) : db' = db ∧ item.Unconflicted db s := by
  unfold checkMove at h
  split at h
  · rename_i hnone
    cases h
    exact ⟨rfl, fun _ _ hsome => absurd (hnone.symm.trans hsome) (Option.some_ne_none _).symm⟩
  · rename_i start finish hslot
    rw [Prog.run_select_bind] at h
    split at h
    · cases h
    · rename_i hfree
      cases h
      refine ⟨rfl, fun start' finish' hsome => ?_⟩
      cases hslot.symm.trans hsome
      exact Bool.eq_false_iff.mpr hfree

/-- Placing one session. -/
theorem run_shiftSession_eq_ok {db db' : Db} {item : ModalityShiftItem} {sched : Schedule}
    {s : Session} {room : ℕ} (h : (shiftSession req item sched dean now s).run db = (.ok room, db')) :
    db.shiftRoom item sched s = some room ∧ item.Unconflicted db s ∧
      db' = { db with
        sessions := db.sessions.update (fun a => a.id == s.id)
          (req.shift dean now room (item.movedSlot s.date))
          (Session.key_declare_place _ _ _ _ _) } := by
  obtain ⟨_, db₁, hcheck, hrest⟩ := Prog.run_bind_eq_ok h
  obtain ⟨rfl, hmove⟩ := run_checkMove_eq_ok hcheck
  obtain ⟨found, db₂, hroom, hsave⟩ := Prog.run_bind_eq_ok hrest
  rw [run_resolveShiftRoom, Prod.mk.injEq, Except.ok.injEq] at hroom
  obtain ⟨hroom, rfl⟩ := hroom
  cases found with
  | none => cases hsave
  | some r =>
    cases hsave
    exact ⟨hroom, hmove, rfl⟩

variable {R : ℕ → Prop} {P : List ℕ → List ℕ → Db → Prop}

/-- The sessions of one item: those still to come are as they were loaded. -/
theorem ShiftRule.sessions (h : ShiftRule req dean now db₀ R P) {item : ModalityShiftItem}
    (hitem : item ∈ db₀.itemsOf req.id) {sched : Schedule} {l : List Session}
    {resolved found : Option ℕ} {done placed : List ℕ} {db db' : Db} (hP : P done placed db)
    (hnodup : (l.map Session.id).Nodup) (hl : ∀ s ∈ l, s ∈ db.sessions ∧
      s.inWindow item.schedule req.windowStart req.windowEnd = true)
    (hR : ∀ t ∈ sessionTurns req item sched dean now l db, ∀ room, t.room = some room → R room)
    (hresolved : ∀ room, resolved = some room → R room)
    (hrun : (shiftSessions req item sched dean now l resolved).run db = (.ok found, db')) :
    ∃ done', P done' placed db' ∧ done ⊆ done' ∧ (∀ s ∈ l, s.id ∈ done') ∧
      (l ≠ [] → found.isSome = true) ∧ ∀ room, found = some room → R room := by
  induction l generalizing done db resolved with
  | nil =>
    cases hrun
    exact ⟨done, hP, List.Subset.refl _, fun _ hs => absurd hs List.not_mem_nil,
      fun hne => absurd rfl hne, hresolved⟩
  | cons s rest ih =>
    obtain ⟨room, db₁, hone, hrest⟩ := Prog.run_bind_eq_ok hrun
    have hturns : ∀ t ∈ sessionTurns req item sched dean now rest db₁, ∀ room,
        t.room = some room → R room := by
      intro t ht
      refine hR t (List.mem_cons_of_mem _ ?_)
      rw [hone]
      exact ht
    obtain ⟨hroom, hmove, rfl⟩ := run_shiftSession_eq_ok hone
    have hmine : R room := hR _ List.mem_cons_self room hroom
    obtain ⟨hs, hwindow⟩ := hl s List.mem_cons_self
    rw [List.map_cons, List.nodup_cons] at hnodup
    -- the turn of `s` leaves the later rows as they were loaded
    have hnext := h.place hP hitem hs hwindow (roomIsFree_of_shiftRoom hroom) hmine hmove
    have hlater : ∀ a ∈ rest, a ∈ db.sessions.update (fun a => a.id == s.id)
          (req.shift dean now room (item.movedSlot s.date)) (Session.key_declare_place _ _ _ _ _) ∧
        a.inWindow item.schedule req.windowStart req.windowEnd = true := by
      intro a ha
      obtain ⟨hmem, hin⟩ := hl a (List.mem_cons_of_mem _ ha)
      refine ⟨Table.mem_update.mpr ⟨a, hmem, if_neg fun heq => ?_⟩, hin⟩
      exact hnodup.1 (List.mem_map.mpr ⟨a, ha, beq_iff_eq.mp heq⟩)
    have hlast : ∀ r, some room = some r → R r := fun r hr => Option.some.inj hr ▸ hmine
    obtain ⟨done', hP', hsub, hdone, hfound, hrooms⟩ :=
      ih hnext hnodup.2 hlater hturns hlast hrest
    refine ⟨done', hP', fun pk hpk => hsub (List.mem_cons_of_mem _ hpk), ?_, fun _ => ?_, hrooms⟩
    · intro a ha
      rcases List.mem_cons.mp ha with rfl | ha
      · exact hsub List.mem_cons_self
      · exact hdone a ha
    · -- the room that is found is the one of the last session
      cases rest with
      | nil =>
        cases hrest
        rfl
      | cons t rest => exact hfound (List.cons_ne_nil _ _)

theorem nodup_inWindowSessions (db : Db) (schedule : ℕ) (windowStart windowEnd : ℤ) :
    ((db.inWindowSessions schedule windowStart windowEnd).map Session.id).Nodup := by
  refine ((List.perm_insertionSort _ _).map _).nodup_iff.mpr ?_
  exact List.Nodup.sublist (List.Sublist.map _ List.filter_sublist) db.sessions.nodup

theorem mem_inWindowSessions {db : Db} {schedule : ℕ} {windowStart windowEnd : ℤ} {s : Session} :
    s ∈ db.inWindowSessions schedule windowStart windowEnd ↔
      s ∈ db.sessions ∧ s.inWindow schedule windowStart windowEnd = true := by
  rw [Db.inWindowSessions, List.mem_insertionSort, List.mem_filter]
  rfl

/-- One item: its sessions are shifted, and it is placed if it has any. -/
theorem ShiftRule.item (h : ShiftRule req dean now db₀ R P) {row : ModalityShiftItem × Schedule}
    (hitem : row.1 ∈ db₀.itemsOf req.id) {done placed : List ℕ} {db db' : Db}
    (hP : P done placed db)
    (hR : ∀ t ∈ sessionTurns req row.1 row.2 dean now
      (db.inWindowSessions row.1.schedule req.windowStart req.windowEnd) db,
      ∀ room, t.room = some room → R room)
    (hrun : (shiftItem req dean now row).run db = (.ok (), db')) :
    ∃ done' placed', P done' placed' db' ∧ done ⊆ done' ∧ placed ⊆ placed' ∧
      ∀ s ∈ db₀.sessions, s.inWindow row.1.schedule req.windowStart req.windowEnd = true →
        s.id ∈ done' ∧ row.1.id ∈ placed' := by
  rw [shiftItem, Prog.run_select_bind] at hrun
  obtain ⟨found, db₁, hsessions, hsave⟩ := Prog.run_bind_eq_ok hrun
  have hnone : ∀ room, (none : Option ℕ) = some room → R room := fun _ h => nomatch h
  obtain ⟨done', hP', hsub, hdone, hfound, hrooms⟩ := h.sessions hitem hP
    (nodup_inWindowSessions ..) (fun s hs => mem_inWindowSessions.mp hs) hR hnone hsessions
  -- the sessions in the window are the same ones as at the start
  have hlisted : ∀ s ∈ db₀.sessions,
      s.inWindow row.1.schedule req.windowStart req.windowEnd = true →
        ∃ a ∈ db.inWindowSessions row.1.schedule req.windowStart req.windowEnd, a.id = s.id := by
    intro s hs hwindow
    obtain ⟨a, ha, hid, hocc⟩ := (h.same hP).symm.exists_mem hs
    refine ⟨a, mem_inWindowSessions.mpr ⟨ha, ?_⟩, hid⟩
    rw [Session.inWindow_congr hocc]
    exact hwindow
  cases found with
  | none =>
    cases hsave
    refine ⟨done', placed, hP', hsub, List.Subset.refl _, fun s hs hwindow => ?_⟩
    obtain ⟨a, ha, -⟩ := hlisted s hs hwindow
    cases hfound (List.ne_nil_of_mem ha)
  | some room =>
    cases hsave
    refine ⟨done', row.1.id :: placed, h.assign hP' hitem (hrooms room rfl), hsub,
      List.subset_cons_self .., ?_⟩
    intro s hs hwindow
    obtain ⟨a, ha, hid⟩ := hlisted s hs hwindow
    exact ⟨hid ▸ hdone a ha, List.mem_cons_self⟩

/-- The items in their order: what is done and placed only grows. -/
theorem ShiftRule.items (h : ShiftRule req dean now db₀ R P)
    {rows : List (ModalityShiftItem × Schedule)} (hrows : ∀ row ∈ rows, row.1 ∈ db₀.itemsOf req.id)
    {done placed : List ℕ} {db db' : Db} (hP : P done placed db)
    (hR : ∀ t ∈ itemTurns req dean now rows db, ∀ room, t.room = some room → R room)
    (hrun : (Prog.forEach rows (shiftItem req dean now)).run db = (.ok (), db')) :
    ∃ done' placed', P done' placed' db' ∧ done ⊆ done' ∧ placed ⊆ placed' ∧
      ∀ row ∈ rows, ∀ s ∈ db₀.sessions,
        s.inWindow row.1.schedule req.windowStart req.windowEnd = true →
          s.id ∈ done' ∧ row.1.id ∈ placed' := by
  induction rows generalizing done placed db with
  | nil =>
    cases hrun
    exact ⟨done, placed, hP, List.Subset.refl _, List.Subset.refl _,
      fun _ hr => absurd hr List.not_mem_nil⟩
  | cons row rows ih =>
    obtain ⟨_, db₁, hitem, hrest⟩ := Prog.run_bind_eq_ok hrun
    have hlater : ∀ t ∈ itemTurns req dean now rows db₁, ∀ room, t.room = some room → R room := by
      intro t ht
      refine hR t (List.mem_append_right _ ?_)
      rw [hitem]
      exact ht
    obtain ⟨done₁, placed₁, hP₁, hsub₁, hsubp₁, hmine⟩ := h.item (hrows row List.mem_cons_self) hP
      (fun t ht => hR t (List.mem_append_left _ ht)) hitem
    obtain ⟨done₂, placed₂, hP₂, hsub₂, hsubp₂, hothers⟩ :=
      ih (fun r hr => hrows r (List.mem_cons_of_mem _ hr)) hP₁ hlater hrest
    refine ⟨done₂, placed₂, hP₂, List.Subset.trans hsub₁ hsub₂, List.Subset.trans hsubp₁ hsubp₂, ?_⟩
    intro r hr s hs hwindow
    rcases List.mem_cons.mp hr with rfl | hr
    · -- an item that has had its turn stays done and placed
      obtain ⟨hdone, hplaced⟩ := hmine s hs hwindow
      exact ⟨hsub₂ hdone, hsubp₂ hplaced⟩
    · exact hothers r hr s hs hwindow

/-- The rule for a whole room shift. -/
theorem applyF2f_rule (h : ShiftRule req dean now db₀ R P) (hP : P [] [] db₀)
    (hR : ∀ t ∈ db₀.roomTurns req dean now, ∀ room, t.room = some room → R room) {db' : Db}
    (hrun : (applyF2f req dean now).run db₀ = (.ok (), db')) :
    ∃ done placed, P done placed db' ∧
      ∀ i ∈ db₀.itemsOf req.id, ∀ s ∈ db₀.sessions,
        s.inWindow i.schedule req.windowStart req.windowEnd = true →
          s.id ∈ done ∧ i.id ∈ placed := by
  rw [applyF2f, Prog.run_select_bind] at hrun
  have hrows : ∀ row ∈ (db₀.itemsOf req.id).map fun i =>
      (i, (db₀.schedules.get? i.schedule).getD default), row.1 ∈ db₀.itemsOf req.id := by
    intro row hrow
    obtain ⟨i, hi, rfl⟩ := List.mem_map.mp hrow
    exact hi
  obtain ⟨done, placed, hP', -, -, hall⟩ := h.items hrows hP hR hrun
  exact ⟨done, placed, hP', fun i hi s hs hwindow =>
    hall _ (List.mem_map.mpr ⟨i, hi, rfl⟩) s hs hwindow⟩

end

/-! ### The effect of an approval -/

/-- The session is in the scope of the request: scheduled or running, of the schedule of
one of its items, and dated in its window. -/
def ModalityShiftRequest.affects (req : ModalityShiftRequest) (db : Db) (s : Session) : Bool :=
  (db.itemsOf req.id).any fun i => s.inWindow i.schedule req.windowStart req.windowEnd

/-- The effect on `db` of a shift that has been applied to the sessions in `done`. -/
structure Shifting (req : ModalityShiftRequest) (db₀ : Db) (done : List ℕ) (db : Db) : Prop where
  rest : ∃ sessions items audit, db = { db₀ with
    sessions := sessions, items := items, audit := audit }
  same : SameOccurrences db₀ db
  outside : ∀ s ∈ db₀.sessions, req.affects db₀ s = false → s ∈ db.sessions
  declared : ∀ s ∈ db.sessions, s.id ∈ done → s.declaredModality = some req.targetModality
  items : ∀ pk, (∀ i, db₀.items.get? pk = some i → i.request ≠ req.id) →
    db.items.get? pk = db₀.items.get? pk

section

variable {req : ModalityShiftRequest} {dean : ℕ} {now : ℤ} {db₀ db : Db} {done : List ℕ}

theorem Shifting.start (req : ModalityShiftRequest) (db : Db) : Shifting req db [] db where
  rest := ⟨_, _, _, rfl⟩
  same _ := rfl
  outside _ hs _ := hs
  declared _ _ hmem := absurd hmem List.not_mem_nil
  items _ _ := rfl

theorem ModalityShiftRequest.affects_congr {a b : Session} (h : a.occurrence = b.occurrence) :
    req.affects db a = req.affects db b := by
  refine congrArg (fun p => (db.itemsOf req.id).any p) (funext fun i => ?_)
  exact Session.inWindow_congr h _ _ _

theorem ModalityShiftRequest.affects_of_inWindow {i : ModalityShiftItem} {s : Session}
    (hi : i ∈ db.itemsOf req.id) (h : s.inWindow i.schedule req.windowStart req.windowEnd = true) :
    req.affects db s = true :=
  List.any_eq_true.mpr ⟨i, hi, h⟩

/-- An update of one session in the scope that keeps its occurrence and leaves it with
the target modality. -/
theorem Shifting.update (h : Shifting req db₀ done db) {s : Session} (hs : s ∈ db.sessions)
    (haffects : req.affects db₀ s = true) (audit : List AuditLog) {f : Session → Session}
    (hf : ∀ s, key (f s) = key s) (hocc : ∀ s, (f s).occurrence = s.occurrence)
    (hdeclared : (f s).declaredModality = some req.targetModality) :
    Shifting req db₀ (s.id :: done) { db with
      sessions := db.sessions.update (fun a => a.id == s.id) f hf, audit := audit } where
  rest := by
    obtain ⟨sessions, items, audit, rfl⟩ := h.rest
    exact ⟨_, _, _, rfl⟩
  same := h.same.update hf hocc rfl
  outside a ha hnot := by
    change a ∈ db.sessions.update (fun a => a.id == s.id) f hf
    refine Table.mem_update.mpr ⟨a, h.outside a ha hnot, if_neg fun heq => ?_⟩
    obtain ⟨b, hb, hid, hb_occ⟩ := h.same.exists_mem hs
    obtain rfl : a = b := Table.eq_of_key_eq ha hb ((beq_iff_eq.mp heq).trans hid.symm)
    rw [ModalityShiftRequest.affects_congr hb_occ, haffects] at hnot
    cases hnot
  declared a ha hmem := by
    replace ha : a ∈ db.sessions.update (fun a => a.id == s.id) f hf := ha
    obtain ⟨b, hb, rfl⟩ := Table.mem_update.mp ha
    by_cases heq : b.id = s.id
    · obtain rfl : b = s := Table.eq_of_key_eq hb hs heq
      rw [if_pos (beq_self_eq_true _)]
      exact hdeclared
    · rw [if_neg (by simpa using heq)] at hmem ⊢
      exact h.declared b hb ((List.mem_cons.mp hmem).resolve_left heq)
  items := h.items

/-- Giving a room to an item of the request. -/
theorem Shifting.assign (h : Shifting req db₀ done db) (room : ℕ) {item : ModalityShiftItem}
    (hitem : item ∈ db₀.itemsOf req.id) :
    Shifting req db₀ done { db with
      items := db.items.update (fun i => i.id == item.id)
        fun i => { i with assignedRoom := some room } } := by
  refine ⟨?_, h.same, h.outside, h.declared, fun pk hpk => ?_⟩
  · obtain ⟨sessions, items, audit, rfl⟩ := h.rest
    exact ⟨_, _, _, rfl⟩
  · obtain ⟨himem, hireq⟩ := List.mem_filter.mp hitem
    have hne : ∀ i, db₀.items.get? pk = some i → i.id ≠ item.id := by
      intro i hi heq
      obtain ⟨hmem, -⟩ := Table.get?_eq_some_iff.mp hi
      obtain rfl : i = item := Table.eq_of_key_eq hmem himem heq
      exact hpk i hi (beq_iff_eq.mp hireq)
    rw [Table.get?_update, h.items pk hpk]
    cases hget : db₀.items.get? pk with
    | none => rfl
    | some i => rw [Option.map_some, if_neg (by simpa using hne i hget)]

/-- The rule for room shifts preserves the effect. -/
theorem shiftRule_shifting (req : ModalityShiftRequest) (dean : ℕ) (now : ℤ) (db₀ : Db) :
    ShiftRule req dean now db₀ (fun _ => True) fun done _ db => Shifting req db₀ done db where
  same h := h.same
  place {done placed db item s room} h hitem hs hwindow _ _ _ := by
    obtain ⟨a, ha, hid, hocc⟩ := h.same.exists_mem hs
    have haffects : req.affects db₀ s = true :=
      ModalityShiftRequest.affects_of_inWindow hitem hwindow
    exact h.update hs haffects db.audit (f := req.shift dean now room (item.movedSlot s.date)) _
      (fun _ => rfl) rfl
  assign {done placed db item room} h hitem _ := h.assign room hitem

/-- Moving the listed sessions online. -/
theorem shifting_applyOnline (honline : req.targetModality = .online) {l : List Session}
    (hl : ∀ s ∈ l, s ∈ db₀.sessions ∧ req.affects db₀ s = true) {db' : Db}
    (h : Shifting req db₀ done db) (hrun : (applyOnline l dean now).run db = (.ok (), db')) :
    ∃ done', Shifting req db₀ done' db' ∧ done ⊆ done' ∧ ∀ s ∈ l, s.id ∈ done' := by
  unfold applyOnline at hrun
  induction l generalizing done db with
  | nil =>
    cases hrun
    exact ⟨done, h, List.Subset.refl _, fun _ hs => absurd hs List.not_mem_nil⟩
  | cons s rest ih =>
    obtain ⟨hs, haffects⟩ := hl s List.mem_cons_self
    -- the row under the listed session's key, as it is now
    obtain ⟨a, ha, hid, hocc⟩ := h.same.symm.exists_mem hs
    have haffects' : req.affects db₀ a = true := by
      rw [ModalityShiftRequest.affects_congr hocc, haffects]
    have hfirst := h.update ha haffects' db.audit
      (f := Session.declare .online (some now) (some dean)) (Session.key_declare _ _ _)
      (fun _ => rfl) (by rw [honline]; rfl)
    have ha' : a.declare .online (some now) (some dean) ∈ db.sessions.update
        (fun b => b.id == a.id) (Session.declare .online (some now) (some dean))
        (Session.key_declare _ _ _) :=
      Table.mem_update.mpr ⟨a, ha, if_pos (beq_self_eq_true a.id)⟩
    have hsecond := hfirst.update ha' haffects'
      (db.audit ++ [⟨some dean, .sessionRoomReleased a.id now⟩]) (f := Session.release now)
      (Session.key_release now) (fun _ => rfl) (by rw [honline]; rfl)
    have hone : (moveOnline dean now s).run db = (.ok (), { db with
        sessions := (db.sessions.update (fun b => b.id == a.id)
          (Session.declare .online (some now) (some dean)) (Session.key_declare _ _ _)).update
          (fun b => b.id == a.id) (Session.release now) (Session.key_release now)
        audit := db.audit ++ [⟨some dean, .sessionRoomReleased a.id now⟩] }) := by
      rw [moveOnline, ← hid]
      rfl
    rw [Prog.run_forEach_cons hone] at hrun
    obtain ⟨done', h', hsub, hdone⟩ := ih (fun b hb => hl b (List.mem_cons_of_mem _ hb)) hsecond hrun
    refine ⟨done', h', fun pk hpk => hsub (by simp [hpk]), fun b hb => ?_⟩
    rcases List.mem_cons.mp hb with rfl | hb
    · exact hid ▸ hsub List.mem_cons_self
    · exact hdone b hb

/-- The listed sessions of an approval are the ones in its scope. -/
theorem mem_affectedSessions {s : Session} :
    s ∈ db.affectedSessions req ↔ s ∈ db.sessions ∧ req.affects db s = true := by
  rw [Db.affectedSessions, List.mem_flatMap, ModalityShiftRequest.affects, List.any_eq_true]
  constructor
  · rintro ⟨i, hi, hs⟩
    obtain ⟨hmem, hwindow⟩ := mem_inWindowSessions.mp hs
    exact ⟨hmem, i, hi, hwindow⟩
  · rintro ⟨hmem, i, hi, hwindow⟩
    exact ⟨i, hi, mem_inWindowSessions.mpr ⟨hmem, hwindow⟩⟩

/-- A shift that succeeds has reached every session in its scope. -/
theorem shifting_applyShift {db' : Db}
    (hrun : (applyShift req (db₀.affectedSessions req) dean now).run db₀ = (.ok (), db')) :
    ∃ done, Shifting req db₀ done db' ∧
      ∀ s ∈ db₀.sessions, req.affects db₀ s = true → s.id ∈ done := by
  unfold applyShift at hrun
  split at hrun
  · rename_i honline
    obtain ⟨done, h, -, hall⟩ := shifting_applyOnline honline
      (fun s hs => mem_affectedSessions.mp hs) (Shifting.start req db₀) hrun
    exact ⟨done, h, fun s hs haffects => hall s (mem_affectedSessions.mpr ⟨hs, haffects⟩)⟩
  · obtain ⟨done, placed, h, hall⟩ := applyF2f_rule (shiftRule_shifting req dean now db₀)
      (Shifting.start req db₀) (fun _ _ _ _ => trivial) hrun
    refine ⟨done, h, fun s hs haffects => ?_⟩
    obtain ⟨i, hi, hwindow⟩ := List.any_eq_true.mp haffects
    exact (hall i hi s hs hwindow).1

end

/-- The effect of an approved request on the database. -/
structure ShiftApplied (req : ModalityShiftRequest) (dean : ℕ) (now : ℤ) (db db' : Db) : Prop where
  declared : ∀ s ∈ db.sessions, req.affects db s = true → ∃ s' ∈ db'.sessions, s'.id = s.id ∧
    s'.occurrence = s.occurrence ∧ s'.declaredModality = some req.targetModality
  sessions : ∀ pk, (∀ s, db.sessions.get? pk = some s → req.affects db s = false) →
    db'.sessions.get? pk = db.sessions.get? pk
  items : ∀ pk, (∀ i, db.items.get? pk = some i → i.request ≠ req.id) →
    db'.items.get? pk = db.items.get? pk
  requests : db'.requests = db.requests.update (fun r => r.id == req.id)
    (ModalityShiftRequest.approve dean now) (ModalityShiftRequest.key_approve _ _)
  rest : ∃ sessions items requests audit notifications, db' = { db with
    sessions := sessions, items := items, requests := requests, audit := audit
    notifications := notifications }

/-- An approval raises and changes nothing; or it denies the pending request, with one
audit row and one notification; or it applies the shift to exactly its scope. -/
theorem applyApproval_exact (request : ℕ) (dean : User) (now : ℤ) (db : Db) :
    (∃ e, (applyApproval request dean now).run db = (.error e, db)) ∨
    ∃ req, db.requests.get? request = some req ∧ req.status = .pending ∧
      ((∃ reason, (applyApproval request dean now).run db =
        (.ok .denied, { db with
          requests := db.requests.update (fun r => r.id == req.id) fun r =>
            { r with
              status := .denied, decisionReason := reason, decidedBy := some dean.id
              decidedAt := some now }
          audit := db.audit ++ [⟨some dean.id, .modalityShiftDenied req.id reason⟩]
          notifications := db.notifications ++ [⟨req.requester, .modalityShiftDenied reason⟩] })) ∨
      ∃ db', (applyApproval request dean now).run db = (.ok .approved, db') ∧
        ShiftApplied req dean.id now db db') := by
  rcases run_applyApproval_cases request dean now db with herror | ⟨req, hget, hpending, hcases⟩
  · exact .inl herror
  · refine .inr ⟨req, hget, hpending, ?_⟩
    rcases hcases with hdenied | ⟨db₁, notifications, hshift, hrun⟩
    · exact .inl hdenied
    · refine .inr ⟨_, hrun, ?_⟩
      obtain ⟨done, h, hall⟩ := shifting_applyShift hshift
      refine ⟨fun s hs haffects => ?_, fun pk hpk => ?_, h.items, ?_, ?_⟩
      · obtain ⟨s', hs', hid, hocc⟩ := h.same.symm.exists_mem hs
        exact ⟨s', hs', hid, hocc, h.declared s' hs' (hid ▸ hall s hs haffects)⟩
      · change db₁.sessions.get? pk = db.sessions.get? pk
        cases hold : db.sessions.get? pk with
        | none =>
          have hsame := h.same pk
          rw [hold, Option.map_none, Option.map_eq_none_iff] at hsame
          exact hsame
        | some s =>
          obtain ⟨hs, hid⟩ := Table.get?_eq_some_iff.mp hold
          exact Table.get?_eq_some_iff.mpr ⟨h.outside s hs (hpk s hold), hid⟩
      · obtain ⟨sessions, items, audit, rfl⟩ := h.rest
        rfl
      · obtain ⟨sessions, items, audit, rfl⟩ := h.rest
        exact ⟨_, _, _, _, _, rfl⟩

end FluxTrack
