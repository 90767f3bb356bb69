import FluxTrack.Theorems.CheckIns
import FluxTrack.Theorems.ReplayReports

/-!
# What a checker may record

A checker posts actions and batches of queued scans, with ids, tokens and texts of any kind.
Whatever is posted, a validation is only recorded for a room on a floor the checker is on
duty for, with an action that the decision on the room permits and a note if it is a flag, or
for an online class that the checker owns while on online duty. The two ladders, for posted
actions and for queued scans, agree: what a queued scan records a posted action would have
recorded.

## Main definitions

* `RoomGated`, `OnlineGated` — the gates
* `CheckerValidation.madeLive` — the validation of a queued scan as a posted action makes it

## Main results

* `validations_gated` — the gates and the agreement of the two ladders
-/

namespace FluxTrack

open Calendar Relational Process

/-- The validation passes the gate of a room. -/
structure RoomGated (db : Db) (user : ℕ) (now today : ℤ) (v : CheckerValidation) : Prop where
  checker : v.checker = user
  room : ∃ room, db.rooms.get? v.room = some room ∧ room.floor ∈ db.activeFloorIds user now ∧
    (db.roomOutcome user room now today).permits v.action = true ∧
    v.session = (db.roomSessionState room.id now today).map Session.id
  note : v.action.isFlag = true → Py.strip v.note ≠ ""

/-- The validation passes the gate of an online class. -/
structure OnlineGated (db : Db) (user : ℕ) (now : ℤ) (v : CheckerValidation) : Prop where
  checker : v.checker = user
  session : ∃ s ∈ db.sessions, v.session = some s.id ∧
    (∃ term, db.activeTerm = some term ∧ db.inTerm term.id s = true) ∧
    db.effectiveModality s = .online ∧ s.onlineChecker = some user
  onDuty : db.onlineOnDuty user now = true

section

variable {db : Db} {user : ℕ} {now today : ℤ}

/-! ### Rooms -/

/-- What the decision permits is on a floor of the duty. -/
theorem mem_floors_of_permits {floors : List ℕ} {floor : ℕ} {state : Option SessionState}
    {action : ValidationAction}
    (h : (resolveCheckerScan floors floor state).outcome.permits action = true) :
    floor ∈ floors := by
  unfold resolveCheckerScan at h
  split at h
  · cases h
  · split at h
    · cases h
    · rename_i hfloor
      simpa using hfloor

theorem Db.mem_of_replayRoom {item : ReplayItem} {room : Room}
    (h : db.replayRoom item = some room) : room ∈ db.rooms := by
  unfold Db.replayRoom at h
  split at h
  · cases h
  · rcases Option.or_eq_some_iff.mp h with h | ⟨-, h⟩
    · exact List.mem_of_find?_eq_some h
    · split at h
      · exact List.mem_of_find?_eq_some h
      · cases h

/-- What passes the decision and the check of the note passes the gate. -/
theorem roomGated_of_permits {room : Room} {action : ValidationAction} {note : String}
    (hroom : db.rooms.get? room.id = some room)
    (hpermits : (db.roomOutcome user room now today).permits action = true)
    (hnote : ¬ (action.isFlag = true ∧ Py.strip note = "")) (pk : ℕ)
    (identityMatch : Option Bool) (scannedAt : Option ℤ) (offline : Bool) :
    RoomGated db user now today ⟨pk, (db.roomSessionState room.id now today).map Session.id,
      room.id, user, action, identityMatch, note, scannedAt, offline⟩ where
  checker := rfl
  room := ⟨room, hroom, mem_floors_of_permits hpermits, hpermits, rfl⟩
  note hflag hblank := hnote ⟨hflag, hblank⟩

/-- A validation that the action of a scan adds. -/
theorem gated_roomAction {pk : ℕ} {action : ValidationAction} {note : String} :
    ∀ v ∈ ((roomAction user pk action note now today).run db).2.validations,
      v ∈ db.validations ∨ RoomGated db user now today v := by
  have hacted := roomActed_roomAction db user pk action note now today
  generalize (roomAction user pk action note now today).run db = r at hacted ⊢
  intro v hv
  cases hacted with
  | unknown hroom => exact .inl hv
  | refused hroom hpermits => exact .inl hv
  | noteRequired hroom hpermits hblank => exact .inl hv
  | repeated hroom hpermits hnote hkey cache => exact .inl hv
  | @applied room hroom hpermits hnote hkey cache notices =>
    rcases Table.mem_insert.mp hv with hold | rfl
    · exact .inl hold
    · obtain ⟨hmem, -⟩ := Table.get?_eq_some_iff.mp hroom
      exact .inr (roomGated_of_permits (Table.get?_key hmem) hpermits hnote _ _ _ _)

/-- A queued scan that applies is permitted. -/
theorem permits_of_scanReason {item : ReplayItem} {room : Room} {action : ValidationAction}
    (hroom : db.replayRoom item = some room) (haction : item.action = .known action)
    (hreason : db.scanReason user item now today = none) :
    (db.roomOutcome user room now today).permits action = true ∧
      ¬ (action.isFlag = true ∧ Py.strip item.note = "") := by
  rw [Db.scanReason, hroom] at hreason
  obtain ⟨-, -, action', hknown, hpermits, hnote⟩ := of_replayReason hreason
  cases haction.symm.trans hknown
  exact ⟨hpermits, hnote⟩

/-- A validation that the handling of a queued scan adds. -/
theorem gated_replayItem {item : ReplayItem} :
    ∀ v ∈ ((replayItem user item now today).run db).2.validations,
      v ∈ db.validations ∨ RoomGated db user now today v := by
  have hhandled := handled_replayItem db user item now today
  generalize (replayItem user item now today).run db = r at hhandled ⊢
  intro v hv
  cases hhandled with
  | malformed hitem => exact .inl hv
  | duplicate hitem hhas => exact .inl hv
  | rateLimited hnew hover cache receipts => exact .inl hv
  | raised hnew hallowed hunreadable cache => exact .inl hv
  | conflict hnew hallowed hread hreason session cache receipts => exact .inl hv
  | applied hnew hallowed hread hroom haction hreason cache receipts notices =>
    rcases Table.mem_insert.mp hv with hold | rfl
    · exact .inl hold
    · obtain ⟨hpermits, hnote⟩ := permits_of_scanReason hroom haction hreason
      have hmem := Db.mem_of_replayRoom hroom
      exact .inr (roomGated_of_permits (Table.get?_key hmem) hpermits hnote _ _ _ _)

/-- A validation that a batch adds was added by one of its items, in the database that item
found. -/
theorem gated_replay {items : List (ReplayItem × ℤ)} :
    ∀ v ∈ ((replay user now items).run db).2.validations, v ∈ db.validations ∨
      ∃ pre item today post results db₁, items = pre ++ (item, today) :: post ∧
        (replay user now pre).run db = (.ok results, db₁) ∧ RoomGated db₁ user now today v := by
  induction items generalizing db with
  | nil => exact fun v hv => .inl hv
  | cons head items ih =>
    obtain ⟨item, today⟩ := head
    intro v hv
    have hitem : ∀ v ∈ ((replayItem user item now today).run db).2.validations,
        v ∈ db.validations ∨ RoomGated db user now today v := gated_replayItem
    have hfirst : v ∈ ((replayItem user item now today).run db).2.validations →
        v ∈ db.validations ∨ ∃ pre item' today' post results db₁,
          (item, today) :: items = pre ++ (item', today') :: post ∧
          (replay user now pre).run db = (.ok results, db₁) ∧
            RoomGated db₁ user now today' v := fun hv =>
      (hitem v hv).imp id fun hgated => ⟨[], item, today, items, [], db, rfl, rfl, hgated⟩
    rcases hrun : (replayItem user item now today).run db with ⟨e | result, db'⟩ <;>
      rw [hrun] at hfirst
    · rw [replay, Prog.run_bind_of_error hrun] at hv
      exact hfirst hv
    · rw [replay, Prog.run_bind_of_ok hrun, Prog.snd_run_bind_pure] at hv
      rcases ih v hv with hold | ⟨pre, item', today', post, results, db₁, rfl, hpre, hgated⟩
      · exact hfirst hold
      · refine .inr ⟨(item, today) :: pre, item', today', post, result :: results, db₁, rfl, ?_,
          hgated⟩
        rw [replay, Prog.run_bind_of_ok hrun, Prog.run_bind_of_ok hpre]
        rfl

/-! ### Online classes -/

/-- The status change of an online action leaves the validations alone. -/
theorem validations_applyOnlineStatus (s : Session) (action : ValidationAction)
    (scannedAt last : ℤ) :
    ((applyOnlineStatus user s action scannedAt last).run db).2.validations = db.validations := by
  have hquiet : CheckIns fun db db' : Db => db'.validations = db.validations :=
    { kind := ⟨fun _ => rfl, fun _ _ _ h h' => h'.trans h⟩
      quiet := fun _ _ _ _ => rfl
      runs := fun _ _ _ _ _ _ => rfl
      misses := fun _ _ _ => rfl }
  exact hquiet.applyOnlineStatus (fun _ _ => rfl) user s action scannedAt last db

/-- The validation that an online action adds. -/
theorem validations_applyAction {s : Session} {action : ValidationAction} {note : String}
    {identityMatch : Option Bool} {scannedAt last : ℤ} :
    ((applyAction user s action note identityMatch scannedAt last).run db).2.validations =
      db.validations.insert fun pk =>
        ⟨pk, some s.id, s.room, user, action, identityMatch, note, some scannedAt, false⟩ := by
  rw [applyAction, Prog.run_select_bind, Prog.run_modify_bind, createAudit, Prog.run_modify_bind]
  refine Prog.snd_run_bind (P := fun db₁ : Db => db₁.validations = db.validations.insert fun pk =>
    ⟨pk, some s.id, s.room, user, action, identityMatch, note, some scannedAt, false⟩) ?_ ?_
  · rw [validations_applyOnlineStatus]
  · intro _ db₁ hdb₁
    split
    · exact hdb₁
    · exact hdb₁

/-- A validation that an online action adds. -/
theorem gated_onlineAction {pk : ℕ} {action : ValidationAction} {note : String} {last : ℤ} :
    ∀ v ∈ ((onlineAction user pk action note now last).run db).2.validations,
      v ∈ db.validations ∨ OnlineGated db user now v := by
  intro v hv
  rw [onlineAction, Prog.run_select_bind, Prog.run_select_bind] at hv
  cases hload : db.onlineSession pk user with
  | none =>
    rw [hload] at hv
    exact .inl hv
  | some s =>
    obtain ⟨term, hactive, hfilter⟩ := Option.bind_eq_some_iff.mp hload
    obtain ⟨hget, hsel⟩ := Option.filter_eq_some_iff.mp hfilter
    rw [Bool.and_eq_true, Bool.and_eq_true, beq_iff_eq, beq_iff_eq] at hsel
    rw [hload] at hv
    dsimp only at hv
    split at hv
    · exact .inl hv
    · rename_i hgate
      split at hv
      · exact .inl hv
      · split at hv
        · exact .inl hv
        · rw [Prog.run_modifyGet_bind] at hv
          split at hv
          · rw [Prog.snd_run_bind_pure, validations_applyAction] at hv
            rcases Table.mem_insert.mp hv with hold | rfl
            · exact .inl hold
            · obtain ⟨hduty, -⟩ := not_or.mp (mt Bool.or_eq_true_iff.mpr hgate)
              rw [Bool.not_eq_true', Bool.not_eq_false] at hduty
              exact .inr ⟨rfl, ⟨s, (Table.get?_eq_some_iff.mp hget).1, rfl,
                ⟨term, hactive, hsel.1.1⟩, hsel.1.2, hsel.2⟩, hduty⟩
          · exact .inl hv

/-- A validation that an action on the session of a form adds. -/
theorem gated_onlineActionOn {session : PostedId} {action : ValidationAction} {note : String}
    {last : ℤ} : ∀ v ∈ ((onlineActionOn user session action note now last).run db).2.validations,
      v ∈ db.validations ∨ OnlineGated db user now v := by
  intro v hv
  cases session with
  | id pk => exact gated_onlineAction v hv
  | unreadable =>
    rw [onlineActionOn, Prog.run_select_bind] at hv
    split at hv <;> exact .inl hv
  | absent => exact .inl hv
  | notDigits => exact .inl hv

/-! ### Forms -/

/-- A validation that a posted action adds. -/
theorem gated_actionView {room session : PostedId} {action : ReplayAction} {note : String}
    {last : ℤ} :
    ∀ v ∈ ((actionView user room session action note now today last).run db).2.validations,
      v ∈ db.validations ∨ (room ≠ .absent ∧ RoomGated db user now today v) ∨
        (room = .absent ∧ OnlineGated db user now v) := by
  intro v hv
  cases action with
  | other text => exact .inl hv
  | known action =>
    unfold actionView at hv
    dsimp only at hv
    split at hv
    · rename_i honline
      rw [Prog.snd_run_bind_pure] at hv
      exact (gated_onlineActionOn v hv).imp id fun hgated => .inr ⟨honline.1, hgated⟩
    · cases room with
      | id pk =>
        rw [Prog.snd_run_bind_pure] at hv
        exact (gated_roomAction v hv).imp id fun hgated => .inl ⟨nofun, hgated⟩
      | unreadable => exact .inl hv
      | absent => exact .inl hv
      | notDigits => exact .inl hv

/-! ### Agreement -/

/-- The validation of a scan made online instead of offline. -/
def CheckerValidation.madeLive (v : CheckerValidation) (now : ℤ) : CheckerValidation :=
  { v with scannedAt := some now, offlineQueued := false }

/-- A form that names a room is a form on that room. -/
theorem actionView_room (pk : ℕ) (session : PostedId) (action : ValidationAction) (note : String)
    (last : ℤ) : actionView user (.id pk) session (.known action) note now today last = (do
      let reply ← roomAction user pk action note now today
      pure (.room reply)) := by
  unfold actionView
  exact if_neg fun h => ClaimedSession.noConfusion h.1

/-- What a queued scan records, the posted action for the same room records. -/
theorem agrees_actionView {item : ReplayItem} {result : ReplayResult} {db' : Db}
    (hrun : (replayItem user item now today).run db = (.ok result, db'))
    (happlied : result.status = .applied) (session : PostedId) (last : ℤ) :
    ∃ room action v, db.replayRoom item = some room ∧ item.action = .known action ∧
      db'.validations.rows = db.validations.rows ++ [v] ∧
      ((actionView user (.id room.id) session item.action item.note now today last).run db).1 =
        .ok (.room .applied) ∧
      ((actionView user (.id room.id) session item.action item.note now today
          last).run db).2.validations.rows =
        if db.roomKeyFree user room action now today then
          db.validations.rows ++ [v.madeLive now]
        else db.validations.rows := by
  have hhandled := handled_replayItem db user item now today
  rw [hrun] at hhandled
  cases hhandled with
  | applied hnew hallowed hread hroom haction hreason cache receipts notices =>
    obtain ⟨hpermits, hnote⟩ := permits_of_scanReason hroom haction hreason
    refine ⟨_, _, _, hroom, haction, Table.rows_insert .., ?_⟩
    have hget : db.rooms.get? _ = some _ := Table.get?_key (Db.mem_of_replayRoom hroom)
    rw [haction, actionView_room, Prog.snd_run_bind_pure]
    rename_i uuid room action
    have hacted := roomActed_roomAction db user room.id action item.note now today
    rcases hlive : (roomAction user room.id action item.note now today).run db with ⟨reply, db''⟩
    -- the live call meets the same gate, so only the key can tell the two apart
    rw [hlive] at hacted
    cases hacted with
    | unknown hnone => cases hget.symm.trans hnone
    | refused hsame hrefused =>
      cases hget.symm.trans hsame
      exact absurd hpermits hrefused
    | noteRequired hsame _ hblank => exact absurd hblank hnote
    | repeated hsame _ _ hkey cache =>
      cases hget.symm.trans hsame
      rw [Prog.run_bind_of_ok hlive, if_neg hkey]
      exact ⟨rfl, rfl⟩
    | applied hsame _ _ hkey cache notices =>
      cases hget.symm.trans hsame
      rw [Prog.run_bind_of_ok hlive, if_pos hkey]
      exact ⟨rfl, rfl⟩
  | _ => cases happlied

end

/-- Duty gating, and agreement of posted actions and queued scans. A posted action, whatever the
form holds, adds only validations that pass the gate of the room or of the online class; a batch
adds only validations that pass the gate of the room in the database their item finds; and
where a queued scan is applied, the action posted for the same room passes its gate and, unless
it was applied within the minute, adds the same validation but for its time and its origin. -/
theorem validations_gated :
    (∀ (db : Db) (user : ℕ) (room session : PostedId) (action : ReplayAction) (note : String)
      (now today last : ℤ),
      ∀ v ∈ ((actionView user room session action note now today last).run db).2.validations,
        v ∈ db.validations ∨ (room ≠ .absent ∧ RoomGated db user now today v) ∨
          (room = .absent ∧ OnlineGated db user now v)) ∧
    (∀ (db : Db) (user : ℕ) (now : ℤ) (items : List (ReplayItem × ℤ)),
      ∀ v ∈ ((replay user now items).run db).2.validations, v ∈ db.validations ∨
        ∃ pre item today post results db₁, items = pre ++ (item, today) :: post ∧
          (replay user now pre).run db = (.ok results, db₁) ∧ RoomGated db₁ user now today v) ∧
    ∀ (db : Db) (user : ℕ) (item : ReplayItem) (now today : ℤ) (result : ReplayResult) (db' : Db),
      (replayItem user item now today).run db = (.ok result, db') → result.status = .applied →
        ∀ (session : PostedId) (last : ℤ), ∃ room action v, db.replayRoom item = some room ∧
          item.action = .known action ∧ db'.validations.rows = db.validations.rows ++ [v] ∧
          ((actionView user (.id room.id) session item.action item.note now today
            last).run db).1 = .ok (.room .applied) ∧
          ((actionView user (.id room.id) session item.action item.note now today
              last).run db).2.validations.rows =
            if db.roomKeyFree user room action now today then
              db.validations.rows ++ [v.madeLive now]
            else db.validations.rows :=
  ⟨fun _ _ _ _ _ _ _ _ _ => gated_actionView, fun _ _ _ _ => gated_replay,
    fun _ _ _ _ _ _ _ hrun happlied session last => agrees_actionView hrun happlied session last⟩

/-- The scan that verifies the running class is applied, and the action posted for the room adds
the same validation. -/
theorem validations_gated_queued :
    ((replayItem 7 Campus.queuedScan Campus.halfPastEight Campus.monday).run
        Campus.checked).1.toOption = some ⟨some 99, .applied, none⟩ ∧
      ∃ v, ((actionView 7 (.id 1) .absent Campus.queuedScan.action "" Campus.halfPastEight
          Campus.monday 0).run Campus.checked).2.validations.rows =
        Campus.checked.validations.rows ++ [v] := by
  have hresult : ((replayItem 7 Campus.queuedScan Campus.halfPastEight Campus.monday).run
      Campus.checked).1.toOption = some ⟨some 99, .applied, none⟩ := by decide +kernel
  refine ⟨hresult, ?_⟩
  rcases hrun : (replayItem 7 Campus.queuedScan Campus.halfPastEight Campus.monday).run
      Campus.checked with ⟨e | result, db'⟩
  · rw [hrun] at hresult
    cases hresult
  rw [hrun] at hresult
  cases hresult
  obtain ⟨room, action, v, hroom, haction, -, -, hlive⟩ :=
    validations_gated.2.2 _ _ _ _ _ _ _ hrun rfl .absent 0
  cases haction
  have hfirst : Campus.checked.replayRoom Campus.queuedScan =
      some ⟨1, 1, "A101", "qr-1", "100001", false, ""⟩ := by decide +kernel
  have hfree : Campus.checked.roomKeyFree 7 ⟨1, 1, "A101", "qr-1", "100001", false, ""⟩ .verified
      Campus.halfPastEight Campus.monday = true := by decide +kernel
  cases hroom.symm.trans hfirst
  rw [if_pos hfree] at hlive
  exact ⟨_, hlive⟩

end FluxTrack
