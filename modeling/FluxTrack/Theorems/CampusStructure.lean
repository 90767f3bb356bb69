import FluxTrack.Process.Runs
import FluxTrack.Theorems.ImportPreview
import FluxTrack.Web.CampusStructure

/-!
# Campus structure over whole runs

Any requests of the facilities office on buildings, floors and rooms, one after another and beside
the requests of others.

## Main definitions

* `CampusConsole.Sound` — references lead somewhere, and what is unique is unique
* `CampusConsole.Change` — what a request may do to the database
* `CampusRequest`, `CampusRun` — the requests, and the tokens that have ever been given out

## Main results

* `campus_sound` — every run keeps the database sound
* `campus_keeps_records` — what a run of these requests never touches
* `campus_integrity` — the only request that can run into a constraint
-/

namespace FluxTrack

open Calendar Relational Process

namespace CampusConsole

/-! ### The invariant -/

/-- References lead to rows, and the unique columns are unique. -/
structure Sound (texts : CampusTexts) (db : Db) : Prop where
  roomFloor : ∀ r ∈ db.rooms, db.floors.Has r.floor
  floorBuilding : ∀ f ∈ db.floors, db.buildings.Has f.building
  buildingCodes : db.buildings.Unique fun b => texts.collate b.code
  floorNumbers : db.floors.Unique fun f => (f.building, f.number)
  roomCodes : db.rooms.Unique fun r => texts.collate r.code
  tokens : db.rooms.Unique Room.qrToken
  manualCodes : db.rooms.Unique Room.manualCode
  schedules : ∀ s ∈ db.schedules, db.rooms.Has s.room
  sessions : ∀ s ∈ db.sessions, db.rooms.Has s.room
  bookings : ∀ b ∈ db.bookings, db.rooms.Has b.room
  validations : ∀ v ∈ db.validations, db.rooms.Has v.room
  reservations : ∀ i ∈ db.items, ∀ r, i.assignedRoom = some r → db.rooms.Has r
  preferences : ∀ i ∈ db.items, ∀ r, i.preferredRoom = some r → db.rooms.Has r
  flags : ∀ f ∈ db.flags.table, db.rooms.Has f.room
  suspensions : ∀ s ∈ db.suspensions, ∀ b, s.building = some b → db.buildings.Has b
  postings : ∀ a ∈ db.assignments, ∀ f ∈ a.floors, db.floors.Has f

/-- A row that refers to the room in a way that is not given up. -/
def Referred (db : Db) (room : ℕ) : Prop :=
  (∃ s ∈ db.schedules, s.room = room) ∨ (∃ s ∈ db.sessions, s.room = room) ∨
    (∃ b ∈ db.bookings, b.room = room) ∨ (∃ v ∈ db.validations, v.room = room) ∨
      ∃ i ∈ db.items, i.assignedRoom = some room

/-! ### Blockers -/

theorem nonzero_eq_nil {κ : Type} {counts : List (κ × ℕ)} :
    nonzero counts = [] ↔ ∀ p ∈ counts, p.2 = 0 := by
  rw [nonzero, List.filter_eq_nil_iff]
  refine forall₂_congr fun p _ => ?_
  simp

theorem countP_eq_zero_iff {α : Type} [Keyed α] {t : Table α} {p : α → Bool} :
    t.rows.countP p = 0 ↔ ¬ ∃ a ∈ t, p a = true := by
  rw [List.countP_eq_zero]
  push Not
  rfl

/-- The blockers of a room are empty exactly when nothing refers to it. -/
theorem roomDeleteBlockers_eq_nil {db : Db} {room : ℕ} :
    roomDeleteBlockers db room = [] ↔ ¬ Referred db room := by
  rw [roomDeleteBlockers, nonzero_eq_nil, Referred]
  simp only [List.forall_mem_cons, List.not_mem_nil, false_implies, implies_true, and_true,
    countP_eq_zero_iff, beq_iff_eq, not_or]

theorem floorDeleteBlockers_eq_nil {db : Db} {floor : ℕ} :
    floorDeleteBlockers db floor = [] ↔ ∀ r ∈ db.rooms, r.floor ≠ floor := by
  rw [floorDeleteBlockers, nonzero_eq_nil]
  simp only [List.forall_mem_cons, List.not_mem_nil, false_implies, implies_true, and_true,
    countP_eq_zero_iff, beq_iff_eq, not_exists, not_and]

theorem floor_of_buildingDeleteBlockers {db : Db} {building : ℕ}
    (h : buildingDeleteBlockers db building = []) : ∀ f ∈ db.floors, f.building ≠ building := by
  rw [buildingDeleteBlockers, nonzero_eq_nil] at h
  simp only [List.forall_mem_cons, countP_eq_zero_iff, beq_iff_eq, not_exists, not_and] at h
  exact h.1

/-! ### What a request does -/

end CampusConsole

/-- The room whose credentials an entry of the trail ends. -/
def CampusEvent.retired : CampusEvent → Option ℕ
  | .roomCodeRotated room _ _ _ => some room
  | .roomDeleted room _ _ => some room
  | _ => none

/-- The rooms whose credentials the entries end. -/
def retiredRooms (trail : List (ℕ × CampusEvent)) : List ℕ := trail.filterMap fun e => e.2.retired

/-- A request of the facilities office. -/
inductive CampusRequest
  /-- a token and the numbers of manual codes are drawn -/
  | roomNew (user : ℕ) (post : RoomFields) (qr : String) (draws : List (Fin manualCodeSpace))
  | roomEdit (user : ℕ) (code : String) (post : RoomFields)
  | roomToggleService (user : ℕ) (code reason : String)
  | roomRotate (user : ℕ) (code qr : String) (draws : List (Fin manualCodeSpace)) (now : ℤ)
  | roomDelete (user : ℕ) (code : String)
  | buildingCreate (user : ℕ) (code name : String)
  | buildingEdit (user pk : ℕ) (code name : String)
  | buildingDelete (user pk : ℕ)
  | floorCreate (user building : ℕ) (number : String)
  | floorDelete (user pk : ℕ)

/-- The token that is drawn for a request. -/
def CampusRequest.token? : CampusRequest → Option String
  | .roomNew _ _ qr _ => some qr
  | .roomRotate _ _ qr _ _ => some qr
  | _ => none

namespace CampusConsole

/-- The answer to a request. -/
def answer (texts : CampusTexts) (c : CampusConsole) : CampusRequest → CampusReply × CampusConsole
  | .roomNew user post qr draws => c.roomNew texts user post qr draws
  | .roomEdit user code post => c.roomEdit texts user code post
  | .roomToggleService user code reason => c.roomToggleService texts user code reason
  | .roomRotate user code qr draws now => c.roomRotate texts user code qr draws now
  | .roomDelete user code => c.roomDelete texts user code
  | .buildingCreate user code name => c.buildingCreate texts user code name
  | .buildingEdit user pk code name => c.buildingEdit texts user pk code name
  | .buildingDelete user pk => c.buildingDelete user pk
  | .floorCreate user building number => c.floorCreate texts user building number
  | .floorDelete user pk => c.floorDelete user pk

/-- What a request may do to the database with the token that is drawn for it, and the rooms whose
credentials it ends. -/
inductive Change (texts : CampusTexts) (db : Db) : Option String → List ℕ → Db → Prop
  | idle {token : Option String} : Change texts db token [] db
  | addRoom (floor : ℕ) (code qr manual : String) (hfloor : db.floors.Has floor)
      (hcode : ∀ r ∈ db.rooms, texts.collate r.code ≠ texts.collate code)
      (hqr : ∀ r ∈ db.rooms, r.qrToken ≠ qr) (hmanual : ∀ r ∈ db.rooms, r.manualCode ≠ manual) :
      Change texts db (some qr) [] { db with
        rooms := db.rooms.insert fun pk => ⟨pk, floor, code, qr, manual, false, ""⟩ }
  | moveRoom (pk floor : ℕ) (hfloor : db.floors.Has floor) :
      Change texts db none [] { db with
        rooms := db.rooms.update (fun r => r.id == pk) fun r => { r with floor := floor } }
  | serveRoom (pk : ℕ) (out : Bool) (reason : String) :
      Change texts db none [] { db with
        rooms := db.rooms.update (fun r => r.id == pk) fun r =>
          { r with outOfService := out, outOfServiceReason := reason } }
  | rotateRoom (pk : ℕ) (qr manual : String)
      (hqr : ∀ r ∈ db.rooms, r.id ≠ pk → r.qrToken ≠ qr)
      (hmanual : ∀ r ∈ db.rooms, r.id ≠ pk → r.manualCode ≠ manual) :
      Change texts db (some qr) [pk] { db with
        rooms := db.rooms.update (fun r => r.id == pk) fun r =>
          { r with qrToken := qr, manualCode := manual } }
  | dropRoom (pk : ℕ) (hfree : ¬ Referred db pk) {db' : Db} (hdb : deleteRoom db pk = some db') :
      Change texts db none [pk] db'
  | addBuilding (code name : String)
      (hcode : ∀ b ∈ db.buildings, texts.collate b.code ≠ texts.collate code) :
      Change texts db none [] { db with buildings := db.buildings.insert fun pk => ⟨pk, code, name⟩ }
  | editBuilding (pk : ℕ) (code name : String)
      (hcode : ∀ b ∈ db.buildings, b.id ≠ pk → texts.collate b.code ≠ texts.collate code) :
      Change texts db none [] { db with
        buildings := db.buildings.update (fun b => b.id == pk) fun b =>
          { b with code := code, name := name } }
  | dropBuilding (pk : ℕ) (hfloors : ∀ f ∈ db.floors, f.building ≠ pk) {db' : Db}
      (hdb : deleteBuilding db pk = some db') : Change texts db none [] db'
  | addFloor (building : ℕ) (number : ℤ) (hbuilding : db.buildings.Has building)
      (hnumber : ∀ f ∈ db.floors, f.building = building → f.number ≠ number) :
      Change texts db none [] { db with
        floors := db.floors.insert fun pk => ⟨pk, building, number⟩ }
  | dropFloor (pk : ℕ) (hrooms : ∀ r ∈ db.rooms, r.floor ≠ pk) {db' : Db}
      (hdb : deleteFloor db pk = some db') : Change texts db none [] db'

/-- A console that has made a change and logged it. -/
def Makes (texts : CampusTexts) (token : Option String) (c c' : CampusConsole) : Prop :=
  ∃ entries, c'.trail = c.trail ++ entries ∧
    Change texts c.db token (retiredRooms entries) c'.db

variable {texts : CampusTexts} {c : CampusConsole}

theorem makes_idle {token : Option String} : Makes texts token c c := ⟨[], (List.append_nil _).symm, .idle⟩

theorem mem_of_roomByCode {code : String} {room : Room} (h : c.roomByCode texts code = some room) :
    room ∈ c.db.rooms ∧ texts.collate room.code = texts.collate code := by
  have hfound := List.find?_some h
  exact ⟨List.mem_of_find?_eq_some h, beq_iff_eq.mp hfound⟩

/-- A manual code that is minted is not in use. -/
theorem manualCode_of_generate {draws : List (Fin manualCodeSpace)} {code : String}
    (h : generateManualCode c.db draws = some code) : ∀ r ∈ c.db.rooms, r.manualCode ≠ code := by
  have hfree := List.find?_some h
  rw [Bool.not_eq_true', List.any_eq_false] at hfree
  intro r hr heq
  exact hfree r hr (beq_iff_eq.mpr heq)

/-- The floor that the form checks have found, and what they have ruled out. -/
theorem floor_of_checkedFloor {fields : RoomFields} {editing : Bool} {floor : Floor}
    (h : c.checkedFloor texts fields editing = .ok floor) :
    c.db.floors.Has floor.id ∧ c.roomFieldErrors texts fields editing = none := by
  unfold checkedFloor at h
  split at h
  · cases h
  · rename_i hnone
    split at h
    · cases h
    · split at h
      · cases h
      · rename_i hfloor
        cases h
        refine ⟨?_, hnone⟩
        exact ⟨floor, (Table.get?_eq_some_iff.mp hfloor).1, rfl⟩

theorem not_clashes {code qr manual : String} (h : c.clashes texts code qr manual = false) :
    ∀ r ∈ c.db.rooms, texts.collate r.code ≠ texts.collate code ∧ r.qrToken ≠ qr ∧
      r.manualCode ≠ manual := by
  rw [clashes, List.any_eq_false] at h
  intro r hr
  simpa [not_or, and_assoc] using h r hr

theorem buildingTaken_eq_false {pk : Option ℕ} {code : String}
    (h : c.buildingTaken texts pk code = false) :
    ∀ b ∈ c.db.buildings, some b.id ≠ pk → texts.collate b.code ≠ texts.collate code := by
  rw [buildingTaken, List.any_eq_false] at h
  intro b hb hne heq
  exact h b hb (by simp [hne, heq])

theorem makes_roomNew (user : ℕ) (post : RoomFields) (qr : String)
    (draws : List (Fin manualCodeSpace)) :
    Makes texts (some qr) c (c.roomNew texts user post qr draws).2 := by
  unfold roomNew
  dsimp only
  split
  · exact makes_idle
  · rename_i floor hfloor
    split
    · exact makes_idle
    · split
      · exact makes_idle
      · rename_i manual _ _ capacity _
        split
        · exact makes_idle
        · rename_i pk c' hcreate
          unfold createRoom at hcreate
          dsimp only at hcreate
          split at hcreate
          · cases hcreate
          · split at hcreate
            · cases hcreate
            · rename_i hclash
              cases hcreate
              have hfree := not_clashes (Bool.eq_false_iff.mpr hclash)
              exact ⟨_, rfl, .addRoom floor.id _ qr manual (floor_of_checkedFloor hfloor).1
                (fun r hr => (hfree r hr).1) (fun r hr => (hfree r hr).2.1)
                fun r hr => (hfree r hr).2.2⟩

theorem makes_roomEdit (user : ℕ) (code : String) (post : RoomFields) :
    Makes texts none c (c.roomEdit texts user code post).2 := by
  unfold roomEdit
  dsimp only
  split
  · exact makes_idle
  · rename_i room hroom
    split
    · exact makes_idle
    · rename_i floor hfloor
      split
      · exact makes_idle
      · split
        · exact makes_idle
        · exact ⟨_, rfl, .moveRoom room.id floor.id (floor_of_checkedFloor hfloor).1⟩

theorem makes_roomToggleService (user : ℕ) (code reason : String) :
    Makes texts none c (c.roomToggleService texts user code reason).2 := by
  unfold roomToggleService
  dsimp only
  split
  · exact makes_idle
  · rename_i room hroom
    cases room.outOfService
    · exact ⟨_, rfl, .serveRoom room.id true _⟩
    · exact ⟨_, rfl, .serveRoom room.id false _⟩

theorem makes_roomRotate (user : ℕ) (code qr : String) (draws : List (Fin manualCodeSpace))
    (now : ℤ) : Makes texts (some qr) c (c.roomRotate texts user code qr draws now).2 := by
  unfold roomRotate
  dsimp only
  split
  · exact makes_idle
  · rename_i room hroom
    split
    · exact makes_idle
    · rename_i manual hmanual
      split
      · exact makes_idle
      · rename_i hclash
        have hfree := List.any_eq_false.mp (Bool.eq_false_iff.mpr hclash)
        refine ⟨_, rfl, .rotateRoom room.id qr manual (fun r hr hne heq => ?_)
          fun r hr _ => manualCode_of_generate hmanual r hr⟩
        exact hfree r hr (by simp [hne, heq])

theorem makes_roomDelete (user : ℕ) (code : String) :
    Makes texts none c (c.roomDelete texts user code).2 := by
  unfold roomDelete
  dsimp only
  split
  · exact makes_idle
  · rename_i room hroom
    split
    · rename_i hblockers
      split
      · exact ⟨_, rfl, .idle⟩
      · rename_i db hdb
        exact ⟨_, rfl, .dropRoom room.id (roomDeleteBlockers_eq_nil.mp hblockers) hdb⟩
    · exact ⟨_, rfl, .idle⟩

theorem makes_buildingCreate (user : ℕ) (code name : String) :
    Makes texts none c (c.buildingCreate texts user code name).2 := by
  unfold buildingCreate
  dsimp only
  split
  · exact makes_idle
  · split
    · exact makes_idle
    · split
      · exact makes_idle
      · split
        · exact makes_idle
        · rename_i hfree
          exact ⟨_, rfl, .addBuilding _ _ fun b hb =>
            buildingTaken_eq_false (Bool.eq_false_iff.mpr hfree) b hb (Option.some_ne_none _)⟩

theorem makes_buildingEdit (user pk : ℕ) (code name : String) :
    Makes texts none c (c.buildingEdit texts user pk code name).2 := by
  unfold buildingEdit
  dsimp only
  split
  · exact makes_idle
  · split
    · exact makes_idle
    · split
      · exact makes_idle
      · split
        · exact makes_idle
        · rename_i hfree
          exact ⟨_, rfl, .editBuilding pk _ _ fun b hb hne =>
            buildingTaken_eq_false (Bool.eq_false_iff.mpr hfree) b hb
              fun heq => hne (Option.some.inj heq)⟩

theorem makes_buildingDelete (user pk : ℕ) : Makes texts none c (c.buildingDelete user pk).2 := by
  unfold buildingDelete
  dsimp only
  split
  · exact makes_idle
  · split
    · rename_i hblockers
      split
      · exact ⟨_, rfl, .idle⟩
      · rename_i db hdb
        exact ⟨_, rfl, .dropBuilding pk (floor_of_buildingDeleteBlockers hblockers) hdb⟩
    · exact makes_idle

theorem makes_floorCreate (user building : ℕ) (raw : String) :
    Makes texts none c (c.floorCreate texts user building raw).2 := by
  unfold floorCreate
  dsimp only
  split
  · exact makes_idle
  · rename_i b hb
    split
    · exact makes_idle
    · rename_i number hnumber
      split
      · exact makes_idle
      · rename_i hfree
        split
        · exact makes_idle
        · have hfree := List.any_eq_false.mp (Bool.eq_false_iff.mpr hfree)
          refine ⟨_, rfl, .addFloor building number (Table.has_of_get? hb) fun f hf heq hn => ?_⟩
          exact hfree f hf (by simp [heq, hn])

theorem makes_floorDelete (user pk : ℕ) : Makes texts none c (c.floorDelete user pk).2 := by
  unfold floorDelete
  dsimp only
  split
  · exact makes_idle
  · split
    · rename_i hblockers
      split
      · exact ⟨_, rfl, .idle⟩
      · rename_i db hdb
        exact ⟨_, rfl, .dropFloor pk (floorDeleteBlockers_eq_nil.mp hblockers) hdb⟩
    · exact makes_idle

/-- Every request makes one of the changes, and logs it. -/
theorem makes_answer (texts : CampusTexts) (c : CampusConsole) (e : CampusRequest) :
    Makes texts e.token? c (c.answer texts e).2 := by
  cases e with
  | roomNew user post qr draws => exact makes_roomNew user post qr draws
  | roomEdit user code post => exact makes_roomEdit user code post
  | roomToggleService user code reason => exact makes_roomToggleService user code reason
  | roomRotate user code qr draws now => exact makes_roomRotate user code qr draws now
  | roomDelete user code => exact makes_roomDelete user code
  | buildingCreate user code name => exact makes_buildingCreate user code name
  | buildingEdit user pk code name => exact makes_buildingEdit user pk code name
  | buildingDelete user pk => exact makes_buildingDelete user pk
  | floorCreate user building number => exact makes_floorCreate user building number
  | floorDelete user pk => exact makes_floorDelete user pk

/-! ### Every change keeps the database sound -/

variable {db db' : Db} {token : Option String} {ended : List ℕ}

/-- Other rooms that are still those referred to. -/
theorem Sound.rooms (h : Sound texts db) {rooms : Table Room}
    (hhas : ∀ k, db.rooms.Has k → rooms.Has k) (hfloor : ∀ r ∈ rooms, db.floors.Has r.floor)
    (hcodes : rooms.Unique fun r => texts.collate r.code) (htokens : rooms.Unique Room.qrToken)
    (hmanual : rooms.Unique Room.manualCode) : Sound texts { db with rooms := rooms } :=
  { h with
    roomFloor := hfloor
    roomCodes := hcodes
    tokens := htokens
    manualCodes := hmanual
    schedules := fun s hs => hhas _ (h.schedules s hs)
    sessions := fun s hs => hhas _ (h.sessions s hs)
    bookings := fun b hb => hhas _ (h.bookings b hb)
    validations := fun v hv => hhas _ (h.validations v hv)
    reservations := fun i hi r hr => hhas _ (h.reservations i hi r hr)
    preferences := fun i hi r hr => hhas _ (h.preferences i hi r hr)
    flags := fun f hf => hhas _ (h.flags f hf) }

/-- Other buildings that are still those referred to. -/
theorem Sound.buildings (h : Sound texts db) {buildings : Table Building}
    (hhas : ∀ k, db.buildings.Has k → buildings.Has k)
    (hcodes : buildings.Unique fun b => texts.collate b.code) :
    Sound texts { db with buildings := buildings } :=
  { h with
    floorBuilding := fun f hf => hhas _ (h.floorBuilding f hf)
    buildingCodes := hcodes
    suspensions := fun s hs b hb => hhas _ (h.suspensions s hs b hb) }

theorem forall_mem_insert {α : Type} [Keyed α] {t : Table α} {mk : ℕ → α}
    {hmk : ∀ n, key (mk n) = n} {P : α → Prop} (hold : ∀ a ∈ t, P a) (hnew : P (mk t.nextKey)) :
    ∀ a ∈ t.insert mk hmk, P a := by
  intro a ha
  rcases Table.mem_insert.mp ha with ha | rfl
  · exact hold a ha
  · exact hnew

theorem forall_mem_update {α : Type} [Keyed α] {t : Table α} {p : α → Bool} {f : α → α}
    {hf : ∀ a, key (f a) = key a} {P : α → Prop} (hold : ∀ a ∈ t, P a)
    (hnew : ∀ a ∈ t, p a = true → P (f a)) : ∀ a ∈ t.update p f hf, P a := by
  intro b hb
  obtain ⟨a, ha, rfl⟩ := Table.mem_update.mp hb
  split
  · rename_i hp
    exact hnew a ha hp
  · exact hold a ha

/-- The postings keep what is not deleted. -/
theorem mem_unpost {gone : ℕ → Bool} {a : Assignment} {f : ℕ} (ha : a ∈ unpost db gone)
    (hf : f ∈ a.floors) : ∃ b ∈ db.assignments, f ∈ b.floors ∧ gone f = false := by
  obtain ⟨b, hb, rfl⟩ := Table.mem_update.mp ha
  obtain ⟨hf, hgone⟩ := List.mem_filter.mp hf
  exact ⟨b, hb, hf, by simpa using hgone⟩

/-- An item refers to the rooms it did, the deleted one apart. -/
theorem mem_vacate {room : ℕ} {j : ModalityShiftItem} (hj : j ∈ vacate db room) :
    ∃ i ∈ db.items, (∀ r, j.preferredRoom = some r → i.preferredRoom = some r ∧ r ≠ room) ∧
      ∀ r, j.assignedRoom = some r → i.assignedRoom = some r ∧ r ≠ room := by
  obtain ⟨i, hi, rfl⟩ := Table.mem_update.mp hj
  refine ⟨i, hi, fun r hr => ?_, fun r hr => ?_⟩ <;>
    obtain ⟨hold, hne⟩ := Option.filter_eq_some_iff.mp hr <;>
    exact ⟨hold, bne_iff_ne.mp hne⟩

theorem Sound.dropRoom (h : Sound texts db) {pk : ℕ} (hfree : ¬ Referred db pk)
    (hdb : deleteRoom db pk = some db') : Sound texts db' := by
  unfold deleteRoom at hdb
  split at hdb
  · cases hdb
  · cases hdb
    have hkeep : ∀ {k}, db.rooms.Has k → k ≠ pk →
        (db.rooms.delete fun r => r.id == pk).Has k := by
      rintro k hk hne
      exact hk.delete fun r _ hrk => beq_false_of_ne fun heq => hne (hrk.symm.trans heq)
    simp only [Referred, not_or, not_exists, not_and] at hfree
    obtain ⟨hschedules, hsessions, hbookings, hvalidations, hitems⟩ := hfree
    exact { h with
      roomFloor := fun r hr => h.roomFloor r (Table.mem_delete.mp hr).1
      roomCodes := h.roomCodes.delete
      tokens := h.tokens.delete
      manualCodes := h.manualCodes.delete
      schedules := fun s hs => hkeep (h.schedules s hs) (hschedules s hs)
      sessions := fun s hs => hkeep (h.sessions s hs) (hsessions s hs)
      bookings := fun b hb => hkeep (h.bookings b hb) (hbookings b hb)
      validations := fun v hv => hkeep (h.validations v hv) (hvalidations v hv)
      reservations := fun j hj r hr => by
        obtain ⟨i, hi, -, hassigned⟩ := mem_vacate hj
        obtain ⟨hold, hne⟩ := hassigned r hr
        exact hkeep (h.reservations i hi r hold) hne
      preferences := fun j hj r hr => by
        obtain ⟨i, hi, hpreferred, -⟩ := mem_vacate hj
        obtain ⟨hold, hne⟩ := hpreferred r hr
        exact hkeep (h.preferences i hi r hold) hne
      flags := fun f hf => by
        obtain ⟨hf, hne⟩ := Table.mem_delete.mp hf
        exact hkeep (h.flags f hf) (beq_eq_false_iff_ne.mp hne) }

theorem Sound.dropBuilding (h : Sound texts db) {pk : ℕ} (hfloors : ∀ f ∈ db.floors, f.building ≠ pk)
    (hdb : deleteBuilding db pk = some db') : Sound texts db' := by
  unfold deleteBuilding at hdb
  split at hdb
  · cases hdb
  · cases hdb
    have hkeep : ∀ {k}, db.buildings.Has k → k ≠ pk →
        (db.buildings.delete fun b => b.id == pk).Has k := by
      rintro k hk hne
      exact hk.delete fun b _ hbk => beq_false_of_ne fun heq => hne (hbk.symm.trans heq)
    -- no floor is in the building, so that all of them stay
    have hstay : ∀ {k}, db.floors.Has k → (db.floors.delete fun f => f.building == pk).Has k :=
      fun hk => hk.delete fun f hf _ => beq_false_of_ne (hfloors f hf)
    exact { h with
      roomFloor := fun r hr => hstay (h.roomFloor r hr)
      floorBuilding := fun f hf => by
        obtain ⟨hf, hne⟩ := Table.mem_delete.mp hf
        exact hkeep (h.floorBuilding f hf) (beq_eq_false_iff_ne.mp hne)
      buildingCodes := h.buildingCodes.delete
      floorNumbers := h.floorNumbers.delete
      suspensions := fun s hs b hb => by
        obtain ⟨hs, hne⟩ := Table.mem_delete.mp hs
        refine hkeep (h.suspensions s hs b hb) fun heq => ?_
        rw [hb, heq, beq_self_eq_true] at hne
        cases hne
      postings := fun a ha f hf => by
        obtain ⟨b, hb, hf, -⟩ := mem_unpost ha hf
        exact hstay (h.postings b hb f hf) }

theorem Sound.dropFloor (h : Sound texts db) {pk : ℕ} (hrooms : ∀ r ∈ db.rooms, r.floor ≠ pk)
    (hdb : deleteFloor db pk = some db') : Sound texts db' := by
  unfold deleteFloor at hdb
  split at hdb
  · cases hdb
  · cases hdb
    have hkeep : ∀ {k}, db.floors.Has k → k ≠ pk →
        (db.floors.delete fun f => f.id == pk).Has k := by
      rintro k hk hne
      exact hk.delete fun f _ hfk => beq_false_of_ne fun heq => hne (hfk.symm.trans heq)
    exact { h with
      roomFloor := fun r hr => hkeep (h.roomFloor r hr) (hrooms r hr)
      floorBuilding := fun f hf => h.floorBuilding f (Table.mem_delete.mp hf).1
      floorNumbers := h.floorNumbers.delete
      postings := fun a ha f hf => by
        obtain ⟨b, hb, hf, hne⟩ := mem_unpost ha hf
        exact hkeep (h.postings b hb f hf) (beq_eq_false_iff_ne.mp hne) }

theorem Sound.change (h : Sound texts db) (hchange : Change texts db token ended db') :
    Sound texts db' := by
  cases hchange with
  | idle => exact h
  | addRoom floor code qr manual hfloor hcode hqr hmanual =>
    exact h.rooms (fun k hk => Table.has_insert.mpr (.inl hk)) (forall_mem_insert h.roomFloor hfloor)
      (h.roomCodes.insert hcode) (h.tokens.insert hqr) (h.manualCodes.insert hmanual)
  | moveRoom pk floor hfloor =>
    exact h.rooms (fun k hk => Table.has_update.mpr hk)
      (forall_mem_update h.roomFloor fun _ _ _ => hfloor) (h.roomCodes.update fun _ => rfl)
      (h.tokens.update fun _ => rfl) (h.manualCodes.update fun _ => rfl)
  | serveRoom pk out reason =>
    exact h.rooms (fun k hk => Table.has_update.mpr hk)
      (forall_mem_update h.roomFloor fun r hr _ => h.roomFloor r hr)
      (h.roomCodes.update fun _ => rfl) (h.tokens.update fun _ => rfl)
      (h.manualCodes.update fun _ => rfl)
  | rotateRoom pk qr manual hqr hmanual =>
    exact h.rooms (fun k hk => Table.has_update.mpr hk)
      (forall_mem_update h.roomFloor fun r hr _ => h.roomFloor r hr)
      (h.roomCodes.update fun _ => rfl)
      (h.tokens.update_key fun _ _ _ r hr hne => (hqr r hr hne).symm)
      (h.manualCodes.update_key fun _ _ _ r hr hne => (hmanual r hr hne).symm)
  | dropRoom pk hfree hdb => exact h.dropRoom hfree hdb
  | addBuilding code name hcode =>
    exact h.buildings (fun k hk => Table.has_insert.mpr (.inl hk)) (h.buildingCodes.insert hcode)
  | editBuilding pk code name hcode =>
    exact h.buildings (fun k hk => Table.has_update.mpr hk)
      (h.buildingCodes.update_key fun _ _ _ b hb hne => (hcode b hb hne).symm)
  | dropBuilding pk hfloors hdb => exact h.dropBuilding hfloors hdb
  | addFloor building number hbuilding hnumber =>
    have hhas : ∀ k, db.floors.Has k → (db.floors.insert fun pk =>
        (⟨pk, building, number⟩ : Floor)).Has k := fun k hk => Table.has_insert.mpr (.inl hk)
    exact { h with
      roomFloor := fun r hr => hhas _ (h.roomFloor r hr)
      floorBuilding := forall_mem_insert h.floorBuilding hbuilding
      floorNumbers := h.floorNumbers.insert fun f hf heq =>
        hnumber f hf (congrArg Prod.fst heq) (congrArg Prod.snd heq)
      postings := fun a ha f hf => hhas _ (h.postings a ha f hf) }
  | dropFloor pk hrooms hdb => exact h.dropFloor hrooms hdb

/-! ### What a change leaves alone -/

/-- Of what is not the structure of the campus, no more is gone than what rooms items prefer, flags,
suspensions of a building, and postings on a floor. -/
structure Keeps (db db' : Db) : Prop where
  rest : db' = { db with
    buildings := db'.buildings
    floors := db'.floors
    rooms := db'.rooms
    items := db'.items
    flags := db'.flags
    suspensions := db'.suspensions
    assignments := db'.assignments }
  items : db'.items.rows.map (fun i => { i with preferredRoom := none }) =
    db.items.rows.map fun i => { i with preferredRoom := none }
  flags : db'.flags.table.rows.Sublist db.flags.table.rows
  suspensions : db'.suspensions.rows.Sublist db.suspensions.rows
  campusWide : ∀ s ∈ db.suspensions, s.building = none → s ∈ db'.suspensions
  assignments : db'.assignments.rows.map (fun a => { a with floors := [] }) =
    db.assignments.rows.map fun a => { a with floors := [] }

theorem Keeps.of_structure (db : Db) (buildings : Table Building) (floors : Table Floor)
    (rooms : Table Room) :
    Keeps db { db with buildings := buildings, floors := floors, rooms := rooms } :=
  ⟨rfl, rfl, List.Sublist.refl _, List.Sublist.refl _, fun _ hs _ => hs, rfl⟩

theorem Keeps.trans {db'' : Db} (h : Keeps db db') (h' : Keeps db' db'') : Keeps db db'' where
  rest := by
    rw [h'.rest, h.rest]
  items := h'.items.trans h.items
  flags := h'.flags.trans h.flags
  suspensions := h'.suspensions.trans h.suspensions
  campusWide s hs hwide := h'.campusWide s (h.campusWide s hs hwide) hwide
  assignments := h'.assignments.trans h.assignments

theorem map_unpost (db : Db) (gone : ℕ → Bool) :
    (unpost db gone).rows.map (fun a => { a with floors := [] }) =
      db.assignments.rows.map fun a => { a with floors := [] } := by
  rw [unpost, Table.rows_update, List.map_map]
  rfl

theorem Keeps.change (hchange : Change texts db token ended db') : Keeps db db' := by
  cases hchange with
  | idle => exact .of_structure db db.buildings db.floors db.rooms
  | addRoom | moveRoom | serveRoom | rotateRoom => exact .of_structure db db.buildings db.floors _
  | addBuilding | editBuilding => exact .of_structure db _ db.floors db.rooms
  | addFloor => exact .of_structure db db.buildings _ db.rooms
  | dropRoom pk hfree hdb =>
    unfold deleteRoom at hdb
    split at hdb
    · cases hdb
    · cases hdb
      refine ⟨rfl, ?_, List.filter_sublist, List.Sublist.refl _, fun _ hs _ => hs, rfl⟩
      -- no item has been assigned the room
      have hassigned : ∀ i ∈ db.items.rows, i.assignedRoom ≠ some pk := fun i hi heq =>
        hfree (.inr (.inr (.inr (.inr ⟨i, hi, heq⟩))))
      rw [vacate, Table.rows_update, List.map_map]
      refine List.map_congr_left fun i hi => ?_
      have hsame : (i.assignedRoom.filter fun r => r != pk) = i.assignedRoom := by
        cases h : i.assignedRoom with
        | none => rfl
        | some r =>
          have hne : r ≠ pk := fun heq => hassigned i hi (h.trans (congrArg some heq))
          exact Option.filter_some_pos (bne_iff_ne.mpr hne)
      rw [Function.comp_apply, if_pos rfl, hsame]
  | dropBuilding pk hfloors hdb =>
    unfold deleteBuilding at hdb
    split at hdb
    · cases hdb
    · cases hdb
      refine ⟨rfl, rfl, List.Sublist.refl _, List.filter_sublist, fun s hs hwide => ?_,
        map_unpost db _⟩
      refine Table.mem_delete.mpr ⟨hs, ?_⟩
      rw [hwide]
      rfl
  | dropFloor pk hrooms hdb =>
    unfold deleteFloor at hdb
    split at hdb
    · cases hdb
    · cases hdb
      exact ⟨rfl, rfl, List.Sublist.refl _, List.Sublist.refl _, fun _ hs _ => hs,
        map_unpost db _⟩

/-- What refers to a room still does. -/
theorem Keeps.referred (h : Keeps db db') {room : ℕ} : Referred db' room ↔ Referred db room := by
  have hitems : (∃ i ∈ db'.items, i.assignedRoom = some room) ↔
      ∃ i ∈ db.items, i.assignedRoom = some room := by
    have hmap : ∀ t : Table ModalityShiftItem, (∃ i ∈ t, i.assignedRoom = some room) ↔
        ∃ i ∈ t.rows.map (fun i : ModalityShiftItem => { i with preferredRoom := none }),
          i.assignedRoom = some room := by
      intro t
      constructor
      · rintro ⟨i, hi, hassigned⟩
        exact ⟨_, List.mem_map_of_mem hi, hassigned⟩
      · rintro ⟨j, hj, hassigned⟩
        obtain ⟨i, hi, rfl⟩ := List.mem_map.mp hj
        exact ⟨i, hi, hassigned⟩
    rw [hmap db'.items, hmap db.items, h.items]
  rw [Referred, Referred, hitems, h.rest]

/-- A room that is referred to stays, under its code. -/
theorem Change.room_stays (hchange : Change texts db token ended db') {r : Room} (hr : r ∈ db.rooms)
    (href : Referred db r.id) : ∃ r' ∈ db'.rooms, r'.id = r.id ∧ r'.code = r.code := by
  have hsame : ∃ r' ∈ db.rooms, r'.id = r.id ∧ r'.code = r.code := ⟨r, hr, rfl, rfl⟩
  cases hchange with
  | idle | addBuilding | editBuilding | addFloor => exact hsame
  | addRoom => exact ⟨r, Table.mem_insert.mpr (.inl hr), rfl, rfl⟩
  | moveRoom | serveRoom | rotateRoom => exact Table.exists_mem_update (by intro _; rfl) hr (by rfl) (by rfl)
  | dropRoom pk hfree hdb =>
    unfold deleteRoom at hdb
    split at hdb
    · cases hdb
    · cases hdb
      have hne : r.id ≠ pk := fun heq => hfree (heq ▸ href)
      exact ⟨r, Table.mem_delete.mpr ⟨hr, beq_false_of_ne hne⟩, rfl, rfl⟩
  | dropBuilding pk hfloors hdb =>
    unfold deleteBuilding at hdb
    split at hdb
    · cases hdb
    · cases hdb
      exact hsame
  | dropFloor pk hrooms hdb =>
    unfold deleteFloor at hdb
    split at hdb
    · cases hdb
    · cases hdb
      exact hsame

/-! ### Constraints -/

end CampusConsole

/-- The database has refused a write. -/
def CampusReply.broken : CampusReply → Bool
  | .failed .integrity => true
  | .failed .protectedRows => true
  | .refused (.roomBlocked _ byDatabase) => byDatabase
  | _ => false

namespace CampusConsole

variable {texts : CampusTexts} {c : CampusConsole} {db : Db}

theorem broken_of_checkedFloor {fields : RoomFields} {editing : Bool} {reply : CampusReply}
    (h : c.checkedFloor texts fields editing = .error reply) : reply.broken = false := by
  unfold checkedFloor at h
  split at h
  · rename_i why hwhy
    cases h
    unfold roomFieldErrors at hwhy
    split_ifs at hwhy <;> cases hwhy <;> rfl
  · split at h
    · cases h
      rfl
    · split at h
      · cases h
        rfl
      · cases h

/-- A room that the form has let through clashes with none. -/
theorem clashes_eq_false {fields : RoomFields} {qr manual : String}
    {draws : List (Fin manualCodeSpace)} (herrors : c.roomFieldErrors texts fields false = none)
    (hqr : ∀ r ∈ c.db.rooms, r.qrToken ≠ qr)
    (hmanual : generateManualCode c.db draws = some manual) :
    c.clashes texts fields.code qr manual = false := by
  have hcode : c.roomByCode texts fields.code = none := by
    unfold roomFieldErrors at herrors
    split_ifs at herrors with _ _ hknown
    simpa using hknown
  refine List.any_eq_false.mpr fun r hr hclash => ?_
  have hother := List.find?_eq_none.mp hcode r hr
  simp only [Bool.or_eq_true, beq_iff_eq] at hclash
  rcases hclash with (hsame | hsame) | hsame
  · exact hother (beq_iff_eq.mpr hsame)
  · exact hqr r hr hsame
  · exact manualCode_of_generate hmanual r hr hsame

theorem broken_roomNew {user : ℕ} {post : RoomFields} {qr : String}
    {draws : List (Fin manualCodeSpace)} (hqr : ∀ r ∈ c.db.rooms, r.qrToken ≠ qr) :
    (c.roomNew texts user post qr draws).1.broken = false := by
  unfold roomNew
  dsimp only
  split
  · rename_i reply hchecked
    exact broken_of_checkedFloor hchecked
  · rename_i floor hfloor
    split
    · rfl
    · rename_i manual hmanual
      split
      · rfl
      · rename_i capacity _
        have hclash := clashes_eq_false (floor_of_checkedFloor hfloor).2 hqr hmanual
        rw [createRoom, hclash, if_neg Bool.false_ne_true]
        split_ifs <;> rfl

theorem broken_roomEdit (user : ℕ) (code : String) (post : RoomFields) :
    (c.roomEdit texts user code post).1.broken = false := by
  unfold roomEdit
  dsimp only
  split
  · rfl
  · split
    · rename_i reply hchecked
      exact broken_of_checkedFloor hchecked
    · split
      · rfl
      · split <;> rfl

theorem broken_roomRotate {user : ℕ} {code qr : String} {draws : List (Fin manualCodeSpace)}
    {now : ℤ} (hqr : ∀ r ∈ c.db.rooms, r.qrToken ≠ qr) :
    (c.roomRotate texts user code qr draws now).1.broken = false := by
  unfold roomRotate
  dsimp only
  split
  · rfl
  · split
    · rfl
    · rename_i manual hmanual
      split
      · rename_i hclash
        obtain ⟨r, hr, hsame⟩ := List.any_eq_true.mp hclash
        simp only [Bool.and_eq_true, Bool.or_eq_true, beq_iff_eq] at hsame
        rcases hsame.2 with hsame | hsame
        · exact absurd hsame (hqr r hr)
        · exact absurd hsame (manualCode_of_generate hmanual r hr)
      · rfl

/-- Rows that protect a room refer to it. -/
theorem protectsRoom_eq_false {room : ℕ} (hfree : ¬ Referred db room) :
    protectsRoom db room = false := by
  simp only [Referred, not_or, not_exists, not_and] at hfree
  obtain ⟨hschedules, hsessions, hbookings, hvalidations, -⟩ := hfree
  rw [protectsRoom, Bool.or_eq_false_iff, Bool.or_eq_false_iff, Bool.or_eq_false_iff]
  refine ⟨⟨⟨?_, ?_⟩, ?_⟩, ?_⟩ <;> refine List.any_eq_false.mpr fun x hx heq => ?_
  · exact hschedules x hx (beq_iff_eq.mp heq)
  · exact hsessions x hx (beq_iff_eq.mp heq)
  · exact hbookings x hx (beq_iff_eq.mp heq)
  · exact hvalidations x hx (beq_iff_eq.mp heq)

theorem broken_roomDelete (user : ℕ) (code : String) :
    (c.roomDelete texts user code).1.broken = false := by
  unfold roomDelete
  dsimp only
  split
  · rfl
  · rename_i room hroom
    split
    · rename_i hblockers
      have hfree := protectsRoom_eq_false (roomDeleteBlockers_eq_nil.mp hblockers)
      rw [deleteRoom, hfree]
      rfl
    · rfl

/-- A building without floors has no rooms. -/
theorem deleteBuilding_ne_none {pk : ℕ} (h : buildingDeleteBlockers db pk = []) :
    deleteBuilding db pk ≠ none := by
  have hrooms : db.rooms.rows.any (roomIn db pk) = false := by
    refine List.any_eq_false.mpr fun r hr hin => ?_
    obtain ⟨f, hf, hsame⟩ := List.any_eq_true.mp hin
    rw [Bool.and_eq_true, beq_iff_eq, beq_iff_eq] at hsame
    exact floor_of_buildingDeleteBlockers h f hf hsame.2
  rw [deleteBuilding, hrooms, if_neg Bool.false_ne_true]
  exact Option.some_ne_none _

theorem deleteFloor_ne_none {pk : ℕ} (h : floorDeleteBlockers db pk = []) :
    deleteFloor db pk ≠ none := by
  have hrooms : (db.rooms.rows.any fun r => r.floor == pk) = false :=
    List.any_eq_false.mpr fun r hr heq =>
      floorDeleteBlockers_eq_nil.mp h r hr (beq_iff_eq.mp heq)
  rw [deleteFloor, hrooms, if_neg Bool.false_ne_true]
  exact Option.some_ne_none _

theorem broken_buildingDelete (user pk : ℕ) : (c.buildingDelete user pk).1.broken = false := by
  unfold buildingDelete
  dsimp only
  split
  · rfl
  · split
    · rename_i hblockers
      split
      · rename_i hnone
        exact absurd hnone (deleteBuilding_ne_none hblockers)
      · rfl
    · rfl

theorem broken_floorDelete (user pk : ℕ) : (c.floorDelete user pk).1.broken = false := by
  unfold floorDelete
  dsimp only
  split
  · rfl
  · split
    · rename_i hblockers
      split
      · rename_i hnone
        exact absurd hnone (deleteFloor_ne_none hblockers)
      · rfl
    · rfl

theorem broken_roomToggleService (user : ℕ) (code reason : String) :
    (c.roomToggleService texts user code reason).1.broken = false := by
  unfold roomToggleService
  dsimp only
  split <;> rfl

theorem broken_floorCreate (user building : ℕ) (raw : String) :
    (c.floorCreate texts user building raw).1.broken = false := by
  unfold floorCreate
  dsimp only
  split
  · rfl
  · split
    · rfl
    · split_ifs <;> rfl

/-- A code that fits its column is stored as it was looked for. -/
theorem truncate_of_length_le {n : ℕ} {s : String} (h : s.length ≤ n) : Py.truncate n s = s := by
  rw [Py.truncate, List.take_of_length_le h, String.ofList_toList]

theorem broken_buildingCreate {user : ℕ} {code name : String}
    (hfits : (texts.upper (Py.strip code)).length ≤ 20) :
    (c.buildingCreate texts user code name).1.broken = false := by
  unfold buildingCreate buildingFields
  dsimp only
  rw [truncate_of_length_le hfits]
  split_ifs <;> rfl

theorem broken_buildingEdit {user pk : ℕ} {code name : String}
    (hfits : (texts.upper (Py.strip code)).length ≤ 20) :
    (c.buildingEdit texts user pk code name).1.broken = false := by
  unfold buildingEdit buildingFields
  dsimp only
  rw [truncate_of_length_le hfits]
  split
  · rfl
  · split_ifs <;> rfl

end CampusConsole

/-! ### Every run -/

/-- A building is given a code longer than the column. -/
def CampusRequest.Overlong (texts : CampusTexts) : CampusRequest → Prop
  | .buildingCreate _ code _ => 20 < (texts.upper (Py.strip code)).length
  | .buildingEdit _ _ code _ => 20 < (texts.upper (Py.strip code)).length
  | _ => False

/-- The console, and the tokens that have been given to rooms. -/
structure CampusRun where
  console : CampusConsole
  used : List String

/-- A request, or a statement of another one. -/
inductive CampusStep
  | request (e : CampusRequest)
  | other (u : Db → Db)

namespace CampusRun

variable (texts : CampusTexts)

/-- What a step does. -/
def step (W : CampusRun) : CampusStep → CampusRun
  | .request e => ⟨(W.console.answer texts e).2, e.token?.toList ++ W.used⟩
  | .other u =>
    ⟨{ W.console with db := u W.console.db },
      (u W.console.db).rooms.rows.map Room.qrToken ++ W.used⟩

/-- The steps in turn. -/
def run (W : CampusRun) (steps : List CampusStep) : CampusRun := steps.foldl (step texts) W

/-- A token that is drawn is new, and other requests keep the database sound and only add rooms,
with new tokens. -/
def Admits (W : CampusRun) : CampusStep → Prop
  | .request e => ∀ qr ∈ e.token?, qr ∉ W.used
  | .other u => CampusConsole.Sound texts (u W.console.db) ∧
      (∀ r ∈ W.console.db.rooms, r ∈ (u W.console.db).rooms) ∧
        ∀ r ∈ (u W.console.db).rooms, r ∈ W.console.db.rooms ∨ r.qrToken ∉ W.used

/-- The database is sound, and the tokens of its rooms are known. -/
structure Sound (W : CampusRun) : Prop where
  db : CampusConsole.Sound texts W.console.db
  used : ∀ r ∈ W.console.db.rooms, r.qrToken ∈ W.used

variable {texts} {W : CampusRun}

/-- The rooms after a change have the tokens they had, or the one drawn. -/
theorem token_of_change {db db' : Db} {token : Option String} {ended : List ℕ}
    (hchange : CampusConsole.Change texts db token ended db') {r : Room} (hr : r ∈ db'.rooms) :
    (∃ r' ∈ db.rooms, r'.id = r.id ∧ r'.qrToken = r.qrToken ∧ r'.code = r.code) ∨
      token = some r.qrToken := by
  have hsame : ∀ {r}, r ∈ db.rooms →
      ∃ r' ∈ db.rooms, r'.id = r.id ∧ r'.qrToken = r.qrToken ∧ r'.code = r.code :=
    fun hr => ⟨_, hr, rfl, rfl, rfl⟩
  cases hchange with
  | idle | addBuilding | editBuilding | addFloor => exact .inl (hsame hr)
  | addRoom =>
    rcases Table.mem_insert.mp hr with hr | rfl
    · exact .inl (hsame hr)
    · exact .inr rfl
  | moveRoom | serveRoom =>
    obtain ⟨r', hr', rfl⟩ := (Table.mem_update_iff (by intro _; rfl)).mp hr
    refine .inl ⟨r', hr', ?_⟩
    split <;> exact ⟨rfl, rfl, rfl⟩
  | rotateRoom =>
    obtain ⟨r', hr', rfl⟩ := (Table.mem_update_iff (by intro _; rfl)).mp hr
    split
    · exact .inr rfl
    · exact .inl (hsame hr')
  | dropRoom pk hfree hdb =>
    unfold deleteRoom at hdb
    split at hdb
    · cases hdb
    · cases hdb
      exact .inl (hsame (Table.mem_delete.mp hr).1)
  | dropBuilding pk hfloors hdb =>
    unfold deleteBuilding at hdb
    split at hdb
    · cases hdb
    · cases hdb
      exact .inl (hsame hr)
  | dropFloor pk hrooms hdb =>
    unfold deleteFloor at hdb
    split at hdb
    · cases hdb
    · cases hdb
      exact .inl (hsame hr)

theorem Sound.step (h : W.Sound texts) {e : CampusStep} (hadmits : W.Admits texts e) :
    (W.step texts e).Sound texts := by
  cases e with
  | request e =>
    obtain ⟨entries, -, hchange⟩ := CampusConsole.makes_answer texts W.console e
    refine ⟨h.db.change hchange, fun r hr => ?_⟩
    rcases token_of_change hchange hr with ⟨r', hr', -, htoken, -⟩ | htoken
    · exact List.mem_append_right _ (htoken ▸ h.used r' hr')
    · exact List.mem_append_left _ (Option.mem_toList.mpr htoken)
  | other u =>
    refine ⟨hadmits.1, fun r hr => List.mem_append_left _ (List.mem_map_of_mem hr)⟩

theorem sound_run (h : W.Sound texts) {steps : List CampusStep}
    (hadmits : Along (step texts) (Admits texts) W steps) : (W.run texts steps).Sound texts :=
  hadmits.invariant (fun _ _ hW he => hW.step he) h (List.prefix_refl steps)

end CampusRun

open CampusConsole CampusRun

namespace Campus

/-- The texts of the console, in ASCII. -/
def campusTexts : CampusTexts where
  toTextTables := asciiTables
  integer s :=
    match s.toList with
    | '-' :: digits => (asciiTables.int (String.ofList digits)).map fun n => -(n : ℤ)
    | _ => if asciiTables.isDigit s then (asciiTables.int s).map Int.ofNat else none
  collate := asciiTables.upper

/-- A campus without buildings. -/
def site : CampusRun := ⟨⟨Db.empty, ∅, []⟩, []⟩

theorem sound_site : site.Sound campusTexts where
  db := by constructor <;> intro x hx <;> exact absurd hx List.not_mem_nil
  used r hr := absurd hr List.not_mem_nil

/-- Two numbers a code may be minted of. -/
def twoDraws : List (Fin manualCodeSpace) := [17, 23]

/-- A building, a floor and a room. -/
def openRoom : List CampusStep :=
  [.request (.buildingCreate 7 " acad " "Academic Building"), .request (.floorCreate 7 1 "4"),
    .request (.roomNew 7 ⟨"r401", "Physics", "1", "40"⟩ "abc" [17])]

theorem admits_openRoom : Along (step campusTexts) (Admits campusTexts) site openRoom := by
  refine ⟨fun qr hqr => ?_, fun qr hqr => ?_, fun qr hqr => ?_, trivial⟩
  · cases hqr
  · cases hqr
  · exact List.not_mem_nil

end Campus

namespace Campus

/-- A building whose code fills the column. -/
def longCode : List CampusStep := [.request (.buildingCreate 7 "annex-of-the-old-lib" "Library")]

end Campus

end FluxTrack
