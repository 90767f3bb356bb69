import FluxTrack.Scheduling.RoomMaster
import FluxTrack.Theorems.CampusStructure

/-!
# Loading the room master twice

A load makes the rooms that are not there and refreshes the metadata of those that are. A second
load of the same workbook changes nothing, whatever it draws.

## Main definitions

* `CampusConsole.Extends` — rows have only been added
* `CampusConsole.Ready` — a room of the master is there, on its floor in its building
* `refreshed` — what the tabs with a code make of the metadata of a room

## Main results

* `room_master_adds` — a load keeps the database sound and every row of it
* `room_master_rerun` — a second load changes nothing
-/

namespace FluxTrack

open Relational

/-! ### Refreshing -/

/-- A function that sets a value or keeps it is the same twice, and so is a row of them. -/
theorem foldl_sets {α β : Type} {f : β → α → β}
    (h : ∀ a, (∃ y, ∀ x, f x a = y) ∨ ∀ x, f x a = x) (l : List α) :
    (∃ y, ∀ x, l.foldl f x = y) ∨ ∀ x, l.foldl f x = x := by
  induction l with
  | nil => exact .inr fun _ => rfl
  | cons a l ih =>
    rcases ih with ⟨y, hy⟩ | hid
    · exact .inl ⟨y, fun x => hy (f x a)⟩
    · rcases h a with ⟨y, hy⟩ | hkeep
      · exact .inl ⟨y, fun x => (hid (f x a)).trans (hy x)⟩
      · exact .inr fun x => (hid (f x a)).trans (hkeep x)

theorem foldl_sets_twice {α β : Type} {f : β → α → β}
    (h : ∀ a, (∃ y, ∀ x, f x a = y) ∨ ∀ x, f x a = x) (l : List α) (x : β) :
    l.foldl f (l.foldl f x) = l.foldl f x := by
  rcases foldl_sets h l with ⟨y, hy⟩ | hid
  · rw [hy, hy]
  · exact hid _

/-- What the rooms make of the metadata, each column by itself. -/
theorem foldl_refresh (rooms : List MasterRoom) (d : RoomDetails) :
    rooms.foldl refresh d = { d with
      name := rooms.foldl (fun n room => if room.name = "" then n else room.name) d.name
      capacity := rooms.foldl
        (fun n room => if room.capacity = 0 then n else room.capacity.toNat) d.capacity } := by
  induction rooms generalizing d with
  | nil => rfl
  | cons room rooms ih =>
    rw [List.foldl_cons, ih]
    rfl

theorem foldl_refresh_twice (rooms : List MasterRoom) (d : RoomDetails) :
    rooms.foldl refresh (rooms.foldl refresh d) = rooms.foldl refresh d := by
  have hname : ∀ room : MasterRoom,
      (∃ y, ∀ x : String, (if room.name = "" then x else room.name) = y) ∨
        ∀ x : String, (if room.name = "" then x else room.name) = x := by
    intro room
    by_cases hblank : room.name = ""
    · exact .inr fun x => if_pos hblank
    · exact .inl ⟨room.name, fun x => if_neg hblank⟩
  have hcapacity : ∀ room : MasterRoom,
      (∃ y, ∀ x : ℕ, (if room.capacity = 0 then x else room.capacity.toNat) = y) ∨
        ∀ x : ℕ, (if room.capacity = 0 then x else room.capacity.toNat) = x := by
    intro room
    by_cases hblank : room.capacity = 0
    · exact .inr fun x => if_pos hblank
    · exact .inl ⟨room.capacity.toNat, fun x => if_neg hblank⟩
  rw [foldl_refresh rooms (rooms.foldl refresh d), foldl_refresh rooms d]
  dsimp only
  rw [foldl_sets_twice hname, foldl_sets_twice hcapacity]

/-- What the tabs with a code make of the metadata of its room. -/
def refreshed (texts : CampusTexts) (code : String) (rooms : List MasterRoom) (d : RoomDetails) :
    RoomDetails :=
  (rooms.filter fun room => texts.collate room.code == texts.collate code).foldl refresh d

theorem refreshed_twice (texts : CampusTexts) (code : String) (rooms : List MasterRoom)
    (d : RoomDetails) :
    refreshed texts code rooms (refreshed texts code rooms d) = refreshed texts code rooms d :=
  foldl_refresh_twice _ d

namespace CampusConsole

variable {texts : CampusTexts} {c c' : CampusConsole} {room : MasterRoom} {drawn : Drawn}

/-! ### What a load adds -/

/-- Rows have only been added to the structure of the campus, and nothing else has changed. -/
structure Extends (c c' : CampusConsole) : Prop where
  buildings : c.db.buildings.rows <+: c'.db.buildings.rows
  floors : c.db.floors.rows <+: c'.db.floors.rows
  rooms : c.db.rooms.rows <+: c'.db.rooms.rows
  rest : c'.db = { c.db with
    buildings := c'.db.buildings
    floors := c'.db.floors
    rooms := c'.db.rooms }
  trail : c'.trail = c.trail

theorem Extends.refl (c : CampusConsole) : Extends c c :=
  ⟨List.prefix_refl _, List.prefix_refl _, List.prefix_refl _, rfl, rfl⟩

theorem Extends.trans {c'' : CampusConsole} (h : Extends c c') (h' : Extends c' c'') :
    Extends c c'' where
  buildings := h.buildings.trans h'.buildings
  floors := h.floors.trans h'.floors
  rooms := h.rooms.trans h'.rooms
  rest := by rw [h'.rest, h.rest]
  trail := h'.trail.trans h.trail

/-- The database after some changes with whatever tokens. -/
def Reaches (texts : CampusTexts) : Db → Db → Prop :=
  Relation.ReflTransGen fun db db' => ∃ token, Change texts db token [] db'

theorem Sound.reaches {db db' : Db} (h : Sound texts db) (hreach : Reaches texts db db') :
    Sound texts db' := by
  induction hreach with
  | refl => exact h
  | tail _ hstep ih =>
    obtain ⟨token, hchange⟩ := hstep
    exact ih.change hchange

/-- The building is found from then on. -/
theorem ensureBuilding_cases (texts : CampusTexts) (c : CampusConsole) (b : BuildingRef) :
    ∃ x, (c.ensureBuilding texts b).1 = x.id ∧
      (c.ensureBuilding texts b).2.db.buildings.rows.find?
        (fun x => texts.collate x.code == texts.collate b.code) = some x ∧
      Extends c (c.ensureBuilding texts b).2 ∧
      Reaches texts c.db (c.ensureBuilding texts b).2.db ∧
      (c.ensureBuilding texts b).2.details = c.details ∧
      (c.ensureBuilding texts b).2.db.rooms = c.db.rooms := by
  unfold ensureBuilding
  cases hfind : c.db.buildings.rows.find? fun x => texts.collate x.code == texts.collate b.code with
  | some x => exact ⟨x, rfl, hfind, .refl c, .refl, rfl, rfl⟩
  | none =>
    have hnone := List.find?_eq_none.mp hfind
    refine ⟨⟨c.db.buildings.nextKey, b.code, b.name⟩, rfl, ?_,
      ⟨List.prefix_append _ _, List.prefix_refl _, List.prefix_refl _, rfl, rfl⟩,
      .single ⟨none, .addBuilding b.code b.name fun x hx heq => hnone x hx (beq_iff_eq.mpr heq)⟩,
      rfl, rfl⟩
    rw [Table.rows_insert, List.find?_append, hfind]
    simp

/-- The floor is found from then on. -/
theorem ensureFloor_cases (texts : CampusTexts) (c : CampusConsole) {building : ℕ} (number : ℤ)
    (hbuilding : c.db.buildings.Has building) :
    ∃ x, (c.ensureFloor building number).1 = x.id ∧
      (c.ensureFloor building number).2.db.floors.rows.find?
        (fun x => x.building == building && x.number == number) = some x ∧
      Extends c (c.ensureFloor building number).2 ∧
      Reaches texts c.db (c.ensureFloor building number).2.db ∧
      (c.ensureFloor building number).2.details = c.details ∧
      (c.ensureFloor building number).2.db.rooms = c.db.rooms := by
  unfold ensureFloor
  cases hfind : c.db.floors.rows.find? fun x => x.building == building && x.number == number with
  | some x => exact ⟨x, rfl, hfind, .refl c, .refl, rfl, rfl⟩
  | none =>
    have hnone := List.find?_eq_none.mp hfind
    refine ⟨⟨c.db.floors.nextKey, building, number⟩, rfl, ?_,
      ⟨List.prefix_refl _, List.prefix_append _ _, List.prefix_refl _, rfl, rfl⟩,
      .single ⟨none, .addFloor building number hbuilding fun x hx hb hn => hnone x hx ?_⟩,
      rfl, rfl⟩
    · rw [Table.rows_insert, List.find?_append, hfind]
      simp
    · simp [hb, hn]

/-! ### One room -/

/-- The room is there, on its floor in its building. -/
def Ready (texts : CampusTexts) (c : CampusConsole) (room : MasterRoom) : Prop :=
  ∃ b f r, c.db.buildings.rows.find?
      (fun x => texts.collate x.code == texts.collate room.info.building.code) = some b ∧
    c.db.floors.rows.find? (fun x => x.building == b.id && x.number == room.info.floor) = some f ∧
    c.roomByCode texts room.code = some r

theorem find?_of_prefix {α : Type} {l l' : List α} {p : α → Bool} {a : α} (h : l <+: l')
    (hfind : l.find? p = some a) : l'.find? p = some a := by
  obtain ⟨rest, rfl⟩ := h
  rw [List.find?_append, hfind, Option.some_or]

theorem Ready.extends (h : Ready texts c room) (hextends : Extends c c') :
    Ready texts c' room := by
  obtain ⟨b, f, r, hb, hf, hr⟩ := h
  exact ⟨b, f, r, find?_of_prefix hextends.buildings hb, find?_of_prefix hextends.floors hf,
    find?_of_prefix hextends.rooms hr⟩

end CampusConsole

/-- The values fit their columns. -/
structure MasterRoom.Fits (room : MasterRoom) : Prop where
  name : room.name.length ≤ 120
  nonneg : 0 ≤ room.capacity
  capacity : room.capacity ≤ maxInteger

namespace CampusConsole

variable {texts : CampusTexts} {c c' : CampusConsole} {room : MasterRoom} {drawn : Drawn}

/-- The metadata of all rooms fit their columns. -/
def Fits (c : CampusConsole) : Prop :=
  ∀ pk, (c.detailsOf pk).name.length ≤ 120 ∧ (c.detailsOf pk).capacity ≤ maxInteger

/-- What is written fits exactly if there is no error. -/
theorem columns_eq_none {name capacity : Bool} : room.columns name capacity = none ↔
    (name = true → room.name.length ≤ 120) ∧
      (capacity = true → 0 ≤ room.capacity ∧ room.capacity ≤ maxInteger) := by
  unfold MasterRoom.columns
  split_ifs with hname hlarge hneg
  · simp only [Bool.and_eq_true, decide_eq_true_eq] at hname
    simp [hname.1, hname.2]
  · simp only [Bool.and_eq_true, decide_eq_true_eq] at hlarge
    simp [hlarge.1, hlarge.2]
  · simp only [Bool.and_eq_true, decide_eq_true_eq] at hneg
    simp [hneg.1, hneg.2]
  · simp only [Bool.and_eq_true, decide_eq_true_eq, not_and, not_lt] at hname hlarge hneg
    simp only [true_iff]
    exact ⟨hname, fun h => ⟨hneg h, hlarge h⟩⟩

theorem detailsOf_insert (pk pk' : ℕ) (d : RoomDetails) :
    ({ c with details := c.details.insert pk d } : CampusConsole).detailsOf pk' =
      if pk' = pk then d else c.detailsOf pk' := by
  split
  · rename_i heq
    rw [heq, detailsOf, AList.lookup_insert]
    rfl
  · rename_i hne
    rw [detailsOf, AList.lookup_insert_ne hne]
    rfl

theorem Fits.insert (h : c.Fits) (db : Db) (pk : ℕ) {d : RoomDetails}
    (hd : d.name.length ≤ 120 ∧ d.capacity ≤ maxInteger) :
    ({ c with db := db, details := c.details.insert pk d } : CampusConsole).Fits := by
  intro pk'
  have hdetails : ({ c with db := db, details := c.details.insert pk d } : CampusConsole).detailsOf
      pk' = if pk' = pk then d else c.detailsOf pk' := detailsOf_insert pk pk' d
  rw [hdetails]
  split
  · exact hd
  · exact h pk'

/-- A room of the master has been loaded. -/
structure Loaded (texts : CampusTexts) (c : CampusConsole) (room : MasterRoom) (isNew : Bool)
    (c' : CampusConsole) : Prop where
  grows : Extends c c'
  count : c'.db.rooms.rows.length = c.db.rooms.rows.length + isNew.toNat
  reaches : Reaches texts c.db c'.db
  found : ∃ r, c'.roomByCode texts room.code = some r
  fits : room.Fits
  same : ∀ r ∈ c'.db.rooms, texts.collate r.code = texts.collate room.code →
    ∃ d, c'.detailsOf r.id = refresh d room ∧ (r ∈ c.db.rooms → d = c.detailsOf r.id)
  other : ∀ r ∈ c'.db.rooms, texts.collate r.code ≠ texts.collate room.code →
    r ∈ c.db.rooms ∧ c'.detailsOf r.id = c.detailsOf r.id

/-- A refresh leaves the metadata within its columns. -/
theorem fits_refresh {d : RoomDetails} (hname : d.name.length ≤ 120)
    (hcapacity : d.capacity ≤ maxInteger) (h : room.Fits) :
    (refresh d room).name.length ≤ 120 ∧ (refresh d room).capacity ≤ maxInteger := by
  unfold refresh
  constructor
  · dsimp only
    split
    · exact hname
    · exact h.name
  · dsimp only
    split
    · exact hcapacity
    · have := h.capacity
      omega

/-- A room that is made has what a refresh of no metadata gives. -/
theorem refresh_blank (room : MasterRoom) :
    refresh ⟨"", 0, none, none⟩ room = ⟨room.name, room.capacity.toNat, none, none⟩ := by
  have hcap : (if room.capacity = 0 then 0 else room.capacity.toNat) = room.capacity.toNat := by
    split
    · rename_i hzero
      rw [hzero]
      rfl
    · rfl
  have hname : (if room.name = "" then "" else room.name) = room.name := by
    split
    · rename_i hempty
      exact hempty.symm
    · rfl
  rw [refresh, hcap, hname]

theorem loaded_of_new {floor : ℕ} {manual : String} (hfits : c.Fits)
    (hfloor : c.db.floors.Has floor) (hnew : c.roomByCode texts room.code = none)
    (hcolumns : room.columns true true = none) {made : ℕ × CampusConsole}
    (hcreate : c.createRoom texts room.code room.name floor room.capacity.toNat drawn.1 manual =
      .ok made) : Loaded texts c room true made.2 ∧ made.2.Fits := by
  have hroom : room.Fits := by
    obtain ⟨hname, hcapacity⟩ := columns_eq_none.mp hcolumns
    exact ⟨hname rfl, (hcapacity rfl).1, (hcapacity rfl).2⟩
  have hblank := (refresh_blank room).symm
  -- the search has missed every room, so the new one is the only room of its code
  have hold : ∀ r ∈ c.db.rooms, texts.collate r.code ≠ texts.collate room.code := fun r hr heq =>
    List.find?_eq_none.mp hnew r hr (beq_iff_eq.mpr heq)
  unfold createRoom at hcreate
  dsimp only at hcreate
  split at hcreate
  · cases hcreate
  · split at hcreate
    · cases hcreate
    · rename_i hclash
      cases hcreate
      -- the unique columns took the row
      have hfree := not_clashes (Bool.eq_false_iff.mpr hclash)
      constructor
      · constructor
        · exact ⟨List.prefix_refl _, List.prefix_refl _, List.prefix_append _ _, rfl, rfl⟩
        · exact List.length_append
        · exact .single ⟨some drawn.1, .addRoom floor room.code drawn.1 manual hfloor
            (fun r hr => (hfree r hr).1) (fun r hr => (hfree r hr).2.1)
            fun r hr => (hfree r hr).2.2⟩
        · refine ⟨⟨c.db.rooms.nextKey, floor, room.code, drawn.1, manual, false, ""⟩, ?_⟩
          have hnone : c.db.rooms.rows.find?
              (fun r => texts.collate r.code == texts.collate room.code) = none := hnew
          rw [roomByCode, Table.rows_insert, List.find?_append, hnone]
          simp
        · exact hroom
        · intro r hr heq
          rcases Table.mem_insert.mp hr with hr | rfl
          · exact absurd heq (hold r hr)
          · refine ⟨⟨"", 0, none, none⟩, ?_, fun hr => absurd rfl (hold _ hr)⟩
            exact ((detailsOf_insert (c := c) c.db.rooms.nextKey c.db.rooms.nextKey _).trans
              (if_pos rfl)).trans hblank
        · intro r hr hne
          rcases Table.mem_insert.mp hr with hr | rfl
          · have hlt : r.id < c.db.rooms.nextKey := Table.key_lt_nextKey hr
            exact ⟨hr, (detailsOf_insert (c := c) c.db.rooms.nextKey r.id _).trans
              (if_neg (Nat.ne_of_lt hlt))⟩
          · exact absurd rfl hne
      · exact hfits.insert _ _ (hblank ▸ fits_refresh (Nat.zero_le _) (Nat.zero_le _) hroom)

/-- The room was there, and its metadata have been refreshed. -/
structure Refreshes (c : CampusConsole) (room : MasterRoom) (pk : ℕ) (c' : CampusConsole) :
    Prop where
  db : c'.db = c.db
  trail : c'.trail = c.trail
  same : c'.detailsOf pk = refresh (c.detailsOf pk) room
  other : ∀ pk', pk' ≠ pk → c'.detailsOf pk' = c.detailsOf pk'

/-- Whether the name and whether the capacity of a room that is there would be written. -/
theorem refresh_of_unchanged {d : RoomDetails}
    (hname : (room.name != "" && d.name != room.name) = false)
    (hcapacity : (room.capacity != 0 && (d.capacity : ℤ) != room.capacity) = false) :
    refresh d room = d := by
  have hname : (if room.name = "" then d.name else room.name) = d.name := by
    split
    · rfl
    · rename_i hne
      simp only [bne_iff_ne.mpr hne, Bool.true_and, bne_eq_false_iff_eq] at hname
      exact hname.symm
  have hcapacity : (if room.capacity = 0 then d.capacity else room.capacity.toNat) = d.capacity := by
    split
    · rfl
    · rename_i hne
      simp only [bne_iff_ne.mpr hne, Bool.true_and, bne_eq_false_iff_eq] at hcapacity
      rw [← hcapacity, Int.toNat_natCast]
  rw [refresh, hname, hcapacity]

/-- What is not written fits because it is there already. -/
theorem fits_of_columns {pk : ℕ} (hfits : c.Fits)
    (h : room.columns (room.name != "" && (c.detailsOf pk).name != room.name)
      (room.capacity != 0 && ((c.detailsOf pk).capacity : ℤ) != room.capacity) = none) :
    room.Fits := by
  obtain ⟨hname, hcapacity⟩ := columns_eq_none.mp h
  obtain ⟨hold, hsize⟩ := hfits pk
  simp only [Bool.and_eq_true, bne_iff_ne, and_imp] at hname hcapacity
  have hbounds : 0 ≤ room.capacity ∧ room.capacity ≤ maxInteger := by
    by_cases hzero : room.capacity = 0
    · rw [hzero]
      exact ⟨le_refl _, Int.natCast_nonneg _⟩
    · by_cases hsame : ((c.detailsOf pk).capacity : ℤ) = room.capacity
      · rw [← hsame]
        exact ⟨Int.natCast_nonneg _, by exact_mod_cast hsize⟩
      · exact hcapacity hzero hsame
  refine ⟨?_, hbounds.1, hbounds.2⟩
  by_cases hempty : room.name = ""
  · rw [hempty]
    exact Nat.zero_le _
  · by_cases hsame : (c.detailsOf pk).name = room.name
    · rw [← hsame]
      exact hold
    · exact hname hempty hsame

/-- A room that is there is refreshed, whatever is drawn. -/
theorem storeRoom_of_found (floor : ℕ) {r : Room} (hr : c.roomByCode texts room.code = some r)
    (hdrawn : (generateManualCode c.db drawn.2).isSome) (hroom : room.Fits) :
    ∃ c', c.storeRoom texts floor room drawn = .ok (false, c') ∧ Refreshes c room r.id c' := by
  obtain ⟨manual, hmanual⟩ := Option.isSome_iff_exists.mp hdrawn
  have hcolumns : room.columns (room.name != "" && (c.detailsOf r.id).name != room.name)
      (room.capacity != 0 && ((c.detailsOf r.id).capacity : ℤ) != room.capacity) = none :=
    columns_eq_none.mpr ⟨fun _ => hroom.name, fun _ => ⟨hroom.nonneg, hroom.capacity⟩⟩
  unfold storeRoom
  rw [hmanual, hr]
  dsimp only
  rw [hcolumns]
  refine ⟨_, rfl, ?_⟩
  split
  · exact ⟨rfl, rfl, (detailsOf_insert r.id r.id _).trans (if_pos rfl),
      fun pk' hne => (detailsOf_insert r.id pk' _).trans (if_neg hne)⟩
  · rename_i hkeep
    obtain ⟨hname, hcapacity⟩ := Bool.or_eq_false_iff.mp (Bool.eq_false_iff.mpr hkeep)
    exact ⟨rfl, rfl, (refresh_of_unchanged hname hcapacity).symm, fun _ _ => rfl⟩

theorem Refreshes.loaded {r : Room} (h : Sound texts c.db) (hroom : room.Fits)
    (hr : c.roomByCode texts room.code = some r) (hrefresh : Refreshes c room r.id c') :
    Loaded texts c room false c' := by
  obtain ⟨hmem, hcode⟩ := mem_of_roomByCode hr
  constructor
  · refine ⟨?_, ?_, ?_, ?_, hrefresh.trail⟩
    · rw [hrefresh.db]
    · rw [hrefresh.db]
    · rw [hrefresh.db]
    · rw [hrefresh.db]
  · rw [hrefresh.db]
    rfl
  · rw [hrefresh.db]
    exact .refl
  · rw [roomByCode, hrefresh.db]
    exact ⟨r, hr⟩
  · exact hroom
  · intro r' hr' hcode'
    rw [hrefresh.db] at hr'
    have heq : r' = r := h.roomCodes r' hr' r hmem (hcode'.trans hcode.symm)
    rw [heq]
    exact ⟨c.detailsOf r.id, hrefresh.same, fun _ => rfl⟩
  · intro r' hr' hcode'
    rw [hrefresh.db] at hr'
    have hne : r'.id ≠ r.id := fun heq =>
      hcode' ((congrArg (fun x : Room => texts.collate x.code)
        (Table.eq_of_key_eq hr' hmem heq)).trans hcode)
    exact ⟨hr', hrefresh.other r'.id hne⟩

theorem Refreshes.fits {pk : ℕ} (h : c.Fits) (hroom : room.Fits) (hrefresh : Refreshes c room pk c') :
    c'.Fits := by
  intro pk'
  by_cases hpk : pk' = pk
  · rw [hpk, hrefresh.same]
    exact fits_refresh (h pk).1 (h pk).2 hroom
  · rw [hrefresh.other pk' hpk]
    exact h pk'

theorem loaded_of_storeRoom {floor : ℕ} {isNew : Bool} (h : Sound texts c.db) (hfits : c.Fits)
    (hfloor : c.db.floors.Has floor)
    (hstore : c.storeRoom texts floor room drawn = .ok (isNew, c')) :
    Loaded texts c room isNew c' ∧ c'.Fits := by
  have hstored := hstore
  unfold storeRoom at hstore
  split at hstore
  · cases hstore
  · rename_i manual hmanual
    split at hstore
    · -- a new room
      rename_i hnew
      split at hstore
      · cases hstore
      · split at hstore
        · cases hstore
        · rename_i hcolumns
          split at hstore
          · cases hstore
          · rename_i pk made hcreate
            cases hstore
            exact loaded_of_new hfits hfloor hnew hcolumns hcreate
    · -- a room that was there
      rename_i r hr
      dsimp only at hstore
      split at hstore
      · cases hstore
      · rename_i hcolumns
        have hroom := fits_of_columns hfits hcolumns
        have hsome : (generateManualCode c.db drawn.2).isSome := by
          rw [hmanual]
          rfl
        obtain ⟨c'', hfound, hrefresh⟩ := storeRoom_of_found floor hr hsome hroom
        cases hstored.symm.trans hfound
        exact ⟨hrefresh.loaded h hroom hr, hrefresh.fits hfits hroom⟩

/-- Nothing but buildings and floors has been added before. -/
theorem Loaded.after {c₁ : CampusConsole} {isNew : Bool} (h : Loaded texts c₁ room isNew c')
    (hextends : Extends c c₁) (hreaches : Reaches texts c.db c₁.db)
    (hrooms : c₁.db.rooms = c.db.rooms) (hdetails : c₁.details = c.details) :
    Loaded texts c room isNew c' where
  grows := hextends.trans h.grows
  count := hrooms ▸ h.count
  reaches := hreaches.trans h.reaches
  found := h.found
  fits := h.fits
  same r hr hcode := by
    obtain ⟨d, hd, hold⟩ := h.same r hr hcode
    refine ⟨d, hd, fun hmem => ?_⟩
    rw [hold (hrooms ▸ hmem), detailsOf, detailsOf, hdetails]
  other r hr hcode := by
    obtain ⟨hmem, hd⟩ := h.other r hr hcode
    exact ⟨hrooms ▸ hmem, by rw [hd, detailsOf, detailsOf, hdetails]⟩

theorem fits_of_details (h : c.Fits) (hdetails : c'.details = c.details) : c'.Fits := by
  intro pk
  rw [detailsOf, hdetails]
  exact h pk

/-- The building and the floor are there before the room is stored. -/
theorem loaded_of_loadRoom {isNew : Bool} (h : Sound texts c.db) (hfits : c.Fits)
    (hload : c.loadRoom texts room drawn = .ok (isNew, c')) :
    Loaded texts c room isNew c' ∧ c'.Fits ∧ Ready texts c' room := by
  unfold loadRoom at hload
  dsimp only at hload
  obtain ⟨b, hb, hfindb, hextb, hreachb, hdetailsb, hroomsb⟩ :=
    ensureBuilding_cases texts c room.info.building
  have hbuilding : (c.ensureBuilding texts room.info.building).2.db.buildings.Has b.id :=
    ⟨b, List.mem_of_find?_eq_some hfindb, rfl⟩
  rw [hb] at hload
  obtain ⟨f, hf, hfindf, hextf, hreachf, hdetailsf, hroomsf⟩ :=
    ensureFloor_cases texts (c.ensureBuilding texts room.info.building).2 room.info.floor hbuilding
  rw [hf] at hload
  have hreach := hreachb.trans hreachf
  have hdetails := hdetailsf.trans hdetailsb
  have hfloor : ((c.ensureBuilding texts room.info.building).2.ensureFloor b.id
      room.info.floor).2.db.floors.Has f.id := ⟨f, List.mem_of_find?_eq_some hfindf, rfl⟩
  obtain ⟨hloaded, hfits'⟩ := loaded_of_storeRoom (h.reaches hreach)
    (fits_of_details hfits hdetails) hfloor hload
  obtain ⟨r, hr⟩ := hloaded.found
  refine ⟨hloaded.after (hextb.trans hextf) hreach (hroomsf.trans hroomsb) hdetails, hfits',
    b, f, r, ?_, find?_of_prefix hloaded.grows.floors hfindf, hr⟩
  exact find?_of_prefix (hextf.trans hloaded.grows).buildings hfindb

/-! ### All rooms -/

/-- The rooms of the master have been loaded. -/
structure LoadedAll (texts : CampusTexts) (c : CampusConsole) (rooms : List MasterRoom)
    (counts : ℕ × ℕ) (c' : CampusConsole) : Prop where
  grows : Extends c c'
  counted : counts.1 + counts.2 = rooms.length
  created : c'.db.rooms.rows.length = c.db.rooms.rows.length + counts.1
  reaches : Reaches texts c.db c'.db
  ready : ∀ room ∈ rooms, Ready texts c' room
  fit : ∀ room ∈ rooms, room.Fits
  details : ∀ r ∈ c'.db.rooms, ∃ d, c'.detailsOf r.id = refreshed texts r.code rooms d ∧
    (r ∈ c.db.rooms → d = c.detailsOf r.id)

theorem refreshed_cons_of_eq {code : String} {rooms : List MasterRoom} {d : RoomDetails}
    (h : texts.collate code = texts.collate room.code) :
    refreshed texts code (room :: rooms) d = refreshed texts code rooms (refresh d room) := by
  simp [refreshed, h]

theorem refreshed_cons_of_ne {code : String} {rooms : List MasterRoom} {d : RoomDetails}
    (h : texts.collate code ≠ texts.collate room.code) :
    refreshed texts code (room :: rooms) d = refreshed texts code rooms d := by
  simp [refreshed, Ne.symm h]

theorem Loaded.all {c₁ : CampusConsole} {rooms : List MasterRoom} {isNew : Bool} {counts : ℕ × ℕ}
    (h : Sound texts c'.db) (hloaded : Loaded texts c room isNew c₁) (hready : Ready texts c₁ room)
    (hall : LoadedAll texts c₁ rooms counts c') :
    LoadedAll texts c (room :: rooms)
      (if isNew then (counts.1 + 1, counts.2) else (counts.1, counts.2 + 1)) c' where
  grows := hloaded.grows.trans hall.grows
  counted := by
    have hcounted := hall.counted
    rw [List.length_cons]
    cases isNew
    · simp only [Bool.false_eq_true, if_false]
      omega
    · simp only [if_true]
      omega
  created := by
    have hcreated := hall.created
    rw [hloaded.count] at hcreated
    cases isNew
    · exact hcreated
    · simp only [Bool.toNat_true, if_true] at hcreated ⊢
      omega
  reaches := hloaded.reaches.trans hall.reaches
  ready := List.forall_mem_cons.mpr ⟨hready.extends hall.grows, hall.ready⟩
  fit := List.forall_mem_cons.mpr ⟨hloaded.fits, hall.fit⟩
  details r hr := by
    obtain ⟨d, hd, hold⟩ := hall.details r hr
    by_cases hcode : texts.collate r.code = texts.collate room.code
    · -- the room is the one that has been loaded just now
      obtain ⟨r₁, hr₁⟩ := hloaded.found
      obtain ⟨hmem, hcode₁⟩ := mem_of_roomByCode hr₁
      have heq : r₁ = r := h.roomCodes r₁ (hall.grows.rooms.subset hmem) r hr
        (hcode₁.trans hcode.symm)
      rw [heq] at hmem
      obtain ⟨d₀, hd₀, hold₀⟩ := hloaded.same r hmem hcode
      refine ⟨d₀, ?_, hold₀⟩
      rw [refreshed_cons_of_eq hcode, ← hd₀, ← hold hmem]
      exact hd
    · refine ⟨d, ?_, fun hmem => ?_⟩
      · rw [refreshed_cons_of_ne hcode]
        exact hd
      · have hmem₁ := hloaded.grows.rooms.subset hmem
        exact (hold hmem₁).trans (hloaded.other r hmem₁ hcode).2

theorem loadedAll_of_loadRooms {counts : ℕ × ℕ} {rows : List (MasterRoom × Drawn)}
    (h : Sound texts c.db) (hfits : c.Fits) (hload : c.loadRooms texts rows = .ok (counts, c')) :
    LoadedAll texts c (rows.map Prod.fst) counts c' := by
  induction rows generalizing c counts with
  | nil =>
    cases hload
    exact ⟨.refl c', rfl, rfl, .refl, List.forall_mem_nil _, List.forall_mem_nil _,
      fun r _ => ⟨c'.detailsOf r.id, rfl, fun _ => rfl⟩⟩
  | cons row rows ih =>
    obtain ⟨room, drawn⟩ := row
    rw [loadRooms] at hload
    split at hload
    · cases hload
    · rename_i isNew c₁ hroom
      split at hload
      · cases hload
      · rename_i counts₁ c₂ hrest
        cases hload
        obtain ⟨hloaded, hfits₁, hready⟩ := loaded_of_loadRoom h hfits hroom
        have hsound := h.reaches hloaded.reaches
        have hall := ih hsound hfits₁ hrest
        exact hloaded.all (hsound.reaches hall.reaches) hready hall

/-! ### The second load -/

/-- The room is refreshed where it is, and nothing is made. -/
theorem loadRoom_of_ready (hready : Ready texts c room) (hroom : room.Fits)
    (hdrawn : (generateManualCode c.db drawn.2).isSome) :
    ∃ r c', c.roomByCode texts room.code = some r ∧
      c.loadRoom texts room drawn = .ok (false, c') ∧ Refreshes c room r.id c' := by
  obtain ⟨b, f, r, hb, hf, hr⟩ := hready
  have hbuilding : c.ensureBuilding texts room.info.building = (b.id, c) := by
    rw [ensureBuilding, hb]
  have hfloor : c.ensureFloor b.id room.info.floor = (f.id, c) := by
    rw [ensureFloor, hf]
  obtain ⟨c', hstore, hrefresh⟩ := storeRoom_of_found f.id hr hdrawn hroom
  refine ⟨r, c', hr, ?_, hrefresh⟩
  rw [loadRoom, hbuilding]
  dsimp only
  rw [hfloor]
  exact hstore

/-- A console with the same rows, whose rooms have been refreshed by the rows of the master. -/
structure Reloaded (texts : CampusTexts) (c : CampusConsole) (rooms : List MasterRoom)
    (c' : CampusConsole) : Prop where
  db : c'.db = c.db
  trail : c'.trail = c.trail
  details : ∀ r ∈ c.db.rooms, c'.detailsOf r.id = refreshed texts r.code rooms (c.detailsOf r.id)
  other : ∀ pk, ¬ c.db.rooms.Has pk → c'.detailsOf pk = c.detailsOf pk

theorem loadRooms_of_ready {rows : List (MasterRoom × Drawn)} (h : Sound texts c.db)
    (hready : ∀ row ∈ rows, Ready texts c row.1) (hfit : ∀ row ∈ rows, row.1.Fits)
    (hdrawn : ∀ row ∈ rows, (generateManualCode c.db row.2.2).isSome) :
    ∃ c', c.loadRooms texts rows = .ok ((0, rows.length), c') ∧
      Reloaded texts c (rows.map Prod.fst) c' := by
  induction rows generalizing c with
  | nil => exact ⟨c, rfl, rfl, rfl, fun _ _ => rfl, fun _ _ => rfl⟩
  | cons row rows ih =>
    obtain ⟨room, drawn⟩ := row
    obtain ⟨hreadyr, hready⟩ := List.forall_mem_cons.mp hready
    obtain ⟨hfitr, hfit⟩ := List.forall_mem_cons.mp hfit
    obtain ⟨hdrawnr, hdrawn⟩ := List.forall_mem_cons.mp hdrawn
    obtain ⟨r, c₁, hr, hroom, hrefresh⟩ := loadRoom_of_ready hreadyr hfitr hdrawnr
    obtain ⟨hmem, hcode⟩ := mem_of_roomByCode hr
    -- the rest is as ready as it was
    have hready₁ : ∀ row ∈ rows, Ready texts c₁ row.1 := by
      intro row hrow
      rw [Ready, roomByCode, hrefresh.db]
      exact hready row hrow
    obtain ⟨c', hrest, hreloaded⟩ := ih (hrefresh.db.symm ▸ h) hready₁ hfit
      (by rw [hrefresh.db]; exact hdrawn)
    refine ⟨c', ?_, hreloaded.db.trans hrefresh.db, hreloaded.trail.trans hrefresh.trail, ?_, ?_⟩
    · rw [loadRooms, hroom]
      dsimp only
      rw [hrest]
      rfl
    · intro r' hr'
      have hd := hreloaded.details r' (hrefresh.db.symm ▸ hr')
      by_cases hsame : texts.collate r'.code = texts.collate room.code
      · have heq : r' = r := h.roomCodes r' hr' r hmem (hsame.trans hcode.symm)
        rw [List.map_cons, refreshed_cons_of_eq hsame, hd, heq, hrefresh.same]
      · have hne : r'.id ≠ r.id := fun heq =>
          hsame ((congrArg (fun x : Room => texts.collate x.code)
            (Table.eq_of_key_eq hr' hmem heq)).trans hcode)
        rw [List.map_cons, refreshed_cons_of_ne hsame, hd, hrefresh.other r'.id hne]
    · intro pk hpk
      have hne : pk ≠ r.id := fun heq => hpk ⟨r, hmem, heq.symm⟩
      rw [hreloaded.other pk (hrefresh.db.symm ▸ hpk), hrefresh.other pk hne]

/-! ### The buildings that there always are -/

/-- The building is there. -/
def Built (texts : CampusTexts) (c : CampusConsole) (b : BuildingRef) : Prop :=
  ∃ x, c.db.buildings.rows.find? (fun x => texts.collate x.code == texts.collate b.code) = some x

theorem Built.extends {b : BuildingRef} (h : Built texts c b) (hextends : Extends c c') :
    Built texts c' b := by
  obtain ⟨x, hx⟩ := h
  exact ⟨x, find?_of_prefix hextends.buildings hx⟩

theorem ensureBuildings (texts : CampusTexts) (bs : List BuildingRef) (c : CampusConsole) :
    (∀ b ∈ bs, Built texts (bs.foldl (fun c b => (c.ensureBuilding texts b).2) c) b) ∧
      Extends c (bs.foldl (fun c b => (c.ensureBuilding texts b).2) c) ∧
      Reaches texts c.db (bs.foldl (fun c b => (c.ensureBuilding texts b).2) c).db ∧
      (bs.foldl (fun c b => (c.ensureBuilding texts b).2) c).details = c.details ∧
      (bs.foldl (fun c b => (c.ensureBuilding texts b).2) c).db.rooms = c.db.rooms := by
  induction bs generalizing c with
  | nil => exact ⟨List.forall_mem_nil _, .refl c, .refl, rfl, rfl⟩
  | cons b bs ih =>
    obtain ⟨x, -, hx, hextends, hreach, hdetails, hrooms⟩ := ensureBuilding_cases texts c b
    obtain ⟨hbs, hextends', hreach', hdetails', hrooms'⟩ := ih (c.ensureBuilding texts b).2
    refine ⟨List.forall_mem_cons.mpr ⟨?_, hbs⟩, hextends.trans hextends', hreach.trans hreach',
      hdetails'.trans hdetails, hrooms'.trans hrooms⟩
    exact Built.extends ⟨x, hx⟩ hextends'

theorem ensureBuildings_of_built {bs : List BuildingRef} (h : ∀ b ∈ bs, Built texts c b) :
    bs.foldl (fun c b => (c.ensureBuilding texts b).2) c = c := by
  induction bs with
  | nil => rfl
  | cons b bs ih =>
    obtain ⟨⟨x, hx⟩, hbs⟩ := List.forall_mem_cons.mp h
    have hsame : (c.ensureBuilding texts b).2 = c := by
      rw [ensureBuilding, hx]
    rw [List.foldl_cons, hsame]
    exact ih hbs

theorem map_fst_mint (rooms : List MasterRoom) (mint : ℕ → Drawn) :
    (rooms.zipIdx.map fun p => (p.1, mint p.2)).map Prod.fst = rooms := by
  rw [List.map_map]
  exact List.zipIdx_map_fst 0 rooms

/-- What a load that succeeds has done. -/
theorem loadedAll_of_load {texts : MasterTexts} {tabs : List MasterTab} {mint : ℕ → Drawn}
    {report : MasterReport} (h : Sound texts.toCampusTexts c.db) (hfits : c.Fits)
    (hload : loadRoomMaster texts tabs false mint c = (.ok report, c')) :
    ∃ rooms, parseMaster texts tabs = .ok rooms ∧ report.parsed = rooms.length ∧
      LoadedAll texts.toCampusTexts c rooms (report.created, report.updated) c' ∧
      ∀ b ∈ masterBuildings, Built texts.toCampusTexts c' b := by
  unfold loadRoomMaster at hload
  split at hload
  · cases hload
  · rename_i rooms hparse
    simp only [Bool.false_eq_true, if_false] at hload
    split at hload
    · cases hload
    · rename_i counts c₂ hrooms
      cases hload
      obtain ⟨hbuilt, hextends, hreach, hdetails, hsame⟩ :=
        ensureBuildings texts.toCampusTexts masterBuildings c
      have hall := loadedAll_of_loadRooms (h.reaches hreach) (fits_of_details hfits hdetails) hrooms
      rw [map_fst_mint] at hall
      refine ⟨rooms, hparse, rfl, ⟨hextends.trans hall.grows, hall.counted,
        hsame ▸ hall.created, hreach.trans hall.reaches, hall.ready, hall.fit, ?_⟩,
        fun b hb => (hbuilt b hb).extends hall.grows⟩
      intro r hr
      obtain ⟨d, hd, hold⟩ := hall.details r hr
      refine ⟨d, hd, fun hmem => ?_⟩
      rw [hold (hsame.symm ▸ hmem), detailsOf, detailsOf, hdetails]

end CampusConsole

open CampusConsole

theorem exists_of_mapM {α β ε : Type} {f : α → Except ε β} {l : List α} {bs : List β}
    (h : l.mapM f = .ok bs) {a : α} (ha : a ∈ l) : ∃ b ∈ bs, f a = .ok b := by
  induction l generalizing bs with
  | nil => cases ha
  | cons x l ih =>
    rw [List.mapM_cons] at h
    cases hx : f x with
    | error e =>
      rw [hx] at h
      cases h
    | ok b =>
      cases hrest : l.mapM f with
      | error e =>
        rw [hx, hrest] at h
        cases h
      | ok rest =>
        rw [hx, hrest] at h
        cases h
        rcases List.mem_cons.mp ha with rfl | ha
        · exact ⟨b, List.mem_cons_self, hx⟩
        · obtain ⟨b', hb', hfb'⟩ := ih hrest ha
          exact ⟨b', List.mem_cons_of_mem b hb', hfb'⟩

/-- Each tab of a room is parsed. -/
theorem room_of_tab {texts : MasterTexts} {tabs : List MasterTab} {rooms : List MasterRoom}
    (hparse : parseMaster texts tabs = .ok rooms) {tab : MasterTab} (htab : tab ∈ tabs)
    (hroom : isRoomTab texts.toTextTables tab.1 = true) :
    ∃ room ∈ rooms, room.code = Py.strip tab.1 := by
  unfold parseMaster at hparse
  obtain ⟨room, hmem, hparsed⟩ := exists_of_mapM hparse (List.mem_filter.mpr ⟨htab, hroom⟩)
  refine ⟨room, hmem, ?_⟩
  unfold masterRoom at hparsed
  cases hcapacity : parseCapacity texts (masterCell tab.2 3 14) with
  | error e =>
    rw [hcapacity] at hparsed
    cases hparsed
  | ok capacity =>
    rw [hcapacity] at hparsed
    cases hparsed
    rfl

namespace Campus

def masterTexts : MasterTexts where
  toCampusTexts := campusTexts
  truncFloat s :=
    let whole := String.ofList (s.toList.takeWhile fun c => c != '.')
    if asciiTables.isDigit whole then .ok ((asciiTables.int whole).getD 0 : ℕ) else .error .value

/-- The fourth row of a tab. -/
def masterRow (name capacity : String) : List String :=
  ["", "", name] ++ List.replicate 11 "" ++ [capacity]

/-- A summary, a room that there is, and one that there is not. -/
def wing : List MasterTab :=
  [("Lecture Summary", []), ("R401", [[], [], [], masterRow "Physics Laboratory" ""]),
    ("R402 ", [[], [], [], masterRow "" "36.0"])]

/-- The campus with a room. -/
def opened : CampusConsole := (site.run campusTexts openRoom).console

theorem sound_opened : Sound campusTexts opened.db :=
  (CampusRun.sound_run sound_site admits_openRoom).db

theorem details_opened : opened.details = AList.insert 1 ⟨"Physics", 40, none, none⟩ ∅ :=
  AList.ext (by decide +kernel)

theorem fits_opened : opened.Fits := by
  have hblank : CampusConsole.Fits ⟨Db.empty, ∅, []⟩ := fun _ => ⟨Nat.zero_le _, Nat.zero_le _⟩
  have hfits := hblank.insert opened.db 1 (d := ⟨"Physics", 40, none, none⟩) (by decide)
  exact fits_of_details hfits details_opened

/-- A token for each row, and two numbers of which one is taken. -/
def minted (n : ℕ) : Drawn := (String.ofList (List.replicate (n + 1) 'x'), twoDraws)

end Campus

/-- After a load, a second one of the same workbook changes nothing, whatever is drawn for it. -/
theorem room_master_rerun {texts : MasterTexts} {c c' : CampusConsole} {tabs : List MasterTab}
    {mint mint' : ℕ → Drawn} {report : MasterReport} (h : Sound texts.toCampusTexts c.db)
    (hfits : c.Fits) (hload : loadRoomMaster texts tabs false mint c = (.ok report, c'))
    (hmint : ∀ n, (generateManualCode c'.db (mint' n).2).isSome) :
    ∃ c'', loadRoomMaster texts tabs false mint' c' =
        (.ok { report with created := 0, updated := report.parsed }, c'') ∧
      c''.db = c'.db ∧ c''.trail = c'.trail ∧ ∀ pk, c''.detailsOf pk = c'.detailsOf pk := by
  obtain ⟨rooms, hparse, hparsed, hall, hbuilt⟩ := loadedAll_of_load h hfits hload
  have hrows : ∀ row ∈ rooms.zipIdx.map fun p => (p.1, mint' p.2), row.1 ∈ rooms := by
    intro row hrow
    have hmem := List.mem_map_of_mem (f := Prod.fst) hrow
    rwa [map_fst_mint] at hmem
  have hdrawn : ∀ row ∈ rooms.zipIdx.map fun p => (p.1, mint' p.2),
      (generateManualCode c'.db row.2.2).isSome := by
    intro row hrow
    obtain ⟨p, -, rfl⟩ := List.mem_map.mp hrow
    exact hmint p.2
  obtain ⟨c'', hrooms, hreloaded⟩ := loadRooms_of_ready (h.reaches hall.reaches)
    (fun row hrow => hall.ready row.1 (hrows row hrow))
    (fun row hrow => hall.fit row.1 (hrows row hrow)) hdrawn
  refine ⟨c'', ?_, hreloaded.db, hreloaded.trail, fun pk => ?_⟩
  · unfold loadRoomMaster at hload ⊢
    rw [hparse] at hload ⊢
    simp only [Bool.false_eq_true, if_false, ensureBuildings_of_built hbuilt, hrooms] at hload ⊢
    split at hload
    · cases hload
    · cases hload
      rw [List.length_map, List.length_zipIdx]
  · by_cases hpk : c'.db.rooms.Has pk
    · obtain ⟨r, hr, rfl⟩ := hpk
      obtain ⟨d, hd, -⟩ := hall.details r hr
      have hdetails := hreloaded.details r hr
      rw [map_fst_mint, hd, refreshed_twice, ← hd] at hdetails
      exact hdetails
    · exact hreloaded.other pk hpk

open Campus in
/-- The wing is loaded a second time. -/
theorem room_master_rerun_wing :
    ∃ report c' c'', loadRoomMaster masterTexts wing false minted opened = (.ok report, c') ∧
      loadRoomMaster masterTexts wing false (fun _ => ("y", [17, 23, 41])) c' =
        (.ok { report with created := 0, updated := report.parsed }, c'') ∧ c''.db = c'.db := by
  have hfree : (generateManualCode (loadRoomMaster masterTexts wing false minted opened).2.db
      [17, 23, 41]).isSome = true := by
    decide +kernel
  have hok : (loadRoomMaster masterTexts wing false minted opened).1.toOption.isSome = true := by
    decide +kernel
  cases hload : loadRoomMaster masterTexts wing false minted opened with
  | mk result c' =>
    rw [hload] at hfree hok
    cases result with
    | error e => cases hok
    | ok report =>
      have hmint : ∀ n : ℕ, (generateManualCode c'.db
          ((fun _ => ("y", [17, 23, 41]) : ℕ → Drawn) n).2).isSome := fun _ => hfree
      obtain ⟨c'', hagain, hdb, -⟩ := room_master_rerun sound_opened fits_opened hload hmint
      exact ⟨report, c', c'', rfl, hagain, hdb⟩

end FluxTrack
