import FluxTrack.Data.Fibers
import FluxTrack.Scheduling.FloorRollup

/-!
# The rollup by building and floor

The rows of the rollup are a partition of the rooms of the breakdown, by building and by building
and floor. What a row adds up is what the rooms add up that it covers, so floors add up to their
building and buildings to all rooms.

## Main definitions

* `ScopeRow.covers` — the rooms a row counts
* `RollsUp` — rows that partition the rooms, in order

## Main results

* `lookup_rollUp` — the entry of a building
* `buildingFloorRollup_partition` — the rollup partitions the breakdown
-/

namespace FluxTrack

namespace ScopeTotals

/-- What rooms add up to. -/
def ofRooms (rooms : List RoomLoad) : ScopeTotals where
  rooms := rooms.length
  used := (rooms.map RoomLoad.usedSeconds).sum
  booked := (rooms.map RoomLoad.bookedSeconds).sum
  wasted := (rooms.map RoomLoad.wastedSeconds).sum

/-- What scopes add up to. -/
def sum (scopes : List ScopeTotals) : ScopeTotals where
  rooms := (scopes.map ScopeTotals.rooms).sum
  used := (scopes.map ScopeTotals.used).sum
  booked := (scopes.map ScopeTotals.booked).sum
  wasted := (scopes.map ScopeTotals.wasted).sum

theorem foldl_add (rooms : List RoomLoad) : rooms.foldl add zero = ofRooms rooms := by
  have hfold : ∀ t : ScopeTotals, rooms.foldl add t =
      ⟨t.rooms + rooms.length, t.used + (rooms.map RoomLoad.usedSeconds).sum,
        t.booked + (rooms.map RoomLoad.bookedSeconds).sum,
        t.wasted + (rooms.map RoomLoad.wastedSeconds).sum⟩ := by
    induction rooms with
    | nil => simp
    | cons room rooms ih =>
      intro t
      rw [List.foldl_cons, ih]
      ext <;> simp [add] <;> omega
  rw [hfold]
  ext <;> simp [zero, ofRooms]

/-- Scopes that cover each selected room once, and no other, add up to the selection. -/
theorem sum_of_cover {ρ : Type*} {rows : List ρ} {covers : ρ → RoomLoad → Bool}
    {p : RoomLoad → Bool} {rooms : List RoomLoad} (honce : ∀ room ∈ rooms,
      rows.countP (fun row => covers row room) = if p room then 1 else 0) :
    sum (rows.map fun row => ofRooms (rooms.filter (covers row))) = ofRooms (rooms.filter p) := by
  have hlength : ∀ l : List RoomLoad, l.length = (l.map fun _ => 1).sum := fun l => by simp
  ext
  · simp only [sum, ofRooms, List.map_map, Function.comp_def, hlength]
    exact Fibers.sum_cover _ honce
  all_goals
    simp only [sum, ofRooms, List.map_map, Function.comp_def]
    exact Fibers.sum_cover _ honce

end ScopeTotals

/-! ### The pass -/

section

variable {rooms : List RoomLoad} {code : String} {b : BuildingScope} {number : ℤ}
  {t : ScopeTotals} {row : ScopeRow} {room : RoomLoad}

/-- The floors that a list of rooms fills in. -/
def floorsOf (rooms : List RoomLoad) : Dict ℤ ScopeTotals :=
  (∅ : Dict ℤ ScopeTotals).collect RoomLoad.floorNumber (fun _ => .zero) .add rooms

/-- The loop counts each room in its building and on its floor. -/
theorem foldl_buildingAdd (b : BuildingScope) (rooms : List RoomLoad) :
    rooms.foldl .add b = { b with
      totals := rooms.foldl .add b.totals
      floors := b.floors.collect RoomLoad.floorNumber (fun _ => .zero) .add rooms } := by
  induction rooms generalizing b with
  | nil => rfl
  | cons room rooms ih =>
    rw [List.foldl_cons, ih]
    rfl

/-- The entry of a building counts the rooms with its code. -/
theorem lookup_rollUp (h : (rollUp rooms).lookup code = some b) :
    b.totals = .ofRooms (rooms.filter fun room => room.buildingCode == code) ∧
      b.floors = floorsOf (rooms.filter fun room => room.buildingCode == code) := by
  obtain ⟨room, others, hfilter, rfl⟩ := Dict.lookup_collect_empty.mp h
  rw [foldl_buildingAdd, hfilter]
  exact ⟨ScopeTotals.foldl_add _, rfl⟩

/-- The entry of a floor counts the rooms with its number. -/
theorem lookup_floorsOf (h : (floorsOf rooms).lookup number = some t) :
    t = .ofRooms (rooms.filter fun room => room.floorNumber == number) := by
  obtain ⟨room, others, hfilter, rfl⟩ := Dict.lookup_collect_empty.mp h
  rw [hfilter]
  exact ScopeTotals.foldl_add _

theorem exists_lookup_rollUp (h : room ∈ rooms) :
    ∃ b, (rollUp rooms).lookup room.buildingCode = some b ∧
      ∃ t, b.floors.lookup room.floorNumber = some t := by
  obtain ⟨b, hb⟩ : ∃ b, (rollUp rooms).lookup room.buildingCode = some b :=
    Dict.exists_lookup_collect h
  refine ⟨b, hb, ?_⟩
  rw [(lookup_rollUp hb).2]
  exact Dict.exists_lookup_collect (List.mem_filter.mpr ⟨h, by simp⟩)

/-! ### The rows -/

namespace ScopeRow

/-- The row counts the room. -/
def covers (row : ScopeRow) (room : RoomLoad) : Bool :=
  room.buildingCode == row.buildingCode &&
    row.floorNumber.all fun number => room.floorNumber == number

theorem covers_ofBuilding (code : String) (b : BuildingScope) :
    (ofBuilding code b).covers = fun room => room.buildingCode == code := by
  funext room
  simp [covers, ofBuilding]

theorem covers_ofFloor (code : String) (floor : ℤ × ScopeTotals) :
    (ofFloor code floor).covers =
      fun room => room.floorNumber == floor.1 && room.buildingCode == code := by
  funext room
  simp [covers, ofFloor, Bool.and_comm]

/-- What tells rows apart. -/
def key (row : ScopeRow) : String × Option ℤ := (row.buildingCode, row.floorNumber)

/-- The key of the row of a level that counts the room. -/
def keyOf : ScopeLevel → RoomLoad → String × Option ℤ
  | .building, room => (room.buildingCode, none)
  | .floor, room => (room.buildingCode, some room.floorNumber)

end ScopeRow

theorem mem_scopeRows {buildings : Dict String BuildingScope} :
    row ∈ scopeRows buildings ↔ ∃ code b, buildings.lookup code = some b ∧
      (row = .ofBuilding code b ∨
        ∃ number t, b.floors.lookup number = some t ∧ row = .ofFloor code (number, t)) := by
  simp only [scopeRows, List.mem_flatMap, List.mem_cons, List.mem_map, Prod.exists,
    Dict.mem_sortedItems, eq_comm (b := row)]

theorem level_eq_building_iff {buildings : Dict String BuildingScope}
    (h : row ∈ scopeRows buildings) : row.level = .building ↔ row.floorNumber = none := by
  obtain ⟨code, b, -, rfl | ⟨number, t, -, rfl⟩⟩ := mem_scopeRows.mp h <;>
    simp [ScopeRow.ofBuilding, ScopeRow.ofFloor]

/-- A row adds up the rooms it covers. -/
theorem totals_of_mem_scopeRows (h : row ∈ scopeRows (rollUp rooms)) :
    row.totals = .ofRooms (rooms.filter row.covers) := by
  obtain ⟨code, b, hb, rfl | ⟨number, t, ht, rfl⟩⟩ := mem_scopeRows.mp h
  · rw [ScopeRow.covers_ofBuilding]
    exact (lookup_rollUp hb).1
  · rw [(lookup_rollUp hb).2] at ht
    rw [ScopeRow.covers_ofFloor, ← List.filter_filter]
    exact lookup_floorsOf ht

/-- The codes of the buildings, each with the numbers of its floors. -/
def blocks (buildings : Dict String BuildingScope) : List (String × List ℤ) :=
  buildings.sortedItems.map fun entry => (entry.1, entry.2.floors.sortedItems.map Prod.fst)

theorem keys_scopeRows (buildings : Dict String BuildingScope) :
    (scopeRows buildings).map ScopeRow.key = (blocks buildings).flatMap fun block =>
      (block.1, none) :: block.2.map fun number => (block.1, some number) := by
  simp only [scopeRows, blocks, List.map_flatMap, List.flatMap_map, List.map_cons, List.map_map]
  rfl

theorem pairwise_blocks (buildings : Dict String BuildingScope) :
    (blocks buildings).Pairwise (fun a b => a.1 < b.1) ∧
      ∀ block ∈ blocks buildings, block.2.Pairwise (· < ·) := by
  refine ⟨List.Pairwise.map _ (fun _ _ hlt => hlt) Dict.pairwise_sortedItems, fun block h => ?_⟩
  obtain ⟨entry, -, rfl⟩ := List.mem_map.mp h
  exact List.Pairwise.map _ (fun _ _ hlt => hlt) Dict.pairwise_sortedItems

theorem nodup_keys (buildings : Dict String BuildingScope) :
    ((scopeRows buildings).map ScopeRow.key).Nodup := by
  obtain ⟨hcodes, hnumbers⟩ := pairwise_blocks buildings
  rw [keys_scopeRows, List.nodup_flatMap]
  constructor
  · intro block hblock
    refine List.nodup_cons.mpr ⟨by simp, ?_⟩
    refine List.Nodup.map (fun m n h => by simpa using h) ?_
    exact (hnumbers block hblock).imp fun hlt => hlt.ne
  · -- rows of two buildings differ in the code
    refine hcodes.imp fun {c d} hlt => ?_
    have hcode : ∀ (block : String × List ℤ) k, k ∈ (block.1, none) ::
        block.2.map (fun number => (block.1, some number)) → k.1 = block.1 := by
      intro block k hk
      rcases List.mem_cons.mp hk with rfl | hk
      · rfl
      · obtain ⟨number, -, rfl⟩ := List.mem_map.mp hk
        rfl
    intro k hc hd
    exact hlt.ne ((hcode c k hc).symm.trans (hcode d k hd))

/-- A row of a level covers a room if it has the key for it. -/
theorem covers_iff_key {buildings : Dict String BuildingScope} (h : row ∈ scopeRows buildings)
    (level : ScopeLevel) (room : RoomLoad) :
    (row.level == level && row.covers room) = (row.key == ScopeRow.keyOf level room) := by
  have hnone := level_eq_building_iff h
  rw [Bool.eq_iff_iff, Bool.and_eq_true, beq_iff_eq, beq_iff_eq, ScopeRow.covers,
    Bool.and_eq_true, beq_iff_eq, ScopeRow.key]
  cases level with
  | building =>
    rw [ScopeRow.keyOf, Prod.mk.injEq, hnone, eq_comm (a := room.buildingCode)]
    constructor
    · rintro ⟨hfloor, hcode, -⟩
      exact ⟨hcode, hfloor⟩
    · rintro ⟨hcode, hfloor⟩
      exact ⟨hfloor, hcode, by rw [hfloor]; rfl⟩
  | floor =>
    have hfloor : row.level = .floor ↔ row.floorNumber ≠ none := by
      rw [ne_eq, ← hnone]
      cases row.level <;> simp
    rw [ScopeRow.keyOf, Prod.mk.injEq, hfloor, eq_comm (a := room.buildingCode)]
    cases row.floorNumber with
    | none => simp
    | some number =>
      rw [Option.all_some, beq_iff_eq, Option.some.injEq, eq_comm (a := number)]
      simp

/-- Each room is counted once at each level. -/
theorem countP_covers (h : room ∈ rooms) (level : ScopeLevel) :
    (scopeRows (rollUp rooms)).countP (fun row => row.level == level && row.covers room) = 1 := by
  rw [List.countP_congr fun row hrow => by rw [covers_iff_key hrow level room]]
  -- the rows have distinct keys, and the key of the room is one of them
  have hcount := List.countP_map (p := (· == ScopeRow.keyOf level room)) (f := ScopeRow.key)
    (l := scopeRows (rollUp rooms))
  refine hcount.symm.trans ?_
  refine List.count_eq_one_of_mem (nodup_keys _) ?_
  obtain ⟨b, hb, t, ht⟩ := exists_lookup_rollUp h
  cases level with
  | building =>
    exact List.mem_map.mpr ⟨_, mem_scopeRows.mpr ⟨_, b, hb, .inl rfl⟩, rfl⟩
  | floor =>
    exact List.mem_map.mpr ⟨_, mem_scopeRows.mpr ⟨_, b, hb, .inr ⟨_, t, ht, rfl⟩⟩, rfl⟩

/-- The rows partition the rooms, by building and by floor, and are in order. -/
structure RollsUp (rooms : List RoomLoad) (rows : List ScopeRow) : Prop where
  counted : ∀ row ∈ rows, row.totals = .ofRooms (rooms.filter row.covers)
  once : ∀ room ∈ rooms, ∀ level,
    rows.countP (fun row => row.level == level && row.covers room) = 1
  floors : ∀ building ∈ rows, building.level = .building →
    ScopeTotals.sum ((rows.filter fun row => row.level == .floor &&
      row.buildingCode == building.buildingCode).map ScopeRow.totals) = building.totals
  buildings : ScopeTotals.sum ((rows.filter fun row => row.level == .building).map ScopeRow.totals) =
    .ofRooms rooms
  level : ∀ row ∈ rows, row.level = .building ↔ row.floorNumber = none
  ordered : ∃ blocks : List (String × List ℤ),
    rows.map ScopeRow.key = blocks.flatMap (fun block =>
      (block.1, none) :: block.2.map fun number => (block.1, some number)) ∧
    blocks.Pairwise (fun a b => a.1 < b.1) ∧ ∀ block ∈ blocks, block.2.Pairwise (· < ·)

/-- The floors of a building add up to it. -/
theorem sum_floors (h : row ∈ scopeRows (rollUp rooms)) (hlevel : row.level = .building) :
    ScopeTotals.sum (((scopeRows (rollUp rooms)).filter fun f => f.level == .floor &&
      f.buildingCode == row.buildingCode).map ScopeRow.totals) = row.totals := by
  have hnone := (level_eq_building_iff h).mp hlevel
  rw [totals_of_mem_scopeRows h, List.map_congr_left fun f hf =>
    totals_of_mem_scopeRows (List.mem_filter.mp hf).1]
  refine ScopeTotals.sum_of_cover fun room hroom => ?_
  rw [List.countP_filter]
  by_cases hcode : room.buildingCode = row.buildingCode
  · -- one of the floors counts the room
    have hcovers : row.covers room = true := by simp [ScopeRow.covers, hcode, hnone]
    rw [if_pos hcovers, ← countP_covers hroom .floor]
    refine List.countP_congr fun f _ => ?_
    simp only [ScopeRow.covers, ← hcode, Bool.and_eq_true, beq_iff_eq]
    tauto
  · have hcovers : row.covers room = false := by simp [ScopeRow.covers, hcode]
    rw [if_neg (by simp [hcovers]), List.countP_eq_zero]
    intro f _ hf
    simp only [ScopeRow.covers, Bool.and_eq_true, beq_iff_eq] at hf
    exact hcode (hf.1.1.trans hf.2.2)

/-- The buildings add up to the rooms. -/
theorem sum_buildings (rooms : List RoomLoad) :
    ScopeTotals.sum (((scopeRows (rollUp rooms)).filter fun row => row.level == .building).map
      ScopeRow.totals) = ScopeTotals.ofRooms rooms := by
  rw [List.map_congr_left fun f hf => totals_of_mem_scopeRows (List.mem_filter.mp hf).1]
  refine (ScopeTotals.sum_of_cover (p := fun _ => true) fun room hroom => ?_).trans
    (by rw [List.filter_true])
  rw [List.countP_filter, if_pos rfl, ← countP_covers hroom .building]
  refine List.countP_congr fun f _ => ?_
  rw [Bool.and_comm]

theorem rollsUp_scopeRows (rooms : List RoomLoad) : RollsUp rooms (scopeRows (rollUp rooms)) where
  counted _ hrow := totals_of_mem_scopeRows hrow
  once _ hroom level := countP_covers hroom level
  floors _ hrow hlevel := sum_floors hrow hlevel
  buildings := sum_buildings rooms
  level _ hrow := level_eq_building_iff hrow
  ordered := ⟨_, keys_scopeRows _, pairwise_blocks _⟩

end

/-- The rollup is a partition of the breakdown: behind its rows are totals that partition the
rooms, and each row is measured against as many rooms as it counts. -/
theorem buildingFloorRollup_partition (db : Db) (scope : ReportScope) :
    ∃ rows : List ScopeRow, RollsUp (db.roomBreakdown scope) rows ∧
      db.buildingFloorRollup scope =
        rows.map (ScopeRow.load (db.rangeCellShape scope).cellSeconds) ∧
      (∀ load ∈ db.buildingFloorRollup scope,
        load.availableHours = hours (load.roomCount * (db.rangeCellShape scope).cellSeconds)) ∧
      ∀ room ∈ db.roomBreakdown scope,
        room.availableHours = hours (db.rangeCellShape scope).cellSeconds := by
  refine ⟨db.rollupRows scope, rollsUp_scopeRows _, rfl, fun load hload => ?_, fun room hroom => ?_⟩
  · obtain ⟨row, -, rfl⟩ := List.mem_map.mp hload
    rfl
  · rw [Db.roomBreakdown, List.mem_insertionSort] at hroom
    obtain ⟨r, -, rfl⟩ := List.mem_map.mp hroom
    rfl

end FluxTrack
