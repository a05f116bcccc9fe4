/-
This file proves where the heights of the terrain cache come from. Every height whose bit is
set, in the cache, in the block in flight or on the disk, was in a packet of the ground
station for that grid point, or was on the disk at the start. So this holds for the four
heights that `height_amsl` reads.
-/

import Mathlib.Data.Nat.Bitwise
import Urus.Terrain.Model

namespace Urus.Terrain

/-! ### The heights of a subgrid -/

theorem storeRow_apply (height : ℕ → ℕ → ℤ) (x idxY : ℕ) (row : ℕ → ℤ) (count x' y' : ℕ) :
    storeRow height x idxY row count x' y' =
      if x' = x ∧ idxY ≤ y' ∧ y' < idxY + count then row (y' - idxY) else height x' y' := by
  induction count with
  | zero =>
    rw [if_neg (by omega)]
    rfl
  | succ count inductionHypothesis =>
    have last : storeRow height x idxY row (count + 1) =
        setHeight (storeRow height x idxY row count) x (idxY + count) (row count) := by
      rw [storeRow, storeRow, List.range_succ, List.foldl_append]
      rfl
    rw [last, setHeight, inductionHypothesis]
    by_cases here : x' = x ∧ y' = idxY + count
    · rw [if_pos here, if_pos (by omega), here.2, Nat.add_sub_cancel_left]
    · rw [if_neg here]
      exact if_congr (by omega) rfl rfl

theorem storeSubgrid_apply (height : ℕ → ℕ → ℤ) (idxX idxY : ℕ) (data : ℕ → ℤ)
    (count x y : ℕ) :
    storeSubgrid height idxX idxY data count x y =
      if idxX ≤ x ∧ x < idxX + count ∧ idxY ≤ y ∧ y < idxY + mavlinkSize then
        data ((x - idxX) * mavlinkSize + (y - idxY))
      else height x y := by
  induction count with
  | zero =>
    rw [if_neg (by omega)]
    rfl
  | succ count inductionHypothesis =>
    have last : storeSubgrid height idxX idxY data (count + 1) =
        storeRow (storeSubgrid height idxX idxY data count) (idxX + count) idxY
          (fun y => data (count * mavlinkSize + y)) mavlinkSize := by
      rw [storeSubgrid, storeSubgrid, List.range_succ, List.foldl_append]
      rfl
    rw [last, storeRow_apply, inductionHypothesis]
    by_cases here : x = idxX + count ∧ idxY ≤ y ∧ y < idxY + mavlinkSize
    · rw [if_pos here, if_pos (by omega), here.1, Nat.add_sub_cancel_left]
    · rw [if_neg here]
      exact if_congr (by omega) rfl rfl

theorem checkBitmap_iff (grid : GridBlock) (idxX idxY : ℕ) :
    checkBitmap grid idxX idxY ↔ grid.bitmap.testBit (gridBitnum idxX idxY) = true := by
  rw [checkBitmap, Nat.one_shiftLeft, Nat.and_comm, Nat.two_pow_and]
  cases grid.bitmap.testBit (gridBitnum idxX idxY) <;> simp

/-- The heights of a packet go to the points of its bit and to no others. -/
theorem fill_height (grid : GridBlock) (packet : Packet) {x y : ℕ} (east : y < blockSizeY) :
    (grid.fill packet).height x y =
      if gridBitnum x y = packet.gridbit then
        packet.data (x % mavlinkSize * mavlinkSize + y % mavlinkSize)
      else grid.height x y := by
  have rows : (packet.gridbit / blockMulY * mavlinkSize ≤ x ∧
      x < packet.gridbit / blockMulY * mavlinkSize + mavlinkSize ∧
      packet.gridbit % blockMulY * mavlinkSize ≤ y ∧
      y < packet.gridbit % blockMulY * mavlinkSize + mavlinkSize) ↔
      gridBitnum x y = packet.gridbit := by
    simp only [gridBitnum, blockSizeY, mavlinkSize, blockMulY] at *
    omega
  refine (storeSubgrid_apply _ _ _ _ _ _ _).trans ?_
  by_cases here : gridBitnum x y = packet.gridbit
  · rw [if_pos here, if_pos (rows.mpr here)]
    congr 1
    simp only [gridBitnum, blockSizeY, mavlinkSize, blockMulY] at *
    omega
  · rw [if_neg here, if_neg fun inside => here (rows.mp inside)]

theorem fill_testBit (grid : GridBlock) (packet : Packet) (bit : ℕ) :
    (grid.fill packet).bitmap.testBit bit = true ↔
      grid.bitmap.testBit bit = true ∨ bit = packet.gridbit := by
  rw [GridBlock.fill, Nat.testBit_or, Bool.or_eq_true, Nat.one_shiftLeft, Nat.testBit_two_pow,
    decide_eq_true_eq, eq_comm (a := bit)]

/-! ### Looking for a block -/

theorem searchGrid_spec (geometry : Geometry) (info : GridInfo)
    (cache : Fin cacheSize → GridCache) (entries : List (Fin cacheSize))
    (oldest : Fin cacheSize) :
    match searchGrid geometry info cache entries oldest with
    | .found index => HasGrid geometry info (cache index).grid
    | .oldest _ => ∀ index ∈ entries, ¬ HasGrid geometry info (cache index).grid := by
  induction entries generalizing oldest with
  | nil => exact fun index member => nomatch member
  | cons index rest inductionHypothesis =>
    rw [searchGrid]
    by_cases here : HasGrid geometry info (cache index).grid
    · rw [if_pos here]
      exact here
    · rw [if_neg here]
      have onward := inductionHypothesis
        (if (cache index).lastAccessMs < (cache oldest).lastAccessMs then index else oldest)
      revert onward
      cases searchGrid geometry info cache rest
        (if (cache index).lastAccessMs < (cache oldest).lastAccessMs then index else oldest) with
      | found other => exact id
      | oldest other =>
        intro others candidate member
        rcases List.mem_cons.mp member with rfl | later
        · exact here
        · exact others candidate later

/-- What `find_grid_cache` can do. -/
theorem findGridCache_cases (geometry : Geometry) (state : State) (info : GridInfo) (now : ℕ) :
    (∃ index, HasGrid geometry info (state.cache index).grid ∧
      findGridCache geometry state info now =
        (state.setEntry index { state.cache index with lastAccessMs := now }, index)) ∨
    (∃ index, (∀ other, ¬ HasGrid geometry info (state.cache other).grid) ∧
      findGridCache geometry state info now =
        (state.setEntry index (newEntry geometry info now), index)) := by
  have spec := searchGrid_spec geometry info state.cache (List.finRange cacheSize) 0
  rw [findGridCache]
  revert spec
  cases searchGrid geometry info state.cache (List.finRange cacheSize) 0 with
  | found index => exact fun here => Or.inl ⟨index, here, rfl⟩
  | oldest index =>
    exact fun others => Or.inr ⟨index, fun other => others other (List.mem_finRange other), rfl⟩

theorem setEntry_self (state : State) (index : Fin cacheSize) (entry : GridCache) :
    (state.setEntry index entry).cache index = entry :=
  Function.update_self _ _ _

theorem setEntry_other (state : State) {index other : Fin cacheSize} (entry : GridCache)
    (apart : other ≠ index) : (state.setEntry index entry).cache other = state.cache other :=
  Function.update_of_ne apart _ _

theorem setEntry_forall (property : Fin cacheSize → GridCache → Prop) {state : State}
    {index : Fin cacheSize} {entry : GridCache} (new : property index entry)
    (others : ∀ other, other ≠ index → property other (state.cache other)) (other : Fin cacheSize) :
    property other ((state.setEntry index entry).cache other) := by
  by_cases same : other = index
  · rw [same, setEntry_self]
    exact new
  · rw [setEntry_other _ _ same]
    exact others other same

theorem heightAmsl_state (geometry : Geometry) (state : State) (enabled : Bool)
    (loc home : Location) (now : ℕ) :
    (heightAmsl geometry state enabled loc home now).1 = state ∨
      ∃ homeLoc, (heightAmsl geometry state enabled loc home now).1 =
        { (findGridCache geometry state (calculateGridInfo geometry loc) now).1 with
          homeLoc := homeLoc } := by
  unfold heightAmsl
  split
  · exact Or.inl rfl
  · split
    · exact Or.inl rfl
    · refine Or.inr ?_
      dsimp only
      split
      · exact ⟨_, rfl⟩
      · split
        · exact ⟨_, rfl⟩
        · exact ⟨_, rfl⟩

/-- The heights that `height_amsl` reads are in the block that `find_grid_cache` gives, with their
bits set. -/
theorem heightAmsl_read {geometry : Geometry} {state : State} {enabled : Bool}
    {loc home : Location} {now : ℕ} {h00 h01 h10 h11 : ℤ}
    (answer : (heightAmsl geometry state enabled loc home now).2 = .read h00 h01 h10 h11) :
    let info := calculateGridInfo geometry loc
    let found := findGridCache geometry state info now
    let grid := (found.1.cache found.2).grid
    (checkBitmap grid info.idxX info.idxY ∧ grid.height info.idxX info.idxY = h00) ∧
    (checkBitmap grid info.idxX (info.idxY + 1) ∧ grid.height info.idxX (info.idxY + 1) = h01) ∧
    (checkBitmap grid (info.idxX + 1) info.idxY ∧ grid.height (info.idxX + 1) info.idxY = h10) ∧
    (checkBitmap grid (info.idxX + 1) (info.idxY + 1) ∧
      grid.height (info.idxX + 1) (info.idxY + 1) = h11) := by
  unfold heightAmsl at answer
  split at answer
  · exact nomatch answer
  · split at answer
    · exact nomatch answer
    · dsimp only at answer ⊢
      split at answer
      · exact nomatch answer
      · rename_i bits
        rw [not_or, not_or, not_or, not_not, not_not, not_not, not_not] at bits
        obtain ⟨b00, b01, b10, b11⟩ := bits
        injection answer with e00 e01 e10 e11
        exact ⟨⟨b00, e00⟩, ⟨b01, e01⟩, ⟨b10, e10⟩, ⟨b11, e11⟩⟩

/-! ### Received heights -/

/-- A height was received for a grid point: in a packet for the block around the point, or it is in
such a block on the disk at the start. -/
def Received (geometry : Geometry) (disk : Disk) (packets : List Packet) (lat lon : ℤ)
    (idxX idxY : ℕ) (height : ℤ) : Prop :=
  (∃ packet ∈ packets, packet.lat = lat ∧ packet.lon = lon ∧
    (packet.gridSpacing : ℤ) = geometry.gridSpacing ∧ packet.gridbit = gridBitnum idxX idxY ∧
    packet.data (idxX % mavlinkSize * mavlinkSize + idxY % mavlinkSize) = height) ∨
  (∃ place block, disk place = some block ∧ geometry.Accepts lat lon block ∧
    checkBitmap block idxX idxY ∧ block.height idxX idxY = height)

/-- Every height of a block whose bit is set was received. -/
def BlockReceived (geometry : Geometry) (disk : Disk) (packets : List Packet)
    (block : GridBlock) : Prop :=
  ∀ idxX idxY, idxX < blockSizeX → idxY < blockSizeY → checkBitmap block idxX idxY →
    Received geometry disk packets block.lat block.lon idxX idxY (block.height idxX idxY)

/-- Every height that `height_amsl` reads was received for its grid point. -/
def HeightsReceived (geometry : Geometry) (disk : Disk) (session : Session) : Prop :=
  ∀ enabled loc home now h00 h01 h10 h11,
    (heightAmsl geometry session.state enabled loc home now).2 = .read h00 h01 h10 h11 →
    let info := calculateGridInfo geometry loc
    let receivedAt := Received geometry disk session.packets info.gridLat info.gridLon
    receivedAt info.idxX info.idxY h00 ∧ receivedAt info.idxX (info.idxY + 1) h01 ∧
      receivedAt (info.idxX + 1) info.idxY h10 ∧
      receivedAt (info.idxX + 1) (info.idxY + 1) h11

/-- Every height that the cache, the block in flight and the disk have was received. -/
structure AllReceived (geometry : Geometry) (disk : Disk) (session : Session) : Prop where
  cache : ∀ index,
    BlockReceived geometry disk session.packets (session.state.cache index).grid
  inFlight : BlockReceived geometry disk session.packets session.state.diskBlock
  stored : ∀ place block, session.state.disk place = some block →
    geometry.Accepts block.lat block.lon block →
    BlockReceived geometry disk session.packets block

variable {geometry : Geometry} {disk : Disk} {packets : List Packet} {block : GridBlock}
  {session : Session} {state : State}

theorem blockReceived_empty (none : block.bitmap = 0) :
    BlockReceived geometry disk packets block := by
  intro idxX idxY _ _ bit
  rw [checkBitmap_iff, none, Nat.zero_testBit] at bit
  exact absurd bit (by decide)

section

variable (received : BlockReceived geometry disk packets block)

include received

theorem BlockReceived.more
    (others : List Packet) : BlockReceived geometry disk (packets ++ others) block := by
  intro idxX idxY north east bit
  refine (received idxX idxY north east bit).imp_left ?_
  rintro ⟨packet, member, same⟩
  exact ⟨packet, List.mem_append_left _ member, same⟩

/-- The checksum is no height. -/
theorem BlockReceived.setCrc (crc : ℕ) :
    BlockReceived geometry disk packets (block.setCrc crc) :=
  fun idxX idxY north east bit => received idxX idxY north east bit

theorem BlockReceived.withCrc :
    BlockReceived geometry disk packets block.withCrc := received.setCrc _

theorem BlockReceived.fill {packet : Packet} (fits : packet.FitsGrid geometry block) :
    BlockReceived geometry disk (packets ++ [packet]) (block.fill packet) := by
  intro idxX idxY north east bit
  rw [fill_height _ _ east]
  by_cases here : gridBitnum idxX idxY = packet.gridbit
  · rw [if_pos here]
    exact Or.inl ⟨packet, List.mem_append_right _ List.mem_cons_self, fits.1.symm,
      fits.2.1.symm, fits.2.2.2.1.symm, here.symm, rfl⟩
  · rw [if_neg here]
    rw [checkBitmap_iff, fill_testBit] at bit
    exact received.more [packet] idxX idxY north east
      ((checkBitmap_iff _ _ _).mpr (bit.resolve_right here))

end

theorem find_meets {property : Fin cacheSize → Prop} [DecidablePred property]
    {index : Fin cacheSize}
    (found : (List.finRange cacheSize).find? (fun index => property index) = some index) :
    property index := by
  have meets := List.find?_some found
  rwa [decide_eq_true_eq] at meets

theorem Geometry.Accepts.lat_lon {lat lon : ℤ} (accepted : geometry.Accepts lat lon block) :
    block.lat = lat ∧ block.lon = lon := by
  rw [Geometry.Accepts, not_or, not_or, not_not, not_not] at accepted
  exact ⟨accepted.1, accepted.2.1⟩

theorem readResult_cases (geometry : Geometry) (lat lon : ℤ) (content : Option GridBlock) :
    (∃ block, content = some block ∧ geometry.Accepts lat lon block ∧
      readResult geometry lat lon content = block) ∨
    ((∀ block, content = some block → ¬ geometry.Accepts lat lon block) ∧
      readResult geometry lat lon content = emptyBlock lat lon) := by
  cases content with
  | none => exact Or.inr ⟨fun _ impossible => (nomatch impossible), rfl⟩
  | some block =>
    by_cases accepted : geometry.Accepts lat lon block
    · exact Or.inl ⟨block, rfl, accepted, if_pos accepted⟩
    · refine Or.inr ⟨fun other same => ?_, if_neg accepted⟩
      rw [← Option.some.inj same]
      exact accepted

theorem writeBlock_disk (geometry : Geometry) (state : State) (place : Place) :
    (writeBlock geometry state).disk place =
      if place = geometry.placeOf state.diskBlock then some state.diskBlock.withCrc
      else state.disk place :=
  Function.update_apply _ _ _ _

/-! ### The steps -/

theorem AllReceived.more (all : AllReceived geometry disk session) (others : List Packet) :
    AllReceived geometry disk { session with packets := session.packets ++ others } where
  cache := fun index => (all.cache index).more others
  inFlight := all.inFlight.more others
  stored := fun place block here accepted => (all.stored place block here accepted).more others

section

variable (all : AllReceived geometry disk ⟨state, packets⟩)

include all

/-- A new entry keeps everything received if its heights were. -/
theorem AllReceived.setEntry (index : Fin cacheSize) {entry : GridCache}
    (received : BlockReceived geometry disk packets entry.grid) :
    AllReceived geometry disk ⟨state.setEntry index entry, packets⟩ where
  cache := setEntry_forall (fun _ entry =>
    BlockReceived geometry disk packets entry.grid) received fun other _ => all.cache other
  inFlight := all.inFlight
  stored := all.stored

theorem AllReceived.find (info : GridInfo)
    (now : ℕ) :
    AllReceived geometry disk ⟨(findGridCache geometry state info now).1, packets⟩ := by
  rcases findGridCache_cases geometry state info now with ⟨index, -, same⟩ | ⟨index, -, same⟩
  · rw [same]
    exact all.setEntry index (all.cache index)
  · rw [same]
    exact all.setEntry index (blockReceived_empty rfl)

theorem AllReceived.data (packet : Packet) :
    AllReceived geometry disk
      ⟨handleTerrainData geometry state packet, packets ++ [packet]⟩ := by
  have before : AllReceived geometry disk ⟨state, packets ++ [packet]⟩ := all.more [packet]
  rw [handleTerrainData]
  split
  · exact before
  · rename_i index found
    exact before.setEntry index ((all.cache index).fill (find_meets found))

theorem AllReceived.schedule (enabled : Bool) (now : ℕ) :
    AllReceived geometry disk ⟨scheduleDiskIo state enabled now, packets⟩ := by
  have reading : AllReceived geometry disk ⟨checkDiskRead state, packets⟩ := by
    rw [checkDiskRead]
    split
    · exact all
    · exact ⟨all.cache, all.cache _, all.stored⟩
  rw [scheduleDiskIo]
  split
  · exact all
  · split
    · dsimp only
      split
      · rw [checkDiskWrite]
        split
        · exact reading
        · exact ⟨reading.cache, reading.cache _, reading.stored⟩
      · exact reading
    · dsimp only
      split
      · exact ⟨all.cache, all.inFlight, all.stored⟩
      · rename_i index _
        have received : BlockReceived geometry disk packets
            ((state.cache index).afterRead state.diskBlock now).grid := by
          rw [GridCache.afterRead]
          dsimp only
          split
          · exact all.inFlight
          · exact all.cache index
        have entered := all.setEntry index received
        exact ⟨entered.cache, entered.inFlight, entered.stored⟩
    · dsimp only
      split
      · exact ⟨all.cache, all.inFlight, all.stored⟩
      · rename_i index _
        have received : BlockReceived geometry disk packets
            ((state.cache index).afterWrite state.diskBlock).grid := by
          rw [GridCache.afterWrite]
          split
          · exact all.cache index
          · exact all.cache index
        have entered := all.setEntry index received
        exact ⟨entered.cache, entered.inFlight, entered.stored⟩
    · exact all
    · exact all

theorem AllReceived.timer :
    AllReceived geometry disk ⟨ioTimer geometry state, packets⟩ := by
  rw [ioTimer]
  split
  · exact all
  · exact all
  · exact all
  · refine ⟨all.cache, all.inFlight.withCrc, fun place block here accepted => ?_⟩
    rw [writeBlock_disk] at here
    split at here
    · rw [← Option.some.inj here]
      exact all.inFlight.withCrc
    · exact all.stored place block here accepted
  · refine ⟨all.cache, ?_, all.stored⟩
    rcases readResult_cases geometry state.diskBlock.lat state.diskBlock.lon
      (state.disk (geometry.placeOf state.diskBlock)) with
      ⟨block, here, accepted, same⟩ | ⟨-, same⟩
    · change BlockReceived _ _ _ (readResult _ _ _ _)
      obtain ⟨lat, lon⟩ := accepted.lat_lon
      rw [← lat, ← lon] at accepted
      rw [same]
      exact all.stored _ block here accepted
    · change BlockReceived _ _ _ (readResult _ _ _ _)
      rw [same]
      exact blockReceived_empty rfl

end

theorem AllReceived.step (all : AllReceived geometry disk session) (event : Event) :
    AllReceived geometry disk (session.step geometry event) := by
  cases event with
  | findGridCache loc now => exact (all.find (calculateGridInfo geometry loc) now).more []
  | heightAmsl enabled loc home now =>
    have looked := all.find (calculateGridInfo geometry loc) now
    refine @AllReceived.more geometry disk ⟨_, session.packets⟩ ?_ []
    rcases heightAmsl_state geometry session.state enabled loc home now with
      same | ⟨homeLoc, same⟩
    · change AllReceived geometry disk ⟨(heightAmsl _ _ _ _ _ _).1, _⟩
      rw [same]
      exact all
    · change AllReceived geometry disk ⟨(heightAmsl _ _ _ _ _ _).1, _⟩
      rw [same]
      exact ⟨looked.cache, looked.inFlight, looked.stored⟩
  | handleTerrainData packet => exact all.data packet
  | scheduleDiskIo enabled now => exact (all.schedule enabled now).more []
  | ioTimer => exact all.timer.more []

theorem start_allReceived (geometry : Geometry) (disk : Disk) :
    AllReceived geometry disk (Session.start disk) where
  cache := fun _ => blockReceived_empty rfl
  inFlight := blockReceived_empty rfl
  stored := fun place block here accepted _ _ _ _ bit =>
    Or.inr ⟨place, block, here, accepted, bit, rfl⟩

/-- The steps to a location stay away from the edge of the block, so that all four heights around it
are in the block. -/
theorem calculateGridInfo_inside (geometry : Geometry) (loc : Location) :
    (calculateGridInfo geometry loc).idxX + 1 < blockSizeX ∧
      (calculateGridInfo geometry loc).idxY + 1 < blockSizeY := by
  have north : (geometry.steps loc).1 % blockSpacingX < blockSpacingX :=
    Nat.mod_lt _ (by decide)
  have east : (geometry.steps loc).2 % blockSpacingY < blockSpacingY :=
    Nat.mod_lt _ (by decide)
  have sizes : blockSpacingX + 1 ≤ blockSizeX ∧ blockSpacingY + 1 ≤ blockSizeY := by decide
  exact ⟨by change (geometry.steps loc).1 % blockSpacingX + 1 < _; omega,
    by change (geometry.steps loc).2 % blockSpacingY + 1 < _; omega⟩

theorem AllReceived.heights (all : AllReceived geometry disk session) :
    HeightsReceived geometry disk session := by
  intro enabled loc home now h00 h01 h10 h11 answer
  obtain ⟨⟨b00, e00⟩, ⟨b01, e01⟩, ⟨b10, e10⟩, ⟨b11, e11⟩⟩ := heightAmsl_read answer
  obtain ⟨north, east⟩ := calculateGridInfo_inside geometry loc
  have received := (all.find (calculateGridInfo geometry loc) now).cache
    (findGridCache geometry session.state (calculateGridInfo geometry loc) now).2
  have corner : ((findGridCache geometry session.state (calculateGridInfo geometry loc)
      now).1.cache (findGridCache geometry session.state (calculateGridInfo geometry loc)
      now).2).grid.lat = (calculateGridInfo geometry loc).gridLat ∧
      ((findGridCache geometry session.state (calculateGridInfo geometry loc)
      now).1.cache (findGridCache geometry session.state (calculateGridInfo geometry loc)
      now).2).grid.lon = (calculateGridInfo geometry loc).gridLon := by
    rcases findGridCache_cases geometry session.state (calculateGridInfo geometry loc) now with
      ⟨index, has, same⟩ | ⟨index, -, same⟩
    · rw [same, setEntry_self]
      exact ⟨has.1, has.2.1⟩
    · rw [same, setEntry_self]
      exact ⟨rfl, rfl⟩
  rw [BlockReceived, corner.1, corner.2] at received
  refine ⟨?_, ?_, ?_, ?_⟩
  · rw [← e00]
    exact received _ _ (by omega) (by omega) b00
  · rw [← e01]
    exact received _ _ (by omega) (by omega) b01
  · rw [← e10]
    exact received _ _ (by omega) (by omega) b10
  · rw [← e11]
    exact received _ _ (by omega) (by omega) b11

end Urus.Terrain
