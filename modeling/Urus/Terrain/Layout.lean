/-
This file is about where the blocks of a degree square lie in its file. A file has a row of
blocks for each step to the north, and a row has as many places as blocks of full size fit
between the meridians, and two more.

But a block begins where the one before it has an overlap, so there are more blocks between
the meridians than blocks of full size fit. For a fine grid the two places more do not make
up for that, and the last blocks of a row lie where the first ones of the next row do.

The distances are exact: a degree square is as high as it is, and has a width of its own.
There is no rounding other than that of the code to whole numbers, and no overflow of the
coordinates.
-/

import Urus.Terrain.Model

namespace Urus.Terrain

/-! ### The code -/

/-- The conversion of a number to an integer type, towards zero. -/
def truncated (number : ℚ) : ℤ := if 0 ≤ number then ⌊number⌋ else ⌈number⌉

/-- The units of latitude or longitude in a degree. -/
def degreeUnits : ℕ := 10000000

/-- The height of a degree square in metres. -/
def cellHeight : ℚ := 111320

section Code

variable (width : ℚ) (gridSpacing : ℤ)

/-- `location_diff` where a degree of longitude is `width` metres. -/
def locationDiff (loc1 loc2 : Location) : ℚ × ℚ :=
  ((loc2.lat - loc1.lat) * (cellHeight / degreeUnits),
    (loc2.lng - loc1.lng) * (width / degreeUnits))

/-- `location_offset`. -/
def locationOffset (loc : Location) (ofsNorth ofsEast : ℚ) : Location :=
  if ofsNorth ≠ 0 ∨ ofsEast ≠ 0 then
    ⟨loc.lat + truncated (ofsNorth / (cellHeight / degreeUnits)),
      loc.lng + truncated (ofsEast / (width / degreeUnits))⟩
  else loc

/-- The corner of a degree square. -/
def degreeCorner (latDegrees lonDegrees : ℤ) : Location :=
  ⟨latDegrees * degreeUnits, lonDegrees * degreeUnits⟩

/-- The first part of `seek_offset`: the places of a row. -/
def eastBlocks (latDegrees lonDegrees : ℤ) : ℕ :=
  let loc1 := degreeCorner latDegrees lonDegrees
  -- another two blocks east, to ensure that room is available
  let loc2 := locationOffset width (degreeCorner latDegrees (lonDegrees + 1)) 0
    (2 * gridSpacing * blockSizeY)
  let offset := locationDiff width loc1 loc2
  (truncated (offset.2 / (gridSpacing * blockSizeY))).toNat % 2 ^ 16

/-- The floating point code, in exact numbers. -/
def exactGeometry (small : gridSpacing < 2 ^ 15) : Geometry where
  gridSpacing := gridSpacing
  steps := fun loc =>
    let ref := degreeCorner ((roundedDegrees loc.lat).bmod (2 ^ 8))
      ((roundedDegrees loc.lng).bmod (2 ^ 16))
    let offset := locationDiff width ref loc
    ((truncated (offset.1 / gridSpacing)).toNat, (truncated (offset.2 / gridSpacing)).toNat)
  corner := fun latDegrees lonDegrees gridIdxX gridIdxY =>
    let corner := locationOffset width (degreeCorner latDegrees lonDegrees)
      (gridIdxX * blockSpacingX * gridSpacing) (gridIdxY * blockSpacingY * gridSpacing)
    (corner.lat, corner.lng)
  eastBlocks := eastBlocks width gridSpacing
  small := small

end Code

/-! ### What is promised -/

/-- The location lies in the degree square. -/
def InCell (latDegrees lonDegrees : ℤ) (loc : Location) : Prop :=
  latDegrees * degreeUnits ≤ loc.lat ∧ loc.lat < (latDegrees + 1) * degreeUnits ∧
    lonDegrees * degreeUnits ≤ loc.lng ∧ loc.lng < (lonDegrees + 1) * degreeUnits

/-- Different blocks around locations of a degree square have different offsets in its file, and no
offset needs more than 32 bits. -/
structure LaidOut (geometry : Geometry) (latDegrees lonDegrees : ℤ) : Prop where
  apart : ∀ loc loc', InCell latDegrees lonDegrees loc → InCell latDegrees lonDegrees loc' →
    let info := calculateGridInfo geometry loc
    let info' := calculateGridInfo geometry loc'
    (info.gridIdxX, info.gridIdxY) ≠ (info'.gridIdxX, info'.gridIdxY) →
      (geometry.placeAround loc).offset ≠ (geometry.placeAround loc').offset
  inside : ∀ loc, InCell latDegrees lonDegrees loc →
    let info := calculateGridInfo geometry loc
    (geometry.eastBlocks latDegrees lonDegrees * info.gridIdxX + info.gridIdxY) * 2048 < 2 ^ 32

/-- The last row and the last column of blocks in a degree square. -/
def lastRow (gridSpacing : ℤ) : ℕ :=
  ⌊(degreeUnits - 1) * (cellHeight / (degreeUnits * gridSpacing))⌋₊ / blockSpacingX

def lastColumn (width : ℚ) (gridSpacing : ℤ) : ℕ :=
  ⌊(degreeUnits - 1) * (width / (degreeUnits * gridSpacing))⌋₊ / blockSpacingY

/-- The places of a row: the whole blocks of full size in the width, with two such blocks more that
are taken in whole units of longitude. -/
def rowPlaces (width : ℚ) (gridSpacing : ℤ) : ℕ :=
  ⌊(degreeUnits + ⌊2 * gridSpacing * blockSizeY * degreeUnits / width⌋₊) *
    (width / (degreeUnits * (gridSpacing * blockSizeY)))⌋₊

/-! ### Steps -/

theorem truncated_eq {number : ℚ} (positive : 0 ≤ number) : truncated number = ⌊number⌋₊ := by
  rw [truncated, if_pos positive, Int.natCast_floor_eq_floor positive]

theorem exists_floor_eq {step : ℚ} (positive : 0 < step) (short : step ≤ 1) {last number : ℕ}
    (below : number ≤ ⌊last * step⌋₊) : ∃ index ≤ last, ⌊index * step⌋₊ = number := by
  have reached : (number : ℚ) ≤ last * step :=
    (Nat.cast_le.mpr below).trans (Nat.floor_le (by positivity))
  refine ⟨⌈number / step⌉₊, ?_, ?_⟩
  · exact Nat.ceil_le.mpr ((div_le_iff₀ positive).mpr reached)
  · rw [Nat.floor_eq_iff (by positivity)]
    constructor
    · exact (div_le_iff₀ positive).mp (Nat.le_ceil _)
    · have next := Nat.ceil_lt_add_one (show 0 ≤ number / step by positivity)
      calc (⌈number / step⌉₊ : ℚ) * step < (number / step + 1) * step :=
            mul_lt_mul_of_pos_right next positive
        _ = number + step := by field_simp
        _ ≤ number + 1 := by linarith

/-! ### The blocks of a degree square -/

theorem roundedDegrees_eq {degrees coordinate : ℤ} (low : degrees * degreeUnits ≤ coordinate)
    (high : coordinate < (degrees + 1) * degreeUnits) : roundedDegrees coordinate = degrees := by
  simp only [degreeUnits] at low high
  rw [roundedDegrees]
  split
  · rename_i south
    rw [show coordinate - 9999999 = -(9999999 - coordinate) by omega, Int.neg_tdiv,
      Int.tdiv_eq_ediv_of_nonneg (by omega)]
    omega
  · rw [Int.tdiv_eq_ediv_of_nonneg (by omega)]
    omega

theorem InCell.exists_units {latDegrees lonDegrees : ℤ} {loc : Location}
    (inCell : InCell latDegrees lonDegrees loc) :
    ∃ north east : ℕ, north < degreeUnits ∧ east < degreeUnits ∧
      loc = ⟨latDegrees * degreeUnits + north, lonDegrees * degreeUnits + east⟩ := by
  obtain ⟨south, north, west, east⟩ := inCell
  rw [add_mul, one_mul] at north east
  refine ⟨(loc.lat - latDegrees * degreeUnits).toNat, (loc.lng - lonDegrees * degreeUnits).toNat,
    by omega, by omega, ?_⟩
  rw [Int.toNat_of_nonneg (by omega), Int.toNat_of_nonneg (by omega), add_sub_cancel,
    add_sub_cancel]

theorem inCell_units (latDegrees lonDegrees : ℤ) {north east : ℕ} (toNorth : north < degreeUnits)
    (toEast : east < degreeUnits) :
    InCell latDegrees lonDegrees
      ⟨latDegrees * degreeUnits + north, lonDegrees * degreeUnits + east⟩ := by
  rw [InCell, add_mul, add_mul, one_mul]
  dsimp only
  omega

section Cell

variable {width : ℚ} {gridSpacing latDegrees lonDegrees : ℤ} {north east : ℕ}

theorem steps_eq {length : ℚ} (long : 0 ≤ length) (spaced : 0 < gridSpacing) (degrees : ℤ)
    (units : ℕ) :
    (truncated (((degrees * degreeUnits + units : ℤ) - (degrees * degreeUnits : ℤ) : ℚ) *
      (length / degreeUnits) / gridSpacing)).toNat =
      ⌊units * (length / (degreeUnits * gridSpacing))⌋₊ := by
  have positive : (0 : ℚ) < gridSpacing := Int.cast_pos.mpr spaced
  have same : ((degrees * degreeUnits + units : ℤ) - (degrees * degreeUnits : ℤ) : ℚ) *
      (length / degreeUnits) / gridSpacing = units * (length / (degreeUnits * gridSpacing)) := by
    push_cast
    rw [add_sub_cancel_left, mul_div_assoc, div_div]
  rw [same, truncated_eq (by positivity), Int.toNat_natCast]

/-- One unit is less than a step. -/
theorem unit_short {length : ℚ} (short : length ≤ cellHeight) (spaced : 0 < gridSpacing) :
    length / (degreeUnits * gridSpacing) ≤ 1 := by
  have positive : (1 : ℚ) ≤ gridSpacing := Int.cast_one_le_of_pos spaced
  rw [cellHeight] at short
  rw [degreeUnits, div_le_one (by positivity)]
  push_cast
  linarith

theorem steps_le {length : ℚ} (long : 0 ≤ length) (short : length ≤ cellHeight)
    (spaced : 0 < gridSpacing) {units : ℕ} (inside : units < degreeUnits) :
    ⌊units * (length / (degreeUnits * gridSpacing))⌋₊ ≤ 111320 := by
  have positive : (1 : ℚ) ≤ gridSpacing := Int.cast_one_le_of_pos spaced
  have few : (units : ℚ) ≤ degreeUnits := Nat.cast_le.mpr inside.le
  rw [cellHeight] at short
  refine Nat.floor_le_of_le ?_
  calc (units : ℚ) * (length / (degreeUnits * gridSpacing)) ≤
      degreeUnits * (length / (degreeUnits * gridSpacing)) := by gcongr
    _ = length / gridSpacing := by rw [degreeUnits]; field_simp
    _ ≤ length := div_le_self long positive
    _ ≤ (111320 : ℕ) := short

/-- The block of a location, from its units. -/
theorem calculateGridInfo_units (small : gridSpacing < 2 ^ 15) (positive : 0 ≤ width)
    (narrow : width ≤ cellHeight) (spaced : 0 < gridSpacing)
    (latFits : -2 ^ 7 ≤ latDegrees ∧ latDegrees < 2 ^ 7)
    (lonFits : -2 ^ 15 ≤ lonDegrees ∧ lonDegrees < 2 ^ 15) (toNorth : north < degreeUnits)
    (toEast : east < degreeUnits) :
    let info := calculateGridInfo (exactGeometry width gridSpacing small)
      ⟨latDegrees * degreeUnits + north, lonDegrees * degreeUnits + east⟩
    info.latDegrees = latDegrees ∧ info.lonDegrees = lonDegrees ∧
      info.gridIdxX = ⌊north * (cellHeight / (degreeUnits * gridSpacing))⌋₊ / blockSpacingX ∧
      info.gridIdxY = ⌊east * (width / (degreeUnits * gridSpacing))⌋₊ / blockSpacingY := by
  obtain ⟨south, north', west, east'⟩ := inCell_units latDegrees lonDegrees toNorth toEast
  have lat : (roundedDegrees (latDegrees * degreeUnits + north)).bmod (2 ^ 8) = latDegrees := by
    rw [roundedDegrees_eq south north']
    exact Int.bmod_eq_of_le (by omega) (by omega)
  have lon : (roundedDegrees (lonDegrees * degreeUnits + east)).bmod (2 ^ 16) = lonDegrees := by
    rw [roundedDegrees_eq west east']
    exact Int.bmod_eq_of_le (by omega) (by omega)
  have tall : (0 : ℚ) ≤ cellHeight := by rw [cellHeight]; norm_num
  have few := steps_le tall le_rfl spaced toNorth
  have few' := steps_le positive narrow spaced toEast
  rw [calculateGridInfo, exactGeometry]
  dsimp only [locationDiff, degreeCorner]
  rw [lat, lon, steps_eq tall spaced, steps_eq positive spaced]
  refine ⟨rfl, rfl, Nat.mod_eq_of_lt ?_, Nat.mod_eq_of_lt ?_⟩
  · exact lt_of_le_of_lt (Nat.div_le_div_right few) (by decide)
  · exact lt_of_le_of_lt (Nat.div_le_div_right few') (by decide)

theorem rowPlaces_exact (positive : 0 < width) (spaced : 0 < gridSpacing) :
    2 ≤ (degreeUnits + ⌊2 * gridSpacing * blockSizeY * degreeUnits / width⌋₊ : ℚ) *
        (width / (degreeUnits * (gridSpacing * blockSizeY))) ∧
      (degreeUnits + ⌊2 * gridSpacing * blockSizeY * degreeUnits / width⌋₊ : ℚ) *
        (width / (degreeUnits * (gridSpacing * blockSizeY))) ≤
      width / (gridSpacing * blockSizeY) + 2 := by
  have step : (0 : ℚ) < gridSpacing := Int.cast_pos.mpr spaced
  have size : (0 : ℚ) < blockSizeY := by rw [blockSizeY, mavlinkSize, blockMulY]; norm_num
  have units : (1 : ℚ) ≤ degreeUnits := by rw [degreeUnits]; norm_num
  have units' : (0 : ℚ) < degreeUnits := one_pos.trans_le units
  generalize room : (2 * gridSpacing * blockSizeY * degreeUnits / width : ℚ) = two
  have twoBlocks : two * (width / (degreeUnits * (gridSpacing * blockSizeY))) = 2 := by
    rw [← room]
    field_simp
  have row : degreeUnits * (width / (degreeUnits * (gridSpacing * blockSizeY))) =
      width / (gridSpacing * blockSizeY) := by
    field_simp
  have atLeast : two < ⌊two⌋₊ + 1 := Nat.lt_floor_add_one two
  have atMost : (⌊two⌋₊ : ℚ) ≤ two := Nat.floor_le (by rw [← room]; positivity)
  have unit : 0 ≤ width / (degreeUnits * (gridSpacing * blockSizeY)) := by positivity
  constructor
  · calc (2 : ℚ) = two * (width / (degreeUnits * (gridSpacing * blockSizeY))) := twoBlocks.symm
      _ ≤ _ := mul_le_mul_of_nonneg_right (by linarith) unit
  · calc _ ≤ (degreeUnits + two) * (width / (degreeUnits * (gridSpacing * blockSizeY))) :=
          mul_le_mul_of_nonneg_right (by linarith) unit
      _ = _ := by rw [add_mul, twoBlocks, row]

/-- There are two places at least, and 16 bits count them. -/
theorem rowPlaces_bounds (positive : 0 < width) (narrow : width ≤ cellHeight)
    (spaced : 0 < gridSpacing) :
    2 ≤ rowPlaces width gridSpacing ∧ rowPlaces width gridSpacing < 2 ^ 16 := by
  obtain ⟨low, high⟩ := rowPlaces_exact positive spaced
  have step : (1 : ℚ) ≤ gridSpacing := Int.cast_one_le_of_pos spaced
  rw [cellHeight] at narrow
  refine ⟨Nat.le_floor (by exact_mod_cast low), (Nat.floor_lt' (by norm_num)).mpr ?_⟩
  refine high.trans_lt ?_
  have wide : (32 : ℚ) ≤ gridSpacing * blockSizeY := by
    rw [blockSizeY, mavlinkSize, blockMulY]
    push_cast
    linarith
  calc width / (gridSpacing * blockSizeY) + 2 ≤ 111320 / 32 + 2 :=
        add_le_add_left (div_le_div₀ (by norm_num) narrow (by norm_num) wide) 2
    _ < (2 ^ 16 : ℕ) := by norm_num

theorem eastBlocks_eq (positive : 0 < width) (narrow : width ≤ cellHeight)
    (spaced : 0 < gridSpacing) :
    eastBlocks width gridSpacing latDegrees lonDegrees = rowPlaces width gridSpacing := by
  have step : (0 : ℚ) < gridSpacing := Int.cast_pos.mpr spaced
  have size : (0 : ℚ) < blockSizeY := by rw [blockSizeY, mavlinkSize, blockMulY]; norm_num
  have units : (0 : ℚ) < degreeUnits := by rw [degreeUnits]; norm_num
  have apart : (2 * gridSpacing * blockSizeY : ℚ) ≠ 0 := by positivity
  have two : (2 * gridSpacing * blockSizeY / (width / degreeUnits) : ℚ) =
      2 * gridSpacing * blockSizeY * degreeUnits / width := by
    field_simp
  have room : truncated (2 * gridSpacing * blockSizeY / (width / degreeUnits)) =
      ⌊(2 * gridSpacing * blockSizeY * degreeUnits / width : ℚ)⌋₊ := by
    rw [two]
    exact truncated_eq (by positivity)
  obtain ⟨low, -⟩ := rowPlaces_exact positive spaced
  have row : ((((lonDegrees + 1) * degreeUnits +
        ⌊(2 * gridSpacing * blockSizeY * degreeUnits / width : ℚ)⌋₊ : ℤ) : ℚ) -
        (lonDegrees * degreeUnits : ℤ)) * (width / degreeUnits) / (gridSpacing * blockSizeY) =
      (degreeUnits + ⌊2 * gridSpacing * blockSizeY * degreeUnits / width⌋₊ : ℚ) *
        (width / (degreeUnits * (gridSpacing * blockSizeY))) := by
    push_cast
    field_simp
    ring
  rw [eastBlocks, locationOffset, if_pos (Or.inr apart)]
  dsimp only [locationDiff, degreeCorner]
  rw [room, row, truncated_eq (zero_le_two.trans low), Int.toNat_natCast]
  exact Nat.mod_eq_of_lt (rowPlaces_bounds positive narrow spaced).2

theorem lastUnit : ((degreeUnits - 1 : ℕ) : ℚ) = degreeUnits - 1 := by
  rw [degreeUnits]
  norm_num

theorem exists_block_iff {length : ℚ} (long : 0 < length) (short : length ≤ cellHeight)
    (spaced : 0 < gridSpacing) {spacing : ℕ} (some_step : 0 < spacing) (index : ℕ) :
    (∃ units < degreeUnits, ⌊units * (length / (degreeUnits * gridSpacing))⌋₊ / spacing = index) ↔
      index ≤ ⌊(degreeUnits - 1) * (length / (degreeUnits * gridSpacing))⌋₊ / spacing := by
  have step : (0 : ℚ) < gridSpacing := Int.cast_pos.mpr spaced
  have unit : 0 < length / (degreeUnits * gridSpacing) := by
    rw [degreeUnits]
    positivity
  rw [← lastUnit]
  constructor
  · rintro ⟨units, inside, rfl⟩
    have last : (units : ℚ) ≤ (degreeUnits - 1 : ℕ) := Nat.cast_le.mpr (Nat.le_pred_of_lt inside)
    exact Nat.div_le_div_right (Nat.floor_mono (mul_le_mul_of_nonneg_right last unit.le))
  · intro below
    obtain ⟨units, inside, first⟩ := exists_floor_eq unit (unit_short short spaced)
      ((Nat.le_div_iff_mul_le some_step).mp below)
    refine ⟨units, lt_of_le_of_lt inside (by decide), ?_⟩
    rw [first, Nat.mul_div_cancel _ some_step]

end Cell

/-! ### The main result -/

section Layout

variable {width : ℚ} {gridSpacing latDegrees lonDegrees : ℤ} (small : gridSpacing < 2 ^ 15)

/-- The rows and columns of the blocks in a degree square. -/
theorem exists_loc_iff (positive : 0 < width) (narrow : width ≤ cellHeight)
    (spaced : 0 < gridSpacing) (latFits : -2 ^ 7 ≤ latDegrees ∧ latDegrees < 2 ^ 7)
    (lonFits : -2 ^ 15 ≤ lonDegrees ∧ lonDegrees < 2 ^ 15) (row column : ℕ) :
    (∃ loc, InCell latDegrees lonDegrees loc ∧
      (calculateGridInfo (exactGeometry width gridSpacing small) loc).gridIdxX = row ∧
      (calculateGridInfo (exactGeometry width gridSpacing small) loc).gridIdxY = column) ↔
      row ≤ lastRow gridSpacing ∧ column ≤ lastColumn width gridSpacing := by
  have tall : (0 : ℚ) < cellHeight := by rw [cellHeight]; norm_num
  rw [lastRow, lastColumn, ← exists_block_iff tall le_rfl spaced (by decide),
    ← exists_block_iff positive narrow spaced (by decide)]
  constructor
  · rintro ⟨loc, inCell, isRow, isColumn⟩
    obtain ⟨north, east, toNorth, toEast, rfl⟩ := inCell.exists_units
    obtain ⟨-, -, north', east'⟩ := calculateGridInfo_units small positive.le narrow spaced
      latFits lonFits toNorth toEast
    exact ⟨⟨north, toNorth, north'.symm.trans isRow⟩, ⟨east, toEast, east'.symm.trans isColumn⟩⟩
  · rintro ⟨⟨north, toNorth, isRow⟩, ⟨east, toEast, isColumn⟩⟩
    obtain ⟨-, -, north', east'⟩ := calculateGridInfo_units small positive.le narrow spaced
      latFits lonFits toNorth toEast
    exact ⟨_, inCell_units latDegrees lonDegrees toNorth toEast, north'.trans isRow,
      east'.trans isColumn⟩

/-- The offset of a block. -/
theorem placeAround_offset (positive : 0 < width) (narrow : width ≤ cellHeight)
    (spaced : 0 < gridSpacing) (loc : Location) :
    ((exactGeometry width gridSpacing small).placeAround loc).offset =
      (rowPlaces width gridSpacing *
          (calculateGridInfo (exactGeometry width gridSpacing small) loc).gridIdxX +
        (calculateGridInfo (exactGeometry width gridSpacing small) loc).gridIdxY) * 2048 % 2 ^ 32 := by
  rw [← eastBlocks_eq positive narrow spaced]
  rfl

theorem lastColumn_of_lastRow (narrow : width ≤ cellHeight) (spaced : 0 < gridSpacing)
    (single : lastRow gridSpacing = 0) : lastColumn width gridSpacing = 0 := by
  have step : (0 : ℚ) < gridSpacing := Int.cast_pos.mpr spaced
  rw [lastRow, Nat.div_eq_zero_iff_lt (by decide)] at single
  rw [lastColumn, Nat.div_eq_zero_iff_lt (by decide)]
  refine lt_of_le_of_lt (Nat.floor_mono ?_) (single.trans (by decide))
  rw [← lastUnit]
  gcongr

theorem not_laidOut (positive : 0 < width) (narrow : width ≤ cellHeight) (spaced : 0 < gridSpacing)
    (latFits : -2 ^ 7 ≤ latDegrees ∧ latDegrees < 2 ^ 7)
    (lonFits : -2 ^ 15 ≤ lonDegrees ∧ lonDegrees < 2 ^ 15)
    (beyond : rowPlaces width gridSpacing ≤ lastColumn width gridSpacing) :
    ¬ LaidOut (exactGeometry width gridSpacing small) latDegrees lonDegrees := by
  have blocks := exists_loc_iff small positive narrow spaced latFits lonFits
  have offset := placeAround_offset small positive narrow spaced
  have room := (rowPlaces_bounds positive narrow spaced).1
  have rows : 1 ≤ lastRow gridSpacing := by
    by_contra single
    have alone := lastColumn_of_lastRow narrow spaced (by omega)
    omega
  obtain ⟨loc, inCell, row, column⟩ := (blocks 0 (rowPlaces width gridSpacing)).mpr
    ⟨Nat.zero_le _, beyond⟩
  obtain ⟨loc', inCell', row', column'⟩ := (blocks 1 0).mpr ⟨rows, Nat.zero_le _⟩
  intro laidOut
  refine laidOut.apart loc loc' inCell inCell' ?_ ?_
  · rw [row, row']
    exact fun same => nomatch congrArg Prod.fst same
  · rw [offset, offset, row, row', column, column', Nat.mul_zero, Nat.mul_one, Nat.zero_add,
      Nat.add_zero]

/-- The blocks of a degree square lie apart in the file, at offsets of 32 bits, if and only if the
last column is in front of the end of the row, and the last block is inside the file. -/
theorem laidOut_iff (positive : 0 < width) (narrow : width ≤ cellHeight) (spaced : 0 < gridSpacing)
    (latFits : -2 ^ 7 ≤ latDegrees ∧ latDegrees < 2 ^ 7)
    (lonFits : -2 ^ 15 ≤ lonDegrees ∧ lonDegrees < 2 ^ 15) :
    LaidOut (exactGeometry width gridSpacing small) latDegrees lonDegrees ↔
      lastColumn width gridSpacing < rowPlaces width gridSpacing ∧
        (rowPlaces width gridSpacing * lastRow gridSpacing + lastColumn width gridSpacing) * 2048 <
          2 ^ 32 := by
  have blocks := exists_loc_iff small positive narrow spaced latFits lonFits
  have offset := placeAround_offset small positive narrow spaced
  have places : (exactGeometry width gridSpacing small).eastBlocks latDegrees lonDegrees =
      rowPlaces width gridSpacing := eastBlocks_eq positive narrow spaced
  constructor
  · intro laidOut
    constructor
    · rw [← not_le]
      exact fun beyond => not_laidOut small positive narrow spaced latFits lonFits beyond laidOut
    · obtain ⟨loc, inCell, row, column⟩ := (blocks _ _).mpr ⟨le_rfl, le_rfl⟩
      have inside := laidOut.inside loc inCell
      dsimp only at inside
      rwa [places, row, column] at inside
  · rintro ⟨fits, inside⟩
    have bounds : ∀ loc, InCell latDegrees lonDegrees loc →
        (calculateGridInfo (exactGeometry width gridSpacing small) loc).gridIdxX ≤
            lastRow gridSpacing ∧
          (calculateGridInfo (exactGeometry width gridSpacing small) loc).gridIdxY ≤
            lastColumn width gridSpacing :=
      fun loc inCell => (blocks _ _).mp ⟨loc, inCell, rfl, rfl⟩
    have below : ∀ loc, InCell latDegrees lonDegrees loc →
        (rowPlaces width gridSpacing *
            (calculateGridInfo (exactGeometry width gridSpacing small) loc).gridIdxX +
          (calculateGridInfo (exactGeometry width gridSpacing small) loc).gridIdxY) * 2048 <
          2 ^ 32 := by
      intro loc inCell
      obtain ⟨row, column⟩ := bounds loc inCell
      exact lt_of_le_of_lt (Nat.mul_le_mul_right _ (Nat.add_le_add (Nat.mul_le_mul_left _ row) column))
        inside
    refine ⟨fun loc loc' inCell inCell' => ?_, fun loc inCell => ?_⟩
    · dsimp only
      intro different same
      rw [offset, offset, Nat.mod_eq_of_lt (below loc inCell), Nat.mod_eq_of_lt (below loc' inCell')]
        at same
      have equal := Nat.eq_of_mul_eq_mul_right (by decide) same
      have column := lt_of_le_of_lt (bounds loc inCell).2 fits
      have column' := lt_of_le_of_lt (bounds loc' inCell').2 fits
      have rows := congrArg (· / rowPlaces width gridSpacing) equal
      have columns := congrArg (· % rowPlaces width gridSpacing) equal
      rw [Nat.mul_add_div (by omega), Nat.mul_add_div (by omega), Nat.div_eq_of_lt column,
        Nat.div_eq_of_lt column', Nat.add_zero, Nat.add_zero] at rows
      rw [Nat.mul_add_mod, Nat.mul_add_mod, Nat.mod_eq_of_lt column, Nat.mod_eq_of_lt column']
        at columns
      exact different (Prod.ext rows columns)
    · rw [places]
      exact below loc inCell

end Layout

/-! ### The equator -/

/-- With a spacing of 400 metres the blocks lie apart at the equator. -/
theorem laidOut_iff_fourHundred : LaidOut (exactGeometry 111320 400 (by decide)) 0 0 := by
  have narrow : 111320 ≤ cellHeight := by rw [cellHeight]
  have room : ⌊(2 * (400 : ℤ) * blockSizeY * degreeUnits / 111320 : ℚ)⌋₊ = 2299676 := by
    rw [Nat.floor_eq_iff (by positivity)]
    norm_num [blockSizeY, mavlinkSize, blockMulY, degreeUnits]
  have places : rowPlaces 111320 400 = 10 := by
    rw [rowPlaces, room, Nat.floor_eq_iff (by positivity)]
    norm_num [blockSizeY, mavlinkSize, blockMulY, degreeUnits]
  have columns : ⌊(degreeUnits - 1) * ((111320 : ℚ) / (degreeUnits * (400 : ℤ)))⌋₊ = 278 := by
    rw [Nat.floor_eq_iff (by norm_num [degreeUnits])]
    norm_num [degreeUnits]
  refine (laidOut_iff _ (by norm_num) narrow (by decide) (by decide) (by decide)).mpr ?_
  rw [places, lastRow, lastColumn, cellHeight, columns]
  decide

/-- With the usual spacing of 100 metres the block in column 36 of the first row lies where the
second row starts. -/
theorem not_laidOut_hundred : ¬ LaidOut (exactGeometry 111320 100 (by decide)) 0 0 := by
  have narrow : 111320 ≤ cellHeight := by rw [cellHeight]
  have room : ⌊(2 * (100 : ℤ) * blockSizeY * degreeUnits / 111320 : ℚ)⌋₊ = 574919 := by
    rw [Nat.floor_eq_iff (by positivity)]
    norm_num [blockSizeY, mavlinkSize, blockMulY, degreeUnits]
  have places : rowPlaces 111320 100 = 36 := by
    rw [rowPlaces, room, Nat.floor_eq_iff (by positivity)]
    norm_num [blockSizeY, mavlinkSize, blockMulY, degreeUnits]
  have columns : ⌊(degreeUnits - 1) * ((111320 : ℚ) / (degreeUnits * (100 : ℤ)))⌋₊ = 1113 := by
    rw [Nat.floor_eq_iff (by norm_num [degreeUnits])]
    norm_num [degreeUnits]
  refine not_laidOut _ (by norm_num) narrow (by decide) (by decide) (by decide) ?_
  rw [places, lastColumn, columns]
  decide

end Urus.Terrain
