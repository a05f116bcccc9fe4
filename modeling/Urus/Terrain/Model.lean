/-
This file models the terrain cache. The heights of the ground come from the ground station
in grids of 4x4 heights, and are kept in blocks of 28x32 heights, of which the cache holds
twelve and a file on the disk the rest. A block that is asked for takes the place of the one
that was not used for longest and is read from the disk. A block that has got new heights is
dirty until it has been written to the disk.

There is one block in flight between the cache and the disk. The main thread copies a block
there and takes the result from there, the IO thread reads or writes it.

The code that uses floating point is a parameter: which step of the grid a location lies on,
where the corner of a block is, and how many blocks lie side by side in a file. Disk IO
succeeds. A hole in a file reads as zeroes and counts, as the space behind the end does, as
a place without a block.
-/

import Mathlib.Tactic

namespace Urus.Terrain

/-! ### Blocks -/

/-- `struct grid_block`. Bit `n` of the bitmap stands for the 4x4 heights of subgrid `n`. -/
structure GridBlock where
  bitmap : ℕ
  lat : ℤ
  lon : ℤ
  crc : ℕ
  version : ℕ
  spacing : ℕ
  height : ℕ → ℕ → ℤ
  gridIdxX : ℕ
  gridIdxY : ℕ
  lonDegrees : ℤ
  latDegrees : ℤ

/-- A block of zeroes, as `memset` leaves it. -/
def GridBlock.zero : GridBlock := ⟨0, 0, 0, 0, 0, 0, fun _ _ => 0, 0, 0, 0, 0⟩

/-- `TERRAIN_GRID_FORMAT_VERSION`. -/
def gridFormatVersion : ℕ := 1

/-- `TERRAIN_GRID_MAVLINK_SIZE`. -/
def mavlinkSize : ℕ := 4

/-- `TERRAIN_GRID_BLOCK_MUL_X` and `TERRAIN_GRID_BLOCK_MUL_Y`. -/
def blockMulX : ℕ := 7
def blockMulY : ℕ := 8

/-- `TERRAIN_GRID_BLOCK_SIZE_X` and `TERRAIN_GRID_BLOCK_SIZE_Y`. -/
def blockSizeX : ℕ := mavlinkSize * blockMulX
def blockSizeY : ℕ := mavlinkSize * blockMulY

/-- `TERRAIN_GRID_BLOCK_SPACING_X` and `TERRAIN_GRID_BLOCK_SPACING_Y`. -/
def blockSpacingX : ℕ := (blockMulX - 1) * mavlinkSize
def blockSpacingY : ℕ := (blockMulY - 1) * mavlinkSize

/-- The subgrids of a block, one for each bit that is used. -/
def gridBits : ℕ := 56

/-- `grid_bitnum`. -/
def gridBitnum (idxX idxY : ℕ) : ℕ := idxY / mavlinkSize + blockMulY * (idxX / mavlinkSize)

/-- `check_bitmap`. -/
def checkBitmap (grid : GridBlock) (idxX idxY : ℕ) : Prop :=
  grid.bitmap &&& 1 <<< gridBitnum idxX idxY ≠ 0

instance (grid : GridBlock) (idxX idxY : ℕ) : Decidable (checkBitmap grid idxX idxY) :=
  inferInstanceAs (Decidable (_ ≠ _))

/-! ### The checksum -/

/-- `crc16tab`. -/
def crc16Tab : Array ℕ :=
  #[0x0000, 0x1021, 0x2042, 0x3063, 0x4084, 0x50A5, 0x60C6, 0x70E7, 0x8108, 0x9129, 0xA14A, 0xB16B,
    0xC18C, 0xD1AD, 0xE1CE, 0xF1EF, 0x1231, 0x0210, 0x3273, 0x2252, 0x52B5, 0x4294, 0x72F7, 0x62D6,
    0x9339, 0x8318, 0xB37B, 0xA35A, 0xD3BD, 0xC39C, 0xF3FF, 0xE3DE, 0x2462, 0x3443, 0x0420, 0x1401,
    0x64E6, 0x74C7, 0x44A4, 0x5485, 0xA56A, 0xB54B, 0x8528, 0x9509, 0xE5EE, 0xF5CF, 0xC5AC, 0xD58D,
    0x3653, 0x2672, 0x1611, 0x0630, 0x76D7, 0x66F6, 0x5695, 0x46B4, 0xB75B, 0xA77A, 0x9719, 0x8738,
    0xF7DF, 0xE7FE, 0xD79D, 0xC7BC, 0x48C4, 0x58E5, 0x6886, 0x78A7, 0x0840, 0x1861, 0x2802, 0x3823,
    0xC9CC, 0xD9ED, 0xE98E, 0xF9AF, 0x8948, 0x9969, 0xA90A, 0xB92B, 0x5AF5, 0x4AD4, 0x7AB7, 0x6A96,
    0x1A71, 0x0A50, 0x3A33, 0x2A12, 0xDBFD, 0xCBDC, 0xFBBF, 0xEB9E, 0x9B79, 0x8B58, 0xBB3B, 0xAB1A,
    0x6CA6, 0x7C87, 0x4CE4, 0x5CC5, 0x2C22, 0x3C03, 0x0C60, 0x1C41, 0xEDAE, 0xFD8F, 0xCDEC, 0xDDCD,
    0xAD2A, 0xBD0B, 0x8D68, 0x9D49, 0x7E97, 0x6EB6, 0x5ED5, 0x4EF4, 0x3E13, 0x2E32, 0x1E51, 0x0E70,
    0xFF9F, 0xEFBE, 0xDFDD, 0xCFFC, 0xBF1B, 0xAF3A, 0x9F59, 0x8F78, 0x9188, 0x81A9, 0xB1CA, 0xA1EB,
    0xD10C, 0xC12D, 0xF14E, 0xE16F, 0x1080, 0x00A1, 0x30C2, 0x20E3, 0x5004, 0x4025, 0x7046, 0x6067,
    0x83B9, 0x9398, 0xA3FB, 0xB3DA, 0xC33D, 0xD31C, 0xE37F, 0xF35E, 0x02B1, 0x1290, 0x22F3, 0x32D2,
    0x4235, 0x5214, 0x6277, 0x7256, 0xB5EA, 0xA5CB, 0x95A8, 0x8589, 0xF56E, 0xE54F, 0xD52C, 0xC50D,
    0x34E2, 0x24C3, 0x14A0, 0x0481, 0x7466, 0x6447, 0x5424, 0x4405, 0xA7DB, 0xB7FA, 0x8799, 0x97B8,
    0xE75F, 0xF77E, 0xC71D, 0xD73C, 0x26D3, 0x36F2, 0x0691, 0x16B0, 0x6657, 0x7676, 0x4615, 0x5634,
    0xD94C, 0xC96D, 0xF90E, 0xE92F, 0x99C8, 0x89E9, 0xB98A, 0xA9AB, 0x5844, 0x4865, 0x7806, 0x6827,
    0x18C0, 0x08E1, 0x3882, 0x28A3, 0xCB7D, 0xDB5C, 0xEB3F, 0xFB1E, 0x8BF9, 0x9BD8, 0xABBB, 0xBB9A,
    0x4A75, 0x5A54, 0x6A37, 0x7A16, 0x0AF1, 0x1AD0, 0x2AB3, 0x3A92, 0xFD2E, 0xED0F, 0xDD6C, 0xCD4D,
    0xBDAA, 0xAD8B, 0x9DE8, 0x8DC9, 0x7C26, 0x6C07, 0x5C64, 0x4C45, 0x3CA2, 0x2C83, 0x1CE0, 0x0CC1,
    0xEF1F, 0xFF3E, 0xCF5D, 0xDF7C, 0xAF9B, 0xBFBA, 0x8FD9, 0x9FF8, 0x6E17, 0x7E36, 0x4E55, 0x5E74,
    0x2E93, 0x3EB2, 0x0ED1, 0x1EF0]

/-- `crc16_ccitt`. -/
def crc16Ccitt (bytes : List ℕ) (crc : ℕ) : ℕ :=
  bytes.foldl (fun crc byte =>
    (crc <<< 8) % 2 ^ 16 ^^^ crc16Tab.getD ((crc >>> 8 ^^^ byte) &&& 0xFF) 0) crc

/-- The bytes of an integer, the lowest first. -/
def littleEndian (count : ℕ) (value : ℤ) : List ℕ :=
  (List.range count).map fun byte => (value / 256 ^ byte % 256).toNat

/-- A block as it lies in memory and on the disk. -/
def GridBlock.bytes (block : GridBlock) : List ℕ :=
  littleEndian 8 block.bitmap ++ littleEndian 4 block.lat ++ littleEndian 4 block.lon ++
    littleEndian 2 block.crc ++ littleEndian 2 block.version ++ littleEndian 2 block.spacing ++
    (List.range blockSizeX).flatMap (fun x =>
      (List.range blockSizeY).flatMap fun y => littleEndian 2 (block.height x y)) ++
    littleEndian 2 block.gridIdxX ++ littleEndian 2 block.gridIdxY ++
    littleEndian 2 block.lonDegrees ++ littleEndian 1 block.latDegrees

/-- The block with another checksum. -/
def GridBlock.setCrc (block : GridBlock) (crc : ℕ) : GridBlock := { block with crc := crc }

theorem GridBlock.setCrc_crc (block : GridBlock) (crc : ℕ) : (block.setCrc crc).crc = crc := rfl

theorem GridBlock.setCrc_setCrc (block : GridBlock) (first second : ℕ) :
    (block.setCrc first).setCrc second = block.setCrc second := rfl

/-- `get_block_crc`: the checksum is taken with a checksum of zero in the block. -/
@[irreducible] def getBlockCrc (block : GridBlock) : ℕ := crc16Ccitt (block.setCrc 0).bytes 0

theorem getBlockCrc_eq (block : GridBlock) :
    getBlockCrc block = crc16Ccitt (block.setCrc 0).bytes 0 := by
  delta getBlockCrc
  rfl

/-! ### Locations and places -/

/-- The latitude and longitude of a `Location`, in units of 1e-7 degrees. -/
structure Location where
  lat : ℤ
  lng : ℤ
  deriving DecidableEq

/-- Where a block lies on the disk: the file of its degree square and the offset. -/
structure Place where
  south : Bool
  latName : ℕ
  west : Bool
  lonName : ℕ
  offset : ℕ
  deriving DecidableEq

/-- The parameter `grid_spacing` and the floating point code: `steps` counts the grid points from
the corner of the degree square to a location, `corner` is where `location_offset` puts the corner
of a block, and `eastBlocks` is computed in `seek_offset`. -/
structure Geometry where
  gridSpacing : ℤ
  steps : Location → ℕ × ℕ
  corner : ℤ → ℤ → ℕ → ℕ → ℤ × ℤ
  eastBlocks : ℤ → ℤ → ℕ
  small : gridSpacing < 2 ^ 15

/-- `struct grid_info` without the fractions. -/
structure GridInfo where
  latDegrees : ℤ
  lonDegrees : ℤ
  gridLat : ℤ
  gridLon : ℤ
  gridIdxX : ℕ
  gridIdxY : ℕ
  idxX : ℕ
  idxY : ℕ

/-- The integer degrees at or below a coordinate. -/
def roundedDegrees (coordinate : ℤ) : ℤ :=
  (if coordinate < 0 then coordinate - 9999999 else coordinate).tdiv 10000000

/-- `calculate_grid_info`. The rounded latitude is an `int8_t` and the rounded longitude an
`int16_t`. -/
def calculateGridInfo (geometry : Geometry) (loc : Location) : GridInfo :=
  let latDegrees := (roundedDegrees loc.lat).bmod (2 ^ 8)
  let lonDegrees := (roundedDegrees loc.lng).bmod (2 ^ 16)
  let (idxX, idxY) := geometry.steps loc
  let gridIdxX := idxX / blockSpacingX % 2 ^ 16
  let gridIdxY := idxY / blockSpacingY % 2 ^ 16
  let ref := geometry.corner latDegrees lonDegrees gridIdxX gridIdxY
  { latDegrees := latDegrees
    lonDegrees := lonDegrees
    gridLat := ref.1
    gridLon := ref.2
    gridIdxX := gridIdxX
    gridIdxY := gridIdxY
    idxX := idxX % blockSpacingX
    idxY := idxY % blockSpacingY }

/-- The file that `open_file` opens and the offset that `seek_offset` moves to, a multiple of
the size of `grid_io_block`. -/
def Geometry.placeAt (geometry : Geometry) (latDegrees lonDegrees : ℤ) (gridIdxX gridIdxY : ℕ) :
    Place :=
  { south := latDegrees < 0
    latName := min latDegrees.natAbs 99
    west := lonDegrees < 0
    lonName := min lonDegrees.natAbs 999
    offset := (geometry.eastBlocks latDegrees lonDegrees * gridIdxX + gridIdxY) * 2048 % 2 ^ 32 }

/-- The place of a block, from the indices in the block. -/
def Geometry.placeOf (geometry : Geometry) (block : GridBlock) : Place :=
  geometry.placeAt block.latDegrees block.lonDegrees block.gridIdxX block.gridIdxY

/-- The place of the block around a location. -/
def Geometry.placeAround (geometry : Geometry) (loc : Location) : Place :=
  let info := calculateGridInfo geometry loc
  geometry.placeAt info.latDegrees info.lonDegrees info.gridIdxX info.gridIdxY

/-! ### The state -/

/-- `enum GridCacheState`. -/
inductive GridCacheState
  | invalid
  | diskWait
  | valid
  | dirty
  deriving DecidableEq

/-- `struct grid_cache`. -/
structure GridCache where
  grid : GridBlock
  state : GridCacheState
  lastAccessMs : ℕ

/-- `enum DiskIoState`. -/
inductive DiskIoState
  | idle
  | waitWrite
  | waitRead
  | doneRead
  | doneWrite
  deriving DecidableEq

/-- `TERRAIN_GRID_BLOCK_CACHE_SIZE`. -/
abbrev cacheSize : ℕ := 12

/-- The blocks in the files. -/
abbrev Disk := Place → Option GridBlock

/-- The cache, the block in flight and the disk. -/
structure State where
  cache : Fin cacheSize → GridCache
  diskIoState : DiskIoState
  diskBlock : GridBlock
  homeLoc : Location
  disk : Disk

/-- The state behind `allocate`. -/
def boot (disk : Disk) : State where
  cache := fun _ => ⟨.zero, .invalid, 0⟩
  diskIoState := .idle
  diskBlock := .zero
  homeLoc := ⟨0, 0⟩
  disk := disk

/-- The state with another cache entry. -/
def State.setEntry (state : State) (index : Fin cacheSize) (entry : GridCache) : State :=
  { state with cache := Function.update state.cache index entry }

/-! ### Looking for a block -/

/-- The comparison in `find_grid_cache`. -/
def HasGrid (geometry : Geometry) (info : GridInfo) (grid : GridBlock) : Prop :=
  grid.lat = info.gridLat ∧ grid.lon = info.gridLon ∧ (grid.spacing : ℤ) = geometry.gridSpacing

instance (geometry : Geometry) (info : GridInfo) (grid : GridBlock) :
    Decidable (HasGrid geometry info grid) :=
  inferInstanceAs (Decidable (_ ∧ _ ∧ _))

/-- How the loop of `find_grid_cache` ends. -/
inductive Search
  | found (index : Fin cacheSize)
  | oldest (index : Fin cacheSize)

/-- The loop of `find_grid_cache`, from the entries that are left and the oldest one so far. -/
def searchGrid (geometry : Geometry) (info : GridInfo) (cache : Fin cacheSize → GridCache) :
    List (Fin cacheSize) → Fin cacheSize → Search
  | [], oldest => .oldest oldest
  | index :: rest, oldest =>
    if HasGrid geometry info (cache index).grid then .found index
    else searchGrid geometry info cache rest
      (if (cache index).lastAccessMs < (cache oldest).lastAccessMs then index else oldest)

/-- The entry that `find_grid_cache` makes. -/
def newEntry (geometry : Geometry) (info : GridInfo) (now : ℕ) : GridCache where
  grid :=
    { GridBlock.zero with
      lat := info.gridLat
      lon := info.gridLon
      spacing := (geometry.gridSpacing % 2 ^ 16).toNat
      gridIdxX := info.gridIdxX
      gridIdxY := info.gridIdxY
      latDegrees := info.latDegrees
      lonDegrees := info.lonDegrees
      version := gridFormatVersion }
  state := .diskWait
  lastAccessMs := now

/-- `find_grid_cache`. -/
def findGridCache (geometry : Geometry) (state : State) (info : GridInfo) (now : ℕ) :
    State × Fin cacheSize :=
  match searchGrid geometry info state.cache (List.finRange cacheSize) 0 with
  | .found index =>
    (state.setEntry index { state.cache index with lastAccessMs := now }, index)
  | .oldest index => (state.setEntry index (newEntry geometry info now), index)

/-- What `height_amsl` comes to: nothing, the known height of the home position, or the four
heights around the location. -/
inductive HeightAnswer
  | unavailable
  | home
  | read (h00 h01 h10 h11 : ℤ)

/-- `height_amsl` up to the interpolation. -/
def heightAmsl (geometry : Geometry) (state : State) (enabled : Bool) (loc home : Location)
    (now : ℕ) : State × HeightAnswer :=
  if !enabled then (state, .unavailable)
  else if loc = state.homeLoc then (state, .home)
  else
    let info := calculateGridInfo geometry loc
    let (state, index) := findGridCache geometry state info now
    let grid := (state.cache index).grid
    if ¬ checkBitmap grid info.idxX info.idxY ∨ ¬ checkBitmap grid info.idxX (info.idxY + 1) ∨
        ¬ checkBitmap grid (info.idxX + 1) info.idxY ∨
        ¬ checkBitmap grid (info.idxX + 1) (info.idxY + 1) then
      (state, .unavailable)
    else
      (if loc = home then { state with homeLoc := loc } else state,
        .read (grid.height info.idxX info.idxY) (grid.height info.idxX (info.idxY + 1))
          (grid.height (info.idxX + 1) info.idxY) (grid.height (info.idxX + 1) (info.idxY + 1)))

/-! ### Heights from the ground station -/

/-- A TERRAIN_DATA packet. -/
structure Packet where
  lat : ℤ
  lon : ℤ
  gridSpacing : ℕ
  gridbit : ℕ
  data : ℕ → ℤ

/-- An assignment to an element of the height array. -/
def setHeight (height : ℕ → ℕ → ℤ) (x y : ℕ) (value : ℤ) : ℕ → ℕ → ℤ :=
  fun x' y' => if x' = x ∧ y' = y then value else height x' y'

/-- The inner loop of `handle_terrain_data`, over one row of a subgrid. -/
def storeRow (height : ℕ → ℕ → ℤ) (x idxY : ℕ) (row : ℕ → ℤ) (count : ℕ) : ℕ → ℕ → ℤ :=
  (List.range count).foldl (fun height y => setHeight height x (idxY + y) (row y)) height

/-- The two loops of `handle_terrain_data`. -/
def storeSubgrid (height : ℕ → ℕ → ℤ) (idxX idxY : ℕ) (data : ℕ → ℤ) (count : ℕ) :
    ℕ → ℕ → ℤ :=
  (List.range count).foldl (fun height x =>
    storeRow height (idxX + x) idxY (fun y => data (x * mavlinkSize + y)) mavlinkSize) height

/-- The comparison in `handle_terrain_data`. -/
def Packet.FitsGrid (geometry : Geometry) (packet : Packet) (grid : GridBlock) : Prop :=
  grid.lat = packet.lat ∧ grid.lon = packet.lon ∧ grid.spacing = packet.gridSpacing ∧
    geometry.gridSpacing = packet.gridSpacing ∧ packet.gridbit < gridBits

instance (geometry : Geometry) (packet : Packet) (grid : GridBlock) :
    Decidable (packet.FitsGrid geometry grid) :=
  inferInstanceAs (Decidable (_ ∧ _ ∧ _ ∧ _ ∧ _))

/-- The block with the heights of a packet. -/
def GridBlock.fill (grid : GridBlock) (packet : Packet) : GridBlock :=
  let idxX := packet.gridbit / blockMulY * mavlinkSize
  let idxY := packet.gridbit % blockMulY * mavlinkSize
  { grid with
    height := storeSubgrid grid.height idxX idxY packet.data mavlinkSize
    bitmap := grid.bitmap ||| 1 <<< packet.gridbit }

/-- `handle_terrain_data` up to its call of `update`, which schedules disk IO and looks up
heights. -/
def handleTerrainData (geometry : Geometry) (state : State) (packet : Packet) : State :=
  match (List.finRange cacheSize).find? fun index =>
      packet.FitsGrid geometry (state.cache index).grid with
  | none => state
  | some index =>
    state.setEntry index
      { state.cache index with
        grid := (state.cache index).grid.fill packet
        state := .dirty }

/-! ### Disk IO -/

/-- `find_io_idx`: the first entry of the block in flight in the given state, or else in any. -/
def State.findIoIdx (state : State) (wanted : GridCacheState) : Option (Fin cacheSize) :=
  ((List.finRange cacheSize).find? fun index =>
    state.diskBlock.lat = (state.cache index).grid.lat ∧
      state.diskBlock.lon = (state.cache index).grid.lon ∧
      (state.cache index).state = wanted).or
    ((List.finRange cacheSize).find? fun index =>
      state.diskBlock.lat = (state.cache index).grid.lat ∧
        state.diskBlock.lon = (state.cache index).grid.lon)

/-- The loop of `check_disk_read` and of `check_disk_write`: the first entry in a state. -/
def State.firstIn (state : State) (wanted : GridCacheState) : Option (Fin cacheSize) :=
  (List.finRange cacheSize).find? fun index => (state.cache index).state = wanted

/-- `check_disk_read`. -/
def checkDiskRead (state : State) : State :=
  match state.firstIn .diskWait with
  | none => state
  | some index =>
    { state with diskBlock := (state.cache index).grid, diskIoState := .waitRead }

/-- `check_disk_write`. -/
def checkDiskWrite (state : State) : State :=
  match state.firstIn .dirty with
  | none => state
  | some index =>
    { state with diskBlock := (state.cache index).grid, diskIoState := .waitWrite }

/-- The entry that a completed read was for, with the block that was read unless that is empty. -/
def GridCache.afterRead (entry : GridCache) (block : GridBlock) (now : ℕ) : GridCache where
  grid := if block.bitmap ≠ 0 then block else entry.grid
  state := .valid
  lastAccessMs := now

/-- The entry that a completed write was for. It becomes valid unless more grids have been added. -/
def GridCache.afterWrite (entry : GridCache) (block : GridBlock) : GridCache :=
  if entry.grid.bitmap = block.bitmap then { entry with state := .valid } else entry

/-- `schedule_disk_io`. -/
def scheduleDiskIo (state : State) (enabled : Bool) (now : ℕ) : State :=
  if !enabled then state
  else
    match state.diskIoState with
    | .idle =>
      let state := checkDiskRead state
      if state.diskIoState = .idle then checkDiskWrite state else state
    | .doneRead =>
      let state := match state.findIoIdx .diskWait with
        | none => state
        | some index =>
          state.setEntry index ((state.cache index).afterRead state.diskBlock now)
      { state with diskIoState := .idle }
    | .doneWrite =>
      let state := match state.findIoIdx .dirty with
        | none => state
        | some index => state.setEntry index ((state.cache index).afterWrite state.diskBlock)
      { state with diskIoState := .idle }
    | .waitWrite | .waitRead => state

/-- The checks of `read_block`: a block on the disk that is taken for the one at the corner. -/
def Geometry.Accepts (geometry : Geometry) (lat lon : ℤ) (block : GridBlock) : Prop :=
  ¬ (block.lat ≠ lat ∨ block.lon ≠ lon ∨ block.bitmap = 0 ∨
    (block.spacing : ℤ) ≠ geometry.gridSpacing ∨ block.version ≠ gridFormatVersion ∨
    block.crc ≠ getBlockCrc block)

instance (geometry : Geometry) (lat lon : ℤ) (block : GridBlock) :
    Decidable (geometry.Accepts lat lon block) :=
  inferInstanceAs (Decidable (¬ (_ ∨ _ ∨ _ ∨ _ ∨ _ ∨ _)))

/-- The block with its checksum. -/
def GridBlock.withCrc (block : GridBlock) : GridBlock := block.setCrc (getBlockCrc block)

/-- `write_block`. -/
def writeBlock (geometry : Geometry) (state : State) : State :=
  { state with
    diskBlock := state.diskBlock.withCrc
    disk := Function.update state.disk (geometry.placeOf state.diskBlock)
      (some state.diskBlock.withCrc)
    diskIoState := .doneWrite }

/-- What `read_block` leaves when there is no such block on the disk. -/
def emptyBlock (lat lon : ℤ) : GridBlock := { GridBlock.zero with lat := lat, lon := lon }

/-- The block that `read_block` gets. -/
def readResult (geometry : Geometry) (lat lon : ℤ) (content : Option GridBlock) : GridBlock :=
  match content with
  | none => emptyBlock lat lon
  | some block => if geometry.Accepts lat lon block then block else emptyBlock lat lon

/-- `read_block`. -/
def readBlock (geometry : Geometry) (state : State) : State :=
  { state with
    diskBlock := readResult geometry state.diskBlock.lat state.diskBlock.lon
      (state.disk (geometry.placeOf state.diskBlock))
    diskIoState := .doneRead }

/-- `io_timer`. -/
def ioTimer (geometry : Geometry) (state : State) : State :=
  match state.diskIoState with
  | .idle | .doneRead | .doneWrite => state
  | .waitWrite => writeBlock geometry state
  | .waitRead => readBlock geometry state

/-! ### Runs -/

/-- What the main thread and the IO thread do. -/
inductive Event
  | findGridCache (loc : Location) (now : ℕ)
  | heightAmsl (enabled : Bool) (loc home : Location) (now : ℕ)
  | handleTerrainData (packet : Packet)
  | scheduleDiskIo (enabled : Bool) (now : ℕ)
  | ioTimer

/-- The state, and the packets that have been handed to `handle_terrain_data`. -/
structure Session where
  state : State
  packets : List Packet

/-- The packet of an event. -/
def Event.packets : Event → List Packet
  | .handleTerrainData packet => [packet]
  | _ => []

/-- One event on the state. -/
def State.step (geometry : Geometry) (state : State) : Event → State
  | .findGridCache loc now =>
    (Terrain.findGridCache geometry state (calculateGridInfo geometry loc) now).1
  | .heightAmsl enabled loc home now =>
    (Terrain.heightAmsl geometry state enabled loc home now).1
  | .handleTerrainData packet => Terrain.handleTerrainData geometry state packet
  | .scheduleDiskIo enabled now => Terrain.scheduleDiskIo state enabled now
  | .ioTimer => Terrain.ioTimer geometry state

/-- One event. -/
def Session.step (geometry : Geometry) (session : Session) (event : Event) : Session where
  state := session.state.step geometry event
  packets := session.packets ++ event.packets

/-- The start with an empty cache and a disk. -/
def Session.start (disk : Disk) : Session := ⟨boot disk, []⟩

/-- The location that an event looks up. -/
def Event.location : Event → Option Location
  | .findGridCache loc _ => some loc
  | .heightAmsl _ loc _ _ => some loc
  | _ => none

/-- A location that a run looks up. -/
def LooksUp (events : List Event) (loc : Location) : Prop :=
  ∃ event ∈ events, event.location = some loc

end Urus.Terrain
