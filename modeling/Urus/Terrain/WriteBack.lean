/-
This file proves when the terrain cache keeps what it received. An entry that is valid must
have each of its subgrids on the disk, no two entries in use may hold the same block, and
every height that is read must have been received.

The one thing that can go wrong is the end of a transfer. The block in flight is matched
with a cache entry by its corner, in the state that the transfer started from or else in any
state. While it was in flight, packets may have filled the entry: then an empty block from
the disk makes an entry valid that was never written, and a block that was written makes an
entry valid that has the same bits but other heights. A block that was read may also
meet an entry that was never used, when its corner is at zero. `CompletesCleanly` rules
these cases out, and a run keeps everything exactly when every completion in it is clean.
-/

import Urus.Terrain.Heights
import Urus.Lib.Trace

namespace Urus.Terrain

/-! ### What is wanted -/

/-- Two blocks have the same heights in a subgrid. -/
def SameHeights (bit : ℕ) (first second : GridBlock) : Prop :=
  ∀ idxX, idxX < blockSizeX → ∀ idxY, idxY < blockSizeY → gridBitnum idxX idxY = bit →
    first.height idxX idxY = second.height idxX idxY

/-- A subgrid of a block is on the disk, in a block that `read_block` accepts. -/
def StoredOnDisk (geometry : Geometry) (disk : Disk) (grid : GridBlock) (bit : ℕ) : Prop :=
  ∃ block, disk (geometry.placeOf grid) = some block ∧
    geometry.Accepts grid.lat grid.lon block ∧ block.bitmap.testBit bit = true ∧
    SameHeights bit block grid

/-- A subgrid of a block is in the block that is being written. -/
def BeingWritten (state : State) (grid : GridBlock) (bit : ℕ) : Prop :=
  state.diskIoState = .waitWrite ∧ state.diskBlock.lat = grid.lat ∧
    state.diskBlock.lon = grid.lon ∧ state.diskBlock.bitmap.testBit bit = true ∧
    SameHeights bit state.diskBlock grid

/-- Every subgrid of a valid entry is on the disk or being written. -/
def ValidStored (geometry : Geometry) (state : State) : Prop :=
  ∀ index, (state.cache index).state = .valid → ∀ bit, bit < gridBits →
    (state.cache index).grid.bitmap.testBit bit = true →
    StoredOnDisk geometry state.disk (state.cache index).grid bit ∨
      BeingWritten state (state.cache index).grid bit

/-- Two blocks have the same corner and spacing. -/
def SameBlock (first second : GridBlock) : Prop :=
  first.lat = second.lat ∧ first.lon = second.lon ∧ first.spacing = second.spacing

/-- No two entries in use hold the same block. -/
def EntriesDistinct (cache : Fin cacheSize → GridCache) : Prop :=
  ∀ first second, first ≠ second → (cache first).state ≠ .invalid →
    (cache second).state ≠ .invalid → ¬ SameBlock (cache first).grid (cache second).grid

/-- What the cache is to keep, with the disk that the run started with. -/
structure Safe (geometry : Geometry) (disk : Disk) (session : Session) : Prop where
  validStored : ValidStored geometry session.state
  entriesDistinct : EntriesDistinct session.state.cache
  heightsReceived : HeightsReceived geometry disk session

/-- The end of a transfer meets an entry that it is right for. An empty block that was read meets an
entry without heights, another block that was read meets the only entry of this block, and a
block that was written meets no entry with the same bits and other heights. -/
def CompletesCleanly (state : State) : Prop :=
  match state.diskIoState with
  | .doneRead => ∀ index, state.findIoIdx .diskWait = some index →
    if state.diskBlock.bitmap = 0 then
      ∀ bit, bit < gridBits → (state.cache index).grid.bitmap.testBit bit = false
    else
      ∀ other, other ≠ index → (state.cache other).state ≠ .invalid →
        ¬ SameBlock (state.cache other).grid state.diskBlock
  | .doneWrite => ∀ index, state.findIoIdx .dirty = some index →
    (state.cache index).grid.bitmap = state.diskBlock.bitmap → ∀ bit, bit < gridBits →
      (state.cache index).grid.bitmap.testBit bit = true →
      SameHeights bit state.diskBlock (state.cache index).grid
  | _ => True

/-- A step is undisturbed unless it is the end of a transfer that does not complete cleanly. -/
def Undisturbed (session : Session) : Event → Prop
  | .scheduleDiskIo true _ => CompletesCleanly session.state
  | _ => True

/-- The corner of the block around a location. -/
def Geometry.cornerAround (geometry : Geometry) (loc : Location) : ℤ × ℤ :=
  ((calculateGridInfo geometry loc).gridLat, (calculateGridInfo geometry loc).gridLon)

/-- The blocks around the locations of a region have different places if they have different corners,
and each has one place. -/
def Geometry.DistinctBlocks (geometry : Geometry) (region : Location → Prop) : Prop :=
  ∀ loc loc', region loc → region loc' →
    (geometry.placeAround loc = geometry.placeAround loc' ↔
      geometry.cornerAround loc = geometry.cornerAround loc')

/-- A block that is read for a location of the region was written for this place. -/
def Geometry.DiskFiled (geometry : Geometry) (region : Location → Prop) (disk : Disk) : Prop :=
  ∀ loc block, region loc → disk (geometry.placeAround loc) = some block →
    geometry.Accepts (geometry.cornerAround loc).1 (geometry.cornerAround loc).2 block →
    geometry.placeOf block = geometry.placeAround loc

/-! ### The invariant -/

/-- A block for a location of the region. -/
structure Filed (geometry : Geometry) (region : Location → Prop) (block : GridBlock) : Prop where
  around : ∃ loc, region loc ∧ geometry.cornerAround loc = (block.lat, block.lon) ∧
    geometry.placeAround loc = geometry.placeOf block
  spacing : (block.spacing : ℤ) = geometry.gridSpacing
  version : block.version = gridFormatVersion

/-- An entry that holds a block. -/
def Live (geometry : Geometry) (region : Location → Prop) (entry : GridCache) : Prop :=
  Filed geometry region entry.grid ∧ entry.state ≠ .invalid

/-- An entry that has never held a block. A read of the block at zero may have made it valid. -/
def Blank (entry : GridCache) : Prop :=
  entry.grid = GridBlock.zero ∧ (entry.state = .invalid ∨ entry.state = .valid)

/-- What holds of the cache and the disk in every undisturbed run. A blank entry that has become valid
is the first of the blank entries. -/
structure CacheSound (geometry : Geometry) (region : Location → Prop)
    (cache : Fin cacheSize → GridCache) (disk : Disk) : Prop where
  filed : geometry.DiskFiled region disk
  entries : ∀ index, Blank (cache index) ∨ Live geometry region (cache index)
  distinct : EntriesDistinct cache
  blanks : ∀ first second, first ≠ second → Blank (cache first) → Blank (cache second) →
    (cache first).state = .valid → first < second
  filled : ∀ index, (cache index).state = .dirty → (cache index).grid.bitmap ≠ 0
  stored : ∀ index, (cache index).state = .valid → ∀ bit, bit < gridBits →
    (cache index).grid.bitmap.testBit bit = true →
    StoredOnDisk geometry disk (cache index).grid bit

/-- What holds of the block in flight. -/
def FlightSound (geometry : Geometry) (region : Location → Prop) (state : State) : Prop :=
  match state.diskIoState with
  | .idle => True
  | .waitWrite => Filed geometry region state.diskBlock ∧ state.diskBlock.bitmap ≠ 0 ∧
      ∀ index, (state.cache index).state = .valid →
        ¬ SameBlock (state.cache index).grid state.diskBlock
  | .doneWrite => Filed geometry region state.diskBlock ∧ state.diskBlock.bitmap ≠ 0 ∧
      state.disk (geometry.placeOf state.diskBlock) = some state.diskBlock ∧
      geometry.Accepts state.diskBlock.lat state.diskBlock.lon state.diskBlock
  | .waitRead => Filed geometry region state.diskBlock
  | .doneRead => ∃ loc, region loc ∧
      geometry.cornerAround loc = (state.diskBlock.lat, state.diskBlock.lon) ∧
      if state.diskBlock.bitmap = 0 then
        ∀ block, state.disk (geometry.placeAround loc) = some block →
          ¬ geometry.Accepts state.diskBlock.lat state.diskBlock.lon block
      else
        state.disk (geometry.placeAround loc) = some state.diskBlock ∧
          geometry.Accepts state.diskBlock.lat state.diskBlock.lon state.diskBlock

/-- The invariant of the undisturbed runs. -/
structure Sound (geometry : Geometry) (region : Location → Prop) (state : State) : Prop where
  cache : CacheSound geometry region state.cache state.disk
  flight : FlightSound geometry region state

variable {geometry : Geometry} {region : Location → Prop} {disk : Disk} {state : State}
  {block first second : GridBlock} {cache : Fin cacheSize → GridCache}

/-! ### Blocks and places -/

theorem Filed.place_iff (distinct : geometry.DistinctBlocks region)
    (one : Filed geometry region first) (other : Filed geometry region second) :
    geometry.placeOf first = geometry.placeOf second ↔
      first.lat = second.lat ∧ first.lon = second.lon := by
  obtain ⟨loc, inside, corner, place⟩ := one.around
  obtain ⟨loc', inside', corner', place'⟩ := other.around
  rw [← place, ← place', distinct loc loc' inside inside', corner, corner', Prod.mk.injEq]

theorem Filed.sameBlock (one : Filed geometry region first) (other : Filed geometry region second)
    (lat : first.lat = second.lat) (lon : first.lon = second.lon) : SameBlock first second :=
  ⟨lat, lon, Int.ofNat.inj (one.spacing.trans other.spacing.symm)⟩

theorem SameBlock.symm (same : SameBlock first second) : SameBlock second first :=
  ⟨same.1.symm, same.2.1.symm, same.2.2.symm⟩

variable {loc : Location} {session : Session}

theorem Geometry.DiskFiled.filed (onDisk : geometry.DiskFiled region disk) (inside : region loc)
    (here : disk (geometry.placeAround loc) = some block)
    (accepted : geometry.Accepts (geometry.cornerAround loc).1 (geometry.cornerAround loc).2 block)
    : Filed geometry region block := by
  have place := onDisk loc block inside here accepted
  obtain ⟨lat, lon⟩ := accepted.lat_lon
  rw [Geometry.Accepts, not_or, not_or, not_or, not_or, not_or] at accepted
  obtain ⟨-, -, -, spacing, version, -⟩ := accepted
  rw [not_not] at spacing version
  exact ⟨⟨loc, inside, Prod.ext lat.symm lon.symm, place.symm⟩, spacing, version⟩

theorem newEntry_spacing (positive : 0 < geometry.gridSpacing) (info : GridInfo) (now : ℕ) :
    ((newEntry geometry info now).grid.spacing : ℤ) = geometry.gridSpacing := by
  have small := geometry.small
  change (((geometry.gridSpacing % 2 ^ 16).toNat : ℕ) : ℤ) = geometry.gridSpacing
  rw [Int.emod_eq_of_lt positive.le (by omega), Int.toNat_of_nonneg positive.le]

theorem newEntry_filed (positive : 0 < geometry.gridSpacing) (inside : region loc) (now : ℕ) :
    Filed geometry region (newEntry geometry (calculateGridInfo geometry loc) now).grid :=
  ⟨⟨loc, inside, rfl, rfl⟩, newEntry_spacing positive _ now, rfl⟩

theorem Blank.not_sameBlock (positive : 0 < geometry.gridSpacing) {entry : GridCache}
    (blank : Blank entry) (filed : Filed geometry region block) :
    ¬ SameBlock entry.grid block := by
  rintro ⟨-, -, spacing⟩
  have wide := filed.spacing
  rw [← spacing, blank.1] at wide
  exact positive.ne wide

theorem Blank.no_bits {entry : GridCache} (blank : Blank entry) (bit : ℕ) :
    entry.grid.bitmap.testBit bit = false := by
  rw [blank.1]
  exact Nat.zero_testBit bit

/-- An entry with the corner and spacing of a filed block holds a block itself. -/
theorem CacheSound.live (sound : CacheSound geometry region cache disk) {index : Fin cacheSize}
    (positive : 0 < geometry.gridSpacing)
    (spacing : ((cache index).grid.spacing : ℤ) = geometry.gridSpacing) :
    Live geometry region (cache index) := by
  refine (sound.entries index).resolve_left fun blank => ?_
  rw [blank.1] at spacing
  exact positive.ne spacing

theorem CacheSound.live_of_state (sound : CacheSound geometry region cache disk)
    {index : Fin cacheSize} {inUse : GridCacheState} (here : (cache index).state = inUse)
    (used : inUse ≠ .invalid) (changing : inUse ≠ .valid) :
    Live geometry region (cache index) := by
  refine (sound.entries index).resolve_left fun blank => ?_
  rcases blank.2 with unused | valid
  · exact used (here.symm.trans unused)
  · exact changing (here.symm.trans valid)

/-! ### One entry changes -/

theorem distinct_update {cache : Fin cacheSize → GridCache} (distinct : EntriesDistinct cache)
    {index : Fin cacheSize} {entry : GridCache}
    (fresh : ∀ other, other ≠ index → (cache other).state ≠ .invalid →
      ¬ SameBlock (cache other).grid entry.grid) :
    EntriesDistinct (Function.update cache index entry) := by
  intro one other apart used used'
  have here : Function.update cache index entry index = entry := Function.update_self _ _ _
  have there : ∀ other, other ≠ index → Function.update cache index entry other = cache other :=
    fun other apart => Function.update_of_ne apart _ _
  by_cases same : one = index
  · have apart' : other ≠ index := fun equal => apart (same.trans equal.symm)
    rw [there other apart'] at used' ⊢
    rw [same, here]
    exact fun both => fresh other apart' used' both.symm
  · rw [there one same] at used ⊢
    by_cases same' : other = index
    · rw [same', here]
      exact fresh one same used
    · rw [there other same'] at used' ⊢
      exact distinct one other apart used used'

/-- An entry may be replaced by one that holds another block than the other entries in use, and that is
on the disk if it is valid. -/
theorem CacheSound.update (sound : CacheSound geometry region cache disk) {index : Fin cacheSize}
    {entry : GridCache} (live : Live geometry region entry) (positive : 0 < geometry.gridSpacing)
    (fresh : ∀ other, other ≠ index → (cache other).state ≠ .invalid →
      ¬ SameBlock (cache other).grid entry.grid)
    (filled : entry.state = .dirty → entry.grid.bitmap ≠ 0)
    (stored : entry.state = .valid → ∀ bit, bit < gridBits →
      entry.grid.bitmap.testBit bit = true → StoredOnDisk geometry disk entry.grid bit) :
    CacheSound geometry region (Function.update cache index entry) disk := by
  have here : Function.update cache index entry index = entry := Function.update_self _ _ _
  have there : ∀ other, other ≠ index → Function.update cache index entry other = cache other :=
    fun other apart => Function.update_of_ne apart _ _
  have notBlank : ¬ Blank entry := fun blank => by
    have wide := live.1.spacing
    rw [blank.1] at wide
    exact positive.ne wide
  refine ⟨sound.filed, fun other => ?_, distinct_update sound.distinct fresh,
    fun one other apart blank blank' valid => ?_, fun other => ?_, fun other => ?_⟩
  · by_cases same : other = index
    · rw [same, here]
      exact Or.inr live
    · rw [there other same]
      exact sound.entries other
  · have one' : one ≠ index := fun equal => notBlank (by rwa [equal, here] at blank)
    have other' : other ≠ index := fun equal => notBlank (by rwa [equal, here] at blank')
    rw [there one one'] at blank valid
    rw [there other other'] at blank'
    exact sound.blanks one other apart blank blank' valid
  · by_cases same : other = index
    · rw [same, here]
      exact filled
    · rw [there other same]
      exact sound.filled other
  · by_cases same : other = index
    · rw [same, here]
      exact stored
    · rw [there other same]
      exact sound.stored other

/-- The first blank entry may become valid. -/
theorem CacheSound.update_blank (sound : CacheSound geometry region cache disk)
    {index : Fin cacheSize} (positive : 0 < geometry.gridSpacing) (blank : Blank (cache index))
    (lowest : ∀ other, Blank (cache other) → index ≤ other) (now : ℕ) :
    CacheSound geometry region
      (Function.update cache index ⟨(cache index).grid, .valid, now⟩) disk := by
  have alone : ∀ other, other ≠ index → Blank (cache other) → (cache other).state ≠ .valid :=
    fun other apart blank' valid =>
      absurd (sound.blanks other index apart blank' blank valid) (lowest other blank').not_gt
  generalize entered : (⟨(cache index).grid, .valid, now⟩ : GridCache) = entry
  have grid : entry.grid = (cache index).grid := by rw [← entered]
  have valid : entry.state = .valid := by rw [← entered]
  have blankEntry : Blank entry := ⟨grid.trans blank.1, Or.inr valid⟩
  have here : Function.update cache index entry index = entry := Function.update_self _ _ _
  have there : ∀ other, other ≠ index → Function.update cache index entry other = cache other :=
    fun other apart => Function.update_of_ne apart _ _
  have fresh : ∀ other, other ≠ index → (cache other).state ≠ .invalid →
      ¬ SameBlock (cache other).grid entry.grid := by
    intro other apart used both
    rcases sound.entries other with blank' | live
    · exact absurd (blank'.2.resolve_left used) (alone other apart blank')
    · exact blankEntry.not_sameBlock positive live.1 both.symm
  refine ⟨sound.filed, fun other => ?_, distinct_update sound.distinct fresh,
    fun one other apart blank blank' valid => ?_, fun other dirty => ?_,
    fun other => ?_⟩
  · by_cases same : other = index
    · rw [same, here]
      exact Or.inl blankEntry
    · rw [there other same]
      exact sound.entries other
  · by_cases same : one = index
    · have apart' : other ≠ index := fun equal => apart (same.trans equal.symm)
      rw [there other apart'] at blank'
      rw [same]
      exact lt_of_le_of_ne (lowest other blank') (Ne.symm apart')
    · rw [there one same] at blank valid
      exact absurd valid (alone one same blank)
  · by_cases same : other = index
    · rw [same, here, valid] at dirty
      exact nomatch dirty
    · rw [there other same] at dirty ⊢
      exact sound.filled other dirty
  · by_cases same : other = index
    · rw [same, here]
      intro _ bit _ set
      rw [blankEntry.no_bits bit] at set
      exact absurd set (by decide)
    · rw [there other same]
      exact sound.stored other

/-! ### The steps -/

theorem FlightSound.setEntry (flight : FlightSound geometry region state)
    {index : Fin cacheSize} {entry : GridCache}
    (kept : state.diskIoState = .waitWrite → entry.state = .valid →
      ¬ SameBlock entry.grid state.diskBlock) :
    FlightSound geometry region (state.setEntry index entry) := by
  have unchanged : (state.setEntry index entry).diskIoState = state.diskIoState := rfl
  cases io : state.diskIoState with
  | idle =>
    rw [FlightSound, unchanged, io]
    trivial
  | waitRead =>
    rw [FlightSound, io] at flight
    rw [FlightSound, unchanged, io]
    exact flight
  | doneRead =>
    rw [FlightSound, io] at flight
    rw [FlightSound, unchanged, io]
    exact flight
  | doneWrite =>
    rw [FlightSound, io] at flight
    rw [FlightSound, unchanged, io]
    exact flight
  | waitWrite =>
    rw [FlightSound, io] at flight
    rw [FlightSound, unchanged, io]
    exact ⟨flight.1, flight.2.1, setEntry_forall (fun _ entry =>
      entry.state = .valid → ¬ SameBlock entry.grid state.diskBlock) (kept io)
      fun other _ => flight.2.2 other⟩

theorem Sound.homeLoc (sound : Sound geometry region state) (homeLoc : Location) :
    Sound geometry region { state with homeLoc := homeLoc } :=
  ⟨sound.cache, sound.flight⟩

/-- A transfer has ended. -/
theorem CacheSound.idle (sound : CacheSound geometry region state.cache state.disk) :
    Sound geometry region { state with diskIoState := .idle } :=
  ⟨sound, trivial⟩

theorem Sound.find (sound : Sound geometry region state) (positive : 0 < geometry.gridSpacing)
    (inside : region loc) (now : ℕ) :
    Sound geometry region (findGridCache geometry state (calculateGridInfo geometry loc) now).1 := by
  rcases findGridCache_cases geometry state (calculateGridInfo geometry loc) now with
    ⟨index, has, same⟩ | ⟨index, missing, same⟩
  · rw [same]
    have live := sound.cache.live positive has.2.2
    have fresh : ∀ other, other ≠ index → (state.cache other).state ≠ .invalid →
        ¬ SameBlock (state.cache other).grid (state.cache index).grid :=
      fun other apart used => sound.cache.distinct other index apart used live.2
    refine ⟨sound.cache.update live positive fresh (sound.cache.filled index)
      (sound.cache.stored index), sound.flight.setEntry fun waiting valid => ?_⟩
    · have flight := sound.flight
      rw [FlightSound, waiting] at flight
      exact flight.2.2 index valid
  · rw [same]
    have live : Live geometry region (newEntry geometry (calculateGridInfo geometry loc) now) :=
      ⟨newEntry_filed positive inside now, fun impossible => nomatch impossible⟩
    refine ⟨sound.cache.update live positive (fun other apart used both => missing other ?_)
      (fun impossible => nomatch impossible) (fun impossible => nomatch impossible),
      sound.flight.setEntry fun _ impossible => nomatch impossible⟩
    refine ⟨both.1, both.2.1, ?_⟩
    rw [both.2.2]
    exact newEntry_spacing positive _ now

theorem fill_bitmap_ne_zero (grid : GridBlock) (packet : Packet) :
    (grid.fill packet).bitmap ≠ 0 := by
  intro zero
  have set := (fill_testBit grid packet packet.gridbit).mpr (Or.inr rfl)
  rw [zero, Nat.zero_testBit] at set
  exact absurd set (by decide)

theorem Sound.data (sound : Sound geometry region state) (positive : 0 < geometry.gridSpacing)
    (packet : Packet) : Sound geometry region (handleTerrainData geometry state packet) := by
  rw [handleTerrainData]
  split
  · exact sound
  · rename_i index found
    have fits := find_meets found
    have spacing : ((state.cache index).grid.spacing : ℤ) = geometry.gridSpacing := by
      rw [fits.2.2.1, fits.2.2.2.1]
    have live := sound.cache.live positive spacing
    have filed : Filed geometry region ((state.cache index).grid.fill packet) :=
      ⟨live.1.around, live.1.spacing, live.1.version⟩
    refine ⟨sound.cache.update ⟨filed, fun impossible => by cases impossible⟩ positive
      (fun other apart used => ?_) (fun _ => fill_bitmap_ne_zero _ packet)
      (fun impossible => by cases impossible),
      sound.flight.setEntry fun _ impossible => by cases impossible⟩
    exact sound.cache.distinct other index apart used live.2

/-- The entry that `find_io_idx` gives has the corner of the block in flight, and is in the wanted
state or the first entry with this corner. -/
theorem findIoIdx_some {wanted : GridCacheState} {index : Fin cacheSize}
    (found : state.findIoIdx wanted = some index) :
    (state.diskBlock.lat = (state.cache index).grid.lat ∧
      state.diskBlock.lon = (state.cache index).grid.lon) ∧
    ((state.cache index).state = wanted ∨
      ∀ other, state.diskBlock.lat = (state.cache other).grid.lat →
        state.diskBlock.lon = (state.cache other).grid.lon → index ≤ other) := by
  rw [State.findIoIdx, Option.or_eq_some_iff] at found
  rcases found with inState | ⟨-, any⟩
  · obtain ⟨lat, lon, here⟩ := find_meets inState
    exact ⟨⟨lat, lon⟩, Or.inl here⟩
  · refine ⟨find_meets any, Or.inr fun other lat lon => ?_⟩
    obtain ⟨-, position, bound, at_, before⟩ := List.find?_eq_some_iff_getElem.mp any
    rw [List.getElem_finRange] at at_
    by_contra lower
    have smaller : other.val < position := by
      have same : index.val = position := by rw [← at_]; rfl
      omega
    have missed := before other.val smaller
    rw [List.getElem_finRange] at missed
    simp only [Bool.not_eq_true', decide_eq_false_iff_not] at missed
    exact missed ⟨lat, lon⟩

section

variable (sound : Sound geometry region state)

include sound

theorem Sound.startTransfer (idle : state.diskIoState = .idle) :
    Sound geometry region
      (if (checkDiskRead state).diskIoState = .idle then checkDiskWrite (checkDiskRead state)
        else checkDiskRead state) := by
  cases reading : state.firstIn .diskWait with
  | some index =>
    have live := sound.cache.live_of_state (find_meets reading) (by decide) (by decide)
    have started : checkDiskRead state =
        { state with diskBlock := (state.cache index).grid, diskIoState := .waitRead } := by
      rw [checkDiskRead, reading]
    rw [started, if_neg fun impossible => by cases impossible]
    exact ⟨sound.cache, live.1⟩
  | none =>
    have same : checkDiskRead state = state := by rw [checkDiskRead, reading]
    rw [same, if_pos idle]
    cases writing : state.firstIn .dirty with
    | none =>
      have same' : checkDiskWrite state = state := by rw [checkDiskWrite, writing]
      rw [same']
      exact sound
    | some index =>
      have dirty := find_meets writing
      have live := sound.cache.live_of_state dirty (by decide) (by decide)
      have started : checkDiskWrite state =
          { state with diskBlock := (state.cache index).grid, diskIoState := .waitWrite } := by
        rw [checkDiskWrite, writing]
      rw [started]
      refine ⟨sound.cache, live.1, sound.cache.filled index dirty, fun other valid => ?_⟩
      have apart : other ≠ index := fun same => by
        rw [same, dirty] at valid
        cases valid
      exact sound.cache.distinct other index apart (by rw [valid]; decide) live.2

theorem Sound.readDone (positive : 0 < geometry.gridSpacing)
    (reading : state.diskIoState = .doneRead) (clean : CompletesCleanly state)
    {index : Fin cacheSize} (found : state.findIoIdx .diskWait = some index) (now : ℕ) :
    CacheSound geometry region
      (Function.update state.cache index
        ((state.cache index).afterRead state.diskBlock now)) state.disk := by
  have flight := sound.flight
  rw [FlightSound, reading] at flight
  obtain ⟨loc, inside, corner, content⟩ := flight
  rw [CompletesCleanly, reading] at clean
  have met := clean index found
  obtain ⟨⟨lat, lon⟩, which⟩ := findIoIdx_some found
  by_cases empty : state.diskBlock.bitmap = 0
  · rw [if_pos empty] at met
    have entered : (state.cache index).afterRead state.diskBlock now =
        ⟨(state.cache index).grid, .valid, now⟩ := by
      rw [GridCache.afterRead, if_neg (not_not.mpr empty)]
    rw [entered]
    rcases sound.cache.entries index with blank | live
    · refine sound.cache.update_blank positive blank (fun other blank' => ?_) now
      rcases which with waiting | lowest
      · rcases blank.2 with unused | valid
        · cases unused.symm.trans waiting
        · cases valid.symm.trans waiting
      · refine lowest other ?_ ?_
        · rw [lat, blank.1, blank'.1]
        · rw [lon, blank.1, blank'.1]
    · refine sound.cache.update ⟨live.1, fun impossible => by cases impossible⟩ positive
        (fun other apart used => sound.cache.distinct other index apart used live.2)
        (fun impossible => by cases impossible) fun _ bit used set => ?_
      exact absurd ((met bit used).symm.trans set) (by decide)
  · rw [if_neg empty] at met content
    have entered : (state.cache index).afterRead state.diskBlock now =
        ⟨state.diskBlock, .valid, now⟩ := by
      rw [GridCache.afterRead, if_pos empty]
    have accepted : geometry.Accepts (geometry.cornerAround loc).1 (geometry.cornerAround loc).2
        state.diskBlock := by
      rw [corner]
      exact content.2
    have filed := sound.cache.filed.filed inside content.1 accepted
    have place : geometry.placeOf state.diskBlock = geometry.placeAround loc :=
      sound.cache.filed loc _ inside content.1 accepted
    rw [entered]
    refine sound.cache.update ⟨filed, fun impossible => by cases impossible⟩ positive met
      (fun impossible => by cases impossible) fun _ bit used set => ?_
    refine ⟨state.diskBlock, ?_, content.2, set, fun _ _ _ _ _ => rfl⟩
    rw [place]
    exact content.1

theorem Sound.writeDone
    (positive : 0 < geometry.gridSpacing) (distinct : geometry.DistinctBlocks region)
    (writing : state.diskIoState = .doneWrite) (clean : CompletesCleanly state)
    {index : Fin cacheSize} (found : state.findIoIdx .dirty = some index) :
    CacheSound geometry region
      (Function.update state.cache index
        ((state.cache index).afterWrite state.diskBlock)) state.disk := by
  have flight := sound.flight
  rw [FlightSound, writing] at flight
  obtain ⟨filed, bits, onDisk, accepted⟩ := flight
  rw [CompletesCleanly, writing] at clean
  obtain ⟨⟨lat, lon⟩, -⟩ := findIoIdx_some found
  by_cases same : (state.cache index).grid.bitmap = state.diskBlock.bitmap
  · have entered : (state.cache index).afterWrite state.diskBlock =
        { state.cache index with state := .valid } := if_pos same
    have live : Live geometry region (state.cache index) := by
      refine (sound.cache.entries index).resolve_left fun blank => bits ?_
      rw [← same, blank.1]
      rfl
    rw [entered]
    refine sound.cache.update ⟨live.1, fun impossible => nomatch impossible⟩ positive
      (fun other apart used => sound.cache.distinct other index apart used live.2)
      (fun impossible => nomatch impossible) fun _ bit used set => ?_
    refine ⟨state.diskBlock, ?_, ?_, ?_, clean index found same bit used set⟩
    · change state.disk (geometry.placeOf (state.cache index).grid) = _
      rw [← (filed.place_iff distinct live.1).mpr ⟨lat, lon⟩]
      exact onDisk
    · change geometry.Accepts (state.cache index).grid.lat (state.cache index).grid.lon _
      rw [← lat, ← lon]
      exact accepted
    · rw [← same]
      exact set
  · have entered : (state.cache index).afterWrite state.diskBlock = state.cache index :=
      if_neg same
    rw [entered, Function.update_eq_self]
    exact sound.cache

theorem Sound.schedule (positive : 0 < geometry.gridSpacing)
    (distinct : geometry.DistinctBlocks region) (clean : CompletesCleanly state) (now : ℕ) :
    Sound geometry region (scheduleDiskIo state true now) := by
  rw [scheduleDiskIo, if_neg (by decide)]
  cases io : state.diskIoState with
  | idle => exact sound.startTransfer io
  | waitWrite => exact sound
  | waitRead => exact sound
  | doneRead =>
    cases found : state.findIoIdx .diskWait with
    | none => exact sound.cache.idle
    | some index => exact (sound.readDone positive io clean found now).idle
  | doneWrite =>
    cases found : state.findIoIdx .dirty with
    | none => exact sound.cache.idle
    | some index => exact (sound.writeDone positive distinct io clean found).idle

end

theorem getBlockCrc_withCrc (block : GridBlock) : getBlockCrc block.withCrc = getBlockCrc block := by
  rw [getBlockCrc_eq block.withCrc, getBlockCrc_eq block, GridBlock.withCrc,
    GridBlock.setCrc_setCrc]

theorem withCrc_crc (block : GridBlock) : block.withCrc.crc = getBlockCrc block.withCrc := by
  rw [getBlockCrc_withCrc, GridBlock.withCrc, GridBlock.setCrc_crc]

theorem Filed.setCrc (filed : Filed geometry region block) (crc : ℕ) :
    Filed geometry region (block.setCrc crc) := ⟨filed.around, filed.spacing, filed.version⟩

theorem placeOf_setCrc (geometry : Geometry) (block : GridBlock) (crc : ℕ) :
    geometry.placeOf (block.setCrc crc) = geometry.placeOf block := rfl

theorem setCrc_bitmap (block : GridBlock) (crc : ℕ) :
    (block.setCrc crc).bitmap = block.bitmap := rfl

theorem Filed.accepts (filed : Filed geometry region block) (bits : block.bitmap ≠ 0) {crc : ℕ}
    (right : (block.setCrc crc).crc = getBlockCrc (block.setCrc crc)) :
    geometry.Accepts block.lat block.lon (block.setCrc crc) := by
  rintro (lat | lon | empty | spacing | version | wrong)
  · exact lat rfl
  · exact lon rfl
  · exact bits empty
  · exact spacing filed.spacing
  · exact version filed.version
  · exact wrong right

/-- The checksum of a block that is written is right. -/
theorem Filed.accepted (filed : Filed geometry region block) (bits : block.bitmap ≠ 0) :
    geometry.Accepts block.withCrc.lat block.withCrc.lon block.withCrc := by
  have right := withCrc_crc block
  rw [GridBlock.withCrc] at right ⊢
  exact filed.accepts bits right

theorem Sound.write (sound : Sound geometry region state)
    (distinct : geometry.DistinctBlocks region) (writing : state.diskIoState = .waitWrite) :
    Sound geometry region (writeBlock geometry state) := by
  have flight := sound.flight
  rw [FlightSound, writing] at flight
  obtain ⟨filed, bits, apart⟩ := flight
  have accepted := filed.accepted bits
  have written : (writeBlock geometry state).diskBlock = state.diskBlock.withCrc := rfl
  refine ⟨⟨?_, sound.cache.entries, sound.cache.distinct, sound.cache.blanks, sound.cache.filled,
    ?_⟩, ?_⟩
  · intro loc block inside here accepts
    rw [writeBlock_disk] at here
    split at here
    · rename_i same
      rw [← Option.some.inj here, GridBlock.withCrc, placeOf_setCrc]
      exact same.symm
    · exact sound.cache.filed loc block inside here accepts
  · intro index valid bit used set
    have live : Live geometry region (state.cache index) := by
      refine (sound.cache.entries index).resolve_left fun blank => ?_
      exact absurd ((blank.no_bits bit).symm.trans set) (by decide)
    obtain ⟨block, here, rest⟩ := sound.cache.stored index valid bit used set
    refine ⟨block, ?_, rest⟩
    rw [writeBlock_disk, if_neg]
    · exact here
    · intro same
      obtain ⟨lat, lon⟩ := (live.1.place_iff distinct filed).mp same
      exact apart index valid (live.1.sameBlock filed lat lon)
  · refine ⟨filed.setCrc _, ?_, ?_, accepted⟩
    · rw [written, GridBlock.withCrc, setCrc_bitmap]
      exact bits
    · rw [writeBlock_disk, written, GridBlock.withCrc, placeOf_setCrc]
      exact if_pos rfl

theorem Sound.read (sound : Sound geometry region state) (reading : state.diskIoState = .waitRead) :
    Sound geometry region (readBlock geometry state) := by
  have flight := sound.flight
  rw [FlightSound, reading] at flight
  obtain ⟨loc, inside, corner, place⟩ := flight.around
  refine ⟨sound.cache, loc, inside, ?_⟩
  change _ = ((readResult _ _ _ _).lat, (readResult _ _ _ _).lon) ∧
    if (readResult _ _ _ _).bitmap = 0 then _ else _
  rw [place]
  rcases readResult_cases geometry state.diskBlock.lat state.diskBlock.lon
    (state.disk (geometry.placeOf state.diskBlock)) with
    ⟨block, here, accepted, same⟩ | ⟨missing, same⟩
  · obtain ⟨lat, lon⟩ := accepted.lat_lon
    have bits : block.bitmap ≠ 0 := fun empty => accepted (Or.inr (Or.inr (Or.inl empty)))
    have result : (readBlock geometry state).diskBlock = block := same
    rw [result, same, lat, lon, if_neg bits]
    exact ⟨corner, here, accepted⟩
  · have result : (readBlock geometry state).diskBlock =
        emptyBlock state.diskBlock.lat state.diskBlock.lon := same
    rw [result, same]
    exact ⟨corner, (if_pos rfl).mpr missing⟩

theorem Sound.timer (sound : Sound geometry region state)
    (distinct : geometry.DistinctBlocks region) :
    Sound geometry region (ioTimer geometry state) := by
  rw [ioTimer]
  split
  · exact sound
  · exact sound
  · exact sound
  · rename_i writing
    exact sound.write distinct writing
  · rename_i reading
    exact sound.read reading

theorem Sound.step (sound : Sound geometry region session.state)
    (positive : 0 < geometry.gridSpacing) (distinct : geometry.DistinctBlocks region)
    {event : Event} (inside : ∀ loc, event.location = some loc → region loc)
    (undisturbed : Undisturbed session event) :
    Sound geometry region (session.step geometry event).state := by
  cases event with
  | findGridCache loc now => exact sound.find positive (inside loc rfl) now
  | heightAmsl enabled loc home now =>
    change Sound geometry region (heightAmsl _ _ _ _ _ _).1
    rcases heightAmsl_state geometry session.state enabled loc home now with
      same | ⟨homeLoc, same⟩
    · rw [same]
      exact sound
    · rw [same]
      exact (sound.find positive (inside loc rfl) now).homeLoc homeLoc
  | handleTerrainData packet => exact sound.data positive packet
  | scheduleDiskIo enabled now =>
    cases enabled with
    | false => exact sound
    | true => exact sound.schedule positive distinct undisturbed now
  | ioTimer => exact sound.timer distinct

theorem start_sound (onDisk : geometry.DiskFiled region disk) :
    Sound geometry region (boot disk) where
  cache :=
    { filed := onDisk
      entries := fun _ => Or.inl ⟨rfl, Or.inl rfl⟩
      distinct := fun _ _ _ used => absurd rfl used
      blanks := fun _ _ _ _ _ impossible => nomatch impossible
      filled := fun _ impossible => nomatch impossible
      stored := fun _ impossible => nomatch impossible }
  flight := trivial

/-! ### The exact condition -/

/-- An entry with a bit holds a block. -/
theorem Sound.live_of_bit (sound : Sound geometry region state) {index : Fin cacheSize} {bit : ℕ}
    (set : (state.cache index).grid.bitmap.testBit bit = true) :
    Live geometry region (state.cache index) := by
  refine (sound.cache.entries index).resolve_left fun blank => ?_
  exact absurd ((blank.no_bits bit).symm.trans set) (by decide)

/-- The end of a transfer behind which the cache has kept everything was clean. -/
theorem Sound.clean (sound : Sound geometry region state)
    (distinct : geometry.DistinctBlocks region) {now : ℕ}
    (valid : ValidStored geometry (scheduleDiskIo state true now))
    (apart : EntriesDistinct (scheduleDiskIo state true now).cache) : CompletesCleanly state := by
  have flight := sound.flight
  cases io : state.diskIoState with
  | idle =>
    rw [CompletesCleanly, io]
    trivial
  | waitWrite =>
    rw [CompletesCleanly, io]
    trivial
  | waitRead =>
    rw [CompletesCleanly, io]
    trivial
  | doneRead =>
    rw [CompletesCleanly, io]
    rw [FlightSound, io] at flight
    obtain ⟨loc, inside, corner, content⟩ := flight
    intro index found
    obtain ⟨⟨lat, lon⟩, -⟩ := findIoIdx_some found
    have next : scheduleDiskIo state true now =
        { state.setEntry index ((state.cache index).afterRead state.diskBlock now) with
          diskIoState := .idle } := by
      rw [scheduleDiskIo, if_neg (by decide), io]
      rw [found]
    rw [next] at valid apart
    by_cases empty : state.diskBlock.bitmap = 0
    · rw [if_pos empty] at content ⊢
      have entered : (state.cache index).afterRead state.diskBlock now =
          ⟨(state.cache index).grid, .valid, now⟩ := by
        rw [GridCache.afterRead, if_neg (not_not.mpr empty)]
      intro bit used
      by_contra set
      rw [Bool.not_eq_false] at set
      obtain ⟨loc', inside', corner', place'⟩ := (sound.live_of_bit set).1.around
      have kept := valid index
      rw [setEntry_self, entered] at kept
      rcases kept rfl bit used set with ⟨block, here, accepted, -⟩ | ⟨waiting, -⟩
      · have same : geometry.placeOf (state.cache index).grid = geometry.placeAround loc := by
          rw [← place', distinct loc' loc inside' inside, corner, corner', lat, lon]
        rw [same] at here
        refine content block here ?_
        rw [lat, lon]
        exact accepted
      · cases waiting
    · rw [if_neg empty]
      have entered : (state.cache index).afterRead state.diskBlock now =
          ⟨state.diskBlock, .valid, now⟩ := by
        rw [GridCache.afterRead, if_pos empty]
      intro other away used same
      have kept := apart other index away
      rw [setEntry_self, setEntry_other _ _ away, entered] at kept
      exact kept used (fun impossible => by cases impossible) same
  | doneWrite =>
    rw [CompletesCleanly, io]
    rw [FlightSound, io] at flight
    obtain ⟨filed, -, onDisk, -⟩ := flight
    intro index found same bit used set
    obtain ⟨⟨lat, lon⟩, -⟩ := findIoIdx_some found
    have next : scheduleDiskIo state true now =
        { state.setEntry index ((state.cache index).afterWrite state.diskBlock) with
          diskIoState := .idle } := by
      rw [scheduleDiskIo, if_neg (by decide), io]
      rw [found]
    have entered : (state.cache index).afterWrite state.diskBlock =
        { state.cache index with state := .valid } := if_pos same
    have place := (filed.place_iff distinct (sound.live_of_bit set).1).mpr ⟨lat, lon⟩
    have kept := valid index
    rw [next] at kept
    rw [setEntry_self, entered] at kept
    rcases kept rfl bit used set with ⟨block, here, -, -, alike⟩ | ⟨waiting, -⟩
    · change state.disk (geometry.placeOf (state.cache index).grid) = _ at here
      rw [← place, onDisk] at here
      rw [Option.some.inj here]
      exact alike
    · cases waiting

/-- What the cache is to keep follows from the invariant. -/
theorem Sound.safe (sound : Sound geometry region session.state)
    (all : AllReceived geometry disk session) : Safe geometry disk session where
  validStored := fun index valid bit used set =>
    Or.inl (sound.cache.stored index valid bit used set)
  entriesDistinct := sound.cache.distinct
  heightsReceived := all.heights

/-- Let the spacing be positive, the blocks that are looked up have places of their own and the
disk hold only blocks that were written for their places. Then a run has every subgrid of a valid
entry on the disk, every block in only one entry, and reads only heights that it has received, in
all of its states, exactly if every transfer in it completes cleanly. -/
theorem cache_safe_iff (geometry : Geometry) (disk : Disk) (events : List Event)
    (positive : 0 < geometry.gridSpacing) (distinct : geometry.DistinctBlocks (LooksUp events))
    (onDisk : geometry.DiskFiled (LooksUp events) disk) :
    (∀ count, Safe geometry disk
        (runCalls (Session.step geometry) (Session.start disk) (events.take count))) ↔
      Along (Session.step geometry) (fun _ => True) Undisturbed (Session.start disk) events := by
  refine along_iff_of_exact (fun session => Sound geometry (LooksUp events) session.state ∧
    AllReceived geometry disk session) ?_ ?_ ?_ ?_
  · rintro session event member ⟨sound, all⟩ undisturbed
    exact ⟨sound.step positive distinct (fun loc asked => ⟨event, member, asked⟩) undisturbed,
      all.step event⟩
  · rintro session ⟨sound, all⟩
    exact sound.safe all
  · rintro session event ⟨sound, -⟩ safe
    cases event with
    | findGridCache loc now => trivial
    | heightAmsl enabled loc home now => trivial
    | handleTerrainData packet => trivial
    | scheduleDiskIo enabled now =>
      cases enabled with
      | false => trivial
      | true => exact sound.clean distinct safe.validStored safe.entriesDistinct
    | ioTimer => trivial
  · exact ⟨start_sound onDisk, start_allReceived geometry disk⟩

/-! ### Runs over a flat piece of the earth -/

instance (bit : ℕ) (first second : GridBlock) : Decidable (SameHeights bit first second) :=
  inferInstanceAs (Decidable (∀ idxX, idxX < blockSizeX → ∀ idxY, idxY < blockSizeY → _ → _ = _))

instance (first second : GridBlock) : Decidable (SameBlock first second) :=
  inferInstanceAs (Decidable (_ ∧ _ ∧ _))

instance : ∀ state : State, Decidable (CompletesCleanly state)
  | ⟨_, .idle, _, _, _⟩ => isTrue trivial
  | ⟨_, .waitWrite, _, _, _⟩ => isTrue trivial
  | ⟨_, .waitRead, _, _, _⟩ => isTrue trivial
  | ⟨cache, .doneRead, block, home, disk⟩ =>
    inferInstanceAs (Decidable (∀ index,
      State.findIoIdx ⟨cache, .doneRead, block, home, disk⟩ .diskWait = some index →
      if block.bitmap = 0 then
        ∀ bit, bit < gridBits → (cache index).grid.bitmap.testBit bit = false
      else ∀ other, other ≠ index → (cache other).state ≠ .invalid →
        ¬ SameBlock (cache other).grid block))
  | ⟨cache, .doneWrite, block, home, disk⟩ =>
    inferInstanceAs (Decidable (∀ index,
      State.findIoIdx ⟨cache, .doneWrite, block, home, disk⟩ .dirty = some index →
      (cache index).grid.bitmap = block.bitmap → ∀ bit, bit < gridBits →
        (cache index).grid.bitmap.testBit bit = true →
        SameHeights bit block (cache index).grid))

instance (session : Session) : ∀ event : Event, Decidable (Undisturbed session event)
  | .scheduleDiskIo true _ => inferInstanceAs (Decidable (CompletesCleanly session.state))
  | .scheduleDiskIo false _ => isTrue trivial
  | .findGridCache _ _ => isTrue trivial
  | .heightAmsl _ _ _ _ => isTrue trivial
  | .handleTerrainData _ => isTrue trivial
  | .ioTimer => isTrue trivial

/-- Near the equator 100 m are 8983 units of latitude or longitude, and 42 blocks lie side by side. -/
def flatGeometry : Geometry where
  gridSpacing := 100
  steps := fun loc => ((loc.lat % 10000000).toNat / 8983, (loc.lng % 10000000).toNat / 8983)
  corner := fun latDegrees lonDegrees gridIdxX gridIdxY =>
    (latDegrees * 10000000 + gridIdxX * 24 * 8983, lonDegrees * 10000000 + gridIdxY * 28 * 8983)
  eastBlocks := fun _ _ => 42
  small := by decide

/-- A location in the square from 1 degree north and 2 degrees east. -/
def flatLocation : Location := ⟨12345678, 23456789⟩

/-- A packet for the first subgrid of the block around the location. -/
def flatPacket : Packet where
  lat := (flatGeometry.cornerAround flatLocation).1
  lon := (flatGeometry.cornerAround flatLocation).2
  gridSpacing := 100
  gridbit := 0
  data := fun index => 300 + index

/-- The block is looked up, found missing on the disk, filled and written. -/
def quietRun : List Event :=
  [.findGridCache flatLocation 1000, .scheduleDiskIo true 1000, .ioTimer,
    .scheduleDiskIo true 2000, .handleTerrainData flatPacket, .scheduleDiskIo true 2100,
    .heightAmsl true flatLocation flatLocation 2100, .ioTimer, .scheduleDiskIo true 3000,
    .heightAmsl true flatLocation flatLocation 3000]

/-- The packet arrives while the block is being read. -/
def racingRun : List Event :=
  [.findGridCache flatLocation 1000, .scheduleDiskIo true 1000, .handleTerrainData flatPacket,
    .scheduleDiskIo true 1100, .heightAmsl true flatLocation flatLocation 1100, .ioTimer,
    .scheduleDiskIo true 2000]

theorem distinctBlocks_of_one {events : List Event} {here : Location}
    (one : ∀ event ∈ events, event.location = none ∨ event.location = some here) :
    geometry.DistinctBlocks (LooksUp events) := by
  have only : ∀ loc, LooksUp events loc → loc = here := by
    rintro loc ⟨event, member, asked⟩
    rcases one event member with none | some
    · exact nomatch none.symm.trans asked
    · exact Option.some.inj (asked.symm.trans some)
  intro loc loc' inside inside'
  rw [only loc inside, only loc' inside']
  exact iff_of_true rfl rfl

theorem diskFiled_empty : geometry.DiskFiled region fun _ => none :=
  fun _ _ _ impossible => nomatch impossible

/-- At the end of the quiet run everything has been kept. -/
theorem cache_safe_iff_quietRun :
    Safe flatGeometry (fun _ => none)
      (runCalls (Session.step flatGeometry) (Session.start fun _ => none) quietRun) :=
  (cache_safe_iff flatGeometry (fun _ => none) quietRun (by decide)
    (distinctBlocks_of_one (by decide : ∀ event ∈ quietRun,
      event.location = none ∨ event.location = some flatLocation))
    diskFiled_empty).mpr (by decide +kernel) quietRun.length

/-- In the racing run the entry becomes valid with heights that were never written. -/
theorem not_cache_safe_racingRun :
    0 < flatGeometry.gridSpacing ∧ flatGeometry.DistinctBlocks (LooksUp racingRun) ∧
      flatGeometry.DiskFiled (LooksUp racingRun) (fun _ => none) ∧
      ¬ Safe flatGeometry (fun _ => none)
        (runCalls (Session.step flatGeometry) (Session.start fun _ => none) racingRun) := by
  refine ⟨by decide, distinctBlocks_of_one (by decide : ∀ event ∈ racingRun,
    event.location = none ∨ event.location = some flatLocation), diskFiled_empty,
    fun safe => ?_⟩
  have valid : ((runCalls (Session.step flatGeometry) (Session.start fun _ => none)
      racingRun).state.cache 0).state = .valid := by decide +kernel
  have set : ((runCalls (Session.step flatGeometry) (Session.start fun _ => none)
      racingRun).state.cache 0).grid.bitmap.testBit 0 = true := by decide +kernel
  rcases safe.validStored 0 valid 0 (by decide) set with ⟨block, here, -⟩ | ⟨writing, -⟩
  · exact nomatch here
  · revert writing
    decide +kernel

end Urus.Terrain
