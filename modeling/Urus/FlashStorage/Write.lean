/-
This file proves what `write` does to the stored bytes, callback by callback.

What a byte may read as is given by a predicate `allowed`: a byte that is settled
allows its one value, a byte inside an interrupted write allows the old and the new
one, a byte whose last write failed allows anything. The file's theorems do not look
inside the predicate. They say that if both the logs and the RAM copy show an allowed
value for every byte, then so does every flash image along the callbacks of a write.
The skipping of zero chunks in `write_all` is the one place where this needs an
argument: a byte of a skipped chunk either is still covered by the current sector's
log or reads as the zero that the RAM copy shows.

The images themselves have one of three shapes. In the normal one a sector is in use
and the other is full or available. The two others are the ones a power loss must not
hit: both marks of a sector switch are not yet done, or a sector is erased and its
header not yet written.
-/

import Urus.FlashStorage.Log
import Urus.Lib.Trace

namespace Urus.FlashStorage

open Image

/-! ### Steps of the object -/

/-- A callback keeps to the flash's rules: it stays inside the sector and a write only clears
bits. -/
def FairCall (geometry : Geometry) (flash : Flash) : FlashCall → Prop
  | .write sector offset data =>
    offset + data.length ≤ geometry.flashSectorSize ∧
      ∀ index, index < data.length →
        flash sector (offset + index) &&& data.getD index 0 = data.getD index 0
  | .read _ offset length => offset + length ≤ geometry.flashSectorSize
  | .erase _ => True

/-- The second state is reached from the first by fair callbacks, and every flash image on the
way is good. -/
def Steps (geometry : Geometry) (good : Flash → Prop) (before after : State) : Prop :=
  Performs FlashCall.apply State.flash State.calls good (FairCall geometry) before after

section Steps

variable {geometry : Geometry} {good : Flash → Prop} {before after : State}

theorem Steps.call (state : State) (call : FlashCall) (start : good state.flash)
    (fair : FairCall geometry state.flash call) (stop : good (call.apply state.flash)) :
    Steps geometry good state (state.call call) :=
  Performs.call call rfl rfl start fair stop

/-- A write callback that takes one sector from an image to another. -/
theorem Steps.program (geometry : Geometry) (good : Flash → Prop) {flash : Flash} {sector : Sector}
    {image image' : Image} (state : State) (offset : Nat) (data : List UInt8) (current : state.flash = Function.update flash sector image)
    (programmed : program image offset data = image')
    (readBack : slice image' offset data.length = data)
    (bound : offset + data.length ≤ geometry.flashSectorSize)
    (start : good (Function.update flash sector image))
    (stop : good (Function.update flash sector image')) :
    Steps geometry good state (flashWrite state sector offset data) ∧
      (flashWrite state sector offset data).flash = Function.update flash sector image' := by
  have reached : (flashWrite state sector offset data).flash =
      Function.update flash sector image' := by
    show Function.update state.flash sector (Image.program (state.flash sector) offset data) = _
    rw [current, Function.update_self, programmed, Function.update_idem]
  refine ⟨Steps.call state _ (current ▸ start) ⟨bound, ?_⟩ ?_, reached⟩
  · rw [current, Function.update_self]
    exact clears_of_readBack _ _ _ (by rw [programmed]; exact readBack)
  · show good (flashWrite state sector offset data).flash
    rw [reached]
    exact stop

/-- Reads change nothing. -/
theorem Steps.reads (start : good before.flash) (calls : List FlashCall)
    (inside : ReadsInside geometry calls) (flash : after.flash = before.flash)
    (logged : after.calls = before.calls ++ calls) : Steps geometry good before after := by
  have quiet : runCalls FlashCall.apply before.flash calls = before.flash ∧
      Along FlashCall.apply good (FairCall geometry) before.flash calls := by
    clear logged
    induction calls with
    | nil => exact ⟨rfl, start⟩
    | cons call rest inductionHypothesis =>
      obtain ⟨sector, offset, length, rfl, bound⟩ := inside call List.mem_cons_self
      obtain ⟨unchanged, along⟩ := inductionHypothesis
        fun other member => inside other (List.mem_cons_of_mem _ member)
      exact ⟨unchanged, start, bound, along⟩
  exact ⟨calls, logged, by rw [quiet.1, flash], quiet.2⟩

end Steps

/-! ### The shapes of the flash -/

@[simp] theorem Sector.other_ne (sector : Sector) : sector.other ≠ sector := by
  cases sector <;> decide

@[simp] theorem Sector.ne_other (sector : Sector) : sector ≠ sector.other := by
  cases sector <;> decide

@[simp] theorem Sector.other_other (sector : Sector) : sector.other.other = sector := by
  cases sector <;> rfl

/-- One sector is in use, the other one full or available, and the two logs together show an
allowed value for every byte. -/
structure Normal (geometry : Geometry) (allowed : Nat → UInt8 → Prop) (flash : Flash)
    (current : Sector) (otherState : SectorState) (below records : List Record) : Prop where
  used : Holds geometry (flash current) .inUse records
  other : Holds geometry (flash current.other) otherState below
  role : otherState = .full ∨ otherState = .available ∧ below = []
  shows : ∀ address, address < geometry.storageSize →
    allowed address (content (below ++ records) address)

/-- The images a flash can show between two callbacks. -/
inductive Shape (geometry : Geometry) (allowed : Nat → UInt8 → Prop) (flash : Flash) : Prop
  | normal (current : Sector) (otherState : SectorState) (below records : List Record)
      (view : Normal geometry allowed flash current otherState below records)
  | half (sector : Sector) (records : List Record)
      (full : Holds geometry (flash sector) .full records)
      (available : Holds geometry (flash sector.other) .available [])
  | erased (sector : Sector) (blank : ∀ address, flash sector address = 0xFF)

theorem Normal.mono {geometry : Geometry} {allowed allowed' : Nat → UInt8 → Prop} {flash : Flash}
    {current : Sector} {otherState : SectorState} {below records : List Record}
    (view : Normal geometry allowed flash current otherState below records)
    (weaker : ∀ address value, address < geometry.storageSize → allowed address value →
      allowed' address value) :
    Normal geometry allowed' flash current otherState below records :=
  ⟨view.used, view.other, view.role, fun address inside =>
    weaker _ _ inside (view.shows address inside)⟩

theorem Shape.mono {geometry : Geometry} {allowed allowed' : Nat → UInt8 → Prop}
    (weaker : ∀ address value, address < geometry.storageSize → allowed address value →
      allowed' address value) (flash : Flash)
    (shape : Shape geometry allowed flash) : Shape geometry allowed' flash := by
  cases shape with
  | normal current otherState below records view =>
    exact .normal current otherState below records (view.mono weaker)
  | half sector records full available => exact .half sector records full available
  | erased sector blank => exact .erased sector blank

/-- A new image of the current sector. -/
theorem Normal.update {geometry : Geometry} {allowed : Nat → UInt8 → Prop} {flash : Flash}
    {current : Sector} {otherState : SectorState} {below records : List Record}
    (view : Normal geometry allowed flash current otherState below records) {image : Image}
    {records' : List Record} (holds : Holds geometry image .inUse records')
    (shows : ∀ address, address < geometry.storageSize →
      allowed address (content (below ++ records') address)) :
    Normal geometry allowed (Function.update flash current image) current otherState below
      records' := by
  refine ⟨?_, ?_, view.role, shows⟩
  · rw [Function.update_self]
    exact holds
  · rw [Function.update_of_ne (Sector.other_ne current)]
    exact view.other

/-- The object agrees with the flash: its current sector is in use, its write offset is the end
of that sector's log, and its RAM copy shows an allowed value for every byte. -/
structure Store (geometry : Geometry) (allowed : Nat → UInt8 → Prop) (state : State)
    (otherState : SectorState) (below records : List Record) : Prop where
  view : Normal geometry allowed state.flash state.currentSector otherState below records
  offset : state.writeOffset = 4 + logSize records
  noError : state.writeError = false
  memory : ∀ address, address < geometry.storageSize →
    allowed address (state.memBuffer address)

theorem Store.shape {geometry : Geometry} {allowed : Nat → UInt8 → Prop} {state : State}
    {otherState : SectorState} {below records : List Record}
    (store : Store geometry allowed state otherState below records) :
    Shape geometry allowed state.flash := .normal _ _ _ _ store.view

theorem Store.mono {geometry : Geometry} {allowed allowed' : Nat → UInt8 → Prop} {state : State}
    {otherState : SectorState} {below records : List Record}
    (store : Store geometry allowed state otherState below records)
    (weaker : ∀ address value, address < geometry.storageSize → allowed address value →
      allowed' address value) :
    Store geometry allowed' state otherState below records :=
  ⟨store.view.mono weaker, store.offset, store.noError, fun address inside =>
    weaker _ _ inside (store.memory address inside)⟩

/-! ### Appending a record -/

theorem blockNbytes_eq (n : Nat) (positive : 1 ≤ n) (short : n ≤ 64) :
    blockNbytes n = (n + 7) / 8 * 8 := by
  simp only [blockNbytes, blockSize]
  omega

section Record

variable {geometry : Geometry} {allowed : Nat → UInt8 → Prop} {state : State}
  {otherState : SectorState} {below records : List Record}

/-- The record `write` appends for `n` bytes at `offset`. -/
def recordFor (memory : Image) (offset n : Nat) : Record where
  valid := true
  blockNum := offset / 8 % 2 ^ 11
  numBlocksMinusOne := ((n + 7) / 8 - 1) % 2 ^ 3
  data := slice memory (offset / 8 % 2 ^ 11 * 8) (blockNbytes n)
  blockNumFits := Nat.mod_lt _ (by decide)
  numBlocksFits := Nat.mod_lt _ (by decide)
  dataLength := slice_length _ _ _

/-- The same record while it is being written. -/
def unfinished (record : Record) (data : List UInt8) (same : data.length = record.data.length) :
    Record :=
  { record with valid := false, data := data, dataLength := same.trans record.dataLength }

/-- The three callbacks of appending a record, each leaving a normal image, and the log with the
new record behind them. -/
theorem writeRecord_store (store : Store geometry allowed state otherState below records)
    (offset n : Nat)
    (inRange : (recordFor state.memBuffer offset n).InRange geometry.storageSize)
    (room : state.writeOffset + (2 + blockNbytes n) ≤ geometry.flashSectorSize) :
    Store geometry allowed (writeRecord state offset n) otherState below
        (records ++ [recordFor state.memBuffer offset n]) ∧
      Steps geometry (Shape geometry allowed) state (writeRecord state offset n) := by
  let record := recordFor state.memBuffer offset n
  have length : record.data.length = blockNbytes n := slice_length _ _ _
  have roomy : 4 + logSize records + (2 + record.data.length) ≤ geometry.flashSectorSize := by
    rw [length, ← store.offset]
    exact room
  have holds := store.view.used
  have images := appendRecord_images (state.flash state.currentSector) state.writeOffset
    record.blockNum record.numBlocksMinusOne record.data (by
      rw [store.offset]
      exact holds.blank.mono (le_refl _) (by omega))
  obtain ⟨first, second, third⟩ := images
  have skipped : ∀ data same, Normal geometry allowed
      (Function.update state.flash state.currentSector (put (state.flash state.currentSector)
        state.writeOffset (unfinished record data same).bytes))
      state.currentSector otherState below (records ++ [unfinished record data same]) := by
    intro data same
    refine store.view.update ?_ fun address inside => ?_
    · rw [store.offset]
      refine holds.append (unfinished record data same) ?_ ?_
      · simp only [unfinished, same]
        exact roomy
      · simp only [Record.InRange, Record.start, unfinished, same]
        exact inRange
    · rw [← List.append_assoc, content_append_single]
      exact store.view.shows address inside
  have finished : Normal geometry allowed
      (Function.update state.flash state.currentSector (put (state.flash state.currentSector)
        state.writeOffset record.bytes))
      state.currentSector otherState below (records ++ [record]) := by
    refine store.view.update ?_ fun address inside => ?_
    · rw [store.offset]
      exact holds.append record roomy inRange
    · rw [← List.append_assoc, content_append_single]
      show allowed address (put _ record.start record.data address)
      rw [show record.data = slice state.memBuffer record.start (blockNbytes n) from rfl, put_slice]
      split
      · exact store.memory address inside
      · exact store.view.shows address inside
  let erased := List.replicate record.data.length (0xFF : UInt8)
  have sameErased : erased.length = record.data.length := List.length_replicate
  have start : state.flash = Function.update state.flash state.currentSector
      (state.flash state.currentSector) := (Function.update_eq_self _ _).symm
  have shape1 : Shape geometry allowed _ := .normal _ _ _ _ (skipped erased sameErased)
  have shape2 : Shape geometry allowed _ := .normal _ _ _ _ (skipped record.data rfl)
  have shape3 : Shape geometry allowed _ := .normal _ _ _ _ finished
  obtain ⟨steps1, flash1⟩ := Steps.program geometry (Shape geometry allowed) state state.writeOffset
    (encodeBlockHeader .writing record.blockNum record.numBlocksMinusOne) start first
    (slice_put_left _ _ _ _) (by rw [encodeBlockHeader_length]; omega)
    (start ▸ store.shape) shape1
  obtain ⟨steps2, flash2⟩ := Steps.program geometry (Shape geometry allowed) _ (state.writeOffset + 2)
    record.data flash1 (first ▸ second) (slice_put_right _ _ _ _) (by rw [length]; omega)
    shape1 shape2
  obtain ⟨steps3, flash3⟩ := Steps.program geometry (Shape geometry allowed) _ state.writeOffset
    (encodeBlockHeader .valid record.blockNum record.numBlocksMinusOne) flash2 (second ▸ third)
    (slice_put_left _ _ _ _) (by rw [encodeBlockHeader_length]; omega) shape2 shape3
  refine ⟨⟨?_, ?_, store.noError, store.memory⟩, (steps1.trans steps2).trans steps3⟩
  · exact flash3 ▸ finished
  · show state.writeOffset + (2 + blockNbytes n) = _
    rw [logSize_append_single, store.offset, show (recordFor state.memBuffer offset n).data.length =
      blockNbytes n from length]
    omega

end Record

/-- No record of the log was interrupted. -/
def AllValid (records : List Record) : Prop := ∀ record ∈ records, record.valid = true

theorem AllValid.append_single {records : List Record} (valid : AllValid records) (record : Record)
    (new : record.valid = true) : AllValid (records ++ [record]) := by
  intro other member
  rcases List.mem_append.mp member with old | single
  · exact valid other old
  · rw [List.mem_singleton.mp single]
    exact new

theorem allValid_nil : AllValid [] := fun _ member => absurd member List.not_mem_nil

/-! ### Writing all of the RAM copy -/

section WriteAll

variable {geometry : Geometry} {allowed : Nat → UInt8 → Prop} {state : State}
  {otherState : SectorState} {below records : List Record}

/-- The chunks that `write_all` writes, among `count` chunks from `first` on. -/
def nonzeroChunks (memory : Image) (first count : Nat) : Nat :=
  ((List.range' first count).filter fun chunk => !allZero memory (chunk * 64) 64).length

theorem nonzeroChunks_succ (memory : Image) (first count : Nat) :
    nonzeroChunks memory first (count + 1) =
      (if allZero memory (first * 64) 64 then 0 else 1) + nonzeroChunks memory (first + 1) count := by
  rw [nonzeroChunks, List.range'_succ, List.filter_cons]
  cases allZero memory (first * 64) 64
  · simp only [Bool.not_false, if_true, List.length_cons, nonzeroChunks, Bool.false_eq_true,
      if_false]
    omega
  · simp only [Bool.not_true, Bool.false_eq_true, if_false, nonzeroChunks, if_true]
    omega

theorem nonzeroChunks_le (memory : Image) (first count : Nat) :
    nonzeroChunks memory first count ≤ count := by
  refine le_trans (List.length_filter_le _ _) ?_
  rw [List.length_range']

theorem allZero_byte {memory : Image} {ofs size : Nat} (zero : allZero memory ofs size = true)
    (address : Nat) (low : ofs ≤ address) (high : address < ofs + size) : memory address = 0 := by
  have byte := (List.all_eq_true.mp zero) (memory address) (List.mem_map.mpr
    ⟨address - ofs, List.mem_range.mpr (by omega), by congr 1; omega⟩)
  exact eq_of_beq byte

theorem recordFor_chunk (memory : Image) (chunk : Nat) (small : chunk * 64 + 64 ≤ 16384) :
    (recordFor memory (chunk * 64) 64).start = chunk * 64 ∧
      (recordFor memory (chunk * 64) 64).data = slice memory (chunk * 64) 64 := by
  have start : chunk * 64 / 8 % 2 ^ 11 * 8 = chunk * 64 := by omega
  refine ⟨start, ?_⟩
  show slice memory (chunk * 64 / 8 % 2 ^ 11 * 8) (blockNbytes 64) = _
  rw [start, blockNbytes_eq 64 (by decide) (by decide)]

theorem write_chunk (depth : Nat) (chunk : Nat) (noError : state.writeError = false)
    (room : state.writeOffset + (66 + state.reservedSpace) ≤ geometry.flashSectorSize) :
    write geometry depth state (chunk * 64) 64 =
      some (true, writeRecord state (chunk * 64) 64) := by
  have fits : ¬ state.writeOffset >
      geometry.flashSectorSize - (blockHeaderSize + maxWrite + state.reservedSpace) := by
    have sizes : blockHeaderSize + maxWrite = 66 := rfl
    omega
  have nbytes : blockNbytes 64 = 64 := by decide
  have aligned : chunk * 64 % blockSize = 0 := by
    simp only [blockSize]
    omega
  have loop : ∀ switchFull, writeLoop geometry switchFull 64 (chunk * 64) 64 state =
      some (true, writeRecord state (chunk * 64) 64) := by
    intro switchFull
    have whole : (if 64 < maxWrite then 64 else maxWrite) = 64 := rfl
    have finished : ∀ offset state, writeLoop geometry switchFull 63 offset 0 state =
        some (true, state) := fun _ _ => rfl
    rw [writeLoop, if_pos (by decide)]
    simp only [whole, makeRoom, if_neg fits, aligned, nbytes, Nat.sub_zero, gt_iff_lt,
      Nat.lt_irrefl, if_false, Nat.sub_self, finished]
  cases depth <;> simp only [write, noError, Bool.false_eq_true, if_false, loop]

/-- The run of `write_all` over the chunks from `chunk` on. `alone` says that the current
sector's log by itself already shows an allowed value for the bytes before them. -/
theorem writeAllFrom_store (depth fuel chunk count : Nat) (small : geometry.storageSize ≤ 16384)
    (store : Store geometry allowed state otherState below records)
    (unreserved : state.reservedSpace = 0)
    (total : (chunk + count) * 64 = geometry.storageSize) (enough : count ≤ fuel)
    (room : state.writeOffset + 66 * nonzeroChunks state.memBuffer chunk count ≤
      geometry.flashSectorSize)
    (alone : ∀ address, address < chunk * 64 → allowed address (content records address)) :
    ∃ state' records',
      writeAllFrom geometry (write geometry depth) fuel (chunk * 64) state = some (true, state') ∧
      Store geometry allowed state' otherState below records' ∧
      Steps geometry (Shape geometry allowed) state state' ∧
      (∀ address, address < geometry.storageSize → allowed address (content records' address)) ∧
      (AllValid records → AllValid records') ∧ state'.currentSector = state.currentSector ∧
      state'.memBuffer = state.memBuffer ∧ state'.reservedSpace = 0 := by
  induction count generalizing fuel chunk state records with
  | zero =>
    have done : ¬ chunk * 64 < geometry.storageSize := by omega
    refine ⟨state, records, ?_, store, Performs.refl store.shape, fun address inside =>
      alone address (by omega), id, rfl, rfl, unreserved⟩
    cases fuel with
    | zero => rfl
    | succ fuel => rw [writeAllFrom, if_neg done]
  | succ count inductionHypothesis =>
    cases fuel with
    | zero => omega
    | succ fuel =>
      have more : chunk * 64 < geometry.storageSize := by omega
      have next : chunk * 64 + maxWrite = (chunk + 1) * 64 := by
        simp only [maxWrite]
        omega
      rw [nonzeroChunks_succ] at room
      rw [writeAllFrom, if_pos more, next]
      cases zero : allZero state.memBuffer (chunk * 64) 64
      · -- a chunk with data becomes one record
        rw [if_neg (by rw [maxWrite, zero]; exact Bool.false_ne_true)]
        rw [zero] at room
        simp only [Bool.false_eq_true, if_false] at room
        obtain ⟨start, data⟩ := recordFor_chunk state.memBuffer chunk (by omega)
        have recordInRange : (recordFor state.memBuffer (chunk * 64) 64).InRange
            geometry.storageSize := by
          rw [Record.InRange, start, data, slice_length]
          omega
        have nbytes : blockNbytes 64 = 64 := by decide
        obtain ⟨stored, steps⟩ := writeRecord_store store (chunk * 64) 64 recordInRange
          (by rw [nbytes]; omega)
        have advanced : (writeRecord state (chunk * 64) 64).writeOffset =
            state.writeOffset + 66 := rfl
        have sameMemory : (writeRecord state (chunk * 64) 64).memBuffer = state.memBuffer := rfl
        have aloneNext : ∀ address, address < (chunk + 1) * 64 → allowed address
            (content (records ++ [recordFor state.memBuffer (chunk * 64) 64]) address) := by
          intro address bound
          rw [content_append_single]
          show allowed address (put _ _ _ address)
          rw [start, data, put_slice]
          split
          · exact store.memory address (by omega)
          · exact alone address (by omega)
        obtain ⟨state', records', result, store', steps', alone', valid', same⟩ :=
          inductionHypothesis fuel (chunk + 1) stored unreserved (by omega) (by omega)
            (by rw [advanced, sameMemory]; omega) aloneNext
        refine ⟨state', records', ?_, store', steps.trans steps', alone', fun valid =>
          valid' (valid.append_single _ rfl), same⟩
        rw [show maxWrite = 64 from rfl, write_chunk depth chunk store.noError (by omega)]
        exact result
      · -- a zero chunk is left out: its bytes are covered by the current log or read as zero
        rw [if_pos (by rw [maxWrite, zero])]
        rw [zero] at room
        simp only [if_true, Nat.zero_add] at room
        have aloneNext : ∀ address, address < (chunk + 1) * 64 →
            allowed address (content records address) := by
          intro address bound
          by_cases before : address < chunk * 64
          · exact alone address before
          · rcases content_suffix below records address with same | cleared
            · rw [same]
              exact store.view.shows address (by omega)
            · rw [cleared, ← allZero_byte zero address (by omega) (by omega)]
              exact store.memory address (by omega)
        exact inductionHypothesis fuel (chunk + 1) store unreserved (by omega) (by omega) room
          aloneNext

theorem writeAll_store (depth : Nat) (small : geometry.storageSize ≤ 16384)
    (store : Store geometry allowed state otherState below records)
    (unreserved : state.reservedSpace = 0)
    (room : state.writeOffset + 66 * nonzeroChunks state.memBuffer 0 (geometry.storageSize / 64) ≤
      geometry.flashSectorSize) :
    ∃ state' records',
      writeAll geometry (write geometry depth) state = some (true, state') ∧
      Store geometry allowed state' otherState below records' ∧
      Steps geometry (Shape geometry allowed) state state' ∧
      (∀ address, address < geometry.storageSize → allowed address (content records' address)) ∧
      (AllValid records → AllValid records') ∧ state'.currentSector = state.currentSector ∧
      state'.memBuffer = state.memBuffer ∧ state'.reservedSpace = 0 := by
  have chunks : geometry.storageSize / 64 * 64 = geometry.storageSize :=
    Nat.div_mul_cancel geometry.aligned
  have result := writeAllFrom_store depth geometry.storageSize 0 (geometry.storageSize / 64) small
    store unreserved (by rw [Nat.zero_add]; exact chunks) (by omega) room
    (fun address impossible => by omega)
  rwa [Nat.zero_mul] at result

end WriteAll

/-! ### Switching sectors -/

section Switch

variable {geometry : Geometry} {allowed : Nat → UInt8 → Prop} {state : State}
  {otherState : SectorState} {below records : List Record}

theorem eraseOther_store (store : Store geometry allowed state otherState below records)
    (alone : ∀ address, address < geometry.storageSize →
      allowed address (content records address)) :
    Store geometry allowed (eraseSector state state.currentSector.other) .available [] records ∧
      Steps geometry (Shape geometry allowed) state
        (eraseSector state state.currentSector.other) := by
  let other := state.currentSector.other
  have roomy := geometry.room
  have view : Normal geometry allowed (Function.update state.flash other
      (program (fun _ => 0xFF) 0 (encodeSectorHeader .available)))
      state.currentSector .available [] records := by
    refine ⟨?_, ?_, Or.inr ⟨rfl, rfl⟩, alone⟩
    · rw [Function.update_of_ne (Sector.ne_other _)]
      exact store.view.used
    · rw [Function.update_self]
      exact holds_erased geometry
  have blank : Shape geometry allowed (Function.update state.flash other fun _ => 0xFF) :=
    .erased other fun address => by rw [Function.update_self]
  have erase : Steps geometry (Shape geometry allowed) state (flashErase state other) :=
    Steps.call state (.erase other) store.shape trivial blank
  obtain ⟨header, flash⟩ := Steps.program geometry (Shape geometry allowed) (flashErase state other) 0
    (encodeSectorHeader .available) rfl rfl (holds_erased geometry).header
    (by rw [show (encodeSectorHeader .available).length = 4 from rfl]; omega) blank
    (.normal _ _ _ _ view)
  refine ⟨⟨?_, store.offset, store.noError, store.memory⟩, erase.trans header⟩
  exact flash ▸ view

/-- Switching to an available sector: the old sector becomes the full one below the new, empty
log. -/
theorem switchSectors_store (store : Store geometry allowed state .available below records)
    (unreserved : state.reservedSpace = 0) :
    ∃ state', switchSectors geometry state = (true, state') ∧
      Store geometry allowed state' .full records [] ∧
      Steps geometry (Shape geometry allowed) state state' ∧
      state'.reservedSpace = reserveSize geometry.storageSize ∧
      state'.memBuffer = state.memBuffer := by
  have roomy := geometry.room
  have nothing : below = [] := by
    rcases store.view.role with full | ⟨_, empty⟩
    · cases full
    · exact empty
  subst nothing
  let other := state.currentSector.other
  let read := state.call (.read other 0 sectorHeaderSize)
  let marked := flashWrite read state.currentSector 0 (encodeSectorHeader .full)
  let switched := flashWrite marked other 0 (encodeSectorHeader .inUse)
  have four : ∀ sectorState, (encodeSectorHeader sectorState).length = 4 := fun _ => rfl
  have full := store.view.used.mark .full (by decide)
  have inUse := store.view.other.mark .inUse (by decide)
  have reading : Steps geometry (Shape geometry allowed) state read :=
    Steps.call state _ store.shape (show 0 + 4 ≤ _ by omega) store.shape
  have halfway : Shape geometry allowed (Function.update state.flash state.currentSector
      (program (state.flash state.currentSector) 0 (encodeSectorHeader .full))) := by
    refine .half state.currentSector records ?_ ?_
    · rw [Function.update_self]
      exact full
    · rw [Function.update_of_ne (Sector.other_ne _)]
      exact store.view.other
  have otherImage : Function.update state.flash state.currentSector
      (program (state.flash state.currentSector) 0 (encodeSectorHeader .full)) other =
        state.flash other := Function.update_of_ne (Sector.other_ne _) _ _
  have view : Normal geometry allowed (Function.update (Function.update state.flash
      state.currentSector (program (state.flash state.currentSector) 0 (encodeSectorHeader .full)))
      other (program (state.flash other) 0 (encodeSectorHeader .inUse))) other .full records [] := by
    refine ⟨?_, ?_, Or.inl rfl, ?_⟩
    · rw [Function.update_self]
      exact inUse
    · rw [Sector.other_other, Function.update_of_ne (Sector.ne_other _), Function.update_self]
      exact full
    · rw [List.append_nil]
      exact store.view.shows
  obtain ⟨marking, flash1⟩ := Steps.program geometry (Shape geometry allowed) read 0
    (encodeSectorHeader .full) (Function.update_eq_self state.currentSector state.flash).symm rfl
    full.header (by rw [four]; omega) (by rw [Function.update_eq_self]; exact store.shape) halfway
  obtain ⟨entering, flash2⟩ := Steps.program geometry (Shape geometry allowed) marked 0
    (encodeSectorHeader .inUse) (flash1.trans (by rw [← otherImage, Function.update_eq_self])) rfl
    inUse.header (by rw [four]; omega)
    (by rw [← otherImage, Function.update_eq_self]; exact halfway) (.normal _ _ _ _ view)
  refine ⟨{ switched with
    currentSector := other
    reservedSpace := reserveSize geometry.storageSize
    writeOffset := sectorHeaderSize }, ?_, ⟨?_, rfl, store.noError, store.memory⟩,
    (reading.trans marking).trans entering, rfl, rfl⟩
  · have signatureGood : headerSignature
        (flashRead state state.currentSector.other 0 sectorHeaderSize).1 = signature :=
      store.view.other.signature_eq
    have stateGood : headerState
        (flashRead state state.currentSector.other 0 sectorHeaderSize).1 = some .available :=
      store.view.other.state_eq
    have free : ¬ state.reservedSpace ≠ 0 := not_not.mpr unreserved
    simp only [switchSectors, if_neg free, if_neg (not_not.mpr signatureGood),
      if_neg (not_not.mpr stateGood)]
    rfl
  · exact flash2 ▸ view

end Switch

/-! ### Making room -/

/-- An object that is ready for writes. While the other sector is available nothing is reserved.
After that the current sector keeps enough room for writing out the whole storage. -/
structure Live (geometry : Geometry) (allowed : Nat → UInt8 → Prop) (state : State)
    (otherState : SectorState) (below records : List Record) : Prop
    extends Store geometry allowed state otherState below records where
  reserve : state.reservedSpace = 0 ∧ otherState = .available ∨
    state.reservedSpace = reserveSize geometry.storageSize ∧
      state.writeOffset + reserveSize geometry.storageSize ≤ geometry.flashSectorSize

section Room

variable {geometry : Geometry} {allowed : Nat → UInt8 → Prop} {state : State}
  {otherState : SectorState} {below records : List Record}

/-- The reserve is what writing out the whole storage needs. -/
theorem nonzeroChunks_reserve (memory : Image) (storageSize : Nat) :
    66 * nonzeroChunks memory 0 (storageSize / 64) ≤ reserveSize storageSize := by
  have most := nonzeroChunks_le memory 0 (storageSize / 64)
  simp only [reserveSize, maxWrite, blockHeaderSize]
  omega

/-- With the reserve kept, `switch_full_sector` empties the log. -/
theorem switchFullSector_live (depth : Nat) (small : geometry.storageSize ≤ 16384)
    (store : Store geometry allowed state otherState below records)
    (kept : state.writeOffset + reserveSize geometry.storageSize ≤ geometry.flashSectorSize) :
    ∃ state' below',
      switchFullSector geometry (write geometry depth) state = some (true, state') ∧
      Live geometry allowed state' .full below' [] ∧
      Steps geometry (Shape geometry allowed) state state' ∧
      state'.memBuffer = state.memBuffer ∧
      state'.writeOffset + (66 + state'.reservedSpace) ≤ geometry.flashSectorSize := by
  have roomy := geometry.room
  have needed := nonzeroChunks_reserve state.memBuffer geometry.storageSize
  let cleared : State := { state with writeError := false, reservedSpace := 0 }
  have clearedStore : Store geometry allowed cleared otherState below records :=
    ⟨store.view, store.offset, rfl, store.memory⟩
  obtain ⟨written, records', result, stored, steps, alone, -, sector, memory, unreserved⟩ :=
    writeAll_store depth small clearedStore rfl
      (by show state.writeOffset + 66 * nonzeroChunks state.memBuffer _ _ ≤ _; omega)
  obtain ⟨erased, steps'⟩ := eraseOther_store stored alone
  obtain ⟨switched, result', stored', steps'', reserved, memory'⟩ :=
    switchSectors_store erased unreserved
  have rewound : switched.writeOffset = 4 := stored'.offset
  refine ⟨switched, records', ?_, ⟨stored', Or.inr ⟨reserved, by omega⟩⟩,
    (steps.trans steps').trans steps'', memory'.trans memory, by omega⟩
  rw [switchFullSector, result]
  exact congrArg some result'

/-- The space check of `write` either leaves room for a record in front of the reserve or gives
up, and the object stays ready for writes. -/
theorem makeRoom_live (depth : Nat) (small : geometry.storageSize ≤ 16384)
    (live : Live geometry allowed state otherState below records) :
    ∃ ok state' otherState' below' records',
      makeRoom geometry (switchFullSector geometry (write geometry depth)) state =
        some (ok, state') ∧
      Live geometry allowed state' otherState' below' records' ∧
      (AllValid records → AllValid records') ∧
      Steps geometry (Shape geometry allowed) state state' ∧
      state'.memBuffer = state.memBuffer ∧
      (ok = true →
        state'.writeOffset + (66 + state'.reservedSpace) ≤ geometry.flashSectorSize) := by
  have roomy := geometry.room
  have sizes : blockHeaderSize + maxWrite = 66 := rfl
  by_cases full : state.writeOffset >
      geometry.flashSectorSize - (blockHeaderSize + maxWrite + state.reservedSpace)
  · rcases live.reserve with ⟨unreserved, rfl⟩ | ⟨reserved, kept⟩
    · obtain ⟨switched, result, stored, steps, reserved, memory⟩ :=
        switchSectors_store live.toStore unreserved
      have rewound : switched.writeOffset = 4 := stored.offset
      refine ⟨true, switched, .full, records, [], ?_, ⟨stored, Or.inr ⟨reserved, by omega⟩⟩,
        fun _ => allValid_nil, steps, memory, fun _ => by omega⟩
      simp only [makeRoom, if_pos full, result, if_true]
    · have positive : state.reservedSpace ≠ 0 := by
        rw [reserved, reserveSize, maxWrite]
        omega
      have refused : switchSectors geometry state = (false, state) := by
        rw [switchSectors, if_pos positive]
      let asked : State := { state with eraseOk := fun index => state.eraseOk (index + 1) }
      have askedStore : Store geometry allowed asked otherState below records :=
        ⟨live.view, live.offset, live.noError, live.memory⟩
      have asking : Steps geometry (Shape geometry allowed) state asked :=
        ⟨[], (List.append_nil _).symm, rfl, live.shape⟩
      cases answer : state.eraseOk 0
      · refine ⟨false, asked, otherState, below, records, ?_,
          ⟨askedStore, Or.inr ⟨reserved, kept⟩⟩, id, asking, rfl, fun impossible => ?_⟩
        · simp only [makeRoom, if_pos full, refused, flashEraseOk, answer, Bool.false_eq_true,
            if_false]
          rfl
        · cases impossible
      · obtain ⟨switched, below', result, live', steps, memory, fits⟩ :=
          switchFullSector_live depth small askedStore kept
        refine ⟨true, switched, .full, below', [], ?_, live', fun _ => allValid_nil,
          asking.trans steps, memory, fun _ => fits⟩
        simp only [makeRoom, if_pos full, refused, flashEraseOk, answer, Bool.false_eq_true,
          if_false, if_true]
        exact result
  · have bounded : state.reservedSpace ≤ reserveSize geometry.storageSize := by
      rcases live.reserve with ⟨unreserved, -⟩ | ⟨reserved, -⟩ <;> omega
    refine ⟨true, state, otherState, below, records, ?_, live, id, Performs.refl live.shape, rfl,
      fun _ => by omega⟩
    simp only [makeRoom, if_neg full]

end Room

/-! ### Writing a range -/

section Write

variable {geometry : Geometry} {allowed : Nat → UInt8 → Prop} {state : State}
  {otherState : SectorState} {below records : List Record}

/-- A byte of a range has one given value. -/
def Pinned (allowed : Nat → UInt8 → Prop) (memory : Image) (start stop : Nat) (address : Nat)
    (value : UInt8) : Prop :=
  allowed address value ∧ (start ≤ address → address < stop → value = memory address)

/-- A range whose bytes the log shows as the RAM copy has them may be pinned. -/
theorem Store.pin (store : Store geometry allowed state otherState below records)
    (start stop : Nat)
    (shown : ∀ address, start ≤ address → address < stop → address < geometry.storageSize →
      content (below ++ records) address = state.memBuffer address) :
    Store geometry (Pinned allowed state.memBuffer start stop) state otherState below records :=
  ⟨⟨store.view.used, store.view.other, store.view.role, fun address inside =>
      ⟨store.view.shows address inside, fun low high => shown address low high inside⟩⟩,
    store.offset, store.noError, fun address inside =>
      ⟨store.memory address inside, fun _ _ => rfl⟩⟩

/-- The bytes a record covers read as the RAM copy has them. -/
theorem content_recordFor (memory : Image) (offset n : Nat) (small : offset < 16384)
    (records : List Record) (address : Nat) (low : offset ≤ address)
    (high : address < offset + (blockNbytes n - offset % 8)) :
    content (records ++ [recordFor memory offset n]) address = memory address := by
  have start : offset / 8 % 2 ^ 11 * 8 = offset / 8 * 8 := by omega
  rw [content_append_single]
  show put _ (offset / 8 % 2 ^ 11 * 8) (slice memory (offset / 8 % 2 ^ 11 * 8) (blockNbytes n))
    address = _
  rw [start, put_slice, if_pos (by omega)]

theorem recordFor_inRange (memory : Image) (offset n : Nat)
    (positive : 1 ≤ n) (short : n ≤ 64) (inside : offset + n ≤ geometry.storageSize) :
    (recordFor memory offset n).InRange geometry.storageSize := by
  have nbytes := blockNbytes_eq n positive short
  have aligned : 64 ∣ geometry.storageSize := geometry.aligned
  show offset / 8 % 2 ^ 11 * 8 + (slice memory _ (blockNbytes n)).length ≤ _
  rw [slice_length, nbytes]
  omega

/-- The loop of `write`. By induction on the fuel: a round that does not give up pins the bytes
its record covers, and the rest of the loop keeps them. -/
theorem writeLoop_live (depth fuel offset length : Nat) (small : geometry.storageSize ≤ 16384)
    (live : Live geometry allowed state otherState below records)
    (inside : offset + length ≤ geometry.storageSize) (enough : length ≤ fuel) :
    ∃ ok state' otherState' below' records',
      writeLoop geometry (switchFullSector geometry (write geometry depth)) fuel offset length
        state = some (ok, state') ∧
      Live geometry allowed state' otherState' below' records' ∧
      (AllValid records → AllValid records') ∧
      Steps geometry (Shape geometry allowed) state state' ∧
      state'.memBuffer = state.memBuffer ∧
      (ok = true → ∀ address, offset ≤ address → address < offset + length →
        content (below' ++ records') address = state.memBuffer address) := by
  induction fuel generalizing offset length state otherState below records allowed with
  | zero =>
    exact ⟨true, state, otherState, below, records, rfl, live, id, Performs.refl live.shape, rfl,
      fun _ address low high => by omega⟩
  | succ fuel inductionHypothesis =>
    by_cases more : length > 0
    · obtain ⟨n, chosen⟩ : ∃ n, (if length < maxWrite then length else maxWrite) = n := ⟨_, rfl⟩
      have most : maxWrite = 64 := rfl
      have size : 1 ≤ n ∧ n ≤ 64 ∧ n ≤ length := by
        rw [← chosen]
        split <;> omega
      obtain ⟨positive, short, within⟩ := size
      obtain ⟨ok, ready, otherState₁, below₁, records₁, result, live₁, valid₁, steps₁, memory₁,
        fits⟩ := makeRoom_live depth small live
      cases ok with
      | false =>
        refine ⟨false, ready, otherState₁, below₁, records₁, ?_, live₁, valid₁, steps₁, memory₁,
          fun impossible => by cases impossible⟩
        simp only [writeLoop, if_pos more, result]
      | true =>
        have room := fits rfl
        have nbytes := blockNbytes_eq n positive short
        obtain ⟨n2, covers⟩ : ∃ n2, blockNbytes n - offset % blockSize = n2 := ⟨_, rfl⟩
        have blocks : blockNbytes n - offset % 8 = n2 := covers
        have inRange := recordFor_inRange ready.memBuffer offset n positive short
          (by omega : offset + n ≤ geometry.storageSize)
        obtain ⟨stored, steps₂⟩ := writeRecord_store live₁.toStore offset n inRange (by omega)
        have covered : ∀ address, offset ≤ address → address < offset + n2 →
            content (below₁ ++ (records₁ ++ [recordFor ready.memBuffer offset n])) address =
              ready.memBuffer address := by
          intro address low high
          rw [← List.append_assoc]
          exact content_recordFor _ _ _ (by omega) _ _ low (by omega)
        have advanced : (writeRecord ready offset n).writeOffset =
            ready.writeOffset + (2 + blockNbytes n) := rfl
        have reserve : (writeRecord ready offset n).reservedSpace = 0 ∧
              otherState₁ = .available ∨
            (writeRecord ready offset n).reservedSpace = reserveSize geometry.storageSize ∧
              (writeRecord ready offset n).writeOffset + reserveSize geometry.storageSize ≤
                geometry.flashSectorSize := by
          rcases live₁.reserve with free | ⟨reserved, -⟩
          · exact Or.inl free
          · exact Or.inr ⟨reserved, by omega⟩
        have valid₂ : AllValid records →
            AllValid (records₁ ++ [recordFor ready.memBuffer offset n]) :=
          fun valid => (valid₁ valid).append_single _ rfl
        have written : Live geometry (Pinned allowed ready.memBuffer offset (offset + n2))
            (writeRecord ready offset n) otherState₁ below₁
            (records₁ ++ [recordFor ready.memBuffer offset n]) :=
          ⟨stored.pin offset (offset + n2) fun address low high _ => covered address low high,
            reserve⟩
        have unpin : ∀ address value, address < geometry.storageSize →
            Pinned allowed ready.memBuffer offset (offset + n2) address value →
              allowed address value := fun _ _ _ pinned => pinned.1
        by_cases last : n2 > length
        · refine ⟨true, writeRecord ready offset n, otherState₁, below₁, _, ?_,
            ⟨stored, reserve⟩, valid₂, steps₁.trans steps₂, memory₁, fun _ address low high => ?_⟩
          · simp only [writeLoop, if_pos more, chosen, result, covers, if_pos last]
          · rw [covered address low (by omega), memory₁]
        · obtain ⟨ok, state', otherState', below', records', result', live', valid', steps',
            memory', rest⟩ := inductionHypothesis (offset + n2) (length - n2) written
              (by omega) (by omega)
          have sameMemory : state'.memBuffer = state.memBuffer := memory'.trans memory₁
          refine ⟨ok, state', otherState', below', records', ?_,
            ⟨live'.toStore.mono unpin, live'.reserve⟩, fun valid => valid' (valid₂ valid),
            (steps₁.trans steps₂).trans (steps'.mono (Shape.mono unpin)), sameMemory,
            fun success address low high => ?_⟩
          · simp only [writeLoop, if_pos more, chosen, result, covers, if_neg last]
            exact result'
          · by_cases before : address < offset + n2
            · have shown := (live'.view.shows address (by omega)).2 low before
              rw [shown, memory₁]
            · have shown := rest success address (by omega) (by omega)
              exact shown.trans (congrFun memory₁ address)
    · refine ⟨true, state, otherState, below, records, ?_, live, id, Performs.refl live.shape, rfl,
        fun _ address low high => by omega⟩
      simp only [writeLoop, if_neg more]

/-- What `write` does to an object that is ready for writes. One level of nesting is enough. -/
theorem write_live (depth offset length : Nat) (small : geometry.storageSize ≤ 16384)
    (live : Live geometry allowed state otherState below records)
    (inside : offset + length ≤ geometry.storageSize) :
    ∃ ok state' otherState' below' records',
      write geometry (depth + 1) state offset length = some (ok, state') ∧
      Live geometry allowed state' otherState' below' records' ∧
      (AllValid records → AllValid records') ∧
      Steps geometry (Shape geometry allowed) state state' ∧
      state'.memBuffer = state.memBuffer ∧
      (ok = true → ∀ address, offset ≤ address → address < offset + length →
        content (below' ++ records') address = state.memBuffer address) := by
  have result := writeLoop_live depth length offset length small live inside (le_refl _)
  simpa only [write, live.noError, Bool.false_eq_true, if_false] using result

end Write

end Urus.FlashStorage
