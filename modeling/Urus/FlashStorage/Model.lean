/-
This file models the flash storage class, which keeps the board's storage in two
flash sectors. Each sector is a log: a header word with the sector's state, then
block records that are only ever appended. The class keeps a RAM copy of the stored
bytes, appends a record for every write, moves to the other sector when the current
one is full, and rebuilds the RAM copy from the logs when it is initialised.

The flash callbacks are the caller's. They are taken as NOR flash that never fails:
a write clears bits, an erase sets a whole sector to `0xFF`, and the branches of the
class that give up when a callback fails are not part of the model. Every callback is
recorded in the order it is made, so that a statement can speak about the flash
between any two of them.

The one recursion of the class is `write` calling `switch_full_sector`, which calls
`write_all`, which calls `write`. It is bounded by an explicit nesting depth, and a
result of `none` says that the bound was reached.
-/

import Urus.Lib.Bytes

namespace Urus.FlashStorage

open Image

/-! ### The flash and its callbacks -/

/-- The two flash sectors. -/
inductive Sector
  | s0
  | s1
  deriving DecidableEq, Repr

/-- The source's `sector ^ 1`. -/
def Sector.other : Sector → Sector
  | .s0 => .s1
  | .s1 => .s0

/-- The content of both sectors. -/
abbrev Flash := Sector → Image

/-- A call of one of the caller's flash callbacks. -/
inductive FlashCall
  | write (sector : Sector) (offset : Nat) (data : List UInt8)
  | read (sector : Sector) (offset length : Nat)
  | erase (sector : Sector)
  deriving DecidableEq, Repr

/-- What a callback does to the flash. -/
def FlashCall.apply (flash : Flash) : FlashCall → Flash
  | .write sector offset data => Function.update flash sector (program (flash sector) offset data)
  | .read _ _ _ => flash
  | .erase sector => Function.update flash sector fun _ => 0xFF

/-! ### Constants and headers -/

def blockSize : Nat := 8

def maxWrite : Nat := 64

/-- `sizeof(struct sector_header)`. -/
def sectorHeaderSize : Nat := 4

/-- `sizeof(struct block_header)`. -/
def blockHeaderSize : Nat := 2

/-- The 24 bit signature of a sector. -/
def signature : Nat := 0x51685B

/-- The space needed to write the full storage. -/
def reserveSize (storageSize : Nat) : Nat :=
  (storageSize / maxWrite) * (blockHeaderSize + maxWrite) + maxWrite

/-- The sizes the class is instantiated with. The storage is a whole number of the chunks that
are written at once, and a sector has room for the reserve and one more record. -/
structure Geometry where
  storageSize : Nat
  flashSectorSize : Nat
  aligned : maxWrite ∣ storageSize
  room : reserveSize storageSize + 70 ≤ flashSectorSize

theorem oneChunk_aligned : maxWrite ∣ 64 := by decide

theorem oneChunk_room : reserveSize 64 + 70 ≤ 202 := by decide

/-- The 8 bit sector states. -/
inductive SectorState
  | available
  | inUse
  | full
  deriving DecidableEq, Repr

def SectorState.byte : SectorState → UInt8
  | .available => 0xFF
  | .inUse => 0xFE
  | .full => 0xFC

def SectorState.ofByte (byte : UInt8) : Option SectorState :=
  if byte = 0xFF then some .available
  else if byte = 0xFE then some .inUse
  else if byte = 0xFC then some .full
  else none

/-- The bytes of a sector header with the class's signature. -/
def encodeSectorHeader (state : SectorState) : List UInt8 := [state.byte, 0x5B, 0x68, 0x51]

/-- The signature field of a header that was read. -/
def headerSignature (bytes : List UInt8) : Nat :=
  (bytes.getD 1 0).toNat + 2 ^ 8 * (bytes.getD 2 0).toNat + 2 ^ 16 * (bytes.getD 3 0).toNat

/-- The state field of a header that was read, if it is one of the three states. -/
def headerState (bytes : List UInt8) : Option SectorState := SectorState.ofByte (bytes.getD 0 0)

/-- The 2 bit block states. The fourth value is no state of the source. -/
inductive BlockState
  | available
  | writing
  | valid
  deriving DecidableEq, Repr

def BlockState.value : BlockState → Nat
  | .available => 3
  | .writing => 1
  | .valid => 0

def BlockState.ofValue (value : Nat) : Option BlockState :=
  if value = 3 then some .available
  else if value = 1 then some .writing
  else if value = 0 then some .valid
  else none

/-- A block header: a 2 bit state, an 11 bit block number and a 3 bit length. -/
structure BlockHeader where
  state : Option BlockState
  blockNum : Nat
  numBlocksMinusOne : Nat
  deriving DecidableEq, Repr

/-- The bytes of a block header. Assigning to the bit fields keeps their low bits. -/
def encodeBlockHeader (state : BlockState) (blockNum numBlocksMinusOne : Nat) : List UInt8 :=
  let word := state.value + 2 ^ 2 * (blockNum % 2 ^ 11) + 2 ^ 13 * (numBlocksMinusOne % 2 ^ 3)
  [UInt8.ofNat (word % 2 ^ 8), UInt8.ofNat (word / 2 ^ 8)]

def decodeBlockHeader (bytes : List UInt8) : BlockHeader :=
  let word := (bytes.getD 0 0).toNat + 2 ^ 8 * (bytes.getD 1 0).toNat
  { state := BlockState.ofValue (word % 2 ^ 2)
    blockNum := word / 2 ^ 2 % 2 ^ 11
    numBlocksMinusOne := word / 2 ^ 13 }

/-! ### The object -/

/-- The object together with the flash behind its callbacks. `calls` are the callbacks made so
far and `eraseOk` the answers `flash_erase_ok` will give. -/
structure State where
  flash : Flash
  calls : List FlashCall
  eraseOk : Nat → Bool
  memBuffer : Image
  currentSector : Sector
  writeOffset : Nat
  reservedSpace : Nat
  writeError : Bool

/-- A freshly constructed, zero-initialised object on a given flash. -/
def fresh (flash : Flash) (memBuffer : Image) (eraseOk : Nat → Bool) : State where
  flash := flash
  calls := []
  eraseOk := eraseOk
  memBuffer := memBuffer
  currentSector := .s0
  writeOffset := 0
  reservedSpace := 0
  writeError := false

/-- Make one callback. -/
def State.call (state : State) (call : FlashCall) : State :=
  { state with flash := call.apply state.flash, calls := state.calls ++ [call] }

def flashWrite (state : State) (sector : Sector) (offset : Nat) (data : List UInt8) : State :=
  state.call (.write sector offset data)

def flashErase (state : State) (sector : Sector) : State := state.call (.erase sector)

def flashRead (state : State) (sector : Sector) (offset length : Nat) : List UInt8 × State :=
  (slice (state.flash sector) offset length, state.call (.read sector offset length))

def flashEraseOk (state : State) : Bool × State :=
  (state.eraseOk 0, { state with eraseOk := fun index => state.eraseOk (index + 1) })

/-! ### Sectors -/

/-- Erase one sector and write its header. -/
def eraseSector (state : State) (sector : Sector) : State :=
  flashWrite (flashErase state sector) sector 0 (encodeSectorHeader .available)

/-- Erase both sectors and put the first one in use. -/
def eraseAll (state : State) : Bool × State :=
  let state := { state with
    writeError := false
    currentSector := .s0
    writeOffset := sectorHeaderSize }
  let state := eraseSector (eraseSector state .s0) .s1
  (true, flashWrite state state.currentSector 0 (encodeSectorHeader .inUse))

/-- Switch to the other sector for writing, if it is available. -/
def switchSectors (geometry : Geometry) (state : State) : Bool × State :=
  if state.reservedSpace ≠ 0 then (false, state)
  else
    let newSector := state.currentSector.other
    let (header, state) := flashRead state newSector 0 sectorHeaderSize
    if headerSignature header ≠ signature then (false, { state with writeError := true })
    else if headerState header ≠ some .available then (false, { state with writeError := true })
    else
      let state := flashWrite state state.currentSector 0 (encodeSectorHeader .full)
      let state := flashWrite state newSector 0 (encodeSectorHeader .inUse)
      (true, { state with
        currentSector := newSector
        reservedSpace := reserveSize geometry.storageSize
        writeOffset := sectorHeaderSize })

/-- Load all data of a sector into `memBuffer`, from the record at `ofs` on. Every record is at
least ten bytes long, so that the sector size is enough fuel. -/
def loadLoop (geometry : Geometry) (sector : Sector) : Nat → Nat → State → Bool × State
  | 0, ofs, state => (true, { state with writeOffset := ofs })
  | fuel + 1, ofs, state =>
    if ofs < geometry.flashSectorSize - blockHeaderSize then
      let (bytes, state) := flashRead state sector ofs blockHeaderSize
      let header := decodeBlockHeader bytes
      let blockNbytes := (header.numBlocksMinusOne + 1) * blockSize
      match header.state with
      | some .available => (true, { state with writeOffset := ofs })
      | some .writing => loadLoop geometry sector fuel (ofs + (blockNbytes + blockHeaderSize)) state
      | some .valid =>
        let blockOfs := header.blockNum * blockSize
        if blockOfs + blockNbytes > geometry.storageSize then (false, state)
        else
          let (data, state) := flashRead state sector (ofs + blockHeaderSize) blockNbytes
          loadLoop geometry sector fuel (ofs + (blockNbytes + blockHeaderSize))
            { state with memBuffer := put state.memBuffer blockOfs data }
      | none => (false, state)
    else (true, { state with writeOffset := ofs })

def loadSector (geometry : Geometry) (state : State) (sector : Sector) : Bool × State :=
  loadLoop geometry sector geometry.flashSectorSize sectorHeaderSize state

/-! ### Writing -/

/-- Whether all bytes of a range of `memBuffer` are zero. -/
def allZero (memBuffer : Image) (ofs size : Nat) : Bool :=
  (slice memBuffer ofs size).all (· == 0)

/-- Write all of `memBuffer` to the current sector from `ofs` on, leaving out the chunks that
are zero. `write` is the class's own `write`. -/
def writeAllFrom (geometry : Geometry) (write : State → Nat → Nat → Option (Bool × State)) :
    Nat → Nat → State → Option (Bool × State)
  | 0, _, state => some (true, state)
  | fuel + 1, ofs, state =>
    if ofs < geometry.storageSize then
      if allZero state.memBuffer ofs maxWrite then
        writeAllFrom geometry write fuel (ofs + maxWrite) state
      else
        match write state ofs maxWrite with
        | none => none
        | some (false, state) => some (false, state)
        | some (true, state) => writeAllFrom geometry write fuel (ofs + maxWrite) state
    else some (true, state)

def writeAll (geometry : Geometry) (write : State → Nat → Nat → Option (Bool × State))
    (state : State) : Option (Bool × State) :=
  writeAllFrom geometry write geometry.storageSize 0 state

/-- Move all data to the current sector, erase the other one and switch to it. -/
def switchFullSector (geometry : Geometry) (write : State → Nat → Nat → Option (Bool × State))
    (state : State) : Option (Bool × State) :=
  match writeAll geometry write { state with writeError := false, reservedSpace := 0 } with
  | none => none
  | some (false, state) => some (false, state)
  | some (true, state) => some (switchSectors geometry (eraseSector state state.currentSector.other))

/-- The space check of `write`: when the next record might not fit in front of the reserved
space, switch sectors, and when that is not possible make room by `switch_full_sector`. -/
def makeRoom (geometry : Geometry) (switchFull : State → Option (Bool × State)) (state : State) :
    Option (Bool × State) :=
  if state.writeOffset >
      geometry.flashSectorSize - (blockHeaderSize + maxWrite + state.reservedSpace) then
    let (switched, state) := switchSectors geometry state
    if switched then some (true, state)
    else
      let (eraseOk, state) := flashEraseOk state
      if eraseOk then switchFull state else some (false, state)
  else some (true, state)

/-- The length in bytes of the record that `write` appends for `n` bytes. -/
def blockNbytes (n : Nat) : Nat :=
  (((n + (blockSize - 1)) / blockSize - 1) % 2 ^ 3 + 1) * blockSize

/-- Append one record with the blocks that cover `n` bytes from `offset` on: the header in state
writing, the data, and the header again in state valid. -/
def writeRecord (state : State) (offset n : Nat) : State :=
  let blockNum := offset / blockSize % 2 ^ 11
  let numBlocksMinusOne := ((n + (blockSize - 1)) / blockSize - 1) % 2 ^ 3
  let blockOfs := blockNum * blockSize
  let data := slice state.memBuffer blockOfs (blockNbytes n)
  let state := flashWrite state state.currentSector state.writeOffset
    (encodeBlockHeader .writing blockNum numBlocksMinusOne)
  let state := flashWrite state state.currentSector (state.writeOffset + blockHeaderSize) data
  let state := flashWrite state state.currentSector state.writeOffset
    (encodeBlockHeader .valid blockNum numBlocksMinusOne)
  { state with writeOffset := state.writeOffset + (blockHeaderSize + blockNbytes n) }

/-- The loop of `write`. Every round writes at least one byte of the range, so that the length
is enough fuel. -/
def writeLoop (geometry : Geometry) (switchFull : State → Option (Bool × State)) :
    Nat → Nat → Nat → State → Option (Bool × State)
  | 0, _, _, state => some (true, state)
  | fuel + 1, offset, length, state =>
    if length > 0 then
      let n := if length < maxWrite then length else maxWrite
      match makeRoom geometry switchFull state with
      | none => none
      | some (false, state) => some (false, state)
      | some (true, state) =>
        let state := writeRecord state offset n
        let n2 := blockNbytes n - offset % blockSize
        if n2 > length then some (true, state)
        else writeLoop geometry switchFull fuel (offset + n2) (length - n2) state
    else some (true, state)

/-- Write a range of `memBuffer` to flash. The first argument bounds how often `write` may be
nested inside itself through `switch_full_sector`. -/
def write (geometry : Geometry) : Nat → State → Nat → Nat → Option (Bool × State)
  | 0, state, offset, length =>
    if state.writeError then some (false, state)
    else writeLoop geometry (fun _ => none) length offset length state
  | depth + 1, state, offset, length =>
    if state.writeError then some (false, state)
    else writeLoop geometry (switchFullSector geometry (write geometry depth)) length offset length
      state

/-! ### Initialisation -/

/-- The sector that is read first: a full one, else the one in use. -/
def firstSector (state0 state1 : SectorState) : Sector :=
  if state0 = state1 then .s0
  else if state0 = .full then .s0
  else if state1 = .full then .s1
  else if state0 = .inUse then .s0
  else if state1 = .inUse then .s1
  else .s0

/-- Load a sector if its state says that it holds data. -/
def loadIfWritten (geometry : Geometry) (state : State) (sector : Sector)
    (sectorState : SectorState) : Bool × State :=
  if sectorState = .inUse ∨ sectorState = .full then loadSector geometry state sector
  else (true, state)

/-- The part of `init` behind the header checks. -/
def initSectors (geometry : Geometry) (depth : Nat) (state : State)
    (states : Sector → SectorState) : Option (Bool × State) :=
  if states .s0 = states .s1 ∧ states .s0 ≠ .available then some (eraseAll state)
  else
    let first := firstSector (states .s0) (states .s1)
    let (loaded, state) := loadIfWritten geometry state first (states first)
    if !loaded then some (eraseAll state)
    else
      let (loaded, state) := loadIfWritten geometry state first.other (states first.other)
      if !loaded then some (eraseAll state)
      else
        let state := { state with writeError := false, reservedSpace := 0 }
        let written :=
          if states first = .full then
            writeAll geometry (write geometry depth) { state with currentSector := first.other }
          else some (true, state)
        match written with
        | none => none
        | some (false, state) => some (eraseAll state)
        | some (true, state) =>
          let state := if states .s0 = .full then eraseSector state .s0 else state
          let state := if states .s1 = .full then eraseSector state .s1 else state
          some (true, { state with reservedSpace := 0 })

/-- Initialise the storage and fill `memBuffer` with the stored bytes. -/
def init (geometry : Geometry) (depth : Nat) (state : State) : Option (Bool × State) :=
  let state := { state with memBuffer := fill state.memBuffer 0 geometry.storageSize 0 }
  let (header0, state) := flashRead state .s0 0 sectorHeaderSize
  if headerSignature header0 ≠ signature then some (eraseAll state)
  else
    match headerState header0 with
    | none => some (eraseAll state)
    | some state0 =>
      let (header1, state) := flashRead state .s1 0 sectorHeaderSize
      if headerSignature header1 ≠ signature then some (eraseAll state)
      else
        match headerState header1 with
        | none => some (eraseAll state)
        | some state1 =>
          initSectors geometry depth state fun sector =>
            match sector with
            | .s0 => state0
            | .s1 => state1

end Urus.FlashStorage
