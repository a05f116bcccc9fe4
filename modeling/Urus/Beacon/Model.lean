/-
This file models `AP_Beacon_Marvelmind`: the receiver of datagrams, the four handlers, and the table
of the stationary beacons. Every access to an array is checked: a step that would read or write
outside an array has no result.

The conversion of positions to metres is left out, so what is sent to the front end is kept in
millimetres.
-/

import Urus.Lib.BubbleSort
import Urus.Lib.Trace

namespace Urus.Beacon

/-! ### Data -/

/-- `AP_BEACON_MARVELMIND_BUF_SIZE`, `max_buffered_positions` and `AP_BEACON_MAX_BEACONS`. -/
def bufSize : ℕ := 255
def maxBufferedPositions : ℕ := 3
def maxBeacons : ℕ := 4

/-- `AP_BEACON_MARVELMIND_POSITION_DATAGRAM_ID` and so on. -/
def positionDatagramId : UInt16 := 0x0001
def positionsDatagramId : UInt16 := 0x0002
def positionDatagramHighresId : UInt16 := 0x0011
def positionsDatagramHighresId : UInt16 := 0x0012

/-- `PositionValue`. -/
structure PositionValue where
  address : UInt8
  timestamp : UInt32
  x : ℤ
  y : ℤ
  z : ℤ
  highResolution : Bool
  ready : Bool
  processed : Bool
  deriving DecidableEq

/-- `StationaryBeaconPosition`. -/
structure StationaryBeaconPosition where
  address : UInt8
  x : ℤ
  y : ℤ
  z : ℤ
  highResolution : Bool
  deriving DecidableEq

/-- `StationaryBeaconsPositions`. -/
structure StationaryBeaconsPositions where
  numBeacons : ℕ
  beacons : List StationaryBeaconPosition
  updated : Bool
  deriving DecidableEq

/-- `MarvelmindHedge`. The fields that are not read are left out. -/
structure MarvelmindHedge where
  positionBuffer : List PositionValue
  positionsBeacons : StationaryBeaconsPositions
  lastValuesCount : ℕ
  lastValuesNext : ℕ
  haveNewValues : Bool
  deriving DecidableEq

/-- `parse_state`. -/
inductive ParseState
  | recvHdr
  | recvDgram
  deriving DecidableEq

/-- `AP_Beacon_Marvelmind`. What is sent to the front end is the position of the vehicle and the
positions of the beacons. -/
structure Decoder where
  parseState : ParseState
  hedge : MarvelmindHedge
  curPosition : PositionValue
  inputBuffer : List UInt8
  numBytesInBlockReceived : ℕ
  dataId : UInt16
  vehiclePosition : Option PositionValue
  vehiclePositionInitialized : Bool
  beaconPosition : List (Option StationaryBeaconPosition)
  beaconPositionInitialized : Bool
  deriving DecidableEq

/-- A datagram that is handed to its handler: its id and the bytes of its frame. -/
structure Datagram where
  dataId : UInt16
  frame : List UInt8
  deriving DecidableEq

/-! ### Reading and writing -/

section Access

variable {Entry : Type}

/-- An entry is written, if there is one. -/
def write (entries : List Entry) (index : ℕ) (entry : Entry) : Option (List Entry) :=
  if index < entries.length then some (entries.set index entry) else none

/-- Two bytes of the buffer, as `int16_t`. -/
def int16At (buffer : List UInt8) (index : ℕ) : Option ℤ := do
  let low ← buffer[index]?
  let high ← buffer[index + 1]?
  some (low.toUInt16 ||| high.toUInt16 <<< 8).toInt16.toInt

/-- Four bytes of the buffer, as `uint32_t`. -/
def uint32At (buffer : List UInt8) (index : ℕ) : Option UInt32 := do
  let first ← buffer[index]?
  let second ← buffer[index + 1]?
  let third ← buffer[index + 2]?
  let fourth ← buffer[index + 3]?
  some (first.toUInt32 ||| second.toUInt32 <<< 8 ||| third.toUInt32 <<< 16 |||
    fourth.toUInt32 <<< 24)

/-- Four bytes of the buffer, as `int32_t`. -/
def int32At (buffer : List UInt8) (index : ℕ) : Option ℤ :=
  (uint32At buffer index).map fun value => value.toInt32.toInt

end Access

/-! ### `calc_crc_modbus` -/

/-- One bit of the remainder. -/
def crcBit (crc : UInt16) : UInt16 :=
  if crc &&& 1 ≠ 0 then (crc >>> 1) ^^^ 0xA001 else crc >>> 1

/-- One byte of the remainder. -/
def crcByte (crc : UInt16) (byte : UInt8) : UInt16 := crcBit^[8] (crc ^^^ byte.toUInt16)

/-- The loop over the bytes: how many are left, and the position of the next one. -/
def crcLoop (buffer : List UInt8) : ℕ → ℕ → UInt16 → Option UInt16
  | 0, _, crc => some crc
  | rounds + 1, position, crc => do
    let byte ← buffer[position]?
    crcLoop buffer rounds (position + 1) (crcByte crc byte)

/-- `calc_crc_modbus`. -/
def calcCrcModbus (buffer : List UInt8) (length : ℕ) : Option UInt16 :=
  crcLoop buffer length 0 0xFFFF

/-! ### The position of the vehicle -/

/-- `mark_position_ready`: the index of the position comes with the state. -/
def MarvelmindHedge.markPositionReady (hedge : MarvelmindHedge) :
    Option (MarvelmindHedge × ℕ) := do
  let position ← hedge.positionBuffer[hedge.lastValuesNext]?
  let positionBuffer ← write hedge.positionBuffer hedge.lastValuesNext
    { position with ready := true, processed := false }
  some ({ hedge with
    positionBuffer := positionBuffer
    lastValuesCount :=
      if hedge.lastValuesCount < maxBufferedPositions then hedge.lastValuesCount + 1
      else hedge.lastValuesCount
    lastValuesNext :=
      if hedge.lastValuesNext + 1 ≥ maxBufferedPositions then 0 else hedge.lastValuesNext + 1
    haveNewValues := true }, hedge.lastValuesNext)

/-- What the two handlers of a position do, with the position of the address in the datagram and the
reading of the three coordinates. -/
def Decoder.processPosition (decoder : Decoder) (addressIndex : ℕ)
    (readCoordinates : List UInt8 → Option (ℤ × ℤ × ℤ)) (highResolution : Bool) :
    Option Decoder := do
  let old ← decoder.hedge.positionBuffer[decoder.hedge.lastValuesNext]?
  let address ← decoder.inputBuffer[addressIndex]?
  let timestamp ← uint32At decoder.inputBuffer 5
  let coordinates ← readCoordinates decoder.inputBuffer
  let positionBuffer ← write decoder.hedge.positionBuffer decoder.hedge.lastValuesNext
    { old with
      address := address
      timestamp := timestamp
      x := coordinates.1
      y := coordinates.2.1
      z := coordinates.2.2
      highResolution := highResolution }
  let marked ← MarvelmindHedge.markPositionReady
    { decoder.hedge with positionBuffer := positionBuffer }
  let current ← marked.1.positionBuffer[marked.2]?
  some { decoder with hedge := marked.1, curPosition := current }

/-- The coordinates of a position in centimetres, in millimetres. -/
def coordinates16 (index : ℕ) (buffer : List UInt8) : Option (ℤ × ℤ × ℤ) := do
  let x ← int16At buffer index
  let y ← int16At buffer (index + 2)
  let z ← int16At buffer (index + 4)
  some (x * 10, y * 10, z * 10)

/-- The coordinates of a position in millimetres. -/
def coordinates32 (index : ℕ) (buffer : List UInt8) : Option (ℤ × ℤ × ℤ) := do
  let x ← int32At buffer index
  let y ← int32At buffer (index + 4)
  let z ← int32At buffer (index + 8)
  some (x, y, z)

/-- `process_position_datagram`. -/
def Decoder.processPositionDatagram (decoder : Decoder) : Option Decoder :=
  decoder.processPosition 16 (coordinates16 9) false

/-- `process_position_highres_datagram`. -/
def Decoder.processPositionHighresDatagram (decoder : Decoder) : Option Decoder :=
  decoder.processPosition 22 (coordinates32 9) true

/-! ### The table of the beacons -/

/-- The search of `get_or_alloc_beacon`: how many entries are left, and the index of the next
one. -/
def searchLoop (beacons : List StationaryBeaconPosition) (address : UInt8) :
    ℕ → ℕ → Option (Option ℕ)
  | 0, _ => some none
  | rounds + 1, index => do
    let beacon ← beacons[index]?
    if beacon.address = address then some (some index)
    else searchLoop beacons address rounds (index + 1)

/-- `get_or_alloc_beacon`: the index of the entry, or none when the table is full. -/
def StationaryBeaconsPositions.getOrAllocBeacon (table : StationaryBeaconsPositions)
    (address : UInt8) : Option (StationaryBeaconsPositions × Option ℕ) := do
  match ← searchLoop table.beacons address table.numBeacons 0 with
  | some index => some (table, some index)
  | none =>
    if table.numBeacons ≥ maxBeacons then some (table, none)
    else some ({ table with numBeacons := table.numBeacons + 1 }, some table.numBeacons)

/-- A beacon of a datagram is stored. -/
def StationaryBeaconsPositions.store (table : StationaryBeaconsPositions)
    (beacon : StationaryBeaconPosition) : Option StationaryBeaconsPositions := do
  let place ← table.getOrAllocBeacon beacon.address
  match place.2 with
  | none => some place.1
  | some index =>
    let beacons ← write place.1.beacons index beacon
    some { place.1 with beacons := beacons, updated := true }

/-- `order_stationary_beacons`. -/
def StationaryBeaconsPositions.order (table : StationaryBeaconsPositions) :
    Option StationaryBeaconsPositions :=
  if table.updated then do
    let beacons ← BubbleSort.sortLoop (fun beacon => beacon.address.toNat) table.numBeacons
      table.beacons
    some { table with beacons := beacons }
  else some table

/-- A beacon in a datagram: its address, and the reading of its coordinates. -/
def readBeacon (readCoordinates : ℕ → List UInt8 → Option (ℤ × ℤ × ℤ)) (highResolution : Bool)
    (buffer : List UInt8) (offset : ℕ) : Option StationaryBeaconPosition := do
  let address ← buffer[offset]?
  let coordinates ← readCoordinates (offset + 1) buffer
  some ⟨address, coordinates.1, coordinates.2.1, coordinates.2.2, highResolution⟩

/-- The loop over the beacons of a datagram: how many are left, and the index of the next one. The
offset of a beacon is a `uint8_t`. -/
def beaconsLoop (size : ℕ) (read : List UInt8 → ℕ → Option StationaryBeaconPosition)
    (buffer : List UInt8) : ℕ → ℕ → StationaryBeaconsPositions → Option StationaryBeaconsPositions
  | 0, _, table => some table
  | rounds + 1, index, table => do
    let beacon ← read buffer ((6 + index * size) % 256)
    let stored ← table.store beacon
    beaconsLoop size read buffer rounds (index + 1) stored

/-- What the two handlers of the beacons do, with the size of a beacon in the datagram and its
reading. -/
def Decoder.processBeaconsPositions (decoder : Decoder) (size : ℕ)
    (read : List UInt8 → ℕ → Option StationaryBeaconPosition) : Option Decoder := do
  let count ← decoder.inputBuffer[5]?
  let length ← decoder.inputBuffer[4]?
  if 1 + count.toNat * size ≠ length.toNat then some decoder
  else
    let table ← beaconsLoop size read decoder.inputBuffer count.toNat 0
      decoder.hedge.positionsBeacons
    let ordered ← table.order
    some { decoder with hedge := { decoder.hedge with positionsBeacons := ordered } }

/-- `process_beacons_positions_datagram`. -/
def Decoder.processBeaconsPositionsDatagram (decoder : Decoder) : Option Decoder :=
  decoder.processBeaconsPositions 8 (readBeacon coordinates16 false)

/-- `process_beacons_positions_highres_datagram`. -/
def Decoder.processBeaconsPositionsHighresDatagram (decoder : Decoder) : Option Decoder :=
  decoder.processBeaconsPositions 14 (readBeacon coordinates32 true)

/-! ### The front end -/

/-- The loop that sends the beacons: how many are left, and the index of the next one. -/
def sendLoop (beacons : List StationaryBeaconPosition) :
    ℕ → ℕ → List (Option StationaryBeaconPosition) →
      Option (List (Option StationaryBeaconPosition))
  | 0, _, sent => some sent
  | rounds + 1, index, sent => do
    let beacon ← beacons[index]?
    let sent ← write sent index (some beacon)
    sendLoop beacons rounds (index + 1) sent

/-- The beacons are sent if the table has changed. -/
def sendBeacons (table : StationaryBeaconsPositions)
    (sent : List (Option StationaryBeaconPosition)) :
    Option (List (Option StationaryBeaconPosition)) :=
  if table.updated then sendLoop table.beacons table.numBeacons 0 sent else some sent

/-- `set_stationary_beacons_positions_and_distances`. -/
def Decoder.setStationaryBeaconsPositionsAndDistances (decoder : Decoder) : Option Decoder :=
  if decoder.vehiclePositionInitialized && decoder.beaconPositionInitialized then do
    let sent ← sendBeacons decoder.hedge.positionsBeacons decoder.beaconPosition
    some { decoder with
      vehiclePosition :=
        if decoder.hedge.haveNewValues then some decoder.curPosition else decoder.vehiclePosition
      beaconPosition := sent
      hedge := { decoder.hedge with
        positionsBeacons := { decoder.hedge.positionsBeacons with updated := false }
        haveNewValues := false } }
  else some decoder

/-! ### `update` -/

/-- The datagrams of the beacons. -/
def IsBeacons (dataId : UInt16) : Prop :=
  dataId = positionsDatagramId ∨ dataId = positionsDatagramHighresId

instance (dataId : UInt16) : Decidable (IsBeacons dataId) :=
  inferInstanceAs (Decidable (_ ∨ _))

/-- The ids that are known. -/
def IsDatagram (dataId : UInt16) : Prop :=
  dataId = positionDatagramId ∨ dataId = positionDatagramHighresId ∨ IsBeacons dataId

instance (dataId : UInt16) : Decidable (IsDatagram dataId) :=
  inferInstanceAs (Decidable (_ ∨ _ ∨ _))

/-- The length of a datagram that its id allows. -/
def goodLength (dataId : UInt16) (length : UInt8) : Bool :=
  if dataId = positionDatagramId then length == 0x10
  else if IsBeacons dataId then true
  else if dataId = positionDatagramHighresId then length == 0x16
  else false

/-- A byte of the header that is in the buffer. -/
def Decoder.receiveHeader (decoder : Decoder) (received : UInt8) : Option Decoder :=
  let reset : Decoder := { decoder with parseState := .recvHdr, numBytesInBlockReceived := 0 }
  let next : Decoder :=
    { decoder with numBytesInBlockReceived := decoder.numBytesInBlockReceived + 1 }
  match decoder.numBytesInBlockReceived with
  | 0 => some (if received = 0xff then next else reset)
  | 1 => some (if received = 0x47 then next else reset)
  | 2 => some next
  | 3 => do
    let low ← decoder.inputBuffer[2]?
    let dataId : UInt16 := received.toUInt16 <<< 8 + low.toUInt16
    some (if IsDatagram dataId then { next with dataId := dataId }
      else { reset with dataId := dataId })
  | 4 =>
    some (if goodLength decoder.dataId received then { next with parseState := .recvDgram }
      else reset)
  | _ => some reset

/-- The handler of a datagram, and what is sent to the front end behind it. -/
def Decoder.handle (decoder : Decoder) : Option Decoder :=
  if decoder.dataId = positionDatagramId then do
    let handled ← decoder.processPositionDatagram
    { handled with vehiclePositionInitialized := true }.setStationaryBeaconsPositionsAndDistances
  else if decoder.dataId = positionsDatagramId then do
    let handled ← decoder.processBeaconsPositionsDatagram
    { handled with beaconPositionInitialized := true }.setStationaryBeaconsPositionsAndDistances
  else if decoder.dataId = positionDatagramHighresId then do
    let handled ← decoder.processPositionHighresDatagram
    { handled with vehiclePositionInitialized := true }.setStationaryBeaconsPositionsAndDistances
  else if decoder.dataId = positionsDatagramHighresId then do
    let handled ← decoder.processBeaconsPositionsHighresDatagram
    { handled with beaconPositionInitialized := true }.setStationaryBeaconsPositionsAndDistances
  else some decoder

/-- A byte of the datagram that is in the buffer, and the datagram if it is handed to its
handler. -/
def Decoder.receiveDatagram (decoder : Decoder) : Option (Decoder × List Datagram) := do
  let length ← decoder.inputBuffer[4]?
  let received := decoder.numBytesInBlockReceived + 1
  if received ≥ 7 + length.toNat then
    let crc ← calcCrcModbus decoder.inputBuffer received
    let decoder : Decoder := { decoder with numBytesInBlockReceived := received }
    if crc = 0 then
      let handled ← decoder.handle
      some ({ handled with parseState := .recvHdr, numBytesInBlockReceived := 0 },
        [⟨decoder.dataId, decoder.inputBuffer.take received⟩])
    else some ({ decoder with parseState := .recvHdr, numBytesInBlockReceived := 0 }, [])
  else some ({ decoder with numBytesInBlockReceived := received }, [])

/-- One character in the loop of `update`. -/
def Decoder.receive (decoder : Decoder) (received : UInt8) :
    Option (Decoder × List Datagram) := do
  let inputBuffer ← write decoder.inputBuffer decoder.numBytesInBlockReceived received
  let decoder : Decoder := { decoder with inputBuffer := inputBuffer }
  match decoder.parseState with
  | .recvHdr => do
    let next ← decoder.receiveHeader received
    some (next, [])
  | .recvDgram => decoder.receiveDatagram

/-- The decoder and the datagrams that were handed to their handlers so far, behind one more
character. -/
def hear (state : Decoder × List Datagram) (received : UInt8) :
    Option (Decoder × List Datagram) := do
  let next ← state.1.receive received
  some (next.1, state.2 ++ next.2)

/-- `update`, with the characters that are available. -/
def update (state : Decoder × List Datagram) (available : List UInt8) :
    Option (Decoder × List Datagram) :=
  runSteps hear state available

/-- The decoder behind its constructor. -/
def start : Decoder where
  parseState := .recvHdr
  hedge :=
    { positionBuffer := List.replicate maxBufferedPositions ⟨0, 0, 0, 0, 0, false, false, false⟩
      positionsBeacons := ⟨0, List.replicate maxBeacons ⟨0, 0, 0, 0, false⟩, false⟩
      lastValuesCount := 0
      lastValuesNext := 0
      haveNewValues := false }
  curPosition := ⟨0, 0, 0, 0, 0, false, false, false⟩
  inputBuffer := List.replicate bufSize 0
  numBytesInBlockReceived := 0
  dataId := 0
  vehiclePosition := none
  vehiclePositionInitialized := false
  beaconPosition := List.replicate maxBeacons none
  beaconPositionInitialized := false

end Urus.Beacon
