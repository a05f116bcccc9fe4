/-
This file proves that the handlers of the datagrams stay within the buffer and the arrays, and that
they keep what the table of the beacons holds.
-/

import Urus.Beacon.Table

namespace Urus.Beacon

/-! ### Reading the buffer -/

/-- A reading that needs some bytes from an index on: it has a result if they are there, and does not
depend on what is behind them. -/
structure Reads {Value : Type} (size : ℕ) (read : List UInt8 → ℕ → Option Value) : Prop where
  result : ∀ buffer index, index + size ≤ buffer.length → ∃ value, read buffer index = some value
  front : ∀ buffer index count, index + size ≤ count →
    read (buffer.take count) index = read buffer index

variable {Value Other : Type} {size total : ℕ} {read : List UInt8 → ℕ → Option Value}

theorem Reads.shift (reads : Reads size read) (offset : ℕ) (fits : offset + size ≤ total) :
    Reads total fun buffer index => read buffer (index + offset) where
  result buffer index inside := reads.result buffer (index + offset) (by omega)
  front buffer index count inside := reads.front buffer (index + offset) count (by omega)

/-- One reading after another. -/
theorem Reads.bind {next : Value → List UInt8 → ℕ → Option Other} (reads : Reads size read)
    (readsNext : ∀ value, Reads size (next value)) :
    Reads size fun buffer index => (read buffer index).bind fun value => next value buffer index
    where
  result buffer index inside := by
    obtain ⟨value, found⟩ := reads.result buffer index inside
    rw [found]
    exact (readsNext value).result buffer index inside
  front buffer index count inside := by
    rw [reads.front buffer index count inside]
    exact Option.bind_congr fun value _ => (readsNext value).front buffer index count inside

theorem reads_some (value : Value) : Reads size fun _ _ => some value where
  result _ _ _ := ⟨value, rfl⟩
  front _ _ _ _ := rfl

theorem reads_byte (offset : ℕ) (fits : offset + 1 ≤ total) :
    Reads total fun buffer index => buffer[index + offset]? where
  result buffer index inside :=
    have there : index + offset < buffer.length := by omega
    ⟨buffer[index + offset], List.getElem?_eq_getElem there⟩
  front buffer index count inside :=
    have before : index + offset < count := by omega
    List.getElem?_take_of_lt before

theorem reads_int16At : Reads 2 int16At :=
  (reads_byte 0 (by decide)).bind fun _ =>
    (reads_byte 1 (by decide)).bind fun _ => reads_some _

theorem reads_uint32At : Reads 4 uint32At :=
  (reads_byte 0 (by decide)).bind fun _ =>
    (reads_byte 1 (by decide)).bind fun _ =>
      (reads_byte 2 (by decide)).bind fun _ =>
        (reads_byte 3 (by decide)).bind fun _ => reads_some _

theorem reads_int32At : Reads 4 int32At where
  result buffer index inside := by
    obtain ⟨value, found⟩ := reads_uint32At.result buffer index inside
    exact ⟨_, congrArg (Option.map _) found⟩
  front buffer index count inside :=
    congrArg (Option.map _) (reads_uint32At.front buffer index count inside)

theorem reads_coordinates16 : Reads 6 fun buffer index => coordinates16 index buffer :=
  (reads_int16At.shift 0 (by decide)).bind fun _ =>
    (reads_int16At.shift 2 (by decide)).bind fun _ =>
      (reads_int16At.shift 4 (by decide)).bind fun _ => reads_some _

theorem reads_coordinates32 : Reads 12 fun buffer index => coordinates32 index buffer :=
  (reads_int32At.shift 0 (by decide)).bind fun _ =>
    (reads_int32At.shift 4 (by decide)).bind fun _ =>
      (reads_int32At.shift 8 (by decide)).bind fun _ => reads_some _

/-- A beacon in a datagram takes a byte for the address and then the coordinates. -/
theorem reads_beacon {readCoordinates : ℕ → List UInt8 → Option (ℤ × ℤ × ℤ)}
    (reads : Reads size fun buffer index => readCoordinates index buffer) (highResolution : Bool)
    (fits : size + 1 ≤ total) : Reads total (readBeacon readCoordinates highResolution) :=
  (reads_byte 0 (by omega)).bind fun _ =>
    (reads.shift 1 (by omega)).bind fun _ => reads_some _

/-! ### The beacons of a datagram -/

/-- The beacons in a frame, if it has the size for them. -/
def beaconsOf (size : ℕ) (read : List UInt8 → ℕ → Option StationaryBeaconPosition)
    (frame : List UInt8) : List StationaryBeaconPosition :=
  match frame[5]?, frame[4]? with
  | some count, some length =>
    if 1 + count.toNat * size ≠ length.toNat then []
    else (List.range count.toNat).filterMap fun index => read frame (6 + index * size)
  | _, _ => []

/-- The beacons that a datagram reports. -/
def Datagram.beacons (datagram : Datagram) : List StationaryBeaconPosition :=
  if datagram.dataId = positionsDatagramId then
    beaconsOf 8 (readBeacon coordinates16 false) datagram.frame
  else if datagram.dataId = positionsDatagramHighresId then
    beaconsOf 14 (readBeacon coordinates32 true) datagram.frame
  else []

section Loop

variable {readEntry : List UInt8 → ℕ → Option StationaryBeaconPosition} {buffer : List UInt8}
  {reports : List StationaryBeaconPosition} {table : StationaryBeaconsPositions}

theorem beaconsLoop_spec (reads : Reads size readEntry) (sound : Sound reports table)
    {rounds index : ℕ} (small : buffer.length ≤ 256)
    (inside : 6 + (index + rounds) * size ≤ buffer.length) :
    ∃ next, beaconsLoop size readEntry buffer rounds index table = some next ∧
      Sound (reports ++ (List.range' index rounds).filterMap fun position =>
        readEntry buffer (6 + position * size)) next := by
  induction rounds generalizing index reports table with
  | zero =>
    refine ⟨table, rfl, ?_⟩
    rw [List.range'_zero, List.filterMap_nil, List.append_nil]
    exact sound
  | succ rounds inductionHypothesis =>
    have further : (index + (rounds + 1)) * size = index * size + size + rounds * size := by ring
    have onward : (index + 1 + rounds) * size = index * size + size + rounds * size := by ring
    have here : 6 + index * size + size ≤ buffer.length := by omega
    have unwrapped : (6 + index * size) % 256 = 6 + index * size := by
      rcases Nat.eq_zero_or_pos size with none | some
      · rw [none]
        rfl
      · exact Nat.mod_eq_of_lt (by omega)
    obtain ⟨beacon, found⟩ := reads.result buffer (6 + index * size) here
    obtain ⟨stored, storing, soundBehind⟩ := store_spec sound beacon
    have insideNext : 6 + (index + 1 + rounds) * size ≤ buffer.length := by omega
    obtain ⟨next, result, soundNext⟩ := inductionHypothesis soundBehind insideNext
    rw [beaconsLoop, unwrapped, found]
    dsimp only [Option.bind_eq_bind, Option.bind_some]
    rw [storing]
    refine ⟨next, result, ?_⟩
    rw [List.append_assoc] at soundNext
    rw [List.range'_succ, List.filterMap_cons, found]
    exact soundNext

end Loop

/-! ### The handlers -/

/-- The arrays have their sizes, and the table holds what the datagrams so far have reported. -/
structure Intact (decoder : Decoder) (datagrams : List Datagram) : Prop where
  buffer : decoder.inputBuffer.length = bufSize
  positions : decoder.hedge.positionBuffer.length = maxBufferedPositions
  next : decoder.hedge.lastValuesNext < maxBufferedPositions
  sent : decoder.beaconPosition.length = maxBeacons
  table : Sound (datagrams.flatMap Datagram.beacons) decoder.hedge.positionsBeacons
  ascending : Ascending decoder.hedge.positionsBeacons.stored

variable {decoder : Decoder} {datagrams : List Datagram}

/-- What the handlers do not change. -/
structure SameInput (decoder next : Decoder) : Prop where
  buffer : next.inputBuffer = decoder.inputBuffer
  dataId : next.dataId = decoder.dataId

theorem Sound.silence {reports : List StationaryBeaconPosition}
    {table : StationaryBeaconsPositions} (sound : Sound reports table)
    (ascending : Ascending table.stored) : Sound reports { table with updated := false } :=
  sound_of_stored rfl sound.size sound.used sound.distinct sound.latest fun _ => ascending

theorem sendLoop_spec {beacons : List StationaryBeaconPosition} {rounds index : ℕ}
    {sent : List (Option StationaryBeaconPosition)} (inside : index + rounds ≤ beacons.length)
    (inside' : index + rounds ≤ sent.length) :
    ∃ sent', sendLoop beacons rounds index sent = some sent' ∧ sent'.length = sent.length := by
  induction rounds generalizing index sent with
  | zero => exact ⟨sent, rfl, rfl⟩
  | succ rounds inductionHypothesis =>
    have here : index < beacons.length := by omega
    have here' : index < sent.length := by omega
    have insideNext : index + 1 + rounds ≤ beacons.length := by omega
    have insideNext' : index + 1 + rounds ≤ (sent.set index (some beacons[index])).length := by
      rw [List.length_set]
      omega
    obtain ⟨sent', result, length⟩ := inductionHypothesis insideNext insideNext'
    rw [sendLoop, List.getElem?_eq_getElem here]
    dsimp only [Option.bind_eq_bind, Option.bind_some]
    rw [write_inside here']
    exact ⟨sent', result, length.trans List.length_set⟩

/-- Sending to the front end stays within the arrays. -/
theorem setStationaryBeaconsPositionsAndDistances_spec (intact : Intact decoder datagrams) :
    ∃ next, decoder.setStationaryBeaconsPositionsAndDistances = some next ∧
      Intact next datagrams ∧ SameInput decoder next := by
  rw [Decoder.setStationaryBeaconsPositionsAndDistances]
  by_cases initialized :
      (decoder.vehiclePositionInitialized && decoder.beaconPositionInitialized) = true
  · rw [if_pos initialized]
    have inside : 0 + decoder.hedge.positionsBeacons.numBeacons ≤
        decoder.hedge.positionsBeacons.beacons.length := by
      rw [Nat.zero_add, intact.table.size]
      exact intact.table.used
    have inside' : 0 + decoder.hedge.positionsBeacons.numBeacons ≤
        decoder.beaconPosition.length := by
      rw [Nat.zero_add, intact.sent]
      exact intact.table.used
    have sending : ∃ sent, sendBeacons decoder.hedge.positionsBeacons decoder.beaconPosition =
        some sent ∧ sent.length = maxBeacons := by
      rw [sendBeacons]
      split_ifs
      · obtain ⟨sent, result, length⟩ := sendLoop_spec inside inside'
        exact ⟨sent, result, length.trans intact.sent⟩
      · exact ⟨decoder.beaconPosition, rfl, intact.sent⟩
    obtain ⟨sent, result, length⟩ := sending
    rw [result]
    exact ⟨_, rfl, ⟨intact.buffer, intact.positions, intact.next, length,
      intact.table.silence intact.ascending, intact.ascending⟩, rfl, rfl⟩
  · rw [if_neg initialized]
    exact ⟨decoder, rfl, intact, rfl, rfl⟩

/-- A handler of a position stays within the buffer and the positions. -/
theorem processPosition_spec (addressIndex : ℕ)
    {readCoordinates : List UInt8 → Option (ℤ × ℤ × ℤ)} (highResolution : Bool)
    (intact : Intact decoder datagrams) (inside : addressIndex < bufSize)
    (reads : ∃ coordinates, readCoordinates decoder.inputBuffer = some coordinates) :
    ∃ next, decoder.processPosition addressIndex readCoordinates highResolution = some next ∧
      Intact next datagrams ∧ SameInput decoder next := by
  have place : decoder.hedge.lastValuesNext < decoder.hedge.positionBuffer.length :=
    intact.positions ▸ intact.next
  have long : 5 + 4 ≤ decoder.inputBuffer.length := by
    rw [intact.buffer]
    decide
  obtain ⟨timestamp, timestampRead⟩ := reads_uint32At.result decoder.inputBuffer 5 long
  obtain ⟨coordinates, coordinatesRead⟩ := reads
  rw [Decoder.processPosition, List.getElem?_eq_getElem place,
    List.getElem?_eq_getElem (intact.buffer ▸ inside), timestampRead, coordinatesRead]
  dsimp only [Option.bind_eq_bind, Option.bind_some]
  rw [write_inside place]
  dsimp only [Option.bind_some]
  rw [MarvelmindHedge.markPositionReady]
  dsimp only
  rw [List.getElem?_set_self place]
  dsimp only [Option.bind_eq_bind, Option.bind_some]
  rw [write_inside (by rw [List.length_set]; exact place)]
  dsimp only [Option.bind_some]
  rw [List.getElem?_set_self (by rw [List.length_set]; exact place)]
  refine ⟨_, rfl, ⟨intact.buffer, ?_, ?_, intact.sent, intact.table, intact.ascending⟩, rfl, rfl⟩
  · exact List.length_set.trans (List.length_set.trans intact.positions)
  · dsimp only
    split_ifs with last
    · decide
    · exact Nat.not_le.mp last

/-- A handler of the beacons stays within the buffer, and stores the beacons of its datagram. -/
theorem processBeaconsPositions_spec
    {readEntry : List UInt8 → ℕ → Option StationaryBeaconPosition} (reads : Reads size readEntry)
    (intact : Intact decoder datagrams) {length : UInt8} (there : decoder.inputBuffer[4]? = some length)
    {received : ℕ} (complete : received = 7 + length.toNat) (short : received ≤ bufSize)
    {datagram : Datagram} (reported : datagram.beacons =
      beaconsOf size readEntry (decoder.inputBuffer.take received)) :
    ∃ next, decoder.processBeaconsPositions size readEntry = some next ∧
      Intact next (datagrams ++ [datagram]) ∧ SameInput decoder next := by
  have long : 5 < decoder.inputBuffer.length := by
    rw [intact.buffer]
    decide
  have counted : decoder.inputBuffer[5]? = some decoder.inputBuffer[5] :=
    List.getElem?_eq_getElem long
  generalize decoder.inputBuffer[5] = count at counted
  have reports : (datagrams ++ [datagram]).flatMap Datagram.beacons =
      datagrams.flatMap Datagram.beacons ++ datagram.beacons := by
    rw [List.flatMap_append, List.flatMap_singleton]
  have countedFrame : (decoder.inputBuffer.take received)[5]? = some count :=
    (List.getElem?_take_of_lt (by omega)).trans counted
  have thereFrame : (decoder.inputBuffer.take received)[4]? = some length :=
    (List.getElem?_take_of_lt (by omega)).trans there
  rw [Decoder.processBeaconsPositions, counted, there]
  dsimp only [Option.bind_eq_bind, Option.bind_some]
  rw [beaconsOf, countedFrame, thereFrame] at reported
  dsimp only at reported
  by_cases wrong : 1 + count.toNat * size ≠ length.toNat
  · rw [if_pos wrong] at reported ⊢
    rw [reported, List.append_nil] at reports
    exact ⟨decoder, rfl, ⟨intact.buffer, intact.positions, intact.next, intact.sent,
      reports ▸ intact.table, intact.ascending⟩, rfl, rfl⟩
  · rw [if_neg wrong] at reported ⊢
    have right : 1 + count.toNat * size = length.toNat := not_not.mp wrong
    have bound : decoder.inputBuffer.length = 255 := intact.buffer
    have bound' : received ≤ 255 := short
    have inside : 6 + (0 + count.toNat) * size ≤ decoder.inputBuffer.length := by
      rw [Nat.zero_add]
      omega
    obtain ⟨stored, storing, soundStored⟩ :=
      beaconsLoop_spec reads intact.table (by omega) inside
    obtain ⟨ordered, ordering, soundOrdered, ascending⟩ := order_spec soundStored
    have same : (List.range' 0 count.toNat).filterMap (fun position =>
        readEntry decoder.inputBuffer (6 + position * size)) = datagram.beacons := by
      rw [reported, List.range_eq_range']
      refine List.filterMap_congr fun index member => (reads.front _ _ _ ?_).symm
      obtain ⟨-, below⟩ := List.mem_range'_1.mp member
      have fits : (index + 1) * size ≤ count.toNat * size :=
        Nat.mul_le_mul_right size (by omega)
      rw [Nat.succ_mul] at fits
      omega
    rw [storing]
    dsimp only [Option.bind_some]
    rw [ordering]
    refine ⟨_, rfl, ⟨intact.buffer, intact.positions, intact.next, intact.sent, ?_, ascending⟩,
      rfl, rfl⟩
    rw [reports, ← same]
    exact soundOrdered

theorem Intact.silent (intact : Intact decoder datagrams) (datagram : Datagram)
    (none : ¬ IsBeacons datagram.dataId) : Intact decoder (datagrams ++ [datagram]) := by
  obtain ⟨low, high⟩ := not_or.mp none
  have silence : (datagrams ++ [datagram]).flatMap Datagram.beacons =
      datagrams.flatMap Datagram.beacons := by
    rw [List.flatMap_append, List.flatMap_singleton, Datagram.beacons, if_neg low, if_neg high,
      List.append_nil]
  exact ⟨intact.buffer, intact.positions, intact.next, intact.sent, silence ▸ intact.table,
    intact.ascending⟩

theorem SameInput.trans {between next : Decoder} (first : SameInput decoder between)
    (second : SameInput between next) : SameInput decoder next :=
  ⟨second.buffer.trans first.buffer, second.dataId.trans first.dataId⟩

/-- A handler and what is sent behind it, with the change of a flag between them. -/
theorem handle_bind {next : Decoder → Decoder} {result : Option Decoder}
    (handling : ∃ handled, result = some handled ∧ Intact handled datagrams ∧
      SameInput decoder handled)
    (flagged : ∀ handled, Intact handled datagrams →
      Intact (next handled) datagrams ∧ SameInput handled (next handled)) :
    ∃ sent, (result.bind fun handled =>
        (next handled).setStationaryBeaconsPositionsAndDistances) = some sent ∧
      Intact sent datagrams ∧ SameInput decoder sent := by
  obtain ⟨handled, same, intact, input⟩ := handling
  obtain ⟨intactFlagged, inputFlagged⟩ := flagged handled intact
  obtain ⟨sent, sending, intactSent, inputSent⟩ :=
    setStationaryBeaconsPositionsAndDistances_spec intactFlagged
  rw [same]
  exact ⟨sent, sending, intactSent, input.trans (inputFlagged.trans inputSent)⟩

/-- The handler of a complete datagram. -/
theorem handle_spec (intact : Intact decoder datagrams) (known : IsDatagram decoder.dataId)
    {length : UInt8} (there : decoder.inputBuffer[4]? = some length) {received : ℕ}
    (complete : received = 7 + length.toNat) (short : received ≤ bufSize) :
    ∃ handled, decoder.handle = some handled ∧
      Intact handled (datagrams ++ [⟨decoder.dataId, decoder.inputBuffer.take received⟩]) ∧
      SameInput decoder handled := by
  have bound : decoder.inputBuffer.length = 255 := intact.buffer
  let datagram : Datagram := ⟨decoder.dataId, decoder.inputBuffer.take received⟩
  have vehicle : ∀ handled {others : List Datagram}, Intact handled others →
      Intact { handled with vehiclePositionInitialized := true } others ∧
        SameInput handled { handled with vehiclePositionInitialized := true } :=
    fun _ _ whole => ⟨⟨whole.buffer, whole.positions, whole.next, whole.sent, whole.table,
      whole.ascending⟩, rfl, rfl⟩
  have beacon : ∀ handled {others : List Datagram}, Intact handled others →
      Intact { handled with beaconPositionInitialized := true } others ∧
        SameInput handled { handled with beaconPositionInitialized := true } :=
    fun _ _ whole => ⟨⟨whole.buffer, whole.positions, whole.next, whole.sent, whole.table,
      whole.ascending⟩, rfl, rfl⟩
  rw [Decoder.handle]
  by_cases position : decoder.dataId = positionDatagramId
  · rw [if_pos position]
    have none : ¬ IsBeacons decoder.dataId := by
      rw [position]
      decide
    have coordinates := reads_coordinates16.result decoder.inputBuffer 9 (by omega)
    have handling := processPosition_spec 16 false (intact.silent datagram none)
      (by decide) coordinates
    exact handle_bind handling fun handled => vehicle handled
  rw [if_neg position]
  by_cases positions : decoder.dataId = positionsDatagramId
  · rw [if_pos positions]
    have reads : Reads 8 (readBeacon coordinates16 false) :=
      reads_beacon reads_coordinates16 false (by decide)
    have reported : datagram.beacons = beaconsOf 8 (readBeacon coordinates16 false)
        (decoder.inputBuffer.take received) := if_pos positions
    have handling := processBeaconsPositions_spec reads intact there complete short reported
    exact handle_bind handling fun handled => beacon handled
  rw [if_neg positions]
  by_cases highres : decoder.dataId = positionDatagramHighresId
  · rw [if_pos highres]
    have none : ¬ IsBeacons decoder.dataId := by
      rw [highres]
      decide
    have coordinates := reads_coordinates32.result decoder.inputBuffer 9 (by omega)
    have handling := processPosition_spec 22 true (intact.silent datagram none)
      (by decide) coordinates
    exact handle_bind handling fun handled => vehicle handled
  rw [if_neg highres]
  have positionsHighres : decoder.dataId = positionsDatagramHighresId := by
    rcases known with low | high | low | high
    · exact absurd low position
    · exact absurd high highres
    · exact absurd low positions
    · exact high
  rw [if_pos positionsHighres]
  have reads : Reads 14 (readBeacon coordinates32 true) :=
    reads_beacon reads_coordinates32 true (by decide)
  have reported : datagram.beacons = beaconsOf 14 (readBeacon coordinates32 true)
      (decoder.inputBuffer.take received) :=
    (if_neg positions).trans (if_pos positionsHighres)
  have handling := processBeaconsPositions_spec reads intact there complete short reported
  exact handle_bind handling fun handled => beacon handled

end Urus.Beacon
