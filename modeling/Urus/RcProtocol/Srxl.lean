/-
This file models `srxl_decode`, which takes the frames of an SRXL receiver out of a stream of bytes
with their times, and proves that its accesses stay inside its arrays on every stream.
-/

import Urus.RcProtocol.SerialDecoder

namespace Urus.RcProtocol.Srxl

/-! ### The code -/

/-- `STATE_IDLE`, `STATE_NEW` and `STATE_COLLECT`. -/
inductive DecodeState
  | idle
  | new
  | collect
  deriving DecidableEq

/-- `SRXL_MIN_FRAMESPACE_US`. -/
def minFramespaceUs : UInt64 := 8000

/-- `SRXL_MAX_CHANNELS`. -/
def channelsSize : ℕ := 20

/-- `SRXL_FRAMELEN_MAX`. -/
def framelenMax : ℕ := 35

/-- `SRXL_HEADER_V1`, `SRXL_HEADER_V2`, `SRXL_HEADER_V5` and `SRXL_HEADER_NOT_IMPL`. -/
def headerV1 : UInt8 := 0xA1
def headerV2 : UInt8 := 0xA2
def headerV5 : UInt8 := 0xA5
def headerNotImpl : UInt8 := 0xFF

/-- The length of the frames with a header. -/
def framelen (header : UInt8) : Option ℕ :=
  if header = headerV1 then some 27
  else if header = headerV2 then some 35
  else if header = headerV5 then some 18
  else none

/-- A byte and when it came. -/
structure Arrival where
  timestampUs : UInt64
  byte : UInt8
  deriving DecidableEq

/-- The static variables. -/
structure Decoder where
  buffer : List UInt8
  buflen : ℕ
  lastDataUs : UInt64
  channels : List ℕ
  frameHeader : UInt8
  frameLenFull : ℕ
  decodeState : DecodeState
  decodeStateNext : DecodeState
  crcFmu : UInt16
  maxChannels : ℕ
  deriving DecidableEq

/-- The decoder at first. -/
def start : Decoder where
  buffer := List.replicate framelenMax 0
  buflen := 0
  lastDataUs := 0
  channels := List.replicate channelsSize 0
  frameHeader := 0
  frameLenFull := 0
  decodeState := .idle
  decodeStateNext := .idle
  crcFmu := 0
  maxChannels := 0

/-- What is written back for a frame. -/
structure Report where
  numValues : ℕ
  values : List ℕ
  failsafeState : Bool
  deriving DecidableEq

/-- A channel of a frame of the first two versions. -/
def channelV1V2 (buffer : List UInt8) (loop : ℕ) : ℕ :=
  let raw := ((buffer.getD (loop * 2 + 1) 0).toNat &&& 0x0F) <<< 8 |||
    (buffer.getD (loop * 2 + 2) 0).toNat
  ((raw * 1400) >>> 12 + 800) % 2 ^ 16

/-- The accesses for it. -/
def accessesV1V2 (loop : ℕ) : List Access :=
  [.buffer ↑(loop * 2 + 1), .buffer ↑(loop * 2 + 2), .channel loop]

/-- The accesses of `memcpy` from the channels to the values. -/
def copied (numValues : ℕ) : List Access :=
  (List.range numValues).flatMap fun k => [.channel k, .value k]

/-- `srxl_channels_get_v1v2`. -/
def channelsGetV1V2 (maxValues : ℕ) (decoder : Decoder) : Decoder × Outcome Report :=
  let count := (decoder.frameLenFull - 3) / 2 % 2 ^ 8
  let channels := (List.range count).map (channelV1V2 decoder.buffer) ++
    decoder.channels.drop count
  let numValues := if count > maxValues then maxValues % 2 ^ 8 else count
  ({ decoder with channels := channels },
    { ret := 0
      report := some ⟨numValues, channels.take numValues, false⟩
      accesses := (List.range count).flatMap accessesV1V2 ++ copied numValues })

/-- A place of a frame of version 5: its channel, or the one that special values stand for, and the
value. -/
def placeV5 (buffer : List UInt8) (b : ℕ) : ℕ × ℤ :=
  if b >>> 11 = 12 then
    let c := 10 + (b >>> 9 &&& 0x7)
    (if (buffer.getD 1 0).toNat &&& 1 ≠ 0 then c + 4 else c, ↑((b &&& 0x1FF) <<< 2))
  else if b >>> 11 > 12 then (b >>> 11, 0)
  else (b >>> 11, ↑(b &&& 0x7FF))

/-- The pulse width for a value of version 5. -/
def scaleV5 (v : ℤ) : ℕ := ((((v - 0x400) * 500).tdiv 876 + 1500) % 2 ^ 16).toNat

/-- What stands at a place of a frame of version 5. -/
def rawV5 (buffer : List UInt8) (i : ℕ) : ℕ :=
  (buffer.getD (i * 2 + 2) 0).toNat <<< 8 ||| (buffer.getD (i * 2 + 3) 0).toNat

/-- One round of the loop over the places of a frame of version 5, which goes on with the channels
and their number. -/
def roundV5 (buffer : List UInt8) (known : List ℕ × ℕ) (i : ℕ) : (List ℕ × ℕ) × List Access :=
  let b := rawV5 buffer i
  let read : List Access := [.buffer ↑(i * 2 + 2), .buffer ↑(i * 2 + 3)]
  if b &&& 0x8000 ≠ 0 then (known, read)
  else
    let (c, v) := placeV5 buffer b
    let read := if b >>> 11 = 12 then read ++ [.buffer 1] else read
    if c < channelsSize then
      ((known.1.set c (scaleV5 v), if c ≥ known.2 then c + 1 else known.2), read ++ [.channel c])
    else (known, read)

/-- `srxl_channels_get_v5`. -/
def channelsGetV5 (maxValues : ℕ) (decoder : Decoder) : Decoder × Outcome Report :=
  let rounds := Framing.run (roundV5 decoder.buffer) (decoder.channels, decoder.maxChannels)
    (List.range 7)
  let known := rounds.1
  let count := known.2 % 2 ^ 8
  let numValues := if count > maxValues then maxValues % 2 ^ 8 else count
  ({ decoder with channels := known.1, maxChannels := known.2 },
    { ret := 0
      report := some ⟨numValues, known.1.take numValues,
        (decoder.buffer.getD 1 0).toNat &&& 2 = 0⟩
      accesses := rounds.2 ++ copied numValues ++ [.buffer 1] })

/-- The channels of a frame with the right checksum, by its header. -/
def Decoder.channelsGet (decoder : Decoder) (maxValues : ℕ) : Decoder × Outcome Report :=
  if decoder.frameHeader = headerV1 ∨ decoder.frameHeader = headerV2 then
    channelsGetV1V2 maxValues decoder
  else if decoder.frameHeader = headerV5 then channelsGetV5 maxValues decoder
  else (decoder, .silent 2 [])

/-- The checksum that the receiver has sent. -/
def Decoder.crcReceiver (decoder : Decoder) : UInt16 :=
  (decoder.buffer.getD (decoder.buflen - 2) 0).toUInt16 <<< 8 |||
    (decoder.buffer.getD (decoder.buflen - 1) 0).toUInt16

/-- A full frame: its checksum is looked at, and then its channels are taken out. -/
def Decoder.complete (decoder : Decoder) (maxValues : ℕ) : Decoder × Outcome Report :=
  let read : List Access := [.buffer (decoder.buflen - 2), .buffer (decoder.buflen - 1)]
  if decoder.crcReceiver = decoder.crcFmu then
    let got := decoder.channelsGet maxValues
    (got.1, { got.2 with accesses := read ++ got.2.accesses })
  else (decoder, .silent 4 read)

/-- The state that has been set for the next byte is taken, and the time is kept. -/
def Decoder.advance (decoder : Decoder) (timestampUs : UInt64) (next : DecodeState) : Decoder :=
  { decoder with decodeState := next, decodeStateNext := next, lastDataUs := timestampUs }

/-- A byte is stored, and added to the checksum unless it is one of the last two. -/
def Decoder.store (decoder : Decoder) (byte : UInt8) : Decoder :=
  { decoder with
    buffer := decoder.buffer.set decoder.buflen byte
    buflen := decoder.buflen + 1
    crcFmu :=
      if decoder.buflen + 1 + 2 ≤ decoder.frameLenFull then crc16 decoder.crcFmu byte
      else decoder.crcFmu }

/-- A byte inside a frame. -/
def Decoder.collect (decoder : Decoder) (maxValues : ℕ) (arrival : Arrival) :
    Decoder × Outcome Report :=
  if decoder.buflen ≥ decoder.frameLenFull then
    ({ decoder with
      decodeState := .idle
      buflen := 0
      frameLenFull := 0
      frameHeader := headerNotImpl }, .silent 2 [])
  else if decoder.buflen + 1 = decoder.frameLenFull then
    let result := (decoder.store arrival.byte).complete maxValues
    (result.1.advance arrival.timestampUs .idle,
      { result.2 with accesses := .buffer decoder.buflen :: result.2.accesses })
  else
    ((decoder.store arrival.byte).advance arrival.timestampUs .collect,
      .silent 1 [.buffer decoder.buflen])

/-- The switch over the state. -/
def Decoder.receive (decoder : Decoder) (maxValues : ℕ) (arrival : Arrival) :
    Decoder × Outcome Report :=
  match decoder.decodeState with
  | .new =>
    ({ decoder with
      buffer := decoder.buffer.set 0 arrival.byte
      crcFmu := crc16 0 arrival.byte
      buflen := 1 }.advance arrival.timestampUs .collect, .silent 1 [.buffer 0])
  | .collect => decoder.collect maxValues arrival
  | .idle => (decoder.advance arrival.timestampUs decoder.decodeStateNext, .silent 1 [])

/-- `srxl_decode`. -/
def decode (maxValues : ℕ) (decoder : Decoder) (arrival : Arrival) : Decoder × Outcome Report :=
  if arrival.timestampUs - decoder.lastDataUs ≥ minFramespaceUs then
    match framelen arrival.byte with
    | some length =>
      { decoder with
        frameLenFull := length
        frameHeader := arrival.byte
        decodeState := .new }.receive maxValues arrival
    | none =>
      ({ decoder with
        frameLenFull := 0
        frameHeader := headerNotImpl
        decodeState := .idle
        buflen := 0 }, .silent 2 [])
  else decoder.receive maxValues arrival

/-- The accesses for a byte. -/
def step (maxValues : ℕ) (decoder : Decoder) (arrival : Arrival) : Decoder × List Access :=
  ((decode maxValues decoder arrival).1, (decode maxValues decoder arrival).2.accesses)

/-! ### Bounds -/

/-- What holds between the bytes of a stream. -/
structure Bounded (decoder : Decoder) : Prop where
  frameLenFull : decoder.frameLenFull = 0 ∨
    18 ≤ decoder.frameLenFull ∧ decoder.frameLenFull ≤ framelenMax
  maxChannels : decoder.maxChannels ≤ channelsSize

/-- An access is inside the arrays of this decoder. -/
def Within (maxValues : ℕ) (access : Access) : Prop :=
  access.Within framelenMax channelsSize maxValues

theorem framelen_bounds {header : UInt8} {length : ℕ} (known : framelen header = some length) :
    18 ≤ length ∧ length ≤ framelenMax := by
  rw [framelen] at known
  split_ifs at known
  · rw [← Option.some.inj known]
    decide
  · rw [← Option.some.inj known]
    decide
  · rw [← Option.some.inj known]
    decide

theorem copied_within {maxValues numValues : ℕ} (known : numValues ≤ channelsSize)
    (room : numValues ≤ maxValues) : ∀ access ∈ copied numValues, Within maxValues access := by
  intro access member
  obtain ⟨k, below, member⟩ := List.mem_flatMap.mp member
  rw [List.mem_range] at below
  simp only [List.mem_cons, List.not_mem_nil, or_false] at member
  rcases member with rfl | rfl
  · exact below.trans_le known
  · exact fun _ => below.trans_le room

/-- The number of values that is left when the caller has less room. -/
theorem numValues_le (count maxValues : ℕ) :
    (if count > maxValues then maxValues % 2 ^ 8 else count) ≤ count ∧
      (if count > maxValues then maxValues % 2 ^ 8 else count) ≤ maxValues := by
  split_ifs with more
  · exact ⟨(Nat.mod_le _ _).trans more.le, Nat.mod_le _ _⟩
  · exact ⟨Nat.le_refl _, not_lt.mp more⟩

variable {decoder : Decoder}

theorem channelsGetV1V2_within (maxValues : ℕ) (short : decoder.frameLenFull ≤ framelenMax) :
    ∀ access ∈ (channelsGetV1V2 maxValues decoder).2.accesses, Within maxValues access := by
  have few : (decoder.frameLenFull - 3) / 2 % 2 ^ 8 ≤ 16 := by
    rw [framelenMax] at short
    omega
  obtain ⟨fewer, room⟩ := numValues_le ((decoder.frameLenFull - 3) / 2 % 2 ^ 8) maxValues
  have fits : 16 ≤ channelsSize := by decide
  intro access member
  refine (List.mem_append.mp member).elim (fun read => ?_)
    (copied_within (fewer.trans (few.trans fits)) room access)
  obtain ⟨loop, below, member⟩ := List.mem_flatMap.mp read
  have small : loop < 16 := (List.mem_range.mp below).trans_le few
  simp only [accessesV1V2, List.mem_cons, List.not_mem_nil, or_false] at member
  rcases member with rfl | rfl | rfl
  · exact ⟨by omega, by rw [framelenMax]; omega⟩
  · exact ⟨by omega, by rw [framelenMax]; omega⟩
  · exact small.trans_le fits

theorem roundV5_within (maxValues : ℕ) (buffer : List UInt8) {known : List ℕ × ℕ} {i : ℕ}
    (few : known.2 ≤ channelsSize) (small : i < 7) :
    (roundV5 buffer known i).1.2 ≤ channelsSize ∧
      ∀ access ∈ (roundV5 buffer known i).2, Within maxValues access := by
  have first : Within maxValues (.buffer ↑(i * 2 + 2)) :=
    ⟨by omega, by rw [framelenMax]; omega⟩
  have second : Within maxValues (.buffer ↑(i * 2 + 3)) :=
    ⟨by omega, by rw [framelenMax]; omega⟩
  have one : Within maxValues (.buffer 1) := ⟨by decide, by decide⟩
  have read : ∀ access ∈ [Access.buffer ↑(i * 2 + 2), .buffer ↑(i * 2 + 3)],
      Within maxValues access := by
    intro access member
    simp only [List.mem_cons, List.not_mem_nil, or_false] at member
    rcases member with rfl | rfl
    · exact first
    · exact second
  rw [roundV5]
  dsimp only
  by_cases plus : rawV5 buffer i &&& 0x8000 ≠ 0
  · rw [if_pos plus]
    exact ⟨few, read⟩
  rw [if_neg plus]
  have further : ∀ access ∈ (if rawV5 buffer i >>> 11 = 12 then
      [Access.buffer ↑(i * 2 + 2), .buffer ↑(i * 2 + 3)] ++ [.buffer 1]
      else [Access.buffer ↑(i * 2 + 2), .buffer ↑(i * 2 + 3)]), Within maxValues access := by
    intro access member
    split_ifs at member
    · refine (List.mem_append.mp member).elim (read access) fun last => ?_
      rw [List.mem_singleton.mp last]
      exact one
    · exact read access member
  obtain ⟨c, v⟩ := placeV5 buffer (rawV5 buffer i)
  dsimp only
  by_cases inside : c < channelsSize
  · rw [if_pos inside]
    refine ⟨?_, fun access member => ?_⟩
    · dsimp only
      split_ifs
      · exact inside
      · exact few
    · refine (List.mem_append.mp member).elim (further access) fun last => ?_
      rw [List.mem_singleton.mp last]
      exact inside
  · rw [if_neg inside]
    exact ⟨few, further⟩

theorem channelsGetV5_within (maxValues : ℕ) (bounded : Bounded decoder) :
    Bounded (channelsGetV5 maxValues decoder).1 ∧
      ∀ access ∈ (channelsGetV5 maxValues decoder).2.accesses, Within maxValues access := by
  have rounds : (Framing.run (roundV5 decoder.buffer) (decoder.channels, decoder.maxChannels)
        (List.range 7)).1.2 ≤ channelsSize ∧
      ∀ access ∈ (Framing.run (roundV5 decoder.buffer) (decoder.channels, decoder.maxChannels)
        (List.range 7)).2, Within maxValues access :=
    Framing.run_invariant_mem (roundV5 decoder.buffer) (fun known => known.2 ≤ channelsSize)
      (fun _ _ member few => roundV5_within maxValues decoder.buffer few (List.mem_range.mp member))
      bounded.maxChannels
  obtain ⟨few, within⟩ := rounds
  refine ⟨⟨bounded.frameLenFull, few⟩, fun access member => ?_⟩
  rcases List.mem_append.mp member with member | last
  · refine (List.mem_append.mp member).elim (within access) fun copy => ?_
    obtain ⟨fewer, room⟩ := numValues_le _ maxValues
    exact copied_within (fewer.trans ((Nat.mod_le _ _).trans few)) room access copy
  · rw [List.mem_singleton.mp last]
    exact ⟨by decide, by decide⟩

theorem Bounded.short (bounded : Bounded decoder) :
    decoder.frameLenFull ≤ framelenMax :=
  bounded.frameLenFull.elim (fun none => none.trans_le (Nat.zero_le _)) And.right

theorem channelsGet_within (maxValues : ℕ) (bounded : Bounded decoder) :
    Bounded (decoder.channelsGet maxValues).1 ∧
      ∀ access ∈ (decoder.channelsGet maxValues).2.accesses, Within maxValues access := by
  rw [Decoder.channelsGet]
  split_ifs
  · exact ⟨⟨bounded.frameLenFull, bounded.maxChannels⟩,
      channelsGetV1V2_within maxValues bounded.short⟩
  · exact channelsGetV5_within maxValues bounded
  · exact ⟨bounded, within_nil _ _ _⟩

/-- A full frame stays inside. -/
theorem complete_within (maxValues : ℕ) (bounded : Bounded decoder) (atLeast : 2 ≤ decoder.buflen)
    (atMost : decoder.buflen ≤ framelenMax) :
    Bounded (decoder.complete maxValues).1 ∧
      ∀ access ∈ (decoder.complete maxValues).2.accesses, Within maxValues access := by
  have read : ∀ access ∈ [Access.buffer (decoder.buflen - 2), .buffer (decoder.buflen - 1)],
      Within maxValues access := by
    intro access member
    simp only [List.mem_cons, List.not_mem_nil, or_false] at member
    rcases member with rfl | rfl
    · exact ⟨by omega, by omega⟩
    · exact ⟨by omega, by omega⟩
  rw [Decoder.complete]
  dsimp only
  split_ifs
  · obtain ⟨kept, within⟩ := channelsGet_within maxValues bounded
    exact ⟨kept, fun access member =>
      (List.mem_append.mp member).elim (read access) (within access)⟩
  · exact ⟨bounded, read⟩

/-- A byte inside a frame stays inside. -/
theorem collect_within (maxValues : ℕ) (arrival : Arrival) (bounded : Bounded decoder) :
    Bounded (decoder.collect maxValues arrival).1 ∧
      ∀ access ∈ (decoder.collect maxValues arrival).2.accesses, Within maxValues access := by
  have short := bounded.short
  rw [Decoder.collect]
  by_cases full : decoder.buflen ≥ decoder.frameLenFull
  · rw [if_pos full]
    exact ⟨⟨Or.inl rfl, bounded.maxChannels⟩, within_nil _ _ _⟩
  rw [if_neg full]
  have here : Within maxValues (.buffer decoder.buflen) := ⟨by omega, by omega⟩
  dsimp only
  by_cases last : decoder.buflen + 1 = decoder.frameLenFull
  · rw [if_pos last]
    have long : 2 ≤ decoder.buflen + 1 := by
      rcases bounded.frameLenFull with none | ⟨some, -⟩
      · omega
      · omega
    have fits : decoder.buflen + 1 ≤ framelenMax := last.trans_le short
    have stored : Bounded (decoder.store arrival.byte) :=
      ⟨bounded.frameLenFull, bounded.maxChannels⟩
    obtain ⟨kept, within⟩ := complete_within maxValues stored long fits
    refine ⟨⟨kept.frameLenFull, kept.maxChannels⟩, fun access member => ?_⟩
    rcases List.mem_cons.mp member with rfl | later
    · exact here
    · exact within access later
  · rw [if_neg last]
    refine ⟨⟨bounded.frameLenFull, bounded.maxChannels⟩, fun access member => ?_⟩
    rw [List.mem_singleton.mp member]
    exact here

theorem receive_within (maxValues : ℕ) (arrival : Arrival) (bounded : Bounded decoder) :
    Bounded (decoder.receive maxValues arrival).1 ∧
      ∀ access ∈ (decoder.receive maxValues arrival).2.accesses, Within maxValues access := by
  obtain ⟨frameLenFull, maxChannels⟩ := bounded
  rw [Decoder.receive]
  cases decoder.decodeState with
  | new =>
    refine ⟨⟨frameLenFull, maxChannels⟩, fun access member => ?_⟩
    rw [List.mem_singleton.mp member]
    exact ⟨by decide, by decide⟩
  | collect => exact collect_within maxValues arrival ⟨frameLenFull, maxChannels⟩
  | idle => exact ⟨⟨frameLenFull, maxChannels⟩, within_nil _ _ _⟩

/-- One byte keeps the bounds, and its accesses are inside, whenever it comes. -/
theorem step_within (maxValues : ℕ) (arrival : Arrival) (bounded : Bounded decoder) :
    Bounded (step maxValues decoder arrival).1 ∧
      ∀ access ∈ (step maxValues decoder arrival).2, Within maxValues access := by
  rw [step, decode]
  by_cases gap : arrival.timestampUs - decoder.lastDataUs ≥ minFramespaceUs
  · rw [if_pos gap]
    cases known : framelen arrival.byte with
    | none => exact ⟨⟨Or.inl rfl, bounded.maxChannels⟩, within_nil _ _ _⟩
    | some length =>
      exact receive_within maxValues arrival
        ⟨Or.inr (framelen_bounds known), bounded.maxChannels⟩
  · rw [if_neg gap]
    exact receive_within maxValues arrival bounded

/-- All accesses are inside, on every stream. -/
theorem run_within (maxValues : ℕ) (arrivals : List Arrival) :
    ∀ access ∈ (Framing.run (step maxValues) start arrivals).2, Within maxValues access :=
  have bounded : Bounded start := ⟨Or.inl rfl, Nat.zero_le _⟩
  (Framing.run_invariant (step maxValues)
    (fun _ arrival kept => step_within maxValues arrival kept) bounded arrivals).2

end Urus.RcProtocol.Srxl
