/-
This file models `st24_decode`, which takes the frames of an ST24 receiver out of a stream of bytes,
and proves when its accesses stay inside its arrays.

The length of a frame comes from the stream and is only checked from above. The bytes of a frame are
counted up to the length less one, so a frame with a length below three never ends. The channels are
written two at a time, so an odd number of them is exceeded by one.

What an access outside the array does to the memory behind it is left out.
-/

import Urus.RcProtocol.SerialDecoder

namespace Urus.RcProtocol.St24

/-! ### The code -/

/-- `ST24_DECODE_STATE`. -/
inductive DecodeState
  | unsynced
  | gotStx1
  | gotStx2
  | gotLen
  | gotType
  | gotData
  deriving DecidableEq

/-- `ST24_DATA_LEN_MAX`. -/
def dataLenMax : ℕ := 64

/-- `ST24_STX1`, which is also `ST24_STX2`. -/
def stx : UInt8 := 0x55

/-- The static variables: `_decode_state`, `_rxlen` and `_rxpacket`. -/
structure Decoder where
  decodeState : DecodeState
  rxlen : ℕ
  length : ℕ
  type : UInt8
  st24Data : List UInt8
  deriving DecidableEq

/-- The decoder at first. -/
def start : Decoder := ⟨.unsynced, 0, 0, 0, List.replicate dataLenMax 0⟩

/-- One round of the inner loop of `st24_common_crc8`, for one bit of the byte. -/
def crc8Bit (byte crc : UInt8) (i : UInt8) : UInt8 :=
  let crc := if crc &&& 0x80 ≠ 0 then (crc <<< 1) ^^^ 0x07 else crc <<< 1
  if byte &&& i ≠ 0 then crc ^^^ 0x07 else crc

/-- `st24_common_crc8`. -/
def crc8 (bytes : List UInt8) : UInt8 :=
  bytes.foldl (fun crc byte =>
    [0x80, 0x40, 0x20, 0x10, 0x08, 0x04, 0x02, 0x01].foldl (crc8Bit byte) crc) 0

/-- The bytes of the packet over which the checksum goes. -/
def Decoder.covered (decoder : Decoder) (count : ℕ) : List UInt8 :=
  (UInt8.ofNat decoder.length :: decoder.type :: decoder.st24Data).take count

/-- What is written back for a packet with channels. -/
structure Report where
  rssi : UInt8
  rxCount : UInt8
  channelCount : ℕ
  channels : List ℕ
  deriving DecidableEq

/-- A raw value of 12 bits as a pulse width. The scale is 1000 / 4096, and the offset is 999. -/
def scale (raw : ℕ) : ℕ := (raw * 250 + 512) / 1024 + 999

/-- The two channels in three bytes of channel data. -/
def channelPair (channel : List UInt8) (i : ℕ) : List ℕ :=
  let first := (channel.getD i 0).toNat
  let second := (channel.getD (i + 1) 0).toNat
  let third := (channel.getD (i + 2) 0).toNat
  [scale (first <<< 4 ||| (0xF0 &&& second) >>> 4), scale (third ||| (0x0F &&& second) <<< 8)]

/-- The accesses for two channels. The channel data begins behind four bytes. -/
def pairAccesses (i chanIndex : ℕ) : List Access :=
  [.buffer ↑(4 + i), .buffer ↑(4 + i + 1), .value chanIndex, .buffer ↑(4 + i + 2),
    .buffer ↑(4 + i + 1), .value (chanIndex + 1)]

/-- The channels of a packet, of which there are most. -/
def decodeChannels (decoder : Decoder) (maxChanCount most : ℕ) : Outcome Report :=
  let channelCount := if maxChanCount < most then maxChanCount else most
  let strideCount := channelCount * 3 / 2
  let rounds := List.range ((strideCount + 2) / 3)
  { ret := 0
    report := some
      { rssi := decoder.st24Data.getD 2 0
        rxCount := decoder.st24Data.getD 3 0
        channelCount := channelCount
        channels := rounds.flatMap fun round =>
          channelPair (decoder.st24Data.drop 4) (3 * round) }
    accesses := [.buffer 2, .buffer 3] ++
      rounds.flatMap fun round => pairAccesses (3 * round) (2 * round) }

/-- The number of channels in a packet of a type, if it has any: `CHANNELDATA12` and
`CHANNELDATA24`. -/
def channelsOf (type : UInt8) : Option ℕ :=
  if type = 0 then some 12 else if type = 1 then some 24 else none

/-- The checksum of a packet is right. -/
def Decoder.Checks (decoder : Decoder) (byte : UInt8) : Prop :=
  crc8 (decoder.covered ((decoder.rxlen + 1) % 2 ^ 8)) = byte

instance (decoder : Decoder) (byte : UInt8) : Decidable (decoder.Checks byte) :=
  inferInstanceAs (Decidable (_ = _))

/-- The end of a packet. -/
def Decoder.finish (decoder : Decoder) (maxChanCount : ℕ) (byte : UInt8) : Outcome Report :=
  let covered := (List.range ((decoder.rxlen + 1) % 2 ^ 8 - 2)).map fun i : ℕ => Access.buffer ↑i
  if decoder.Checks byte then
    match channelsOf decoder.type with
    | some most =>
      let decoded := decodeChannels decoder maxChanCount most
      { decoded with accesses := covered ++ decoded.accesses }
    | none => .silent 2 covered
  else .silent 4 covered

/-- `st24_decode`. -/
def decode (maxChanCount : ℕ) (decoder : Decoder) (byte : UInt8) : Decoder × Outcome Report :=
  match decoder.decodeState with
  | .unsynced =>
    if byte = stx then ({ decoder with decodeState := .gotStx1 }, .silent 1 [])
    else (decoder, .silent 3 [])
  | .gotStx1 =>
    if byte = stx then ({ decoder with decodeState := .gotStx2 }, .silent 1 [])
    else ({ decoder with decodeState := .unsynced }, .silent 1 [])
  | .gotStx2 =>
    if byte.toNat ≤ 1 + 1 + dataLenMax then
      ({ decoder with length := byte.toNat, rxlen := 0, decodeState := .gotLen }, .silent 1 [])
    else ({ decoder with decodeState := .unsynced }, .silent 1 [])
  | .gotLen =>
    ({ decoder with
      type := byte
      rxlen := (decoder.rxlen + 1) % 2 ^ 8
      decodeState := .gotType }, .silent 1 [])
  | .gotType =>
    let rxlen : ℕ := (decoder.rxlen + 1) % 2 ^ 8
    ({ decoder with
      st24Data :=
        if decoder.rxlen = 0 then decoder.st24Data
        else decoder.st24Data.set (decoder.rxlen - 1) byte
      rxlen := rxlen
      decodeState := if (rxlen : ℤ) = decoder.length - 1 then .gotData else .gotType },
      .silent 1 [.buffer (decoder.rxlen - 1)])
  | .gotData =>
    ({ decoder with rxlen := (decoder.rxlen + 1) % 2 ^ 8, decodeState := .unsynced },
      decoder.finish maxChanCount byte)

/-- The accesses for a byte. -/
def step (maxChanCount : ℕ) (decoder : Decoder) (byte : UInt8) : Decoder × List Access :=
  ((decode maxChanCount decoder byte).1, (decode maxChanCount decoder byte).2.accesses)

/-! ### Bounds -/

/-- A byte that leads to no access outside: a length that is at least three, and no channels for a
caller with room for four who wants fewer than the packet has, and an odd number of them. -/
def Allowed (maxChanCount : ℕ) (decoder : Decoder) (byte : UInt8) : Prop :=
  (decoder.decodeState = .gotStx2 → 3 ≤ byte.toNat) ∧
    (decoder.decodeState = .gotData → decoder.Checks byte →
      ∀ most ∈ channelsOf decoder.type, 4 ≤ maxChanCount → maxChanCount < most → Even maxChanCount)

/-- What holds between the bytes of a stream. -/
def Counted (decoder : Decoder) : Prop :=
  match decoder.decodeState with
  | .unsynced | .gotStx1 | .gotStx2 => True
  | .gotLen => decoder.rxlen = 0 ∧ 3 ≤ decoder.length ∧ decoder.length ≤ 66
  | .gotType => 1 ≤ decoder.rxlen ∧ decoder.rxlen + 2 ≤ decoder.length ∧ decoder.length ≤ 66
  | .gotData => decoder.rxlen + 1 = decoder.length ∧ decoder.length ≤ 66

theorem covered_within (maxChanCount : ℕ) {count : ℕ} (few : count ≤ 66) :
    ∀ access ∈ (List.range (count - 2)).map fun i : ℕ => Access.buffer ↑i,
      access.Within dataLenMax 0 maxChanCount := by
  intro access member
  obtain ⟨i, below, rfl⟩ := List.mem_map.mp member
  have room : count - 2 ≤ dataLenMax := Nat.sub_le_of_le_add few
  have small : i < dataLenMax := Nat.lt_of_lt_of_le (List.mem_range.mp below) room
  exact ⟨Int.natCast_nonneg i, Int.ofNat_lt.mpr small⟩

/-- Each pair of channels is inside both arrays if no odd number of channels is asked for. -/
theorem decodeChannels_within (decoder : Decoder) {maxChanCount most : ℕ} (few : most ≤ 24)
    (even : Even most) (fits : 4 ≤ maxChanCount → maxChanCount < most → Even maxChanCount) :
    ∀ access ∈ (decodeChannels decoder maxChanCount most).accesses,
      access.Within dataLenMax 0 maxChanCount := by
  intro access member
  obtain ⟨count, chosen⟩ : ∃ count, (if maxChanCount < most then maxChanCount else most) = count :=
    ⟨_, rfl⟩
  have bound : count ≤ 24 := by
    rw [← chosen]
    split <;> omega
  have room : 4 ≤ maxChanCount → 2 * ((count * 3 / 2 + 2) / 3) ≤ maxChanCount := by
    intro four
    have pairs : Even count ∧ count ≤ maxChanCount := by
      rw [← chosen]
      split
      · rename_i fewer
        exact ⟨fits four fewer, le_rfl⟩
      · rename_i enough
        exact ⟨even, not_lt.mp enough⟩
    obtain ⟨⟨half, twice⟩, inside⟩ := pairs
    omega
  rw [decodeChannels, chosen] at member
  dsimp only at member
  rw [List.mem_append, List.mem_flatMap] at member
  rcases member with header | ⟨round, below, member⟩
  · simp only [List.mem_cons, List.not_mem_nil, or_false] at header
    rcases header with rfl | rfl <;> exact ⟨by decide, by decide⟩
  · rw [List.mem_range] at below
    simp only [pairAccesses, List.mem_cons, List.not_mem_nil, or_false] at member
    rcases member with rfl | rfl | rfl | rfl | rfl | rfl <;>
      simp only [Access.Within, dataLenMax] <;> omega

theorem channelsOf_most {type : UInt8} {most : ℕ} (found : channelsOf type = some most) :
    most ≤ 24 ∧ Even most := by
  rw [channelsOf] at found
  split_ifs at found
  · rw [← Option.some.inj found]
    exact ⟨by decide, by decide⟩
  · rw [← Option.some.inj found]
    exact ⟨by decide, by decide⟩

/-- The end of a packet stays inside. -/
theorem finish_within {decoder : Decoder} {maxChanCount : ℕ} {byte : UInt8}
    (few : decoder.rxlen + 1 ≤ 66)
    (fits : decoder.Checks byte → ∀ most ∈ channelsOf decoder.type, 4 ≤ maxChanCount →
      maxChanCount < most → Even maxChanCount) :
    ∀ access ∈ (decoder.finish maxChanCount byte).accesses,
      access.Within dataLenMax 0 maxChanCount := by
  have small : (decoder.rxlen + 1) % 2 ^ 8 = decoder.rxlen + 1 := Nat.mod_eq_of_lt (by omega)
  have covered := covered_within maxChanCount few
  rw [Decoder.finish, small]
  dsimp only
  by_cases checks : decoder.Checks byte
  · rw [if_pos checks]
    cases found : channelsOf decoder.type with
    | none => exact covered
    | some most =>
      obtain ⟨bound, even⟩ := channelsOf_most found
      intro access member
      refine (List.mem_append.mp member).elim (covered access) fun later => ?_
      exact decodeChannels_within decoder bound even (fits checks most found) access later
  · rw [if_neg checks]
    exact covered

theorem step_within {maxChanCount : ℕ} {decoder : Decoder} {byte : UInt8}
    (counted : Counted decoder) (allowed : Allowed maxChanCount decoder byte) :
    Counted (step maxChanCount decoder byte).1 ∧
      ∀ access ∈ (step maxChanCount decoder byte).2, access.Within dataLenMax 0 maxChanCount := by
  obtain ⟨long, fits⟩ := allowed
  have nothing := within_nil dataLenMax 0 maxChanCount
  rw [Counted] at counted
  rw [step, decode]
  cases state : decoder.decodeState with
  | unsynced | gotStx1 =>
    dsimp only
    split_ifs
    · exact ⟨trivial, nothing⟩
    · refine ⟨?_, nothing⟩
      first
      | exact trivial
      | rw [Counted, state]; trivial
  | gotStx2 =>
    dsimp only
    split_ifs with short
    · exact ⟨⟨rfl, long state, short⟩, nothing⟩
    · exact ⟨trivial, nothing⟩
  | gotLen =>
    rw [state] at counted
    obtain ⟨zero, above, below⟩ := counted
    dsimp only
    rw [zero]
    exact ⟨⟨Nat.le_refl 1, above, below⟩, nothing⟩
  | gotType =>
    rw [state] at counted
    obtain ⟨positive, above, below⟩ := counted
    have small : (decoder.rxlen + 1) % 2 ^ 8 = decoder.rxlen + 1 := Nat.mod_eq_of_lt (by omega)
    dsimp only
    rw [small]
    refine ⟨?_, ?_⟩
    · by_cases full : ((decoder.rxlen + 1 : ℕ) : ℤ) = decoder.length - 1
      · rw [if_pos full]
        exact ⟨by dsimp only; omega, below⟩
      · rw [if_neg full]
        exact ⟨by dsimp only; omega, by dsimp only; omega, below⟩
    · intro access member
      rw [List.mem_singleton.mp member]
      exact ⟨by omega, by rw [dataLenMax]; omega⟩
  | gotData =>
    rw [state] at counted
    obtain ⟨whole, below⟩ := counted
    exact ⟨trivial, finish_within (by omega) (fits state)⟩

theorem run_within {maxChanCount : ℕ} {bytes : List UInt8}
    (allowed : Along (fun decoder byte => (step maxChanCount decoder byte).1) (fun _ => True)
      (Allowed maxChanCount) start bytes) :
    ∀ access ∈ (Framing.run (step maxChanCount) start bytes).2,
      access.Within dataLenMax 0 maxChanCount :=
  have counted : Counted start := trivial
  (Framing.run_invariant_along (step maxChanCount) Counted
    (fun _ _ counted here => step_within counted here) counted allowed).2

end Urus.RcProtocol.St24
