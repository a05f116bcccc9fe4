/-
This file models `sumd_decode`, which takes the frames of a SUMD or SUMH receiver out of a stream of
bytes, and proves when its accesses stay inside its arrays.

The channel data is stored from index one on, so the data of the largest number of channels ends one
place behind the array. What the access there does to the memory is left out, and so are the texts
that are printed for debugging.
-/

import Urus.RcProtocol.SerialDecoder

namespace Urus.RcProtocol.Sumd

/-! ### The code -/

/-- `SUMD_DECODE_STATE`. -/
inductive DecodeState
  | unsynced
  | gotHeader
  | gotState
  | gotLen
  | gotData
  | gotCrc
  | gotCrc16Byte1
  | gotCrc16Byte2
  deriving DecidableEq

/-- `SUMD_MAX_CHANNELS`. -/
def maxChannels : ℕ := 32

/-- The size of `sumd_data`. -/
def dataSize : ℕ := maxChannels * 2

/-- `SUMD_HEADER_ID`, `SUMD_ID_SUMH` and `SUMD_ID_SUMD`. -/
def headerId : UInt8 := 0xA8
def idSumh : UInt8 := 0x00
def idSumd : UInt8 := 0x01

/-- The static variables. -/
structure Decoder where
  decodeState : DecodeState
  rxlen : ℕ
  crc8 : UInt8
  crc16 : UInt16
  sumd : Bool
  crcOk : Bool
  length : ℕ
  sumdData : List UInt8
  crc16High : UInt8
  deriving DecidableEq

/-- The decoder at first. -/
def start : Decoder :=
  ⟨.unsynced, 0, 0, 0, true, false, 0, List.replicate dataSize 0, 0⟩

/-- A byte is added to the checksum. -/
def Decoder.sum (decoder : Decoder) (byte : UInt8) : Decoder :=
  if decoder.sumd then { decoder with crc16 := RcProtocol.crc16 decoder.crc16 byte }
  else { decoder with crc8 := decoder.crc8 + byte }

/-- What is written back for a packet. The count of packets goes up by one. -/
structure Report where
  rssi : UInt8
  channelCount : ℕ
  channels : List ℕ
  deriving DecidableEq

/-- The value of a channel of the packet. -/
def Decoder.value (decoder : Decoder) (i : ℕ) : ℕ :=
  ((decoder.sumdData.getD (i * 2 + 1) 0).toNat <<< 8 |||
    (decoder.sumdData.getD (i * 2 + 2) 0).toNat) >>> 3

/-- The accesses for a channel of the packet that becomes a value for the caller. -/
def valueAccesses (i chanIndex : ℕ) : List Access :=
  [.buffer ↑(i * 2 + 1), .buffer ↑(i * 2 + 2), .value chanIndex]

/-- A packet with the right checksum is handed out: the first four channels in another order, and
then the others. -/
def Decoder.report (decoder : Decoder) (maxChanCount : ℕ) : Decoder × Outcome Report :=
  let length := if decoder.length > maxChanCount then maxChanCount % 2 ^ 8 else decoder.length
  let others := (List.range (length - 4)).map (4 + ·)
  ({ decoder with length := length },
    { ret := 0
      report := some
        { rssi := 100
          channelCount := length
          channels := [decoder.value 1, decoder.value 2, decoder.value 0, decoder.value 3] ++
            others.map decoder.value }
      accesses := valueAccesses 1 0 ++ valueAccesses 2 1 ++ valueAccesses 0 2 ++
        valueAccesses 3 3 ++ others.flatMap fun i => valueAccesses i i })

/-- The checksum of a packet is right: the one of SUMD, or that of SUMH. -/
def Decoder.checks (decoder : Decoder) (byte : UInt8) : Bool :=
  if decoder.sumd then decoder.crc16.toNat = decoder.crc16High.toNat * 2 ^ 8 + byte.toNat
  else decoder.crc8 = byte

/-- The last byte of a packet. -/
def Decoder.finish (decoder : Decoder) (maxChanCount : ℕ) (byte : UInt8) :
    Decoder × Outcome Report :=
  let decoder := { decoder with
    crcOk := decoder.crcOk || decoder.checks byte
    decodeState := .unsynced }
  if decoder.crcOk then decoder.report maxChanCount else (decoder, .silent 4 [])

/-- `sumd_decode`. -/
def decode (maxChanCount : ℕ) (decoder : Decoder) (byte : UInt8) : Decoder × Outcome Report :=
  match decoder.decodeState with
  | .unsynced =>
    if byte = headerId then
      ({ decoder with
        sumd := true
        rxlen := 0
        crcOk := false
        crc16 := RcProtocol.crc16 0 byte
        crc8 := 0 + byte
        decodeState := .gotHeader }, .silent 1 [])
    else (decoder, .silent 3 [])
  | .gotHeader =>
    if byte = idSumd ∨ byte = idSumh then
      let decoder := if byte = idSumh then { decoder with sumd := false } else decoder
      ({ decoder.sum byte with decodeState := .gotState }, .silent 1 [])
    else ({ decoder with decodeState := .unsynced }, .silent 1 [])
  | .gotState =>
    if 2 ≤ byte.toNat ∧ byte.toNat ≤ maxChannels then
      ({ decoder.sum byte with
        length := byte.toNat
        rxlen := (decoder.rxlen + 1) % 2 ^ 8
        decodeState := .gotLen }, .silent 1 [])
    else ({ decoder with decodeState := .unsynced }, .silent 1 [])
  | .gotLen =>
    let rxlen : ℕ := (decoder.rxlen + 1) % 2 ^ 8
    ({ decoder.sum byte with
      sumdData := decoder.sumdData.set decoder.rxlen byte
      rxlen := rxlen
      decodeState := if rxlen ≤ decoder.length * 2 then .gotLen else .gotData },
      .silent 1 [.buffer decoder.rxlen])
  | .gotData =>
    ({ decoder with
      crc16High := byte
      decodeState := if decoder.sumd then .gotCrc else .gotCrc16Byte1 }, .silent 1 [])
  | .gotCrc16Byte1 => ({ decoder with decodeState := .gotCrc16Byte2 }, .silent 1 [])
  | .gotCrc16Byte2 => ({ decoder with decodeState := .gotCrc }, .silent 1 [])
  | .gotCrc => decoder.finish maxChanCount byte

/-- The accesses for a byte. -/
def step (maxChanCount : ℕ) (decoder : Decoder) (byte : UInt8) : Decoder × List Access :=
  ((decode maxChanCount decoder byte).1, (decode maxChanCount decoder byte).2.accesses)

/-! ### Bounds -/

/-- A byte that leads to no access outside: not the largest number of channels. -/
def Allowed (decoder : Decoder) (byte : UInt8) : Prop :=
  decoder.decodeState = .gotState → byte.toNat ≠ maxChannels

/-- What holds between the bytes of a stream. -/
def Counted (decoder : Decoder) : Prop :=
  match decoder.decodeState with
  | .unsynced => True
  | .gotHeader | .gotState => decoder.rxlen = 0
  | .gotLen => 1 ≤ decoder.rxlen ∧ decoder.rxlen ≤ decoder.length * 2 ∧ decoder.length ≤ 31
  | .gotData | .gotCrc | .gotCrc16Byte1 | .gotCrc16Byte2 => decoder.length ≤ 31

theorem sum_rxlen (decoder : Decoder) (byte : UInt8) :
    (decoder.sum byte).rxlen = decoder.rxlen := by
  rw [Decoder.sum]
  split_ifs <;> rfl

theorem sum_length (decoder : Decoder) (byte : UInt8) :
    (decoder.sum byte).length = decoder.length := by
  rw [Decoder.sum]
  split_ifs <;> rfl

theorem valueAccesses_within {i chanIndex maxChanCount : ℕ} (small : i ≤ 30)
    (room : 4 ≤ maxChanCount → chanIndex < maxChanCount) :
    ∀ access ∈ valueAccesses i chanIndex, access.Within dataSize 0 maxChanCount := by
  intro access member
  simp only [valueAccesses, List.mem_cons, List.not_mem_nil, or_false] at member
  rcases member with rfl | rfl | rfl
  · exact ⟨by omega, by rw [dataSize, maxChannels]; omega⟩
  · exact ⟨by omega, by rw [dataSize, maxChannels]; omega⟩
  · exact room

/-- A packet with few enough channels is handed out inside both arrays. -/
theorem report_within {decoder : Decoder} (maxChanCount : ℕ) (few : decoder.length ≤ 31) :
    ∀ access ∈ (decoder.report maxChanCount).2.accesses,
      access.Within dataSize 0 maxChanCount := by
  have bounds : 4 ≤ maxChanCount →
      (if decoder.length > maxChanCount then maxChanCount % 2 ^ 8 else decoder.length) ≤
        maxChanCount := by
    intro _
    split_ifs with more
    · exact Nat.mod_le _ _
    · exact not_lt.mp more
  have small : (if decoder.length > maxChanCount then maxChanCount % 2 ^ 8
      else decoder.length) ≤ 31 := by
    split_ifs with more
    · exact (Nat.mod_le _ _).trans (more.le.trans few)
    · exact few
  intro access member
  rw [Decoder.report] at member
  simp only [List.mem_append, List.mem_flatMap, List.mem_map, List.mem_range] at member
  rcases member with (((first | second) | third) | fourth) | ⟨i, ⟨k, below, rfl⟩, later⟩
  · exact valueAccesses_within (by decide) (fun room => by omega) access first
  · exact valueAccesses_within (by decide) (fun room => by omega) access second
  · exact valueAccesses_within (by decide) (fun room => by omega) access third
  · exact valueAccesses_within (by decide) (fun room => by omega) access fourth
  · refine valueAccesses_within (by omega) (fun room => ?_) access later
    omega

/-- The last byte of a packet stays inside. -/
theorem finish_within {decoder : Decoder} (maxChanCount : ℕ) (byte : UInt8)
    (few : decoder.length ≤ 31) :
    Counted (decoder.finish maxChanCount byte).1 ∧
      ∀ access ∈ (decoder.finish maxChanCount byte).2.accesses,
        access.Within dataSize 0 maxChanCount := by
  rw [Decoder.finish]
  split_ifs with checked
  · exact ⟨trivial, report_within maxChanCount few⟩
  · exact ⟨trivial, within_nil _ _ _⟩

/-- A byte of the data is kept inside the packet. -/
theorem collect_within {decoder : Decoder} (maxChanCount : ℕ) (byte : UInt8)
    (counted : 1 ≤ decoder.rxlen ∧ decoder.rxlen ≤ decoder.length * 2 ∧ decoder.length ≤ 31) :
    let rxlen : ℕ := (decoder.rxlen + 1) % 2 ^ 8
    Counted { decoder.sum byte with
      sumdData := decoder.sumdData.set decoder.rxlen byte
      rxlen := rxlen
      decodeState := if rxlen ≤ decoder.length * 2 then .gotLen else .gotData } ∧
      ∀ access ∈ [Access.buffer decoder.rxlen], access.Within dataSize 0 maxChanCount := by
  obtain ⟨positive, inside, few⟩ := counted
  have small : (decoder.rxlen + 1) % 2 ^ 8 = decoder.rxlen + 1 := Nat.mod_eq_of_lt (by omega)
  have length := sum_length decoder byte
  rw [small]
  constructor
  · by_cases more : decoder.rxlen + 1 ≤ decoder.length * 2
    · rw [if_pos more]
      refine ⟨Nat.le_add_left 1 _, ?_, ?_⟩
      · dsimp only
        rw [length]
        exact more
      · dsimp only
        rw [length]
        exact few
    · rw [if_neg more, Counted]
      exact length.trans_le few
  · intro access member
    rw [List.mem_singleton.mp member]
    exact ⟨Int.natCast_nonneg _, by rw [dataSize, maxChannels]; omega⟩

theorem step_within (maxChanCount : ℕ) {decoder : Decoder} {byte : UInt8}
    (counted : Counted decoder) (allowed : Allowed decoder byte) :
    Counted (step maxChanCount decoder byte).1 ∧
      ∀ access ∈ (step maxChanCount decoder byte).2, access.Within dataSize 0 maxChanCount := by
  have nothing := within_nil dataSize 0 maxChanCount
  rw [Counted] at counted
  rw [step, decode]
  cases state : decoder.decodeState with
  | unsynced =>
    dsimp only
    split_ifs
    · exact ⟨rfl, nothing⟩
    · refine ⟨?_, nothing⟩
      trivial
  | gotHeader =>
    rw [state] at counted
    have zero : decoder.rxlen = 0 := counted
    dsimp only
    split_ifs
    · refine ⟨?_, nothing⟩
      exact (sum_rxlen _ _).trans zero
    · refine ⟨?_, nothing⟩
      exact (sum_rxlen _ _).trans zero
    · exact ⟨trivial, nothing⟩
  | gotState =>
    rw [state] at counted
    have zero : decoder.rxlen = 0 := counted
    dsimp only
    split_ifs with known
    · obtain ⟨above, below⟩ := known
      have fewer : byte.toNat ≤ 31 := Nat.le_of_lt_succ (lt_of_le_of_ne below (allowed state))
      rw [zero]
      have one : 1 ≤ byte.toNat * 2 := by omega
      exact ⟨⟨Nat.le_refl 1, one, fewer⟩, nothing⟩
    · exact ⟨trivial, nothing⟩
  | gotLen =>
    rw [state] at counted
    exact collect_within maxChanCount byte counted
  | gotData =>
    rw [state] at counted
    have few : decoder.length ≤ 31 := counted
    refine ⟨?_, nothing⟩
    cases decoder.sumd <;> exact few
  | gotCrc16Byte1 | gotCrc16Byte2 =>
    rw [state] at counted
    exact ⟨counted, nothing⟩
  | gotCrc =>
    rw [state] at counted
    exact finish_within maxChanCount byte counted

theorem run_within (maxChanCount : ℕ) {bytes : List UInt8}
    (allowed : Along (fun decoder byte => (step maxChanCount decoder byte).1) (fun _ => True)
      Allowed start bytes) :
    ∀ access ∈ (Framing.run (step maxChanCount) start bytes).2,
      access.Within dataSize 0 maxChanCount :=
  have counted : Counted start := trivial
  (Framing.run_invariant_along (step maxChanCount) Counted
    (fun _ _ counted here => step_within maxChanCount counted here) counted allowed).2

end Urus.RcProtocol.Sumd
