/-
This file is about the packets of the GSOF protocol. A packet is read byte by byte into a buffer. If
its checksum is right its records are walked over: each has a type, a length, and data that the
type tells how to read.

The walk ends in front of the end of the packet, but a record that begins there is read whole. So
only bytes of the packet are read exactly if its records are complete: each has its type and length
in the packet, and behind them as many bytes as its type needs, whatever its length says.

The values that are computed in floating point are left out.
-/

import Urus.Lib.Bytes
import Urus.Lib.Framing

namespace Urus.Gps.Gsof

open Image Framing

/-! ### Reading a packet -/

/-- `gsof_msg_parser_t::gsof_state`. -/
inductive Phase
  | startTx
  | status
  | packetType
  | length
  | data
  | checksum
  | endTx
  deriving DecidableEq

/-- `gsof_msg`. -/
structure State where
  phase : Phase
  status : UInt8
  packetType : UInt8
  length : UInt8
  data : Image
  read : ℕ
  checksumCalc : UInt8

/-- What `process_message` sees. -/
structure Message where
  packetType : UInt8
  length : UInt8
  data : Image

/-- A byte is written to `data`, or a message is processed. -/
inductive Event
  | write (index : ℕ)
  | process (message : Message)

/-- `parse`. -/
def parse (state : State) (temp : UInt8) : State × List Event :=
  match state.phase with
  | .startTx =>
    -- GSOF_STX
    if temp = 0x02 then ({ state with phase := .status, read := 0, checksumCalc := 0 }, [])
    else (state, [])
  | .status =>
    ({ state with
      status := temp, phase := .packetType, checksumCalc := state.checksumCalc + temp }, [])
  | .packetType =>
    ({ state with
      packetType := temp, phase := .length, checksumCalc := state.checksumCalc + temp }, [])
  | .length =>
    ({ state with length := temp, phase := .data, checksumCalc := state.checksumCalc + temp }, [])
  | .data =>
    let read := (state.read + 1) % 2 ^ 16
    ({ state with
      data := state.data.put state.read [temp]
      read := read
      checksumCalc := state.checksumCalc + temp
      phase := if state.length.toNat ≤ read then .checksum else .data }, [.write state.read])
  | .checksum =>
    ({ state with phase := .endTx },
      if temp = state.checksumCalc then [.process ⟨state.packetType, state.length, state.data⟩]
      else [])
  | .endTx => ({ state with phase := .startTx }, [])

/-! ### The records of a packet -/

/-- `AP_GPS::GPS_Status`, as far as it is set here. -/
inductive Status
  | noFix
  | fix3d
  | fix3dDgps
  | fix3dRtkFloat
  | fix3dRtkFixed

/-- The solution, without what is computed in floating point. -/
structure Solution where
  timeWeekMs : ℕ
  timeWeek : ℕ
  numSats : ℕ
  status : Status

/-- The variables of the walk, and the indices that it has read. -/
structure Walk where
  solution : Solution
  valid : ℕ
  reads : List ℕ

/-- The indices that `SwapUint32` and its siblings read. -/
def swapReads (pos size : ℕ) : List ℕ := (List.range' pos size).reverse

/-- `SwapUint16` and `SwapUint32`. -/
def swap (src : Image) (pos size : ℕ) : ℕ :=
  (src.slice pos size).foldl (fun number byte => number * 2 ^ 8 + byte.toNat) 0

/-- The status of a solution from its two position flags. -/
def positionStatus (posf1 posf2 : UInt8) : Status :=
  if posf1 &&& 1 ≠ 0 then
    if posf2 &&& 1 ≠ 0 then
      if posf2 &&& 2 ≠ 0 then if posf2 &&& 4 ≠ 0 then .fix3dRtkFixed else .fix3dRtkFloat
      else .fix3dDgps
    else .fix3d
  else .noFix

/-- The indices that are read of the data of a record. -/
def recordReads (data : Image) (outputType : UInt8) (a : ℕ) : List ℕ :=
  if outputType = 1 then swapReads a 4 ++ swapReads (a + 4) 2 ++ [a + 6, a + 7, a + 8]
  else if outputType = 2 then swapReads a 8 ++ swapReads (a + 8) 8 ++ swapReads (a + 16) 8
  else if outputType = 8 then
    a :: if data a &&& 1 = 1 then
      swapReads (a + 1) 4 ++ swapReads (a + 5) 4 ++ swapReads (a + 9) 4 else []
  else if outputType = 9 then swapReads (a + 4) 4
  else if outputType = 12 then swapReads (a + 4) 4 ++ swapReads (a + 8) 4 ++ swapReads (a + 16) 4
  else []

/-- The branch for the type of a record. -/
def readRecord (data : Image) (outputType : UInt8) (a : ℕ) (walk : Walk) : Walk where
  solution :=
    if outputType = 1 then
      { timeWeekMs := swap data a 4
        timeWeek := swap data (a + 4) 2
        numSats := (data (a + 6)).toNat
        status := positionStatus (data (a + 7)) (data (a + 8)) }
    else walk.solution
  valid := if outputType ∈ [1, 2, 8, 9, 12] then walk.valid + 1 else walk.valid
  reads := walk.reads ++ recordReads data outputType a

/-- The loop of `process_message`. The index has 32 bits, and goes back by one and on again behind a
record without data. -/
def walkRecords (data : Image) (length : ℕ) : ℕ → ℕ → Walk → Option Walk
  | 0, _, _ => none
  | fuel + 1, a, walk =>
    if a < length then
      let outputType := data a
      let outputLength := data (a + 1)
      let walk := { walk with reads := walk.reads ++ [a, a + 1] }
      let walk := readRecord data outputType (a + 2) walk
      let a := (a + 2 + (outputLength.toNat + 2 ^ 32 - 1) % 2 ^ 32) % 2 ^ 32
      walkRecords data length fuel ((a + 1) % 2 ^ 32) walk
    else some walk

/-- What is done behind the loop: the solution, what is returned, and the reads. -/
def Walk.finish (walk : Walk) : Solution × Bool × List ℕ :=
  if walk.valid = 5 then (walk.solution, true, walk.reads)
  else ({ walk.solution with status := .noFix }, false, walk.reads)

/-- `process_message`, with fuel for its loop. -/
def processMessage (fuel : ℕ) (message : Message) (solution : Solution) :
    Option (Solution × Bool × List ℕ) :=
  if message.packetType = 0x40 then
    (walkRecords message.data message.length.toNat fuel 3 ⟨solution, 0, []⟩).map Walk.finish
  else some (solution, false, [])

/-! ### What is promised -/

/-- The processing of a message comes to an end, and has read only bytes of the packet. -/
def Safe (message : Message) : Prop :=
  ∀ solution, ∃ result, (∃ enough, ∀ fuel, enough ≤ fuel →
      processMessage fuel message solution = some result) ∧
    ∀ index ∈ result.2.2, index < message.length.toNat

/-- The bytes that a type needs, given the first of them. -/
def need (outputType first : UInt8) : ℕ :=
  if outputType = 1 then 9
  else if outputType = 2 then 24
  else if outputType = 8 then if first &&& 1 = 1 then 13 else 1
  else if outputType = 9 then 8
  else if outputType = 12 then 20
  else 0

/-- The records are complete: each has a type, a length, and the bytes that its type needs. -/
def Complete : List UInt8 → Prop
  | [] => True
  | [_] => False
  | outputType :: outputLength :: rest =>
    need outputType (rest.headD 0) ≤ rest.length ∧ Complete (rest.drop outputLength.toNat)
termination_by bytes => bytes.length

/-- A message whose records behind the first three bytes are complete, or one of another type. -/
def Message.Complete (message : Message) : Prop :=
  message.packetType = 0x40 →
    Gsof.Complete (message.data.slice 3 (message.length.toNat - 3))

/-! ### The walk -/

section Walk

variable {data : Image} {length : ℕ}

theorem swapReads_below (pos : ℕ) {size : ℕ} (some_size : 0 < size) :
    (∀ index ∈ swapReads pos size, index < length) ↔ pos + size ≤ length := by
  constructor
  · intro below
    have last := below (pos + size - 1) (by
      rw [swapReads, List.mem_reverse, List.mem_range'_1]
      omega)
    omega
  · intro fits index member
    rw [swapReads, List.mem_reverse, List.mem_range'_1] at member
    omega

theorem recordReads_below (outputType : UInt8) {a : ℕ} (inside : a ≤ length) :
    (∀ index ∈ recordReads data outputType a, index < length) ↔
      a + need outputType (data a) ≤ length := by
  have two (pos : ℕ) : (∀ index ∈ swapReads pos 2, index < length) ↔ pos + 2 ≤ length :=
    swapReads_below pos (by decide)
  have four (pos : ℕ) : (∀ index ∈ swapReads pos 4, index < length) ↔ pos + 4 ≤ length :=
    swapReads_below pos (by decide)
  have eight (pos : ℕ) : (∀ index ∈ swapReads pos 8, index < length) ↔ pos + 8 ≤ length :=
    swapReads_below pos (by decide)
  have none : (∀ index ∈ ([] : List ℕ), index < length) ↔ True :=
    iff_of_true (fun _ member => nomatch member) trivial
  rw [recordReads, need]
  split_ifs
  · simp only [List.forall_mem_append, List.forall_mem_cons, four, two, none, and_true]
    omega
  · simp only [List.forall_mem_append, eight]
    omega
  · simp only [List.forall_mem_cons, List.forall_mem_append, four]
    omega
  · simp only [List.forall_mem_cons, none, and_true]
    omega
  · rw [four]
  · simp only [List.forall_mem_append, four]
    omega
  · exact iff_of_true (none.mpr trivial) inside

theorem need_pos_iff (outputType first other : UInt8) :
    0 < need outputType first ↔ 0 < need outputType other := by
  rw [need, need]
  split_ifs <;> simp

theorem next_index {a : ℕ} (short : a < 2 ^ 8) (outputLength : UInt8) :
    ((a + 2 + (outputLength.toNat + 2 ^ 32 - 1) % 2 ^ 32) % 2 ^ 32 + 1) % 2 ^ 32 =
      a + 2 + outputLength.toNat := by
  have small := outputLength.toNat_lt
  omega

theorem slice_eq_nil (image : Image) (start : ℕ) : image.slice start 0 = [] := rfl

theorem slice_succ (image : Image) (start count : ℕ) :
    image.slice start (count + 1) = image start :: image.slice (start + 1) count := by
  rw [Nat.add_comm, slice_add]
  rfl

theorem slice_drop_sub (image : Image) (start count dropped : ℕ) :
    (image.slice start count).drop dropped = image.slice (start + dropped) (count - dropped) := by
  rcases Nat.le_total dropped count with inside | beyond
  · obtain ⟨rest, rfl⟩ := Nat.exists_eq_add_of_le inside
    rw [slice_drop, Nat.add_sub_cancel_left]
  · rw [Nat.sub_eq_zero_of_le beyond, slice_eq_nil, List.drop_eq_nil_of_le]
    rwa [slice_length]

theorem complete_slice {a : ℕ} (inside : a < length) :
    Complete (data.slice a (length - a)) ↔
      a + 1 < length ∧ a + 2 + need (data a) (data (a + 2)) ≤ length ∧
        Complete (data.slice (a + 2 + (data (a + 1)).toNat)
          (length - (a + 2 + (data (a + 1)).toNat))) := by
  obtain ⟨count, rfl⟩ := Nat.exists_eq_add_of_lt inside
  rw [show a + count + 1 - a = count + 1 by omega, slice_succ]
  cases count with
  | zero =>
    rw [slice_eq_nil, Complete]
    exact iff_of_false not_false fun both => by omega
  | succ count =>
    have behind : a + (count + 1) + 1 - (a + 2 + (data (a + 1)).toNat) =
        count - (data (a + 1)).toNat := by omega
    rw [slice_succ, Complete, slice_length, slice_drop_sub, behind]
    have first : need (data a) ((data.slice (a + 1 + 1) count).headD 0) ≤ count ↔
        need (data a) (data (a + 2)) ≤ count := by
      cases count with
      | zero =>
        -- the type needs something whatever the first byte is, or nothing
        have positive := need_pos_iff (data a) ((data.slice (a + 1 + 1) 0).headD 0) (data (a + 2))
        omega
      | succ count => rw [slice_succ, List.headD_cons]
    rw [first]
    constructor
    · rintro ⟨enough, rest⟩
      exact ⟨by omega, by omega, rest⟩
    · rintro ⟨-, enough, rest⟩
      exact ⟨by omega, rest⟩

variable (data) in
theorem walkRecords_spec (short : length < 2 ^ 8) (a : ℕ) (walk : Walk) :
    ∃ result, (∀ fuel, length - a < fuel → walkRecords data length fuel a walk = some result) ∧
      ((∀ index ∈ result.reads, index < length) ↔
        (∀ index ∈ walk.reads, index < length) ∧ Complete (data.slice a (length - a))) := by
  induction left : length - a using Nat.strong_induction_on generalizing a walk with
  | _ remaining inductionHypothesis =>
    subst left
    by_cases inside : a < length
    · -- one record, and then the rest
      obtain ⟨result, walked, reads⟩ := inductionHypothesis (length - (a + 2 + (data (a + 1)).toNat))
        (by omega) (a + 2 + (data (a + 1)).toNat)
        (readRecord data (data a) (a + 2) { walk with reads := walk.reads ++ [a, a + 1] }) rfl
      refine ⟨result, fun fuel enough => ?_, ?_⟩
      · obtain ⟨fuel, rfl⟩ := Nat.exists_eq_succ_of_ne_zero (Nat.ne_zero_of_lt enough)
        rw [walkRecords, if_pos inside]
        dsimp only
        rw [next_index (by omega)]
        exact walked fuel (by omega)
      · have header : (∀ index ∈ walk.reads ++ [a, a + 1], index < length) ↔
            (∀ index ∈ walk.reads, index < length) ∧ a + 1 < length := by
          rw [List.forall_mem_append, List.forall_mem_cons, List.forall_mem_singleton,
            and_iff_right inside]
        rw [reads, complete_slice inside, readRecord, List.forall_mem_append, header]
        constructor
        · rintro ⟨⟨⟨before, second⟩, record⟩, rest⟩
          exact ⟨before, second, (recordReads_below _ (by omega)).mp record, rest⟩
        · rintro ⟨before, second, record, rest⟩
          exact ⟨⟨⟨before, second⟩, (recordReads_below _ (by omega)).mpr record⟩, rest⟩
    · refine ⟨walk, fun fuel enough => ?_, ?_⟩
      · obtain ⟨fuel, rfl⟩ := Nat.exists_eq_succ_of_ne_zero (Nat.ne_zero_of_lt enough)
        rw [walkRecords, if_neg inside]
      · rw [Nat.sub_eq_zero_of_le (not_lt.mp inside), slice_eq_nil, Complete, and_true]

end Walk

/-! ### The main result -/

theorem Walk.finish_reads (walk : Walk) : walk.finish.2.2 = walk.reads := by
  rw [Walk.finish]
  split <;> rfl

theorem processMessage_spec (message : Message) (solution : Solution) :
    ∃ result, (∀ fuel, 2 ^ 8 ≤ fuel → processMessage fuel message solution = some result) ∧
      ((∀ index ∈ result.2.2, index < message.length.toNat) ↔ message.Complete) := by
  by_cases gsof : message.packetType = 0x40
  · have short : message.length.toNat < 2 ^ 8 := message.length.toNat_lt
    obtain ⟨walk, walked, reads⟩ := walkRecords_spec message.data short 3 ⟨solution, 0, []⟩
    refine ⟨walk.finish, fun fuel enough => ?_, ?_⟩
    · rw [processMessage, if_pos gsof, walked fuel (by omega), Option.map_some]
    · rw [walk.finish_reads, reads, Message.Complete, forall_prop_of_true gsof]
      exact and_iff_right fun _ member => nomatch member
  · refine ⟨(solution, false, []), fun fuel _ => ?_, ?_⟩
    · rw [processMessage, if_neg gsof]
    · exact iff_of_true (fun _ member => nomatch member) fun same => absurd same gsof

theorem message_safe_iff (message : Message) : Safe message ↔ message.Complete := by
  constructor
  · intro safe
    obtain ⟨result, ⟨enough, ended⟩, inside⟩ := safe ⟨0, 0, 0, .noFix⟩
    obtain ⟨result', ended', complete⟩ := processMessage_spec message ⟨0, 0, 0, .noFix⟩
    have same : result = result' := Option.some.inj
      ((ended _ (le_max_left _ _)).symm.trans (ended' _ (le_max_right enough _)))
    exact complete.mp (same ▸ inside)
  · intro complete solution
    obtain ⟨result, ended, reads⟩ := processMessage_spec message solution
    exact ⟨result, ⟨2 ^ 8, ended⟩, reads.mpr complete⟩

/-- A parser that has not read anything. -/
def State.initial : State :=
  { phase := .startTx, status := 0, packetType := 0, length := 0, data := fun _ => 0, read := 0,
    checksumCalc := 0 }

/-- Where the next byte of data goes: to the start, or in front of the end of the packet. -/
def Bounded (state : State) : Prop :=
  match state.phase with
  | .status | .packetType | .length => state.read = 0
  | .data => state.read = 0 ∨ state.read < state.length.toNat
  | .startTx | .checksum | .endTx => True

theorem parse_bounded (state : State) (temp : UInt8) (bounded : Bounded state) :
    Bounded (parse state temp).1 ∧
      ∀ event ∈ (parse state temp).2, ∀ index, event = .write index → index < 256 := by
  obtain ⟨phase, status, packetType, length, data, read, sum⟩ := state
  have small := length.toNat_lt
  cases phase with
  | startTx =>
    rw [parse]
    dsimp only
    split
    · exact ⟨rfl, fun _ member => nomatch member⟩
    · exact ⟨trivial, fun _ member => nomatch member⟩
  | status => exact ⟨bounded, fun _ member => nomatch member⟩
  | packetType => exact ⟨bounded, fun _ member => nomatch member⟩
  | length => exact ⟨Or.inl bounded, fun _ member => nomatch member⟩
  | data =>
    have inside : read = 0 ∨ read < length.toNat := bounded
    rw [parse]
    dsimp only
    refine ⟨?_, ?_⟩
    · split
      · trivial
      · rename_i more
        exact Or.inr (not_le.mp more)
    · rintro event member index rfl
      rw [Event.write.inj (List.mem_singleton.mp member)]
      omega
  | checksum =>
    refine ⟨trivial, ?_⟩
    rw [parse]
    dsimp only
    rintro event member index rfl
    split at member
    · exact nomatch List.mem_singleton.mp member
    · exact nomatch member
  | endTx => exact ⟨trivial, fun _ member => nomatch member⟩

/-- For every stream, the bytes of its packets are written inside the buffer, and the processing of
its messages ends and reads only bytes of their packets, if and only if the messages are complete. -/
theorem stream_safe_iff (stream : List UInt8) :
    ((∀ index, .write index ∈ (run parse State.initial stream).2 → index < 256) ∧
      ∀ message, .process message ∈ (run parse State.initial stream).2 → Safe message) ↔
      ∀ message, .process message ∈ (run parse State.initial stream).2 → message.Complete := by
  have kept := run_invariant parse parse_bounded (show Bounded State.initial from trivial) stream
  rw [and_iff_right fun index member => kept.2 _ member index rfl]
  simp only [message_safe_iff]

/-- A packet with a record of type 9 at its end that has no data. -/
def shortPacket : List UInt8 := [0x02, 0x00, 0x40, 0x05, 0x00, 0x00, 0x00, 0x09, 0x00, 0x4e, 0x03]

/-- The message of the packet. -/
def shortMessage : Message :=
  ⟨0x40, 0x05, ((((put (fun _ => 0) 0 [0x00]).put 1 [0x00]).put 2 [0x00]).put 3 [0x09]).put 4 [0x00]⟩

theorem not_stream_safe :
    ¬ ∀ message, .process message ∈ (run parse State.initial shortPacket).2 → Safe message := by
  have events : (run parse State.initial shortPacket).2 =
      [.write 0, .write 1, .write 2, .write 3, .write 4, .process shortMessage] := rfl
  have records : shortMessage.data.slice 3 (shortMessage.length.toNat - 3) = [0x09, 0x00] := by
    decide
  intro safe
  have complete := (message_safe_iff _).mp (safe shortMessage (by rw [events]; simp)) rfl
  rw [records, Complete] at complete
  exact absurd complete.1 (by decide)

end Urus.Gps.Gsof
