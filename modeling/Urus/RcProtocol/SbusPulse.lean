/-
This file models how SBUS frames are gathered from pulses, and proves what becomes of the frames that
are sent.

A frame is 25 cells of 12 bits, and its end is seen by a long last pulse. A frame that is sent is
decoded once, with its bytes. When the pulse behind the last bit of a frame is too short for an end
of frame, the decoder keeps 25 full cells, and the next pulse is written behind the last one.
-/

import Mathlib.Tactic
import Urus.Lib.Cells
import Urus.Lib.Framing
import Urus.RcProtocol.Model
import Urus.Sbus.Model

namespace Urus.RcProtocol.SbusPulse

open Cells

/-! ### The decoder -/

/-- `sbus_state`. -/
structure SbusState where
  bytes : List ℕ
  bitOfs : ℕ
  deriving DecidableEq

/-- What a pulse makes the decoder do: it accesses an element of `sbus_state.bytes`, calls
`sbus_decode`, or calls `add_input`. -/
inductive Event
  | access (index : ℕ)
  | decode (bytes : List ℕ)
  | report (call : AddInput)
  deriving DecidableEq

/-- The state that `memset` leaves. -/
def reset : SbusState := ⟨List.replicate 25 0, 0⟩

/-- The parity of the data bits, as the loop over them computes it. -/
def parityOf (v : ℕ) : ℕ :=
  [1, 2, 3, 4, 5, 6, 7, 8].foldl (fun parity j => parity ^^^ if v &&& 1 <<< j ≠ 0 then 1 else 0) 0

/-- The byte of a cell, if its start bit, stop bits and parity are right. -/
def cellByte (cell : ℕ) : Option ℕ :=
  let v := 0xffff ^^^ cell
  if v &&& 1 ≠ 0 then none
  else if v &&& 0xC00 ≠ 0xC00 then none
  else if parityOf v ≠ (v &&& 0x200) >>> 9 then none
  else some (v >>> 1 &&& 0xff)

section Decoder

variable (convert : ℕ → ℕ)

/-- What is done with the bytes of a frame. -/
def decodeFrame (bytes : List ℕ) : List Event :=
  match Sbus.sbusDecode convert (fun index => bytes.getD index 0) maxRcinChannels with
  | none => [.decode bytes]
  | some decoded =>
    if minRcinChannels ≤ decoded.values.length then
      [.decode bytes, .report ⟨decoded.values.length, decoded.values, decoded.sbusFailsafe⟩]
    else [.decode bytes]

/-- What is done when there is a full frame. -/
def fullFrame (cells : List ℕ) : List Event :=
  let (bytes, touched) := checkCells cellByte cells 0 25
  touched.map .access ++ (bytes.map (decodeFrame convert)).getD []

/-- A width in bits, in 16 bits. -/
def bitsIn (width : ℕ) : ℕ := (width + 1) % 2 ^ 32 / 10 % 2 ^ 16

/-- `process_pulse`. -/
def processPulse (sbus : SbusState) (pulse : Pulse) : SbusState × List Event :=
  let bitsS0 := bitsIn pulse.widthS0
  let bitsS1 := bitsIn pulse.widthS1
  let byteOfs := sbus.bitOfs / 12 % 2 ^ 8
  let bitOfs := sbus.bitOfs % 12
  if bitsS0 = 0 ∨ bitsS1 = 0 then (reset, [])
  else if bitsS0 + bitOfs > 10 then (reset, [])
  else
    let bytes :=
      sbus.bytes.set byteOfs (sbus.bytes.getD byteOfs 0 ||| ((1 <<< bitsS0 - 1) <<< bitOfs))
    let nlow := if bitsS1 + (bitOfs + bitsS0) > 12 then 12 - (bitOfs + bitsS0) else bitsS1
    let sbus := ⟨bytes, (sbus.bitOfs + bitsS0 + nlow) % 2 ^ 16⟩
    if bitsS1 - nlow > 12 then
      (reset, .access byteOfs :: if sbus.bitOfs = 25 * 12 then fullFrame convert sbus.bytes else [])
    else (sbus, [.access byteOfs])

/-- The decoder behind a row of pulses. -/
def after (pulses : List Pulse) : SbusState :=
  (Framing.run (processPulse convert) reset pulses).1

end Decoder

/-! ### Frames as they are sent -/

/-- The data bits of a byte, the lowest one first. -/
def dataBits (byte : ℕ) : List Bool := (List.range 8).map fun bit => byte.testBit bit

/-- The even parity bit of a byte. -/
def parityBit (byte : ℕ) : Bool := (dataBits byte).foldl xor false

/-- The line while a byte is sent in 8E2: a start bit, the data, the parity, two stop bits. -/
def line (byte : ℕ) : List Bool := false :: dataBits byte ++ [parityBit byte] ++ [true, true]

/-- The signal of a byte on an inverted line. -/
def signal (byte : ℕ) : List Bool := (line byte).map not

/-- The runs of a byte in microseconds at 100 kbit/s, with an idle time behind it. -/
def byteRuns (byte idle : ℕ) : List (ℕ × ℕ) :=
  addLast idle ((runs true (signal byte)).map fun run => (10 * run.1, 10 * run.2))

/-- The runs of bytes, each with the idle time behind it. -/
def frameRuns (sent : List (ℕ × ℕ)) : List (ℕ × ℕ) :=
  sent.flatMap fun byte => byteRuns byte.1 byte.2

/-- A width that is up to 1 microsecond short or 8 long. -/
def Near (nominal width : ℕ) : Prop := nominal ≤ width + 1 ∧ width ≤ nominal + 8

/-- Pulses as the receiver sees the runs. -/
def Seen (sent : List (ℕ × ℕ)) (pulses : List Pulse) : Prop :=
  List.Forall₂ (fun run pulse => Near run.1 pulse.widthS0 ∧ Near run.2 pulse.widthS1) sent pulses

/-- Pulses that stand for a frame: at most 12 bit times of idle between the bytes, and more than 13
and fewer than 65000 behind them. -/
def FrameSeen (bytes : List ℕ) (pulses : List Pulse) : Prop :=
  ∃ (idles : List ℕ) (gap : ℕ), idles.length = 24 ∧ (∀ idle ∈ idles, idle ≤ 120) ∧ 130 < gap ∧
    gap < 650000 ∧ Seen (frameRuns (bytes.zip (idles ++ [gap]))) pulses

/-- The calls of `sbus_decode` among events. -/
def decodeCalls (events : List Event) : List (List ℕ) :=
  events.filterMap fun event => match event with
    | .decode bytes => some bytes
    | _ => none

/-- The events that are no accesses. -/
def calls (events : List Event) : List Event :=
  events.filter fun event => match event with
    | .access _ => false
    | _ => true

/-! ### One pulse -/

section Step

variable {convert : ℕ → ℕ} {sbus : SbusState} {pulse : Pulse}

theorem processPulse_invalid (invalid : bitsIn pulse.widthS0 = 0 ∨ bitsIn pulse.widthS1 = 0 ∨
    bitsIn pulse.widthS0 + sbus.bitOfs % 12 > 10) :
    processPulse convert sbus pulse = (reset, []) := by
  unfold processPulse
  dsimp only
  by_cases none : bitsIn pulse.widthS0 = 0 ∨ bitsIn pulse.widthS1 = 0
  · rw [if_pos none]
  · rw [if_neg none, if_pos (by tauto)]

/-- The low bits that a pulse adds to a cell that has come to an offset. -/
def lowBits (offset bits : ℕ) : ℕ := if bits + offset > 12 then 12 - offset else bits

theorem lowBits_le (offset bits : ℕ) : lowBits offset bits ≤ 12 - offset := by
  unfold lowBits
  split <;> omega

/-- The state with the bits of a pulse. -/
def pull (sbus : SbusState) (marks nlow : ℕ) : SbusState where
  bytes := sbus.bytes.set (sbus.bitOfs / 12 % 2 ^ 8)
    (sbus.bytes.getD (sbus.bitOfs / 12 % 2 ^ 8) 0 ||| ((1 <<< marks - 1) <<< (sbus.bitOfs % 12)))
  bitOfs := (sbus.bitOfs + marks + nlow) % 2 ^ 16

variable {marks bits : ℕ}

theorem processPulse_valid (isMarks : bitsIn pulse.widthS0 = marks)
    (isBits : bitsIn pulse.widthS1 = bits) (some_marks : 0 < marks) (some_bits : 0 < bits)
    (room : sbus.bitOfs % 12 + marks ≤ 10) :
    processPulse convert sbus pulse =
      if bits - lowBits (sbus.bitOfs % 12 + marks) bits > 12 then
        (reset, .access (sbus.bitOfs / 12 % 2 ^ 8) ::
          if (pull sbus marks (lowBits (sbus.bitOfs % 12 + marks) bits)).bitOfs = 25 * 12 then
            fullFrame convert (pull sbus marks (lowBits (sbus.bitOfs % 12 + marks) bits)).bytes
          else [])
      else
        (pull sbus marks (lowBits (sbus.bitOfs % 12 + marks) bits),
          [.access (sbus.bitOfs / 12 % 2 ^ 8)]) := by
  unfold processPulse
  rw [isMarks, isBits]
  dsimp only
  rw [if_neg (by omega), if_neg (by omega)]
  rfl

end Step

/-! ### Where the decoder writes -/

/-- At every pulse of a row the accesses are inside `sbus_state.bytes`. -/
def AccessesInside (convert : ℕ → ℕ) (pulses : List Pulse) : Prop :=
  ∀ first pulse rest, pulses = first ++ pulse :: rest →
    ∀ index, .access index ∈ (processPulse convert (after convert first) pulse).2 → index < 25

/-- A pulse that is written nowhere. -/
def Invalid (pulse : Pulse) : Prop :=
  bitsIn pulse.widthS0 = 0 ∨ bitsIn pulse.widthS1 = 0 ∨ bitsIn pulse.widthS0 > 10

/-- The pulses that find 25 full cells are written nowhere. -/
def FullThenInvalid (convert : ℕ → ℕ) (pulses : List Pulse) : Prop :=
  ∀ first pulse rest, pulses = first ++ pulse :: rest →
    (after convert first).bitOfs = 25 * 12 → Invalid pulse

instance : DecidablePred Invalid := fun pulse =>
  inferInstanceAs (Decidable (bitsIn pulse.widthS0 = 0 ∨ bitsIn pulse.widthS1 = 0 ∨
    bitsIn pulse.widthS0 > 10))

theorem mem_fullFrame_access {convert : ℕ → ℕ} {cells : List ℕ} {index : ℕ}
    (member : .access index ∈ fullFrame convert cells) : index < 25 := by
  unfold fullFrame at member
  dsimp only at member
  rcases List.mem_append.mp member with touched | decoded
  · obtain ⟨touchedIndex, among, same⟩ := List.mem_map.mp touched
    cases same
    exact checkCells_touched cellByte cells 0 25 index among
  · cases read : (checkCells cellByte cells 0 25).1 with
    | none =>
      rw [read] at decoded
      exact absurd decoded List.not_mem_nil
    | some bytes =>
      rw [read] at decoded
      change .access index ∈ decodeFrame convert bytes at decoded
      unfold decodeFrame at decoded
      split at decoded
      case h_1 => exact absurd (List.mem_singleton.mp decoded) (by simp)
      case h_2 =>
        split at decoded
        case isTrue => simp at decoded
        case isFalse => exact absurd (List.mem_singleton.mp decoded) (by simp)

section Accesses

variable {convert : ℕ → ℕ} {sbus : SbusState} {pulse : Pulse}

/-- While a cell is left, a pulse writes inside the cells, and fills at most the last one. -/
theorem processPulse_room (room : sbus.bitOfs < 25 * 12) :
    (processPulse convert sbus pulse).1.bitOfs ≤ 25 * 12 ∧
      ∀ index, .access index ∈ (processPulse convert sbus pulse).2 → index < 25 := by
  by_cases invalid : bitsIn pulse.widthS0 = 0 ∨ bitsIn pulse.widthS1 = 0 ∨
      bitsIn pulse.widthS0 + sbus.bitOfs % 12 > 10
  · rw [processPulse_invalid invalid]
    exact ⟨Nat.zero_le _, fun _ member => nomatch member⟩
  have here : sbus.bitOfs / 12 % 2 ^ 8 < 25 := by omega
  rw [processPulse_valid rfl rfl (by omega) (by omega) (by omega)]
  split
  case isTrue =>
    refine ⟨Nat.zero_le _, fun index member => ?_⟩
    rcases List.mem_cons.mp member with same | frame
    · cases same
      exact here
    · split at frame
      case isTrue => exact mem_fullFrame_access frame
      case isFalse => exact absurd frame List.not_mem_nil
  case isFalse =>
    refine ⟨?_, fun index member => ?_⟩
    · have low : lowBits (sbus.bitOfs % 12 + bitsIn pulse.widthS0) (bitsIn pulse.widthS1) ≤
          12 - (sbus.bitOfs % 12 + bitsIn pulse.widthS0) := lowBits_le _ _
      change (sbus.bitOfs + _ + lowBits _ _) % 2 ^ 16 ≤ 25 * 12
      refine le_trans (Nat.mod_le _ _) ?_
      omega
    · cases List.mem_singleton.mp member
      exact here

/-- A pulse that finds 25 full cells writes behind the last one, unless it is written nowhere. -/
theorem processPulse_full (full : sbus.bitOfs = 25 * 12) :
    (Invalid pulse → processPulse convert sbus pulse = (reset, [])) ∧
      (¬Invalid pulse → .access 25 ∈ (processPulse convert sbus pulse).2) := by
  have offset : sbus.bitOfs % 12 = 0 := by rw [full]
  have index : sbus.bitOfs / 12 % 2 ^ 8 = 25 := by omega
  constructor
  · intro invalid
    exact processPulse_invalid (by rwa [offset])
  · intro valid
    unfold Invalid at valid
    rw [processPulse_valid rfl rfl (by omega) (by omega) (by omega), index]
    split <;> exact List.mem_cons_self

theorem after_append_singleton (first : List Pulse) (pulse : Pulse) :
    after convert (first ++ [pulse]) = (processPulse convert (after convert first) pulse).1 := by
  rw [after, Framing.run_append, Framing.run_cons]
  rfl

theorem bitOfs_after_le {first rest : List Pulse}
    (fullThenInvalid : FullThenInvalid convert (first ++ rest)) :
    (after convert first).bitOfs ≤ 25 * 12 := by
  induction first using List.reverseRecOn generalizing rest with
  | nil => exact Nat.zero_le _
  | append_singleton first pulse inductionHypothesis =>
    rw [List.append_assoc] at fullThenInvalid
    rw [after_append_singleton]
    rcases Nat.lt_or_eq_of_le (inductionHypothesis fullThenInvalid) with room | full
    · exact (processPulse_room room).1
    · rw [(processPulse_full full).1 (fullThenInvalid first pulse rest rfl full)]
      exact Nat.zero_le _

/-- The decoder stays inside its cells exactly if every pulse that finds them all full is written
nowhere. -/
theorem accessesInside_iff (pulses : List Pulse) :
    AccessesInside convert pulses ↔ FullThenInvalid convert pulses := by
  constructor
  · intro inside first pulse rest split full
    by_contra valid
    have outside := inside first pulse rest split 25 ((processPulse_full full).2 valid)
    omega
  · intro fullThenInvalid first pulse rest split index member
    have bound : (after convert first).bitOfs ≤ 25 * 12 :=
      bitOfs_after_le (split ▸ fullThenInvalid)
    rcases Nat.lt_or_eq_of_le bound with room | full
    · exact (processPulse_room room).2 index member
    · rw [(processPulse_full full).1 (fullThenInvalid first pulse rest split full)] at member
      exact absurd member List.not_mem_nil

end Accesses

/-! ### A frame that is sent -/

variable {bits width : ℕ} {pulses : List Pulse}

/-- The bits that a width stands for: those of the nominal time, and some for idle time behind
them. -/
theorem bitsIn_near (idle : ℕ) (near : Near (10 * bits + idle) width) (small : bits ≤ 500)
    (short : idle < 650000) :
    bits + idle / 10 ≤ bitsIn width ∧ bitsIn width ≤ bits + (idle + 9) / 10 := by
  obtain ⟨above, below⟩ := near
  unfold bitsIn
  rw [Nat.mod_eq_of_lt (show width + 1 < 2 ^ 32 by omega),
    Nat.mod_eq_of_lt (show (width + 1) / 10 < 2 ^ 16 by omega)]
  omega

theorem bitsIn_exact (near : Near (10 * bits) width) (small : bits ≤ 500) :
    bitsIn width = bits := by
  have both := bitsIn_near 0 near small (by omega)
  omega

/-- The decoder has gathered some bits, all of a frame so far. -/
structure Gathered (bits : List Bool) (sbus : SbusState) : Prop where
  bitOfs : sbus.bitOfs = bits.length
  full : sbus.bytes.length = 25
  holds : Holds 12 sbus.bytes bits

theorem gathered_reset : Gathered [] reset where
  bitOfs := rfl
  full := List.length_replicate
  holds := holds_replicate 25

section Gathered

variable (convert : ℕ → ℕ) {sbus : SbusState} {gathered : List Bool}

theorem Gathered.pull (state : Gathered gathered sbus) (marks nlow : ℕ)
    (inside : gathered.length < 25 * 12) (room : gathered.length % 12 + marks + nlow ≤ 12) :
    Gathered (gathered ++ List.replicate marks true ++ List.replicate nlow false)
      (pull sbus marks nlow) where
  bitOfs := by
    rw [SbusPulse.pull, state.bitOfs, List.length_append, List.length_append,
      List.length_replicate, List.length_replicate]
    exact Nat.mod_eq_of_lt (by omega)
  full := by rw [SbusPulse.pull, List.length_set, state.full]
  holds := by
    refine Holds.zeros ?_ nlow
    have position : gathered.length = 12 * (gathered.length / 12) + gathered.length % 12 := by
      omega
    have index : gathered.length / 12 % 2 ^ 8 = gathered.length / 12 := by omega
    rw [SbusPulse.pull, state.bitOfs, index]
    exact state.holds.ones position (by omega) (by rw [state.full]; omega)

variable {run : ℕ × ℕ}

/-- A pulse inside a cell, with idle time of at most 12 bits behind the end of the cell. -/
theorem Gathered.pulse (state : Gathered gathered sbus) (idle : ℕ) {pulse : Pulse}
    (proper : Proper run) (inside : gathered.length < 25 * 12)
    (first : Near (10 * run.1) pulse.widthS0) (second : Near (10 * run.2 + idle) pulse.widthS1)
    (room : gathered.length % 12 + run.1 ≤ 10) (fits : gathered.length % 12 + run.1 + run.2 ≤ 12)
    (ends : idle = 0 ∨ idle ≤ 120 ∧ gathered.length % 12 + run.1 + run.2 = 12) :
    Gathered (gathered ++ bitsOf true run) (processPulse convert sbus pulse).1 ∧
      calls (processPulse convert sbus pulse).2 = [] := by
  obtain ⟨some_marks, some_spaces⟩ := proper
  have offset : sbus.bitOfs % 12 = gathered.length % 12 := by rw [state.bitOfs]
  have bits := bitsIn_near _ second (by omega) (by omega)
  have low : lowBits (gathered.length % 12 + run.1) (bitsIn pulse.widthS1) = run.2 := by
    unfold lowBits
    split <;> omega
  rw [processPulse_valid (bitsIn_exact first (by omega)) rfl some_marks (by omega) (by omega),
    offset, low, if_neg (by omega)]
  refine ⟨?_, rfl⟩
  rw [bitsOf, ← List.append_assoc]
  exact state.pull _ _ inside (by omega)

/-- The pulse at the end of a full frame, with a gap of more than 13 bits behind it. -/
theorem Gathered.last (state : Gathered gathered sbus) {gap : ℕ} {pulse : Pulse}
    (proper : Proper run) (first : Near (10 * run.1) pulse.widthS0)
    (second : Near (10 * run.2 + gap) pulse.widthS1) (room : gathered.length % 12 + run.1 ≤ 10)
    (full : gathered.length + run.1 + run.2 = 25 * 12) (long : 130 < gap) (short : gap < 650000)
    (small : run.2 ≤ 12) :
    (processPulse convert sbus pulse).1 = reset ∧
      ∃ cells, Holds 12 cells (gathered ++ bitsOf true run) ∧
        (processPulse convert sbus pulse).2 =
          .access (sbus.bitOfs / 12 % 2 ^ 8) :: fullFrame convert cells := by
  obtain ⟨some_marks, some_spaces⟩ := proper
  have offset : sbus.bitOfs % 12 = gathered.length % 12 := by rw [state.bitOfs]
  have bits := bitsIn_near _ second (by omega) short
  have fits : gathered.length % 12 + run.1 + run.2 = 12 := by omega
  have low : lowBits (gathered.length % 12 + run.1) (bitsIn pulse.widthS1) = run.2 := by
    unfold lowBits
    split <;> omega
  have after := state.pull run.1 run.2 (by omega) (by omega)
  have length : (SbusPulse.pull sbus run.1 run.2).bitOfs = 25 * 12 := by
    rw [after.bitOfs, List.length_append, List.length_append, List.length_replicate,
      List.length_replicate, full]
  rw [processPulse_valid (bitsIn_exact first (by omega)) rfl some_marks (by omega) (by omega),
    offset, low, if_pos (by omega), if_pos length]
  refine ⟨rfl, _, ?_, rfl⟩
  rw [bitsOf, ← List.append_assoc]
  exact after.holds

end Gathered

theorem calls_append (first second : List Event) :
    calls (first ++ second) = calls first ++ calls second :=
  List.filter_append _ _

theorem seen_append {first second : List (ℕ × ℕ)} (seen : Seen (first ++ second) pulses) :
    ∃ early late, pulses = early ++ late ∧ Seen first early ∧ Seen second late := by
  induction first generalizing pulses with
  | nil => exact ⟨[], pulses, rfl, .nil, seen⟩
  | cons run rest inductionHypothesis =>
    obtain ⟨pulse, others, near, remaining, rfl⟩ := List.forall₂_cons_left_iff.mp seen
    obtain ⟨early, late, rfl, before, behind⟩ := inductionHypothesis remaining
    exact ⟨pulse :: early, late, rfl, .cons near before, behind⟩

theorem length_signal (byte : ℕ) : (signal byte).length = 12 := by
  simp [signal, line, dataBits]

theorem runs_signal (byte : ℕ) :
    ∃ (init : List (ℕ × ℕ)) (last : ℕ × ℕ), runs true (signal byte) = init ++ [last] ∧
      (∀ run ∈ init, Proper run) ∧ Proper last ∧ 2 ≤ last.2 ∧
      signal byte = init.flatMap (bitsOf true) ++ bitsOf true last := by
  obtain ⟨body, split⟩ : ∃ body, signal byte = true :: body ++ [false, false] :=
    ⟨(dataBits byte ++ [parityBit byte]).map not, by simp [signal, line]⟩
  have shape : signal byte = true :: (body ++ [false]) ++ [!true] := by
    rw [split]
    simp
  obtain ⟨some_runs, proper⟩ := runs_proper true (body ++ [false])
  rw [← shape] at some_runs proper
  refine ⟨(runs true (signal byte)).dropLast, (runs true (signal byte)).getLast some_runs,
    (List.dropLast_append_getLast some_runs).symm,
    fun run member => proper run (List.mem_of_mem_dropLast member),
    proper _ (List.getLast_mem some_runs), ?_, ?_⟩
  all_goals
    have bits : signal byte = ((runs true (signal byte)).dropLast.flatMap (bitsOf true)) ++
        bitsOf true ((runs true (signal byte)).getLast some_runs) := by
      nth_rewrite 1 [← flatMap_runs true (signal byte)]
      nth_rewrite 1 [← List.dropLast_append_getLast some_runs]
      rw [List.flatMap_append, List.flatMap_singleton]
  case refine_2 => exact bits
  case refine_1 =>
    -- a single low bit would leave a high one in the place of the first stop bit
    by_contra single
    obtain ⟨some_marks, some_spaces⟩ := proper _ (List.getLast_mem some_runs)
    have one : ((runs true (signal byte)).getLast some_runs).2 = 1 := by omega
    obtain ⟨marks, more⟩ := Nat.exists_eq_succ_of_ne_zero (Nat.ne_of_gt some_marks)
    rw [bitsOf, one, more, List.replicate_succ' , split] at bits
    have ends := congrArg (fun row => row.reverse.take 2) bits
    simp at ends

section Feed

variable (convert : ℕ → ℕ) {sbus : SbusState} {gathered : List Bool}

variable {pulses : List Pulse}

/-- The runs of a cell up to the last one. -/
theorem Gathered.init (state : Gathered gathered sbus) {init : List (ℕ × ℕ)}
    (proper : ∀ run ∈ init, Proper run) (inside : gathered.length < 25 * 12)
    (room : gathered.length % 12 + (init.flatMap (bitsOf true)).length + 2 ≤ 12)
    (seen : Seen (init.map fun run => (10 * run.1, 10 * run.2)) pulses) :
    Gathered (gathered ++ init.flatMap (bitsOf true))
        (Framing.run (processPulse convert) sbus pulses).1 ∧
      calls (Framing.run (processPulse convert) sbus pulses).2 = [] := by
  induction init generalizing sbus gathered pulses with
  | nil =>
    cases seen
    rw [List.flatMap_nil, List.append_nil]
    exact ⟨state, rfl⟩
  | cons run rest inductionHypothesis =>
    obtain ⟨pulse, others, near, remaining, rfl⟩ := List.forall₂_cons_left_iff.mp seen
    have runProper : Proper run := proper run List.mem_cons_self
    rw [List.flatMap_cons, List.length_append, length_bitsOf] at room
    obtain ⟨next, quiet⟩ := state.pulse convert 0 runProper inside near.1
      near.2 (by have := runProper.2; omega) (by omega) (.inl rfl)
    have length : (gathered ++ bitsOf true run).length = gathered.length + run.1 + run.2 := by
      rw [List.length_append, length_bitsOf, Nat.add_assoc]
    obtain ⟨final, later⟩ := inductionHypothesis next
      (fun other member => proper other (List.mem_cons_of_mem _ member)) (by omega) (by omega)
      remaining
    rw [Framing.run_cons, List.flatMap_cons, ← List.append_assoc, calls_append, quiet, later]
    exact ⟨final, rfl⟩

theorem Gathered.byte (state : Gathered gathered sbus) {byte idle index : ℕ}
    (cells : gathered.length = 12 * index) (inside : index < 25) (short : idle ≤ 120)
    (seen : Seen (byteRuns byte idle) pulses) :
    Gathered (gathered ++ signal byte) (Framing.run (processPulse convert) sbus pulses).1 ∧
      calls (Framing.run (processPulse convert) sbus pulses).2 = [] := by
  obtain ⟨init, last, split, initProper, lastProper, stops, bits⟩ := runs_signal byte
  have total : (init.flatMap (bitsOf true)).length + (last.1 + last.2) = 12 := by
    rw [← length_bitsOf true, ← List.length_append, ← bits, length_signal]
  rw [byteRuns, split, List.map_append, List.map_singleton, addLast_append_singleton] at seen
  obtain ⟨early, late, rfl, before, behind⟩ := seen_append seen
  obtain ⟨pulse, none, near, remaining, rfl⟩ := List.forall₂_cons_left_iff.mp behind
  cases remaining
  have some_marks := lastProper.1
  obtain ⟨middle, quiet⟩ := state.init convert initProper (by omega) (by omega) before
  have length : (gathered ++ init.flatMap (bitsOf true)).length =
      12 * index + (init.flatMap (bitsOf true)).length := by rw [List.length_append, cells]
  obtain ⟨final, silent⟩ := middle.pulse convert idle lastProper (by omega) near.1 near.2
    (by omega) (by omega) (.inr ⟨short, by omega⟩)
  rw [Framing.run_append, Framing.run_cons, bits, ← List.append_assoc, calls_append,
    calls_append, quiet, silent]
  exact ⟨final, rfl⟩

/-- The bytes of a frame up to the last one. -/
theorem Gathered.bytes (state : Gathered gathered sbus) {sent : List (ℕ × ℕ)} (index : ℕ)
    (cells : gathered.length = 12 * index) (inside : index + sent.length < 25)
    (short : ∀ byte ∈ sent, byte.2 ≤ 120) (seen : Seen (frameRuns sent) pulses) :
    Gathered (gathered ++ (sent.map fun byte => signal byte.1).flatten)
        (Framing.run (processPulse convert) sbus pulses).1 ∧
      calls (Framing.run (processPulse convert) sbus pulses).2 = [] := by
  induction sent generalizing sbus gathered index pulses with
  | nil =>
    cases seen
    rw [List.map_nil, List.flatten_nil, List.append_nil]
    exact ⟨state, rfl⟩
  | cons byte rest inductionHypothesis =>
    rw [List.length_cons] at inside
    rw [frameRuns, List.flatMap_cons] at seen
    obtain ⟨early, late, rfl, before, behind⟩ := seen_append seen
    obtain ⟨next, quiet⟩ := state.byte convert cells (by omega)
      (short byte List.mem_cons_self) before
    have length : (gathered ++ signal byte.1).length = 12 * (index + 1) := by
      rw [List.length_append, length_signal, cells]
      omega
    obtain ⟨final, later⟩ := inductionHypothesis next (index + 1) length (by omega)
      (fun other member => short other (List.mem_cons_of_mem _ member)) behind
    rw [Framing.run_append, List.map_cons, List.flatten_cons, ← List.append_assoc,
      calls_append, quiet, later]
    exact ⟨final, rfl⟩

end Feed

theorem cellByte_signal : ∀ byte < 256, cellByte (value (signal byte)) = some byte := by
  decide +kernel

theorem calls_touched (touched : List ℕ) : calls (touched.map .access) = [] := by
  simp [calls]

theorem calls_decodeFrame (convert : ℕ → ℕ) (bytes : List ℕ) :
    calls (decodeFrame convert bytes) = decodeFrame convert bytes := by
  unfold decodeFrame
  split
  · rfl
  · split <;> rfl

theorem calls_fullFrame (convert : ℕ → ℕ) {cells bytes : List ℕ} (whole : bytes.length = 25)
    (small : ∀ byte ∈ bytes, byte < 256) (holds : Holds 12 cells (bytes.map signal).flatten) :
    calls (fullFrame convert cells) = decodeFrame convert bytes := by
  have good : ∀ (position : ℕ) (byte : ℕ), bytes[position]? = some byte →
      cellByte (cells.getD (0 + position) 0) = some byte := by
    intro position byte found
    obtain ⟨inside, same⟩ := List.getElem?_eq_some_iff.mp found
    have row : (bytes.map signal).getD position [] = signal byte := by
      rw [List.getD_eq_getElem _ _ (by rwa [List.length_map]), List.getElem_map, same]
    rw [Nat.zero_add, holds.cell (fun row member => ?_) (by rwa [List.length_map]), row]
    · exact cellByte_signal byte (small byte (same ▸ List.getElem_mem inside))
    · obtain ⟨other, -, rfl⟩ := List.mem_map.mp member
      exact length_signal other
  have read := checkCells_eq_some cellByte cells good
  rw [whole] at read
  rw [fullFrame, calls_append, calls_touched, read]
  exact calls_decodeFrame convert bytes

theorem run_frame (convert : ℕ → ℕ) {bytes : List ℕ} (whole : bytes.length = 25)
    (small : ∀ byte ∈ bytes, byte < 256) (sent : FrameSeen bytes pulses) :
    (Framing.run (processPulse convert) reset pulses).1 = reset ∧
      calls (Framing.run (processPulse convert) reset pulses).2 = decodeFrame convert bytes := by
  obtain ⟨idles, gap, count, short, long, below, seen⟩ := sent
  obtain ⟨front, final, rfl⟩ : ∃ front final, bytes = front ++ [final] :=
    ⟨bytes.dropLast, bytes.getLast (by rintro rfl; cases whole),
      (List.dropLast_append_getLast _).symm⟩
  have frontCount : front.length = 24 := by
    rw [List.length_append, List.length_singleton] at whole
    omega
  have zipCount : (front.zip idles).length = 24 := by rw [List.length_zip, frontCount, count]; rfl
  have frontBytes : (front.zip idles).map (fun byte => signal byte.1) = front.map signal := by
    rw [← Function.comp_def, ← List.map_map, List.map_fst_zip (by omega)]
  rw [List.zip_append (by omega), frameRuns, List.flatMap_append] at seen
  obtain ⟨early, late, rfl, before, behind⟩ := seen_append seen
  obtain ⟨gathered, quiet⟩ := gathered_reset.bytes convert 0 rfl (by omega)
    (fun byte member => short _ (List.of_mem_zip member).2) before
  obtain ⟨init, last, split, initProper, lastProper, stops, bits⟩ := runs_signal final
  have total : (init.flatMap (bitsOf true)).length + (last.1 + last.2) = 12 := by
    rw [← length_bitsOf true, ← List.length_append, ← bits, length_signal]
  have some_marks := lastProper.1
  change Seen (byteRuns final gap ++ []) late at behind
  rw [List.append_nil, byteRuns, split, List.map_append, List.map_singleton,
    addLast_append_singleton] at behind
  obtain ⟨initPulses, lastPulses, rfl, initSeen, lastSeen⟩ := seen_append behind
  obtain ⟨pulse, none, near, remaining, rfl⟩ := List.forall₂_cons_left_iff.mp lastSeen
  cases remaining
  rw [List.nil_append, frontBytes] at gathered
  have frontBits : ((front.map signal).flatten).length = 12 * 24 := by
    rw [List.length_flatten, List.map_map, ← frontCount]
    simp [length_signal, Function.comp_def, Nat.mul_comm]
  obtain ⟨middle, silent⟩ := gathered.init convert initProper (by omega) (by omega)
    initSeen
  have middleBits : ((front.map signal).flatten ++ init.flatMap (bitsOf true)).length =
      12 * 24 + (init.flatMap (bitsOf true)).length := by rw [List.length_append, frontBits]
  obtain ⟨rest, cells, holds, events⟩ := middle.last convert lastProper near.1 near.2
    (by omega) (by omega) long below (by omega)
  rw [List.append_assoc, ← bits] at holds
  have wholeBits : (front.map signal).flatten ++ signal final =
      ((front ++ [final]).map signal).flatten := by simp
  rw [Framing.run_append, Framing.run_append, Framing.run_cons]
  refine ⟨rest, ?_⟩
  rw [calls_append, quiet, calls_append, silent, calls_append, events]
  change [] ++ ([] ++ (calls (fullFrame convert cells) ++ [])) = _
  rw [calls_fullFrame convert whole small (wholeBits ▸ holds)]
  exact List.append_nil _

theorem decodeCalls_frame (convert : ℕ → ℕ) {bytes : List ℕ} (whole : bytes.length = 25)
    (small : ∀ byte ∈ bytes, byte < 256) (sent : FrameSeen bytes pulses) :
    decodeCalls (Framing.run (processPulse convert) reset pulses).2 = [bytes] := by
  have kept (events : List Event) : decodeCalls (calls events) = decodeCalls events := by
    rw [decodeCalls, calls, List.filterMap_filter]
    exact List.filterMap_congr fun event _ => by cases event <;> rfl
  rw [← kept, (run_frame convert whole small sent).2, decodeFrame]
  split
  · rfl
  · split <;> rfl

/-- The decoder stays inside its cells exactly if every pulse that finds them all full is written
nowhere, and a frame that is sent is decoded once, with its bytes. -/
theorem frames_decoded_and_accesses (convert : ℕ → ℕ) :
    (∀ pulses, AccessesInside convert pulses ↔ FullThenInvalid convert pulses) ∧
      ∀ bytes pulses, bytes.length = 25 → (∀ byte ∈ bytes, byte < 256) → bytes.head? = some 0x0f →
        FrameSeen bytes pulses →
        decodeCalls (Framing.run (processPulse convert) reset pulses).2 = [bytes] :=
  ⟨accessesInside_iff, fun _ _ whole small _ sent => decodeCalls_frame convert whole small sent⟩

/-- Pulses of exactly the nominal widths. -/
def exactPulses (sent : List (ℕ × ℕ)) : List Pulse := sent.map fun run => ⟨run.1, run.2⟩

theorem near_refl (nominal : ℕ) : Near nominal nominal := ⟨by omega, by omega⟩

theorem seen_exactPulses (sent : List (ℕ × ℕ)) : Seen sent (exactPulses sent) := by
  induction sent with
  | nil => exact .nil
  | cons run rest inductionHypothesis =>
    exact .cons ⟨near_refl run.1, near_refl run.2⟩ inductionHypothesis

/-- A frame whose channels are all at zero. -/
def zeroFrame : List ℕ := 0x0f :: List.replicate 24 0

/-- The pulses of a frame with a gap behind it, without idle time between the bytes. -/
def framePulses (bytes : List ℕ) (gap : ℕ) : List Pulse :=
  exactPulses (frameRuns (bytes.zip (List.replicate 24 0 ++ [gap])))

theorem frames_decoded_zeroFrame :
    (AccessesInside id (framePulses zeroFrame 4000) ↔
      FullThenInvalid id (framePulses zeroFrame 4000)) ∧
    decodeCalls (Framing.run (processPulse id) reset (framePulses zeroFrame 4000)).2 =
      [zeroFrame] :=
  ⟨(frames_decoded_and_accesses id).1 _,
    (frames_decoded_and_accesses id).2 zeroFrame _ (by decide) (by decide) (by decide)
      ⟨List.replicate 24 0, 4000, by decide, by decide, by decide, by decide,
        seen_exactPulses _⟩⟩

/-- A frame with 100 microseconds behind it leaves 25 full cells, and the first pulse of the next
byte is written behind them. -/
theorem access_behind_frame :
    .access 25 ∈ (processPulse id (after id (framePulses zeroFrame 100)) ⟨50, 40⟩).2 ∧
      ¬AccessesInside id (framePulses zeroFrame 100 ++ [⟨50, 40⟩]) := by
  have outside : .access 25 ∈
      (processPulse id (after id (framePulses zeroFrame 100)) ⟨50, 40⟩).2 := by
    decide +kernel
  refine ⟨outside, fun inside => ?_⟩
  have below := inside (framePulses zeroFrame 100) ⟨50, 40⟩ [] rfl 25 outside
  omega

end Urus.RcProtocol.SbusPulse
