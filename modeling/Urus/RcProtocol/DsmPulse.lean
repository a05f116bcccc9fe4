/-
This file models how DSM frames are gathered from pulses, and proves when a frame that is sent is
decoded.

A frame is 16 cells of 10 bits between two gaps. Widths are turned into bits by a product in 32
bits, so that a long gap can come out as a short one. A frame is decoded, once and with its bytes,
exactly if both gaps are still long as the decoder counts them.
-/

import Mathlib.Tactic
import Urus.Lib.Cells
import Urus.Lib.Framing
import Urus.RcProtocol.Model

namespace Urus.RcProtocol.DsmPulse

open Cells

/-! ### The decoder -/

/-- `dsm_state`. -/
structure DsmState where
  bytes : List ℕ
  bitOfs : ℕ
  deriving DecidableEq

/-- What a pulse makes the decoder do: it accesses an element of `dsm_state.bytes`, or calls
`dsm_decode`. -/
inductive Event
  | access (index : ℕ)
  | decode (frame : List ℕ)
  deriving DecidableEq

/-- The state that `memset` leaves. -/
def reset : DsmState := ⟨List.replicate 16 0, 0⟩

/-- A width in bits at 115200 bit/s, with a product in 32 bits. -/
def bitsIn (width : ℕ) : ℕ := (width + 4) % 2 ^ 32 * 115200 % 2 ^ 32 / 1000000 % 2 ^ 16

/-- The byte of a cell, if its start bit and stop bit are right. -/
def cellByte (v : ℕ) : Option ℕ :=
  if v &&& 1 ≠ 0 then none
  else if v &&& 0x200 ≠ 0x200 then none
  else some (v >>> 1 &&& 0xff)

/-- The high bits that are pulled into a cell that has come to an offset. -/
def highBits (offset bits : ℕ) : ℕ := if bits + offset > 10 then 10 - offset else bits

/-- Pull in the high bits. -/
def pullHigh (dsm : DsmState) (nbits : ℕ) : DsmState where
  bytes := dsm.bytes.set (dsm.bitOfs / 10 % 2 ^ 8)
    (dsm.bytes.getD (dsm.bitOfs / 10 % 2 ^ 8) 0 ||| ((1 <<< nbits - 1) <<< (dsm.bitOfs % 10)))
  bitOfs := (dsm.bitOfs + nbits) % 2 ^ 16

/-- Pull in the low bits. -/
def pullLow (dsm : DsmState) (bits : ℕ) : DsmState :=
  if bits + dsm.bitOfs % 10 > 10 then reset
  else { dsm with bitOfs := (dsm.bitOfs + bits) % 2 ^ 16 }

/-- What is done at a gap: a full frame is decoded, unless one of its cells is bad. -/
def atGap (dsm : DsmState) (bits : ℕ) : DsmState × List Event :=
  if dsm.bitOfs = 16 * 10 then
    let checked := checkCells cellByte dsm.bytes 0 16
    match checked.1 with
    | none => (reset, checked.2.map .access)
    | some frame => (pullLow reset bits, checked.2.map .access ++ [.decode frame])
  else (pullLow reset bits, [])

/-- `process_pulse`. -/
def processPulse (dsm : DsmState) (pulse : Pulse) : DsmState × List Event :=
  let bitsS0 := bitsIn pulse.widthS0
  let bitsS1 := bitsIn pulse.widthS1
  let byteOfs := dsm.bitOfs / 10 % 2 ^ 8
  if bitsS0 = 0 ∨ bitsS1 = 0 then (reset, [])
  else if byteOfs > 15 then (reset, [])
  else
    let nbits := highBits (dsm.bitOfs % 10) bitsS0
    let dsm := pullHigh dsm nbits
    if bitsS0 - nbits > 10 then
      let outcome := atGap dsm bitsS1
      (outcome.1, .access byteOfs :: outcome.2)
    else (pullLow dsm bitsS1, [.access byteOfs])

/-- The decoder behind a row of pulses. -/
def after (pulses : List Pulse) : DsmState := (Framing.run processPulse reset pulses).1

/-! ### Frames as they are sent -/

/-- The line while a byte is sent in 8N1: a start bit, the data, the lowest bit first, a stop bit. -/
def line (byte : ℕ) : List Bool :=
  false :: ((List.range 8).map fun bit => byte.testBit bit) ++ [true]

/-- The runs of a byte in bits, low ones first, with idle time behind it. -/
def byteRuns (byte idle : ℕ) : List (ℕ × ℕ) := addLast idle (runs false (line byte))

/-- The runs of bytes, each with the idle time behind it. -/
def frameRuns (sent : List (ℕ × ℕ)) : List (ℕ × ℕ) :=
  sent.flatMap fun byte => byteRuns byte.1 byte.2

/-- The high bits that runs end with, behind other ones. -/
def endHigh : ℕ → List (ℕ × ℕ) → ℕ
  | high, [] => high
  | _, run :: rest => endHigh run.2 rest

/-- The high bits that a byte ends with. -/
def trailing (byte : ℕ) : ℕ := endHigh 0 (runs false (line byte))

/-- Whole bit times, rounded to the nearest microsecond. -/
def widthOf (bits : ℕ) : ℕ := (bits * 625 + 36) / 72

/-- The pulses of runs behind a high time. Each pulse is the high time in front of a low one. -/
def pulsesFrom : ℕ → List (ℕ × ℕ) → List Pulse
  | _, [] => []
  | high, run :: rest => ⟨high, widthOf run.1⟩ :: pulsesFrom (widthOf run.2) rest

/-- The pulses of a frame: the high time before it, that behind its last low bit, and how long the
line is then low. The last byte has no idle time of its own. -/
def framePulses (before : ℕ) (bytes idles : List ℕ) (behind low : ℕ) : List Pulse :=
  pulsesFrom before (frameRuns (bytes.zip (idles ++ [0]))) ++ [⟨behind, widthOf low⟩]

/-- The calls of `dsm_decode` among events. -/
def decodeCalls (events : List Event) : List (List ℕ) :=
  events.filterMap fun event => match event with
    | .decode frame => some frame
    | _ => none

/-! ### Where the decoder writes -/

/-- At every pulse of a row the accesses are inside `dsm_state.bytes`. -/
def AccessesInside (pulses : List Pulse) : Prop :=
  ∀ first pulse rest, pulses = first ++ pulse :: rest →
    ∀ index, .access index ∈ (processPulse (after first) pulse).2 → index < 16

section Step

variable {dsm : DsmState} {pulse : Pulse}

theorem processPulse_none (none : bitsIn pulse.widthS0 = 0 ∨ bitsIn pulse.widthS1 = 0) :
    processPulse dsm pulse = (reset, []) := by
  unfold processPulse
  rw [if_pos none]

theorem processPulse_over (past : dsm.bitOfs / 10 % 2 ^ 8 > 15) :
    processPulse dsm pulse = (reset, []) := by
  unfold processPulse
  dsimp only
  rw [if_pos past, ite_self]

theorem processPulse_some {high low : ℕ} (isHigh : bitsIn pulse.widthS0 = high)
    (isLow : bitsIn pulse.widthS1 = low) (some_high : 0 < high) (some_low : 0 < low)
    (inside : dsm.bitOfs / 10 % 2 ^ 8 ≤ 15) :
    processPulse dsm pulse =
      if high - highBits (dsm.bitOfs % 10) high > 10 then
        ((atGap (pullHigh dsm (highBits (dsm.bitOfs % 10) high)) low).1,
          .access (dsm.bitOfs / 10 % 2 ^ 8) ::
            (atGap (pullHigh dsm (highBits (dsm.bitOfs % 10) high)) low).2)
      else
        (pullLow (pullHigh dsm (highBits (dsm.bitOfs % 10) high)) low,
          [.access (dsm.bitOfs / 10 % 2 ^ 8)]) := by
  unfold processPulse
  rw [isHigh, isLow]
  rw [if_neg (by omega), if_neg (by omega)]

theorem highBits_le (offset bits : ℕ) :
    highBits offset bits ≤ bits ∧ highBits offset bits ≤ 10 - offset := by
  unfold highBits
  split <;> omega

theorem mem_atGap_access {bits index : ℕ} (member : .access index ∈ (atGap dsm bits).2) :
    index < 16 := by
  have touched : ∀ other ∈ (checkCells cellByte dsm.bytes 0 16).2, other < 16 :=
    checkCells_touched cellByte dsm.bytes 0 16
  unfold atGap at member
  split at member
  case isFalse => exact absurd member List.not_mem_nil
  case isTrue =>
    dsimp only at member
    split at member
    case h_1 =>
      obtain ⟨other, among, same⟩ := List.mem_map.mp member
      cases same
      exact touched index among
    case h_2 =>
      rcases List.mem_append.mp member with early | last
      · obtain ⟨other, among, same⟩ := List.mem_map.mp early
        cases same
        exact touched index among
      · exact absurd (List.mem_singleton.mp last) (by simp)

theorem processPulse_access {index : ℕ} (member : .access index ∈ (processPulse dsm pulse).2) :
    index < 16 := by
  by_cases none : bitsIn pulse.widthS0 = 0 ∨ bitsIn pulse.widthS1 = 0
  · rw [processPulse_none none] at member
    exact absurd member List.not_mem_nil
  by_cases past : dsm.bitOfs / 10 % 2 ^ 8 > 15
  · rw [processPulse_over past] at member
    exact absurd member List.not_mem_nil
  rw [processPulse_some rfl rfl (by omega) (by omega) (by omega)] at member
  split at member
  case isTrue =>
    rcases List.mem_cons.mp member with same | gap
    · cases same
      omega
    · exact mem_atGap_access gap
  case isFalse =>
    cases List.mem_singleton.mp member
    omega

end Step

theorem accessesInside (pulses : List Pulse) : AccessesInside pulses :=
  fun _ _ _ _ _ member => processPulse_access member

/-! ### Pulses inside a frame -/

theorem bitsIn_widthOf : ∀ bits ≤ 30, bitsIn (widthOf bits) = bits := by decide

/-- The decoder has gathered some bits, all of a frame so far. -/
structure Gathered (bits : List Bool) (dsm : DsmState) : Prop where
  bitOfs : dsm.bitOfs = bits.length
  full : dsm.bytes.length = 16
  holds : Holds 10 dsm.bytes bits

/-- The decoder has gathered some bits but for the high ones at their end, which come with the next
pulse. -/
def Pending (bits : List Bool) (high : ℕ) (dsm : DsmState) : Prop :=
  ∃ gathered, bits = gathered ++ List.replicate high true ∧ Gathered gathered dsm ∧
    gathered.length % 10 + high ≤ 10 ∧ 0 < gathered.length % 10 ∧ 0 < high

theorem gathered_reset : Gathered [] reset where
  bitOfs := rfl
  full := List.length_replicate
  holds := holds_replicate 16

section Gathered

variable {dsm : DsmState} {bits gathered : List Bool} {high : ℕ}

theorem Gathered.pullHigh (state : Gathered gathered dsm) (nbits : ℕ)
    (inside : gathered.length < 16 * 10) (room : gathered.length % 10 + nbits ≤ 10) :
    Gathered (gathered ++ List.replicate nbits true) (pullHigh dsm nbits) where
  bitOfs := by
    rw [DsmPulse.pullHigh, state.bitOfs, List.length_append, List.length_replicate]
    exact Nat.mod_eq_of_lt (by omega)
  full := by rw [DsmPulse.pullHigh, List.length_set, state.full]
  holds := by
    have position : gathered.length = 10 * (gathered.length / 10) + gathered.length % 10 := by
      omega
    have index : gathered.length / 10 % 2 ^ 8 = gathered.length / 10 := by omega
    rw [DsmPulse.pullHigh, state.bitOfs, index]
    exact state.holds.ones position (by omega) (by rw [state.full]; omega)

theorem Gathered.pullLow (state : Gathered gathered dsm) (low : ℕ)
    (inside : gathered.length ≤ 16 * 10) (room : gathered.length % 10 + low ≤ 10) :
    Gathered (gathered ++ List.replicate low false) (pullLow dsm low) := by
  have eq : DsmPulse.pullLow dsm low = { dsm with bitOfs := gathered.length + low } := by
    rw [DsmPulse.pullLow, state.bitOfs, if_neg (by omega), Nat.mod_eq_of_lt (by omega)]
  rw [eq]
  refine ⟨?_, state.full, state.holds.zeros low⟩
  rw [List.length_append, List.length_replicate]

/-- The pulse of the high bits that are pending, with idle time behind the end of a cell, and the low
ones behind them. -/
theorem Pending.pulse (state : Pending bits high dsm) {idle : ℕ} {run : ℕ × ℕ}
    (proper : Proper run) (inside : bits.length < 16 * 10) (short : idle ≤ 10)
    (ends : idle = 0 ∨ bits.length % 10 = 0) (room : bits.length % 10 + run.1 + run.2 ≤ 10) :
    Pending (bits ++ bitsOf false run) run.2
        (processPulse dsm ⟨widthOf (high + idle), widthOf run.1⟩).1 ∧
      decodeCalls (processPulse dsm ⟨widthOf (high + idle), widthOf run.1⟩).2 = [] := by
  obtain ⟨gathered, rfl, state, fits, started, some_high⟩ := state
  obtain ⟨some_low, some_next⟩ := proper
  rw [List.length_append, List.length_replicate] at inside ends room
  have offset : dsm.bitOfs % 10 = gathered.length % 10 := by rw [state.bitOfs]
  have nbits : highBits (gathered.length % 10) (high + idle) = high := by
    unfold highBits
    split <;> omega
  have middle := (state.pullHigh high (by omega) fits).pullLow run.1
    (by rw [List.length_append, List.length_replicate]; omega)
    (by rw [List.length_append, List.length_replicate]; omega)
  have isHigh : bitsIn (⟨widthOf (high + idle), widthOf run.1⟩ : Pulse).widthS0 = high + idle :=
    bitsIn_widthOf (high + idle) (by omega)
  have isLow : bitsIn (⟨widthOf (high + idle), widthOf run.1⟩ : Pulse).widthS1 = run.1 :=
    bitsIn_widthOf run.1 (by omega)
  rw [processPulse_some isHigh isLow (by omega) some_low (by rw [state.bitOfs]; omega), offset,
    nbits, if_neg (by omega)]
  refine ⟨⟨_, ?_, middle, ?_, ?_, some_next⟩, rfl⟩
  · rw [bitsOf, List.append_assoc, List.append_assoc, List.append_assoc]
    rfl
  · rw [List.length_append, List.length_append, List.length_replicate, List.length_replicate]
    omega
  · rw [List.length_append, List.length_append, List.length_replicate, List.length_replicate]
    omega

end Gathered

/-! ### Runs of bytes -/

theorem decodeCalls_append (first second : List Event) :
    decodeCalls (first ++ second) = decodeCalls first ++ decodeCalls second :=
  List.filterMap_append

theorem length_line (byte : ℕ) : (line byte).length = 10 := by
  simp [line]

theorem runs_line (byte : ℕ) :
    ∃ first rest, runs false (line byte) = first :: rest ∧ Proper first ∧
      (∀ run ∈ rest, Proper run) ∧
      line byte = bitsOf false first ++ rest.flatMap (bitsOf false) := by
  obtain ⟨some_runs, proper⟩ := runs_proper false ((List.range 8).map fun bit => byte.testBit bit)
  change ∀ run ∈ runs false (line byte), Proper run at proper
  have bits := flatMap_runs false (line byte)
  cases split : runs false (line byte) with
  | nil => exact absurd split some_runs
  | cons first rest =>
    rw [split] at proper bits
    exact ⟨first, rest, rfl, proper first List.mem_cons_self,
      fun run member => proper run (List.mem_cons_of_mem _ member), bits.symm⟩

theorem pulsesFrom_byteRuns (high byte idle : ℕ) (sent : List (ℕ × ℕ)) :
    pulsesFrom high (byteRuns byte idle ++ sent) =
      pulsesFrom high (runs false (line byte)) ++
        pulsesFrom (widthOf (trailing byte + idle)) sent := by
  have onward : ∀ (some_runs : List (ℕ × ℕ)) (other start : ℕ), some_runs ≠ [] →
      pulsesFrom other (addLast idle some_runs ++ sent) =
        pulsesFrom other some_runs ++ pulsesFrom (widthOf (endHigh start some_runs + idle)) sent := by
    intro some_runs
    induction some_runs with
    | nil => exact fun _ _ none => absurd rfl none
    | cons run rest inductionHypothesis =>
      intro other start _
      cases rest with
      | nil => simp only [addLast, pulsesFrom, endHigh, List.cons_append, List.nil_append]
      | cons next rest =>
        rw [addLast, List.cons_append, pulsesFrom, pulsesFrom, endHigh, List.cons_append,
          inductionHypothesis (widthOf run.2) run.2 (List.cons_ne_nil _ _)]
  refine onward (runs false (line byte)) high 0 ?_
  obtain ⟨first, rest, split, -⟩ := runs_line byte
  rw [split]
  exact List.cons_ne_nil _ _

/-- The high bits that some bytes end with, behind other ones. -/
def lastTrailing : ℕ → List (ℕ × ℕ) → ℕ
  | high, [] => high
  | _, byte :: rest => lastTrailing (trailing byte.1) rest

section Pending

variable {dsm : DsmState} {bits : List Bool} {high : ℕ}

variable {sent : List (ℕ × ℕ)}

theorem Pending.runs (state : Pending bits high dsm) (idle : ℕ) (proper : ∀ run ∈ sent, Proper run)
    (short : idle ≤ 10) (ends : idle = 0 ∨ bits.length % 10 = 0)
    (inside : bits.length + (sent.flatMap (bitsOf false)).length ≤ 16 * 10)
    (room : bits.length % 10 + (sent.flatMap (bitsOf false)).length ≤ 10) :
    Pending (bits ++ sent.flatMap (bitsOf false)) (endHigh high sent)
        (Framing.run processPulse dsm (pulsesFrom (widthOf (high + idle)) sent)).1 ∧
      decodeCalls (Framing.run processPulse dsm (pulsesFrom (widthOf (high + idle)) sent)).2 =
        [] := by
  induction sent generalizing dsm bits high idle with
  | nil =>
    rw [List.flatMap_nil, List.append_nil]
    exact ⟨state, rfl⟩
  | cons run rest inductionHypothesis =>
    have runProper : Proper run := proper run List.mem_cons_self
    have some_low := runProper.1
    rw [List.flatMap_cons, List.length_append, length_bitsOf] at inside room
    obtain ⟨next, quiet⟩ := state.pulse runProper (by omega) short ends (by omega)
    have length : (bits ++ bitsOf false run).length = bits.length + run.1 + run.2 := by
      rw [List.length_append, length_bitsOf, Nat.add_assoc]
    obtain ⟨final, later⟩ := inductionHypothesis next 0
      (fun other member => proper other (List.mem_cons_of_mem _ member)) (by omega) (.inl rfl)
      (by omega) (by omega)
    rw [pulsesFrom, Framing.run_cons, List.flatMap_cons, ← List.append_assoc, decodeCalls_append,
      quiet]
    exact ⟨final, later⟩

theorem Pending.byte (state : Pending bits high dsm) (byte : ℕ) {idle cell : ℕ} (short : idle ≤ 10)
    (cells : bits.length = 10 * cell) (inside : cell < 16) :
    Pending (bits ++ line byte) (trailing byte) (Framing.run processPulse dsm
        (pulsesFrom (widthOf (high + idle)) (Cells.runs false (line byte)))).1 ∧
      decodeCalls (Framing.run processPulse dsm
        (pulsesFrom (widthOf (high + idle)) (Cells.runs false (line byte)))).2 = [] := by
  obtain ⟨first, rest, split, firstProper, restProper, -⟩ := runs_line byte
  have whole : (Cells.runs false (line byte)).flatMap (bitsOf false) = line byte :=
    flatMap_runs false (line byte)
  have proper : ∀ run ∈ Cells.runs false (line byte), Proper run := by
    rw [split]
    exact List.forall_mem_cons.mpr ⟨firstProper, restProper⟩
  have result := state.runs idle proper short (.inr (by omega))
    (by rw [whole, length_line]; omega) (by rw [whole, length_line]; omega)
  have trail : endHigh high (Cells.runs false (line byte)) = trailing byte := by
    rw [trailing, split]
    rfl
  rwa [whole, trail] at result

/-- The bytes of a frame behind the first ones. -/
theorem Pending.bytes (state : Pending bits high dsm) {idle cell : ℕ} (short : idle ≤ 10)
    (shortIdles : ∀ byte ∈ sent, byte.2 ≤ 10) (cells : bits.length = 10 * cell)
    (inside : cell + sent.length ≤ 16) :
    Pending (bits ++ (sent.map fun byte => line byte.1).flatten) (lastTrailing high sent)
        (Framing.run processPulse dsm
          (pulsesFrom (widthOf (high + idle)) (frameRuns sent))).1 ∧
      decodeCalls (Framing.run processPulse dsm
        (pulsesFrom (widthOf (high + idle)) (frameRuns sent))).2 = [] := by
  induction sent generalizing dsm bits high idle cell with
  | nil =>
    rw [List.map_nil, List.flatten_nil, List.append_nil]
    exact ⟨state, rfl⟩
  | cons byte rest inductionHypothesis =>
    rw [List.length_cons] at inside
    obtain ⟨next, quiet⟩ := state.byte byte.1 short cells (by omega)
    have length : (bits ++ line byte.1).length = 10 * (cell + 1) := by
      rw [List.length_append, length_line, cells]
      omega
    obtain ⟨final, later⟩ := inductionHypothesis next (shortIdles byte List.mem_cons_self)
      (fun other member => shortIdles other (List.mem_cons_of_mem _ member)) length (by omega)
    rw [frameRuns, List.flatMap_cons, pulsesFrom_byteRuns, Framing.run_append, List.map_cons,
      List.flatten_cons, ← List.append_assoc, decodeCalls_append, quiet]
    exact ⟨final, later⟩

end Pending

/-! ### The gap behind a frame -/

section Gap

variable {dsm : DsmState} {bits : List Bool} {high : ℕ}

theorem decodeCalls_touched (touched : List ℕ) : decodeCalls (touched.map .access) = [] := by
  rw [decodeCalls, List.filterMap_map]
  exact List.filterMap_eq_nil_iff.mpr fun _ _ => rfl

theorem atGap_notFull (open_frame : dsm.bitOfs ≠ 16 * 10) (low : ℕ) :
    atGap dsm low = (pullLow reset low, []) := by
  rw [atGap, if_neg open_frame]

theorem atGap_good {dsm : DsmState} {frame : List ℕ} (full : dsm.bitOfs = 16 * 10)
    (read : (checkCells cellByte dsm.bytes 0 16).1 = some frame) (low : ℕ) :
    atGap dsm low = (pullLow reset low,
      (checkCells cellByte dsm.bytes 0 16).2.map .access ++ [.decode frame]) := by
  rw [atGap, if_pos full]
  dsimp only
  rw [read]

theorem cellByte_line : ∀ byte < 256, cellByte (value (line byte)) = some byte := by
  decide +kernel

theorem decodeCalls_atGap {bytes : List ℕ} (state : Gathered (bytes.map line).flatten dsm)
    (whole : bytes.length = 16) (small : ∀ byte ∈ bytes, byte < 256) (low : ℕ) :
    decodeCalls (atGap dsm low).2 = [bytes] := by
  have each : ∀ row ∈ bytes.map line, row.length = 10 := by
    intro row member
    obtain ⟨other, -, rfl⟩ := List.mem_map.mp member
    exact length_line other
  have full : dsm.bitOfs = 16 * 10 := by
    rw [state.bitOfs, List.length_flatten, List.map_map]
    simp [Function.comp_def, length_line, whole]
  have good : ∀ (position : ℕ) (byte : ℕ), bytes[position]? = some byte →
      cellByte (dsm.bytes.getD (0 + position) 0) = some byte := by
    intro position byte found
    obtain ⟨inside, same⟩ := List.getElem?_eq_some_iff.mp found
    have row : (bytes.map line).getD position [] = line byte := by
      rw [List.getD_eq_getElem _ _ (by rwa [List.length_map]), List.getElem_map, same]
    rw [Nat.zero_add, state.holds.cell each (by rwa [List.length_map]), row]
    exact cellByte_line byte (small byte (same ▸ List.getElem_mem inside))
  have read := checkCells_eq_some cellByte dsm.bytes good
  rw [whole] at read
  rw [atGap_good full read, decodeCalls_append, decodeCalls_touched]
  rfl

theorem Pending.length (state : Pending bits high dsm) :
    ∃ offset, 0 < offset ∧ offset + high ≤ 10 ∧ dsm.bitOfs % 10 = offset ∧
      dsm.bitOfs + high = bits.length ∧ 0 < high := by
  obtain ⟨gathered, rfl, gatheredState, fits, started, some_high⟩ := state
  refine ⟨gathered.length % 10, started, fits, by rw [gatheredState.bitOfs], ?_, some_high⟩
  rw [gatheredState.bitOfs, List.length_append, List.length_replicate]

theorem Pending.last_open (state : Pending bits high dsm) {cell : ℕ}
    (cells : bits.length = 10 * cell) (few : cell < 16) {pulse : Pulse} :
    decodeCalls (processPulse dsm pulse).2 = [] := by
  obtain ⟨offset, started, fits, isOffset, length, some_high⟩ := state.length
  by_cases none : bitsIn pulse.widthS0 = 0 ∨ bitsIn pulse.widthS1 = 0
  · rw [processPulse_none none]
    rfl
  have bound := (highBits_le (dsm.bitOfs % 10) (bitsIn pulse.widthS0)).2
  rw [processPulse_some rfl rfl (by omega) (by omega) (by omega)]
  split
  case isTrue =>
    rw [atGap_notFull]
    · rfl
    · change (dsm.bitOfs + highBits (dsm.bitOfs % 10) (bitsIn pulse.widthS0)) % 2 ^ 16 ≠ 16 * 10
      omega
  case isFalse => rfl

theorem Pending.last_full {bytes : List ℕ} (state : Pending (bytes.map line).flatten high dsm)
    (whole : bytes.length = 16) (small : ∀ byte ∈ bytes, byte < 256) {pulse : Pulse}
    (some_low : 0 < bitsIn pulse.widthS1) :
    decodeCalls (processPulse dsm pulse).2 =
      if high + 10 < bitsIn pulse.widthS0 then [bytes] else [] := by
  have length : (bytes.map line).flatten.length = 16 * 10 := by
    simp [Function.comp_def, length_line, whole]
  obtain ⟨offset, started, fits, isOffset, total, some_high⟩ := state.length
  obtain ⟨gathered, bits, gatheredState, room, -, -⟩ := state
  have ofs : dsm.bitOfs = gathered.length := gatheredState.bitOfs
  by_cases none : bitsIn pulse.widthS0 = 0
  · rw [processPulse_none (.inl none), if_neg (by omega)]
    rfl
  rw [processPulse_some rfl rfl (by omega) some_low (by omega)]
  by_cases long : high + 10 < bitsIn pulse.widthS0
  · have nbits : highBits (dsm.bitOfs % 10) (bitsIn pulse.widthS0) = high := by
      unfold highBits
      split <;> omega
    have full := gatheredState.pullHigh high (by omega) room
    rw [← bits] at full
    rw [nbits, if_pos (by omega), if_pos long]
    exact decodeCalls_atGap full whole small _
  · have few : ¬bitsIn pulse.widthS0 - highBits (dsm.bitOfs % 10) (bitsIn pulse.widthS0) > 10 := by
      unfold highBits
      split <;> omega
    rw [if_neg few, if_neg long]
    rfl

end Gap

/-! ### The gap before a frame -/

/-- A state takes a high time for a gap: more than ten high bits are counted behind its cell, and if
its cells are full, they are good. -/
def TakesGap (dsm : DsmState) (width : ℕ) : Prop :=
  dsm.bitOfs / 10 % 2 ^ 8 ≤ 15 ∧
    bitsIn width - highBits (dsm.bitOfs % 10) (bitsIn width) > 10 ∧
    ((pullHigh dsm (highBits (dsm.bitOfs % 10) (bitsIn width))).bitOfs = 16 * 10 →
      (checkCells cellByte (pullHigh dsm (highBits (dsm.bitOfs % 10) (bitsIn width))).bytes 0
        16).1 ≠ none)

theorem takesGap_reset_iff (width : ℕ) : TakesGap reset width ↔ 20 < bitsIn width := by
  have eq : 10 < bitsIn width → highBits 0 (bitsIn width) = 10 := by
    unfold highBits
    split <;> omega
  constructor
  · rintro ⟨-, long, -⟩
    change bitsIn width - highBits 0 (bitsIn width) > 10 at long
    omega
  · intro many
    refine ⟨by decide, ?_, fun full => ?_⟩
    · change bitsIn width - highBits 0 (bitsIn width) > 10
      omega
    · change (0 + highBits 0 (bitsIn width)) % 2 ^ 16 = 16 * 10 at full
      omega

theorem processPulse_gap {dsm : DsmState} (pulse : Pulse) {low : ℕ}
    (takes : TakesGap dsm pulse.widthS0) (isLow : bitsIn pulse.widthS1 = low) (some_low : 0 < low) :
    (processPulse dsm pulse).1 = pullLow reset low := by
  obtain ⟨inside, long, good⟩ := takes
  rw [processPulse_some rfl isLow (by omega) some_low inside, if_pos long]
  by_cases full :
      (pullHigh dsm (highBits (dsm.bitOfs % 10) (bitsIn pulse.widthS0))).bitOfs = 16 * 10
  · obtain ⟨frame, read⟩ := Option.ne_none_iff_exists'.mp (good full)
    rw [atGap_good full read]
  · rw [atGap_notFull full]

theorem pending_first {low high : ℕ} (some_low : 0 < low) (some_high : 0 < high)
    (fits : low + high ≤ 10) : Pending (bitsOf false (low, high)) high (pullLow reset low) := by
  have state := gathered_reset.pullLow low (by decide) (by rw [List.length_nil]; omega)
  refine ⟨[] ++ List.replicate low false, rfl, state, ?_, ?_, some_high⟩
  · rw [List.nil_append, List.length_replicate]
    omega
  · rw [List.nil_append, List.length_replicate]
    omega

variable {first : ℕ × ℕ} {before behind low : ℕ}

/-- The first byte of a frame, once its first low bits have been gathered. -/
theorem pending_byte {byte : ℕ} {rest : List (ℕ × ℕ)}
    (split : runs false (line byte) = first :: rest) (firstProper : Proper first)
    (restProper : ∀ run ∈ rest, Proper run)
    (bits : line byte = bitsOf false first ++ rest.flatMap (bitsOf false)) :
    Pending (line byte) (trailing byte)
        (Framing.run processPulse (pullLow reset first.1) (pulsesFrom (widthOf first.2) rest)).1 ∧
      decodeCalls (Framing.run processPulse (pullLow reset first.1)
        (pulsesFrom (widthOf first.2) rest)).2 = [] := by
  have total : first.1 + first.2 + (rest.flatMap (bitsOf false)).length = 10 := by
    rw [← length_bitsOf false, ← List.length_append, ← bits, length_line]
  have result := (pending_first firstProper.1 firstProper.2 (by omega)).runs 0 restProper (by omega)
    (.inl rfl) (by rw [length_bitsOf]; omega) ?_
  · have trail : endHigh first.2 rest = trailing byte := by
      rw [trailing, split]
      rfl
    rwa [← bits, trail] at result
  · rw [length_bitsOf]
    cases rest with
    | nil =>
      omega
    | cons next rest =>
      omega

/-! ### A frame between two gaps -/

theorem lastTrailing_eq (byte : ℕ) (sent : List (ℕ × ℕ)) :
    lastTrailing (trailing byte) sent = trailing ((sent.map Prod.fst).getLastD byte) := by
  induction sent generalizing byte with
  | nil => rfl
  | cons next rest inductionHypothesis =>
    rw [lastTrailing, inductionHypothesis, List.map_cons, List.getLastD_cons]

/-- The pulses of a frame, the first byte taken apart. -/
theorem framePulses_cons {byte : ℕ} {rest : List (ℕ × ℕ)}
    (split : runs false (line byte) = first :: rest) (before idle : ℕ) (others idles : List ℕ)
    (behind low : ℕ) :
    framePulses before (byte :: others) (idle :: idles) behind low =
      ⟨before, widthOf first.1⟩ :: (pulsesFrom (widthOf first.2) rest ++
        (pulsesFrom (widthOf (trailing byte + idle)) (frameRuns (others.zip (idles ++ [0]))) ++
          [⟨behind, widthOf low⟩])) := by
  rw [framePulses, List.cons_append, List.zip_cons_cons, frameRuns, List.flatMap_cons,
    pulsesFrom_byteRuns, split, pulsesFrom, List.append_assoc]
  rfl

/-- The idle times of a frame: at most ten bits between two bytes. -/
structure Idles (bytes idles : List ℕ) : Prop where
  whole : bytes.length = 16
  small : ∀ byte ∈ bytes, byte < 256
  count : idles.length = 15
  short : ∀ idle ∈ idles, idle ≤ 10

/-- The bytes behind the first one, with their idle times. -/
theorem Idles.rest {byte idle : ℕ} {others idles : List ℕ}
    (sent : Idles (byte :: others) (idle :: idles)) :
    idle ≤ 10 ∧ (others.zip (idles ++ [0])).length = 15 ∧
      (∀ item ∈ others.zip (idles ++ [0]), item.2 ≤ 10) ∧
      (others.zip (idles ++ [0])).map Prod.fst = others := by
  obtain ⟨whole, -, count, short⟩ := sent
  rw [List.length_cons] at whole count
  have length : others.length ≤ (idles ++ [0]).length := by
    rw [List.length_append, List.length_singleton]
    omega
  refine ⟨short idle List.mem_cons_self, ?_, ?_, List.map_fst_zip length⟩
  · rw [List.length_zip]
    omega
  · intro item member
    rcases List.mem_append.mp (List.of_mem_zip member).2 with among | last
    · exact short _ (List.mem_cons_of_mem _ among)
    · rw [List.mem_singleton.mp last]
      omega

/-- What is decoded behind the first pulse of a frame, when that has been taken for a gap. -/
theorem decodeCalls_behind_gap {dsm : DsmState} {bytes idles : List ℕ} (takes : TakesGap dsm before)
    (sent : Idles bytes idles) (some_low : 0 < low) (few_low : low ≤ 10) {first : Pulse}
    {pulses : List Pulse} (split : framePulses before bytes idles behind low = first :: pulses) :
    decodeCalls (Framing.run processPulse (processPulse dsm first).1 pulses).2 =
      if trailing (bytes.getLastD 0) + 10 < bitsIn behind then [bytes] else [] := by
  obtain ⟨byte, others, rfl⟩ :=
    List.exists_cons_of_length_pos (show 0 < bytes.length by rw [sent.whole]; omega)
  obtain ⟨idle, idles, rfl⟩ :=
    List.exists_cons_of_length_pos (show 0 < idles.length by rw [sent.count]; omega)
  obtain ⟨shortIdle, zipCount, shortIdles, zipBytes⟩ := sent.rest
  obtain ⟨run, rest, runsSplit, runProper, restProper, bits⟩ := runs_line byte
  have fits : run.1 ≤ 10 := by
    have total := congrArg List.length bits
    rw [length_line, List.length_append, length_bitsOf] at total
    omega
  rw [framePulses_cons runsSplit] at split
  obtain ⟨rfl, rfl⟩ := List.cons.inj split
  have isLow : bitsIn (⟨before, widthOf run.1⟩ : Pulse).widthS1 = run.1 :=
    bitsIn_widthOf run.1 (by omega)
  obtain ⟨state, quiet⟩ := pending_byte runsSplit runProper restProper bits
  obtain ⟨final, silent⟩ := state.bytes shortIdle shortIdles (length_line byte)
    (show 1 + _ ≤ 16 by omega)
  have lines : line byte ++ ((others.zip (idles ++ [0])).map fun item => line item.1).flatten =
      ((byte :: others).map line).flatten := by
    rw [← Function.comp_def, ← List.map_map, zipBytes]
    rfl
  have lastLow : 0 < bitsIn (⟨behind, widthOf low⟩ : Pulse).widthS1 := by
    rw [bitsIn_widthOf low (by omega)]
    exact some_low
  rw [lines, lastTrailing_eq, zipBytes] at final
  rw [processPulse_gap ⟨before, widthOf run.1⟩ takes isLow runProper.1, Framing.run_append,
    Framing.run_append, Framing.run_singleton, decodeCalls_append, decodeCalls_append, quiet,
    silent, List.nil_append, List.nil_append, List.getLastD_cons]
  exact final.last_full sent.whole sent.small lastLow

/-! ### A gap that is not seen -/

/-- The decoder has gathered nothing, or a high bit in the place of the first start bit. -/
def Spoilt (dsm : DsmState) : Prop :=
  dsm.bytes.length = 16 ∧ (dsm.bitOfs = 0 ∨ (dsm.bytes.getD 0 0).testBit 0 = true)

theorem spoilt_reset : Spoilt reset := ⟨List.length_replicate, .inl rfl⟩

theorem cellByte_odd {v : ℕ} (odd : v.testBit 0 = true) : cellByte v = none := by
  rw [Nat.testBit_zero, decide_eq_true_eq] at odd
  rw [cellByte, if_pos (by rw [Nat.and_one_is_mod, odd]; decide)]

section Spoilt

variable {dsm : DsmState} {pulse : Pulse}

theorem Spoilt.pullHigh (spoilt : Spoilt dsm) {nbits : ℕ} (some_bits : 0 < nbits) :
    (pullHigh dsm nbits).bytes.length = 16 ∧
      ((pullHigh dsm nbits).bytes.getD 0 0).testBit 0 = true := by
  obtain ⟨full, state⟩ := spoilt
  unfold DsmPulse.pullHigh
  refine ⟨by rw [List.length_set, full], ?_⟩
  rcases state with none | odd
  · have here : dsm.bitOfs / 10 % 2 ^ 8 = 0 := by omega
    have offset : dsm.bitOfs % 10 = 0 := by omega
    rw [here, offset, List.getD_eq_getElem _ _ (by rw [List.length_set]; omega),
      List.getElem_set_self, Nat.testBit_or, Nat.shiftLeft_zero, Nat.one_shiftLeft,
      Nat.testBit_two_pow_sub_one, decide_eq_true some_bits, Bool.or_true]
  · by_cases here : dsm.bitOfs / 10 % 2 ^ 8 = 0
    · rw [here, List.getD_eq_getElem _ _ (by rw [List.length_set]; omega), List.getElem_set_self,
        Nat.testBit_or, odd, Bool.true_or]
    · rw [List.getD_eq_getElem?_getD, List.getElem?_set_ne here, ← List.getD_eq_getElem?_getD, odd]

theorem spoilt_pullLow (full : dsm.bytes.length = 16)
    (odd : (dsm.bytes.getD 0 0).testBit 0 = true) (low : ℕ) : Spoilt (pullLow dsm low) := by
  unfold pullLow
  split
  case isTrue => exact spoilt_reset
  case isFalse => exact ⟨full, .inr odd⟩

theorem Spoilt.step (spoilt : Spoilt dsm) (pulse : Pulse) :
    decodeCalls (processPulse dsm pulse).2 = [] ∧
      (Spoilt (processPulse dsm pulse).1 ∨
        bitsIn pulse.widthS0 - highBits (dsm.bitOfs % 10) (bitsIn pulse.widthS0) > 10 ∧
          (processPulse dsm pulse).1 = pullLow reset (bitsIn pulse.widthS1)) := by
  by_cases none : bitsIn pulse.widthS0 = 0 ∨ bitsIn pulse.widthS1 = 0
  · rw [processPulse_none none]
    exact ⟨rfl, .inl spoilt_reset⟩
  by_cases past : dsm.bitOfs / 10 % 2 ^ 8 > 15
  · rw [processPulse_over past]
    exact ⟨rfl, .inl spoilt_reset⟩
  rw [processPulse_some rfl rfl (by omega) (by omega) (by omega)]
  have some_bits : 0 < highBits (dsm.bitOfs % 10) (bitsIn pulse.widthS0) := by
    unfold highBits
    split <;> omega
  obtain ⟨full, odd⟩ := spoilt.pullHigh some_bits
  by_cases gap : bitsIn pulse.widthS0 - highBits (dsm.bitOfs % 10) (bitsIn pulse.widthS0) > 10
  · rw [if_pos gap]
    by_cases whole : (DsmPulse.pullHigh dsm
        (highBits (dsm.bitOfs % 10) (bitsIn pulse.widthS0))).bitOfs = 16 * 10
    · have bad := checkCells_eq_none cellByte _ 0 15 (cellByte_odd odd)
      rw [atGap, if_pos whole]
      dsimp only
      rw [bad]
      exact ⟨decodeCalls_touched _, .inl spoilt_reset⟩
    · rw [atGap_notFull whole]
      exact ⟨rfl, .inr ⟨gap, rfl⟩⟩
  · rw [if_neg gap]
    exact ⟨rfl, .inl (spoilt_pullLow full odd _)⟩

variable {sent : List (ℕ × ℕ)}

theorem Spoilt.runs (spoilt : Spoilt dsm) {high : ℕ} (short : high ≤ 10)
    (shortRuns : ∀ run ∈ sent, run.2 ≤ 10) :
    Spoilt (Framing.run processPulse dsm (pulsesFrom (widthOf high) sent)).1 ∧
      decodeCalls (Framing.run processPulse dsm (pulsesFrom (widthOf high) sent)).2 = [] := by
  induction sent generalizing dsm high with
  | nil => exact ⟨spoilt, rfl⟩
  | cons run rest inductionHypothesis =>
    obtain ⟨quiet, next⟩ := spoilt.step ⟨widthOf high, widthOf run.1⟩
    have still : Spoilt (processPulse dsm ⟨widthOf high, widthOf run.1⟩).1 := by
      rcases next with still | ⟨gap, -⟩
      · exact still
      · change bitsIn (widthOf high) - _ > 10 at gap
        rw [bitsIn_widthOf high (by omega)] at gap
        omega
    obtain ⟨final, silent⟩ := inductionHypothesis still (shortRuns run List.mem_cons_self)
      fun other member => shortRuns other (List.mem_cons_of_mem _ member)
    rw [pulsesFrom, Framing.run_cons, decodeCalls_append, quiet, silent]
    exact ⟨final, rfl⟩

theorem runs_line_short {byte : ℕ} {first : ℕ × ℕ} {rest : List (ℕ × ℕ)}
    (bits : line byte = bitsOf false first ++ rest.flatMap (bitsOf false)) :
    first.1 ≤ 10 ∧ first.2 ≤ 10 ∧ ∀ run ∈ rest, run.2 ≤ 10 := by
  have total := congrArg List.length bits
  rw [length_line, List.length_append, length_bitsOf] at total
  refine ⟨by omega, by omega, fun run member => ?_⟩
  have part : (bitsOf false run).length ≤ (rest.flatMap (bitsOf false)).length :=
    (List.sublist_flatten_of_mem (List.mem_map_of_mem member)).length_le
  rw [length_bitsOf] at part
  omega

/-- The rest of a frame with a spoilt decoder: it stays spoilt, or it sees a gap between two bytes
and gathers those behind it. -/
theorem Spoilt.bytes (spoilt : Spoilt dsm) (few : sent.length ≤ 15)
    (short : ∀ byte ∈ sent, byte.2 ≤ 10) (high : ℕ) :
    decodeCalls (Framing.run processPulse dsm (pulsesFrom high (frameRuns sent))).2 = [] ∧
      (Spoilt (Framing.run processPulse dsm (pulsesFrom high (frameRuns sent))).1 ∨
        ∃ bits last cell, bits.length = 10 * cell ∧ cell ≤ sent.length ∧
          Pending bits last
            (Framing.run processPulse dsm (pulsesFrom high (frameRuns sent))).1) := by
  induction sent generalizing dsm high with
  | nil => exact ⟨rfl, .inl spoilt⟩
  | cons byte rest inductionHypothesis =>
    obtain ⟨first, others, split, firstProper, othersProper, bits⟩ := runs_line byte.1
    obtain ⟨shortLow, shortHigh, shortRuns⟩ := runs_line_short bits
    have shortRest : ∀ other ∈ rest, other.2 ≤ 10 :=
      fun other member => short other (List.mem_cons_of_mem _ member)
    rw [List.length_cons] at few
    obtain ⟨quiet, next⟩ := spoilt.step ⟨high, widthOf first.1⟩
    rw [frameRuns, List.flatMap_cons, pulsesFrom_byteRuns, split, pulsesFrom, List.cons_append,
      Framing.run_cons, Framing.run_append, decodeCalls_append, decodeCalls_append, quiet,
      List.nil_append]
    rcases next with still | ⟨-, seen⟩
    · obtain ⟨middle, silent⟩ := still.runs shortHigh shortRuns
      obtain ⟨none, final⟩ := inductionHypothesis middle (by omega) shortRest
        (widthOf (trailing byte.1 + byte.2))
      rw [silent]
      refine ⟨none, final.imp_right ?_⟩
      rintro ⟨gathered, last, cell, length, within, pending⟩
      exact ⟨gathered, last, cell, length, by rw [List.length_cons]; omega, pending⟩
    · have isLow : bitsIn (⟨high, widthOf first.1⟩ : Pulse).widthS1 = first.1 :=
        bitsIn_widthOf first.1 (by omega)
      rw [isLow] at seen
      obtain ⟨state, silent⟩ := pending_byte split firstProper othersProper bits
      obtain ⟨final, none⟩ := state.bytes (short byte List.mem_cons_self) shortRest
        (length_line byte.1) (show 1 + _ ≤ 16 by omega)
      rw [seen, silent]
      refine ⟨none, .inr ⟨_, _, 1 + rest.length, ?_, by rw [List.length_cons]; omega, final⟩⟩
      simp [Function.comp_def, length_line]
      omega

end Spoilt

theorem decodeCalls_no_gap {bytes idles : List ℕ} (sent : Idles bytes idles)
    (unseen : ¬20 < bitsIn before) :
    decodeCalls (Framing.run processPulse reset (framePulses before bytes idles behind low)).2 =
      [] := by
  obtain ⟨byte, others, rfl⟩ :=
    List.exists_cons_of_length_pos (show 0 < bytes.length by rw [sent.whole]; omega)
  obtain ⟨idle, idles, rfl⟩ :=
    List.exists_cons_of_length_pos (show 0 < idles.length by rw [sent.count]; omega)
  obtain ⟨shortIdle, zipCount, shortIdles, -⟩ := sent.rest
  obtain ⟨run, rest, runsSplit, runProper, restProper, bits⟩ := runs_line byte
  obtain ⟨shortLow, shortHigh, shortRuns⟩ := runs_line_short bits
  obtain ⟨quiet, next⟩ := spoilt_reset.step ⟨before, widthOf run.1⟩
  have spoilt : Spoilt (processPulse reset ⟨before, widthOf run.1⟩).1 := by
    rcases next with still | ⟨gap, -⟩
    · exact still
    · refine absurd ((takesGap_reset_iff before).mp ⟨by decide, gap, fun full => ?_⟩) unseen
      change (0 + highBits 0 (bitsIn before)) % 2 ^ 16 = 16 * 10 at full
      have few := (highBits_le 0 (bitsIn before)).2
      omega
  obtain ⟨still, silent⟩ := spoilt.runs shortHigh shortRuns
  obtain ⟨none, final⟩ := still.bytes (by omega) shortIdles (widthOf (trailing byte + idle))
  rw [framePulses_cons runsSplit, Framing.run_cons, Framing.run_append, Framing.run_append,
    Framing.run_singleton, decodeCalls_append, decodeCalls_append, decodeCalls_append, quiet,
    silent, none, List.nil_append, List.nil_append, List.nil_append]
  rcases final with spoilt | ⟨gathered, last, cell, length, few, pending⟩
  · exact (spoilt.step _).1
  · exact pending.last_open length (by omega)

/-- From the reset state a frame is decoded, once and with its bytes, exactly if both gaps are counted
as such. -/
theorem decodeCalls_iff {bytes idles : List ℕ} (sent : Idles bytes idles) (some_low : 0 < low)
    (few_low : low ≤ 10) :
    decodeCalls (Framing.run processPulse reset (framePulses before bytes idles behind low)).2 =
        [bytes] ↔
      20 < bitsIn before ∧ trailing (bytes.getLastD 0) + 10 < bitsIn behind := by
  by_cases seen : 20 < bitsIn before
  case neg =>
    rw [decodeCalls_no_gap sent seen]
    exact iff_of_false (List.cons_ne_nil _ _).symm fun both => seen both.1
  cases split : framePulses before bytes idles behind low with
  | nil => exact absurd split (List.append_ne_nil_of_right_ne_nil _ (List.cons_ne_nil _ _))
  | cons first pulses =>
    have behindGap := decodeCalls_behind_gap ((takesGap_reset_iff before).mpr seen) sent some_low
      few_low split
    rw [Framing.run_cons, decodeCalls_append, (spoilt_reset.step first).1, List.nil_append,
      behindGap]
    by_cases long : trailing (bytes.getLastD 0) + 10 < bitsIn behind
    · rw [if_pos long]
      exact iff_of_true rfl ⟨seen, long⟩
    · rw [if_neg long]
      exact iff_of_false (List.cons_ne_nil _ _).symm fun both => long both.2

/-- The decoder stays inside its cells. A frame is decoded, once and with its bytes, exactly if both
gaps are counted as such, and behind a gap that has been seen, in whatever state, exactly if the
second gap is. -/
theorem processPulse_correct {bytes idles : List ℕ} (before behind : ℕ) {low : ℕ}
    (sent : Idles bytes idles) (some_low : 0 < low) (few_low : low ≤ 10) :
    (∀ pulses, AccessesInside pulses) ∧
      (decodeCalls (Framing.run processPulse reset (framePulses before bytes idles behind low)).2 =
          [bytes] ↔
        20 < bitsIn before ∧ trailing (bytes.getLastD 0) + 10 < bitsIn behind) ∧
      ∀ dsm first pulses, TakesGap dsm before →
        framePulses before bytes idles behind low = first :: pulses →
        (decodeCalls (Framing.run processPulse (processPulse dsm first).1 pulses).2 = [bytes] ↔
          trailing (bytes.getLastD 0) + 10 < bitsIn behind) := by
  refine ⟨accessesInside, decodeCalls_iff sent some_low few_low, ?_⟩
  intro dsm first pulses takes split
  rw [decodeCalls_behind_gap takes sent some_low few_low split]
  by_cases long : trailing (bytes.getLastD 0) + 10 < bitsIn behind
  · rw [if_pos long]
    exact iff_of_true rfl long
  · rw [if_neg long]
    exact iff_of_false (List.cons_ne_nil _ _).symm long

/-- Bytes of a frame that are sent without idle time. -/
def someFrame : List ℕ := [0x12, 0x00, 0x05, 0x54, 0x0b, 0xff, 0x14, 0x0a, 0x01, 0xff, 0x1d, 0x56, 0x23,
  0x00, 0x2a, 0xaa]

theorem idles_someFrame : Idles someFrame (List.replicate 15 0) := by
  constructor <;> decide

theorem processPulse_correct_someFrame :
    AccessesInside [⟨11000, 9⟩] ∧
      (decodeCalls (Framing.run processPulse reset
          (framePulses 11000 someFrame (List.replicate 15 0) 11000 1)).2 = [someFrame] ↔
        20 < bitsIn 11000 ∧ trailing (someFrame.getLastD 0) + 10 < bitsIn 11000) :=
  have correct := processPulse_correct 11000 11000 idles_someFrame (by decide : 0 < 1) (by decide)
  ⟨correct.1 _, correct.2.1⟩

/-- Behind a gap of 37.3 milliseconds, or in front of one, a frame is not decoded: the product of the
width and the bit rate has gone past 32 bits, and 21 bit times are not reached any more. -/
theorem frame_lost_at_long_gap :
    decodeCalls (Framing.run processPulse reset
        (framePulses 11000 someFrame (List.replicate 15 0) 37300 1)).2 = [] ∧
      decodeCalls (Framing.run processPulse reset
        (framePulses 37300 someFrame (List.replicate 15 0) 11000 1)).2 = [] ∧
      21 * 1000000 < (37300 - 100) * 115200 := by
  refine ⟨?_, ?_, by decide⟩ <;> decide +kernel

end Urus.RcProtocol.DsmPulse
