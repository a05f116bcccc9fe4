/-
This file models what the decoders of radio control signals share: the pulses that they see, what
they hand to `add_input`, and the loop in which they take the bytes out of a full frame.
-/

import Mathlib.Tactic

namespace Urus.RcProtocol

/-! ### Pulses and reports -/

/-- A pulse: how long the signal is in one state, and then in the other one, in microseconds. -/
structure Pulse where
  widthS0 : ℕ
  widthS1 : ℕ
  deriving DecidableEq

/-- How long a pulse really is. -/
def Pulse.width (pulse : Pulse) : ℕ := pulse.widthS0 + pulse.widthS1

/-- `MAX_RCIN_CHANNELS` and `MIN_RCIN_CHANNELS`. -/
def maxRcinChannels : ℕ := 16
def minRcinChannels : ℕ := 5

/-- A call of `add_input`. -/
structure AddInput where
  numValues : ℕ
  values : List ℕ
  inFailsafe : Bool
  deriving DecidableEq

/-- The variables of `AP_RCProtocol_Backend`. -/
structure Backend where
  rcInputCount : ℕ
  pwmValues : List ℕ
  numChannels : ℕ

/-- `add_input`. -/
def Backend.addInput (backend : Backend) (call : AddInput) : Backend :=
  let numValues := min call.numValues maxRcinChannels
  { backend with
    pwmValues := call.values.take numValues ++ backend.pwmValues.drop numValues
    numChannels := numValues
    rcInputCount :=
      if call.inFailsafe then backend.rcInputCount else (backend.rcInputCount + 1) % 2 ^ 32 }

/-- `read`. -/
def Backend.read (backend : Backend) (chan : ℕ) : ℕ := backend.pwmValues.getD chan 0

theorem read_addInput (backend : Backend) (call : AddInput) {chan : ℕ}
    (below : chan < call.numValues) (few : call.numValues ≤ maxRcinChannels)
    (given : call.numValues ≤ call.values.length) :
    (backend.addInput call).read chan = call.values.getD chan 0 := by
  unfold Backend.read Backend.addInput
  rw [Nat.min_eq_left few, List.getD_eq_getElem?_getD, List.getD_eq_getElem?_getD,
    List.getElem?_append_left (by rw [List.length_take]; omega), List.getElem?_take_of_lt below]

/-! ### The bytes of a full frame -/

/-- The loop over the cells of a full frame: the bytes, unless a cell is bad, and the indices of the
cells that have been looked at. -/
def checkCells (cellByte : ℕ → Option ℕ) (cells : List ℕ) : ℕ → ℕ → Option (List ℕ) × List ℕ
  | _, 0 => (some [], [])
  | index, remaining + 1 =>
    match cellByte (cells.getD index 0) with
    | none => (none, [index])
    | some byte =>
      let (bytes, touched) := checkCells cellByte cells (index + 1) remaining
      (bytes.map fun bytes => byte :: bytes, index :: touched)

theorem checkCells_touched (cellByte : ℕ → Option ℕ) (cells : List ℕ) (index remaining : ℕ) :
    ∀ touched ∈ (checkCells cellByte cells index remaining).2, touched < index + remaining := by
  induction remaining generalizing index with
  | zero => exact fun _ member => nomatch member
  | succ remaining inductionHypothesis =>
    intro touched member
    rw [checkCells] at member
    cases found : cellByte (cells.getD index 0) with
    | none =>
      rw [found] at member
      rw [List.mem_singleton.mp member]
      omega
    | some byte =>
      rw [found] at member
      rcases List.mem_cons.mp member with same | later
      · omega
      · have below := inductionHypothesis (index + 1) touched later
        omega

theorem checkCells_eq_some (cellByte : ℕ → Option ℕ) (cells : List ℕ) {bytes : List ℕ} {index : ℕ}
    (good : ∀ (position : ℕ) (byte : ℕ), bytes[position]? = some byte →
      cellByte (cells.getD (index + position) 0) = some byte) :
    (checkCells cellByte cells index bytes.length).1 = some bytes := by
  induction bytes generalizing index with
  | nil => rfl
  | cons byte bytes inductionHypothesis =>
    have now : cellByte (cells.getD index 0) = some byte := good 0 byte rfl
    have later := @inductionHypothesis (index + 1) (by
      intro position other found
      rw [Nat.add_assoc, Nat.add_comm 1 position]
      exact good (position + 1) other found)
    rw [List.length_cons, checkCells, now]
    dsimp only
    rw [later]
    rfl

/-- A bad cell leaves a frame without bytes. -/
theorem checkCells_eq_none (cellByte : ℕ → Option ℕ) (cells : List ℕ) (index remaining : ℕ)
    (bad : cellByte (cells.getD index 0) = none) :
    (checkCells cellByte cells index (remaining + 1)).1 = none := by
  rw [checkCells, bad]

end Urus.RcProtocol
