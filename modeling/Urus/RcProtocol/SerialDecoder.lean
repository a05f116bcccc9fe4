/-
This file models what the decoders of serial receivers share: what a call returns, the accesses that
it makes to its arrays, and the checksum of SUMD and SRXL.
-/

import Mathlib.Tactic
import Urus.Lib.Framing

namespace Urus.RcProtocol

/-! ### Accesses -/

/-- An access of an array, by its index: the bytes of a frame, the channels that a decoder keeps, and
the values that a caller gets. -/
inductive Access
  | buffer (index : ℤ)
  | channel (index : ℕ)
  | value (index : ℕ)
  deriving DecidableEq

/-- What a call of a decoder returns, what it reports, and the accesses on the way. -/
structure Outcome (Report : Type) where
  ret : ℕ
  report : Option Report
  accesses : List Access
  deriving DecidableEq

/-- A call that reports nothing. -/
def Outcome.silent {Report : Type} (ret : ℕ) (accesses : List Access) : Outcome Report :=
  ⟨ret, none, accesses⟩

/-- An access is inside its array. The caller's array is only looked at if it has room for four
values. -/
def Access.Within (bufferSize channelSize maxChanCount : ℕ) : Access → Prop
  | .buffer index => 0 ≤ index ∧ index < bufferSize
  | .channel index => index < channelSize
  | .value index => 4 ≤ maxChanCount → index < maxChanCount

instance (bufferSize channelSize maxChanCount : ℕ) (access : Access) :
    Decidable (access.Within bufferSize channelSize maxChanCount) :=
  match access with
  | .buffer _ => inferInstanceAs (Decidable (_ ∧ _))
  | .channel _ => inferInstanceAs (Decidable (_ < _))
  | .value _ => inferInstanceAs (Decidable (_ → _))

theorem within_nil (bufferSize channelSize maxChanCount : ℕ) :
    ∀ access ∈ ([] : List Access), access.Within bufferSize channelSize maxChanCount :=
  fun _ member => nomatch member

/-! ### The checksum -/

/-- One round of the loop of `sumd_crc16` and `srxl_crc16`. -/
def crcBit (crc : UInt16) : UInt16 :=
  if crc &&& 0x8000 ≠ 0 then (crc <<< 1) ^^^ 0x1021 else crc <<< 1

/-- `sumd_crc16` and `srxl_crc16`. -/
def crc16 (crc : UInt16) (value : UInt8) : UInt16 :=
  crcBit^[8] (crc ^^^ (value.toUInt16 <<< 8))

end Urus.RcProtocol
