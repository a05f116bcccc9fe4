/-
This file models the two ends of an SBUS link. `AP_SBusOut::update` packs sixteen values of
eleven bits into the bytes of a frame, with a running index and bit offset. `sbus_decode`
picks the bits of each value out of up to three bytes, as a table tells it.

The conversions between pulse widths and values are done in floating point. The packing
starts from the values, and the decoder gets its conversion as a parameter.
-/

import Mathlib.Tactic

namespace Urus.Sbus

/-! ### Packing -/

/-- `SBUS_BSIZE`. -/
def frameSize : ℕ := 25

/-- `SBUS_CHANNELS` and `NUM_SERVO_CHANNELS`. -/
def channels : ℕ := 16

/-- The bytes from the start of the frame on, and the indices that have been written to. -/
structure Frame where
  bytes : ℕ → ℕ
  touched : List ℕ

/-- `buffer[index] |= value & 0xff`. -/
def Frame.orByte (frame : Frame) (index value : ℕ) : Frame where
  bytes := Function.update frame.bytes index (frame.bytes index ||| (value &&& 0xff))
  touched := index :: frame.touched

/-- The variables of the loop. -/
structure Packer where
  frame : Frame
  index : ℕ
  offset : ℕ

/-- `while (offset >= 8)`. -/
def wrapOffset (index offset : ℕ) : ℕ × ℕ :=
  if 8 ≤ offset then wrapOffset (index + 1) (offset - 8) else (index, offset)

/-- One round of the loop over the channels. -/
def Packer.pack (packer : Packer) (value : ℕ) : Packer :=
  let value := if value > 0x07ff then 0x07ff else value
  let (index, offset) := wrapOffset packer.index packer.offset
  let frame := packer.frame.orByte index (value <<< offset)
  let frame := frame.orByte (index + 1) (value >>> (8 - offset))
  let frame := frame.orByte (index + 2) (value >>> (16 - offset))
  ⟨frame, index, offset + 11⟩

/-- The frame before the loop. -/
def emptyFrame : Frame := ⟨Function.update (fun _ => 0) 0 0x0f, []⟩

/-- The loop over the first channels. -/
def packChannels (values : ℕ → ℕ) (count : ℕ) : Packer :=
  (List.range count).foldl (fun packer channel => packer.pack (values channel)) ⟨emptyFrame, 1, 0⟩

/-- The frame that `update` sends. -/
def packFrame (values : ℕ → ℕ) : Frame := (packChannels values channels).frame

/-! ### Decoding -/

/-- `struct sbus_bit_pick`. -/
structure BitPick where
  byte : ℕ
  rshift : ℕ
  mask : ℕ
  lshift : ℕ

/-- `sbus_decoder`. -/
def sbusDecoder : List (List BitPick) :=
  [[⟨0, 0, 0xff, 0⟩, ⟨1, 0, 0x07, 8⟩, ⟨0, 0, 0x00, 0⟩],
    [⟨1, 3, 0x1f, 0⟩, ⟨2, 0, 0x3f, 5⟩, ⟨0, 0, 0x00, 0⟩],
    [⟨2, 6, 0x03, 0⟩, ⟨3, 0, 0xff, 2⟩, ⟨4, 0, 0x01, 10⟩],
    [⟨4, 1, 0x7f, 0⟩, ⟨5, 0, 0x0f, 7⟩, ⟨0, 0, 0x00, 0⟩],
    [⟨5, 4, 0x0f, 0⟩, ⟨6, 0, 0x7f, 4⟩, ⟨0, 0, 0x00, 0⟩],
    [⟨6, 7, 0x01, 0⟩, ⟨7, 0, 0xff, 1⟩, ⟨8, 0, 0x03, 9⟩],
    [⟨8, 2, 0x3f, 0⟩, ⟨9, 0, 0x1f, 6⟩, ⟨0, 0, 0x00, 0⟩],
    [⟨9, 5, 0x07, 0⟩, ⟨10, 0, 0xff, 3⟩, ⟨0, 0, 0x00, 0⟩],
    [⟨11, 0, 0xff, 0⟩, ⟨12, 0, 0x07, 8⟩, ⟨0, 0, 0x00, 0⟩],
    [⟨12, 3, 0x1f, 0⟩, ⟨13, 0, 0x3f, 5⟩, ⟨0, 0, 0x00, 0⟩],
    [⟨13, 6, 0x03, 0⟩, ⟨14, 0, 0xff, 2⟩, ⟨15, 0, 0x01, 10⟩],
    [⟨15, 1, 0x7f, 0⟩, ⟨16, 0, 0x0f, 7⟩, ⟨0, 0, 0x00, 0⟩],
    [⟨16, 4, 0x0f, 0⟩, ⟨17, 0, 0x7f, 4⟩, ⟨0, 0, 0x00, 0⟩],
    [⟨17, 7, 0x01, 0⟩, ⟨18, 0, 0xff, 1⟩, ⟨19, 0, 0x03, 9⟩],
    [⟨19, 2, 0x3f, 0⟩, ⟨20, 0, 0x1f, 6⟩, ⟨0, 0, 0x00, 0⟩],
    [⟨20, 5, 0x07, 0⟩, ⟨21, 0, 0xff, 3⟩, ⟨0, 0, 0x00, 0⟩]]

/-- The bits that one pick takes from a frame. -/
def BitPick.piece (decode : BitPick) (frame : ℕ → ℕ) : ℕ :=
  (frame (1 + decode.byte) >>> decode.rshift &&& decode.mask) <<< decode.lshift

/-- The loop over the picks of a channel. -/
def pickBits (frame : ℕ → ℕ) (row : List BitPick) (value : ℕ) : ℕ :=
  row.foldl (fun value decode =>
    if decode.mask ≠ 0 then value ||| decode.piece frame else value) value

/-- The raw value of a channel. -/
def rawValue (frame : ℕ → ℕ) (channel : ℕ) : ℕ := pickBits frame (sbusDecoder.getD channel []) 0

/-- `SBUS_FLAGS_BYTE`, `SBUS_FAILSAFE_BIT` and `SBUS_FRAMELOST_BIT`. -/
def flagsByte : ℕ := 23
def failsafeBit : ℕ := 3
def framelostBit : ℕ := 2

/-- What `sbus_decode` hands out. -/
structure Decoded where
  values : List ℕ
  sbusFailsafe : Bool
  sbusFrameDrop : Bool
  deriving DecidableEq

/-- The flags of a frame, failsafe first. -/
def decodeFlags (flags : ℕ) : Bool × Bool :=
  if flags &&& 1 <<< failsafeBit ≠ 0 then (true, true)
  else if flags &&& 1 <<< framelostBit ≠ 0 then (false, true)
  else (false, false)

/-- `sbus_decode`. The `switch` on the end byte does nothing. -/
def sbusDecode (convert : ℕ → ℕ) (frame : ℕ → ℕ) (maxValues : ℕ) : Option Decoded :=
  if frame 0 ≠ 0x0f then none
  else
    let chancount := if maxValues > channels then channels else maxValues
    let values := (List.range chancount).map fun channel => convert (rawValue frame channel)
    let switches :=
      if maxValues > 17 ∧ chancount > 15 then
        [(frame flagsByte &&& 1 <<< 0) * 1000 + 998, (frame flagsByte &&& 1 <<< 1) * 1000 + 998]
      else []
    let (failsafe, frameDrop) := decodeFlags (frame flagsByte)
    some ⟨values ++ switches, failsafe, frameDrop⟩

end Urus.Sbus
