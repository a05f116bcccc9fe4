/-
This file models how the GPS library puts RTCM correction data together that arrives in
GPS_RTCM_DATA messages. A block of up to 720 bytes is sent in up to four fragments. The
fragments are copied into one buffer, and when the buffer is taken to have all of them it
is injected into the receivers and cleared.

The second half says what the sender does: how a block is cut into pieces and what a
message that carries a piece looks like.
-/

import Urus.Lib.Bytes

namespace Urus.Gps

open Image

/-! ### The receiver -/

/-- `MAVLINK_MSG_GPS_RTCM_DATA_FIELD_DATA_LEN`. -/
def fieldDataLen : Nat := 180

/-- `mavlink_gps_rtcm_data_t`. -/
structure Packet where
  flags : UInt8
  len : UInt8
  data : List UInt8
  full : data.length = fieldDataLen

/-- `struct rtcm_buffer`. -/
structure RtcmBuffer where
  fragmentsReceived : BitVec 4
  sequence : Nat
  fragmentCount : Nat
  totalLength : Nat
  buffer : Image

/-- A buffer that was just allocated or cleared. -/
def RtcmBuffer.zero : RtcmBuffer := ⟨0, 0, 0, 0, fun _ => 0⟩

/-- The bit that says that the packet is a fragment. -/
def Packet.isFragmented (packet : Packet) : Bool := packet.flags &&& 1 != 0

/-- The number of the fragment in its block. -/
def Packet.fragment (packet : Packet) : Nat := (packet.flags >>> 1 &&& 0x03).toNat

/-- The sequence number of the block. -/
def Packet.sequence (packet : Packet) : Nat := (packet.flags >>> 3 &&& 0x1F).toNat

/-- `1U << fragment` as a set of fragments. -/
def fragmentBit (fragment : Nat) : BitVec 4 := 1#4 <<< fragment

/-- The fragment does not go with the fragments in the buffer. -/
def RtcmBuffer.Conflicts (buffer : RtcmBuffer) (packet : Packet) : Prop :=
  buffer.fragmentsReceived ≠ 0 ∧
    (buffer.sequence ≠ packet.sequence ∨
      buffer.fragmentsReceived &&& fragmentBit packet.fragment ≠ 0)

instance (buffer : RtcmBuffer) (packet : Packet) : Decidable (buffer.Conflicts packet) :=
  inferInstanceAs (Decidable (_ ∧ _))

/-- The fragment is added and its data copied. -/
def RtcmBuffer.addFragment (buffer : RtcmBuffer) (packet : Packet) : RtcmBuffer :=
  { buffer with
    sequence := packet.sequence
    fragmentsReceived := buffer.fragmentsReceived ||| fragmentBit packet.fragment
    buffer := put buffer.buffer (fieldDataLen * packet.fragment)
      (packet.data.take packet.len.toNat) }

/-- A fragment that is not full tells the number of the fragments, and so do four full ones. -/
def RtcmBuffer.countFragments (buffer : RtcmBuffer) (packet : Packet) : RtcmBuffer :=
  if packet.len.toNat < fieldDataLen then
    { buffer with
      fragmentCount := packet.fragment + 1
      totalLength := fieldDataLen * packet.fragment + packet.len.toNat }
  else if buffer.fragmentsReceived = 0x0F then
    { buffer with
      fragmentCount := 4
      totalLength := fieldDataLen * 4 }
  else buffer

/-- The buffer is taken to have all fragments. -/
def RtcmBuffer.Complete (buffer : RtcmBuffer) : Prop :=
  buffer.fragmentCount ≠ 0 ∧ buffer.fragmentsReceived.toNat = 1 <<< buffer.fragmentCount - 1

instance (buffer : RtcmBuffer) : Decidable buffer.Complete := inferInstanceAs (Decidable (_ ∧ _))

/-- The handling of a fragment: the buffer afterwards and what is passed to `inject_data`. -/
def RtcmBuffer.reassemble (buffer : RtcmBuffer) (packet : Packet) :
    RtcmBuffer × Option (List UInt8) :=
  let buffer := if buffer.Conflicts packet then RtcmBuffer.zero else buffer
  let buffer := (buffer.addFragment packet).countFragments packet
  if buffer.Complete then (RtcmBuffer.zero, some (slice buffer.buffer 0 buffer.totalLength))
  else (buffer, none)

/-- `handle_gps_rtcm_data`. The buffer is allocated by the first fragment. -/
def handleGpsRtcmData (buffer : Option RtcmBuffer) (packet : Packet) :
    Option RtcmBuffer × Option (List UInt8) :=
  if packet.len.toNat > fieldDataLen then (buffer, none)
  else if ¬ packet.isFragmented then (buffer, some (packet.data.take packet.len.toNat))
  else
    let (buffer, injected) := (buffer.getD RtcmBuffer.zero).reassemble packet
    (some buffer, injected)

/-! ### The sender -/

/-- A block of correction data with its sequence number. -/
structure Block where
  sequence : Nat
  bytes : List UInt8
  fits : bytes.length ≤ 4 * fieldDataLen
  small : sequence < 32

/-- The number of pieces. The last one is not full, except when all four are. -/
def Block.count (block : Block) : Nat := min 4 (block.bytes.length / fieldDataLen + 1)

/-- One piece of the block. -/
def Block.piece (block : Block) (index : Nat) : List UInt8 :=
  (block.bytes.drop (fieldDataLen * index)).take fieldDataLen

/-- The packet carries the piece of the block. Its data behind the piece may be anything. -/
structure Carries (block : Block) (index : Nat) (packet : Packet) : Prop where
  inside : index < block.count
  fragmented : packet.isFragmented = true
  fragment : packet.fragment = index
  sequence : packet.sequence = block.sequence
  len : packet.len.toNat = (block.piece index).length
  data : packet.data.take packet.len.toNat = block.piece index

/-- The flags of a fragment: its bit, its number and its sequence number. -/
def fragmentFlags (sequence index : Nat) : UInt8 :=
  (1 : UInt8) ||| UInt8.ofNat index <<< 1 ||| UInt8.ofNat sequence <<< 3

/-- The packet that the sender makes of a piece. -/
def Block.packet (block : Block) (index : Nat) : Packet where
  flags := fragmentFlags block.sequence index
  len := UInt8.ofNat (block.piece index).length
  data := block.piece index ++ List.replicate (fieldDataLen - (block.piece index).length) 0
  full := by
    rw [Block.piece, List.length_append, List.length_replicate, List.length_take]
    omega

/-- The block with zero bytes up to the length of four full pieces behind it. -/
def Block.padded (block : Block) : List UInt8 :=
  block.bytes ++ List.replicate (4 * fieldDataLen - block.bytes.length) 0

/-! ### Pieces of a block -/

variable {block : Block} {index : Nat}

theorem Block.count_pos (block : Block) : 0 < block.count :=
  lt_min (by decide) (Nat.succ_pos _)

theorem Block.count_le (block : Block) : block.count ≤ 4 := Nat.min_le_left _ _

theorem Block.piece_length (block : Block) (index : Nat) :
    (block.piece index).length = min fieldDataLen (block.bytes.length - fieldDataLen * index) := by
  rw [Block.piece, List.length_take, List.length_drop]

theorem Block.length_eq (inside : index + 1 = block.count) :
    block.bytes.length = fieldDataLen * index + (block.piece index).length := by
  have fits := block.fits
  rw [Block.count] at inside
  rw [Block.piece_length]
  rw [fieldDataLen] at *
  omega

theorem Block.piece_getD {offset : Nat} (inside : offset < fieldDataLen) :
    (block.piece index).getD offset 0 = block.bytes.getD (fieldDataLen * index + offset) 0 := by
  rw [List.getD, List.getD, Block.piece, List.getElem?_take, if_pos inside, List.getElem?_drop]

/-- A piece that is not full is the last one of a block that does not fill four. -/
theorem Block.piece_short_iff (inside : index < block.count) :
    (block.piece index).length < fieldDataLen ↔
      index + 1 = block.count ∧ block.bytes.length < 4 * fieldDataLen := by
  have fits := block.fits
  rw [Block.count] at *
  rw [Block.piece_length]
  rw [fieldDataLen] at *
  omega

theorem flags_fragmented : ∀ sequence < 32, ∀ index < 4,
    fragmentFlags sequence index &&& 1 = 1 := by
  decide

theorem flags_fragment : ∀ sequence < 32, ∀ index < 4,
    (fragmentFlags sequence index >>> 1 &&& 0x03).toNat =
      index := by
  decide

theorem flags_sequence : ∀ sequence < 32, ∀ index < 4,
    (fragmentFlags sequence index >>> 3 &&& 0x1F).toNat =
      sequence := by
  decide

theorem Block.packet_carries (inside : index < block.count) :
    Carries block index (block.packet index) := by
  have four : index < 4 := lt_of_lt_of_le inside block.count_le
  have short : (block.piece index).length ≤ 180 := by
    rw [Block.piece_length]
    exact Nat.min_le_left _ _
  have len : (block.packet index).len.toNat = (block.piece index).length := by
    rw [Block.packet, UInt8.toNat_ofNat']
    exact Nat.mod_eq_of_lt (by omega)
  refine ⟨inside, ?_, flags_fragment _ block.small _ four, flags_sequence _ block.small _ four,
    len, ?_⟩
  · rw [Packet.isFragmented, Block.packet, flags_fragmented _ block.small _ four]
    rfl
  · rw [len]
    exact List.take_left

end Urus.Gps
