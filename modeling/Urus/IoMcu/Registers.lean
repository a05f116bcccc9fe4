/-
This file models how registers are read from the IO processor and written to it. A packet is built on
the stack and sent, and the reply is put over it. What a reply says about its own length decides how
many bytes its check covers, and the number of bytes that have arrived is kept in 8 bits.

Both functions are safe, and trust only complete and correct replies, exactly if they get no reply
that goes beyond the packet, none that bytes left on the stack complete, and for a read none of 256
bytes, since then the request is taken for the reply.
-/

import Urus.Lib.Bytes

namespace Urus.IoMcu.Registers

open Image

/-! ### The code -/

/-- `crc8_table`. -/
def crc8Table : List UInt8 := [
  0x00, 0x07, 0x0e, 0x09, 0x1c, 0x1b, 0x12, 0x15, 0x38, 0x3f, 0x36, 0x31,
  0x24, 0x23, 0x2a, 0x2d, 0x70, 0x77, 0x7e, 0x79, 0x6c, 0x6b, 0x62, 0x65,
  0x48, 0x4f, 0x46, 0x41, 0x54, 0x53, 0x5a, 0x5d, 0xe0, 0xe7, 0xee, 0xe9,
  0xfc, 0xfb, 0xf2, 0xf5, 0xd8, 0xdf, 0xd6, 0xd1, 0xc4, 0xc3, 0xca, 0xcd,
  0x90, 0x97, 0x9e, 0x99, 0x8c, 0x8b, 0x82, 0x85, 0xa8, 0xaf, 0xa6, 0xa1,
  0xb4, 0xb3, 0xba, 0xbd, 0xc7, 0xc0, 0xc9, 0xce, 0xdb, 0xdc, 0xd5, 0xd2,
  0xff, 0xf8, 0xf1, 0xf6, 0xe3, 0xe4, 0xed, 0xea, 0xb7, 0xb0, 0xb9, 0xbe,
  0xab, 0xac, 0xa5, 0xa2, 0x8f, 0x88, 0x81, 0x86, 0x93, 0x94, 0x9d, 0x9a,
  0x27, 0x20, 0x29, 0x2e, 0x3b, 0x3c, 0x35, 0x32, 0x1f, 0x18, 0x11, 0x16,
  0x03, 0x04, 0x0d, 0x0a, 0x57, 0x50, 0x59, 0x5e, 0x4b, 0x4c, 0x45, 0x42,
  0x6f, 0x68, 0x61, 0x66, 0x73, 0x74, 0x7d, 0x7a, 0x89, 0x8e, 0x87, 0x80,
  0x95, 0x92, 0x9b, 0x9c, 0xb1, 0xb6, 0xbf, 0xb8, 0xad, 0xaa, 0xa3, 0xa4,
  0xf9, 0xfe, 0xf7, 0xf0, 0xe5, 0xe2, 0xeb, 0xec, 0xc1, 0xc6, 0xcf, 0xc8,
  0xdd, 0xda, 0xd3, 0xd4, 0x69, 0x6e, 0x67, 0x60, 0x75, 0x72, 0x7b, 0x7c,
  0x51, 0x56, 0x5f, 0x58, 0x4d, 0x4a, 0x43, 0x44, 0x19, 0x1e, 0x17, 0x10,
  0x05, 0x02, 0x0b, 0x0c, 0x21, 0x26, 0x2f, 0x28, 0x3d, 0x3a, 0x33, 0x34,
  0x4e, 0x49, 0x40, 0x47, 0x52, 0x55, 0x5c, 0x5b, 0x76, 0x71, 0x78, 0x7f,
  0x6a, 0x6d, 0x64, 0x63, 0x3e, 0x39, 0x30, 0x37, 0x22, 0x25, 0x2c, 0x2b,
  0x06, 0x01, 0x08, 0x0f, 0x1a, 0x1d, 0x14, 0x13, 0xae, 0xa9, 0xa0, 0xa7,
  0xb2, 0xb5, 0xbc, 0xbb, 0x96, 0x91, 0x98, 0x9f, 0x8a, 0x8d, 0x84, 0x83,
  0xde, 0xd9, 0xd0, 0xd7, 0xc2, 0xc5, 0xcc, 0xcb, 0xe6, 0xe1, 0xe8, 0xef,
  0xfa, 0xfd, 0xf4, 0xf3]

/-- Each entry is its index divided by the polynomial 0x07. -/
example : crc8Table = (List.range 256).map fun i => (List.range 8).foldl
    (fun (crc : UInt8) _ => crc <<< 1 ^^^ if crc &&& 0x80 = 0 then 0 else 7) (.ofNat i) := by
  decide +kernel

/-- One byte of `crc_crc8`. -/
def crcStep (crc : UInt16) (byte : UInt8) : UInt16 :=
  let i := (crc ^^^ byte.toUInt16) &&& 0xFF
  ((crc8Table.getD i.toNat 0).toUInt16 ^^^ (crc <<< 8)) &&& 0xFF

/-- `crc_crc8`. -/
def crcCrc8 (bytes : List UInt8) : UInt8 := (bytes.foldl crcStep 0 &&& 0xFF).toUInt8

/-- `sizeof(IOPacket)`. -/
def packetSize : ℕ := 68

/-- `iocode`. -/
def codeRead : UInt8 := 0

def codeWrite : UInt8 := 1

def codeSuccess : UInt8 := 0

/-- The field `count` of a packet, from its first byte. -/
def countOf (first : UInt8) : ℕ := (first &&& 0x3F).toNat

/-- The field `code` of a packet, from its first byte. -/
def codeOf (first : UInt8) : UInt8 := first >>> 6

/-- `get_size`, from the first byte. -/
def sizeOf (first : UInt8) : ℕ := countOf first * 2 + 4

/-- What a call meets: the bytes that are on the stack where the packet is and behind it, whether the
request is sent as a whole, and the bytes that have arrived when the wait is over. -/
structure Link where
  stack : Image
  written : Bool
  reply : List UInt8

/-- What a call comes to: its result, the registers of the caller, byte by byte, and how far behind
the start of the packet it has gone. -/
structure Outcome where
  result : Bool
  regs : List UInt8
  reach : ℕ
  deriving DecidableEq

/-- The first byte of a packet, with its fields `count` and `code`. -/
def firstByte (code count : UInt8) : UInt8 := code <<< 6 ||| (count &&& 0x3F)

/-- The packet before its check is put in. The registers are cleared, and copied for a write. -/
def header (stack : Image) (code page offset count : UInt8) (regs : List UInt8) : Image :=
  ((stack.put 4 (List.replicate (count.toNat * 2) 0)).put 4 regs).put 0
    [firstByte code count, 0, page, offset]

/-- The packet that is sent. -/
def request (stack : Image) (code page offset count : UInt8) (regs : List UInt8) : Image :=
  let pkt := header stack code page offset count regs
  pkt.put 1 [crcCrc8 (pkt.slice 0 (sizeOf (pkt 0)))]

/-- The bytes that have arrived are put over the packet. Their number has 8 bits. -/
def receive (pkt : Image) (reply : List UInt8) : Image :=
  let n := UInt8.ofNat reply.length
  pkt.put 0 ((reply.take n.toNat).take packetSize)

/-- The check of a packet that has arrived is right. -/
def crcRight (pkt : Image) : Bool :=
  pkt 1 == crcCrc8 ((pkt.put 1 [0]).slice 0 (sizeOf (pkt 0)))

/-- `read_registers`. -/
def readRegisters (link : Link) (page offset count : UInt8) (regs : List UInt8) : Outcome :=
  let sent := request link.stack codeRead page offset count []
  let reach := max (4 + count.toNat * 2) (sizeOf (sent 0))
  if link.written = false then ⟨false, regs, reach⟩
  else if link.reply.length < count.toNat * 2 + 4 then ⟨false, regs, reach⟩
  else
    let pkt := receive sent link.reply
    let reach := max reach (sizeOf (pkt 0))
    if crcRight pkt = false then ⟨false, regs, reach⟩
    else if codeOf (pkt 0) ≠ codeSuccess then ⟨false, regs, reach⟩
    else if countOf (pkt 0) < count.toNat then ⟨false, regs, reach⟩
    else ⟨true, pkt.slice 4 (count.toNat * 2), reach⟩

/-- `write_registers`. Its registers are only read. -/
def writeRegisters (link : Link) (page offset count : UInt8) (regs : List UInt8) : Outcome :=
  let sent := request link.stack codeWrite page offset count (regs.take (count.toNat * 2))
  let reach := max (4 + count.toNat * 2) (sizeOf (sent 0))
  if link.written = false then ⟨false, regs, reach⟩
  else if link.reply.length < 4 then ⟨false, regs, reach⟩
  else
    let pkt := receive sent link.reply
    if codeOf (pkt 0) ≠ codeSuccess then ⟨false, regs, reach⟩
    else
      let reach := max reach (sizeOf (pkt 0))
      if crcRight pkt = false then ⟨false, regs, reach⟩
      else ⟨true, regs, reach⟩

/-! ### What is wanted -/

/-- The bytes start with a complete and correct reply that reports success and has at least so many
registers. -/
structure ValidReply (count : ℕ) (reply : List UInt8) : Prop where
  complete : sizeOf (reply.getD 0 0) ≤ reply.length
  right : reply.getD 1 0 = crcCrc8 ((reply.take (sizeOf (reply.getD 0 0))).set 1 0)
  success : codeOf (reply.getD 0 0) = codeSuccess
  enough : count ≤ countOf (reply.getD 0 0)

/-- A read is safe, trusts only a valid reply, and leaves the registers alone when it fails. -/
structure ReadSound (count : ℕ) (reply before : List UInt8) (outcome : Outcome) : Prop where
  safe : outcome.reach ≤ packetSize
  trusted : outcome.result = true → ValidReply count reply ∧
    outcome.regs = (reply.drop 4).take (count * 2)
  kept : outcome.result = false → outcome.regs = before

/-- A write is safe and trusts only a valid reply. -/
structure WriteSound (reply : List UInt8) (outcome : Outcome) : Prop where
  safe : outcome.reach ≤ packetSize
  trusted : outcome.result = true → ValidReply 0 reply

/-! ### What is enough -/

/-- The reply, and behind it what the packet held before. -/
def continued (sent : Image) (reply : List UInt8) : Image := sent.put 0 (reply.take packetSize)

/-- A reply that says that it is longer than it is, and is right with what the packet held before. -/
def Completed (sent : Image) (count : ℕ) (reply : List UInt8) : Prop :=
  reply.length < sizeOf (reply.getD 0 0) ∧ crcRight (continued sent reply) = true ∧
    codeOf (reply.getD 0 0) = codeSuccess ∧ count ≤ countOf (reply.getD 0 0)

/-- When a read is sound. Either nothing is read, or the reply says that it fits in the packet and is
not completed by old bytes, or 256 bytes begin with a valid reply whose registers are all zero. -/
def ReadMeets (link : Link) (page offset count : UInt8) : Prop :=
  link.written = false ∨ link.reply.length < count.toNat * 2 + 4 ∨
    (link.reply.length < 256 ∧ countOf (link.reply.getD 0 0) ≤ 32 ∧
      ¬ Completed (request link.stack codeRead page offset count []) count.toNat link.reply) ∨
    (link.reply.length = 256 ∧ ValidReply count.toNat link.reply ∧
      (link.reply.drop 4).take (count.toNat * 2) = List.replicate (count.toNat * 2) 0)

/-- When a write is sound. A reply that does not report success is not looked at further. -/
def WriteMeets (link : Link) (page offset count : UInt8) (regs : List UInt8) : Prop :=
  link.written = false ∨ link.reply.length < 4 ∨ link.reply.length = 256 ∨
    codeOf (link.reply.getD 0 0) ≠ codeSuccess ∨
    (countOf (link.reply.getD 0 0) ≤ 32 ∧
      ¬ Completed (request link.stack codeWrite page offset count (regs.take (count.toNat * 2))) 0
        link.reply)

/-! ### The packet that is sent -/

section Sent

theorem firstByte_all : ∀ count : Fin 256,
    codeOf (firstByte codeRead (UInt8.ofFin count)) = codeRead ∧
      codeOf (firstByte codeWrite (UInt8.ofFin count)) = codeWrite ∧
      (count.val ≤ 32 → countOf (firstByte codeRead (UInt8.ofFin count)) = count.val ∧
        countOf (firstByte codeWrite (UInt8.ofFin count)) = count.val) := by
  decide +kernel

theorem firstByte_spec (count : UInt8) :
    codeOf (firstByte codeRead count) = codeRead ∧
      codeOf (firstByte codeWrite count) = codeWrite ∧
      (count.toNat ≤ 32 → countOf (firstByte codeRead count) = count.toNat ∧
        countOf (firstByte codeWrite count) = count.toNat) :=
  firstByte_all count.toFin

variable (stack : Image) (code page offset count : UInt8) (regs : List UInt8)

theorem header_first : header stack code page offset count regs 0 = firstByte code count := rfl

theorem request_first : request stack code page offset count regs 0 = firstByte code count := by
  rw [request, put_outside _ _ _ _ (.inl Nat.zero_lt_one), header_first]

/-- Without its check the packet is the header again. -/
theorem request_clear :
    (request stack code page offset count regs).put 1 [0] =
      header stack code page offset count regs := by
  have whole : header stack code page offset count regs =
      (header stack code page offset count regs).put 1 [0] :=
    (put_same (by rfl)).symm
  rw [request]
  conv_rhs => rw [whole]
  exact put_put_cover _ 1 [_] [0] [] rfl

/-- The request passes its own check. -/
theorem request_right : crcRight (request stack code page offset count regs) = true := by
  rw [crcRight, request_clear, request_first, beq_iff_eq, request,
    put_inside _ _ _ _ le_rfl (Nat.lt_succ_self 1), header_first]
  rfl

theorem request_zero : (request stack code page offset count []).slice 4 (count.toNat * 2) =
    List.replicate (count.toNat * 2) 0 := by
  rw [request, slice_put_disjoint _ 1 [_] 4 _ (.inr (by decide : 1 + 1 ≤ 4)), header,
    slice_put_disjoint _ 0 [_, _, _, _] 4 _ (.inr le_rfl), put_nil]
  simpa only [List.length_replicate] using
    slice_put_self stack 4 (List.replicate (count.toNat * 2) 0)

end Sent

/-! ### The packet that has arrived -/

section Arrived

variable {sent : Image} {reply : List UInt8} {count : ℕ}

theorem receive_short (short : reply.length < 256) : receive sent reply = continued sent reply := by
  have number : (UInt8.ofNat reply.length).toNat = reply.length :=
    UInt8.toNat_ofNat_of_lt' short
  simp only [receive, number, List.take_length, continued]

/-- Of 256 bytes none is put over the packet. -/
theorem receive_full (full : reply.length = 256) : receive sent reply = sent := by
  rw [receive, full]
  exact put_nil sent 0

theorem continued_byte {index : ℕ} (inside : index < reply.length) (small : index < packetSize) :
    continued sent reply index = reply.getD index 0 := by
  have length : (reply.take packetSize).length = min packetSize reply.length := List.length_take
  rw [continued, put_inside _ _ _ _ (Nat.zero_le _) (by omega), List.getD_eq_getElem?_getD,
    List.getD_eq_getElem?_getD, List.getElem?_take_of_lt (by omega)]
  rfl

theorem continued_slice {size : ℕ} (inside : size ≤ reply.length) (small : size ≤ packetSize) :
    ((continued sent reply).put 1 [0]).slice 0 size = (reply.take size).set 1 0 := by
  have length : ((reply.take size).set 1 0).length = size := by
    rw [List.length_set, List.length_take, min_eq_left inside]
  have bytes := (slice_eq_iff ((continued sent reply).put 1 [0]) 0 ((reply.take size).set 1 0)).mpr
  rw [length] at bytes
  refine bytes fun index less => ?_
  rw [Nat.zero_add, List.getD_eq_getElem?_getD, List.getElem?_set]
  by_cases check : 1 = index
  · rw [if_pos check, if_pos (by rw [List.length_take]; omega), ← check]
    exact put_inside _ _ _ _ le_rfl (Nat.lt_succ_self 1)
  · rw [if_neg check, put_outside _ _ _ _ (by rw [List.length_singleton]; omega),
      continued_byte (by omega) (by omega), List.getElem?_take_of_lt less,
      List.getD_eq_getElem?_getD]

theorem continued_accepted (long : 2 ≤ reply.length)
    (complete : sizeOf (reply.getD 0 0) ≤ reply.length)
    (small : sizeOf (reply.getD 0 0) ≤ packetSize) :
    (crcRight (continued sent reply) = true ∧ codeOf (continued sent reply 0) = codeSuccess ∧
      count ≤ countOf (continued sent reply 0)) ↔ ValidReply count reply := by
  have first : continued sent reply 0 = reply.getD 0 0 :=
    continued_byte (by omega) (by decide)
  have check : continued sent reply 1 = reply.getD 1 0 :=
    continued_byte (by omega) (by decide)
  rw [crcRight, beq_iff_eq, first, check, continued_slice complete small]
  exact ⟨fun ⟨right, success, enough⟩ => ⟨complete, right, success, enough⟩,
    fun ⟨_, right, success, enough⟩ => ⟨right, success, enough⟩⟩

/-- The registers of a reply that is complete. -/
theorem continued_regs (inside : count * 2 + 4 ≤ reply.length) (small : count * 2 + 4 ≤ packetSize) :
    (continued sent reply).slice 4 (count * 2) = (reply.drop 4).take (count * 2) := by
  have length : ((reply.drop 4).take (count * 2)).length = count * 2 := by
    rw [List.length_take, List.length_drop]
    omega
  have bytes := (slice_eq_iff (continued sent reply) 4 ((reply.drop 4).take (count * 2))).mpr
  rw [length] at bytes
  refine bytes fun index less => ?_
  rw [continued_byte (by omega) (by omega), List.getD_eq_getElem?_getD,
    List.getD_eq_getElem?_getD, List.getElem?_take_of_lt less, List.getElem?_drop]

end Arrived

/-! ### Both functions -/

section Calls

variable {link : Link} {page offset count : UInt8} {regs : List UInt8}

/-- What is left alone, and only the packet is accessed. -/
theorem readSound_false {before : List UInt8} {reach counted : ℕ} {reply : List UInt8} :
    ReadSound counted reply before ⟨false, before, reach⟩ ↔ reach ≤ packetSize :=
  ⟨fun sound => sound.safe, fun safe => ⟨safe, nofun, fun _ => rfl⟩⟩

theorem writeSound_false {before : List UInt8} {reach : ℕ} {reply : List UInt8} :
    WriteSound reply ⟨false, before, reach⟩ ↔ reach ≤ packetSize :=
  ⟨fun sound => sound.safe, fun safe => ⟨safe, nofun⟩⟩

theorem sizeOf_le {first : UInt8} : sizeOf first ≤ packetSize ↔ countOf first ≤ 32 := by
  rw [sizeOf, packetSize]
  omega

theorem request_reach {code : UInt8} (stack : Image) (page offset : UInt8) (regs : List UInt8)
    (most : count.toNat ≤ 32)
    (counted : countOf (firstByte code count) = count.toNat) :
    max (4 + count.toNat * 2) (sizeOf (request stack code page offset count regs 0)) ≤
      packetSize := by
  rw [request_first, sizeOf, counted, packetSize]
  omega

/-- A packet passes all the checks. -/
def Accepted (pkt : Image) (count : ℕ) : Prop :=
  crcRight pkt = true ∧ codeOf (pkt 0) = codeSuccess ∧ count ≤ countOf (pkt 0)

instance (pkt : Image) (count : ℕ) : Decidable (Accepted pkt count) :=
  inferInstanceAs (Decidable (_ ∧ _))

theorem read_checks {Result : Type} (pkt : Image) (count : ℕ) (yes no : Result) :
    (if crcRight pkt = false then no else if codeOf (pkt 0) ≠ codeSuccess then no
      else if countOf (pkt 0) < count then no else yes) =
      if Accepted pkt count then yes else no := by
  by_cases accepted : Accepted pkt count
  · have passed : ¬ crcRight pkt = false := by rw [accepted.1]; decide
    rw [if_neg passed, if_neg (not_not.mpr accepted.2.1), if_neg (not_lt.mpr accepted.2.2),
      if_pos accepted]
  · rw [if_neg accepted]
    split
    · rfl
    · split
      · rfl
      · split
        · rfl
        · rename_i right success enough
          exact absurd ⟨Bool.of_not_eq_false right, not_not.mp success, not_lt.mp enough⟩ accepted

theorem accepted_cases {sent : Image} {counted : ℕ} (long : 2 ≤ link.reply.length)
    (small : countOf (link.reply.getD 0 0) ≤ 32) :
    Accepted (continued sent link.reply) counted ↔
      ValidReply counted link.reply ∨ Completed sent counted link.reply := by
  have first : continued sent link.reply 0 = link.reply.getD 0 0 :=
    continued_byte (by omega) (by decide)
  rcases lt_or_ge link.reply.length (sizeOf (link.reply.getD 0 0)) with short | complete
  · rw [Accepted, first]
    exact ⟨fun ⟨right, success, enough⟩ => .inr ⟨short, right, success, enough⟩, fun either =>
      either.elim (fun valid => absurd valid.complete (not_le.mpr short)) fun completed => completed.2⟩
  · exact (continued_accepted long complete (sizeOf_le.mpr small)).trans
      ⟨.inl, fun either => either.elim id fun completed => absurd completed.1 (not_lt.mpr complete)⟩

theorem readSound_iff (link : Link) (page offset count : UInt8) (regs : List UInt8)
    (most : count.toNat ≤ 32) (short : link.reply.length ≤ 256) :
    ReadSound count.toNat link.reply regs (readRegisters link page offset count regs) ↔
      ReadMeets link page offset count := by
  obtain ⟨success, -, counted⟩ := firstByte_spec count
  have reach := request_reach link.stack page offset [] most (counted most).1
  have accepted := @accepted_cases link (request link.stack codeRead page offset count []) count.toNat
  have right := request_right link.stack codeRead page offset count []
  have sentFirst := request_first link.stack codeRead page offset count []
  have zero := request_zero link.stack codeRead page offset count
  rw [readRegisters, ReadMeets]
  simp only
  generalize request link.stack codeRead page offset count [] = sent at *
  by_cases written : link.written = false
  · rw [if_pos written, readSound_false]
    exact ⟨fun _ => .inl written, fun _ => reach⟩
  rw [if_neg written, or_iff_right written]
  by_cases late : link.reply.length < count.toNat * 2 + 4
  · rw [if_pos late, readSound_false]
    exact ⟨fun _ => .inl late, fun _ => reach⟩
  rw [if_neg late, or_iff_right late, read_checks]
  rcases short.lt_or_eq with short | full
  · have first : continued sent link.reply 0 = link.reply.getD 0 0 :=
      continued_byte (by omega) (by decide)
    have within : max (max (4 + count.toNat * 2) (sizeOf (sent 0)))
        (sizeOf (continued sent link.reply 0)) ≤ packetSize ↔
          countOf (link.reply.getD 0 0) ≤ 32 := by
      rw [first, ← sizeOf_le, max_le_iff]
      exact and_iff_right reach
    rw [receive_short short, or_iff_left fun both => absurd both.1 short.ne, and_iff_right short]
    split
    · rename_i passed
      constructor
      · rintro ⟨safe, trusted, -⟩
        exact ⟨within.mp safe, fun completed =>
          absurd completed.1 (not_lt.mpr (trusted rfl).1.complete)⟩
      · rintro ⟨small, notCompleted⟩
        refine ⟨within.mpr small, fun _ => ⟨?_, ?_⟩, nofun⟩
        · exact ((accepted (by omega) small).mp passed).resolve_right notCompleted
        · exact continued_regs (by omega) (by rw [packetSize]; omega)
    · rename_i refused
      rw [readSound_false, within]
      exact ⟨fun small => ⟨small, fun completed =>
        refused ((accepted (by omega) small).mpr (.inr completed))⟩, And.left⟩
  · have passed : Accepted sent count.toNat := by
      refine ⟨right, ?_, ?_⟩
      · rw [sentFirst, success]
        rfl
      · rw [sentFirst, (counted most).1]
    have inside : max (max (4 + count.toNat * 2) (sizeOf (sent 0))) (sizeOf (sent 0)) ≤
        packetSize := max_le reach ((le_max_right _ _).trans reach)
    rw [receive_full full, if_pos passed, or_iff_right fun both => absurd full both.1.ne,
      and_iff_right full, zero]
    exact ⟨fun sound => ⟨(sound.trusted rfl).1, (sound.trusted rfl).2.symm⟩,
      fun ⟨valid, same⟩ => ⟨inside, fun _ => ⟨valid, same.symm⟩, nofun⟩⟩

theorem writeSound_iff (link : Link) (page offset count : UInt8) (regs : List UInt8)
    (most : count.toNat ≤ 32) (short : link.reply.length ≤ 256) :
    WriteSound link.reply (writeRegisters link page offset count regs) ↔
      WriteMeets link page offset count regs := by
  obtain ⟨-, failure, counted⟩ := firstByte_spec count
  have reach := request_reach link.stack page offset (regs.take (count.toNat * 2)) most
    (counted most).2
  have accepted := @accepted_cases link
    (request link.stack codeWrite page offset count (regs.take (count.toNat * 2))) 0
  have sentFirst := request_first link.stack codeWrite page offset count
    (regs.take (count.toNat * 2))
  rw [writeRegisters, WriteMeets]
  simp only
  generalize request link.stack codeWrite page offset count (regs.take (count.toNat * 2)) = sent at *
  by_cases written : link.written = false
  · rw [if_pos written, writeSound_false]
    exact ⟨fun _ => .inl written, fun _ => reach⟩
  rw [if_neg written, or_iff_right written]
  by_cases late : link.reply.length < 4
  · rw [if_pos late, writeSound_false]
    exact ⟨fun _ => .inl late, fun _ => reach⟩
  rw [if_neg late, or_iff_right late]
  rcases short.lt_or_eq with short | full
  · have first : continued sent link.reply 0 = link.reply.getD 0 0 :=
      continued_byte (by omega) (by decide)
    rw [receive_short short, or_iff_right short.ne, first]
    by_cases success : codeOf (link.reply.getD 0 0) = codeSuccess
    · have within : max (max (4 + count.toNat * 2) (sizeOf (sent 0)))
          (sizeOf (link.reply.getD 0 0)) ≤ packetSize ↔ countOf (link.reply.getD 0 0) ≤ 32 := by
        rw [← sizeOf_le, max_le_iff]
        exact and_iff_right reach
      have passes : Accepted (continued sent link.reply) 0 ↔
          crcRight (continued sent link.reply) = true := by
        rw [Accepted, first]
        exact ⟨And.left, fun right => ⟨right, success, Nat.zero_le _⟩⟩
      rw [if_neg (not_not.mpr success), or_iff_right (not_not.mpr success)]
      split
      · rename_i wrong
        rw [writeSound_false, within]
        exact ⟨fun small => ⟨small, fun completed =>
          Bool.false_ne_true (wrong.symm.trans completed.2.1)⟩, And.left⟩
      · rename_i right
        have passed := passes.mpr (Bool.of_not_eq_false right)
        constructor
        · rintro ⟨safe, trusted⟩
          exact ⟨within.mp safe, fun completed =>
            absurd completed.1 (not_lt.mpr (trusted rfl).complete)⟩
        · rintro ⟨small, notCompleted⟩
          exact ⟨within.mpr small, fun _ =>
            ((accepted (by omega) small).mp passed).resolve_right notCompleted⟩
    · rw [if_pos success, writeSound_false]
      exact ⟨fun _ => .inl success, fun _ => reach⟩
  · have refused : codeOf (sent 0) ≠ codeSuccess := by
      rw [sentFirst, failure]
      decide
    rw [receive_full full, if_pos refused, writeSound_false]
    exact ⟨fun _ => .inl full, fun _ => reach⟩

/-- Both functions are sound exactly when their conditions hold. -/
theorem registers_sound_iff (link : Link) (page offset count : UInt8) (regs : List UInt8)
    (most : count.toNat ≤ 32) (short : link.reply.length ≤ 256) :
    (ReadSound count.toNat link.reply regs (readRegisters link page offset count regs) ↔
        ReadMeets link page offset count) ∧
      (WriteSound link.reply (writeRegisters link page offset count regs) ↔
        WriteMeets link page offset count regs) :=
  ⟨readSound_iff link page offset count regs most short,
    writeSound_iff link page offset count regs most short⟩

/-- A reply with two registers. -/
def twoRegisters : List UInt8 := [2, 0x0c, 0, 0, 0x34, 0x12, 0x78, 0x56]

/-- One register is read, and the reply says that it has two. -/
theorem registers_sound_two :
    (ReadSound 1 twoRegisters [0, 0]
        (readRegisters ⟨fun _ => 0, true, twoRegisters⟩ 1 0 1 [0, 0]) ↔
      ReadMeets ⟨fun _ => 0, true, twoRegisters⟩ 1 0 1) ∧
    (WriteSound twoRegisters (writeRegisters ⟨fun _ => 0, true, twoRegisters⟩ 1 0 1 [0, 0]) ↔
      WriteMeets ⟨fun _ => 0, true, twoRegisters⟩ 1 0 1 [0, 0]) :=
  registers_sound_iff ⟨fun _ => 0, true, twoRegisters⟩ 1 0 1 [0, 0] (by decide) (by decide)

/-- For a reply that says that it has 63 registers the check goes over 130 bytes. -/
theorem not_sound_long_count :
    ¬ ReadSound 1 [0x3F, 0, 0, 0, 0, 0] [0, 0]
      (readRegisters ⟨fun _ => 0, true, [0x3F, 0, 0, 0, 0, 0]⟩ 1 0 1 [0, 0]) := fun sound =>
  absurd sound.safe (by decide +kernel)

end Calls

end Urus.IoMcu.Registers
