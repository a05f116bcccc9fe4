/-
This file models how frames are sent over the FrSky link, and proves that what was sent can be read
from the bytes on it. Both protocols hide their start byte in the frames. A frame of S.Port also ends
with a byte that brings the sum of its bytes to 0xFF. A frame of the D protocol has room for one byte
of the number of a sensor, so only the low byte of it can be read.
-/

import Mathlib.Tactic
import Urus.Frsky.Number
import Urus.Lib.Stuffing

namespace Urus.Frsky

open Stuffing

/-! ### The code -/

/-- The protocols. -/
inductive Protocol
  | d
  | sport
  | sportPassthrough
  deriving DecidableEq

/-- `START_STOP_D`, `BYTESTUFF_D`, `START_STOP_SPORT` and `BYTESTUFF_SPORT`. -/
def startStopD : UInt8 := 0x5E
def bytestuffD : UInt8 := 0x5D
def startStopSport : UInt8 := 0x7E
def bytestuffSport : UInt8 := 0x7D

/-- The variables of `AP_Frsky_Telem` that have to do with sending, and the bytes that were written to
the port. -/
structure Telem where
  protocol : Protocol
  crc : ℕ
  written : List UInt8
  deriving DecidableEq

/-- Nothing has been sent yet. -/
def Telem.opened (protocol : Protocol) : Telem := ⟨protocol, 0, []⟩

/-- `_port->write`. -/
def Telem.write (telem : Telem) (byte : UInt8) : Telem :=
  { telem with written := telem.written ++ [byte] }

/-- What `calc_crc` makes of the sum. -/
def calcCrc (crc : ℕ) (byte : UInt8) : ℕ :=
  let crc := (crc + byte.toNat) % 2 ^ 16
  let crc := (crc + crc >>> 8) % 2 ^ 16
  crc &&& 0xFF

/-- `send_byte`. -/
def Telem.sendByte (telem : Telem) (byte : UInt8) : Telem :=
  if telem.protocol = .d then
    if byte = startStopD then (telem.write 0x5D).write 0x3E
    else if byte = bytestuffD then (telem.write 0x5D).write 0x3D
    else telem.write byte
  else
    let sent :=
      if byte = startStopSport then (telem.write 0x7D).write 0x5E
      else if byte = bytestuffSport then (telem.write 0x7D).write 0x5D
      else telem.write byte
    { sent with crc := calcCrc sent.crc byte }

/-- `send_crc`. -/
def Telem.sendCrc (telem : Telem) : Telem :=
  { telem.sendByte (UInt8.ofNat (0xFF - telem.crc)) with crc := 0 }

/-- One of the bytes of a number, the least significant one first. -/
def byteOf (value i : ℕ) : UInt8 := UInt8.ofNat (value >>> (8 * i))

/-- `send_uint32`. -/
def Telem.sendUint32 (telem : Telem) (id : UInt16) (data : UInt32) : Telem :=
  let telem := telem.sendByte 0x10
  let telem := telem.sendByte (byteOf id.toNat 0)
  let telem := telem.sendByte (byteOf id.toNat 1)
  let telem := telem.sendByte (byteOf data.toNat 0)
  let telem := telem.sendByte (byteOf data.toNat 1)
  let telem := telem.sendByte (byteOf data.toNat 2)
  let telem := telem.sendByte (byteOf data.toNat 3)
  telem.sendCrc

/-- `send_uint16`. -/
def Telem.sendUint16 (telem : Telem) (id data : UInt16) : Telem :=
  let telem := telem.write startStopD
  let telem := telem.sendByte (byteOf id.toNat 0)
  let telem := telem.sendByte (byteOf data.toNat 0)
  telem.sendByte (byteOf data.toNat 1)

/-- Calls of `send_uint32` one after another. -/
def Telem.sendAll32 (telem : Telem) (calls : List (UInt16 × UInt32)) : Telem :=
  calls.foldl (fun telem call => telem.sendUint32 call.1 call.2) telem

/-- Calls of `send_uint16` one after another. -/
def Telem.sendAll16 (telem : Telem) (calls : List (UInt16 × UInt16)) : Telem :=
  calls.foldl (fun telem call => telem.sendUint16 call.1 call.2) telem

/-! ### The receivers -/

/-- How S.Port hides its start byte. -/
def sportCode : Code UInt8 where
  start := 0x7E
  escape := 0x7D
  hidden := (· ^^^ 0x20)
  shown := (· ^^^ 0x20)
  different := by decide
  shown_hidden := by
    rintro byte (rfl | rfl) <;> rfl
  hidden_ne := by
    rintro byte (rfl | rfl) <;> decide

/-- How the D protocol hides its start byte. -/
def dCode : Code UInt8 where
  start := 0x5E
  escape := 0x5D
  hidden := (· ^^^ 0x60)
  shown := (· ^^^ 0x60)
  different := by decide
  shown_hidden := by
    rintro byte (rfl | rfl) <;> rfl
  hidden_ne := by
    rintro byte (rfl | rfl) <;> decide

/-- The number that some bytes stand for, the least significant one first. -/
def number : List UInt8 → ℕ
  | [] => 0
  | byte :: rest => byte.toNat + 2 ^ 8 * number rest

/-- Bytes in frames of eight. -/
def eights : List UInt8 → List (List UInt8)
  | a :: b :: c :: d :: e :: f :: g :: h :: rest => [a, b, c, d, e, f, g, h] :: eights rest
  | _ => []

/-- What a frame of S.Port says. -/
def readSport (frame : List UInt8) : UInt16 × UInt32 :=
  (UInt16.ofNat (number ((frame.drop 1).take 2)), UInt32.ofNat (number ((frame.drop 3).take 4)))

/-- What a frame of the D protocol says: the low byte of the number of the sensor, and the data. -/
def readD (frame : List UInt8) : UInt8 × UInt16 :=
  (frame.headD 0, UInt16.ofNat (number (frame.drop 1)))

/-- The sum of two bytes, where the carry is added at the other end. -/
def addCarry (sum : ℕ) (byte : UInt8) : ℕ :=
  if sum + byte.toNat < 2 ^ 8 then sum + byte.toNat else sum + byte.toNat - 2 ^ 8 + 1

/-! ### The checksum -/

theorem calcCrc_eq {crc : ℕ} (small : crc < 2 ^ 8) (byte : UInt8) :
    calcCrc crc byte = addCarry crc byte := by
  have below : byte.toNat < 2 ^ 8 := byte.toNat_lt
  have first : (crc + byte.toNat) % 2 ^ 16 = crc + byte.toNat := Nat.mod_eq_of_lt (by omega)
  rw [calcCrc, first, addCarry, Nat.shiftRight_eq_div_pow, show (0xFF : ℕ) = 2 ^ 8 - 1 from rfl, Nat.and_two_pow_sub_one_eq_mod]
  split_ifs <;> omega

theorem addCarry_lt {sum : ℕ} (small : sum < 2 ^ 8) (byte : UInt8) :
    addCarry sum byte < 2 ^ 8 := by
  have below : byte.toNat < 2 ^ 8 := byte.toNat_lt
  rw [addCarry]
  split_ifs <;> omega

theorem foldl_addCarry_lt {sum : ℕ} (small : sum < 2 ^ 8) (bytes : List UInt8) :
    bytes.foldl addCarry sum < 2 ^ 8 := by
  induction bytes generalizing sum with
  | nil => exact small
  | cons byte bytes inductionHypothesis => exact inductionHypothesis (addCarry_lt small byte)

theorem addCarry_rest {sum : ℕ} (small : sum < 2 ^ 8) :
    addCarry sum (UInt8.ofNat (0xFF - sum)) = 0xFF := by
  have rest : (UInt8.ofNat (0xFF - sum)).toNat = 0xFF - sum := by
    rw [UInt8.toNat_ofNat']
    exact Nat.mod_eq_of_lt (by omega)
  rw [addCarry, rest]
  split_ifs <;> omega

/-! ### Sending -/

variable {telem : Telem}

theorem sendByte_sport (sport : telem.protocol ≠ .d) (byte : UInt8) :
    telem.sendByte byte =
      ⟨telem.protocol, calcCrc telem.crc byte, telem.written ++ sportCode.stuffByte byte⟩ := by
  rw [Telem.sendByte, if_neg sport]
  by_cases start : byte = startStopSport
  · have hidden : sportCode.stuffByte byte = [0x7D, 0x5E] := by
      rw [start]
      rfl
    rw [if_pos start, hidden, Telem.write, Telem.write, List.append_assoc]
    rfl
  by_cases escape : byte = bytestuffSport
  · have hidden : sportCode.stuffByte byte = [0x7D, 0x5D] := by
      rw [escape]
      rfl
    rw [if_neg start, if_pos escape, hidden, Telem.write, Telem.write, List.append_assoc]
    rfl
  · have plain : sportCode.stuffByte byte = [byte] := if_neg (not_or.mpr ⟨start, escape⟩)
    rw [if_neg start, if_neg escape, plain]
    rfl

theorem sendByte_d (d : telem.protocol = .d) (byte : UInt8) :
    telem.sendByte byte = { telem with written := telem.written ++ dCode.stuffByte byte } := by
  rw [Telem.sendByte, if_pos d]
  by_cases start : byte = startStopD
  · have hidden : dCode.stuffByte byte = [0x5D, 0x3E] := by
      rw [start]
      rfl
    rw [if_pos start, hidden, Telem.write, Telem.write, List.append_assoc]
    rfl
  by_cases escape : byte = bytestuffD
  · have hidden : dCode.stuffByte byte = [0x5D, 0x3D] := by
      rw [escape]
      rfl
    rw [if_neg start, if_pos escape, hidden, Telem.write, Telem.write, List.append_assoc]
    rfl
  · have plain : dCode.stuffByte byte = [byte] := if_neg (not_or.mpr ⟨start, escape⟩)
    rw [if_neg start, if_neg escape, plain]
    rfl

/-- The bytes of a frame of S.Port in front of the checksum. -/
def sportBody (id : UInt16) (data : UInt32) : List UInt8 :=
  [0x10, byteOf id.toNat 0, byteOf id.toNat 1, byteOf data.toNat 0, byteOf data.toNat 1,
    byteOf data.toNat 2, byteOf data.toNat 3]

/-- A frame of S.Port. -/
def sportFrame (call : UInt16 × UInt32) : List UInt8 :=
  sportBody call.1 call.2 ++
    [UInt8.ofNat (0xFF - (sportBody call.1 call.2).foldl addCarry 0)]

/-- A frame of the D protocol, behind its start byte. -/
def dFrame (call : UInt16 × UInt16) : List UInt8 :=
  [byteOf call.1.toNat 0, byteOf call.2.toNat 0, byteOf call.2.toNat 1]

/-- Bytes of S.Port are sent one after another. -/
theorem foldl_sendByte_sport (sport : telem.protocol ≠ .d) (small : telem.crc < 2 ^ 8)
    (bytes : List UInt8) : bytes.foldl Telem.sendByte telem =
      ⟨telem.protocol, bytes.foldl addCarry telem.crc,
        telem.written ++ sportCode.stuff bytes⟩ := by
  induction bytes generalizing telem with
  | nil => rw [List.foldl_nil, List.foldl_nil, Code.stuff, List.flatMap_nil, List.append_nil]
  | cons byte bytes inductionHypothesis =>
    have onward := @inductionHypothesis
      ⟨telem.protocol, addCarry telem.crc byte, telem.written ++ sportCode.stuffByte byte⟩ sport
      (addCarry_lt small byte)
    rw [List.foldl_cons, sendByte_sport sport, calcCrc_eq small, onward, stuff_cons,
      List.append_assoc]
    rfl

theorem foldl_sendByte_d (d : telem.protocol = .d) (bytes : List UInt8) :
    bytes.foldl Telem.sendByte telem =
      { telem with written := telem.written ++ dCode.stuff bytes } := by
  induction bytes generalizing telem with
  | nil => rw [List.foldl_nil, Code.stuff, List.flatMap_nil, List.append_nil]
  | cons byte bytes inductionHypothesis =>
    have onward := @inductionHypothesis (telem.sendByte byte)
    rw [sendByte_d d] at onward
    rw [List.foldl_cons, sendByte_d d, onward d, stuff_cons, List.append_assoc]

theorem sendUint32_eq (sport : telem.protocol ≠ .d) (reset : telem.crc = 0) (id : UInt16)
    (data : UInt32) : telem.sendUint32 id data =
      ⟨telem.protocol, 0, telem.written ++ sportCode.stuff (sportFrame (id, data))⟩ := by
  have small : telem.crc < 2 ^ 8 := by
    rw [reset]
    decide
  have body : telem.sendUint32 id data =
      ((sportBody id data).foldl Telem.sendByte telem).sendCrc := by
    simp only [Telem.sendUint32, sportBody, List.foldl_cons, List.foldl_nil]
  have onward : (Telem.mk telem.protocol ((sportBody id data).foldl addCarry telem.crc)
      (telem.written ++ sportCode.stuff (sportBody id data))).protocol ≠ .d := sport
  rw [body, foldl_sendByte_sport sport small, Telem.sendCrc, sendByte_sport onward, sportFrame,
    stuff_append, stuff_singleton, reset, List.append_assoc]

theorem sendUint16_eq (d : telem.protocol = .d) (id data : UInt16) :
    telem.sendUint16 id data =
      { telem with
        written := telem.written ++ startStopD :: dCode.stuff (dFrame (id, data)) } := by
  have body : telem.sendUint16 id data =
      (dFrame (id, data)).foldl Telem.sendByte (telem.write startStopD) := rfl
  have onward : (telem.write startStopD).protocol = .d := d
  rw [body, foldl_sendByte_d onward, Telem.write, List.append_assoc, List.singleton_append]

theorem sendAll32_eq (sport : telem.protocol ≠ .d) (reset : telem.crc = 0)
    (calls : List (UInt16 × UInt32)) : telem.sendAll32 calls =
      ⟨telem.protocol, 0, telem.written ++ sportCode.stuff (calls.flatMap sportFrame)⟩ := by
  induction calls generalizing telem with
  | nil =>
    rw [Telem.sendAll32, List.foldl_nil, List.flatMap_nil, Code.stuff, List.flatMap_nil,
      List.append_nil, ← reset]
  | cons call calls inductionHypothesis =>
    have onward := @inductionHypothesis (telem.sendUint32 call.1 call.2)
    rw [sendUint32_eq sport reset] at onward
    have first : telem.sendAll32 (call :: calls) =
        (telem.sendUint32 call.1 call.2).sendAll32 calls := by
      rw [Telem.sendAll32, List.foldl_cons, Telem.sendAll32]
    rw [first, sendUint32_eq sport reset, onward sport rfl, List.flatMap_cons, stuff_append,
      List.append_assoc]

theorem sendAll16_eq (d : telem.protocol = .d) (calls : List (UInt16 × UInt16)) :
    telem.sendAll16 calls =
      { telem with written := telem.written ++ dCode.stream (calls.map dFrame) } := by
  induction calls generalizing telem with
  | nil =>
    rw [Telem.sendAll16, List.foldl_nil, List.map_nil, Code.stream, List.flatMap_nil,
      List.append_nil]
  | cons call calls inductionHypothesis =>
    have onward := @inductionHypothesis (telem.sendUint16 call.1 call.2)
    rw [sendUint16_eq d] at onward
    have first : telem.sendAll16 (call :: calls) =
        (telem.sendUint16 call.1 call.2).sendAll16 calls := by
      rw [Telem.sendAll16, List.foldl_cons, Telem.sendAll16]
    rw [first, sendUint16_eq d, onward d, List.map_cons, Code.stream, Code.stream,
      List.flatMap_cons, List.append_assoc]
    rfl

/-! ### Receiving -/

theorem number_two {value : ℕ} (small : value < 2 ^ 16) :
    number [byteOf value 0, byteOf value 1] = value := by
  simp only [number, byteOf, UInt8.toNat_ofNat', Nat.shiftRight_eq_div_pow]
  omega

theorem number_four {value : ℕ} (small : value < 2 ^ 32) :
    number [byteOf value 0, byteOf value 1, byteOf value 2, byteOf value 3] = value := by
  simp only [number, byteOf, UInt8.toNat_ofNat', Nat.shiftRight_eq_div_pow]
  omega

theorem readSport_sportFrame (call : UInt16 × UInt32) : readSport (sportFrame call) = call := by
  have id := number_two call.1.toNat_lt
  have data := number_four call.2.toNat_lt
  refine Prod.ext ?_ ?_
  · change UInt16.ofNat (number [byteOf call.1.toNat 0, byteOf call.1.toNat 1]) = call.1
    rw [id, UInt16.ofNat_toNat]
  · change UInt32.ofNat (number [byteOf call.2.toNat 0, byteOf call.2.toNat 1,
      byteOf call.2.toNat 2, byteOf call.2.toNat 3]) = call.2
    rw [data, UInt32.ofNat_toNat]

theorem readD_dFrame (call : UInt16 × UInt16) :
    readD (dFrame call) = (call.1.toUInt8, call.2) := by
  have data := number_two call.2.toNat_lt
  refine Prod.ext ?_ ?_
  · change UInt8.ofNat (call.1.toNat >>> 0) = call.1.toUInt8
    rfl
  · change UInt16.ofNat (number [byteOf call.2.toNat 0, byteOf call.2.toNat 1]) = call.2
    rw [data, UInt16.ofNat_toNat]

theorem eights_frames (calls : List (UInt16 × UInt32)) :
    eights (calls.flatMap sportFrame) = calls.map sportFrame := by
  induction calls with
  | nil => rfl
  | cons call calls inductionHypothesis =>
    rw [List.map_cons, ← inductionHypothesis]
    rfl

theorem sum_sportFrame (call : UInt16 × UInt32) : (sportFrame call).foldl addCarry 0 = 0xFF := by
  have zero : 0 < 2 ^ 8 := by decide
  rw [sportFrame, List.foldl_append]
  exact addCarry_rest (foldl_addCarry_lt zero _)

/-- What was sent with S.Port holds no start byte, and is read in one way. The bytes of each frame
sum up to 0xFF. -/
theorem sport_received {protocol : Protocol} (sport : protocol ≠ .d)
    (calls : List (UInt16 × UInt32)) :
    startStopSport ∉ ((Telem.opened protocol).sendAll32 calls).written ∧
      (eights (sportCode.unstuff ((Telem.opened protocol).sendAll32 calls).written)).map readSport =
        calls ∧
      ∀ frame ∈ eights (sportCode.unstuff ((Telem.opened protocol).sendAll32 calls).written),
        frame.foldl addCarry 0 = 0xFF := by
  have written : ((Telem.opened protocol).sendAll32 calls).written =
      sportCode.stuff (calls.flatMap sportFrame) := by
    have opened : (Telem.opened protocol).protocol ≠ .d := sport
    rw [sendAll32_eq opened rfl]
    rfl
  rw [written, unstuff_stuff, eights_frames]
  refine ⟨start_not_mem_stuff sportCode _, ?_, ?_⟩
  · rw [List.map_map]
    exact List.map_id'' readSport_sportFrame calls
  · intro frame member
    obtain ⟨call, -, rfl⟩ := List.mem_map.mp member
    exact sum_sportFrame call

/-- What was sent with the D protocol holds the start byte only in front of a frame, and is read in
one way, up to the high byte of the number of the sensor. -/
theorem d_received (calls : List (UInt16 × UInt16)) :
    (∀ before after, ((Telem.opened .d).sendAll16 calls).written = before ++ startStopD :: after →
      ∃ count, before = ((Telem.opened .d).sendAll16 (calls.take count)).written) ∧
      ((dCode.parts ((Telem.opened .d).sendAll16 calls).written).map dCode.unstuff).map readD =
        calls.map fun call => (call.1.toUInt8, call.2) := by
  have written : ∀ calls, ((Telem.opened .d).sendAll16 calls).written =
      dCode.stream (calls.map dFrame) := by
    intro calls
    have opened : (Telem.opened .d).protocol = .d := rfl
    rw [sendAll16_eq opened]
    rfl
  constructor
  · intro before after split
    rw [written] at split
    obtain ⟨earlier, frame, later, frames, rfl, -⟩ := stream_eq_append dCode split
    refine ⟨earlier.length, ?_⟩
    rw [written, List.map_take, frames, List.take_left]
  · rw [written, unstuff_parts_stream, List.map_map]
    exact List.map_congr_left fun call _ => readD_dFrame call

/-- What was sent can be read in one way: with S.Port all of it, and with the D protocol all of it
but the high bytes of the numbers of the sensors. -/
theorem frames_received (protocol : Protocol) (sport : protocol ≠ .d)
    (calls : List (UInt16 × UInt32)) (callsD : List (UInt16 × UInt16)) :
    (startStopSport ∉ ((Telem.opened protocol).sendAll32 calls).written ∧
      (eights (sportCode.unstuff ((Telem.opened protocol).sendAll32 calls).written)).map readSport =
        calls ∧
      ∀ frame ∈ eights (sportCode.unstuff ((Telem.opened protocol).sendAll32 calls).written),
        frame.foldl addCarry 0 = 0xFF) ∧
    (∀ before after,
      ((Telem.opened .d).sendAll16 callsD).written = before ++ startStopD :: after →
        ∃ count, before = ((Telem.opened .d).sendAll16 (callsD.take count)).written) ∧
    ((dCode.parts ((Telem.opened .d).sendAll16 callsD).written).map dCode.unstuff).map readD =
      callsD.map fun call => (call.1.toUInt8, call.2) :=
  ⟨sport_received sport calls, d_received callsD⟩

/-- Two frames with S.Port and one with the D protocol, with bytes that are stuffed. -/
theorem frames_received_three :
    (eights (sportCode.unstuff ((Telem.opened .sport).sendAll32
      [(0x5000, 0x7E7D7E7D), (0x5001, 0x7D)]).written)).map readSport =
        [(0x5000, 0x7E7D7E7D), (0x5001, 0x7D)] ∧
    ((dCode.parts ((Telem.opened .d).sendAll16 [(0x10, 0x5E5D)]).written).map dCode.unstuff).map
      readD = [(0x10, 0x5E5D)] :=
  have received := frames_received .sport (by decide)
    [(0x5000, 0x7E7D7E7D), (0x5001, 0x7D)] [(0x10, 0x5E5D)]
  ⟨received.1.2.1, received.2.2⟩

/-- The high byte of the number of a sensor is not sent with the D protocol. -/
theorem d_same_frames :
    ¬ ∀ calls calls' : List (UInt16 × UInt16),
      ((Telem.opened .d).sendAll16 calls).written = ((Telem.opened .d).sendAll16 calls').written →
        calls = calls' := by
  intro unique
  have same : ((Telem.opened .d).sendAll16 [(0x0101, 0)]).written =
      ((Telem.opened .d).sendAll16 [(0x0001, 0)]).written := by decide
  exact absurd (unique _ _ same) (by decide)

/-! ### Velocity and yaw -/

/-- `calc_velandyaw`, from the rounded velocities and the rounded yaw. -/
def calcVelandyaw (vertical : ℤ) (horizontal yaw : ℕ) : ℕ :=
  prepNumber vertical 2 1 ||| prepNumber horizontal 2 1 <<< 9 ||| (yaw % 2 ^ 16 &&& 0x7FF) <<< 17

/-- Whatever is sent, both velocities and the yaw can be read back from each frame. -/
theorem velandyaw_received (calls : List (ℤ × ℕ × ℕ)) :
    List.Forall₂ (fun call frame => frame.1 = 0x5005 ∧
        Faithful .twoOne call.1 (frame.2.toNat % 2 ^ 9) ∧
        Faithful .twoOne call.2.1 (frame.2.toNat / 2 ^ 9 % 2 ^ 8) ∧
        frame.2.toNat / 2 ^ 17 = call.2.2 % 2 ^ 11) calls
      ((eights (sportCode.unstuff ((Telem.opened .sportPassthrough).sendAll32 (calls.map fun call =>
        (0x5005, UInt32.ofNat (calcVelandyaw call.1 call.2.1 call.2.2)))).written)).map
          readSport) := by
  rw [(sport_received (by decide) _).2.1, List.forall₂_map_right_iff, List.forall₂_same]
  rintro ⟨vertical, horizontal, yaw⟩ -
  have first := faithful_twoOne vertical
  have second := faithful_twoOne horizontal
  simp only [calcVelandyaw]
  generalize prepNumber vertical 2 1 = low at *
  generalize prepNumber horizontal 2 1 = middle at *
  have small : low < 2 ^ 9 := first.fits
  -- a horizontal velocity has no sign, so that it ends below the yaw
  have narrow : middle < 2 ^ 8 := by
    by_contra signed
    have fits : middle < 2 ^ 9 := second.fits
    refine (Int.natCast_nonneg horizontal).not_gt (second.negative.mp ?_)
    change middle.testBit 8 = true
    rw [Nat.testBit_eq_decide_div_mod_eq, decide_eq_true_eq]
    omega
  have both : low ||| middle <<< 9 = middle * 2 ^ 9 + low := by rw [Nat.or_comm, or_eq_add _ small]
  rw [both, show 0x7FF = 2 ^ 11 - 1 from rfl, Nat.and_two_pow_sub_one_eq_mod, Nat.or_comm,
    or_eq_add _ (by omega), UInt32.toNat_ofNat_of_lt' (by change _ < 2 ^ 32; omega)]
  refine ⟨trivial, ?_, ?_, by omega⟩
  · rwa [show _ % 2 ^ 9 = low by omega]
  · rwa [show _ % 2 ^ 8 = middle by omega]

end Urus.Frsky
