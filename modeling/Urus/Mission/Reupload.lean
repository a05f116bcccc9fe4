/-
This file compares the two conversions between the mission library and MAVLink. A command
that was uploaded is always sent back when the mission is downloaded, and the item that is
sent is always accepted again. What it is converted to is the command that it was sent
for, with one exception.

The direction of a loiter is the sign of its radius. It is stored as a flag, beside the
radius in whole meters, and comes back as the sign of these meters; a radius that is
stored as zero has no sign. The loiter for a time, which stores no radius, sends a radius
of one meter in the direction of the flag and does not have the problem.
-/

import Urus.Mission.Mavlink

namespace Urus.ApMission

variable {build : Build}

/-! ### Numbers that come back -/

theorem wholePart_intCast (value : Int) : wholePart (value : ℚ) = value := by
  rw [wholePart, Rat.num_intCast, Rat.den_intCast, Nat.cast_one, Int.tdiv_one]

theorem wholePart_natCast (value : Nat) : wholePart (value : ℚ) = value :=
  wholePart_intCast value

theorem uint8_ofInt_toNat (value : UInt8) : UInt8.ofInt (value.toNat : Int) = value := by
  have bound := value.toNat_lt
  have small : ((value.toNat : Int) % 2 ^ 8).toNat = value.toNat := by omega
  rw [UInt8.ofInt, small, UInt8.ofNat_toNat]

@[simp] theorem toUint8_toNat (value : UInt8) : toUint8 (value.toNat : ℚ) = value := by
  rw [toUint8, wholePart_natCast, uint8_ofInt_toNat]

@[simp] theorem toUint16_toNat (value : UInt16) : toUint16 (value.toNat : ℚ) = value := by
  have bound := value.toNat_lt
  have small : ((value.toNat : Int) % 2 ^ 16).toNat = value.toNat := by omega
  rw [toUint16, wholePart_natCast, UInt16.ofInt, small, UInt16.ofNat_toNat]

@[simp] theorem toInt8_toInt (value : Int8) : toInt8 (value.toInt : ℚ) = value := by
  rw [toInt8, wholePart_intCast, Int8.ofInt_toInt]

@[simp] theorem toInt16_toInt (value : Int16) : toInt16 (value.toInt : ℚ) = value := by
  rw [toInt16, wholePart_intCast, Int16.ofInt_toInt]

/-- A byte that is sent in the place of a coordinate. -/
@[simp] theorem uint8_ofInt_int32 (value : UInt8) :
    UInt8.ofInt (Int32.ofNat value.toNat).toInt = value := by
  have bound := value.toNat_lt
  rw [Int32.toInt_ofNat_of_lt (by omega), uint8_ofInt_toNat]

@[simp] theorem flag_pos (value : Bool) : flag value > 0 ↔ value = true := by
  cases value with
  | false => exact iff_of_false (lt_irrefl 0) Bool.false_ne_true
  | true => exact iff_of_true one_pos rfl

/-! ### Bytes of a parameter -/

theorem packBytes_toNat (high low : UInt16) :
    (packBytes high low).toNat = high.toNat % 256 * 256 + low.toNat % 256 := by
  have lowByte : low.toNat &&& 255 = low.toNat % 256 := Nat.and_two_pow_sub_one_eq_mod low.toNat 8
  have highByte : high.toNat <<< 8 % 2 ^ 16 = (high.toNat % 256) <<< 8 := by
    rw [Nat.shiftLeft_eq, Nat.shiftLeft_eq]
    omega
  rw [packBytes, UInt16.toNat_or, UInt16.toNat_shiftLeft, UInt16.toNat_and]
  simp only [UInt16.reduceToNat, Nat.reduceMod]
  rw [highByte, lowByte, ← Nat.shiftLeft_add_eq_or_of_lt (by omega), Nat.shiftLeft_eq]

theorem lowByte_toNat (value : UInt16) : (lowByte value).toNat = value.toNat % 256 :=
  UInt16.toNat_toUInt8 value

theorem highByte_toNat (value : UInt16) : (highByte value).toNat = value.toNat / 256 := by
  have bound := value.toNat_lt
  simp only [highByte, UInt16.toNat_toUInt8, UInt16.toNat_shiftRight, UInt16.reduceToNat,
    Nat.reduceMod, Nat.shiftRight_eq_div_pow]
  omega

theorem packBytes_bytes (value : UInt16) :
    packBytes (highByte value).toUInt16 (lowByte value).toUInt16 = value := by
  have bound := value.toNat_lt
  apply UInt16.toNat_inj.mp
  rw [packBytes_toNat, UInt8.toNat_toUInt16, UInt8.toNat_toUInt16, highByte_toNat, lowByte_toNat]
  omega

theorem toUint16_byte (value : UInt8) : toUint16 (value.toNat : ℚ) = value.toUInt16 := by
  rw [← UInt8.toNat_toUInt16 value]
  exact toUint16_toNat value.toUInt16

theorem min_byte (value : UInt8) : min 0xFF value.toUInt16 = value.toUInt16 := by
  have bound := value.toNat_lt
  show (if 0xFF ≤ value.toUInt16 then 0xFF else value.toUInt16) = value.toUInt16
  split
  · rename_i large
    have large : 255 ≤ value.toUInt16.toNat := large
    rw [UInt8.toNat_toUInt16] at large
    apply UInt16.toNat_inj.mp
    rw [UInt8.toNat_toUInt16]
    exact le_antisymm large (Nat.le_of_lt_succ bound)
  · rfl

/-! ### Radius and direction -/

section Direction

variable {ccw : Prop} [Decidable ccw] (radius : Nat)

/-- A radius that is sent with its direction comes back as it is. -/
theorem abs_radius : |if ccw then -(radius : ℚ) else radius| = radius := by
  split
  · rw [abs_neg, abs_of_nonneg (Nat.cast_nonneg radius)]
  · exact abs_of_nonneg (Nat.cast_nonneg radius)

theorem radius_negative : (if ccw then -(radius : ℚ) else radius) < 0 ↔ ccw ∧ radius ≠ 0 := by
  split
  · rw [neg_lt_zero, Nat.cast_pos, Nat.pos_iff_ne_zero]
    exact (and_iff_right (by assumption)).symm
  · refine iff_of_false (not_lt.mpr (Nat.cast_nonneg radius)) fun sent => ?_
    exact absurd sent.1 (by assumption)

/-- A direction that is sent without a radius comes back. -/
theorem direction_negative : (if ccw then (-1 : ℚ) else 1) < 0 ↔ ccw := by
  split
  · exact iff_of_true (neg_lt_zero.mpr one_pos) (by assumption)
  · exact iff_of_false (not_lt.mpr zero_le_one) (by assumption)

end Direction

theorem direction_back {ccw : Prop} (radius : Nat) :
    (ccw ∧ radius ≠ 0 ↔ ccw) ↔ ¬ (ccw ∧ radius = 0) := by
  rw [and_iff_left_iff_imp, not_and]

theorem toUint16_eq_zero (value : ℚ) : (toUint16 value).toNat = 0 ↔ 2 ^ 16 ∣ wholePart value := by
  rw [toUint16, UInt16.ofInt, UInt16.toNat_ofNat']
  omega

theorem toUint16_byte_eq_zero (value : ℚ) :
    (toUint16 value).toNat % 256 = 0 ↔ 2 ^ 8 ∣ wholePart value := by
  rw [toUint16, UInt16.ofInt, UInt16.toNat_ofNat']
  omega

/-- The items whose direction is lost: counterclockwise loiters whose radius is stored as zero
meters. The loiter for a number of turns keeps the low byte of its radius. -/
def MavCmd.LosesDirection (packet : MissionItemInt) : MavCmd → Prop
  | .navLoiterUnlim => packet.param3 < 0 ∧ 2 ^ 16 ∣ wholePart |packet.param3|
  | .navLoiterTurns => packet.param3 < 0 ∧ 2 ^ 8 ∣ wholePart |packet.param3|
  | .navLoiterToAlt => packet.param2 < 0 ∧ 2 ^ 16 ∣ wholePart |packet.param2|
  | _ => False

/-! ### Parameters that come back -/

variable (packet blank : MissionItemInt)

section Params

attribute [local simp] readParams writeParams

theorem readParams_navWaypoint :
    readParams build (writeParams build blank (readParams build packet .navWaypoint).1 .navWaypoint
      (readParams build packet .navWaypoint).2) .navWaypoint =
      readParams build packet .navWaypoint := by
  cases plane : build.plane with
  | false => simp [plane]
  | true =>
    simp only [readParams, writeParams, plane, if_true, toUint16_byte, min_byte, packBytes_bytes]

theorem writeParams_navLoiterUnlim (p1 : UInt16) (location : Location) :
    (writeParams build blank p1 .navLoiterUnlim location).param3 =
      if location.loiterCcw then -(p1.toNat : ℚ) else p1.toNat := by
  cases ccw : location.loiterCcw <;> simp [ccw]

theorem readParams_navLoiterUnlim :
    readParams build (writeParams build blank (readParams build packet .navLoiterUnlim).1
      .navLoiterUnlim (readParams build packet .navLoiterUnlim).2) .navLoiterUnlim =
      readParams build packet .navLoiterUnlim ↔
        ¬ MavCmd.LosesDirection packet .navLoiterUnlim := by
  rw [MavCmd.LosesDirection, ← toUint16_eq_zero, ← direction_back]
  simp only [readParams, writeParams_navLoiterUnlim, abs_radius, toUint16_toNat, Prod.mk.injEq,
    Location.mk.injEq, true_and, and_true, decide_eq_decide, radius_negative, decide_eq_true_iff]

theorem writeParams_navLoiterTurns (p1 : UInt16) (location : Location) :
    (writeParams build blank p1 .navLoiterTurns location).param1 = (lowByte p1).toNat ∧
      (writeParams build blank p1 .navLoiterTurns location).param3 =
        (if location.loiterCcw then -((highByte p1).toNat : ℚ) else (highByte p1).toNat) ∧
      (writeParams build blank p1 .navLoiterTurns location).param4 =
        flag location.loiterXtrack := by
  cases ccw : location.loiterCcw <;> simp [ccw]

theorem readParams_navLoiterTurns :
    readParams build (writeParams build blank (readParams build packet .navLoiterTurns).1
      .navLoiterTurns (readParams build packet .navLoiterTurns).2) .navLoiterTurns =
      readParams build packet .navLoiterTurns ↔
        ¬ MavCmd.LosesDirection packet .navLoiterTurns := by
  have radius : (toUint16 |packet.param3|).toNat % 256 =
      (highByte (packBytes (toUint16 |packet.param3|) (toUint16 packet.param1))).toNat := by
    rw [highByte_toNat, packBytes_toNat]
    omega
  obtain ⟨turns, meters, xtrack⟩ := @writeParams_navLoiterTurns build blank
    (readParams build packet .navLoiterTurns).1 (readParams build packet .navLoiterTurns).2
  rw [MavCmd.LosesDirection, ← toUint16_byte_eq_zero, radius, ← direction_back]
  rw [readParams, turns, meters, xtrack]
  simp only [readParams, abs_radius, toUint16_byte, packBytes_bytes, Prod.mk.injEq,
    Location.mk.injEq, true_and, and_true, decide_eq_decide, radius_negative, flag_pos,
    decide_eq_true_iff]

theorem writeParams_navLoiterToAlt (p1 : UInt16) (location : Location) :
    (writeParams build blank p1 .navLoiterToAlt location).param2 =
        (if location.loiterCcw then -(p1.toNat : ℚ) else p1.toNat) ∧
      (writeParams build blank p1 .navLoiterToAlt location).param4 =
        flag location.loiterXtrack := by
  cases ccw : location.loiterCcw <;> simp [ccw]

end Params

theorem readParams_navLoiterToAlt :
    readParams build (writeParams build blank (readParams build packet .navLoiterToAlt).1
      .navLoiterToAlt (readParams build packet .navLoiterToAlt).2) .navLoiterToAlt =
      readParams build packet .navLoiterToAlt ↔
        ¬ MavCmd.LosesDirection packet .navLoiterToAlt := by
  rw [MavCmd.LosesDirection, ← toUint16_eq_zero, ← direction_back]
  simp only [readParams, writeParams_navLoiterToAlt, abs_radius, toUint16_toNat, Prod.mk.injEq,
    Location.mk.injEq, true_and, and_true, decide_eq_decide, radius_negative, flag_pos,
    decide_eq_true_iff]

theorem readParams_writeParams (id : MavCmd) :
    readParams build (writeParams build blank (readParams build packet id).1 id
      (readParams build packet id).2) id = readParams build packet id ↔
      ¬ id.LosesDirection packet := by
  cases id with
  | navWaypoint => simp [readParams_navWaypoint, MavCmd.LosesDirection]
  | navLoiterUnlim => exact readParams_navLoiterUnlim packet blank
  | navLoiterTurns => exact readParams_navLoiterTurns packet blank
  | navLoiterToAlt => exact readParams_navLoiterToAlt packet blank
  | navLoiterTime =>
    simp only [readParams, writeParams, toUint16_toNat, direction_negative, flag_pos,
      decide_eq_true_iff, MavCmd.LosesDirection, not_false_eq_true]
  | navLand =>
    have counterclockwise : isNegative (-1) = true := by decide +kernel
    have clockwise : isNegative 1 = false := by decide +kernel
    cases direction : isNegative packet.param4 <;>
      simp [readParams, writeParams, direction, clockwise, counterclockwise, MavCmd.LosesDirection]
  | doDigicamConfigure =>
    simp only [readParams, writeParams, toUint8_toNat, toUint16_toNat, uint8_ofInt_int32,
      MavCmd.LosesDirection, not_false_eq_true]
  | doDigicamControl =>
    simp only [readParams, writeParams, toUint8_toNat, toInt8_toInt, uint8_ofInt_int32,
      MavCmd.LosesDirection, not_false_eq_true]
  | _ => simp [readParams, writeParams, MavCmd.LosesDirection]

/-! ### Positions that come back -/

/-- Cutting off the fraction does not enlarge a number. -/
theorem natAbs_wholePart_le (value : ℚ) : ((wholePart value).natAbs : ℚ) ≤ |value| := by
  have size : |value| = (value.num.natAbs : ℚ) / value.den := by
    rw [Rat.abs_def, Rat.divInt_eq_div, Int.cast_natCast, Int.cast_natCast]
  rw [wholePart, Int.natAbs_tdiv, Int.natAbs_natCast, size]
  exact Nat.cast_div_le

theorem toInt24_of_small {value : ℚ} (small : |value| < 8300000) :
    toInt24 value = wholePart value ∧ (wholePart value).natAbs < 8300000 := by
  have bound : (wholePart value).natAbs < 8300000 := by
    have below := lt_of_le_of_lt (natAbs_wholePart_le value) small
    exact_mod_cast below
  exact ⟨Int.bmod_eq_of_le (by omega) (by omega), bound⟩

/-- The altitude of an accepted item, in centimeters and back in meters: it is accepted again, and
stored as the same number of centimeters. -/
theorem altitude_back {z : ℚ} (accepted : ¬ |z| ≥ locationAltMaxM) :
    ¬ |((toInt24 (z * 100) : Int) : ℚ) / 100| ≥ locationAltMaxM ∧
      toInt24 ((toInt24 (z * 100) : Int) : ℚ) = toInt24 (z * 100) := by
  have small : |z * 100| < 8300000 := by
    rw [abs_mul, abs_of_pos (by norm_num : (0 : ℚ) < 100)]
    have meters : |z| < 83000 := not_le.mp accepted
    linarith
  obtain ⟨whole, bound⟩ := toInt24_of_small small
  rw [whole]
  have size : |((wholePart (z * 100) : Int) : ℚ)| < 8300000 := by
    rw [← Int.cast_abs, Int.abs_eq_natAbs]
    exact_mod_cast bound
  constructor
  · rw [abs_div, abs_of_pos (by norm_num : (0 : ℚ) < 100), not_le, locationAltMaxM,
      div_lt_iff₀ (by norm_num)]
    linarith
  · rw [(toInt24_of_small size).1, wholePart_intCast]

variable {location placed : Location} {member : Member} {id : MavCmd}

/-- What copying the position does to a location. -/
theorem copyLocation_ok (off : location.terrainAlt = false)
    (copied : copyLocation build packet location = .ok placed) :
    checkLat packet.x = true ∧ checkLng packet.y = true ∧ ¬ |packet.z| ≥ locationAltMaxM ∧
      ∃ relative terrain, (terrain = true → relative = true ∧ build.terrain = true) ∧
        placed = { location with
          relativeAlt := relative
          terrainAlt := terrain
          alt := toInt24 (packet.z * 100)
          lat := packet.x
          lng := packet.y } := by
  unfold copyLocation at copied
  split at copied
  · exact nomatch copied
  · split at copied
    · exact nomatch copied
    · split at copied
      · exact nomatch copied
      · rename_i lat lng alt
        rw [Bool.not_eq_true', Bool.not_eq_false] at lat lng
        refine ⟨lat, lng, alt, ?_⟩
        dsimp only at copied
        split at copied
        · exact ⟨false, false, nofun, by rw [← Except.ok.inj copied, off]⟩
        · split at copied
          · exact ⟨true, false, nofun, by rw [← Except.ok.inj copied, off]⟩
          · split at copied
            · rename_i terrain
              exact ⟨true, true, fun _ => ⟨rfl, terrain.1⟩, (Except.ok.inj copied).symm⟩
            · exact nomatch copied

/-- An item with another position. -/
def MissionItemInt.moved (item : MissionItemInt) (x y : Int32) (z : ℚ) (frame : UInt8) :
    MissionItemInt := { item with x := x, y := y, z := z, frame := frame }

theorem copyLocation_sent (off : location.terrainAlt = false)
    (copied : copyLocation build packet location = .ok placed) :
    ∃ x y z frame, sendLocation build placed blank = some (blank.moved x y z frame) ∧
      copyLocation build (blank.moved x y z frame) location = .ok placed := by
  obtain ⟨lat, lng, alt, relative, terrain, consistent, rfl⟩ := copyLocation_ok packet off copied
  obtain ⟨altSent, altBack⟩ := altitude_back alt
  cases terrain with
  | false =>
    refine ⟨packet.x, packet.y, ((toInt24 (packet.z * 100) : Int) : ℚ) / 100, _, rfl, ?_⟩
    cases relative with
    | false =>
      simp [copyLocation, MissionItemInt.moved, lat, lng, altSent, altBack, off]
    | true =>
      simp [copyLocation, MissionItemInt.moved, lat, lng, altSent, altBack, off,
        frameGlobalRelativeAlt, frameMission, frameGlobal]
  | true =>
    obtain ⟨rfl, available⟩ := consistent rfl
    refine ⟨packet.x, packet.y, ((toInt24 (packet.z * 100) : Int) : ℚ) * (1 / 100),
      frameGlobalTerrainAlt, ?_, ?_⟩
    · simp [sendLocation, MissionItemInt.moved, available]
    · rw [← div_eq_mul_one_div]
      simp [copyLocation, MissionItemInt.moved, lat, lng, altSent, altBack, available,
        frameGlobalTerrainAlt, frameGlobalRelativeAlt, frameMission, frameGlobal]

/-! ### Commands that come back -/

/-- A content without its position: what the parameters alone decide. -/
def Member.unplaced : (member : Member) → member.Content → member.Content
  | .location, place => { place with
    relativeAlt := false
    terrainAlt := false
    alt := 0
    lat := 0
    lng := 0 }
  | _, content => content

theorem readParams_unplaced (id : MavCmd) :
    id.member.unplaced (readParams build packet id).2 = (readParams build packet id).2 := by
  cases id with
  | navWaypoint =>
    cases plane : build.plane <;> simp [readParams, plane, Member.unplaced, zeroedLocation]
  | _ => rfl

/-- The position of a location does not show in the parameters that are sent. -/
theorem writeParams_unplaced (p1 : UInt16) (id : MavCmd) (content : id.member.Content) :
    writeParams build blank p1 id (id.member.unplaced content) =
      writeParams build blank p1 id content := by
  cases id <;> rfl

theorem copyContent_unplaced {content placed : member.Content}
    (clear : member.unplaced content = content)
    (copied : copyContent build packet member content = .ok placed) :
    member.unplaced placed = content := by
  cases member with
  | location =>
    have off : content.terrainAlt = false := by
      rw [← clear]
      rfl
    obtain ⟨-, -, -, relative, terrain, -, rfl⟩ := copyLocation_ok packet off copied
    exact clear
  | _ => rw [← Except.ok.inj copied, clear]

theorem readParams_moved (uses : id.member = .location) (x y : Int32) (z : ℚ) (frame : UInt8) :
    readParams build (blank.moved x y z frame) id = readParams build blank id := by
  cases id <;> first | rfl | exact nomatch uses

theorem copyContent_sent {content placed : member.Content}
    (clear : member.unplaced content = content)
    (copied : copyContent build packet member content = .ok placed) :
    ∃ sent, sendContent build blank member placed = some sent ∧
      (sent = blank ∨ member = .location ∧ ∃ x y z frame, sent = blank.moved x y z frame) ∧
      copyContent build sent member content = .ok placed := by
  cases member with
  | location =>
    have off : content.terrainAlt = false := by
      rw [← clear]
      rfl
    obtain ⟨x, y, z, frame, sent, back⟩ := copyLocation_sent packet blank off copied
    exact ⟨_, sent, Or.inr ⟨rfl, x, y, z, frame, rfl⟩, back⟩
  | _ => exact ⟨blank, rfl, Or.inl rfl, copied⟩

/-- The conversion of an item with the identifier of a command. -/
theorem mavlinkIntToMissionCmd_of_id (named : packet.command = id.id) :
    mavlinkIntToMissionCmd build packet =
      (copyContent build packet id.member (readParams build packet id).2).map
        fun content => ⟨packet.seq, id, (readParams build packet id).1, content⟩ := by
  rw [mavlinkIntToMissionCmd, named, if_neg id.id_ne_zero, MavCmd.ofId_id]
  dsimp only
  cases copyContent build packet id.member (readParams build packet id).2 <;> rfl

/-- What an accepted item is converted to. -/
theorem mavlinkIntToMissionCmd_ok {cmd : Command}
    (accepted : mavlinkIntToMissionCmd build packet = .ok cmd) :
    ∃ id placed, packet.command = id.id ∧
      copyContent build packet id.member (readParams build packet id).2 = .ok placed ∧
      cmd = ⟨packet.seq, id, (readParams build packet id).1, placed⟩ := by
  have known : ∃ id, MavCmd.ofId packet.command = some id := by
    by_contra unknown
    rw [not_exists] at unknown
    rw [mavlinkIntToMissionCmd, Option.eq_none_iff_forall_ne_some.mpr unknown] at accepted
    split at accepted <;> exact nomatch accepted
  obtain ⟨id, found⟩ := known
  have named : packet.command = id.id := by
    have same := List.find?_some found
    rw [beq_iff_eq] at same
    exact same.symm
  rw [mavlinkIntToMissionCmd_of_id packet named] at accepted
  cases copied : copyContent build packet id.member (readParams build packet id).2 with
  | error result =>
    rw [copied] at accepted
    exact nomatch accepted
  | ok placed =>
    rw [copied] at accepted
    exact ⟨id, placed, named, copied, (Except.ok.inj accepted).symm⟩

/-- The parameters do not touch the number and the identifier of an item. -/
theorem writeParams_header (p1 : UInt16) (id : MavCmd) (content : id.member.Content) :
    (writeParams build blank p1 id content).seq = blank.seq ∧
      (writeParams build blank p1 id content).command = blank.command := by
  cases id with
  | navWaypoint => cases plane : build.plane <;> simp [writeParams, plane]
  | navLoiterUnlim => cases ccw : content.loiterCcw <;> simp [writeParams, ccw]
  | navLoiterTurns => cases ccw : content.loiterCcw <;> simp [writeParams, ccw]
  | navLoiterToAlt => cases ccw : content.loiterCcw <;> simp [writeParams, ccw]
  | _ => exact ⟨rfl, rfl⟩

/-- The item that is sent for a command that was uploaded: it has the number and the identifier of
the command and its parameters, and its position is copied to the content of the command. -/
theorem missionCmdToMavlinkInt_sent {placed : id.member.Content}
    (copied : copyContent build packet id.member (readParams build packet id).2 = .ok placed) :
    ∃ sent, missionCmdToMavlinkInt build
        ⟨packet.seq, id, (readParams build packet id).1, placed⟩ blank = some sent ∧
      sent.seq = packet.seq ∧ sent.command = id.id ∧
      (readParams build sent id = readParams build packet id ↔ ¬ id.LosesDirection packet) ∧
      copyContent build sent id.member (readParams build packet id).2 = .ok placed := by
  have clear := @readParams_unplaced build packet id
  obtain ⟨base, written⟩ : ∃ base : MissionItemInt, base = { blank with
    seq := packet.seq
    command := id.id
    current := 0
    param1 := 0
    param2 := 0
    param3 := 0
    param4 := 0
    autocontinue := 1 } := ⟨_, rfl⟩
  obtain ⟨seq, command⟩ := @writeParams_header build base (readParams build packet id).1 id placed
  obtain ⟨sent, isSent, moved, back⟩ := copyContent_sent packet
    (writeParams build base (readParams build packet id).1 id placed) clear copied
  have read : readParams build sent id = readParams build
      (writeParams build base (readParams build packet id).1 id (readParams build packet id).2)
      id := by
    rw [← copyContent_unplaced packet clear copied, writeParams_unplaced]
    obtain rfl | ⟨uses, x, y, z, frame, rfl⟩ := moved
    · rfl
    · exact readParams_moved _ uses x y z frame
  have header : sent.seq = base.seq ∧ sent.command = base.command := by
    obtain rfl | ⟨-, x, y, z, frame, rfl⟩ := moved
    · exact ⟨seq, command⟩
    · exact ⟨seq, command⟩
  refine ⟨sent, ?_, ?_, ?_, ?_, back⟩
  · rw [missionCmdToMavlinkInt, ← written]
    exact isSent
  · rw [header.1, written]
  · rw [header.2, written]
  · rw [read]
    exact readParams_writeParams packet base id

/-- The items that are not the same when they are downloaded. -/
def LosesDirection : Prop := ∃ id : MavCmd, packet.command = id.id ∧ id.LosesDirection packet

/-- Downloading and uploading a mission again: what is sent for an uploaded command is accepted
and converted to the same command, exactly unless the item was a counterclockwise loiter with a
radius that is stored as zero. -/
theorem reupload_keeps_command_iff {cmd : Command}
    (accepted : mavlinkIntToMissionCmd build packet = .ok cmd) :
    (∃ sent, missionCmdToMavlinkInt build cmd blank = some sent ∧
      mavlinkIntToMissionCmd build sent = .ok cmd) ↔ ¬ LosesDirection packet := by
  obtain ⟨id, placed, named, copied, rfl⟩ := mavlinkIntToMissionCmd_ok packet accepted
  obtain ⟨sent, isSent, seq, command, params, back⟩ :=
    missionCmdToMavlinkInt_sent packet blank copied
  have losing : LosesDirection packet ↔ id.LosesDirection packet := by
    constructor
    · rintro ⟨other, same, loses⟩
      rw [MavCmd.id_injective (named.symm.trans same)]
      exact loses
    · exact fun loses => ⟨id, named, loses⟩
  rw [losing, ← params]
  constructor
  · rintro ⟨other, isOther, again⟩
    obtain rfl : sent = other := Option.some.inj (isSent.symm.trans isOther)
    obtain ⟨id', placed', named', copied', same⟩ := mavlinkIntToMissionCmd_ok sent again
    obtain rfl : id = id' := MavCmd.id_injective (command.symm.trans named')
    rw [Command.mk.injEq] at same
    obtain ⟨-, -, p1, content⟩ := same
    obtain rfl := eq_of_heq content
    refine Prod.ext p1.symm ?_
    rw [← copyContent_unplaced sent (readParams_unplaced sent id) copied',
      copyContent_unplaced packet (readParams_unplaced packet id) copied]
  · intro same
    refine ⟨sent, isSent, ?_⟩
    rw [mavlinkIntToMissionCmd_of_id sent command, same, back, seq]
    rfl

/-- An item of an upload, at home and at sea level, with its parameters. -/
def itemOf (id : MavCmd) (param1 param2 param3 param4 : ℚ) : MissionItemInt where
  param1 := param1
  param2 := param2
  param3 := param3
  param4 := param4
  x := -353632610
  y := 1491652300
  z := 584
  seq := 1
  command := id.id
  frame := frameGlobalRelativeAlt
  current := 0
  autocontinue := 1

/-- What the upload of an item stores. -/
def uploadedLoiter (ccw : Bool) : Command where
  index := 1
  id := .navLoiterUnlim
  p1 := 0
  content := ⟨true, ccw, false, false, false, 58400, -353632610, 1491652300⟩

/-- A loiter to the left, with a radius of half a meter, comes back as a loiter to the right. -/
theorem reupload_turns_loiter :
    ∃ sent, mavlinkIntToMissionCmd ⟨false, true⟩ (itemOf .navLoiterUnlim 0 0 (-1 / 2) 0) =
        .ok (uploadedLoiter true) ∧
      missionCmdToMavlinkInt ⟨false, true⟩ (uploadedLoiter true) (itemOf .navLoiterUnlim 0 0 0 0) =
        some sent ∧
      mavlinkIntToMissionCmd ⟨false, true⟩ sent = .ok (uploadedLoiter false) ∧
      uploadedLoiter false ≠ uploadedLoiter true :=
  ⟨itemOf .navLoiterUnlim 0 0 0 0, by decide +kernel, by decide +kernel, by decide +kernel,
    by decide +kernel⟩

/-- A loiter with a radius of forty meters comes back as it is. -/
theorem reupload_keeps_command_loiter :
    ∃ cmd sent, mavlinkIntToMissionCmd ⟨false, true⟩ (itemOf .navLoiterTurns 3 0 (-40) 1) =
        .ok cmd ∧
      missionCmdToMavlinkInt ⟨false, true⟩ cmd (itemOf .navLoiterTurns 0 0 0 0) = some sent ∧
      mavlinkIntToMissionCmd ⟨false, true⟩ sent = .ok cmd := by
  have kept : ¬ LosesDirection (itemOf .navLoiterTurns 3 0 (-40) 1) := by
    rintro ⟨id, same, loses⟩
    obtain rfl : .navLoiterTurns = id := MavCmd.id_injective same
    exact absurd loses.2 (by decide +kernel)
  obtain ⟨cmd, accepted⟩ : ∃ cmd, mavlinkIntToMissionCmd ⟨false, true⟩
      (itemOf .navLoiterTurns 3 0 (-40) 1) = .ok cmd := ⟨_, rfl⟩
  obtain ⟨sent, isSent, again⟩ := (reupload_keeps_command_iff _
    (itemOf .navLoiterTurns 0 0 0 0) accepted).mpr kept
  exact ⟨cmd, sent, accepted, isSent, again⟩

end Urus.ApMission
