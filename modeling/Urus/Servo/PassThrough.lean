/-
This file models manual pass-through. A pulse from the receiver is scaled without a dead zone and the
scaled value is turned back into a pulse for a servo.

If the servo has the end points, the trim, the type, the direction and the high value of the channel,
what comes out is what went in, up to the length of one step of the scaled value. The end points and,
for angles, the trim are met exactly.
-/

import Urus.Servo.Scaling

namespace Urus.Servo

open MachineInt

/-! ### The code -/

section Code

variable (store : Store)

/-- The scaled value in `set_pwm_no_deadzone`. -/
def RcChannel.controlNoDeadzone (channel : RcChannel) : Option ℤ :=
  match channel.typeIn with
  | .range => channel.pwmToRangeDz store 0
  | .angle => channel.pwmToAngleDz store 0

/-- `set_pwm_no_deadzone`. The result is the channel with its new `radio_in`, and `control_in`. -/
def RcChannel.setPwmNoDeadzone (channel : RcChannel) (pwm : Int16) : Option (RcChannel × Int16) := do
  let controlIn ← { channel with radioIn := pwm }.controlNoDeadzone store
  some ({ channel with radioIn := pwm }, Int16.ofInt controlIn)

/-- `pwm_from_range` or `pwm_from_angle`. -/
def Scale.pwmFrom (scale : Scale) (type : TypeIn) (scaledValue : Int16) : Option ℤ :=
  match type with
  | .range => scale.pwmFromRange store scaledValue
  | .angle => scale.pwmFromAngle store scaledValue

/-- A pulse that is passed through. -/
def passThrough (channel : RcChannel) (scale : Scale) (pwm : Int16) : Option ℤ := do
  let (channel, controlIn) ← channel.setPwmNoDeadzone store pwm
  scale.pwmFrom store channel.typeIn controlIn

end Code

theorem passThrough_sound (channel : RcChannel) (scale : Scale) (pwm : Int16) :
    Sound fun store => passThrough store channel scale pwm := by
  have input : Sound fun store => { channel with radioIn := pwm }.controlNoDeadzone store := by
    simp only [RcChannel.controlNoDeadzone]
    cases channel.typeIn with
    | range => exact pwmToRangeDz_sound _ _
    | angle => exact pwmToAngleDzTrim_sound _ _ _
  refine sound_bind (sound_bind input fun _ => sound_const _) fun both => ?_
  simp only [Scale.pwmFrom]
  cases both.1.typeIn with
  | range => exact pwmFromRange_sound _ _
  | angle => exact pwmFromAngle_sound _ _

/-! ### There and back -/

section RoundTrip

variable {amount travel whole : ℤ}

theorem partOf_round (left : 0 ≤ amount) (right : 0 ≤ travel) (positive : 0 < whole) :
    partOf amount travel whole * whole ≤ amount * travel ∧
      amount * travel < (partOf amount travel whole + 1) * whole := by
  have same : partOf amount travel whole = amount * travel / whole :=
    Int.tdiv_eq_ediv_of_nonneg (mul_nonneg left right)
  rw [same]
  exact ⟨Int.ediv_mul_le _ positive.ne', Int.lt_ediv_add_one_mul_self _ positive⟩

theorem partOf_zero : partOf 0 travel whole = 0 := by
  rw [partOf, zero_mul, Int.zero_tdiv]

theorem partOf_whole (positive : 0 < whole) : partOf whole travel whole = travel :=
  Int.mul_tdiv_cancel_left travel positive.ne'

variable {place length high : ℤ}

/-- A place is scaled to a value, and the value is scaled back. -/
theorem partOf_back (low : 0 ≤ place) (short : 0 < length) (positive : 0 < high) :
    partOf (partOf high place length) length high ≤ place ∧
      high * (place - partOf (partOf high place length) length high) < length + high := by
  obtain ⟨down, up⟩ := partOf_round positive.le low short
  have nonneg := partOf_nonneg positive.le low short
  obtain ⟨down', up'⟩ := partOf_round nonneg short.le positive
  constructor
  · have whole : partOf (partOf high place length) length high * high ≤ place * high :=
      down'.trans (down.trans_eq (mul_comm _ _))
    exact le_of_mul_le_mul_right whole positive
  · linarith

/-- The value of a place, taken from the other end, is scaled back. -/
theorem partOf_back_reversed (least : 0 ≤ place) (most : place ≤ length) (short : 0 < length)
    (positive : 0 < high) :
    place ≤ partOf (high - partOf high (length - place) length) length high ∧
      high * (partOf (high - partOf high (length - place) length) length high - place) <
        length + high := by
  obtain ⟨down, up⟩ := partOf_round positive.le (sub_nonneg.mpr most) short
  have less : partOf high (length - place) length ≤ high := by
    rw [partOf_comm]
    exact partOf_le (by omega) positive.le short
  obtain ⟨down', up'⟩ := partOf_round (sub_nonneg.mpr less) short.le positive
  constructor
  · have whole : place * high <
        (partOf (high - partOf high (length - place) length) length high + 1) * high := by
      linarith
    exact Int.lt_add_one_iff.mp (lt_of_mul_lt_mul_right whole positive.le)
  · linarith

/-- A place comes back up to a step, and the ends exactly. -/
structure Returns (high length place back : ℤ) : Prop where
  close : high * |back - place| < length + high
  ends : place = 0 ∨ place = length → back = place

theorem returns_straight (least : 0 ≤ place) (short : 0 < length) (positive : 0 < high) :
    Returns high length place (partOf (partOf high place length) length high) := by
  obtain ⟨less, close⟩ := partOf_back least short positive
  refine ⟨?_, ?_⟩
  · rwa [abs_sub_comm, abs_of_nonneg (sub_nonneg.mpr less)]
  · rintro (rfl | rfl)
    · rw [partOf_comm high, partOf_zero, partOf_zero]
    · rw [partOf_comm high, partOf_whole short, partOf_whole positive]

theorem returns_reversed (least : 0 ≤ place) (most : place ≤ length) (short : 0 < length)
    (positive : 0 < high) :
    Returns high length place (partOf (high - partOf high (length - place) length) length high) := by
  obtain ⟨less, close⟩ := partOf_back_reversed least most short positive
  refine ⟨?_, ?_⟩
  · rwa [abs_of_nonneg (sub_nonneg.mpr less)]
  · rintro (rfl | rfl)
    · rw [sub_zero, partOf_comm high, partOf_whole short, sub_self, partOf_zero]
    · rw [sub_self, partOf_comm high, partOf_zero, sub_zero, partOf_whole positive]

end RoundTrip

/-! ### Pass-through -/

section PassThrough

/-- A servo with the settings of a channel, and its ends and its trim in order. -/
structure Matching (channel : RcChannel) (scale : Scale) : Prop where
  least : 800 ≤ channel.radioMin.toInt
  below : channel.radioMin.toInt < channel.radioTrim.toInt
  above : channel.radioTrim.toInt < channel.radioMax.toInt
  most : channel.radioMax.toInt ≤ 2200
  positive : 1 ≤ channel.highIn.toInt
  small : channel.highIn.toInt ≤ 9000
  sameMin : scale.servoMin = channel.radioMin
  sameMax : scale.servoMax = channel.radioMax
  sameTrim : scale.servoTrim = channel.radioTrim
  sameReversed : scale.reversed = channel.reversed
  sameHigh : (scale.highOut.toNat : ℤ) = channel.highIn.toInt

variable {channel : RcChannel} {scale : Scale}

theorem Matching.goodChannel (same : Matching channel scale) : channel.Good := by
  obtain ⟨least, below, above, most, positive, small, -⟩ := same
  exact ⟨⟨by omega, below.le, above.le, most⟩, positive, small⟩

theorem Matching.goodScale (same : Matching channel scale) : scale.Good := by
  obtain ⟨least, below, above, most, positive, small, sameMin, sameMax, sameTrim, -, sameHigh⟩ := same
  refine ⟨?_, by omega, by omega⟩
  rw [sameMin, sameMax, sameTrim]
  exact ⟨by omega, below.le, above.le, most⟩

/-- A pulse that differs from another by at most the length of one step. -/
def WithinStep (channel : RcChannel) (pwm output : ℤ) : Prop :=
  |output - pwm| ≤
    ⌈((channel.radioMax.toInt - channel.radioMin.toInt : ℤ) : ℚ) / channel.highIn.toInt⌉

/-- What a pulse has to come out as. -/
structure Faithful (channel : RcChannel) (pwm output : ℤ) : Prop where
  close : WithinStep channel pwm output
  low : pwm = channel.radioMin.toInt → output = pwm
  high : pwm = channel.radioMax.toInt → output = pwm
  trim : channel.typeIn = .angle → pwm = channel.radioTrim.toInt → output = pwm

theorem withinStep_of_less (positive : 1 ≤ channel.highIn.toInt) {pwm output length : ℤ}
    (short : length ≤ channel.radioMax.toInt - channel.radioMin.toInt)
    (less : channel.highIn.toInt * |output - pwm| < length + channel.highIn.toInt) :
    WithinStep channel pwm output := by
  have whole : (0 : ℚ) < channel.highIn.toInt := by
    exact_mod_cast (by omega : 0 < channel.highIn.toInt)
  have below : |output - pwm| - 1 <
      ⌈((channel.radioMax.toInt - channel.radioMin.toInt : ℤ) : ℚ) / channel.highIn.toInt⌉ := by
    rw [Int.lt_ceil, lt_div_iff₀ whole]
    exact_mod_cast (by linarith :
      (|output - pwm| - 1) * channel.highIn.toInt < channel.radioMax.toInt - channel.radioMin.toInt)
  exact Int.sub_one_lt_iff.mp below

theorem rangeValue_zone {rIn : ℤ} (low : channel.radioMin.toInt ≤ rIn) :
    channel.rangeValue 0 rIn = partOf channel.highIn.toInt (rIn - channel.radioMin.toInt)
      (channel.radioMax.toInt - channel.radioMin.toInt) := by
  rw [RcChannel.rangeValue, add_zero]
  split
  · rfl
  · have atLow : rIn - channel.radioMin.toInt = 0 := by omega
    rw [atLow, partOf_comm, partOf_zero]

theorem constrainValue_inside {amount low high : ℤ} (least : low ≤ amount) (most : amount ≤ high) :
    constrainValue amount low high = amount := by
  rw [constrainValue, if_neg (by omega), if_neg (by omega)]

section

variable (same : Matching channel scale)

include same

theorem range_returns {pwm : ℤ}
    (low : channel.radioMin.toInt ≤ pwm) (high : pwm ≤ channel.radioMax.toInt) :
    ∃ back, Returns channel.highIn.toInt (channel.radioMax.toInt - channel.radioMin.toInt)
        (pwm - channel.radioMin.toInt) back ∧
      scale.rangeValue (channel.rangeValue 0 (channel.rIn pwm)) = channel.radioMin.toInt + back := by
  have order : channel.radioMin.toInt < channel.radioMax.toInt := same.below.trans same.above
  have bounds := @rangeValue_bounds channel 0 same.goodChannel _ (rIn_mem same.goodChannel pwm).2
  have value := rangeValue_zone (rIn_mem same.goodChannel pwm).1
  have input : channel.rIn pwm = if channel.reversed then
      channel.radioMax.toInt - (pwm - channel.radioMin.toInt) else pwm := by
    rw [RcChannel.rIn, constrainValue_inside low high]
  rw [Scale.rangeValue, same.sameMin, same.sameMax, same.sameReversed, same.sameHigh,
    if_neg (not_le.mpr order), constrainValue_inside bounds.1 bounds.2, value, input]
  refine ⟨_, ?_, rfl⟩
  have positive := same.positive
  cases channel.reversed with
  | false =>
    exact returns_straight (sub_nonneg.mpr low) (sub_pos.mpr order) (by omega)
  | true =>
    have other : channel.radioMax.toInt - (pwm - channel.radioMin.toInt) - channel.radioMin.toInt =
        channel.radioMax.toInt - channel.radioMin.toInt - (pwm - channel.radioMin.toInt) := by omega
    simp only [if_true, other]
    exact returns_reversed (sub_nonneg.mpr low) (by omega) (sub_pos.mpr order) (by omega)

theorem range_faithful (range : channel.typeIn = .range) {pwm : ℤ}
    (low : channel.radioMin.toInt ≤ pwm) (high : pwm ≤ channel.radioMax.toInt) :
    Faithful channel pwm (scale.rangeValue (channel.rangeValue 0 (channel.rIn pwm))) := by
  obtain ⟨back, returns, output⟩ := range_returns same low high
  rw [output]
  have difference : channel.radioMin.toInt + back - pwm = back - (pwm - channel.radioMin.toInt) := by
    omega
  refine ⟨withinStep_of_less same.positive le_rfl ?_, fun lowest => ?_, fun highest => ?_,
    fun angle => ?_⟩
  · rw [difference]
    exact returns.close
  · have exact := returns.ends (.inl (by omega))
    omega
  · have exact := returns.ends (.inr (by omega))
    omega
  · rw [range] at angle
    cases angle

/-- The sign of a reversed angle is taken away again. -/
theorem angle_signs {value : ℤ}
    (least : -channel.highIn.toInt ≤ value) (most : value ≤ channel.highIn.toInt) :
    scale.angleValue (if channel.reversed then -value else value) =
      if value > 0 then
        channel.radioTrim.toInt +
          partOf value (channel.radioMax.toInt - channel.radioTrim.toInt) channel.highIn.toInt
      else
        channel.radioTrim.toInt -
          partOf (-value) (channel.radioTrim.toInt - channel.radioMin.toInt) channel.highIn.toInt := by
  have signs : (if channel.reversed then -(if channel.reversed then -value else value)
      else (if channel.reversed then -value else value)) = value := by
    cases channel.reversed with
    | false => rfl
    | true => exact neg_neg value
  rw [Scale.angleValue, same.sameMin, same.sameMax, same.sameTrim, same.sameReversed, same.sameHigh,
    signs, constrainValue_inside least most]

/-- An angle comes back, on its own side of the trim. -/
theorem angle_returns {pwm : ℤ}
    (low : channel.radioMin.toInt ≤ pwm) (high : pwm ≤ channel.radioMax.toInt) :
    (channel.radioTrim.toInt ≤ pwm ∧
      ∃ back, Returns channel.highIn.toInt (channel.radioMax.toInt - channel.radioTrim.toInt)
          (pwm - channel.radioTrim.toInt) back ∧
        scale.angleValue (if channel.reversed then -channel.angleValue 0 pwm
          else channel.angleValue 0 pwm) = channel.radioTrim.toInt + back) ∨
    (pwm < channel.radioTrim.toInt ∧
      ∃ back, Returns channel.highIn.toInt (channel.radioTrim.toInt - channel.radioMin.toInt)
          (channel.radioTrim.toInt - pwm) back ∧
        scale.angleValue (if channel.reversed then -channel.angleValue 0 pwm
          else channel.angleValue 0 pwm) = channel.radioTrim.toInt - back) := by
  have positive := same.positive
  have whole : 0 < channel.highIn.toInt := by omega
  obtain ⟨⟨least, most⟩, nonpos, nonneg⟩ := angleValue_bounds same.goodChannel le_rfl low high
  rw [angle_signs same least most]
  rcases lt_or_ge pwm channel.radioTrim.toInt with below | above
  · have value : channel.angleValue 0 pwm = -partOf channel.highIn.toInt
        (channel.radioTrim.toInt - pwm) (channel.radioTrim.toInt - channel.radioMin.toInt) := by
      rw [angleValue_below le_rfl (by omega), sub_zero, partOf_comm]
    refine .inr ⟨below, _, returns_straight (by omega) (sub_pos.mpr same.below) whole, ?_⟩
    rw [if_neg (not_lt.mpr (nonpos (by omega))), value, neg_neg]
  · refine .inl ⟨above, _, returns_straight (by omega) (sub_pos.mpr same.above) whole, ?_⟩
    rcases above.eq_or_lt with atTrim | past
    · have value : channel.angleValue 0 pwm = 0 := by
        have down := nonpos (by omega)
        have up := nonneg (by omega)
        omega
      have place : pwm - channel.radioTrim.toInt = 0 := by omega
      rw [value, place, if_neg (lt_irrefl 0), partOf_comm channel.highIn.toInt, neg_zero,
        partOf_zero, partOf_zero, partOf_zero, sub_zero, add_zero]
    · have value : channel.angleValue 0 pwm = partOf channel.highIn.toInt
          (pwm - channel.radioTrim.toInt) (channel.radioMax.toInt - channel.radioTrim.toInt) := by
        rw [angleValue_above (by omega), add_zero, partOf_comm]
      rw [value]
      split
      · rfl
      · rename_i notPositive
        have zero : partOf channel.highIn.toInt (pwm - channel.radioTrim.toInt)
            (channel.radioMax.toInt - channel.radioTrim.toInt) = 0 := by
          have up := nonneg (by omega)
          omega
        rw [zero, neg_zero, partOf_zero, partOf_zero, sub_zero, add_zero]

theorem angle_faithful {pwm : ℤ}
    (low : channel.radioMin.toInt ≤ pwm) (high : pwm ≤ channel.radioMax.toInt) :
    Faithful channel pwm (scale.angleValue (if channel.reversed then -channel.angleValue 0 pwm
      else channel.angleValue 0 pwm)) := by
  have below := same.below
  have above := same.above
  rcases angle_returns same low high with ⟨side, back, ⟨close, ends⟩, output⟩ |
    ⟨side, back, ⟨close, ends⟩, output⟩
  · have difference : channel.radioTrim.toInt + back - pwm =
        back - (pwm - channel.radioTrim.toInt) := by omega
    rw [output]
    refine ⟨withinStep_of_less same.positive (by omega) (difference ▸ close), by omega,
      by omega, by omega⟩
  · have difference : |channel.radioTrim.toInt - back - pwm| =
        |back - (channel.radioTrim.toInt - pwm)| := by
      rw [abs_sub_comm back]
      congr 1
      omega
    rw [output]
    refine ⟨withinStep_of_less same.positive (by omega) (difference ▸ close), by omega,
      by omega, by omega⟩

end

/-! ### The whole way -/

theorem int16_ofInt {value : ℤ} (low : -9000 ≤ value) (high : value ≤ 9000) :
    (Int16.ofInt value).toInt = value :=
  Int16.toInt_ofInt_of_le (by omega) (by omega)

/-- A pulse comes through, without a result that does not fit. -/
theorem passThrough_checked (same : Matching channel scale) {pwm : Int16}
    (inside : channel.Inside pwm) :
    ∃ output, passThrough checked channel scale pwm = some output ∧
      Faithful channel pwm.toInt output := by
  have goodInput : { channel with radioIn := pwm }.Good :=
    ⟨same.goodChannel.ordered, same.goodChannel.positive, same.goodChannel.small⟩
  have small := same.small
  cases type : channel.typeIn with
  | range =>
    have bounds := @rangeValue_bounds channel 0 same.goodChannel _
      (rIn_mem same.goodChannel pwm.toInt).2
    have input : { channel with radioIn := pwm }.controlNoDeadzone checked =
        some (channel.rangeValue 0 (channel.rIn pwm.toInt)) := by
      rw [RcChannel.controlNoDeadzone]
      simp only [type]
      exact pwmToRangeDz_checked goodInput (by decide) (by decide)
    refine ⟨_, ?_, range_faithful same type inside.1 inside.2⟩
    rw [passThrough, RcChannel.setPwmNoDeadzone, input]
    simp only [Option.bind_eq_bind, Option.bind_some, Scale.pwmFrom, type]
    rw [pwmFromRange_checked same.goodScale, int16_ofInt (by omega) (by omega)]
  | angle =>
    have bounds := (angleValue_bounds same.goodChannel le_rfl inside.1 inside.2).1
    have input : { channel with radioIn := pwm }.controlNoDeadzone checked =
        some (if channel.reversed then -channel.angleValue 0 pwm.toInt
          else channel.angleValue 0 pwm.toInt) := by
      rw [RcChannel.controlNoDeadzone]
      simp only [type]
      exact pwmToAngleDz_checked goodInput (by decide) (by decide) inside.1 inside.2
    have fits : (Int16.ofInt (if channel.reversed then -channel.angleValue 0 pwm.toInt
        else channel.angleValue 0 pwm.toInt)).toInt =
        if channel.reversed then -channel.angleValue 0 pwm.toInt
          else channel.angleValue 0 pwm.toInt := int16_ofInt (by split <;> omega) (by split <;> omega)
    refine ⟨_, ?_, angle_faithful same inside.1 inside.2⟩
    rw [passThrough, RcChannel.setPwmNoDeadzone, input]
    simp only [Option.bind_eq_bind, Option.bind_some, Scale.pwmFrom, type]
    rw [pwmFromAngle_checked same.goodScale (by rw [fits]; split <;> omega), fits]

/-- With the settings of the channel a servo follows the pulses of the receiver up to one step, and
meets the ends and the trim of an angle. -/
theorem passThrough_faithful (channel : RcChannel) (scale : Scale) (same : Matching channel scale)
    (pwm : Int16) (inside : channel.Inside pwm) :
    ∃ output, passThrough checked channel scale pwm = some output ∧
      passThrough wrapping channel scale pwm = some output ∧ Faithful channel pwm.toInt output := by
  obtain ⟨output, exact, faithful⟩ := passThrough_checked same inside
  exact ⟨output, exact, passThrough_sound channel scale pwm output exact, faithful⟩

/-- A reversed control surface in the middle of its upper side. -/
theorem passThrough_faithful_reversed :
    ∃ output, passThrough checked ⟨0, 1100, 1900, 1500, 30, true, .angle, 4500⟩
        ⟨1100, 1900, 1500, true, 4500⟩ 1733 = some output ∧
      passThrough wrapping ⟨0, 1100, 1900, 1500, 30, true, .angle, 4500⟩
        ⟨1100, 1900, 1500, true, 4500⟩ 1733 = some output ∧
      Faithful ⟨0, 1100, 1900, 1500, 30, true, .angle, 4500⟩ 1733 output :=
  passThrough_faithful ⟨0, 1100, 1900, 1500, 30, true, .angle, 4500⟩ ⟨1100, 1900, 1500, true, 4500⟩
    ⟨by decide, by decide, by decide, by decide, by decide, by decide, rfl, rfl, rfl, rfl,
      by decide⟩ 1733 ⟨by decide, by decide⟩

end PassThrough

end Urus.Servo
