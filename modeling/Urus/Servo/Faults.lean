/-
This file is about the faults of the scaling formulas, for parameters that may be any numbers. Most
divisions are guarded, but two are not: that of the middle of a range, and that of a pulse in a range
when the end points are the wrong way round. And the most negative value cannot be negated.
-/

import Urus.Servo.Scaling

namespace Urus.Servo

open MachineInt

/-! ### What is safe -/

/-- `radio_trim_low`: the lower end point and the dead zone, as it is stored. -/
def RcChannel.radioTrimLow (channel : RcChannel) (deadZone : Int16) : ℤ :=
  int16.wrap (channel.radioMin.toInt + deadZone.toInt)

/-- The formulas do not divide by zero, and a reversal negates its value. -/
def NoFault (channel : RcChannel) (scale : Scale) (type : TypeIn)
    (deadZone trim scaledValue : Int16) : Prop :=
  (channel.pwmToAngleDzTrim wrapping deadZone trim).isSome ∧
    (channel.pwmToRangeDz wrapping deadZone).isSome ∧
    (channel.getControlMid wrapping).isSome ∧
    match type with
    | .range => (scale.pwmFromRange wrapping scaledValue).isSome
    | .angle => (scale.pwmFromAngle wrapping scaledValue).isSome ∧
        (scale.reversed = true →
          reverse wrapping true scaledValue.toInt (-scaledValue.toInt) = some (-scaledValue.toInt))

/-- The middle of a range is safe: the dead zone does not end at the upper end point. -/
def RcChannel.SafeMid (channel : RcChannel) : Prop :=
  channel.typeIn = .range → channel.radioMax.toInt ≠ channel.radioTrimLow channel.deadZone

/-- A pulse in a range is safe: the end points are not the wrong way round with the dead zone between
them, unless the pulse is on the other side. -/
def RcChannel.SafeRange (channel : RcChannel) (deadZone : Int16) : Prop :=
  channel.radioMax.toInt < channel.radioMin.toInt →
    channel.radioMax.toInt = channel.radioTrimLow deadZone →
      (channel.reversed = true ↔ channel.radioIn.toInt < channel.radioMin.toInt)

/-- A reversal is safe. -/
def SafeReversal (scale : Scale) (type : TypeIn) (scaledValue : Int16) : Prop :=
  type = .angle → scale.reversed = true → scaledValue.toInt ≠ -32768

/-! ### Each formula -/

section Formulas

variable (channel : RcChannel) (scale : Scale) (deadZone trim scaledValue : Int16)

theorem quotient_isSome (first second divisor : ℤ) (type : IntType) (result : ℤ → ℤ) :
    (do
      let travel ← product wrapping first second
      let part ← divide travel divisor
      wrapping type (result part)).isSome ↔ divisor ≠ 0 := by
  by_cases zero : divisor = 0
  · exact iff_of_false (by simp [product, wrapping, divide, zero]) (not_not.mpr zero)
  · exact iff_of_true (by simp [product, wrapping, divide, zero]) zero

/-- The same with another product in between. -/
theorem signed_isSome (first second sign divisor : ℤ) (type : IntType) (result : ℤ → ℤ) :
    (do
      let travel ← product wrapping first second
      let travel ← product wrapping sign travel
      let part ← divide travel divisor
      wrapping type (result part)).isSome ↔ divisor ≠ 0 := by
  obtain ⟨travel, whole⟩ : ∃ travel, product wrapping first second = some travel := ⟨_, rfl⟩
  rw [whole, Option.bind_eq_bind, Option.bind_some]
  exact quotient_isSome sign travel divisor type result

theorem pwmFromRange_isSome : (scale.pwmFromRange wrapping scaledValue).isSome := by
  rw [Scale.pwmFromRange]
  split
  · rfl
  · rename_i guarded
    obtain ⟨value, constrained⟩ : ∃ value, constrainInt16 wrapping scaledValue.toInt 0
      scale.highOut.toNat = some value := ⟨_, rfl⟩
    obtain ⟨value', reversed⟩ : ∃ value', reverse wrapping scale.reversed value
        (scale.highOut.toNat - value) = some value' := by
      cases scale.reversed <;> exact ⟨_, rfl⟩
    have nonzero : (scale.highOut.toNat : ℤ) ≠ 0 := by
      intro zero
      exact (not_or.mp guarded).2 (UInt16.toNat_inj.mp (Int.natCast_eq_zero.mp zero))
    rw [constrained, Option.bind_eq_bind, Option.bind_some, reversed, Option.bind_some]
    exact (quotient_isSome _ _ _ uint16 fun part => scale.servoMin.toInt + part).mpr nonzero

theorem pwmFromAngle_isSome (positive : 1 ≤ scale.highOut.toNat) :
    (scale.pwmFromAngle wrapping scaledValue).isSome := by
  have nonzero : (scale.highOut.toNat : ℤ) ≠ 0 := by omega
  obtain ⟨value, reversed⟩ : ∃ value, reverse wrapping scale.reversed scaledValue.toInt
      (-scaledValue.toInt) = some value := by
    cases scale.reversed <;> exact ⟨_, rfl⟩
  obtain ⟨value', constrained⟩ : ∃ value', constrainInt16 wrapping value (-scale.highOut.toNat)
    scale.highOut.toNat = some value' := ⟨_, rfl⟩
  rw [Scale.pwmFromAngle, reversed, Option.bind_eq_bind, Option.bind_some, constrained,
    Option.bind_some]
  split
  · exact (quotient_isSome _ _ _ uint16 fun part => scale.servoTrim.toInt + part).mpr nonzero
  · exact (quotient_isSome _ _ _ uint16 fun part => scale.servoTrim.toInt - part).mpr nonzero

/-- The angle of a pulse is guarded against both divisors. -/
theorem pwmToAngleDzTrim_isSome : (channel.pwmToAngleDzTrim wrapping deadZone trim).isSome := by
  rw [RcChannel.pwmToAngleDzTrim]
  simp only [wrapping, Option.bind_eq_bind, Option.bind_some]
  split
  · rename_i guarded
    exact (signed_isSome _ _ _ _ int16 fun part => part).mpr (sub_ne_zero.mpr guarded.2)
  · split
    · rename_i guarded
      exact (signed_isSome _ _ _ _ int16 fun part => part).mpr (sub_ne_zero.mpr guarded.2)
    · rfl

/-- The middle of a range is not. -/
theorem getControlMid_isSome : (channel.getControlMid wrapping).isSome ↔ channel.SafeMid := by
  rw [RcChannel.getControlMid, RcChannel.SafeMid]
  cases channel.typeIn with
  | angle => exact iff_of_true rfl fun other => nomatch other
  | range =>
    obtain ⟨rIn, reversed⟩ : ∃ rIn, reverse wrapping channel.reversed
        (int16.wrap ((channel.radioMin.toInt + channel.radioMax.toInt).tdiv 2))
        (channel.radioMax.toInt -
          (int16.wrap ((channel.radioMin.toInt + channel.radioMax.toInt).tdiv 2) -
            channel.radioMin.toInt)) = some rIn := by
      cases channel.reversed <;> exact ⟨_, rfl⟩
    have quotient := quotient_isSome channel.highIn.toInt
      (rIn - channel.radioTrimLow channel.deadZone)
      (channel.radioMax.toInt - channel.radioTrimLow channel.deadZone) int16 fun part => part
    rw [sub_ne_zero] at quotient
    have stored : wrapping int16 ((channel.radioMin.toInt + channel.radioMax.toInt).tdiv 2) =
      some (int16.wrap ((channel.radioMin.toInt + channel.radioMax.toInt).tdiv 2)) := rfl
    simp only
    rw [stored, Option.bind_eq_bind, Option.bind_some, reversed, Option.bind_some]
    exact quotient.trans ⟨fun apart _ => apart, fun apart => apart trivial⟩

theorem wrap_deadZone (number zone : ℤ) :
    int16.wrap (number + uint16.wrap zone) = int16.wrap (number + zone) := by
  rw [wrap_int16, wrap_int16, wrap_uint16]
  omega

/-- What is read behind a reversal is above the upper end point only when the end points are the
wrong way round. -/
theorem reversedIn_above {value : ℤ}
    (constrained : value =
      constrainValue channel.radioIn.toInt channel.radioMin.toInt channel.radioMax.toInt) :
    (if channel.reversed = true then
        int16.wrap (channel.radioMax.toInt - (value - channel.radioMin.toInt))
      else value) > channel.radioMax.toInt ↔
      channel.radioMax.toInt < channel.radioMin.toInt ∧
        ¬ (channel.reversed = true ↔ channel.radioIn.toInt < channel.radioMin.toInt) := by
  have lowest := channel.radioMin.le_toInt
  have highest := channel.radioMin.toInt_lt
  have lowest' := channel.radioMax.le_toInt
  have highest' := channel.radioMax.toInt_lt
  rw [constrained, constrainValue, wrap_int16]
  cases channel.reversed with
  | false =>
    simp only [Bool.false_eq_true, if_false, false_iff]
    split_ifs <;> omega
  | true =>
    simp only [if_true, true_iff]
    split_ifs <;> omega

theorem int16_holds (number : Int16) : int16.Holds number.toInt :=
  holds_int16.mpr ⟨number.le_toInt, number.toInt_lt⟩

theorem constrainInt16_wrapping {amount low high : ℤ} (lowHolds : int16.Holds low)
    (highHolds : int16.Holds high) :
    constrainInt16 wrapping amount low high = some (constrainValue amount low high) :=
  constrainInt16_sound amount low high _ (constrainInt16_checked lowHolds highHolds amount)

theorem pwmToRangeDz_isSome :
    (channel.pwmToRangeDz wrapping deadZone).isSome ↔ channel.SafeRange deadZone := by
  obtain ⟨value, constrained⟩ : ∃ value, value =
    constrainValue channel.radioIn.toInt channel.radioMin.toInt channel.radioMax.toInt := ⟨_, rfl⟩
  have above := reversedIn_above channel constrained
  have inside : constrainInt16 wrapping channel.radioIn.toInt channel.radioMin.toInt
      channel.radioMax.toInt = some value := by
    rw [constrained]
    exact constrainInt16_wrapping (int16_holds _) (int16_holds _)
  obtain ⟨rIn, reversal⟩ : ∃ rIn, rIn = if channel.reversed = true then
    int16.wrap (channel.radioMax.toInt - (value - channel.radioMin.toInt)) else value := ⟨_, rfl⟩
  have turned : reverse wrapping channel.reversed value
      (channel.radioMax.toInt - (value - channel.radioMin.toInt)) = some rIn := by
    rw [reversal]
    cases channel.reversed <;> rfl
  have trimLow : wrapping int16 (channel.radioMin.toInt + uint16.wrap deadZone.toInt) =
      some (channel.radioTrimLow deadZone) := congrArg some (wrap_deadZone _ _)
  have stored : wrapping uint16 deadZone.toInt = some (uint16.wrap deadZone.toInt) := rfl
  rw [← reversal] at above
  rw [RcChannel.pwmToRangeDz, stored, Option.bind_eq_bind, Option.bind_some, inside,
    Option.bind_some, turned, Option.bind_some, trimLow, Option.bind_some, RcChannel.SafeRange]
  by_cases more : rIn > channel.radioTrimLow deadZone
  · rw [if_pos more]
    refine (quotient_isSome _ _ _ int16 fun part => part).trans ?_
    rw [sub_ne_zero]
    refine ⟨fun apart _ same => absurd same apart, fun safe same => ?_⟩
    rw [← same] at more
    obtain ⟨wrongWay, unsafeSide⟩ := above.mp more
    exact unsafeSide (safe wrongWay same)
  · rw [if_neg more]
    refine iff_of_true rfl fun wrongWay same => ?_
    rw [← same] at more
    exact not_not.mp fun unsafeSide => more (above.mpr ⟨wrongWay, unsafeSide⟩)

/-- A reversal negates every value but the most negative one. -/
theorem reversal_iff (type : TypeIn) :
    (type = .angle → scale.reversed = true →
      reverse wrapping true scaledValue.toInt (-scaledValue.toInt) = some (-scaledValue.toInt)) ↔
      SafeReversal scale type scaledValue := by
  have lowest := scaledValue.le_toInt
  have highest := scaledValue.toInt_lt
  have exact : reverse wrapping true scaledValue.toInt (-scaledValue.toInt) =
      some (-scaledValue.toInt) ↔ scaledValue.toInt ≠ -32768 := by
    refine (Option.some_inj.trans ?_)
    rw [wrap_int16]
    omega
  rw [exact, SafeReversal]

end Formulas

/-- The formulas do not fault exactly for the parameters and values that are safe. -/
theorem noFault_iff (channel : RcChannel) (scale : Scale) (type : TypeIn)
    (deadZone trim scaledValue : Int16) (positive : 1 ≤ scale.highOut.toNat) :
    NoFault channel scale type deadZone trim scaledValue ↔
      channel.SafeMid ∧ channel.SafeRange deadZone ∧ SafeReversal scale type scaledValue := by
  unfold NoFault
  rw [pwmToRangeDz_isSome, getControlMid_isSome, ← reversal_iff]
  have angle := pwmToAngleDzTrim_isSome channel deadZone trim
  cases type with
  | range =>
    have range := pwmFromRange_isSome scale scaledValue
    exact ⟨fun safe => ⟨safe.2.2.1, safe.2.1, fun other => nomatch other⟩,
      fun safe => ⟨angle, safe.2.1, safe.1, range⟩⟩
  | angle =>
    have pulse := pwmFromAngle_isSome scale scaledValue positive
    exact ⟨fun safe => ⟨safe.2.2.1, safe.2.1, fun _ => safe.2.2.2.2⟩,
      fun safe => ⟨angle, safe.2.1, safe.1, pulse, safe.2.2 rfl⟩⟩

/-- The defaults of the parameters are safe. -/
theorem noFault_default :
    NoFault ⟨1500, 1100, 1900, 1500, 30, false, .range, 1000⟩ ⟨1100, 1900, 1500, true, 4500⟩ .angle
      30 1500 4500 :=
  (noFault_iff _ _ .angle 30 1500 4500 (by decide)).mpr
    ⟨fun _ => by decide, fun wrongWay => absurd wrongWay (by decide), fun _ _ => by decide⟩

/-- A range of 100 µs with a dead zone of 100 µs has no middle, a pulse below a range that is the wrong
way round has no quotient, and -32768 is reversed to itself. -/
theorem faults :
    ¬ NoFault ⟨1500, 1000, 1100, 1000, 100, false, .range, 1000⟩ ⟨1100, 1900, 1500, false, 1000⟩
        .range 100 1000 0 ∧
      ¬ NoFault ⟨1000, 1500, 1100, 1300, -400, false, .angle, 4500⟩
        ⟨1100, 1900, 1500, false, 1000⟩ .range (-400) 1300 0 ∧
      ¬ NoFault ⟨1500, 1100, 1900, 1500, 30, false, .range, 1000⟩ ⟨1100, 1900, 1500, true, 4500⟩
        .angle 30 1500 (-32768) :=
  ⟨fun safe => absurd safe.2.2.1 (by decide +kernel),
    fun safe => absurd safe.2.1 (by decide +kernel),
    fun safe => absurd (safe.2.2.2.2 rfl) (by decide +kernel)⟩

end Urus.Servo
