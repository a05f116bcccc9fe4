/-
This file models how the positions of sticks and servos are scaled. A channel has end points, a trim
and a dead zone, which the user may set to any number. A scaled value is turned into the length of a
pulse, and the length of a pulse into a scaled value, by formulas with a truncated quotient.

For end points in order and a small dead zone all results stay inside their bounds, and a larger
input never gives a smaller result, or never a larger one when the channel is reversed.
-/

import Urus.Lib.MachineInt

namespace Urus.Servo

open MachineInt

/-! ### The code -/

/-- What `SRV_Channel` scales with. -/
structure Scale where
  servoMin : Int16
  servoMax : Int16
  servoTrim : Int16
  reversed : Bool
  highOut : UInt16

/-- The types of a channel. -/
inductive TypeIn
  | range
  | angle
  deriving DecidableEq

/-- What `RC_Channel` scales with. -/
structure RcChannel where
  radioIn : Int16
  radioMin : Int16
  radioMax : Int16
  radioTrim : Int16
  deadZone : Int16
  reversed : Bool
  typeIn : TypeIn
  highIn : Int16

section Code

variable (store : Store)

/-- `constrain_value`. -/
def constrainValue (amount low high : ℤ) : ℤ :=
  if amount < low then low else if amount > high then high else amount

/-- `constrain_int16`. -/
def constrainInt16 (amount low high : ℤ) : Option ℤ := do
  let low ← store int16 low
  let high ← store int16 high
  some (constrainValue amount low high)

/-- A value, or what takes its place when the channel is reversed. -/
def reverse (reversed : Bool) (value flipped : ℤ) : Option ℤ :=
  if reversed then store int16 flipped else some value

/-- A product of two numbers that are cast to `int32_t`. -/
def product (first second : ℤ) : Option ℤ := do
  let first ← store int32 first
  let second ← store int32 second
  store int32 (first * second)

/-- `pwm_from_range`. -/
def Scale.pwmFromRange (scale : Scale) (scaledValue : Int16) : Option ℤ :=
  if scale.servoMax.toInt ≤ scale.servoMin.toInt ∨ scale.highOut = 0 then
    store uint16 scale.servoMin.toInt
  else do
    let scaledValue ← constrainInt16 store scaledValue.toInt 0 scale.highOut.toNat
    let scaledValue ← reverse store scale.reversed scaledValue (scale.highOut.toNat - scaledValue)
    let travel ← product store scaledValue (scale.servoMax.toInt - scale.servoMin.toInt)
    let part ← divide travel scale.highOut.toNat
    store uint16 (scale.servoMin.toInt + part)

/-- `pwm_from_angle`. -/
def Scale.pwmFromAngle (scale : Scale) (scaledValue : Int16) : Option ℤ := do
  let scaledValue ← reverse store scale.reversed scaledValue.toInt (-scaledValue.toInt)
  let scaledValue ← constrainInt16 store scaledValue (-scale.highOut.toNat) scale.highOut.toNat
  if scaledValue > 0 then do
    let travel ← product store scaledValue (scale.servoMax.toInt - scale.servoTrim.toInt)
    let part ← divide travel scale.highOut.toNat
    store uint16 (scale.servoTrim.toInt + part)
  else do
    let travel ← product store (-scaledValue) (scale.servoTrim.toInt - scale.servoMin.toInt)
    let part ← divide travel scale.highOut.toNat
    store uint16 (scale.servoTrim.toInt - part)

/-- `get_control_mid`. -/
def RcChannel.getControlMid (channel : RcChannel) : Option ℤ :=
  match channel.typeIn with
  | .range => do
    let rIn ← store int16 ((channel.radioMin.toInt + channel.radioMax.toInt).tdiv 2)
    let rIn ←
      reverse store channel.reversed rIn (channel.radioMax.toInt - (rIn - channel.radioMin.toInt))
    let radioTrimLow ← store int16 (channel.radioMin.toInt + channel.deadZone.toInt)
    let travel ← product store channel.highIn.toInt (rIn - radioTrimLow)
    let part ← divide travel (channel.radioMax.toInt - radioTrimLow)
    store int16 part
  | .angle => some 0

/-- `pwm_to_angle_dz_trim`, with a dead zone and a trim that are parameters. -/
def RcChannel.pwmToAngleDzTrim (channel : RcChannel) (deadZone trim : Int16) : Option ℤ := do
  let deadZone ← store uint16 deadZone.toInt
  let trim ← store uint16 trim.toInt
  let radioTrimHigh ← store int16 (trim + deadZone)
  let radioTrimLow ← store int16 (trim - deadZone)
  let reverseMul : ℤ := if channel.reversed then -1 else 1
  if channel.radioIn.toInt > radioTrimHigh ∧ channel.radioMax.toInt ≠ radioTrimHigh then do
    let travel ← product store channel.highIn.toInt (channel.radioIn.toInt - radioTrimHigh)
    let travel ← product store reverseMul travel
    let part ← divide travel (channel.radioMax.toInt - radioTrimHigh)
    store int16 part
  else if channel.radioIn.toInt < radioTrimLow ∧ radioTrimLow ≠ channel.radioMin.toInt then do
    let travel ← product store channel.highIn.toInt (channel.radioIn.toInt - radioTrimLow)
    let travel ← product store reverseMul travel
    let part ← divide travel (radioTrimLow - channel.radioMin.toInt)
    store int16 part
  else some 0

/-- `pwm_to_angle_dz`. -/
def RcChannel.pwmToAngleDz (channel : RcChannel) (deadZone : Int16) : Option ℤ :=
  channel.pwmToAngleDzTrim store deadZone channel.radioTrim

/-- `pwm_to_range_dz`, with a dead zone that is a parameter. -/
def RcChannel.pwmToRangeDz (channel : RcChannel) (deadZone : Int16) : Option ℤ := do
  let deadZone ← store uint16 deadZone.toInt
  let rIn ← constrainInt16 store channel.radioIn.toInt channel.radioMin.toInt
    channel.radioMax.toInt
  let rIn ←
    reverse store channel.reversed rIn (channel.radioMax.toInt - (rIn - channel.radioMin.toInt))
  let radioTrimLow ← store int16 (channel.radioMin.toInt + deadZone)
  if rIn > radioTrimLow then do
    let travel ← product store channel.highIn.toInt (rIn - radioTrimLow)
    let part ← divide travel (channel.radioMax.toInt - radioTrimLow)
    store int16 part
  else some 0

end Code

/-! ### Soundness of the checks -/

section Sound

theorem constrainInt16_sound (amount low high : ℤ) :
    Sound fun store => constrainInt16 store amount low high :=
  sound_bind (sound_store _ _) fun _ => sound_bind (sound_store _ _) fun _ => sound_const _

theorem product_sound (first second : ℤ) : Sound fun store => product store first second :=
  sound_bind (sound_store _ _) fun _ => sound_bind (sound_store _ _) fun _ => sound_store _ _

theorem reverse_sound (reversed : Bool) (value flipped : ℤ) :
    Sound fun store => reverse store reversed value flipped :=
  sound_ite (sound_store _ _) (sound_const _)

theorem quotient_sound (first second divisor : ℤ) (type : IntType) (result : ℤ → ℤ) :
    Sound fun store => (do
      let travel ← product store first second
      let part ← divide travel divisor
      store type (result part)) :=
  sound_bind (product_sound _ _) fun _ => sound_bind (sound_const _) fun _ => sound_store _ _

variable (scale : Scale) (channel : RcChannel) (scaledValue deadZone trim : Int16)

theorem pwmFromRange_sound : Sound fun store => scale.pwmFromRange store scaledValue :=
  sound_ite (sound_store _ _) <|
    sound_bind (constrainInt16_sound _ _ _) fun _ =>
      sound_bind (reverse_sound _ _ _) fun _ =>
        quotient_sound _ _ _ uint16 fun part => scale.servoMin.toInt + part

theorem pwmFromAngle_sound : Sound fun store => scale.pwmFromAngle store scaledValue :=
  sound_bind (reverse_sound _ _ _) fun _ =>
    sound_bind (constrainInt16_sound _ _ _) fun _ =>
      sound_ite (quotient_sound _ _ _ uint16 fun part => scale.servoTrim.toInt + part)
        (quotient_sound _ _ _ uint16 fun part => scale.servoTrim.toInt - part)

theorem pwmToRangeDz_sound : Sound fun store => channel.pwmToRangeDz store deadZone :=
  sound_bind (sound_store _ _) fun _ =>
    sound_bind (constrainInt16_sound _ _ _) fun _ =>
      sound_bind (reverse_sound _ _ _) fun _ =>
        sound_bind (sound_store _ _) fun _ =>
          sound_ite (quotient_sound _ _ _ int16 fun part => part) (sound_const _)

theorem pwmToAngleDzTrim_sound :
    Sound fun store => channel.pwmToAngleDzTrim store deadZone trim :=
  sound_bind (sound_store _ _) fun _ => sound_bind (sound_store _ _) fun _ =>
    sound_bind (sound_store _ _) fun _ => sound_bind (sound_store _ _) fun _ =>
      sound_ite
        (sound_bind (product_sound _ _) fun _ => quotient_sound _ _ _ int16 fun part => part) <|
      sound_ite
        (sound_bind (product_sound _ _) fun _ => quotient_sound _ _ _ int16 fun part => part)
        (sound_const _)

end Sound

/-! ### The values -/

section Values

/-- End points and a trim that are in order. -/
structure Ordered (low trim high : ℤ) : Prop where
  positive : 0 ≤ low
  below : low ≤ trim
  above : trim ≤ high
  short : high ≤ 2200

theorem constrainValue_mem {low high : ℤ} (order : low ≤ high) (amount : ℤ) :
    low ≤ constrainValue amount low high ∧ constrainValue amount low high ≤ high := by
  rw [constrainValue]
  split_ifs <;> omega

theorem constrainValue_mono {low high first second : ℤ} (order : low ≤ high)
    (less : first ≤ second) :
    constrainValue first low high ≤ constrainValue second low high := by
  rw [constrainValue, constrainValue]
  split_ifs <;> omega

theorem constrainInt16_checked {low high : ℤ} (lowHolds : int16.Holds low)
    (highHolds : int16.Holds high) (amount : ℤ) :
    constrainInt16 checked amount low high = some (constrainValue amount low high) := by
  rw [constrainInt16, checked_of_holds lowHolds, checked_of_holds highHolds]
  rfl

theorem reverse_checked {reversed : Bool} {value flipped : ℤ} (holds : int16.Holds flipped) :
    reverse checked reversed value flipped = some (if reversed then flipped else value) := by
  rw [reverse, checked_of_holds holds]
  split <;> rfl

theorem product_checked {first second firstBound secondBound : ℤ} (left : |first| ≤ firstBound)
    (right : |second| ≤ secondBound) (firstPos : 1 ≤ firstBound) (secondPos : 1 ≤ secondBound)
    (small : firstBound * secondBound < 2147483648) :
    product checked first second = some (first * second) := by
  have both : |first * second| ≤ firstBound * secondBound := by
    rw [abs_mul]
    exact mul_le_mul left right (abs_nonneg _) (by omega)
  have firstSmall : firstBound ≤ firstBound * secondBound := le_mul_of_one_le_right (by omega) secondPos
  have secondSmall : secondBound ≤ firstBound * secondBound := le_mul_of_one_le_left (by omega) firstPos
  rw [abs_le] at left right both
  rw [product, checked_of_holds (holds_int32.mpr (by omega)),
    checked_of_holds (holds_int32.mpr (by omega))]
  exact checked_of_holds (holds_int32.mpr (by omega))

/-- A part of a whole. -/
def partOf (amount travel whole : ℤ) : ℤ := (amount * travel).tdiv whole

/-- A part of small numbers is stored if the result fits. -/
theorem quotient_checked {first second firstBound secondBound divisor : ℤ} {type : IntType}
    (result : ℤ → ℤ) (left : |first| ≤ firstBound) (right : |second| ≤ secondBound)
    (firstPos : 1 ≤ firstBound) (secondPos : 1 ≤ secondBound)
    (small : firstBound * secondBound < 2147483648) (nonzero : divisor ≠ 0)
    (holds : type.Holds (result (partOf first second divisor))) :
    (do
      let travel ← product checked first second
      let part ← divide travel divisor
      checked type (result part)) = some (result (partOf first second divisor)) := by
  rw [product_checked left right firstPos secondPos small, Option.bind_eq_bind, Option.bind_some,
    divide_of_ne nonzero, Option.bind_some]
  exact checked_of_holds holds

variable {amount amount' travel whole : ℤ}

theorem partOf_nonneg (left : 0 ≤ amount) (right : 0 ≤ travel) (positive : 0 < whole) :
    0 ≤ partOf amount travel whole := Int.tdiv_nonneg (mul_nonneg left right) positive.le

theorem partOf_le (less : amount ≤ whole) (right : 0 ≤ travel) (positive : 0 < whole) :
    partOf amount travel whole ≤ travel := by
  refine tdiv_le positive ?_
  rw [mul_comm travel]
  exact mul_le_mul_of_nonneg_right less right

theorem partOf_mono (less : amount ≤ amount') (right : 0 ≤ travel) (positive : 0 < whole) :
    partOf amount travel whole ≤ partOf amount' travel whole :=
  Int.tdiv_le_tdiv positive (mul_le_mul_of_nonneg_right less right)

theorem partOf_comm (amount travel whole : ℤ) : partOf amount travel whole = partOf travel amount whole := by
  rw [partOf, mul_comm, partOf]

theorem partOf_neg : partOf (-amount) travel whole = -partOf amount travel whole := by
  rw [partOf, neg_mul, Int.neg_tdiv, partOf]

end Values

/-! ### Pulses from scaled values -/

section Pulses

variable {scale : Scale}

/-- A scale with end points in order. -/
structure Scale.Good (scale : Scale) : Prop where
  ordered : Ordered scale.servoMin.toInt scale.servoTrim.toInt scale.servoMax.toInt
  positive : 1 ≤ scale.highOut.toNat
  small : scale.highOut.toNat ≤ 9000

variable (scale)

/-- What `pwm_from_range` comes to. -/
def Scale.rangeValue (scaledValue : ℤ) : ℤ :=
  if scale.servoMax.toInt ≤ scale.servoMin.toInt then scale.servoMin.toInt
  else
    let value := constrainValue scaledValue 0 scale.highOut.toNat
    scale.servoMin.toInt + partOf (if scale.reversed then scale.highOut.toNat - value else value)
      (scale.servoMax.toInt - scale.servoMin.toInt) scale.highOut.toNat

/-- What `pwm_from_angle` comes to. -/
def Scale.angleValue (scaledValue : ℤ) : ℤ :=
  let value := constrainValue (if scale.reversed then -scaledValue else scaledValue)
    (-scale.highOut.toNat) scale.highOut.toNat
  if value > 0 then
    scale.servoTrim.toInt +
      partOf value (scale.servoMax.toInt - scale.servoTrim.toInt) scale.highOut.toNat
  else
    scale.servoTrim.toInt -
      partOf (-value) (scale.servoTrim.toInt - scale.servoMin.toInt) scale.highOut.toNat

variable {scale}

theorem rangeValue_mem (good : scale.Good) (scaledValue : ℤ) :
    scale.servoMin.toInt ≤ scale.rangeValue scaledValue ∧
      scale.rangeValue scaledValue ≤ scale.servoMax.toInt := by
  obtain ⟨⟨-, below, above, -⟩, positive, -⟩ := good
  obtain ⟨low, high⟩ := constrainValue_mem (Int.natCast_nonneg scale.highOut.toNat) scaledValue
  rw [Scale.rangeValue]
  split
  · exact ⟨le_rfl, below.trans above⟩
  · simp only
    generalize constrainValue scaledValue 0 scale.highOut.toNat = value at low high ⊢
    have amount : 0 ≤ (if scale.reversed then (scale.highOut.toNat : ℤ) - value else value) ∧
        (if scale.reversed then (scale.highOut.toNat : ℤ) - value else value) ≤
          scale.highOut.toNat := by
      split <;> omega
    have nonneg := partOf_nonneg amount.1
      (sub_nonneg.mpr (below.trans above)) (by omega : (0 : ℤ) < scale.highOut.toNat)
    have most := partOf_le amount.2
      (sub_nonneg.mpr (below.trans above)) (by omega : (0 : ℤ) < scale.highOut.toNat)
    omega

theorem pwmFromRange_checked (good : scale.Good) (scaledValue : Int16) :
    scale.pwmFromRange checked scaledValue = some (scale.rangeValue scaledValue.toInt) := by
  have bounds := rangeValue_mem good scaledValue.toInt
  obtain ⟨⟨nonneg, below, above, short⟩, positive, small⟩ := good
  have holds : uint16.Holds (scale.rangeValue scaledValue.toInt) := holds_uint16.mpr (by omega)
  have nonzero : scale.highOut ≠ 0 := fun zero => by
    rw [zero] at positive
    exact absurd positive (by decide)
  obtain ⟨low, high⟩ := constrainValue_mem (Int.natCast_nonneg scale.highOut.toNat) scaledValue.toInt
  rw [Scale.rangeValue] at holds ⊢
  rw [Scale.pwmFromRange]
  by_cases flat : scale.servoMax.toInt ≤ scale.servoMin.toInt
  · rw [if_pos flat] at holds ⊢
    rw [if_pos (Or.inl flat)]
    exact checked_of_holds holds
  · rw [if_neg flat] at holds ⊢
    rw [if_neg (not_or.mpr ⟨flat, nonzero⟩),
      constrainInt16_checked (holds_int16.mpr (by omega)) (holds_int16.mpr (by omega))]
    simp only [Option.bind_eq_bind, Option.bind_some] at holds ⊢
    generalize constrainValue scaledValue.toInt 0 scale.highOut.toNat = value at low high holds ⊢
    rw [reverse_checked (holds_int16.mpr (by omega)), Option.bind_some]
    have amount : |(if scale.reversed then (scale.highOut.toNat : ℤ) - value else value)| ≤ 9000 := by
      rw [abs_le]
      split <;> omega
    have travel : |scale.servoMax.toInt - scale.servoMin.toInt| ≤ 2200 := by
      rw [abs_le]
      omega
    have divisor : (scale.highOut.toNat : ℤ) ≠ 0 := by omega
    exact quotient_checked (fun part => scale.servoMin.toInt + part) amount travel (by decide)
      (by decide) (by decide) divisor holds

theorem angleValue_mem (good : scale.Good) (scaledValue : ℤ) :
    scale.servoMin.toInt ≤ scale.angleValue scaledValue ∧
      scale.angleValue scaledValue ≤ scale.servoMax.toInt := by
  obtain ⟨⟨-, below, above, -⟩, positive, -⟩ := good
  have whole : (0 : ℤ) < scale.highOut.toNat := by omega
  rw [Scale.angleValue]
  obtain ⟨low, high⟩ := constrainValue_mem
    (by omega : -(scale.highOut.toNat : ℤ) ≤ scale.highOut.toNat)
    (if scale.reversed then -scaledValue else scaledValue)
  generalize constrainValue _ (-(scale.highOut.toNat : ℤ)) scale.highOut.toNat = value at low high ⊢
  split
  · rename_i right
    have nonneg := partOf_nonneg right.le (sub_nonneg.mpr above) whole
    have most := partOf_le high (sub_nonneg.mpr above) whole
    omega
  · rename_i left
    have nonneg := partOf_nonneg (by omega : 0 ≤ -value) (sub_nonneg.mpr below) whole
    have most := partOf_le (by omega : -value ≤ scale.highOut.toNat) (sub_nonneg.mpr below) whole
    omega

theorem pwmFromAngle_checked (good : scale.Good) {scaledValue : Int16}
    (least : -32767 ≤ scaledValue.toInt) :
    scale.pwmFromAngle checked scaledValue = some (scale.angleValue scaledValue.toInt) := by
  have bounds := angleValue_mem good scaledValue.toInt
  have most := scaledValue.toInt_lt
  obtain ⟨⟨nonneg, below, above, short⟩, positive, small⟩ := good
  have holds : uint16.Holds (scale.angleValue scaledValue.toInt) := holds_uint16.mpr (by omega)
  rw [Scale.angleValue] at holds ⊢
  rw [Scale.pwmFromAngle, reverse_checked (holds_int16.mpr (by omega))]
  simp only [Option.bind_eq_bind, Option.bind_some] at holds ⊢
  rw [constrainInt16_checked (holds_int16.mpr (by omega)) (holds_int16.mpr (by omega)),
    Option.bind_some]
  obtain ⟨low, high⟩ := constrainValue_mem
    (by omega : -(scale.highOut.toNat : ℤ) ≤ scale.highOut.toNat)
    (if scale.reversed then -scaledValue.toInt else scaledValue.toInt)
  generalize constrainValue _ (-(scale.highOut.toNat : ℤ)) scale.highOut.toNat = value
    at low high holds ⊢
  have nonzero : (scale.highOut.toNat : ℤ) ≠ 0 := by omega
  split
  · rename_i right
    have amount : |value| ≤ 9000 := abs_le.mpr (by omega)
    have travel : |scale.servoMax.toInt - scale.servoTrim.toInt| ≤ 2200 := abs_le.mpr (by omega)
    rw [if_pos right] at holds
    exact quotient_checked (fun part => scale.servoTrim.toInt + part) amount travel (by decide)
      (by decide) (by decide) nonzero holds
  · rename_i left
    have amount : |-value| ≤ 9000 := abs_le.mpr (by omega)
    have travel : |scale.servoTrim.toInt - scale.servoMin.toInt| ≤ 2200 := abs_le.mpr (by omega)
    rw [if_neg left] at holds
    exact quotient_checked (fun part => scale.servoTrim.toInt - part) amount travel (by decide)
      (by decide) (by decide) nonzero holds

/-- A larger value never comes to less, or never to more when it is reversed. -/
def Monotonic (reversed : Bool) (first second : ℤ) : Prop :=
  if reversed then second ≤ first else first ≤ second

theorem rangeValue_monotonic (good : scale.Good) {first second : ℤ} (less : first ≤ second) :
    Monotonic scale.reversed (scale.rangeValue first) (scale.rangeValue second) := by
  obtain ⟨⟨-, below, above, -⟩, positive, -⟩ := good
  have whole : (0 : ℤ) < scale.highOut.toNat := by omega
  have travel := sub_nonneg.mpr (below.trans above)
  have order := constrainValue_mono (Int.natCast_nonneg scale.highOut.toNat) less
  rw [Monotonic, Scale.rangeValue, Scale.rangeValue]
  cases scale.reversed with
  | false =>
    simp only [Bool.false_eq_true, if_false]
    split
    · exact le_rfl
    · exact Int.add_le_add_left (partOf_mono order travel whole) _
  | true =>
    simp only [if_true]
    split
    · exact le_rfl
    · exact Int.add_le_add_left (partOf_mono (Int.sub_le_sub_left order _) travel whole) _

/-- The two slopes on both sides of the trim join. -/
theorem slopes_mono (good : scale.Good) {first second : ℤ} (less : first ≤ second) :
    (if first > 0 then
      scale.servoTrim.toInt +
        partOf first (scale.servoMax.toInt - scale.servoTrim.toInt) scale.highOut.toNat
    else
      scale.servoTrim.toInt -
        partOf (-first) (scale.servoTrim.toInt - scale.servoMin.toInt) scale.highOut.toNat) ≤
    if second > 0 then
      scale.servoTrim.toInt +
        partOf second (scale.servoMax.toInt - scale.servoTrim.toInt) scale.highOut.toNat
    else
      scale.servoTrim.toInt -
        partOf (-second) (scale.servoTrim.toInt - scale.servoMin.toInt) scale.highOut.toNat := by
  obtain ⟨⟨-, below, above, -⟩, positive, -⟩ := good
  have whole : (0 : ℤ) < scale.highOut.toNat := by omega
  rcases lt_or_ge 0 first with right | left
  · rw [if_pos right, if_pos (right.trans_le less)]
    exact Int.add_le_add_left (partOf_mono less (sub_nonneg.mpr above) whole) _
  · rw [if_neg (not_lt.mpr left)]
    rcases lt_or_ge 0 second with right | left'
    · rw [if_pos right]
      have lower := partOf_nonneg (neg_nonneg.mpr left) (sub_nonneg.mpr below) whole
      have upper := partOf_nonneg right.le (sub_nonneg.mpr above) whole
      omega
    · rw [if_neg (not_lt.mpr left')]
      exact Int.sub_le_sub_left (partOf_mono (neg_le_neg less) (sub_nonneg.mpr below) whole) _

theorem angleValue_monotonic (good : scale.Good) {first second : ℤ} (less : first ≤ second) :
    Monotonic scale.reversed (scale.angleValue first) (scale.angleValue second) := by
  have whole : -(scale.highOut.toNat : ℤ) ≤ scale.highOut.toNat := by omega
  rw [Monotonic, Scale.angleValue, Scale.angleValue]
  cases scale.reversed with
  | false =>
    exact slopes_mono good (constrainValue_mono whole less)
  | true =>
    exact slopes_mono good (constrainValue_mono whole (neg_le_neg less))

end Pulses

/-! ### Scaled values from pulses -/

section Inputs

variable {channel : RcChannel}

/-- A channel with end points in order. -/
structure RcChannel.Good (channel : RcChannel) : Prop where
  ordered : Ordered channel.radioMin.toInt channel.radioTrim.toInt channel.radioMax.toInt
  positive : 1 ≤ channel.highIn.toInt
  small : channel.highIn.toInt ≤ 9000

variable (channel)

/-- `r_in` in `pwm_to_range_dz`. -/
def RcChannel.rIn (radioIn : ℤ) : ℤ :=
  let value := constrainValue radioIn channel.radioMin.toInt channel.radioMax.toInt
  if channel.reversed then channel.radioMax.toInt - (value - channel.radioMin.toInt) else value

/-- What `pwm_to_range_dz` comes to, when `r_in` is known. -/
def RcChannel.rangeValue (deadZone rIn : ℤ) : ℤ :=
  let radioTrimLow := channel.radioMin.toInt + deadZone
  if rIn > radioTrimLow then
    partOf channel.highIn.toInt (rIn - radioTrimLow) (channel.radioMax.toInt - radioTrimLow)
  else 0

/-- What `pwm_to_angle_dz` comes to when the channel is not reversed. -/
def RcChannel.angleValue (deadZone radioIn : ℤ) : ℤ :=
  let radioTrimHigh := channel.radioTrim.toInt + deadZone
  let radioTrimLow := channel.radioTrim.toInt - deadZone
  if radioIn > radioTrimHigh then
    partOf channel.highIn.toInt (radioIn - radioTrimHigh) (channel.radioMax.toInt - radioTrimHigh)
  else if radioIn < radioTrimLow then
    partOf channel.highIn.toInt (radioIn - radioTrimLow) (radioTrimLow - channel.radioMin.toInt)
  else 0

variable {channel} {deadZone : ℤ}

theorem rIn_mem (good : channel.Good) (radioIn : ℤ) :
    channel.radioMin.toInt ≤ channel.rIn radioIn ∧ channel.rIn radioIn ≤ channel.radioMax.toInt := by
  obtain ⟨low, high⟩ := constrainValue_mem
    (good.ordered.below.trans good.ordered.above) radioIn
  rw [RcChannel.rIn]
  split <;> omega

theorem rIn_monotonic (good : channel.Good) {first second : ℤ} (less : first ≤ second) :
    Monotonic channel.reversed (channel.rIn first) (channel.rIn second) := by
  have order := constrainValue_mono (good.ordered.below.trans good.ordered.above) less
  rw [Monotonic, RcChannel.rIn, RcChannel.rIn]
  split <;> omega

theorem rangeValue_bounds (good : channel.Good) {rIn : ℤ} (high : rIn ≤ channel.radioMax.toInt) :
    0 ≤ channel.rangeValue deadZone rIn ∧
      channel.rangeValue deadZone rIn ≤ channel.highIn.toInt := by
  have positive := good.positive
  rw [RcChannel.rangeValue]
  split
  · rename_i above
    rw [partOf_comm]
    exact ⟨partOf_nonneg (sub_nonneg.mpr above.le) (by omega) (sub_pos.mpr (above.trans_le high)),
      partOf_le (Int.sub_le_sub_right high _) (by omega) (sub_pos.mpr (above.trans_le high))⟩
  · omega

theorem rangeValue_mono (good : channel.Good) {first second : ℤ} (less : first ≤ second)
    (high : second ≤ channel.radioMax.toInt) :
    channel.rangeValue deadZone first ≤ channel.rangeValue deadZone second := by
  have positive := good.positive
  rcases lt_or_ge (channel.radioMin.toInt + deadZone) first with more | below
  · rw [RcChannel.rangeValue, RcChannel.rangeValue, if_pos more, if_pos (more.trans_le less),
      partOf_comm channel.highIn.toInt, partOf_comm channel.highIn.toInt]
    exact partOf_mono (Int.sub_le_sub_right less _) (by omega)
      (sub_pos.mpr ((more.trans_le less).trans_le high))
  · rw [RcChannel.rangeValue, if_neg (not_lt.mpr below)]
    exact (rangeValue_bounds good high).1

theorem pwmToRangeDz_checked (good : channel.Good) {zone : Int16} (nonneg : 0 ≤ zone.toInt)
    (narrow : zone.toInt ≤ 200) :
    channel.pwmToRangeDz checked zone =
      some (channel.rangeValue zone.toInt (channel.rIn channel.radioIn.toInt)) := by
  have inside := rIn_mem good channel.radioIn.toInt
  have bounds := @rangeValue_bounds channel zone.toInt good _ inside.2
  obtain ⟨⟨lowest, below, above, short⟩, positive, small⟩ := good
  obtain ⟨low, high⟩ := constrainValue_mem (below.trans above) channel.radioIn.toInt
  have holds : int16.Holds (channel.rangeValue zone.toInt (channel.rIn channel.radioIn.toInt)) :=
    holds_int16.mpr (by omega)
  have reversal : reverse checked channel.reversed
      (constrainValue channel.radioIn.toInt channel.radioMin.toInt channel.radioMax.toInt)
      (channel.radioMax.toInt - (constrainValue channel.radioIn.toInt channel.radioMin.toInt
        channel.radioMax.toInt - channel.radioMin.toInt)) =
        some (channel.rIn channel.radioIn.toInt) := reverse_checked (holds_int16.mpr (by omega))
  rw [RcChannel.pwmToRangeDz, checked_of_holds (holds_uint16.mpr (by omega)),
    constrainInt16_checked (holds_int16.mpr (by omega)) (holds_int16.mpr (by omega))]
  simp only [Option.bind_eq_bind, Option.bind_some]
  rw [reversal, Option.bind_some, checked_of_holds (holds_int16.mpr (by omega)), Option.bind_some]
  rw [RcChannel.rangeValue] at holds ⊢
  split
  · rename_i more
    have amount : |channel.highIn.toInt| ≤ 9000 := abs_le.mpr (by omega)
    have travel : |channel.rIn channel.radioIn.toInt - (channel.radioMin.toInt + zone.toInt)| ≤
        2400 := abs_le.mpr (by omega)
    have divisor : channel.radioMax.toInt - (channel.radioMin.toInt + zone.toInt) ≠ 0 := by omega
    rw [if_pos more] at holds
    exact quotient_checked (fun part => part) amount travel (by decide) (by decide) (by decide)
      divisor holds
  · rfl

theorem angleValue_above {radioIn : ℤ}
    (above : channel.radioTrim.toInt + deadZone < radioIn) :
    channel.angleValue deadZone radioIn =
      partOf (radioIn - (channel.radioTrim.toInt + deadZone)) channel.highIn.toInt
        (channel.radioMax.toInt - (channel.radioTrim.toInt + deadZone)) := by
  rw [RcChannel.angleValue, if_pos above, partOf_comm]

theorem angleValue_below (nonneg : 0 ≤ deadZone) {radioIn : ℤ}
    (below : radioIn < channel.radioTrim.toInt - deadZone) :
    channel.angleValue deadZone radioIn =
      -partOf (channel.radioTrim.toInt - deadZone - radioIn) channel.highIn.toInt
        (channel.radioTrim.toInt - deadZone - channel.radioMin.toInt) := by
  have notAbove : ¬ radioIn > channel.radioTrim.toInt + deadZone := by omega
  rw [RcChannel.angleValue, if_neg notAbove, if_pos below, partOf_comm, ← partOf_neg, neg_sub]

theorem angleValue_inside {radioIn : ℤ} (low : channel.radioTrim.toInt - deadZone ≤ radioIn)
    (high : radioIn ≤ channel.radioTrim.toInt + deadZone) :
    channel.angleValue deadZone radioIn = 0 := by
  rw [RcChannel.angleValue, if_neg (not_lt.mpr high), if_neg (not_lt.mpr low)]

/-- Inside the end points the angle is inside its bounds, and its sign is the side of the dead
zone. -/
theorem angleValue_bounds (good : channel.Good) (nonneg : 0 ≤ deadZone) {radioIn : ℤ}
    (low : channel.radioMin.toInt ≤ radioIn) (high : radioIn ≤ channel.radioMax.toInt) :
    (-channel.highIn.toInt ≤ channel.angleValue deadZone radioIn ∧
      channel.angleValue deadZone radioIn ≤ channel.highIn.toInt) ∧
    (radioIn ≤ channel.radioTrim.toInt + deadZone → channel.angleValue deadZone radioIn ≤ 0) ∧
    (channel.radioTrim.toInt - deadZone ≤ radioIn → 0 ≤ channel.angleValue deadZone radioIn) := by
  have positive : 0 ≤ channel.highIn.toInt := le_trans (by decide) good.positive
  rcases lt_or_ge (channel.radioTrim.toInt + deadZone) radioIn with above | notAbove
  · rw [angleValue_above above]
    have least := partOf_nonneg (sub_nonneg.mpr above.le) positive (sub_pos.mpr (above.trans_le high))
    have most := partOf_le (Int.sub_le_sub_right high _) positive (sub_pos.mpr (above.trans_le high))
    omega
  · rcases lt_or_ge radioIn (channel.radioTrim.toInt - deadZone) with below | notBelow
    · rw [angleValue_below nonneg below]
      have least := partOf_nonneg (sub_nonneg.mpr below.le) positive
        (sub_pos.mpr (low.trans_lt below))
      have most := partOf_le (Int.sub_le_sub_left low _) positive (sub_pos.mpr (low.trans_lt below))
      omega
    · rw [angleValue_inside notBelow notAbove]
      omega

theorem angleValue_mono (good : channel.Good) (nonneg : 0 ≤ deadZone) {first second : ℤ}
    (less : first ≤ second) (low : channel.radioMin.toInt ≤ first)
    (high : second ≤ channel.radioMax.toInt) :
    channel.angleValue deadZone first ≤ channel.angleValue deadZone second := by
  have positive : 0 ≤ channel.highIn.toInt := le_trans (by decide) good.positive
  obtain ⟨-, nonpos, -⟩ := angleValue_bounds good nonneg low (less.trans high)
  obtain ⟨-, -, nonneg'⟩ := angleValue_bounds good nonneg (low.trans less) high
  rcases lt_or_ge (channel.radioTrim.toInt + deadZone) first with above | notAbove
  · rw [angleValue_above above, angleValue_above (above.trans_le less)]
    exact partOf_mono (Int.sub_le_sub_right less _) positive
      (sub_pos.mpr ((above.trans_le less).trans_le high))
  · rcases lt_or_ge second (channel.radioTrim.toInt - deadZone) with below | notBelow
    · rw [angleValue_below nonneg below, angleValue_below nonneg (less.trans_lt below)]
      exact neg_le_neg (partOf_mono (Int.sub_le_sub_left less _) positive
        (sub_pos.mpr ((low.trans less).trans_lt below)))
    · exact (nonpos notAbove).trans (nonneg' notBelow)

/-- What a travel and its divisor come to, with the sign of the channel. -/
theorem angle_checked {travel divisor : ℤ} (short : |travel| ≤ 2400) (nonzero : divisor ≠ 0)
    (positive : 1 ≤ channel.highIn.toInt) (small : channel.highIn.toInt ≤ 9000)
    (holds : int16.Holds (if channel.reversed then -partOf channel.highIn.toInt travel divisor
      else partOf channel.highIn.toInt travel divisor)) :
    (do
      let whole ← product checked channel.highIn.toInt travel
      let whole ← product checked (if channel.reversed then -1 else 1) whole
      let part ← divide whole divisor
      checked int16 part) =
      some (if channel.reversed then -partOf channel.highIn.toInt travel divisor
        else partOf channel.highIn.toInt travel divisor) := by
  have amount : |channel.highIn.toInt| ≤ 9000 := abs_le.mpr (by omega)
  have whole : |channel.highIn.toInt * travel| ≤ 9000 * 2400 := by
    rw [abs_mul]
    exact mul_le_mul amount short (abs_nonneg _) (by decide)
  have sign : |(if channel.reversed then (-1 : ℤ) else 1)| ≤ 1 := by
    split <;> decide
  rw [product_checked amount short (by decide) (by decide) (by decide)]
  simp only [Option.bind_eq_bind, Option.bind_some]
  rw [product_checked sign whole (by decide) (by decide) (by decide), Option.bind_some,
    divide_of_ne nonzero, Option.bind_some, ← checked_of_holds holds]
  congr 1
  rw [partOf]
  split
  · rw [neg_one_mul, Int.neg_tdiv]
  · rw [one_mul]

theorem pwmToAngleDz_checked (good : channel.Good) {zone : Int16} (nonneg : 0 ≤ zone.toInt)
    (narrow : zone.toInt ≤ 200) (low : channel.radioMin.toInt ≤ channel.radioIn.toInt)
    (high : channel.radioIn.toInt ≤ channel.radioMax.toInt) :
    channel.pwmToAngleDz checked zone =
      some (if channel.reversed then -channel.angleValue zone.toInt channel.radioIn.toInt
        else channel.angleValue zone.toInt channel.radioIn.toInt) := by
  have bounds := (angleValue_bounds good nonneg low high).1
  obtain ⟨⟨lowest, below, above, short⟩, positive, small⟩ := good
  have holds : int16.Holds (if channel.reversed then
      -channel.angleValue zone.toInt channel.radioIn.toInt
        else channel.angleValue zone.toInt channel.radioIn.toInt) := by
    rw [holds_int16]
    split <;> omega
  rw [RcChannel.pwmToAngleDz, RcChannel.pwmToAngleDzTrim,
    checked_of_holds (holds_uint16.mpr (by omega)), checked_of_holds (holds_uint16.mpr (by omega))]
  simp only [Option.bind_eq_bind, Option.bind_some]
  rw [checked_of_holds (holds_int16.mpr (by omega)), Option.bind_some,
    checked_of_holds (holds_int16.mpr (by omega)), Option.bind_some]
  rw [RcChannel.angleValue] at holds ⊢
  by_cases past : channel.radioIn.toInt > channel.radioTrim.toInt + zone.toInt
  · have inside : channel.radioMax.toInt ≠ channel.radioTrim.toInt + zone.toInt := by omega
    rw [if_pos past] at holds ⊢
    rw [if_pos ⟨past, inside⟩]
    exact angle_checked (abs_le.mpr (by omega)) (sub_ne_zero.mpr inside) positive small holds
  · rw [if_neg past] at holds ⊢
    rw [if_neg fun both => past both.1]
    by_cases under : channel.radioIn.toInt < channel.radioTrim.toInt - zone.toInt
    · have inside : channel.radioTrim.toInt - zone.toInt ≠ channel.radioMin.toInt := by omega
      rw [if_pos under] at holds ⊢
      rw [if_pos ⟨under, inside⟩]
      exact angle_checked (abs_le.mpr (by omega)) (sub_ne_zero.mpr inside) positive small holds
    · rw [if_neg under, if_neg fun both => under both.1]
      simp

end Inputs

/-! ### Bounded and monotonic -/

/-- A conversion never leaves its types and its bounds, so that it gives what the machine gives, and a
larger input never comes to less, or never to more when the channel is reversed. -/
def Steady (convert : Int16 → Store → Option ℤ) (inside : Int16 → Prop) (low high : ℤ)
    (reversed : Bool) : Prop :=
  ∃ value : Int16 → ℤ,
    (∀ input, inside input →
      convert input checked = some (value input) ∧ convert input wrapping = some (value input) ∧
        low ≤ value input ∧ value input ≤ high) ∧
    ∀ first second, inside first → inside second → first.toInt ≤ second.toInt →
      Monotonic reversed (value first) (value second)

theorem pwmFromRange_steady {scale : Scale} (good : scale.Good) :
    Steady (fun input store => scale.pwmFromRange store input) (fun input => -32767 ≤ input.toInt)
      scale.servoMin.toInt scale.servoMax.toInt scale.reversed := by
  refine ⟨fun input => scale.rangeValue input.toInt, fun input _ => ?_,
    fun first second _ _ less => rangeValue_monotonic good less⟩
  have exact := pwmFromRange_checked good input
  exact ⟨exact, pwmFromRange_sound scale input _ exact, rangeValue_mem good _⟩

theorem pwmFromAngle_steady {scale : Scale} (good : scale.Good) :
    Steady (fun input store => scale.pwmFromAngle store input) (fun input => -32767 ≤ input.toInt)
      scale.servoMin.toInt scale.servoMax.toInt scale.reversed := by
  refine ⟨fun input => scale.angleValue input.toInt, fun input least => ?_,
    fun first second _ _ less => angleValue_monotonic good less⟩
  have exact := pwmFromAngle_checked good least
  exact ⟨exact, pwmFromAngle_sound scale input _ exact, angleValue_mem good _⟩

section Channel

variable {channel : RcChannel} {deadZone : Int16}

/-- A pulse between the end points. -/
def RcChannel.Inside (channel : RcChannel) (input : Int16) : Prop :=
  channel.radioMin.toInt ≤ input.toInt ∧ input.toInt ≤ channel.radioMax.toInt

theorem pwmToRangeDz_steady (good : channel.Good) (nonneg : 0 ≤ deadZone.toInt)
    (narrow : deadZone.toInt ≤ 200) :
    Steady (fun input store => { channel with radioIn := input }.pwmToRangeDz store deadZone)
      channel.Inside 0 channel.highIn.toInt channel.reversed := by
  refine ⟨fun input => channel.rangeValue deadZone.toInt (channel.rIn input.toInt),
    fun input _ => ?_, fun first second _ _ less => ?_⟩
  · have goodInput : { channel with radioIn := input }.Good :=
      ⟨good.ordered, good.positive, good.small⟩
    have exact := pwmToRangeDz_checked goodInput nonneg narrow
    exact ⟨exact, pwmToRangeDz_sound _ _ _ exact, rangeValue_bounds good (rIn_mem good _).2⟩
  · have order := rIn_monotonic good less
    rw [Monotonic] at order ⊢
    split
    · rename_i reversed
      rw [if_pos reversed] at order
      exact rangeValue_mono good order (rIn_mem good _).2
    · rename_i straight
      rw [if_neg straight] at order
      exact rangeValue_mono good order (rIn_mem good _).2

theorem pwmToAngleDz_steady (good : channel.Good) (nonneg : 0 ≤ deadZone.toInt)
    (narrow : deadZone.toInt ≤ 200) :
    Steady (fun input store => { channel with radioIn := input }.pwmToAngleDz store deadZone)
      channel.Inside (-channel.highIn.toInt) channel.highIn.toInt channel.reversed := by
  refine ⟨fun input => if channel.reversed then -channel.angleValue deadZone.toInt input.toInt
    else channel.angleValue deadZone.toInt input.toInt, fun input inside => ?_,
    fun first second inside inside' less => ?_⟩
  · have goodInput : { channel with radioIn := input }.Good :=
      ⟨good.ordered, good.positive, good.small⟩
    have exact := pwmToAngleDz_checked goodInput nonneg narrow inside.1 inside.2
    have bounds := (angleValue_bounds good nonneg inside.1 inside.2).1
    refine ⟨exact, pwmToAngleDzTrim_sound _ _ _ _ exact, ?_⟩
    simp only
    split <;> omega
  · have order := angleValue_mono good nonneg less inside.1 inside'.2
    rw [Monotonic]
    split
    · exact neg_le_neg order
    · exact order

end Channel

/-- For end points in order and a small dead zone all conversions stay inside their bounds and their
types, and follow the input. -/
theorem scaling_steady (scale : Scale) (channel : RcChannel) (deadZone : Int16)
    (goodScale : scale.Good) (goodChannel : channel.Good) (nonneg : 0 ≤ deadZone.toInt)
    (narrow : deadZone.toInt ≤ 200) :
    Steady (fun input store => scale.pwmFromRange store input) (fun input => -32767 ≤ input.toInt)
        scale.servoMin.toInt scale.servoMax.toInt scale.reversed ∧
      Steady (fun input store => scale.pwmFromAngle store input) (fun input => -32767 ≤ input.toInt)
        scale.servoMin.toInt scale.servoMax.toInt scale.reversed ∧
      Steady (fun input store => { channel with radioIn := input }.pwmToRangeDz store deadZone)
        channel.Inside 0 channel.highIn.toInt channel.reversed ∧
      Steady (fun input store => { channel with radioIn := input }.pwmToAngleDz store deadZone)
        channel.Inside (-channel.highIn.toInt) channel.highIn.toInt channel.reversed :=
  ⟨pwmFromRange_steady goodScale, pwmFromAngle_steady goodScale,
    pwmToRangeDz_steady goodChannel nonneg narrow, pwmToAngleDz_steady goodChannel nonneg narrow⟩

/-- The defaults of the parameters, with the angles of a control surface. -/
theorem scaling_steady_default :
    Steady (fun input store =>
        RcChannel.pwmToAngleDz store ⟨input, 1100, 1900, 1500, 30, false, .angle, 4500⟩ 30)
      (RcChannel.Inside ⟨0, 1100, 1900, 1500, 30, false, .angle, 4500⟩) (-4500) 4500 false :=
  (scaling_steady ⟨1100, 1900, 1500, false, 4500⟩ ⟨0, 1100, 1900, 1500, 30, false, .angle, 4500⟩ 30
    ⟨⟨by decide, by decide, by decide, by decide⟩, by decide, by decide⟩
    ⟨⟨by decide, by decide, by decide, by decide⟩, by decide, by decide⟩ (by decide)
    (by decide)).2.2.2

end Urus.Servo
