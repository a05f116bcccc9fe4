/-
This file is about which servo has which function. It is known in three places: in the parameter of
each channel, in a mask of the functions that are assigned, and in a mask of channels for each
function. A scaled output is converted for the channels in the mask of its function, unless their
pulse was set directly since.

The three agree after they have been set up from the parameters, and every operation keeps it so, but
for one: a function that a channel is given by default is not entered in the masks of the channels.
-/

import Urus.Lib.Trace
import Urus.Servo.Faults

namespace Urus.Servo

open MachineInt

/-! ### Functions and channels -/

/-- `NUM_SERVO_CHANNELS` and `k_nr_aux_servo_functions`. -/
def numServoChannels : ℕ := 16
def numAuxServoFunctions : ℕ := 89

/-- `Aux_servo_function_t`. -/
abbrev AuxServoFunction := Fin numAuxServoFunctions

/-- `k_none`. -/
def AuxServoFunction.none : AuxServoFunction := ⟨0, by decide⟩

/-- The functions with a range of 100: `k_flap`, `k_flap_auto`, `k_egg_drop`, `k_throttle`,
`k_throttleLeft` and `k_throttleRight`. -/
def shortRanges : List ℕ := [2, 3, 11, 70, 73, 74]

/-- The functions with a range of 1000: `k_heli_rsc`, `k_heli_tail_rsc`, `k_motor_tilt` and
`k_boost_throttle`. -/
def longRanges : List ℕ := [31, 32, 41, 81]

/-- The functions with an angle: `k_aileron`, `k_dspoilerLeft1`, `k_dspoilerRight1`,
`k_aileron_with_input`, `k_elevator`, `k_elevator_with_input`, `k_rudder`, `k_flaperon_left`,
`k_flaperon_right`, `k_steering`, `k_tiltMotorLeft`, `k_tiltMotorRight`, `k_elevon_left`,
`k_elevon_right`, `k_vtail_left`, `k_vtail_right`, `k_dspoilerLeft2` and `k_dspoilerRight2`. -/
def angles : List ℕ := [4, 16, 17, 18, 19, 20, 21, 24, 25, 26, 75, 76, 77, 78, 79, 80, 86, 87]

/-- `SRV_Channel`. The high value of an angle is never zero. -/
structure SrvChannel where
  scale : Scale
  function : AuxServoFunction
  /-- The parameter of the function is configured. -/
  configured : Bool
  outputPwm : ℤ
  typeAngle : Bool
  typeSetup : Bool
  angled : typeAngle = true → 1 ≤ scale.highOut.toNat

namespace SrvChannel

variable (channel : SrvChannel)

/-- `set_range`. -/
def setRange (high : UInt16) : SrvChannel :=
  { channel with
    scale := { channel.scale with highOut := high }
    typeAngle := false
    typeSetup := true
    angled := fun impossible => absurd impossible Bool.false_ne_true }

/-- `set_angle`. -/
def setAngle (angle : UInt16) (positive : 1 ≤ angle.toNat) : SrvChannel :=
  { channel with
    scale := { channel.scale with highOut := angle }
    typeAngle := true
    typeSetup := true
    angled := fun _ => positive }

/-- `aux_servo_function_setup`. -/
def auxServoFunctionSetup : SrvChannel :=
  if channel.typeSetup then channel
  else if channel.function.val ∈ shortRanges then channel.setRange 100
  else if channel.function.val ∈ longRanges then channel.setRange 1000
  else if channel.function.val ∈ angles then channel.setAngle 4500 (by decide)
  else channel

/-- The formula of a channel. -/
def convert (scaledValue : Int16) : Option ℤ :=
  if channel.typeAngle then channel.scale.pwmFromAngle wrapping scaledValue
  else channel.scale.pwmFromRange wrapping scaledValue

/-- A channel does not divide by zero. -/
theorem convert_isSome (scaledValue : Int16) : (channel.convert scaledValue).isSome := by
  rw [convert]
  split
  · rename_i isAngle
    exact pwmFromAngle_isSome channel.scale scaledValue (channel.angled isAngle)
  · exact pwmFromRange_isSome channel.scale scaledValue

/-- The pulse for a scaled value. -/
def conversion (scaledValue : Int16) : ℤ :=
  (channel.convert scaledValue).get (channel.convert_isSome scaledValue)

end SrvChannel

/-! ### The code -/

/-- `srv_function`. -/
structure SrvFunction where
  outputScaled : Int16
  channelMask : BitVec numServoChannels

/-- The variables of `SRV_Channels`. -/
structure Servos where
  channels : Fin numServoChannels → SrvChannel
  functionMask : BitVec numAuxServoFunctions
  functions : AuxServoFunction → SrvFunction
  havePwmMask : BitVec numServoChannels
  initialised : Bool

/-- A bit is set in a mask. -/
def setBit {width : ℕ} (mask : BitVec width) (i : Fin width) : BitVec width :=
  mask ||| BitVec.twoPow width i

namespace Servos

variable (servos : Servos)

/-- What `update_aux_servo_function` does for a channel. -/
def setupChannel (i : Fin numServoChannels) : Servos :=
  let channel := servos.channels i
  let kept := servos.functions channel.function
  { servos with
    channels := Function.update servos.channels i channel.auxServoFunctionSetup
    functionMask := setBit servos.functionMask channel.function
    functions := Function.update servos.functions channel.function
      { kept with channelMask := setBit kept.channelMask i } }

/-- `update_aux_servo_function`. -/
def updateAuxServoFunction : Servos :=
  let cleared := { servos with
    functionMask := 0
    functions := fun f => { servos.functions f with channelMask := 0 } }
  { (List.finRange numServoChannels).foldl setupChannel cleared with initialised := true }

/-- `function_assigned`. -/
def functionAssigned (f : AuxServoFunction) : Bool := servos.functionMask.getLsbD f

/-- `set_aux_channel_default`. -/
def setAuxChannelDefault (f : AuxServoFunction) (chan : Fin numServoChannels) : Bool × Servos :=
  let servos := if servos.initialised then servos else servos.updateAuxServoFunction
  if servos.functionAssigned f then (true, servos)
  else if (servos.channels chan).function ≠ .none then
    (decide ((servos.channels chan).function = f), servos)
  else
    let channel := { servos.channels chan with typeSetup := false, function := f }
    let kept := servos.functions f
    (true, { servos with
      channels := Function.update servos.channels chan channel.auxServoFunctionSetup
      functionMask := setBit servos.functionMask f
      functions := Function.update servos.functions f
        { kept with channelMask := setBit kept.channelMask chan } })

/-- `set_default_function`. -/
def setDefaultFunction (chan : Fin numServoChannels) (f : AuxServoFunction) : Servos :=
  let old := (servos.channels chan).function
  let channel := servos.channels chan
  let channel := if channel.configured then channel else { channel with function := f }
  { servos with
    channels := Function.update servos.channels chan channel
    functionMask :=
      if old ≠ channel.function ∧ channel.function = f then setBit servos.functionMask f
      else servos.functionMask }

/-- `set_output_pwm` of a channel. -/
def setOutputPwm (chan : Fin numServoChannels) (pwm : ℤ) : Servos :=
  { servos with
    channels := Function.update servos.channels chan { servos.channels chan with outputPwm := pwm }
    havePwmMask := setBit servos.havePwmMask chan }

/-- `set_output_pwm_chan`. -/
def setOutputPwmChan (chan : Fin numServoChannels) (value : UInt16) : Servos :=
  servos.setOutputPwm chan value.toNat

/-- `set_output_scaled`. -/
def setOutputScaled (f : AuxServoFunction) (value : Int16) : Servos :=
  { servos with
    functions := Function.update servos.functions f
      { servos.functions f with outputScaled := value }
    havePwmMask := servos.havePwmMask &&& ~~~ (servos.functions f).channelMask }

/-- `calc_pwm` of a channel. -/
def calcChannel (i : Fin numServoChannels) : Servos :=
  if servos.havePwmMask.getLsbD i then servos
  else
    let channel := servos.channels i
    servos.setOutputPwm i (channel.conversion (servos.functions channel.function).outputScaled)

/-- `calc_pwm`. -/
def calcPwm : Servos := (List.finRange numServoChannels).foldl calcChannel servos

end Servos

/-! ### Sessions -/

/-- A call, with a channel that there is and a function that is one. -/
inductive ServoCall
  | setAuxChannelDefault (f : AuxServoFunction) (real : f ≠ .none) (chan : Fin numServoChannels)
  | setDefaultFunction (chan : Fin numServoChannels) (f : AuxServoFunction) (real : f ≠ .none)
  | setOutputPwmChan (chan : Fin numServoChannels) (value : UInt16)
  | setOutputScaled (f : AuxServoFunction) (real : f ≠ .none) (value : Int16)
  | calcPwm

/-- The servos, and whose output was set directly as a pulse last. -/
structure Session where
  servos : Servos
  direct : Fin numServoChannels → Bool

/-- The session after a call. -/
def Session.call (session : Session) : ServoCall → Session
  | .setAuxChannelDefault f _ chan =>
    { session with servos := (session.servos.setAuxChannelDefault f chan).2 }
  | .setDefaultFunction chan f _ =>
    { session with servos := session.servos.setDefaultFunction chan f }
  | .setOutputPwmChan chan value =>
    ⟨session.servos.setOutputPwmChan chan value, Function.update session.direct chan true⟩
  | .setOutputScaled f _ value =>
    ⟨session.servos.setOutputScaled f value,
      fun i => session.direct i && decide ((session.servos.channels i).function ≠ f)⟩
  | .calcPwm => { session with servos := session.servos.calcPwm }

/-- The masks say which channel has which function. -/
def Servos.Booked (servos : Servos) : Prop :=
  ∀ f ≠ AuxServoFunction.none,
    (servos.functionAssigned f = true ↔ ∃ i, (servos.channels i).function = f) ∧
      ∀ i : Fin numServoChannels, (servos.functions f).channelMask.getLsbD i = true ↔
        (servos.channels i).function = f

/-- A scaled output reaches the channels of its function, and no other channel whose pulse was set
directly. -/
def Session.Driven (session : Session) : Prop :=
  ∀ f ≠ AuxServoFunction.none, ∀ (value : Int16) (i : Fin numServoChannels),
    let driven := (session.servos.setOutputScaled f value).calcPwm
    ((session.servos.channels i).function = f →
        (driven.channels i).outputPwm = (session.servos.channels i).conversion value) ∧
      ((session.servos.channels i).function ≠ f → session.direct i = true →
        (driven.channels i).outputPwm = (session.servos.channels i).outputPwm)

/-- A default changes no function of a channel. -/
def KeepsFunction (session : Session) : ServoCall → Prop
  | .setDefaultFunction chan f _ =>
    (session.servos.channels chan).configured = true ∨
      (session.servos.channels chan).function = f
  | _ => True

/-! ### Bits -/

theorem setBit_getLsbD {width : ℕ} (mask : BitVec width) (i j : Fin width) :
    (setBit mask i).getLsbD j = true ↔ mask.getLsbD j = true ∨ j = i := by
  have inside := j.isLt
  rw [setBit, BitVec.getLsbD_or, BitVec.getLsbD_twoPow, Bool.or_eq_true, Bool.and_eq_true,
    decide_eq_true_iff, decide_eq_true_iff, Fin.ext_iff]
  refine or_congr_right ?_
  omega

theorem clear_getLsbD {width : ℕ} (mask other : BitVec width) (i : Fin width) :
    (mask &&& ~~~ other).getLsbD i = true ↔
      mask.getLsbD i = true ∧ ¬ other.getLsbD i = true := by
  have inside := i.isLt
  rw [BitVec.getLsbD_and, BitVec.getLsbD_not, decide_eq_true inside]
  simp

theorem enter_getLsbD (functions : AuxServoFunction → SrvFunction) (g f : AuxServoFunction)
    (chan i : Fin numServoChannels) :
    (Function.update functions g
      { functions g with channelMask := setBit (functions g).channelMask chan }
      f).channelMask.getLsbD i = true ↔
      (functions f).channelMask.getLsbD i = true ∨ i = chan ∧ g = f := by
  rcases eq_or_ne f g with rfl | other
  · rw [Function.update_self, setBit_getLsbD, and_iff_left rfl]
  · rw [Function.update_of_ne other]
    exact (or_iff_left fun both => other both.2.symm).symm

/-! ### Setting up -/

section Setup

variable (servos : Servos)

@[simp] theorem auxServoFunctionSetup_function (channel : SrvChannel) :
    channel.auxServoFunctionSetup.function = channel.function := by
  rw [SrvChannel.auxServoFunctionSetup]
  split_ifs <;> rfl

theorem foldl_setupChannel (entered : List (Fin numServoChannels)) :
    let set := entered.foldl Servos.setupChannel servos
    (∀ i, (set.channels i).function = (servos.channels i).function) ∧
      (∀ f, set.functionAssigned f = true ↔
        servos.functionAssigned f = true ∨ ∃ i ∈ entered, (servos.channels i).function = f) ∧
      ∀ f (i : Fin numServoChannels), (set.functions f).channelMask.getLsbD i = true ↔
        (servos.functions f).channelMask.getLsbD i = true ∨
          i ∈ entered ∧ (servos.channels i).function = f := by
  induction entered generalizing servos with
  | nil => simp
  | cons first rest inductionHypothesis =>
    obtain ⟨functions, assigned, masks⟩ := inductionHypothesis (servos.setupChannel first)
    have same : ∀ i, ((servos.setupChannel first).channels i).function =
        (servos.channels i).function := by
      intro i
      rw [Servos.setupChannel]
      rcases eq_or_ne i first with rfl | other
      · simp only [Function.update_self, auxServoFunctionSetup_function]
      · simp only [Function.update_of_ne other]
    rw [List.foldl_cons]
    refine ⟨fun i => (functions i).trans (same i), fun f => ?_, fun f i => ?_⟩
    · rw [assigned, List.exists_mem_cons_iff, ← or_assoc]
      simp only [same]
      refine or_congr_left ?_
      rw [Servos.functionAssigned, Servos.setupChannel, setBit_getLsbD]
      exact or_congr_right eq_comm
    · rw [masks, same, List.mem_cons, or_and_right, ← or_assoc]
      refine or_congr_left ?_
      refine (enter_getLsbD _ _ _ _ _).trans (or_congr_right (and_congr_right fun here => ?_))
      rw [here]

/-- After the set-up the masks agree with the parameters. -/
theorem updateAuxServoFunction_booked : servos.updateAuxServoFunction.Booked := by
  obtain ⟨functions, assigned, masks⟩ := foldl_setupChannel
    { servos with
      functionMask := 0
      functions := fun f => { servos.functions f with channelMask := 0 } }
    (List.finRange numServoChannels)
  intro f _
  have kept : ∀ i, (servos.updateAuxServoFunction.channels i).function =
      (servos.channels i).function := functions
  have noBit : ∀ (width i : ℕ), (0 : BitVec width).getLsbD i ≠ true := by simp
  refine ⟨(assigned f).trans ?_, fun i => (masks f i).trans ?_⟩
  · simp only [kept]
    refine (or_iff_right (noBit _ _)).trans ?_
    exact ⟨fun ⟨i, _, here⟩ => ⟨i, here⟩, fun ⟨i, here⟩ => ⟨i, List.mem_finRange i, here⟩⟩
  · rw [kept]
    refine (or_iff_right (noBit _ _)).trans ?_
    exact and_iff_right (List.mem_finRange i)

end Setup

/-! ### Keeping the books -/

section Books

variable {servos : Servos}

theorem Servos.Booked.same {servos' : Servos} (booked : servos.Booked)
    (mask : servos'.functionMask = servos.functionMask)
    (masks : ∀ f, (servos'.functions f).channelMask = (servos.functions f).channelMask)
    (functions : ∀ i, (servos'.channels i).function = (servos.channels i).function) :
    servos'.Booked := by
  intro f real
  rw [Servos.functionAssigned, mask, masks]
  simp only [functions]
  exact booked f real

theorem setAuxChannelDefault_booked (booked : servos.Booked) (initialised : servos.initialised = true)
    (g : AuxServoFunction) (chan : Fin numServoChannels) :
    (servos.setAuxChannelDefault g chan).2.Booked ∧
      (servos.setAuxChannelDefault g chan).2.initialised = true ∧
      (servos.setAuxChannelDefault g chan).2.havePwmMask = servos.havePwmMask := by
  rw [Servos.setAuxChannelDefault, if_pos initialised]
  simp only
  split
  · exact ⟨booked, initialised, rfl⟩
  · rename_i free
    split
    · exact ⟨booked, initialised, rfl⟩
    · rename_i idle
      refine ⟨fun f real => ?_, initialised, rfl⟩
      obtain ⟨assigned, masks⟩ := booked f real
      have given : ∀ i, (Function.update servos.channels chan
          ({ servos.channels chan with
            typeSetup := false, function := g } : SrvChannel).auxServoFunctionSetup i).function = f ↔
          (servos.channels i).function = f ∨ i = chan ∧ g = f := by
        intro i
        rcases eq_or_ne i chan with rfl | other
        · have notBefore : (servos.channels i).function ≠ f := by
            rw [not_not.mp idle]
            exact real.symm
          rw [Function.update_self, auxServoFunctionSetup_function, or_iff_right notBefore,
            and_iff_right rfl]
        · rw [Function.update_of_ne other]
          exact (or_iff_left fun both => other both.1).symm
      simp only [given]
      constructor
      · rw [Servos.functionAssigned, setBit_getLsbD, exists_or, ← assigned, Servos.functionAssigned]
        exact or_congr_right ⟨fun same => ⟨chan, rfl, same.symm⟩, fun ⟨_, _, same⟩ => same.symm⟩
      · intro i
        rw [enter_getLsbD, masks]

theorem setDefaultFunction_booked (booked : servos.Booked) {g : AuxServoFunction}
    {chan : Fin numServoChannels}
    (keeps : (servos.channels chan).configured = true ∨ (servos.channels chan).function = g) :
    (servos.setDefaultFunction chan g).Booked := by
  have kept : (if (servos.channels chan).configured = true then servos.channels chan
      else { servos.channels chan with function := g }).function =
        (servos.channels chan).function := by
    split
    · rfl
    · rename_i free
      exact (keeps.resolve_left free).symm
  have functions : ∀ i, ((servos.setDefaultFunction chan g).channels i).function =
      (servos.channels i).function := by
    intro i
    rw [Servos.setDefaultFunction]
    rcases eq_or_ne i chan with rfl | other
    · simp only [Function.update_self]
      exact kept
    · simp only [Function.update_of_ne other]
  have mask : (servos.setDefaultFunction chan g).functionMask = servos.functionMask := by
    rw [Servos.setDefaultFunction]
    exact if_neg fun both => both.1 kept.symm
  exact booked.same mask (fun _ => rfl) functions

end Books

/-! ### Driving the outputs -/

section Outputs

/-- What `calc_pwm` makes of a channel. -/
def Servos.driven (servos : Servos) (i : Fin numServoChannels) : ℤ :=
  if servos.havePwmMask.getLsbD i = true then (servos.channels i).outputPwm
  else (servos.channels i).conversion (servos.functions (servos.channels i).function).outputScaled

/-- Some channels have been driven, and nothing else has changed. -/
structure Servos.Drives (servos set : Servos) (passed : List (Fin numServoChannels)) : Prop where
  functions : set.functions = servos.functions
  functionMask : set.functionMask = servos.functionMask
  initialised : set.initialised = servos.initialised
  havePwm : ∀ i : Fin numServoChannels, set.havePwmMask.getLsbD i = true ↔
    servos.havePwmMask.getLsbD i = true ∨ i ∈ passed
  channels : ∀ i, set.channels i = { servos.channels i with
    outputPwm := if i ∈ passed then servos.driven i else (servos.channels i).outputPwm }

/-- A channel whose pulse is known is not driven again. -/
theorem calcChannel_drives (servos : Servos) (first : Fin numServoChannels) :
    servos.Drives (servos.calcChannel first) [first] := by
  by_cases set : servos.havePwmMask.getLsbD first = true
  · have same : servos.calcChannel first = servos := if_pos set
    have driven : servos.driven first = (servos.channels first).outputPwm := if_pos set
    rw [same]
    refine ⟨rfl, rfl, rfl, fun i => ?_, fun i => ?_⟩
    · rw [List.mem_singleton, iff_self_or]
      rintro rfl
      exact set
    · rcases eq_or_ne i first with rfl | other
      · rw [driven, ite_self]
      · rw [if_neg fun member => other (List.mem_singleton.mp member)]
  · have driven : servos.driven first = (servos.channels first).conversion
        (servos.functions (servos.channels first).function).outputScaled := if_neg set
    have next : servos.calcChannel first = servos.setOutputPwm first (servos.driven first) := by
      rw [driven]
      exact if_neg set
    rw [next]
    refine ⟨rfl, rfl, rfl, fun i => ?_, fun i => ?_⟩
    · rw [List.mem_singleton]
      exact setBit_getLsbD _ _ _
    · rcases eq_or_ne i first with rfl | other
      · rw [if_pos (List.mem_singleton_self i)]
        exact Function.update_self _ _ _
      · rw [if_neg fun member => other (List.mem_singleton.mp member)]
        exact Function.update_of_ne other _ _

section Drives

variable {servos middle set : Servos} {first second : List (Fin numServoChannels)}

theorem Servos.Drives.driven (drives : servos.Drives middle first) (i : Fin numServoChannels) :
    middle.driven i = servos.driven i := by
  rw [Servos.driven, Servos.driven, drives.functions, drives.channels i]
  by_cases before : servos.havePwmMask.getLsbD i = true
  · have same : servos.driven i = (servos.channels i).outputPwm := if_pos before
    rw [if_pos ((drives.havePwm i).mpr (Or.inl before)), if_pos before]
    simp only [same, ite_self]
  · by_cases member : i ∈ first
    · have pulse : servos.driven i = (servos.channels i).conversion
          (servos.functions (servos.channels i).function).outputScaled := if_neg before
      rw [if_pos ((drives.havePwm i).mpr (Or.inr member)), if_neg before]
      simp only [member, if_true, pulse]
    · rw [if_neg fun now => ((drives.havePwm i).mp now).elim before member, if_neg before]
      rfl

theorem Servos.Drives.append (drives : servos.Drives middle first)
    (later : middle.Drives set second) : servos.Drives set (first ++ second) := by
  refine ⟨later.functions.trans drives.functions, later.functionMask.trans drives.functionMask,
    later.initialised.trans drives.initialised, fun i => ?_, fun i => ?_⟩
  · rw [later.havePwm, drives.havePwm, List.mem_append, or_assoc]
  · rw [later.channels, drives.driven, drives.channels]
    by_cases member : i ∈ first
    · simp only [member, List.mem_append, true_or, if_true, ite_self]
    · simp only [member, List.mem_append, false_or, if_false]

theorem foldl_calcChannel (servos : Servos) (passed : List (Fin numServoChannels)) :
    servos.Drives (passed.foldl Servos.calcChannel servos) passed := by
  induction passed generalizing servos with
  | nil => exact ⟨rfl, rfl, rfl, by simp, by simp⟩
  | cons first rest inductionHypothesis =>
    exact (calcChannel_drives servos first).append (inductionHypothesis (servos.calcChannel first))

end Drives

theorem calcPwm_eq (servos : Servos) :
    servos.calcPwm.functions = servos.functions ∧
      servos.calcPwm.functionMask = servos.functionMask ∧
      servos.calcPwm.initialised = servos.initialised ∧
      ∀ i, servos.calcPwm.channels i = { servos.channels i with outputPwm := servos.driven i } ∧
        servos.calcPwm.havePwmMask.getLsbD i = true := by
  have drives := foldl_calcChannel servos (List.finRange numServoChannels)
  refine ⟨drives.functions, drives.functionMask, drives.initialised, fun i =>
    ⟨(drives.channels i).trans ?_, ?_⟩⟩
  · rw [if_pos (List.mem_finRange i)]
  · exact (drives.havePwm i).mpr (Or.inr (List.mem_finRange i))

/-- What is kept by every call: the books are right, and a pulse that was set directly is not
driven. -/
structure Session.Kept (session : Session) : Prop where
  booked : session.servos.Booked
  initialised : session.servos.initialised = true
  direct : ∀ i, session.direct i = true → session.servos.havePwmMask.getLsbD i = true

theorem Session.Kept.driven {session : Session} (kept : session.Kept) : session.Driven := by
  intro f real value i
  obtain ⟨-, masks⟩ := kept.booked f real
  obtain ⟨-, -, -, channels⟩ := calcPwm_eq (session.servos.setOutputScaled f value)
  have cleared : (session.servos.setOutputScaled f value).havePwmMask.getLsbD i = true ↔
      session.servos.havePwmMask.getLsbD i = true ∧ (session.servos.channels i).function ≠ f := by
    refine (clear_getLsbD _ _ _).trans ?_
    rw [masks]
  simp only
  rw [(channels i).1]
  constructor
  · intro here
    rw [Servos.driven, if_neg fun set => (cleared.mp set).2 here]
    have scaled : ((session.servos.setOutputScaled f value).functions
        ((session.servos.setOutputScaled f value).channels i).function).outputScaled = value := by
      rw [Servos.setOutputScaled]
      simp only
      rw [here, Function.update_self]
    rw [scaled]
    rfl
  · intro other direct
    rw [Servos.driven, if_pos (cleared.mpr ⟨kept.direct i direct, other⟩)]
    rfl

theorem call_kept {session : Session} (call : ServoCall) (kept : session.Kept)
    (keeps : KeepsFunction session call) : (session.call call).Kept := by
  obtain ⟨booked, initialised, direct⟩ := kept
  cases call with
  | setAuxChannelDefault f real chan =>
    obtain ⟨booked', initialised', same⟩ := setAuxChannelDefault_booked booked initialised f chan
    refine ⟨booked', initialised', fun i set => ?_⟩
    exact same ▸ direct i set
  | setDefaultFunction chan f real =>
    exact ⟨setDefaultFunction_booked booked keeps, initialised, direct⟩
  | setOutputPwmChan chan value =>
    refine ⟨booked.same rfl (fun _ => rfl) fun i => ?_, initialised, fun i set => ?_⟩
    · rw [Session.call, Servos.setOutputPwmChan, Servos.setOutputPwm]
      rcases eq_or_ne i chan with rfl | other
      · simp only [Function.update_self]
      · simp only [Function.update_of_ne other]
    · refine (setBit_getLsbD _ _ _).mpr ?_
      rcases eq_or_ne i chan with rfl | other
      · exact Or.inr rfl
      · exact Or.inl (direct i ((Function.update_of_ne other _ _).symm.trans set))
  | setOutputScaled f real value =>
    refine ⟨booked.same rfl (fun g => ?_) fun _ => rfl, initialised, fun i set => ?_⟩
    · rw [Session.call, Servos.setOutputScaled]
      rcases eq_or_ne g f with rfl | other
      · simp only [Function.update_self]
      · simp only [Function.update_of_ne other]
    · obtain ⟨before, other⟩ := (Bool.and_eq_true _ _).mp set
      refine (clear_getLsbD _ _ _).mpr ⟨direct i before, ?_⟩
      rw [(booked f real).2 i]
      exact of_decide_eq_true other
  | calcPwm =>
    obtain ⟨functions, mask, same, channels⟩ := calcPwm_eq session.servos
    refine ⟨booked.same mask (fun f => ?_) fun i => ?_, same.trans initialised,
      fun i _ => (channels i).2⟩
    · exact congrArg (fun functions => (functions f).channelMask) functions
    · have driven := congrArg SrvChannel.function (channels i).1
      exact driven

/-- In a run in which no default changes the function of a channel, the masks agree with the
parameters, and scaled outputs reach the channels of their function and no others. -/
theorem session_driven (servos : Servos) (calls : List ServoCall)
    (keeps : Along Session.call (fun _ => True) KeepsFunction
      ⟨servos.updateAuxServoFunction, fun _ => false⟩ calls) :
    let session := runCalls Session.call ⟨servos.updateAuxServoFunction, fun _ => false⟩ calls
    session.servos.Booked ∧ session.Driven := by
  have start : Session.Kept ⟨servos.updateAuxServoFunction, fun _ => false⟩ :=
    ⟨updateAuxServoFunction_booked servos, rfl, fun _ set => absurd set Bool.false_ne_true⟩
  have kept : Session.Kept
      (runCalls Session.call ⟨servos.updateAuxServoFunction, fun _ => false⟩ calls) :=
    keeps.invariant (fun _ call => call_kept call) start
  exact ⟨kept.booked, kept.driven⟩

/-- A channel without a function. -/
def idleChannel : SrvChannel where
  scale := ⟨1100, 1900, 1500, false, 0⟩
  function := .none
  configured := false
  outputPwm := 0
  typeAngle := false
  typeSetup := false
  angled := fun impossible => absurd impossible Bool.false_ne_true

/-- No function is assigned. -/
def idleServos : Servos := ⟨fun _ => idleChannel, 0, fun _ => ⟨0, 0⟩, 0, false⟩

/-- `k_throttle`. -/
def throttle : AuxServoFunction := ⟨70, by decide⟩

/-- Channel 3 is configured, for the throttle as well. -/
def throttleServos : Servos :=
  { idleServos with
    channels := Function.update idleServos.channels ⟨3, by decide⟩
      { idleChannel with function := throttle, configured := true } }

/-- Defaults for channel 2 and for the configured channel 3, whose pulse was set directly. -/
theorem session_driven_throttle :
    let session := runCalls Session.call ⟨throttleServos.updateAuxServoFunction, fun _ => false⟩
      [.setAuxChannelDefault throttle (by decide) ⟨2, by decide⟩,
        .setOutputPwmChan ⟨3, by decide⟩ 1500,
        .setDefaultFunction ⟨3, by decide⟩ ⟨4, by decide⟩ (by decide)]
    session.servos.Booked ∧ session.Driven :=
  session_driven throttleServos [.setAuxChannelDefault throttle (by decide) ⟨2, by decide⟩,
      .setOutputPwmChan ⟨3, by decide⟩ 1500,
      .setDefaultFunction ⟨3, by decide⟩ ⟨4, by decide⟩ (by decide)]
    ⟨trivial, trivial, trivial, trivial, trivial, .inl (by decide +kernel), trivial⟩

/-- A channel that has the throttle by default is not in its mask, and keeps a pulse that was set before
when the throttle is driven. -/
theorem default_not_booked :
    let session := runCalls Session.call ⟨idleServos.updateAuxServoFunction, fun _ => false⟩
      [.setOutputPwmChan ⟨2, by decide⟩ 1500, .setDefaultFunction ⟨2, by decide⟩ throttle (by decide)]
    ¬ session.servos.Booked ∧ ¬ session.Driven := by
  constructor
  · intro booked
    exact absurd ((booked throttle (by decide)).2 ⟨2, by decide⟩) (by decide +kernel)
  · intro driven
    exact absurd ((driven throttle (by decide) 100 ⟨2, by decide⟩).1) (by decide +kernel)

end Outputs

end Urus.Servo
