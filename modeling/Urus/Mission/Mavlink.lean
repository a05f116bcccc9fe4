/-
This file models the two conversions between the mission library and MAVLink: a mission
item that is uploaded becomes a command, and a command that is downloaded becomes a
mission item.

The content of a command is a union. Which member of it is in use is decided by the
identifier, so a command here carries the member that its identifier uses, and no other
content can be built. Items carry floating point parameters. They are taken as exact
rationals; stored in an integer field they lose their fraction, and a number that does not
fit wraps around.

Both conversions have two halves. The first one is decided by the identifier and treats the
parameters. The second one treats the position, and only for the commands that have one.
-/

import Mathlib.Data.Rat.Floor
import Mathlib.Tactic

namespace Urus.ApMission

/-! ### Numbers -/

/-- What a floating point number is stored as in an integer field: its fraction is cut off. -/
def wholePart (value : ℚ) : Int := value.num.tdiv value.den

def toUint8 (value : ℚ) : UInt8 := UInt8.ofInt (wholePart value)
def toUint16 (value : ℚ) : UInt16 := UInt16.ofInt (wholePart value)
def toInt8 (value : ℚ) : Int8 := Int8.ofInt (wholePart value)
def toInt16 (value : ℚ) : Int16 := Int16.ofInt (wholePart value)
def toInt32 (value : ℚ) : Int32 := Int32.ofInt (wholePart value)

/-- The altitude of a location has 24 bits. -/
def toInt24 (value : ℚ) : Int := (wholePart value).bmod (2 ^ 24)

/-- `is_negative`: at most minus `FLT_EPSILON`. -/
def isNegative (value : ℚ) : Bool := value ≤ -(1 / 2 ^ 23)

/-- `LOWBYTE` and `HIGHBYTE`. -/
def lowByte (value : UInt16) : UInt8 := value.toUInt8
def highByte (value : UInt16) : UInt8 := (value >>> 8).toUInt8

/-- Two parameters in the bytes of one. -/
def packBytes (high low : UInt16) : UInt16 := (high <<< 8) ||| (low &&& 0x00FF)

def flag (value : Bool) : ℚ := if value then 1 else 0

/-! ### The content of commands -/

structure Location where
  relativeAlt : Bool
  loiterCcw : Bool
  terrainAlt : Bool
  originAlt : Bool
  loiterXtrack : Bool
  alt : Int
  lat : Int32
  lng : Int32
  deriving DecidableEq

structure JumpCommand where
  target : UInt16
  numTimes : Int16
  deriving DecidableEq

structure YawCommand where
  angleDeg : ℚ
  turnRateDps : ℚ
  direction : Int8
  relativeAngle : UInt8
  deriving DecidableEq

structure ChangeSpeedCommand where
  speedType : UInt8
  targetMs : ℚ
  throttlePct : ℚ
  deriving DecidableEq

structure SetRelayCommand where
  num : UInt8
  state : UInt8
  deriving DecidableEq

structure RepeatRelayCommand where
  num : UInt8
  repeatCount : Int16
  cycleTime : ℚ
  deriving DecidableEq

structure SetServoCommand where
  channel : UInt8
  pwm : UInt16
  deriving DecidableEq

structure RepeatServoCommand where
  channel : UInt8
  pwm : UInt16
  repeatCount : Int16
  cycleTime : ℚ
  deriving DecidableEq

structure MountControl where
  pitch : ℚ
  roll : ℚ
  yaw : ℚ
  deriving DecidableEq

structure DigicamConfigure where
  shootingMode : UInt8
  shutterSpeed : UInt16
  aperture : UInt8
  iso : UInt16
  exposureType : UInt8
  cmdId : UInt8
  engineCutoffTime : ℚ
  deriving DecidableEq

structure DigicamControl where
  session : UInt8
  zoomPos : UInt8
  zoomStep : Int8
  focusLock : UInt8
  shootingCmd : UInt8
  cmdId : UInt8
  deriving DecidableEq

structure GripperCommand where
  num : UInt8
  action : UInt8
  deriving DecidableEq

structure AltitudeWait where
  altitude : ℚ
  descentRate : ℚ
  wiggleTime : UInt8
  deriving DecidableEq

structure GuidedLimitsCommand where
  altMin : ℚ
  altMax : ℚ
  horizMax : ℚ
  deriving DecidableEq

structure NavigationDelayCommand where
  seconds : ℚ
  hourUtc : Int8
  minUtc : Int8
  secUtc : Int8
  deriving DecidableEq

structure DoEngineControl where
  startControl : Bool
  coldStart : Bool
  heightDelayCm : UInt16
  deriving DecidableEq

structure SetYawSpeed where
  angleDeg : ℚ
  speed : ℚ
  relativeAngle : UInt8
  deriving DecidableEq

structure WinchCommand where
  num : UInt8
  action : UInt8
  releaseLength : ℚ
  releaseRate : ℚ
  deriving DecidableEq

/-- The members of the union. A command may also do without any. -/
inductive Member
  | unused
  | location
  | jump
  | delay
  | distance
  | yaw
  | speed
  | relay
  | repeatRelay
  | servo
  | repeatServo
  | mountControl
  | digicamConfigure
  | digicamControl
  | camTriggDist
  | gripper
  | guidedLimits
  | altitudeWait
  | doVtolTransition
  | doEngineControl
  | navDelay
  | setYawSpeed
  | winch
  deriving DecidableEq

/-- The content of a member. The structures with one field are that field. -/
@[reducible]
def Member.Content : Member → Type
  | .unused => Unit
  | .location => Location
  | .jump => JumpCommand
  | .delay => ℚ
  | .distance => ℚ
  | .yaw => YawCommand
  | .speed => ChangeSpeedCommand
  | .relay => SetRelayCommand
  | .repeatRelay => RepeatRelayCommand
  | .servo => SetServoCommand
  | .repeatServo => RepeatServoCommand
  | .mountControl => MountControl
  | .digicamConfigure => DigicamConfigure
  | .digicamControl => DigicamControl
  | .camTriggDist => ℚ
  | .gripper => GripperCommand
  | .guidedLimits => GuidedLimitsCommand
  | .altitudeWait => AltitudeWait
  | .doVtolTransition => UInt8
  | .doEngineControl => DoEngineControl
  | .navDelay => NavigationDelayCommand
  | .setYawSpeed => SetYawSpeed
  | .winch => WinchCommand

instance decidableEqMemberContent : ∀ member : Member, DecidableEq member.Content
  | .unused => inferInstanceAs (DecidableEq Unit)
  | .location => inferInstanceAs (DecidableEq Location)
  | .jump => inferInstanceAs (DecidableEq JumpCommand)
  | .delay => inferInstanceAs (DecidableEq ℚ)
  | .distance => inferInstanceAs (DecidableEq ℚ)
  | .yaw => inferInstanceAs (DecidableEq YawCommand)
  | .speed => inferInstanceAs (DecidableEq ChangeSpeedCommand)
  | .relay => inferInstanceAs (DecidableEq SetRelayCommand)
  | .repeatRelay => inferInstanceAs (DecidableEq RepeatRelayCommand)
  | .servo => inferInstanceAs (DecidableEq SetServoCommand)
  | .repeatServo => inferInstanceAs (DecidableEq RepeatServoCommand)
  | .mountControl => inferInstanceAs (DecidableEq MountControl)
  | .digicamConfigure => inferInstanceAs (DecidableEq DigicamConfigure)
  | .digicamControl => inferInstanceAs (DecidableEq DigicamControl)
  | .camTriggDist => inferInstanceAs (DecidableEq ℚ)
  | .gripper => inferInstanceAs (DecidableEq GripperCommand)
  | .guidedLimits => inferInstanceAs (DecidableEq GuidedLimitsCommand)
  | .altitudeWait => inferInstanceAs (DecidableEq AltitudeWait)
  | .doVtolTransition => inferInstanceAs (DecidableEq UInt8)
  | .doEngineControl => inferInstanceAs (DecidableEq DoEngineControl)
  | .navDelay => inferInstanceAs (DecidableEq NavigationDelayCommand)
  | .setYawSpeed => inferInstanceAs (DecidableEq SetYawSpeed)
  | .winch => inferInstanceAs (DecidableEq WinchCommand)

/-! ### The commands -/

/-- The commands that the library converts. -/
inductive MavCmd
  | navWaypoint
  | navLoiterUnlim
  | navLoiterTurns
  | navLoiterTime
  | navReturnToLaunch
  | navLand
  | navTakeoff
  | navContinueAndChangeAlt
  | navLoiterToAlt
  | navSplineWaypoint
  | navGuidedEnable
  | navDelay
  | conditionDelay
  | conditionDistance
  | conditionYaw
  | doSetMode
  | doJump
  | doChangeSpeed
  | doSetHome
  | doSetRelay
  | doRepeatRelay
  | doSetServo
  | doRepeatServo
  | doLandStart
  | doSetRoi
  | doDigicamConfigure
  | doDigicamControl
  | doMountControl
  | doSetCamTriggDist
  | doFenceEnable
  | doParachute
  | doInvertedFlight
  | doGripper
  | doGuidedLimits
  | doAutotuneEnable
  | navAltitudeWait
  | navVtolTakeoff
  | navVtolLand
  | doVtolTransition
  | doSetReverse
  | doEngineControl
  | navPayloadPlace
  | navSetYawSpeed
  | doWinch
  deriving DecidableEq

namespace MavCmd

/-- The identifiers. -/
def id : MavCmd → UInt16
  | navWaypoint => 16
  | navLoiterUnlim => 17
  | navLoiterTurns => 18
  | navLoiterTime => 19
  | navReturnToLaunch => 20
  | navLand => 21
  | navTakeoff => 22
  | navContinueAndChangeAlt => 30
  | navLoiterToAlt => 31
  | navSplineWaypoint => 82
  | navAltitudeWait => 83
  | navVtolTakeoff => 84
  | navVtolLand => 85
  | navGuidedEnable => 92
  | navDelay => 93
  | navPayloadPlace => 94
  | conditionDelay => 112
  | conditionDistance => 114
  | conditionYaw => 115
  | doSetMode => 176
  | doJump => 177
  | doChangeSpeed => 178
  | doSetHome => 179
  | doSetRelay => 181
  | doRepeatRelay => 182
  | doSetServo => 183
  | doRepeatServo => 184
  | doLandStart => 189
  | doSetReverse => 194
  | doSetRoi => 201
  | doDigicamConfigure => 202
  | doDigicamControl => 203
  | doMountControl => 205
  | doSetCamTriggDist => 206
  | doFenceEnable => 207
  | doParachute => 208
  | doInvertedFlight => 210
  | doGripper => 211
  | doAutotuneEnable => 212
  | navSetYawSpeed => 213
  | doGuidedLimits => 222
  | doEngineControl => 223
  | doVtolTransition => 3000
  | doWinch => 42600

/-- All commands, in the order of the conversion. -/
def all : List MavCmd :=
  [navWaypoint, navLoiterUnlim, navLoiterTurns, navLoiterTime, navReturnToLaunch, navLand,
    navTakeoff, navContinueAndChangeAlt, navLoiterToAlt, navSplineWaypoint, navGuidedEnable,
    navDelay, conditionDelay, conditionDistance, conditionYaw, doSetMode, doJump, doChangeSpeed,
    doSetHome, doSetRelay, doRepeatRelay, doSetServo, doRepeatServo, doLandStart, doSetRoi,
    doDigicamConfigure, doDigicamControl, doMountControl, doSetCamTriggDist, doFenceEnable,
    doParachute, doInvertedFlight, doGripper, doGuidedLimits, doAutotuneEnable, navAltitudeWait,
    navVtolTakeoff, navVtolLand, doVtolTransition, doSetReverse, doEngineControl, navPayloadPlace,
    navSetYawSpeed, doWinch]

/-- The command with an identifier. -/
def ofId (id : UInt16) : Option MavCmd := all.find? fun cmd => cmd.id == id

/-- The member of the union that a command uses. The ones that use the location are those whose
location is copied. -/
@[reducible]
def member : MavCmd → Member
  | navWaypoint | navLoiterUnlim | navLoiterTurns | navLoiterTime | navLand | navTakeoff
  | navContinueAndChangeAlt | navLoiterToAlt | navSplineWaypoint | doSetHome | doLandStart
  | doSetRoi | navVtolTakeoff | navVtolLand | navPayloadPlace => .location
  | navReturnToLaunch | navGuidedEnable | doSetMode | doFenceEnable | doParachute
  | doInvertedFlight | doAutotuneEnable | doSetReverse => .unused
  | navDelay => .navDelay
  | conditionDelay => .delay
  | conditionDistance => .distance
  | conditionYaw => .yaw
  | doJump => .jump
  | doChangeSpeed => .speed
  | doSetRelay => .relay
  | doRepeatRelay => .repeatRelay
  | doSetServo => .servo
  | doRepeatServo => .repeatServo
  | doDigicamConfigure => .digicamConfigure
  | doDigicamControl => .digicamControl
  | doMountControl => .mountControl
  | doSetCamTriggDist => .camTriggDist
  | doGripper => .gripper
  | doGuidedLimits => .guidedLimits
  | navAltitudeWait => .altitudeWait
  | doVtolTransition => .doVtolTransition
  | doEngineControl => .doEngineControl
  | navSetYawSpeed => .setYawSpeed
  | doWinch => .winch

/-- The commands are told apart by their identifiers, and none has the reserved one. -/
theorem ofId_id (id : MavCmd) : ofId id.id = some id := by
  cases id <;> rfl

theorem id_injective {first second : MavCmd} (same : first.id = second.id) : first = second := by
  have found := first.ofId_id
  rw [same, second.ofId_id] at found
  exact (Option.some.inj found).symm

theorem id_ne_zero (id : MavCmd) : id.id ≠ 0 := by
  cases id <;> decide

end MavCmd

/-- A command, with the content that its identifier uses. -/
structure Command where
  index : UInt16
  id : MavCmd
  p1 : UInt16
  content : id.member.Content
  deriving DecidableEq

/-! ### Mission items -/

/-- `MISSION_ITEM_INT`: latitude and longitude are integers. -/
structure MissionItemInt where
  param1 : ℚ
  param2 : ℚ
  param3 : ℚ
  param4 : ℚ
  x : Int32
  y : Int32
  z : ℚ
  seq : UInt16
  command : UInt16
  frame : UInt8
  current : UInt8
  autocontinue : UInt8
  deriving DecidableEq

/-- `MISSION_ITEM`: latitude and longitude are in degrees. -/
structure MissionItem where
  param1 : ℚ
  param2 : ℚ
  param3 : ℚ
  param4 : ℚ
  x : ℚ
  y : ℚ
  z : ℚ
  seq : UInt16
  command : UInt16
  frame : UInt8
  current : UInt8
  autocontinue : UInt8
  deriving DecidableEq

/-- The results that the library and the upload report. -/
inductive MavMissionResult
  | accepted
  | error
  | unsupportedFrame
  | unsupported
  | noSpace
  | invalid
  | invalidParam5X
  | invalidParam6Y
  | invalidParam7
  | invalidSequence
  deriving DecidableEq

/-- The frames that the library knows. -/
def frameGlobal : UInt8 := 0
def frameMission : UInt8 := 2
def frameGlobalRelativeAlt : UInt8 := 3
def frameGlobalTerrainAlt : UInt8 := 10

/-- What the conversions depend on at compile time: whether the vehicle is a plane, and whether
there is terrain data. -/
structure Build where
  plane : Bool
  terrain : Bool

/-- `LOCATION_ALT_MAX_M`. -/
def locationAltMaxM : ℚ := 83000

def checkLat (lat : Int32) : Bool := lat.toInt.natAbs ≤ 900000000
def checkLng (lng : Int32) : Bool := lng.toInt.natAbs ≤ 1800000000

/-! ### From an item to a command -/

/-- A location whose options are zero and of which nothing else is known: the callers pass
zeroed commands. -/
def zeroedLocation : Location := ⟨false, false, false, false, false, 0, 0, 0⟩

/-- The conversions of the parameters, command by command: the parameter `p1`, and the content up
to the position of a location. -/
def readParams (build : Build) (packet : MissionItemInt) :
    (id : MavCmd) → UInt16 × id.member.Content
  | .navWaypoint =>
    if build.plane then
      let acp := toUint16 packet.param2
      let passby := toUint16 packet.param3
      let passby := min 0xFF passby
      let acp := min 0xFF acp
      (packBytes passby acp, zeroedLocation)
    else (toUint16 packet.param1, zeroedLocation)
  | .navLoiterUnlim =>
    (toUint16 |packet.param3|, { zeroedLocation with loiterCcw := packet.param3 < 0 })
  | .navLoiterTurns =>
    let numTurns := toUint16 packet.param1
    let radiusM := toUint16 |packet.param3|
    (packBytes radiusM numTurns, { zeroedLocation with
      loiterCcw := packet.param3 < 0
      loiterXtrack := packet.param4 > 0 })
  | .navLoiterTime =>
    (toUint16 packet.param1, { zeroedLocation with
      loiterCcw := packet.param3 < 0
      loiterXtrack := packet.param4 > 0 })
  | .navReturnToLaunch => (0, ())
  | .navLand =>
    (toUint16 packet.param1, { zeroedLocation with loiterCcw := isNegative packet.param4 })
  | .navTakeoff => (toUint16 packet.param1, zeroedLocation)
  | .navContinueAndChangeAlt => (toUint16 packet.param1, zeroedLocation)
  | .navLoiterToAlt =>
    (toUint16 |packet.param2|, { zeroedLocation with
      loiterCcw := packet.param2 < 0
      loiterXtrack := packet.param4 > 0 })
  | .navSplineWaypoint => (toUint16 packet.param1, zeroedLocation)
  | .navGuidedEnable => (toUint16 packet.param1, ())
  | .navDelay =>
    (0, {
      seconds := packet.param1
      hourUtc := toInt8 packet.param2
      minUtc := toInt8 packet.param3
      secUtc := toInt8 packet.param4 })
  | .conditionDelay => (0, packet.param1)
  | .conditionDistance => (0, packet.param1)
  | .conditionYaw =>
    (0, {
      angleDeg := packet.param1
      turnRateDps := packet.param2
      direction := toInt8 packet.param3
      relativeAngle := toUint8 packet.param4 })
  | .doSetMode => (toUint16 packet.param1, ())
  | .doJump => (0, { target := toUint16 packet.param1, numTimes := toInt16 packet.param2 })
  | .doChangeSpeed =>
    (0, {
      speedType := toUint8 packet.param1
      targetMs := packet.param2
      throttlePct := packet.param3 })
  | .doSetHome => (toUint16 packet.param1, zeroedLocation)
  | .doSetRelay => (0, { num := toUint8 packet.param1, state := toUint8 packet.param2 })
  | .doRepeatRelay =>
    (0, {
      num := toUint8 packet.param1
      repeatCount := toInt16 packet.param2
      cycleTime := packet.param3 })
  | .doSetServo => (0, { channel := toUint8 packet.param1, pwm := toUint16 packet.param2 })
  | .doRepeatServo =>
    (0, {
      channel := toUint8 packet.param1
      pwm := toUint16 packet.param2
      repeatCount := toInt16 packet.param3
      cycleTime := packet.param4 })
  | .doLandStart => (0, zeroedLocation)
  | .doSetRoi => (toUint16 packet.param1, zeroedLocation)
  | .doDigicamConfigure =>
    (0, {
      shootingMode := toUint8 packet.param1
      shutterSpeed := toUint16 packet.param2
      aperture := toUint8 packet.param3
      iso := toUint16 packet.param4
      exposureType := UInt8.ofInt packet.x.toInt
      cmdId := UInt8.ofInt packet.y.toInt
      engineCutoffTime := packet.z })
  | .doDigicamControl =>
    (0, {
      session := toUint8 packet.param1
      zoomPos := toUint8 packet.param2
      zoomStep := toInt8 packet.param3
      focusLock := toUint8 packet.param4
      shootingCmd := UInt8.ofInt packet.x.toInt
      cmdId := UInt8.ofInt packet.y.toInt })
  | .doMountControl =>
    (0, { pitch := packet.param1, roll := packet.param2, yaw := packet.param3 })
  | .doSetCamTriggDist => (0, packet.param1)
  | .doFenceEnable => (toUint16 packet.param1, ())
  | .doParachute => (toUint16 packet.param1, ())
  | .doInvertedFlight => (toUint16 packet.param1, ())
  | .doGripper => (0, { num := toUint8 packet.param1, action := toUint8 packet.param2 })
  | .doGuidedLimits =>
    (toUint16 packet.param1, {
      altMin := packet.param2
      altMax := packet.param3
      horizMax := packet.param4 })
  | .doAutotuneEnable => (toUint16 packet.param1, ())
  | .navAltitudeWait =>
    (0, {
      altitude := packet.param1
      descentRate := packet.param2
      wiggleTime := toUint8 packet.param3 })
  | .navVtolTakeoff => (0, zeroedLocation)
  | .navVtolLand => (0, zeroedLocation)
  | .doVtolTransition => (0, toUint8 packet.param1)
  | .doSetReverse => (toUint16 packet.param1, ())
  | .doEngineControl =>
    (0, {
      startControl := packet.param1 > 0
      coldStart := packet.param2 > 0
      heightDelayCm := toUint16 (packet.param3 * 100) })
  | .navPayloadPlace => (toUint16 (packet.param1 * 100), zeroedLocation)
  | .navSetYawSpeed =>
    (0, {
      angleDeg := packet.param1
      speed := packet.param2
      relativeAngle := toUint8 packet.param3 })
  | .doWinch =>
    (0, {
      num := toUint8 packet.param1
      action := toUint8 packet.param2
      releaseLength := packet.param3
      releaseRate := packet.param4 })

/-- The position of an item, copied to a location. -/
def copyLocation (build : Build) (packet : MissionItemInt) (location : Location) :
    Except MavMissionResult Location :=
  if !checkLat packet.x then .error .invalidParam5X
  else if !checkLng packet.y then .error .invalidParam6Y
  else if |packet.z| ≥ locationAltMaxM then .error .invalidParam7
  else
    let location := { location with
      lat := packet.x
      lng := packet.y
      alt := toInt24 (packet.z * 100) }
    if packet.frame = frameMission ∨ packet.frame = frameGlobal then
      .ok { location with relativeAlt := false }
    else if packet.frame = frameGlobalRelativeAlt then .ok { location with relativeAlt := true }
    else if build.terrain ∧ packet.frame = frameGlobalTerrainAlt then
      .ok { location with relativeAlt := true, terrainAlt := true }
    else .error .unsupportedFrame

/-- The second half of the conversion: commands that use the location get the position. -/
def copyContent (build : Build) (packet : MissionItemInt) :
    (member : Member) → member.Content → Except MavMissionResult member.Content
  | .location, location => copyLocation build packet location
  | _, content => .ok content

/-- `mavlink_int_to_mission_cmd`. -/
def mavlinkIntToMissionCmd (build : Build) (packet : MissionItemInt) :
    Except MavMissionResult Command :=
  -- the identifier zero stands in front of a stored 16 bit identifier
  if packet.command = 0 then .error .invalid
  else
    match MavCmd.ofId packet.command with
    | none => .error .unsupported
    | some id =>
      let (p1, content) := readParams build packet id
      match copyContent build packet id.member content with
      | .error result => .error result
      | .ok content => .ok ⟨packet.seq, id, p1, content⟩

/-- `mavlink_to_mission_cmd`: degrees become integers, except for the commands that use the
fields for something else. -/
def mavlinkToMissionCmd (build : Build) (packet : MissionItem) :
    Except MavMissionResult Command :=
  let item (x y : Int32) : MissionItemInt := {
    param1 := packet.param1
    param2 := packet.param2
    param3 := packet.param3
    param4 := packet.param4
    x := x
    y := y
    z := packet.z
    seq := packet.seq
    command := packet.command
    frame := packet.frame
    current := packet.current
    autocontinue := packet.autocontinue }
  if packet.command = MavCmd.doDigicamControl.id ∨
      packet.command = MavCmd.doDigicamConfigure.id then
    mavlinkIntToMissionCmd build (item (toInt32 packet.x) (toInt32 packet.y))
  else if ¬ |packet.x| ≤ 90 then .error .invalidParam5X
  else if ¬ |packet.y| ≤ 180 then .error .invalidParam6Y
  else
    mavlinkIntToMissionCmd build
      (item (toInt32 (packet.x * 10000000)) (toInt32 (packet.y * 10000000)))

/-! ### From a command to an item -/

/-- The conversions of the parameters, command by command, over an item whose parameters are
zero. -/
def writeParams (build : Build) (packet : MissionItemInt) (p1 : UInt16) :
    (id : MavCmd) → id.member.Content → MissionItemInt
  | .navWaypoint, _ =>
    if build.plane then
      { packet with param2 := (lowByte p1).toNat, param3 := (highByte p1).toNat }
    else { packet with param1 := p1.toNat }
  | .navLoiterUnlim, location =>
    let packet := { packet with param3 := p1.toNat }
    if location.loiterCcw then { packet with param3 := packet.param3 * -1 } else packet
  | .navLoiterTurns, location =>
    let packet := { packet with param1 := (lowByte p1).toNat, param3 := (highByte p1).toNat }
    let packet := if location.loiterCcw then { packet with param3 := -packet.param3 } else packet
    { packet with param4 := flag location.loiterXtrack }
  | .navLoiterTime, location =>
    { packet with
      param1 := p1.toNat
      param3 := if location.loiterCcw then -1 else 1
      param4 := flag location.loiterXtrack }
  | .navReturnToLaunch, _ => packet
  | .navLand, location =>
    { packet with param1 := p1.toNat, param4 := if location.loiterCcw then -1 else 1 }
  | .navTakeoff, _ => { packet with param1 := p1.toNat }
  | .navContinueAndChangeAlt, _ => { packet with param1 := p1.toNat }
  | .navLoiterToAlt, location =>
    let packet := { packet with param2 := p1.toNat }
    let packet := if location.loiterCcw then { packet with param2 := -packet.param2 } else packet
    { packet with param4 := flag location.loiterXtrack }
  | .navSplineWaypoint, _ => { packet with param1 := p1.toNat }
  | .navGuidedEnable, _ => { packet with param1 := p1.toNat }
  | .navDelay, delay =>
    { packet with
      param1 := delay.seconds
      param2 := delay.hourUtc.toInt
      param3 := delay.minUtc.toInt
      param4 := delay.secUtc.toInt }
  | .conditionDelay, seconds => { packet with param1 := seconds }
  | .conditionDistance, meters => { packet with param1 := meters }
  | .conditionYaw, yaw =>
    { packet with
      param1 := yaw.angleDeg
      param2 := yaw.turnRateDps
      param3 := yaw.direction.toInt
      param4 := yaw.relativeAngle.toNat }
  | .doSetMode, _ => { packet with param1 := p1.toNat }
  | .doJump, jump => { packet with param1 := jump.target.toNat, param2 := jump.numTimes.toInt }
  | .doChangeSpeed, speed =>
    { packet with
      param1 := speed.speedType.toNat
      param2 := speed.targetMs
      param3 := speed.throttlePct }
  | .doSetHome, _ => { packet with param1 := p1.toNat }
  | .doSetRelay, relay => { packet with param1 := relay.num.toNat, param2 := relay.state.toNat }
  | .doRepeatRelay, relay =>
    { packet with
      param1 := relay.num.toNat
      param2 := relay.repeatCount.toInt
      param3 := relay.cycleTime }
  | .doSetServo, servo => { packet with param1 := servo.channel.toNat, param2 := servo.pwm.toNat }
  | .doRepeatServo, servo =>
    { packet with
      param1 := servo.channel.toNat
      param2 := servo.pwm.toNat
      param3 := servo.repeatCount.toInt
      param4 := servo.cycleTime }
  | .doLandStart, _ => packet
  | .doSetRoi, _ => { packet with param1 := p1.toNat }
  | .doDigicamConfigure, digicam =>
    { packet with
      param1 := digicam.shootingMode.toNat
      param2 := digicam.shutterSpeed.toNat
      param3 := digicam.aperture.toNat
      param4 := digicam.iso.toNat
      x := Int32.ofNat digicam.exposureType.toNat
      y := Int32.ofNat digicam.cmdId.toNat
      z := digicam.engineCutoffTime }
  | .doDigicamControl, digicam =>
    { packet with
      param1 := digicam.session.toNat
      param2 := digicam.zoomPos.toNat
      param3 := digicam.zoomStep.toInt
      param4 := digicam.focusLock.toNat
      x := Int32.ofNat digicam.shootingCmd.toNat
      y := Int32.ofNat digicam.cmdId.toNat }
  | .doMountControl, mount =>
    { packet with param1 := mount.pitch, param2 := mount.roll, param3 := mount.yaw }
  | .doSetCamTriggDist, meters => { packet with param1 := meters }
  | .doFenceEnable, _ => { packet with param1 := p1.toNat }
  | .doParachute, _ => { packet with param1 := p1.toNat }
  | .doInvertedFlight, _ => { packet with param1 := p1.toNat }
  | .doGripper, gripper =>
    { packet with param1 := gripper.num.toNat, param2 := gripper.action.toNat }
  | .doGuidedLimits, limits =>
    { packet with
      param1 := p1.toNat
      param2 := limits.altMin
      param3 := limits.altMax
      param4 := limits.horizMax }
  | .doAutotuneEnable, _ => { packet with param1 := p1.toNat }
  | .doSetReverse, _ => { packet with param1 := p1.toNat }
  | .navAltitudeWait, wait =>
    { packet with
      param1 := wait.altitude
      param2 := wait.descentRate
      param3 := wait.wiggleTime.toNat }
  | .navVtolTakeoff, _ => packet
  | .navVtolLand, _ => packet
  | .doVtolTransition, targetState => { packet with param1 := targetState.toNat }
  | .doEngineControl, engine =>
    { packet with
      param1 := flag engine.startControl
      param2 := flag engine.coldStart
      param3 := engine.heightDelayCm.toNat * (1 / 100) }
  | .navPayloadPlace, _ => { packet with param1 := p1.toNat / 100 }
  | .navSetYawSpeed, yaw =>
    { packet with
      param1 := yaw.angleDeg
      param2 := yaw.speed
      param3 := yaw.relativeAngle.toNat }
  | .doWinch, winch =>
    { packet with
      param1 := winch.num.toNat
      param2 := winch.action.toNat
      param3 := winch.releaseLength
      param4 := winch.releaseRate }

/-- The position of a location, copied to an item. Altitudes above terrain that are not relative
are not sent, and none are sent without terrain data. -/
def sendLocation (build : Build) (location : Location) (packet : MissionItemInt) :
    Option MissionItemInt :=
  let packet := { packet with
    x := location.lat
    y := location.lng
    z := location.alt / 100
    frame := if location.relativeAlt then frameGlobalRelativeAlt else frameGlobal }
  if location.terrainAlt then
    if build.terrain then
      if !location.relativeAlt then none
      else some { packet with z := location.alt * (1 / 100), frame := frameGlobalTerrainAlt }
    else none
  else some packet

/-- The second half of the conversion: commands that use the location send the position. -/
def sendContent (build : Build) (packet : MissionItemInt) :
    (member : Member) → member.Content → Option MissionItemInt
  | .location, location => sendLocation build location packet
  | _, _ => some packet

/-- `mission_cmd_to_mavlink_int`, over the item that the caller passes. -/
def missionCmdToMavlinkInt (build : Build) (cmd : Command) (packet : MissionItemInt) :
    Option MissionItemInt :=
  let packet := { packet with
    seq := cmd.index
    command := cmd.id.id
    current := 0
    param1 := 0
    param2 := 0
    param3 := 0
    param4 := 0
    autocontinue := 1 }
  let packet := writeParams build packet cmd.p1 cmd.id cmd.content
  sendContent build packet cmd.id.member cmd.content

end Urus.ApMission
