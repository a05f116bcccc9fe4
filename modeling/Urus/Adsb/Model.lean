/-
This file models the list of aircraft of `AP_ADSB`: how reports are taken in, how aircraft time out,
and how the furthest aircraft makes place for a closer one when the list is full.

Positions and distances are computed in floating point and are parameters. The parameters of the
vehicle can be set at any time, so they come in with each call. The list is the part of the array
that is in use, its length is `vehicle_count`.
-/

import Urus.Lib.SwapRemove

namespace Urus.Adsb

/-! ### Data -/

/-- Positions and the distances between them. -/
structure Geometry (Loc Dist : Type) where
  zero : Loc
  isZero : Loc → Bool
  getDistance : Loc → Loc → Dist
  vehicleLoc : ℤ → ℤ → ℤ → Loc
  ofMetres : ℤ → Dist

/-- `mavlink_adsb_vehicle_t`. The fields that are copied and not read are one value. -/
structure Info (Rest : Type) where
  icaoAddress : ℕ
  lat : ℤ
  lon : ℤ
  altitude : ℤ
  tslc : ℕ
  flags : ℕ
  rest : Rest
  deriving DecidableEq

/-- `adsb_vehicle_t`. -/
structure Vehicle (Rest : Type) where
  info : Info Rest
  lastUpdateMs : ℕ
  deriving DecidableEq

/-- The variables of `AP_ADSB` that the list needs. There is no list before `init` and behind
`deinit`. -/
structure AdsbState (Loc Dist Rest : Type) where
  myLoc : Loc
  listSize : ℕ
  vehicleList : Option (List (Vehicle Rest))
  furthestVehicleDistance : Dist
  furthestVehicleIndex : ℕ

/-- What a report comes with: the time, the radius of the list, and the own address. -/
structure Reception where
  now : ℕ
  listRadius : ℤ
  icaoId : ℤ
  deriving DecidableEq

/-- `ADSB_FLAGS_VALID_COORDS`, `ADSB_FLAGS_VALID_ALTITUDE`, `ADSB_FLAGS_VALID_HEADING` and
`ADSB_FLAGS_VALID_VELOCITY`. -/
def flagsValidCoords : ℕ := 1
def flagsValidAltitude : ℕ := 2
def flagsValidHeading : ℕ := 4
def flagsValidVelocity : ℕ := 8

/-- `VEHICLE_TIMEOUT_MS`, `ADSB_VEHICLE_LIST_SIZE_DEFAULT` and `ADSB_VEHICLE_LIST_SIZE_MAX`. -/
def vehicleTimeoutMs : ℕ := 5000
def listSizeDefault : ℕ := 25
def listSizeMax : ℕ := 100

/-- A difference of `uint32_t`. -/
def sub32 (first second : ℕ) : ℕ := (((first : ℤ) - second) % 2 ^ 32).toNat

/-! ### The list -/

section List

variable {Loc Dist Rest : Type}

/-- The aircraft in the list. -/
def AdsbState.vehicles (adsb : AdsbState Loc Dist Rest) : List (Vehicle Rest) :=
  adsb.vehicleList.getD []

/-- `find_index`. -/
def findIndex (vehicles : List (Vehicle Rest)) (vehicle : Vehicle Rest) : Option ℕ :=
  vehicles.findIdx? fun other => other.info.icaoAddress == vehicle.info.icaoAddress

/-- `set_vehicle` for an entry that is in use. -/
def AdsbState.setVehicle (adsb : AdsbState Loc Dist Rest) (index : ℕ) (vehicle : Vehicle Rest) :
    AdsbState Loc Dist Rest :=
  if index < adsb.listSize then { adsb with vehicleList := some (adsb.vehicles.set index vehicle) }
  else adsb

/-- `set_vehicle` for the entry behind the last one, and the count with it. -/
def AdsbState.addVehicle (adsb : AdsbState Loc Dist Rest) (vehicle : Vehicle Rest) :
    AdsbState Loc Dist Rest :=
  { adsb with vehicleList := some (adsb.vehicles ++ [vehicle]) }

variable [LinearOrder Dist] [Zero Dist]

/-- `furthest_vehicle_distance = 0` and `furthest_vehicle_index = 0`. -/
def AdsbState.forgetFurthest (adsb : AdsbState Loc Dist Rest) : AdsbState Loc Dist Rest :=
  { adsb with furthestVehicleDistance := 0, furthestVehicleIndex := 0 }

/-- `delete_vehicle`. -/
def AdsbState.deleteVehicle (adsb : AdsbState Loc Dist Rest) (index : ℕ) :
    AdsbState Loc Dist Rest :=
  if index < adsb.vehicles.length then
    let adsb :=
      if index = adsb.furthestVehicleIndex ∧ 0 < adsb.furthestVehicleDistance then
        adsb.forgetFurthest
      else adsb
    { adsb with vehicleList := some (SwapRemove.removeAt adsb.vehicles index) }
  else adsb

variable (geometry : Geometry Loc Dist)

/-- `get_location`. -/
def Geometry.getLocation (vehicle : Vehicle Rest) : Loc :=
  geometry.vehicleLoc vehicle.info.lat vehicle.info.lon vehicle.info.altitude

/-- The distance of an aircraft from the own position. -/
def AdsbState.distanceTo (adsb : AdsbState Loc Dist Rest) (vehicle : Vehicle Rest) : Dist :=
  geometry.getDistance adsb.myLoc (geometry.getLocation vehicle)

/-- The loop of `determine_furthest_aircraft` behind the first entry: the largest distance so far,
where it is, and the index of the next entry. -/
def furthestLoop (distance : Vehicle Rest → Dist) :
    List (Vehicle Rest) → ℕ → Dist × ℕ → Dist × ℕ
  | [], _, furthest => furthest
  | vehicle :: rest, index, (maxDistance, maxIndex) =>
    furthestLoop distance rest (index + 1)
      (if maxDistance < distance vehicle ∨ index = 0 then (distance vehicle, index)
      else (maxDistance, maxIndex))

/-- `determine_furthest_aircraft`. -/
def AdsbState.determineFurthest (adsb : AdsbState Loc Dist Rest) : AdsbState Loc Dist Rest :=
  let furthest := furthestLoop (adsb.distanceTo geometry) adsb.vehicles 0 (0, 0)
  { adsb with furthestVehicleDistance := furthest.1, furthestVehicleIndex := furthest.2 }

/-! ### Calls -/

/-- The entry that a report makes. -/
def vehicleOf (info : Info Rest) (reception : Reception) : Vehicle Rest :=
  ⟨info, sub32 reception.now (info.tslc * 1000)⟩

/-- A report that is not taken in: it has no position, is out of range, is of the own aircraft, has
no proper address or not the flags, or is too old. -/
def Rejects (adsb : AdsbState Loc Dist Rest) (info : Info Rest) (reception : Reception) : Prop :=
  geometry.isZero (geometry.getLocation (vehicleOf info reception)) = true ∨
    (reception.listRadius > 0 ∧ geometry.isZero adsb.myLoc = false ∧
      geometry.ofMetres reception.listRadius < adsb.distanceTo geometry (vehicleOf info reception)) ∨
    (reception.icaoId ≠ 0 ∧ (reception.icaoId % 2 ^ 32).toNat = info.icaoAddress) ∨
    info.icaoAddress > 0x00FFFFFF ∨
    info.flags &&& (flagsValidCoords ||| flagsValidAltitude) = 0 ∨
    sub32 reception.now (vehicleOf info reception).lastUpdateMs > vehicleTimeoutMs

instance (adsb : AdsbState Loc Dist Rest) (info : Info Rest) (reception : Reception) :
    Decidable (Rejects geometry adsb info reception) := by
  unfold Rejects
  infer_instance

/-- The furthest aircraft is determined if it is not known. -/
def AdsbState.ensureFurthest (adsb : AdsbState Loc Dist Rest) : AdsbState Loc Dist Rest :=
  if adsb.furthestVehicleDistance ≤ 0 then adsb.determineFurthest geometry else adsb

/-- What is done with a new aircraft when the list is full. -/
def AdsbState.replaceFurthest (adsb : AdsbState Loc Dist Rest) (vehicle : Vehicle Rest) :
    AdsbState Loc Dist Rest :=
  if geometry.isZero adsb.myLoc = true then adsb.forgetFurthest
  else
    let adsb := adsb.ensureFurthest geometry
    if adsb.distanceTo geometry vehicle < adsb.furthestVehicleDistance then
      (adsb.setVehicle adsb.furthestVehicleIndex vehicle).forgetFurthest
    else adsb

/-- `handle_vehicle`, while there is a list, for an accepted report. -/
def AdsbState.takeIn (adsb : AdsbState Loc Dist Rest) (vehicle : Vehicle Rest) :
    AdsbState Loc Dist Rest :=
  match findIndex adsb.vehicles vehicle with
  | some index => adsb.setVehicle index vehicle
  | none =>
    if adsb.vehicles.length < adsb.listSize then adsb.addVehicle vehicle
    else adsb.replaceFurthest geometry vehicle

/-- `handle_vehicle`: the state, and the samples that are pushed for the avoidance. -/
def AdsbState.handleVehicle (adsb : AdsbState Loc Dist Rest) (info : Info Rest)
    (reception : Reception) : AdsbState Loc Dist Rest × List (Vehicle Rest) :=
  let vehicle := vehicleOf info reception
  if adsb.vehicleList.isNone then (adsb, [])
  else if Rejects geometry adsb info reception then
    match findIndex adsb.vehicles vehicle with
    | some index => (adsb.deleteVehicle index, [])
    | none => (adsb, [])
  else
    (adsb.takeIn geometry vehicle,
      if info.flags &&& (flagsValidCoords ||| flagsValidAltitude ||| flagsValidHeading |||
        flagsValidVelocity) ≠ 0 then [vehicle] else [])

/-- `init`, with the size of the list as it is set, and whether the allocation succeeds. -/
def AdsbState.init (adsb : AdsbState Loc Dist Rest) (listSizeParam : ℤ) (allocated : Bool) :
    AdsbState Loc Dist Rest :=
  let adsb :=
    match adsb.vehicleList with
    | some _ => { adsb with vehicleList := some [] }
    | none =>
      { adsb with
        listSize :=
          if 1 ≤ listSizeParam ∧ listSizeParam ≤ listSizeMax then listSizeParam.toNat
          else listSizeDefault
        vehicleList := if allocated then some [] else none }
  adsb.forgetFurthest

/-- `deinit`. -/
def AdsbState.deinit (adsb : AdsbState Loc Dist Rest) : AdsbState Loc Dist Rest :=
  { adsb with vehicleList := none }

/-- The loop over the list in which aircraft time out. -/
def AdsbState.timeOutLoop (now : ℕ) : ℕ → ℕ → AdsbState Loc Dist Rest → AdsbState Loc Dist Rest
  | 0, _, adsb => adsb
  | rounds + 1, index, adsb =>
    match adsb.vehicles[index]? with
    | none => adsb
    | some vehicle =>
      if sub32 now vehicle.lastUpdateMs > vehicleTimeoutMs then
        timeOutLoop now rounds index (adsb.deleteVehicle index)
      else timeOutLoop now rounds (index + 1) adsb

/-- What `update` reads: the position if there is one, the parameters, whether an allocation
succeeds, and the time. -/
structure Update (Loc : Type) where
  position : Option Loc
  enabled : Bool
  listSizeParam : ℤ
  allocated : Bool
  now : ℕ

/-- `update`. A round of the loop for each aircraft is enough. -/
def AdsbState.update (adsb : AdsbState Loc Dist Rest) (inputs : Update Loc) :
    AdsbState Loc Dist Rest :=
  let adsb := { adsb with myLoc := inputs.position.getD geometry.zero }
  if inputs.enabled = false then
    if adsb.vehicleList.isSome then adsb.deinit else adsb
  else if adsb.vehicleList.isNone then adsb.init inputs.listSizeParam inputs.allocated
  else if (adsb.listSize : ℤ) ≠ inputs.listSizeParam then adsb.deinit
  else adsb.timeOutLoop inputs.now adsb.vehicles.length 0

/-- The calls. -/
inductive Call (Loc Rest : Type)
  | handle (info : Info Rest) (reception : Reception)
  | update (inputs : Update Loc)
  | delete (index : ℕ)
  | init (listSizeParam : ℤ) (allocated : Bool)
  | deinit

/-- The state at power up. -/
def Geometry.start : AdsbState Loc Dist Rest := ⟨geometry.zero, 1, none, 0, 0⟩

/-- One call. -/
def step (adsb : AdsbState Loc Dist Rest) : Call Loc Rest → AdsbState Loc Dist Rest
  | .handle info reception => (adsb.handleVehicle geometry info reception).1
  | .update inputs => adsb.update geometry inputs
  | .delete index => adsb.deleteVehicle index
  | .init listSizeParam allocated => adsb.init listSizeParam allocated
  | .deinit => adsb.deinit

end List

end Urus.Adsb
