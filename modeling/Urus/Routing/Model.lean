/-
This file models the routing of MAVLink messages between the links of a vehicle. Every
message that comes in on a channel tells that its sender can be reached there, which is kept
in a table of routes. A message is sent on to the channels on which its target has been
heard, and the function that does this says whether the vehicle shall process the message
itself.
-/

import Mathlib.Tactic

namespace Urus.MavlinkRouting

/-! ### Messages and routes -/

/-- `MAVLINK_COMM_NUM_BUFFERS`. -/
abbrev numBuffers : Nat := 5

/-- `MAVLINK_MAX_ROUTES`. -/
def maxRoutes : Nat := 20

/-- `mavlink_channel_t`. -/
abbrev Channel := Fin numBuffers

/-- `mavlink_system`: the address of a node. -/
structure Node where
  sysid : UInt8
  compid : UInt8
  deriving DecidableEq, Repr

/-- The kinds of messages that the routing tells apart. -/
inductive MsgId
  | heartbeat
  | radio
  | radioStatus
  | adsbVehicle
  | other (id : Nat)
  deriving DecidableEq, Repr

/-- `mavlink_message_t`, with the fields that the routing reads from the payload: the targets if the
message has them, and the type in a heartbeat. -/
structure Message where
  sender : Node
  msgid : MsgId
  len : UInt8
  targetSystem : Option UInt8
  targetComponent : Option UInt8
  mavType : UInt8
  deriving DecidableEq, Repr

/-- One route of the table. -/
structure Route where
  sysid : UInt8
  compid : UInt8
  channel : Channel
  mavtype : UInt8
  deriving DecidableEq, Repr

/-- The routing object. The number of routes is the length of the list. -/
structure State where
  routes : List Route
  noRouteMask : Channel → Bool

/-- What the links are like when a message is handled. -/
structure Links where
  txspace : Channel → Nat
  packetOverhead : Channel → Nat
  active : Channel → Bool

/-- The link has space for the message. -/
def Links.HasSpace (links : Links) (msg : Message) (channel : Channel) : Prop :=
  links.txspace channel ≥ msg.len.toNat + links.packetOverhead channel

instance (links : Links) (msg : Message) (channel : Channel) :
    Decidable (links.HasSpace msg channel) :=
  inferInstanceAs (Decidable (_ ≥ _))

/-! ### The functions -/

/-- The loop of `learn_route` over the table. A route of the sender on the channel ends it, and gets
the type of the vehicle from a heartbeat if it has none. -/
def findRoute (channel : Channel) (msg : Message) : List Route → Option (List Route)
  | [] => none
  | route :: rest =>
    if route.sysid = msg.sender.sysid ∧ route.compid = msg.sender.compid ∧
        route.channel = channel then
      if route.mavtype = 0 ∧ msg.msgid = .heartbeat then
        some ({ route with mavtype := msg.mavType } :: rest)
      else some (route :: rest)
    else (findRoute channel msg rest).map (route :: ·)

/-- `learn_route`. -/
def learnRoute (own : Node) (routes : List Route) (channel : Channel) (msg : Message) :
    List Route :=
  if msg.sender.sysid = 0 ∨ msg.sender = own then routes
  else
    match findRoute channel msg routes with
    | some routes => routes
    | none =>
      if routes.length < maxRoutes then
        routes ++ [⟨msg.sender.sysid, msg.sender.compid, channel,
          if msg.msgid = .heartbeat then msg.mavType else 0⟩]
      else routes

/-- The value of a target field. A target that the message does not have is -1. -/
def targetValue : Option UInt8 → Int
  | none => -1
  | some target => target.toNat

/-- `get_targets`. -/
def getTargets (msg : Message) : Int × Int :=
  (targetValue msg.targetSystem, targetValue msg.targetComponent)

/-- `handle_heartbeat`: the channels on which the heartbeat is sent. -/
def handleHeartbeat (links : Links) (state : State) (inChannel : Channel) (msg : Message) :
    List Channel :=
  let masked := state.routes.filter fun route =>
    route.sysid = msg.sender.sysid ∧ route.compid = msg.sender.compid
  (List.finRange numBuffers).filter fun channel =>
    links.active channel ∧ channel ≠ inChannel ∧ ¬ state.noRouteMask channel ∧
      (∀ route ∈ masked, route.channel ≠ channel) ∧ links.HasSpace msg channel

/-- The tests at the top of the routing of a message with a target. -/
structure Targets where
  targetSystem : Int
  targetComponent : Int
  broadcastSystem : Bool
  broadcastComponent : Bool
  matchSystem : Bool
  matchComponent : Bool

/-- The local variables of `check_and_forward` in front of its loop. -/
def targetsOf (own : Node) (msg : Message) : Targets :=
  let (targetSystem, targetComponent) := getTargets msg
  let broadcastSystem := targetSystem == 0 || targetSystem == -1
  let broadcastComponent := targetComponent == 0 || targetComponent == -1
  let matchSystem := broadcastSystem || targetSystem == own.sysid.toNat
  let matchComponent :=
    matchSystem && (broadcastComponent || targetComponent == own.compid.toNat)
  ⟨targetSystem, targetComponent, broadcastSystem, broadcastComponent, matchSystem,
    matchComponent⟩

/-- The condition on a route in the loop. -/
def Targets.matchesRoute (targets : Targets) (route : Route) : Bool :=
  targets.broadcastSystem ||
    (targets.targetSystem == route.sysid.toNat &&
      (targets.broadcastComponent || targets.targetComponent == route.compid.toNat ||
        !targets.matchSystem))

/-- The variables of the loop, and the channels on which the message has been sent. -/
structure Forwarding where
  sentToChan : Channel → Bool
  forwarded : Bool
  sent : List Channel

/-- One round of the loop. -/
def forwardOn (links : Links) (inChannel : Channel) (msg : Message) (targets : Targets)
    (forwarding : Forwarding) (route : Route) : Forwarding :=
  if targets.matchesRoute route then
    if inChannel ≠ route.channel ∧ ¬ forwarding.sentToChan route.channel then
      { sentToChan := Function.update forwarding.sentToChan route.channel true
        forwarded := true
        sent :=
          if links.HasSpace msg route.channel then forwarding.sent ++ [route.channel]
          else forwarding.sent }
    else forwarding
  else forwarding

/-- What `check_and_forward` leaves: the object, the channels on which the message was sent, and
whether it is to be processed locally. -/
structure Outcome where
  state : State
  sent : List Channel
  processLocally : Bool

/-- `check_and_forward`. -/
def checkAndForward (own : Node) (links : Links) (state : State) (inChannel : Channel)
    (msg : Message) : Outcome :=
  if msg.sender = own then ⟨state, [], true⟩
  else
    let state := { state with routes := learnRoute own state.routes inChannel msg }
    if msg.msgid = .radio ∨ msg.msgid = .radioStatus then ⟨state, [], true⟩
    else if msg.msgid = .heartbeat then
      ⟨state, handleHeartbeat links state inChannel msg, true⟩
    else if msg.msgid = .adsbVehicle then ⟨state, [], true⟩
    else
      let targets := targetsOf own msg
      let processLocally := targets.matchSystem && targets.matchComponent
      if processLocally && !targets.broadcastSystem && !targets.broadcastComponent then
        ⟨state, [], true⟩
      else
        let forwarding := state.routes.foldl (forwardOn links inChannel msg targets)
          ⟨fun _ => false, false, []⟩
        ⟨state, forwarding.sent,
          processLocally || (!forwarding.forwarded && targets.matchSystem)⟩

end Urus.MavlinkRouting
