/-
This file is about the download of a mission. The ground station asks for one command
after the other and gets each as a mission item, or an error. An item says whether it
is the command that the vehicle executes: for this the code compares the identifier of
the command, not its number, with the number of the current navigation command.

The content of a stored command is bytes. Which member of the union they are is decided
by the identifier, as in the conversion itself.
-/

import Urus.Mission.Upload

namespace Urus.GcsMavlink.Download

open ApMission

/-! ### Stored commands -/

/-- How the machine reads the members of the union back from their bytes. -/
abbrev UnionReading := (member : Member) → List UInt8 → member.Content

/-- A stored command with the member that its identifier uses. The library converts no others. -/
def typed (reading : UnionReading) (cmd : MissionCommand) : Option Command :=
  (MavCmd.ofId cmd.id).map fun id =>
    ⟨UInt16.ofNat cmd.index, id, cmd.p1, reading id.member (cmd.content.bytes.take (size id.member))⟩

/-- A read of the mission finds the command, whatever the local command held before. -/
def Stored {board : Board} (reading : UnionReading) (plan : Plan board) (index : ℕ)
    (command : Command) : Prop :=
  ∀ temp, ∃ read, readCmdFromStorage plan index temp = some read ∧
    typed reading read = some command

/-! ### Items -/

/-- Zeroed items. -/
def blankItemInt : MissionItemInt := ⟨0, 0, 0, 0, 0, 0, 0, 0, 0, 0, 0, 0⟩
def blankItem : MissionItem := ⟨0, 0, 0, 0, 0, 0, 0, 0, 0, 0, 0, 0⟩

/-- `mission_cmd_to_mavlink`: the integers become degrees, except for the commands that use the
fields for something else. -/
def missionCmdToMavlink (build : Build) (cmd : Command) (packet : MissionItem) :
    Option MissionItem :=
  (missionCmdToMavlinkInt build cmd blankItemInt).map fun item =>
    let packet := { packet with
      param1 := item.param1
      param2 := item.param2
      param3 := item.param3
      param4 := item.param4
      z := item.z
      seq := item.seq
      command := item.command
      frame := item.frame
      current := item.current
      autocontinue := item.autocontinue }
    if packet.command = MavCmd.doDigicamControl.id ∨
        packet.command = MavCmd.doDigicamConfigure.id then
      { packet with x := item.x.toInt, y := item.y.toInt }
    else { packet with x := item.x.toInt * (1 / 10000000), y := item.y.toInt * (1 / 10000000) }

/-! ### Requests -/

/-- `MISSION_REQUEST` and `MISSION_REQUEST_INT`. -/
inductive Kind
  | request
  | requestInt
  deriving DecidableEq

/-- A request of a command, with its sender. -/
structure Request where
  kind : Kind
  sysid : UInt8
  compid : UInt8
  seq : UInt16

/-- What is sent. -/
inductive Body
  | missionCount (count : ℕ)
  | missionAck (result : MavMissionResult)
  | missionItem (packet : MissionItem)
  | missionItemInt (packet : MissionItemInt)
  deriving DecidableEq

/-- A message, and the system and the component that it is for. -/
structure Message where
  targetSystem : UInt8
  targetComponent : UInt8
  body : Body
  deriving DecidableEq

variable {board : Board} (build : Build) (reading : UnionReading) (mission : Mission board)

/-- The `current` field of an item. -/
def currentField (cmd : MissionCommand) : UInt8 :=
  if cmd.id = UInt16.ofNat mission.navCmd.index then 1 else 0

/-- `handle_mission_request` for `MISSION_REQUEST_INT`: the bodies of the messages that are sent. -/
def handleRequestInt (seq : UInt16) : List Body :=
  match readCmdFromStorage mission.plan seq.toNat board.scratch with
  | none => [.missionAck .error]
  | some cmd =>
    match (typed reading cmd).bind fun typed => missionCmdToMavlinkInt build typed blankItemInt with
    | none => [.missionAck .error]
    | some packet =>
      [.missionItemInt { packet with
        current := currentField mission cmd
        autocontinue := 1
        seq := seq
        command := cmd.id }]

/-- `handle_mission_request` for `MISSION_REQUEST`. A station that asks for too much is told how
many commands there are. -/
def handleRequest (seq : UInt16) : List Body :=
  if seq ≠ 0 ∧ seq.toNat ≥ mission.plan.cmdTotal then
    [.missionCount mission.plan.cmdTotal, .missionAck .error]
  else
    match readCmdFromStorage mission.plan seq.toNat board.scratch with
    | none => [.missionAck .error]
    | some cmd =>
      match (typed reading cmd).bind fun typed => missionCmdToMavlink build typed blankItem with
      | none => [.missionAck .error]
      | some packet =>
        [.missionItem { packet with
          current := currentField mission cmd
          autocontinue := 1
          seq := seq
          command := cmd.id }]

/-- `handle_mission_request`. -/
def handleMissionRequest (msg : Request) : List Message :=
  (match msg.kind with
    | .requestInt => handleRequestInt build reading mission msg.seq
    | .request => handleRequest build reading mission msg.seq).map
    fun body => ⟨msg.sysid, msg.compid, body⟩

/-! ### What a request is to be answered with -/

/-- The conversion that a request asks for. -/
def Kind.encode (kind : Kind) (command : Command) : Option Body :=
  match kind with
  | .request => (missionCmdToMavlink build command blankItem).map .missionItem
  | .requestInt => (missionCmdToMavlinkInt build command blankItemInt).map .missionItemInt

/-- The number, the identifier and the `current` field of an item. -/
def Body.fields : Body → Option (UInt16 × UInt16 × UInt8)
  | .missionItem packet => some (packet.seq, packet.command, packet.current)
  | .missionItemInt packet => some (packet.seq, packet.command, packet.current)
  | _ => none

def Body.withCurrent (current : UInt8) : Body → Body
  | .missionItem packet => .missionItem { packet with current := current }
  | .missionItemInt packet => .missionItemInt { packet with current := current }
  | body => body

/-- A command of the mission that can be converted is sent as it converts, with its number and its
identifier, and is marked as the current one exactly if its number is that of the current
navigation command. Behind the end of the mission no item is sent, but an error. -/
def Served (msg : Request) : Prop :=
  (msg.seq.toNat < mission.plan.cmdTotal → ∀ command,
    Stored reading mission.plan msg.seq.toNat command → ∀ body,
    msg.kind.encode build command = some body →
      handleMissionRequest build reading mission msg = [⟨msg.sysid, msg.compid, body.withCurrent
        (if msg.seq = UInt16.ofNat mission.navCmd.index then 1 else 0)⟩] ∧
      body.fields = some (msg.seq, command.id.id, 0)) ∧
  (mission.plan.cmdTotal ≤ msg.seq.toNat → msg.seq ≠ 0 →
    ⟨msg.sysid, msg.compid, .missionAck .error⟩ ∈ handleMissionRequest build reading mission msg ∧
    ∀ sent ∈ handleMissionRequest build reading mission msg, sent.body.fields = none)

/-! ### Conversions -/

section Fields

variable {build : Build} {command : Command}

/-- Two items agree in what the conversion of the content does not touch. -/
structure SameLabel (first second : MissionItemInt) : Prop where
  seq : first.seq = second.seq
  command : first.command = second.command
  current : first.current = second.current
  autocontinue : first.autocontinue = second.autocontinue

theorem writeParams_label (build : Build) (packet : MissionItemInt) (p1 : UInt16) (id : MavCmd)
    (content : id.member.Content) : SameLabel (writeParams build packet p1 id content) packet := by
  cases id with
  | navWaypoint =>
    rw [writeParams]
    split <;> exact ⟨rfl, rfl, rfl, rfl⟩
  | navLoiterUnlim | navLoiterTurns | navLoiterToAlt =>
    rw [writeParams]
    dsimp only
    split <;> exact ⟨rfl, rfl, rfl, rfl⟩
  | _ => exact ⟨rfl, rfl, rfl, rfl⟩

theorem sendContent_label {packet sent : MissionItemInt} {member : Member} {content : member.Content}
    (isSent : sendContent build packet member content = some sent) : SameLabel sent packet := by
  cases member with
  | location =>
    rw [sendContent, sendLocation] at isSent
    dsimp only at isSent
    split at isSent
    · split at isSent
      · split at isSent
        · exact nomatch isSent
        · rw [← Option.some.inj isSent]
          exact ⟨rfl, rfl, rfl, rfl⟩
      · exact nomatch isSent
    · rw [← Option.some.inj isSent]
      exact ⟨rfl, rfl, rfl, rfl⟩
  | _ =>
    rw [← Option.some.inj isSent]
    exact ⟨rfl, rfl, rfl, rfl⟩

theorem missionCmdToMavlinkInt_label {packet sent : MissionItemInt}
    (isSent : missionCmdToMavlinkInt build command packet = some sent) :
    sent.seq = command.index ∧ sent.command = command.id.id ∧ sent.current = 0 ∧
      sent.autocontinue = 1 := by
  have content := sendContent_label isSent
  have params := writeParams_label build { packet with
    seq := command.index
    command := command.id.id
    current := 0
    param1 := 0
    param2 := 0
    param3 := 0
    param4 := 0
    autocontinue := 1 } command.p1 command.id command.content
  exact ⟨content.seq.trans params.seq, content.command.trans params.command,
    content.current.trans params.current, content.autocontinue.trans params.autocontinue⟩

theorem missionCmdToMavlink_label {packet sent : MissionItem}
    (isSent : missionCmdToMavlink build command packet = some sent) :
    sent.seq = command.index ∧ sent.command = command.id.id ∧ sent.current = 0 ∧
      sent.autocontinue = 1 := by
  obtain ⟨item, isItem, rfl⟩ := Option.map_eq_some_iff.mp isSent
  obtain ⟨seq, id, current, autocontinue⟩ := missionCmdToMavlinkInt_label isItem
  dsimp only
  split <;> exact ⟨seq, id, current, autocontinue⟩

end Fields

/-! ### Answers -/

section Answers

variable {build : Build} {reading : UnionReading} {mission : Mission board} {command : Command}
  {msg : Request} {body : Body}

theorem ofId_some {id : UInt16} {known : MavCmd} (found : MavCmd.ofId id = some known) :
    known.id = id := by
  have matched := List.find?_some found
  exact eq_of_beq matched

theorem typed_some {cmd : MissionCommand} (isTyped : typed reading cmd = some command) :
    command.id.id = cmd.id ∧ command.index = UInt16.ofNat cmd.index := by
  obtain ⟨id, known, rfl⟩ := Option.map_eq_some_iff.mp isTyped
  exact ⟨ofId_some known, rfl⟩

theorem readCmdFromStorage_index {plan : Plan board} {index : ℕ} {temp read : MissionCommand}
    (isRead : readCmdFromStorage plan index temp = some read) : read.index = index := by
  rw [readCmdFromStorage] at isRead
  split at isRead
  · cases isRead
  · split at isRead
    · rename_i home
      rw [← Option.some.inj isRead]
      exact home.symm
    · dsimp only at isRead
      split at isRead <;> rw [← Option.some.inj isRead]

/-- A command of the mission that can be converted is sent, and its identifier decides whether it is
marked as the current one. -/
theorem handleMissionRequest_stored (listed : msg.seq.toNat < mission.plan.cmdTotal)
    (stored : Stored reading mission.plan msg.seq.toNat command)
    (encodes : msg.kind.encode build command = some body) :
    handleMissionRequest build reading mission msg = [⟨msg.sysid, msg.compid, body.withCurrent
        (if command.id.id = UInt16.ofNat mission.navCmd.index then 1 else 0)⟩] ∧
      body.fields = some (msg.seq, command.id.id, 0) := by
  obtain ⟨read, isRead, isTyped⟩ := stored board.scratch
  obtain ⟨sameId, sameIndex⟩ := typed_some isTyped
  have number : command.index = msg.seq := by
    rw [sameIndex, readCmdFromStorage_index isRead, UInt16.ofNat_toNat]
  cases kind : msg.kind with
  | requestInt =>
    rw [kind] at encodes
    obtain ⟨packet, isPacket, rfl⟩ := Option.map_eq_some_iff.mp encodes
    obtain ⟨seq, id, current, autocontinue⟩ := missionCmdToMavlinkInt_label isPacket
    refine ⟨?_, by rw [Body.fields, seq, id, current, number]⟩
    have converted : ((typed reading read).bind fun typed =>
        missionCmdToMavlinkInt build typed blankItemInt) = some packet := by
      rw [isTyped]
      exact isPacket
    rw [handleMissionRequest, kind]
    dsimp only
    rw [handleRequestInt, isRead]
    dsimp only
    rw [converted, currentField, ← sameId]
    show [(_ : Message)] = _
    rw [Body.withCurrent, ← number, ← seq, ← id, ← autocontinue]
  | request =>
    rw [kind] at encodes
    obtain ⟨packet, isPacket, rfl⟩ := Option.map_eq_some_iff.mp encodes
    obtain ⟨seq, id, current, autocontinue⟩ := missionCmdToMavlink_label isPacket
    refine ⟨?_, by rw [Body.fields, seq, id, current, number]⟩
    have converted : ((typed reading read).bind fun typed =>
        missionCmdToMavlink build typed blankItem) = some packet := by
      rw [isTyped]
      exact isPacket
    rw [handleMissionRequest, kind]
    dsimp only
    rw [handleRequest, if_neg (fun beyond => absurd beyond.2 (not_le.mpr listed)), isRead]
    dsimp only
    rw [converted, currentField, ← sameId]
    show [(_ : Message)] = _
    rw [Body.withCurrent, ← number, ← seq, ← id, ← autocontinue]

/-- Behind the end of the mission only an error is sent, or the number of commands and an error. -/
theorem handleMissionRequest_beyond (build : Build) (reading : UnionReading)
    (beyond : mission.plan.cmdTotal ≤ msg.seq.toNat) (real : msg.seq ≠ 0) :
    handleMissionRequest build reading mission msg = [⟨msg.sysid, msg.compid, .missionAck .error⟩] ∨
      handleMissionRequest build reading mission msg =
        [⟨msg.sysid, msg.compid, .missionCount mission.plan.cmdTotal⟩,
          ⟨msg.sysid, msg.compid, .missionAck .error⟩] := by
  have notHome : msg.seq.toNat ≠ 0 := fun home => real (UInt16.toNat_inj.mp home)
  rw [handleMissionRequest]
  cases msg.kind with
  | requestInt =>
    refine Or.inl ?_
    dsimp only
    rw [handleRequestInt, readCmdFromStorage, if_pos ⟨beyond, notHome⟩]
    rfl
  | request =>
    refine Or.inr ?_
    dsimp only
    rw [handleRequest, if_pos ⟨real, beyond⟩]
    rfl

theorem withCurrent_inj {first second : UInt8} (item : body.fields.isSome)
    (same : body.withCurrent first = body.withCurrent second) : first = second := by
  cases body with
  | missionItem packet => exact congrArg MissionItem.current (Body.missionItem.inj same)
  | missionItemInt packet => exact congrArg MissionItemInt.current (Body.missionItemInt.inj same)
  | missionCount count => exact nomatch item
  | missionAck result => exact nomatch item

/-- A request is answered as it is to be, unless it is for a command that is current by its number
or by its identifier, but not by both. -/
theorem served_iff_identified (build : Build) (reading : UnionReading) (mission : Mission board)
    (msg : Request) :
    Served build reading mission msg ↔
      (msg.seq.toNat < mission.plan.cmdTotal → ∀ command body,
        Stored reading mission.plan msg.seq.toNat command →
        msg.kind.encode build command = some body →
        (command.id.id = UInt16.ofNat mission.navCmd.index ↔
          msg.seq = UInt16.ofNat mission.navCmd.index)) := by
  constructor
  · intro served listed command body stored encodes
    obtain ⟨answer, fields⟩ := served.1 listed command stored body encodes
    obtain ⟨sent, -⟩ := handleMissionRequest_stored listed stored encodes
    have same := withCurrent_inj (by rw [fields]; rfl)
      (Message.mk.inj (List.cons.inj (sent.symm.trans answer)).1).2.2
    by_cases first : command.id.id = UInt16.ofNat mission.navCmd.index
    · by_cases second : msg.seq = UInt16.ofNat mission.navCmd.index
      · exact iff_of_true first second
      · rw [if_pos first, if_neg second] at same
        exact absurd same (by decide)
    · by_cases second : msg.seq = UInt16.ofNat mission.navCmd.index
      · rw [if_neg first, if_pos second] at same
        exact absurd same (by decide)
      · exact iff_of_false first second
  · intro identified
    refine ⟨fun listed command stored body encodes => ?_, fun beyond real => ?_⟩
    · obtain ⟨sent, fields⟩ := handleMissionRequest_stored listed stored encodes
      refine ⟨?_, fields⟩
      rw [sent]
      simp only [identified listed command body stored encodes]
    · rcases handleMissionRequest_beyond build reading beyond real with answer | answer
      · rw [answer]
        exact ⟨List.mem_cons_self, fun sent member => by rw [List.mem_singleton.mp member]; rfl⟩
      · rw [answer]
        refine ⟨by simp, fun sent member => ?_⟩
        rcases List.mem_cons.mp member with rfl | last
        · rfl
        · rw [List.mem_singleton.mp last]
          rfl

end Answers

/-! ### A small mission -/

/-- Members of the union that are zero. -/
def blankContent : (member : Member) → member.Content
  | .unused => ()
  | .location => zeroedLocation
  | .jump => ⟨0, 0⟩
  | .delay => (0 : ℚ)
  | .distance => (0 : ℚ)
  | .yaw => ⟨0, 0, 0, 0⟩
  | .speed => ⟨0, 0, 0⟩
  | .relay => ⟨0, 0⟩
  | .repeatRelay => ⟨0, 0, 0⟩
  | .servo => ⟨0, 0⟩
  | .repeatServo => ⟨0, 0, 0, 0⟩
  | .mountControl => ⟨0, 0, 0⟩
  | .digicamConfigure => ⟨0, 0, 0, 0, 0, 0, 0⟩
  | .digicamControl => ⟨0, 0, 0, 0, 0, 0⟩
  | .camTriggDist => (0 : ℚ)
  | .gripper => ⟨0, 0⟩
  | .guidedLimits => ⟨0, 0, 0⟩
  | .altitudeWait => ⟨0, 0, 0⟩
  | .doVtolTransition => (0 : UInt8)
  | .doEngineControl => ⟨false, false, 0⟩
  | .navDelay => ⟨0, 0, 0, 0⟩
  | .setYawSpeed => ⟨0, 0, 0⟩
  | .winch => ⟨0, 0, 0, 0⟩

/-- A number of some bytes, lowest first. -/
def fromBytes (bytes : List UInt8) : ℤ := bytes.foldr (fun byte rest => byte.toNat + 256 * rest) 0

/-- The reading of locations on a little endian machine; the other members are not read. -/
def smallReading : UnionReading
  | .location, bytes => {
      relativeAlt := (bytes.getD 0 0).toNat.testBit 0
      loiterCcw := (bytes.getD 0 0).toNat.testBit 2
      terrainAlt := (bytes.getD 0 0).toNat.testBit 3
      originAlt := (bytes.getD 0 0).toNat.testBit 4
      loiterXtrack := (bytes.getD 0 0).toNat.testBit 5
      alt := (fromBytes ((bytes.drop 1).take 3)).bmod (2 ^ 24)
      lat := Int32.ofInt (fromBytes ((bytes.drop 4).take 4))
      lng := Int32.ofInt (fromBytes ((bytes.drop 8).take 4)) }
  | member, _ => blankContent member

/-- A mission of two waypoints, of which the second one is flown to. -/
def flyingMission : Mission smallBoard :=
  { constructed (uploaded [navCmd, navCmd]) with
    state := .running
    navCmdLoaded := true
    navCmd := { navCmd with index := 2 } }

/-- A waypoint as it is read. -/
def waypoint (index : UInt16) : Command := ⟨index, .navWaypoint, 0, zeroedLocation⟩

theorem flyingMission_stored {index : ℕ} (inside : index ∈ [1, 2]) :
    Stored smallReading flyingMission.plan index (waypoint (UInt16.ofNat index)) := by
  intro temp
  have holds : ∀ index ∈ [1, 2], flyingMission.plan.slot index = navCmd.record := by decide +kernel
  have bounds : 1 ≤ index ∧ index < flyingMission.plan.cmdTotal := by
    have total : flyingMission.plan.cmdTotal = 3 := by decide +kernel
    simp only [List.mem_cons, List.not_mem_nil, or_false] at inside
    omega
  obtain ⟨read, isRead, number, id, p1, narrow, -⟩ :=
    readsAs_of_slot bounds.1 bounds.2 (by decide) (holds index inside) temp
  refine ⟨read, isRead, ?_⟩
  rw [typed, id, number, p1, narrow (by decide)]
  rfl

/-- The waypoint that is flown to is asked for, and is not marked as the current one. -/
theorem not_served_current :
    ¬ Served ⟨false, true⟩ smallReading flyingMission ⟨.requestInt, 255, 190, 2⟩ := by
  intro served
  obtain ⟨answer, -⟩ := served.1 (by decide +kernel) _ (flyingMission_stored (by decide)) _ rfl
  exact absurd answer (by decide +kernel)

end Urus.GcsMavlink.Download
