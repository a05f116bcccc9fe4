/-
This file is about the upload of a mission. The ground station announces the number of
items with MISSION_COUNT and is then asked for one item after the other. The receiver
knows how many items it waits for and which one is next, and nothing else; it takes the
next item and refuses every other one, so messages may be lost, repeated and reordered as
they like. A repeated MISSION_COUNT starts again at the first item.

Every item is written where it belongs at once. What was received of the new mission is in
front of what is left of the old one, which was cut to the announced length.
-/

import Urus.Mission.Storage
import Urus.Mission.Mavlink

namespace Urus.GcsMavlink

open ApMission

/-! ### Stored commands -/

/-- The size in bytes of a member of the union. The structures are packed. -/
def size : Member → Nat
  | .unused => 0
  | .location => 12
  | .jump => 4
  | .delay => 4
  | .distance => 4
  | .yaw => 10
  | .speed => 9
  | .relay => 2
  | .repeatRelay => 7
  | .servo => 3
  | .repeatServo => 9
  | .mountControl => 12
  | .digicamConfigure => 12
  | .digicamControl => 6
  | .camTriggDist => 4
  | .gripper => 2
  | .guidedLimits => 12
  | .altitudeWait => 9
  | .doVtolTransition => 1
  | .doEngineControl => 4
  | .navDelay => 7
  | .setYawSpeed => 9
  | .winch => 10

/-- How the machine lays out the members of the union. -/
structure UnionLayout where
  bytes : (member : Member) → member.Content → List UInt8
  sized : ∀ member content, (bytes member content).length = size member

/-- A command in memory: the member in use, and zeros behind it. -/
def UnionLayout.command (layout : UnionLayout) (cmd : Command) : MissionCommand where
  index := cmd.index.toNat
  id := cmd.id.id
  p1 := cmd.p1
  content := zeroedCommand.content.overlay (layout.bytes cmd.id.member cmd.content)

/-- A read of a command finds the number, the identifier, the parameter, and the member of the
union that is in use. -/
def Recovers {board : Board} (layout : UnionLayout) (plan : Plan board) (index : Nat)
    (cmd : Command) : Prop :=
  ∀ temp, ∃ read, readCmdFromStorage plan index temp = some read ∧ read.index = index ∧
    read.id = cmd.id.id ∧ read.p1 = cmd.p1 ∧
    read.content.bytes.take (size cmd.id.member) = layout.bytes cmd.id.member cmd.content

theorem size_le (member : Member) : size member ≤ 12 := by
  cases member <;> decide

theorem size_le_of_wide {id : MavCmd} (wide : 256 ≤ id.id) : size id.member ≤ 10 := by
  revert wide
  cases id <;> decide

theorem UnionLayout.command_bytes (layout : UnionLayout) (cmd : Command) :
    (layout.command cmd).content.bytes.take (size cmd.id.member) =
      layout.bytes cmd.id.member cmd.content := by
  have sized := layout.sized cmd.id.member cmd.content
  have bound := size_le cmd.id.member
  simp only [command, Content.overlay]
  rw [List.take_take, Nat.min_eq_left bound, List.take_append_of_le_length (le_of_eq sized.symm),
    List.take_of_length_le (le_of_eq sized)]

theorem recovers_of_readsAs {board : Board} {layout : UnionLayout} {plan : Plan board} {index : Nat}
    {cmd : Command} (reads : ReadsAs plan index (layout.command cmd)) :
    Recovers layout plan index cmd := by
  intro temp
  obtain ⟨read, isRead, place, id, p1, narrow, wide⟩ := reads temp
  refine ⟨read, isRead, place, id, p1, ?_⟩
  rw [← layout.command_bytes cmd]
  by_cases small : (layout.command cmd).id < 256
  · rw [narrow small]
  · have large : 256 ≤ (layout.command cmd).id := UInt16.not_lt.mp small
    have fits := size_le_of_wide large
    have stored := congrArg (List.take (size cmd.id.member)) (wide large)
    rw [List.take_take, List.take_take, Nat.min_eq_left fits] at stored
    exact stored

/-! ### Messages -/

/-- A mission item of either kind. -/
inductive Item
  | item (packet : MissionItem)
  | itemInt (packet : MissionItemInt)

def Item.seq : Item → UInt16
  | item packet => packet.seq
  | itemInt packet => packet.seq

def Item.current : Item → UInt8
  | item packet => packet.current
  | itemInt packet => packet.current

/-- The conversion of a mission item. -/
def Item.decode (build : Build) : Item → Except MavMissionResult Command
  | item packet => mavlinkToMissionCmd build packet
  | itemInt packet => mavlinkIntToMissionCmd build packet

/-- What happens at the receiver: a message arrives, or none has for too long. -/
inductive Event
  | missionCount (count : UInt16)
  | missionItem (item : Item)
  | timeout

/-- What the receiver answers to an item. -/
inductive Reply
  | ack (result : MavMissionResult)
  | request (seq : UInt16)
  deriving DecidableEq

/-! ### The receiver -/

/-- The part of `GCS_MAVLINK` that receives missions, with the mission. -/
structure Gcs (board : Board) where
  mission : Mission board
  waypointReceiving : Bool
  waypointRequestI : UInt16
  waypointRequestLast : UInt16

/-- What the receiver is built for: the conversions, the layout of commands in memory, and the
vehicle's answer to an item that is not for the mission. -/
structure Receiver where
  build : Build
  layout : UnionLayout
  handleGuidedRequest : Command → Bool

variable {board : Board}

/-- `handle_mission_count`, with the answer if there is one. -/
def handleMissionCount (gcs : Gcs board) (count : UInt16) : Option Reply × Gcs board :=
  if count.toNat > numCommandsMax board then (some (.ack .noSpace), gcs)
  else
    (none, {
      mission := gcs.mission.truncate count.toNat
      waypointReceiving := true
      waypointRequestI := 0
      waypointRequestLast := count })

/-- An item that was accepted replaces a command or is added behind the last one. -/
def storeItem (mission : Mission board) (seq : UInt16) (cmd : MissionCommand) :
    Bool × Mission board :=
  if seq.toNat < mission.plan.cmdTotal then mission.replaceCmd seq.toNat cmd
  else if seq.toNat = mission.plan.cmdTotal then
    ((mission.addCmd cmd).1, (mission.addCmd cmd).2.2)
  else (false, mission)

/-- `handle_mission_item`: whether the mission is complete, the answer, and the receiver. -/
def handleMissionItem (receiver : Receiver) (gcs : Gcs board) (item : Item) :
    Bool × Reply × Gcs board :=
  match item.decode receiver.build with
  | .error result => (false, .ack result, gcs)
  | .ok decoded =>
    let cmd := receiver.layout.command decoded
    -- items for the guided mode and changes of altitude are for the vehicle
    if item.current = 2 then
      (false, .ack (if receiver.handleGuidedRequest decoded then .accepted else .error), gcs)
    else if item.current = 3 then (false, .ack .accepted, gcs)
    else if !gcs.waypointReceiving then (false, .ack .error, gcs)
    else if item.seq ≠ gcs.waypointRequestI then (false, .ack .invalidSequence, gcs)
    else if cmd.id = doJump ∧
        (cmd.content.jumpTarget ≥ gcs.mission.plan.cmdTotal ∧
            cmd.content.jumpTarget ≥ gcs.waypointRequestLast.toNat ∨
          cmd.content.jumpTarget = 0) then
      (false, .ack .error, gcs)
    else
      let (stored, mission) := storeItem gcs.mission item.seq cmd
      if !stored then (false, .ack .error, { gcs with mission := mission })
      else
        let requested := gcs.waypointRequestI + 1
        if requested ≥ gcs.waypointRequestLast then
          (true, .ack .accepted, { gcs with
            mission := mission
            waypointRequestI := requested
            waypointReceiving := false })
        else
          (false, .request requested, { gcs with
            mission := mission
            waypointRequestI := requested })

/-- One event. -/
def Gcs.step (receiver : Receiver) (gcs : Gcs board) : Event → Gcs board
  | .missionCount count => (handleMissionCount gcs count).2
  | .missionItem item => (handleMissionItem receiver gcs item).2.2
  | .timeout => { gcs with waypointReceiving := false }

/-! ### Writing an item -/

/-- What storing an item does: it writes the slot of the item, and the list reaches it. -/
structure Stores (mission next : Mission board) (index : Nat) (cmd : MissionCommand) : Prop where
  reached : index ≤ mission.plan.cmdTotal
  slot : next.plan.slot index = cmd.record
  others : ∀ other, other ≠ index → next.plan.slot other = mission.plan.slot other
  total : next.plan.cmdTotal = max mission.plan.cmdTotal (index + 1)

theorem storeItem_stores {mission : Mission board} {seq : UInt16} {cmd : MissionCommand}
    (stored : (storeItem mission seq cmd).1 = true) :
    Stores mission (storeItem mission seq cmd).2 seq.toNat cmd := by
  unfold storeItem at stored ⊢
  split at stored
  · rename_i listed
    have room := lt_of_lt_of_le listed mission.plan.inside
    have slots := @slot_edit board 0 mission _ (.replaceCmd seq.toNat cmd) rfl rfl
    rw [written, if_pos stored] at slots
    rw [if_pos listed]
    refine ⟨le_of_lt listed, (slots _).1 cmd rfl, fun other different => ?_, ?_⟩
    · refine (slots other).2 fun new same => different ?_
      exact (Prod.mk.inj (Option.some.inj same)).1.symm
    · rw [Mission.replaceCmd, if_neg (not_le.mpr listed)]
      exact (writeCmdToStorage_accepted mission.plan room cmd).2.trans (by omega)
  · rename_i beyond
    split at stored
    · rename_i behind
      have slots := @slot_edit board 0 mission _ (.addCmd cmd) rfl rfl
      rw [written, if_pos stored, ← behind] at slots
      rw [if_neg beyond, if_pos behind]
      refine ⟨le_of_eq behind, (slots _).1 cmd rfl, fun other different => ?_, ?_⟩
      · refine (slots other).2 fun new same => different ?_
        exact (Prod.mk.inj (Option.some.inj same)).1.symm
      · have room : mission.plan.cmdTotal < numCommandsMax board := by
          by_contra full
          rw [Mission.addCmd, dif_neg full] at stored
          cases stored
        rw [Mission.addCmd, dif_pos room]
        dsimp only
        omega
    · cases stored

theorem storeItem_refused {mission : Mission board} {seq : UInt16} {cmd : MissionCommand}
    (refused : (storeItem mission seq cmd).1 = false) : (storeItem mission seq cmd).2 = mission := by
  unfold storeItem at refused ⊢
  split at refused
  · rename_i listed
    rw [if_pos listed]
    exact Mission.replaceCmd_refused refused
  · rename_i beyond
    rw [if_neg beyond]
    split at refused
    · rename_i behind
      rw [if_pos behind]
      exact Mission.addCmd_refused refused
    · rename_i apart
      rw [if_neg apart]

/-! ### Handling an item -/

/-- A jump to a command of the announced mission, behind home. -/
def JumpInside (count : UInt16) (cmd : MissionCommand) : Prop :=
  cmd.id = doJump → 1 ≤ cmd.content.jumpTarget ∧ cmd.content.jumpTarget ≤ count.toNat - 1

/-- The item that is asked for is taken. -/
structure Takes (receiver : Receiver) (gcs : Gcs board) (item : Item) (decoded : Command) : Prop where
  decodes : item.decode receiver.build = .ok decoded
  receiving : gcs.waypointReceiving = true
  requested : item.seq = gcs.waypointRequestI
  jump : ¬ ((receiver.layout.command decoded).id = doJump ∧
    ((receiver.layout.command decoded).content.jumpTarget ≥ gcs.mission.plan.cmdTotal ∧
        (receiver.layout.command decoded).content.jumpTarget ≥ gcs.waypointRequestLast.toNat ∨
      (receiver.layout.command decoded).content.jumpTarget = 0))

/-- What handling an item does: nothing, or the item is taken and stored, and the receiver asks for
the next one or is done. -/
theorem handleMissionItem_cases (receiver : Receiver) (gcs : Gcs board) (item : Item) :
    ((handleMissionItem receiver gcs item).1 = false ∧
        (handleMissionItem receiver gcs item).2.2 = gcs) ∨
      ∃ decoded mission, Takes receiver gcs item decoded ∧
        Stores gcs.mission mission item.seq.toNat (receiver.layout.command decoded) ∧
        handleMissionItem receiver gcs item =
          if gcs.waypointRequestI + 1 ≥ gcs.waypointRequestLast then
            (true, .ack .accepted, ⟨mission, false, gcs.waypointRequestI + 1,
              gcs.waypointRequestLast⟩)
          else
            (false, .request (gcs.waypointRequestI + 1), ⟨mission, gcs.waypointReceiving,
              gcs.waypointRequestI + 1, gcs.waypointRequestLast⟩) := by
  unfold handleMissionItem
  cases decodes : item.decode receiver.build with
  | error result => exact Or.inl ⟨rfl, rfl⟩
  | ok decoded =>
    dsimp only
    split
    · exact Or.inl ⟨rfl, rfl⟩
    · split
      · exact Or.inl ⟨rfl, rfl⟩
      · split
        · exact Or.inl ⟨rfl, rfl⟩
        · split
          · exact Or.inl ⟨rfl, rfl⟩
          · split
            · exact Or.inl ⟨rfl, rfl⟩
            · rename_i receiving requested jump
              rw [Bool.not_eq_true', Bool.not_eq_false] at receiving
              rw [not_not] at requested
              cases stored : (storeItem gcs.mission item.seq
                  (receiver.layout.command decoded)).1 with
              | false =>
                rw [storeItem_refused stored]
                exact Or.inl ⟨rfl, rfl⟩
              | true =>
                refine Or.inr ⟨decoded, _, ⟨decodes, receiving, requested, jump⟩,
                  storeItem_stores stored, ?_⟩
                rfl

/-! ### A session -/

section Session

variable {receiver : Receiver} {count : UInt16} {contents : Nat → Command} {gcs : Gcs board}

/-- The slot of an item holds what the item was decoded to. -/
def Holds (receiver : Receiver) (count : UInt16) (contents : Nat → Command) (plan : Plan board)
    (index : Nat) : Prop :=
  plan.slot index = (receiver.layout.command (contents index)).record ∧
    JumpInside count (receiver.layout.command (contents index))

/-- The state of an upload: the items in front of the next one are stored, the list reaches up to
the next one, and not beyond the announced length. -/
structure Receiving (receiver : Receiver) (count : UInt16) (contents : Nat → Command)
    (gcs : Gcs board) : Prop where
  last : gcs.waypointRequestLast = count
  pending : gcs.waypointRequestI.toNat < count.toNat
  reached : gcs.waypointRequestI.toNat ≤ gcs.mission.plan.cmdTotal
  within : gcs.mission.plan.cmdTotal ≤ count.toNat
  stored : ∀ index < gcs.waypointRequestI.toNat,
    Holds receiver count contents gcs.mission.plan index

/-- A receiver that waits for items has the state of the upload. -/
def Uploading (receiver : Receiver) (count : UInt16) (contents : Nat → Command)
    (gcs : Gcs board) : Prop :=
  gcs.waypointReceiving = true → Receiving receiver count contents gcs

/-- An event of the session: the count is always the same, and so is what an item carries. -/
def Belongs (receiver : Receiver) (count : UInt16) (contents : Nat → Command) : Event → Prop
  | .missionCount announced => announced = count
  | .missionItem item => ∀ cmd, item.decode receiver.build = .ok cmd → cmd = contents item.seq.toNat
  | .timeout => True

theorem handleMissionCount_receiving (positive : 1 ≤ count.toNat)
    (accepted : count.toNat ≤ numCommandsMax board) :
    Receiving receiver count contents (handleMissionCount gcs count).2 := by
  rw [handleMissionCount, if_neg (not_lt.mpr accepted)]
  refine ⟨rfl, positive, Nat.zero_le _, ?_, fun index early => absurd early (Nat.not_lt_zero _)⟩
  dsimp only
  unfold Mission.truncate
  split
  · exact le_refl _
  · rename_i short
    exact not_lt.mp short

/-- Announcing a mission writes no command. -/
theorem handleMissionCount_slot (gcs : Gcs board) (count : UInt16) (index : Nat) :
    (handleMissionCount gcs count).2.mission.plan.slot index = gcs.mission.plan.slot index := by
  unfold handleMissionCount
  split
  · rfl
  · dsimp only
    unfold Mission.truncate
    split <;> rfl

theorem Receiving.request_succ (state : Receiving receiver count contents gcs) :
    (gcs.waypointRequestI + 1).toNat = gcs.waypointRequestI.toNat + 1 := by
  have pending := state.pending
  have bound := count.toNat_lt
  exact uint16_succ (by omega)

/-- An item that is taken is stored behind the ones before it. -/
theorem Receiving.take {item : Item} {decoded : Command} {mission : Mission board}
    (state : Receiving receiver count contents gcs)
    (belongs : Belongs receiver count contents (.missionItem item))
    (takes : Takes receiver gcs item decoded)
    (stores : Stores gcs.mission mission item.seq.toNat (receiver.layout.command decoded)) :
    (∀ index < gcs.waypointRequestI.toNat + 1,
        Holds receiver count contents mission.plan index) ∧
      gcs.waypointRequestI.toNat + 1 ≤ mission.plan.cmdTotal ∧
      mission.plan.cmdTotal ≤ count.toNat := by
  have pending := state.pending
  have within := state.within
  have total := stores.total
  rw [takes.requested] at total
  obtain rfl : decoded = contents item.seq.toNat := belongs decoded takes.decodes
  refine ⟨fun index early => ?_, by omega, by omega⟩
  by_cases same : index = item.seq.toNat
  · rw [same]
    refine ⟨stores.slot, fun jumps => ?_⟩
    have target := takes.jump
    rw [state.last] at target
    simp only [jumps, true_and, not_or, not_and_or, not_le] at target
    omega
  · have earlier : index < gcs.waypointRequestI.toNat := by
      rw [takes.requested] at same
      omega
    obtain ⟨slot, jump⟩ := state.stored index earlier
    exact ⟨(stores.others index same).trans slot, jump⟩

theorem Gcs.step_uploading (positive : 1 ≤ count.toNat)
    (accepted : count.toNat ≤ numCommandsMax board) (gcs : Gcs board) (event : Event)
    (belongs : Belongs receiver count contents event)
    (state : Uploading receiver count contents gcs) :
    Uploading receiver count contents (gcs.step receiver event) := by
  cases event with
  | missionCount announced =>
    obtain rfl : announced = count := belongs
    exact fun _ => handleMissionCount_receiving positive accepted
  | timeout => exact nofun
  | missionItem item =>
    obtain ⟨-, same⟩ | ⟨decoded, mission, takes, stores, outcome⟩ :=
      handleMissionItem_cases receiver gcs item
    · rw [Gcs.step, same]
      exact state
    · have receiving := state takes.receiving
      obtain ⟨stored, reached, within⟩ := receiving.take belongs takes stores
      rw [Gcs.step, outcome]
      split
      · exact nofun
      · rename_i more
        rw [ge_iff_le, UInt16.le_iff_toNat_le, receiving.request_succ, not_le,
          receiving.last] at more
        rw [← receiving.request_succ] at stored reached more
        exact fun _ => ⟨receiving.last, more, reached, within, stored⟩

/-- The announced mission is stored: it has the announced length, every command behind home reads
as what its item was decoded to, and no jump leaves it. -/
structure Received (receiver : Receiver) (count : UInt16) (contents : Nat → Command)
    (plan : Plan board) : Prop where
  total : plan.cmdTotal = count.toNat
  commands : ∀ index, 1 ≤ index → index < count.toNat →
    Recovers receiver.layout plan index (contents index)
  jumps : ∀ index temp read, readCmdFromStorage plan index temp = some read → JumpInside count read

theorem received_of_holds {plan : Plan board} (total : plan.cmdTotal = count.toNat)
    (stored : ∀ index < count.toNat, Holds receiver count contents plan index) :
    Received receiver count contents plan := by
  have reads : ∀ index, 1 ≤ index → index < count.toNat →
      ReadsAs plan index (receiver.layout.command (contents index)) := fun index real listed =>
    readsAs_of_slot real (total ▸ listed) (contents index).id.id_ne_zero (stored index listed).1
  refine ⟨total, fun index real listed => recovers_of_readsAs (reads index real listed),
    fun index temp read isRead jumps => ?_⟩
  -- home is no jump, and there is nothing behind the last command
  by_cases real : 1 ≤ index
  · by_cases listed : index < count.toNat
    · obtain ⟨found, isFound, -, id, -, narrow, -⟩ := reads index real listed temp
      obtain rfl : found = read := Option.some.inj (isFound.symm.trans isRead)
      have jump : (receiver.layout.command (contents index)).id = doJump := id.symm.trans jumps
      rw [narrow (by rw [jump]; decide)]
      exact (stored index listed).2 jump
    · rw [readCmdFromStorage, if_pos ⟨by omega, by omega⟩] at isRead
      cases isRead
  · obtain rfl : index = 0 := by omega
    rw [readCmdFromStorage, if_neg (by simp), if_pos rfl] at isRead
    rw [← Option.some.inj isRead] at jumps
    exact absurd jumps (by decide : navWaypoint ≠ doJump)

theorem handleMissionItem_complete {item : Item}
    (belongs : Belongs receiver count contents (.missionItem item))
    (state : Uploading receiver count contents gcs)
    (complete : (handleMissionItem receiver gcs item).1 = true) :
    (handleMissionItem receiver gcs item).2.1 = .ack .accepted ∧
      Received receiver count contents (handleMissionItem receiver gcs item).2.2.mission.plan := by
  obtain ⟨unfinished, -⟩ | ⟨decoded, mission, takes, stores, outcome⟩ :=
    handleMissionItem_cases receiver gcs item
  · rw [unfinished] at complete
    exact nomatch complete
  · have receiving := state takes.receiving
    obtain ⟨stored, reached, within⟩ := receiving.take belongs takes stores
    have pending := receiving.pending
    rw [outcome] at complete ⊢
    split
    · rename_i done
      rw [ge_iff_le, UInt16.le_iff_toNat_le, receiving.request_succ, receiving.last] at done
      have all : gcs.waypointRequestI.toNat + 1 = count.toNat := by omega
      rw [all] at stored reached
      exact ⟨rfl, received_of_holds (le_antisymm within reached) stored⟩
    · rename_i more
      rw [if_neg more] at complete
      exact nomatch complete

/-- Only the item that is asked for is written. -/
theorem Gcs.step_slot (gcs : Gcs board) (event : Event) (index : Nat) :
    (gcs.step receiver event).mission.plan.slot index = gcs.mission.plan.slot index ∨
      ∃ item, event = .missionItem item ∧ item.seq = gcs.waypointRequestI ∧
        item.seq.toNat = index := by
  cases event with
  | missionCount announced => exact Or.inl (handleMissionCount_slot gcs announced index)
  | timeout => exact Or.inl rfl
  | missionItem item =>
    obtain ⟨-, same⟩ | ⟨decoded, mission, takes, stores, outcome⟩ :=
      handleMissionItem_cases receiver gcs item
    · rw [Gcs.step, same]
      exact Or.inl rfl
    · by_cases place : item.seq.toNat = index
      · exact Or.inr ⟨item, rfl, takes.requested, place⟩
      · have kept := stores.others index (Ne.symm place)
        rw [Gcs.step, outcome]
        split <;> exact Or.inl kept

/-- The state of the upload is reached with the first announcement, and kept. -/
theorem Gcs.run_uploading (positive : 1 ≤ count.toNat)
    (accepted : count.toNat ≤ numCommandsMax board) {start : Gcs board} {events : List Event}
    (session : ∀ event ∈ events, Belongs receiver count contents event)
    (opened : start.waypointReceiving = false ∨ events.head? = some (.missionCount count)) :
    Uploading receiver count contents (runCalls (Gcs.step receiver) start events) := by
  have kept : ∀ (first : Gcs board) (rest : List Event), (∀ event ∈ rest, event ∈ events) →
      Uploading receiver count contents first →
      Uploading receiver count contents (runCalls (Gcs.step receiver) first rest) := by
    intro first rest inside state
    refine runCalls_invariant _ (fun gcs event member => ?_) state
    exact gcs.step_uploading positive accepted event (session event (inside event member))
  obtain idle | opening := opened
  · refine kept start events (fun event member => member) fun receiving => ?_
    rw [idle] at receiving
    exact nomatch receiving
  · cases events with
    | nil => exact nomatch opening
    | cons first rest =>
      obtain rfl : first = .missionCount count := Option.some.inj opening
      exact kept _ rest (fun event member => List.mem_cons_of_mem _ member)
        fun _ => handleMissionCount_receiving positive accepted

/-- The upload of a mission, over every sequence of announcements and items of one session. When
an item completes the mission, the stored mission is the one that was announced. Before, an item
that is not the one asked for changes nothing, and no event writes anything else than the item that
is asked for. -/
theorem upload_stores_mission (positive : 1 ≤ count.toNat)
    (accepted : count.toNat ≤ numCommandsMax board) {start : Gcs board} {events : List Event}
    (session : ∀ event ∈ events, Belongs receiver count contents event)
    (opened : start.waypointReceiving = false ∨ events.head? = some (.missionCount count))
    {before after : List Event} {event : Event} (now : events = before ++ event :: after) :
    let gcs := runCalls (Gcs.step receiver) start before
    (∀ index, (gcs.step receiver event).mission.plan.slot index = gcs.mission.plan.slot index ∨
      ∃ item, event = .missionItem item ∧ item.seq = gcs.waypointRequestI ∧
        item.seq.toNat = index) ∧
    ∀ item, event = .missionItem item →
      (item.seq ≠ gcs.waypointRequestI → (handleMissionItem receiver gcs item).2.2 = gcs) ∧
      ((handleMissionItem receiver gcs item).1 = true →
        (handleMissionItem receiver gcs item).2.1 = .ack .accepted ∧
          Received receiver count contents
            (handleMissionItem receiver gcs item).2.2.mission.plan) := by
  intro gcs
  refine ⟨gcs.step_slot event, fun item isItem => ⟨fun other => ?_, ?_⟩⟩
  · obtain ⟨-, same⟩ | ⟨decoded, mission, takes, -⟩ := handleMissionItem_cases receiver gcs item
    · exact same
    · exact absurd takes.requested other
  · subst isItem now
    refine handleMissionItem_complete
      (session _ (List.mem_append_right _ List.mem_cons_self)) ?_
    refine Gcs.run_uploading positive accepted
      (fun event member => session event (List.mem_append_left _ member)) ?_
    -- the item is not the announcement, so the first event is one before it
    cases before with
    | nil => exact opened.imp_right fun impossible => nomatch impossible
    | cons first rest => exact opened

end Session

/-! ### A small upload -/

/-- The bytes of a number, lowest first. -/
def littleEndian (value : Int) (count : Nat) : List UInt8 :=
  (List.range count).map fun place => UInt8.ofInt (value / 2 ^ (8 * place))

/-- The option flags of a location as a byte. -/
def options (location : Location) : UInt8 :=
  (if location.relativeAlt then 1 else 0) + (if location.loiterCcw then 4 else 0) +
    (if location.terrainAlt then 8 else 0) + (if location.originAlt then 16 else 0) +
    (if location.loiterXtrack then 32 else 0)

/-- The layout of locations and jumps on a little endian machine; the others are blank. -/
def smallLayout : UnionLayout where
  bytes
    | .location, place => [options place] ++ littleEndian place.alt 3 ++
        littleEndian place.lat.toInt 4 ++ littleEndian place.lng.toInt 4
    | .jump, jump => wordBytes jump.target ++ wordBytes jump.numTimes.toUInt16
    | member, _ => List.replicate (size member) 0
  sized member content := by
    cases member <;> simp [littleEndian, wordBytes, size]

def smallReceiver : Receiver := ⟨⟨false, true⟩, smallLayout, fun _ => false⟩

/-- Two waypoints, and a jump to the second one. -/
def smallItem (seq : UInt16) : Item :=
  if seq = 2 then .itemInt ⟨1, 3, 0, 0, 0, 0, 0, seq, MavCmd.doJump.id, frameMission, 0, 1⟩
  else .itemInt ⟨5, 0, 0, 0, -353632610, 1491652300, 10, seq, MavCmd.navWaypoint.id,
    frameGlobalRelativeAlt, 0, 1⟩

def smallContents (index : Nat) : Command :=
  if index = 2 then ⟨2, .doJump, 0, ⟨1, 3⟩⟩
  else ⟨UInt16.ofNat index, .navWaypoint, 5,
    ⟨true, false, false, false, false, 1000, -353632610, 1491652300⟩⟩

/-- An item comes too early, items are repeated and lost, and so is the announcement. -/
def smallSession : List Event :=
  [.missionItem (smallItem 1), .missionCount 3, .missionItem (smallItem 0),
    .missionItem (smallItem 0), .missionItem (smallItem 2), .missionCount 3,
    .missionItem (smallItem 0), .missionItem (smallItem 1)]

/-- The upload replaces a longer mission. -/
def smallGcs : Gcs smallBoard := ⟨constructed (uploaded [navCmd, navCmd, navCmd]), false, 0, 0⟩

theorem smallItem_belongs {seq : UInt16} (member : seq ∈ [0, 1, 2]) :
    Belongs smallReceiver 3 smallContents (.missionItem (smallItem seq)) := by
  have decodes : (smallItem seq).decode smallReceiver.build = .ok (smallContents seq.toNat) ∧
      (smallItem seq).seq = seq := by
    simp only [List.mem_cons, List.not_mem_nil, or_false] at member
    rcases member with rfl | rfl | rfl
    · exact ⟨by decide +kernel, by decide +kernel⟩
    · exact ⟨by decide +kernel, by decide +kernel⟩
    · exact ⟨by decide +kernel, by decide +kernel⟩
  intro cmd accepted
  obtain ⟨decoded, number⟩ := decodes
  rw [decoded] at accepted
  rw [number]
  exact (Except.ok.inj accepted).symm

theorem upload_stores_mission_repeated :
    let gcs := runCalls (Gcs.step smallReceiver) smallGcs smallSession
    (handleMissionItem smallReceiver gcs (smallItem 2)).1 = true ∧
      Received smallReceiver 3 smallContents
        (handleMissionItem smallReceiver gcs (smallItem 2)).2.2.mission.plan := by
  intro gcs
  have session : ∀ event ∈ smallSession ++ [.missionItem (smallItem 2)],
      Belongs smallReceiver 3 smallContents event := by
    have announced : Belongs smallReceiver 3 smallContents (.missionCount 3) := rfl
    have first := @smallItem_belongs 0 (by decide)
    have second := @smallItem_belongs 1 (by decide)
    have third := @smallItem_belongs 2 (by decide)
    rw [smallSession]
    simp only [List.cons_append, List.nil_append, List.forall_mem_cons, announced, first, second,
      third, List.not_mem_nil, false_imp_iff, implies_true, and_self]
  have complete : (handleMissionItem smallReceiver gcs (smallItem 2)).1 = true := by
    decide +kernel
  obtain ⟨-, items⟩ := @upload_stores_mission smallBoard smallReceiver 3 smallContents (by decide)
    (by decide +kernel) smallGcs _ session (Or.inl rfl) smallSession [] _ rfl
  exact ⟨complete, ((items (smallItem 2) rfl).2 complete).2⟩

end Urus.GcsMavlink
