/-
This file models the mission library: the stored command list, the table in which the
runs of DO_JUMP commands are counted, and the state machine that walks the list, loads
navigation and do commands and hands them to the vehicle.

A command occupies 15 bytes of the mission's storage. What the library knows of the
list is what it reads back, so every search goes through `readCmdFromStorage`.

`getNextCmd` resolves jumps. It has a budget of its own, the number of jumps it is
willing to look at, and the recursion is on that budget. `advanceCurrentNavCmd` has one
too, the number of do commands it is willing to skip behind the first. The loops of
`setCurrentCmd` have none; they are given fuel, and a search that has not come back
when the fuel is used up has no result.

The vehicle sees the calls of its start, verify and complete functions. They are
recorded in `calls`. The searches that advance the mission also leave a record of
the commands they went through, in `visits`: the code has no such variable, and nothing
that the code does depends on it.
-/

import Urus.StorageManager

namespace Urus.ApMission

open Image StorageManager

/-! ### Commands -/

/-- Index of a missing command. -/
def indexNone : Nat := 65535

/-- Index of the first command behind home. -/
def firstRealCommand : Nat := 1

/-- Size in bytes of a stored command. -/
def commandSize : Nat := 15

/-- Number of entries of the jump tracking table. -/
def maxNumDoJumpCommands : Nat := 15

/-- Repeat count of a jump that never ends. -/
def jumpRepeatForever : Int := -1

/-- Reported for a jump that cannot be tracked. -/
def jumpTimesMax : Int := 32767

/-- Version of the stored list, in the first four bytes of the storage. -/
def eepromVersion : List UInt8 := [0xAE, 0x65, 0, 0]

/-- Identifiers of the MAVLink commands that the library treats specially. -/
def navWaypoint : UInt16 := 16
def navTakeoff : UInt16 := 22
def navGuidedEnable : UInt16 := 92
def navDelay : UInt16 := 93
def navLast : UInt16 := 95
def doJump : UInt16 := 177
def navSetYawSpeed : UInt16 := 213

/-- A 16 bit word in storage order. -/
def word (low high : UInt8) : UInt16 := UInt16.ofNat (low.toNat + 2 ^ 8 * high.toNat)

/-- The bytes of a 16 bit word in storage order. -/
def wordBytes (value : UInt16) : List UInt8 :=
  [UInt8.ofNat value.toNat, UInt8.ofNat (value.toNat / 2 ^ 8)]

/-- A 16 bit word read as a signed number. -/
def signedWord (value : UInt16) : Int := Int.bmod value.toNat (2 ^ 16)

/-- The content of a command: a union of 12 bytes. -/
structure Content where
  bytes : List UInt8
  sized : bytes.length = 12
  deriving DecidableEq

/-- Content whose first bytes are overwritten. -/
def Content.overlay (old : Content) (data : List UInt8) : Content where
  bytes := (data ++ old.bytes.drop data.length).take 12
  sized := by
    have sized := old.sized
    rw [List.length_take, List.length_append, List.length_drop]
    omega

/-- `content.jump.target`. -/
def Content.jumpTarget (content : Content) : Nat :=
  (word (content.bytes.getD 0 0) (content.bytes.getD 1 0)).toNat

/-- `content.jump.num_times`. -/
def Content.jumpNumTimes (content : Content) : Int :=
  signedWord (word (content.bytes.getD 2 0) (content.bytes.getD 3 0))

/-- `content.location.lat` and `content.location.lng` are both zero. -/
def Content.noPosition (content : Content) : Bool :=
  (content.bytes.drop 4).all fun byte => byte == 0

structure MissionCommand where
  index : Nat
  id : UInt16
  p1 : UInt16
  content : Content
  deriving DecidableEq

/-- `is_nav_cmd`. -/
def isNavCmd (cmd : MissionCommand) : Bool := cmd.id ≤ navLast || cmd.id == navSetYawSpeed

/-! ### Storage -/

/-- What the library is given: the layout of the board's storage, the home position, whatever an
uninitialised local command holds, and two floating point computations on contents, the bearing
from one location to another and the angle of a yaw command. -/
structure Board where
  layout : Layout
  home : Content
  scratch : MissionCommand
  bearingCd : Content → Content → Int
  yawAngleCd : Content → Int

section Storage

variable (board : Board)

/-- `num_commands_max`. -/
def numCommandsMax : Nat := (size .mission board.layout.areas - 4) / commandSize

/-- The stored mission: the board's storage and the parameter `_cmd_total`. The commands fit in
the storage. -/
structure Plan where
  storage : Image
  cmdTotal : Nat
  inside : cmdTotal ≤ numCommandsMax board

/-- `StorageAccess::read_block` on the mission's storage. -/
def readBytes (storage : Image) (loc count : Nat) : List UInt8 :=
  (readBlock board.layout.areas .mission storage loc count).2

/-- `StorageAccess::read_byte`. -/
def readByte (storage : Image) (loc : Nat) : UInt8 := (readBytes board storage loc 1).getD 0 0

/-- `StorageAccess::read_uint16`. -/
def readUint16 (storage : Image) (loc : Nat) : UInt16 :=
  word ((readBytes board storage loc 2).getD 0 0) ((readBytes board storage loc 2).getD 1 0)

/-- `StorageAccess::write_block` on the mission's storage, whose result the library ignores. -/
def writeBytes (storage : Image) (loc : Nat) (data : List UInt8) : Image :=
  (writeBlock board.layout.areas .mission storage loc data).2

/-- Where a command is stored. -/
def posInStorage (index : Nat) : Nat := (4 + index * commandSize) % 2 ^ 16

/-- `read_cmd_from_storage`: the command, in the place of the one passed in, or nothing. A
command with a 16 bit identifier has 10 bytes of content and leaves the last two alone. -/
def readCmdFromStorage {board : Board} (plan : Plan board) (index : Nat) (cmd : MissionCommand) :
    Option MissionCommand :=
  if index ≥ plan.cmdTotal ∧ index ≠ 0 then none
  else if index = 0 then some ⟨0, navWaypoint, 0, board.home⟩
  else
    let pos := posInStorage index
    let b1 := readByte board plan.storage pos
    if b1 = 0 then
      some ⟨index, readUint16 board plan.storage (pos + 1), readUint16 board plan.storage (pos + 3),
        cmd.content.overlay (readBytes board plan.storage (pos + 5) 10)⟩
    else
      some ⟨index, b1.toUInt16, readUint16 board plan.storage (pos + 1),
        cmd.content.overlay (readBytes board plan.storage (pos + 3) 12)⟩

/-- `write_cmd_to_storage`. -/
def writeCmdToStorage {board : Board} (plan : Plan board) (index : Nat) (cmd : MissionCommand) :
    Bool × Plan board :=
  if index ≥ numCommandsMax board then (false, plan)
  else
    let pos := posInStorage index
    if cmd.id < 256 then
      let storage := writeBytes board plan.storage pos [cmd.id.toUInt8]
      let storage := writeBytes board storage (pos + 1) (wordBytes cmd.p1)
      let storage := writeBytes board storage (pos + 3) cmd.content.bytes
      (true, { plan with storage := storage })
    else
      let storage := writeBytes board plan.storage pos [0]
      let storage := writeBytes board storage (pos + 1) (wordBytes cmd.id)
      let storage := writeBytes board storage (pos + 3) (wordBytes cmd.p1)
      let storage := writeBytes board storage (pos + 5) (cmd.content.bytes.take 10)
      (true, { plan with storage := storage })

end Storage

/-! ### Jump tracking -/

/-- One entry of the jump tracking table. The count is a 16 bit number. -/
structure JumpTracking where
  index : Nat
  numTimesRun : Int
  deriving DecidableEq

/-- `init_jump_tracking`. -/
def initJumpTracking : List JumpTracking := List.replicate maxNumDoJumpCommands ⟨indexNone, 0⟩

/-- The search of `get_jump_times_run`: the count of a jump, and the table with an entry for
it. -/
def findJump (index : Nat) : List JumpTracking → Int × List JumpTracking
  | [] => (jumpTimesMax, [])
  | entry :: rest =>
    if entry.index = index then (entry.numTimesRun, entry :: rest)
    else if entry.index = indexNone then (0, ⟨index, 0⟩ :: rest)
    else ((findJump index rest).1, entry :: (findJump index rest).2)

/-- The search of `increment_jump_times_run`. -/
def countJump (index : Nat) : List JumpTracking → List JumpTracking
  | [] => []
  | entry :: rest =>
    if entry.index = index then ⟨entry.index, Int.bmod (entry.numTimesRun + 1) (2 ^ 16)⟩ :: rest
    else if entry.index = indexNone then ⟨index, 1⟩ :: rest
    else entry :: countJump index rest

/-- `get_jump_times_run`. -/
def getJumpTimesRun {board : Board} (plan : Plan board) (table : List JumpTracking)
    (cmd : MissionCommand) : Int × List JumpTracking :=
  if cmd.id ≠ doJump ∨ cmd.content.jumpTarget ≥ plan.cmdTotal ∨ cmd.content.jumpTarget = 0 then
    (jumpTimesMax, table)
  else findJump cmd.index table

/-- `increment_jump_times_run`. -/
def incrementJumpTimesRun (table : List JumpTracking) (cmd : MissionCommand) :
    List JumpTracking :=
  if cmd.id ≠ doJump then table else countJump cmd.index table

/-! ### The search for the next command -/

/-- What a search did with a command that it read. -/
inductive Visit
  | jump (index : Nat) (taken : Bool)
  | found (index : Nat)
  deriving DecidableEq

/-- The outcome of a search: the command found, if any, the jump tracking table after it, and
the record of the commands it went through. -/
structure Search where
  cmd : Option MissionCommand
  table : List JumpTracking
  visits : List Visit

/-- A search that went through one more command before. -/
def Search.behind (search : Search) (visit : Visit) : Search :=
  { search with visits := visit :: search.visits }

section Next

variable {board : Board} (plan : Plan board)

/-- The loop of `get_next_cmd`. `temp` is the local command that every read goes to. -/
def getNextCmdLoop (increment : Bool) : (maxLoops cmdIndex jumpIndex : Nat) →
    (temp : MissionCommand) → (table : List JumpTracking) → Search
  | maxLoops, cmdIndex, jumpIndex, temp, table =>
    if cmdIndex < plan.cmdTotal then
      match readCmdFromStorage plan cmdIndex temp with
      | none => ⟨none, table, []⟩
      | some temp =>
        if temp.id = doJump then
          match maxLoops with
          | 0 => ⟨none, table, []⟩
          | maxLoops + 1 =>
            if temp.content.jumpTarget ≥ plan.cmdTotal ∨ temp.content.jumpTarget = 0 then
              ⟨none, table, []⟩
            -- this jump has been reached before and its count does not change
            else if increment = false ∧ jumpIndex = cmdIndex then ⟨none, table, []⟩
            else
              let jumpIndex := if jumpIndex = indexNone then cmdIndex else jumpIndex
              if temp.content.jumpNumTimes = jumpRepeatForever then
                (getNextCmdLoop increment maxLoops temp.content.jumpTarget jumpIndex temp
                  table).behind (.jump cmdIndex true)
              else
                let (timesRun, table) := getJumpTimesRun plan table temp
                if timesRun < temp.content.jumpNumTimes then
                  let table := if increment then incrementJumpTimesRun table temp else table
                  (getNextCmdLoop increment maxLoops temp.content.jumpTarget jumpIndex temp
                    table).behind (.jump cmdIndex true)
                else
                  (getNextCmdLoop increment maxLoops (cmdIndex + 1) jumpIndex temp
                    table).behind (.jump cmdIndex false)
        else ⟨some temp, table, [.found cmdIndex]⟩
    else ⟨none, table, []⟩

/-- `get_next_cmd`. -/
def getNextCmd (startIndex : Nat) (increment : Bool) (table : List JumpTracking) : Search :=
  getNextCmdLoop plan increment 64 startIndex indexNone board.scratch table

/-- The loop of `get_next_nav_cmd`, over the commands that are left. -/
def getNextNavCmdLoop : (left cmdIndex : Nat) → (table : List JumpTracking) →
    Option MissionCommand × List JumpTracking
  | 0, _, table => (none, table)
  | left + 1, cmdIndex, table =>
    let search := getNextCmd plan cmdIndex false table
    match search.cmd with
    | none => (none, search.table)
    | some cmd =>
      if isNavCmd cmd then (some cmd, search.table)
      else getNextNavCmdLoop left (cmdIndex + 1) search.table

/-- `get_next_nav_cmd` on the stored mission. -/
def nextNavCmd (startIndex : Nat) (table : List JumpTracking) :
    Option MissionCommand × List JumpTracking :=
  getNextNavCmdLoop plan (plan.cmdTotal - startIndex) startIndex table

/-- `get_next_do_cmd`. -/
def getNextDoCmd (startIndex : Nat) (table : List JumpTracking) :
    Option MissionCommand × List JumpTracking :=
  if startIndex ≥ plan.cmdTotal then (none, table)
  else
    let search := getNextCmd plan startIndex false table
    match search.cmd with
    | none => (none, search.table)
    | some cmd => if isNavCmd cmd then (none, search.table) else (some cmd, search.table)

end Next

/-! ### The mission -/

inductive MissionState
  | stopped
  | running
  | complete
  deriving DecidableEq

/-- The calls of the vehicle's functions. -/
inductive Callback
  | start (cmd : MissionCommand)
  | verify (cmd : MissionCommand)
  | complete
  deriving DecidableEq

structure Mission (board : Board) where
  plan : Plan board
  state : MissionState
  navCmdLoaded : Bool
  doCmdLoaded : Bool
  doCmdAllDone : Bool
  navCmd : MissionCommand
  doCmd : MissionCommand
  prevNavCmdId : UInt16
  prevNavCmdIndex : Nat
  prevNavCmdWpIndex : Nat
  jumpTracking : List JumpTracking
  calls : List Callback
  visits : List Visit

/-- Zeroed memory of a command. -/
def zeroedCommand : MissionCommand := ⟨0, 0, 0, ⟨List.replicate 12 0, rfl⟩⟩

/-- The constructor. The object is part of the static vehicle object, so what the constructor
does not set is zero: that goes for the jump tracking table, too. -/
def constructed {board : Board} (plan : Plan board) : Mission board where
  plan := plan
  state := .stopped
  navCmdLoaded := false
  doCmdLoaded := false
  doCmdAllDone := false
  navCmd := { zeroedCommand with index := indexNone }
  doCmd := { zeroedCommand with index := indexNone }
  prevNavCmdId := 0
  prevNavCmdIndex := indexNone
  prevNavCmdWpIndex := indexNone
  jumpTracking := List.replicate maxNumDoJumpCommands ⟨0, 0⟩
  calls := []
  visits := []

namespace Mission

variable {board : Board}

def call (mission : Mission board) (callback : Callback) : Mission board :=
  { mission with calls := mission.calls ++ [callback] }

/-- The mission after a search that counts the jumps it takes. -/
def track (mission : Mission board) (search : Search) : Mission board :=
  { mission with jumpTracking := search.table, visits := mission.visits ++ search.visits }

def resetTracking (mission : Mission board) : Mission board :=
  { mission with jumpTracking := initJumpTracking, visits := [] }

/-- `complete`. -/
def finish (mission : Mission board) : Mission board :=
  { mission with state := .complete }.call .complete

/-- A navigation command that was found becomes the current one and is started. -/
def startNav (mission : Mission board) (cmd : MissionCommand) : Mission board :=
  { mission with
    prevNavCmdId := mission.navCmd.id
    prevNavCmdIndex := mission.navCmd.index
    prevNavCmdWpIndex :=
      if cmd.content.noPosition then mission.prevNavCmdWpIndex else mission.navCmd.index
    navCmd := cmd
    navCmdLoaded := true }.call (.start cmd)

/-- The first do command that is found becomes the current one and is started. -/
def startDo (mission : Mission board) (cmd : MissionCommand) : Mission board :=
  if mission.doCmdLoaded then mission
  else { mission with doCmd := cmd, doCmdLoaded := true }.call (.start cmd)

/-- What the searches of a running mission do with a command. -/
def startCmd (mission : Mission board) (cmd : MissionCommand) : Mission board :=
  if isNavCmd cmd then mission.startNav cmd else mission.startDo cmd

/-- What the search of a mission that does not run does with a command. -/
def loadCmd (mission : Mission board) (cmd : MissionCommand) : Mission board :=
  if isNavCmd cmd then { mission with navCmd := cmd, navCmdLoaded := true }
  else if mission.doCmdLoaded then mission
  else { mission with doCmd := cmd, doCmdLoaded := true }

/-- A search that found no do command on its way leaves nothing for the do search. -/
def markAllDone (mission : Mission board) : Mission board :=
  if mission.doCmdLoaded then mission else { mission with doCmdAllDone := true }

/-- The current do command is given up. -/
def stopDo (mission : Mission board) : Mission board :=
  { mission with
    doCmd := { mission.doCmd with index := indexNone }
    doCmdLoaded := false
    doCmdAllDone := false }

/-- `stop`. -/
def stop (mission : Mission board) : Mission board := { mission with state := .stopped }

/-- `reset`. -/
def reset (mission : Mission board) : Mission board :=
  { mission with
    navCmdLoaded := false
    doCmdLoaded := false
    doCmdAllDone := false
    navCmd := { mission.navCmd with index := indexNone }
    doCmd := { mission.doCmd with index := indexNone }
    prevNavCmdIndex := indexNone
    prevNavCmdWpIndex := indexNone
    prevNavCmdId := 0 }.resetTracking

/-- `clear`: refused while the mission runs. -/
def clear (mission : Mission board) : Bool × Mission board :=
  if mission.state = .running then (false, mission)
  else
    (true, { mission with
      plan := { mission.plan with cmdTotal := 0, inside := Nat.zero_le _ }
      navCmd := { mission.navCmd with index := indexNone }
      doCmd := { mission.doCmd with index := indexNone }
      navCmdLoaded := false
      doCmdLoaded := false })

/-- `truncate`. -/
def truncate (mission : Mission board) (index : Nat) : Mission board :=
  if shorter : mission.plan.cmdTotal > index then
    { mission with plan := { mission.plan with
      cmdTotal := index
      inside := le_trans (le_of_lt shorter) mission.plan.inside } }
  else mission

/-- `check_eeprom_version`. -/
def checkEepromVersion (mission : Mission board) : Mission board :=
  if readBytes board mission.plan.storage 0 4 = eepromVersion then mission
  else if mission.clear.1 then
    { mission.clear.2 with plan := { mission.clear.2.plan with
      storage := writeBytes board mission.clear.2.plan.storage 0 eepromVersion } }
  else mission.clear.2

/-- `init`, with the bit of the parameter `_options` that asks for an empty mission. -/
def init (mission : Mission board) (clearMission : Bool) : Mission board :=
  if clearMission then (mission.checkEepromVersion).clear.2
  else mission.checkEepromVersion

/-- The loop of `advance_current_nav_cmd` behind the first do command. -/
def advanceLoop : (maxLoops cmdIndex : Nat) → (mission : Mission board) → Bool × Mission board
  | maxLoops, cmdIndex, mission =>
    let search := getNextCmd mission.plan cmdIndex true mission.jumpTracking
    match search.cmd with
    | none => (false, mission.track search)
    | some cmd =>
      if isNavCmd cmd then (true, (mission.track search).startNav cmd)
      else
        match maxLoops with
        | 0 => (false, mission.track search)
        | maxLoops + 1 => advanceLoop maxLoops (cmd.index + 1) (mission.track search)

/-- Where the search for the next navigation command begins. -/
def nextNavIndex (mission : Mission board) : Nat :=
  if mission.navCmd.index = indexNone then firstRealCommand else mission.navCmd.index + 1

/-- The search of `advance_current_nav_cmd`. No do command is loaded when it begins: the first
one is loaded and started, and from then on do commands use up `max_loops`. -/
def advanceSearch (mission : Mission board) (cmdIndex : Nat) : Bool × Mission board :=
  let search := getNextCmd mission.plan cmdIndex true mission.jumpTracking
  match search.cmd with
  | none => (false, mission.track search)
  | some cmd =>
    if isNavCmd cmd then (true, (mission.track search).startNav cmd)
    else advanceLoop 255 (cmd.index + 1) ((mission.track search).startDo cmd)

/-- `advance_current_nav_cmd`. -/
def advanceCurrentNavCmd (mission : Mission board) : Bool × Mission board :=
  if mission.state ≠ .running then (false, mission)
  else if mission.navCmdLoaded then (false, mission)
  else
    let (found, after) := advanceSearch mission.stopDo mission.nextNavIndex
    if found then (true, after.markAllDone) else (false, after)

/-- `start`. -/
def start (mission : Mission board) : Mission board :=
  let (advanced, after) := advanceCurrentNavCmd { mission with state := .running }.reset
  if advanced then after else after.finish

/-- `resume` starts the navigation command that is loaded again. -/
def restartNav (mission : Mission board) : Mission board :=
  if mission.navCmdLoaded then mission.call (.start mission.navCmd) else mission

/-- `resume` starts the do command that is loaded again. -/
def restartDo (mission : Mission board) : Mission board :=
  if mission.doCmdLoaded ∧ mission.doCmd.index ≠ indexNone then mission.call (.start mission.doCmd)
  else mission

/-- The end of `resume`: the navigation command is read again, and what is loaded is started
again. -/
def restart (mission : Mission board) : Mission board :=
  match readCmdFromStorage mission.plan mission.navCmd.index mission.navCmd with
  | none => mission.start
  | some cmd => { mission with navCmd := cmd }.restartNav.restartDo

/-- `resume`. -/
def resume (mission : Mission board) : Mission board :=
  match mission.state with
  | .complete => mission.start
  | .stopped =>
    if mission.navCmd.index = indexNone then { mission with state := .running }.start
    else { mission with state := .running }.restart
  | .running => mission.restart

/-- Where the search for the next do command begins. -/
def nextDoIndex (mission : Mission board) : Nat :=
  if mission.doCmd.index = indexNone then firstRealCommand else mission.doCmd.index + 1

/-- `advance_current_do_cmd`. -/
def advanceCurrentDoCmd (mission : Mission board) : Mission board :=
  if mission.state ≠ .running ∨ mission.doCmdAllDone then mission
  else
    if mission.nextDoIndex ≥ mission.plan.cmdTotal then { mission with doCmdAllDone := true }
    else
      let (found, table) := getNextDoCmd mission.plan mission.nextDoIndex mission.jumpTracking
      match found with
      | some cmd =>
        { mission with jumpTracking := table, doCmd := cmd, doCmdLoaded := true }.call (.start cmd)
      | none => { mission with jumpTracking := table, doCmdAllDone := true }

/-- The part of `update` that runs the navigation command, with the answer that the verify
function gives. It returns whether the mission goes on. -/
def updateNav (mission : Mission board) (navComplete : Bool) : Bool × Mission board :=
  if ¬ mission.navCmdLoaded ∨ mission.navCmd.index = indexNone then
    mission.advanceCurrentNavCmd
  else if navComplete then
    { mission.call (.verify mission.navCmd) with navCmdLoaded := false }.advanceCurrentNavCmd
  else (true, mission.call (.verify mission.navCmd))

/-- The part of `update` that runs the do command. -/
def updateDo (mission : Mission board) (doComplete : Bool) : Mission board :=
  if ¬ mission.doCmdLoaded then mission.advanceCurrentDoCmd
  else if doComplete then
    { mission.call (.verify mission.doCmd) with doCmdLoaded := false }
  else mission.call (.verify mission.doCmd)

/-- `update`, with the answers of the verify function. -/
def update (mission : Mission board) (navComplete doComplete : Bool) : Mission board :=
  if mission.state ≠ .running ∨ mission.plan.cmdTotal = 0 then mission
  else
    let (advanced, after) := mission.updateNav navComplete
    if advanced then after.updateDo doComplete else after.finish

/-- `add_cmd`, with the command's index after it. -/
def addCmd (mission : Mission board) (cmd : MissionCommand) :
    Bool × MissionCommand × Mission board :=
  if room : mission.plan.cmdTotal < numCommandsMax board then
    (true, { cmd with index := mission.plan.cmdTotal }, { mission with plan := {
      storage := (writeCmdToStorage mission.plan mission.plan.cmdTotal cmd).2.storage
      cmdTotal := mission.plan.cmdTotal + 1
      inside := room } })
  else (false, cmd, mission)

/-- `replace_cmd`. -/
def replaceCmd (mission : Mission board) (index : Nat) (cmd : MissionCommand) :
    Bool × Mission board :=
  if index ≥ mission.plan.cmdTotal then (false, mission)
  else
    ((writeCmdToStorage mission.plan index cmd).1,
      { mission with plan := (writeCmdToStorage mission.plan index cmd).2 })

/-- The loops of `set_current_cmd`, which differ in what they do with a command: whether a
navigation command was found, and nothing as long as the loop has not come back. -/
def searchLoop (load : Mission board → MissionCommand → Mission board) :
    (fuel index : Nat) → (mission : Mission board) → Option Bool × Mission board
  | 0, _, mission => (none, mission)
  | fuel + 1, index, mission =>
    let search := getNextCmd mission.plan index true mission.jumpTracking
    match search.cmd with
    | none => (some false, mission.track search)
    | some cmd =>
      if isNavCmd cmd then (some true, load (mission.track search) cmd)
      else searchLoop load fuel (cmd.index + 1) (load (mission.track search) cmd)

/-- The beginning of `set_current_cmd`: what is current is given up, and a mission that starts
again forgets its history. -/
def prepare (mission : Mission board) (index : Nat) : Mission board :=
  let mission := { mission.stopDo with navCmdLoaded := false }
  if index = 0 ∨ mission.state = .complete then
    { mission with
      prevNavCmdId := 0
      prevNavCmdIndex := indexNone
      prevNavCmdWpIndex := indexNone }.resetTracking
  else mission

/-- `set_current_cmd`. -/
def setCurrentCmd (fuel : Nat) (mission : Mission board) (index : Nat) :
    Option (Bool × Mission board) :=
  if index ≥ mission.plan.cmdTotal ∨ mission.plan.cmdTotal = 1 then some (false, mission)
  else
    let start := if index = 0 then 1 else index
    let mission := mission.prepare index
    if mission.state ≠ .running then
      match searchLoop loadCmd fuel start mission with
      | (none, _) => none
      | (some true, after) => some (true, { after.markAllDone with state := .stopped })
      | (some false, after) =>
        some (false, { after with navCmd := { after.navCmd with index := indexNone } })
    else
      match searchLoop startCmd fuel start mission with
      | (none, _) => none
      | (some true, after) => some (true, after.markAllDone)
      | (some false, after) => some (true, after.finish)

/-- `get_next_nav_cmd`. -/
def getNextNavCmd (mission : Mission board) (startIndex : Nat) :
    Option MissionCommand × Mission board :=
  ((nextNavCmd mission.plan startIndex mission.jumpTracking).1,
    { mission with
      jumpTracking := (nextNavCmd mission.plan startIndex mission.jumpTracking).2 })

/-- `starts_with_takeoff_cmd`, with the parameter `_restart`. -/
def startsWithTakeoffCmd (mission : Mission board) (restarts : Bool) : Bool × Mission board :=
  let cmdIndex := if restarts then indexNone else mission.navCmd.index
  let cmdIndex := if cmdIndex = indexNone then firstRealCommand else cmdIndex
  let (found, after) := mission.getNextNavCmd cmdIndex
  match found with
  | none => (false, after)
  | some cmd => (cmd.id == navTakeoff, after)

/-- `get_next_ground_course_cd`. -/
def getNextGroundCourseCd (mission : Mission board) (defaultAngle : Int) : Int × Mission board :=
  let (found, after) := mission.getNextNavCmd ((mission.navCmd.index + 1) % 2 ^ 16)
  match found with
  | none => (defaultAngle, after)
  | some cmd =>
    if cmd.id = navGuidedEnable ∨ cmd.id = navDelay then (defaultAngle, after)
    else if cmd.id = navSetYawSpeed then (board.yawAngleCd mission.navCmd.content, after)
    else (board.bearingCd mission.navCmd.content cmd.content, after)

end Mission

/-! ### Calls -/

/-- The calls that the vehicle and the ground station make. The answers of the verify function
come with the update, and the parameters with the calls that read them. -/
inductive Call
  | init (clearMission : Bool)
  | start
  | stop
  | resume
  | reset
  | clear
  | truncate (index : Nat)
  | update (navComplete doComplete : Bool)
  | addCmd (cmd : MissionCommand)
  | replaceCmd (index : Nat) (cmd : MissionCommand)
  | setCurrentCmd (index : Nat)
  | getNextNavCmd (index : Nat)
  | startsWithTakeoffCmd (restarts : Bool)
  | getNextGroundCourseCd (defaultAngle : Int)
  deriving DecidableEq

/-- The mission after a call, if the call comes back. -/
def perform {board : Board} (fuel : Nat) (mission : Mission board) : Call → Option (Mission board)
  | .init clearMission => some (mission.init clearMission)
  | .start => some mission.start
  | .stop => some mission.stop
  | .resume => some mission.resume
  | .reset => some mission.reset
  | .clear => some mission.clear.2
  | .truncate index => some (mission.truncate index)
  | .update navComplete doComplete => some (mission.update navComplete doComplete)
  | .addCmd cmd => some (mission.addCmd cmd).2.2
  | .replaceCmd index cmd => some (mission.replaceCmd index cmd).2
  | .setCurrentCmd index => (mission.setCurrentCmd fuel index).map Prod.snd
  | .getNextNavCmd index => some (mission.getNextNavCmd index).2
  | .startsWithTakeoffCmd restarts => some (mission.startsWithTakeoffCmd restarts).2
  | .getNextGroundCourseCd defaultAngle => some (mission.getNextGroundCourseCd defaultAngle).2

end Urus.ApMission
