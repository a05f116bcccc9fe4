/-
This file models the transfer of logs to a ground station over MAVLink. One set of
variables serves all channels: a station asks for the list of logs or for a part of one log,
and as long as that request is served all other requests are turned down. The entries of the
list and the pieces of a log go out when the link has space, at first from the request itself
and then from calls that every link makes again and again.
-/

import Mathlib.Tactic

namespace Urus.LogTransfer

/-! ### Messages -/

/-- `LOG_REQUEST_LIST`. -/
structure RequestList where
  start : UInt16
  stop : UInt16

/-- `LOG_REQUEST_DATA`. -/
structure RequestData where
  id : UInt16
  ofs : UInt32
  count : UInt32

/-- `LOG_DATA`, with the channel on which it is sent. -/
structure LogData where
  channel : Nat
  id : Nat
  ofs : Nat
  count : Nat
  data : List UInt8
  deriving DecidableEq, Repr

/-- `LOG_ENTRY`, with the channel on which it is sent. -/
structure LogEntry where
  channel : Nat
  id : Nat
  numLogs : Nat
  lastLogNum : Nat
  timeUtc : Nat
  size : Nat
  deriving DecidableEq, Repr

/-- What is sent to the stations. -/
inductive Sent
  | data (packet : LogData)
  | entry (packet : LogEntry)
  | text (channel : Nat) (text : String)
  deriving DecidableEq, Repr

/-! ### The state -/

/-- What the transfer asks of the storage of the logs. A read that fails gives nothing. -/
structure Backend where
  getNumLogs : UInt16
  getLogInfo : Nat → UInt32 × UInt32
  getLogBoundaries : Nat → Nat
  getLogData : Nat → Nat → Nat → Nat → Option (List UInt8)

/-- The variables of the transfer. No channel stands for `_log_sending_chan` below zero. -/
structure State where
  logListing : Bool
  logSending : Bool
  inLogDownload : Bool
  logSendingChan : Option Nat
  logNextListEntry : Nat
  logLastListEntry : Nat
  logNumLogs : Nat
  logNumData : Nat
  logDataOffset : Nat
  logDataSize : Nat
  logDataRemaining : Nat
  logDataPage : Nat
  deriving DecidableEq, Repr

/-- The state at boot. -/
def State.boot : State := ⟨false, false, false, none, 0, 0, 0, 0, 0, 0, 0, 0⟩

/-! ### The functions -/

/-- `should_handle_log_message`. -/
def shouldHandleLogMessage (writesEnabled vehicleIsArmed : Bool) : Bool :=
  if !writesEnabled then false
  else if vehicleIsArmed then false
  else true

/-- `handle_log_send_listing`. The link is ready when it has space for an entry and a heartbeat is
not due. -/
def handleLogSendListing (backend : Backend) (state : State) (channel : Nat) (ready : Bool) :
    State × List Sent :=
  if ¬ ready then (state, [])
  else
    let (size, timeUtc) :=
      if state.logNextListEntry = 0 then (0, 0) else backend.getLogInfo state.logNextListEntry
    let entry : LogEntry := ⟨channel, state.logNextListEntry, state.logNumLogs,
      state.logLastListEntry, timeUtc.toNat, size.toNat⟩
    if state.logNextListEntry = state.logLastListEntry then
      ({ state with logListing := false, logSendingChan := none }, [.entry entry])
    else
      ({ state with logNextListEntry := (state.logNextListEntry + 1) % 2 ^ 16 }, [.entry entry])

/-- `handle_log_send_data` with a link that is ready. -/
def handleLogSendData (backend : Backend) (state : State) (channel : Nat) : State × LogData :=
  let len := min state.logDataRemaining 90
  -- A read that fails is reported as the end of the log.
  let read := (backend.getLogData state.logNumData state.logDataPage state.logDataOffset len).getD []
  let ret := read.length
  let packet : LogData := ⟨channel, state.logNumData, state.logDataOffset, ret,
    read ++ List.replicate (90 - ret) 0⟩
  let remaining := state.logDataRemaining - len
  let state := { state with
    logDataOffset := (state.logDataOffset + len) % 2 ^ 32
    logDataRemaining := remaining }
  if ret < 90 ∨ remaining = 0 then
    ({ state with logSending := false, logSendingChan := none }, packet)
  else (state, packet)

/-- The loop of `handle_log_send`, with what each round finds of the link. -/
def sendLoop (backend : Backend) (channel : Nat) : State → List Bool → State × List Sent
  | state, [] => (state, [])
  | state, ready :: rest =>
    if state.logSending then
      if ready then
        let (state, packet) := handleLogSendData backend state channel
        let (state, sent) := sendLoop backend channel state rest
        (state, .data packet :: sent)
      else (state, [])
    else sendLoop backend channel state rest

/-- `handle_log_send`. -/
def handleLogSend (backend : Backend) (state : State) (channel : Nat) (listReady : Bool)
    (ready : List Bool) : State × List Sent :=
  if state.logSendingChan ≠ some channel then (state, [])
  else
    let (state, listed) :=
      if state.logListing then handleLogSendListing backend state channel listReady
      else (state, [])
    if ¬ state.logSending then (state, listed)
    else
      let (state, sent) := sendLoop backend channel state ready
      (state, listed ++ sent)

/-- `handle_log_request_list`. -/
def handleLogRequestList (backend : Backend) (state : State) (channel : Nat) (packet : RequestList)
    (listReady : Bool) : State × List Sent :=
  if state.logSendingChan.isSome then (state, [.text channel "Log download in progress"])
  else
    let numLogs := backend.getNumLogs.toNat
    let (next, last) :=
      if numLogs = 0 then (0, 0)
      else
        (if packet.start.toNat < 1 then 1 else packet.start.toNat,
          if packet.stop.toNat > numLogs then numLogs else packet.stop.toNat)
    let state := { state with
      logListing := true
      logSending := false
      logNumLogs := numLogs
      logNextListEntry := next
      logLastListEntry := last
      logSendingChan := some channel }
    handleLogSendListing backend state channel listReady

/-- The request names a log that there is. -/
def Backend.Valid (backend : Backend) (packet : RequestData) : Prop :=
  1 ≤ packet.id.toNat ∧ packet.id.toNat ≤ backend.getNumLogs.toNat

instance (backend : Backend) (packet : RequestData) : Decidable (backend.Valid packet) :=
  inferInstanceAs (Decidable (_ ∧ _))

/-- The part of `handle_log_request_data` that sets the limits of the transfer and starts it. -/
def startSending (state : State) (channel : Nat) (packet : RequestData) : State :=
  let offset := packet.ofs.toNat
  let remaining := if offset ≥ state.logDataSize then 0 else state.logDataSize - offset
  { state with
    logDataOffset := offset
    logDataRemaining := if remaining > packet.count.toNat then packet.count.toNat else remaining
    logSending := true
    logSendingChan := some channel }

/-- `handle_log_request_data`. -/
def handleLogRequestData (backend : Backend) (state : State) (channel : Nat) (packet : RequestData)
    (ready : List Bool) : State × List Sent :=
  match state.logSendingChan with
  | some sending =>
    (state, if sending ≠ channel then [.text channel "Log download in progress"] else [])
  | none =>
    let state := { state with inLogDownload := true, logListing := false }
    if ¬ state.logSending ∨ state.logNumData ≠ packet.id.toNat then
      let state := { state with logSending := false }
      if ¬ backend.Valid packet then (state, [])
      else
        let state := { state with
          logNumData := packet.id.toNat
          logDataSize := (backend.getLogInfo packet.id.toNat).1.toNat
          logDataPage := backend.getLogBoundaries packet.id.toNat }
        handleLogSend backend (startSending state channel packet) channel false ready
    else handleLogSend backend (startSending state channel packet) channel false ready

/-- `handle_log_request_end`. -/
def handleLogRequestEnd (state : State) : State :=
  { state with
    inLogDownload := false
    logSending := false
    logSendingChan := none }

/-- The messages about logs. -/
inductive Message
  | requestList (packet : RequestList) (listReady : Bool)
  | requestData (packet : RequestData) (ready : List Bool)
  | erase
  | requestEnd

/-- `handle_log_message`. Erasing the logs does not touch the transfer. -/
def handleLogMessage (backend : Backend) (state : State) (writesEnabled vehicleIsArmed : Bool)
    (channel : Nat) (message : Message) : State × List Sent :=
  if ¬ shouldHandleLogMessage writesEnabled vehicleIsArmed then (state, [])
  else
    match message with
    | .requestList packet listReady => handleLogRequestList backend state channel packet listReady
    | .requestData packet ready => handleLogRequestData backend state channel packet ready
    | .erase => (state, [])
    | .requestEnd => (handleLogRequestEnd state, [])

/-- What the transfer reacts to: a message on a channel, or the regular call of a link. Both come
with what the link is ready for. -/
inductive Event
  | message (writesEnabled vehicleIsArmed : Bool) (channel : Nat) (message : Message)
  | send (channel : Nat) (listReady : Bool) (ready : List Bool)

/-- One event. -/
def State.step (backend : Backend) (state : State) : Event → State × List Sent
  | .message writesEnabled vehicleIsArmed channel message =>
    handleLogMessage backend state writesEnabled vehicleIsArmed channel message
  | .send channel listReady ready => handleLogSend backend state channel listReady ready

end Urus.LogTransfer
