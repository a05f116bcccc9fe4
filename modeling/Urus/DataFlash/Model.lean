/-
This file is about the log that is sent to a client over MAVLink. What is written is collected in
blocks. A block that is full is numbered and waits to be sent, and when it was sent it waits for the
client's acknowledgement, after which its memory is used for another block. The client may also ask
for a block again.

The blocks are the elements of an array, and they are linked: the free blocks are a stack, and the
pending, sent and retried blocks are queues. A pointer to a block is its index.
-/

import Urus.Lib.Bytes
import Urus.Lib.Chain
import Urus.Lib.Trace

namespace Urus.DataFlashMavlink

/-! ### Blocks -/

/-- `MAVLINK_MSG_REMOTE_LOG_DATA_BLOCK_FIELD_DATA_LEN`. -/
def fieldDataLen : Nat := 200

/-- `MAV_REMOTE_LOG_DATA_BLOCK_STOP`. -/
def blockStop : UInt32 := 2147483645

/-- `MAV_REMOTE_LOG_DATA_BLOCK_START`. -/
def blockStart : UInt32 := 2147483646

/-- `dm_block`. -/
structure DmBlock where
  seqno : UInt32
  buf : Image
  lastSent : UInt32
  next : Option Nat

/-- `dm_block_queue`. -/
structure DmBlockQueue where
  sentCount : UInt32
  oldest : Option Nat
  youngest : Option Nat

/-- The queues `_blocks_pending`, `_blocks_sent` and `_blocks_retry`. -/
inductive QueueName
  | pending
  | sent
  | retry
  deriving DecidableEq

/-- `REMOTE_LOG_DATA_BLOCK`, with the channel that it is sent on. -/
structure RemoteLogDataBlock where
  chan : UInt8
  targetSystem : UInt8
  targetComponent : UInt8
  seqno : UInt32
  data : List UInt8
  deriving DecidableEq

/-- The part of `DataFlash_MAVLink` that keeps the blocks. The messages that were sent are kept as
well. -/
structure State where
  blocks : Nat → DmBlock
  blocksFree : Option Nat
  queues : QueueName → DmBlockQueue
  currentBlock : Option Nat
  latestBlockLen : UInt16
  blockcountFree : UInt8
  blockcount : UInt8
  nextSeqNum : UInt32
  initialised : Bool
  loggingStarted : Bool
  sendingToClient : Bool
  chan : UInt8
  targetSystemId : UInt8
  targetComponentId : UInt8
  lastResponseTime : UInt32
  lastSendTime : UInt32
  dropped : UInt32
  internalErrors : UInt8
  resends : UInt32
  uart : List RemoteLogDataBlock

/-- The pointers that link the blocks. -/
def State.next (state : State) (block : Nat) : Option Nat := (state.blocks block).next

/-- `block->next = next`. -/
def State.setNext (state : State) (block : Nat) (next : Option Nat) : State :=
  { state with blocks := Function.update state.blocks block { state.blocks block with next := next } }

def State.setQueue (state : State) (name : QueueName) (queue : DmBlockQueue) : State :=
  { state with queues := Function.update state.queues name queue }

/-- `internal_error`. -/
def State.internalError (state : State) : State :=
  { state with internalErrors := state.internalErrors + 1 }

/-- `remaining_space_in_current_block`. The difference is cut to a byte. -/
def State.remainingSpaceInCurrentBlock (state : State) : UInt8 :=
  (UInt16.ofNat fieldDataLen - state.latestBlockLen).toUInt8

/-- `bufferspace_available`. -/
def State.bufferspaceAvailable (state : State) : UInt32 :=
  state.blockcountFree.toUInt32 * 200 + state.remainingSpaceInCurrentBlock.toUInt32

/-! ### Queues -/

/-- `enqueue_block`. -/
def State.enqueueBlock (state : State) (name : QueueName) (block : Nat) : State :=
  let queue := state.queues name
  match queue.youngest with
  | some youngest =>
    (state.setNext youngest (some block)).setQueue name { queue with youngest := some block }
  | none => state.setQueue name { queue with oldest := some block, youngest := some block }

/-- The part of `dequeue_seqno` that takes a block out of its queue, which is behind another block or
is the oldest one. -/
def State.unlink (state : State) (name : QueueName) (prev : Option Nat) (block : Nat) : State :=
  let queue := state.queues name
  let unlinked := match prev with
    | none =>
      if queue.youngest = queue.oldest then
        state.setQueue name { queue with oldest := none, youngest := none }
      else state.setQueue name { queue with oldest := state.next block }
    | some prev =>
      let shortened := if queue.youngest = some block then { queue with youngest := some prev }
        else queue
      (state.setQueue name shortened).setNext prev (state.next block)
  unlinked.setNext block none

/-- `dequeue_seqno`, with the block if it was found. There is no result when the walk along the
queue takes more steps than there are blocks. -/
def State.dequeueSeqno (state : State) (name : QueueName) (seqno : UInt32) :
    Option (Option Nat × State) :=
  let wanted := fun block => decide ((state.blocks block).seqno = seqno)
  match search state.next wanted state.blockcount.toNat none (state.queues name).oldest with
  | none => none
  | some none => some (none, state)
  | some (some (prev, block)) => some (some block, state.unlink name prev block)

/-- `free_seqno_from_queue`. -/
def State.freeSeqnoFromQueue (state : State) (seqno : UInt32) (name : QueueName) :
    Option (Bool × State) := do
  let (found, state) ← state.dequeueSeqno name seqno
  match found with
  | none => some (false, state)
  | some block =>
    let linked := state.setNext block state.blocksFree
    some (true, { linked with
      blocksFree := some block
      blockcountFree := state.blockcountFree + 1 })

/-- `next_block`. -/
def State.nextBlock (state : State) : Option Nat × State :=
  match state.blocksFree with
  | none => (none, state)
  | some block =>
    let taken : DmBlock :=
      { state.blocks block with seqno := state.nextSeqNum, lastSent := 0, next := none }
    (some block, { state with
      blocks := Function.update state.blocks block taken
      blocksFree := state.next block
      blockcountFree := state.blockcountFree - 1
      nextSeqNum := state.nextSeqNum + 1
      latestBlockLen := 0 })

/-- One block is put on the free stack by `free_all_blocks`. -/
def State.addFree (state : State) (block : Nat) : State :=
  { state with
    blocks := Function.update state.blocks block
      { state.blocks block with next := state.blocksFree, seqno := 9876543 }
    blocksFree := some block }

/-- `free_all_blocks`. -/
def State.freeAllBlocks (state : State) : State :=
  let emptied : State := { state with
    blocksFree := none
    currentBlock := none
    queues := fun _ => ⟨0, none, none⟩ }
  { (List.range state.blockcount.toNat).foldl State.addFree emptied with
    blockcountFree := state.blockcount
    latestBlockLen := 0 }

/-! ### Writing -/

/-- Without a current block the loop of `_WritePrioritisedBlock` takes the next one. -/
def State.ready (state : State) : State :=
  if state.currentBlock = none then { state.nextBlock.2 with currentBlock := state.nextBlock.1 }
  else state

/-- Bytes are copied into the current block. -/
def State.copy (state : State) (block : Nat) (data : List UInt8) : State :=
  let written : DmBlock := { state.blocks block with
    buf := (state.blocks block).buf.put state.latestBlockLen.toNat data }
  { state with
    blocks := Function.update state.blocks block written
    latestBlockLen := state.latestBlockLen + UInt16.ofNat data.length }

/-- The block is full, and marked to be sent. -/
def State.fill (state : State) (block : Nat) : State :=
  let enqueued := state.enqueueBlock .pending block
  { enqueued.nextBlock.2 with currentBlock := enqueued.nextBlock.1 }

/-- The loop of `_WritePrioritisedBlock` over the bytes that are not copied yet. It goes round so
many times at most. -/
def State.writeLoop : Nat → State → List UInt8 → Option (Bool × State)
  | _, state, [] => some (true, state)
  | 0, _, _ :: _ => none
  | rounds + 1, state, byte :: rest =>
    let buffer := byte :: rest
    match state.ready.currentBlock with
    | none => some (false, state.ready.internalError)
    | some block =>
      let toCopy := min buffer.length state.ready.remainingSpaceInCurrentBlock.toNat
      let copied := state.ready.copy block (buffer.take toCopy)
      if copied.latestBlockLen.toNat = fieldDataLen then
        writeLoop rounds (copied.fill block) (buffer.drop toCopy)
      else writeLoop rounds copied (buffer.drop toCopy)

/-- `_WritePrioritisedBlock`: whether the semaphore was taken, whether the startup messages let the
write pass, and whether they are finished. -/
def State.writePrioritisedBlock (state : State) (taken checked finished : Bool)
    (buffer : List UInt8) : Option (Bool × State) :=
  if !taken then some (false, { state with dropped := state.dropped + 1 })
  else if !checked then some (false, state)
  else if state.bufferspaceAvailable.toNat < buffer.length then
    some (false, if finished then { state with dropped := state.dropped + 1 } else state)
  else state.writeLoop buffer.length buffer

/-! ### Sending -/

/-- What happens at the attempts to send: there is no room, or the message is sent, at two readings
of the clock. -/
abbrev Attempts := List (Option (UInt32 × UInt32))

/-- `send_log_block`, with the attempts that are left. -/
def State.sendLogBlock (state : State) (block : Nat) (attempts : Attempts) :
    Bool × State × Attempts :=
  if !state.initialised then (false, state, attempts)
  else
    match attempts with
    | some (lastSent, lastSendTime) :: rest =>
      (true, { state with
        blocks := Function.update state.blocks block
          { state.blocks block with lastSent := lastSent }
        lastSendTime := lastSendTime
        uart := state.uart ++ [⟨state.chan, state.targetSystemId, state.targetComponentId,
          (state.blocks block).seqno, (state.blocks block).buf.slice 0 fieldDataLen⟩] }, rest)
    | none :: rest => (false, state, rest)
    | [] => (false, state, [])

/-- `_max_blocks_per_send_blocks`. -/
def maxBlocksPerSendBlocks : Nat := 8

/-- The loop of `send_log_blocks_from_queue`, which may still send so many blocks. -/
def State.sendLoop (name : QueueName) :
    Nat → State → Attempts → Option (Bool × State × Attempts)
  | sends, state, attempts =>
    match (state.queues name).oldest, sends with
    | none, _ => some (true, state, attempts)
    | some _, 0 => some (false, state, attempts)
    | some oldest, sends + 1 =>
      let (sent, state, attempts) := state.sendLogBlock oldest attempts
      if !sent then some (false, state, attempts)
      else do
        let queue := state.queues name
        let counted := state.setQueue name { queue with sentCount := queue.sentCount + 1 }
        let (found, state) ← counted.dequeueSeqno name (counted.blocks oldest).seqno
        match found with
        | some block => sendLoop name sends (state.enqueueBlock .sent block) attempts
        | none => sendLoop name sends state.internalError attempts

/-- `send_log_blocks_from_queue`. The count of the blocks is compared before it is increased. -/
def State.sendLogBlocksFromQueue (state : State) (name : QueueName) (attempts : Attempts) :
    Option (Bool × State × Attempts) :=
  State.sendLoop name (maxBlocksPerSendBlocks + 1) state attempts

/-- `push_log_blocks`. The startup messages that are written first are writes of their own. -/
def State.pushLogBlocks (state : State) (taken : Bool) (attempts : Attempts) : Option State :=
  if !state.initialised || !state.loggingStarted || !state.sendingToClient then some state
  else if !taken then some state
  else do
    let (retried, state, attempts) ← state.sendLogBlocksFromQueue .retry attempts
    if !retried then some state
    else
      let (_, state, _) ← state.sendLogBlocksFromQueue .pending attempts
      some state

/-- The walk along the sent blocks. A block is sent again when it was sent last before `oldest`, and
the walk ends when there is no room. -/
def State.resendWalk (oldest : UInt32) :
    Nat → Option Nat → State → Attempts → Option (Bool × State × Attempts)
  | _, none, state, attempts => some (true, state, attempts)
  | 0, some _, _, _ => none
  | steps + 1, some block, state, attempts =>
    if (state.blocks block).lastSent < oldest then
      let (sent, state, attempts) := state.sendLogBlock block attempts
      if !sent then some (false, state, attempts)
      else
        let counted : State := { state with resends := state.resends + 1 }
        resendWalk oldest steps (counted.next block) counted attempts
    else resendWalk oldest steps (state.next block) state attempts

/-- The rounds of `do_resends`, with whether the semaphore is taken in each of them. -/
def State.resendRounds (oldest : UInt32) : Nat → List Bool → State → Attempts → Option State
  | rounds + 1, true :: taken, state, attempts => do
    let (done, state, attempts) ←
      state.resendWalk oldest state.blockcount.toNat (state.queues .sent).oldest attempts
    if !done then some state else resendRounds oldest rounds taken state attempts
  | _, _, state, _ => some state

/-- `do_resends`. -/
def State.doResends (state : State) (now : UInt32) (taken : List Bool) (attempts : Attempts) :
    Option State :=
  if !state.initialised || !state.loggingStarted || !state.sendingToClient then some state
  else
    let countToSend := if state.blockcount < 5 then state.blockcount else 5
    state.resendRounds (now - 100) countToSend.toNat taken attempts

/-! ### The client -/

/-- `stats_init`, as far as the counters of errors go. -/
def State.statsInit (state : State) : State :=
  { state with dropped := 0, internalErrors := 0, resends := 0 }

/-- `stop_logging`. -/
def State.stopLogging (state : State) (now : UInt32) : State :=
  if state.sendingToClient then { state with sendingToClient := false, lastResponseTime := now }
  else state

/-- Where a message came from. -/
structure Sender where
  chan : UInt8
  sysid : UInt8
  compid : UInt8

/-- A client begins a log: the part of `handle_ack` for `MAV_REMOTE_LOG_DATA_BLOCK_START`. -/
def State.startLogging (state : State) (sender : Sender) (now : UInt32) : State :=
  { state.freeAllBlocks.statsInit with
    sendingToClient := true
    targetSystemId := sender.sysid
    targetComponentId := sender.compid
    chan := sender.chan
    nextSeqNum := 0
    lastResponseTime := now }

/-- `handle_ack`. -/
def State.handleAck (state : State) (sender : Sender) (seqno now : UInt32) : Option State :=
  if !state.initialised then some state
  else if seqno = blockStop then some (state.stopLogging now)
  else if seqno = blockStart then
    some (if !state.sendingToClient then state.startLogging sender now else state)
  else do
    let (sent, state) ← state.freeSeqnoFromQueue seqno .sent
    if sent then some { state with lastResponseTime := now }
    else
      let (retried, state) ← state.freeSeqnoFromQueue seqno .retry
      if retried then some { state with lastResponseTime := now } else some state

/-- `handle_retry`. -/
def State.handleRetry (state : State) (seqno now : UInt32) : Option State :=
  if !state.initialised || !state.sendingToClient then some state
  else do
    let (found, state) ← state.dequeueSeqno .sent seqno
    match found with
    | none => some state
    | some victim =>
      some ({ state with lastResponseTime := now }.enqueueBlock .retry victim)

/-- `remote_log_block_status_msg`. -/
def State.remoteLogBlockStatusMsg (state : State) (taken : Bool) (sender : Sender) (status : UInt8)
    (seqno now : UInt32) : Option State :=
  if !taken then some state
  else if status = 0 then state.handleRetry seqno now
  else state.handleAck sender seqno now

/-- `periodic_1Hz`, as far as the timeout of the client goes. -/
def State.periodic1Hz (state : State) : State :=
  if state.sendingToClient ∧ state.lastResponseTime + 10000 < state.lastSendTime then
    { state with sendingToClient := false }
  else state

/-- `stats_collect`, as far as the check of the free blocks goes. -/
def State.statsCollect (state : State) (taken : Bool) : Option State :=
  if !state.initialised || !state.loggingStarted then some state
  else if !taken then some state
  else do
    let free ← countNodes state.next state.blockcount.toNat state.blocksFree
    some (if UInt8.ofNat free ≠ state.blockcountFree then state.internalError else state)

/-! ### Steps -/

/-- What can happen. -/
inductive Event
  | write (taken checked finished : Bool) (buffer : List UInt8)
  | push (taken : Bool) (attempts : Attempts)
  | resend (now : UInt32) (taken : List Bool) (attempts : Attempts)
  | status (taken : Bool) (sender : Sender) (status : UInt8) (seqno now : UInt32)
  | stop (now : UInt32)
  | timeout
  | collect (taken : Bool)

/-- One event. There is no next state when a loop would not end. -/
def State.step (state : State) : Event → Option State
  | .write taken checked finished buffer =>
    (state.writePrioritisedBlock taken checked finished buffer).map (·.2)
  | .push taken attempts => state.pushLogBlocks taken attempts
  | .resend now taken attempts => state.doResends now taken attempts
  | .status taken sender status seqno now =>
    state.remoteLogBlockStatusMsg taken sender status seqno now
  | .stop now => some (state.stopLogging now)
  | .timeout => some state.periodic1Hz
  | .collect taken => state.statsCollect taken

/-- A block is only written when `WritesOK`, which is when there is a client, and so never when the
initialisation has failed. When nothing was written to the log yet, a write has no more bytes than the
blocks have altogether: no message of the log has more than 255 bytes, and there are at least eight
blocks. -/
def Called (state : State) : Event → Prop
  | .write _ _ _ buffer => state.initialised = true ∧
      (state.currentBlock = none → state.latestBlockLen = 0 →
        buffer.length ≤ fieldDataLen * state.blockcount.toNat)
  | _ => True

/-- The constructor. The memory of an object is cleared before. -/
def constructed : State where
  blocks := fun _ => ⟨0, fun _ => 0, 0, none⟩
  blocksFree := none
  queues := fun _ => ⟨0, none, none⟩
  currentBlock := none
  latestBlockLen := 0
  blockcountFree := 0
  blockcount := 32
  nextSeqNum := 0
  initialised := false
  loggingStarted := false
  sendingToClient := false
  chan := 0
  targetSystemId := 0
  targetComponentId := 0
  lastResponseTime := 0
  lastSendTime := 0
  dropped := 0
  internalErrors := 0
  resends := 0
  uart := []

/-- The loop of `Init`: the count is halved until there is memory for so many blocks. -/
def allocate (calloc : Nat → Bool) (blockcount : Nat) : Bool × Nat :=
  if blockcount < 8 then (false, blockcount)
  else if calloc blockcount then (true, blockcount)
  else allocate calloc (blockcount / 2)

/-- `Init`. -/
def init (calloc : Nat → Bool) : State :=
  let (allocated, blockcount) := allocate calloc constructed.blockcount.toNat
  let state : State := { constructed with blockcount := UInt8.ofNat blockcount }
  if !allocated then state
  else { state.freeAllBlocks.statsInit with initialised := true, loggingStarted := true }

end Urus.DataFlashMavlink
