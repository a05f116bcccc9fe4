/-
This file is about the frames of the Swift binary protocol, and about what the driver copies out of
their messages.

The bytes of a part are counted, and the part is over when the count has reached its size. For a
payload this is looked at after a byte, so a frame without a payload loses a byte of its checksum.
A message is copied with the size of the structure it is copied to, whatever its length is: the
bytes behind a short one are those of older messages. All other frames are received right.

The checksum is a parameter.
-/

import Urus.Lib.Bytes
import Urus.Lib.Framing

namespace Urus.Gps.Sbp

open Image Framing

/-! ### The receiver -/

/-- `sbp_parser_state_t::state`. -/
inductive Phase
  | waiting
  | getType
  | getSender
  | getLen
  | getMsg
  | getCrc
  deriving DecidableEq

/-- The variables that a message is copied to. -/
inductive Target
  | gpsTime
  | velNed
  | posLlhSpp
  | posLlhRtk
  | dops
  | iarNumHypotheses
  deriving DecidableEq

/-- The size of a variable. -/
def Target.size : Target → ℕ
  | gpsTime => 2 + 4 + 4 + 1
  | velNed => 4 + 4 + 4 + 4 + 2 + 2 + 1 + 1
  | posLlhSpp => 4 + 8 + 8 + 8 + 2 + 2 + 1 + 1
  | posLlhRtk => 4 + 8 + 8 + 8 + 2 + 2 + 1 + 1
  | dops => 4 + 2 + 2 + 2 + 2 + 2
  | iarNumHypotheses => 4

/-- `parser_state`, with the last messages. The words are kept as their bytes. -/
structure State where
  phase : Phase
  msgType : Image
  senderId : Image
  crc : Image
  msgLen : UInt8
  nRead : UInt8
  msgBuff : Image
  last : Target → List UInt8
  crcErrorCounter : ℕ

/-- A byte is written to `msg_buff`, a message is processed, or bytes of it are copied. -/
inductive Event
  | write (index : ℕ)
  | message (msgType : ℕ) (payload : List UInt8)
  | copy (target : Target) (bytes : List UInt8)

/-- A word of two bytes. -/
def word (bytes : Image) : ℕ := (bytes 0).toNat + (bytes 1).toNat * 2 ^ 8

/-- The variable that a message is copied to. The flags of a position say which one it is. -/
def target (msgType : ℕ) (msgBuff : Image) : Option Target :=
  if msgType = 0x0100 then some .gpsTime
  else if msgType = 0x0205 then some .velNed
  else if msgType = 0x0201 then
    let flags := msgBuff 33
    if flags = 0 then some .posLlhSpp
    else if flags = 1 ∨ flags = 2 then some .posLlhRtk
    else none
  else if msgType = 0x0206 then some .dops
  else if msgType = 0x0019 then some .iarNumHypotheses
  else none

/-- `_sbp_process_message`. -/
def processMessage (state : State) : State × List Event :=
  let message := .message (word state.msgType) (state.msgBuff.slice 0 state.msgLen.toNat)
  match target (word state.msgType) state.msgBuff with
  | none => (state, [message])
  | some target =>
    let bytes := state.msgBuff.slice 0 target.size
    ({ state with last := Function.update state.last target bytes }, [message, .copy target bytes])

/-- `SBP_PREAMBLE`. -/
def preamble : UInt8 := 0x55

section Receive

variable (crc16Ccitt : List UInt8 → UInt16 → UInt16)

/-- The checksum of a message. -/
def checksum (msgType senderId : List UInt8) (msgLen : UInt8) (payload : List UInt8) :
    UInt16 :=
  crc16Ccitt payload (crc16Ccitt [msgLen] (crc16Ccitt senderId (crc16Ccitt msgType 0)))

/-- A byte in `_sbp_process`. -/
def receive (state : State) (temp : UInt8) : State × List Event :=
  match state.phase with
  | .waiting =>
    if temp = preamble then ({ state with nRead := 0, phase := .getType }, []) else (state, [])
  | .getType =>
    let state := { state with
      msgType := state.msgType.put state.nRead.toNat [temp], nRead := state.nRead + 1 }
    if 2 ≤ state.nRead then ({ state with nRead := 0, phase := .getSender }, []) else (state, [])
  | .getSender =>
    let state := { state with
      senderId := state.senderId.put state.nRead.toNat [temp], nRead := state.nRead + 1 }
    if 2 ≤ state.nRead then ({ state with nRead := 0, phase := .getLen }, []) else (state, [])
  | .getLen => ({ state with msgLen := temp, nRead := 0, phase := .getMsg }, [])
  | .getMsg =>
    let event := .write state.nRead.toNat
    let state := { state with
      msgBuff := state.msgBuff.put state.nRead.toNat [temp], nRead := state.nRead + 1 }
    if state.msgLen ≤ state.nRead then ({ state with nRead := 0, phase := .getCrc }, [event])
    else (state, [event])
  | .getCrc =>
    let state := { state with
      crc := state.crc.put state.nRead.toNat [temp], nRead := state.nRead + 1 }
    if 2 ≤ state.nRead then
      let crc := checksum crc16Ccitt (state.msgType.slice 0 2) (state.senderId.slice 0 2)
        state.msgLen (state.msgBuff.slice 0 state.msgLen.toNat)
      let state := { state with phase := .waiting }
      if word state.crc = crc.toNat then processMessage state
      else ({ state with crcErrorCounter := state.crcErrorCounter + 1 }, [])
    else (state, [])

end Receive

/-! ### What is promised -/

/-- A frame. -/
structure Frame where
  msgType : UInt8 × UInt8
  senderId : UInt8 × UInt8
  payload : List UInt8
  short : payload.length < 2 ^ 8

/-- The bytes of the payload and all before. -/
def Frame.front (frame : Frame) : List UInt8 :=
  [preamble, frame.msgType.1, frame.msgType.2, frame.senderId.1, frame.senderId.2,
    UInt8.ofNat frame.payload.length] ++ frame.payload

/-- The type of a frame as a number. -/
def Frame.typeNumber (frame : Frame) : ℕ :=
  frame.msgType.1.toNat + frame.msgType.2.toNat * 2 ^ 8

/-- The messages among the events. -/
def messages : List Event → List (ℕ × List UInt8) :=
  List.filterMap fun
    | .message msgType payload => some (msgType, payload)
    | _ => none

section Frames

variable (crc16Ccitt : List UInt8 → UInt16 → UInt16)

/-- The checksum of a frame. -/
def Frame.checksum (frame : Frame) : UInt16 :=
  Sbp.checksum crc16Ccitt [frame.msgType.1, frame.msgType.2] [frame.senderId.1, frame.senderId.2]
    (UInt8.ofNat frame.payload.length) frame.payload

/-- The bytes of a frame. -/
def Frame.bytes (frame : Frame) : List UInt8 :=
  frame.front ++ [UInt8.ofNat (frame.checksum crc16Ccitt).toNat,
    UInt8.ofNat ((frame.checksum crc16Ccitt).toNat / 2 ^ 8)]

/-- A frame is received right: behind it the receiver waits for the next one, its last byte has made
it process the message, no byte before has made it process any, and all that has been copied are
bytes of the payload. -/
def Received (state : State) (frame : Frame) : Prop :=
  (run (receive crc16Ccitt) state (frame.bytes crc16Ccitt)).1.phase = .waiting ∧
    messages (run (receive crc16Ccitt) state (frame.bytes crc16Ccitt)).2 =
      [(frame.typeNumber, frame.payload)] ∧
    messages (run (receive crc16Ccitt) state (frame.bytes crc16Ccitt).dropLast).2 = [] ∧
    ∀ target bytes, .copy target bytes ∈
      (run (receive crc16Ccitt) state (frame.bytes crc16Ccitt)).2 → bytes <+: frame.payload

end Frames

/-- A frame has a payload, and one that is as long as what is copied of it. -/
def Frame.Long (msgBuff : Image) (frame : Frame) : Prop :=
  frame.payload ≠ [] ∧
    ∀ copied ∈ target frame.typeNumber (msgBuff.put 0 frame.payload),
      copied.size ≤ frame.payload.length

/-! ### The phases of a frame -/

section Phases

variable (crc16Ccitt : List UInt8 → UInt16 → UInt16) {state : State}

theorem messages_append (first second : List Event) :
    messages (first ++ second) = messages first ++ messages second :=
  List.filterMap_append

/-- A stream of which nothing but writes comes. -/
def Quiet (events : List Event) : Prop := ∀ event ∈ events, ∃ index, event = .write index

theorem Quiet.messages {events : List Event} (quiet : Quiet events) : messages events = [] := by
  rw [Sbp.messages, List.filterMap_eq_nil_iff]
  intro event member
  obtain ⟨index, rfl⟩ := quiet event member
  rfl

/-- The receiver is about to read a payload. -/
structure State.Awaits (state : State) (frame : Frame) (msgBuff : Image) : Prop where
  phase : state.phase = .getMsg
  msgType : state.msgType.slice 0 2 = [frame.msgType.1, frame.msgType.2]
  senderId : state.senderId.slice 0 2 = [frame.senderId.1, frame.senderId.2]
  length : state.msgLen.toNat = frame.payload.length
  counter : state.nRead = 0
  msgBuff : state.msgBuff = msgBuff

/-- The bytes in front of the payload. -/
def Frame.header (frame : Frame) : List UInt8 :=
  [preamble, frame.msgType.1, frame.msgType.2, frame.senderId.1, frame.senderId.2,
    UInt8.ofNat frame.payload.length]

theorem slice_two_puts (image : Image) (first second : UInt8) :
    slice ((image.put 0 [first]).put 1 [second]) 0 2 = [first, second] := rfl

theorem run_header (waits : state.phase = .waiting) (frame : Frame) :
    (run (receive crc16Ccitt) state frame.header).1.Awaits frame state.msgBuff ∧
      (run (receive crc16Ccitt) state frame.header).2 = [] := by
  have one : ¬ (2 : UInt8) ≤ 0 + 1 := by decide
  have two : (2 : UInt8) ≤ 0 + 1 + 1 := by decide
  have length : (UInt8.ofNat frame.payload.length).toNat = frame.payload.length := by
    rw [UInt8.toNat_ofNat']
    exact Nat.mod_eq_of_lt frame.short
  simp only [Frame.header, run, receive, waits, if_true, one, two, if_false, List.append_nil,
    and_true]
  exact ⟨rfl, rfl, rfl, length, rfl, rfl⟩

/-- One byte of a payload. -/
theorem receive_payload (reads : state.phase = .getMsg) (temp : UInt8) :
    receive crc16Ccitt state temp =
      (if state.msgLen ≤ state.nRead + 1 then
          { state with
            msgBuff := state.msgBuff.put state.nRead.toNat [temp], nRead := 0, phase := .getCrc }
        else
          { state with
            msgBuff := state.msgBuff.put state.nRead.toNat [temp], nRead := state.nRead + 1 },
        [.write state.nRead.toNat]) := by
  rw [receive, reads]
  dsimp only
  split <;> rfl

/-- The receiver when some bytes of a payload have been read. -/
def State.reading (state : State) (seen : List UInt8) : State :=
  { state with nRead := UInt8.ofNat seen.length, msgBuff := state.msgBuff.put 0 seen }

theorem State.reading_nil (counter : state.nRead = 0) : state.reading [] = state := by
  rw [State.reading, put_nil, List.length_nil]
  exact congrArg (fun nRead => { state with nRead := nRead }) counter.symm

/-- One more byte of a payload. -/
theorem receive_reading (reads : state.phase = .getMsg) (seen : List UInt8)
    (left : seen.length + 1 ≤ state.msgLen.toNat) (temp : UInt8) :
    receive crc16Ccitt (state.reading seen) temp =
      (if seen.length + 1 = state.msgLen.toNat then
          { state.reading (seen ++ [temp]) with nRead := 0, phase := .getCrc }
        else state.reading (seen ++ [temp]),
      [.write seen.length]) := by
  have small := state.msgLen.toNat_lt
  have count : (UInt8.ofNat seen.length).toNat = seen.length := by
    rw [UInt8.toNat_ofNat']
    exact Nat.mod_eq_of_lt (by omega)
  have ends : state.msgLen ≤ UInt8.ofNat seen.length + 1 ↔ seen.length + 1 = state.msgLen.toNat := by
    rw [UInt8.le_iff_toNat_le, UInt8.toNat_add, count, UInt8.toNat_one]
    omega
  have phase : (state.reading seen).phase = .getMsg := reads
  rw [receive_payload crc16Ccitt phase, State.reading, State.reading, count, ← put_append,
    Nat.zero_add, List.length_append, List.length_singleton, UInt8.ofNat_add]
  simp only [ends]
  rfl

theorem run_payload (payload : List UInt8) (some_payload : payload ≠ [])
    (reads : state.phase = .getMsg) (counter : state.nRead = 0)
    (length : payload.length = state.msgLen.toNat) :
    (run (receive crc16Ccitt) state payload).1 =
        { state with
          phase := .getCrc, nRead := 0, msgBuff := state.msgBuff.put 0 payload } ∧
      Quiet (run (receive crc16Ccitt) state payload).2 := by
  have written : ∀ index, Quiet [Event.write index] :=
    fun index event member => ⟨index, List.mem_singleton.mp member⟩
  have read := run_part (receive crc16Ccitt) state.reading
    { state.reading payload with nRead := 0, phase := .getCrc }
    (fun seen temp (before : seen.length + 1 < payload.length) => by
      rw [receive_reading crc16Ccitt reads seen (by omega), if_neg (by omega)]
      exact ⟨rfl, written _⟩)
    (fun seen temp last => by
      have counted : seen.length + 1 = state.msgLen.toNat := by
        rw [← length, ← last, List.length_append, List.length_singleton]
      rw [receive_reading crc16Ccitt reads seen counted.le, if_pos counted, last]
      exact ⟨rfl, written _⟩)
    (List.nil_append payload) some_payload
  rw [state.reading_nil counter] at read
  exact read

/-- The receiver is about to read the checksum. -/
structure State.Ends (state : State) (frame : Frame) (msgBuff : Image) : Prop where
  phase : state.phase = .getCrc
  msgType : state.msgType.slice 0 2 = [frame.msgType.1, frame.msgType.2]
  senderId : state.senderId.slice 0 2 = [frame.senderId.1, frame.senderId.2]
  length : state.msgLen.toNat = frame.payload.length
  counter : state.nRead = 0
  msgBuff : state.msgBuff = msgBuff.put 0 frame.payload

theorem run_front (waits : state.phase = .waiting) (frame : Frame)
    (some_payload : frame.payload ≠ []) :
    (run (receive crc16Ccitt) state frame.front).1.Ends frame state.msgBuff ∧
      Quiet (run (receive crc16Ccitt) state frame.front).2 := by
  obtain ⟨awaits, silent⟩ := run_header crc16Ccitt waits frame
  have front : frame.front = frame.header ++ frame.payload := rfl
  rw [front, run_append, silent]
  generalize (run (receive crc16Ccitt) state frame.header).1 = reading at awaits
  obtain ⟨after, quiet⟩ := run_payload crc16Ccitt frame.payload some_payload awaits.phase
    awaits.counter awaits.length.symm
  rw [after]
  refine ⟨⟨rfl, awaits.msgType, awaits.senderId, awaits.length, rfl, ?_⟩, quiet⟩
  dsimp only
  rw [awaits.msgBuff]

theorem word_eq {image : Image} {low high : UInt8} (bytes : image.slice 0 2 = [low, high]) :
    word image = low.toNat + high.toNat * 2 ^ 8 := by
  have both : [image 0, image 1] = [low, high] := bytes
  rw [word, (List.cons.inj both).1, (List.cons.inj (List.cons.inj both).2).1]

theorem checksum_bytes (crc : UInt16) :
    (UInt8.ofNat crc.toNat).toNat + (UInt8.ofNat (crc.toNat / 2 ^ 8)).toNat * 2 ^ 8 = crc.toNat := by
  have small := crc.toNat_lt
  rw [UInt8.toNat_ofNat', UInt8.toNat_ofNat']
  omega

/-- The checksum makes the receiver process the message, and wait. -/
theorem run_checksum {frame : Frame} {msgBuff : Image} (ends : state.Ends frame msgBuff) :
    ∃ after : State, after.phase = .waiting ∧ word after.msgType = frame.typeNumber ∧
      after.msgLen.toNat = frame.payload.length ∧ after.msgBuff = msgBuff.put 0 frame.payload ∧
      run (receive crc16Ccitt) state [UInt8.ofNat (frame.checksum crc16Ccitt).toNat,
        UInt8.ofNat ((frame.checksum crc16Ccitt).toNat / 2 ^ 8)] = processMessage after ∧
      (run (receive crc16Ccitt) state [UInt8.ofNat (frame.checksum crc16Ccitt).toNat]).2 = [] := by
  have length : state.msgLen = UInt8.ofNat frame.payload.length := by
    rw [← ends.length, UInt8.ofNat_toNat]
  have payload : state.msgBuff.slice 0 frame.payload.length = frame.payload := by
    rw [ends.msgBuff]
    exact slice_put_self _ _ _
  have crc : checksum crc16Ccitt (state.msgType.slice 0 2) (state.senderId.slice 0 2) state.msgLen
      (state.msgBuff.slice 0 state.msgLen.toNat) = frame.checksum crc16Ccitt := by
    rw [ends.length, payload, ends.msgType, ends.senderId, length]
    rfl
  generalize frame.checksum crc16Ccitt = sum at crc
  have same : word ((state.crc.put 0 [UInt8.ofNat sum.toNat]).put 1
      [UInt8.ofNat (sum.toNat / 2 ^ 8)]) = sum.toNat :=
    (word_eq (slice_two_puts _ _ _)).trans (checksum_bytes sum)
  generalize UInt8.ofNat sum.toNat = low at same
  generalize UInt8.ofNat (sum.toNat / 2 ^ 8) = high at same
  refine ⟨{ state with crc := (state.crc.put 0 [low]).put 1 [high], nRead := 2, phase := .waiting },
    rfl, word_eq ends.msgType, ends.length, ends.msgBuff, ?_, ?_⟩
  · simp [run, receive, ends.phase, ends.counter, crc, same]
  · simp [run, receive, ends.phase, ends.counter]

/-- What is copied to a variable are bytes of the payload if it has as many. -/
theorem slice_put_prefix_iff (image : Image) (payload : List UInt8) (size : ℕ) :
    (image.put 0 payload).slice 0 size <+: payload ↔ size ≤ payload.length := by
  constructor
  · intro isPrefix
    have length := isPrefix.length_le
    rwa [slice_length] at length
  · intro enough
    have taken : (payload.take size).length = size := List.length_take_of_le enough
    have slice := slice_put_left image 0 (payload.take size) (payload.drop size)
    rw [List.take_append_drop, taken] at slice
    rw [slice]
    exact List.take_prefix _ _

theorem processMessage_phase (state : State) : (processMessage state).1.phase = state.phase := by
  rw [processMessage]
  split <;> rfl

theorem processMessage_msgBuff (state : State) :
    (processMessage state).1.msgBuff = state.msgBuff := by
  rw [processMessage]
  split <;> rfl

theorem processMessage_messages (state : State) :
    messages (processMessage state).2 =
      [(word state.msgType, state.msgBuff.slice 0 state.msgLen.toNat)] := by
  rw [processMessage]
  split <;> rfl

theorem mem_processMessage {copied : Target} {bytes : List UInt8} :
    .copy copied bytes ∈ (processMessage state).2 ↔
      copied ∈ target (word state.msgType) state.msgBuff ∧
        bytes = state.msgBuff.slice 0 copied.size := by
  rw [processMessage]
  split
  · rename_i none
    simp [none]
  · rename_i chosen
    simp only [chosen, List.mem_cons, List.not_mem_nil, or_false, Option.mem_some_iff,
      Event.copy.injEq, reduceCtorEq, false_or]
    constructor
    · rintro ⟨rfl, rfl⟩
      exact ⟨rfl, rfl⟩
    · rintro ⟨rfl, rfl⟩
      exact ⟨rfl, rfl⟩

end Phases

/-! ### The main result -/

section Result

variable (crc16Ccitt : List UInt8 → UInt16 → UInt16) {state : State}

theorem Frame.bytes_dropLast (frame : Frame) :
    (frame.bytes crc16Ccitt).dropLast =
      frame.front ++ [UInt8.ofNat (frame.checksum crc16Ccitt).toNat] := by
  rw [Frame.bytes, List.dropLast_append_of_ne_nil (by simp)]
  rfl

/-- A frame with a payload is processed at its end. -/
theorem run_frame (waits : state.phase = .waiting) (frame : Frame)
    (some_payload : frame.payload ≠ []) :
    ∃ (after : State) (events : List Event), Quiet events ∧ after.phase = .waiting ∧
      word after.msgType = frame.typeNumber ∧ after.msgLen.toNat = frame.payload.length ∧
      after.msgBuff = state.msgBuff.put 0 frame.payload ∧
      run (receive crc16Ccitt) state (frame.bytes crc16Ccitt) =
        ((processMessage after).1, events ++ (processMessage after).2) ∧
      (run (receive crc16Ccitt) state (frame.bytes crc16Ccitt).dropLast).2 = events := by
  obtain ⟨ends, quiet⟩ := run_front crc16Ccitt waits frame some_payload
  obtain ⟨after, phase, msgType, length, msgBuff, last, first⟩ := run_checksum crc16Ccitt ends
  refine ⟨after, _, quiet, phase, msgType, length, msgBuff, ?_, ?_⟩
  · rw [Frame.bytes, run_append, last]
  · rw [frame.bytes_dropLast, run_append, first, List.append_nil]

theorem run_frame_empty (waits : state.phase = .waiting) (frame : Frame)
    (empty : frame.payload = []) :
    (run (receive crc16Ccitt) state (frame.bytes crc16Ccitt)).1.phase = .getCrc := by
  obtain ⟨awaits, -⟩ := run_header crc16Ccitt waits frame
  have front : frame.front = frame.header := by
    rw [Frame.front, empty, List.append_nil, Frame.header, empty]
  rw [Frame.bytes, front, run_append]
  generalize (run (receive crc16Ccitt) state frame.header).1 = reading at awaits
  have none : reading.msgLen = 0 := UInt8.toNat_inj.mp (awaits.length.trans (by rw [empty]; rfl))
  simp [run, receive, awaits.phase, awaits.counter, none]

theorem received_iff (waits : state.phase = .waiting) (frame : Frame) :
    Received crc16Ccitt state frame ↔ frame.Long state.msgBuff := by
  by_cases empty : frame.payload = []
  · refine iff_of_false (fun received => ?_) (fun long => long.1 empty)
    have phase := run_frame_empty crc16Ccitt waits frame empty
    rw [received.1] at phase
    exact nomatch phase
  · obtain ⟨after, events, quiet, phase, msgType, length, msgBuff, whole, start⟩ :=
      run_frame crc16Ccitt waits frame empty
    have payload : after.msgBuff.slice 0 after.msgLen.toNat = frame.payload := by
      rw [msgBuff, length]
      exact slice_put_self _ _ _
    have copies : (∀ copied bytes, .copy copied bytes ∈ events ++ (processMessage after).2 →
        bytes <+: frame.payload) ↔
        ∀ copied ∈ target frame.typeNumber (state.msgBuff.put 0 frame.payload),
          copied.size ≤ frame.payload.length := by
      have silent : ∀ copied bytes, .copy copied bytes ∉ events := by
        intro copied bytes member
        obtain ⟨index, written⟩ := quiet _ member
        exact nomatch written
      simp only [List.mem_append, silent, false_or, mem_processMessage, msgType, msgBuff, and_imp,
        ← slice_put_prefix_iff state.msgBuff frame.payload]
      exact ⟨fun all copied chosen => all copied _ chosen rfl,
        fun all copied bytes chosen same => same ▸ all copied chosen⟩
    rw [Received, Frame.Long, whole, start, processMessage_phase, messages_append, quiet.messages,
      processMessage_messages, msgType, payload, copies]
    simp [phase, empty]

/-- A byte is written inside the buffer of 256 bytes. -/
theorem receive_write (state : State) (temp : UInt8) :
    ∀ event ∈ (receive crc16Ccitt state temp).2, ∀ index, event = .write index → index < 256 := by
  rintro event member index rfl
  rw [receive] at member
  split at member
  · split at member <;> exact nomatch member
  · dsimp only at member
    split at member <;> exact nomatch member
  · dsimp only at member
    split at member <;> exact nomatch member
  · exact nomatch member
  · dsimp only at member
    have same : Event.write index = .write state.nRead.toNat := by
      split at member <;> exact List.mem_singleton.mp member
    rw [Event.write.inj same]
    exact state.nRead.toNat_lt
  · dsimp only at member
    split at member
    · split at member
      · rw [processMessage] at member
        split at member
        · exact nomatch List.mem_singleton.mp member
        · simp at member
      · exact nomatch member
    · exact nomatch member

/-- Frames are received right one after the other, and nothing is ever written outside the buffer, if
and only if every frame has a payload that is long enough for what is copied. -/
theorem frames_received_iff (waits : state.phase = .waiting) (frames : List Frame) :
    (Framed (receive crc16Ccitt) (Frame.bytes crc16Ccitt) (Received crc16Ccitt) state frames ∧
      ∀ state stream index, .write index ∈ (run (receive crc16Ccitt) state stream).2 →
        index < 256) ↔
      AllGood (fun msgBuff frame => frame.Long msgBuff)
        (fun msgBuff frame => msgBuff.put 0 frame.payload) state.msgBuff frames := by
  have inside : ∀ state stream index,
      .write index ∈ (run (receive crc16Ccitt) state stream).2 → index < 256 :=
    fun state stream index member =>
      run_events _ (receive_write crc16Ccitt) state stream _ member index rfl
  rw [and_iff_left inside]
  refine framed_iff (fun state : State => state.phase = .waiting) State.msgBuff _ _
    (fun state frame waits => received_iff crc16Ccitt waits frame)
    (fun state frame waits long => ?_) waits frames
  obtain ⟨after, events, -, phase, -, -, msgBuff, whole, -⟩ :=
    run_frame crc16Ccitt waits frame long.1
  rw [whole, processMessage_phase, processMessage_msgBuff]
  exact ⟨phase, msgBuff⟩

/-- A parser that waits for its first frame. -/
def State.initial : State :=
  { phase := .waiting, msgType := fun _ => 0, senderId := fun _ => 0, crc := fun _ => 0,
    msgLen := 0, nRead := 0, msgBuff := fun _ => 0, last := fun _ => [], crcErrorCounter := 0 }

/-- A time of eleven bytes, and a velocity of four. -/
def timeFrame : Frame :=
  ⟨(0x00, 0x01), (0x42, 0x00), [1, 2, 3, 4, 5, 6, 7, 8, 9, 10, 11], by decide⟩

def velFrame : Frame := ⟨(0x05, 0x02), (0x42, 0x00), [1, 2, 3, 4], by decide⟩

/-- A checksum that is always the same. -/
def constantCrc (_ : List UInt8) (_ : UInt16) : UInt16 := 0x1021

theorem frames_received_two :
    Framed (receive constantCrc) (Frame.bytes constantCrc) (Received constantCrc) State.initial
      [timeFrame, timeFrame] := by
  have number : timeFrame.typeNumber = 0x0100 := by decide
  have long : ∀ msgBuff, timeFrame.Long msgBuff := by
    intro msgBuff
    refine ⟨List.cons_ne_nil _ _, fun copied chosen => ?_⟩
    rw [number, target, if_pos rfl] at chosen
    cases chosen
    decide
  exact ((frames_received_iff constantCrc rfl [timeFrame, timeFrame]).mpr
    ⟨long _, long _, trivial⟩).1

/-- The velocity is copied with bytes that are not of its frame. -/
theorem not_frames_received :
    ¬ Framed (receive constantCrc) (Frame.bytes constantCrc) (Received constantCrc) State.initial
      [velFrame] := by
  have number : velFrame.typeNumber = 0x0205 := by decide
  rintro ⟨received, -⟩
  have long := ((received_iff constantCrc rfl velFrame).mp received).2 .velNed
    (by rw [number, target, if_neg (by decide), if_pos rfl]; rfl)
  exact absurd long (by decide)

end Result

end Urus.Gps.Sbp
