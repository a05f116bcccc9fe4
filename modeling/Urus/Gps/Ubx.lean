/-
This file is about the frames of the u-blox protocol. The driver reads them byte by byte, in nine
steps: two bytes of preamble, class, message, two bytes of length, the payload and two bytes
of checksum.

The payload is over when its counter is equal to the length after a byte. A frame without a
payload does not pass through this point: its checksum is taken for the start of a payload,
and the receiver does not find the end. All other frames are received as they are sent.

The size of the buffer is a parameter, and what is done with a message is one too.
-/

import Urus.Lib.Bytes
import Urus.Lib.Framing

namespace Urus.Gps.Ubx

open Image Framing

/-! ### The receiver -/

/-- `PREAMBLE1` and `PREAMBLE2`. -/
def preamble1 : UInt8 := 0xb5
def preamble2 : UInt8 := 0x62

/-- The variables of `read`. -/
structure State where
  step : ℕ
  msgClass : UInt8
  msgId : UInt8
  ckA : UInt8
  ckB : UInt8
  payloadLength : ℕ
  payloadCounter : ℕ
  buffer : Image
  parsed : Bool

/-- A byte is written to the buffer, or a message is parsed. -/
inductive Event
  | write (index : ℕ)
  | parseGps (msgClass msgId : UInt8) (payload : List UInt8)

/-- `_ck_b += (_ck_a += data)`. -/
def State.sum (state : State) (data : UInt8) : State :=
  { state with ckA := state.ckA + data, ckB := state.ckB + (state.ckA + data) }

/-- Step 0, also for a byte that is considered again. -/
def State.start (state : State) (data : UInt8) : State :=
  { state with step := if preamble1 = data then 1 else 0 }

section Receive

variable (bufferSize : ℕ) (parseGps : State → Bool × Image)

/-- A byte in `read`. -/
def receive (state : State) (data : UInt8) : State × List Event :=
  match state.step with
  | 0 => (state.start data, [])
  | 1 => if preamble2 = data then ({ state with step := 2 }, []) else (state.start data, [])
  | 2 => ({ state with step := 3, msgClass := data, ckA := data, ckB := data }, [])
  | 3 => ({ state.sum data with step := 4, msgId := data }, [])
  | 4 => ({ state.sum data with step := 5, payloadLength := data.toNat }, [])
  | 5 =>
    let payloadLength := (state.payloadLength + data.toNat * 2 ^ 8) % 2 ^ 16
    if bufferSize < payloadLength then
      -- any payload bigger than what is known is noise
      ({ state.sum data with payloadLength := 0 }.start data, [])
    else
      ({ state.sum data with step := 6, payloadLength := payloadLength, payloadCounter := 0 }, [])
  | 6 =>
    let (buffer, events) :=
      if state.payloadCounter < bufferSize then
        (state.buffer.put state.payloadCounter [data], [.write state.payloadCounter])
      else (state.buffer, [])
    let payloadCounter := (state.payloadCounter + 1) % 2 ^ 16
    ({ state.sum data with
      step := if payloadCounter = state.payloadLength then 7 else 6
      payloadCounter := payloadCounter
      buffer := buffer }, events)
  | 7 => if state.ckA ≠ data then (state.start data, []) else ({ state with step := 8 }, [])
  | 8 =>
    if state.ckB ≠ data then ({ state with step := 0 }, [])
    else
      let (done, buffer) := parseGps state
      ({ state with step := 0, parsed := state.parsed || done, buffer := buffer },
        [.parseGps state.msgClass state.msgId (state.buffer.slice 0 state.payloadLength)])
  | _ => (state, [])

end Receive

/-! ### What is promised -/

/-- `_update_checksum`. -/
def updateChecksum : List UInt8 → UInt8 × UInt8 → UInt8 × UInt8
  | [], sums => sums
  | data :: rest, (ckA, ckB) => updateChecksum rest (ckA + data, ckB + (ckA + data))

/-- A frame for a receiver with a buffer of a size. -/
structure Frame (bufferSize : ℕ) where
  msgClass : UInt8
  msgId : UInt8
  payload : List UInt8
  fits : payload.length ≤ bufferSize
  short : payload.length < 2 ^ 16

/-- The part of a frame that the checksum is about. -/
def Frame.body {bufferSize : ℕ} (frame : Frame bufferSize) : List UInt8 :=
  [frame.msgClass, frame.msgId, UInt8.ofNat frame.payload.length,
    UInt8.ofNat (frame.payload.length / 2 ^ 8)] ++ frame.payload

/-- The bytes of a frame. -/
def Frame.bytes {bufferSize : ℕ} (frame : Frame bufferSize) : List UInt8 :=
  [preamble1, preamble2] ++ frame.body ++
    [(updateChecksum frame.body (0, 0)).1, (updateChecksum frame.body (0, 0)).2]

/-- The calls of `_parse_gps` among the events. -/
def calls : List Event → List (UInt8 × UInt8 × List UInt8) :=
  List.filterMap fun
    | .write _ => none
    | .parseGps msgClass msgId payload => some (msgClass, msgId, payload)

/-- A frame is consumed: behind it the receiver is at its first step again, the last byte has made
it parse the message, and no byte before has made it parse any. -/
def Consumed {bufferSize : ℕ} (parseGps : State → Bool × Image) (state : State)
    (frame : Frame bufferSize) : Prop :=
  (run (receive bufferSize parseGps) state frame.bytes).1.step = 0 ∧
    calls (run (receive bufferSize parseGps) state frame.bytes).2 =
      [(frame.msgClass, frame.msgId, frame.payload)] ∧
    calls (run (receive bufferSize parseGps) state frame.bytes.dropLast).2 = []

/-! ### The phases of a frame -/

section Phases

variable {bufferSize : ℕ} (parseGps : State → Bool × Image) {state : State}

theorem updateChecksum_append (first second : List UInt8) (sums : UInt8 × UInt8) :
    updateChecksum (first ++ second) sums = updateChecksum second (updateChecksum first sums) := by
  induction first generalizing sums with
  | nil => rfl
  | cons data rest inductionHypothesis => exact inductionHypothesis _

theorem calls_append (first second : List Event) :
    calls (first ++ second) = calls first ++ calls second :=
  List.filterMap_append

/-- The receiver is about to read a payload. -/
structure State.Awaits (state : State) (frame : Frame bufferSize) : Prop where
  step : state.step = 6
  msgClass : state.msgClass = frame.msgClass
  msgId : state.msgId = frame.msgId
  length : state.payloadLength = frame.payload.length
  counter : state.payloadCounter = 0
  sums : (state.ckA, state.ckB) = updateChecksum (frame.body.take 4) (0, 0)

/-- The bytes in front of the payload. -/
def Frame.header (frame : Frame bufferSize) : List UInt8 :=
  [preamble1, preamble2, frame.msgClass, frame.msgId, UInt8.ofNat frame.payload.length,
    UInt8.ofNat (frame.payload.length / 2 ^ 8)]

/-- The bytes in front of the checksum. -/
def Frame.front (frame : Frame bufferSize) : List UInt8 := frame.header ++ frame.payload

theorem Frame.bytes_eq (frame : Frame bufferSize) :
    frame.bytes = frame.front ++
      [(updateChecksum frame.body (0, 0)).1, (updateChecksum frame.body (0, 0)).2] := rfl

theorem Frame.bytes_dropLast (frame : Frame bufferSize) :
    frame.bytes.dropLast = frame.front ++ [(updateChecksum frame.body (0, 0)).1] := by
  rw [frame.bytes_eq, List.dropLast_append_of_ne_nil (by simp)]
  rfl

theorem Frame.body_eq (frame : Frame bufferSize) :
    frame.body = frame.body.take 4 ++ frame.payload := rfl

theorem length_bytes {length : ℕ} (short : length < 2 ^ 16) :
    ((UInt8.ofNat length).toNat + (UInt8.ofNat (length / 2 ^ 8)).toNat * 2 ^ 8) % 2 ^ 16 =
      length := by
  rw [UInt8.toNat_ofNat', UInt8.toNat_ofNat']
  omega

theorem run_header (rest : state.step = 0) (frame : Frame bufferSize) :
    (run (receive bufferSize parseGps) state frame.header).1.Awaits frame ∧
      (run (receive bufferSize parseGps) state frame.header).2 = [] := by
  have fits : ¬ bufferSize < frame.payload.length := not_lt.mpr frame.fits
  have length := length_bytes frame.short
  simp only [Frame.header, run, receive, rest, State.start, if_true, State.sum, length, fits,
    if_false, List.append_nil, and_true]
  exact ⟨rfl, rfl, rfl, rfl, rfl, by simp [Frame.body, updateChecksum]⟩

/-- One byte of a payload that fits the buffer. -/
theorem receive_payload (reads : state.step = 6) (fits : state.payloadCounter < bufferSize)
    (short : state.payloadCounter + 1 < 2 ^ 16) (data : UInt8) :
    receive bufferSize parseGps state data =
      ({ state.sum data with
        step := if state.payloadCounter + 1 = state.payloadLength then 7 else 6
        payloadCounter := state.payloadCounter + 1
        buffer := put state.buffer state.payloadCounter [data] },
      [.write state.payloadCounter]) := by
  rw [receive, reads, if_pos fits, Nat.mod_eq_of_lt short]
  rfl

/-- The receiver when some bytes of a payload have been read. -/
def State.reading (state : State) (seen : List UInt8) : State :=
  { state with
    ckA := (updateChecksum seen (state.ckA, state.ckB)).1
    ckB := (updateChecksum seen (state.ckA, state.ckB)).2
    payloadCounter := seen.length
    buffer := put state.buffer 0 seen }

theorem State.reading_nil (counter : state.payloadCounter = 0) : state.reading [] = state := by
  rw [State.reading, put_nil, List.length_nil, ← counter]
  rfl

/-- One more byte of a payload. -/
theorem receive_reading (reads : state.step = 6) (seen : List UInt8)
    (fits : seen.length < bufferSize) (short : seen.length + 1 < 2 ^ 16) (data : UInt8) :
    receive bufferSize parseGps (state.reading seen) data =
      ({ state.reading (seen ++ [data]) with
        step := if seen.length + 1 = state.payloadLength then 7 else 6 },
      [.write seen.length]) := by
  have same : (state.reading seen).step = 6 := reads
  rw [receive_payload parseGps same fits short, State.reading, State.reading, updateChecksum_append,
    ← put_append, Nat.zero_add, List.length_append]
  rfl

/-- A payload that is not empty is read into the buffer, up to its end. -/
theorem run_payload (payload : List UInt8) (some_payload : payload ≠ []) (reads : state.step = 6)
    (counter : state.payloadCounter = 0) (length : payload.length = state.payloadLength)
    (fits : state.payloadLength ≤ bufferSize) (short : state.payloadLength < 2 ^ 16) :
    (run (receive bufferSize parseGps) state payload).1 = { state.reading payload with step := 7 } ∧
      calls (run (receive bufferSize parseGps) state payload).2 = [] := by
  have written : ∀ index, ∀ event ∈ [Event.write index], ∃ index, event = .write index :=
    fun index event member => ⟨index, List.mem_singleton.mp member⟩
  obtain ⟨after, events⟩ := run_part (receive bufferSize parseGps) state.reading
    { state.reading payload with step := 7 }
    (fun seen data (before : seen.length + 1 < payload.length) => by
      rw [receive_reading parseGps reads seen (by omega) (by omega), if_neg (by omega), ← reads]
      exact ⟨rfl, written _⟩)
    (fun seen data last => by
      have counted : seen.length + 1 = state.payloadLength := by
        rw [← length, ← last, List.length_append, List.length_singleton]
      rw [receive_reading parseGps reads seen (by omega) (by omega), if_pos counted, last]
      exact ⟨rfl, written _⟩)
    (List.nil_append payload) some_payload
  rw [state.reading_nil counter] at after events
  refine ⟨after, List.filterMap_eq_nil_iff.mpr fun event member => ?_⟩
  obtain ⟨index, rfl⟩ := events event member
  rfl

/-- The receiver is about to read the checksum. -/
structure State.Ends (state : State) (frame : Frame bufferSize) : Prop where
  step : state.step = 7
  msgClass : state.msgClass = frame.msgClass
  msgId : state.msgId = frame.msgId
  payload : state.buffer.slice 0 state.payloadLength = frame.payload
  sums : (state.ckA, state.ckB) = updateChecksum frame.body (0, 0)

theorem run_front (rest : state.step = 0) (frame : Frame bufferSize)
    (some_payload : frame.payload ≠ []) :
    (run (receive bufferSize parseGps) state frame.front).1.Ends frame ∧
      calls (run (receive bufferSize parseGps) state frame.front).2 = [] := by
  obtain ⟨awaits, quiet⟩ := run_header parseGps rest frame
  rw [Frame.front, run_append, quiet]
  generalize (run (receive bufferSize parseGps) state frame.header).1 = reading at awaits
  have fits : reading.payloadLength ≤ bufferSize := awaits.length ▸ frame.fits
  have short : reading.payloadLength < 2 ^ 16 := awaits.length ▸ frame.short
  obtain ⟨after, silent⟩ := run_payload parseGps frame.payload some_payload
    awaits.step awaits.counter awaits.length.symm fits short
  rw [after]
  refine ⟨⟨rfl, awaits.msgClass, awaits.msgId, ?_, ?_⟩, silent⟩
  · change (put reading.buffer 0 frame.payload).slice 0 reading.payloadLength = frame.payload
    rw [awaits.length]
    exact slice_put_self _ _ _
  · change updateChecksum frame.payload (reading.ckA, reading.ckB) = _
    rw [awaits.sums, ← updateChecksum_append, ← frame.body_eq]

theorem consumed_of_payload (rest : state.step = 0) (frame : Frame bufferSize)
    (some_payload : frame.payload ≠ []) : Consumed parseGps state frame := by
  obtain ⟨ends, quiet⟩ := run_front parseGps rest frame some_payload
  rw [Consumed, frame.bytes_dropLast, frame.bytes_eq, run_append, run_append, calls_append,
    calls_append, quiet, ← ends.sums]
  generalize (run (receive bufferSize parseGps) state frame.front).1 = reading at ends
  have message := ends.payload
  simp [run, receive, calls, ends.step, ends.msgClass, ends.msgId, message]

theorem not_consumed_of_empty (rest : state.step = 0) (frame : Frame bufferSize)
    (empty : frame.payload = []) : ¬ Consumed parseGps state frame := by
  obtain ⟨awaits, -⟩ := run_header parseGps rest frame
  rintro ⟨after, -, -⟩
  rw [frame.bytes_eq, Frame.front, empty, List.append_nil, run_append] at after
  generalize (run (receive bufferSize parseGps) state frame.header).1 = reading at awaits after
  have length := awaits.length
  rw [empty, List.length_nil] at length
  simp [run, receive, awaits.step, awaits.counter, length, State.sum] at after

end Phases

/-! ### The main result -/

section Frames

variable {bufferSize : ℕ}

variable (parseGps : State → Bool × Image)

theorem consumed_iff {state : State} (rest : state.step = 0) (frame : Frame bufferSize) :
    Consumed parseGps state frame ↔ frame.payload ≠ [] :=
  ⟨fun consumed empty => not_consumed_of_empty parseGps rest frame empty consumed,
    consumed_of_payload parseGps rest frame⟩

theorem receive_write (state : State) (data : UInt8) :
    ∀ event ∈ (receive bufferSize parseGps state data).2,
      ∀ index, event = .write index → index < bufferSize := by
  rintro event member index rfl
  rw [receive] at member
  split at member
  · exact nomatch member
  · split at member <;> exact nomatch member
  · exact nomatch member
  · exact nomatch member
  · exact nomatch member
  · dsimp only at member
    split at member <;> exact nomatch member
  · dsimp only at member
    split at member
    · rename_i inside
      rw [Event.write.inj (List.mem_singleton.mp member)]
      exact inside
    · exact nomatch member
  · split at member <;> exact nomatch member
  · split at member
    · exact nomatch member
    · exact nomatch List.mem_singleton.mp member
  · exact nomatch member

/-- Frames are consumed one after the other, and nothing is ever written outside the buffer, if and
only if every frame has a payload. -/
theorem frames_consumed_iff {state : State} (rest : state.step = 0)
    (frames : List (Frame bufferSize)) :
    (Framed (receive bufferSize parseGps) Frame.bytes (Consumed parseGps) state frames ∧
      ∀ state stream index, .write index ∈ (run (receive bufferSize parseGps) state stream).2 →
        index < bufferSize) ↔
      ∀ frame ∈ frames, frame.payload ≠ [] := by
  have inside : ∀ state stream index,
      .write index ∈ (run (receive bufferSize parseGps) state stream).2 → index < bufferSize :=
    fun state stream index member =>
      run_events _ (receive_write parseGps) state stream _ member index rfl
  rw [and_iff_left inside]
  exact framed_iff_forall (fun state : State => state.step = 0) (fun frame => frame.payload ≠ [])
    (fun state frame rest => consumed_iff parseGps rest frame)
    (fun state frame rest good => (consumed_of_payload parseGps rest frame good).1) rest frames

/-- A receiver that has not read anything. -/
def State.initial : State :=
  { step := 0, msgClass := 0, msgId := 0, ckA := 0, ckB := 0, payloadLength := 0,
    payloadCounter := 0, buffer := fun _ => 0, parsed := false }

/-- A message that leaves the buffer as it is. -/
def ignored (state : State) : Bool × Image := (false, state.buffer)

/-- An acknowledgement, and a poll request. -/
def ackFrame : Frame 1040 := ⟨0x05, 0x01, [0x06, 0x24], by decide, by decide⟩
def pollFrame : Frame 1040 := ⟨0x06, 0x24, [], by decide, by decide⟩

theorem frames_consumed_two :
    Framed (receive 1040 ignored) Frame.bytes (Consumed ignored) State.initial
      [ackFrame, ackFrame] :=
  ((frames_consumed_iff ignored rfl [ackFrame, ackFrame]).mpr (by decide)).1

/-- A frame without a payload is not consumed, and neither is the one behind it. -/
theorem not_frames_consumed :
    ¬ Framed (receive 1040 ignored) Frame.bytes (Consumed ignored) State.initial
      [pollFrame, ackFrame] := by
  rintro ⟨consumed, -⟩
  exact not_consumed_of_empty ignored rfl pollFrame rfl consumed

end Frames

end Urus.Gps.Ubx
