/-
This file proves when the transmit queue loses nothing. Outside a call of the writer the
bytes that were sent and the bytes in the buffer must be, in this order, the bytes that were
accepted, and the interrupt must be enabled as long as there are bytes in the buffer.

The single byte write keeps one slot free. `txspace` counts this slot too, so that a bulk
write of that many bytes fills the buffer, its head meets its tail, and the buffer looks
empty. Nothing is lost, and the two ways of writing accept the same bytes, exactly if every
bulk write has less bytes than `txspace` says.
-/

import Urus.AvrUart.Model
import Urus.Lib.Trace

namespace Urus.AvrUart

open Image

/-! ### What is wanted -/

/-- The bytes between tail and head. -/
def Buffer.queue (port : Port) (buffer : Buffer) : List UInt8 :=
  ringItems buffer.bytes port.size buffer.tail buffer.head

/-- Outside the calls the bytes sent and queued are the bytes accepted, and queued bytes have the
interrupt enabled; and every bulk write has accepted as many bytes as its bytes one by one. -/
def Faithful (port : Port) (system : System) : Prop :=
  system.pathsAgree = true ∧ (system.writer = .idle →
    system.sent ++ system.buffer.queue port = system.accepted ∧
      (system.buffer.queue port ≠ [] → system.interruptOn = true))

/-- A bulk write has less bytes than `txspace` says when it starts. -/
def LeavesSlot (port : Port) (system : System) : Step → Prop
  | .writeBulk data => system.writer = .idle → data.length < system.buffer.txspace port
  | _ => True

variable {port : Port} {buffer : Buffer} {system : System}

/-! ### Positions -/

theorem Port.size_pos (port : Port) : 1 < port.size :=
  Nat.one_lt_two_pow (by have := port.low; omega)

theorem Port.mask_add_one (port : Port) : port.mask + 1 = port.size :=
  Nat.sub_add_cancel (Nat.one_le_two_pow)

theorem Port.and_mask (port : Port) (position : ℕ) : position &&& port.mask = position % port.size :=
  Nat.and_two_pow_sub_one_eq_mod position port.shift

/-- Both positions are in the buffer. -/
def Buffer.Inside (port : Port) (buffer : Buffer) : Prop :=
  buffer.head < port.size ∧ buffer.tail < port.size

/-- The number of bytes in the buffer. -/
def Buffer.count (port : Port) (buffer : Buffer) : ℕ :=
  ringCount port.size buffer.tail buffer.head

section

variable (inside : buffer.Inside port)

include inside

theorem Buffer.Inside.used : buffer.used port = buffer.count port := by
  obtain ⟨head, tail⟩ := inside
  rw [Buffer.used, port.and_mask, Buffer.count, ringCount]
  split
  · rw [show buffer.head + port.size - buffer.tail = buffer.head - buffer.tail + port.size by omega,
      Nat.add_mod_right, Nat.mod_eq_of_lt (by omega)]
  · rw [Nat.mod_eq_of_lt (by omega)]

theorem Buffer.Inside.count_lt : buffer.count port < port.size :=
  ringCount_lt inside.2 inside.1

theorem Buffer.Inside.txspace :
    buffer.txspace port = port.size - buffer.count port := by
  rw [Buffer.txspace, port.mask_add_one, inside.used]

theorem Buffer.Inside.next :
    buffer.next port = ringNext port.size buffer.head := by
  rw [Buffer.next, port.and_mask, ringIndex_eq_mod inside.1 (by have := port.size_pos; omega),
    ringNext_eq_index inside.1]

/-- The position behind the head is the tail exactly when all slots but one are used. -/
theorem Buffer.Inside.full_iff :
    buffer.next port = buffer.tail ↔ buffer.count port + 1 = port.size := by
  obtain ⟨head, tail⟩ := inside
  rw [Buffer.Inside.next ⟨head, tail⟩, Buffer.count]
  unfold ringNext ringCount
  split <;> split <;> omega

end

theorem Buffer.queue_length (port : Port) (buffer : Buffer) :
    (buffer.queue port).length = buffer.count port :=
  ringItems_length _ _ _ _

/-! ### How many bytes are accepted -/

theorem Buffer.Inside.afterByte (inside : buffer.Inside port) (c : UInt8) :
    Buffer.Inside port { buffer.store c with head := buffer.next port } := by
  refine ⟨?_, inside.2⟩
  change buffer.next port < port.size
  rw [inside.next]
  exact ringNext_lt inside.1

/-- One by one, all slots but one are filled. -/
theorem acceptedBytewise_eq (port : Port) (data : List UInt8) (inside : buffer.Inside port) :
    acceptedBytewise port buffer data = min data.length (port.size - 1 - buffer.count port) := by
  induction data generalizing buffer with
  | nil => rw [acceptedBytewise, List.length_nil, Nat.zero_min]
  | cons c rest inductionHypothesis =>
    have bound := inside.count_lt
    rw [acceptedBytewise, List.length_cons]
    by_cases full : buffer.next port = buffer.tail
    · rw [if_pos full]
      have last := inside.full_iff.mp full
      omega
    · rw [if_neg full, inductionHypothesis (inside.afterByte c)]
      have room : buffer.count port + 1 ≠ port.size := fun last => full (inside.full_iff.mpr last)
      have more : Buffer.count port { buffer.store c with head := buffer.next port } =
          buffer.count port + 1 := by
        change ringCount port.size buffer.tail (buffer.next port) = _
        rw [inside.next, ringNext_eq_index inside.1]
        exact ringCount_extend inside.2 inside.1
          (by change buffer.count port + 1 < port.size; omega)
      rw [more]
      omega

theorem acceptedBulk_eq (port : Port) (data : List UInt8) (inside : buffer.Inside port) :
    acceptedBulk port buffer data = min data.length (port.size - buffer.count port) := by
  rw [acceptedBulk, inside.txspace]
  split <;> omega

/-- From the same state the two ways of writing accept the same number of bytes exactly if the bytes
leave a slot. -/
theorem accepted_agree_iff (port : Port) (data : List UInt8) (inside : buffer.Inside port) :
    acceptedBulk port buffer data = acceptedBytewise port buffer data ↔
      data.length < buffer.txspace port := by
  have bound := inside.count_lt
  rw [acceptedBulk_eq port data inside, acceptedBytewise_eq port data inside, inside.txspace]
  omega

/-! ### The invariant -/

/-- The bytes of the call in progress that are in front of the head. -/
def Writer.put : Writer → List UInt8
  | .partCopied done _ _ => done
  | .partAdvanced done _ => done
  | .returning data => data
  | _ => []

/-- What the writer has found and stored: there is room for the bytes it still has to put, and
those that it has copied lie behind the head. -/
def Writer.Ready (port : Port) (buffer : Buffer) : Writer → Prop
  | .idle => True
  | .byteRoom _ i => i = ringNext port.size buffer.head ∧ buffer.count port + 1 < port.size
  | .byteStored c i => i = ringNext port.size buffer.head ∧
      buffer.count port + 1 < port.size ∧ buffer.bytes buffer.head = c
  | .bulkSized data => buffer.count port + data.length < port.size
  | .partCopied _ part rest => buffer.count port + part.length + rest.length < port.size ∧
      (∀ index (inside : index < part.length),
        buffer.bytes (ringIndex port.size buffer.head index) = part[index]) ∧
      (rest ≠ [] → buffer.head + part.length = port.size)
  | .partAdvanced _ rest => buffer.count port + rest.length < port.size ∧
      (rest ≠ [] → buffer.head = 0)
  | .returning _ => True

/-- What holds in every run whose bulk writes leave a slot. -/
structure Sound (port : Port) (system : System) : Prop where
  inside : system.buffer.Inside port
  ready : system.writer.Ready port system.buffer
  conserved : system.sent ++ system.buffer.queue port = system.accepted ++ system.writer.put
  live : system.interruptOn = true ∨ system.buffer.queue port = [] ∨ system.writer ≠ .idle
  agree : system.pathsAgree = true

theorem opened_sound (port : Port) (bytes : Image) : Sound port (System.opened bytes) where
  inside := ⟨by have := port.size_pos; change 0 < port.size; omega,
    by have := port.size_pos; change 0 < port.size; omega⟩
  ready := trivial
  conserved := ringItems_empty _ _ _
  live := Or.inr (Or.inl (ringItems_empty _ _ _))
  agree := rfl

/-- The interrupt makes room and leaves what the writer has found. -/
theorem Writer.Ready.transmit {writer : Writer} (ready : writer.Ready port buffer) {tail : ℕ}
    (less : Buffer.count port { buffer with tail := tail } ≤ buffer.count port) :
    writer.Ready port { buffer with tail := tail } := by
  cases writer with
  | idle => trivial
  | byteRoom c i => exact ⟨ready.1, lt_of_le_of_lt (Nat.add_le_add_right less 1) ready.2⟩
  | byteStored c i =>
    exact ⟨ready.1, lt_of_le_of_lt (Nat.add_le_add_right less 1) ready.2.1, ready.2.2⟩
  | bulkSized data => exact lt_of_le_of_lt (Nat.add_le_add_right less _) ready
  | partCopied done part rest =>
    exact ⟨lt_of_le_of_lt (Nat.add_le_add_right (Nat.add_le_add_right less _) _) ready.1, ready.2⟩
  | partAdvanced done rest =>
    exact ⟨lt_of_le_of_lt (Nat.add_le_add_right less _) ready.1, ready.2⟩
  | returning data => trivial

theorem Sound.transmit (sound : Sound port system) : Sound port (system.transmit port) := by
  rw [System.transmit]
  split
  · rename_i pending
    have inside := sound.inside
    have next : (system.buffer.tail + 1) &&& port.mask = ringIndex port.size system.buffer.tail 1 := by
      rw [port.and_mask, ringIndex_eq_mod inside.2 (by have := port.size_pos; omega)]
    have present : 1 ≤ ringCount port.size system.buffer.tail system.buffer.head := by
      obtain ⟨head, tail⟩ := inside
      unfold ringCount
      split <;> omega
    have dropped : Buffer.queue port
        { system.buffer with tail := (system.buffer.tail + 1) &&& port.mask } =
        (system.buffer.queue port).drop 1 := by
      change ringItems system.buffer.bytes port.size ((system.buffer.tail + 1) &&& port.mask)
        system.buffer.head = _
      rw [next]
      exact ringItems_drop inside.2 inside.1 present
    have first : system.buffer.queue port =
        system.buffer.bytes system.buffer.tail :: (system.buffer.queue port).drop 1 := by
      have nonempty : 0 < (system.buffer.queue port).length := by
        rw [Buffer.queue_length]
        exact present
      have head := List.drop_eq_getElem_cons nonempty
      rw [List.drop_zero] at head
      have here : (system.buffer.queue port)[0] = system.buffer.bytes system.buffer.tail := by
        refine (ringItems_getElem _ _ _ _ _ nonempty).trans ?_
        rw [ringIndex, Nat.add_zero, if_pos inside.2]
      rw [head, here]
      rfl
    refine ⟨⟨inside.1, ?_⟩, sound.ready.transmit ?_, ?_, ?_, sound.agree⟩
    · change (system.buffer.tail + 1) &&& port.mask < port.size
      rw [next]
      exact ringIndex_lt inside.2 (by have := port.size_pos; omega)
    · rw [← Buffer.queue_length, ← Buffer.queue_length, dropped, List.length_drop]
      omega
    · change system.sent ++ [system.buffer.bytes system.buffer.tail] ++ Buffer.queue port _ = _
      rw [dropped, List.append_assoc, List.singleton_append, ← first]
      exact sound.conserved
    · rcases sound.live with on | empty | busy
      · exact Or.inl on
      · rw [first] at empty
        cases empty
      · exact Or.inr (Or.inr busy)
  · rename_i same
    rw [not_not] at same
    have empty : system.buffer.queue port = [] := by
      rw [Buffer.queue, same]
      exact ringItems_empty _ _ _
    exact ⟨sound.inside, sound.ready, sound.conserved, Or.inr (Or.inl empty), sound.agree⟩

theorem queue_put {address : ℕ} {data : List UInt8}
    (free : ∀ index, index < buffer.count port →
      ringIndex port.size buffer.tail index < address ∨
        address + data.length ≤ ringIndex port.size buffer.tail index) :
    Buffer.queue port { buffer with bytes := put buffer.bytes address data } =
      buffer.queue port := by
  refine List.map_congr_left fun index member => ?_
  exact put_outside _ _ _ _ (free index (List.mem_range.mp member))

/-- The first `memcpy` leaves the queue and has its bytes behind the head. -/
theorem copyFirst_ready (inside : buffer.Inside port) {data : List UInt8}
    (fits : buffer.count port + data.length < port.size) :
    let copied := buffer.copyFirst port data
    copied.1.head = buffer.head ∧ copied.1.tail = buffer.tail ∧
      copied.1.queue port = buffer.queue port ∧ copied.2.Ready port copied.1 ∧
      copied.2.put = [] ∧ copied.2 ≠ .idle := by
  obtain ⟨head, tail⟩ := inside
  have count : buffer.count port = ringCount port.size buffer.tail buffer.head := rfl
  have size := port.mask_add_one
  rw [Buffer.copyFirst, size]
  dsimp only
  by_cases wrapped : buffer.tail > buffer.head
  · rw [if_pos wrapped]
    rw [ringCount, if_neg (by omega)] at count
    have free : ∀ index, index < buffer.count port →
        ringIndex port.size buffer.tail index < buffer.head ∨
          buffer.head + data.length ≤ ringIndex port.size buffer.tail index := by
      intro index bound
      unfold ringIndex
      split <;> omega
    refine ⟨rfl, rfl, queue_put free, ⟨fits, fun index bound => ?_,
      fun impossible => absurd rfl impossible⟩, rfl, fun impossible => by cases impossible⟩
    change put buffer.bytes buffer.head data (ringIndex port.size buffer.head index) = _
    have place : ringIndex port.size buffer.head index = buffer.head + index := by
      rw [ringIndex, if_pos (by omega)]
    rw [place, put_inside _ _ _ _ (by omega) (by omega), Nat.add_sub_cancel_left,
      List.getD_eq_getElem _ _ bound]
  · rw [if_neg wrapped]
    rw [ringCount, if_pos (by omega)] at count
    generalize limit : (if port.size - buffer.head > data.length then data.length
      else port.size - buffer.head) = n
    have short : n ≤ data.length ∧ buffer.head + n ≤ port.size ∧
        (n < data.length → buffer.head + n = port.size) := by
      split at limit <;> omega
    have length : (data.take n).length = n := List.length_take_of_le short.1
    have free : ∀ index, index < buffer.count port →
        ringIndex port.size buffer.tail index < buffer.head ∨
          buffer.head + (data.take n).length ≤ ringIndex port.size buffer.tail index := by
      intro index bound
      unfold ringIndex
      split <;> omega
    refine ⟨rfl, rfl, queue_put free, ⟨?_, fun index bound => ?_, fun more => ?_⟩,
      rfl, fun impossible => by cases impossible⟩
    · change buffer.count port + _ + _ < _
      rw [length, List.length_drop]
      omega
    · rw [length] at bound
      change put buffer.bytes buffer.head (data.take n) (ringIndex port.size buffer.head index) = _
      have place : ringIndex port.size buffer.head index = buffer.head + index := by
        rw [ringIndex, if_pos (by omega)]
      rw [place, put_inside _ _ _ _ (by omega) (by omega), Nat.add_sub_cancel_left,
        List.getD_eq_getElem]
    · rw [length]
      refine short.2.2 ?_
      by_contra whole
      exact more (List.drop_eq_nil_of_le (by omega))

/-- The head moves on past bytes that lie behind it. -/
theorem queue_advance (inside : buffer.Inside port) {part : List UInt8}
    (fits : buffer.count port + part.length < port.size)
    (stored : ∀ index (inside : index < part.length),
      buffer.bytes (ringIndex port.size buffer.head index) = part[index]) :
    (buffer.advance port part.length).queue port = buffer.queue port ++ part ∧
      (buffer.advance port part.length).Inside port ∧
      (buffer.advance port part.length).count port = buffer.count port + part.length := by
  have next : (buffer.advance port part.length).head =
      ringIndex port.size buffer.head part.length := by
    change (buffer.head + part.length) &&& port.mask = _
    rw [port.and_mask, ringIndex_eq_mod inside.1 (by omega)]
  refine ⟨?_, ⟨?_, inside.2⟩, ?_⟩
  · rw [Buffer.queue, next]
    exact ringItems_extend inside.2 inside.1 fits (fun _ _ => rfl) stored
  · rw [next]
    exact ringIndex_lt inside.1 (by omega)
  · rw [Buffer.count, next]
    exact ringCount_extend inside.2 inside.1 fits

theorem byteStored_advance {c : UInt8} {i : ℕ} (inside : buffer.Inside port)
    (ready : Writer.Ready port buffer (.byteStored c i)) :
    { buffer with head := i } = buffer.advance port 1 ∧
      Buffer.queue port (buffer.advance port 1) = buffer.queue port ++ [c] ∧
      Buffer.Inside port (buffer.advance port 1) := by
  obtain ⟨next, room, stored⟩ := ready
  have held : ∀ index (bound : index < [c].length),
      buffer.bytes (ringIndex port.size buffer.head index) = [c][index] := by
    intro index bound
    rw [List.length_singleton] at bound
    have first : index = 0 := by omega
    subst first
    rw [ringIndex, Nat.add_zero, if_pos inside.1, stored]
    rfl
  have fits : buffer.count port + [c].length < port.size := room
  obtain ⟨queue, inside', -⟩ := queue_advance inside fits held
  have head : (buffer.advance port 1).head = i := by
    change (buffer.head + 1) &&& port.mask = i
    rw [next, ← inside.next]
    rfl
  refine ⟨?_, queue, inside'⟩
  rw [← head]
  rfl

theorem copyRest_ready {rest : List UInt8} (inside : buffer.Inside port)
    (fits : buffer.count port + rest.length < port.size) (start : buffer.head = 0)
    (done : List UInt8) :
    Buffer.queue port { buffer with bytes := put buffer.bytes 0 rest } = buffer.queue port ∧
      Writer.Ready port { buffer with bytes := put buffer.bytes 0 rest }
        (.partCopied done rest []) := by
  have count : buffer.count port = ringCount port.size buffer.tail buffer.head := rfl
  have tail := inside.2
  have free : ∀ index, index < buffer.count port →
      ringIndex port.size buffer.tail index < 0 ∨
        0 + rest.length ≤ ringIndex port.size buffer.tail index := by
    intro index bound
    rw [start] at count
    unfold ringCount at count
    unfold ringIndex
    split at count <;> split <;> omega
  refine ⟨queue_put free, fits, fun index bound => ?_, fun impossible => absurd rfl impossible⟩
  change put buffer.bytes 0 rest (ringIndex port.size buffer.head index) = _
  rw [start, ringIndex, Nat.zero_add, if_pos (by omega),
    put_inside _ _ _ _ (Nat.zero_le _) (by omega), Nat.sub_zero, List.getD_eq_getElem _ _ bound]

/-- Every step of a call keeps the invariant. -/
theorem Sound.proceed (sound : Sound port system) : Sound port (system.proceed port) := by
  have inside := sound.inside
  have ready := sound.ready
  have conserved := sound.conserved
  rw [System.proceed]
  cases writer : system.writer with
  | idle => exact sound
  | byteRoom c i =>
    rw [writer] at ready conserved
    dsimp only
    split
    · exact sound
    · have kept : Buffer.queue port (system.buffer.store c) = system.buffer.queue port :=
        ringItems_update _ _ _ _ _ (le_of_lt inside.2)
      refine ⟨inside, ⟨ready.1, ready.2, Function.update_self _ _ _⟩, ?_,
        Or.inr (Or.inr fun impossible => nomatch impossible), sound.agree⟩
      change system.sent ++ Buffer.queue port (system.buffer.store c) = _
      rw [kept]
      exact conserved
  | byteStored c i =>
    rw [writer] at ready conserved
    dsimp only
    obtain ⟨same, queue, inside'⟩ := byteStored_advance inside ready
    rw [same]
    refine ⟨inside', trivial, ?_, Or.inr (Or.inr fun impossible => nomatch impossible),
      sound.agree⟩
    change system.sent ++ Buffer.queue port (system.buffer.advance port 1) =
      system.accepted ++ [c]
    rw [queue, ← List.append_assoc, conserved]
    simp only [Writer.put, List.append_nil]
  | bulkSized data =>
    rw [writer] at ready conserved
    dsimp only
    obtain ⟨head, tail, queue, next, put, busy⟩ := copyFirst_ready inside ready
    refine ⟨⟨?_, ?_⟩, next, ?_, Or.inr (Or.inr busy), sound.agree⟩
    · rw [head]
      exact inside.1
    · rw [tail]
      exact inside.2
    · dsimp only
      rw [queue, put]
      exact conserved
  | partCopied done part rest =>
    rw [writer] at ready conserved
    dsimp only
    obtain ⟨fits, stored, full⟩ := ready
    obtain ⟨queue, inside', count⟩ := queue_advance inside (by omega) stored
    refine ⟨inside', ⟨?_, fun more => ?_⟩, ?_, Or.inr (Or.inr fun impossible => nomatch impossible),
      sound.agree⟩
    · dsimp only
      rw [count]
      exact fits
    · change (system.buffer.head + part.length) &&& port.mask = 0
      rw [full more, port.and_mask, Nat.mod_self]
    · change system.sent ++ Buffer.queue port _ = system.accepted ++ (done ++ part)
      rw [queue, ← List.append_assoc, conserved, List.append_assoc]
      rfl
  | partAdvanced done rest =>
    rw [writer] at ready conserved
    dsimp only
    obtain ⟨fits, wrapped⟩ := ready
    split
    · rename_i more
      have start : system.buffer.head = 0 := wrapped (List.length_pos_iff.mp more)
      obtain ⟨kept, copied⟩ := copyRest_ready inside fits start done
      refine ⟨inside, copied, ?_, Or.inr (Or.inr fun impossible => nomatch impossible), sound.agree⟩
      change system.sent ++ Buffer.queue port _ = _
      rw [kept]
      exact conserved
    · exact ⟨inside, trivial, conserved,
        Or.inr (Or.inr fun impossible => nomatch impossible), sound.agree⟩
  | returning data =>
    rw [writer] at conserved
    refine ⟨inside, trivial, ?_, Or.inl rfl, sound.agree⟩
    change system.sent ++ Buffer.queue port system.buffer = system.accepted ++ data ++ []
    rw [conserved, List.append_nil]
    rfl

/-- Every step of a run whose bulk writes leave a slot keeps the invariant. -/
theorem Sound.step (sound : Sound port system) {step : Step}
    (fair : LeavesSlot port system step) : Sound port (system.step port step) := by
  cases step with
  | writeByte c =>
    rw [System.step]
    split
    · rename_i idle
      split
      · exact sound
      · rename_i room
        have inside := sound.inside
        have notFull : system.buffer.count port + 1 ≠ port.size :=
          fun full => room (inside.full_iff.mpr full)
        have free : system.buffer.count port + 1 < port.size :=
          lt_of_le_of_ne inside.count_lt notFull
        have conserved := sound.conserved
        rw [idle] at conserved
        exact ⟨inside, ⟨inside.next, free⟩, conserved,
          Or.inr (Or.inr fun impossible => nomatch impossible), sound.agree⟩
    · exact sound
  | writeBulk data =>
    rw [System.step]
    split
    · rename_i idle
      split
      · exact sound
      · have inside := sound.inside
        have bound := inside.count_lt
        have slot := fair idle
        have conserved := sound.conserved
        rw [idle] at conserved
        refine ⟨inside, ?_, conserved, Or.inr (Or.inr fun impossible => nomatch impossible), ?_⟩
        · change system.buffer.count port + (data.take _).length < port.size
          rw [inside.txspace] at slot
          rw [List.length_take]
          omega
        · rw [(accepted_agree_iff port data inside).mpr slot, sound.agree]
          exact decide_eq_true rfl
    · exact sound
  | proceed => exact sound.proceed
  | transmit =>
    rw [System.step]
    split
    · exact sound.transmit
    · exact sound

theorem Sound.faithful (sound : Sound port system) : Faithful port system := by
  refine ⟨sound.agree, fun idle => ⟨?_, fun pending => ?_⟩⟩
  · have conserved := sound.conserved
    rw [idle] at conserved
    exact conserved.trans (List.append_nil _)
  · rcases sound.live with on | empty | busy
    · exact on
    · exact absurd empty pending
    · exact absurd idle busy

/-- A bulk write behind which the two ways of writing still agree has left a slot. -/
theorem Sound.leavesSlot (sound : Sound port system) {step : Step}
    (faithful : Faithful port (system.step port step)) : LeavesSlot port system step := by
  cases step with
  | writeByte c => trivial
  | proceed => trivial
  | transmit => trivial
  | writeBulk data =>
    intro idle
    have inside := sound.inside
    have bound := inside.count_lt
    have agree := faithful.1
    rw [System.step, idle] at agree
    dsimp only at agree
    rw [if_neg (by rw [inside.txspace]; omega)] at agree
    dsimp only at agree
    rw [Bool.and_eq_true, decide_eq_true_eq] at agree
    exact (accepted_agree_iff port data inside).mp agree.2

/-- In every state of a run the queue is faithful, exactly if every bulk write of the run has less
bytes than `txspace` says when it starts. -/
theorem faithful_iff_leavesSlot (port : Port) (bytes : Image) (steps : List Step) :
    (∀ count, Faithful port
        (runCalls (System.step port) (System.opened bytes) (steps.take count))) ↔
      Along (System.step port) (fun _ => True) (LeavesSlot port) (System.opened bytes) steps :=
  along_iff_of_exact (Sound port) (fun _ _ _ sound fair => sound.step fair)
    (fun _ sound => sound.faithful) (fun _ _ sound faithful => sound.leavesSlot faithful)
    (opened_sound port bytes)

/-- A port with a buffer of four bytes. -/
def smallPort : Port := ⟨2, by decide, by decide⟩

/-- A bulk write of as many bytes as `txspace` says. -/
def overfull : List Step :=
  [.writeBulk [1, 2, 3, 4], .proceed, .proceed, .proceed, .proceed]

/-- All four bytes are accepted, and none of them is in the queue. -/
theorem not_faithful_overfull :
    (runCalls (System.step smallPort) (System.opened fun _ => 0) overfull).accepted =
        [1, 2, 3, 4] ∧
      (runCalls (System.step smallPort) (System.opened fun _ => 0) overfull).buffer.queue
        smallPort = [] ∧
      ¬ Faithful smallPort
        (runCalls (System.step smallPort) (System.opened fun _ => 0) overfull) := by
  refine ⟨by decide +kernel, by decide +kernel, fun faithful => ?_⟩
  have agree := faithful.1
  revert agree
  decide +kernel

end Urus.AvrUart
