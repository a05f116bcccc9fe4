/-
This file models how texts are sent over the FrSky link. They wait in a ring with room for five, and
the first one is sent in chunks of four characters. Each chunk is sent four times, and the last one
has the severity in the top bits of three of its bytes.

How many characters have been sent is kept outside the ring. When the ring is full and takes another
text, it gives up its first one: if that was half sent, the rest of the next text is sent in its
place. As long as this does not happen, the chunks on the link are those of whole texts.
-/

import Mathlib.Data.List.GetD
import Urus.Lib.Trace
import Urus.RingBuffer.ObjectArray

namespace Urus.Frsky

open RingBuffer

/-! ### The code -/

/-- The bytes of `text` in `mavlink_statustext_t`. -/
def textSize : ℕ := 50

/-- `FRSKY_TELEM_PAYLOAD_STATUS_CAPACITY`. -/
def statusCapacity : ℕ := 5

/-- `mavlink_statustext_t`, with all bytes of the text. -/
structure Statustext where
  severity : ℕ
  text : List ℕ
  deriving DecidableEq

/-- `_msg_chunk`. -/
structure MsgChunk where
  chunk : ℕ
  repeats : ℕ
  charIndex : ℕ
  deriving DecidableEq

/-- The variables of `AP_Frsky_Telem` that have to do with texts. -/
structure Texts where
  queue : ObjectArray Statustext statusCapacity
  msgChunk : MsgChunk

/-- `strncpy`, from a text without the zero behind it. -/
def strncpy (text : List ℕ) (size : ℕ) : List ℕ :=
  text.take size ++ List.replicate (size - text.length) 0

/-- `queue_message`. -/
def Texts.queueMessage (texts : Texts) (severity : ℕ) (text : List ℕ) : Texts :=
  { texts with queue := (texts.queue.pushForce ⟨severity, strncpy text textSize⟩).2 }

/-- The loop that puts characters in the chunk, with how many there is still room for. It ends with
the character that was read last. -/
def fillLoop (text : List ℕ) : ℕ → MsgChunk → ℕ → MsgChunk × ℕ
  | 0, msgChunk, character => (msgChunk, character)
  | i + 1, msgChunk, character =>
    if msgChunk.charIndex < textSize then
      let character := text.getD msgChunk.charIndex 0
      let msgChunk := { msgChunk with charIndex := msgChunk.charIndex + 1 }
      if character = 0 then (msgChunk, character)
      else fillLoop text i { msgChunk with chunk := msgChunk.chunk ||| character <<< (i * 8) } character
    else (msgChunk, character)

/-- What `get_next_msg_chunk` does for a chunk that has not been sent yet. -/
def fillChunk (first : Statustext) (msgChunk : MsgChunk) : MsgChunk :=
  let (msgChunk, character) := fillLoop first.text 4 { msgChunk with chunk := 0 } 0
  if character = 0 ∨ msgChunk.charIndex = textSize then
    { msgChunk with
      charIndex := 0
      chunk := msgChunk.chunk ||| (first.severity &&& 0x4) <<< 21
        ||| (first.severity &&& 0x2) <<< 14 ||| (first.severity &&& 0x1) <<< 7 }
  else msgChunk

/-- `get_next_msg_chunk`. -/
def Texts.getNextMsgChunk (texts : Texts) : Bool × Texts :=
  match texts.queue.get 0 with
  | none => (false, texts)
  | some first =>
    let msgChunk := if texts.msgChunk.repeats = 0 then fillChunk first texts.msgChunk
      else texts.msgChunk
    if msgChunk.repeats > 2 then
      let msgChunk := { msgChunk with repeats := 0 }
      (true,
        { msgChunk := msgChunk
          queue := if msgChunk.charIndex = 0 then (texts.queue.remove 0).2 else texts.queue })
    else (true, { texts with msgChunk := { msgChunk with repeats := msgChunk.repeats + 1 } })

/-! ### The messages -/

/-- A text that can be queued: at most 50 characters of 7 bits, none of them zero. -/
structure Message where
  severity : ℕ
  text : List ℕ
  severe : severity < 8
  short : text.length ≤ textSize
  plain : ∀ character ∈ text, 0 < character ∧ character < 128

/-- What the ring holds for a message. -/
def Message.stored (message : Message) : Statustext :=
  ⟨message.severity, strncpy message.text textSize⟩

/-- Up to as many characters as there is room for, the first one on top. -/
def packed : ℕ → List ℕ → ℕ
  | i + 1, character :: characters => character <<< (i * 8) ||| packed i characters
  | _, _ => 0

/-- The bits of the severity, each on top of another byte. -/
def severityBits (severity : ℕ) : ℕ :=
  (severity &&& 0x4) <<< 21 ||| (severity &&& 0x2) <<< 14 ||| (severity &&& 0x1) <<< 7

/-- One of the chunks of a message. -/
def Message.chunk (message : Message) (k : ℕ) : ℕ :=
  packed 4 (message.text.drop (4 * k)) |||
    if k = message.text.length / 4 then severityBits message.severity else 0

/-- All the chunks of a message. There is always one that is not full. -/
def Message.chunks (message : Message) : List ℕ :=
  (List.range (message.text.length / 4 + 1)).map message.chunk

/-- A call on the link. -/
inductive TextCall
  | queueMessage (message : Message)
  | getNextMsgChunk

/-- The link: what was queued and which chunks were sent. -/
structure TextLink where
  texts : Texts
  queued : List Message
  sent : List ℕ

/-- Every chunk that is there is sent. -/
def TextLink.call (link : TextLink) : TextCall → TextLink
  | .queueMessage message =>
    { link with
      texts := link.texts.queueMessage message.severity message.text
      queued := link.queued ++ [message] }
  | .getNextMsgChunk =>
    let (available, texts) := link.texts.getNextMsgChunk
    { link with
      texts := texts
      sent := if available then link.sent ++ [texts.msgChunk.chunk] else link.sent }

/-- Nothing has been queued or sent yet. -/
def TextLink.opened (buffer : ℕ → Statustext) : TextLink :=
  ⟨⟨ObjectArray.new statusCapacity (by decide) buffer, ⟨0, 0, 0⟩⟩, [], []⟩

/-- Each chunk four times. -/
def repeated (chunks : List ℕ) : List ℕ := chunks.flatMap (List.replicate 4)

/-- The characters of a chunk, up to the first that is zero. -/
def chunkCharacters (chunk : ℕ) : List ℕ :=
  ([3, 2, 1, 0].map fun i => chunk >>> (i * 8) &&& 0x7F).takeWhile (· ≠ 0)

/-- The severity that a chunk has room for. -/
def chunkSeverity (chunk : ℕ) : ℕ :=
  (chunk >>> 21 &&& 0x4) ||| (chunk >>> 14 &&& 0x2) ||| (chunk >>> 7 &&& 0x1)

/-- What a receiver makes of chunks, with the part of a text that is there already. A chunk that is
not full ends the text. -/
def reassemble : List ℕ → List ℕ → List (ℕ × List ℕ)
  | _, [] => []
  | text, chunk :: chunks =>
    let text := text ++ chunkCharacters chunk
    if (chunkCharacters chunk).length < 4 then (chunkSeverity chunk, text) :: reassemble [] chunks
    else reassemble text chunks

/-- The chunks that were sent are those of whole messages, each of them four times, up to what is
still to come of the last message. The messages are among those that were queued, in their order,
and can be read from their chunks. -/
def Reassembles (link : TextLink) : Prop :=
  ∃ started : List Message, started.Sublist link.queued ∧
    link.sent <+: repeated (started.flatMap Message.chunks) ∧
    reassemble [] (started.flatMap Message.chunks) =
      started.map fun message => (message.severity, message.text)

/-- No text that is half sent is given up. -/
def KeepsFirst (link : TextLink) : TextCall → Prop
  | .queueMessage _ =>
    ¬ (link.texts.queue.count = statusCapacity ∧ link.texts.msgChunk.charIndex ≠ 0)
  | .getNextMsgChunk => True

/-! ### A chunk is filled -/

@[simp] theorem packed_none (characters : List ℕ) : packed 0 characters = 0 := by
  cases characters <;> rfl

@[simp] theorem packed_nil (i : ℕ) : packed i [] = 0 := by
  cases i <;> rfl

section Filling

variable (message : Message)

theorem stored_character (p : ℕ) :
    message.stored.text.getD p 0 = message.text.getD p 0 := by
  rw [Message.stored, strncpy, List.take_of_length_le message.short]
  by_cases inside : p < message.text.length
  · rw [List.getD_append _ _ _ _ inside]
  · rw [List.getD_append_right _ _ _ _ (not_lt.mp inside), List.getD_eq_getElem?_getD,
      List.getElem?_getD_replicate_default_eq,
      List.getD_eq_default _ _ (not_lt.mp inside)]

/-- A character that is not zero is read as long as there is one left. -/
theorem character_pos {p : ℕ} (inside : p < message.text.length) : message.text.getD p 0 ≠ 0 := by
  rw [List.getD_eq_getElem _ _ inside]
  exact (message.plain _ (List.getElem_mem inside)).1.ne'

theorem packed_drop {p : ℕ} (inside : p < message.text.length) (i : ℕ) :
    packed (i + 1) (message.text.drop p) =
      message.text.getD p 0 <<< (i * 8) ||| packed i (message.text.drop (p + 1)) := by
  rw [List.drop_eq_getElem_cons inside, packed, List.getD_eq_getElem _ _ inside]

/-- As long as there are enough characters, the chunk gets full. -/
theorem fillLoop_full (i : ℕ) (msgChunk : MsgChunk) (character : ℕ)
    (enough : msgChunk.charIndex + i ≤ message.text.length) (read : i = 0 → character ≠ 0) :
    (fillLoop message.stored.text i msgChunk character).1 =
        { msgChunk with
          chunk := msgChunk.chunk ||| packed i (message.text.drop msgChunk.charIndex)
          charIndex := msgChunk.charIndex + i } ∧
      (fillLoop message.stored.text i msgChunk character).2 ≠ 0 := by
  induction i generalizing msgChunk character with
  | zero =>
    rw [packed_none, Nat.or_zero]
    exact ⟨rfl, read rfl⟩
  | succ i inductionHypothesis =>
    have inside : msgChunk.charIndex < message.text.length := by omega
    have fits := message.short
    have next := character_pos message inside
    rw [fillLoop, if_pos (by omega), stored_character, if_neg next, packed_drop message inside,
      ← Nat.or_assoc]
    obtain ⟨filled, last⟩ := inductionHypothesis
      { msgChunk with
        chunk := msgChunk.chunk ||| message.text.getD msgChunk.charIndex 0 <<< (i * 8)
        charIndex := msgChunk.charIndex + 1 }
      (message.text.getD msgChunk.charIndex 0) (by simp only; omega) fun _ => next
    rw [filled, Nat.add_right_comm]
    exact ⟨rfl, last⟩

theorem fillLoop_end (i : ℕ) (msgChunk : MsgChunk) (character : ℕ)
    (inside : msgChunk.charIndex ≤ message.text.length)
    (few : message.text.length < msgChunk.charIndex + i) :
    let filled := fillLoop message.stored.text i msgChunk character
    filled.1.chunk = msgChunk.chunk ||| packed i (message.text.drop msgChunk.charIndex) ∧
      filled.1.repeats = msgChunk.repeats ∧ (filled.2 = 0 ∨ filled.1.charIndex = textSize) := by
  induction i generalizing msgChunk character with
  | zero => omega
  | succ i inductionHypothesis =>
    have fits := message.short
    rw [fillLoop]
    rcases inside.lt_or_eq with more | all
    · rw [if_pos (by omega), stored_character, if_neg (character_pos message more),
        packed_drop message more, ← Nat.or_assoc]
      exact inductionHypothesis
        { msgChunk with
          chunk := msgChunk.chunk ||| message.text.getD msgChunk.charIndex 0 <<< (i * 8)
          charIndex := msgChunk.charIndex + 1 } _ more (by simp only; omega)
    · have none : message.text.drop msgChunk.charIndex = [] := by rw [all, List.drop_length]
      have zero : message.text.getD msgChunk.charIndex 0 = 0 :=
        List.getD_eq_default _ _ all.ge
      rw [none, packed_nil, Nat.or_zero, stored_character, zero]
      split
      · exact ⟨rfl, rfl, Or.inl rfl⟩
      · exact ⟨rfl, rfl, Or.inr (by simp only; omega)⟩

/-- Filling takes the next chunk of the message, and goes back to the start behind the last one. -/
theorem fillChunk_eq {k : ℕ} (listed : k ≤ message.text.length / 4) (repeats chunk : ℕ) :
    fillChunk message.stored ⟨chunk, repeats, 4 * k⟩ =
      ⟨message.chunk k, repeats, if k = message.text.length / 4 then 0 else 4 * (k + 1)⟩ := by
  have fits := message.short
  have start : 4 * k ≤ message.text.length := by omega
  rw [fillChunk, Message.chunk]
  by_cases last : k = message.text.length / 4
  · obtain ⟨taken, kept, ended⟩ := fillLoop_end message 4 ⟨0, repeats, 4 * k⟩ 0 start
      (by simp only; omega)
    rw [if_pos last, if_pos last, severityBits]
    simp only at taken kept ended ⊢
    rw [if_pos ended, taken, kept, Nat.zero_or, Message.stored]
    simp only [Nat.or_assoc]
  · have enough : 4 * k + 4 ≤ message.text.length := by omega
    obtain ⟨filled, read⟩ := fillLoop_full message 4 ⟨0, repeats, 4 * k⟩ 0 enough
      (fun none => absurd none (by decide))
    have onward : ¬ 4 * k + 4 = textSize := by
      rw [textSize]
      omega
    rw [if_neg last, if_neg last]
    simp only at filled read ⊢
    rw [filled, if_neg (not_or.mpr ⟨read, onward⟩), Nat.zero_or, Nat.or_zero]
    rfl

theorem chunks_drop {k : ℕ} (listed : k ≤ message.text.length / 4) :
    message.chunks.drop k = message.chunk k :: message.chunks.drop (k + 1) := by
  have inside : k < message.chunks.length := by
    rw [Message.chunks, List.length_map, List.length_range]
    exact Nat.lt_succ_of_le listed
  rw [List.drop_eq_getElem_cons inside]
  simp only [Message.chunks, List.getElem_map, List.getElem_range]

theorem chunks_drop_last : message.chunks.drop (message.text.length / 4 + 1) = [] := by
  refine List.drop_of_length_le ?_
  rw [Message.chunks, List.length_map, List.length_range]

end Filling

/-! ### A message is read from its chunks -/

section Reading

variable {characters : List ℕ}

/-- What is not in a character at any place is not in a chunk. -/
theorem packed_mask {shift mask : ℕ}
    (each : ∀ character < 128, ∀ i < 4, character <<< (i * 8) >>> shift &&& mask = 0) {i : ℕ}
    (few : i ≤ 4) (plain : ∀ character ∈ characters, character < 128) :
    packed i characters >>> shift &&& mask = 0 := by
  induction i generalizing characters with
  | zero => rw [packed_none, Nat.zero_shiftRight, Nat.zero_and]
  | succ i inductionHypothesis =>
    cases characters with
    | nil => rw [packed_nil, Nat.zero_shiftRight, Nat.zero_and]
    | cons character characters =>
      obtain ⟨small, others⟩ := List.forall_mem_cons.mp plain
      rw [packed, Nat.shiftRight_or_distrib, Nat.and_or_distrib_right,
        each character small i few, inductionHypothesis (Nat.le_of_succ_le few) others,
        Nat.zero_or]

theorem field_character : ∀ character < 128, ∀ i < 4, ∀ j < 4,
    character <<< (i * 8) >>> (j * 8) &&& 0x7F = if i = j then character else 0 := by
  decide +kernel

/-- Each character has a place of its own in the chunk. -/
theorem field_packed {i j : ℕ} (few : i ≤ 4) (inside : j < 4)
    (plain : ∀ character ∈ characters, character < 128) :
    packed i characters >>> (j * 8) &&& 0x7F =
      if j < i then characters.getD (i - 1 - j) 0 else 0 := by
  induction i generalizing characters with
  | zero =>
    rw [packed_none, Nat.zero_shiftRight, Nat.zero_and, if_neg (Nat.not_lt_zero j)]
  | succ i inductionHypothesis =>
    cases characters with
    | nil => rw [packed_nil, Nat.zero_shiftRight, Nat.zero_and, List.getD_nil, ite_self]
    | cons character characters =>
      obtain ⟨small, others⟩ := List.forall_mem_cons.mp plain
      rw [packed, Nat.shiftRight_or_distrib, Nat.and_or_distrib_right,
        field_character character small i few j inside,
        inductionHypothesis (Nat.le_of_succ_le few) others]
      rcases lt_trichotomy j i with later | here | before
      · have place : i + 1 - 1 - j = i - 1 - j + 1 := by omega
        rw [if_neg later.ne', Nat.zero_or, if_pos later, if_pos (Nat.lt_succ_of_lt later), place,
          List.getD_cons_succ]
      · rw [if_pos here.symm, if_neg here.not_lt, if_pos (here ▸ Nat.lt_succ_self j), here,
          Nat.add_sub_cancel, Nat.sub_self, List.getD_cons_zero, Nat.or_zero]
      · rw [if_neg before.ne, if_neg before.not_gt, if_neg (by omega), Nat.zero_or]

theorem severityBits_field : ∀ severity < 8, ∀ i < 4,
    severityBits severity >>> (i * 8) &&& 0x7F = 0 := by
  decide

theorem chunkSeverity_bits : ∀ severity < 8, chunkSeverity (severityBits severity) = severity := by
  decide

/-- What is there of four characters is what comes before the first zero. -/
theorem takeWhile_getD (nonzero : ∀ character ∈ characters, character ≠ 0) :
    ([0, 1, 2, 3].map fun i => characters.getD i 0).takeWhile (· ≠ 0) = characters.take 4 := by
  match characters with
  | [] => rfl
  | [first] =>
    simp only [List.forall_mem_cons] at nonzero
    simp [nonzero]
  | [first, second] =>
    simp only [List.forall_mem_cons] at nonzero
    simp [nonzero]
  | [first, second, third] =>
    simp only [List.forall_mem_cons] at nonzero
    simp [nonzero]
  | first :: second :: third :: fourth :: rest =>
    simp only [List.forall_mem_cons] at nonzero
    simp [nonzero]

/-- The characters are read back. -/
theorem chunkCharacters_packed {characters : List ℕ} {severity : ℕ}
    (plain : ∀ character ∈ characters, 0 < character ∧ character < 128) (severe : severity < 8) :
    chunkCharacters (packed 4 characters ||| severityBits severity) = characters.take 4 := by
  have field : ∀ i < 4, (packed 4 characters ||| severityBits severity) >>> (i * 8) &&& 0x7F =
      characters.getD (4 - 1 - i) 0 := by
    intro i inside
    rw [Nat.shiftRight_or_distrib, Nat.and_or_distrib_right,
      severityBits_field severity severe i inside, Nat.or_zero,
      field_packed le_rfl inside fun character member => (plain character member).2, if_pos inside]
  rw [← takeWhile_getD fun character member => (plain character member).1.ne', chunkCharacters]
  simp only [List.map_cons, List.map_nil, field 3 (by decide), field 2 (by decide),
    field 1 (by decide), field 0 (by decide)]

/-- The severity is read back. -/
theorem chunkSeverity_packed {severity : ℕ} (plain : ∀ character ∈ characters, character < 128)
    (severe : severity < 8) :
    chunkSeverity (packed 4 characters ||| severityBits severity) = severity := by
  have high : packed 4 characters >>> 21 &&& 0x4 = 0 := packed_mask (by decide +kernel) le_rfl plain
  have middle : packed 4 characters >>> 14 &&& 0x2 = 0 :=
    packed_mask (by decide +kernel) le_rfl plain
  have low : packed 4 characters >>> 7 &&& 0x1 = 0 := packed_mask (by decide +kernel) le_rfl plain
  have alone := chunkSeverity_bits severity severe
  rw [chunkSeverity] at alone ⊢
  simp only [Nat.shiftRight_or_distrib, Nat.and_or_distrib_right, high, middle, low, Nat.zero_or]
  exact alone

variable (message : Message)

theorem drop_plain (p : ℕ) :
    ∀ character ∈ message.text.drop p, 0 < character ∧ character < 128 :=
  fun character member => message.plain character (List.mem_of_mem_drop member)

theorem chunk_characters (k : ℕ) :
    chunkCharacters (message.chunk k) = (message.text.drop (4 * k)).take 4 := by
  rw [Message.chunk]
  split
  · exact chunkCharacters_packed (drop_plain message _) message.severe
  · exact @chunkCharacters_packed _ 0 (drop_plain message _) (by decide)

theorem reassemble_drop {k : ℕ} (listed : k ≤ message.text.length / 4) (rest : List ℕ) :
    reassemble (message.text.take (4 * k)) (message.chunks.drop k ++ rest) =
      (message.severity, message.text) :: reassemble [] rest := by
  induction distance : message.text.length / 4 - k generalizing k with
  | zero =>
    have last : k = message.text.length / 4 :=
      le_antisymm listed (Nat.sub_eq_zero_iff_le.mp distance)
    have few : (message.text.drop (4 * k)).length < 4 := by
      rw [List.length_drop]
      omega
    have severity : chunkSeverity (message.chunk k) = message.severity := by
      rw [Message.chunk, if_pos last]
      exact chunkSeverity_packed (fun character member => (drop_plain message _ character member).2)
        message.severe
    rw [chunks_drop message listed, last, chunks_drop_last, ← last, List.cons_append, reassemble,
      chunk_characters, List.take_of_length_le few.le, List.take_append_drop, if_pos few, severity,
      List.nil_append]
  | succ remaining inductionHypothesis =>
    have full : ((message.text.drop (4 * k)).take 4).length = 4 := by
      rw [List.length_take, List.length_drop]
      omega
    rw [chunks_drop message listed, List.cons_append, reassemble, chunk_characters, full,
      if_neg (lt_irrefl 4), ← List.take_add, ← Nat.mul_succ]
    exact @inductionHypothesis (k + 1) (by omega) (by omega)

/-- Whole messages are read back. -/
theorem reassemble_messages (messages : List Message) :
    reassemble [] (messages.flatMap Message.chunks) =
      messages.map fun message => (message.severity, message.text) := by
  induction messages with
  | nil => rfl
  | cons message messages inductionHypothesis =>
    rw [List.flatMap_cons, List.map_cons, ← inductionHypothesis]
    exact reassemble_drop message (Nat.zero_le _) _

end Reading

instance decidableKeepsFirst (link : TextLink) (call : TextCall) : Decidable (KeepsFirst link call) :=
  match call with
  | .queueMessage _ => inferInstanceAs (Decidable (¬ (_ ∧ _)))
  | .getNextMsgChunk => inferInstanceAs (Decidable True)

/-! ### The order on the link -/

/-- Where the link is: which messages wait behind the one that is sent, and which chunks of that have
not been made yet. -/
inductive Position (texts : Texts) : List Message → List ℕ → Prop
  | idle (waiting : List Message) (listed : texts.queue.items = waiting.map Message.stored)
      (index : texts.msgChunk.charIndex = 0) (fresh : texts.msgChunk.repeats = 0) :
      Position texts waiting []
  | within (message : Message) (waiting : List Message) (k : ℕ)
      (listed : texts.queue.items = message.stored :: waiting.map Message.stored)
      (inside : k + 1 ≤ message.text.length / 4)
      (index : texts.msgChunk.charIndex = 4 * (k + 1)) :
      Position texts waiting (message.chunks.drop (k + 1))
  | last (first : Statustext) (waiting : List Message)
      (listed : texts.queue.items = first :: waiting.map Message.stored)
      (index : texts.msgChunk.charIndex = 0) (again : texts.msgChunk.repeats ≠ 0) :
      Position texts waiting []

/-- The chunks that will be sent before the next message is begun. -/
def Texts.owed (texts : Texts) (later : List ℕ) : List ℕ :=
  (if texts.msgChunk.repeats = 0 then []
    else List.replicate (4 - texts.msgChunk.repeats) texts.msgChunk.chunk) ++ repeated later

/-- What was sent and what is owed are the messages that were started, and the others wait. -/
def Orderly (link : TextLink) : Prop :=
  ∃ (started waiting : List Message) (later : List ℕ),
    (started ++ waiting).Sublist link.queued ∧ Position link.texts waiting later ∧
      link.texts.msgChunk.repeats ≤ 3 ∧
      link.sent ++ link.texts.owed later = repeated (started.flatMap Message.chunks)

theorem opened_orderly (buffer : ℕ → Statustext) : Orderly (TextLink.opened buffer) :=
  ⟨[], [], [], List.Sublist.refl _, .idle [] (ObjectArray.new_items _ _) rfl rfl, Nat.zero_le _, rfl⟩

theorem Orderly.reassembles {link : TextLink} (orderly : Orderly link) : Reassembles link := by
  obtain ⟨started, waiting, later, among, -, -, whole⟩ := orderly
  exact ⟨started, (List.sublist_append_left _ _).trans among, ⟨_, whole⟩, reassemble_messages started⟩

/-! ### One call -/

section Call

variable {link : TextLink} {started waiting : List Message} {message : Message}

theorem call_sent {texts : Texts} (next : link.texts.getNextMsgChunk = (true, texts)) :
    link.call .getNextMsgChunk = ⟨texts, link.queued, link.sent ++ [texts.msgChunk.chunk]⟩ := by
  rw [TextLink.call, next]
  rfl

theorem getNextMsgChunk_none (empty : link.texts.queue.items = []) :
    link.texts.getNextMsgChunk = (false, link.texts) := by
  rw [Texts.getNextMsgChunk, ObjectArray.get_eq, empty]
  rfl

variable {first : Statustext} {rest : List Statustext}

theorem getNextMsgChunk_again (listed : link.texts.queue.items = first :: rest)
    (again : link.texts.msgChunk.repeats ≠ 0) :
    link.texts.getNextMsgChunk =
      if link.texts.msgChunk.repeats > 2 then
        (true,
          ⟨if link.texts.msgChunk.charIndex = 0 then (link.texts.queue.remove 0).2
            else link.texts.queue, { link.texts.msgChunk with repeats := 0 }⟩)
      else
        (true,
          ⟨link.texts.queue,
            { link.texts.msgChunk with repeats := link.texts.msgChunk.repeats + 1 }⟩) := by
  rw [Texts.getNextMsgChunk, ObjectArray.get_eq, listed, List.getElem?_cons_zero]
  simp only
  rw [if_neg again]

/-- A chunk is made and sent for the first time. -/
theorem call_fresh {k : ℕ}
    (listed : link.texts.queue.items = message.stored :: waiting.map Message.stored)
    (inside : k ≤ message.text.length / 4) (index : link.texts.msgChunk.charIndex = 4 * k)
    (fresh : link.texts.msgChunk.repeats = 0) (among : (started ++ waiting).Sublist link.queued)
    (whole : link.sent ++ repeated (message.chunks.drop k) =
      repeated (started.flatMap Message.chunks)) :
    Orderly (link.call .getNextMsgChunk) := by
  have filled : fillChunk message.stored link.texts.msgChunk =
      ⟨message.chunk k, 0, if k = message.text.length / 4 then 0 else 4 * (k + 1)⟩ := by
    rw [← fillChunk_eq message inside 0 link.texts.msgChunk.chunk, ← fresh, ← index]
  have next : link.texts.getNextMsgChunk =
      (true, ⟨link.texts.queue, message.chunk k, 1,
        if k = message.text.length / 4 then 0 else 4 * (k + 1)⟩) := by
    rw [Texts.getNextMsgChunk, ObjectArray.get_eq, listed, List.getElem?_cons_zero]
    simp only
    rw [if_pos fresh, filled]
    rfl
  rw [call_sent next]
  refine ⟨started, waiting, message.chunks.drop (k + 1), among, ?_, Nat.one_le_ofNat, ?_⟩
  · by_cases last : k = message.text.length / 4
    · rw [if_pos last, last, chunks_drop_last]
      exact .last _ _ listed rfl one_ne_zero
    · rw [if_neg last]
      exact .within message waiting k listed (by omega) rfl
  · rw [chunks_drop message inside] at whole
    rw [← whole]
    simp [Texts.owed, repeated, List.replicate_succ]

theorem call_again {later : List ℕ} (listed : link.texts.queue.items = first :: rest)
    (position : Position link.texts waiting later) (again : link.texts.msgChunk.repeats ≠ 0)
    (few : link.texts.msgChunk.repeats ≤ 3) (among : (started ++ waiting).Sublist link.queued)
    (whole : link.sent ++ link.texts.owed later = repeated (started.flatMap Message.chunks)) :
    Orderly (link.call .getNextMsgChunk) := by
  rw [Texts.owed, if_neg again] at whole
  have next := getNextMsgChunk_again listed again
  by_cases done : link.texts.msgChunk.repeats > 2
  · -- this was the fourth time
    have fourth : link.texts.msgChunk.repeats = 3 := le_antisymm few done
    rw [fourth, List.replicate_one] at whole
    rw [call_sent (next.trans (if_pos done))]
    refine ⟨started, waiting, later, among, ?_, Nat.zero_le _, ?_⟩
    · cases position with
      | idle waiting listed index fresh => exact absurd fresh again
      | within message waiting k listed inside index =>
        have within : link.texts.msgChunk.charIndex ≠ 0 := by omega
        refine .within message waiting k ?_ inside index
        exact Eq.trans (congrArg ObjectArray.items (if_neg within)) listed
      | last first waiting listed index _ =>
        refine .idle waiting ?_ index rfl
        refine Eq.trans (congrArg ObjectArray.items (if_pos index)) ?_
        rw [ObjectArray.remove_items, listed]
        rfl
    · rw [← whole, ← List.append_assoc]
      rfl
  · rw [call_sent (next.trans (if_neg done))]
    refine ⟨started, waiting, later, among, ?_, Nat.succ_le_of_lt (by omega), ?_⟩
    · cases position with
      | idle waiting listed index fresh => exact absurd fresh again
      | within message waiting k listed inside index =>
        exact .within message waiting k listed inside index
      | last first waiting listed index _ =>
        exact .last first waiting listed index (Nat.succ_ne_zero _)
    · have more : 4 - link.texts.msgChunk.repeats = 4 - (link.texts.msgChunk.repeats + 1) + 1 := by
        omega
      rw [← whole, more, List.replicate_succ, Texts.owed, if_neg (Nat.succ_ne_zero _)]
      simp

theorem call_queue (added : Message) (orderly : Orderly link)
    (keeps : KeepsFirst link (.queueMessage added)) :
    Orderly (link.call (.queueMessage added)) := by
  obtain ⟨started, waiting, later, among, position, few, whole⟩ := orderly
  have queue := link.texts.queue.pushForce_items added.stored
  rw [ObjectArray.items_length] at queue
  have more : ((started ++ waiting) ++ [added]).Sublist (link.queued ++ [added]) :=
    among.append (List.Sublist.refl _)
  rw [List.append_assoc] at more
  -- the first one of those that wait may have to go
  have fewer : ((started ++ waiting.tail) ++ [added]).Sublist (link.queued ++ [added]) :=
    (((List.Sublist.refl started).append (List.tail_sublist waiting)).trans among).append
      (List.Sublist.refl _)
  rw [List.append_assoc] at fewer
  rw [TextLink.call]
  cases position with
  | idle waiting listed index fresh =>
    rw [listed] at queue
    split at queue
    · refine ⟨started, waiting.tail ++ [added], [], fewer, .idle _ ?_ index fresh, few, whole⟩
      rw [List.map_append, List.map_tail]
      exact queue
    · refine ⟨started, waiting ++ [added], [], more, .idle _ ?_ index fresh, few, whole⟩
      rw [List.map_append]
      exact queue
  | within message waiting k listed inside index =>
    have room : link.texts.queue.count ≠ statusCapacity := by
      intro full
      exact keeps ⟨full, by omega⟩
    rw [if_neg room, listed] at queue
    refine ⟨started, waiting ++ [added], _, more, .within message _ k ?_ inside index, few, whole⟩
    rw [List.map_append]
    exact queue
  | last first waiting listed index again =>
    rw [listed] at queue
    split at queue
    · rename_i full
      cases waiting with
      | nil =>
        rw [← ObjectArray.items_length, listed] at full
        exact absurd full (by rw [List.map_nil, List.length_singleton]; decide)
      | cons second waiting =>
        refine ⟨started, waiting ++ [added], [], fewer, .last second.stored _ ?_ index again, few, whole⟩
        rw [List.map_append]
        exact queue
    · refine ⟨started, waiting ++ [added], [], more, .last first _ ?_ index again, few, whole⟩
      rw [List.map_append]
      exact queue

theorem call_orderly (call : TextCall) (orderly : Orderly link) (keeps : KeepsFirst link call) :
    Orderly (link.call call) := by
  cases call with
  | queueMessage added => exact call_queue added orderly keeps
  | getNextMsgChunk =>
    obtain ⟨started, waiting, later, among, position, few, whole⟩ := orderly
    cases position with
    | idle waiting listed index fresh =>
      cases waiting with
      | nil =>
        rw [TextLink.call, getNextMsgChunk_none listed]
        exact ⟨started, [], [], among, .idle [] listed index fresh, few, whole⟩
      | cons message waiting =>
        rw [← List.singleton_append, ← List.append_assoc] at among
        refine call_fresh listed (Nat.zero_le _) index fresh among ?_
        rw [Texts.owed, if_pos fresh] at whole
        have all : link.sent = repeated (started.flatMap Message.chunks) := by
          rw [← whole]
          exact (List.append_nil _).symm
        rw [List.drop_zero, all, List.flatMap_append, List.flatMap_singleton, repeated, repeated,
          repeated, List.flatMap_append]
    | within message waiting k listed inside index =>
      by_cases fresh : link.texts.msgChunk.repeats = 0
      · rw [Texts.owed, if_pos fresh] at whole
        exact call_fresh listed inside index fresh among whole
      · exact call_again listed (.within message waiting k listed inside index) fresh few among whole
    | last first waiting listed index again =>
      exact call_again listed (.last first waiting listed index again) again few among whole

end Call

/-! ### Runs -/

/-- As long as no text that is half sent is given up, the chunks on the link are those of whole
messages. -/
theorem run_reassembles (buffer : ℕ → Statustext) (calls : List TextCall)
    (keeps : Along TextLink.call (fun _ => True) KeepsFirst (TextLink.opened buffer) calls) :
    Reassembles (runCalls TextLink.call (TextLink.opened buffer) calls) := by
  have orderly : Orderly (runCalls TextLink.call (TextLink.opened buffer) calls) :=
    keeps.invariant (fun _ call => call_orderly call) (opened_orderly buffer)
  exact orderly.reassembles

/-- Texts of eight characters, each of one character only. -/
def eight (character : ℕ) (plain : 0 < character ∧ character < 128) : Message where
  severity := 6
  text := List.replicate 8 character
  severe := by decide
  short := by
    rw [List.length_replicate]
    decide
  plain := fun _ member => List.eq_of_mem_replicate member ▸ plain

/-- Five messages are queued, the first chunk of the first one is sent four times, and another message
is queued. The next chunk is made of the second message. -/
def mixedCalls : List TextCall :=
  [eight 97 (by decide), eight 98 (by decide), eight 99 (by decide), eight 100 (by decide),
    eight 101 (by decide)].map .queueMessage ++ List.replicate 4 .getNextMsgChunk ++
    [.queueMessage (eight 102 (by decide)), .getNextMsgChunk]

/-- The rest of a text that is given up is that of another text. -/
theorem mixed_not_reassembled : ¬ ∀ (buffer : ℕ → Statustext) (calls : List TextCall),
    Reassembles (runCalls TextLink.call (TextLink.opened buffer) calls) := by
  intro always
  obtain ⟨started, among, whole, -⟩ := always (fun _ => ⟨0, []⟩) mixedCalls
  have never : ∀ started ∈ (runCalls TextLink.call
      (TextLink.opened fun _ => ⟨0, []⟩) mixedCalls).queued.sublists,
      ¬ (runCalls TextLink.call (TextLink.opened fun _ => ⟨0, []⟩) mixedCalls).sent <+:
        repeated (started.flatMap Message.chunks) := by
    decide +kernel
  exact never started (List.mem_sublists.mpr among) whole

/-- One text is sent, and another one is taken while it is. -/
theorem run_reassembles_two :
    Reassembles (runCalls TextLink.call (TextLink.opened fun _ => ⟨0, []⟩)
      ([.queueMessage (eight 97 (by decide)), .getNextMsgChunk,
        .queueMessage (eight 98 (by decide))] ++ List.replicate 20 .getNextMsgChunk)) :=
  run_reassembles _ _ (by decide +kernel)

end Urus.Frsky
