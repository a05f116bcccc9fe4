/-
This file is about status texts. A text is queued once for all the links that it is for,
with one bit for each of them. A pass over the queue sends every text on the links that
have room, clears their bits, and takes out the texts that have no bit left. A text for
a full queue pushes out the oldest one, so a link that takes nothing holds up the others
only for so long.

What can be sent is the environment's answer: in a pass, the room of a link shrinks by the
texts that are sent, and by nothing else. The numbers of the texts and the log of what was
sent are not in the code.
-/

import Urus.RingBuffer.ObjectArray
import Urus.Lib.Trace

namespace Urus.GcsMavlink.Statustext

open RingBuffer

/-! ### The code -/

/-- `MAVLINK_COMM_NUM_BUFFERS`. -/
def commNumBuffers : ℕ := 5

/-- `MAVLINK_MSG_ID_STATUSTEXT_LEN`. -/
def statustextLen : ℕ := 51

/-- `MAVLINK_MSG_STATUSTEXT_FIELD_TEXT_LEN`. -/
def textLen : ℕ := 50

/-- `mavlink_statustext_t`, with the number of the call that it comes from. -/
structure Msg where
  severity : UInt8
  text : List UInt8
  number : ℕ
  deriving DecidableEq

/-- `statustext_t`. -/
structure StatusText where
  bitmask : UInt8
  msg : Msg

/-- The bit of a channel. -/
def chanBit (i : ℕ) : UInt8 := 1 <<< UInt8.ofNat i

/-- `strncpy` into the text of a message. -/
def copied (text : List UInt8) : List UInt8 :=
  (text.takeWhile (· ≠ 0) ++ List.replicate textLen 0).take textLen

/-- A channel: the room for what is sent, the part of a packet that is not payload, and how much
of the room a message takes. -/
structure Channel where
  txspace : ℕ
  packetOverhead : ℕ
  length : Msg → ℕ

/-- `HAVE_PAYLOAD_SPACE` for a status text. -/
def Channel.havePayloadSpace (channel : Channel) : Prop :=
  channel.txspace ≥ channel.packetOverhead + statustextLen

instance (channel : Channel) : Decidable channel.havePayloadSpace :=
  inferInstanceAs (Decidable (_ ≥ _))

/-- A channel after a message. -/
def Channel.send (channel : Channel) (msg : Msg) : Channel :=
  { channel with txspace := channel.txspace - channel.length msg }

/-- A text in the course of a pass, with the channels, and with what was sent. -/
structure Turn where
  statustext : StatusText
  channels : ℕ → Channel
  sent : List (ℕ × Msg)

/-- The body of the loop over the channels. -/
def Turn.tryChannel (turn : Turn) (i : ℕ) : Turn :=
  if turn.statustext.bitmask &&& chanBit i ≠ 0 ∧ (turn.channels i).havePayloadSpace then {
    statustext := { turn.statustext with bitmask := turn.statustext.bitmask &&& ~~~chanBit i }
    channels := Function.update turn.channels i ((turn.channels i).send turn.statustext.msg)
    sent := turn.sent ++ [(i, turn.statustext.msg)] }
  else turn

/-- The loop over the channels. -/
def tryChannels (statustext : StatusText) (channels : ℕ → Channel) : Turn :=
  (List.range commNumBuffers).foldl Turn.tryChannel ⟨statustext, channels, []⟩

/-- The state of a pass over the queue. -/
structure Pass (capacity : ℕ) where
  queue : ObjectArray StatusText capacity
  channels : ℕ → Channel
  sent : List (ℕ × Msg)

/-- The loop over the queue. An index is left at every turn, or there is one text less. -/
def Pass.loop {capacity : ℕ} : (left idx : ℕ) → Pass capacity → Pass capacity
  | 0, _, pass => pass
  | left + 1, idx, pass =>
    if idx ≥ capacity then pass
    else
      match pass.queue.get idx with
      | none => pass
      | some statustext =>
        let turn := tryChannels statustext pass.channels
        let queue := pass.queue.assign idx turn.statustext
        if turn.statustext.bitmask = 0 then
          loop left idx ⟨(queue.remove idx).2, turn.channels, pass.sent ++ turn.sent⟩
        else loop left (idx + 1) ⟨queue, turn.channels, pass.sent ++ turn.sent⟩

/-- The part of `GCS` that sends status texts, with the number of calls and the log. -/
structure Gcs (capacity : ℕ) where
  statustextQueue : ObjectArray StatusText capacity
  sent : List (ℕ × Msg)
  calls : ℕ

variable {capacity : ℕ}

/-- `service_statustext`. -/
def serviceStatustext (gcs : Gcs capacity) (channels : ℕ → Channel) : Gcs capacity :=
  if gcs.statustextQueue.empty then gcs
  else
    let pass := Pass.loop gcs.statustextQueue.available 0 ⟨gcs.statustextQueue, channels, gcs.sent⟩
    { gcs with statustextQueue := pass.queue, sent := pass.sent }

/-- A call from outside, with the channels of the pass and the masks of the moment. -/
inductive Call
  | sendStatustext (severity destBitmask : UInt8) (text : List UInt8)
    (activeMask streamingMask : UInt8) (channels : ℕ → Channel)
  | serviceStatustext (channels : ℕ → Channel)

/-- `send_statustext`. -/
def sendStatustext (gcs : Gcs capacity) (severity destBitmask : UInt8) (text : List UInt8)
    (activeMask streamingMask : UInt8) (channels : ℕ → Channel) : Gcs capacity :=
  let bitmask := (activeMask ||| streamingMask) &&& destBitmask
  if bitmask = 0 then gcs
  else
    let statustext : StatusText := ⟨bitmask, severity, copied text, gcs.calls⟩
    serviceStatustext
      { gcs with statustextQueue := (gcs.statustextQueue.pushForce statustext).2 } channels

/-- One call. -/
def step (gcs : Gcs capacity) (call : Call) : Gcs capacity :=
  let gcs' := match call with
    | .sendStatustext severity destBitmask text activeMask streamingMask channels =>
      sendStatustext gcs severity destBitmask text activeMask streamingMask channels
    | .serviceStatustext channels => serviceStatustext gcs channels
  { gcs' with calls := gcs.calls + 1 }

/-! ### The pass as one over a list -/

/-- A pass over the texts in the queue: what stays in the queue, and what is sent. -/
def serve : List StatusText → (ℕ → Channel) → List StatusText × List (ℕ × Msg)
  | [], _ => ([], [])
  | statustext :: rest, channels =>
    let turn := tryChannels statustext channels
    let later := serve rest turn.channels
    (if turn.statustext.bitmask = 0 then later.1 else turn.statustext :: later.1,
      turn.sent ++ later.2)

theorem loop_serve (left idx : ℕ) (pass : Pass capacity) (done rest : List StatusText)
    (items : pass.queue.items = done ++ rest) (place : done.length = idx)
    (enough : rest.length ≤ left) :
    (Pass.loop left idx pass).queue.items = done ++ (serve rest pass.channels).1 ∧
      (Pass.loop left idx pass).sent = pass.sent ++ (serve rest pass.channels).2 := by
  induction left generalizing idx pass done rest with
  | zero =>
    obtain rfl : rest = [] := List.length_eq_zero_iff.mp (Nat.le_zero.mp enough)
    exact ⟨items, (List.append_nil _).symm⟩
  | succ left inductionHypothesis =>
    have fits := pass.queue.items_length_le
    rw [items, List.length_append] at fits
    cases rest with
    | nil =>
      have behind : pass.queue.get idx = none := by
        rw [ObjectArray.get_eq, items, List.append_nil, ← place]
        exact List.getElem?_eq_none (le_refl _)
      have stays : Pass.loop (left + 1) idx pass = pass := by
        rw [Pass.loop, behind]
        exact ite_self _
      rw [stays]
      exact ⟨items, (List.append_nil _).symm⟩
    | cons statustext rest =>
      rw [List.length_cons] at fits enough
      have found : pass.queue.get idx = some statustext := by
        rw [ObjectArray.get_eq, items, ← place, List.getElem?_append_right (le_refl _),
          Nat.sub_self, List.getElem?_cons_zero]
      rw [Pass.loop, if_neg (by omega), found, serve]
      dsimp only
      have stored : (pass.queue.assign idx (tryChannels statustext pass.channels).statustext).items =
          done ++ (tryChannels statustext pass.channels).statustext :: rest := by
        rw [ObjectArray.assign_items, items, ← place, List.set_append_right _ _ (le_refl _),
          Nat.sub_self, List.set_cons_zero]
      split
      · obtain ⟨queue, sent⟩ := inductionHypothesis idx
          ⟨((pass.queue.assign idx (tryChannels statustext pass.channels).statustext).remove idx).2,
            (tryChannels statustext pass.channels).channels,
            pass.sent ++ (tryChannels statustext pass.channels).sent⟩
          done rest
          (by
            rw [ObjectArray.remove_items, stored, ← place,
              List.eraseIdx_append_of_length_le (le_refl _), Nat.sub_self, List.eraseIdx_cons_zero])
          place (by omega)
        exact ⟨queue, by rw [sent, List.append_assoc]⟩
      · obtain ⟨queue, sent⟩ := inductionHypothesis (idx + 1)
          ⟨pass.queue.assign idx (tryChannels statustext pass.channels).statustext,
            (tryChannels statustext pass.channels).channels,
            pass.sent ++ (tryChannels statustext pass.channels).sent⟩
          (done ++ [(tryChannels statustext pass.channels).statustext]) rest
          (by rw [stored, List.append_assoc, List.singleton_append])
          (by rw [List.length_append, List.length_singleton, place]) (by omega)
        exact ⟨by rw [queue, List.append_assoc, List.singleton_append],
          by rw [sent, List.append_assoc]⟩

/-! ### What a channel sees of a pass -/

section Channel

variable {channel : ℕ}

/-- What was sent on a channel. -/
def sentOn (channel : ℕ) (sent : List (ℕ × Msg)) : List Msg :=
  (sent.filter fun entry => entry.1 = channel).map Prod.snd

/-- What is still to be sent on a channel. -/
def pendingOn (channel : ℕ) (queue : List StatusText) : List Msg :=
  (queue.filter fun statustext => statustext.bitmask &&& chanBit channel ≠ 0).map StatusText.msg

theorem sentOn_append (first second : List (ℕ × Msg)) :
    sentOn channel (first ++ second) = sentOn channel first ++ sentOn channel second := by
  rw [sentOn, List.filter_append, List.map_append, sentOn, sentOn]

theorem pendingOn_append (first second : List StatusText) :
    pendingOn channel (first ++ second) = pendingOn channel first ++ pendingOn channel second := by
  rw [pendingOn, List.filter_append, List.map_append, pendingOn, pendingOn]

variable {rest : List StatusText} {statustext : StatusText}

theorem pendingOn_cons_of_pos (addressed : statustext.bitmask &&& chanBit channel ≠ 0) :
    pendingOn channel (statustext :: rest) = statustext.msg :: pendingOn channel rest := by
  rw [pendingOn, List.filter_cons_of_pos (by simpa using addressed), List.map_cons, pendingOn]

theorem pendingOn_cons_of_neg (other : statustext.bitmask &&& chanBit channel = 0) :
    pendingOn channel (statustext :: rest) = pendingOn channel rest := by
  rw [pendingOn, List.filter_cons_of_neg (by simpa using other), pendingOn]

theorem clear_self (bitmask : UInt8) : bitmask &&& ~~~chanBit channel &&& chanBit channel = 0 := by
  rw [UInt8.and_assoc, UInt8.not_and_self, UInt8.and_zero]

theorem clear_other {i : ℕ} (inside : channel < commNumBuffers) (otherInside : i < commNumBuffers)
    (other : i ≠ channel) (bitmask : UInt8) :
    bitmask &&& ~~~chanBit i &&& chanBit channel = bitmask &&& chanBit channel := by
  have apart : ∀ i < commNumBuffers, ∀ channel < commNumBuffers, i ≠ channel →
      ~~~chanBit i &&& chanBit channel = chanBit channel := by decide
  rw [UInt8.and_assoc, apart i otherInside channel inside other]

/-- A channel sees no difference. -/
structure Alike (channel : ℕ) (first second : Turn) : Prop where
  msg : second.statustext.msg = first.statustext.msg
  bit : second.statustext.bitmask &&& chanBit channel = first.statustext.bitmask &&& chanBit channel
  room : second.channels channel = first.channels channel
  sent : sentOn channel second.sent = sentOn channel first.sent

theorem Alike.trans {first second third : Turn} (front : Alike channel first second)
    (back : Alike channel second third) : Alike channel first third :=
  ⟨back.msg.trans front.msg, back.bit.trans front.bit, back.room.trans front.room,
    back.sent.trans front.sent⟩

theorem tryChannel_other {i : ℕ} (inside : channel < commNumBuffers)
    (otherInside : i < commNumBuffers) (other : i ≠ channel) (turn : Turn) :
    Alike channel turn (turn.tryChannel i) := by
  rw [Turn.tryChannel]
  split
  · refine ⟨rfl, clear_other inside otherInside other _, ?_, ?_⟩
    · exact Function.update_of_ne (Ne.symm other) _ _
    · rw [sentOn_append]
      simp [sentOn, other]
  · exact ⟨rfl, rfl, rfl, rfl⟩

theorem foldl_tryChannel_other {others : List ℕ} (inside : channel < commNumBuffers)
    (apart : ∀ i ∈ others, i < commNumBuffers ∧ i ≠ channel) (turn : Turn) :
    Alike channel turn (others.foldl Turn.tryChannel turn) := by
  induction others generalizing turn with
  | nil => exact ⟨rfl, rfl, rfl, rfl⟩
  | cons i rest inductionHypothesis =>
    obtain ⟨otherInside, other⟩ := apart i List.mem_cons_self
    exact (tryChannel_other inside otherInside other turn).trans
      (inductionHypothesis (fun i member => apart i (List.mem_cons_of_mem _ member)) _)

theorem tryChannels_own (inside : channel < commNumBuffers) (statustext : StatusText)
    (channels : ℕ → Channel) :
    ∃ turn, Alike channel ⟨statustext, channels, []⟩ turn ∧
      Alike channel (turn.tryChannel channel) (tryChannels statustext channels) := by
  obtain ⟨before, after, split⟩ := List.append_of_mem (List.mem_range.mpr inside)
  have distinct : (List.range commNumBuffers).Nodup := List.nodup_range
  rw [split, List.nodup_middle, List.nodup_cons, List.mem_append, not_or] at distinct
  obtain ⟨⟨notBefore, notAfter⟩, -⟩ := distinct
  have listed : ∀ i ∈ before ++ channel :: after, i < commNumBuffers := fun i member =>
    List.mem_range.mp (split ▸ member)
  refine ⟨before.foldl Turn.tryChannel ⟨statustext, channels, []⟩,
    foldl_tryChannel_other inside (fun i member => ⟨?_, ?_⟩) _, ?_⟩
  · exact listed i (List.mem_append_left _ member)
  · rintro rfl
    exact notBefore member
  · rw [tryChannels, split, List.foldl_append, List.foldl_cons]
    refine foldl_tryChannel_other inside (fun i member => ⟨?_, ?_⟩) _
    · exact listed i (List.mem_append_right _ (List.mem_cons_of_mem _ member))
    · rintro rfl
      exact notAfter member

theorem tryChannels_sends {channels : ℕ → Channel} (inside : channel < commNumBuffers)
    (addressed : statustext.bitmask &&& chanBit channel ≠ 0)
    (fits : (channels channel).havePayloadSpace) :
    (tryChannels statustext channels).statustext.bitmask &&& chanBit channel = 0 ∧
      sentOn channel (tryChannels statustext channels).sent = [statustext.msg] := by
  obtain ⟨turn, before, after⟩ := tryChannels_own inside statustext channels
  have own : turn.statustext.bitmask &&& chanBit channel ≠ 0 ∧
      (turn.channels channel).havePayloadSpace := by
    rw [before.bit, before.room]
    exact ⟨addressed, fits⟩
  have bit := after.bit
  have sent := after.sent
  rw [Turn.tryChannel, if_pos own] at bit sent
  rw [sentOn_append, before.sent, before.msg] at sent
  refine ⟨bit.trans (clear_self _), sent.trans ?_⟩
  simp [sentOn]

/-- Otherwise nothing is sent on the channel. -/
theorem tryChannels_waits (statustext : StatusText) {channels : ℕ → Channel}
    (inside : channel < commNumBuffers)
    (waits : ¬ (statustext.bitmask &&& chanBit channel ≠ 0 ∧
      (channels channel).havePayloadSpace)) :
    Alike channel ⟨statustext, channels, []⟩ (tryChannels statustext channels) := by
  obtain ⟨turn, before, after⟩ := tryChannels_own inside statustext channels
  rw [Turn.tryChannel, before.bit, before.room, if_neg waits] at after
  exact before.trans after

theorem pendingOn_kept (turn : Turn) (later : List StatusText) :
    pendingOn channel (if turn.statustext.bitmask = 0 then later else turn.statustext :: later) =
      pendingOn channel (turn.statustext :: later) := by
  split
  · rename_i clear
    rw [pendingOn_cons_of_neg (by rw [clear, UInt8.zero_and])]
  · rfl

/-- A pass sends nothing on a channel without room. -/
theorem serve_waits (inside : channel < commNumBuffers) (queue : List StatusText)
    {channels : ℕ → Channel} (full : ¬ (channels channel).havePayloadSpace) :
    sentOn channel (serve queue channels).2 = [] ∧
      pendingOn channel (serve queue channels).1 = pendingOn channel queue := by
  induction queue generalizing channels with
  | nil => exact ⟨rfl, rfl⟩
  | cons statustext rest inductionHypothesis =>
    have alike := tryChannels_waits statustext inside (fun both => full both.2)
    have later : ¬ ((tryChannels statustext channels).channels channel).havePayloadSpace := by
      rwa [alike.room]
    obtain ⟨sent, pending⟩ := inductionHypothesis later
    rw [serve]
    dsimp only
    rw [sentOn_append, alike.sent, sent, pendingOn_kept]
    refine ⟨rfl, ?_⟩
    by_cases addressed : statustext.bitmask &&& chanBit channel = 0
    · rw [pendingOn_cons_of_neg (alike.bit.trans addressed), pendingOn_cons_of_neg addressed, pending]
    · rw [pendingOn_cons_of_pos (alike.bit ▸ addressed), pendingOn_cons_of_pos addressed, pending,
        alike.msg]

/-- A pass sends the first few of the texts for a channel, in their order, and keeps the others. -/
theorem serve_channel (inside : channel < commNumBuffers) (queue : List StatusText)
    (channels : ℕ → Channel) :
    sentOn channel (serve queue channels).2 ++ pendingOn channel (serve queue channels).1 =
      pendingOn channel queue := by
  induction queue generalizing channels with
  | nil => rfl
  | cons statustext rest inductionHypothesis =>
    rw [serve]
    dsimp only
    rw [sentOn_append, pendingOn_kept]
    by_cases addressed : statustext.bitmask &&& chanBit channel = 0
    · have alike := @tryChannels_waits channel statustext channels inside fun both => both.1 addressed
      rw [alike.sent, pendingOn_cons_of_neg (alike.bit.trans addressed),
        pendingOn_cons_of_neg addressed]
      exact inductionHypothesis _
    · rw [pendingOn_cons_of_pos addressed]
      by_cases fits : (channels channel).havePayloadSpace
      · obtain ⟨bit, sent⟩ := tryChannels_sends inside addressed fits
        rw [sent, pendingOn_cons_of_neg bit, List.singleton_append, List.cons_append,
          inductionHypothesis]
      · -- the texts behind this one do not overtake it
        have alike := tryChannels_waits statustext inside fun both => fits both.2
        have later : ¬ ((tryChannels statustext channels).channels channel).havePayloadSpace := by
          rwa [alike.room]
        obtain ⟨sent, pending⟩ := serve_waits inside rest later
        rw [alike.sent, sent, pendingOn_cons_of_pos (alike.bit ▸ addressed), pending, alike.msg]
        rfl

theorem serviceStatustext_channel (inside : channel < commNumBuffers) (gcs : Gcs capacity)
    (channels : ℕ → Channel) :
    sentOn channel (serviceStatustext gcs channels).sent ++
        pendingOn channel (serviceStatustext gcs channels).statustextQueue.items =
      sentOn channel gcs.sent ++ pendingOn channel gcs.statustextQueue.items := by
  rw [serviceStatustext]
  split
  · rfl
  · obtain ⟨queue, sent⟩ := loop_serve gcs.statustextQueue.available 0
      ⟨gcs.statustextQueue, channels, gcs.sent⟩ [] gcs.statustextQueue.items rfl rfl (le_of_eq gcs.statustextQueue.items_length)
    dsimp only at queue sent ⊢
    rw [queue, sent, sentOn_append, List.append_assoc, List.nil_append, serve_channel inside]

end Channel

/-! ### Runs of calls -/

/-- What a call puts in the queue. -/
def Call.queued (number : ℕ) : Call → Option StatusText
  | .sendStatustext severity destBitmask text activeMask streamingMask _ =>
    let bitmask := (activeMask ||| streamingMask) &&& destBitmask
    if bitmask = 0 then none else some ⟨bitmask, severity, copied text, number⟩
  | .serviceStatustext _ => none

/-- The queue in the pass of a call. -/
def pushed (capacity : ℕ) (queue : List StatusText) : Option StatusText → List StatusText
  | none => queue
  | some statustext => (if queue.length = capacity then queue.tail else queue) ++ [statustext]

/-- The message of a call for a channel. -/
def Call.msgFor (channel number : ℕ) (call : Call) : List Msg :=
  pendingOn channel (call.queued number).toList

/-- The messages of some calls for a channel, in the order of the calls. -/
def msgsFor (channel : ℕ) (calls : List Call) : List Msg :=
  (calls.mapIdx fun number call => call.msgFor channel number).flatten

/-- The state when some calls have been made. -/
def after (positive : 0 < capacity) (buffer : ℕ → StatusText) (calls : List Call) : Gcs capacity :=
  runCalls step ⟨ObjectArray.new capacity positive buffer, [], 0⟩ calls

/-- A call pushes a message for a channel out of the queue: the queue has no room, the message is
the oldest one and has not been sent on the channel. -/
def Discards (channel : ℕ) (gcs : Gcs capacity) (call : Call) (msg : Msg) : Prop :=
  (call.queued gcs.calls).isSome ∧ gcs.statustextQueue.items.length = capacity ∧
    ∃ oldest, gcs.statustextQueue.items.head? = some oldest ∧ oldest.msg = msg ∧
      oldest.bitmask &&& chanBit channel ≠ 0

section Run

variable {channel : ℕ} {positive : 0 < capacity} {buffer : ℕ → StatusText}

theorem step_channel (inside : channel < commNumBuffers) (gcs : Gcs capacity) (call : Call) :
    sentOn channel (step gcs call).sent ++ pendingOn channel (step gcs call).statustextQueue.items =
      sentOn channel gcs.sent ++ pendingOn channel
        (pushed capacity gcs.statustextQueue.items (call.queued gcs.calls)) := by
  cases call with
  | serviceStatustext channels => exact serviceStatustext_channel inside gcs channels
  | sendStatustext severity destBitmask text activeMask streamingMask channels =>
    simp only [step, sendStatustext, Call.queued]
    split
    · rfl
    · rw [serviceStatustext_channel inside, ObjectArray.pushForce_items, pushed]

/-- What is pending in the pass of a call was pending before, or is the message of the call. -/
theorem pendingOn_pushed (queue : List StatusText) (new : Option StatusText) :
    (pendingOn channel (pushed capacity queue new)).Sublist
      (pendingOn channel queue ++ pendingOn channel new.toList) := by
  cases new with
  | none => exact List.sublist_append_left ..
  | some statustext =>
    rw [pushed, pendingOn_append]
    refine List.Sublist.append_right (List.Sublist.map _ (List.Sublist.filter _ ?_)) _
    split
    · exact List.tail_sublist _
    · exact List.Sublist.refl _

theorem after_snoc (calls : List Call) (call : Call) :
    after positive buffer (calls ++ [call]) = step (after positive buffer calls) call :=
  runCalls_append ..

theorem after_calls (positive : 0 < capacity) (buffer : ℕ → StatusText) (calls : List Call) :
    (after positive buffer calls).calls = calls.length := by
  induction calls using List.reverseRecOn with
  | nil => rfl
  | append_singleton calls call inductionHypothesis =>
    rw [after_snoc, List.length_append, List.length_singleton, ← inductionHypothesis]
    rfl

theorem msgsFor_snoc (calls : List Call) (call : Call) :
    msgsFor channel (calls ++ [call]) =
      msgsFor channel calls ++ call.msgFor channel calls.length := by
  rw [msgsFor, List.mapIdx_append, List.flatten_append, msgsFor]
  simp

variable {msg : Msg} {number : ℕ}

theorem msgFor_number {call : Call} (member : msg ∈ call.msgFor channel number) :
    msg.number = number := by
  obtain ⟨statustext, isQueued, rfl⟩ := List.mem_map.mp member
  have queued := Option.mem_toList.mp (List.mem_of_mem_filter isQueued)
  cases call with
  | serviceStatustext channels => exact nomatch queued
  | sendStatustext severity destBitmask text activeMask streamingMask channels =>
    simp only [Call.queued] at queued
    split at queued
    · exact nomatch queued
    · rw [← Option.some.inj queued]

/-- A call has at most one message. -/
theorem msgFor_pairwise (call : Call) (number : ℕ) :
    (call.msgFor channel number).Pairwise (fun first second => first.number < second.number) := by
  rw [Call.msgFor]
  cases call.queued number with
  | none => exact List.Pairwise.nil
  | some statustext =>
    exact List.Pairwise.sublist (List.Sublist.map _ List.filter_sublist)
      (List.pairwise_singleton _ statustext.msg)

theorem msgsFor_number (calls : List Call) :
    (msgsFor channel calls).Pairwise (fun first second => first.number < second.number) ∧
      ∀ msg ∈ msgsFor channel calls, msg.number < calls.length := by
  induction calls using List.reverseRecOn with
  | nil => exact ⟨List.Pairwise.nil, nofun⟩
  | append_singleton calls call inductionHypothesis =>
    obtain ⟨ordered, bounded⟩ := inductionHypothesis
    rw [msgsFor_snoc, List.length_append, List.length_singleton]
    constructor
    · refine List.pairwise_append.mpr ⟨ordered, msgFor_pairwise _ _, fun first early second late => ?_⟩
      rw [msgFor_number late]
      exact bounded first early
    · intro msg member
      obtain early | late := List.mem_append.mp member
      · exact lt_trans (bounded msg early) (Nat.lt_succ_self _)
      · rw [msgFor_number late]
        exact Nat.lt_succ_self _

theorem after_ordered (inside : channel < commNumBuffers) (calls : List Call) :
    (sentOn channel (after positive buffer calls).sent ++
        pendingOn channel (after positive buffer calls).statustextQueue.items).Sublist
      (msgsFor channel calls) := by
  induction calls using List.reverseRecOn with
  | nil => exact List.Sublist.refl _
  | append_singleton calls call inductionHypothesis =>
    rw [after_snoc, step_channel inside, after_calls, msgsFor_snoc]
    refine (List.Sublist.append_left (pendingOn_pushed _ _) _).trans ?_
    rw [← List.append_assoc]
    exact List.Sublist.append_right inductionHypothesis _

theorem pending_pushed {gcs : Gcs capacity} (call : Call)
    (pending : msg ∈ pendingOn channel gcs.statustextQueue.items) :
    msg ∈ pendingOn channel (pushed capacity gcs.statustextQueue.items (call.queued gcs.calls)) ∨
      Discards channel gcs call msg := by
  cases new : call.queued gcs.calls with
  | none => exact Or.inl pending
  | some statustext =>
    rw [pushed, pendingOn_append]
    split
    · rename_i full
      cases items : gcs.statustextQueue.items with
      | nil =>
        rw [items] at pending
        exact nomatch pending
      | cons oldest rest =>
        rw [items] at pending
        by_cases addressed : oldest.bitmask &&& chanBit channel = 0
        · rw [pendingOn_cons_of_neg addressed] at pending
          exact Or.inl (List.mem_append_left _ pending)
        · rw [pendingOn_cons_of_pos addressed, List.mem_cons] at pending
          obtain same | later := pending
          · refine Or.inr ⟨by rw [new]; rfl, full, oldest, by rw [items]; rfl, same.symm, addressed⟩
          · exact Or.inl (List.mem_append_left _ later)
    · exact Or.inl (List.mem_append_left _ pending)

theorem msgFor_pushed {queue : List StatusText} {call : Call}
    (member : msg ∈ call.msgFor channel number) :
    msg ∈ pendingOn channel (pushed capacity queue (call.queued number)) := by
  rw [Call.msgFor] at member
  cases new : call.queued number with
  | none =>
    rw [new] at member
    exact nomatch member
  | some statustext =>
    rw [new] at member
    rw [pushed, pendingOn_append]
    exact List.mem_append_right _ member

theorem after_accounted (inside : channel < commNumBuffers) (calls : List Call) :
    ∀ msg ∈ msgsFor channel calls,
      msg ∈ sentOn channel (after positive buffer calls).sent ∨
        msg ∈ pendingOn channel (after positive buffer calls).statustextQueue.items ∨
          ∃ before call later, calls = before ++ call :: later ∧
            Discards channel (after positive buffer before) call msg := by
  induction calls using List.reverseRecOn with
  | nil => exact nofun
  | append_singleton calls call inductionHypothesis =>
    intro msg member
    rw [msgsFor_snoc, ← after_calls positive buffer] at member
    -- what is there in the pass of the call is sent or stays
    have moved : msg ∈ sentOn channel (after positive buffer calls).sent ∨
        msg ∈ pendingOn channel (pushed capacity (after positive buffer calls).statustextQueue.items
          (call.queued (after positive buffer calls).calls)) →
        msg ∈ sentOn channel (after positive buffer (calls ++ [call])).sent ∨
          msg ∈ pendingOn channel
            (after positive buffer (calls ++ [call])).statustextQueue.items := by
      rw [← List.mem_append, ← step_channel inside, ← after_snoc]
      exact List.mem_append.mp
    rw [← or_assoc]
    obtain early | late := List.mem_append.mp member
    · obtain sent | pending | ⟨before, discarding, later, split, discards⟩ :=
        inductionHypothesis msg early
      · exact Or.inl (moved (Or.inl sent))
      · obtain stays | discards := pending_pushed call pending
        · exact Or.inl (moved (Or.inr stays))
        · exact Or.inr ⟨calls, call, [], rfl, discards⟩
      · refine Or.inr ⟨before, discarding, later ++ [call], ?_, discards⟩
        rw [split, List.append_assoc, List.cons_append]
    · exact Or.inl (moved (Or.inr (msgFor_pushed late)))

/-- Status texts on a channel, over every sequence of calls, whatever the channels can take. What
was sent and, behind it, what is still queued are messages of the calls for the channel, in the
order of the calls and each of them once. A message that is neither was queued until a call
discarded it as the oldest one of a full queue. -/
theorem texts_delivered (positive : 0 < capacity) (buffer : ℕ → StatusText)
    (calls : List Call) (channel : Fin commNumBuffers) :
    let gcs := after positive buffer calls
    (sentOn channel gcs.sent ++ pendingOn channel gcs.statustextQueue.items).Sublist
        (msgsFor channel calls) ∧
      (sentOn channel gcs.sent ++ pendingOn channel gcs.statustextQueue.items).Pairwise
        (fun first second => first.number < second.number) ∧
      ∀ msg ∈ msgsFor channel calls,
        msg ∈ sentOn channel gcs.sent ∨ msg ∈ pendingOn channel gcs.statustextQueue.items ∨
          ∃ before call later, calls = before ++ call :: later ∧
            Discards channel (after positive buffer before) call msg := by
  intro gcs
  have ordered : (sentOn channel gcs.sent ++
      pendingOn channel gcs.statustextQueue.items).Sublist (msgsFor channel calls) :=
    after_ordered channel.isLt calls
  exact ⟨ordered, (msgsFor_number calls).1.sublist ordered, after_accounted channel.isLt calls⟩

end Run

/-- The first channel has room, the others have none. -/
def oneOpen (channel : ℕ) : Channel := ⟨if channel = 0 then 200 else 0, 12, fun _ => 60⟩

/-- Two texts for the first two channels. -/
def twoTexts : List Call :=
  [.sendStatustext 6 255 [79, 75] 3 0 oneOpen, .sendStatustext 4 255 [78, 79] 1 2 oneOpen]

/-- With room for one text in the queue, the second one pushes out the first one, which the first
channel has and the second channel waits for. -/
theorem texts_delivered_pushed_out :
    (sentOn 0 (after Nat.one_pos (fun _ => ⟨0, 0, [], 0⟩) twoTexts).sent).map Msg.number = [0, 1] ∧
      ∃ before call later, twoTexts = before ++ call :: later ∧
        Discards 1 (after Nat.one_pos (fun _ => ⟨0, 0, [], 0⟩) before) call ⟨6, copied [79, 75], 0⟩ := by
  refine ⟨by decide +kernel, ?_⟩
  obtain ⟨-, -, accounted⟩ := texts_delivered Nat.one_pos (fun _ => ⟨0, 0, [], 0⟩) twoTexts ⟨1, by decide⟩
  obtain sent | pending | discarded := accounted ⟨6, copied [79, 75], 0⟩ (by decide +kernel)
  · exact absurd sent (by decide +kernel)
  · exact absurd pending (by decide +kernel)
  · exact discarded

end Urus.GcsMavlink.Statustext
