/-
This file is about the loops that send blocks and the loop that writes them. Each of them ends, finds
the blocks that it looks for, and does what steps of the ledger do. A write that fits is written as a
whole.
-/

import Urus.DataFlash.Blocks

namespace Urus.DataFlashMavlink

variable {state : State} {ledger : Ledger} (acked : UInt32 → Prop)

/-! ### Sending -/

theorem Represents.dequeueOldest (represents : Represents state ledger) (once : ledger.Once)
    {name : QueueName} {oldest : Nat} (isOldest : (state.queues name).oldest = some oldest) :
    ∃ late next, ledger.place (.queue name) = oldest :: late ∧
      state.dequeueSeqno name (state.blocks oldest).seqno = some (some oldest, next) ∧
      Represents next (ledger.set (.queue name) late) ∧ next.next oldest = none := by
  have queued := represents.queues name
  rw [isOldest] at queued
  obtain ⟨late, split⟩ := queued.split_oldest
  have number : ledger.number oldest = (state.blocks oldest).seqno := represents.number oldest
  rcases represents.dequeueSeqno once name (state.blocks oldest).seqno with
    ⟨nowhere, -⟩ | ⟨early, block, rest, next, split', before, found, outcome, unlinked, ends⟩
  · exact absurd number (nowhere oldest (by rw [split]; simp))
  · rw [split] at split'
    cases early with
    | nil =>
      obtain ⟨rfl, rfl⟩ := List.cons.inj split'
      exact ⟨late, next, split, outcome, unlinked, ends⟩
    | cons first early =>
      obtain ⟨rfl, -⟩ := List.cons.inj split'
      exact absurd number (before oldest List.mem_cons_self)

theorem Represents.sendLoop (name : QueueName) (notSent : name ≠ .sent) (sends : Nat)
    (represents : Represents state ledger) (sound : ledger.Sound) (attempts : Attempts) :
    ∃ done next rest, State.sendLoop name sends state attempts = some (done, next, rest) ∧
      Reaches acked ledger [] next := by
  induction sends generalizing state ledger attempts with
  | zero =>
    unfold State.sendLoop
    split
    · exact ⟨true, state, attempts, rfl, represents.reaches⟩
    · exact ⟨false, state, attempts, rfl, represents.reaches⟩
    · contradiction
  | succ sends inductionHypothesis =>
    unfold State.sendLoop
    cases isOldest : (state.queues name).oldest with
    | none => exact ⟨true, state, attempts, rfl, represents.reaches⟩
    | some oldest =>
      dsimp only
      rcases represents.sendLogBlock oldest attempts with
        ⟨rest, failed⟩ | ⟨sentState, rest, succeeded, transmitted, links, queues⟩
      · rw [failed]
        exact ⟨false, state, rest, rfl, represents.reaches⟩
      · rw [succeeded]
        dsimp only
        generalize isCounted : sentState.setQueue name _ = counted
        have queue : counted.queues name = { sentState.queues name with
            sentCount := (sentState.queues name).sentCount + 1 } := by
          rw [← isCounted]
          exact Function.update_self ..
        have first : (counted.queues name).oldest = some oldest := by
          rw [queue, queues]
          exact isOldest
        have represented : Represents counted (ledger.transmit oldest) := by
          rw [← isCounted]
          exact transmitted.setSentCount name _
        have queued : oldest ∈ ledger.place (.queue name) := by
          have linked := represents.queues name
          rw [isOldest] at linked
          obtain ⟨late, split⟩ := linked.split_oldest
          rw [split]
          exact List.mem_cons_self
        have transmits : ledger.Step acked (ledger.transmit oldest) := .transmit queued
        have soundSent := transmits.sound sound
        obtain ⟨late, next, split, outcome, unlinked, ends⟩ :=
          represented.dequeueOldest soundSent.once first
        rw [outcome]
        have front : (ledger.transmit oldest).place (.queue name) = [] ++ oldest :: late := split
        have removed := soundSent.once.toSeparate.remove front
        have moved := unlinked.enqueueBlock removed.1 .sent (removed.2 _) ends
        have requeues : (ledger.transmit oldest).Step acked _ :=
          .requeue notSent front
        rw [Ledger.set_place_of_ne _ fun same => notSent (Place.queue.inj same).symm] at moved
        obtain ⟨done, last, left, looped, reached, steps, represents', stream⟩ :=
          inductionHypothesis moved (requeues.sound soundSent) rest
        refine ⟨done, last, left, looped, reached, ?_, represents', stream⟩
        exact .head transmits (.head requeues steps)

/-- Both steps of a push: what is to be retried is sent first. -/
theorem Represents.pushLogBlocks (represents : Represents state ledger) (sound : ledger.Sound)
    (taken : Bool) (attempts : Attempts) :
    ∃ next, state.pushLogBlocks taken attempts = some next ∧ Reaches acked ledger [] next := by
  unfold State.pushLogBlocks
  split
  · exact ⟨state, rfl, represents.reaches⟩
  · split
    · exact ⟨state, rfl, represents.reaches⟩
    · obtain ⟨done, between, rest, retried, reached, steps, represents', stream⟩ :=
        represents.sendLoop acked .retry nofun (maxBlocksPerSendBlocks + 1) sound attempts
      obtain ⟨done', last, rest', pended, reached', steps', represents'', stream'⟩ :=
        represents'.sendLoop acked .pending nofun (maxBlocksPerSendBlocks + 1) (steps.sound sound)
          rest
      unfold State.sendLogBlocksFromQueue
      rw [retried]
      cases done with
      | false => exact ⟨between, rfl, reached, steps, represents', stream⟩
      | true =>
        refine ⟨last, ?_, reached', steps.trans steps', represents'', ?_⟩
        · simp only [Option.bind_eq_bind, Option.bind_some, Bool.not_true, Bool.false_eq_true,
            if_false, pended]
        · rw [stream', stream, List.append_nil, List.append_nil]

/-- The blocks from a sent one on are sent again, where it is time for it. -/
theorem Represents.resendWalk (oldest : UInt32) {late : List Nat} {first : Option Nat}
    (represents : Represents state ledger) (chain : Chain state.next first late none)
    (inside : ∀ block ∈ late, block ∈ ledger.place (.queue .sent)) {steps : Nat}
    (enough : late.length ≤ steps) (attempts : Attempts) :
    ∃ done next rest, State.resendWalk oldest steps first state attempts = some (done, next, rest) ∧
      Reaches acked ledger [] next := by
  induction late generalizing state ledger first steps attempts with
  | nil =>
    obtain rfl : first = none := chain
    refine ⟨true, state, attempts, ?_, represents.reaches⟩
    cases steps <;> rfl
  | cons block late inductionHypothesis =>
    obtain ⟨rfl, behind⟩ := chain
    obtain _ | steps := steps
    · exact absurd enough (Nat.not_succ_le_zero _)
    · have enough' : late.length ≤ steps := Nat.le_of_succ_le_succ enough
      have queued := inside block List.mem_cons_self
      have inside' : ∀ other ∈ late, other ∈ ledger.place (.queue .sent) :=
        fun other member => inside other (List.mem_cons_of_mem _ member)
      unfold State.resendWalk
      split
      · rcases represents.sendLogBlock block attempts with
          ⟨rest, failed⟩ | ⟨sentState, rest, succeeded, transmitted, links, -⟩
        · rw [failed]
          exact ⟨false, state, rest, rfl, represents.reaches⟩
        · rw [succeeded]
          have counted : Represents { sentState with resends := sentState.resends + 1 }
              (ledger.transmit block) :=
            { transmitted with }
          have transmits : ledger.Step acked (ledger.transmit block) := .transmit queued
          rw [← links] at behind
          obtain ⟨done, next, left, walked, reached, more, represents', stream⟩ :=
            inductionHypothesis counted behind inside' enough' rest
          exact ⟨done, next, left, walked, reached, .head transmits more, represents', stream⟩
      · exact inductionHypothesis represents behind inside' enough' attempts

theorem Represents.resendRounds (oldest : UInt32) (rounds : Nat) (taken : List Bool)
    (represents : Represents state ledger) (sound : ledger.Sound) (attempts : Attempts) :
    ∃ next, State.resendRounds oldest rounds taken state attempts = some next ∧
      Reaches acked ledger [] next := by
  induction rounds generalizing state ledger taken attempts with
  | zero => exact ⟨state, rfl, represents.reaches⟩
  | succ rounds inductionHypothesis =>
    rcases taken with _ | ⟨_ | _, taken⟩
    · exact ⟨state, rfl, represents.reaches⟩
    · exact ⟨state, rfl, represents.reaches⟩
    · have enough : (ledger.place (.queue .sent)).length ≤ state.blockcount.toNat := by
        rw [represents.blockcount]
        exact sound.once.length_le _
      obtain ⟨done, next, rest, walked, reached, steps, represents', stream⟩ :=
        represents.resendWalk acked oldest (represents.queues .sent).1
          (fun _ member => member) enough attempts
      unfold State.resendRounds
      rw [walked]
      cases done with
      | false => exact ⟨next, rfl, reached, steps, represents', stream⟩
      | true =>
        obtain ⟨last, ended, reached', steps', represents'', stream'⟩ :=
          inductionHypothesis taken represents' (steps.sound sound) rest
        refine ⟨last, ended, reached', steps.trans steps', represents'', ?_⟩
        rw [stream', stream, List.append_nil, List.append_nil]

section

variable (represents : Represents state ledger)

include represents

theorem Represents.doResends (sound : ledger.Sound)
    (now : UInt32) (taken : List Bool) (attempts : Attempts) :
    ∃ next, state.doResends now taken attempts = some next ∧ Reaches acked ledger [] next := by
  unfold State.doResends
  split
  · exact ⟨state, rfl, represents.reaches⟩
  · exact represents.resendRounds acked _ _ taken sound attempts

/-! ### Writing -/

theorem Represents.current_none_iff :
    state.currentBlock = none ↔ ledger.place .current = [] := by
  have chain := represents.current
  cases blocks : ledger.place .current with
  | nil =>
    rw [blocks] at chain
    exact iff_of_true chain rfl
  | cons block rest =>
    rw [blocks] at chain
    rw [chain.1]
    exact iff_of_false nofun nofun

theorem Represents.current_single (sound : ledger.Sound)
    {block : Nat} (current : state.currentBlock = some block) :
    ledger.place .current = [block] := by
  have chain := represents.current
  have single := sound.single
  cases blocks : ledger.place .current with
  | nil =>
    rw [blocks, current] at chain
    exact nomatch chain
  | cons first rest =>
    rw [blocks] at chain single
    obtain rfl : rest = [] := List.eq_nil_of_length_eq_zero (Nat.le_zero.mp (Nat.le_of_succ_le_succ single))
    rw [current] at chain
    rw [Option.some.inj chain.1]

theorem Represents.ready (sound : ledger.Sound)
    (room : 0 < ledger.capacity) :
    ∃ block reached, state.ready.currentBlock = some block ∧ ledger.Steps acked reached ∧
      Represents state.ready reached ∧ reached.stream = ledger.stream ∧
      reached.capacity = ledger.capacity := by
  unfold State.ready
  split
  · rename_i idle
    have nothing := represents.current_none_iff.mp idle
    rcases represents.nextBlock sound.once.toSeparate with
      ⟨empty, -⟩ | ⟨block, rest, stack, top, taken⟩
    · rw [Ledger.capacity, empty, nothing] at room
      exact absurd room (by simp)
    · rw [top]
      exact ⟨block, _, rfl, .single (.take stack nothing), taken, rfl,
        Ledger.take_capacity stack nothing⟩
  · rename_i busy
    obtain ⟨block, current⟩ := Option.ne_none_iff_exists'.mp busy
    exact ⟨block, ledger, current, .refl, represents, rfl, rfl⟩

theorem Represents.remainingSpace (inside : ledger.length ≤ fieldDataLen) :
    state.remainingSpaceInCurrentBlock.toNat = fieldDataLen - ledger.length := by
  have length := represents.length
  rw [length] at inside ⊢
  have bound : state.latestBlockLen ≤ UInt16.ofNat fieldDataLen :=
    UInt16.le_iff_toNat_le.mpr inside
  rw [State.remainingSpaceInCurrentBlock, UInt16.toNat_toUInt8, UInt16.toNat_sub_of_le _ _ bound]
  exact Nat.mod_eq_of_lt (lt_of_le_of_lt (Nat.sub_le _ _) (by decide))

/-- Bytes are copied into the current block. -/
theorem Represents.copy (block : Nat)
    (data : List UInt8) (fits : ledger.length + data.length ≤ fieldDataLen) :
    Represents (state.copy block data) (ledger.copy block data) := by
  have links : (fun other => (Function.update state.blocks block { state.blocks block with
      buf := (state.blocks block).buf.put state.latestBlockLen.toNat data } other).next) =
        state.next := by
    rw [next_update]
    exact Function.update_eq_self block state.next
  refine ⟨represents.initialised, represents.errors, represents.blockcount, ?_, fun name => ?_, ?_,
    ?_, represents.blockcountFree, represents.nextNumber, fun other => ?_, fun other => ?_,
    represents.messages⟩
  · change Chain (fun other => (Function.update state.blocks block _ other).next) _ _ _
    rw [links]
    exact represents.free
  · change Queued (fun other => (Function.update state.blocks block _ other).next) _ _ _
    rw [links]
    exact represents.queues name
  · change Chain (fun other => (Function.update state.blocks block _ other).next) _ _ _
    rw [links]
    exact represents.current
  · change ledger.length + data.length = (state.latestBlockLen + UInt16.ofNat data.length).toNat
    rw [fieldDataLen] at fits
    rw [UInt16.toNat_add, ← represents.length, UInt16.toNat_ofNat']
    omega
  · exact (represents.number other).trans
      (update_same DmBlock.seqno state.blocks (by rfl) other).symm
  · change Function.update ledger.buf block _ other =
      (Function.update state.blocks block _ other).buf
    by_cases same : other = block
    · subst same
      rw [Function.update_self, Function.update_self, represents.buf, represents.length]
    · rw [Function.update_of_ne same, Function.update_of_ne same, represents.buf]

end

/-- The block that is queued is not the current one any more when the next one is taken. -/
theorem State.fill_eq (state : State) (block : Nat) :
    state.fill block =
      let idle : State := { state with currentBlock := none }
      let enqueued := idle.enqueueBlock .pending block
      { enqueued.nextBlock.2 with currentBlock := enqueued.nextBlock.1 } := by
  unfold State.fill State.enqueueBlock
  dsimp only
  cases (state.queues .pending).youngest <;> unfold State.nextBlock <;>
    cases isTop : state.blocksFree <;> simp [State.setQueue, State.setNext, isTop, State.next]

section

variable (represents : Represents state ledger)

include represents

theorem Represents.fill (separate : ledger.Separate)
    {block : Nat} (filled : (ledger.enqueue block).Separate)
    (current : ledger.place .current = [block]) :
    ∃ reached, (ledger.enqueue block).Steps acked reached ∧
      Represents (state.fill block) reached ∧ reached.stream = ledger.stream ∧
      reached.capacity = fieldDataLen * (ledger.place .free).length := by
  have idle : Represents { state with currentBlock := none } (ledger.set .current []) :=
    { represents with current := rfl }
  have split : ledger.place .current = [] ++ block :: [] := current
  have removed := separate.remove split
  have ends : state.next block = none := by
    have chain := represents.current
    rw [current] at chain
    exact chain.2
  have enqueued := idle.enqueueBlock removed.1 .pending (removed.2 _) ends
  rw [State.fill_eq]
  dsimp only
  rcases enqueued.nextBlock filled with ⟨empty, outcome⟩ | ⟨next, rest, stack, top, taken⟩
  · rw [outcome]
    exact ⟨_, .refl, { enqueued with current := rfl }, rfl, ledger.enqueue_capacity block⟩
  · rw [top]
    have nothing : (ledger.enqueue block).place .current = [] := rfl
    exact ⟨_, .single (.take stack nothing), taken, rfl,
      (Ledger.take_capacity stack nothing).trans (ledger.enqueue_capacity block)⟩

theorem Represents.writeLoop (sound : ledger.Sound)
    {rounds : Nat} {buffer : List UInt8} (enough : buffer.length ≤ rounds)
    (room : buffer.length ≤ ledger.capacity) :
    ∃ next, State.writeLoop rounds state buffer = some (true, next) ∧
      Reaches acked ledger buffer next := by
  induction rounds generalizing state ledger buffer with
  | zero =>
    obtain rfl : buffer = [] := List.eq_nil_of_length_eq_zero (Nat.le_zero.mp enough)
    exact ⟨state, rfl, represents.reaches⟩
  | succ rounds inductionHypothesis =>
    rcases buffer with _ | ⟨byte, rest⟩
    · exact ⟨state, rfl, represents.reaches⟩
    · rw [State.writeLoop]
      generalize isBuffer : byte :: rest = buffer at enough room ⊢
      have some : 1 ≤ buffer.length := by
        rw [← isBuffer]
        exact Nat.succ_pos _
      obtain ⟨block, opened, isCurrent, steps, represents', stream, capacity⟩ :=
        represents.ready acked sound (Nat.lt_of_lt_of_le some room)
      have sound' := steps.sound sound
      have current := represents'.current_single sound' isCurrent
      have inside := sound'.room (by rw [current]; exact List.cons_ne_nil block [])
      have space := represents'.remainingSpace (le_of_lt inside)
      rw [isCurrent]
      dsimp only
      generalize isToCopy : min buffer.length state.ready.remainingSpaceInCurrentBlock.toNat = toCopy
      rw [space] at isToCopy
      have length : (buffer.take toCopy).length = toCopy := by
        rw [List.length_take]
        omega
      have fits : opened.length + (buffer.take toCopy).length ≤ fieldDataLen := by
        rw [length]
        omega
      have copied := represents'.copy block (buffer.take toCopy) fits
      have behind : (buffer.drop toCopy).length ≤ rounds := by
        rw [List.length_drop]
        omega
      have capacity' : opened.capacity =
          fieldDataLen * (opened.place .free).length + (fieldDataLen - opened.length) := by
        rw [Ledger.capacity, if_neg (by rw [current]; exact List.cons_ne_nil block [])]
      rw [← copied.length]
      -- what is not copied yet is what the rest of the loop writes
      have whole : ledger.stream ++ buffer.take toCopy ++ buffer.drop toCopy =
          ledger.stream ++ buffer := by
        rw [List.append_assoc, List.take_append_drop]
      split
      · rename_i full
        have fills : opened.Step acked ((opened.copy block (buffer.take toCopy)).enqueue block) :=
          .fill current full
        have soundFilled := fills.sound sound'
        obtain ⟨next, moved, represents'', stream', room'⟩ :=
          copied.fill acked ⟨sound'.once.distinct, sound'.once.apart⟩ soundFilled.once.toSeparate
            current
        have left : (buffer.drop toCopy).length ≤ next.capacity := by
          change next.capacity = fieldDataLen * (opened.place .free).length at room'
          change opened.length + (buffer.take toCopy).length = fieldDataLen at full
          rw [List.length_drop, room']
          omega
        obtain ⟨last, looped, reached, more, represented, stream''⟩ :=
          inductionHypothesis represents'' (moved.sound soundFilled) behind left
        refine ⟨last, looped, reached, ?_, represented, ?_⟩
        · exact steps.trans (.head fills (moved.trans more))
        · rw [stream'', stream']
          change opened.stream ++ _ ++ _ = _
          rw [stream, whole]
      · rename_i notFull
        change ¬ opened.length + (buffer.take toCopy).length = fieldDataLen at notFull
        have copies : opened.Step acked (opened.copy block (buffer.take toCopy)) :=
          .copy current (lt_of_le_of_ne fits notFull)
        have left : (buffer.drop toCopy).length ≤
            (opened.copy block (buffer.take toCopy)).capacity := by
          rw [List.length_drop]
          omega
        obtain ⟨last, looped, reached, more, represented, stream''⟩ :=
          inductionHypothesis copied (copies.sound sound') behind left
        refine ⟨last, looped, reached, ?_, represented, ?_⟩
        · exact steps.trans (.head copies more)
        · rw [stream'']
          change opened.stream ++ _ ++ _ = _
          rw [stream, whole]

theorem Represents.bufferspaceAvailable (inside : ledger.length ≤ fieldDataLen) :
    state.bufferspaceAvailable.toNat =
      fieldDataLen * (ledger.place .free).length + (fieldDataLen - ledger.length) := by
  have free := state.blockcountFree.toNat_lt
  have count := represents.blockcountFree
  have space := represents.remainingSpace inside
  have bound : fieldDataLen - ledger.length ≤ 200 := Nat.sub_le _ _
  rw [State.bufferspaceAvailable, UInt32.toNat_add, UInt32.toNat_mul, UInt8.toNat_toUInt32,
    UInt8.toNat_toUInt32, space, ← count]
  have two : (200 : UInt32).toNat = 200 := rfl
  have small : state.blockcountFree.toNat * 200 < 2 ^ 32 := by omega
  rw [two, Nat.mod_eq_of_lt small, Nat.mod_eq_of_lt (by omega), Nat.mul_comm]
  rfl

/-- A write that passes the check of the space has room. Without a current block the check counts one
block too many when nothing was queued yet, but then all blocks are free. -/
theorem Represents.room (sound : ledger.Sound) {size : Nat}
    (small : state.currentBlock = none → state.latestBlockLen = 0 →
      size ≤ fieldDataLen * state.blockcount.toNat)
    (checked : ¬ state.bufferspaceAvailable.toNat < size) : size ≤ ledger.capacity := by
  have inside := sound.length_le
  rw [represents.bufferspaceAvailable inside] at checked
  rw [Ledger.capacity]
  split
  · rename_i idle
    rcases sound.idle idle with full | ⟨blank, nothing⟩
    · omega
    · rw [sound.once.all_free idle nothing, ← represents.blockcount]
      refine small (represents.current_none_iff.mpr idle) ?_
      exact UInt16.toNat_inj.mp (represents.length.symm.trans blank)
  · omega

/-- `_WritePrioritisedBlock` writes all bytes or none. -/
theorem Represents.writePrioritisedBlock
    (sound : ledger.Sound) (taken checked finished : Bool) {buffer : List UInt8}
    (small : state.currentBlock = none → state.latestBlockLen = 0 →
      buffer.length ≤ fieldDataLen * state.blockcount.toNat) :
    ∃ accepted next, state.writePrioritisedBlock taken checked finished buffer =
        some (accepted, next) ∧
      Reaches acked ledger (if accepted then buffer else []) next := by
  unfold State.writePrioritisedBlock
  have dropped : Represents { state with dropped := state.dropped + 1 } ledger :=
    { represents with }
  split
  · exact ⟨false, _, rfl, dropped.reaches⟩
  · split
    · exact ⟨false, _, rfl, represents.reaches⟩
    · split
      · refine ⟨false, _, rfl, ?_⟩
        cases finished with
        | true => exact dropped.reaches
        | false => exact represents.reaches
      · rename_i space
        obtain ⟨next, written, reaches⟩ := represents.writeLoop acked sound (le_refl _)
          (represents.room sound small space)
        exact ⟨true, next, written, reaches⟩

end

end Urus.DataFlashMavlink
