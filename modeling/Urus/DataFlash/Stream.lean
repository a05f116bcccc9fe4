/-
This file is about the bytes in the blocks. The stream of what was written is cut into blocks of equal
length, which are numbered from zero on. In every state of a ledger a queued block has the bytes of
its number, the current block has what is behind the last full one, and a number that is in no queue
any more was acknowledged.
-/

import Urus.DataFlash.Ledger

namespace Urus.DataFlashMavlink

/-- The stream is shorter than as many blocks as there are numbers for: the last two numbers below
`2 ^ 31 - 1` are those of the messages that stop and start a log. -/
def Short (stream : List UInt8) : Prop := stream.length < fieldDataLen * (2 ^ 31 - 3)

/-- The data is the block of the stream with the number, and the stream has all of it. -/
def IsBlock (stream : List UInt8) (number : UInt32) (data : List UInt8) : Prop :=
  fieldDataLen * (number.toNat + 1) ≤ stream.length ∧
    data = (stream.drop (fieldDataLen * number.toNat)).take fieldDataLen

theorem IsBlock.append {stream data : List UInt8} {number : UInt32}
    (isBlock : IsBlock stream number data) (more : List UInt8) :
    IsBlock (stream ++ more) number data := by
  obtain ⟨bound, content⟩ := isBlock
  rw [Nat.mul_succ] at bound
  refine ⟨by rw [List.length_append, Nat.mul_succ]; omega, ?_⟩
  rw [content, List.drop_append_of_le_length (by omega),
    List.take_append_of_le_length (by rw [List.length_drop]; omega)]

namespace Ledger

variable {acked received : UInt32 → Prop} {ledger next : Ledger}

/-- The current block has what is behind the last full block, and it has the next number. -/
structure Begun (ledger : Ledger) (block : Nat) : Prop where
  number : (ledger.number block).toNat = ledger.stream.length / fieldDataLen
  length : ledger.length = ledger.stream.length % fieldDataLen
  content : (ledger.buf block).slice 0 ledger.length =
    ledger.stream.drop (fieldDataLen * (ledger.stream.length / fieldDataLen))
  nextNumber : ledger.nextNumber.toNat = ledger.stream.length / fieldDataLen + 1

/-- The blocks have the bytes of the stream, and so have the messages. A number is only missing when
the client has received it. -/
structure Streams (received : UInt32 → Prop) (ledger : Ledger) : Prop where
  queued : ∀ name, ∀ block ∈ ledger.place (.queue name),
    IsBlock ledger.stream (ledger.number block) ((ledger.buf block).slice 0 fieldDataLen)
  current : ∀ block ∈ ledger.place .current, ledger.Begun block
  idle : ledger.place .current = [] → ledger.stream.length % fieldDataLen = 0 ∧
    ledger.nextNumber.toNat = ledger.stream.length / fieldDataLen
  kept : ∀ number : UInt32, number.toNat < ledger.stream.length / fieldDataLen →
    (∃ name, ∃ block ∈ ledger.place (.queue name), ledger.number block = number) ∨ received number
  sent : ∀ message ∈ ledger.messages, IsBlock ledger.stream message.1 message.2

/-! ### Moving blocks -/

/-- A move that leaves the current block alone, brings no new block into a queue and loses no number
changes nothing. -/
theorem Streams.moved (streams : ledger.Streams received)
    (frame : next = { ledger with place := next.place })
    (idle : next.place .current = ledger.place .current)
    (old : ∀ name, ∀ block ∈ next.place (.queue name), ∃ name, block ∈ ledger.place (.queue name))
    (kept : ∀ name, ∀ block ∈ ledger.place (.queue name),
      (∃ name, block ∈ next.place (.queue name)) ∨ received (ledger.number block)) :
    next.Streams received := by
  refine ⟨fun name other member => ?_, fun other member => ?_, fun empty => ?_,
    fun number inside => ?_, ?_⟩
  · obtain ⟨name, before⟩ := old name other member
    rw [frame]
    exact streams.queued name other before
  · rw [idle] at member
    have begun := streams.current other member
    rw [frame]
    exact ⟨begun.number, begun.length, begun.content, begun.nextNumber⟩
  · rw [idle] at empty
    rw [frame]
    exact streams.idle empty
  · rw [frame] at inside ⊢
    rcases streams.kept number inside with ⟨name, other, member, isNumber⟩ | already
    · rcases kept name other member with ⟨name, after⟩ | isReceived
      · exact Or.inl ⟨name, other, after, isNumber⟩
      · exact Or.inr (isNumber ▸ isReceived)
    · exact Or.inr already
  · rw [frame]
    exact streams.sent

theorem Streams.move {source target : QueueName} {block : Nat} (streams : ledger.Streams received)
    (once : ledger.Once) (moves : ledger.Moves next (.queue source) (.queue target) block)
    (frame : next = { ledger with place := next.place }) : next.Streams received := by
  have home : block ∈ ledger.place (.queue source) := by
    obtain ⟨early, late, before, -⟩ := moves.split
    rw [before]
    simp
  refine streams.moved frame (moves.others _ nofun nofun) (fun name other member => ?_)
    fun name other member => Or.inl ?_
  · rw [moves.mem_iff once] at member
    split at member
    · rename_i same
      exact ⟨source, same ▸ home⟩
    · exact ⟨name, member⟩
  · by_cases same : other = block
    · refine ⟨target, ?_⟩
      rw [moves.mem_iff once, if_pos same]
    · refine ⟨name, ?_⟩
      rw [moves.mem_iff once, if_neg same]
      exact member

theorem Streams.release {source : QueueName} {block : Nat} (streams : ledger.Streams received)
    (once : ledger.Once) (moves : ledger.Moves next (.queue source) .free block)
    (frame : next = { ledger with place := next.place })
    (isReceived : received (ledger.number block)) : next.Streams received := by
  have fewer : ∀ name other, other ∈ next.place (.queue name) ↔
      other ≠ block ∧ other ∈ ledger.place (.queue name) := by
    intro name other
    rw [moves.mem_iff once]
    split
    · rename_i same
      exact iff_of_false nofun fun both => both.1 same
    · rename_i different
      exact (and_iff_right different).symm
  refine streams.moved frame (moves.others _ nofun nofun)
    (fun name other member => ⟨name, ((fewer name other).mp member).2⟩) fun name other member => ?_
  by_cases same : other = block
  · rw [same]
    exact Or.inr isReceived
  · exact Or.inl ⟨name, (fewer name other).mpr ⟨same, member⟩⟩

/-! ### Writing -/

theorem Streams.take {block : Nat} {rest : List Nat} (streams : ledger.Streams received)
    (once : ledger.Once) (stack : ledger.place .free = block :: rest)
    (idle : ledger.place .current = []) (short : Short ledger.stream) :
    (ledger.take block rest).Streams received := by
  have home : block ∈ ledger.place .free := by rw [stack]; simp
  have others : ∀ name, ∀ other ∈ ledger.place (.queue name), other ≠ block := by
    rintro name other member rfl
    have wrong := once.apart other (.queue name) .free member home
    exact nomatch wrong
  have numbers : ∀ name, ∀ other ∈ ledger.place (.queue name),
      (ledger.take block rest).number other = ledger.number other :=
    fun name other member => Function.update_of_ne (others name other member) _ _
  obtain ⟨whole, nextNumber⟩ := streams.idle idle
  refine ⟨fun name other member => ?_, fun other member => ?_, fun empty => ?_,
    fun number inside => ?_, streams.sent⟩
  · rw [numbers name other member]
    exact streams.queued name other member
  · obtain rfl : other = block := List.mem_singleton.mp member
    have number : (ledger.take other rest).number other = ledger.nextNumber :=
      Function.update_self _ _ _
    refine ⟨?_, whole.symm, ?_, ?_⟩
    · rw [number]
      exact nextNumber
    · have all : ledger.stream.length ≤
          fieldDataLen * (ledger.stream.length / fieldDataLen) := by
        have division := Nat.div_add_mod ledger.stream.length fieldDataLen
        omega
      exact (List.drop_eq_nil_of_le all).symm
    · change (ledger.nextNumber + 1).toNat = ledger.stream.length / fieldDataLen + 1
      have bound : ledger.stream.length / fieldDataLen < 2 ^ 31 - 3 :=
        Nat.div_lt_of_lt_mul short
      rw [UInt32.toNat_add, nextNumber]
      exact Nat.mod_eq_of_lt (by change _ + 1 < 4294967296; omega)
  · exact absurd empty (List.cons_ne_nil block [])
  · rcases streams.kept number inside with ⟨name, other, member, isNumber⟩ | isReceived
    · exact Or.inl ⟨name, other, member, (numbers name other member).trans isNumber⟩
    · exact Or.inr isReceived

theorem Streams.copied {block : Nat} (streams : ledger.Streams received)
    (current : ledger.place .current = [block]) (data : List UInt8) :
    ((ledger.copy block data).buf block).slice 0 (ledger.length + data.length) =
      (ledger.stream ++ data).drop (fieldDataLen * (ledger.stream.length / fieldDataLen)) := by
  have begun := streams.current block (by rw [current]; exact List.mem_singleton_self block)
  have inside : fieldDataLen * (ledger.stream.length / fieldDataLen) ≤ ledger.stream.length :=
    Nat.mul_div_le _ _
  have buf : (ledger.copy block data).buf block = (ledger.buf block).put ledger.length data :=
    Function.update_self _ _ _
  rw [List.drop_append_of_le_length inside, ← begun.content, buf, Image.slice_add,
    Image.slice_put_disjoint _ _ _ _ _ (Or.inl (by omega)), Nat.zero_add, Image.slice_put_self]

theorem copy_buf_queued {block : Nat} (once : ledger.Once)
    (current : ledger.place .current = [block]) (data : List UInt8) (name : QueueName)
    {other : Nat} (member : other ∈ ledger.place (.queue name)) :
    (ledger.copy block data).buf other = ledger.buf other := by
  have home : block ∈ ledger.place .current := by rw [current]; exact List.mem_singleton_self block
  refine Function.update_of_ne ?_ _ _
  rintro rfl
  have wrong := once.apart other (.queue name) .current member home
  exact nomatch wrong

theorem Streams.copy {block : Nat} {data : List UInt8} (streams : ledger.Streams received)
    (once : ledger.Once) (current : ledger.place .current = [block])
    (room : ledger.length + data.length < fieldDataLen) :
    (ledger.copy block data).Streams received := by
  have begun := streams.current block (by rw [current]; exact List.mem_singleton_self block)
  have length := begun.length
  have whole : (ledger.stream ++ data).length / fieldDataLen =
      ledger.stream.length / fieldDataLen := by
    rw [List.length_append, fieldDataLen] at *
    omega
  have part : ledger.length + data.length = (ledger.stream ++ data).length % fieldDataLen := by
    rw [List.length_append, fieldDataLen] at *
    omega
  refine ⟨fun name other member => ?_, fun other member => ?_, fun empty => ?_,
    fun number inside => ?_, fun message member => (streams.sent message member).append data⟩
  · rw [copy_buf_queued once current data name member]
    exact (streams.queued name other member).append data
  · obtain rfl : other = block := by
      change other ∈ ledger.place .current at member
      rw [current] at member
      exact List.mem_singleton.mp member
    refine ⟨begun.number.trans whole.symm, part, ?_, begun.nextNumber.trans (congrArg (· + 1) whole.symm)⟩
    change ((ledger.copy other data).buf other).slice 0 (ledger.length + data.length) =
      (ledger.stream ++ data).drop (fieldDataLen * ((ledger.stream ++ data).length / fieldDataLen))
    rw [whole]
    exact streams.copied current data
  · exact absurd (current.symm.trans empty) (List.cons_ne_nil block [])
  · change number.toNat < (ledger.stream ++ data).length / fieldDataLen at inside
    rw [whole] at inside
    exact streams.kept number inside

theorem Streams.fill {block : Nat} {data : List UInt8} (streams : ledger.Streams received)
    (once : ledger.Once) (current : ledger.place .current = [block])
    (full : ledger.length + data.length = fieldDataLen) :
    ((ledger.copy block data).enqueue block).Streams received := by
  have home : block ∈ ledger.place .current := by rw [current]; exact List.mem_singleton_self block
  have begun := streams.current block home
  have length := begun.length
  have more : (ledger.stream ++ data).length =
      fieldDataLen * (ledger.stream.length / fieldDataLen + 1) := by
    have division := Nat.div_add_mod ledger.stream.length fieldDataLen
    rw [List.length_append, Nat.mul_succ]
    omega
  have whole : (ledger.stream ++ data).length / fieldDataLen =
      ledger.stream.length / fieldDataLen + 1 := by
    rw [more, Nat.mul_div_cancel_left _ (by decide)]
  have members : ∀ name other,
      other ∈ ((ledger.copy block data).enqueue block).place (.queue name) ↔
        if other = block then name = .pending else other ∈ ledger.place (.queue name) := by
    intro name other
    rw [(enqueue_moves current).mem_iff once]
    split
    · exact ⟨Place.queue.inj, congrArg _⟩
    · rfl
  refine ⟨fun name other member => ?_, fun other member => absurd member List.not_mem_nil,
    fun _ => ⟨?_, ?_⟩, fun number inside => ?_,
    fun message member => (streams.sent message member).append data⟩
  · rw [members] at member
    split at member
    · rename_i same
      subst same
      have content := streams.copied current data
      rw [full] at content
      change IsBlock (ledger.stream ++ data) (ledger.number other)
        (((ledger.copy other data).buf other).slice 0 fieldDataLen)
      refine ⟨?_, ?_⟩
      · rw [begun.number, more]
      · rw [begun.number, content]
        refine (List.take_of_length_le ?_).symm
        rw [List.length_drop, more, Nat.mul_succ]
        omega
    · have same := copy_buf_queued once current data name member
      change IsBlock _ _ (((ledger.copy block data).buf other).slice 0 fieldDataLen)
      rw [same]
      exact (streams.queued name other member).append data
  · change (ledger.stream ++ data).length % fieldDataLen = 0
    rw [more]
    exact Nat.mul_mod_right _ _
  · exact begun.nextNumber.trans whole.symm
  · change number.toNat < (ledger.stream ++ data).length / fieldDataLen at inside
    rw [whole] at inside
    by_cases last : number.toNat = ledger.stream.length / fieldDataLen
    · refine Or.inl ⟨.pending, block, (members _ _).mpr (by rw [if_pos rfl]), ?_⟩
      exact UInt32.toNat_inj.mp (begun.number.trans last.symm)
    · rcases streams.kept number (by omega) with ⟨name, other, member, isNumber⟩ | isReceived
      · refine Or.inl ⟨name, other, (members _ _).mpr ?_, isNumber⟩
        rw [if_neg ?_]
        · exact member
        · rintro rfl
          have wrong := once.apart other (.queue name) .current member home
          exact nomatch wrong
      · exact Or.inr isReceived

/-! ### Steps -/

theorem Step.stream_prefix (step : Step acked ledger next) : ledger.stream <+: next.stream := by
  cases step with
  | copy current room => exact List.prefix_append _ _
  | fill current full => exact List.prefix_append _ _
  | _ => exact List.prefix_rfl

theorem Step.messages_subset (step : Step acked ledger next) : ledger.messages ⊆ next.messages := by
  cases step with
  | transmit queued => exact List.subset_append_left _ _
  | _ => exact List.Subset.refl _

theorem Steps.messages_subset (steps : Steps acked ledger next) :
    ledger.messages ⊆ next.messages := by
  induction steps with
  | refl => exact List.Subset.refl _
  | tail _ step inductionHypothesis =>
    exact List.Subset.trans inductionHypothesis step.messages_subset

theorem Step.streams (step : Step acked ledger next) (once : ledger.Once)
    (short : Short ledger.stream) (acks : ∀ number, acked number → received number)
    (streams : ledger.Streams received) : next.Streams received := by
  cases step with
  | take stack idle => exact streams.take once stack idle short
  | copy current room => exact streams.copy once current room
  | fill current full => exact streams.fill once current full
  | @transmit name block queued =>
    refine ⟨streams.queued, fun other member => ?_, streams.idle, streams.kept,
      fun message member => ?_⟩
    · have begun := streams.current other member
      exact ⟨begun.number, begun.length, begun.content, begun.nextNumber⟩
    · rcases List.mem_append.mp member with earlier | now
      · exact streams.sent message earlier
      · rw [List.mem_singleton.mp now]
        exact streams.queued name block queued
  | requeue apart split => exact streams.move once (requeue_moves apart split) rfl
  | release split isAcked => exact streams.release once (release_moves split) rfl (acks _ isAcked)

theorem Steps.streams (steps : Steps acked ledger next) (sound : ledger.Sound)
    (short : Short next.stream) (acks : ∀ number, acked number → received number)
    (streams : ledger.Streams received) : next.Streams received := by
  induction steps with
  | refl => exact streams
  | @tail middle last before step inductionHypothesis =>
    have short' : Short middle.stream := lt_of_le_of_lt step.stream_prefix.length_le short
    exact step.streams (Steps.sound before sound).once short' acks (inductionHypothesis short')

variable {name : QueueName}

theorem Step.queued (step : Step acked ledger next) (once : ledger.Once) {block : Nat}
    (member : block ∈ ledger.place (.queue name)) (unacked : ¬ acked (ledger.number block)) :
    (∃ name', block ∈ next.place (.queue name')) ∧ next.number block = ledger.number block ∧
      next.buf block = ledger.buf block := by
  cases step with
  | @take other rest stack idle =>
    refine ⟨⟨name, member⟩, Function.update_of_ne ?_ _ _, rfl⟩
    rintro rfl
    have home : block ∈ ledger.place .free := by rw [stack]; exact List.mem_cons_self
    have wrong := once.apart block (.queue name) .free member home
    exact nomatch wrong
  | copy current room =>
    exact ⟨⟨name, member⟩, rfl, copy_buf_queued once current _ name member⟩
  | @fill other data current full =>
    refine ⟨⟨name, ?_⟩, rfl, copy_buf_queued once current data name member⟩
    rw [(enqueue_moves current).mem_iff once, if_neg]
    · exact member
    · rintro rfl
      have home : block ∈ ledger.place .current := by rw [current]; exact List.mem_cons_self
      have wrong := once.apart block (.queue name) .current member home
      exact nomatch wrong
  | transmit queued => exact ⟨⟨name, member⟩, rfl, rfl⟩
  | @requeue source target early late other apart split =>
    by_cases same : block = other
    · refine ⟨⟨target, ?_⟩, rfl, rfl⟩
      rw [(requeue_moves apart split).mem_iff once, if_pos same]
    · refine ⟨⟨name, ?_⟩, rfl, rfl⟩
      rw [(requeue_moves apart split).mem_iff once, if_neg same]
      exact member
  | @release source early late other split isAcked =>
    have different : block ≠ other := by
      rintro rfl
      exact unacked isAcked
    refine ⟨⟨name, ?_⟩, rfl, rfl⟩
    rw [(release_moves split).mem_iff once, if_neg different]
    exact member

theorem Steps.queued (steps : Steps acked ledger next) (sound : ledger.Sound) {block : Nat}
    (member : block ∈ ledger.place (.queue name)) (unacked : ¬ acked (ledger.number block)) :
    (∃ name', block ∈ next.place (.queue name')) ∧ next.number block = ledger.number block ∧
      next.buf block = ledger.buf block := by
  induction steps with
  | refl => exact ⟨⟨name, member⟩, rfl, rfl⟩
  | tail before step inductionHypothesis =>
    obtain ⟨⟨between, inside⟩, number, buf⟩ := inductionHypothesis
    rw [← number] at unacked
    obtain ⟨queued, number', buf'⟩ := step.queued (Steps.sound before sound).once inside unacked
    exact ⟨queued, number'.trans number, buf'.trans buf⟩

end Ledger

end Urus.DataFlashMavlink
