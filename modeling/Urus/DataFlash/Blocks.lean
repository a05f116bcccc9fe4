/-
This file connects the linked blocks with their ledger. A state represents a ledger when its free
stack and its queues are the lists of the ledger, linked from the first block to a null pointer, and
the count of the free blocks is their number. The operations on the blocks do what the ledger's steps
do, and the loops along the queues end.
-/

import Urus.DataFlash.Ledger

namespace Urus.DataFlashMavlink

/-- The blocks of a state are linked as the ledger says. -/
structure Represents (state : State) (ledger : Ledger) : Prop where
  initialised : state.initialised = true
  errors : state.internalErrors = 0
  blockcount : state.blockcount.toNat = ledger.blockcount
  free : Chain state.next state.blocksFree (ledger.place .free) none
  queues : ∀ name, Queued state.next (state.queues name).oldest (state.queues name).youngest
    (ledger.place (.queue name))
  current : Chain state.next state.currentBlock (ledger.place .current) none
  length : ledger.length = state.latestBlockLen.toNat
  blockcountFree : state.blockcountFree.toNat = (ledger.place .free).length
  nextNumber : ledger.nextNumber = state.nextSeqNum
  number : ∀ block, ledger.number block = (state.blocks block).seqno
  buf : ∀ block, ledger.buf block = (state.blocks block).buf
  messages : ledger.messages = state.uart.map fun message => (message.seqno, message.data)

variable {state : State} {ledger : Ledger} {acked : UInt32 → Prop}

/-! ### Pointers -/

theorem next_update (blocks : Nat → DmBlock) (block : Nat) (node : DmBlock) :
    (fun other => (Function.update blocks block node other).next) =
      Function.update (fun other => (blocks other).next) block node.next := by
  funext other
  by_cases same : other = block
  · subst same
    rw [Function.update_self, Function.update_self]
  · rw [Function.update_of_ne same, Function.update_of_ne same]

@[simp] theorem State.setNext_next (state : State) (block : Nat) (next : Option Nat) :
    (state.setNext block next).next = Function.update state.next block next :=
  next_update _ _ _

theorem update_same {Value : Type} (field : DmBlock → Value) (blocks : Nat → DmBlock) {block : Nat}
    {node : DmBlock} (same : field node = field (blocks block)) (other : Nat) :
    field (Function.update blocks block node other) = field (blocks other) := by
  by_cases isBlock : other = block
  · subst isBlock
    rw [Function.update_self, same]
  · rw [Function.update_of_ne isBlock]

@[simp] theorem State.setNext_seqno (state : State) (block : Nat) (next : Option Nat)
    (other : Nat) : ((state.setNext block next).blocks other).seqno = (state.blocks other).seqno :=
  update_same DmBlock.seqno state.blocks (by rfl) other

@[simp] theorem State.setNext_buf (state : State) (block : Nat) (next : Option Nat) (other : Nat) :
    ((state.setNext block next).blocks other).buf = (state.blocks other).buf :=
  update_same DmBlock.buf state.blocks (by rfl) other

section

variable (represents : Represents state ledger)

include represents

/-- The pointers of the blocks and one queue change. -/
theorem Represents.relink {linked : State}
    {name : QueueName} {queue : DmBlockQueue} {blocks : List Nat}
    (frame : linked = { state with
      blocks := linked.blocks, queues := Function.update state.queues name queue })
    (seqno : ∀ block, (linked.blocks block).seqno = (state.blocks block).seqno)
    (buf : ∀ block, (linked.blocks block).buf = (state.blocks block).buf)
    (others : ∀ place, place ≠ .queue name → ∀ block ∈ ledger.place place,
      linked.next block = state.next block)
    (queued : Queued linked.next queue.oldest queue.youngest blocks) :
    Represents linked (ledger.set (.queue name) blocks) where
  initialised := by rw [frame]; exact represents.initialised
  errors := by rw [frame]; exact represents.errors
  blockcount := by rw [frame]; exact represents.blockcount
  free := by
    have same : linked.blocksFree = state.blocksFree := by rw [frame]
    rw [same]
    exact represents.free.congr (others .free nofun)
  queues other := by
    have same : linked.queues = Function.update state.queues name queue := by rw [frame]
    by_cases isName : other = name
    · subst isName
      rw [same, Function.update_self, Ledger.set_place_self]
      exact queued
    · have apart : Place.queue other ≠ .queue name := fun same => isName (Place.queue.inj same)
      rw [same, Function.update_of_ne isName, Ledger.set_place_of_ne _ apart]
      exact (represents.queues other).congr (others _ apart)
  current := by
    have same : linked.currentBlock = state.currentBlock := by rw [frame]
    rw [same]
    exact represents.current.congr (others .current nofun)
  length := by rw [frame]; exact represents.length
  blockcountFree := by rw [frame]; exact represents.blockcountFree
  nextNumber := by rw [frame]; exact represents.nextNumber
  number block := (represents.number block).trans (seqno block).symm
  buf block := (represents.buf block).trans (buf block).symm
  messages := by rw [frame]; exact represents.messages

/-! ### Queues -/

theorem Represents.enqueueBlock (separate : ledger.Separate)
    (name : QueueName) {block : Nat} (fresh : block ∉ ledger.place (.queue name))
    (ends : state.next block = none) :
    Represents (state.enqueueBlock name block)
      (ledger.set (.queue name) (ledger.place (.queue name) ++ [block])) := by
  have queued := represents.queues name
  unfold State.enqueueBlock
  dsimp only
  cases isYoungest : (state.queues name).youngest with
  | none =>
    rw [isYoungest] at queued
    refine represents.relink rfl (fun _ => rfl) (fun _ => rfl) (fun _ _ _ _ => rfl) ?_
    rw [queued.empty]
    exact ⟨⟨rfl, ends⟩, rfl⟩
  | some youngest =>
    rw [isYoungest] at queued
    have last : youngest ∈ ledger.place (.queue name) := by
      obtain ⟨front, split⟩ := queued.split_last
      rw [split]
      simp
    refine represents.relink rfl (fun other => state.setNext_seqno _ _ other)
      (fun other => state.setNext_buf _ _ other) (fun place apart other member => ?_) ?_
    · change (state.setNext youngest (some block)).next other = state.next other
      rw [State.setNext_next]
      refine Function.update_of_ne (fun same => apart ?_) _ _
      exact separate.apart youngest place _ (same ▸ member) last
    · change Queued (state.setNext youngest (some block)).next _ _ _
      rw [State.setNext_next]
      exact queued.enqueue (separate.distinct _) fresh ends

theorem Represents.unlink (separate : ledger.Separate)
    {name : QueueName} {early late : List Nat} {block : Nat}
    (split : ledger.place (.queue name) = early ++ block :: late) :
    Represents (state.unlink name early.getLast? block)
        (ledger.set (.queue name) (early ++ late)) ∧
      (state.unlink name early.getLast? block).next block = none := by
  have queued := represents.queues name
  have distinct := separate.distinct (.queue name)
  have removed := (separate.remove split).2 (.queue name)
  rw [Ledger.set_place_self] at removed
  -- the blocks at other places are none of this queue
  have elsewhere : ∀ node ∈ ledger.place (.queue name), ∀ place, place ≠ .queue name →
      ∀ other ∈ ledger.place place, other ≠ node :=
    fun node inside place apart other member same =>
      apart (separate.apart node place _ (same ▸ member) inside)
  have home : block ∈ ledger.place (.queue name) := by rw [split]; simp
  rw [split] at queued distinct
  refine ⟨?_, ?_⟩
  · rcases early.eq_nil_or_concat with rfl | ⟨front, prev, rfl⟩
    · unfold State.unlink
      dsimp only [List.getLast?_nil]
      by_cases single : (state.queues name).youngest = (state.queues name).oldest
      · obtain rfl : late = [] := (queued.oldest_eq_youngest distinct).mp single
        rw [if_pos single]
        refine represents.relink rfl (fun other => State.setNext_seqno _ _ _ other)
          (fun other => State.setNext_buf _ _ _ other) (fun place apart other member => ?_)
          (queued_nil _)
        rw [State.setNext_next]
        exact Function.update_of_ne (elsewhere block home place apart other member) _ _
      · have more : late ≠ [] := fun empty =>
          single ((queued.oldest_eq_youngest distinct).mpr empty)
        rw [if_neg single]
        refine represents.relink rfl (fun other => State.setNext_seqno _ _ _ other)
          (fun other => State.setNext_buf _ _ _ other) (fun place apart other member => ?_) ?_
        · rw [State.setNext_next]
          exact Function.update_of_ne (elsewhere block home place apart other member) _ _
        · refine (queued.unlink_oldest more).congr fun other member => ?_
          rw [State.setNext_next]
          exact Function.update_of_ne (ne_of_mem_of_not_mem member removed) _ _
    · unfold State.unlink
      have behind : prev ∈ ledger.place (.queue name) := by rw [split]; simp
      rw [List.concat_eq_append] at split queued distinct removed ⊢
      rw [List.append_assoc] at queued distinct
      have middle := queued.unlink distinct
      rw [List.getLast?_append, List.getLast?_singleton, Option.some_or]
      refine represents.relink rfl (fun other => ?_) (fun other => ?_)
        (fun place apart other member => ?_) ?_
      · exact (State.setNext_seqno _ _ _ _).trans (State.setNext_seqno _ _ _ _)
      · exact (State.setNext_buf _ _ _ _).trans (State.setNext_buf _ _ _ _)
      · rw [State.setNext_next, State.setNext_next]
        refine (Function.update_of_ne (elsewhere block home place apart other member) _ _).trans ?_
        exact Function.update_of_ne (elsewhere prev behind place apart other member) _ _
      · rw [State.setNext_next, State.setNext_next]
        refine Queued.congr ?_ fun other member =>
          Function.update_of_ne (ne_of_mem_of_not_mem member removed) _ _
        rw [List.append_cons] at middle
        change Queued (Function.update state.next prev (state.next block)) _ _ _
        split
        · rename_i youngest
          rw [if_pos youngest] at middle
          exact middle
        · rename_i other
          rw [if_neg other] at middle
          exact middle
  · unfold State.unlink
    rw [State.setNext_next]
    exact Function.update_self _ _ _

/-- A block is looked for by its number. It is the first one with that number, and it is taken out of
the queue. -/
theorem Represents.dequeueSeqno (once : ledger.Once)
    (name : QueueName) (seqno : UInt32) :
    ((∀ block ∈ ledger.place (.queue name), ledger.number block ≠ seqno) ∧
        state.dequeueSeqno name seqno = some (none, state)) ∨
      ∃ early block late next, ledger.place (.queue name) = early ++ block :: late ∧
        (∀ other ∈ early, ledger.number other ≠ seqno) ∧ ledger.number block = seqno ∧
        state.dequeueSeqno name seqno = some (some block, next) ∧
        Represents next (ledger.set (.queue name) (early ++ late)) ∧ next.next block = none := by
  have queued := represents.queues name
  have enough : (ledger.place (.queue name)).length ≤ state.blockcount.toNat := by
    rw [represents.blockcount]
    exact once.length_le _
  unfold State.dequeueSeqno
  dsimp only
  generalize isWanted : (fun block => decide ((state.blocks block).seqno = seqno)) = wanted
  have wanted_eq : ∀ block, wanted block = decide (ledger.number block = seqno) := by
    intro block
    rw [← isWanted, represents.number]
  rcases search_chain wanted queued.1 enough none with
    ⟨nowhere, outcome⟩ | ⟨early, block, late, split, before, found, outcome⟩
  · rw [outcome]
    refine Or.inl ⟨fun block member => ?_, rfl⟩
    exact of_decide_eq_false ((wanted_eq block).symm.trans (nowhere block member))
  · rw [outcome, Option.or_none]
    obtain ⟨unlinked, ends⟩ := represents.unlink once.toSeparate split
    refine Or.inr ⟨early, block, late, _, split, fun other member => ?_, ?_, rfl, unlinked, ends⟩
    · exact of_decide_eq_false ((wanted_eq other).symm.trans (before other member))
    · exact of_decide_eq_true ((wanted_eq block).symm.trans found)

/-! ### Free blocks -/

theorem Represents.nextBlock (separate : ledger.Separate) :
    (ledger.place .free = [] ∧ state.nextBlock = (none, state)) ∨
      ∃ block rest, ledger.place .free = block :: rest ∧ state.nextBlock.1 = some block ∧
        Represents { state.nextBlock.2 with currentBlock := some block } (ledger.take block rest) := by
  have stack := represents.free
  have count := represents.blockcountFree
  cases top : ledger.place .free with
  | nil =>
    rw [top] at stack
    have empty : state.blocksFree = none := stack
    refine Or.inl ⟨rfl, ?_⟩
    rw [State.nextBlock, empty]
  | cons block rest =>
    rw [top] at stack count
    obtain ⟨isTop, behind⟩ := stack
    have distinct := separate.distinct .free
    rw [top, List.nodup_cons] at distinct
    have home : block ∈ ledger.place .free := by rw [top]; simp
    refine Or.inr ⟨block, rest, rfl, ?_, ?_⟩
    · rw [State.nextBlock, isTop]
    · rw [State.nextBlock, isTop]
      refine ⟨represents.initialised, represents.errors, represents.blockcount, ?_, fun name => ?_,
        ⟨rfl, ?_⟩, rfl, ?_, ?_, fun other => ?_, fun other => ?_, represents.messages⟩
      · change Chain (fun other => (Function.update state.blocks block _ other).next) _ rest none
        rw [next_update]
        exact behind.update distinct.1 _
      · change Queued (fun other => (Function.update state.blocks block _ other).next) _ _
          (ledger.place (.queue name))
        rw [next_update]
        refine (represents.queues name).congr fun other member => Function.update_of_ne ?_ _ _
        rintro rfl
        have wrong := separate.apart other (.queue name) .free member home
        exact nomatch wrong
      · exact congrArg DmBlock.next (Function.update_self block _ state.blocks)
      · change (state.blockcountFree - 1).toNat = rest.length
        rw [List.length_cons] at count
        rw [UInt8.toNat_sub_of_le _ _ (UInt8.le_iff_toNat_le.mpr (by rw [count]; exact Nat.succ_pos _)),
          count]
        rfl
      · exact congrArg (· + 1) represents.nextNumber
      · change Function.update ledger.number block ledger.nextNumber other =
          (Function.update state.blocks block _ other).seqno
        by_cases same : other = block
        · subst same
          rw [Function.update_self, Function.update_self]
          exact represents.nextNumber
        · rw [Function.update_of_ne same, Function.update_of_ne same]
          exact represents.number other
      · exact (represents.buf other).trans (update_same DmBlock.buf state.blocks (by rfl) other).symm

/-- A block with the number is set free, if there is one in the queue. -/
theorem Represents.freeSeqnoFromQueue (once : ledger.Once) (name : QueueName) (seqno : UInt32) :
    ((∀ block ∈ ledger.place (.queue name), ledger.number block ≠ seqno) ∧
        state.freeSeqnoFromQueue seqno name = some (false, state)) ∨
      ∃ early block late next, ledger.place (.queue name) = early ++ block :: late ∧
        ledger.number block = seqno ∧
        state.freeSeqnoFromQueue seqno name = some (true, next) ∧
        Represents next ((ledger.set (.queue name) (early ++ late)).set .free
          (block :: ledger.place .free)) := by
  unfold State.freeSeqnoFromQueue
  rcases represents.dequeueSeqno once name seqno with
    ⟨nowhere, outcome⟩ | ⟨early, block, late, next, split, -, found, outcome, unlinked, -⟩
  · rw [outcome]
    exact Or.inl ⟨nowhere, rfl⟩
  · rw [outcome]
    refine Or.inr ⟨early, block, late, _, split, found, rfl, ?_⟩
    have fresh := (once.toSeparate.remove split).2
    have bound : (ledger.place .free).length + 1 ≤ ledger.blockcount :=
      (once.move (Ledger.release_moves split) rfl).length_le .free
    have small : ledger.blockcount < 256 := represents.blockcount ▸ state.blockcount.toNat_lt
    have count := unlinked.blockcountFree
    have freeFresh := fresh .free
    have stack := unlinked.free
    rw [Ledger.set_queue_free] at count freeFresh stack
    refine ⟨unlinked.initialised, unlinked.errors, unlinked.blockcount, ?_, fun other => ?_,
      ?_, unlinked.length, ?_, unlinked.nextNumber, fun other => ?_, fun other => ?_,
      unlinked.messages⟩
    · rw [Ledger.set_place_self]
      change Chain (next.setNext block next.blocksFree).next _ _ _
      rw [State.setNext_next]
      exact stack.push freeFresh
    · have queued := unlinked.queues other
      rw [Ledger.set_free_queue]
      change Queued (next.setNext block next.blocksFree).next _ _ _
      rw [State.setNext_next]
      exact queued.congr fun node member =>
        Function.update_of_ne (ne_of_mem_of_not_mem member (fresh _)) _ _
    · change Chain (next.setNext block next.blocksFree).next _ _ _
      rw [State.setNext_next]
      exact unlinked.current.update (fresh .current) _
    · rw [Ledger.set_place_self, List.length_cons]
      change (next.blockcountFree + 1).toNat = _
      rw [UInt8.toNat_add, count]
      exact Nat.mod_eq_of_lt (lt_of_le_of_lt bound small)
    · exact (unlinked.number other).trans (State.setNext_seqno _ _ _ _).symm
    · exact (unlinked.buf other).trans (State.setNext_buf _ _ _ _).symm

end

/-! ### Sending -/

/-- A state that represents what a ledger becomes, with so many bytes more in its stream. -/
def Reaches (acked : UInt32 → Prop) (ledger : Ledger) (data : List UInt8) (next : State) : Prop :=
  ∃ reached, ledger.Steps acked reached ∧ Represents next reached ∧
    reached.stream = ledger.stream ++ data

theorem Represents.reaches (represents : Represents state ledger) :
    Reaches acked ledger [] state :=
  ⟨ledger, .refl, represents, (List.append_nil _).symm⟩

theorem Represents.sendLogBlock (represents : Represents state ledger) (block : Nat)
    (attempts : Attempts) :
    (∃ rest, state.sendLogBlock block attempts = (false, state, rest)) ∨
      ∃ next rest, state.sendLogBlock block attempts = (true, next, rest) ∧
        Represents next (ledger.transmit block) ∧ next.next = state.next ∧
        next.queues = state.queues := by
  unfold State.sendLogBlock
  rw [if_neg (by rw [represents.initialised]; decide)]
  rcases attempts with _ | ⟨_ | ⟨lastSent, lastSendTime⟩, rest⟩
  · exact Or.inl ⟨[], rfl⟩
  · exact Or.inl ⟨rest, rfl⟩
  · have links : (fun other => (Function.update state.blocks block
        { state.blocks block with lastSent := lastSent } other).next) = state.next := by
      rw [next_update]
      exact Function.update_eq_self block state.next
    refine Or.inr ⟨_, rest, rfl, ⟨represents.initialised, represents.errors, represents.blockcount,
      ?_, fun name => ?_, ?_, represents.length, represents.blockcountFree,
      represents.nextNumber, fun other => ?_, fun other => ?_, ?_⟩, links, rfl⟩
    · change Chain (fun other => (Function.update state.blocks block _ other).next) _ _ _
      rw [links]
      exact represents.free
    · change Queued (fun other => (Function.update state.blocks block _ other).next) _ _ _
      rw [links]
      exact represents.queues name
    · change Chain (fun other => (Function.update state.blocks block _ other).next) _ _ _
      rw [links]
      exact represents.current
    · exact (represents.number other).trans (update_same DmBlock.seqno state.blocks (by rfl) other).symm
    · exact (represents.buf other).trans (update_same DmBlock.buf state.blocks (by rfl) other).symm
    · change ledger.messages ++ _ = (state.uart ++ _).map _
      rw [List.map_append, represents.messages, represents.number, represents.buf]
      rfl

theorem Represents.setSentCount (represents : Represents state ledger) (name : QueueName)
    (count : UInt32) :
    Represents (state.setQueue name { state.queues name with sentCount := count }) ledger := by
  have relinked : Represents (state.setQueue name { state.queues name with sentCount := count })
      (ledger.set (.queue name) (ledger.place (.queue name))) :=
    represents.relink rfl (fun _ => rfl) (fun _ => rfl) (fun _ _ _ _ => rfl)
      (represents.queues name)
  rwa [Ledger.set_self] at relinked

end Urus.DataFlashMavlink
