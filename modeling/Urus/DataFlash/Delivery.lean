/-
This file proves that the client gets the log. The network may lose the blocks that are sent, repeat
them and deliver them in any order, and the same goes for what the client answers. The client
acknowledges a block only when it has received it.

All blocks with one number are the same, and block by block they are the bytes that were written. A
block waits to be sent or acknowledged until it was received. So the blocks from the first one on, as
far as the client has them, are the beginning of the log.
-/

import Urus.DataFlash.Ownership
import Urus.DataFlash.Stream

namespace Urus.DataFlashMavlink

/-! ### The vehicle and its client -/

/-- The vehicle, the bytes of all writes that were accepted in this log, and the blocks that the
client has received. -/
structure System where
  vehicle : State
  accepted : List UInt8
  received : List RemoteLogDataBlock

/-- The vehicle works, or a block arrives at the client. -/
inductive Happening
  | vehicle (event : Event)
  | deliver (block : RemoteLogDataBlock)

/-- When a client begins a log, nothing was written or sent in it. -/
def System.step (system : System) : Happening → Option System
  | .vehicle event => (system.vehicle.step event).map fun next =>
    if event.begins system.vehicle then ⟨{ next with uart := [] }, [], []⟩
    else ⟨next, system.accepted ++ event.accepted system.vehicle, system.received⟩
  | .deliver block => some { system with received := system.received ++ [block] }

/-- The client has received the number. -/
def Received (system : System) (number : UInt32) : Prop :=
  ∃ block ∈ system.received, block.seqno = number

/-- Only blocks that were sent in this log arrive. The client acknowledges a number when it has
received a block with it, and the log stays shorter than the numbers go. -/
def Fair (system : System) : Happening → Prop
  | .vehicle event => Called system.vehicle event ∧
    (∀ number, event.acks number → Received system number) ∧
    Short (system.accepted ++ event.accepted system.vehicle)
  | .deliver block => block ∈ system.vehicle.uart

instance decidableCalled (state : State) : (event : Event) → Decidable (Called state event)
  | .write _ _ _ buffer => inferInstanceAs (Decidable (state.initialised = true ∧
      (state.currentBlock = none → state.latestBlockLen = 0 →
        buffer.length ≤ fieldDataLen * state.blockcount.toNat)))
  | .push .. | .resend .. | .status .. | .stop .. | .timeout | .collect .. => .isTrue trivial

instance decidableAcksReceived (system : System) (event : Event) :
    Decidable (∀ number, event.acks number → Received system number) :=
  match event with
  | .status _ _ kind acked _ =>
    decidable_of_iff (kind ≠ 0 → acked ≠ blockStop → acked ≠ blockStart →
        ∃ block ∈ system.received, block.seqno = acked)
      ⟨fun received _ ⟨ack, same, notStop, notStart⟩ => same ▸ received ack notStop notStart,
        fun received ack notStop notStart => received acked ⟨ack, rfl, notStop, notStart⟩⟩
  | .write .. | .push .. | .resend .. | .stop .. | .timeout | .collect .. => .isTrue fun _ => False.elim

instance decidableFair (system : System) : (happening : Happening) → Decidable (Fair system happening)
  | .vehicle event => inferInstanceAs (Decidable (Called system.vehicle event ∧
      (∀ number, event.acks number → Received system number) ∧
      (system.accepted ++ event.accepted system.vehicle).length < fieldDataLen * (2 ^ 31 - 3)))
  | .deliver block => inferInstanceAs (Decidable (block ∈ system.vehicle.uart))

def System.boot (calloc : Nat → Bool) : System := ⟨init calloc, [], []⟩

/-! ### What the client gets -/

/-- A block of the vehicle waits to be sent or acknowledged. -/
def Waits (state : State) (block : Nat) : Prop :=
  ∃ name blocks, Queued state.next (state.queues name).oldest (state.queues name).youngest blocks ∧
    block ∈ blocks

/-- The bytes of a block of the vehicle. -/
def State.content (state : State) (block : Nat) : List UInt8 :=
  (state.blocks block).buf.slice 0 fieldDataLen

/-- What holds of the blocks that were sent and received. -/
structure Delivered (system : System) : Prop where
  same : ∀ first ∈ system.vehicle.uart, ∀ second ∈ system.vehicle.uart,
    first.seqno = second.seqno → first.data = second.data
  sent : ∀ block ∈ system.vehicle.uart, IsBlock system.accepted block.seqno block.data
  kept : ∀ number : UInt32, number.toNat < system.accepted.length / fieldDataLen →
    (∃ block, Waits system.vehicle block ∧ (system.vehicle.blocks block).seqno = number ∧
      IsBlock system.accepted number (system.vehicle.content block)) ∨
    ∃ block ∈ system.received, block.seqno = number
  client : ∀ (count : Nat) (blocks : Nat → RemoteLogDataBlock),
    (∀ number < count, blocks number ∈ system.received ∧ (blocks number).seqno.toNat = number) →
    ((List.range count).flatMap fun number => (blocks number).data) =
      system.accepted.take (fieldDataLen * count)

/-- The step to the next system overwrites only blocks that the client has received. -/
def OverwritesReceived (system next : System) : Prop :=
  ∀ block, Waits system.vehicle block →
    (Waits next.vehicle block ∧
      (next.vehicle.blocks block).seqno = (system.vehicle.blocks block).seqno ∧
      next.vehicle.content block = system.vehicle.content block) ∨
    ∃ received ∈ system.received, received.seqno = (system.vehicle.blocks block).seqno

/-! ### The invariant -/

/-- The vehicle represents a sound ledger whose stream is what was accepted, and the client has only
blocks that were sent. -/
structure Delivering (system : System) (ledger : Ledger) : Prop where
  represents : Represents system.vehicle ledger
  sound : ledger.Sound
  stream : ledger.stream = system.accepted
  streams : ledger.Streams (Received system)
  received : ∀ block ∈ system.received, (block.seqno, block.data) ∈ ledger.messages

variable {system next : System} {ledger : Ledger}

theorem waits_iff {state : State} (represents : Represents state ledger) (block : Nat) :
    Waits state block ↔ ∃ name, block ∈ ledger.place (.queue name) := by
  constructor
  · rintro ⟨name, blocks, queued, member⟩
    rw [queued.1.unique (represents.queues name).1] at member
    exact ⟨name, member⟩
  · rintro ⟨name, member⟩
    exact ⟨name, _, represents.queues name, member⟩

theorem Delivering.message (delivering : Delivering system ledger) {number : UInt32}
    {data : List UInt8} (member : (number, data) ∈ ledger.messages) :
    IsBlock system.accepted number data := by
  rw [← delivering.stream]
  exact delivering.streams.sent _ member

theorem Delivering.sent (delivering : Delivering system ledger) {block : RemoteLogDataBlock}
    (member : block ∈ system.vehicle.uart) : (block.seqno, block.data) ∈ ledger.messages := by
  rw [delivering.represents.messages]
  exact List.mem_map_of_mem member

theorem Delivering.delivered (delivering : Delivering system ledger) : Delivered system := by
  refine ⟨fun first inFirst second inSecond same => ?_,
    fun block member => delivering.message (delivering.sent member),
    fun number inside => ?_, fun count blocks all => ?_⟩
  · rw [(delivering.message (delivering.sent inFirst)).2,
      (delivering.message (delivering.sent inSecond)).2, same]
  · rw [← delivering.stream] at inside ⊢
    rcases delivering.streams.kept number inside with ⟨name, block, member, isNumber⟩ | isReceived
    · have isBlock := delivering.streams.queued name block member
      rw [isNumber, delivering.represents.buf] at isBlock
      refine Or.inl ⟨block, (waits_iff delivering.represents block).mpr ⟨name, member⟩, ?_, isBlock⟩
      rw [← delivering.represents.number, isNumber]
    · exact Or.inr isReceived
  · induction count with
    | zero => rfl
    | succ count inductionHypothesis =>
      obtain ⟨member, isNumber⟩ := all count (Nat.lt_succ_self count)
      obtain ⟨-, content⟩ := delivering.message (delivering.received _ member)
      rw [List.range_succ, List.flatMap_append, List.flatMap_singleton, content, isNumber,
        inductionHypothesis fun number early => all number (Nat.lt_succ_of_lt early), Nat.mul_succ,
        List.take_add]

theorem cleared_streams {state : State} (first : state.nextSeqNum = 0) (nothing : state.uart = [])
    (received : UInt32 → Prop) : (cleared state).Streams received where
  queued _ _ member := absurd member List.not_mem_nil
  current _ member := absurd member List.not_mem_nil
  idle _ := by
    refine ⟨rfl, ?_⟩
    change state.nextSeqNum.toNat = 0 / fieldDataLen
    rw [first, Nat.zero_div]
    rfl
  kept number inside := by
    change number.toNat < 0 / fieldDataLen at inside
    rw [Nat.zero_div] at inside
    exact absurd inside (Nat.not_lt_zero _)
  sent message member := by
    have none : (cleared state).messages = [] := by rw [cleared, nothing]; rfl
    rw [none] at member
    exact absurd member List.not_mem_nil

theorem Delivering.step (delivering : Delivering system ledger) {happening : Happening}
    (fair : Fair system happening) :
    ∃ next ledger', system.step happening = some next ∧ Delivering next ledger' ∧
      ((∀ event, happening = .vehicle event → event.begins system.vehicle = false) →
        OverwritesReceived system next) := by
  have represents := delivering.represents
  cases happening with
  | deliver block =>
    refine ⟨_, ledger, rfl, ⟨represents, delivering.sound, delivering.stream, ?_, ?_⟩, fun _ => ?_⟩
    · have streams := delivering.streams
      refine ⟨streams.queued, streams.current, streams.idle, fun number inside => ?_, streams.sent⟩
      refine (streams.kept number inside).imp_right ?_
      rintro ⟨other, member, isNumber⟩
      exact ⟨other, List.mem_append_left _ member, isNumber⟩
    · intro other member
      rcases List.mem_append.mp member with earlier | now
      · exact delivering.received other earlier
      · rw [List.mem_singleton.mp now]
        exact delivering.sent fair
    · exact fun block waits => Or.inl ⟨waits, rfl, rfl⟩
  | vehicle event =>
    obtain ⟨called, acks, short⟩ := fair
    obtain ⟨next, outcome, after⟩ := represents.step delivering.sound called
    rw [System.step, outcome]
    cases begins : event.begins system.vehicle with
    | true =>
      rw [if_pos begins] at after
      obtain ⟨begun, first, -⟩ := after
      refine ⟨⟨{ next with uart := [] }, [], []⟩, cleared { next with uart := [] }, rfl,
        ⟨{ begun with messages := rfl }, cleared_sound _, rfl, ?_, ?_⟩, fun during => ?_⟩
      · have first' : ({ next with uart := [] } : State).nextSeqNum = 0 := first
        have nothing : ({ next with uart := [] } : State).uart = [] := rfl
        exact cleared_streams first' nothing _
      · exact fun block member => absurd member List.not_mem_nil
      · exact absurd (begins.symm.trans (during event rfl)) (by decide)
    | false =>
      rw [if_neg (by rw [begins]; decide)] at after
      obtain ⟨reached, steps, represents', stream⟩ := after
      rw [delivering.stream] at stream
      refine ⟨⟨next, system.accepted ++ event.accepted system.vehicle, system.received⟩, reached,
        rfl, ⟨represents', steps.sound delivering.sound, stream, ?_, ?_⟩, fun _ => ?_⟩
      · exact steps.streams delivering.sound (stream ▸ short) acks delivering.streams
      · exact fun block member => steps.messages_subset (delivering.received block member)
      · intro block waits
        obtain ⟨name, member⟩ := (waits_iff represents block).mp waits
        by_cases isAcked : event.acks (ledger.number block)
        · refine Or.inr ?_
          rw [← represents.number]
          exact acks _ isAcked
        · obtain ⟨queued, number, buf⟩ := steps.queued delivering.sound member isAcked
          refine Or.inl ⟨(waits_iff represents' block).mpr queued, ?_, ?_⟩
          · rw [← represents'.number, number, represents.number]
          · rw [State.content, State.content, ← represents'.buf, buf, represents.buf]

/-- Without blocks nothing is written or sent. -/
structure Silent (system : System) : Prop where
  inert : Inert system.vehicle
  uart : system.vehicle.uart = []
  accepted : system.accepted = []
  received : system.received = []

theorem Silent.delivered (silent : Silent system) : Delivered system := by
  refine ⟨fun first member => ?_, fun block member => ?_, fun number inside => ?_,
    fun count blocks all => ?_⟩
  · rw [silent.uart] at member
    exact absurd member List.not_mem_nil
  · rw [silent.uart] at member
    exact absurd member List.not_mem_nil
  · rw [silent.accepted, List.length_nil, Nat.zero_div] at inside
    exact absurd inside (Nat.not_lt_zero _)
  · cases count with
    | zero => rfl
    | succ count =>
      have first := (all 0 (Nat.succ_pos count)).1
      rw [silent.received] at first
      exact absurd first List.not_mem_nil

theorem Silent.step (silent : Silent system) {happening : Happening}
    (fair : Fair system happening) :
    ∃ next, system.step happening = some next ∧ Silent next ∧ OverwritesReceived system next := by
  cases happening with
  | deliver block =>
    change block ∈ system.vehicle.uart at fair
    rw [silent.uart] at fair
    exact absurd fair List.not_mem_nil
  | vehicle event =>
    have idle := silent.inert.initialised
    have begins : event.begins system.vehicle = false := by
      cases event <;> simp [Event.begins, idle]
    have nothing : event.accepted system.vehicle = [] := by
      cases event with
      | write taken checked finished buffer =>
        exact absurd (idle.symm.trans fair.1.1) Bool.false_ne_true
      | _ => rfl
    have same : system.step (.vehicle event) = some system := by
      rw [System.step, silent.inert.step fair.1, Option.map_some, begins, if_neg Bool.false_ne_true,
        nothing, List.append_nil]
    exact ⟨system, same, silent, fun block waits => Or.inl ⟨waits, rfl, rfl⟩⟩

/-! ### Runs -/

theorem init_fresh (calloc : Nat → Bool) :
    (init calloc).nextSeqNum = 0 ∧ (init calloc).uart = [] := by
  unfold init
  dsimp only
  split
  · exact ⟨rfl, rfl⟩
  · obtain ⟨-, -, first, nothing⟩ := freeAllBlocks_frame { constructed with
      blockcount := UInt8.ofNat (allocate calloc constructed.blockcount.toNat).2 }
    exact ⟨first, nothing⟩

theorem boot_delivering (calloc : Nat → Bool) :
    (∃ ledger, Delivering (System.boot calloc) ledger) ∨ Silent (System.boot calloc) := by
  obtain ⟨first, nothing⟩ := init_fresh calloc
  rcases init_cleared calloc with ⟨represents, -⟩ | inert
  · exact Or.inl ⟨_, represents, cleared_sound _, rfl, cleared_streams first nothing _,
      fun block member => absurd member List.not_mem_nil⟩
  · exact Or.inr ⟨inert, nothing, rfl, rfl⟩

/-- In every run from the initialisation on, over any number of logs: the blocks that were sent with
one number are the same, they are the bytes that were written, and a block is overwritten only when
the client has received it. So what the client has received without a gap is the beginning of the
log. -/
theorem log_delivered (calloc : Nat → Bool) (happenings : List Happening)
    (fair : Meets System.step Fair (System.boot calloc) happenings) :
    ∃ final, runSteps System.step (System.boot calloc) happenings = some final ∧ Delivered final ∧
      ∀ happening next, Fair final happening → System.step final happening = some next →
        (∀ event, happening = .vehicle event → event.begins final.vehicle = false) →
        OverwritesReceived final next := by
  have kept : ∀ system happening, (∃ ledger, Delivering system ledger) ∨ Silent system →
      Fair system happening → ∃ next, System.step system happening = some next ∧
        ((∃ ledger, Delivering next ledger) ∨ Silent next) := by
    rintro system happening (⟨ledger, delivering⟩ | silent) fair
    · obtain ⟨next, ledger', outcome, delivering', -⟩ := delivering.step fair
      exact ⟨next, outcome, Or.inl ⟨ledger', delivering'⟩⟩
    · obtain ⟨next, outcome, silent', -⟩ := silent.step fair
      exact ⟨next, outcome, Or.inr silent'⟩
  obtain ⟨final, reached, invariant⟩ :=
    runSteps_invariant _ kept happenings _ (boot_delivering calloc) fair
  rcases invariant with ⟨ledger, delivering⟩ | silent
  · refine ⟨final, reached, delivering.delivered, fun happening next fair stepped during => ?_⟩
    obtain ⟨next', ledger', outcome, -, overwrites⟩ := delivering.step fair
    obtain rfl := Option.some.inj (outcome.symm.trans stepped)
    exact overwrites during
  · refine ⟨final, reached, silent.delivered, fun happening next fair stepped _ => ?_⟩
    obtain ⟨next', outcome, -, overwrites⟩ := silent.step fair
    obtain rfl := Option.some.inj (outcome.symm.trans stepped)
    exact overwrites

/-- One log of eight blocks: two blocks are sent and delivered out of order, one of them twice, and
acknowledged, and one is sent again in between. -/
def smallHappenings : List Happening :=
  let sent (number : UInt32) : RemoteLogDataBlock := ⟨0, 255, 0, number, List.replicate 200 7⟩
  [.vehicle (.status true ⟨0, 255, 0⟩ 1 blockStart 10),
    .vehicle (.write true true true (List.replicate 500 7)),
    .vehicle (.push true (List.replicate 3 (some (20, 20)))), .deliver (sent 1), .deliver (sent 1),
    .vehicle (.status true ⟨0, 255, 0⟩ 0 0 30), .vehicle (.push true [some (40, 40)]),
    .deliver (sent 0), .vehicle (.status true ⟨0, 255, 0⟩ 1 1 50),
    .vehicle (.status true ⟨0, 255, 0⟩ 1 0 50), .vehicle (.write true true true [1, 2, 3])]

theorem log_delivered_smallHappenings :
    ∃ final, runSteps System.step (System.boot fun blockcount => blockcount == 8)
        smallHappenings = some final ∧ Delivered final ∧
      ∀ happening next, Fair final happening → System.step final happening = some next →
        (∀ event, happening = .vehicle event → event.begins final.vehicle = false) →
        OverwritesReceived final next :=
  log_delivered _ smallHappenings (by decide +kernel)

end Urus.DataFlashMavlink
