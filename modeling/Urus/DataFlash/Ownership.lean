/-
This file proves that no block is lost and no list of blocks becomes cyclic. From the initialisation
on every call ends, and it leaves the blocks linked as some sound ledger says: every block is on the
free stack, in exactly one queue, or it is the current one, and the count of the free blocks is right.
The errors that the code looks for do not happen.
-/

import Urus.DataFlash.Loops

namespace Urus.DataFlashMavlink

variable {state : State} {ledger : Ledger}

/-! ### Clearing -/

/-- The ledger of a state whose blocks are all free. -/
def cleared (state : State) : Ledger where
  blockcount := state.blockcount.toNat
  place
    | .free => (List.range state.blockcount.toNat).reverse
    | .current => []
    | .queue _ => []
  length := 0
  nextNumber := state.nextSeqNum
  number block := (state.blocks block).seqno
  buf block := (state.blocks block).buf
  stream := []
  messages := state.uart.map fun message => (message.seqno, message.data)

theorem cleared_sound (state : State) : (cleared state).Sound where
  once := by
    refine ⟨⟨fun place => ?_, fun block first second inFirst inSecond => ?_⟩, fun block => ?_⟩
    · cases place with
      | free => exact List.nodup_reverse.mpr List.nodup_range
      | current => exact List.nodup_nil
      | queue name => exact List.nodup_nil
    · have isFree : ∀ place, block ∈ (cleared state).place place → place = .free := by
        intro place member
        cases place with
        | free => rfl
        | current => exact absurd member List.not_mem_nil
        | queue name => exact absurd member List.not_mem_nil
      rw [isFree first inFirst, isFree second inSecond]
    · constructor
      · rintro ⟨_ | _ | name, member⟩
        · exact List.mem_range.mp (List.mem_reverse.mp member)
        · exact absurd member List.not_mem_nil
        · exact absurd member List.not_mem_nil
      · exact fun inside => ⟨.free, List.mem_reverse.mpr (List.mem_range.mpr inside)⟩
  single := Nat.zero_le 1
  room busy := absurd rfl busy
  idle _ := Or.inr ⟨rfl, fun _ => rfl⟩

/-- The blocks that were put on the free stack so far are linked, and nothing else has changed. -/
theorem addFree_range (state : State) (empty : state.blocksFree = none) (count : Nat) :
    let freed := (List.range count).foldl State.addFree state
    Chain freed.next freed.blocksFree (List.range count).reverse none ∧
      freed = { state with blocks := freed.blocks, blocksFree := freed.blocksFree } := by
  induction count with
  | zero => exact ⟨empty, rfl⟩
  | succ count inductionHypothesis =>
    obtain ⟨chain, frame⟩ := inductionHypothesis
    rw [List.range_succ, List.foldl_append, List.reverse_append]
    generalize (List.range count).foldl State.addFree state = freed at chain frame
    have fresh : count ∉ (List.range count).reverse := fun member =>
      absurd (List.mem_range.mp (List.mem_reverse.mp member)) (Nat.lt_irrefl count)
    refine ⟨?_, by rw [frame]; rfl⟩
    change Chain (fun other => (Function.update freed.blocks count _ other).next) _ _ _
    rw [next_update]
    exact chain.push fresh

theorem freeAllBlocks_frame (state : State) :
    state.freeAllBlocks.initialised = state.initialised ∧
      state.freeAllBlocks.blockcount = state.blockcount ∧
      state.freeAllBlocks.nextSeqNum = state.nextSeqNum ∧
      state.freeAllBlocks.uart = state.uart := by
  have frame := (addFree_range { state with
    blocksFree := none
    currentBlock := none
    queues := fun _ => ⟨0, none, none⟩ } rfl state.blockcount.toNat).2
  unfold State.freeAllBlocks
  dsimp only
  rw [frame]
  exact ⟨rfl, rfl, rfl, rfl⟩

/-- All blocks are free afterwards, whatever else is set. -/
theorem freeAllBlocks_represents (state : State) {next : State} (ready : next.initialised = true)
    (frame : next = { state.freeAllBlocks with
      initialised := next.initialised
      internalErrors := 0
      nextSeqNum := next.nextSeqNum
      loggingStarted := next.loggingStarted
      sendingToClient := next.sendingToClient
      chan := next.chan
      targetSystemId := next.targetSystemId
      targetComponentId := next.targetComponentId
      lastResponseTime := next.lastResponseTime
      dropped := next.dropped
      resends := next.resends }) :
    Represents next (cleared next) := by
  unfold State.freeAllBlocks at frame
  dsimp only at frame
  obtain ⟨chain, same⟩ := addFree_range { state with
    blocksFree := none
    currentBlock := none
    queues := fun _ => ⟨0, none, none⟩ } rfl state.blockcount.toNat
  generalize (List.range state.blockcount.toNat).foldl State.addFree _ = freed at chain same frame
  rw [same, ready] at frame
  rw [frame]
  exact ⟨rfl, rfl, rfl, chain, fun _ => queued_nil _, rfl, rfl, by simp [cleared], rfl,
    fun _ => rfl, fun _ => rfl, rfl⟩

/-! ### The client -/

/-- A client begins a log. -/
def Event.begins (event : Event) (state : State) : Bool :=
  match event with
  | .status taken _ kind seqno _ =>
    taken && state.initialised && kind != 0 && seqno == blockStart && !state.sendingToClient
  | _ => false

/-- The number that a message acknowledges. -/
def Event.acks (event : Event) (seqno : UInt32) : Prop :=
  match event with
  | .status _ _ kind acked _ => kind ≠ 0 ∧ acked = seqno ∧ acked ≠ blockStop ∧ acked ≠ blockStart
  | _ => False

/-- The bytes that a call adds to the log. -/
def Event.accepted (event : Event) (state : State) : List UInt8 :=
  match event with
  | .write taken checked finished buffer =>
    match state.writePrioritisedBlock taken checked finished buffer with
    | some (true, _) => buffer
    | _ => []
  | _ => []

theorem Represents.stopLogging (represents : Represents state ledger) (now : UInt32) :
    Represents (state.stopLogging now) ledger := by
  unfold State.stopLogging
  split
  · exact { represents with }
  · exact represents

/-- An acknowledgement frees the block with the number, and nothing else. -/
theorem Represents.handleAck {acked : UInt32 → Prop} (represents : Represents state ledger)
    (sound : ledger.Sound) (sender : Sender) {seqno : UInt32} (now : UInt32)
    (ordinary : seqno ≠ blockStart) (isAcked : seqno ≠ blockStop → acked seqno) :
    ∃ next, state.handleAck sender seqno now = some next ∧ Reaches acked ledger [] next := by
  unfold State.handleAck
  rw [if_neg (by rw [represents.initialised]; decide)]
  by_cases isStop : seqno = blockStop
  · rw [if_pos isStop]
    exact ⟨_, rfl, (represents.stopLogging now).reaches⟩
  · rw [if_neg isStop, if_neg ordinary]
    rcases represents.freeSeqnoFromQueue sound.once .sent seqno with
      ⟨-, outcome⟩ | ⟨early, block, late, next, split, found, outcome, freed⟩
    · rw [outcome]
      dsimp only [Option.bind_eq_bind, Option.bind_some]
      rcases represents.freeSeqnoFromQueue sound.once .retry seqno with
        ⟨-, outcome⟩ | ⟨early, block, late, next, split, found, outcome, freed⟩
      · rw [outcome]
        exact ⟨state, rfl, represents.reaches⟩
      · rw [outcome]
        exact ⟨_, rfl, _, .single (.release split (by rw [found]; exact isAcked isStop)),
          { freed with }, (List.append_nil _).symm⟩
    · rw [outcome]
      exact ⟨_, rfl, _, .single (.release split (by rw [found]; exact isAcked isStop)),
        { freed with }, (List.append_nil _).symm⟩

/-- A block that the client asks for goes from the sent ones to those to retry. -/
theorem Represents.handleRetry (acked : UInt32 → Prop) (represents : Represents state ledger)
    (sound : ledger.Sound) (seqno now : UInt32) :
    ∃ next, state.handleRetry seqno now = some next ∧ Reaches acked ledger [] next := by
  unfold State.handleRetry
  split
  · exact ⟨state, rfl, represents.reaches⟩
  · rcases represents.dequeueSeqno sound.once .sent seqno with
      ⟨-, outcome⟩ | ⟨early, block, late, next, split, -, -, outcome, unlinked, ends⟩
    · rw [outcome]
      exact ⟨state, rfl, represents.reaches⟩
    · rw [outcome]
      have removed := sound.once.toSeparate.remove split
      have timed : Represents { next with lastResponseTime := now }
          (ledger.set (.queue .sent) (early ++ late)) := { unlinked with }
      have moved := timed.enqueueBlock removed.1 .retry (removed.2 _) ends
      have requeues : ledger.Step acked ((ledger.set (.queue .sent) (early ++ late)).set
          (.queue .retry) (ledger.place (.queue .retry) ++ [block])) :=
        .requeue nofun split
      exact ⟨_, rfl, _, .single requeues, moved, (List.append_nil _).symm⟩

/-- The free blocks are counted right. -/
theorem Represents.statsCollect (represents : Represents state ledger) (sound : ledger.Sound)
    (taken : Bool) : state.statsCollect taken = some state := by
  unfold State.statsCollect
  split
  · rfl
  · split
    · rfl
    · have enough : (ledger.place .free).length ≤ state.blockcount.toNat := by
        rw [represents.blockcount]
        exact sound.once.length_le _
      rw [countNodes_chain represents.free enough]
      have right : UInt8.ofNat (ledger.place .free).length = state.blockcountFree := by
        rw [← represents.blockcountFree]
        exact UInt8.ofNat_toNat
      simp only [Option.bind_eq_bind, Option.bind_some, right, ne_eq, not_true_eq_false, if_false]

/-! ### Steps -/

/-- A message of the client begins a log, or acknowledges a block, or asks for it again. -/
theorem Represents.statusMsg (represents : Represents state ledger) (sound : ledger.Sound)
    (taken : Bool) (sender : Sender) (kind : UInt8) (seqno now : UInt32) :
    ∃ next, state.remoteLogBlockStatusMsg taken sender kind seqno now = some next ∧
      if (Event.status taken sender kind seqno now).begins state then
        Represents next (cleared next) ∧ next.nextSeqNum = 0 ∧ next.blockcount = state.blockcount
      else Reaches (Event.status taken sender kind seqno now).acks ledger [] next := by
  rw [State.remoteLogBlockStatusMsg, Event.begins, represents.initialised]
  cases taken with
  | false => exact ⟨state, rfl, represents.reaches⟩
  | true =>
    by_cases isRetry : kind = 0
    · subst isRetry
      exact represents.handleRetry _ sound seqno now
    · rw [if_neg (show ¬ (!true) = true from Bool.false_ne_true), if_neg isRetry]
      by_cases isStart : seqno = blockStart
      · subst isStart
        refine ⟨if !state.sendingToClient then state.startLogging sender now else state, ?_, ?_⟩
        · rw [State.handleAck, if_neg (by rw [represents.initialised]; decide),
            if_neg (by decide), if_pos rfl]
        · cases sending : state.sendingToClient with
          | true => simpa using represents.reaches
          | false =>
            have ready : (state.startLogging sender now).initialised = true :=
              (freeAllBlocks_frame state).1.trans represents.initialised
            have begun := freeAllBlocks_represents state ready rfl
            have first : (state.startLogging sender now).nextSeqNum = 0 := rfl
            have count : (state.startLogging sender now).blockcount = state.blockcount :=
              (freeAllBlocks_frame state).2.1
            simpa [isRetry, first, count] using begun
      · have idle : ¬ (true && true && kind != 0 && seqno == blockStart &&
            !state.sendingToClient) = true := by
          simp [isStart]
        have acks : seqno ≠ blockStop → (Event.status true sender kind seqno now).acks seqno :=
          fun notStop => ⟨isRetry, rfl, notStop, isStart⟩
        obtain ⟨next, outcome, reaches⟩ := represents.handleAck sound sender now isStart acks
        refine ⟨next, outcome, ?_⟩
        rw [if_neg idle]
        exact reaches

theorem Represents.step (represents : Represents state ledger) (sound : ledger.Sound)
    {event : Event} (called : Called state event) :
    ∃ next, state.step event = some next ∧
      if event.begins state then Represents next (cleared next) ∧ next.nextSeqNum = 0 ∧ next.blockcount = state.blockcount
      else Reaches event.acks ledger (event.accepted state) next := by
  cases event with
  | write taken checked finished buffer =>
    obtain ⟨-, small⟩ := called
    obtain ⟨accepted, next, outcome, reaches⟩ :=
      represents.writePrioritisedBlock (Event.acks (.write taken checked finished buffer)) sound taken
        checked finished small
    refine ⟨next, ?_, ?_⟩
    · rw [State.step, outcome]
      rfl
    · rw [if_neg (by exact Bool.false_ne_true), Event.accepted]
      rw [outcome]
      cases accepted <;> exact reaches
  | push taken attempts =>
    obtain ⟨next, outcome, reaches⟩ := represents.pushLogBlocks _ sound taken attempts
    exact ⟨next, outcome, reaches⟩
  | resend now taken attempts =>
    obtain ⟨next, outcome, reaches⟩ := represents.doResends _ sound now taken attempts
    exact ⟨next, outcome, reaches⟩
  | status taken sender kind seqno now => exact represents.statusMsg sound taken sender kind seqno now
  | stop now => exact ⟨_, rfl, (represents.stopLogging now).reaches⟩
  | timeout =>
    refine ⟨_, rfl, ?_⟩
    rw [if_neg (by exact Bool.false_ne_true)]
    unfold State.periodic1Hz
    split
    · exact Represents.reaches { represents with }
    · exact represents.reaches
  | collect taken => exact ⟨state, represents.statsCollect sound taken, represents.reaches⟩

/-! ### Runs -/

/-- Every block is at exactly one of the places, and the lists are linked. There are blocks only
after an initialisation that has found memory for them. -/
structure Owned (state : State) (place : Place → List Nat) : Prop where
  stack : Chain state.next state.blocksFree (place .free) none
  queues : ∀ name, Queued state.next (state.queues name).oldest (state.queues name).youngest
    (place (.queue name))
  current : place .current = state.currentBlock.toList
  distinct : ∀ spot, (place spot).Nodup
  inside : ∀ spot, ∀ block ∈ place spot,
    state.initialised = true ∧ block < state.blockcount.toNat
  once : state.initialised = true → ∀ block < state.blockcount.toNat,
    ∃! spot, block ∈ place spot
  count : state.blockcountFree.toNat = (place .free).length

theorem Represents.owned (represents : Represents state ledger) (sound : ledger.Sound) :
    Owned state ledger.place where
  stack := represents.free
  queues := represents.queues
  current := by
    cases isCurrent : state.currentBlock with
    | none => exact represents.current_none_iff.mp isCurrent
    | some block => exact represents.current_single sound isCurrent
  distinct := sound.once.distinct
  inside spot block member := by
    rw [represents.blockcount]
    exact ⟨represents.initialised, (sound.once.all block).mp ⟨spot, member⟩⟩
  once _ block inside := by
    rw [represents.blockcount] at inside
    obtain ⟨spot, member⟩ := (sound.once.all block).mpr inside
    exact ⟨spot, member, fun other inOther => sound.once.apart block other spot inOther member⟩
  count := represents.blockcountFree

/-- A state is good when it represents a sound ledger with at least eight blocks. -/
def Good (state : State) : Prop :=
  ∃ ledger, Represents state ledger ∧ ledger.Sound ∧ 8 ≤ ledger.blockcount

theorem Good.step (good : Good state) {event : Event} (called : Called state event) :
    ∃ next, state.step event = some next ∧ Good next := by
  obtain ⟨ledger, represents, sound, enough⟩ := good
  obtain ⟨next, outcome, after⟩ := represents.step sound called
  refine ⟨next, outcome, ?_⟩
  split at after
  · obtain ⟨begun, -, same⟩ := after
    refine ⟨cleared next, begun, cleared_sound next, ?_⟩
    rw [cleared, same, represents.blockcount]
    exact enough
  · obtain ⟨reached, steps, represents', -⟩ := after
    exact ⟨reached, represents', steps.sound sound, steps.blockcount_eq ▸ enough⟩

/-- A state without blocks: nothing is done in it. -/
structure Inert (state : State) : Prop where
  initialised : state.initialised = false
  sending : state.sendingToClient = false
  errors : state.internalErrors = 0
  free : state.blocksFree = none
  queues : ∀ name, (state.queues name).oldest = none ∧ (state.queues name).youngest = none
  current : state.currentBlock = none
  count : state.blockcountFree = 0

theorem Inert.step (inert : Inert state) {event : Event} (called : Called state event) :
    state.step event = some state := by
  have idle := inert.initialised
  have silent := inert.sending
  cases event with
  | write taken checked finished buffer => exact absurd (idle.symm.trans called.1) Bool.false_ne_true
  | push taken attempts => simp [State.step, State.pushLogBlocks, idle]
  | resend now taken attempts => simp [State.step, State.doResends, idle]
  | status taken sender kind seqno now =>
    simp [State.step, State.remoteLogBlockStatusMsg, State.handleRetry, State.handleAck, idle]
  | stop now => simp [State.step, State.stopLogging, silent]
  | timeout => simp [State.step, State.periodic1Hz, silent]
  | collect taken => simp [State.step, State.statsCollect, idle]

theorem Inert.owned (inert : Inert state) : Owned state fun _ => [] where
  stack := inert.free
  queues name := by
    rw [(inert.queues name).1, (inert.queues name).2]
    exact queued_nil _
  current := by rw [inert.current]; rfl
  distinct _ := List.nodup_nil
  inside _ _ member := absurd member List.not_mem_nil
  once ready := absurd (inert.initialised.symm.trans ready) Bool.false_ne_true
  count := by rw [inert.count]; rfl

/-- Memory is found for at least eight blocks, or for none. -/
theorem allocate_spec (calloc : Nat → Bool) (blockcount : Nat) :
    (allocate calloc blockcount).2 ≤ blockcount ∧
      ((allocate calloc blockcount).1 = true → 8 ≤ (allocate calloc blockcount).2) := by
  fun_induction allocate calloc blockcount with
  | case1 blockcount few => exact ⟨le_refl _, nofun⟩
  | case2 blockcount enough found => exact ⟨le_refl _, fun _ => not_lt.mp enough⟩
  | case3 blockcount enough failed inductionHypothesis =>
    exact ⟨inductionHypothesis.1.trans (Nat.div_le_self _ _), inductionHypothesis.2⟩

theorem init_cleared (calloc : Nat → Bool) :
    Represents (init calloc) (cleared (init calloc)) ∧ 8 ≤ (cleared (init calloc)).blockcount ∨
      Inert (init calloc) := by
  obtain ⟨bound, enough⟩ := allocate_spec calloc constructed.blockcount.toNat
  unfold init
  generalize allocate calloc constructed.blockcount.toNat = outcome at bound enough
  obtain ⟨allocated, blockcount⟩ := outcome
  cases allocated with
  | false => exact Or.inr ⟨rfl, rfl, rfl, rfl, fun _ => ⟨rfl, rfl⟩, rfl, rfl⟩
  | true =>
    refine Or.inl ⟨freeAllBlocks_represents _ rfl rfl, ?_⟩
    have count := (freeAllBlocks_frame
      { constructed with blockcount := UInt8.ofNat blockcount }).2.1
    change 8 ≤ (State.freeAllBlocks { constructed with
      blockcount := UInt8.ofNat blockcount }).blockcount.toNat
    have small : blockcount ≤ 32 := bound
    rw [count, UInt8.toNat_ofNat_of_lt' (lt_of_le_of_lt small (by decide))]
    exact enough rfl

theorem init_good (calloc : Nat → Bool) : Good (init calloc) ∨ Inert (init calloc) :=
  (init_cleared calloc).imp_left fun begun =>
    ⟨cleared (init calloc), begun.1, cleared_sound _, begun.2⟩

/-- A block is written only after the initialisation, and has at most 1600 bytes. -/
def Sized (state : State) : Event → Prop
  | .write _ _ _ buffer => state.initialised = true ∧ buffer.length ≤ 1600
  | _ => True

instance decidableSized (state : State) : (event : Event) → Decidable (Sized state event)
  | .write _ _ _ buffer =>
    inferInstanceAs (Decidable (state.initialised = true ∧ buffer.length ≤ 1600))
  | .push .. | .resend .. | .status .. | .stop .. | .timeout | .collect .. => .isTrue trivial

/-- From the initialisation on every call comes back, no internal error was counted, every block is
at exactly one place, and the lists are linked and counted right. -/
theorem blocks_owned (calloc : Nat → Bool) (events : List Event)
    (sized : Meets State.step Sized (init calloc) events) :
    ∃ final place, runSteps State.step (init calloc) events = some final ∧
      final.internalErrors = 0 ∧ Owned final place := by
  have kept : ∀ system event, Good system ∨ Inert system → Sized system event →
      ∃ next, State.step system event = some next ∧ (Good next ∨ Inert next) := by
    rintro system event (good | inert) sized
    · have called : Called system event := by
        obtain ⟨ledger, represents, -, enough⟩ := good
        cases event with
        | write taken checked finished buffer =>
          refine ⟨sized.1, fun _ _ => sized.2.trans ?_⟩
          rw [represents.blockcount]
          exact Nat.mul_le_mul_left 200 enough
        | _ => trivial
      obtain ⟨next, outcome, good'⟩ := good.step called
      exact ⟨next, outcome, Or.inl good'⟩
    · have called : Called system event := by
        cases event with
        | write taken checked finished buffer =>
          exact absurd (inert.initialised.symm.trans sized.1) Bool.false_ne_true
        | _ => trivial
      exact ⟨system, inert.step called, Or.inr inert⟩
  obtain ⟨final, outcome, good⟩ := runSteps_invariant _ kept events _ (init_good calloc) sized
  rcases good with ⟨ledger, represents, sound, -⟩ | inert
  · exact ⟨final, ledger.place, outcome, represents.errors, represents.owned sound⟩
  · exact ⟨final, _, outcome, inert.errors, inert.owned⟩

/-- Eight blocks: a client begins a log, two blocks and a half are written and sent, one of them is
sent again, and all are acknowledged. -/
def smallLog : List Event :=
  [.status true ⟨0, 255, 0⟩ 1 blockStart 10, .write true true true (List.replicate 500 7),
    .push true (List.replicate 3 (some (20, 20))), .status true ⟨0, 255, 0⟩ 0 1 30,
    .status true ⟨0, 255, 0⟩ 1 0 40, .push true [some (50, 50)], .resend 200 [true] [some (200, 200)],
    .status true ⟨0, 255, 0⟩ 1 1 210, .collect true, .stop 220, .timeout]

theorem blocks_owned_smallLog :
    ∃ final place, runSteps State.step (init fun blockcount => blockcount == 8) smallLog =
        some final ∧ final.internalErrors = 0 ∧ Owned final place :=
  blocks_owned _ smallLog (by decide +kernel)

end Urus.DataFlashMavlink
