/-
This file is about messages that a link defers. A message that does not fit when it is
asked for is put in a ring, and it is tried again, in its turn, before anything else is
sent. Asking again for a message that is in the ring does not put it there twice, so a
ring with room for every message never overflows.

Whether a message fits is the environment's answer. The log of what was asked for and
what was sent is not in the code. A request counts from when the code turns to it: what
waited before is tried first.
-/

import Urus.Lib.CountedRing
import Urus.Lib.Requests
import Urus.Lib.Trace

namespace Urus.GcsMavlink.Deferred

/-! ### Messages -/

/-- `ap_message`. -/
inductive ApMessage
  | heartbeat
  | attitude
  | location
  | extendedStatus1
  | extendedStatus2
  | navControllerOutput
  | currentWaypoint
  | vfrHud
  | servoOutputRaw
  | radioIn
  | rawImu1
  | rawImu2
  | rawImu3
  | gpsRaw
  | gpsRtk
  | gps2Raw
  | gps2Rtk
  | systemTime
  | servoOut
  | nextWaypoint
  | nextParam
  | limitsStatus
  | fenceStatus
  | ahrs
  | simstate
  | hwstatus
  | wind
  | rangefinder
  | terrain
  | battery2
  | cameraFeedback
  | mountStatus
  | opticalFlow
  | gimbalReport
  | magCalProgress
  | magCalReport
  | ekfStatusReport
  | localPosition
  | pidTuning
  | vibration
  | rpm
  | missionItemReached
  | positionTargetGlobalInt
  | adsbVehicle
  | batteryStatus
  | aoaSsa
  | landing
  | namedFloat
  deriving DecidableEq

/-- `MSG_LAST`, the number of messages, and the size of the ring. -/
def msgLast : ℕ := 48

/-- The messages are the numbers below the last one. -/
def ApMessage.number : ApMessage ≃ Fin msgLast where
  toFun id := ⟨id.ctorIdx, by cases id <;> decide⟩
  invFun number := ApMessage.ofNat number
  left_inv id := by cases id <;> rfl
  right_inv number := by
    revert number
    decide

instance : Fintype ApMessage := Fintype.ofEquiv _ ApMessage.number.symm

theorem card_apMessage : Fintype.card ApMessage = msgLast :=
  (Fintype.ofEquiv_card _).trans (Fintype.card_fin msgLast)

/-! ### The ring -/

/-- The part of a link that defers messages, with the environment and the log. -/
structure Link (Env : Type) where
  env : Env
  deferredMessages : ℕ → ApMessage
  nextDeferredMessage : ℕ
  numDeferredMessages : ℕ
  log : List (Entry ApMessage)

/-- What became of a message that was asked for. -/
inductive Outcome
  | sent
  | discarded
  | alreadyDeferred
  | deferred
  deriving DecidableEq

/-- The slot behind another one. -/
def nextSlot (slot : ℕ) : ℕ := if slot + 1 = msgLast then 0 else slot + 1

section Link

variable {Env : Type} (trySendMessage : Env → ApMessage → Bool × Env)

/-- The link of the static vehicle object, which is zeroed. -/
def constructed (env : Env) (deferredMessages : ℕ → ApMessage) : Link Env :=
  ⟨env, deferredMessages, 0, 0, []⟩

/-- The loop of `push_deferred_messages`, over the messages that are left. -/
def pushLoop : (left : ℕ) → Link Env → Link Env
  | 0, link => link
  | left + 1, link =>
    let id := link.deferredMessages link.nextDeferredMessage
    let (sent, env) := trySendMessage link.env id
    if !sent then { link with env := env }
    else
      pushLoop left { link with
        env := env
        nextDeferredMessage := nextSlot link.nextDeferredMessage
        numDeferredMessages := left
        log := .sent id :: link.log }

/-- `push_deferred_messages`. -/
def pushDeferredMessages (link : Link Env) : Link Env :=
  pushLoop trySendMessage link.numDeferredMessages link

/-- The loop that looks for a message in the ring: the slot behind the last one, unless the message
was found. -/
def findDeferred (link : Link Env) (id : ApMessage) : (left nextid : ℕ) → Option ℕ
  | 0, nextid => some nextid
  | left + 1, nextid =>
    if link.deferredMessages nextid = id then none else findDeferred link id left (nextSlot nextid)

/-- The end of `send_message`: the message was not sent, so try to defer. -/
def defer (link : Link Env) (id : ApMessage) : Outcome × Link Env :=
  if link.numDeferredMessages = msgLast then (.discarded, link)
  else
    match findDeferred link id link.numDeferredMessages link.nextDeferredMessage with
    | none => (.alreadyDeferred, link)
    | some nextid =>
      (.deferred, { link with
        deferredMessages := Function.update link.deferredMessages nextid id
        numDeferredMessages := link.numDeferredMessages + 1 })

/-- The message is asked for. -/
def request (link : Link Env) (id : ApMessage) : Link Env :=
  { link with log := .requested id :: link.log }

/-- `send_message`. The time stamp that is saved with a heartbeat is not part of this. -/
def sendMessage (link : Link Env) (id : ApMessage) : Outcome × Link Env :=
  let link := request (pushDeferredMessages trySendMessage link) id
  if link.numDeferredMessages = 0 then
    let (sent, env) := trySendMessage link.env id
    if sent then (.sent, { link with env := env, log := .sent id :: link.log })
    else defer { link with env := env } id
  else defer link id

/-- The calls of a link. -/
inductive Call
  | sendMessage (id : ApMessage)
  | retryDeferred

/-- A call. `retry_deferred` only pushes the messages of the ring. -/
def step (link : Link Env) : Call → Link Env
  | .sendMessage id => (sendMessage trySendMessage link id).2
  | .retryDeferred => pushDeferredMessages trySendMessage link

/-- The messages of the ring, the oldest first. -/
def Link.deferred (link : Link Env) : List ApMessage :=
  countedItems link.deferredMessages msgLast link.nextDeferredMessage link.numDeferredMessages

/-! ### The order of requests -/

/-- The ring has room for what it holds, and holds what waits. -/
structure Orderly (link : Link Env) : Prop where
  next : link.nextDeferredMessage < msgLast
  num : link.numDeferredMessages ≤ msgLast
  waits : Waits link.log link.deferred

variable {trySendMessage} {link : Link Env} {id : ApMessage}

theorem nextSlot_eq {slot : ℕ} (inside : slot < msgLast) :
    nextSlot slot = countedIndex msgLast slot 1 := by
  rw [nextSlot, countedIndex]
  split
  · rename_i last
    rw [last, Nat.mod_self]
  · exact (Nat.mod_eq_of_lt (by omega)).symm

theorem nextSlot_lt {slot : ℕ} (inside : slot < msgLast) : nextSlot slot < msgLast := by
  rw [nextSlot_eq inside]
  exact countedIndex_lt (by decide)

theorem Link.deferred_length (link : Link Env) : link.deferred.length = link.numDeferredMessages :=
  countedItems_length

/-- The pushed messages leave the ring in front, and nothing else changes. -/
theorem pushLoop_orderly (left : ℕ) (holds : link.numDeferredMessages = left)
    (orderly : Orderly link) : Orderly (pushLoop trySendMessage left link) := by
  induction left generalizing link with
  | zero => exact orderly
  | succ left inductionHypothesis =>
    rw [pushLoop]
    dsimp only
    split
    · exact ⟨orderly.next, orderly.num, orderly.waits⟩
    · have num := orderly.num
      rw [holds] at num
      refine inductionHypothesis rfl ⟨nextSlot_lt orderly.next, le_trans (Nat.le_succ left) num, ?_⟩
      have queue : link.deferred = link.deferredMessages link.nextDeferredMessage ::
          countedItems link.deferredMessages msgLast (nextSlot link.nextDeferredMessage) left := by
        rw [Link.deferred, holds, countedItems_pop, nextSlot_eq orderly.next, countedIndex,
          Nat.add_zero, Nat.mod_eq_of_lt orderly.next]
      have waits := orderly.waits
      rw [queue] at waits
      exact waits.send

theorem pushDeferredMessages_orderly (orderly : Orderly link) :
    Orderly (pushDeferredMessages trySendMessage link) :=
  pushLoop_orderly _ rfl orderly

/-- The search comes to the free slot exactly when the message is not in the ring. -/
theorem findDeferred_eq (left nextid : ℕ) (inside : nextid < msgLast) :
    findDeferred link id left nextid =
      if id ∈ countedItems link.deferredMessages msgLast nextid left then none
      else some (countedIndex msgLast nextid left) := by
  induction left generalizing nextid with
  | zero =>
    rw [findDeferred, countedItems_zero, if_neg List.not_mem_nil, countedIndex, Nat.add_zero,
      Nat.mod_eq_of_lt inside]
  | succ left inductionHypothesis =>
    have first : countedIndex msgLast nextid 0 = nextid := by
      rw [countedIndex, Nat.add_zero, Nat.mod_eq_of_lt inside]
    have last : countedIndex msgLast (nextSlot nextid) left = countedIndex msgLast nextid (left + 1) := by
      rw [nextSlot_eq inside, countedIndex, countedIndex, countedIndex, Nat.mod_add_mod,
        Nat.add_assoc, Nat.add_comm 1 left]
    rw [findDeferred, inductionHypothesis _ (nextSlot_lt inside), countedItems_pop, first, last,
      ← nextSlot_eq inside]
    by_cases found : link.deferredMessages nextid = id
    · rw [if_pos found, if_pos (List.mem_cons.mpr (Or.inl found.symm))]
    · rw [if_neg found]
      refine if_congr ?_ rfl rfl
      rw [List.mem_cons]
      exact (or_iff_right (Ne.symm found)).symm

theorem Orderly.mem_of_full (orderly : Orderly link) (full : link.numDeferredMessages = msgLast) :
    id ∈ link.deferred := by
  have all : link.deferred.toFinset = Finset.univ := by
    refine Finset.eq_univ_of_card _ ?_
    rw [List.toFinset_card_of_nodup orderly.waits.nodup, Link.deferred_length, full, card_apMessage]
  rw [← List.mem_toFinset, all]
  exact Finset.mem_univ id

/-- A message that was asked for and not sent is in the ring afterwards, once. -/
theorem defer_orderly (orderly : Orderly link) :
    Orderly (defer (request link id) id).2 ∧ id ∈ (defer (request link id) id).2.deferred := by
  have search : findDeferred (request link id) id (request link id).numDeferredMessages
      (request link id).nextDeferredMessage = if id ∈ link.deferred then none
        else some (countedIndex msgLast link.nextDeferredMessage link.numDeferredMessages) :=
    findDeferred_eq _ _ orderly.next
  rw [defer]
  split
  · rename_i full
    have present : id ∈ link.deferred := orderly.mem_of_full full
    exact ⟨⟨orderly.next, orderly.num, orderly.waits.request_again present⟩, present⟩
  · rename_i room
    split
    · rename_i found
      have present : id ∈ link.deferred := by
        by_contra absent
        rw [search, if_neg absent] at found
        exact nomatch found
      exact ⟨⟨orderly.next, orderly.num, orderly.waits.request_again present⟩, present⟩
    · rename_i nextid free
      have absent : id ∉ link.deferred := fun present => by
        rw [search, if_pos present] at free
        exact nomatch free
      have slot : nextid = countedIndex msgLast link.nextDeferredMessage
          link.numDeferredMessages := by
        rw [search, if_neg absent] at free
        exact (Option.some.inj free).symm
      have less : link.numDeferredMessages < msgLast := lt_of_le_of_ne orderly.num room
      have queue : countedItems (Function.update link.deferredMessages nextid id) msgLast
          link.nextDeferredMessage (link.numDeferredMessages + 1) = link.deferred ++ [id] := by
        rw [slot, countedItems_push less]
        rfl
      refine ⟨⟨orderly.next, less, ?_⟩, ?_⟩
      · rw [Link.deferred]
        exact queue ▸ orderly.waits.request_new absent
      · rw [Link.deferred]
        exact queue ▸ List.mem_append_right _ List.mem_cons_self

/-- The environment is not part of the order. -/
theorem Orderly.withEnv (orderly : Orderly link) (env : Env) : Orderly { link with env := env } :=
  ⟨orderly.next, orderly.num, orderly.waits⟩

theorem sendMessage_orderly (orderly : Orderly link) :
    Orderly (sendMessage trySendMessage link id).2 ∧
      ((sendMessage trySendMessage link id).1 = .sent ∨
        id ∈ (sendMessage trySendMessage link id).2.deferred) := by
  have pushed : Orderly (pushDeferredMessages trySendMessage link) :=
    pushDeferredMessages_orderly orderly
  rw [sendMessage]
  dsimp only
  split
  · rename_i empty
    split
    · refine ⟨⟨pushed.next, pushed.num, ?_⟩, Or.inl rfl⟩
      have none : (pushDeferredMessages trySendMessage link).deferred = [] :=
        List.length_eq_zero_iff.mp ((Link.deferred_length _).trans empty)
      have waits := pushed.waits
      rw [none] at waits
      rw [Link.deferred]
      dsimp only
      rw [empty, countedItems_zero]
      exact (waits.request_new List.not_mem_nil).send
    · exact (defer_orderly (pushed.withEnv _)).imp_right Or.inr
  · exact (defer_orderly pushed).imp_right Or.inr

/-- Only a full ring makes a message go. -/
theorem defer_discarded (discarded : (defer link id).1 = .discarded) :
    link.numDeferredMessages = msgLast := by
  rw [defer] at discarded
  split at discarded
  · assumption
  · split at discarded <;> exact nomatch discarded

theorem sendMessage_discarded
    (discarded : (sendMessage trySendMessage link id).1 = .discarded) :
    (pushDeferredMessages trySendMessage link).numDeferredMessages = msgLast := by
  rw [sendMessage] at discarded
  dsimp only at discarded
  split at discarded
  · split at discarded
    · exact nomatch discarded
    · have full := defer_discarded discarded
      exact full
  · have full := defer_discarded discarded
    exact full

theorem step_orderly (orderly : Orderly link) (call : Call) :
    Orderly (step trySendMessage link call) := by
  cases call with
  | sendMessage id => exact (sendMessage_orderly orderly).1
  | retryDeferred => exact pushDeferredMessages_orderly orderly

theorem run_orderly (trySendMessage : Env → ApMessage → Bool × Env) (env : Env)
    (deferredMessages : ℕ → ApMessage) (calls : List Call) :
    Orderly (runCalls (step trySendMessage) (constructed env deferredMessages) calls) :=
  runCalls_invariant Orderly (fun _ call _ orderly => step_orderly orderly call)
    ⟨Nat.zero_lt_succ _, Nat.zero_le _, waits_nil⟩

/-- Deferred messages are not lost and not duplicated, whatever is sent and whatever fits. The ring
holds the messages that were asked for and not sent since, each once, in the order of these
requests. A message that is asked for is sent or is in the ring behind the call, and it is
discarded only if it is there already. -/
theorem deferred_kept (trySendMessage : Env → ApMessage → Bool × Env) (env : Env)
    (deferredMessages : ℕ → ApMessage) (calls : List Call) :
    let link := runCalls (step trySendMessage) (constructed env deferredMessages) calls
    link.deferred.Nodup ∧ link.deferred.Pairwise (Before link.log) ∧
      (∀ id, id ∈ link.deferred ↔ (firstRequest link.log id).isSome) ∧
      link.numDeferredMessages ≤ msgLast ∧
      ∀ id, ((sendMessage trySendMessage link id).1 = .sent ∨
          id ∈ (sendMessage trySendMessage link id).2.deferred) ∧
        ((sendMessage trySendMessage link id).1 = .discarded →
          id ∈ (pushDeferredMessages trySendMessage link).deferred) := by
  intro link
  have orderly : Orderly link := run_orderly trySendMessage env deferredMessages calls
  refine ⟨orderly.waits.nodup, orderly.waits.ordered, orderly.waits.waiting, orderly.num,
    fun id => ⟨(sendMessage_orderly orderly).2, fun discarded => ?_⟩⟩
  exact (pushDeferredMessages_orderly orderly).mem_of_full (sendMessage_discarded discarded)

/-- The second message fits only when it is tried again. The environment says what fits. -/
example :
    let link := runCalls (step fun fits _ => (fits.headD false, fits.tail))
      (constructed [true, false, false, true] fun _ => .heartbeat)
      [.sendMessage .ahrs, .sendMessage .wind, .sendMessage .wind, .retryDeferred]
    link.deferred = [] ∧
      link.log = [.sent .wind, .requested .wind, .requested .wind, .sent .ahrs, .requested .ahrs] := by
  decide

end Link

end Urus.GcsMavlink.Deferred
