/-
This file proves that the download of a log delivers the bytes that were asked for, and when
a request for a log that does not exist leaves the transfer as it was.

While a log is sent the transfer is in one shape: it sends, it does not list, and what is
left to send starts where the packets so far have ended. Every packet but the last brings 90
bytes of the log, and no other message changes that. A request for a log that does not exist
is turned down only after the download flag has been set, so it changes the state of an idle
transfer that is not downloading.
-/

import Urus.LogTransfer.Model

namespace Urus.LogTransfer

/-! ### What is promised -/

/-- The storage has this content of the log: it tells the size, and a read gives the bytes that
there are. -/
structure Backend.Reads (backend : Backend) (id : Nat) (content : List UInt8) : Prop where
  size : (backend.getLogInfo id).1.toNat = content.length
  data : ∀ ofs len, backend.getLogData id (backend.getLogBoundaries id) ofs len =
    some ((content.drop ofs).take len)

/-- The bytes that a request asks for: from its offset on, as many as it counts and as there are. -/
def wanted (content : List UInt8) (packet : RequestData) : List UInt8 :=
  (content.drop packet.ofs.toNat).take packet.count.toNat

/-- The log data among what is sent. -/
def packets (sent : List Sent) : List LogData :=
  sent.filterMap fun item =>
    match item with
    | .data packet => some packet
    | .entry _ | .text _ _ => none

/-- The valid bytes of some packets, one after another. -/
def bytes (packets : List LogData) : List UInt8 :=
  packets.flatMap fun packet => packet.data.take packet.count

/-- The packets lie one behind the other, from an offset on. -/
def Consecutive : Nat → List LogData → Prop
  | _, [] => True
  | start, packet :: rest => packet.ofs = start ∧ Consecutive (start + packet.count) rest

/-- The message is not the request to end the transfer. -/
def Event.KeepsTransfer : Event → Prop
  | .message _ _ _ .requestEnd => False
  | _ => True

/-- The events up to the end of the transfer. -/
def runTransfer (backend : Backend) : State → List Event → State × List Sent
  | state, [] => (state, [])
  | state, event :: rest =>
    if state.logSendingChan = none then (state, [])
    else
      let (state, sent) := state.step backend event
      let (state, later) := runTransfer backend state rest
      (state, sent ++ later)

/-- A call of the link that finds it ready for at least one packet. -/
def Event.SendsOn (channel : Nat) : Event → Prop
  | .send sender _ (true :: _) => sender = channel
  | _ => False

instance (channel : Nat) : DecidablePred (Event.SendsOn channel)
  | .send sender _ (true :: _) => inferInstanceAs (Decidable (sender = channel))
  | .send _ _ (false :: _) => isFalse not_false
  | .send _ _ [] => isFalse not_false
  | .message _ _ _ _ => isFalse not_false

/-- The packets of a transfer, from the request to its end, bring what the request asked for, and
enough ready links end it. -/
structure Delivers (channel : Nat) (content : List UInt8) (packet : RequestData)
    (schedule : List Event) (final : State) (sent : List Sent) : Prop where
  addressed : ∀ part ∈ packets sent, part.channel = channel ∧ part.id = packet.id.toNat
  consecutive : Consecutive packet.ofs.toNat (packets sent)
  inOrder : bytes (packets sent) <+: wanted content packet
  complete : final.logSendingChan = none → bytes (packets sent) = wanted content packet
  ends : (wanted content packet).length / 90 + 1 ≤ schedule.countP (Event.SendsOn channel) →
    final.logSendingChan = none

/-! ### The bytes of packets -/

theorem packets_append (first second : List Sent) :
    packets (first ++ second) = packets first ++ packets second :=
  List.filterMap_append

theorem bytes_append (first second : List LogData) :
    bytes (first ++ second) = bytes first ++ bytes second :=
  List.flatMap_append

theorem bytes_singleton (packet : LogData) :
    bytes [packet] = packet.data.take packet.count := by
  rw [bytes, List.flatMap_singleton]

theorem consecutive_snoc (start : Nat) (done : List LogData) (packet : LogData) :
    Consecutive start (done ++ [packet]) ↔
      Consecutive start done ∧ packet.ofs = start + (done.map LogData.count).sum := by
  induction done generalizing start with
  | nil => simp [Consecutive]
  | cons first rest inductionHypothesis =>
    rw [List.cons_append, Consecutive, Consecutive, inductionHypothesis, List.map_cons,
      List.sum_cons, Nat.add_assoc, and_assoc]

/-! ### The shape of a transfer -/

/-- The packets so far go where they should, in order, and bring the beginning of what is wanted. -/
structure Ordered (channel : Nat) (content : List UInt8) (packet : RequestData)
    (done : List LogData) : Prop where
  addressed : ∀ part ∈ done, part.channel = channel ∧ part.id = packet.id.toNat
  consecutive : Consecutive packet.ofs.toNat done
  counted : (done.map LogData.count).sum = (bytes done).length
  inOrder : bytes done <+: wanted content packet

/-- The transfer is on: the packets so far are full, and the rest is still to be sent. -/
structure Sending (backend : Backend) (channel : Nat) (content : List UInt8) (packet : RequestData)
    (state : State) (done : List LogData) : Prop where
  ordered : Ordered channel content packet done
  chan : state.logSendingChan = some channel
  sending : state.logSending = true
  listing : state.logListing = false
  id : state.logNumData = packet.id.toNat
  page : state.logDataPage = backend.getLogBoundaries packet.id.toNat
  offset : state.logDataOffset = packet.ofs.toNat + (bytes done).length
  remaining : state.logDataRemaining = (wanted content packet).length - (bytes done).length
  full : (bytes done).length = 90 * done.length

/-- The transfer is over: everything has been sent. -/
structure Ended (channel : Nat) (content : List UInt8) (packet : RequestData) (state : State)
    (done : List LogData) : Prop where
  ordered : Ordered channel content packet done
  chan : state.logSendingChan = none
  sending : state.logSending = false
  complete : bytes done = wanted content packet

/-- The transfer is on or over. -/
def Progress (backend : Backend) (channel : Nat) (content : List UInt8) (packet : RequestData)
    (state : State) (done : List LogData) : Prop :=
  Sending backend channel content packet state done ∨ Ended channel content packet state done

variable {backend : Backend} {channel : Nat} {content : List UInt8} {packet : RequestData}
  {state : State} {done : List LogData}

theorem Backend.Reads.small (reads : backend.Reads packet.id.toNat content) :
    content.length < 2 ^ 32 := by
  rw [← reads.size]
  exact UInt32.toNat_lt _

theorem wanted_length (content : List UInt8) (packet : RequestData) :
    (wanted content packet).length =
      min packet.count.toNat (content.length - packet.ofs.toNat) := by
  rw [wanted, List.length_take, List.length_drop]

theorem read_eq (content : List UInt8) (packet : RequestData) {sent len : Nat}
    (inside : sent + len ≤ (wanted content packet).length) :
    (content.drop (packet.ofs.toNat + sent)).take len =
      ((wanted content packet).drop sent).take len := by
  rw [wanted_length] at inside
  rw [wanted, List.drop_take, List.take_take, List.drop_drop]
  congr 1
  omega

/-- One packet brings the next part and leaves the transfer on, or over with the last part. -/
theorem Sending.sendData (sending : Sending backend channel content packet state done)
    (reads : backend.Reads packet.id.toNat content) :
    Progress backend channel content packet (handleLogSendData backend state channel).1
      (done ++ [(handleLogSendData backend state channel).2]) := by
  obtain ⟨ordered, chan, on, listing, id, page, offset, remaining, full⟩ := sending
  have size := reads.small
  have total := wanted_length content packet
  have start : packet.ofs.toNat < 2 ^ 32 := UInt32.toNat_lt _
  have behind : (bytes done).length ≤ (wanted content packet).length := ordered.inOrder.length_le
  -- The part that is read: 90 bytes, or all that is left.
  obtain ⟨len, lenEq⟩ : ∃ len, len = min state.logDataRemaining 90 := ⟨_, rfl⟩
  have inside : (bytes done).length + len ≤ (wanted content packet).length := by omega
  obtain ⟨part, partEq⟩ : ∃ part, part = ((wanted content packet).drop (bytes done).length).take len :=
    ⟨_, rfl⟩
  have partLength : part.length = len := by
    rw [partEq, List.length_take, List.length_drop]
    omega
  have read : (backend.getLogData state.logNumData state.logDataPage state.logDataOffset
      (min state.logDataRemaining 90)).getD [] = part := by
    rw [id, page, offset, reads.data, Option.getD_some, ← lenEq, read_eq content packet inside, partEq]
  have onward : bytes done ++ part <+: wanted content packet := by
    rw [partEq]
    refine ⟨((wanted content packet).drop (bytes done).length).drop len, ?_⟩
    rw [List.append_assoc, List.take_append_drop]
    exact (List.prefix_iff_eq_append.mp ordered.inOrder)
  rw [handleLogSendData]
  dsimp only
  rw [read, ← lenEq, partLength]
  obtain ⟨sent, sentEq⟩ : ∃ sent : LogData, sent = ⟨channel, state.logNumData, state.logDataOffset,
    len, part ++ List.replicate (90 - len) 0⟩ := ⟨_, rfl⟩
  rw [← sentEq]
  have joined : bytes (done ++ [sent]) = bytes done ++ part := by
    rw [bytes_append, bytes_singleton, sentEq]
    exact congrArg _ (List.take_left' partLength)
  have orderedToo : Ordered channel content packet (done ++ [sent]) := by
    refine ⟨fun item member => ?_, ?_, ?_, by rw [joined]; exact onward⟩
    · rcases List.mem_append.mp member with old | new
      · exact ordered.addressed item old
      · rw [List.mem_singleton.mp new, sentEq]
        exact ⟨rfl, id⟩
    · refine (consecutive_snoc _ _ _).mpr ⟨ordered.consecutive, ?_⟩
      rw [sentEq, ordered.counted]
      exact offset
    · rw [joined, List.map_append, List.sum_append, ordered.counted, List.length_append, partLength,
        sentEq]
      rfl
  have joinedLength : (bytes (done ++ [sent])).length = (bytes done).length + len := by
    rw [joined, List.length_append, partLength]
  split
  · refine Or.inr ⟨orderedToo, rfl, rfl, ?_⟩
    exact orderedToo.inOrder.eq_of_length (by omega)
  · refine Or.inl ⟨orderedToo, chan, on, listing, id, page, ?_, ?_, ?_⟩
    · dsimp only
      rw [joinedLength, offset, Nat.mod_eq_of_lt (by omega)]
      omega
    · dsimp only
      omega
    · rw [joinedLength, List.length_append, List.length_singleton]
      omega

theorem sendLoop_idle (off : state.logSending = false) (ready : List Bool) :
    sendLoop backend channel state ready = (state, []) := by
  induction ready with
  | nil => rfl
  | cons first rest inductionHypothesis =>
    rw [sendLoop, off, if_neg Bool.false_ne_true]
    exact inductionHypothesis

section

variable (sending : Sending backend channel content packet state done)

include sending

/-- The loop sends the next packets, and at least one if the link is ready. -/
theorem Sending.sendLoop (reads : backend.Reads packet.id.toNat content) (ready : List Bool) :
    Progress backend channel content packet (sendLoop backend channel state ready).1
        (done ++ packets (LogTransfer.sendLoop backend channel state ready).2) ∧
      (ready.head? = some true →
        1 ≤ (packets (LogTransfer.sendLoop backend channel state ready).2).length) := by
  induction ready generalizing state done with
  | nil =>
    rw [LogTransfer.sendLoop, packets, List.filterMap_nil, List.append_nil]
    exact ⟨Or.inl sending, fun impossible => nomatch impossible⟩
  | cons first rest inductionHypothesis =>
    rw [LogTransfer.sendLoop, if_pos sending.sending]
    cases first with
    | false =>
      rw [if_neg Bool.false_ne_true, packets, List.filterMap_nil, List.append_nil]
      exact ⟨Or.inl sending, fun impossible => nomatch impossible⟩
    | true =>
      rw [if_pos rfl]
      dsimp only
      have split : ∀ later : List Sent,
          done ++ packets (.data (handleLogSendData backend state channel).2 :: later) =
            (done ++ [(handleLogSendData backend state channel).2]) ++ packets later := by
        intro later
        rw [List.append_assoc]
        rfl
      rw [split]
      refine ⟨?_, fun _ => Nat.le_add_left 1 _⟩
      rcases sending.sendData reads with onward | finished
      · exact (inductionHypothesis onward).1
      · rw [sendLoop_idle finished.sending, packets, List.filterMap_nil, List.append_nil]
        exact Or.inr finished

/-- The call of the link during a transfer. -/
theorem Sending.handleLogSend (listReady : Bool) (ready : List Bool) :
    handleLogSend backend state channel listReady ready =
      LogTransfer.sendLoop backend channel state ready := by
  rw [LogTransfer.handleLogSend, if_neg (not_not.mpr sending.chan), sending.listing,
    if_neg Bool.false_ne_true]
  dsimp only
  rw [if_neg (not_not.mpr sending.sending)]
  rfl

theorem Sending.step
    (reads : backend.Reads packet.id.toNat content) {event : Event} (keeps : event.KeepsTransfer) :
    Progress backend channel content packet (state.step backend event).1
        (done ++ packets (state.step backend event).2) ∧
      (event.SendsOn channel → 1 ≤ (packets (state.step backend event).2).length) := by
  have quiet : ∀ sent : List Sent, packets sent = [] →
      Progress backend channel content packet state (done ++ packets sent) := by
    intro sent none
    rw [none, List.append_nil]
    exact Or.inl sending
  cases event with
  | message writesEnabled vehicleIsArmed other message =>
    refine ⟨?_, fun impossible => impossible.elim⟩
    rw [State.step]
    unfold handleLogMessage
    split
    · exact quiet [] rfl
    · cases message with
      | requestList request listReady =>
        dsimp only
        rw [handleLogRequestList, if_pos (by rw [sending.chan]; rfl)]
        exact quiet _ rfl
      | requestData request ready =>
        dsimp only
        rw [handleLogRequestData, sending.chan]
        dsimp only
        split
        · exact quiet _ rfl
        · exact quiet [] rfl
      | erase => exact quiet [] rfl
      | requestEnd => exact keeps.elim
  | send other listReady ready =>
    rw [State.step]
    by_cases same : other = channel
    · rw [same, sending.handleLogSend]
      obtain ⟨progress, sends⟩ := sending.sendLoop reads ready
      refine ⟨progress, fun willing => sends ?_⟩
      cases ready with
      | nil => exact willing.elim
      | cons first rest =>
        cases first with
        | false => exact willing.elim
        | true => rfl
    · have elsewhere : state.logSendingChan ≠ some other := by
        rw [sending.chan]
        exact fun equal => same (Option.some.inj equal).symm
      rw [LogTransfer.handleLogSend, if_pos elsewhere]
      refine ⟨quiet [] rfl, fun willing => ?_⟩
      cases ready with
      | nil => exact willing.elim
      | cons first rest =>
        cases first with
        | false => exact willing.elim
        | true => exact absurd willing same

end

/-- A run of a transfer, with a packet for every call of the link that is ready. -/
theorem Progress.run (progress : Progress backend channel content packet state done)
    (reads : backend.Reads packet.id.toNat content) (schedule : List Event)
    (keeps : ∀ event ∈ schedule, event.KeepsTransfer) :
    Progress backend channel content packet (runTransfer backend state schedule).1
        (done ++ packets (runTransfer backend state schedule).2) ∧
      ((runTransfer backend state schedule).1.logSendingChan = none ∨
        schedule.countP (Event.SendsOn channel) ≤
          (packets (runTransfer backend state schedule).2).length) := by
  induction schedule generalizing state done with
  | nil =>
    rw [runTransfer, packets, List.filterMap_nil, List.append_nil]
    exact ⟨progress, Or.inr (Nat.le_refl 0)⟩
  | cons event rest inductionHypothesis =>
    rw [runTransfer]
    rcases progress with sending | finished
    · rw [if_neg (by rw [sending.chan]; exact fun impossible => nomatch impossible)]
      obtain ⟨onward, sends⟩ := sending.step reads (keeps event List.mem_cons_self)
      obtain ⟨final, counts⟩ := inductionHypothesis onward
        fun other member => keeps other (List.mem_cons_of_mem _ member)
      dsimp only
      rw [packets_append, ← List.append_assoc]
      refine ⟨final, counts.imp_right fun enough => ?_⟩
      rw [List.length_append, List.countP_cons]
      split
      · rename_i ready
        have one := sends (of_decide_eq_true ready)
        omega
      · omega
    · rw [if_pos finished.chan, packets, List.filterMap_nil, List.append_nil]
      exact ⟨Or.inr finished, Or.inl finished.chan⟩

theorem Progress.delivers {sent : List Sent} {schedule : List Event}
    (progress : Progress backend channel content packet state (packets sent))
    (enough : state.logSendingChan = none ∨
      schedule.countP (Event.SendsOn channel) ≤ (packets sent).length) :
    Delivers channel content packet schedule state sent := by
  rcases progress with sending | finished
  · have active : state.logSendingChan ≠ none := by
      rw [sending.chan]
      exact fun impossible => nomatch impossible
    refine ⟨sending.ordered.addressed, sending.ordered.consecutive, sending.ordered.inOrder,
      fun ended => absurd ended active, fun many => ?_⟩
    have few := enough.resolve_left active
    have length := sending.ordered.inOrder.length_le
    have full := sending.full
    omega
  · exact ⟨finished.ordered.addressed, finished.ordered.consecutive, finished.ordered.inOrder,
      fun _ => finished.complete, fun _ => finished.chan⟩

/-! ### What every run keeps -/

/-- A state that a run of messages and calls reaches from boot. The logs may change in between. -/
inductive Reachable : State → Prop
  | boot : Reachable State.boot
  | step {state : State} (backend : Backend) (event : Event) :
      Reachable state → Reachable (state.step backend event).1

/-- A list and a log are never sent at once, nothing is sent while no channel is served, and an idle
transfer in a download has no list left over. -/
structure Consistent (state : State) : Prop where
  exclusive : state.logListing = true → state.logSending = false
  idle : state.logSendingChan = none → state.logSending = false
  quiet : state.logSendingChan = none → state.inLogDownload = true → state.logListing = false

section

variable (consistent : Consistent state)

include consistent

theorem Consistent.sendData (on : state.logSending = true) :
    Consistent (handleLogSendData backend state channel).1 := by
  have listing : state.logListing = false := by
    by_contra listed
    rw [Bool.not_eq_false] at listed
    exact absurd (consistent.exclusive listed) (by rw [on]; decide)
  rw [handleLogSendData]
  dsimp only
  split
  · exact ⟨fun _ => rfl, fun _ => rfl, fun _ _ => listing⟩
  · exact ⟨consistent.exclusive, consistent.idle, fun _ _ => listing⟩

theorem Consistent.sendLoop (ready : List Bool) :
    Consistent (sendLoop backend channel state ready).1 := by
  induction ready generalizing state with
  | nil => exact consistent
  | cons first rest inductionHypothesis =>
    rw [LogTransfer.sendLoop]
    split
    · rename_i on
      split
      · exact inductionHypothesis (consistent.sendData on)
      · exact consistent
    · exact inductionHypothesis consistent

theorem Consistent.sendListing (listing : state.logListing = true)
    (served : state.logSendingChan ≠ none) (ready : Bool) :
    Consistent (handleLogSendListing backend state channel ready).1 := by
  have off := consistent.exclusive listing
  rw [handleLogSendListing]
  split
  · exact consistent
  · dsimp only
    split
    · exact ⟨fun _ => off, fun _ => off, fun _ _ => rfl⟩
    · exact ⟨fun _ => off, fun _ => off, fun none => absurd none served⟩

theorem Consistent.handleLogSend (listReady : Bool)
    (ready : List Bool) : Consistent (handleLogSend backend state channel listReady ready).1 := by
  rw [LogTransfer.handleLogSend]
  split
  · exact consistent
  · rename_i served
    rw [not_not] at served
    have listed : Consistent (if state.logListing = true then
        handleLogSendListing backend state channel listReady else (state, [])).1 := by
      split
      · rename_i listing
        exact consistent.sendListing listing (by rw [served]; exact fun none => nomatch none) _
      · exact consistent
    generalize (if state.logListing = true then
        handleLogSendListing backend state channel listReady else (state, [])) = pair at listed ⊢
    dsimp only
    split
    · exact listed
    · exact listed.sendLoop ready

theorem Consistent.requestList (request : RequestList)
    (listReady : Bool) :
    Consistent (handleLogRequestList backend state channel request listReady).1 := by
  rw [handleLogRequestList]
  split
  · exact consistent
  · refine Consistent.sendListing ?_ rfl ?_ _
    · exact ⟨fun _ => rfl, fun _ => rfl, fun unserved => nomatch unserved⟩
    · exact fun unserved => nomatch unserved

end

theorem startSending_consistent (listing : state.logListing = false) :
    Consistent (startSending state channel packet) where
  exclusive := fun listed => absurd (listing.symm.trans listed) (by decide)
  idle := fun none => nomatch none
  quiet := fun none => nomatch none

theorem Consistent.requestData (consistent : Consistent state) (ready : List Bool) :
    Consistent (handleLogRequestData backend state channel packet ready).1 := by
  rw [handleLogRequestData]
  cases served : state.logSendingChan with
  | some sending => exact consistent
  | none =>
    dsimp only
    split
    · split
      · exact ⟨fun _ => rfl, fun _ => rfl, fun _ _ => rfl⟩
      · exact (startSending_consistent rfl).handleLogSend _ _
    · exact (startSending_consistent rfl).handleLogSend _ _

theorem Consistent.step (consistent : Consistent state) (event : Event) :
    Consistent (state.step backend event).1 := by
  cases event with
  | message writesEnabled vehicleIsArmed channel message =>
    rw [State.step]
    unfold handleLogMessage
    split
    · exact consistent
    · cases message with
      | requestList request listReady => exact consistent.requestList request listReady
      | requestData request ready => exact consistent.requestData ready
      | erase => exact consistent
      | requestEnd => exact ⟨fun _ => rfl, fun _ => rfl, fun _ impossible => nomatch impossible⟩
  | send channel listReady ready => exact consistent.handleLogSend listReady ready

theorem Reachable.consistent (reachable : Reachable state) : Consistent state := by
  induction reachable with
  | boot => exact ⟨fun _ => rfl, fun _ => rfl, fun _ _ => rfl⟩
  | step backend event _ inductionHypothesis => exact inductionHypothesis.step event

/-! ### A request -/

theorem Consistent.start (consistent : Consistent state) (idle : state.logSendingChan = none)
    (valid : backend.Valid packet) (reads : backend.Reads packet.id.toNat content)
    (ready : List Bool) :
    Progress backend channel content packet
      (handleLogRequestData backend state channel packet ready).1
      (packets (handleLogRequestData backend state channel packet ready).2) := by
  have off := consistent.idle idle
  have size := reads.size
  have total := wanted_length content packet
  rw [handleLogRequestData, idle]
  dsimp only
  rw [off, if_pos (Or.inl Bool.false_ne_true), if_neg (not_not.mpr valid)]
  have sending : Sending backend channel content packet (startSending { state with
      inLogDownload := true
      logListing := false
      logSending := false
      logSendingChan := none
      logNumData := packet.id.toNat
      logDataSize := (backend.getLogInfo packet.id.toNat).1.toNat
      logDataPage := backend.getLogBoundaries packet.id.toNat } channel packet) [] := by
    refine ⟨⟨fun _ none => (nomatch none), trivial, rfl, List.nil_prefix⟩, rfl, rfl, rfl, rfl, rfl, rfl,
      ?_, rfl⟩
    rw [startSending, size]
    dsimp only
    rw [show (bytes []).length = 0 from rfl]
    split_ifs <;> omega
  rw [sending.handleLogSend]
  exact (sending.sendLoop reads ready).1

/-- The whole of a transfer delivers what was asked for. -/
theorem Consistent.delivers (consistent : Consistent state) (idle : state.logSendingChan = none)
    (valid : backend.Valid packet) (reads : backend.Reads packet.id.toNat content)
    (ready : List Bool) (schedule : List Event) (keeps : ∀ event ∈ schedule, event.KeepsTransfer) :
    Delivers channel content packet schedule
      (runTransfer backend (handleLogRequestData backend state channel packet ready).1 schedule).1
      ((handleLogRequestData backend state channel packet ready).2 ++
        (runTransfer backend (handleLogRequestData backend state channel packet ready).1
          schedule).2) := by
  obtain ⟨final, enough⟩ := (consistent.start idle valid reads ready).run reads schedule keeps
  rw [← packets_append] at final
  refine final.delivers (enough.imp_right fun counts => ?_)
  rw [packets_append, List.length_append]
  omega

theorem Consistent.refused (consistent : Consistent state) (invalid : ¬ backend.Valid packet)
    (ready : List Bool) :
    (handleLogRequestData backend state channel packet ready).1 = state ↔
      state.logSendingChan ≠ none ∨ state.inLogDownload = true := by
  rw [handleLogRequestData]
  cases served : state.logSendingChan with
  | some sending => exact ⟨fun _ => Or.inl fun none => (nomatch none), fun _ => rfl⟩
  | none =>
    have off := consistent.idle served
    dsimp only
    rw [off, if_pos (Or.inl Bool.false_ne_true), if_pos invalid]
    constructor
    · intro same
      exact Or.inr (congrArg State.inLogDownload same).symm
    · intro either
      have on : state.inLogDownload = true := either.resolve_left fun active => active rfl
      have listing := consistent.quiet served on
      obtain ⟨logListing, logSending, inLogDownload, logSendingChan, _⟩ := state
      dsimp only at off served on listing
      subst off served on listing
      rfl

/-- What a request for log data should do: start the transfer of what it asks for if the log exists
and no transfer is active, and change nothing if the log does not exist. -/
def RequestServed (backend : Backend) (state : State) (writesEnabled vehicleIsArmed : Bool)
    (channel : Nat) (packet : RequestData) (ready : List Bool) : Prop :=
  let first := state.step backend
    (.message writesEnabled vehicleIsArmed channel (.requestData packet ready))
  (backend.Valid packet → shouldHandleLogMessage writesEnabled vehicleIsArmed = true →
    state.logSendingChan = none → ∀ content, backend.Reads packet.id.toNat content →
    ∀ schedule : List Event, (∀ event ∈ schedule, event.KeepsTransfer) →
      Delivers channel content packet schedule (runTransfer backend first.1 schedule).1
        (first.2 ++ (runTransfer backend first.1 schedule).2)) ∧
  (¬ backend.Valid packet → first.1 = state)

/-- A request is served as it should be if and only if it is not one for a log that does not exist,
which is handled while no transfer is active and no download is on. -/
theorem requestServed_iff (backend : Backend) (state : State) (reachable : Reachable state)
    (writesEnabled vehicleIsArmed : Bool) (channel : Nat) (packet : RequestData)
    (ready : List Bool) :
    RequestServed backend state writesEnabled vehicleIsArmed channel packet ready ↔
      ¬ (¬ backend.Valid packet ∧ shouldHandleLogMessage writesEnabled vehicleIsArmed = true ∧
        state.logSendingChan = none ∧ state.inLogDownload = false) := by
  have consistent := reachable.consistent
  rw [RequestServed, State.step]
  unfold handleLogMessage
  dsimp only
  by_cases valid : backend.Valid packet
  · refine iff_of_true ⟨fun _ handled idle content reads schedule keeps => ?_,
      fun invalid => absurd valid invalid⟩ fun condition => condition.1 valid
    rw [if_neg (not_not.mpr handled)]
    exact consistent.delivers idle valid reads ready schedule keeps
  · rw [and_iff_right fun present => absurd present valid, imp_iff_right valid, and_iff_right valid]
    by_cases handled : shouldHandleLogMessage writesEnabled vehicleIsArmed = true
    · rw [if_neg (not_not.mpr handled), consistent.refused valid, and_iff_right handled, not_and_or,
        Bool.not_eq_false]
    · rw [if_pos handled]
      exact iff_of_true rfl fun condition => handled condition.1

/-! ### Two requests -/

/-- A storage with one log of one hundred bytes. -/
def oneLog : Backend where
  getNumLogs := 1
  getLogInfo := fun _ => (100, 0)
  getLogBoundaries := fun _ => 0
  getLogData := fun _ _ ofs len => some (((List.replicate 100 7).drop ofs).take len)

theorem requestServed_iff_oneLog :
    Reachable State.boot ∧ RequestServed oneLog State.boot true false 0 ⟨1, 0, 100⟩ [true] ∧
      oneLog.Reads 1 (List.replicate 100 7) ∧
      (runTransfer oneLog (State.boot.step oneLog
        (.message true false 0 (.requestData ⟨1, 0, 100⟩ [true]))).1 [.send 0 true [true]]).1 =
          { State.boot with
            inLogDownload := true
            logNumData := 1
            logDataOffset := 100
            logDataSize := 100 } := by
  refine ⟨.boot, (requestServed_iff oneLog State.boot .boot true false 0 ⟨1, 0, 100⟩ [true]).mpr ?_,
    ⟨rfl, fun _ _ => rfl⟩, ?_⟩
  · rintro ⟨invalid, -⟩
    exact invalid (by decide)
  · decide

/-- A request for log 2 of 1 after boot sets the download flag. -/
theorem not_requestServed_invalid :
    Reachable State.boot ∧ ¬ RequestServed oneLog State.boot true false 0 ⟨2, 0, 100⟩ [true] := by
  refine ⟨.boot, fun served => ?_⟩
  have unchanged := served.2 (by decide)
  exact absurd (congrArg State.inLogDownload unchanged) (by decide)

end Urus.LogTransfer
