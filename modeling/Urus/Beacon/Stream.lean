/-
This file proves what the decoder does with any stream of characters, however it is split over the
calls of `update`. The length of a datagram is a byte from the wire, and the buffer has room for
datagrams of up to 248 bytes. Longer ones are accepted all the same, and the decoder leaves the
buffer on the 251st byte behind such a length. On every other stream no access is out of bounds, the
handlers get complete datagrams without errors, and the table of the beacons is right.
-/

import Urus.Beacon.Handlers

namespace Urus.Beacon

/-! ### The remainder -/

/-- The remainder of some bytes. -/
def crcModbus (bytes : List UInt8) : UInt16 := bytes.foldl crcByte 0xFFFF

theorem crcLoop_eq {buffer : List UInt8} {rounds position : ℕ} {crc : UInt16}
    (inside : position + rounds ≤ buffer.length) :
    crcLoop buffer rounds position crc =
      some (((buffer.drop position).take rounds).foldl crcByte crc) := by
  induction rounds generalizing position crc with
  | zero => rfl
  | succ rounds inductionHypothesis =>
    have here : position < buffer.length := by omega
    rw [crcLoop, List.getElem?_eq_getElem here]
    dsimp only [Option.bind_eq_bind, Option.bind_some]
    rw [inductionHypothesis (by omega), List.drop_eq_getElem_cons here, List.take_succ_cons,
      List.foldl_cons]

theorem calcCrcModbus_eq {buffer : List UInt8} {length : ℕ} (inside : length ≤ buffer.length) :
    calcCrcModbus buffer length = some (crcModbus (buffer.take length)) := by
  rw [calcCrcModbus, crcLoop_eq (by omega), List.drop_zero]
  rfl

/-! ### One character -/

variable {decoder : Decoder} {datagrams : List Datagram}

/-- Where the decoder stands behind a character of a header. -/
inductive Header (decoder : Decoder) (received : UInt8) (next : Decoder) : Prop
  | reset (state : next.parseState = .recvHdr) (count : next.numBytesInBlockReceived = 0)
  | more (state : next.parseState = decoder.parseState)
      (count : next.numBytesInBlockReceived = decoder.numBytesInBlockReceived + 1)
      (small : next.numBytesInBlockReceived ≤ 4)
      (known : next.numBytesInBlockReceived = 4 → IsDatagram next.dataId)
  | done (header : decoder.numBytesInBlockReceived = 4) (state : next.parseState = .recvDgram)
      (count : next.numBytesInBlockReceived = 5) (same : next.dataId = decoder.dataId)
      (good : goodLength decoder.dataId received = true)

/-- What is kept while there is no datagram. -/
structure Unhandled (decoder next : Decoder) : Prop where
  buffer : next.inputBuffer = decoder.inputBuffer
  hedge : next.hedge = decoder.hedge
  sent : next.beaconPosition = decoder.beaconPosition

variable {next : Decoder} {length : UInt8} {bytes : List UInt8} {dataId : UInt16}

theorem Intact.unhandled (intact : Intact decoder datagrams) (unhandled : Unhandled decoder next) :
    Intact next datagrams := by
  obtain ⟨buffer, positions, place, sent, table, ascending⟩ := intact
  refine ⟨?_, ?_, ?_, ?_, ?_, ?_⟩
  · rw [unhandled.buffer]
    exact buffer
  · rw [unhandled.hedge]
    exact positions
  · rw [unhandled.hedge]
    exact place
  · rw [unhandled.sent]
    exact sent
  · rw [unhandled.hedge]
    exact table
  · rw [unhandled.hedge]
    exact ascending

theorem Intact.nothing (intact : Intact decoder datagrams) (unhandled : Unhandled decoder next) :
    Intact next (datagrams ++ []) := by
  rw [List.append_nil]
  exact intact.unhandled unhandled

theorem receiveHeader_spec (intact : Intact decoder datagrams) (received : UInt8)
    (small : decoder.numBytesInBlockReceived ≤ 4) :
    ∃ next, decoder.receiveHeader received = some next ∧ Header decoder received next ∧
      Unhandled decoder next := by
  have long : 2 < decoder.inputBuffer.length := by
    rw [intact.buffer]
    decide
  rw [Decoder.receiveHeader]
  dsimp only
  match count : decoder.numBytesInBlockReceived with
  | 0 =>
    refine ⟨_, rfl, ?_, ?_⟩
    · split_ifs
      · exact .more rfl (by rw [count]) (show 1 ≤ 4 by decide) (fun impossible => nomatch impossible)
      · exact .reset rfl rfl
    · split_ifs <;> exact ⟨rfl, rfl, rfl⟩
  | 1 =>
    refine ⟨_, rfl, ?_, ?_⟩
    · split_ifs
      · exact .more rfl (by rw [count]) (show 2 ≤ 4 by decide) (fun impossible => nomatch impossible)
      · exact .reset rfl rfl
    · split_ifs <;> exact ⟨rfl, rfl, rfl⟩
  | 2 =>
    refine ⟨_, rfl, ?_, rfl, rfl, rfl⟩
    exact .more rfl (by rw [count]) (show 3 ≤ 4 by decide) (fun impossible => nomatch impossible)
  | 3 =>
    rw [List.getElem?_eq_getElem long]
    refine ⟨_, rfl, ?_, ?_⟩
    · split_ifs with known
      · exact .more rfl (by rw [count]) (show 4 ≤ 4 by decide) fun _ => known
      · exact .reset rfl rfl
    · split_ifs <;> exact ⟨rfl, rfl, rfl⟩
  | 4 =>
    refine ⟨_, rfl, ?_, ?_⟩
    · split_ifs with good
      · exact .done count rfl rfl rfl good
      · exact .reset rfl rfl
    · split_ifs <;> exact ⟨rfl, rfl, rfl⟩
  | _ + 5 => omega

/-- A datagram has the length that it says, and no error. -/
def Datagram.Complete (datagram : Datagram) : Prop :=
  ∃ length, datagram.frame[4]? = some length ∧ datagram.frame.length = 7 + length.toNat ∧
    crcModbus datagram.frame = 0

/-- Where the decoder stands behind a character of a datagram. -/
inductive Body (decoder : Decoder) (length : UInt8) (next : Decoder) : List Datagram → Prop
  | more (state : next.parseState = .recvDgram)
      (count : next.numBytesInBlockReceived = decoder.numBytesInBlockReceived + 1)
      (small : next.numBytesInBlockReceived < 7 + length.toNat)
      (same : next.dataId = decoder.dataId) : Body decoder length next []
  | done (new : List Datagram) (state : next.parseState = .recvHdr)
      (count : next.numBytesInBlockReceived = 0)
      (full : 7 + length.toNat ≤ decoder.numBytesInBlockReceived + 1)
      (handled : ∀ datagram ∈ new, datagram.Complete ∧
        datagram.frame = decoder.inputBuffer.take (decoder.numBytesInBlockReceived + 1)) :
      Body decoder length next new

theorem receiveDatagram_spec (intact : Intact decoder datagrams)
    (state : decoder.parseState = .recvDgram) (known : IsDatagram decoder.dataId)
    (there : decoder.inputBuffer[4]? = some length)
    (small : decoder.numBytesInBlockReceived < 7 + length.toNat)
    (inside : decoder.numBytesInBlockReceived < bufSize) :
    ∃ next new, decoder.receiveDatagram = some (next, new) ∧ Body decoder length next new ∧
      Intact next (datagrams ++ new) ∧ next.inputBuffer = decoder.inputBuffer := by
  rw [Decoder.receiveDatagram, there]
  dsimp only [Option.bind_eq_bind, Option.bind_some]
  by_cases full : decoder.numBytesInBlockReceived + 1 ≥ 7 + length.toNat
  · have complete : decoder.numBytesInBlockReceived + 1 = 7 + length.toNat := by omega
    have within : decoder.numBytesInBlockReceived + 1 ≤ decoder.inputBuffer.length :=
      intact.buffer ▸ inside
    rw [if_pos full, calcCrcModbus_eq within]
    dsimp only [Option.bind_some]
    by_cases errorless : crcModbus
        (decoder.inputBuffer.take (decoder.numBytesInBlockReceived + 1)) = 0
    · rw [if_pos errorless]
      have intactNow : Intact { decoder with
          numBytesInBlockReceived := decoder.numBytesInBlockReceived + 1 } datagrams :=
        intact.unhandled ⟨rfl, rfl, rfl⟩
      obtain ⟨handled, handling, intactHandled, input⟩ :=
        handle_spec intactNow known there complete inside
      rw [handling]
      refine ⟨_, _, rfl, .done _ rfl rfl full ?_, intactHandled.unhandled ⟨rfl, rfl, rfl⟩,
        input.buffer⟩
      intro datagram member
      rw [List.mem_singleton.mp member]
      refine ⟨⟨length, ?_, ?_, errorless⟩, rfl⟩
      · exact (List.getElem?_take_of_lt (by omega)).trans there
      · rw [List.length_take, Nat.min_eq_left within, complete]
    · rw [if_neg errorless]
      exact ⟨_, [], rfl, .done [] rfl rfl full fun _ impossible => absurd impossible List.not_mem_nil,
        intact.nothing ⟨rfl, rfl, rfl⟩, rfl⟩
  · rw [if_neg full]
    exact ⟨_, [], rfl, .more state rfl (Nat.not_le.mp full) rfl,
      intact.nothing ⟨rfl, rfl, rfl⟩, rfl⟩

/-! ### Streams -/

/-- The decoder and the datagrams behind a stream. -/
def behind (bytes : List UInt8) : Option (Decoder × List Datagram) :=
  runSteps hear (start, []) bytes

/-- The next character is the length of a datagram. -/
structure AwaitsLength (decoder : Decoder) : Prop where
  state : decoder.parseState = .recvHdr
  count : decoder.numBytesInBlockReceived = 4

/-- The datagram that is being received began in the stream, and its length was accepted. -/
structure Began (decoder : Decoder) (seen : List UInt8) (length : UInt8) (after : List UInt8) :
    Prop where
  started : ∃ before earlier, seen = before ++ length :: after ∧ behind before = some earlier ∧
    AwaitsLength earlier.1 ∧ earlier.1.dataId = decoder.dataId
  known : IsDatagram decoder.dataId
  good : goodLength decoder.dataId length = true
  there : decoder.inputBuffer[4]? = some length
  count : decoder.numBytesInBlockReceived = 5 + after.length
  small : decoder.numBytesInBlockReceived < 7 + length.toNat

/-- What holds behind a stream. -/
structure Receiving (decoder : Decoder) (datagrams : List Datagram) (seen : List UInt8) :
    Prop where
  intact : Intact decoder datagrams
  block : decoder.inputBuffer.take decoder.numBytesInBlockReceived <:+ seen
  inside : decoder.numBytesInBlockReceived ≤ bufSize
  handled : ∀ datagram ∈ datagrams, datagram.Complete ∧ datagram.frame <:+: seen
  header : decoder.parseState = .recvHdr → decoder.numBytesInBlockReceived ≤ 4 ∧
    (decoder.numBytesInBlockReceived = 4 → IsDatagram decoder.dataId)
  body : decoder.parseState = .recvDgram → ∃ length after, Began decoder seen length after

/-- The decoder with a character in its buffer. -/
def Decoder.fill (decoder : Decoder) (received : UInt8) : Decoder :=
  { decoder with
    inputBuffer := decoder.inputBuffer.set decoder.numBytesInBlockReceived received }

variable {seen : List UInt8}

theorem Intact.fill (intact : Intact decoder datagrams) (received : UInt8) :
    Intact (decoder.fill received) datagrams :=
  ⟨List.length_set.trans intact.buffer, intact.positions, intact.next, intact.sent, intact.table,
    intact.ascending⟩

theorem take_fill (intact : Intact decoder datagrams) (received : UInt8)
    (inside : decoder.numBytesInBlockReceived < bufSize) :
    (decoder.fill received).inputBuffer.take (decoder.numBytesInBlockReceived + 1) =
      decoder.inputBuffer.take decoder.numBytesInBlockReceived ++ [received] := by
  have there : decoder.numBytesInBlockReceived < decoder.inputBuffer.length :=
    intact.buffer ▸ inside
  rw [Decoder.fill, List.take_add_one, List.take_set_of_le (Nat.le_refl _),
    List.getElem?_set_self there]
  rfl

theorem receive_header (received : UInt8) (intact : Intact decoder datagrams)
    (inside : decoder.numBytesInBlockReceived < bufSize) (state : decoder.parseState = .recvHdr) :
    decoder.receive received =
      ((decoder.fill received).receiveHeader received).bind fun next => some (next, []) := by
  rw [Decoder.receive, write_inside (intact.buffer ▸ inside)]
  cases decoder
  cases state
  rfl

theorem receive_datagram (received : UInt8) (intact : Intact decoder datagrams)
    (inside : decoder.numBytesInBlockReceived < bufSize)
    (state : decoder.parseState = .recvDgram) :
    decoder.receive received = (decoder.fill received).receiveDatagram := by
  rw [Decoder.receive, write_inside (intact.buffer ▸ inside)]
  cases decoder
  cases state
  rfl

theorem receive_outside (received : UInt8) (intact : Intact decoder datagrams)
    (outside : bufSize ≤ decoder.numBytesInBlockReceived) : decoder.receive received = none := by
  have beyond : ¬ decoder.numBytesInBlockReceived < decoder.inputBuffer.length :=
    Nat.not_lt.mpr (intact.buffer ▸ outside)
  rw [Decoder.receive, write, if_neg beyond]
  rfl

theorem suffix_concat {block : List UInt8} (suffix : block <:+ seen) (received : UInt8) :
    block ++ [received] <:+ seen ++ [received] := by
  obtain ⟨front, rfl⟩ := suffix
  exact ⟨front, (List.append_assoc _ _ _).symm⟩

section

variable (receiving : Receiving decoder datagrams seen)

include receiving

theorem Receiving.handledConcat (received : UInt8) : ∀ datagram ∈ datagrams,
      datagram.Complete ∧ datagram.frame <:+: seen ++ [received] := by
  intro datagram member
  obtain ⟨complete, infixed⟩ := receiving.handled datagram member
  exact ⟨complete, infixed.trans (List.prefix_append seen [received]).isInfix⟩

theorem Receiving.header_step
    (reached : behind seen = some (decoder, datagrams)) (state : decoder.parseState = .recvHdr)
    (received : UInt8) :
    ∃ next, decoder.receive received = some (next, []) ∧
      Receiving next (datagrams ++ []) (seen ++ [received]) := by
  obtain ⟨small, known⟩ := receiving.header state
  have inside : decoder.numBytesInBlockReceived < bufSize :=
    Nat.lt_of_le_of_lt small (by decide)
  have intactFilled := receiving.intact.fill received
  obtain ⟨next, result, outcome, unhandled⟩ :=
    receiveHeader_spec intactFilled received (show _ ≤ 4 from small)
  refine ⟨next, ?_, ?_⟩
  · rw [receive_header received receiving.intact inside state, result]
    rfl
  have intact := intactFilled.nothing unhandled
  have handled : ∀ datagram ∈ datagrams ++ [],
      datagram.Complete ∧ datagram.frame <:+: seen ++ [received] := by
    rw [List.append_nil]
    exact receiving.handledConcat received
  cases outcome with
  | reset stateNext count =>
    refine ⟨intact, ?_, ?_, handled, fun _ => ⟨?_, ?_⟩, fun body => ?_⟩
    · rw [count, List.take_zero]
      exact List.nil_suffix
    · rw [count]
      exact Nat.zero_le _
    · rw [count]
      exact Nat.zero_le _
    · rw [count]
      exact fun impossible => nomatch impossible
    · exact nomatch stateNext.symm.trans body
  | more stateNext count smallNext knownNext =>
    have header : next.parseState = .recvHdr := stateNext.trans state
    refine ⟨intact, ?_, smallNext.trans (by decide), handled, fun _ => ⟨smallNext, knownNext⟩,
      fun body => ?_⟩
    · rw [count, unhandled.buffer]
      have block := take_fill receiving.intact received inside
      exact block ▸ suffix_concat receiving.block received
    · exact nomatch header.symm.trans body
  | done header stateNext count same good =>
    have four : decoder.numBytesInBlockReceived = 4 := header
    refine ⟨intact, ?_, ?_, handled, fun impossible => ?_, fun _ => ⟨received, [], ?_⟩⟩
    · have block := take_fill receiving.intact received inside
      rw [four] at block
      rw [count, unhandled.buffer, block]
      exact suffix_concat (four ▸ receiving.block) received
    · rw [count]
      decide
    · exact nomatch stateNext.symm.trans impossible
    · have dataId : next.dataId = decoder.dataId := same
      refine ⟨⟨seen, (decoder, datagrams), rfl, reached, ⟨state, four⟩, dataId.symm⟩,
        dataId.symm ▸ known four, dataId.symm ▸ good, ?_, count, ?_⟩
      · have there : 4 < decoder.inputBuffer.length := by
          rw [receiving.intact.buffer]
          decide
        rw [unhandled.buffer, Decoder.fill, four]
        exact List.getElem?_set_self there
      · rw [count]
        omega

/-- A character of a datagram. -/
theorem Receiving.body_step (state : decoder.parseState = .recvDgram) {after : List UInt8}
    (began : Began decoder seen length after) (inside : decoder.numBytesInBlockReceived < bufSize)
    (received : UInt8) :
    ∃ next new, decoder.receive received = some (next, new) ∧
      Receiving next (datagrams ++ new) (seen ++ [received]) ∧
      Body (decoder.fill received) length next new ∧ next.inputBuffer[4]? = some length := by
  have elsewhere : decoder.numBytesInBlockReceived ≠ 4 := by
    rw [began.count]
    omega
  have there : (decoder.fill received).inputBuffer[4]? = some length := by
    rw [Decoder.fill]
    exact (List.getElem?_set_ne elsewhere).trans began.there
  obtain ⟨next, new, result, outcome, intact, buffer⟩ := receiveDatagram_spec
    (receiving.intact.fill received) (show _ = ParseState.recvDgram from state)
    (show IsDatagram decoder.dataId from began.known) there (show _ < _ from began.small)
    (show _ < _ from inside)
  refine ⟨next, new, ?_, ?_, outcome, buffer.symm ▸ there⟩
  · rw [receive_datagram received receiving.intact inside state]
    exact result
  have block := take_fill receiving.intact received inside
  have suffix := suffix_concat receiving.block received
  rw [← block] at suffix
  cases outcome with
  | more stateNext count smallNext same =>
    refine ⟨intact, ?_, ?_, ?_, fun impossible => ?_, fun _ => ⟨length, after ++ [received], ?_⟩⟩
    · rw [count, buffer]
      exact suffix
    · rw [count]
      exact inside
    · rw [List.append_nil]
      exact receiving.handledConcat received
    · exact nomatch stateNext.symm.trans impossible
    · obtain ⟨before, earlier, split, reached, awaits, dataId⟩ := began.started
      have sameId : next.dataId = decoder.dataId := same
      refine ⟨⟨before, earlier, ?_, reached, awaits, dataId.trans sameId.symm⟩,
        sameId.symm ▸ began.known, sameId.symm ▸ began.good, buffer.symm ▸ there, ?_, smallNext⟩
      · rw [split, List.append_assoc, List.cons_append]
      · rw [count, List.length_append, List.length_singleton, ← Nat.add_assoc, ← began.count]
        rfl
  | done _ stateNext count full handledNow =>
    refine ⟨intact, ?_, ?_, ?_, fun _ => ⟨?_, ?_⟩, fun body => ?_⟩
    · rw [count, List.take_zero]
      exact List.nil_suffix
    · rw [count]
      exact Nat.zero_le _
    · intro datagram member
      rcases List.mem_append.mp member with earlier | now
      · exact receiving.handledConcat received datagram earlier
      · obtain ⟨complete, frame⟩ := handledNow datagram now
        rw [frame]
        exact ⟨complete, suffix.isInfix⟩
    · rw [count]
      exact Nat.zero_le _
    · rw [count]
      exact fun impossible => nomatch impossible
    · exact nomatch stateNext.symm.trans body

theorem Receiving.step (reached : behind seen = some (decoder, datagrams))
    (inside : decoder.numBytesInBlockReceived < bufSize) (received : UInt8) :
    ∃ next new, decoder.receive received = some (next, new) ∧
      Receiving next (datagrams ++ new) (seen ++ [received]) := by
  cases state : decoder.parseState with
  | recvHdr =>
    obtain ⟨next, result, receivingNext⟩ := receiving.header_step reached state received
    exact ⟨next, [], result, receivingNext⟩
  | recvDgram =>
    obtain ⟨length, after, began⟩ := receiving.body state
    obtain ⟨next, new, result, receivingNext, -, -⟩ :=
      receiving.body_step state began inside received
    exact ⟨next, new, result, receivingNext⟩

end

theorem behind_concat (bytes : List UInt8) (received : UInt8) :
    behind (bytes ++ [received]) = (behind bytes).bind fun state => hear state received := by
  rw [behind, runSteps_append]
  refine Option.bind_congr fun state _ => ?_
  rw [runSteps]
  cases hear state received <;> rfl

theorem hear_eq (received : UInt8) :
    hear (decoder, datagrams) received =
      (decoder.receive received).bind fun next => some (next.1, datagrams ++ next.2) := rfl

theorem receiving_start : Receiving start [] [] := by
  refine ⟨⟨List.length_replicate, rfl, Nat.zero_lt_succ 2, rfl, ?_, List.Pairwise.nil⟩,
    List.nil_suffix, Nat.zero_le _, fun _ impossible => absurd impossible List.not_mem_nil,
    fun _ => ⟨Nat.zero_le _, fun impossible => nomatch impossible⟩, fun body => nomatch body⟩
  exact ⟨rfl, Nat.zero_le _, List.nodup_nil, fun _ impossible => absurd impossible List.not_mem_nil,
    fun _ => List.Pairwise.nil⟩

/-- Whatever the stream, what holds while the decoder stays within its arrays. -/
theorem receiving_behind (reached : behind bytes = some (decoder, datagrams)) :
    Receiving decoder datagrams bytes := by
  induction bytes using List.reverseRecOn generalizing decoder datagrams with
  | nil =>
    obtain ⟨rfl, rfl⟩ := Prod.mk.inj (Option.some.inj reached)
    exact receiving_start
  | append_singleton bytes received inductionHypothesis =>
    rw [behind_concat] at reached
    obtain ⟨⟨before, earlier⟩, reachedBefore, heard⟩ := Option.bind_eq_some_iff.mp reached
    have receiving := inductionHypothesis reachedBefore
    rcases Nat.lt_or_ge before.numBytesInBlockReceived bufSize with inside | outside
    · obtain ⟨next, new, result, receivingNext⟩ := receiving.step reachedBefore inside received
      rw [hear_eq, result] at heard
      obtain ⟨rfl, rfl⟩ := Prod.mk.inj (Option.some.inj heard)
      exact receivingNext
    · rw [hear_eq, receive_outside received receiving.intact outside] at heard
      exact nomatch heard

/-! ### Long datagrams -/

/-- The length of a datagram of beacons is over 248, and all characters up to the end of the buffer
and one more follow. -/
def Overlong (bytes : List UInt8) : Prop :=
  ∃ before length after state, bytes = before ++ length :: after ∧ behind before = some state ∧
    AwaitsLength state.1 ∧ IsBeacons state.1.dataId ∧ 248 < length.toNat ∧ 251 ≤ after.length

theorem goodLength_long (known : IsDatagram dataId) (good : goodLength dataId length = true)
    (long : 248 < length.toNat) : IsBeacons dataId := by
  rw [goodLength] at good
  rcases known with low | high | beacons
  · rw [if_pos low, beq_iff_eq] at good
    rw [good] at long
    exact absurd long (by decide)
  · rw [high, if_neg (by decide), if_neg (by decide), if_pos rfl, beq_iff_eq] at good
    rw [good] at long
    exact absurd long (by decide)
  · exact beacons

/-- A stream without such a datagram stays within the arrays. -/
theorem behind_of_short (short : ¬ Overlong bytes) :
    ∃ state, behind bytes = some state := by
  induction bytes using List.reverseRecOn with
  | nil => exact ⟨(start, []), rfl⟩
  | append_singleton bytes received inductionHypothesis =>
    have shortBefore : ¬ Overlong bytes := by
      rintro ⟨before, length, after, state, rfl, reached, awaits, beacons, long, enough⟩
      refine short ⟨before, length, after ++ [received], state, ?_, reached, awaits, beacons, long,
        ?_⟩
      · rw [List.append_assoc, List.cons_append]
      · rw [List.length_append]
        omega
    obtain ⟨⟨decoder, datagrams⟩, reached⟩ := inductionHypothesis shortBefore
    have receiving := receiving_behind reached
    have inside : decoder.numBytesInBlockReceived < bufSize := by
      by_contra outside
      have last : decoder.numBytesInBlockReceived = 255 :=
        Nat.le_antisymm receiving.inside (Nat.not_lt.mp outside)
      cases state : decoder.parseState with
      | recvHdr =>
        have small := (receiving.header state).1
        omega
      | recvDgram =>
        obtain ⟨length, after, ⟨before, earlier, split, reachedBefore, awaits, same⟩, known, good,
          -, count, small⟩ := receiving.body state
        have long : 248 < length.toNat := by omega
        refine short ⟨before, length, after ++ [received], earlier, ?_, reachedBefore, awaits,
          same.symm ▸ goodLength_long known good long, long, ?_⟩
        · rw [split, List.append_assoc, List.cons_append]
        · rw [List.length_append, List.length_singleton]
          omega
    obtain ⟨next, new, result, -⟩ := receiving.step reached inside received
    rw [behind_concat, reached]
    dsimp only [Option.bind_some]
    rw [hear_eq, result]
    exact ⟨_, rfl⟩

theorem goodLength_beacons (beacons : IsBeacons dataId) (length : UInt8) :
    goodLength dataId length = true := by
  have other : dataId ≠ positionDatagramId := by
    rcases beacons with rfl | rfl <;> decide
  rw [goodLength, if_neg other, if_pos beacons]

theorem receiveHeader_length (count : decoder.numBytesInBlockReceived = 4)
    (good : goodLength decoder.dataId length = true) :
    decoder.receiveHeader length =
      some { decoder with parseState := .recvDgram, numBytesInBlockReceived := 4 + 1 } := by
  rw [Decoder.receiveHeader, count]
  dsimp only
  rw [if_pos good]
  rfl

/-- The decoder is in the middle of a datagram. -/
structure Within (decoder : Decoder) (length : UInt8) (count : ℕ) : Prop where
  state : decoder.parseState = .recvDgram
  count : decoder.numBytesInBlockReceived = count
  there : decoder.inputBuffer[4]? = some length

theorem within_overlong {before after : List UInt8} {earlier state : Decoder × List Datagram}
    (reached : behind before = some earlier) (awaits : AwaitsLength earlier.1)
    (beacons : IsBeacons earlier.1.dataId) (long : 248 < length.toNat) (inside : after.length ≤ 250)
    (result : behind (before ++ length :: after) = some state) :
    Within state.1 length (5 + after.length) := by
  induction after using List.reverseRecOn generalizing state with
  | nil =>
    have receiving := receiving_behind reached
    have room : earlier.1.numBytesInBlockReceived < bufSize := by
      rw [awaits.count]
      decide
    have there : 4 < earlier.1.inputBuffer.length := by
      rw [receiving.intact.buffer]
      decide
    rw [behind_concat, reached] at result
    dsimp only [Option.bind_some] at result
    have header : (earlier.1.fill length).receiveHeader length = some { earlier.1.fill length with
        parseState := .recvDgram, numBytesInBlockReceived := 4 + 1 } :=
      receiveHeader_length awaits.count (goodLength_beacons beacons length)
    rw [hear_eq, receive_header length receiving.intact room awaits.state, header] at result
    obtain rfl := Option.some.inj result
    refine ⟨rfl, rfl, ?_⟩
    dsimp only [Decoder.fill]
    rw [awaits.count]
    exact List.getElem?_set_self there
  | append_singleton after received inductionHypothesis =>
    rw [List.length_append, List.length_singleton] at inside ⊢
    have split : before ++ length :: (after ++ [received]) =
        (before ++ length :: after) ++ [received] := by
      rw [List.append_assoc, List.cons_append]
    rw [split, behind_concat] at result
    obtain ⟨⟨middle, others⟩, reachedMiddle, heard⟩ := Option.bind_eq_some_iff.mp result
    have within := inductionHypothesis (by omega) reachedMiddle
    have receiving := receiving_behind reachedMiddle
    obtain ⟨length', after', began⟩ := receiving.body within.state
    obtain rfl := Option.some.inj (began.there.symm.trans within.there)
    have count : middle.numBytesInBlockReceived = 5 + after.length := within.count
    have room : middle.numBytesInBlockReceived < 255 := by omega
    obtain ⟨next, new, stepped, -, outcome, there⟩ :=
      receiving.body_step within.state began room received
    rw [hear_eq, stepped] at heard
    obtain rfl := Option.some.inj heard
    cases outcome with
    | more stateNext countNext small same =>
      refine ⟨stateNext, ?_, there⟩
      rw [countNext, ← Nat.add_assoc, ← count]
      rfl
    | done _ stateNext countNext full handled =>
      have reachedEnd : 7 + length'.toNat ≤ middle.numBytesInBlockReceived + 1 := full
      omega

/-- Behind the end of the buffer the decoder writes out of bounds. -/
theorem not_behind_overlong (overlong : Overlong bytes) :
    ∃ before, before <+: bytes ∧ behind before = none := by
  obtain ⟨before, length, after, earlier, rfl, reached, awaits, beacons, long, enough⟩ := overlong
  have split : after = after.take 250 ++ after[250] :: after.drop 251 := by
    rw [← List.drop_eq_getElem_cons, List.take_append_drop]
  refine ⟨(before ++ length :: after.take 250) ++ [after[250]], ⟨after.drop 251, ?_⟩, ?_⟩
  · rw [List.append_assoc, List.append_assoc, List.cons_append, List.singleton_append, ← split]
  · rw [behind_concat]
    cases reachedEnd : behind (before ++ length :: after.take 250) with
    | none => rfl
    | some state =>
      have full : (after.take 250).length = 250 := by
        rw [List.length_take]
        omega
      have within := within_overlong reached awaits beacons long full.le reachedEnd
      have outside : bufSize ≤ state.1.numBytesInBlockReceived := by
        rw [within.count, full]
        decide
      dsimp only [Option.bind_some]
      rw [hear_eq, receive_outside _ (receiving_behind reachedEnd).intact outside]
      rfl

/-! ### Every stream -/

/-- What the decoder has done with a stream: the handlers have got datagrams from the stream that
were complete and without errors, and the table holds different beacons in ascending order, each
with the position that came last for its address. -/
structure Right (bytes : List UInt8) (state : Decoder × List Datagram) : Prop where
  handled : ∀ datagram ∈ state.2, datagram.Complete ∧ datagram.frame <:+: bytes
  ascending : Ascending state.1.hedge.positionsBeacons.stored
  latest : ∀ beacon ∈ state.1.hedge.positionsBeacons.stored,
    lastReport (state.2.flatMap Datagram.beacons) beacon.address = some beacon

/-- All along a stream the decoder stays within its arrays and is right. -/
def Safe (bytes : List UInt8) : Prop :=
  ∀ before, before <+: bytes → ∃ state, behind before = some state ∧ Right before state

theorem updates_eq (state : Decoder × List Datagram) (chunks : List (List UInt8)) :
    runSteps update state chunks = runSteps hear state chunks.flatten := by
  induction chunks generalizing state with
  | nil => rfl
  | cons chunk rest inductionHypothesis =>
    rw [runSteps, List.flatten_cons, runSteps_append]
    exact Option.bind_congr fun next _ => inductionHypothesis next

theorem Overlong.mono {before bytes : List UInt8} (overlong : Overlong before)
    (first : before <+: bytes) : Overlong bytes := by
  obtain ⟨front, length, after, state, rfl, reached, awaits, beacons, long, enough⟩ := overlong
  obtain ⟨rest, rfl⟩ := first
  refine ⟨front, length, after ++ rest, state, ?_, reached, awaits, beacons, long, ?_⟩
  · rw [List.append_assoc, List.cons_append]
  · rw [List.length_append]
    exact enough.trans (Nat.le_add_right _ _)

/-- However a stream is split over the calls of `update`, the decoder does the same with it, and it
is safe if and only if no datagram of beacons is too long for the buffer. -/
theorem safe_iff (chunks : List (List UInt8)) :
    runSteps update (start, []) chunks = behind chunks.flatten ∧
      (Safe chunks.flatten ↔ ¬ Overlong chunks.flatten) := by
  refine ⟨updates_eq _ chunks, ?_⟩
  constructor
  · intro safe overlong
    obtain ⟨before, first, fault⟩ := not_behind_overlong overlong
    obtain ⟨state, reached, -⟩ := safe before first
    exact nomatch fault.symm.trans reached
  · intro short before first
    obtain ⟨state, reached⟩ := behind_of_short fun overlong => short (overlong.mono first)
    have receiving := receiving_behind reached
    exact ⟨state, reached, receiving.handled, receiving.intact.ascending,
      receiving.intact.table.latest⟩

/-- The beginning of a datagram of 31 beacons, with the length that belongs to it. -/
def longDatagram : List UInt8 := [0xff, 0x47, 0x02, 0x00] ++ 249 :: List.replicate 251 0

theorem not_safe_longDatagram : ¬ Safe longDatagram := by
  intro safe
  have header : (behind [0xff, 0x47, 0x02, 0x00]).map (fun state =>
      (state.1.parseState, state.1.numBytesInBlockReceived, state.1.dataId)) =
        some (.recvHdr, 4, positionsDatagramId) := by
    decide +kernel
  obtain ⟨state, reached, fields⟩ := Option.map_eq_some_iff.mp header
  obtain ⟨parseState, rest⟩ := Prod.mk.inj fields
  obtain ⟨count, dataId⟩ := Prod.mk.inj rest
  have overlong : Overlong longDatagram :=
    ⟨[0xff, 0x47, 0x02, 0x00], 249, List.replicate 251 0, state, rfl, reached,
      ⟨parseState, count⟩, Or.inl dataId, by decide, List.length_replicate.ge⟩
  obtain ⟨before, first, fault⟩ := not_behind_overlong overlong
  obtain ⟨state', reached', -⟩ := safe before first
  exact nomatch fault.symm.trans reached'

end Urus.Beacon
