/-
This file models the transfers of the AVR core on the I2C bus. A transfer is a write, a read or both,
and each is a row of steps. The bus answers each step with a status, or not in time.

A transfer always reports success. This is true exactly if each step that it plans gets the answer that
is expected for it.
-/

import Mathlib.Tactic

namespace Urus.I2cDevice

/-! ### The bus -/

/-- What the code asks the bus to do. -/
inductive Op
  | start
  | address (byte : UInt8)
  | byte (byte : UInt8)
  | receive (ack : Bool)
  | stop
  deriving DecidableEq

/-- What comes of it: nothing in time, or the registers `TWSR` and `TWDR`. -/
inductive Answer
  | timeout
  | done (twsr twdr : UInt8)
  deriving DecidableEq

/-- A step and its answer. -/
structure Entry where
  op : Op
  answer : Answer
  deriving DecidableEq

/-- The answers that will come, the steps of a write or a read so far, and the bytes it has read. -/
structure Bus where
  answers : List Answer
  log : List Entry
  received : List UInt8
  deriving DecidableEq

/-- The answer to the next step. A bus that has no answer left stays silent. -/
def Bus.next (bus : Bus) : Answer := bus.answers.headD .timeout

/-- A step is issued. -/
def Bus.issue (bus : Bus) (op : Op) : Bus :=
  { bus with answers := bus.answers.tail, log := bus.log ++ [⟨op, bus.next⟩] }

/-- `TWI_STATUS`. -/
def Answer.twiStatus : Answer → UInt8
  | .timeout => 0
  | .done twsr _ => twsr &&& 0xF8

/-- `_waitInterrupt` and `_waitStop`. -/
def Answer.wait : Answer → UInt8
  | .timeout => 1
  | .done _ _ => 0

/-! ### The code -/

/-- `SLA_W`. -/
def slaW (address : UInt8) : UInt8 := address <<< 1

/-- `SLA_R`. -/
def slaR (address : UInt8) : UInt8 := (address <<< 1) + 0x01

def statusStart : UInt8 := 0x08

def statusRepeatedStart : UInt8 := 0x10

def mtDataAck : UInt8 := 0x28

def mrDataAck : UInt8 := 0x50

def mrDataNack : UInt8 := 0x58

/-- `_start`. -/
def Bus.start (bus : Bus) : Bus × UInt8 :=
  (bus.issue .start,
    if bus.next.wait ≠ 0 then bus.next.wait
    else if bus.next.twiStatus = statusStart ∨ bus.next.twiStatus = statusRepeatedStart then 0
    else bus.next.twiStatus)

/-- `_stop`. -/
def Bus.stop (bus : Bus) : Bus × UInt8 := (bus.issue .stop, bus.next.wait)

/-- `_sendAddress`. -/
def Bus.sendAddress (address : UInt8) (bus : Bus) : Bus × UInt8 :=
  (bus.issue (.address address), bus.next.wait)

/-- `_sendByte`. -/
def Bus.sendByte (data : UInt8) (bus : Bus) : Bus × UInt8 :=
  (bus.issue (.byte data),
    if bus.next.wait ≠ 0 then bus.next.wait
    else if bus.next.twiStatus = mtDataAck then 0
    else bus.next.twiStatus)

/-- `_receiveByte`. -/
def Bus.receiveByte (ack : Bool) (bus : Bus) : Bus × UInt8 :=
  (bus.issue (.receive ack),
    if bus.next.wait ≠ 0 then bus.next.wait else bus.next.twiStatus)

/-- `TWDR`, behind a step with this answer. -/
def Answer.twdr : Answer → UInt8
  | .timeout => 0
  | .done _ twdr => twdr

/-- A call that may go to the label `error`, with the status that it goes there with. -/
abbrev Outcome := Bus × Option UInt8

/-- `if (stat) goto error`. -/
def orError (result : Bus × UInt8) : Outcome :=
  (result.1, if result.2 ≠ 0 then some result.2 else none)

/-- What comes next, unless there was an error. -/
def andThen (outcome : Outcome) (next : Bus → Outcome) : Outcome :=
  match outcome.2 with
  | some _ => outcome
  | none => next outcome.1

/-- The loop that sends bytes. -/
def sendBytes : List UInt8 → Bus → Outcome
  | [], bus => (bus, none)
  | data :: rest, bus => andThen (orError (bus.sendByte data)) (sendBytes rest)

/-- A byte is received and stored, or the wrong status is an error. -/
def receiveOne (ack : Bool) (bus : Bus) : Outcome :=
  let result := bus.receiveByte ack
  if result.2 ≠ (if ack then mrDataAck else mrDataNack) then (result.1, some result.2)
  else ({ result.1 with received := result.1.received ++ [bus.next.twdr] }, none)

/-- The loop that receives bytes, with so many left. The last one is not acknowledged. -/
def receiveBytes : ℕ → Bus → Outcome
  | 0, bus => (bus, none)
  | 1, bus => receiveOne false bus
  | left + 2, bus => andThen (receiveOne true bus) (receiveBytes (left + 1))

/-- `write`. -/
def Bus.write (address : UInt8) (data : List UInt8) (bus : Bus) : Outcome :=
  andThen (orError bus.start) fun bus =>
    andThen (orError (bus.sendAddress (slaW address))) fun bus =>
      andThen (sendBytes data bus) fun bus => orError bus.stop

/-- `writeRegisters`. -/
def Bus.writeRegisters (address register : UInt8) (data : List UInt8) (bus : Bus) : Outcome :=
  andThen (orError bus.start) fun bus =>
    andThen (orError (bus.sendAddress (slaW address))) fun bus =>
      andThen (orError (bus.sendByte register)) fun bus =>
        andThen (sendBytes data bus) fun bus => orError bus.stop

/-- `writeRegister`. -/
def Bus.writeRegister (address register value : UInt8) (bus : Bus) : Outcome :=
  bus.writeRegisters address register [value]

/-- A length of zero is taken for one. -/
def readLength (length : ℕ) : ℕ := if length = 0 then 1 else length

/-- `read`. -/
def Bus.read (address : UInt8) (length : ℕ) (bus : Bus) : Outcome :=
  andThen (orError bus.start) fun bus =>
    andThen (orError (bus.sendAddress (slaR address))) fun bus =>
      andThen (receiveBytes (readLength length) bus) fun bus => orError bus.stop

/-- `readRegisters`. -/
def Bus.readRegisters (address register : UInt8) (length : ℕ) (bus : Bus) : Outcome :=
  andThen (orError bus.start) fun bus =>
    andThen (orError (bus.sendAddress (slaW address))) fun bus =>
      andThen (orError (bus.sendByte register)) fun bus =>
        andThen (orError bus.start) fun bus =>
          andThen (orError (bus.sendAddress (slaR address))) fun bus =>
            andThen (receiveBytes (readLength length) bus) fun bus => orError bus.stop

/-- What a transfer comes to: its result, the steps of its write and its read, and what was read. -/
structure Transfer where
  result : Bool
  written : List Entry
  read : List Entry
  received : List UInt8
  deriving DecidableEq

/-- The write of a transfer. Without bytes to send, or when the first byte is a register to read from,
there is none. -/
def transferWrite (address : UInt8) (send : List UInt8) (recv : Option ℕ) (bus : Bus) : Bus :=
  match send, recv with
  | [], _ => bus
  | [_], some _ => bus
  | [data], none => (bus.write address [data]).1
  | [register, value], _ => (bus.writeRegister address register value).1
  | data, _ => (bus.write address data).1

/-- The read of a transfer. -/
def transferRead (address : UInt8) (send : List UInt8) (recv : Option ℕ) (bus : Bus) : Bus :=
  match recv, send with
  | none, _ => bus
  | some length, [register] => (bus.readRegisters address register length).1
  | some length, _ => (bus.read address length).1

/-- `transfer`, with the bytes that are sent and the length of the buffer that is filled, if there is
one. -/
def transfer (address : UInt8) (send : List UInt8) (recv : Option ℕ) (answers : List Answer) :
    Transfer :=
  let written := transferWrite address send recv ⟨answers, [], []⟩
  let read := transferRead address send recv ⟨written.answers, [], []⟩
  ⟨true, written.log, read.log, read.received⟩

/-! ### What is wanted -/

/-- The answer that is expected. -/
def Expected (entry : Entry) : Prop :=
  entry.answer ≠ .timeout ∧
    match entry.op with
    | .start => entry.answer.twiStatus = 0x08 ∨ entry.answer.twiStatus = 0x10
    | .address byte => entry.answer.twiStatus = if byte &&& 1 = 0 then 0x18 else 0x40
    | .byte _ => entry.answer.twiStatus = 0x28
    | .receive ack => entry.answer.twiStatus = if ack then 0x50 else 0x58
    | .stop => True

/-- Nothing is issued behind a step that has failed. -/
def Stops (log : List Entry) : Prop := ∀ before entry after, log = before ++ entry :: after →
  ¬ Expected entry → after = []

/-- A transfer reports success only if all its steps have been answered as expected and all bytes have
been read. -/
structure Reports (recv : Option ℕ) (transfer : Transfer) : Prop where
  written : transfer.result = true → ∀ entry ∈ transfer.written, Expected entry
  read : transfer.result = true → ∀ entry ∈ transfer.read, Expected entry
  received : transfer.result = true → recv.getD 0 ≤ transfer.received.length
  stopsWriting : Stops transfer.written
  stopsReading : Stops transfer.read

/-! ### Plans -/

section Plans

/-- The steps that receive so many bytes. -/
def receivePlan : ℕ → List Op
  | 0 => []
  | 1 => [.receive false]
  | left + 2 => .receive true :: receivePlan (left + 1)

/-- The steps of a write that comes to its end. -/
def writePlan (address : UInt8) (data : List UInt8) : List Op :=
  .start :: .address (slaW address) :: (data.map Op.byte ++ [.stop])

/-- The steps of a read that comes to its end. -/
def readPlan (address : UInt8) (length : ℕ) : List Op :=
  .start :: .address (slaR address) :: (receivePlan (readLength length) ++ [.stop])

/-- The steps of the write of a transfer that comes to its end. -/
def transferWritePlan (address : UInt8) (send : List UInt8) (recv : Option ℕ) : List Op :=
  match send, recv with
  | [], _ => []
  | [_], some _ => []
  | data, _ => writePlan address data

/-- The steps of the read of a transfer that comes to its end. -/
def transferReadPlan (address : UInt8) (send : List UInt8) (recv : Option ℕ) : List Op :=
  match recv, send with
  | none, _ => []
  | some length, [register] =>
    .start :: .address (slaW address) :: .byte register :: readPlan address length
  | some length, _ => readPlan address length

/-- The steps of a transfer that comes to its end. -/
def plan (address : UInt8) (send : List UInt8) (recv : Option ℕ) : List Op :=
  transferWritePlan address send recv ++ transferReadPlan address send recv

/-- All steps of a plan will be answered as expected. -/
def AllExpected : List Op → List Answer → Prop
  | [], _ => True
  | op :: rest, answers => Expected ⟨op, answers.headD .timeout⟩ ∧ AllExpected rest answers.tail

/-- The code goes on behind this answer. -/
def Entry.passes (entry : Entry) : Bool :=
  entry.answer.wait == 0 &&
    match entry.op with
    | .start => entry.answer.twiStatus == statusStart ||
        entry.answer.twiStatus == statusRepeatedStart || entry.answer.twiStatus == 0
    | .address _ => true
    | .byte _ => entry.answer.twiStatus == mtDataAck || entry.answer.twiStatus == 0
    | .receive ack => entry.answer.twiStatus == if ack then mrDataAck else mrDataNack
    | .stop => true

/-- The bytes that a step reads. -/
def Op.bytes (answer : Answer) : Op → List UInt8
  | .receive _ => [answer.twdr]
  | _ => []

/-- A step that passes. -/
def Bus.pass (bus : Bus) (op : Op) : Bus :=
  { bus.issue op with received := bus.received ++ op.bytes bus.next }

/-- A plan is followed until a step does not pass. -/
def Bus.follow : List Op → Bus → Bus × Bool
  | [], bus => (bus, true)
  | op :: rest, bus =>
    if (⟨op, bus.next⟩ : Entry).passes then Bus.follow rest (bus.pass op) else (bus.issue op, false)

variable {bus : Bus} {first second : List Op} {op : Op}

theorem follow_append (first second : List Op) (bus : Bus) : bus.follow (first ++ second) =
    if (bus.follow first).2 then (bus.follow first).1.follow second else bus.follow first := by
  induction first generalizing bus with
  | nil => rfl
  | cons op rest inductionHypothesis =>
    rw [List.cons_append, Bus.follow, Bus.follow]
    split
    · exact inductionHypothesis _
    · rfl

/-- An outcome is that of a plan. -/
def Follows (outcome : Outcome) (bus : Bus) (steps : List Op) : Prop :=
  outcome.1 = (bus.follow steps).1 ∧ (outcome.2 = none ↔ (bus.follow steps).2 = true)

theorem follows_nil (bus : Bus) : Follows (bus, none) bus [] := ⟨rfl, iff_of_true rfl rfl⟩

theorem Follows.andThen {outcome : Outcome} {next : Bus → Outcome}
    (start : Follows outcome bus first) (onward : ∀ bus, Follows (next bus) bus second) :
    Follows (andThen outcome next) bus (first ++ second) := by
  obtain ⟨same, ended⟩ := start
  rw [Follows, follow_append, I2cDevice.andThen]
  cases error : outcome.2 with
  | none =>
    rw [if_pos (ended.mp error), ← same]
    exact onward outcome.1
  | some stat =>
    have stopped : (bus.follow first).2 ≠ true := fun passed =>
      nomatch error.symm.trans (ended.mpr passed)
    rw [if_neg stopped, error]
    exact ⟨same, ⟨nofun, fun passed => absurd passed stopped⟩⟩

/-- A single step whose status is zero exactly if it passes. -/
theorem follows_orError {result : Bus × UInt8} (issued : result.1 = bus.issue op)
    (nothing : op.bytes bus.next = []) (passes : result.2 = 0 ↔ (⟨op, bus.next⟩ : Entry).passes) :
    Follows (orError result) bus [op] := by
  have same : bus.pass op = bus.issue op := by
    rw [Bus.pass, nothing, List.append_nil]
    rfl
  rw [Follows, orError, Bus.follow, Bus.follow, same, issued]
  by_cases zero : result.2 = 0
  · rw [if_neg (not_not.mpr zero), if_pos (passes.mp zero)]
    exact ⟨rfl, iff_of_true rfl rfl⟩
  · rw [if_pos zero, if_neg (mt passes.mpr zero)]
    exact ⟨rfl, iff_of_false nofun nofun⟩

/-- The test of `_start` and of `_sendByte`, which takes the status 0 for success as well. -/
theorem checked_eq_zero (wanted : UInt8 → Prop) [DecidablePred wanted] (answer : Answer) :
    (if answer.wait ≠ 0 then answer.wait else if wanted answer.twiStatus then 0
      else answer.twiStatus) = 0 ↔
    answer.wait = 0 ∧ (wanted answer.twiStatus ∨ answer.twiStatus = 0) := by
  by_cases waited : answer.wait = 0
  · rw [if_neg (not_not.mpr waited)]
    by_cases met : wanted answer.twiStatus
    · rw [if_pos met]
      exact iff_of_true rfl ⟨waited, .inl met⟩
    · rw [if_neg met]
      exact ⟨fun zero => ⟨waited, .inr zero⟩, fun passed => passed.2.resolve_left met⟩
  · rw [if_pos waited]
    exact iff_of_false waited fun passed => waited passed.1

theorem follows_start (bus : Bus) : Follows (orError bus.start) bus [.start] := by
  refine follows_orError rfl rfl ((checked_eq_zero (fun status =>
    status = statusStart ∨ status = statusRepeatedStart) bus.next).trans ?_)
  simp [Entry.passes]

theorem follows_stop (bus : Bus) : Follows (orError bus.stop) bus [.stop] := by
  refine follows_orError rfl rfl ?_
  simp [Entry.passes, Bus.stop]

theorem follows_sendAddress (address : UInt8) (bus : Bus) :
    Follows (orError (bus.sendAddress address)) bus [.address address] := by
  refine follows_orError rfl rfl ?_
  simp [Entry.passes, Bus.sendAddress]

theorem follows_sendByte (data : UInt8) (bus : Bus) :
    Follows (orError (bus.sendByte data)) bus [.byte data] := by
  refine follows_orError rfl rfl ((checked_eq_zero (· = mtDataAck) bus.next).trans ?_)
  simp [Entry.passes]

theorem follows_sendBytes (data : List UInt8) (bus : Bus) :
    Follows (sendBytes data bus) bus (data.map Op.byte) := by
  induction data generalizing bus with
  | nil => exact follows_nil bus
  | cons first rest inductionHypothesis =>
    exact (follows_sendByte first bus).andThen inductionHypothesis

theorem receiveByte_eq_iff (ack : Bool) (bus : Bus) :
    (bus.receiveByte ack).2 = (if ack then mrDataAck else mrDataNack) ↔
      (⟨.receive ack, bus.next⟩ : Entry).passes := by
  have notTimeout : (1 : UInt8) ≠ if ack then mrDataAck else mrDataNack := by cases ack <;> decide
  rw [Bus.receiveByte, Entry.passes]
  cases bus.next with
  | timeout => exact iff_of_false notTimeout nofun
  | done twsr twdr => simp [Answer.wait]

theorem follows_receiveOne (ack : Bool) (bus : Bus) :
    Follows (receiveOne ack bus) bus [.receive ack] := by
  rw [Follows, receiveOne, Bus.follow, Bus.follow]
  by_cases passed : (⟨.receive ack, bus.next⟩ : Entry).passes
  · rw [if_neg (not_not.mpr ((receiveByte_eq_iff ack bus).mpr passed)), if_pos passed]
    exact ⟨rfl, iff_of_true rfl rfl⟩
  · rw [if_pos (mt (receiveByte_eq_iff ack bus).mp passed), if_neg passed]
    exact ⟨rfl, iff_of_false nofun nofun⟩

theorem follows_receiveBytes (left : ℕ) (bus : Bus) :
    Follows (receiveBytes left bus) bus (receivePlan left) := by
  fun_induction receivePlan left generalizing bus with
  | case1 => exact follows_nil bus
  | case2 => exact follows_receiveOne false bus
  | case3 left inductionHypothesis =>
    exact (follows_receiveOne true bus).andThen inductionHypothesis

theorem follows_write (address : UInt8) (data : List UInt8) (bus : Bus) :
    Follows (bus.write address data) bus (writePlan address data) :=
  (follows_start bus).andThen fun bus =>
    (follows_sendAddress (slaW address) bus).andThen fun bus =>
      (follows_sendBytes data bus).andThen follows_stop

theorem follows_writeRegisters (address register : UInt8) (data : List UInt8) (bus : Bus) :
    Follows (bus.writeRegisters address register data) bus (writePlan address (register :: data)) :=
  (follows_start bus).andThen fun bus =>
    (follows_sendAddress (slaW address) bus).andThen fun bus =>
      (follows_sendByte register bus).andThen fun bus =>
        (follows_sendBytes data bus).andThen follows_stop

theorem follows_read (address : UInt8) (length : ℕ) (bus : Bus) :
    Follows (bus.read address length) bus (readPlan address length) :=
  (follows_start bus).andThen fun bus =>
    (follows_sendAddress (slaR address) bus).andThen fun bus =>
      (follows_receiveBytes (readLength length) bus).andThen follows_stop

theorem follows_readRegisters (address register : UInt8) (length : ℕ) (bus : Bus) :
    Follows (bus.readRegisters address register length) bus
      (.start :: .address (slaW address) :: .byte register :: readPlan address length) :=
  (follows_start bus).andThen fun bus =>
    (follows_sendAddress (slaW address) bus).andThen fun bus =>
      (follows_sendByte register bus).andThen (follows_read address length)

theorem transferWrite_eq_follow (address : UInt8) (send : List UInt8) (recv : Option ℕ)
    (bus : Bus) : transferWrite address send recv bus =
      (bus.follow (transferWritePlan address send recv)).1 := by
  match send, recv with
  | [], _ => rfl
  | [_], some _ => rfl
  | [data], none => exact (follows_write address [data] bus).1
  | [register, value], _ => exact (follows_writeRegisters address register [value] bus).1
  | first :: second :: third :: rest, _ =>
    exact (follows_write address (first :: second :: third :: rest) bus).1

theorem transferRead_eq_follow (address : UInt8) (send : List UInt8) (recv : Option ℕ)
    (bus : Bus) : transferRead address send recv bus =
      (bus.follow (transferReadPlan address send recv)).1 := by
  match recv, send with
  | none, _ => rfl
  | some length, [] => exact (follows_read address length bus).1
  | some length, [register] => exact (follows_readRegisters address register length bus).1
  | some length, _ :: _ :: _ => exact (follows_read address length bus).1

end Plans

/-! ### What is followed -/

section Followed

variable {bus : Bus} {steps : List Op}

/-- What is expected, the code lets pass. The converse is false. -/
theorem passes_of_expected {entry : Entry} (expected : Expected entry) : entry.passes := by
  obtain ⟨op, answer⟩ := entry
  obtain ⟨inTime, status⟩ := expected
  cases answer with
  | timeout => exact absurd rfl inTime
  | done twsr twdr =>
    cases op with
    | start =>
      rcases status with status | status <;>
        simp [Entry.passes, Answer.wait, statusStart, statusRepeatedStart, status]
    | address byte => rfl
    | byte data =>
      have acknowledged : (Answer.done twsr twdr).twiStatus = 0x28 := status
      simp [Entry.passes, Answer.wait, mtDataAck, acknowledged]
    | receive ack =>
      have received : (Answer.done twsr twdr).twiStatus = if ack then 0x50 else 0x58 := status
      simp [Entry.passes, Answer.wait, mrDataAck, mrDataNack, received]
    | stop => rfl

theorem follow_cons {op : Op} (expected : Expected ⟨op, bus.next⟩) :
    bus.follow (op :: steps) = (bus.pass op).follow steps :=
  if_pos (passes_of_expected expected)

theorem mem_log_follow {entry : Entry} (logged : entry ∈ bus.log) :
    entry ∈ (bus.follow steps).1.log := by
  induction steps generalizing bus with
  | nil => exact logged
  | cons op rest inductionHypothesis =>
    rw [Bus.follow]
    split
    · exact inductionHypothesis (List.mem_append_left _ logged)
    · exact List.mem_append_left _ logged

/-- A log without an unexpected answer is the log of a plan that has come to its end. -/
theorem allExpected_of_log (fine : ∀ entry ∈ (bus.follow steps).1.log, Expected entry) :
    AllExpected steps bus.answers := by
  induction steps generalizing bus with
  | nil => trivial
  | cons op rest inductionHypothesis =>
    have first : Expected ⟨op, bus.next⟩ := by
      refine fine _ ?_
      rw [Bus.follow]
      split
      · exact mem_log_follow (List.mem_append_right _ (List.mem_singleton_self _))
      · exact List.mem_append_right _ (List.mem_singleton_self _)
    rw [follow_cons first] at fine
    exact ⟨first, inductionHypothesis fine⟩

theorem log_of_allExpected (expected : AllExpected steps bus.answers)
    (before : ∀ entry ∈ bus.log, Expected entry) :
    ∀ entry ∈ (bus.follow steps).1.log, Expected entry := by
  induction steps generalizing bus with
  | nil => exact before
  | cons op rest inductionHypothesis =>
    rw [follow_cons expected.1]
    exact inductionHypothesis expected.2 fun entry logged =>
      (List.mem_append.mp logged).elim (before entry) fun last =>
        List.mem_singleton.mp last ▸ expected.1

theorem answers_of_allExpected (expected : AllExpected steps bus.answers) :
    (bus.follow steps).1.answers = bus.answers.drop steps.length := by
  induction steps generalizing bus with
  | nil => rfl
  | cons op rest inductionHypothesis =>
    rw [follow_cons expected.1]
    refine (inductionHypothesis expected.2).trans ?_
    rw [List.length_cons, ← List.drop_tail]
    rfl

theorem received_of_allExpected (expected : AllExpected steps bus.answers) :
    (bus.follow steps).1.received.length =
      bus.received.length + steps.countP (fun op => op matches .receive _) := by
  induction steps generalizing bus with
  | nil => rfl
  | cons op rest inductionHypothesis =>
    rw [follow_cons expected.1, inductionHypothesis expected.2]
    cases op <;> simp [Bus.pass, Op.bytes, Nat.add_assoc, Nat.add_comm 1]

theorem allExpected_append (first second : List Op) (answers : List Answer) :
    AllExpected (first ++ second) answers ↔
      AllExpected first answers ∧ AllExpected second (answers.drop first.length) := by
  induction first generalizing answers with
  | nil => exact (iff_of_eq (true_and _)).symm
  | cons op rest inductionHypothesis =>
    rw [List.cons_append, AllExpected, AllExpected, inductionHypothesis, and_assoc,
      List.length_cons, ← List.drop_tail]

theorem countP_receivePlan (left : ℕ) :
    (receivePlan left).countP (fun op => op matches .receive _) = left := by
  fun_induction receivePlan left with
  | case1 => rfl
  | case2 => rfl
  | case3 left inductionHypothesis => rw [List.countP_cons_of_pos rfl, inductionHypothesis]

/-- A read has a step for each byte that is wanted. -/
theorem le_countP_transferReadPlan (address : UInt8) (send : List UInt8) (recv : Option ℕ) :
    recv.getD 0 ≤
      (transferReadPlan address send recv).countP (fun op => op matches .receive _) := by
  cases recv with
  | none => exact Nat.zero_le _
  | some length =>
    have enough : length ≤ readLength length := by
      rw [readLength]
      split <;> omega
    match send with
    | [] => simpa [transferReadPlan, readPlan, countP_receivePlan] using enough
    | [_] => simpa [transferReadPlan, readPlan, countP_receivePlan] using enough
    | _ :: _ :: _ => simpa [transferReadPlan, readPlan, countP_receivePlan] using enough

end Followed

/-! ### The transfer -/

theorem stops_of_expected {log : List Entry} (fine : ∀ entry ∈ log, Expected entry) :
    Stops log := fun before entry _ parts failed =>
  absurd (fine entry (parts ▸ List.mem_append_right before List.mem_cons_self)) failed

/-- A transfer reports success, with the answers that it gets, rightly exactly if each of its steps
gets the answer that is expected. -/
theorem transfer_reports_iff (address : UInt8) (send : List UInt8) (recv : Option ℕ)
    (answers : List Answer) :
    Reports recv (transfer address send recv answers) ↔
      AllExpected (plan address send recv) answers := by
  rw [transfer, transferRead_eq_follow, transferWrite_eq_follow, plan, allExpected_append]
  set written := ((⟨answers, [], []⟩ : Bus).follow (transferWritePlan address send recv)).1
  constructor
  · intro reports
    have writes : AllExpected (transferWritePlan address send recv) answers :=
      allExpected_of_log (reports.written rfl)
    have rest : written.answers = answers.drop _ := answers_of_allExpected writes
    exact ⟨writes, rest ▸ @allExpected_of_log ⟨written.answers, [], []⟩ _ (reports.read rfl)⟩
  · rintro ⟨writes, reads⟩
    have rest : written.answers = answers.drop _ := answers_of_allExpected writes
    rw [← rest] at reads
    have fineWrite : ∀ entry ∈ written.log, Expected entry :=
      log_of_allExpected writes (List.forall_mem_nil _)
    have fineRead := @log_of_allExpected ⟨written.answers, [], []⟩ _ reads (List.forall_mem_nil _)
    have counted := @received_of_allExpected ⟨written.answers, [], []⟩ _ reads
    exact {
      written := fun _ => fineWrite
      read := fun _ => fineRead
      received := fun _ => (le_countP_transferReadPlan address send recv).trans_eq
        (counted.trans (Nat.zero_add _)).symm
      stopsWriting := stops_of_expected fineWrite
      stopsReading := stops_of_expected fineRead }

/-- Nobody acknowledges the address, yet the byte is sent and the transfer reports success. -/
theorem unacknowledged_succeeds :
    (transfer 0x1E [7] none [.done 0x08 0, .done 0x20 0, .done 0x28 0, .done 0xF8 0]).result = true ∧
    ¬ Reports none (transfer 0x1E [7] none
      [.done 0x08 0, .done 0x20 0, .done 0x28 0, .done 0xF8 0]) := by
  refine ⟨rfl, fun reports => ?_⟩
  have acknowledged := (reports.written rfl ⟨.address (slaW 0x1E), .done 0x20 0⟩ (by decide)).2
  exact absurd acknowledged (by decide)

end Urus.I2cDevice
