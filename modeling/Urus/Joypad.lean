/-
This file models how a joypad is read over a serial line. For each byte of the two controllers its
index is written, and the next byte that comes is taken for the answer. Nothing in an answer says which
index it belongs to. When none comes in time the byte is taken to be zero, and the answer may come
later.

Each byte is that of its own index exactly if, whenever an answer is there while a byte is read, no
answer to another index is still to come before it.
-/

import Urus.Lib.Trace

namespace Urus.JoypadUsb

/-! ### The line -/

/-- What the remote would answer for each index, at one moment. -/
abbrev Remote := ℕ → UInt8

/-- A byte that has come, and the index it is the answer to. The receiver sees only the byte. -/
structure Reply where
  index : ℕ
  value : UInt8
  deriving DecidableEq

/-- The indices that have been written and not been answered, and the answers that have come and not
been read. -/
structure Link where
  outstanding : List ℕ
  received : List Reply
  deriving DecidableEq

/-- The remote answers the first index that it has not answered. -/
def Link.answer (link : Link) (remote : Remote) : Link :=
  match link.outstanding with
  | [] => link
  | index :: rest => ⟨rest, link.received ++ [⟨index, remote index⟩]⟩

/-- Some answers come. -/
def Link.arrive (link : Link) (answers : List Remote) : Link := answers.foldl Link.answer link

/-! ### The code -/

/-- `serialWrite`. -/
def Link.serialWrite (link : Link) (index : ℕ) : Link :=
  { link with outstanding := link.outstanding ++ [index] }

/-- `flush_serialRead`. -/
def Link.flushSerialRead (link : Link) : Link := { link with received := [] }

/-- `serialRead`: whether a byte is there is checked before each millisecond of the time-out. The
answers that come before each check are given. Without a byte the result is 0. -/
def Link.serialRead (arrivals : ℕ → List Remote) : ℕ → ℕ → Link → Link × Option Reply
  | 0, _, link => (link, none)
  | timeout + 1, check, link =>
    match (link.arrive (arrivals check)).received with
    | reply :: rest => ({ link.arrive (arrivals check) with received := rest }, some reply)
    | [] => Link.serialRead arrivals timeout (check + 1) (link.arrive (arrivals check))

/-- An index that was written and what was read for it. -/
structure Exchange where
  index : ℕ
  reply : Option Reply
  deriving DecidableEq

/-- The byte that was read. -/
def Exchange.byte (exchange : Exchange) : UInt8 :=
  match exchange.reply with
  | some reply => reply.value
  | none => 0

/-- An index is written, and its byte is read. -/
def Link.exchange (link : Link) (index : ℕ) (arrivals : ℕ → List Remote) : Link × Option Reply :=
  Link.serialRead arrivals 25 0 (link.serialWrite index)

/-- One exchange after the other. -/
def Link.exchanges (arrivals : ℕ → ℕ → List Remote) : List ℕ → Link → Link × List Exchange
  | [], link => (link, [])
  | index :: rest, link =>
    let next := link.exchange index (arrivals index)
    let last := Link.exchanges arrivals rest next.1
    (last.1, ⟨index, next.2⟩ :: last.2)

/-- `data_controller_t`. -/
structure DataController where
  buttonArray : List UInt8
  dpadLeftOn : UInt8
  dpadUpOn : UInt8
  dpadRightOn : UInt8
  dpadDownOn : UInt8
  leftStickX : Int16
  leftStickY : Int16
  rightStickX : Int16
  rightStickY : Int16
  stick3X : Int16
  stick3Y : Int16
  deriving DecidableEq

/-- `BUTTON_ARRAY_LENGTH`. -/
def buttonArrayLength : ℕ := 4

/-- The bytes of a controller. -/
def controllerLength : ℕ := buttonArrayLength + 1 + 6 * 2

/-- The value in `get_16bit_value`, from its two bytes. -/
def get16bitValue (byte : ℕ → UInt8) (serialIndex : ℕ) : Int16 :=
  Int16.ofInt ((byte serialIndex).toNat + (byte (serialIndex + 1)).toNat * 256)

/-- What is stored from the bytes of a controller. -/
def DataController.store (byte : ℕ → UInt8) (serialIndex : ℕ) : DataController :=
  let direction := byte (serialIndex + buttonArrayLength)
  let sticks := serialIndex + buttonArrayLength + 1
  { buttonArray := (List.range buttonArrayLength).map fun i => byte (serialIndex + i)
    dpadLeftOn := (1 : UInt8) &&& direction
    dpadUpOn := (1 : UInt8) &&& (direction >>> 1)
    dpadRightOn := (1 : UInt8) &&& (direction >>> 2)
    dpadDownOn := (1 : UInt8) &&& (direction >>> 3)
    leftStickX := get16bitValue byte sticks
    leftStickY := get16bitValue byte (sticks + 2)
    rightStickX := get16bitValue byte (sticks + 4)
    rightStickY := get16bitValue byte (sticks + 6)
    stick3X := get16bitValue byte (sticks + 8)
    stick3Y := get16bitValue byte (sticks + 10) }

/-- The joypad, and all that has been exchanged. -/
structure Joypad where
  now : UInt32
  link : Link
  controllerData1 : DataController
  controllerData2 : DataController
  log : List Exchange
  deriving DecidableEq

/-- What a call meets: the clock, the answers that come before the line is flushed, and for each index
those that come before each check. -/
structure Call where
  now : UInt32
  before : List Remote
  arrivals : ℕ → ℕ → List Remote

/-- The indices of both controllers. -/
def indices : List ℕ := List.range (2 * controllerLength)

/-- The line when the first index is written. -/
def Joypad.flushed (joypad : Joypad) (call : Call) : Link :=
  (joypad.link.arrive call.before).flushSerialRead

/-- `_process_event`. A call that comes while another one is in progress returns at once. -/
def Joypad.processEvent (joypad : Joypad) (call : Call) : Joypad :=
  if call.now - joypad.now > 4000 then
    let result := Link.exchanges call.arrivals indices (joypad.flushed call)
    let byte := fun index => (result.2.getD index ⟨index, none⟩).byte
    { now := call.now
      link := result.1
      controllerData1 := DataController.store byte 0
      controllerData2 := DataController.store byte controllerLength
      log := joypad.log ++ result.2 }
  else joypad

/-! ### What is wanted -/

/-- What was read for an index is the answer to this index, or nothing came in time. -/
def Exchange.Right (exchange : Exchange) : Prop :=
  ∀ reply, exchange.reply = some reply → reply.index = exchange.index

/-- All that has been exchanged is right. -/
def Paired (joypad : Joypad) : Prop := ∀ exchange ∈ joypad.log, exchange.Right

/-- The controllers hold the bytes that were read for their indices in the last update of the log. -/
def Holds (joypad : Joypad) : Prop :=
  ∃ earlier update, joypad.log = earlier ++ update ∧ update.map Exchange.index = indices ∧
    joypad.controllerData1 = .store (fun index => (update.getD index ⟨index, none⟩).byte) 0 ∧
    joypad.controllerData2 =
      .store (fun index => (update.getD index ⟨index, none⟩).byte) controllerLength

/-- The indices in the order in which their answers will be read. -/
def Link.waiting (link : Link) : List ℕ := link.received.map Reply.index ++ link.outstanding

/-- No answer is there before the time is out, or the first one is to this index. -/
def Clean (link : Link) (index : ℕ) (arrivals : ℕ → List Remote) : Prop :=
  (link.received = [] ∧ ∀ check, check < 25 → arrivals check = []) ∨
    (link.serialWrite index).waiting.head? = some index

/-- All exchanges are clean. -/
def CleanAll (arrivals : ℕ → ℕ → List Remote) : List ℕ → Link → Prop
  | [], _ => True
  | index :: rest, link =>
    Clean link index (arrivals index) ∧
      CleanAll arrivals rest (link.exchange index (arrivals index)).1

/-- A call that does something is clean. -/
def CleanCall (joypad : Joypad) (call : Call) : Prop :=
  call.now - joypad.now > 4000 → CleanAll call.arrivals indices (joypad.flushed call)

/-! ### One exchange -/

section Line

variable {link : Link} {index : ℕ} {arrivals : ℕ → List Remote}

theorem answer_waiting (link : Link) (remote : Remote) :
    (link.answer remote).waiting = link.waiting := by
  rw [Link.answer]
  split
  · rfl
  · rename_i index rest same
    rw [Link.waiting, Link.waiting, same, List.map_append, List.append_assoc]
    rfl

/-- Answers that come do not change the order. -/
theorem arrive_waiting (link : Link) (answers : List Remote) :
    (link.arrive answers).waiting = link.waiting :=
  @runCalls_invariant _ _ Link.answer (fun next => next.waiting = link.waiting) _ _
    (fun next remote _ same => (answer_waiting next remote).trans same) rfl

theorem answer_received (link : Link) (remote : Remote) :
    link.received.length ≤ (link.answer remote).received.length := by
  rw [Link.answer]
  split
  · exact le_rfl
  · rw [List.length_append]
    exact Nat.le_add_right _ _

theorem arrive_received {answers : List Remote} (asked : link.outstanding ≠ [])
    (come : answers ≠ []) : (link.arrive answers).received ≠ [] := by
  obtain ⟨remote, rest, rfl⟩ := List.exists_cons_of_ne_nil come
  obtain ⟨index, others, same⟩ := List.exists_cons_of_ne_nil asked
  have kept : 0 < ((link.answer remote).arrive rest).received.length :=
    @runCalls_invariant _ _ Link.answer (fun next => 0 < next.received.length) _ _
      (fun next remote _ positive => positive.trans_le (answer_received next remote)) (by
        rw [Link.answer, same]
        simp)
  exact List.ne_nil_of_length_pos kept

/-- What is read is the first answer in the order. -/
theorem serialRead_some {timeout check : ℕ} {reply : Reply}
    (read : (Link.serialRead arrivals timeout check link).2 = some reply) :
    link.waiting.head? = some reply.index := by
  induction timeout generalizing check link with
  | zero => exact nomatch read
  | succ timeout inductionHypothesis =>
    rw [Link.serialRead] at read
    rw [← arrive_waiting link (arrivals check)]
    split at read
    · rename_i first rest found
      rw [Link.waiting, found, ← Option.some.inj read]
      rfl
    · exact inductionHypothesis read

theorem serialRead_quiet (empty : link.received = []) {timeout check : ℕ}
    (quiet : ∀ late, late < timeout → arrivals (check + late) = []) :
    (Link.serialRead arrivals timeout check link).2 = none := by
  induction timeout generalizing check with
  | zero => rfl
  | succ timeout inductionHypothesis =>
    have first : link.arrive (arrivals check) = link := by
      have none := quiet 0 (Nat.succ_pos _)
      rw [Nat.add_zero] at none
      rw [none]
      rfl
    rw [Link.serialRead, first, empty]
    refine inductionHypothesis fun late less => ?_
    rw [Nat.add_assoc, Nat.add_comm 1]
    exact quiet (late + 1) (Nat.succ_lt_succ less)

theorem serialRead_none (asked : link.outstanding ≠ []) {timeout check : ℕ}
    (read : (Link.serialRead arrivals timeout check link).2 = none) :
    (0 < timeout → link.received = []) ∧
      ∀ late, late < timeout → arrivals (check + late) = [] := by
  induction timeout generalizing check with
  | zero => exact ⟨fun none => absurd none (lt_irrefl 0), fun late none => absurd none (Nat.not_lt_zero _)⟩
  | succ timeout inductionHypothesis =>
    rw [Link.serialRead] at read
    split at read
    · exact nomatch read
    · rename_i empty
      have none : arrivals check = [] := by
        by_contra come
        exact arrive_received asked come empty
      have first : link.arrive (arrivals check) = link := by
        rw [none]
        rfl
      rw [first] at read empty
      obtain ⟨-, quiet⟩ := inductionHypothesis read
      refine ⟨fun _ => empty, fun late less => ?_⟩
      rcases late with _ | late
      · exact none
      · rw [Nat.add_comm late, ← Nat.add_assoc]
        exact quiet late (Nat.lt_of_succ_lt_succ less)

theorem exchange_right_iff (link : Link) (index : ℕ) (arrivals : ℕ → List Remote) :
    (⟨index, (link.exchange index arrivals).2⟩ : Exchange).Right ↔ Clean link index arrivals := by
  constructor
  · intro right
    cases read : (link.exchange index arrivals).2 with
    | none =>
      have asked : (link.serialWrite index).outstanding ≠ [] := by simp [Link.serialWrite]
      obtain ⟨empty, quiet⟩ := serialRead_none asked read
      refine .inl ⟨empty (by decide), fun check less => ?_⟩
      have none := quiet check less
      rwa [Nat.zero_add] at none
    | some reply => exact .inr ((serialRead_some read).trans (congrArg some (right reply read)))
  · rintro (⟨empty, quiet⟩ | first) reply read
    · have none := @serialRead_quiet (link.serialWrite index) arrivals empty 25 0 (by simpa using quiet)
      exact nomatch none.symm.trans read
    · exact Option.some.inj ((serialRead_some read).symm.trans first)

theorem exchanges_right_iff (arrivals : ℕ → ℕ → List Remote) (indices : List ℕ) (link : Link) :
    (∀ exchange ∈ (link.exchanges arrivals indices).2, exchange.Right) ↔
      CleanAll arrivals indices link := by
  induction indices generalizing link with
  | nil => exact iff_of_true nofun trivial
  | cons index rest inductionHypothesis =>
    rw [Link.exchanges, CleanAll, List.forall_mem_cons]
    exact and_congr (exchange_right_iff link index (arrivals index)) (inductionHypothesis _)

end Line

/-! ### Runs -/

theorem exchanges_index (arrivals : ℕ → ℕ → List Remote) (indices : List ℕ) (link : Link) :
    (link.exchanges arrivals indices).2.map Exchange.index = indices := by
  induction indices generalizing link with
  | nil => rfl
  | cons index rest inductionHypothesis =>
    rw [Link.exchanges, List.map_cons, inductionHypothesis]

theorem processEvent_holds {joypad : Joypad} (holds : joypad.log = [] ∨ Holds joypad)
    (call : Call) : (joypad.processEvent call).log = [] ∨ Holds (joypad.processEvent call) := by
  rw [Joypad.processEvent]
  split
  · exact .inr ⟨joypad.log, _, rfl, exchanges_index _ _ _, rfl, rfl⟩
  · exact holds

/-- In every state of a run that has read anything, the controllers hold the bytes of the log. -/
theorem run_holds (joypad : Joypad) (fresh : joypad.log = []) (calls : List Call) :
    (runCalls Joypad.processEvent joypad calls).log = [] ∨
      Holds (runCalls Joypad.processEvent joypad calls) :=
  runCalls_invariant (fun joypad => joypad.log = [] ∨ Holds joypad)
    (fun _ call _ holds => processEvent_holds holds call) (.inl fresh)

/-- A call keeps everything right exactly when it is clean. -/
theorem processEvent_paired_iff {joypad : Joypad} (paired : Paired joypad) (call : Call) :
    Paired (joypad.processEvent call) ↔ CleanCall joypad call := by
  rw [Joypad.processEvent, CleanCall]
  split
  · rename_i passes
    rw [imp_iff_right passes, ← exchanges_right_iff, Paired]
    simp only [List.mem_append]
    exact ⟨fun all exchange member => all exchange (.inr member), fun all exchange member =>
      member.elim (paired exchange) (all exchange)⟩
  · rename_i early
    exact iff_of_true paired fun passes => absurd passes early

/-- In every state of a run all exchanges are right, exactly if every call of the run is clean. -/
theorem paired_iff_clean (joypad : Joypad) (fresh : joypad.log = []) (calls : List Call) :
    (∀ count, Paired (runCalls Joypad.processEvent joypad (calls.take count))) ↔
      Along Joypad.processEvent (fun _ => True) CleanCall joypad calls :=
  along_iff_of_exact Paired
    (fun _ call _ paired clean => (processEvent_paired_iff paired call).mpr clean)
    (fun _ paired => paired) (fun _ call paired after => (processEvent_paired_iff paired call).mp after)
    (by rw [Paired, fresh]; nofun)

/-- A joypad at the start. -/
def start : Joypad :=
  ⟨0, ⟨[], []⟩, .store (fun _ => 0) 0, .store (fun _ => 0) 0, []⟩

/-- A remote whose first button is pressed. -/
def pressed : Remote := fun index => if index = 0 then 1 else 0

/-- The first answer takes 25 milliseconds, and no other comes. -/
def lateCall : Call := ⟨5000, [], fun index check => if index = 1 ∧ check = 0 then [pressed] else []⟩

/-- A call without an answer, and one in which each answer comes at once. -/
theorem paired_quiet :
    (∀ count, Paired (runCalls Joypad.processEvent start
        ([⟨5000, [], fun _ _ => []⟩, ⟨10000, List.replicate 34 pressed, fun _ _ => [pressed]⟩].take
          count))) ↔
      Along Joypad.processEvent (fun _ => True) CleanCall start
        [⟨5000, [], fun _ _ => []⟩, ⟨10000, List.replicate 34 pressed, fun _ _ => [pressed]⟩] :=
  paired_iff_clean start rfl
    [⟨5000, [], fun _ _ => []⟩, ⟨10000, List.replicate 34 pressed, fun _ _ => [pressed]⟩]

/-- The first button is stored as the second one. -/
theorem not_paired_late :
    (start.processEvent lateCall).controllerData1.buttonArray = [0, 1, 0, 0] ∧
      ¬ Paired (start.processEvent lateCall) := by
  refine ⟨by decide +kernel, fun paired => ?_⟩
  have member : (⟨1, some ⟨0, 1⟩⟩ : Exchange) ∈ (start.processEvent lateCall).log := by
    decide +kernel
  exact absurd (paired _ member _ rfl) (by decide)

end Urus.JoypadUsb
