/-
This file models `delay` of the Cygwin scheduler. The call waits in a loop until the clock has
advanced, and between its pauses it runs a callback that may do whatever it likes. Each event is one
thing that happens: a call of `delay` from anywhere, a turn of the loop, the return of the callback,
a registration, or the passing of time. How long everything takes is left open, except that a pause
lasts at least as long as it was asked to.

A call that finds no other one in progress does not return too early, and one that does comes back at
once. The time that is left for the callback is counted in turns of the loop, not by the clock.
-/

import Mathlib
import Urus.Lib.Trace

namespace Urus.CygwinDelay

/-- `AP_HAL::millis` and `AP_HAL::micros` at each microsecond. The milliseconds do not decrease. -/
structure Clock where
  millis : ℕ → UInt32
  micros : ℕ → UInt32
  millis_le {first second : ℕ} : first ≤ second → millis first ≤ millis second

/-- A call of `delay` in its loop: since when it runs, beside how many other calls, and how often
the loop has turned. -/
structure Frame where
  ms : UInt16
  calledAt : ℕ
  others : ℕ
  turns : ℕ
  inCallback : Bool

/-- What can be seen of the scheduler: a call returns, or its loop invokes the callback. -/
inductive Record where
  | returned (ms : UInt16) (calledAt returnedAt others : ℕ)
  | invoked (ms minimum : UInt16) (calledAt invokedAt turns : ℕ)
  deriving DecidableEq

/-- The members of the scheduler, the time, the calls in progress and the record of the run. -/
structure Sched where
  time : ℕ
  inDelayProc : Bool
  start : UInt32
  nowMicros : UInt32
  dtMicros : UInt16
  centinelMicros : UInt16
  msCb : UInt16
  delayCb : Bool
  minDelayCbMs : UInt16
  calls : List Frame
  log : List Record

def initial : Sched := ⟨0, false, 0, 0, 0, 0, 0, false, 0, [], []⟩

/-- `URUS_MAGIC_TIME`. -/
def urusMagicTime : UInt16 := 5 ^ 3 * 2 ^ 3

/-- `delay` up to its loop. The lapses are the time before either clock is read. -/
def Sched.delay (clock : Clock) (ms : UInt16) (lapse next : ℕ) (sched : Sched) : Sched :=
  if sched.inDelayProc then
    { sched with log := .returned ms sched.time sched.time sched.calls.length :: sched.log }
  else
    { sched with
      time := sched.time + lapse + next
      inDelayProc := true
      start := clock.millis (sched.time + lapse)
      nowMicros := clock.micros (sched.time + lapse + next)
      dtMicros := 0
      centinelMicros := urusMagicTime
      msCb := ms
      calls := ⟨ms, sched.time, sched.calls.length, 0, false⟩ :: sched.calls }

/-- The length of the next pause. -/
def adapt (dtMicros centinelMicros : UInt16) : UInt16 :=
  let raised := if centinelMicros < dtMicros then centinelMicros + (dtMicros - centinelMicros)
    else centinelMicros
  if dtMicros < raised then raised - dtMicros else raised

/-- How long it takes to each clock reading of a turn, and how much longer than asked the pause is. -/
structure Lapses where
  test : ℕ
  measure : ℕ
  mark : ℕ
  pause : ℕ

/-- The body of the loop behind the test, for the call `frame`. -/
def Sched.body (clock : Clock) (lapses : Lapses) (frame : Frame) (rest : List Frame)
    (sched : Sched) : Sched :=
  let measured := sched.time + lapses.test + lapses.measure
  let marked := measured + lapses.mark
  let woken := marked + sched.centinelMicros.toNat + lapses.pause
  let dtMicros := (clock.micros measured - sched.nowMicros).toUInt16
  let msCb := sched.msCb - 1
  let invokes := decide (sched.minDelayCbMs < msCb) && sched.delayCb
  { sched with
    time := woken
    nowMicros := clock.micros marked
    dtMicros := dtMicros
    centinelMicros := adapt dtMicros sched.centinelMicros
    msCb := msCb
    calls := { frame with turns := frame.turns + 1, inCallback := invokes } :: rest
    log := if invokes then
        .invoked frame.ms sched.minDelayCbMs frame.calledAt woken (frame.turns + 1) :: sched.log
      else sched.log }

/-- The loop of the running call turns once, or the call returns. -/
def Sched.turn (clock : Clock) (lapses : Lapses) (sched : Sched) : Sched :=
  match sched.calls with
  | [] => sched
  | frame :: rest =>
    if frame.inCallback then sched
    else if clock.millis (sched.time + lapses.test) - sched.start < frame.ms.toUInt32 then
      sched.body clock lapses frame rest
    else
      { sched with
        time := sched.time + lapses.test
        inDelayProc := false
        calls := rest
        log := .returned frame.ms frame.calledAt (sched.time + lapses.test) frame.others ::
          sched.log }

/-- The callback returns to the loop that invoked it. -/
def Sched.back (sched : Sched) : Sched :=
  match sched.calls with
  | [] => sched
  | frame :: rest => { sched with calls := { frame with inCallback := false } :: rest }

/-- What happens, in any order: the callback and other code may call `delay` and
`register_delay_callback` at any point. -/
inductive Event where
  | pass (lapse : ℕ)
  | registerDelayCallback (proc : Bool) (minTimeMs : UInt16)
  | delay (ms : UInt16) (lapse next : ℕ)
  | turn (lapses : Lapses)
  | back

def step (clock : Clock) (sched : Sched) : Event → Sched
  | .pass lapse => { sched with time := sched.time + lapse }
  | .registerDelayCallback proc minTimeMs =>
    { sched with delayCb := proc, minDelayCbMs := minTimeMs }
  | .delay ms lapse next => sched.delay clock ms lapse next
  | .turn lapses => sched.turn clock lapses
  | .back => sched.back

/-- A call beside no other one lasts as long as it should, and one beside another takes no time. In
the turns that the duration allows, the callback is invoked only while more turns than the minimum
are left, which is more time than the minimum when no turn was longer than a millisecond. -/
def Record.Allowed (clock : Clock) : Record → Prop
  | .returned ms calledAt returnedAt others =>
    if others = 0 then (clock.millis calledAt).toNat + ms.toNat ≤ (clock.millis returnedAt).toNat
    else returnedAt = calledAt
  | .invoked ms minimum calledAt invokedAt turns => turns ≤ ms.toNat →
    turns + minimum.toNat < ms.toNat ∧
      ((clock.millis invokedAt).toNat ≤ (clock.millis calledAt).toNat + turns →
        (clock.millis invokedAt).toNat + minimum.toNat < (clock.millis calledAt).toNat + ms.toNat)

/-- The record of the run has allowed entries only. -/
def Sched.Allowed (clock : Clock) (sched : Sched) : Prop :=
  ∀ record ∈ sched.log, record.Allowed clock

/-- A call that waits alone: its `start` was read since it was made, and the counter has gone down
with each turn. -/
structure Sched.Waiting (clock : Clock) (sched : Sched) (frame : Frame) : Prop where
  flag : sched.inDelayProc = true
  calls : sched.calls = [frame]
  alone : frame.others = 0
  start : ∃ started, frame.calledAt ≤ started ∧ started ≤ sched.time ∧
    sched.start = clock.millis started
  counted : frame.turns ≤ frame.ms.toNat → sched.msCb.toNat + frame.turns = frame.ms.toNat

/-- No call waits, or one that waits alone. -/
def Sched.Single (clock : Clock) (sched : Sched) : Prop :=
  sched.inDelayProc = false ∧ sched.calls = [] ∨ ∃ frame, sched.Waiting clock frame

/-- The invariant of a run. -/
structure Sched.Good (clock : Clock) (sched : Sched) : Prop where
  single : sched.Single clock
  allowed : sched.Allowed clock

variable {clock : Clock} {sched : Sched} {frame : Frame} {rest : List Frame}

theorem Sched.Allowed.cons {record : Record} (allowed : sched.Allowed clock)
    (new : record.Allowed clock) : ∀ other ∈ record :: sched.log, other.Allowed clock :=
  List.forall_mem_cons.2 ⟨new, allowed⟩

theorem Sched.Good.delay (good : sched.Good clock) (ms : UInt16) (lapse next : ℕ) :
    (sched.delay clock ms lapse next).Good clock := by
  rw [Sched.delay]
  obtain ⟨flag, calls⟩ | ⟨frame, waiting⟩ := good.single
  · rw [if_neg (by simp [flag])]
    have read : sched.time ≤ sched.time + lapse ∧ sched.time + lapse ≤ sched.time + lapse + next := by
      omega
    exact ⟨.inr ⟨_, rfl, by rw [calls], rfl, ⟨_, read.1, read.2, rfl⟩,
      fun _ => rfl⟩, good.allowed⟩
  · rw [if_pos waiting.flag]
    refine ⟨.inr ⟨frame, { waiting with }⟩, good.allowed.cons ?_⟩
    rw [waiting.calls, List.length_singleton, Record.Allowed, if_neg Nat.one_ne_zero]

/-- The counter goes down by one with a turn. -/
theorem Sched.Waiting.msCb_pred (waiting : sched.Waiting clock frame)
    (within : frame.turns + 1 ≤ frame.ms.toNat) :
    (sched.msCb - 1).toNat + (frame.turns + 1) = frame.ms.toNat := by
  have counted := waiting.counted (by omega)
  have positive : (1 : UInt16) ≤ sched.msCb := UInt16.le_iff_toNat_le.2 (by simp; omega)
  rw [UInt16.toNat_sub_of_le _ _ positive]
  simp
  omega

/-- A clock reading behind the start is not less than the start. -/
theorem Sched.Waiting.elapsed (waiting : sched.Waiting clock frame) (lapse : ℕ)
    (late : ¬ clock.millis (sched.time + lapse) - sched.start < frame.ms.toUInt32) :
    (clock.millis frame.calledAt).toNat + frame.ms.toNat ≤
      (clock.millis (sched.time + lapse)).toNat := by
  obtain ⟨started, called, past, start⟩ := waiting.start
  have first := UInt32.le_iff_toNat_le.1 (clock.millis_le called)
  have second : sched.start ≤ clock.millis (sched.time + lapse) :=
    start ▸ clock.millis_le (by omega)
  have span := UInt32.le_iff_toNat_le.1 (UInt32.not_lt.1 late)
  rw [UInt32.toNat_sub_of_le _ _ second, UInt16.toNat_toUInt32, start] at span
  have ordered := UInt32.le_iff_toNat_le.1 second
  rw [start] at ordered
  omega

theorem Sched.Good.body (good : sched.Good clock) (waiting : sched.Waiting clock frame)
    (lapses : Lapses) : (sched.body clock lapses frame []).Good clock := by
  refine ⟨.inr ⟨_, waiting.flag, rfl, waiting.alone, ?_, waiting.msCb_pred⟩, ?_⟩
  · obtain ⟨started, called, past, start⟩ := waiting.start
    refine ⟨started, called, ?_, start⟩
    dsimp only [Sched.body]
    omega
  · dsimp only [Sched.body, Sched.Allowed]
    split_ifs with invokes
    · refine good.allowed.cons fun within => ?_
      have counted := waiting.msCb_pred within
      have less := UInt16.lt_iff_toNat_lt.1
        (of_decide_eq_true (Bool.and_eq_true_iff.1 invokes).1)
      exact ⟨by omega, fun slow => by omega⟩
    · exact good.allowed

theorem Sched.Good.turn (good : sched.Good clock) (lapses : Lapses) :
    (sched.turn clock lapses).Good clock := by
  rw [Sched.turn]
  obtain ⟨flag, calls⟩ | ⟨frame, waiting⟩ := good.single
  · rw [calls]
    exact good
  · rw [waiting.calls]
    dsimp only
    split_ifs with inside test
    · exact good
    · exact good.body waiting lapses
    · refine ⟨.inl ⟨rfl, rfl⟩, good.allowed.cons ?_⟩
      rw [Record.Allowed, if_pos waiting.alone]
      exact waiting.elapsed lapses.test test

theorem Sched.Good.step (good : sched.Good clock) (event : Event) :
    (step clock sched event).Good clock := by
  cases event with
  | pass lapse =>
    refine ⟨good.single.imp_right fun ⟨frame, waiting⟩ => ⟨frame, { waiting with start := ?_ }⟩,
      good.allowed⟩
    obtain ⟨started, called, past, start⟩ := waiting.start
    exact ⟨started, called, past.trans (Nat.le_add_right _ _), start⟩
  | registerDelayCallback proc minTimeMs =>
    exact ⟨good.single.imp_right fun ⟨frame, waiting⟩ => ⟨frame, { waiting with }⟩, good.allowed⟩
  | delay ms lapse next => exact good.delay ms lapse next
  | turn lapses => exact good.turn lapses
  | back =>
    rw [CygwinDelay.step, Sched.back]
    obtain ⟨flag, calls⟩ | ⟨frame, waiting⟩ := good.single
    · rw [calls]
      exact good
    · rw [waiting.calls]
      exact ⟨.inr ⟨_, { waiting with calls := rfl }⟩, good.allowed⟩

/-- Whatever happens, and however long it takes: a call beside no other one does not return before
its time. -/
theorem delay_allowed (clock : Clock) (events : List Event) :
    (runCalls (step clock) initial events).Allowed clock :=
  (runCalls_invariant (Sched.Good clock) (fun _ event _ good => good.step event)
    ⟨.inl ⟨rfl, rfl⟩, by simp [initial, Sched.Allowed]⟩).allowed

/-- What every call and every invocation should meet: a call lasts as long as it was asked to, and
the callback is invoked only while the minimum is left. -/
def Record.InTime (clock : Clock) : Record → Prop
  | .returned ms calledAt returnedAt _ =>
    (clock.millis calledAt).toNat + ms.toNat ≤ (clock.millis returnedAt).toNat
  | .invoked ms minimum calledAt invokedAt _ =>
    (clock.millis invokedAt).toNat + minimum.toNat ≤ (clock.millis calledAt).toNat + ms.toNat

/-- A clock that stops before the wrap. -/
def steadyClock : Clock where
  millis time := UInt32.ofNat (min (time / 1000) 4294967295)
  micros time := UInt32.ofNat (min time 4294967295)
  millis_le le := by
    rw [UInt32.le_iff_toNat_le, UInt32.toNat_ofNat', UInt32.toNat_ofNat']
    omega

/-- The first pause of a delay of 10 milliseconds takes 21. The callback, which needs 5, is invoked
when the delay is long over, and a delay that it calls itself returns at once. -/
theorem late_callback :
    let log := (runCalls (step steadyClock) initial [.registerDelayCallback true 5, .delay 10 0 0,
      .turn ⟨0, 0, 0, 20000⟩, .delay 3 0 0]).log
    log = [.returned 3 21000 21000 1, .invoked 10 5 0 21000 1] ∧
      ∀ record ∈ log, ¬ record.InTime steadyClock := by
  intro log
  have run : log = [.returned 3 21000 21000 1, .invoked 10 5 0 21000 1] := by decide
  rw [run]
  refine ⟨rfl, List.forall_mem_cons.2 ⟨?_, List.forall_mem_singleton.2 ?_⟩⟩
  all_goals
    dsimp only [Record.InTime]
    decide

end Urus.CygwinDelay
