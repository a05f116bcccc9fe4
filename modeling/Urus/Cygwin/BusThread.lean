/-
This file models the thread that calls the periodic callbacks of a bus. It compares the time with the
time at which each callback is due next. All of this is done with 64 bits, but the time comes through
a function with a result of 32 bits.

A schedule that works with the true time says which callbacks have to be called. The thread follows it
if and only if nothing is registered and nothing becomes due once 32 bits do not hold the time.
-/

import Urus.Lib.Trace
import Urus.Cygwin.Timers

namespace Urus.BusThread

open Cygwin

/-! ### The code -/

/-- `callback_info`. The callback itself is only a number here. -/
structure Callback where
  cb : ℕ
  periodUsec : UInt32
  nextUsec : UInt64
  deriving DecidableEq

/-- The list of a bus. What has been called in each round, and the delays that were requested, are
logged. -/
structure Bus where
  callbacks : List Callback
  called : List (List ℕ)
  delays : List UInt32
  deriving DecidableEq

/-- The loop that moves the time at which a callback is due behind the present. It is given up after
so many rounds. -/
def catchUp (now : UInt64) (periodUsec : UInt32) : ℕ → UInt64 → Option UInt64
  | 0, _ => none
  | rounds + 1, nextUsec =>
    if now ≥ nextUsec then catchUp now periodUsec rounds (nextUsec + periodUsec.toUInt64)
    else some nextUsec

/-- More rounds than the loop can need. -/
def catchUpRounds : ℕ := 2 ^ 32 + 1

/-- The first half of `bus_thread`: the callbacks with their new times, and what is called. -/
def runCallbacks (now : UInt64) : List Callback → Option (List Callback × List ℕ)
  | [] => some ([], [])
  | callback :: rest =>
    if now ≥ callback.nextUsec then
      (catchUp now callback.periodUsec catchUpRounds callback.nextUsec).bind fun nextUsec =>
        (runCallbacks now rest).map fun (callbacks, called) =>
          ({ callback with nextUsec := nextUsec } :: callbacks, callback.cb :: called)
    else
      (runCallbacks now rest).map fun (callbacks, called) => (callback :: callbacks, called)

/-- `next_needed` behind one callback. -/
def needNext (now nextNeeded : UInt64) (callback : Callback) : UInt64 :=
  if nextNeeded = 0 ∨ callback.nextUsec < nextNeeded then
    if callback.nextUsec < now then now else callback.nextUsec
  else nextNeeded

/-- The second half of `bus_thread`: the delay until the next round. -/
def nextDelay (now : UInt64) (callbacks : List Callback) : UInt32 :=
  let nextNeeded := callbacks.foldl (needNext now) 0
  let delay : UInt32 :=
    if nextNeeded ≥ now ∧ nextNeeded - now < 50000 then (nextNeeded - now).toUInt32 else 50000
  if delay < 400 then 400 else delay

/-- A callback is registered, or the thread does one half of a round. Each reads the clock. -/
inductive Event
  | register (time : UInt64) (cb : ℕ) (periodUsec : UInt32)
  | run (time : UInt64)
  | wait (time : UInt64)

/-- `register_periodic_callback`, and the two halves of `bus_thread`. -/
def Bus.step (bus : Bus) : Event → Option Bus
  | .register time cb periodUsec =>
    some { bus with
      callbacks := ⟨cb, periodUsec, micros64 time + periodUsec.toUInt64⟩ :: bus.callbacks }
  | .run time =>
    (runCallbacks (micros64 time) bus.callbacks).map fun (callbacks, called) =>
      { bus with callbacks := callbacks, called := bus.called ++ [called] }
  | .wait time =>
    some { bus with delays := bus.delays ++ [nextDelay (micros64 time) bus.callbacks] }

/-- A bus at the start. -/
def Bus.empty : Bus := ⟨[], [], []⟩

/-! ### The schedule -/

/-- A callback, its period and when it is due. -/
structure Due where
  cb : ℕ
  period : ℕ
  time : ℕ
  deriving DecidableEq

/-- The callbacks with their true times, and what has to be called in each round. -/
structure Schedule where
  dues : List Due
  called : List (List ℕ)

/-- The first time behind the present that is a number of periods behind the time that was due. -/
def Due.advance (now : ℕ) (due : Due) : Due :=
  if now < due.time then due
  else { due with time := due.time + ((now - due.time) / due.period + 1) * due.period }

/-- What has to happen. -/
def Schedule.step (schedule : Schedule) : Event → Schedule
  | .register time cb periodUsec =>
    { schedule with
      dues := ⟨cb, periodUsec.toNat, time.toNat + periodUsec.toNat⟩ :: schedule.dues }
  | .run time =>
    { dues := schedule.dues.map (Due.advance time.toNat)
      called := schedule.called ++
        [(schedule.dues.filter fun due => due.time ≤ time.toNat).map Due.cb] }
  | .wait _ => schedule

/-- A schedule at the start. -/
def Schedule.empty : Schedule := ⟨[], []⟩

/-- A callback as the schedule has it. -/
def Callback.due (callback : Callback) : Due :=
  ⟨callback.cb, callback.periodUsec.toNat, callback.nextUsec.toNat⟩

/-- A bus has the times of a schedule, has called what had to be called, and has not asked for a delay
that is too short or too long. -/
structure Follows (bus : Bus) (schedule : Schedule) : Prop where
  times : bus.callbacks.map Callback.due = schedule.dues
  called : bus.called = schedule.called
  delays : ∀ delay ∈ bus.delays, 400 ≤ delay.toNat ∧ delay.toNat ≤ 50000

/-! ### One callback -/

section Callback

variable {now nextUsec : UInt64} {periodUsec : UInt32}

theorem advance_early {due : Due} {now : ℕ} (early : now < due.time) : due.advance now = due :=
  if_pos early

theorem advance_late {due : Due} {now : ℕ} (late : due.time ≤ now) : due.advance now =
    { due with time := due.time + ((now - due.time) / due.period + 1) * due.period } :=
  if_neg (not_lt.mpr late)

theorem advance_spec {due : Due} (positive : 1 ≤ due.period) (now : ℕ) :
    now < (due.advance now).time ∧
      (due.time ≤ now → (due.advance now).time ≤ now + due.period) := by
  rw [Due.advance]
  split
  · rename_i early
    exact ⟨early, fun late => absurd early (not_lt.mpr late)⟩
  · rename_i late
    have split := Nat.div_add_mod (now - due.time) due.period
    have rest := Nat.mod_lt (now - due.time) (Nat.lt_of_succ_le positive)
    have parts : ((now - due.time) / due.period + 1) * due.period =
        due.period * ((now - due.time) / due.period) + due.period := by
      rw [Nat.succ_mul, Nat.mul_comm]
    simp only [parts]
    omega

/-- One period more does not change the first time behind the present. -/
theorem advance_period {due : Due} (positive : 1 ≤ due.period) {now : ℕ} (late : due.time ≤ now) :
    ({ due with time := due.time + due.period }.advance now).time = (due.advance now).time := by
  rw [Due.advance, Due.advance, if_neg (not_lt.mpr late)]
  simp only
  split
  · rename_i early
    rw [Nat.div_eq_of_lt (by omega), zero_add, one_mul]
  · rename_i later
    rw [Nat.div_eq_sub_div (Nat.lt_of_succ_le positive) (by omega : due.period ≤ now - due.time),
      Nat.sub_sub, Nat.add_assoc, Nat.succ_mul (_ / _ + 1)]
    simp only
    omega

/-- The loop finds the first time behind the present. -/
theorem catchUp_spec (positive : 1 ≤ periodUsec.toNat) (nowSmall : now.toNat < 4294967296)
    (nextSmall : nextUsec.toNat < 8589934592) (cb : ℕ) {rounds : ℕ}
    (enough : now.toNat < nextUsec.toNat + rounds) :
    ∃ found, catchUp now periodUsec (rounds + 1) nextUsec = some found ∧
      found.toNat = ((⟨cb, periodUsec.toNat, nextUsec.toNat⟩ : Due).advance now.toNat).time := by
  have periodSmall := periodUsec.toNat_lt
  induction rounds generalizing nextUsec with
  | zero =>
    have early : ¬ now ≥ nextUsec := fun late =>
      absurd (UInt64.le_iff_toNat_le.mp late) (not_le.mpr enough)
    exact ⟨nextUsec, if_neg early, by rw [advance_early enough]⟩
  | succ rounds inductionHypothesis =>
    rw [catchUp]
    by_cases late : now ≥ nextUsec
    · have order : nextUsec.toNat ≤ now.toNat := UInt64.le_iff_toNat_le.mp late
      have wide : periodUsec.toUInt64.toNat = periodUsec.toNat := UInt32.toNat_toUInt64 _
      have sum : (nextUsec + periodUsec.toUInt64).toNat = nextUsec.toNat + periodUsec.toNat := by
        rw [UInt64.toNat_add, wide]
        exact Nat.mod_eq_of_lt (by omega)
      obtain ⟨found, result, time⟩ :=
        @inductionHypothesis (nextUsec + periodUsec.toUInt64) (by omega) (by omega)
      refine ⟨found, by rw [if_pos late, result], ?_⟩
      rw [time, sum]
      exact @advance_period ⟨cb, periodUsec.toNat, nextUsec.toNat⟩ positive _ order
    · have early : now.toNat < nextUsec.toNat := not_le.mp fun order =>
        late (UInt64.le_iff_toNat_le.mpr order)
      exact ⟨nextUsec, if_neg late, by rw [advance_early early]⟩

end Callback

/-! ### One round -/

section Round

variable {now : UInt64} {callbacks : List Callback}

/-- A callback whose time cannot overflow. -/
structure Callback.Sane (callback : Callback) : Prop where
  positive : 1 ≤ callback.periodUsec.toNat
  small : callback.nextUsec.toNat < 8589934592

/-- The first half of a round calls what is due and advances it, on the clock that it reads. -/
theorem runCallbacks_spec (nowSmall : now.toNat < 4294967296)
    (sane : ∀ callback ∈ callbacks, callback.Sane) :
    ∃ after, runCallbacks now callbacks = some (after,
        ((callbacks.map Callback.due).filter fun due => due.time ≤ now.toNat).map Due.cb) ∧
      after.map Callback.due = (callbacks.map Callback.due).map (Due.advance now.toNat) := by
  induction callbacks with
  | nil => exact ⟨[], rfl, rfl⟩
  | cons callback rest inductionHypothesis =>
    obtain ⟨after, result, times⟩ := inductionHypothesis fun other member =>
      sane other (List.mem_cons_of_mem _ member)
    obtain ⟨positive, small⟩ := sane callback List.mem_cons_self
    rw [runCallbacks]
    by_cases late : now ≥ callback.nextUsec
    · have order : callback.due.time ≤ now.toNat := UInt64.le_iff_toNat_le.mp late
      obtain ⟨found, caught, time⟩ := @catchUp_spec now callback.nextUsec callback.periodUsec positive
        nowSmall small callback.cb (2 ^ 32) (by omega)
      have due : ({ callback with nextUsec := found } : Callback).due =
          callback.due.advance now.toNat := by
        have time' : found.toNat = (callback.due.advance now.toNat).time := time
        rw [advance_late order] at time' ⊢
        simp only [Callback.due] at time' ⊢
        rw [time']
      refine ⟨{ callback with nextUsec := found } :: after, ?_, ?_⟩
      · rw [if_pos late, catchUpRounds, caught, result, List.map_cons,
          List.filter_cons_of_pos (by simpa using order)]
        rfl
      · rw [List.map_cons, List.map_cons, List.map_cons, times, due]
    · have early : now.toNat < callback.due.time := not_le.mp fun order =>
        late (UInt64.le_iff_toNat_le.mpr order)
      refine ⟨callback :: after, ?_, ?_⟩
      · rw [if_neg late, result, List.map_cons,
          List.filter_cons_of_neg (by simpa using early)]
        rfl
      · rw [List.map_cons, List.map_cons, List.map_cons, times, advance_early early]

/-- The delay is never too short and never too long. -/
theorem nextDelay_bounds (now : UInt64) (callbacks : List Callback) :
    400 ≤ (nextDelay now callbacks).toNat ∧ (nextDelay now callbacks).toNat ≤ 50000 := by
  have most (nextNeeded : UInt64) : (if nextNeeded ≥ now ∧ nextNeeded - now < 50000
      then (nextNeeded - now).toUInt32 else (50000 : UInt32)).toNat ≤ 50000 := by
    split
    · rename_i near
      have less : (nextNeeded - now).toNat < 50000 := UInt64.lt_iff_toNat_lt.mp near.2
      rw [UInt64.toNat_toUInt32]
      omega
    · exact le_rfl
  rw [nextDelay]
  generalize List.foldl (needNext now) 0 callbacks = nextNeeded
  have bound := most nextNeeded
  generalize (if nextNeeded ≥ now ∧ nextNeeded - now < 50000 then (nextNeeded - now).toUInt32
    else (50000 : UInt32)) = delay at bound ⊢
  split
  · exact ⟨le_rfl, by decide⟩
  · rename_i notShort
    exact ⟨not_lt.mp fun less => notShort (UInt32.lt_iff_toNat_lt.mpr less), bound⟩

end Round

/-! ### Runs -/

section Runs

/-- Nothing is registered, and nothing is due, when 32 bits do not hold the time. -/
def Prompt (schedule : Schedule) : Event → Prop
  | .register time _ _ => time.toNat < 4294967296
  | .run time => time.toNat < 4294967296 ∨ ∀ due ∈ schedule.dues, time.toNat < due.time
  | .wait _ => True

/-- A period is at least one microsecond. -/
def Event.Periodic : Event → Prop
  | .register _ _ periodUsec => 1 ≤ periodUsec.toNat
  | .run _ => True
  | .wait _ => True

/-- What holds of a bus as long as it follows the schedule. -/
structure Steady (bus : Bus) (schedule : Schedule) : Prop where
  follows : Follows bus schedule
  sane : ∀ callback ∈ bus.callbacks, callback.Sane

variable {bus : Bus} {schedule : Schedule}

/-- The times of the schedule are those of the callbacks. -/
theorem Steady.dues (steady : Steady bus schedule) {due : Due} (member : due ∈ schedule.dues) :
    1 ≤ due.period ∧ due.period < 4294967296 ∧ due.time < 8589934592 := by
  rw [← steady.follows.times, List.mem_map] at member
  obtain ⟨callback, inside, rfl⟩ := member
  obtain ⟨positive, small⟩ := steady.sane callback inside
  exact ⟨positive, callback.periodUsec.toNat_lt, small⟩

/-- What the thread does in the first half of a round, whatever the time is. -/
theorem Steady.run (steady : Steady bus schedule) (time : UInt64) :
    ∃ after, bus.step (.run time) = some after ∧ after.delays = bus.delays ∧
      after.callbacks.map Callback.due =
        schedule.dues.map (Due.advance (time.toNat % 4294967296)) ∧
      after.called = schedule.called ++
        [(schedule.dues.filter fun due => due.time ≤ time.toNat % 4294967296).map Due.cb] := by
  have nowSmall : (micros64 time).toNat < 4294967296 := by
    rw [micros64_toNat]
    exact Nat.mod_lt _ (by decide)
  obtain ⟨callbacks, result, times⟩ := runCallbacks_spec nowSmall steady.sane
  rw [steady.follows.times, micros64_toNat] at result times
  refine ⟨⟨callbacks, schedule.called ++ [_], bus.delays⟩, ?_, rfl, times, rfl⟩
  rw [Bus.step, result, ← steady.follows.called]
  rfl

theorem Steady.advance (steady : Steady bus schedule) {due : Due} (member : due ∈ schedule.dues)
    {now : ℕ} (nowSmall : now < 4294967296) :
    1 ≤ (due.advance now).period ∧ (due.advance now).time < 8589934592 := by
  obtain ⟨positive, short, small⟩ := steady.dues member
  rcases lt_or_ge now due.time with early | late
  · rw [advance_early early]
    exact ⟨positive, small⟩
  · have least := (advance_spec positive now).2 late
    refine ⟨?_, by omega⟩
    rw [advance_late late]
    exact positive

/-- When nothing is due that the clock does not see, it does not matter which time is used. -/
theorem prompt_same {time : UInt64} (prompt : Prompt schedule (.run time)) :
    schedule.dues.map (Due.advance (time.toNat % 4294967296)) =
        schedule.dues.map (Due.advance time.toNat) ∧
      (schedule.dues.filter fun due => due.time ≤ time.toNat % 4294967296) =
        schedule.dues.filter fun due => due.time ≤ time.toNat := by
  rcases prompt with small | early
  · rw [Nat.mod_eq_of_lt small]
    exact ⟨rfl, rfl⟩
  · have less : time.toNat % 4294967296 ≤ time.toNat := Nat.mod_le _ _
    refine ⟨List.map_congr_left fun due member => ?_, List.filter_congr fun due member => ?_⟩
    · rw [advance_early (less.trans_lt (early due member)), advance_early (early due member)]
    · have notDue := early due member
      rw [decide_eq_false (by omega), decide_eq_false (by omega)]

theorem Steady.step (steady : Steady bus schedule) {event : Event} (periodic : event.Periodic)
    (prompt : Prompt schedule event) :
    ∃ after, bus.step event = some after ∧ Steady after (schedule.step event) := by
  obtain ⟨times, called, delays⟩ := steady.follows
  cases event with
  | register time cb periodUsec =>
    have small : time.toNat < 4294967296 := prompt
    have periodSmall := periodUsec.toNat_lt
    have next : (micros64 time + periodUsec.toUInt64).toNat = time.toNat + periodUsec.toNat := by
      rw [UInt64.toNat_add, micros64_toNat, UInt32.toNat_toUInt64, Nat.mod_eq_of_lt small]
      exact Nat.mod_eq_of_lt (by omega)
    refine ⟨_, rfl, ⟨?_, called, delays⟩, ?_⟩
    · simp only [List.map_cons, times, Schedule.step, Callback.due, next]
    · refine List.forall_mem_cons.mpr ⟨⟨periodic, ?_⟩, steady.sane⟩
      simp only [next]
      omega
  | run time =>
    obtain ⟨after, result, delays', times', called'⟩ := steady.run time
    obtain ⟨sameTimes, sameCalled⟩ := prompt_same prompt
    refine ⟨after, result, ⟨?_, ?_, ?_⟩, fun callback member => ?_⟩
    · rw [times', sameTimes]
      rfl
    · rw [called', sameCalled]
      rfl
    · rw [delays']
      exact delays
    · have inside : callback.due ∈
          schedule.dues.map (Due.advance (time.toNat % 4294967296)) :=
        times' ▸ List.mem_map_of_mem member
      obtain ⟨due, member', same⟩ := List.mem_map.mp inside
      obtain ⟨positive, small⟩ := steady.advance member' (Nat.mod_lt time.toNat (by decide))
      rw [same] at positive small
      exact ⟨positive, small⟩
  | wait time =>
    refine ⟨_, rfl, ⟨times, called, ?_⟩, steady.sane⟩
    intro delay member
    rcases List.mem_append.mp member with before | last
    · exact delays delay before
    · rw [List.mem_singleton.mp last]
      exact nextDelay_bounds _ _

theorem Steady.prompt (steady : Steady bus schedule) {event : Event} {after : Bus}
    (result : bus.step event = some after) (follows : Follows after (schedule.step event)) :
    Prompt schedule event := by
  cases event with
  | register time cb periodUsec =>
    have same := follows.times
    rw [← Option.some.inj result] at same
    simp only [Schedule.step, List.map_cons, List.cons.injEq, Callback.due, Due.mk.injEq] at same
    have time' := same.1.2.2
    have periodSmall := periodUsec.toNat_lt
    rw [UInt64.toNat_add, micros64_toNat, UInt32.toNat_toUInt64, Nat.mod_eq_of_lt (by omega)] at time'
    change time.toNat < 4294967296
    omega
  | run time =>
    refine or_iff_not_imp_left.mpr fun large due member => ?_
    obtain ⟨after', result', -, times', -⟩ := steady.run time
    have same : after' = after := Option.some.inj (result'.symm.trans result)
    have all := follows.times
    rw [← same, times', Schedule.step] at all
    have behind := congrArg Due.time (List.map_inj_left.mp all due member)
    by_contra late
    obtain ⟨-, short, -⟩ := steady.dues member
    have next := (advance_spec (steady.dues member).1 time.toNat).1
    rcases lt_or_ge (time.toNat % 4294967296) due.time with early | due'
    · rw [advance_early early] at behind
      omega
    · have near := (advance_spec (steady.dues member).1 (time.toNat % 4294967296)).2 due'
      omega
  | wait time => trivial

/-- The thread and the schedule, side by side. -/
def stepBoth (pair : Option Bus × Schedule) (event : Event) : Option Bus × Schedule :=
  (pair.1.bind fun bus => bus.step event, pair.2.step event)

/-- The thread has come back, and is on the schedule. -/
def OnSchedule (pair : Option Bus × Schedule) : Prop :=
  ∃ bus, pair.1 = some bus ∧ Follows bus pair.2

/-- In every state of a run the thread comes back and is on the schedule, exactly if every event of
the run is prompt. -/
theorem onSchedule_iff (events : List Event) (periodic : ∀ event ∈ events, event.Periodic) :
    (∀ count, OnSchedule
        (runCalls stepBoth (some Bus.empty, Schedule.empty) (events.take count))) ↔
      Along stepBoth (fun _ => True) (fun pair => Prompt pair.2) (some Bus.empty, Schedule.empty)
        events := by
  refine along_iff_of_exact (fun pair => ∃ bus, pair.1 = some bus ∧ Steady bus pair.2) ?_ ?_ ?_
    ⟨Bus.empty, rfl, ⟨rfl, rfl, nofun⟩, nofun⟩
  · rintro ⟨_, schedule⟩ event member ⟨bus, rfl, steady⟩ prompt
    exact steady.step (periodic event member) prompt
  · rintro pair ⟨bus, here, steady⟩
    exact ⟨bus, here, steady.follows⟩
  · rintro ⟨_, schedule⟩ event ⟨bus, rfl, steady⟩ ⟨after, result, follows⟩
    exact steady.prompt result follows

/-- A callback that is registered early and called twice. -/
theorem onSchedule_early :
    (∀ count, OnSchedule (runCalls stepBoth (some Bus.empty, Schedule.empty)
        ([.register 0 0 1000, .run 1000, .wait 1010, .run 2500].take count))) ↔
      Along stepBoth (fun _ => True) (fun pair => Prompt pair.2) (some Bus.empty, Schedule.empty)
        [.register 0 0 1000, .run 1000, .wait 1010, .run 2500] :=
  onSchedule_iff [.register 0 0 1000, .run 1000, .wait 1010, .run 2500] (by
    simp only [List.forall_mem_cons, List.not_mem_nil, Event.Periodic]
    exact ⟨by decide, trivial, trivial, trivial, nofun⟩)

/-- A callback that is registered half a millisecond before 32 bits are full is not called when it is
due. -/
theorem not_onSchedule_late :
    ¬ OnSchedule (runCalls stepBoth (some Bus.empty, Schedule.empty)
      [.register 4294966796 0 1000, .run 4294967896]) := by
  rintro ⟨bus, here, follows⟩
  have called := follows.called
  rw [← Option.some.inj here] at called
  exact absurd called (by decide +kernel)

end Runs

end Urus.BusThread
