/-
This file models how the main loop paces its tasks. A tick is counted with 16 bits, and so is the tick
at which each task ran last. A task is due when enough ticks have passed since, and it is started if
the time that is left is not less than it may take. The time that was left at the end is added up, and
from it the load is worked out.

Whatever the tasks take, two runs of a task are never too close, and the load is one between 0 and 1.
A task that always finds enough time runs in a fixed rhythm. What is left of the time is known as long
as the clock can measure what the tasks take.
-/

import Mathlib.Tactic
import Urus.Lib.Trace

namespace Urus.TaskScheduler

/-! ### The code -/

/-- `AP_Scheduler::Task`. -/
structure Task (Rate : Type) where
  rateHz : Rate
  maxTimeMicros : ℕ

/-- The table of the tasks and the rate of the loop. The last field is how one rate is divided by
another: the quotient without what is behind the point. -/
structure Settings (Rate : Type) where
  tasks : List (Task Rate)
  loopRateHz : ℕ
  quotient : ℕ → Rate → ℕ

/-- The variables of `AP_Scheduler`. -/
structure Scheduler where
  tickCounter : UInt16
  lastRun : ℕ → UInt16
  spareMicros : ℕ
  spareTicks : ℕ

/-- What a call of `run` meets: the clock, the time that is available, and how long each task would
take. -/
structure Step where
  now : UInt32
  time : ℕ
  durations : ℕ → ℕ

/-- A task was started: in which tick, how much time was available in it and how much of that had
been used. -/
structure Start where
  task : ℕ
  tick : ℕ
  time : ℕ
  used : ℕ
  deriving DecidableEq

/-- The variables while `run` goes through the tasks, and what was started. -/
structure Run where
  lastRun : ℕ → UInt16
  now : UInt32
  timeAvailable : ℕ
  stopped : Bool
  used : ℕ
  starts : List Start

/-- `init`. -/
def Scheduler.init : Scheduler := ⟨0, fun _ => 0, 0, 0⟩

/-- `tick`. -/
def Scheduler.tick (scheduler : Scheduler) : Scheduler :=
  { scheduler with tickCounter := scheduler.tickCounter + 1 }

section Code

variable {Rate : Type} (settings : Settings Rate)

/-- `interval_ticks`. -/
def Settings.intervalTicks (task : Task Rate) : UInt16 :=
  let intervalTicks := UInt16.ofNat (settings.quotient settings.loopRateHz task.rateHz)
  if intervalTicks < 1 then 1 else intervalTicks

/-- `get_loop_period_us`. -/
def Settings.loopPeriodUs : ℕ := 1000000 / settings.loopRateHz % 2 ^ 16

/-- A task is started, and the clock is read when it is done. -/
def Run.start (ticks : ℕ) (tick : UInt16) (step : Step) (run : Run) (i : ℕ) : Run :=
  let started := run.now
  let now := started + UInt32.ofNat (step.durations i)
  let timeTaken := (now - started).toNat
  let run := { run with
    lastRun := Function.update run.lastRun i tick
    now := now
    used := run.used + step.durations i
    starts := run.starts ++ [Start.mk i ticks step.time run.used] }
  if timeTaken ≥ run.timeAvailable then { run with stopped := true }
  else { run with timeAvailable := run.timeAvailable - timeTaken }

/-- What `run` does for one of the tasks, unless it has gone to its end. -/
def Settings.visit (ticks : ℕ) (tick : UInt16) (step : Step) (run : Run) (i : ℕ) : Run :=
  match settings.tasks[i]? with
  | none => run
  | some task =>
    if run.stopped then run
    else
      let dt := tick - run.lastRun i
      if dt ≥ settings.intervalTicks task then
        if task.maxTimeMicros ≤ run.timeAvailable then run.start ticks tick step i
        else run
      else run

/-- The loop of `run` over the tasks, or the first ones of them. -/
def Settings.visits (ticks : ℕ) (scheduler : Scheduler) (step : Step) (count : ℕ) : Run :=
  (List.range count).foldl (settings.visit ticks scheduler.tickCounter step)
    ⟨scheduler.lastRun, step.now, step.time, false, 0, []⟩

/-- `run`. -/
def Settings.run (ticks : ℕ) (scheduler : Scheduler) (step : Step) : Scheduler × List Start :=
  let run := settings.visits ticks scheduler step settings.tasks.length
  let spareMicros :=
    if run.stopped then scheduler.spareMicros
    else (scheduler.spareMicros + run.timeAvailable) % 2 ^ 32
  let spareTicks := (scheduler.spareTicks + 1) % 2 ^ 8
  if spareTicks = 32 then
    (⟨scheduler.tickCounter, run.lastRun, spareMicros / 2, spareTicks / 2⟩, run.starts)
  else (⟨scheduler.tickCounter, run.lastRun, spareMicros, spareTicks⟩, run.starts)

/-- `load_average`. -/
def Settings.loadAverage (scheduler : Scheduler) : ℚ :=
  if scheduler.spareTicks = 0 then 0
  else
    let loopUs := settings.loopPeriodUs
    let usedTime : ℕ := (2 ^ 32 + loopUs - scheduler.spareMicros / scheduler.spareTicks) % 2 ^ 32
    usedTime / loopUs

end Code

/-! ### The main loop -/

/-- The scheduler, how often it has ticked, and what was started. -/
structure System where
  scheduler : Scheduler
  ticks : ℕ
  starts : List Start

/-- Nothing has been run yet. -/
def System.init : System := ⟨Scheduler.init, 0, []⟩

section Loop

variable {Rate : Type} (settings : Settings Rate)

/-- One tick, and the tasks that are due in it. -/
def Settings.loop (system : System) (step : Step) : System :=
  let (scheduler, starts) := settings.run (system.ticks + 1) system.scheduler.tick step
  ⟨scheduler, system.ticks + 1, system.starts ++ starts⟩

/-- How many ticks the runs of a task are to be apart. -/
def Settings.interval (task : Task Rate) : ℕ :=
  max 1 (settings.quotient settings.loopRateHz task.rateHz)

/-- A task is due. -/
def Settings.due (scheduler : Scheduler) (i : ℕ) : Bool :=
  settings.tasks[i]?.any fun task =>
    scheduler.tickCounter - scheduler.lastRun i ≥ settings.intervalTicks task

/-- How long the tasks take that are due and come before another one. -/
def Settings.usedBefore (scheduler : Scheduler) (step : Step) (i : ℕ) : ℕ :=
  (((List.range i).filter (settings.due scheduler)).map step.durations).sum

/-- There is time for every task that is due, if all of them are run. -/
def Settings.TimeForAll (system : System) (step : Step) : Prop :=
  ∀ (i : ℕ) (inside : i < settings.tasks.length), settings.due system.scheduler.tick i = true →
    settings.tasks[i].maxTimeMicros + settings.usedBefore system.scheduler.tick step i ≤ step.time

/-- Before a task that is due, the time is not used up by others. -/
def Settings.TimeLeft (system : System) (step : Step) : Prop :=
  ∀ i < settings.tasks.length, settings.due system.scheduler.tick i = true →
    (List.range i).any (settings.due system.scheduler.tick) = true →
      settings.usedBefore system.scheduler.tick step i < step.time

/-- A task was started only if it could take no more than the time that was left. -/
def Settings.Fits (start : Start) : Prop :=
  ∃ task, settings.tasks[start.task]? = some task ∧
    task.maxTimeMicros + start.used ≤ start.time

/-- Of two runs of a task the later one is far enough behind. -/
def Settings.Apart (first second : Start) : Prop :=
  first.task = second.task → ∀ task, settings.tasks[first.task]? = some task →
    first.tick + settings.interval task ≤ second.tick

/-- The ticks in which a task was started. -/
def System.ticksOf (system : System) (i : ℕ) : List ℕ :=
  (system.starts.filter (·.task = i)).map (·.tick)

/-- The multiples of a number, up to another one. -/
def multiples (interval ticks : ℕ) : List ℕ :=
  (List.range (ticks / interval)).map fun n => (n + 1) * interval

end Loop

/-! ### One task -/

section Visit

variable {Rate : Type} (settings : Settings Rate) (ticks : ℕ) (step : Step)

theorem intervalTicks_toNat {task : Task Rate} (short : settings.interval task ≤ 32767) :
    (settings.intervalTicks task).toNat = settings.interval task := by
  rw [Settings.interval] at short ⊢
  have small : settings.quotient settings.loopRateHz task.rateHz < 2 ^ 16 := by omega
  have exact : (UInt16.ofNat (settings.quotient settings.loopRateHz task.rateHz)).toNat =
      settings.quotient settings.loopRateHz task.rateHz := UInt16.toNat_ofNat_of_lt small
  simp only [Settings.intervalTicks, UInt16.lt_iff_toNat_lt, exact]
  split
  · rename_i none
    have zero : settings.quotient settings.loopRateHz task.rateHz = 0 := Nat.lt_one_iff.mp none
    rw [zero]
    rfl
  · rename_i some
    exact exact.trans (max_eq_right (not_lt.mp some : 1 ≤ _)).symm

theorem ticks_between {first second : ℕ} (later : first ≤ second) :
    (UInt16.ofNat second - UInt16.ofNat first).toNat = (second - first) % 2 ^ 16 := by
  rw [UInt16.toNat_sub, UInt16.toNat_ofNat', UInt16.toNat_ofNat']
  omega

/-- What was measured is what the task took, as far as the clock can tell. -/
theorem time_taken (now : UInt32) (duration : ℕ) :
    (now + UInt32.ofNat duration - now).toNat = duration % 2 ^ 32 := by
  have small := now.toNat_lt
  rw [UInt32.toNat_sub, UInt32.toNat_add, UInt32.toNat_ofNat']
  omega

theorem visit_cases (tick : UInt16) (run : Run) (i : ℕ) :
    settings.visit ticks tick step run i = run ∨
      ∃ task, settings.tasks[i]? = some task ∧ run.stopped = false ∧
        settings.intervalTicks task ≤ tick - run.lastRun i ∧
        task.maxTimeMicros ≤ run.timeAvailable ∧
        settings.visit ticks tick step run i = run.start ticks tick step i := by
  rw [Settings.visit]
  cases listed : settings.tasks[i]? with
  | none => exact Or.inl rfl
  | some task =>
    simp only
    by_cases stopped : run.stopped = true
    · exact Or.inl (if_pos stopped)
    · rw [if_neg stopped]
      by_cases due : settings.intervalTicks task ≤ tick - run.lastRun i
      · rw [if_pos due]
        by_cases enough : task.maxTimeMicros ≤ run.timeAvailable
        · rw [if_pos enough]
          exact Or.inr ⟨task, rfl, eq_false_of_ne_true stopped, due, enough, rfl⟩
        · exact Or.inl (if_neg enough)
      · exact Or.inl (if_neg due)

section Start

variable (tick : UInt16) (run : Run) (i : ℕ)

@[simp] theorem start_lastRun :
    (run.start ticks tick step i).lastRun = Function.update run.lastRun i tick := by
  simp only [Run.start]
  split <;> rfl

@[simp] theorem start_used :
    (run.start ticks tick step i).used = run.used + step.durations i := by
  simp only [Run.start]
  split <;> rfl

@[simp] theorem start_starts :
    (run.start ticks tick step i).starts = run.starts ++ [⟨i, ticks, step.time, run.used⟩] := by
  simp only [Run.start]
  split <;> rfl

/-- When a task takes less time than there is, the rest is left, else the loop comes to its end. -/
theorem start_time :
    ((run.start ticks tick step i).stopped = true ∧
        run.timeAvailable ≤ step.durations i % 2 ^ 32 ∧
        (run.start ticks tick step i).timeAvailable = run.timeAvailable) ∨
      ((run.start ticks tick step i).stopped = run.stopped ∧
        step.durations i % 2 ^ 32 < run.timeAvailable ∧
        (run.start ticks tick step i).timeAvailable + step.durations i % 2 ^ 32 =
          run.timeAvailable) := by
  simp only [Run.start, time_taken]
  split
  · rename_i used
    exact Or.inl ⟨rfl, used, rfl⟩
  · rename_i left
    exact Or.inr ⟨rfl, not_le.mp left, Nat.sub_add_cancel (not_le.mp left).le⟩

end Start

end Visit

/-! ### The distance of two runs -/

section Spacing

variable {Rate : Type} (settings : Settings Rate)

/-- What is kept of the last runs is right, and the runs of each task are far enough apart. -/
def Settings.Spaced (ticks : ℕ) (lastRun : ℕ → UInt16) (starts : List Start) : Prop :=
  ∃ last : ℕ → ℕ, (∀ i, lastRun i = UInt16.ofNat (last i)) ∧ (∀ i, last i ≤ ticks) ∧
    (∀ start ∈ starts, start.tick ≤ last start.task) ∧ starts.Pairwise settings.Apart

variable {settings}

theorem visit_spaced (short : ∀ task ∈ settings.tasks, settings.interval task ≤ 32767) {ticks : ℕ}
    {step : Step} {run : Run} {earlier : List Start} (i : ℕ)
    (spaced : settings.Spaced ticks run.lastRun (earlier ++ run.starts)) :
    settings.Spaced ticks (settings.visit ticks (UInt16.ofNat ticks) step run i).lastRun
      (earlier ++ (settings.visit ticks (UInt16.ofNat ticks) step run i).starts) := by
  rcases visit_cases settings ticks step (UInt16.ofNat ticks) run i with
    same | ⟨task, listed, -, due, -, started⟩
  · rwa [same]
  · rw [started, start_lastRun, start_starts, ← List.append_assoc]
    obtain ⟨last, counted, past, before, apart⟩ := spaced
    -- the distance that is counted is not more than the one that there is
    rw [counted, UInt16.le_iff_toNat_le, ticks_between (past i),
      intervalTicks_toNat settings (short task (List.mem_of_getElem? listed))] at due
    have far : last i + settings.interval task ≤ ticks := by
      have wrapped := Nat.mod_le (ticks - last i) (2 ^ 16)
      have positive : 0 < settings.interval task := lt_max_of_lt_left one_pos
      omega
    refine ⟨Function.update last i ticks, fun j => ?_, fun j => ?_, fun start member => ?_, ?_⟩
    · rcases eq_or_ne j i with rfl | other
      · rw [Function.update_self, Function.update_self]
      · rw [Function.update_of_ne other, Function.update_of_ne other, counted]
    · rcases eq_or_ne j i with rfl | other
      · rw [Function.update_self]
      · rw [Function.update_of_ne other]
        exact past j
    · rcases List.mem_append.mp member with old | new
      · rcases eq_or_ne start.task i with same | other
        · rw [same, Function.update_self]
          have sooner := before start old
          rw [same] at sooner
          exact sooner.trans (past i)
        · rw [Function.update_of_ne other]
          exact before start old
      · rw [List.mem_singleton.mp new, Function.update_self]
    · refine List.pairwise_append.mpr ⟨apart, List.pairwise_singleton _ _, ?_⟩
      intro first old second new same other otherListed
      rw [List.mem_singleton.mp new] at same ⊢
      have sooner := before first old
      rw [same] at sooner otherListed
      rw [Option.some.inj (listed.symm.trans otherListed)] at far
      simp only at sooner ⊢
      omega

end Spacing

/-! ### The time that is left -/

section Time

variable {Rate : Type} {settings : Settings Rate} {ticks : ℕ} {tick : UInt16} {step : Step}

/-- While the loop goes on, what was used and what is left are the time that there was. -/
def Exact (step : Step) (run : Run) : Prop :=
  run.stopped = false → run.timeAvailable + run.used = step.time

theorem visit_fits (measurable : ∀ i, step.durations i < 2 ^ 32) {run : Run} (i : ℕ)
    (exactly : Exact step run ∧ ∀ start ∈ run.starts, settings.Fits start) :
    Exact step (settings.visit ticks tick step run i) ∧
      ∀ start ∈ (settings.visit ticks tick step run i).starts, settings.Fits start := by
  obtain ⟨known, fit⟩ := exactly
  rcases visit_cases settings ticks step tick run i with
    same | ⟨task, listed, going, -, enough, started⟩
  · rw [same]
    exact ⟨known, fit⟩
  · have left := known going
    rw [started]
    constructor
    · intro onward
      rcases start_time ticks step tick run i with ⟨stopped, -, -⟩ | ⟨-, -, rest⟩
      · exact absurd (stopped.symm.trans onward) (by decide)
      · rw [Nat.mod_eq_of_lt (measurable i)] at rest
        rw [start_used]
        omega
    · intro start member
      rw [start_starts] at member
      rcases List.mem_append.mp member with earlier | new
      · exact fit start earlier
      · rw [List.mem_singleton.mp new]
        exact ⟨task, listed, by simp only; omega⟩

/-- There is never more time left than there was. -/
theorem visits_timeAvailable (scheduler : Scheduler) (count : ℕ) :
    (settings.visits ticks scheduler step count).timeAvailable ≤ step.time := by
  refine runCalls_invariant (fun run : Run => run.timeAvailable ≤ step.time) ?_ le_rfl
  intro run i _ bounded
  rcases visit_cases settings ticks step scheduler.tickCounter run i with
    same | ⟨task, -, -, -, -, started⟩
  · rwa [same]
  · rw [started]
    rcases start_time ticks step scheduler.tickCounter run i with ⟨-, -, rest⟩ | ⟨-, -, rest⟩ <;>
      omega

/-- What was spared is no more than the ticks that it was counted over could spare. -/
def Settings.Accounted (settings : Settings Rate) (scheduler : Scheduler) : Prop :=
  scheduler.spareMicros ≤ scheduler.spareTicks * settings.loopPeriodUs ∧ scheduler.spareTicks < 32

variable {scheduler : Scheduler}

theorem run_accounted (accounted : settings.Accounted scheduler)
    (bounded : step.time ≤ settings.loopPeriodUs) :
    settings.Accounted (settings.run ticks scheduler step).1 := by
  obtain ⟨spared, few⟩ := accounted
  have more : (scheduler.spareTicks + 1) % 2 ^ 8 = scheduler.spareTicks + 1 :=
    Nat.mod_eq_of_lt (by omega)
  have rest := @visits_timeAvailable _ settings ticks step scheduler settings.tasks.length
  have spareMicros : (if (settings.visits ticks scheduler step settings.tasks.length).stopped then
        scheduler.spareMicros
      else (scheduler.spareMicros +
        (settings.visits ticks scheduler step settings.tasks.length).timeAvailable) % 2 ^ 32) ≤
      (scheduler.spareTicks + 1) * settings.loopPeriodUs := by
    rw [Nat.succ_mul]
    split
    · exact spared.trans (Nat.le_add_right _ _)
    · exact (Nat.mod_le _ _).trans (Nat.add_le_add spared (rest.trans bounded))
  rw [Settings.run, more]
  split
  · rename_i full
    rw [full] at spareMicros
    refine ⟨?_, by simp only; omega⟩
    simp only
    rw [full]
    omega
  · exact ⟨spareMicros, by simp only; omega⟩

theorem loadAverage_mem (accounted : settings.Accounted scheduler) :
    0 ≤ settings.loadAverage scheduler ∧ settings.loadAverage scheduler ≤ 1 := by
  rw [Settings.loadAverage]
  split
  · exact ⟨le_rfl, zero_le_one⟩
  · rename_i some
    have average : scheduler.spareMicros / scheduler.spareTicks ≤ settings.loopPeriodUs :=
      Nat.div_le_of_le_mul accounted.1
    have small : settings.loopPeriodUs < 2 ^ 16 := Nat.mod_lt _ (by decide)
    generalize scheduler.spareMicros / scheduler.spareTicks = spare at average ⊢
    have used : (2 ^ 32 + settings.loopPeriodUs - spare) % 2 ^ 32 ≤ settings.loopPeriodUs := by omega
    simp only
    exact ⟨by positivity, div_le_one_of_le₀ (Nat.cast_le.mpr used) (Nat.cast_nonneg _)⟩

end Time

/-! ### The rhythm -/

section Rhythm

variable {Rate : Type} {settings : Settings Rate} {ticks : ℕ} {step : Step}
  {scheduler : Scheduler}

variable {i : ℕ} {run : Run} {count : ℕ} {interval n : ℕ}

theorem due_iff (inside : i < settings.tasks.length) :
    settings.due scheduler i = true ↔
      settings.intervalTicks settings.tasks[i] ≤ scheduler.tickCounter - scheduler.lastRun i := by
  rw [Settings.due, List.getElem?_eq_getElem inside, Option.any_some, decide_eq_true_iff]

theorem visits_succ (count : ℕ) :
    settings.visits ticks scheduler step (count + 1) =
      settings.visit ticks scheduler.tickCounter step
        (settings.visits ticks scheduler step count) count := by
  rw [Settings.visits, List.range_succ, List.foldl_append]
  rfl

theorem usedBefore_succ (i : ℕ) :
    settings.usedBefore scheduler step (i + 1) =
      settings.usedBefore scheduler step i +
        if settings.due scheduler i = true then step.durations i else 0 := by
  rw [Settings.usedBefore, List.range_succ, List.filter_append, List.map_append, List.sum_append]
  congr 1
  cases due : settings.due scheduler i <;> simp [due]

theorem any_succ (i : ℕ) :
    (List.range (i + 1)).any (settings.due scheduler) =
      ((List.range i).any (settings.due scheduler) || settings.due scheduler i) := by
  rw [List.range_succ, List.any_append]
  simp

theorem visit_due {tick : UInt16} (inside : i < settings.tasks.length) (going : run.stopped = false)
    (due : settings.intervalTicks settings.tasks[i] ≤ tick - run.lastRun i)
    (enough : settings.tasks[i].maxTimeMicros ≤ run.timeAvailable) :
    settings.visit ticks tick step run i = run.start ticks tick step i := by
  rw [Settings.visit, List.getElem?_eq_getElem inside]
  simp only
  rw [going, if_neg Bool.false_ne_true, if_pos due, if_pos enough]

/-- What holds behind the first tasks when there is enough time: those that are due were started, and
as long as the time is not used up, it is known what is left. -/
structure Settings.Served (settings : Settings Rate) (ticks : ℕ) (scheduler : Scheduler)
    (step : Step) (count : ℕ) (run : Run) : Prop where
  lastRun : ∀ i, run.lastRun i =
    if i < count ∧ settings.due scheduler i = true then scheduler.tickCounter
    else scheduler.lastRun i
  started : ∀ i, (run.starts.filter (·.task = i)).map (·.tick) =
    if i < count ∧ settings.due scheduler i = true then [ticks] else []
  time : (run.stopped = false ∧
      run.timeAvailable + settings.usedBefore scheduler step count = step.time) ∨
    (step.time ≤ settings.usedBefore scheduler step count ∧
      (List.range count).any (settings.due scheduler) = true)

theorem served_skip (served : settings.Served ticks scheduler step count run)
    (idle : settings.due scheduler count = false) :
    settings.Served ticks scheduler step (count + 1) run := by
  have same : ∀ i, (i < count + 1 ∧ settings.due scheduler i = true) ↔
      (i < count ∧ settings.due scheduler i = true) := by
    intro i
    refine and_congr_left fun due => ?_
    have other : i ≠ count := fun here => Bool.false_ne_true (idle.symm.trans (here ▸ due))
    omega
  refine ⟨fun i => ?_, fun i => ?_, ?_⟩
  · rw [served.lastRun, if_congr (same i).symm rfl rfl]
  · rw [served.started, if_congr (same i).symm rfl rfl]
  · rw [usedBefore_succ, any_succ, idle, Bool.or_false, if_neg Bool.false_ne_true]
    exact served.time

theorem served_start (served : settings.Served ticks scheduler step count run)
    (short : step.time < 2 ^ 32) (due : settings.due scheduler count = true)
    (left : run.timeAvailable + settings.usedBefore scheduler step count = step.time)
    (going : run.stopped = false) :
    settings.Served ticks scheduler step (count + 1)
      (run.start ticks scheduler.tickCounter step count) := by
  have others : ∀ i, i ≠ count → ((i < count + 1 ∧ settings.due scheduler i = true) ↔
      (i < count ∧ settings.due scheduler i = true)) := by
    intro i other
    refine and_congr_left fun _ => ?_
    omega
  refine ⟨fun i => ?_, fun i => ?_, ?_⟩
  · rw [start_lastRun]
    rcases eq_or_ne i count with rfl | other
    · rw [Function.update_self, if_pos ⟨Nat.lt_succ_self i, due⟩]
    · rw [Function.update_of_ne other, served.lastRun, if_congr (others i other).symm rfl rfl]
  · rw [start_starts, List.filter_append, List.map_append, served.started]
    rcases eq_or_ne i count with rfl | other
    · rw [if_neg (fun before => absurd before.1 (lt_irrefl i)), if_pos ⟨Nat.lt_succ_self i, due⟩]
      simp
    · rw [if_congr (others i other) rfl rfl]
      simp [other.symm]
  · rw [usedBefore_succ, any_succ, due, Bool.or_true, if_pos rfl]
    rcases start_time ticks step scheduler.tickCounter run count with
      ⟨-, used, -⟩ | ⟨same, fits, rest⟩
    · have measured := Nat.mod_le (step.durations count) (2 ^ 32)
      exact Or.inr ⟨by omega, rfl⟩
    · rcases lt_or_ge (step.durations count) (2 ^ 32) with measurable | huge
      · rw [Nat.mod_eq_of_lt measurable] at rest
        exact Or.inl ⟨same.trans going, by omega⟩
      · exact Or.inr ⟨by omega, rfl⟩

/-- When there is enough time, the tasks that are started are those that are due. -/
theorem visits_served (short : step.time < 2 ^ 32)
    (forAll : ∀ (i : ℕ) (inside : i < settings.tasks.length), settings.due scheduler i = true → settings.tasks[i].maxTimeMicros + settings.usedBefore scheduler step i ≤ step.time)
    (timeLeft : ∀ i < settings.tasks.length, settings.due scheduler i = true → (List.range i).any (settings.due scheduler) = true → settings.usedBefore scheduler step i < step.time)
    (listed : count ≤ settings.tasks.length) :
    settings.Served ticks scheduler step count (settings.visits ticks scheduler step count) := by
  induction count with
  | zero =>
    refine ⟨fun i => ?_, fun i => ?_, Or.inl ⟨rfl, rfl⟩⟩
    · exact (if_neg fun before => Nat.not_lt_zero i before.1).symm
    · exact (if_neg fun before => Nat.not_lt_zero i before.1).symm
  | succ count inductionHypothesis =>
    have served := inductionHypothesis (Nat.le_of_succ_le listed)
    rw [visits_succ]
    have untouched : (settings.visits ticks scheduler step count).lastRun count =
        scheduler.lastRun count := by
      rw [served.lastRun, if_neg fun before => lt_irrefl count before.1]
    cases due : settings.due scheduler count with
    | false =>
      have same : settings.visit ticks scheduler.tickCounter step
          (settings.visits ticks scheduler step count) count =
            settings.visits ticks scheduler step count := by
        rcases visit_cases settings ticks step scheduler.tickCounter
          (settings.visits ticks scheduler step count) count with
          same | ⟨task, here, -, isDue, -⟩
        · exact same
        · rw [untouched] at isDue
          rw [List.getElem?_eq_getElem listed] at here
          rw [← Option.some.inj here, ← due_iff, due] at isDue
          exact absurd isDue Bool.false_ne_true
      rw [same]
      exact served_skip served due
    | true =>
      rcases served.time with ⟨going, left⟩ | ⟨used, before⟩
      · have enough := forAll count listed due
        rw [visit_due listed going (by rw [untouched]; exact (due_iff listed).mp due) (by omega)]
        exact served_start served short due left going
      · exact absurd (timeLeft count listed due before) (not_lt.mpr used)

/-! ### One loop -/

theorem run_tickCounter :
    (settings.run ticks scheduler step).1.tickCounter = scheduler.tickCounter := by
  simp only [Settings.run]
  split <;> rfl

theorem run_lastRun : (settings.run ticks scheduler step).1.lastRun =
    (settings.visits ticks scheduler step settings.tasks.length).lastRun := by
  simp only [Settings.run]
  split <;> rfl

theorem run_starts : (settings.run ticks scheduler step).2 =
    (settings.visits ticks scheduler step settings.tasks.length).starts := by
  simp only [Settings.run]
  split <;> rfl

/-- The ticks are counted with 16 bits. -/
def Counted (system : System) : Prop := system.scheduler.tickCounter = UInt16.ofNat system.ticks

variable {system : System}

theorem tick_counted (counted : Counted system) :
    system.scheduler.tick.tickCounter = UInt16.ofNat (system.ticks + 1) := by
  rw [Scheduler.tick, counted, UInt16.ofNat_add]
  rfl

theorem loop_counted (counted : Counted system) : Counted (settings.loop system step) := by
  rw [Counted, Settings.loop]
  simp only
  rw [run_tickCounter, tick_counted counted]

theorem loop_spaced (short : ∀ task ∈ settings.tasks, settings.interval task ≤ 32767)
    (counted : Counted system)
    (spaced : settings.Spaced system.ticks system.scheduler.lastRun system.starts) :
    settings.Spaced (settings.loop system step).ticks (settings.loop system step).scheduler.lastRun
      (settings.loop system step).starts := by
  obtain ⟨last, known, past, before, apart⟩ := spaced
  have start : settings.Spaced (system.ticks + 1) system.scheduler.tick.lastRun
      (system.starts ++ []) := by
    rw [List.append_nil]
    exact ⟨last, known, fun i => (past i).trans (Nat.le_succ _), before, apart⟩
  rw [Settings.loop]
  simp only
  rw [run_lastRun, run_starts, Settings.visits, tick_counted counted]
  exact runCalls_invariant
    (fun run : Run => settings.Spaced (system.ticks + 1) run.lastRun (system.starts ++ run.starts))
    (fun run i _ => visit_spaced short i) start

theorem loop_fits (measurable : ∀ i, step.durations i < 2 ^ 32)
    (fit : ∀ start ∈ system.starts, settings.Fits start) :
    ∀ start ∈ (settings.loop system step).starts, settings.Fits start := by
  have visited : Exact step (settings.visits (system.ticks + 1) system.scheduler.tick step
      settings.tasks.length) ∧
        ∀ start ∈ (settings.visits (system.ticks + 1) system.scheduler.tick step
          settings.tasks.length).starts, settings.Fits start :=
    runCalls_invariant
      (fun run : Run => Exact step run ∧ ∀ start ∈ run.starts, settings.Fits start)
      (fun run i _ => visit_fits measurable i) ⟨fun _ => rfl, fun _ member => nomatch member⟩
  intro start member
  rw [Settings.loop] at member
  simp only at member
  rw [run_starts] at member
  exact (List.mem_append.mp member).elim (fit start) (visited.2 start)

/-- Each task has run in its rhythm so far. -/
def Settings.Regular (settings : Settings Rate) (system : System) : Prop :=
  ∀ (i : ℕ) (inside : i < settings.tasks.length),
    system.scheduler.lastRun i =
      UInt16.ofNat (system.ticks / settings.interval settings.tasks[i] *
        settings.interval settings.tasks[i]) ∧
    system.ticksOf i = multiples (settings.interval settings.tasks[i]) system.ticks

theorem multiples_succ :
    multiples interval (n + 1) = multiples interval n ++ if interval ∣ n + 1 then [n + 1] else [] := by
  rw [multiples, Nat.succ_div]
  split
  · rename_i here
    have last : (n / interval + 1) * interval = n + 1 := by
      rw [← Nat.succ_div_of_dvd here, Nat.div_mul_cancel here]
    rw [List.range_succ, List.map_append, List.map_singleton, last]
    rfl
  · rw [List.append_nil]
    rfl

theorem dvd_succ_iff (positive : 0 < interval) :
    interval ∣ n + 1 ↔ interval ≤ n % interval + 1 := by
  obtain ⟨before, rfl⟩ := Nat.exists_eq_succ_of_ne_zero positive.ne'
  have rest := Nat.mod_lt n positive
  rw [Nat.dvd_iff_mod_eq_zero, Nat.succ_eq_add_one, Nat.succ_mod_succ_eq_zero_iff]
  rw [Nat.succ_eq_add_one] at rest
  omega

theorem due_iff_dvd (counted : Counted system) (regular : settings.Regular system)
    (inside : i < settings.tasks.length) (short : settings.interval settings.tasks[i] ≤ 32767) :
    settings.due system.scheduler.tick i = true ↔
      settings.interval settings.tasks[i] ∣ system.ticks + 1 := by
  have positive : 0 < settings.interval settings.tasks[i] := lt_max_of_lt_left one_pos
  have parts := Nat.div_add_mod' system.ticks (settings.interval settings.tasks[i])
  have rest := Nat.mod_lt system.ticks positive
  have lastRun : system.scheduler.tick.lastRun i = system.scheduler.lastRun i := rfl
  rw [due_iff inside, tick_counted counted, lastRun, (regular i inside).1, UInt16.le_iff_toNat_le,
    ticks_between (by omega), intervalTicks_toNat settings short, dvd_succ_iff positive]
  have since : system.ticks + 1 - system.ticks / settings.interval settings.tasks[i] *
      settings.interval settings.tasks[i] =
        system.ticks % settings.interval settings.tasks[i] + 1 := by omega
  rw [since, Nat.mod_eq_of_lt (by omega)]

/-- There is enough time for all tasks, and it is not used up too early. -/
def Settings.InTime (settings : Settings Rate) (system : System) (step : Step) : Prop :=
  settings.TimeForAll system step ∧ settings.TimeLeft system step

theorem loop_regular (short : ∀ task ∈ settings.tasks, settings.interval task ≤ 32767)
    (within : step.time ≤ settings.loopPeriodUs) (counted : Counted system)
    (regular : settings.Regular system) (inTime : settings.InTime system step) :
    settings.Regular (settings.loop system step) := by
  intro i inside
  have period : settings.loopPeriodUs < 2 ^ 16 := Nat.mod_lt _ (by decide)
  have served : settings.Served (system.ticks + 1) system.scheduler.tick step _ _ :=
    visits_served (by omega) inTime.1 inTime.2 le_rfl
  have isDue := due_iff_dvd counted regular inside (short _ (List.getElem_mem inside))
  have old := regular i inside
  rw [Settings.loop, System.ticksOf]
  simp only
  rw [run_lastRun, run_starts, served.lastRun, List.filter_append, List.map_append, served.started,
    multiples_succ, ← old.2, Nat.succ_div, tick_counted counted]
  by_cases here : settings.interval settings.tasks[i] ∣ system.ticks + 1
  · have now : (system.ticks / settings.interval settings.tasks[i] + 1) *
        settings.interval settings.tasks[i] = system.ticks + 1 := by
      rw [← Nat.succ_div_of_dvd here, Nat.div_mul_cancel here]
    have started : i < settings.tasks.length ∧ settings.due system.scheduler.tick i = true :=
      ⟨inside, isDue.mpr here⟩
    rw [if_pos started, if_pos started, if_pos here, if_pos here, now]
    exact ⟨rfl, rfl⟩
  · have idle : ¬ (i < settings.tasks.length ∧ settings.due system.scheduler.tick i = true) :=
      fun isBoth => here (isDue.mp isBoth.2)
    rw [if_neg idle, if_neg idle, if_neg here, if_neg here, Nat.add_zero]
    exact ⟨old.1, rfl⟩

theorem init_regular : settings.Regular System.init := by
  intro i inside
  rw [System.ticksOf, multiples]
  simp only [System.init, Nat.zero_div, Nat.zero_mul, List.range_zero]
  exact ⟨rfl, rfl⟩

/-! ### Runs -/

variable (settings)

/-- A run of the main loop that never lets more time than a loop has. A task is started only if it
fits into the time that is left, as long as the clock can measure what the tasks take. The runs of a
task are far enough apart, and in a fixed rhythm when there is always enough time. The load is one
between 0 and 1. -/
theorem loop_paced (short : ∀ task ∈ settings.tasks, settings.interval task ≤ 32767)
    (steps : List Step) (within : ∀ step ∈ steps, step.time ≤ settings.loopPeriodUs) :
    let system := runCalls settings.loop System.init steps
    ((∀ step ∈ steps, ∀ i, step.durations i < 2 ^ 32) →
        ∀ start ∈ system.starts, settings.Fits start) ∧
      system.starts.Pairwise settings.Apart ∧
      (Along settings.loop (fun _ => True) settings.InTime System.init steps →
        ∀ (i : ℕ) (inside : i < settings.tasks.length),
          system.ticksOf i = multiples (settings.interval settings.tasks[i]) system.ticks) ∧
      system.scheduler.spareMicros ≤ system.scheduler.spareTicks * settings.loopPeriodUs ∧
      0 ≤ settings.loadAverage system.scheduler ∧ settings.loadAverage system.scheduler ≤ 1 := by
  intro system
  have spaced : Counted system ∧
      settings.Spaced system.ticks system.scheduler.lastRun system.starts := by
    refine runCalls_invariant (fun system => Counted system ∧
      settings.Spaced system.ticks system.scheduler.lastRun system.starts) ?_ ?_
    · intro system step _ both
      exact ⟨loop_counted both.1, loop_spaced short both.1 both.2⟩
    · exact ⟨rfl, fun _ => 0, fun _ => rfl, fun _ => le_rfl, fun _ member => (nomatch member),
        List.Pairwise.nil⟩
  have accounted : settings.Accounted system.scheduler := by
    refine runCalls_invariant (fun system : System => settings.Accounted system.scheduler) ?_ ?_
    · intro system step member accounted
      have ticked : settings.Accounted system.scheduler.tick := accounted
      exact run_accounted ticked (within step member)
    · exact ⟨Nat.zero_le _, by decide⟩
  refine ⟨fun measurable => ?_, spaced.2.choose_spec.2.2.2, fun inTime => ?_, accounted.1,
    loadAverage_mem accounted⟩
  · refine runCalls_invariant
      (fun system : System => ∀ start ∈ system.starts, settings.Fits start) ?_ ?_
    · exact fun system step member => loop_fits (measurable step member)
    · exact fun _ member => nomatch member
  · have start : Counted System.init ∧ settings.Regular System.init := ⟨rfl, init_regular⟩
    have kept : ∀ (system : System) (step : Step), Counted system ∧ settings.Regular system →
        settings.InTime system step ∧ step.time ≤ settings.loopPeriodUs →
          Counted (settings.loop system step) ∧ settings.Regular (settings.loop system step) :=
      fun system step both condition =>
        ⟨loop_counted both.1, loop_regular short condition.2 both.1 both.2 condition.1⟩
    have regular : Counted system ∧ settings.Regular system :=
      (inTime.and_mem within).invariant kept start
    exact fun i inside => (regular.2 i inside).2

end Rhythm

/-- Two tasks, one of which may take no time at all. The rates are whole numbers. -/
def twoTasks : Settings ℕ := ⟨[⟨400, 100⟩, ⟨200, 0⟩], 400, (· / ·)⟩

/-- A run with 150 µs in which each task takes 100 µs, and the runs in which all of the time is used up,
or more of it than the clock can measure. -/
def shortStep : Step := ⟨0, 150, fun _ => 100⟩
def fullStep : Step := ⟨0, 100, fun _ => 100⟩
def hugeStep : Step := ⟨0, 100, fun _ => 2 ^ 32⟩

instance decidableTimeForAll {Rate : Type} (settings : Settings Rate) (system : System)
    (step : Step) : Decidable (settings.TimeForAll system step) :=
  inferInstanceAs (Decidable (∀ (i : ℕ) (_ : i < settings.tasks.length), _ → _))

instance decidableTimeLeft {Rate : Type} (settings : Settings Rate) (system : System)
    (step : Step) : Decidable (settings.TimeLeft system step) :=
  inferInstanceAs (Decidable (∀ i < settings.tasks.length, _ → _ → _))

instance decidableInTime {Rate : Type} (settings : Settings Rate) (system : System)
    (step : Step) : Decidable (settings.InTime system step) :=
  inferInstanceAs (Decidable (_ ∧ _))

/-- The two tasks run in every tick and in every other one. -/
theorem loop_paced_two :
    (runCalls twoTasks.loop System.init [shortStep, shortStep, shortStep, shortStep]).ticksOf 1 =
      multiples 2 4 :=
  ((loop_paced twoTasks (by decide) [shortStep, shortStep, shortStep, shortStep]
    (by decide)).2.2.1 (by decide +kernel) 1 (by decide)).trans (by decide +kernel)

/-- After a task of 2^32 µs another one is started although all of the time was used. And a task that
may take no time is not started when the time is used up exactly. -/
theorem loop_not_paced :
    (∃ start ∈ (runCalls twoTasks.loop System.init [shortStep, hugeStep]).starts,
      ¬ twoTasks.Fits start) ∧
    Along twoTasks.loop (fun _ => True) twoTasks.TimeForAll System.init [fullStep, fullStep] ∧
      (runCalls twoTasks.loop System.init [fullStep, fullStep]).ticksOf 1 ≠ multiples 2 2 := by
  refine ⟨⟨⟨1, 2, 100, 2 ^ 32⟩, by decide +kernel, ?_⟩, by decide +kernel, by decide +kernel⟩
  rintro ⟨task, -, fits⟩
  simp only at fits
  omega

end Urus.TaskScheduler
