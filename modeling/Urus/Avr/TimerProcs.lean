/-
This file models the timer processes of the AVR scheduler. An interrupt of the timer runs them, and the
interrupts are enabled while it does, so that runs nest. The main loop suspends and resumes them, and
runs them itself when it has missed an interrupt.

The flags are tested and set without protection. An interrupt that comes in between has run to its end
when the test is acted on, and has left the flags as they were. So no two processes overlap, and what
was missed is made up for.
-/

import Mathlib.Tactic
import Urus.Lib.Nesting
import Urus.Lib.Since
import Urus.Lib.Trace

namespace Urus.AvrScheduler

open Nesting

/-! ### The code -/

/-- `URUS_SCHEDULER_MAX_TIMER_PROCS`. -/
def urusSchedulerMaxTimerProcs : ℕ := 5

/-- What happens: an interrupt, with the value of `_in_timer_proc` when it comes, the start and the end
of `_run_timer_procs`, of a process and of the loop over them, and the calls of the main loop. -/
inductive Event (Proc : Type)
  | interrupt (inTimerProc : Bool)
  | enter
  | leave
  | start (proc : Proc)
  | finish
  | ran (called : List Proc)
  | suspend
  | resume
  | resumed
  | register (proc : Proc)

/-- The static variables of the scheduler, and what has happened, the latest first. -/
structure Sched (Proc : Type) where
  timerSuspended : Bool
  timerEventMissed : Bool
  timerProc : List (Option Proc)
  numTimerProcs : ℕ
  inTimerProc : Bool
  log : List (Event Proc)

variable {Proc : Type}

/-- The scheduler at the start. -/
def Sched.initial : Sched Proc :=
  ⟨false, false, List.replicate urusSchedulerMaxTimerProcs none, 0, false, []⟩

def Sched.note (sched : Sched Proc) (event : Event Proc) : Sched Proc :=
  { sched with log := event :: sched.log }

/-- `_timer_event_missed = true`. -/
def Sched.miss (sched : Sched Proc) : Sched Proc := { sched with timerEventMissed := true }

/-- What interrupts do in the gaps of some code. -/
abbrev Pause (Proc : Type) := ℕ → Sched Proc → Sched Proc

/-- The loop of `_run_timer_procs`, with so many turns left at most, and the processes that it has
called. -/
def callFrom (pause : Pause Proc) : ℕ → ℕ → List Proc → Sched Proc → Sched Proc × List Proc
  | 0, _, called, sched => (sched, called)
  | left + 1, index, called, sched =>
    if index < sched.numTimerProcs then
      match sched.timerProc.getD index none with
      | some proc =>
        callFrom pause left (index + 1) (called ++ [proc]) (pause (2 * index + 6)
          ((pause (2 * index + 5) (sched.note (.start proc))).note .finish))
      | none => callFrom pause left (index + 1) called (pause (2 * index + 6) sched)
    else (sched, called)

/-- `_run_timer_procs` while it holds `_in_timer_proc`. The failsafe runs in the gap 3. -/
def hold (calledFromIsr : Bool) (pause : Pause Proc) (sched : Sched Proc) : Sched Proc :=
  let sched := pause 2 sched
  let sched :=
    if !sched.timerSuspended then
      let result := callFrom pause urusSchedulerMaxTimerProcs 0 [] sched
      result.1.note (.ran result.2)
    else if calledFromIsr then sched.miss
    else sched
  pause 4 (pause 3 sched)

/-- `_run_timer_procs`. -/
def runTimerProcs (calledFromIsr : Bool) (pause : Pause Proc) (sched : Sched Proc) : Sched Proc :=
  let sched := pause 0 (sched.note .enter)
  if sched.inTimerProc then (pause 3 sched).note .leave
  else
    let sched := hold calledFromIsr pause { pause 1 sched with inTimerProc := true }
    { sched with inTimerProc := false }.note .leave

/-- `_fire_isr_sched`. -/
def fireIsrSched (pause : Pause Proc) (sched : Sched Proc) : Sched Proc :=
  runTimerProcs true pause (sched.note (.interrupt sched.inTimerProc))

/-- `resume_timer_procs`. -/
def resumeTimerProcs (pause : Pause Proc) (sched : Sched Proc) : Sched Proc :=
  let sched := pause 1 ({ sched with timerSuspended := false }.note .resume)
  let sched :=
    if sched.timerEventMissed then
      runTimerProcs false (fun gap => pause (gap + 3)) { pause 2 sched with timerEventMissed := false }
    else sched
  sched.note .resumed

variable [DecidableEq Proc]

/-- `register_timer_process`. -/
def registerTimerProcess (pause : Pause Proc) (proc : Proc) (sched : Sched Proc) : Sched Proc :=
  if some proc ∈ sched.timerProc.take sched.numTimerProcs then sched.note (.register proc)
  else if sched.numTimerProcs < urusSchedulerMaxTimerProcs then
    let sched :=
      pause 1 { sched with timerProc := sched.timerProc.set sched.numTimerProcs (some proc) }
    { sched with numTimerProcs := sched.numTimerProcs + 1 }.note (.register proc)
  else sched.note (.register proc)

/-- A call of the main loop. -/
inductive Call (Proc : Type)
  | suspend
  | resume
  | register (proc : Proc)

/-- A call behind a gap. `suspend_timer_procs` only sets the flag. -/
def Sched.perform (pause : Pause Proc) (sched : Sched Proc) : Call Proc → Sched Proc
  | .suspend => { pause 0 sched with timerSuspended := true }.note .suspend
  | .resume => resumeTimerProcs pause (pause 0 sched)
  | .register proc => registerTimerProcess pause proc (pause 0 sched)

/-- The main loop makes calls, each with its interrupts. -/
def run (depth : ℕ) (calls : List (Call Proc × Interrupts depth)) : Sched Proc :=
  runCalls (fun sched call => sched.perform (pauses fireIsrSched depth call.2) call.1) .initial calls

/-! ### What is wanted -/

/-- The processes that are registered: the first five. -/
def registered : List (Event Proc) → List Proc
  | [] => []
  | .register proc :: older =>
    if proc ∈ registered older ∨ urusSchedulerMaxTimerProcs ≤ (registered older).length then
      registered older
    else registered older ++ [proc]
  | _ :: older => registered older

/-- A process is being executed. -/
def executing : List (Event Proc) → Bool
  | [] => false
  | .start _ :: _ => true
  | .finish :: _ => false
  | _ :: older => executing older

/-- The timer processes are suspended. -/
def inSuspension : List (Event Proc) → Bool
  | [] => false
  | .suspend :: _ => true
  | .resume :: _ => false
  | _ :: older => inSuspension older

/-- An interrupt has come during the suspension. -/
def arrived : List (Event Proc) → Bool
  | [] => false
  | .interrupt _ :: older => inSuspension older || arrived older
  | .resume :: _ => false
  | _ :: older => arrived older

/-- An interrupt has come during the suspension that was ended last. -/
def owed : List (Event Proc) → Bool
  | [] => false
  | .resume :: older => arrived older
  | _ :: older => owed older

/-- The processes that have been started since the last resume. -/
def startedSince : List (Event Proc) → List Proc
  | [] => []
  | .start proc :: older => proc :: startedSince older
  | .resume :: _ => []
  | _ :: older => startedSince older

/-- The runs that have been entered and not been left. -/
def active : List (Event Proc) → ℕ
  | [] => 0
  | .enter :: older => active older + 1
  | .leave :: older => active older - 1
  | _ :: older => active older

/-- What may happen next. -/
def Allowed (older : List (Event Proc)) : Event Proc → Prop
  | .interrupt inTimerProc => active older = 0 → inTimerProc = false
  | .start _ => executing older = false ∧ inSuspension older = false
  | .ran called => ∀ proc, called.count proc = if proc ∈ registered older then 1 else 0
  | .resumed => owed older = true → ∀ proc ∈ registered older, proc ∈ startedSince older
  | _ => True

/-- All that has happened was allowed. -/
def Good : List (Event Proc) → Prop
  | [] => True
  | event :: older => Allowed older event ∧ Good older

/-! ### What interrupts keep -/

/-- The variables agree with what has happened. -/
structure Sound (sched : Sched Proc) : Prop where
  good : Good sched.log
  suspension : inSuspension sched.log = sched.timerSuspended
  idle : sched.inTimerProc = false → executing sched.log = false
  held : active sched.log = 0 → sched.inTimerProc = false
  num : sched.numTimerProcs = (registered sched.log).length
  size : sched.timerProc.length = urusSchedulerMaxTimerProcs
  table : sched.timerProc.take sched.numTimerProcs = (registered sched.log).map some

/-- What all code but that of the main loop leaves as it is. -/
structure Grown (before after : Sched Proc) : Prop where
  sound : Sound after
  suspended : after.timerSuspended = before.timerSuspended
  inProc : after.inTimerProc = before.inTimerProc
  table : after.timerProc = before.timerProc
  missed : before.timerEventMissed = true → after.timerEventMissed = true
  active : active after.log = active before.log
  registered : registered after.log = registered before.log
  owed : owed after.log = owed before.log
  started : ∀ proc ∈ startedSince before.log, proc ∈ startedSince after.log
  arrived : before.timerSuspended = false → arrived after.log = arrived before.log

/-- What interrupts leave as it is: a process that is being executed is, and an interrupt during the
suspension has set the flag, unless it has come while that was about to be done. -/
structure Interrupted (before after : Sched Proc) : Prop extends Grown before after where
  executing : before.inTimerProc = true → executing after.log = executing before.log
  pending : before.inTimerProc = false → AvrScheduler.arrived after.log = true →
    AvrScheduler.arrived before.log = true ∨ after.timerEventMissed = true

section Kept

variable {first second third sched : Sched Proc}

theorem Grown.refl (sound : Sound sched) : Grown sched sched :=
  ⟨sound, rfl, rfl, rfl, id, rfl, rfl, rfl, fun _ => id, fun _ => rfl⟩

theorem Grown.trans (one : Grown first second) (two : Grown second third) : Grown first third where
  sound := two.sound
  suspended := two.suspended.trans one.suspended
  inProc := two.inProc.trans one.inProc
  table := two.table.trans one.table
  missed was := two.missed (one.missed was)
  active := two.active.trans one.active
  registered := two.registered.trans one.registered
  owed := two.owed.trans one.owed
  started proc member := two.started proc (one.started proc member)
  arrived runs := (two.arrived (one.suspended.trans runs)).trans (one.arrived runs)

theorem Interrupted.refl (sound : Sound sched) : Interrupted sched sched :=
  ⟨.refl sound, fun _ => rfl, fun _ => .inl⟩

theorem Interrupted.trans (one : Interrupted first second) (two : Interrupted second third) :
    Interrupted first third where
  toGrown := one.toGrown.trans two.toGrown
  executing holds := (two.executing (one.inProc.trans holds)).trans (one.executing holds)
  pending free came := (two.pending (one.inProc.trans free) came).elim
    (fun came => (one.pending free came).imp_right two.missed) .inr

/-- An event that changes none of what the variables agree with. -/
theorem Sound.note (sound : Sound sched) {event : Event Proc} (allowed : Allowed sched.log event)
    (suspension : inSuspension (event :: sched.log) = inSuspension sched.log)
    (idle : sched.inTimerProc = false → executing (event :: sched.log) = false)
    (held : active (event :: sched.log) = 0 → sched.inTimerProc = false)
    (same : registered (event :: sched.log) = registered sched.log) : Sound (sched.note event) where
  good := ⟨allowed, sound.good⟩
  suspension := suspension.trans sound.suspension
  idle := idle
  held := held
  num := sound.num.trans (congrArg List.length same).symm
  size := sound.size
  table := sound.table.trans (congrArg (List.map some) same).symm

theorem Grown.start (sound : Sound sched) (holds : sched.inTimerProc = true)
    (free : executing sched.log = false) (runs : sched.timerSuspended = false) (proc : Proc) :
    Grown sched (sched.note (.start proc)) where
  sound := sound.note ⟨free, sound.suspension.trans runs⟩ rfl
    (fun none => nomatch none.symm.trans holds) sound.held rfl
  suspended := rfl
  inProc := rfl
  table := rfl
  missed := id
  active := rfl
  registered := rfl
  owed := rfl
  started _ := List.mem_cons_of_mem _
  arrived _ := rfl

theorem Grown.finish (sound : Sound sched) : Grown sched (sched.note .finish) :=
  ⟨sound.note trivial rfl (fun _ => rfl) sound.held rfl, rfl, rfl, rfl, id, rfl, rfl, rfl,
    fun _ => id, fun _ => rfl⟩

theorem Grown.miss (sound : Sound sched) : Grown sched sched.miss :=
  ⟨⟨sound.good, sound.suspension, sound.idle, sound.held, sound.num, sound.size, sound.table⟩, rfl,
    rfl, rfl, fun _ => rfl, rfl, rfl, rfl, fun _ => id, fun _ => rfl⟩

theorem registered_nodup : ∀ log : List (Event Proc), (registered log).Nodup := by
  intro log
  fun_induction registered log with
  | case1 => exact List.nodup_nil
  | case2 proc older known inductionHypothesis => exact inductionHypothesis
  | case3 proc older fresh inductionHypothesis =>
    rw [not_or] at fresh
    exact inductionHypothesis.append (List.nodup_singleton _)
      (List.disjoint_singleton.mpr fresh.1)
  | case4 event older other inductionHypothesis => exact inductionHypothesis

theorem registered_length_le (log : List (Event Proc)) :
    (registered log).length ≤ urusSchedulerMaxTimerProcs := by
  fun_induction registered log with
  | case1 => exact Nat.zero_le _
  | case2 proc older known inductionHypothesis => exact inductionHypothesis
  | case3 proc older fresh inductionHypothesis =>
    rw [List.length_append, List.length_singleton]
    omega
  | case4 event older other inductionHypothesis => exact inductionHypothesis

/-- A run is left with the flags as they were. -/
theorem Grown.leave {next : Sched Proc} (sound : Sound sched)
    (inside : Grown (sched.note .enter) next) : Grown sched (next.note .leave) where
  sound := inside.sound.note trivial rfl inside.sound.idle
    (fun none => inside.inProc.trans (sound.held (by
      rw [← Nat.add_sub_cancel (AvrScheduler.active sched.log) 1]
      exact (congrArg (· - 1) inside.active).symm.trans none))) rfl
  suspended := inside.suspended
  inProc := inside.inProc
  table := inside.table
  missed := inside.missed
  active := (congrArg (· - 1) inside.active).trans (Nat.add_sub_cancel _ 1)
  registered := inside.registered
  owed := inside.owed
  started := inside.started
  arrived := inside.arrived

/-- A run that has called what is registered has called each process once. -/
theorem Grown.ran (sound : Sound sched) : Grown sched (sched.note (.ran (AvrScheduler.registered sched.log))) :=
  ⟨sound.note (fun _ => (registered_nodup sched.log).count) rfl sound.idle sound.held rfl, rfl, rfl,
    rfl, id, rfl, rfl, rfl, fun _ => id, fun _ => rfl⟩

theorem Sound.lookup (sound : Sound sched) {index : ℕ} (inside : index < sched.numTimerProcs) :
    ∃ proc, (registered sched.log)[index]? = some proc ∧
      sched.timerProc.getD index none = some proc := by
  have entry := congrArg (·[index]?) sound.table
  rw [List.getElem?_take_of_lt inside, List.getElem?_map] at entry
  obtain ⟨proc, found⟩ : ∃ proc, (registered sched.log)[index]? = some proc :=
    ⟨_, List.getElem?_eq_getElem (inside.trans_eq sound.num)⟩
  rw [found] at entry
  exact ⟨proc, found, by rw [List.getD_eq_getElem?_getD, entry]; rfl⟩

end Kept

/-! ### The run -/

/-- What the loop over the processes does. -/
structure Called (sched : Sched Proc) (result : Sched Proc × List Proc) : Prop where
  grown : Grown sched result.1
  free : executing result.1.log = false
  all : result.2 = registered sched.log
  started : ∀ proc ∈ registered sched.log, proc ∈ startedSince result.1.log

theorem Called.ended {sched : Sched Proc} {index : ℕ} {called : List Proc} (sound : Sound sched)
    (free : executing sched.log = false) (so_far : called = (registered sched.log).take index)
    (started : ∀ proc ∈ called, proc ∈ startedSince sched.log)
    (past : sched.numTimerProcs ≤ index) : Called sched (sched, called) := by
  have all : called = registered sched.log :=
    so_far.trans (List.take_of_length_le (sound.num.symm.le.trans past))
  exact ⟨.refl sound, free, all, all ▸ started⟩

section Run

variable {pause : Pause Proc} (keeps : ∀ gap sched, Sound sched → Interrupted sched (pause gap sched))
  {sched : Sched Proc}

include keeps

/-- The loop calls what is registered, each process where no other is being executed. -/
theorem callFrom_spec {left index : ℕ} {called : List Proc} (sound : Sound sched)
    (holds : sched.inTimerProc = true) (free : executing sched.log = false)
    (runs : sched.timerSuspended = false) (enough : sched.numTimerProcs ≤ index + left)
    (so_far : called = (registered sched.log).take index)
    (started : ∀ proc ∈ called, proc ∈ startedSince sched.log) :
    Called sched (callFrom pause left index called sched) := by
  induction left generalizing index called sched with
  | zero => exact .ended sound free so_far started enough
  | succ left inductionHypothesis =>
    rw [callFrom]
    by_cases inside : index < sched.numTimerProcs
    · obtain ⟨proc, found, entry⟩ := sound.lookup inside
      rw [if_pos inside, entry]
      have start := Grown.start sound holds free runs proc
      have during := keeps (2 * index + 5) _ start.sound
      have finish := Grown.finish during.sound
      have behind := keeps (2 * index + 6) _ finish.sound
      have grown := start.trans (during.toGrown.trans (finish.trans behind.toGrown))
      have num := (grown.sound.num.trans (congrArg List.length grown.registered)).trans sound.num.symm
      obtain ⟨onward, idle, all, each⟩ : Called _ (callFrom pause left (index + 1) _ _) :=
        inductionHypothesis grown.sound (grown.inProc.trans holds)
        (behind.executing (during.inProc.trans holds)) (grown.suspended.trans runs) (by omega)
        (by rw [grown.registered, so_far, List.take_add_one, found, Option.toList_some])
        fun other member => (List.mem_append.mp member).elim
          (fun old => grown.started other (started other old)) fun new => by
            rw [List.mem_singleton.mp new]
            exact behind.started _ (during.started _ List.mem_cons_self)
      rw [grown.registered] at all each
      exact ⟨grown.trans onward, idle, all, each⟩
    · rw [if_neg inside]
      exact .ended sound free so_far started (not_lt.mp inside)

/-- A run that holds `_in_timer_proc` calls what is registered, or notes that it was suspended. -/
theorem hold_spec (calledFromIsr : Bool) (sound : Sound sched) (holds : sched.inTimerProc = true)
    (free : executing sched.log = false) :
    Grown sched (hold calledFromIsr pause sched) ∧
      executing (hold calledFromIsr pause sched).log = false ∧
      (sched.timerSuspended = true → calledFromIsr = true →
        (hold calledFromIsr pause sched).timerEventMissed = true) ∧
      (sched.timerSuspended = false → ∀ proc ∈ registered sched.log,
        proc ∈ startedSince (hold calledFromIsr pause sched).log) := by
  have first := keeps 2 sched sound
  have idle := (first.executing holds).trans free
  -- the failsafe and what is behind it
  have last : ∀ {next}, Grown sched next → executing next.log = false →
      Grown sched (pause 4 (pause 3 next)) ∧ executing (pause 4 (pause 3 next)).log = false ∧
      (next.timerEventMissed = true → (pause 4 (pause 3 next)).timerEventMissed = true) ∧
      ∀ proc ∈ startedSince next.log, proc ∈ startedSince (pause 4 (pause 3 next)).log := by
    intro next grown none
    have three := keeps 3 next grown.sound
    have both := three.trans (keeps 4 _ three.sound)
    exact ⟨grown.trans both.toGrown, (both.executing (grown.inProc.trans holds)).trans none,
      both.missed, both.started⟩
  rw [hold]
  dsimp only
  cases suspended : sched.timerSuspended with
  | false =>
    have runs := first.suspended.trans suspended
    have few : (pause 2 sched).numTimerProcs ≤ 0 + urusSchedulerMaxTimerProcs := by
      rw [first.sound.num, Nat.zero_add]
      exact registered_length_le _
    obtain ⟨onward, ended, all, each⟩ := callFrom_spec keeps first.sound (first.inProc.trans holds)
      idle runs few List.take_zero.symm (List.forall_mem_nil _)
    rw [runs, Bool.not_false, if_pos rfl, all, ← onward.registered]
    have ran := Grown.ran onward.sound
    obtain ⟨grown, none, -, kept⟩ := last (first.toGrown.trans (onward.trans ran)) ended
    rw [first.registered] at each
    exact ⟨grown, none, nofun, fun _ proc member => kept proc (each proc member)⟩
  | true =>
    rw [first.suspended.trans suspended, Bool.not_true, if_neg nofun]
    cases calledFromIsr with
    | false =>
      obtain ⟨grown, none, -, -⟩ := last first.toGrown idle
      exact ⟨grown, none, nofun, nofun⟩
    | true =>
      rw [if_pos rfl]
      obtain ⟨grown, none, missed, -⟩ := last (first.toGrown.trans (.miss first.sound)) idle
      exact ⟨grown, none, fun _ _ => missed rfl, nofun⟩

theorem run_spec (calledFromIsr : Bool) (sound : Sound sched) :
    Grown sched (runTimerProcs calledFromIsr pause sched) ∧
      (sched.inTimerProc = true →
        executing (runTimerProcs calledFromIsr pause sched).log = executing sched.log) ∧
      (sched.inTimerProc = false → sched.timerSuspended = true → calledFromIsr = true →
        (runTimerProcs calledFromIsr pause sched).timerEventMissed = true) ∧
      (sched.inTimerProc = false → sched.timerSuspended = false → ∀ proc ∈ registered sched.log,
        proc ∈ startedSince (runTimerProcs calledFromIsr pause sched).log) := by
  have entered : Sound (sched.note .enter) :=
    sound.note trivial rfl sound.idle (fun none => nomatch none) rfl
  have start := keeps 0 _ entered
  rw [runTimerProcs]
  dsimp only
  cases holds : sched.inTimerProc with
  | true =>
    rw [if_pos (start.inProc.trans holds)]
    have failsafe := start.trans (keeps 3 _ start.sound)
    exact ⟨.leave sound failsafe.toGrown, fun _ => failsafe.executing holds, nofun, nofun⟩
  | false =>
    have free := start.inProc.trans holds
    rw [if_neg (by rw [free]; exact nofun)]
    have before := start.trans (keeps 1 _ start.sound)
    have still := before.inProc.trans holds
    have inside : active (pause 1 (pause 0 (sched.note .enter))).log ≠ 0 :=
      before.active.trans_ne (Nat.succ_ne_zero _)
    have claimed : Sound { pause 1 (pause 0 (sched.note .enter)) with inTimerProc := true } :=
      ⟨before.sound.good, before.sound.suspension, nofun, fun none => absurd none inside,
        before.sound.num, before.sound.size, before.sound.table⟩
    obtain ⟨during, idle, missed, started⟩ := hold_spec keeps calledFromIsr claimed rfl
      (before.sound.idle still)
    have released : Grown (sched.note .enter)
        { hold calledFromIsr pause { pause 1 (pause 0 (sched.note .enter)) with
          inTimerProc := true } with inTimerProc := false } :=
      { sound := ⟨during.sound.good, during.sound.suspension, fun _ => idle, fun _ => rfl,
          during.sound.num, during.sound.size, during.sound.table⟩
        suspended := during.suspended.trans before.suspended
        inProc := holds.symm
        table := during.table.trans before.table
        missed := fun was => during.missed (before.missed was)
        active := during.active.trans before.active
        registered := during.registered.trans before.registered
        owed := during.owed.trans before.owed
        started := fun proc member => during.started proc (before.started proc member)
        arrived := fun runs =>
          (during.arrived (before.suspended.trans runs)).trans (before.arrived runs) }
    refine ⟨.leave sound released, nofun, fun _ suspended =>
      missed (before.suspended.trans suspended), fun _ runs proc member =>
        started (before.suspended.trans runs) proc ?_⟩
    exact before.registered.symm ▸ member

theorem fireIsrSched_keeps (sound : Sound sched) : Interrupted sched (fireIsrSched pause sched) := by
  have noted : Sound (sched.note (.interrupt sched.inTimerProc)) :=
    sound.note sound.held rfl sound.idle sound.held rfl
  obtain ⟨grown, executing, missed, -⟩ := run_spec keeps true noted
  have quiet : sched.timerSuspended = false →
      arrived (sched.note (.interrupt sched.inTimerProc)).log = arrived sched.log := fun runs => by
    change (inSuspension sched.log || arrived sched.log) = arrived sched.log
    rw [sound.suspension, runs, Bool.false_or]
  refine ⟨⟨grown.sound, grown.suspended, grown.inProc, grown.table, grown.missed, grown.active,
    grown.registered, grown.owed, grown.started, fun runs => (grown.arrived runs).trans (quiet runs)⟩,
    executing, fun free came => ?_⟩
  cases suspended : sched.timerSuspended with
  | true => exact .inr (missed free suspended rfl)
  | false => exact .inl (((grown.arrived suspended).trans (quiet suspended)).symm.trans came)

end Run

/-! ### The main loop -/

theorem pauses_fireIsrSched (depth : ℕ) (interrupts : Interrupts depth) (gap : ℕ)
    (sched : Sched Proc) (sound : Sound sched) :
    Interrupted sched (pauses fireIsrSched depth interrupts gap sched) :=
  @pauses_keep _ fireIsrSched (fun before after => Sound before → Interrupted before after)
    (fun _ => .refl) (fun one two sound => (one sound).trans (two (one sound).sound))
    (fun _ keeps _ => fireIsrSched_keeps keeps) depth interrupts gap sched sound

/-- What holds in the main loop: no run is active, and an interrupt that was missed is noted. -/
structure AtRest (sched : Sched Proc) : Prop where
  sound : Sound sched
  free : sched.inTimerProc = false
  noted : arrived sched.log = true → sched.timerEventMissed = true

section Main

variable {pause : Pause Proc} (keeps : ∀ gap sched, Sound sched → Interrupted sched (pause gap sched))
  {sched : Sched Proc}

theorem AtRest.interrupted {next : Sched Proc} (rest : AtRest sched)
    (interrupted : Interrupted sched next) : AtRest next :=
  ⟨interrupted.sound, interrupted.inProc.trans rest.free, fun came =>
    (interrupted.pending rest.free came).elim (fun came => interrupted.missed (rest.noted came)) id⟩

theorem AtRest.suspend (rest : AtRest sched) :
    AtRest ({ sched with timerSuspended := true }.note .suspend) :=
  ⟨⟨⟨trivial, rest.sound.good⟩, rfl, rest.sound.idle, rest.sound.held, rest.sound.num,
    rest.sound.size, rest.sound.table⟩, rest.free, rest.noted⟩

include keeps

/-- A resume makes up for the interrupts that were missed. -/
theorem AtRest.resume (rest : AtRest sched) : AtRest (resumeTimerProcs pause sched) := by
  have resumed : Sound ({ sched with timerSuspended := false }.note .resume) :=
    ⟨⟨trivial, rest.sound.good⟩, rfl, rest.sound.idle, rest.sound.held, rest.sound.num,
      rest.sound.size, rest.sound.table⟩
  have first := keeps 1 _ resumed
  have free := first.inProc.trans rest.free
  have runs : (pause 1 ({ sched with timerSuspended := false }.note .resume)).timerSuspended = false :=
    first.suspended
  have none := first.arrived rfl
  rw [resumeTimerProcs]
  dsimp only
  split
  · have second := keeps 2 _ first.sound
    have cleared : Sound { pause 2 (pause 1 ({ sched with timerSuspended := false }.note .resume)) with
        timerEventMissed := false } :=
      ⟨second.sound.good, second.sound.suspension, second.sound.idle, second.sound.held,
        second.sound.num, second.sound.size, second.sound.table⟩
    obtain ⟨grown, -, -, started⟩ := run_spec (fun gap => keeps (gap + 3)) false cleared
    have all := started (second.inProc.trans free) (second.suspended.trans runs)
    refine ⟨grown.sound.note (fun _ proc member => all proc (grown.registered ▸ member)) rfl
      grown.sound.idle grown.sound.held rfl, grown.inProc.trans (second.inProc.trans free),
      fun came => ?_⟩
    have before := (grown.arrived (second.suspended.trans runs)).trans
      ((second.arrived runs).trans none)
    exact nomatch before.symm.trans came
  · rename_i unmissed
    refine ⟨first.sound.note (fun came => ?_) rfl first.sound.idle first.sound.held rfl, free,
      fun came => nomatch none.symm.trans came⟩
    exact absurd (first.missed (rest.noted (first.owed.symm.trans came))) unmissed

theorem AtRest.register (rest : AtRest sched) (proc : Proc) :
    AtRest (registerTimerProcess pause proc sched) := by
  have known_iff : some proc ∈ sched.timerProc.take sched.numTimerProcs ↔
      proc ∈ registered sched.log := by
    rw [rest.sound.table, List.mem_map_of_injective (Option.some_injective _)]
  have refused : proc ∈ registered sched.log ∨
      urusSchedulerMaxTimerProcs ≤ (registered sched.log).length →
      AtRest (sched.note (.register proc)) := fun cannot =>
    ⟨rest.sound.note trivial rfl rest.sound.idle rest.sound.held (if_pos cannot), rest.free,
      rest.noted⟩
  rw [registerTimerProcess]
  split
  case isTrue known => exact refused (.inl (known_iff.mp known))
  case isFalse unknown =>
    have fresh := mt known_iff.mpr unknown
    split
    case isFalse full => exact refused (.inr (rest.sound.num ▸ not_lt.mp full))
    case isTrue room =>
      have stored : Sound { sched with
          timerProc := sched.timerProc.set sched.numTimerProcs (some proc) } :=
        ⟨rest.sound.good, rest.sound.suspension, rest.sound.idle, rest.sound.held, rest.sound.num,
          List.length_set.trans rest.sound.size,
          (List.take_set_of_le (le_refl _)).trans rest.sound.table⟩
      have first := keeps 1 _ stored
      have last := AtRest.interrupted ⟨stored, rest.free, rest.noted⟩ first
      have num := first.sound.num.trans (congrArg List.length first.registered)
      have more : registered (.register proc :: (pause 1 _).log) = registered sched.log ++ [proc] :=
        (if_neg (by
          rw [first.registered, not_or, not_le, ← rest.sound.num]
          exact ⟨fresh, room⟩)).trans (congrArg (· ++ [proc]) first.registered)
      refine ⟨⟨⟨trivial, first.sound.good⟩, first.sound.suspension, first.sound.idle,
        first.sound.held, ?_, first.sound.size, ?_⟩, last.free, last.noted⟩
      · change _ + 1 = (registered (.register proc :: (pause 1 _).log)).length
        rw [more, List.length_append, num]
        rfl
      · change (pause 1 _).timerProc.take ((pause 1 _).numTimerProcs + 1) =
          (registered (.register proc :: (pause 1 _).log)).map some
        rw [more, num, first.table, ← rest.sound.num, Since.take_set (room.trans_eq
          rest.sound.size.symm), rest.sound.table, List.map_append]
        rfl

theorem AtRest.perform (rest : AtRest sched) (call : Call Proc) :
    AtRest (sched.perform pause call) := by
  have first := rest.interrupted (keeps 0 sched rest.sound)
  cases call with
  | suspend => exact first.suspend
  | resume => exact first.resume keeps
  | register proc => exact first.register keeps proc

end Main

theorem atRest_initial : AtRest (Sched.initial : Sched Proc) :=
  ⟨⟨trivial, rfl, fun _ => rfl, fun _ => rfl, rfl, List.length_replicate, rfl⟩, rfl, nofun⟩

/-- In every run of the main loop, with interrupts in all gaps and nested to any depth, no process is
started while another one is executed or during a suspension, a run calls each registered process
once, a resume makes up for the interrupts of the suspension, and `_in_timer_proc` is only set in a
run. -/
theorem timerProcs_good (depth : ℕ) (calls : List (Call Proc × Interrupts depth)) :
    Good (run depth calls).log ∧ (run depth calls).inTimerProc = false := by
  have rest : AtRest (run depth calls) := runCalls_invariant AtRest
    (fun _ call _ rest => rest.perform (pauses_fireIsrSched depth call.2) call.1) atRest_initial
  exact ⟨rest.sound.good, rest.free⟩

end Urus.AvrScheduler
