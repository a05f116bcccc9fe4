/-
This file models the semaphores of two cores. On both a taker with a time-out tries again and again.
The AVR core counts its tries with 16 bits. The Cygwin core compares a clock that has 32 bits with a
product that has 32 bits.

At most one taker holds a semaphore. No taker gives up too early exactly if, on the AVR core, all
time-outs are between 1 and 655 milliseconds, and on the Cygwin core, the time-outs are over before
the clock starts again. The AVR core does not know a time-out that means to wait for ever.
-/

import Urus.Lib.PollLock
import Urus.Cygwin.Timers

namespace Urus.Semaphores

open PollLock Cygwin

/-! ### The code -/

/-- `HAL_SEMAPHORE_BLOCK_FOREVER`. -/
def blockForever : UInt32 := 0

/-- `_take_from_mainloop` of the AVR core behind its first `_take_nonblocking`. It is left when the
ticks are over. -/
def avr : Policy UInt32 where
  Wait := UInt16
  start timeoutMs _ := if timeoutMs = 0 then none else some (timeoutMs * 100).toUInt16
  next timeoutTicks _ := if timeoutTicks - 1 > 0 then some (timeoutTicks - 1) else none
  pause _ := 10

/-- Where `take` of the Cygwin core waits: in `pthread_mutex_lock`, or in its loop. -/
inductive CygwinWait
  | lock
  | loop (start : UInt64) (timeoutMs : UInt32)

/-- `take` of the Cygwin core behind its first try. -/
def cygwin : Policy UInt32 where
  Wait := CygwinWait
  start timeoutMs now := some <|
    if timeoutMs = blockForever then .lock else .loop (micros64 (UInt64.ofNat now)) timeoutMs
  next wait now :=
    match wait with
    | .lock => some .lock
    | .loop start timeoutMs =>
      if micros64 (UInt64.ofNat now) - start < (timeoutMs * 1000).toUInt64 then
        some (.loop start timeoutMs)
      else none
  pause wait :=
    match wait with
    | .lock => 0
    | .loop _ _ => 200

/-! ### What is wanted -/

/-- How many microseconds a take has to wait before it may fail, if it may fail at all. -/
def deadline (timeoutMs : UInt32) : Option ℕ :=
  if timeoutMs = blockForever then none else some (timeoutMs.toNat * 1000)

/-- In every state of every run in which only allowed takes begin, a semaphore is good. -/
def AlwaysGood (policy : Policy UInt32) (allowed : UInt32 → ℕ → Prop) : Prop :=
  ∀ steps, Along Lock.step (fun _ => True) (Legal allowed) (Lock.free : Lock policy) steps →
    Good deadline (runCalls Lock.step (Lock.free : Lock policy) steps)

theorem deadline_of_ne {timeoutMs : UInt32} (nonzero : timeoutMs ≠ 0) :
    deadline timeoutMs = some (timeoutMs.toNat * 1000) := if_neg nonzero

theorem toNat_pos_of_ne {timeoutMs : UInt32} (nonzero : timeoutMs ≠ 0) : 0 < timeoutMs.toNat :=
  Nat.pos_of_ne_zero fun zero => nonzero (UInt32.toNat_inj.mp (zero.trans UInt32.toNat_zero.symm))

/-- A taker that comes back too early is enough. -/
theorem not_good_of_log {policy : Policy UInt32} {lock : Lock policy} {returned : Returned UInt32}
    (member : returned ∈ lock.log) (failed : returned.result = false)
    (early : ∀ time, deadline returned.timeout = some time → returned.waited < time) :
    ¬ Good deadline lock := by
  rintro ⟨-, patient⟩
  obtain ⟨time, due, waited⟩ := patient returned member failed
  exact absurd waited (not_le.mpr (early time due))

/-! ### The AVR core -/

section Avr

variable {allowed : UInt32 → ℕ → Prop} {timeoutMs : UInt32} {timeoutTicks : UInt16} {now : ℕ}

/-- How many tries are left. -/
def left (timeoutTicks : UInt16) : ℕ := if timeoutTicks = 0 then 65536 else timeoutTicks.toNat

theorem left_eq (timeoutTicks : UInt16) :
    left timeoutTicks = if timeoutTicks.toNat = 0 then 65536 else timeoutTicks.toNat := by
  rw [left]
  exact if_congr (UInt16.toNat_inj (b := 0)).symm rfl rfl

theorem left_pos (timeoutTicks : UInt16) : 0 < left timeoutTicks := by
  rw [left_eq]
  split <;> omega

/-- A try that fails is one less, and the last one is the end. -/
theorem avr_next (timeoutTicks : UInt16) (now : ℕ) :
    (left timeoutTicks = 1 ∧ avr.next timeoutTicks now = none) ∨
      ∃ less : UInt16, left timeoutTicks = left less + 1 ∧
        avr.next timeoutTicks now = some less := by
  have small := timeoutTicks.toNat_lt
  have one : (1 : UInt16).toNat = 1 := rfl
  have zero : (0 : UInt16).toNat = 0 := rfl
  have less : (timeoutTicks - 1).toNat = (timeoutTicks.toNat + 65535) % 65536 := by
    rw [UInt16.toNat_sub, one]
    omega
  by_cases last : timeoutTicks - 1 > 0
  · refine .inr ⟨timeoutTicks - 1, ?_, if_pos last⟩
    rw [gt_iff_lt, UInt16.lt_iff_toNat_lt, less, zero] at last
    rw [left_eq, left_eq, less]
    split <;> split <;> omega
  · refine .inl ⟨?_, if_neg last⟩
    rw [gt_iff_lt, UInt16.lt_iff_toNat_lt, less, zero] at last
    rw [left_eq]
    split <;> omega

theorem avr_ticks (timeoutMs : UInt32) :
    (timeoutMs * 100).toUInt16.toNat = timeoutMs.toNat * 100 % 65536 := by
  have hundred : (100 : UInt32).toNat = 100 := rfl
  rw [UInt32.toNat_toUInt16, UInt32.toNat_mul, hundred]
  omega

/-- The tries that are left and the time that has passed make up the time-out. -/
def AvrWaiting (timeoutMs : UInt32) (since last : ℕ) (timeoutTicks : UInt16) : Prop :=
  timeoutMs ≠ 0 ∧ since ≤ last ∧ timeoutMs.toNat * 1000 ≤ last - since + left timeoutTicks * 10

theorem avr_keeps (short : ∀ timeoutMs now, allowed timeoutMs now →
    1 ≤ timeoutMs.toNat ∧ timeoutMs.toNat ≤ 655) : Keeps avr deadline allowed AvrWaiting where
  start := by
    intro timeoutMs now wait asked started
    obtain ⟨least, most⟩ := short timeoutMs now asked
    have nonzero : timeoutMs ≠ 0 := fun zero => by
      rw [zero] at least
      exact absurd least (by decide)
    have ticks := avr_ticks timeoutMs
    have wait' : wait = (timeoutMs * 100).toUInt16 :=
      (Option.some.inj ((if_neg nonzero).symm.trans started)).symm
    refine ⟨nonzero, le_rfl, ?_⟩
    rw [wait', left_eq, ticks]
    split <;> omega
  refused := by
    intro timeoutMs now asked refused
    obtain ⟨least, -⟩ := short timeoutMs now asked
    have nonzero : timeoutMs ≠ 0 := fun zero => by
      rw [zero] at least
      exact absurd least (by decide)
    exact nomatch (if_neg nonzero).symm.trans refused
  next := by
    rintro timeoutMs since last now wait wait' ⟨nonzero, order, enough⟩ paused on
    have pause : last + 10 ≤ now := paused
    rcases avr_next wait now with ⟨-, gone⟩ | ⟨less, count, on'⟩
    · exact nomatch gone.symm.trans on
    · rw [Option.some.inj (on'.symm.trans on)] at count
      exact ⟨nonzero, by omega, by omega⟩
  late := by
    rintro timeoutMs since last now wait ⟨nonzero, order, enough⟩ paused gone
    have pause : last + 10 ≤ now := paused
    rcases avr_next wait now with ⟨count, -⟩ | ⟨less, -, on⟩
    · exact ⟨_, deadline_of_ne nonzero, by omega⟩
    · exact nomatch gone.symm.trans on

/-- While the holder keeps the semaphore, a taker tries as often as it may, and gives up. -/
theorem avr_gives_up (since last : ℕ) (timeoutTicks : UInt16) :
    ∃ steps, Along Lock.step (fun _ => True) (Legal allowed)
        (@Lock.contended _ avr timeoutMs since last timeoutTicks) steps ∧
      (⟨1, timeoutMs, last + left timeoutTicks * 10 - since, false⟩ : Returned UInt32) ∈
        (runCalls Lock.step
          (@Lock.contended _ avr timeoutMs since last timeoutTicks) steps).log := by
  induction tries : left timeoutTicks generalizing last timeoutTicks with
  | zero => exact absurd tries (left_pos timeoutTicks).ne'
  | succ count inductionHypothesis =>
    have legal : Legal allowed (@Lock.contended _ avr timeoutMs since last timeoutTicks)
        (.poll 1 (last + 10)) := contended_legal le_rfl
    rcases avr_next timeoutTicks (last + 10) with ⟨one, gone⟩ | ⟨less, more, on⟩
    · refine ⟨[.poll 1 (last + 10)], ⟨trivial, legal, trivial⟩, ?_⟩
      have single : count = 0 := by omega
      rw [runCalls_cons, runCalls_nil, contended_gone gone, single, Nat.zero_add, Nat.one_mul]
      exact List.mem_singleton_self _
    · obtain ⟨steps, along, member⟩ := inductionHypothesis (last + 10) less (by omega)
      have behind : (@Lock.contended _ avr timeoutMs since last timeoutTicks).step
          (.poll 1 (last + 10)) = @Lock.contended _ avr timeoutMs since (last + 10) less :=
        contended_on on
      refine ⟨.poll 1 (last + 10) :: steps, ⟨trivial, legal, by rwa [behind]⟩, ?_⟩
      rw [runCalls_cons, behind]
      have time : last + (count + 1) * 10 - since = last + 10 + count * 10 - since := by omega
      rwa [time]

/-- A semaphore of the AVR core is good for all time-outs from 1 to 655 milliseconds, and for no
other one. -/
theorem avr_good_iff (allowed : UInt32 → ℕ → Prop) : AlwaysGood avr allowed ↔
    ∀ timeoutMs now, allowed timeoutMs now → 1 ≤ timeoutMs.toNat ∧ timeoutMs.toNat ≤ 655 := by
  refine ⟨fun good timeoutMs now asked => ?_, fun short steps legal =>
    good_of_keeps (avr_keeps short) legal⟩
  by_contra long
  by_cases forever : timeoutMs = 0
  · have refused : avr.start timeoutMs now = none := if_pos forever
    obtain ⟨legal, log⟩ := contended_refused asked refused
    refine not_good_of_log (log ▸ List.mem_singleton_self _) rfl (fun time due => ?_) (good _ legal)
    rw [forever] at due
    exact nomatch due
  · have started : avr.start timeoutMs now = some (timeoutMs * 100).toUInt16 := if_neg forever
    obtain ⟨legal, reached⟩ := contended_start asked started
    obtain ⟨steps, along, member⟩ := @avr_gives_up allowed timeoutMs now now
      (timeoutMs * 100).toUInt16
    have whole := legal.append (reached ▸ along)
    have good' := good _ whole
    rw [runCalls_append, reached] at good'
    refine not_good_of_log member rfl (fun time due => ?_) good'
    rw [← Option.some.inj ((deadline_of_ne forever).symm.trans due)]
    have positive := toNat_pos_of_ne forever
    have tries : left (timeoutMs * 100).toUInt16 ≤ 65536 := by
      have small := (timeoutMs * 100).toUInt16.toNat_lt
      rw [left_eq]
      split <;> omega
    simp only
    omega

end Avr

/-! ### The Cygwin core -/

section Cygwin

variable {allowed : UInt32 → ℕ → Prop} {timeoutMs : UInt32} {since now : ℕ}

/-- The time-out is over before the clock starts again. -/
def InTime (timeoutMs : UInt32) (now : ℕ) : Prop :=
  timeoutMs = blockForever ∨ now % 4294967296 + timeoutMs.toNat * 1000 ≤ 4294967296

/-- The clock at a true time. -/
theorem clock_toNat (now : ℕ) : (micros64 (UInt64.ofNat now)).toNat = now % 4294967296 := by
  rw [micros64_toNat, UInt64.toNat_ofNat']
  omega

/-- The product that the clock is compared with. -/
theorem limit_toNat (timeoutMs : UInt32) :
    (timeoutMs * 1000).toUInt64.toNat = timeoutMs.toNat * 1000 % 4294967296 := by
  have thousand : (1000 : UInt32).toNat = 1000 := rfl
  rw [UInt32.toNat_toUInt64, UInt32.toNat_mul, thousand]

theorem cygwin_next (start : UInt64) (timeoutMs : UInt32) (now : ℕ) :
    cygwin.next (.loop start timeoutMs) now =
      if micros64 (UInt64.ofNat now) - start < (timeoutMs * 1000).toUInt64 then
        some (.loop start timeoutMs)
      else none := rfl

/-- A try in the loop that fails is the last one when the clock is past the product. -/
theorem cygwin_gone_iff (start now : ℕ) (timeoutMs : UInt32) :
    cygwin.next (.loop (micros64 (UInt64.ofNat start)) timeoutMs) now = none ↔
      timeoutMs.toNat * 1000 % 4294967296 ≤
        (now % 4294967296 + (18446744073709551616 - start % 4294967296)) % 18446744073709551616 := by
  have passed : ¬ micros64 (UInt64.ofNat now) - micros64 (UInt64.ofNat start) <
      (timeoutMs * 1000).toUInt64 ↔ timeoutMs.toNat * 1000 % 4294967296 ≤
        (now % 4294967296 + (18446744073709551616 - start % 4294967296)) %
          18446744073709551616 := by
    rw [UInt64.lt_iff_toNat_lt, not_lt, limit_toNat, UInt64.toNat_sub, clock_toNat, clock_toNat]
    omega
  rw [← passed, cygwin_next]
  split
  · rename_i early
    exact ⟨nofun, fun late => absurd early late⟩
  · rename_i late
    exact ⟨fun _ => late, fun _ => rfl⟩

/-- A taker waits for the mutex for ever, or in the loop since it came. -/
def CygwinWaiting (timeoutMs : UInt32) (since last : ℕ) (wait : CygwinWait) : Prop :=
  wait = .lock ∨ (wait = .loop (micros64 (UInt64.ofNat since)) timeoutMs ∧ since ≤ last ∧
    timeoutMs ≠ 0 ∧ since % 4294967296 + timeoutMs.toNat * 1000 ≤ 4294967296)

theorem cygwin_keeps (inTime : ∀ timeoutMs now, allowed timeoutMs now → InTime timeoutMs now) :
    Keeps cygwin deadline allowed CygwinWaiting where
  start := by
    intro timeoutMs now wait asked started
    have wait' := (Option.some.inj started).symm
    by_cases forever : timeoutMs = blockForever
    · exact .inl (wait'.trans (if_pos forever))
    · exact .inr ⟨wait'.trans (if_neg forever), le_rfl, forever,
        (inTime timeoutMs now asked).resolve_left forever⟩
  refused := by
    intro timeoutMs now asked refused
    exact nomatch refused
  next := by
    rintro timeoutMs since last now wait wait' (rfl | ⟨rfl, order, rest⟩) paused on
    · exact .inl (Option.some.inj on).symm
    · have pause : last + 200 ≤ now := paused
      refine .inr ⟨?_, by omega, rest⟩
      rw [cygwin_next] at on
      split at on
      · exact (Option.some.inj on).symm
      · exact nomatch on
  late := by
    rintro timeoutMs since last now wait (rfl | ⟨rfl, order, nonzero, small⟩) paused gone
    · exact nomatch gone
    · have pause : last + 200 ≤ now := paused
      refine ⟨_, deadline_of_ne nonzero, ?_⟩
      have passed := (cygwin_gone_iff since now timeoutMs).mp gone
      have positive := toNat_pos_of_ne nonzero
      omega

/-- When a taker in the loop gives up too early. -/
theorem cygwin_early (nonzero : timeoutMs ≠ 0)
    (long : 4294967296 < now % 4294967296 + timeoutMs.toNat * 1000) :
    ∃ elapsed, 200 ≤ elapsed ∧ elapsed < timeoutMs.toNat * 1000 ∧
      cygwin.next (.loop (micros64 (UInt64.ofNat now)) timeoutMs) (now + elapsed) = none := by
  have positive := toNat_pos_of_ne nonzero
  rcases Nat.eq_zero_or_pos (now % 4294967296) with zero | later
  · -- the clock does not start again, but the product has lost its high bits
    refine ⟨max 200 (timeoutMs.toNat * 1000 % 4294967296), le_max_left _ _, by omega, ?_⟩
    rw [cygwin_gone_iff]
    omega
  · refine ⟨max 200 (4294967296 - now % 4294967296), le_max_left _ _, by omega, ?_⟩
    rw [cygwin_gone_iff]
    omega

/-- A semaphore of the Cygwin core is good for all time-outs that are over before the clock starts
again, and for no other one. -/
theorem cygwin_good_iff (allowed : UInt32 → ℕ → Prop) : AlwaysGood cygwin allowed ↔
    ∀ timeoutMs now, allowed timeoutMs now → InTime timeoutMs now := by
  refine ⟨fun good timeoutMs now asked => ?_, fun inTime steps legal =>
    good_of_keeps (cygwin_keeps inTime) legal⟩
  refine or_iff_not_imp_left.mpr fun nonzero => ?_
  by_contra long
  obtain ⟨elapsed, pause, early, gone⟩ := cygwin_early nonzero (not_le.mp long)
  have started : cygwin.start timeoutMs now =
      some (.loop (micros64 (UInt64.ofNat now)) timeoutMs) := congrArg some (if_neg nonzero)
  obtain ⟨legal, reached⟩ := contended_start asked started
  have last : Along Lock.step (fun _ => True) (Legal allowed) (@Lock.contended _ cygwin timeoutMs now
      now (.loop (micros64 (UInt64.ofNat now)) timeoutMs)) [.poll 1 (now + elapsed)] :=
    ⟨trivial, contended_legal (Nat.add_le_add_left pause now), trivial⟩
  have good' := good _ (legal.append (reached ▸ last))
  rw [runCalls_append, reached, runCalls_cons, runCalls_nil] at good'
  refine not_good_of_log (contended_gone gone ▸ List.mem_singleton_self _) rfl (fun time due => ?_)
    good'
  rw [← Option.some.inj ((deadline_of_ne nonzero).symm.trans due)]
  simp only
  omega

end Cygwin

/-- Both cores: for which time-outs, and when, no taker gives up too early. -/
theorem semaphores_good_iff (allowed : UInt32 → ℕ → Prop) :
    (AlwaysGood avr allowed ↔ ∀ timeoutMs now, allowed timeoutMs now →
        1 ≤ timeoutMs.toNat ∧ timeoutMs.toNat ≤ 655) ∧
      (AlwaysGood cygwin allowed ↔ ∀ timeoutMs now, allowed timeoutMs now → InTime timeoutMs now) :=
  ⟨avr_good_iff allowed, cygwin_good_iff allowed⟩

/-- On the AVR core a taker that is to wait for ever gives up at once. -/
theorem not_good_forever : ¬ AlwaysGood avr fun timeoutMs _ => timeoutMs = blockForever := by
  intro good
  obtain ⟨legal, log⟩ := @contended_refused UInt32 avr (fun timeoutMs _ => timeoutMs = blockForever)
    blockForever 0 rfl rfl
  obtain ⟨-, patient⟩ := good _ legal
  obtain ⟨time, due, -⟩ := patient ⟨1, blockForever, 0, false⟩ (log ▸ List.mem_singleton_self _) rfl
  exact nomatch due

end Urus.Semaphores
