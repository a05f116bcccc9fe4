/-
This file models how the AVR core captures the pulses of a PPM-sum receiver. A timer counts up to 40000
and wraps, and each edge gives its value. What lies between two edges is a channel, or the gap in front
of a frame if it is long.

The values that are reported are those behind a gap exactly if no frame is taken before the first gap.
The capture starts as if there had been a gap, and as if an edge had been seen when the timer started.
-/

import Mathlib.Tactic
import Urus.Lib.Framing
import Urus.Lib.Since

namespace Urus.AvrRcInput

/-! ### The code -/

/-- `AVR_RC_INPUT_NUM_CHANNELS`. -/
def avrRcInputNumChannels : ℕ := 11

/-- `AVR_RC_INPUT_MIN_CHANNELS`. -/
def avrRcInputMinChannels : ℕ := 5

/-- `AVR_RC_INPUT_MIN_SYNC_PULSE_WIDTH`. -/
def avrRcInputMinSyncPulseWidth : ℕ := 2700

/-- The static variables of the capture. -/
structure RcInput where
  icr5Prev : ℕ
  channelCtr : ℕ
  pulseCapt : List ℕ
  numChannels : ℕ
  deriving DecidableEq

/-- A write to an element of `_pulse_capt`, or to `_new_input`. -/
inductive Event
  | access (index : ℕ)
  | newInput
  deriving DecidableEq

/-- The capture at a reset. -/
def reset : RcInput := ⟨0, 0, List.replicate avrRcInputNumChannels 0, 0⟩

/-- `pulse_width`, in 16 bits. -/
def pulseWidth (prev current : ℕ) : ℕ :=
  if current < prev then (current + 40000 - prev) % 2 ^ 16 else current - prev

/-- A width that is stored as the next channel. -/
def RcInput.store (rc : RcInput) (width : ℕ) : RcInput :=
  { rc with pulseCapt := rc.pulseCapt.set rc.channelCtr width, channelCtr := rc.channelCtr + 1 }

/-- What is done with a width. -/
def RcInput.handle (rc : RcInput) (width : ℕ) : RcInput × List Event :=
  if avrRcInputMinSyncPulseWidth * 2 < width then
    if avrRcInputMinChannels ≤ rc.channelCtr then
      ({ rc with numChannels := rc.channelCtr, channelCtr := 0 }, [.newInput])
    else ({ rc with channelCtr := 0 }, [])
  else if rc.channelCtr < avrRcInputNumChannels then
    if (rc.store width).channelCtr = avrRcInputNumChannels then
      ({ rc.store width with numChannels := avrRcInputNumChannels },
        [.access rc.channelCtr, .newInput])
    else (rc.store width, [.access rc.channelCtr])
  else (rc, [])

/-- `_timer5_capt_cb`. -/
def RcInput.timer5CaptCb (rc : RcInput) (icr5Current : ℕ) : RcInput × List Event :=
  let (next, events) := rc.handle (pulseWidth rc.icr5Prev icr5Current)
  ({ next with icr5Prev := icr5Current }, events)

/-! ### Runs -/

/-- The capture, and the ticks since the timer has started. -/
structure Clocked where
  ticks : ℕ
  rc : RcInput
  deriving DecidableEq

/-- An edge, so many ticks behind the last one. -/
def Clocked.edge (clocked : Clocked) (interval : ℕ) : Clocked × List Event :=
  let ticks := clocked.ticks + interval
  let (rc, events) := clocked.rc.timer5CaptCb (ticks % 40000)
  (⟨ticks, rc⟩, events)

/-- The capture behind its first edge, so many ticks from the start, and the intervals that follow. -/
def after (first : ℕ) (intervals : List ℕ) : Clocked :=
  (Framing.run Clocked.edge ⟨0, reset⟩ (first :: intervals)).1

/-- An interval that synchronises. -/
def IsSync (interval : ℕ) : Prop := 5400 < interval

instance : DecidablePred IsSync := fun interval => inferInstanceAs (Decidable (5400 < interval))

/-- What is reported at an edge are the intervals directly behind one that synchronises. -/
def Right (earlier : List ℕ) (interval : ℕ) (rc : RcInput) : Prop :=
  ∃ before sync frame rest, earlier ++ [interval] = before ++ sync :: (frame ++ rest) ∧
    IsSync sync ∧ (∀ width ∈ frame, ¬IsSync width) ∧
    frame.length = rc.numChannels ∧ rc.pulseCapt.take rc.numChannels = frame

/-- A run accesses `_pulse_capt` inside, and reports right at each edge. The first edge is not behind
an interval, and is not to report anything. -/
structure Correct (first : ℕ) (intervals : List ℕ) : Prop where
  inside : ∀ index,
    .access index ∈ (Framing.run Clocked.edge ⟨0, reset⟩ (first :: intervals)).2 →
      index < avrRcInputNumChannels
  quiet : .newInput ∉ (Clocked.edge ⟨0, reset⟩ first).2
  right : ∀ earlier interval later, intervals = earlier ++ interval :: later →
    .newInput ∈ ((after first earlier).edge interval).2 →
      Right earlier interval ((after first earlier).edge interval).1.rc

/-- The intervals before the first one that synchronises. -/
def leading (intervals : List ℕ) : List ℕ := intervals.takeWhile fun width => !decide (IsSync width)

/-- What the value of the timer at the first edge is taken for: a gap, or a channel. -/
def phantoms (first : ℕ) : ℕ := if IsSync (first % 40000) then 0 else 1

/-- Before the first interval that synchronises there are too few for a frame. -/
def StartsBetweenFrames (first : ℕ) (intervals : List ℕ) : Prop :=
  phantoms first + (leading intervals).length <
    if ∃ sync ∈ intervals, IsSync sync then avrRcInputMinChannels else avrRcInputNumChannels

/-! ### One edge -/

/-- The difference of two values of the timer is the interval between them. -/
theorem pulseWidth_eq (ticks : ℕ) {interval : ℕ} (short : interval < 40000) :
    pulseWidth (ticks % 40000) ((ticks + interval) % 40000) = interval := by
  rw [pulseWidth]
  split <;> omega

theorem pulseWidth_zero (current : ℕ) : pulseWidth 0 current = current := by
  rw [pulseWidth, if_neg (Nat.not_lt_zero _), Nat.sub_zero]

/-- The widths that have been measured, and what is kept of them: those since the last gap, as far as
they have a place. -/
structure Captured (widths : List ℕ) (rc : RcInput) : Prop where
  full : rc.pulseCapt.length = avrRcInputNumChannels
  counter : rc.channelCtr = min (Since.since IsSync widths).length avrRcInputNumChannels
  capt : rc.pulseCapt.take rc.channelCtr = (Since.since IsSync widths).take avrRcInputNumChannels

/-- A frame is taken to be over: a gap follows enough channels, or the last channel comes. -/
def FrameEnds (widths : List ℕ) (width : ℕ) : Prop :=
  IsSync width ∧ avrRcInputMinChannels ≤ (Since.since IsSync widths).length ∨
    ¬IsSync width ∧ (Since.since IsSync widths).length + 1 = avrRcInputNumChannels

/-- What a width does. -/
structure Handled (widths : List ℕ) (width : ℕ) (outcome : RcInput × List Event) : Prop where
  captured : Captured (widths ++ [width]) outcome.1
  ends : .newInput ∈ outcome.2 ↔ FrameEnds widths width
  reported : .newInput ∈ outcome.2 →
    ∃ frame rest, Since.since IsSync widths ++ [width] = frame ++ rest ∧
      (∀ width ∈ frame, ¬IsSync width) ∧ frame.length = outcome.1.numChannels ∧
      avrRcInputMinChannels ≤ frame.length ∧ outcome.1.pulseCapt.take frame.length = frame

section Handled

variable {widths : List ℕ} {rc : RcInput} {width : ℕ}

section

variable (captured : Captured widths rc)

include captured

theorem Captured.gap (long : IsSync width) (numChannels : ℕ) :
    Captured (widths ++ [width]) { rc with numChannels := numChannels, channelCtr := 0 } where
  full := captured.full
  counter := by rw [Since.since_mark long]; rfl
  capt := by rw [Since.since_mark long]; rfl

theorem Captured.handled_gap (long : IsSync width) :
    Handled widths width (rc.handle width) := by
  have counter := captured.counter
  have few : avrRcInputMinChannels < avrRcInputNumChannels := by decide
  rw [RcInput.handle, if_pos (show avrRcInputMinSyncPulseWidth * 2 < width from long)]
  split
  case isTrue enough =>
    refine ⟨captured.gap long _, ?_, fun _ => ?_⟩
    · exact iff_of_true (List.mem_singleton_self _) (.inl ⟨long, by omega⟩)
    · refine ⟨(Since.since IsSync widths).take avrRcInputNumChannels,
        (Since.since IsSync widths).drop avrRcInputNumChannels ++ [width], ?_, ?_, ?_, ?_, ?_⟩
      · rw [← List.append_assoc, List.take_append_drop]
      · exact fun width member => Since.not_mark_of_mem_since (List.mem_of_mem_take member)
      · rw [List.length_take, counter, min_comm]
      · rw [List.length_take]
        omega
      · rw [List.length_take, min_comm, ← counter]
        exact captured.capt
  case isFalse enough =>
    refine ⟨captured.gap long _, ?_, fun published => absurd published List.not_mem_nil⟩
    refine iff_of_false List.not_mem_nil fun ends => ?_
    rcases ends with ⟨-, some_channels⟩ | ⟨short, -⟩
    · omega
    · exact short long

theorem Captured.store (short : ¬IsSync width)
    (room : rc.channelCtr < avrRcInputNumChannels) :
    Captured (widths ++ [width]) (rc.store width) ∧
      (rc.store width).channelCtr = (Since.since IsSync widths ++ [width]).length ∧
      (rc.store width).pulseCapt.take (rc.store width).channelCtr =
        Since.since IsSync widths ++ [width] := by
  have counter := captured.counter
  have few : (Since.since IsSync widths).length ≤ avrRcInputNumChannels := by omega
  have capt : rc.pulseCapt.take rc.channelCtr = Since.since IsSync widths :=
    captured.capt.trans (List.take_of_length_le few)
  have stored : (rc.store width).pulseCapt.take (rc.store width).channelCtr =
      Since.since IsSync widths ++ [width] := by
    rw [RcInput.store, Since.take_set (room.trans_eq captured.full.symm), capt]
  have length : (rc.store width).channelCtr = (Since.since IsSync widths ++ [width]).length := by
    rw [List.length_append, List.length_singleton]
    change rc.channelCtr + 1 = _
    omega
  refine ⟨⟨?_, ?_, ?_⟩, length, stored⟩
  · rw [RcInput.store, List.length_set, captured.full]
  · rw [Since.since_plain short, length, min_eq_left]
    rw [← length, RcInput.store]
    exact room
  · rw [Since.since_plain short, stored, List.take_of_length_le]
    rw [← length, RcInput.store]
    exact room

/-- A channel ends a frame only if it has the last place. -/
theorem Captured.handled_channel (short : ¬IsSync width) :
    Handled widths width (rc.handle width) := by
  have counter := captured.counter
  rw [RcInput.handle, if_neg (show ¬avrRcInputMinSyncPulseWidth * 2 < width from short)]
  split
  case isTrue room =>
    obtain ⟨captured, length, stored⟩ := captured.store short room
    rw [List.length_append, List.length_singleton] at length
    split
    case isTrue last =>
      refine ⟨⟨captured.full, captured.counter, captured.capt⟩, ?_, fun _ => ?_⟩
      · exact iff_of_true (List.mem_cons_of_mem _ (List.mem_singleton_self _))
          (.inr ⟨short, length.symm.trans last⟩)
      · rw [last] at stored length
        refine ⟨_, [], (List.append_nil _).symm, ?_, ?_, ?_, ?_⟩
        · rw [← Since.since_plain short]
          exact fun _ => Since.not_mark_of_mem_since
        · rw [List.length_append, List.length_singleton, ← length]
        · rw [List.length_append, List.length_singleton, ← length]
          decide
        · rw [List.length_append, List.length_singleton, ← length]
          exact stored
    case isFalse more =>
      refine ⟨captured, ?_, fun published => absurd published (by simp)⟩
      refine iff_of_false (by simp) fun ends => ?_
      rcases ends with ⟨long, -⟩ | ⟨-, last⟩
      · exact short long
      · exact more (length.trans last)
  case isFalse room =>
    refine ⟨⟨captured.full, ?_, ?_⟩, ?_, fun published => absurd published List.not_mem_nil⟩
    · rw [Since.since_plain short, List.length_append]
      change rc.channelCtr = _
      omega
    · rw [Since.since_plain short, captured.capt, List.take_append_of_le_length (by omega)]
    · refine iff_of_false List.not_mem_nil fun ends => ?_
      rcases ends with ⟨long, -⟩ | ⟨-, last⟩
      · exact short long
      · omega

theorem Captured.handled (width : ℕ) :
    Handled widths width (rc.handle width) := by
  by_cases long : IsSync width
  · exact captured.handled_gap long
  · exact captured.handled_channel long

end

end Handled

/-! ### The run -/

theorem handle_inside (rc : RcInput) (width : ℕ) : ∀ event ∈ (rc.handle width).2,
    ∀ index, event = .access index → index < avrRcInputNumChannels := by
  intro event member index access
  rw [RcInput.handle] at member
  split at member
  · split at member <;> simp [access] at member
  · split at member
    case isTrue room => split at member <;> simp_all
    case isFalse => exact absurd member List.not_mem_nil

theorem Captured.edge {widths : List ℕ} {clocked : Clocked} (captured : Captured widths clocked.rc)
    {interval width : ℕ}
    (measured : pulseWidth clocked.rc.icr5Prev ((clocked.ticks + interval) % 40000) = width) :
    Handled widths width ((clocked.edge interval).1.rc, (clocked.edge interval).2) := by
  obtain ⟨captured, ends, reported⟩ := captured.handled width
  rw [← measured] at captured ends reported ⊢
  exact ⟨⟨captured.full, captured.counter, captured.capt⟩, ends, reported⟩

theorem captured_reset : Captured [] reset := ⟨List.length_replicate, rfl, rfl⟩

theorem handled_first (first : ℕ) :
    Handled [] (first % 40000) ((Clocked.edge ⟨0, reset⟩ first).1.rc,
      (Clocked.edge ⟨0, reset⟩ first).2) :=
  @Captured.edge [] ⟨0, reset⟩ captured_reset first _ (by rw [Nat.zero_add, reset, pulseWidth_zero])

theorem after_append (first : ℕ) (intervals : List ℕ) (interval : ℕ) :
    after first (intervals ++ [interval]) = ((after first intervals).edge interval).1 := by
  rw [after, ← List.cons_append, Framing.run_append, Framing.run_singleton, after]

/-- Behind a row of intervals, these have been measured. -/
theorem captured_after (first : ℕ) {intervals : List ℕ} (short : ∀ width ∈ intervals, width < 40000) :
    Captured (first % 40000 :: intervals) (after first intervals).rc ∧
      (after first intervals).rc.icr5Prev = (after first intervals).ticks % 40000 := by
  induction intervals using List.reverseRecOn with
  | nil => exact ⟨(handled_first first).captured, rfl⟩
  | append_singleton earlier interval inductionHypothesis =>
    obtain ⟨captured, prev⟩ := inductionHypothesis fun width member =>
      short width (List.mem_append_left _ member)
    have measured := pulseWidth_eq (after first earlier).ticks
      (short interval (List.mem_append_right _ (List.mem_singleton_self _)))
    rw [← prev] at measured
    rw [after_append]
    exact ⟨(captured.edge measured).captured, rfl⟩

theorem handled_after (first : ℕ) {earlier later : List ℕ} {interval : ℕ}
    (short : ∀ width ∈ earlier ++ interval :: later, width < 40000) :
    Handled (first % 40000 :: earlier) interval
      (((after first earlier).edge interval).1.rc, ((after first earlier).edge interval).2) := by
  obtain ⟨captured, prev⟩ := captured_after first fun width member =>
    short width (List.mem_append_left _ member)
  refine captured.edge ?_
  rw [prev]
  exact pulseWidth_eq _ (short interval (List.mem_append_right _ List.mem_cons_self))

/-- A report is right exactly if there has been a gap. -/
theorem Handled.right_iff {first interval : ℕ} {earlier : List ℕ} {outcome : RcInput × List Event}
    (handled : Handled (first :: earlier) interval outcome) (published : .newInput ∈ outcome.2) :
    Right earlier interval outcome.1 ↔ ∃ sync ∈ earlier, IsSync sync := by
  obtain ⟨frame, rest, split, channels, count, enough, capt⟩ := handled.reported published
  constructor
  · rintro ⟨before, sync, frame', rest', whole, long, -, count', -⟩
    have some_frame : frame' ++ rest' ≠ [] := by
      have positive : 0 < avrRcInputMinChannels := by decide
      exact List.append_ne_nil_of_left_ne_nil (List.ne_nil_of_length_pos (by omega)) _
    obtain ⟨front, last, split'⟩ := List.eq_nil_or_concat (frame' ++ rest') |>.resolve_left some_frame
    rw [split', List.concat_eq_append, ← List.cons_append, ← List.append_assoc] at whole
    exact ⟨sync, (List.append_inj_left' whole rfl) ▸ by simp, long⟩
  · intro some_sync
    obtain ⟨before, sync, whole, long⟩ := Since.exists_eq_since some_sync
    have same : Since.since IsSync (first :: earlier) = Since.since IsSync earlier := by
      nth_rewrite 1 [whole]
      rw [← List.cons_append]
      exact Since.since_behind_mark long fun _ => Since.not_mark_of_mem_since
    refine ⟨before, sync, frame, rest, ?_, long, channels, count, count ▸ capt⟩
    rw [← split, same]
    nth_rewrite 1 [whole]
    rw [List.append_assoc, List.cons_append]

/-! ### The start -/

/-- Without a gap, all intervals and what the first edge was taken for are kept. -/
theorem length_since_leading (first : ℕ) {earlier : List ℕ} (plain : ∀ width ∈ earlier, ¬IsSync width) :
    (Since.since IsSync (first % 40000 :: earlier)).length = phantoms first + earlier.length := by
  rw [← List.singleton_append, Since.since_append plain, List.length_append, phantoms]
  split
  case isTrue long => rw [← List.nil_append [first % 40000], Since.since_mark long, List.length_nil]
  case isFalse short => rw [← List.nil_append [first % 40000], Since.since_plain short]; rfl

theorem leading_split {intervals : List ℕ} (some_sync : ∃ sync ∈ intervals, IsSync sync) :
    ∃ sync later, intervals = leading intervals ++ sync :: later ∧ IsSync sync := by
  induction intervals with
  | nil => exact absurd some_sync (by simp)
  | cons width rest inductionHypothesis =>
    by_cases long : IsSync width
    · exact ⟨width, rest, by simp [leading, long], long⟩
    · obtain ⟨sync, later, split, isSync⟩ := inductionHypothesis (by simpa [long] using some_sync)
      refine ⟨sync, later, ?_, isSync⟩
      rw [leading, List.takeWhile_cons_of_pos (by simp [long]), List.cons_append]
      exact congrArg _ split

theorem not_isSync_of_mem_leading {intervals : List ℕ} {width : ℕ}
    (member : width ∈ leading intervals) : ¬IsSync width := by
  simpa using List.mem_takeWhile_imp member

theorem leading_append {earlier : List ℕ} (later : List ℕ) (plain : ∀ width ∈ earlier, ¬IsSync width) :
    leading (earlier ++ later) = earlier ++ leading later :=
  List.takeWhile_append_of_pos (by simpa using plain)

theorem ends_behind_sync_iff (first : ℕ) (intervals : List ℕ) :
    (∀ earlier interval later, intervals = earlier ++ interval :: later →
      FrameEnds (first % 40000 :: earlier) interval → ∃ sync ∈ earlier, IsSync sync) ↔
    StartsBetweenFrames first intervals := by
  rw [StartsBetweenFrames]
  have few : avrRcInputMinChannels < avrRcInputNumChannels := by decide
  constructor
  · intro behind
    by_contra! many
    split at many
    case isTrue some_sync =>
      obtain ⟨sync, later, split, long⟩ := leading_split some_sync
      have length := length_since_leading first fun width =>
        @not_isSync_of_mem_leading intervals width
      obtain ⟨other, member, isSync⟩ := behind _ sync later split (.inl ⟨long, by omega⟩)
      exact not_isSync_of_mem_leading member isSync
    case isFalse none =>
      have plain : ∀ width ∈ intervals, ¬IsSync width := fun width member isSync =>
        none ⟨width, member, isSync⟩
      have whole : leading intervals = intervals := List.takeWhile_eq_self_iff.mpr (by simpa using plain)
      have phantom : phantoms first ≤ 1 := by
        rw [phantoms]
        split <;> decide
      rw [whole, avrRcInputNumChannels] at many
      have inside : 10 - phantoms first < intervals.length := by omega
      -- the interval that takes the last place
      have parts : intervals = intervals.take (10 - phantoms first) ++
          intervals[10 - phantoms first] :: intervals.drop (10 - phantoms first + 1) := by
        rw [← List.drop_eq_getElem_cons inside, List.take_append_drop]
      have early : ∀ width ∈ intervals.take (10 - phantoms first), ¬IsSync width :=
        fun width member => plain width (List.mem_of_mem_take member)
      have length := length_since_leading first early
      rw [List.length_take_of_le inside.le] at length
      have last : FrameEnds (first % 40000 :: intervals.take (10 - phantoms first))
          intervals[10 - phantoms first] :=
        .inr ⟨plain _ (List.getElem_mem inside), by rw [length, avrRcInputNumChannels]; omega⟩
      obtain ⟨other, member, isSync⟩ := behind _ _ _ parts last
      exact early other member isSync
  · intro starts earlier interval later split ends
    by_contra none
    have plain : ∀ width ∈ earlier, ¬IsSync width := fun width member isSync =>
      none ⟨width, member, isSync⟩
    have length := length_since_leading first plain
    rw [split, leading_append _ plain, List.length_append] at starts
    rcases ends with ⟨long, enough⟩ | ⟨plainInterval, last⟩
    · rw [if_pos ⟨interval, by simp, long⟩] at starts
      omega
    · rw [leading, List.takeWhile_cons_of_pos (by simp [plainInterval]), List.length_cons] at starts
      split at starts <;> omega

theorem correct_iff (first : ℕ) (intervals : List ℕ) (short : ∀ width ∈ intervals, width < 40000) :
    Correct first intervals ↔ StartsBetweenFrames first intervals := by
  rw [← ends_behind_sync_iff]
  have handled : ∀ {earlier interval later}, intervals = earlier ++ interval :: later →
      Handled (first % 40000 :: earlier) interval
        (((after first earlier).edge interval).1.rc, ((after first earlier).edge interval).2) :=
    fun split => handled_after first (split ▸ short)
  constructor
  · intro correct earlier interval later split ends
    have published := (handled split).ends.mpr ends
    exact ((handled split).right_iff published).mp (correct.right earlier interval later split published)
  · intro behind
    refine ⟨fun index member => ?_, fun published => ?_, fun earlier interval later split published =>
      ((handled split).right_iff published).mpr
        (behind earlier interval later split ((handled split).ends.mp published))⟩
    · exact Framing.run_events Clocked.edge (fun clocked interval =>
        handle_inside clocked.rc _) _ _ _ member index rfl
    · rcases (handled_first first).ends.mp published with ⟨-, enough⟩ | ⟨-, last⟩
      · exact absurd enough (by decide)
      · exact absurd last (by decide)

/-- A gap comes first, and the frame of five channels behind it is reported at the next one. -/
theorem correct_iff_frame :
    .newInput ∈ ((after 3000 [8000, 2100, 2200, 2300, 2400, 2500]).edge 8000).2 ∧
      Correct 3000 [8000, 2100, 2200, 2300, 2400, 2500, 8000] :=
  ⟨by decide, (correct_iff 3000 [8000, 2100, 2200, 2300, 2400, 2500, 8000] (by decide)).mpr
    (by rw [StartsBetweenFrames]; decide)⟩

/-- The last five channels of a frame that runs at the reset are reported as a frame. -/
theorem not_correct_partial : ¬Correct 20000 [2100, 2200, 2300, 2400, 2500, 8000] := by
  intro correct
  have handled := @handled_after 20000 [2100, 2200, 2300, 2400, 2500] [] 8000 (by decide)
  have published := handled.ends.mpr (.inl ⟨by decide, by decide⟩)
  have right := correct.right [2100, 2200, 2300, 2400, 2500] 8000 [] rfl published
  exact absurd ((handled.right_iff published).mp right) (by decide)

end Urus.AvrRcInput
