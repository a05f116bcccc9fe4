/-
This file models the streams of a link. Every stream is called at 50Hz and counts down
to its next message. How far it counts depends on its rate, which is lowered while a
mission or the parameters are sent, and on the slowdown that the reports of a radio ask
for.

A bit of a mask that all links share says whether the link is streaming. A call of a
stream with a rate sets it. A call of a stream without one is meant to clear it when no
stream has a rate any more.

The rates are exact fractions. What a number becomes that does not fit the counter is
not known, only that it is one that fits.
-/

import Urus.Lib.Trace

namespace Urus.GcsMavlink.Streams

/-! ### The code -/

/-- `streams`, without the number behind the last one, which is refused. -/
inductive Stream
  | rawSensors
  | extendedStatus
  | rcChannels
  | rawController
  | position
  | extra1
  | extra2
  | extra3
  | params
  | adsb
  deriving DecidableEq

/-- The part of a link that is about streams, with the mask of all links. -/
structure Link where
  streamRates : Stream → Int16
  streamTicks : Stream → UInt8
  streamSlowdown : UInt8
  waypointReceiving : Bool
  queuedParameter : Bool
  chanIsStreaming : BitVec 8

/-- The conversion of a number to the counter's type. -/
structure Conversion where
  toByte : ℚ → UInt8
  exact : ∀ number, 0 ≤ number → number < 256 → (toByte number).toNat = ⌊number⌋₊

/-- The bit of a link in the mask. -/
def chanBit (chan : Fin 5) : BitVec 8 := 1#8 <<< chan.val

/-- The rate as the stream takes it, a number of one byte. -/
def Link.rateByte (link : Link) (stream : Stream) : UInt8 :=
  (link.streamRates stream).toUInt16.toUInt8

/-- `adjust_rate_for_stream_trigger`. -/
def adjustRateForStreamTrigger (link : Link) (stream : Stream) : ℚ :=
  if stream ≠ .params ∧ (link.waypointReceiving ∨ link.queuedParameter) then 1 / 4 else 1

/-- The adjusted rate. -/
def Link.rate (link : Link) (stream : Stream) : ℚ :=
  (link.rateByte stream).toNat * adjustRateForStreamTrigger link stream

/-- The loop over the streams before this one, which looks at this one every time. -/
def isStreaming (link : Link) (stream : Stream) : Bool :=
  (List.range stream.ctorIdx).any fun _ => 0 < link.streamRates stream

/-- What the counter is set to. -/
def reload (convert : Conversion) (link : Link) (stream : Stream) : UInt8 :=
  let rate := if link.rate stream > 50 then 50 else link.rate stream
  convert.toByte (50 / rate - 1 + link.streamSlowdown.toNat)

/-- `stream_trigger`. -/
def streamTrigger (convert : Conversion) (chan : Fin 5) (link : Link) (stream : Stream) :
    Bool × Link :=
  if link.rate stream ≤ 0 then
    if link.chanIsStreaming &&& chanBit chan ≠ 0 ∧ isStreaming link stream = false then
      (false, { link with chanIsStreaming := link.chanIsStreaming &&& ~~~chanBit chan })
    else (false, link)
  else
    let link := { link with chanIsStreaming := link.chanIsStreaming ||| chanBit chan }
    if link.streamTicks stream = 0 then
      (true, { link with
        streamTicks := Function.update link.streamTicks stream (reload convert link stream) })
    else
      (false, { link with
        streamTicks := Function.update link.streamTicks stream (link.streamTicks stream - 1) })

/-- The part of `handle_radio_status` that is about the slowdown. -/
def handleRadioStatus (streamSlowdown txbuf : UInt8) : UInt8 :=
  if txbuf < 20 ∧ streamSlowdown < 100 then streamSlowdown + 3
  else if txbuf < 50 ∧ streamSlowdown < 100 then streamSlowdown + 1
  else if txbuf > 95 ∧ streamSlowdown > 10 then streamSlowdown - 2
  else if txbuf > 90 ∧ streamSlowdown ≠ 0 then streamSlowdown - 1
  else streamSlowdown

/-! ### Rates -/

variable {convert : Conversion} {chan : Fin 5} {link : Link} {stream : Stream}

theorem adjustRate_pos : 0 < adjustRateForStreamTrigger link stream := by
  rw [adjustRateForStreamTrigger]
  split <;> norm_num

theorem Link.rate_nonpos : link.rate stream ≤ 0 ↔ link.rateByte stream = 0 := by
  have adjust : 0 < adjustRateForStreamTrigger link stream := adjustRate_pos
  constructor
  · intro none
    have bound : ((link.rateByte stream).toNat : ℚ) ≤ 0 :=
      nonpos_of_mul_nonpos_left none adjust
    exact UInt8.toNat_inj.mp (Nat.le_zero.mp (by exact_mod_cast bound))
  · intro zero
    rw [Link.rate, zero]
    simp

theorem streamTrigger_of_rate (rate : link.rateByte stream ≠ 0) :
    streamTrigger convert chan link stream =
      (decide (link.streamTicks stream = 0), { link with
        chanIsStreaming := link.chanIsStreaming ||| chanBit chan
        streamTicks := Function.update link.streamTicks stream
          (if link.streamTicks stream = 0 then reload convert link stream
          else link.streamTicks stream - 1) }) := by
  rw [streamTrigger, if_neg (mt Link.rate_nonpos.mp rate)]
  dsimp only
  split
  · rename_i zero
    rw [decide_eq_true zero]
    rfl
  · rename_i positive
    rw [decide_eq_false positive]

theorem streamTrigger_of_none (rate : link.rateByte stream = 0) :
    streamTrigger convert chan link stream =
      (false, if link.chanIsStreaming &&& chanBit chan ≠ 0 ∧ isStreaming link stream = false then
        { link with chanIsStreaming := link.chanIsStreaming &&& ~~~chanBit chan } else link) := by
  rw [streamTrigger, if_pos (Link.rate_nonpos.mpr rate)]
  split <;> rfl

/-! ### The slowdown -/

/-- Reports of the radio never slow the streams down by more than 102. -/
theorem handleRadioStatus_le {slowdown txbuf : UInt8} (bound : slowdown ≤ 102) :
    handleRadioStatus slowdown txbuf ≤ 102 := by
  rw [handleRadioStatus]
  rw [UInt8.le_iff_toNat_le] at bound ⊢
  have small : slowdown.toNat ≤ 102 := bound
  show _ ≤ 102
  simp only [UInt8.lt_iff_toNat_lt, gt_iff_lt, ne_eq, ← UInt8.toNat_inj]
  split_ifs with first second third fourth
  · have less : slowdown.toNat < 100 := first.2
    rw [UInt8.toNat_add]
    exact le_trans (Nat.mod_le _ _) (by change _ + 3 ≤ _; omega)
  · have less : slowdown.toNat < 100 := second.2
    rw [UInt8.toNat_add]
    exact le_trans (Nat.mod_le _ _) (by change _ + 1 ≤ _; omega)
  · have more : 10 < slowdown.toNat := third.2
    rw [UInt8.toNat_sub_of_le _ _ (UInt8.le_iff_toNat_le.mpr (by change 2 ≤ _; omega))]
    omega
  · have more : slowdown.toNat ≠ 0 := fourth.2
    rw [UInt8.toNat_sub_of_le _ _ (UInt8.le_iff_toNat_le.mpr (by change 1 ≤ _; omega))]
    omega
  · exact small

theorem slowdown_reached (reports : List UInt8) : runCalls handleRadioStatus 0 reports ≤ 102 :=
  runCalls_invariant (· ≤ 102) (fun _ _ _ => handleRadioStatus_le) (by decide)

/-! ### Countdowns -/

section Countdown

variable {ticks : ℕ → ℕ} {period : ℕ}
  (counts : ∀ time, ticks (time + 1) = if ticks time = 0 then period else ticks time - 1)

include counts

theorem countdown_later (time : ℕ) {later : ℕ} (early : later ≤ ticks time) :
    ticks (time + later) = ticks time - later := by
  induction later with
  | zero => rfl
  | succ later inductionHypothesis =>
    rw [← Nat.add_assoc, counts, inductionHypothesis (Nat.le_of_succ_le early), if_neg (by omega)]
    omega

theorem countdown_zero (time : ℕ) : ticks (time + ticks time) = 0 := by
  rw [countdown_later counts time (le_refl _), Nat.sub_self]

/-- On its way to zero a countdown is not zero. -/
theorem countdown_positive {time other : ℕ} (order : time ≤ other)
    (early : other < time + ticks time) : ticks other ≠ 0 := by
  have waiting := countdown_later counts time (show other - time ≤ ticks time by omega)
  rw [show time + (other - time) = other by omega] at waiting
  omega

/-- From one zero of a countdown to the next it takes the period and one step more. -/
theorem countdown_gap {first second : ℕ} (order : first < second) (isFirst : ticks first = 0)
    (isSecond : ticks second = 0)
    (between : ∀ time, first < time → time < second → ticks time ≠ 0) :
    second - first = period + 1 := by
  have reloaded : ticks (first + 1) = period := by rw [counts, if_pos isFirst]
  have next : ticks (first + 1 + period) = 0 := by
    have zero := countdown_zero counts (first + 1)
    rwa [reloaded] at zero
  have notLater : second ≤ first + 1 + period := by
    by_contra later
    exact between _ (by omega) (by omega) next
  have notEarlier : first + 1 + period ≤ second := by
    by_contra early
    have start : first + 1 ≤ second := order
    exact countdown_positive counts start (by rw [reloaded]; omega) isSecond
  omega

end Countdown

/-! ### Pacing -/

section Pacing

variable (convert : Conversion) (chan : Fin 5) (link : Link) (stream : Stream)

/-- The link after calls of the stream. -/
def after (calls : ℕ) : Link :=
  (fun link => (streamTrigger convert chan link stream).2)^[calls] link

/-- Whether the call behind the first ones triggers. -/
def triggers (calls : ℕ) : Bool :=
  (streamTrigger convert chan (after convert chan link stream calls) stream).1

/-- The number of calls from one message to the next. -/
def pace : ℕ := ⌊50 / link.rate stream⌋₊ + link.streamSlowdown.toNat

/-- Any two consecutive triggers are as many calls apart as they are to be. -/
def Paced : Prop :=
  ∀ first second, first < second → triggers convert chan link stream first = true →
    triggers convert chan link stream second = true →
    (∀ time, first < time → time < second → triggers convert chan link stream time = false) →
    second - first = pace link stream

/-- A link whose counters and mask are others. -/
def Link.counting (streamTicks : Stream → UInt8) (chanIsStreaming : BitVec 8) : Link :=
  { link with streamTicks := streamTicks, chanIsStreaming := chanIsStreaming }

variable {link stream}

section

variable (rate : link.rateByte stream ≠ 0)

include rate

theorem after_of_rate (calls : ℕ) :
    ∃ streamTicks chanIsStreaming, after convert chan link stream calls =
      link.counting streamTicks chanIsStreaming := by
  induction calls with
  | zero => exact ⟨_, _, rfl⟩
  | succ calls inductionHypothesis =>
    obtain ⟨streamTicks, chanIsStreaming, same⟩ := inductionHypothesis
    have kept : (link.counting streamTicks chanIsStreaming).rateByte stream ≠ 0 := rate
    rw [after, Function.iterate_succ_apply', ← after, same, streamTrigger_of_rate kept]
    exact ⟨_, _, rfl⟩

theorem triggers_eq (calls : ℕ) :
    triggers convert chan link stream calls =
      decide (((after convert chan link stream calls).streamTicks stream).toNat = 0) := by
  obtain ⟨streamTicks, chanIsStreaming, same⟩ := after_of_rate convert chan rate calls
  have kept : (link.counting streamTicks chanIsStreaming).rateByte stream ≠ 0 := rate
  rw [triggers, same, streamTrigger_of_rate kept]
  simp only [← UInt8.toNat_inj, UInt8.toNat_zero]

theorem after_counts (calls : ℕ) :
    ((after convert chan link stream (calls + 1)).streamTicks stream).toNat =
      if ((after convert chan link stream calls).streamTicks stream).toNat = 0 then
        (reload convert link stream).toNat
      else ((after convert chan link stream calls).streamTicks stream).toNat - 1 := by
  obtain ⟨streamTicks, chanIsStreaming, same⟩ := after_of_rate convert chan rate calls
  have kept : (link.counting streamTicks chanIsStreaming).rateByte stream ≠ 0 := rate
  rw [after, Function.iterate_succ_apply', ← after, same, streamTrigger_of_rate kept]
  show (Function.update streamTicks stream (if streamTicks stream = 0 then reload convert link stream
      else streamTicks stream - 1) stream).toNat =
    if (streamTicks stream).toNat = 0 then _ else (streamTicks stream).toNat - 1
  rw [Function.update_self]
  by_cases zero : streamTicks stream = 0
  · rw [if_pos zero, if_pos (by rw [zero]; rfl)]
  · have positive : (streamTicks stream).toNat ≠ 0 := fun same =>
      zero (UInt8.toNat_inj.mp (same.trans UInt8.toNat_zero.symm))
    rw [if_neg zero, if_neg positive, UInt8.toNat_sub_of_le]
    · rfl
    · exact UInt8.le_iff_toNat_le.mpr (Nat.one_le_iff_ne_zero.mpr positive)

/-- A stream with a rate is paced exactly when its counter is set to the right number. -/
theorem paced_iff_reload :
    Paced convert chan link stream ↔
      (reload convert link stream).toNat + 1 = pace link stream := by
  let ticks : ℕ → ℕ := fun calls =>
    ((after convert chan link stream calls).streamTicks stream).toNat
  have counts : ∀ calls, ticks (calls + 1) =
      if ticks calls = 0 then (reload convert link stream).toNat else ticks calls - 1 :=
    after_counts convert chan rate
  have isTrigger : ∀ calls, triggers convert chan link stream calls = decide (ticks calls = 0) :=
    triggers_eq convert chan rate
  constructor
  · intro paced
    -- the first two triggers
    have first : ticks (0 + ticks 0) = 0 := countdown_zero counts 0
    rw [Nat.zero_add] at first
    have reloaded : ticks (ticks 0 + 1) = (reload convert link stream).toNat := by
      rw [counts, if_pos first]
    have second : ticks (ticks 0 + 1 + ticks (ticks 0 + 1)) = 0 := countdown_zero counts _
    have apart := paced (ticks 0) (ticks 0 + 1 + ticks (ticks 0 + 1)) (by omega)
      (by rw [isTrigger]; exact decide_eq_true first) (by rw [isTrigger]; exact decide_eq_true second)
      fun time early late => by
        rw [isTrigger]
        exact decide_eq_false (countdown_positive counts early late)
    omega
  · intro right first second order isFirst isSecond between
    rw [← right]
    refine countdown_gap counts order ?_ ?_ fun time early late => ?_
    · exact of_decide_eq_true ((isTrigger first).symm.trans isFirst)
    · exact of_decide_eq_true ((isTrigger second).symm.trans isSecond)
    · exact of_decide_eq_false ((isTrigger time).symm.trans (between time early late))

end

/-! ### The counter's range -/

theorem rateByte_of_small (least : 1 ≤ link.streamRates stream)
    (most : link.streamRates stream ≤ 50) :
    ∃ rate : ℕ, 1 ≤ rate ∧ rate ≤ 50 ∧ link.streamRates stream = Int16.ofNat rate ∧
      (link.rateByte stream).toNat = rate := by
  rw [Int16.le_iff_toInt_le] at least most
  have least : 1 ≤ (link.streamRates stream).toInt := least
  have most : (link.streamRates stream).toInt ≤ 50 := most
  obtain ⟨rate, isRate⟩ := Int.eq_ofNat_of_zero_le (show 0 ≤ (link.streamRates stream).toInt by omega)
  have small : 1 ≤ rate ∧ rate ≤ 50 := by omega
  have same : link.streamRates stream = Int16.ofNat rate := by
    rw [← Int16.ofInt_toInt (link.streamRates stream), isRate]
    rfl
  refine ⟨rate, small.1, small.2, same, ?_⟩
  rw [Link.rateByte, same]
  obtain ⟨least, most⟩ := small
  interval_cases rate <;> rfl

/-- The counter is set to the right number exactly when it has room for it. -/
theorem reload_right (positive : 0 < link.rate stream) (most : link.rate stream ≤ 50) :
    (reload convert link stream).toNat + 1 = pace link stream ↔ pace link stream ≤ 256 := by
  have byte : (reload convert link stream).toNat < 256 := UInt8.toNat_lt _
  have oneMore : 1 ≤ 50 / link.rate stream := (one_le_div positive).mpr most
  have floorPositive : 1 ≤ ⌊50 / link.rate stream⌋₊ := Nat.le_floor (by exact_mod_cast oneMore)
  refine ⟨fun right => by omega, fun room => ?_⟩
  have above : 50 / link.rate stream < ⌊50 / link.rate stream⌋₊ + 1 := Nat.lt_floor_add_one _
  have fits : (⌊50 / link.rate stream⌋₊ : ℚ) + link.streamSlowdown.toNat ≤ 256 := by
    exact_mod_cast room
  have counter : (reload convert link stream).toNat =
      ⌊50 / link.rate stream - 1 + link.streamSlowdown.toNat⌋₊ := by
    rw [reload, if_neg (not_lt.mpr most)]
    exact convert.exact _ (by linarith [link.streamSlowdown.toNat.cast_nonneg (α := ℚ)]) (by linarith)
  rw [counter, Nat.floor_add_natCast (by linarith), Nat.floor_sub_one, pace]
  omega

/-- The pace fits the counter unless a rate of 1 is lowered and the radio is slow. -/
theorem pace_le_iff (slow : link.streamSlowdown ≤ 102) (least : 1 ≤ link.streamRates stream)
    (most : link.streamRates stream ≤ 50) :
    pace link stream ≤ 256 ↔
      ¬ (link.streamRates stream = 1 ∧ adjustRateForStreamTrigger link stream = 1 / 4 ∧
        57 ≤ link.streamSlowdown) := by
  obtain ⟨rate, positive, small, isRate, byte⟩ := rateByte_of_small least most
  have bound : link.streamSlowdown.toNat ≤ 102 := UInt8.le_iff_toNat_le.mp slow
  have threshold : 57 ≤ link.streamSlowdown ↔ 57 ≤ link.streamSlowdown.toNat :=
    UInt8.le_iff_toNat_le
  have isOne : link.streamRates stream = 1 ↔ rate = 1 := by
    rw [isRate]
    interval_cases rate <;> decide
  have cast : (1 : ℚ) ≤ rate := by exact_mod_cast positive
  rw [threshold, isOne, pace, Link.rate, byte]
  by_cases busy : adjustRateForStreamTrigger link stream = 1 / 4
  · rw [busy]
    by_cases one : rate = 1
    · have quotient : ⌊(50 : ℚ) / ((1 : ℕ) * (1 / 4))⌋₊ = 200 := by norm_num
      rw [one, quotient]
      simp only [true_and, not_le]
      omega
    · have two : (2 : ℚ) ≤ rate := by exact_mod_cast (show 2 ≤ rate by omega)
      have quotient : ⌊(50 : ℚ) / (rate * (1 / 4))⌋₊ ≤ 100 := by
        refine Nat.floor_le_of_le ?_
        rw [div_le_iff₀ (by linarith)]
        push_cast
        linarith
      exact iff_of_true (by omega) fun wrong => one wrong.1
  · have full : adjustRateForStreamTrigger link stream = 1 := by
      rw [adjustRateForStreamTrigger] at busy ⊢
      split at busy
      · exact absurd rfl busy
      · rename_i idle
        exact if_neg idle
    have quotient : ⌊(50 : ℚ) / (rate * 1)⌋₊ ≤ 50 := by
      refine Nat.floor_le_of_le ?_
      rw [div_le_iff₀ (by linarith)]
      push_cast
      linarith
    rw [full]
    exact iff_of_true (by omega) fun wrong => absurd wrong.2.1 (by norm_num)

/-- Whatever the radio has reported, a stream with a rate from 1 to 50 is paced as it is to be,
unless its rate is 1, it is lowered, and the slowdown is 57 or more. -/
theorem paced_iff_fits (convert : Conversion) (chan : Fin 5) (link : Link) (stream : Stream)
    (reports : List UInt8) (reported : link.streamSlowdown = runCalls handleRadioStatus 0 reports)
    (least : 1 ≤ link.streamRates stream) (most : link.streamRates stream ≤ 50) :
    Paced convert chan link stream ↔
      ¬ (link.streamRates stream = 1 ∧ adjustRateForStreamTrigger link stream = 1 / 4 ∧
        57 ≤ link.streamSlowdown) := by
  obtain ⟨rate, positive, small, -, byte⟩ := rateByte_of_small least most
  have adjust : 0 < adjustRateForStreamTrigger link stream := adjustRate_pos
  have adjustSmall : adjustRateForStreamTrigger link stream ≤ 1 := by
    rw [adjustRateForStreamTrigger]
    split <;> norm_num
  have lower : (0 : ℚ) < rate := by exact_mod_cast positive
  have upper : (rate : ℚ) ≤ 50 := by exact_mod_cast small
  have present : link.rateByte stream ≠ 0 := fun none => by
    rw [none] at byte
    exact absurd byte (by rw [UInt8.toNat_zero]; omega)
  have isRate : link.rate stream = rate * adjustRateForStreamTrigger link stream := by
    rw [Link.rate, byte]
  rw [paced_iff_reload convert chan present, reload_right, pace_le_iff _ least most]
  · exact reported ▸ slowdown_reached reports
  · rw [isRate]
    positivity
  · rw [isRate]
    nlinarith

end Pacing

/-! ### A lowered stream -/

/-- The conversion that keeps the low byte. -/
def lowByte : Conversion where
  toByte number := UInt8.ofNat ⌊number⌋₊
  exact number positive small := by
    refine UInt8.toNat_ofNat_of_lt ?_
    exact (Nat.floor_lt positive).mpr (by exact_mod_cast small)

/-- The stream of the raw sensors has the rate 1 while a mission is received. -/
def loweredLink (streamSlowdown : UInt8) : Link where
  streamRates stream := if stream = .rawSensors then 1 else 0
  streamTicks _ := 0
  streamSlowdown := streamSlowdown
  waypointReceiving := true
  queuedParameter := false
  chanIsStreaming := 0

theorem loweredLink_rate (streamSlowdown : UInt8) :
    (loweredLink streamSlowdown).rate .rawSensors = 1 / 4 := by
  rw [Link.rate, adjustRateForStreamTrigger, if_pos ⟨by decide, Or.inl rfl⟩,
    show ((loweredLink streamSlowdown).rateByte .rawSensors).toNat = 1 from rfl]
  norm_num

theorem loweredLink_reload (streamSlowdown : UInt8) :
    reload lowByte (loweredLink streamSlowdown) .rawSensors =
      UInt8.ofNat (199 + streamSlowdown.toNat) := by
  rw [reload, loweredLink_rate, if_neg (by norm_num), lowByte]
  dsimp only [loweredLink]
  congr 1
  rw [show (50 : ℚ) / (1 / 4) - 1 + streamSlowdown.toNat = (199 + streamSlowdown.toNat : ℕ) by
    push_cast; ring, Nat.floor_natCast]

theorem paced_iff_fits_lowered :
    ((loweredLink 56).streamSlowdown = runCalls handleRadioStatus 0 (List.replicate 18 0 ++ [40, 40]) ∧
        1 ≤ (loweredLink 56).streamRates .rawSensors ∧
        (loweredLink 56).streamRates .rawSensors ≤ 50) ∧
      Paced lowByte 0 (loweredLink 56) .rawSensors := by
  have reported : (loweredLink 56).streamSlowdown =
      runCalls handleRadioStatus 0 (List.replicate 18 0 ++ [40, 40]) := by decide +kernel
  refine ⟨⟨reported, by decide, by decide⟩, ?_⟩
  exact (paced_iff_fits lowByte 0 (loweredLink 56) .rawSensors _ reported (by decide)
    (by decide)).mpr fun wrong => absurd wrong.2.2 (by decide)

/-- Nineteen reports of a full buffer slow the stream down by 57. It is called twice and triggers
both times. Without a slowdown it triggers the first time only. -/
theorem not_paced_slowed :
    ((loweredLink 57).streamSlowdown = runCalls handleRadioStatus 0 (List.replicate 19 0) ∧
        1 ≤ (loweredLink 57).streamRates .rawSensors ∧
        (loweredLink 57).streamRates .rawSensors ≤ 50) ∧
      ¬ Paced lowByte 0 (loweredLink 57) .rawSensors ∧
      triggers lowByte 0 (loweredLink 57) .rawSensors 1 = true ∧
      triggers lowByte 0 (loweredLink 0) .rawSensors 1 = false := by
  have rate : ∀ slowdown, (loweredLink slowdown).rateByte .rawSensors ≠ 0 :=
    fun slowdown => show (1 : UInt8) ≠ 0 by decide
  have counter : ∀ slowdown, ((after lowByte 0 (loweredLink slowdown) .rawSensors 1).streamTicks
      .rawSensors).toNat = (UInt8.ofNat (199 + slowdown.toNat)).toNat := fun slowdown => by
    rw [after_counts lowByte 0 (rate slowdown) 0, if_pos (by rfl), loweredLink_reload]
  refine ⟨by decide +kernel, ?_, ?_, ?_⟩
  · rw [paced_iff_reload lowByte 0 (rate 57), loweredLink_reload, pace]
    exact Nat.ne_of_lt (Nat.lt_of_lt_of_le (by decide) (Nat.le_add_left 57 _))
  · rw [triggers_eq lowByte 0 (rate 57), counter]
    decide
  · rw [triggers_eq lowByte 0 (rate 0), counter]
    decide

end Urus.GcsMavlink.Streams
