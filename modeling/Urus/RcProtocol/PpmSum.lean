/-
This file models the decoder of PPM-sum signals, and proves when its reports are what has been
sent.

A frame is a row of pulses behind a long one. The decoder moves to the next channel only at a
pulse in range. A pulse out of range inside a frame is left out, so that the channels behind it
move down. It also starts as if it had seen a long pulse. A report is right exactly if a long
pulse has been seen, and no pulse since then that is out of range comes before one in range.
-/

import Mathlib.Tactic
import Urus.Lib.Framing
import Urus.Lib.Since
import Urus.RcProtocol.Model

namespace Urus.RcProtocol

/-! ### The decoder -/

namespace PpmSum

/-- `ppm_state`. -/
structure PpmState where
  channelCounter : ℤ
  pulseCapt : List ℕ

/-- What a pulse makes the decoder do: it writes to an element of `_pulse_capt`, or calls
`add_input`. -/
inductive Event
  | access (index : ℤ)
  | report (call : AddInput)
  deriving DecidableEq

/-- The decoder as `new` leaves it, with all bytes zero. -/
def start : PpmState := ⟨0, List.replicate maxRcinChannels 0⟩

/-- The sum of the two widths as the code has it, in 32 bits. -/
def widthUsec (pulse : Pulse) : ℕ := (pulse.widthS0 + pulse.widthS1) % 2 ^ 32

/-- `add_input(ppm_state._channel_counter, ppm_state._pulse_capt, false)`. -/
def PpmState.report (ppm : PpmState) : Event :=
  .report ⟨ppm.channelCounter.toNat, ppm.pulseCapt, false⟩

/-- A reading for the current channel. -/
def PpmState.capture (ppm : PpmState) (width : ℕ) : PpmState where
  channelCounter := ppm.channelCounter + 1
  pulseCapt := ppm.pulseCapt.set ppm.channelCounter.toNat width

/-- What is done when the counter has reached the maximum of channels. -/
def PpmState.cutOff (ppm : PpmState) : PpmState × List Event :=
  if (maxRcinChannels : ℤ) ≤ ppm.channelCounter then
    ({ ppm with channelCounter := -1 }, [ppm.report])
  else (ppm, [])

/-- `process_pulse`. -/
def processPulse (ppm : PpmState) (pulse : Pulse) : PpmState × List Event :=
  if 2700 ≤ widthUsec pulse then
    ({ ppm with channelCounter := 0 },
      if (minRcinChannels : ℤ) ≤ ppm.channelCounter then [ppm.report] else [])
  else if ppm.channelCounter = -1 then (ppm, [])
  else if 700 < widthUsec pulse ∧ widthUsec pulse < 2300 then
    let (next, events) := (ppm.capture (widthUsec pulse)).cutOff
    (next, .access ppm.channelCounter :: events)
  else ppm.cutOff

/-- The decoder behind a row of pulses. -/
def after (pulses : List Pulse) : PpmState := (Framing.run processPulse start pulses).1

/-! ### What reports are to say -/

/-- A synchronisation pulse. -/
def IsSync (pulse : Pulse) : Prop := 2700 ≤ pulse.width

/-- A pulse that stands for a channel. -/
def InRange (pulse : Pulse) : Prop := 700 < pulse.width ∧ pulse.width < 2300

instance : DecidablePred IsSync := fun pulse => inferInstanceAs (Decidable (2700 ≤ pulse.width))

instance : DecidablePred InRange :=
  fun pulse => inferInstanceAs (Decidable (700 < pulse.width ∧ pulse.width < 2300))

/-- The report at a pulse gives the widths of the pulses that follow the last synchronisation pulse
before it, from the first one on. -/
def Right (first : List Pulse) (pulse : Pulse) (call : AddInput) : Prop :=
  ∃ earlier sync frame, first = earlier ++ sync :: frame ∧ IsSync sync ∧
    (∀ other ∈ frame, ¬IsSync other) ∧ call.numValues ≤ (frame ++ [pulse]).length ∧
    call.values.take call.numValues = ((frame ++ [pulse]).take call.numValues).map Pulse.width

/-- At every pulse of a row the accesses are inside `_pulse_capt`. -/
def AccessesInside (pulses : List Pulse) : Prop :=
  ∀ first pulse rest, pulses = first ++ pulse :: rest →
    ∀ index : ℤ, .access index ∈ (processPulse (after first) pulse).2 →
      0 ≤ index ∧ index < maxRcinChannels

/-- At every pulse of a row the reports are right. -/
def ReportsRight (pulses : List Pulse) : Prop :=
  ∀ first pulse rest, pulses = first ++ pulse :: rest →
    ∀ call, .report call ∈ (processPulse (after first) pulse).2 → Right first pulse call

/-- The pulses behind the last synchronisation pulse, or all if there has been none. -/
def sinceSync (pulses : List Pulse) : List Pulse :=
  pulses.rtakeWhile fun pulse => !decide (IsSync pulse)

/-- The pulses behind the last synchronisation pulse that stand for channels. -/
def channelsSince (pulses : List Pulse) : List Pulse :=
  (sinceSync pulses).filter fun pulse => decide (InRange pulse)

/-- A frame is over: there is a synchronisation pulse behind at least five channels, or the last of
sixteen channels. -/
def FrameEnds (first : List Pulse) (pulse : Pulse) : Prop :=
  IsSync pulse ∧ minRcinChannels ≤ (channelsSince first).length ∧
      (channelsSince first).length < maxRcinChannels ∨
    InRange pulse ∧ (channelsSince first).length + 1 = maxRcinChannels

/-- Wherever a frame ends, there has been a synchronisation pulse, and the pulses out of range
behind it all come after those in range. -/
def GlitchesLast (pulses : List Pulse) : Prop :=
  ∀ first pulse rest, pulses = first ++ pulse :: rest → FrameEnds first pulse →
    (∃ sync ∈ first, IsSync sync) ∧
      ((sinceSync first ++ [pulse]).filter fun pulse => decide (InRange pulse)) <+:
        sinceSync first ++ [pulse]

/-! ### One pulse -/

section Step

variable {ppm : PpmState} {pulse : Pulse}

theorem processPulse_sync (long : 2700 ≤ widthUsec pulse) :
    processPulse ppm pulse =
      ({ ppm with channelCounter := 0 },
        if (minRcinChannels : ℤ) ≤ ppm.channelCounter then [ppm.report] else []) := by
  rw [processPulse, if_pos long]

theorem processPulse_lost (short : ¬2700 ≤ widthUsec pulse) (lost : ppm.channelCounter = -1) :
    processPulse ppm pulse = (ppm, []) := by
  rw [processPulse, if_neg short, if_pos lost]

theorem processPulse_inRange (synchronised : ppm.channelCounter ≠ -1)
    (inside : 700 < widthUsec pulse ∧ widthUsec pulse < 2300) :
    processPulse ppm pulse =
      (((ppm.capture (widthUsec pulse)).cutOff).1,
        .access ppm.channelCounter :: ((ppm.capture (widthUsec pulse)).cutOff).2) := by
  rw [processPulse, if_neg (by omega), if_neg synchronised, if_pos inside]

theorem processPulse_outOfRange (short : ¬2700 ≤ widthUsec pulse)
    (synchronised : ppm.channelCounter ≠ -1)
    (outside : ¬(700 < widthUsec pulse ∧ widthUsec pulse < 2300)) :
    processPulse ppm pulse = ppm.cutOff := by
  rw [processPulse, if_neg short, if_neg synchronised, if_neg outside]

theorem cutOff_below (below : ppm.channelCounter < maxRcinChannels) : ppm.cutOff = (ppm, []) := by
  rw [PpmState.cutOff, if_neg (by omega)]

theorem cutOff_reached (reached : (maxRcinChannels : ℤ) ≤ ppm.channelCounter) :
    ppm.cutOff = ({ ppm with channelCounter := -1 }, [ppm.report]) := by
  rw [PpmState.cutOff, if_pos reached]

end Step

/-- The counter is a channel, or stands for a decoder that waits for a long pulse. -/
def Counts (ppm : PpmState) : Prop := -1 ≤ ppm.channelCounter ∧ ppm.channelCounter < maxRcinChannels

theorem counts_zero (capt : List ℕ) : Counts ⟨0, capt⟩ :=
  ⟨(by decide : (-1 : ℤ) ≤ 0), (by decide : (0 : ℤ) < maxRcinChannels)⟩

theorem counts_lost (capt : List ℕ) : Counts ⟨-1, capt⟩ :=
  ⟨le_refl _, (by decide : (-1 : ℤ) < maxRcinChannels)⟩

/-- An event that is no access outside `_pulse_capt`. -/
def Inside : Event → Prop
  | .access index => 0 ≤ index ∧ index < maxRcinChannels
  | .report _ => True

theorem Inside.report (ppm : PpmState) : ∀ event ∈ [ppm.report], Inside event := by
  intro event member
  rw [List.mem_singleton.mp member]
  trivial

theorem processPulse_inside (ppm : PpmState) (pulse : Pulse) (counts : Counts ppm) :
    Counts (processPulse ppm pulse).1 ∧ ∀ event ∈ (processPulse ppm pulse).2, Inside event := by
  have none : ∀ event ∈ ([] : List Event), Inside event := fun _ member => nomatch member
  obtain ⟨above, below⟩ := counts
  by_cases long : 2700 ≤ widthUsec pulse
  · rw [processPulse_sync long]
    refine ⟨counts_zero _, ?_⟩
    dsimp only
    split
    · exact Inside.report ppm
    · exact none
  by_cases lost : ppm.channelCounter = -1
  · rw [processPulse_lost long lost]
    exact ⟨⟨above, below⟩, none⟩
  by_cases inside : 700 < widthUsec pulse ∧ widthUsec pulse < 2300
  · rw [processPulse_inRange lost inside]
    have index : Inside (.access ppm.channelCounter) := ⟨by omega, below⟩
    by_cases last : (ppm.capture (widthUsec pulse)).channelCounter < maxRcinChannels
    · rw [cutOff_below last]
      refine ⟨⟨?_, last⟩, List.forall_mem_singleton.mpr index⟩
      change -1 ≤ ppm.channelCounter + 1
      omega
    · rw [cutOff_reached (by omega)]
      exact ⟨counts_lost _, List.forall_mem_cons.mpr ⟨index, Inside.report _⟩⟩
  · rw [processPulse_outOfRange long lost inside, cutOff_below below]
    exact ⟨⟨above, below⟩, none⟩

theorem counts_after (pulses : List Pulse) : Counts (after pulses) :=
  (Framing.run_invariant processPulse processPulse_inside (counts_zero _) pulses).1

theorem accessesInside (pulses : List Pulse) : AccessesInside pulses := by
  intro first pulse rest _ index member
  exact (processPulse_inside (after first) pulse (counts_after first)).2 _ member

/-! ### The pulses behind the last synchronisation pulse -/

section Since

variable {pulses : List Pulse} {pulse : Pulse}

theorem sinceSync_sync (long : IsSync pulse) : sinceSync (pulses ++ [pulse]) = [] :=
  Since.since_mark long

theorem sinceSync_short (short : ¬IsSync pulse) :
    sinceSync (pulses ++ [pulse]) = sinceSync pulses ++ [pulse] := Since.since_plain short

theorem channelsSince_sync (long : IsSync pulse) : channelsSince (pulses ++ [pulse]) = [] := by
  rw [channelsSince, sinceSync_sync long, List.filter_nil]

theorem not_isSync_of_inRange (inside : InRange pulse) : ¬IsSync pulse := by
  unfold IsSync
  have below := inside.2
  omega

theorem channelsSince_inRange (inside : InRange pulse) :
    channelsSince (pulses ++ [pulse]) = channelsSince pulses ++ [pulse] := by
  rw [channelsSince, sinceSync_short (not_isSync_of_inRange inside), List.filter_append,
    List.filter_cons_of_pos (by simp [inside]), List.filter_nil, channelsSince]

theorem filter_outOfRange (frame : List Pulse) (outside : ¬InRange pulse) :
    ((frame ++ [pulse]).filter fun other => decide (InRange other)) =
      frame.filter fun other => decide (InRange other) := by
  rw [List.filter_append, List.filter_cons_of_neg (by simp [outside]), List.filter_nil,
    List.append_nil]

theorem channelsSince_outOfRange (short : ¬IsSync pulse) (outside : ¬InRange pulse) :
    channelsSince (pulses ++ [pulse]) = channelsSince pulses := by
  rw [channelsSince, sinceSync_short short, filter_outOfRange _ outside, channelsSince]

theorem sync_sinceSync (some_sync : ∃ sync ∈ pulses, IsSync sync) :
    ∃ earlier sync, pulses = earlier ++ sync :: sinceSync pulses ∧ IsSync sync :=
  Since.exists_eq_since some_sync

theorem not_isSync_of_mem_sinceSync {other : Pulse} (member : other ∈ sinceSync pulses) :
    ¬IsSync other := Since.not_mark_of_mem_since member

theorem sinceSync_eq {earlier frame : List Pulse} {sync : Pulse} (long : IsSync sync)
    (short : ∀ other ∈ frame, ¬IsSync other) : sinceSync (earlier ++ sync :: frame) = frame :=
  Since.since_behind_mark long short

end Since

/-! ### What the decoder has captured -/

/-- What a decoder has captured behind a row of pulses: the widths of the channels since the last
synchronisation pulse, or none any more once there have been sixteen. -/
structure Captured (pulses : List Pulse) (ppm : PpmState) : Prop where
  full : ppm.pulseCapt.length = maxRcinChannels
  reading : (channelsSince pulses).length < maxRcinChannels →
    ppm.channelCounter = (channelsSince pulses).length ∧
      ppm.pulseCapt.take (channelsSince pulses).length = (channelsSince pulses).map Pulse.width
  done : maxRcinChannels ≤ (channelsSince pulses).length → ppm.channelCounter = -1

/-- A report gives the widths of some pulses. -/
def Reports (channels : List Pulse) (call : AddInput) : Prop :=
  call.numValues = channels.length ∧
    call.values.take channels.length = channels.map Pulse.width

theorem captured_start : Captured [] start where
  full := List.length_replicate
  reading _ := ⟨rfl, rfl⟩
  done many := absurd many (by decide)

section Captured

variable {pulses : List Pulse} {ppm : PpmState} {pulse : Pulse}

theorem filter_sinceSync_of_not_sync (short : ¬IsSync pulse) :
    ((sinceSync pulses ++ [pulse]).filter fun other => decide (InRange other)) =
      channelsSince (pulses ++ [pulse]) := by
  rw [channelsSince, sinceSync_short short]

section

variable (captured : Captured pulses ppm)

include captured

theorem Captured.report (few : (channelsSince pulses).length < maxRcinChannels) :
    Reports (channelsSince pulses) ⟨ppm.channelCounter.toNat, ppm.pulseCapt, false⟩ := by
  obtain ⟨counter, capt⟩ := captured.reading few
  exact ⟨by rw [counter, Int.toNat_natCast], capt⟩

theorem Captured.sync (long : IsSync pulse) :
    Captured (pulses ++ [pulse]) { ppm with channelCounter := 0 } where
  full := captured.full
  reading _ := by
    rw [channelsSince_sync long]
    exact ⟨rfl, rfl⟩
  done many := by
    rw [channelsSince_sync long] at many
    exact absurd many (by decide)

theorem Captured.outOfRange (short : ¬IsSync pulse)
    (outside : ¬InRange pulse) : Captured (pulses ++ [pulse]) ppm where
  full := captured.full
  reading := by
    rw [channelsSince_outOfRange short outside]
    exact captured.reading
  done := by
    rw [channelsSince_outOfRange short outside]
    exact captured.done

theorem Captured.lost (short : ¬IsSync pulse)
    (many : maxRcinChannels ≤ (channelsSince pulses).length) :
    Captured (pulses ++ [pulse]) ppm := by
  by_cases inside : InRange pulse
  · have more : maxRcinChannels ≤ (channelsSince (pulses ++ [pulse])).length := by
      rw [channelsSince_inRange inside, List.length_append]
      omega
    exact ⟨captured.full, fun few => absurd few (by omega), fun _ => captured.done many⟩
  · exact captured.outOfRange short inside

/-- A channel behind a frame that has room is captured. -/
theorem Captured.capture (inside : InRange pulse)
    (few : (channelsSince pulses).length < maxRcinChannels) :
    (ppm.capture pulse.width).pulseCapt.length = maxRcinChannels ∧
      (ppm.capture pulse.width).channelCounter = (channelsSince (pulses ++ [pulse])).length ∧
      (ppm.capture pulse.width).pulseCapt.take (channelsSince (pulses ++ [pulse])).length =
        (channelsSince (pulses ++ [pulse])).map Pulse.width := by
  obtain ⟨counter, capt⟩ := captured.reading few
  rw [channelsSince_inRange inside, List.length_append, List.map_append, ← capt]
  refine ⟨?_, ?_, ?_⟩
  · rw [PpmState.capture, List.length_set, captured.full]
  · rw [PpmState.capture, counter]
    rfl
  · rw [PpmState.capture, counter, Int.toNat_natCast]
    exact Since.take_set (by rw [captured.full]; exact few) pulse.width

end

theorem widthUsec_eq (fits : pulse.width < 2 ^ 32) : widthUsec pulse = pulse.width :=
  Nat.mod_eq_of_lt fits

/-- What a pulse is to do to a decoder that has captured the channels so far: it has then captured
those with the pulse, and it has reported at the end of a frame, and only there, what it has
captured. -/
structure Handled (pulses : List Pulse) (pulse : Pulse) (outcome : PpmState × List Event) :
    Prop where
  captured : Captured (pulses ++ [pulse]) outcome.1
  reported : ∀ call, .report call ∈ outcome.2 → FrameEnds pulses pulse ∧
    Reports ((sinceSync pulses ++ [pulse]).filter fun other => decide (InRange other)) call
  ending : FrameEnds pulses pulse → ∃ call, .report call ∈ outcome.2

theorem Captured.handled_sync (captured : Captured pulses ppm) (fits : pulse.width < 2 ^ 32)
    (long : IsSync pulse) : Handled pulses pulse (processPulse ppm pulse) := by
  have outside : ¬InRange pulse := fun inside => not_isSync_of_inRange inside long
  rw [processPulse_sync (by rwa [widthUsec_eq fits])]
  refine ⟨captured.sync long, ?_, ?_⟩
  · intro call member
    rw [filter_outOfRange _ outside]
    dsimp only at member
    split at member
    case isFalse => exact absurd member List.not_mem_nil
    case isTrue enough =>
      have few : (channelsSince pulses).length < maxRcinChannels := by
        by_contra many
        rw [captured.done (by omega)] at enough
        exact absurd enough (by decide)
      have counter := (captured.reading few).1
      refine ⟨.inl ⟨long, by omega, few⟩, ?_⟩
      cases Event.report.inj (List.mem_singleton.mp member)
      exact captured.report few
  · rintro (⟨-, enough, few⟩ | ⟨inside, -⟩)
    · have counter := (captured.reading few).1
      rw [if_pos (by omega)]
      exact ⟨_, List.mem_singleton.mpr rfl⟩
    · exact absurd inside outside

theorem Handled.quiet {next : PpmState} (captured : Captured (pulses ++ [pulse]) next)
    {events : List Event} (none : ∀ call, .report call ∉ events) (goesOn : ¬FrameEnds pulses pulse) :
    Handled pulses pulse (next, events) where
  captured := captured
  reported call member := absurd member (none call)
  ending ends := absurd ends goesOn

theorem Captured.handled_lost (captured : Captured pulses ppm) (fits : pulse.width < 2 ^ 32)
    (short : ¬IsSync pulse) (many : maxRcinChannels ≤ (channelsSince pulses).length) :
    Handled pulses pulse (processPulse ppm pulse) := by
  rw [processPulse_lost (by rwa [widthUsec_eq fits]) (captured.done many)]
  refine .quiet (captured.lost short many) (fun _ => List.not_mem_nil) ?_
  rintro (⟨sync, -⟩ | ⟨-, last⟩)
  · exact absurd sync short
  · omega

theorem Captured.handled_outOfRange (captured : Captured pulses ppm) (fits : pulse.width < 2 ^ 32)
    (short : ¬IsSync pulse) (few : (channelsSince pulses).length < maxRcinChannels)
    (outside : ¬InRange pulse) : Handled pulses pulse (processPulse ppm pulse) := by
  have counter := (captured.reading few).1
  rw [processPulse_outOfRange (by rwa [widthUsec_eq fits]) (by omega) (by rwa [widthUsec_eq fits]),
    cutOff_below (by omega)]
  refine .quiet (captured.outOfRange short outside) (fun _ => List.not_mem_nil) ?_
  rintro (⟨sync, -⟩ | ⟨inside, -⟩)
  · exact absurd sync short
  · exact absurd inside outside

theorem Captured.handled_inRange (captured : Captured pulses ppm) (fits : pulse.width < 2 ^ 32)
    (few : (channelsSince pulses).length < maxRcinChannels) (inside : InRange pulse) :
    Handled pulses pulse (processPulse ppm pulse) := by
  have short : ¬IsSync pulse := not_isSync_of_inRange inside
  have counter := (captured.reading few).1
  obtain ⟨full, count, capt⟩ := captured.capture inside few
  have more : (channelsSince (pulses ++ [pulse])).length = (channelsSince pulses).length + 1 := by
    rw [channelsSince_inRange inside, List.length_append, List.length_singleton]
  rw [processPulse_inRange (by omega) (by rwa [widthUsec_eq fits]), widthUsec_eq fits]
  by_cases last : (channelsSince pulses).length + 1 = maxRcinChannels
  · rw [cutOff_reached (by omega)]
    refine ⟨⟨full, fun few => by omega, fun _ => rfl⟩, ?_, ?_⟩
    · intro call member
      have same : Event.report call = (ppm.capture pulse.width).report := by simpa using member
      rw [filter_sinceSync_of_not_sync short]
      refine ⟨.inr ⟨inside, last⟩, ?_⟩
      cases Event.report.inj same
      exact ⟨by rw [count, Int.toNat_natCast], capt⟩
    · exact fun _ => ⟨_, List.mem_cons_of_mem _ (List.mem_singleton.mpr rfl)⟩
  · rw [cutOff_below (by omega)]
    refine .quiet ⟨full, fun _ => ⟨count, capt⟩, fun many => by omega⟩
      (fun call member => absurd (List.mem_singleton.mp member) (by simp)) ?_
    rintro (⟨sync, -⟩ | ⟨-, isLast⟩)
    · exact absurd sync short
    · exact absurd isLast last

theorem Captured.handled (captured : Captured pulses ppm) (fits : pulse.width < 2 ^ 32) :
    Handled pulses pulse (processPulse ppm pulse) := by
  by_cases long : IsSync pulse
  · exact captured.handled_sync fits long
  by_cases many : maxRcinChannels ≤ (channelsSince pulses).length
  · exact captured.handled_lost fits long many
  have few : (channelsSince pulses).length < maxRcinChannels := by omega
  by_cases inside : InRange pulse
  · exact captured.handled_inRange fits few inside
  · exact captured.handled_outOfRange fits long few inside

end Captured

theorem captured_after {pulses : List Pulse} (fits : ∀ pulse ∈ pulses, pulse.width < 2 ^ 32) :
    Captured pulses (after pulses) := by
  induction pulses using List.reverseRecOn with
  | nil => exact captured_start
  | append_singleton first last inductionHypothesis =>
    have before := inductionHypothesis fun pulse member => fits pulse (List.mem_append_left _ member)
    have now := (before.handled (fits last (List.mem_append_right _ List.mem_cons_self))).captured
    rwa [after, Framing.run_append, Framing.run_cons]

/-! ### Right reports -/

theorem inRange_of_width_eq {pulse other : Pulse} (inside : InRange pulse)
    (same : pulse.width = other.width) : InRange other := by
  unfold InRange at inside ⊢
  rwa [← same]

theorem map_width_filter_iff (frame : List Pulse) :
    ((frame.filter fun pulse => decide (InRange pulse)).length ≤ frame.length ∧
      (frame.filter fun pulse => decide (InRange pulse)).map Pulse.width =
        (frame.take (frame.filter fun pulse => decide (InRange pulse)).length).map Pulse.width) ↔
      (frame.filter fun pulse => decide (InRange pulse)) <+: frame := by
  rw [List.prefix_iff_eq_take]
  constructor
  · rintro ⟨-, widths⟩
    set channels := frame.filter fun pulse => decide (InRange pulse) with channelsEq
    have inside : ∀ pulse ∈ frame.take channels.length, InRange pulse := by
      intro pulse member
      have among : pulse.width ∈ channels.map Pulse.width :=
        widths ▸ List.mem_map_of_mem member
      obtain ⟨channel, channelMember, same⟩ := List.mem_map.mp among
      have channelInside : InRange channel := by
        rw [channelsEq] at channelMember
        exact of_decide_eq_true (List.mem_filter.mp channelMember).2
      exact inRange_of_width_eq channelInside same
    have kept : (frame.take channels.length).filter (fun pulse => decide (InRange pulse)) =
        frame.take channels.length :=
      List.filter_eq_self.mpr fun pulse member => by simpa using inside pulse member
    have first : frame.take channels.length <+: channels := by
      rw [← kept, channelsEq]
      exact (List.take_prefix _ _).filter _
    have long : (frame.take channels.length).length = channels.length := by
      rw [List.length_take, Nat.min_eq_left (List.length_filter_le _ _)]
    exact (first.eq_of_length long).symm
  · intro same
    exact ⟨List.length_filter_le _ _, congrArg (List.map Pulse.width) same⟩

theorem right_iff {first : List Pulse} {pulse : Pulse} {call : AddInput}
    (reports :
      Reports ((sinceSync first ++ [pulse]).filter fun other => decide (InRange other)) call) :
    Right first pulse call ↔
      (∃ sync ∈ first, IsSync sync) ∧
        ((sinceSync first ++ [pulse]).filter fun other => decide (InRange other)) <+:
          sinceSync first ++ [pulse] := by
  obtain ⟨count, widths⟩ := reports
  rw [← map_width_filter_iff, ← widths, ← count]
  constructor
  · rintro ⟨earlier, sync, frame, split, long, short, few, same⟩
    have since : sinceSync first = frame := by rw [split, sinceSync_eq long short]
    rw [since]
    exact ⟨⟨sync, by rw [split]; simp, long⟩, few, same⟩
  · rintro ⟨some_sync, few, same⟩
    obtain ⟨earlier, sync, split, long⟩ := sync_sinceSync some_sync
    exact ⟨earlier, sync, sinceSync first, split, long,
      fun _ member => not_isSync_of_mem_sinceSync member, few, same⟩

/-- The decoder stays inside `_pulse_capt`. Its reports are right exactly if there has been a
synchronisation pulse and no pulse out of range has come before one in range wherever a frame
ends. -/
theorem framesReported_iff (pulses : List Pulse) :
    AccessesInside pulses ∧ ((∀ pulse ∈ pulses, pulse.width < 2 ^ 32) →
      (ReportsRight pulses ↔ GlitchesLast pulses)) := by
  refine ⟨accessesInside pulses, fun fits => ?_⟩
  have handled : ∀ first pulse rest, pulses = first ++ pulse :: rest →
      Handled first pulse (processPulse (after first) pulse) := by
    intro first pulse rest split
    have captured : Captured first (after first) := captured_after fun other member =>
      fits other (by rw [split]; exact List.mem_append_left _ member)
    exact captured.handled (fits pulse (by rw [split]; simp))
  constructor
  · intro right first pulse rest split ends
    obtain ⟨call, member⟩ := (handled first pulse rest split).ending ends
    have reports := ((handled first pulse rest split).reported call member).2
    exact (right_iff reports).mp (right first pulse rest split call member)
  · intro glitchesLast first pulse rest split call member
    obtain ⟨ends, reports⟩ := (handled first pulse rest split).reported call member
    exact (right_iff reports).mpr (glitchesLast first pulse rest split ends)

/-- Pulses of given widths, 300 microseconds of each of them in the second state. -/
def pulsesOf (widths : List ℕ) : List Pulse := widths.map fun width => ⟨width - 300, 300⟩

/-- A frame of six channels. -/
def wholeFrame : List Pulse := pulsesOf [5000, 1000, 1100, 1200, 1300, 1400, 1500, 5000]

theorem framesReported_iff_wholeFrame :
    AccessesInside wholeFrame ∧ (ReportsRight wholeFrame ↔ GlitchesLast wholeFrame) :=
  ⟨(framesReported_iff wholeFrame).1, (framesReported_iff wholeFrame).2 (by decide)⟩

/-- Without a synchronisation pulse, or with a pulse out of range in front, a report is wrong. -/
theorem not_reportsRight {first : List Pulse} {pulse : Pulse} (call : AddInput)
    (reported : .report call ∈ (processPulse (after first) pulse).2)
    (reports :
      Reports ((sinceSync first ++ [pulse]).filter fun other => decide (InRange other)) call)
    (wrong : ¬((∃ sync ∈ first, IsSync sync) ∧
      ((sinceSync first ++ [pulse]).filter fun other => decide (InRange other)) <+:
        sinceSync first ++ [pulse])) : ¬ReportsRight (first ++ [pulse]) :=
  fun right => wrong ((right_iff reports).mp (right first pulse [] rfl call reported))

/-- With a pulse of 600 microseconds in the place of the third channel the channels behind it are
reported one place down. Six pulses that the receiver has caught behind an unknown one are reported
as channels from the first one on. -/
theorem reports_shifted :
    (∃ call, .report call ∈ (processPulse
        (after (pulsesOf [5000, 1000, 1100, 600, 1300, 1400, 1500])) ⟨4700, 300⟩).2 ∧
      call.numValues = 5 ∧ call.values.take 5 = [1000, 1100, 1300, 1400, 1500]) ∧
    ¬ReportsRight (pulsesOf [5000, 1000, 1100, 600, 1300, 1400, 1500] ++ [⟨4700, 300⟩]) ∧
    ¬ReportsRight (pulsesOf [1200, 1300, 1400, 1500, 1600, 1700] ++ [⟨4700, 300⟩]) := by
  refine ⟨⟨⟨5, [1000, 1100, 1300, 1400, 1500] ++ List.replicate 11 0, false⟩, by decide, rfl, rfl⟩,
    ?_, ?_⟩
  · exact not_reportsRight ⟨5, [1000, 1100, 1300, 1400, 1500] ++ List.replicate 11 0, false⟩
      (by decide) (by constructor <;> decide) (by decide)
  · exact not_reportsRight ⟨6, [1200, 1300, 1400, 1500, 1600, 1700] ++ List.replicate 10 0, false⟩
      (by decide) (by constructor <;> decide) (by decide)

end PpmSum

end Urus.RcProtocol
