/-
This file is about the bit that says whether a link is streaming. A call of a stream
without a rate looks at its own rate as often as there are streams before it, where it
was meant to look at theirs. So it clears the bit when other streams have a rate.

The bit is right along a run in which no such call is made while another stream has a
rate.
-/

import Urus.Gcs.Streams

namespace Urus.GcsMavlink.Streams

/-- What happens on a link: a stream is called, a rate is changed, a transfer begins or ends, or the
radio reports. -/
inductive Call
  | streamTrigger (stream : Stream)
  | setRate (stream : Stream) (rate : Int16)
  | setTransfers (waypointReceiving queuedParameter : Bool)
  | radioStatus (txbuf : UInt8)

section Streaming

variable (convert : Conversion) (chan : Fin 5)

/-- One event on a link. -/
def step (link : Link) : Call → Link
  | .streamTrigger stream => (streamTrigger convert chan link stream).2
  | .setRate stream rate => { link with streamRates := Function.update link.streamRates stream rate }
  | .setTransfers waypointReceiving queuedParameter =>
    { link with waypointReceiving := waypointReceiving, queuedParameter := queuedParameter }
  | .radioStatus txbuf =>
    { link with streamSlowdown := handleRadioStatus link.streamSlowdown txbuf }

/-- Whether the link's bit is set. -/
def Link.streaming (link : Link) : Bool := link.chanIsStreaming.getLsbD chan.val

/-- A call clears the bit only when no stream has a rate. -/
def Truthful (start : Link) (calls : List Call) : Prop :=
  ∀ before call after, calls = before ++ call :: after →
    let link := runCalls (step convert chan) start before
    link.streaming chan = true → (step convert chan link call).streaming chan = false →
      ∀ stream, link.streamRates stream ≤ 0

/-- The bit stays set while a stream that has triggered has a rate. -/
def Lasting (start : Link) (calls : List Call) : Prop :=
  ∀ before stream after, calls = before ++ .streamTrigger stream :: after →
    let link := runCalls (step convert chan) start before
    (streamTrigger convert chan link stream).1 = true →
    (∀ first rest, after = first ++ rest →
      0 < (runCalls (step convert chan) (streamTrigger convert chan link stream).2
        first).streamRates stream) →
    (runCalls (step convert chan) start calls).streaming chan = true

/-- While the bit is set, a stream whose byte of the rate is zero is called only when no stream has a
rate. The first stream looks at no rate at all, and the others look at their own one, which may be
positive although its byte is zero. -/
def Timely (link : Link) : Call → Prop
  | .streamTrigger stream => link.streaming chan = true → link.rateByte stream = 0 →
      (stream = .rawSensors ∨ link.streamRates stream ≤ 0) →
      ∀ other, link.streamRates other ≤ 0
  | _ => True

variable {convert} {chan} {link : Link} {stream : Stream}

/-! ### The bits of the mask -/

theorem chanBit_getLsbD (bit : ℕ) : (chanBit chan).getLsbD bit = decide (bit = chan.val) := by
  have small := chan.isLt
  rw [chanBit, BitVec.getLsbD_shiftLeft, BitVec.getLsbD_one]
  by_cases same : bit = chan.val
  · have inside : chan.val < 8 := lt_trans small (by decide)
    rw [same, decide_eq_true rfl]
    simp [inside]
  · rw [decide_eq_false same]
    by_cases before : bit < chan.val
    · simp [before]
    · have apart : bit - chan.val ≠ 0 := by omega
      simp [apart]

theorem and_chanBit_ne_zero (mask : BitVec 8) :
    mask &&& chanBit chan ≠ 0 ↔ mask.getLsbD chan.val = true := by
  rw [not_iff_comm, Bool.not_eq_true]
  constructor
  · intro clear
    refine BitVec.eq_of_getLsbD_eq fun bit _ => ?_
    show _ = (0#8).getLsbD bit
    rw [BitVec.getLsbD_and, chanBit_getLsbD, BitVec.getLsbD_zero]
    by_cases same : bit = chan.val
    · rw [same, clear, Bool.false_and]
    · rw [decide_eq_false same, Bool.and_false]
  · intro zero
    have bit : (mask &&& chanBit chan).getLsbD chan.val = (0#8).getLsbD chan.val :=
      congrArg (BitVec.getLsbD · chan.val) zero
    rwa [BitVec.getLsbD_and, chanBit_getLsbD, decide_eq_true rfl, Bool.and_true,
      BitVec.getLsbD_zero] at bit

theorem isStreaming_eq_false :
    isStreaming link stream = false ↔ stream = .rawSensors ∨ link.streamRates stream ≤ 0 := by
  rw [isStreaming, List.any_eq_false]
  constructor
  · intro none
    by_cases first : stream = .rawSensors
    · exact Or.inl first
    · refine Or.inr (Int16.not_lt.mp fun positive => ?_)
      have before : 0 < stream.ctorIdx := by
        cases stream
        · exact absurd rfl first
        all_goals decide
      exact none 0 (List.mem_range.mpr before) (decide_eq_true positive)
  · rintro (first | none) index member
    · subst first
      exact absurd (List.mem_range.mp member) (Nat.not_lt_zero _)
    · exact fun positive => absurd (of_decide_eq_true positive) (Int16.not_lt.mpr none)

/-! ### One call -/

theorem streamTrigger_sets (triggered : (streamTrigger convert chan link stream).1 = true) :
    (streamTrigger convert chan link stream).2.streaming chan = true := by
  by_cases rate : link.rateByte stream = 0
  · rw [streamTrigger_of_none rate] at triggered
    exact nomatch triggered
  · rw [streamTrigger_of_rate rate, Link.streaming]
    dsimp only
    rw [BitVec.getLsbD_or, chanBit_getLsbD, decide_eq_true rfl, Bool.or_true]

/-- The calls that clear the bit. -/
theorem streamTrigger_clears (set : link.streaming chan = true) :
    (streamTrigger convert chan link stream).2.streaming chan = false ↔
      link.rateByte stream = 0 ∧ (stream = .rawSensors ∨ link.streamRates stream ≤ 0) := by
  by_cases rate : link.rateByte stream = 0
  · have isSet : link.chanIsStreaming &&& chanBit chan ≠ 0 := (and_chanBit_ne_zero _).mpr set
    rw [streamTrigger_of_none rate, ← isStreaming_eq_false]
    dsimp only
    by_cases alone : isStreaming link stream = false
    · rw [if_pos ⟨isSet, alone⟩, Link.streaming, BitVec.getLsbD_and, BitVec.getLsbD_not,
        chanBit_getLsbD, decide_eq_true rfl]
      exact iff_of_true (by simp) ⟨rate, alone⟩
    · rw [if_neg (fun both => alone both.2), set]
      exact iff_of_false (by decide) fun both => alone both.2
  · have kept : (streamTrigger convert chan link stream).2.streaming chan = true := by
      rw [streamTrigger_of_rate rate, Link.streaming]
      dsimp only
      rw [BitVec.getLsbD_or, chanBit_getLsbD, decide_eq_true rfl, Bool.or_true]
    rw [kept]
    exact iff_of_false (by decide) fun both => rate both.1

/-- One event clears the bit rightly exactly when it is timely. -/
theorem timely_iff (convert : Conversion) (call : Call) :
    Timely chan link call ↔
      (link.streaming chan = true → (step convert chan link call).streaming chan = false →
        ∀ stream, link.streamRates stream ≤ 0) := by
  cases call with
  | streamTrigger stream =>
    rw [Timely, step]
    refine imp_congr_right fun set => ?_
    rw [streamTrigger_clears set]
    exact and_imp.symm
  | setRate stream rate =>
    exact iff_of_true trivial fun set cleared => absurd (set.symm.trans cleared) (by decide)
  | setTransfers waypointReceiving queuedParameter =>
    exact iff_of_true trivial fun set cleared => absurd (set.symm.trans cleared) (by decide)
  | radioStatus txbuf =>
    exact iff_of_true trivial fun set cleared => absurd (set.symm.trans cleared) (by decide)

/-! ### Runs -/

variable {start : Link} {calls : List Call}

/-- A run is truthful when its first event and the rest are. -/
theorem truthful_cons {call : Call} :
    Truthful convert chan start (call :: calls) ↔
      Timely chan start call ∧ Truthful convert chan (step convert chan start call) calls := by
  rw [timely_iff convert]
  constructor
  · exact fun truthful => ⟨truthful [] call calls rfl, fun before other after split =>
      truthful (call :: before) other after (by rw [split]; rfl)⟩
  · rintro ⟨first, rest⟩ before other after split
    cases before with
    | nil =>
      obtain ⟨rfl, -⟩ := List.cons.inj split
      exact first
    | cons head before =>
      obtain ⟨rfl, remaining⟩ := List.cons.inj split
      exact rest before other after remaining

theorem truthful_iff_along (convert : Conversion) :
    Truthful convert chan start calls ↔
      Along (step convert chan) (fun _ => True) (Timely chan) start calls := by
  induction calls generalizing start with
  | nil => exact iff_of_true (fun before call after split => by simp at split) trivial
  | cons call rest inductionHypothesis =>
    rw [truthful_cons, inductionHypothesis, Along]
    rw [true_and]

theorem Truthful.keeps (truthful : Truthful convert chan start calls)
    (set : start.streaming chan = true)
    (rate : ∀ first rest, calls = first ++ rest →
      0 < (runCalls (step convert chan) start first).streamRates stream) :
    (runCalls (step convert chan) start calls).streaming chan = true := by
  induction calls generalizing start with
  | nil => exact set
  | cons call rest inductionHypothesis =>
    have first := truthful [] call rest rfl set
    have kept : (step convert chan start call).streaming chan = true := by
      by_contra cleared
      have none := first (Bool.not_eq_true _ ▸ cleared) stream
      exact absurd (rate [] (call :: rest) rfl) (Int16.not_lt.mpr none)
    exact inductionHypothesis (truthful_cons.mp truthful).2 kept fun before after split =>
      rate (call :: before) after (by rw [split]; rfl)

theorem Truthful.lasting (truthful : Truthful convert chan start calls) :
    Lasting convert chan start calls := by
  intro before stream after split link triggered rate
  have later : Truthful convert chan (streamTrigger convert chan link stream).2 after :=
    fun first call rest remaining => by
      have whole := truthful (before ++ .streamTrigger stream :: first) call rest
        (by rw [split, remaining]; simp)
      rw [runCalls_append, runCalls_cons] at whole
      exact whole
  rw [split, runCalls_append, runCalls_cons]
  exact later.keeps (streamTrigger_sets triggered) rate

/-- The bit is right along a run, in that it is cleared only when no stream has a rate and stays set
while a stream that has triggered has one, exactly when every event of the run is timely. -/
theorem streaming_iff_timely (convert : Conversion) (chan : Fin 5) (start : Link)
    (calls : List Call) :
    (Truthful convert chan start calls ∧ Lasting convert chan start calls) ↔
      Along (step convert chan) (fun _ => True) (Timely chan) start calls := by
  rw [← truthful_iff_along convert]
  exact ⟨And.left, fun truthful => ⟨truthful, truthful.lasting⟩⟩

/-- One stream has a rate and triggers. The call of another one clears the bit. -/
theorem not_truthful_mixed :
    let start : Link := ⟨fun stream => if stream = .extra1 then 4 else 0, fun _ => 0, 0, false, false, 0⟩
    let calls : List Call := [.streamTrigger .extra1, .streamTrigger .rawSensors]
    ¬ (Truthful lowByte 0 start calls ∧ Lasting lowByte 0 start calls) := by
  intro start calls both
  have set : (streamTrigger lowByte 0 start .extra1).2.streaming 0 = true := by
    rw [streamTrigger_of_rate (by decide)]
    decide
  have cleared : (step lowByte 0 (streamTrigger lowByte 0 start .extra1).2
      (.streamTrigger .rawSensors)).streaming 0 = false := by
    refine (streamTrigger_clears set).mpr ⟨?_, Or.inl rfl⟩
    rw [streamTrigger_of_rate (by decide)]
    decide
  have none := both.1 [.streamTrigger .extra1] _ [] rfl set cleared .extra1
  change (streamTrigger lowByte 0 start .extra1).2.streamRates .extra1 ≤ 0 at none
  rw [streamTrigger_of_rate (by decide)] at none
  exact absurd none (by decide)

end Streaming

end Urus.GcsMavlink.Streams
