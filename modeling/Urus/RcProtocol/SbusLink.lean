/-
This file joins the two ends of an SBUS link. The frames that `AP_SBusOut::update` packs are sent as
pulses, one behind the other, and the receiver calls `add_input` once for each of them.
-/

import Urus.RcProtocol.SbusPulse
import Urus.Sbus.RoundTrip

namespace Urus.RcProtocol.SbusPulse

open Sbus

/-- The bytes that are sent for the values of the channels. -/
def frameBytes (values : ℕ → ℕ) : List ℕ := (List.range frameSize).map (packFrame values).bytes

/-- The backend behind the calls of `add_input` among events. -/
def taken (backend : Backend) (events : List Event) : Backend :=
  events.foldl (fun backend event => match event with
    | .report call => backend.addInput call
    | _ => backend) backend

theorem taken_calls (backend : Backend) (events : List Event) :
    taken backend (calls events) = taken backend events := by
  induction events generalizing backend with
  | nil => rfl
  | cons event events inductionHypothesis => cases event <;> exact inductionHypothesis _

variable {values : ℕ → ℕ}

section Frame

variable (packed : Packed values channels (packChannels values channels))

include packed

theorem packFrame_behind {byte : ℕ} (behind : 22 ≤ byte) :
    (packFrame values).bytes (1 + byte) = 0 := by
  refine Nat.eq_of_testBit_eq fun bit => Eq.trans ?_ (Nat.zero_testBit bit).symm
  by_cases narrow : bit < 8
  · refine (packed.data byte bit narrow).trans ?_
    simp [show ¬ 8 * byte + bit < 176 by omega, channels]
  · exact packed.narrow byte bit (by omega)

theorem getD_frameBytes (index : ℕ) :
    (frameBytes values).getD index 0 = (packFrame values).bytes index := by
  by_cases inside : index < 25
  · simp [frameBytes, frameSize, inside]
  · obtain ⟨byte, rfl⟩ := Nat.exists_eq_add_of_le (show 1 ≤ index by omega)
    rw [packFrame_behind packed (by omega)]
    simp [frameBytes, frameSize, not_lt.mp inside]

theorem frameBytes_lt : ∀ byte ∈ frameBytes values, byte < 256 := by
  intro byte member
  obtain ⟨index, -, rfl⟩ := List.mem_map.mp member
  rcases index with _ | index
  · exact packed.start.trans_lt (by decide)
  · rw [Nat.add_comm]
    exact Nat.lt_pow_two_of_testBit _ (packed.narrow index)

theorem decodeFrame_frameBytes (small : ∀ channel, channel < channels → values channel ≤ 2047)
    (convert : ℕ → ℕ) :
    decodeFrame convert (frameBytes values) = [.decode (frameBytes values), .report
      ⟨channels, (List.range channels).map fun channel => convert (values channel), false⟩] := by
  have decoded : sbusDecode convert (packFrame values).bytes maxRcinChannels =
      some ⟨(List.range channels).map fun channel => convert (values channel), false, false⟩ := by
    rw [sbusDecode, if_neg (fun other => other packed.start),
      show (packFrame values).bytes flagsByte = 0 from packFrame_behind packed (le_refl 22)]
    change some (Decoded.mk (_ ++ []) false false) = _
    rw [List.append_nil]
    refine congrArg (fun row => some (Decoded.mk row false false)) (List.map_congr_left ?_)
    intro channel member
    have known := List.mem_range.mp member
    exact congrArg convert (rawValue_eq known (Nat.lt_succ_of_le (small channel known)) packed.data)
  rw [decodeFrame, funext (getD_frameBytes packed), decoded]
  rfl

/-- Behind a frame each channel reads as the converted value that was sent. -/
theorem read_taken_frame (small : ∀ channel, channel < channels → values channel ≤ 2047)
    (convert : ℕ → ℕ) (backend : Backend) {pulses : List Pulse}
    (seen : FrameSeen (frameBytes values) pulses) {channel : ℕ} (known : channel < channels) :
    (taken backend (Framing.run (processPulse convert) reset pulses).2).read channel =
      convert (values channel) := by
  have decoded := (run_frame convert (by simp [frameBytes, frameSize]) (frameBytes_lt packed) seen).2
  rw [← taken_calls, decoded, decodeFrame_frameBytes packed small convert]
  exact (read_addInput backend _ known (le_refl 16) (by simp)).trans (by simp [known])

end Frame

/-- What is sent is what is received: of frames that are seen as pulses one behind the other, each is
decoded once, and its values are handed on. -/
theorem link_delivers (convert : ℕ → ℕ) {sent : List (ℕ → ℕ)} {signals : List (List Pulse)}
    (small : ∀ values ∈ sent, ∀ channel, channel < channels → values channel ≤ 2047)
    (seen : List.Forall₂ (fun values pulses => FrameSeen (frameBytes values) pulses) sent signals) :
    calls (Framing.run (processPulse convert) reset signals.flatten).2 =
      sent.flatMap fun values => [.decode (frameBytes values), .report
        ⟨channels, (List.range channels).map fun channel => convert (values channel), false⟩] := by
  induction seen with
  | nil => rfl
  | cons first _ inductionHypothesis =>
    obtain ⟨fits, others⟩ := List.forall_mem_cons.mp small
    have packed := packChannels_packed _ channels fun channel known =>
      Nat.lt_succ_of_le (fits channel known)
    obtain ⟨rest, decoded⟩ := run_frame convert (by simp [frameBytes, frameSize])
      (frameBytes_lt packed) first
    rw [List.flatten_cons, Framing.run_append, rest, calls_append, decoded,
      decodeFrame_frameBytes packed fits convert, inductionHypothesis others, List.flatMap_cons]

theorem link_delivers_ramp :
    calls (Framing.run (processPulse id) reset [framePulses (frameBytes (128 * ·)) 4000].flatten).2 =
      [.decode (frameBytes (128 * ·)), .report ⟨16, (List.range 16).map (128 * ·), false⟩] :=
  link_delivers id (by decide : ∀ values ∈ [(128 * ·)], _)
    (.cons ⟨List.replicate 24 0, 4000, by decide, by decide, by decide, by decide,
      seen_exactPulses _⟩ .nil)

end Urus.RcProtocol.SbusPulse
