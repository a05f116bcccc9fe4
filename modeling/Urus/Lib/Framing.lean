/-
This file is a library about receivers of frames. A receiver reads a stream byte by byte: each byte
takes it to its next state and makes events. The events of a run are those of its bytes in order.

A sequence of frames is received right if each of them is, where the one before it has left the
receiver. When a receiver at rest takes a frame right exactly if the frame is good, and is at
rest again behind every good one, then a sequence is received right exactly if all its frames
are good. What is good may depend on a view of the state that the frames before have formed.
-/

import Mathlib.Data.List.Basic
import Urus.Lib.Trace

namespace Urus.Framing

/-! ### Runs -/

section Run

variable {State Byte Event : Type*} (receive : State → Byte → State × List Event)

/-- The state after a stream, and the events on the way. -/
def run : State → List Byte → State × List Event
  | state, [] => (state, [])
  | state, byte :: bytes =>
    let (next, events) := receive state byte
    let (last, later) := run next bytes
    (last, events ++ later)

theorem run_cons (state : State) (byte : Byte) (bytes : List Byte) :
    run receive state (byte :: bytes) =
      ((run receive (receive state byte).1 bytes).1,
        (receive state byte).2 ++ (run receive (receive state byte).1 bytes).2) := rfl

theorem run_singleton (state : State) (byte : Byte) :
    run receive state [byte] = receive state byte := by
  rw [run_cons]
  exact Prod.ext rfl (List.append_nil _)

theorem run_append (state : State) (first second : List Byte) :
    run receive state (first ++ second) =
      ((run receive (run receive state first).1 second).1,
        (run receive state first).2 ++ (run receive (run receive state first).1 second).2) := by
  induction first generalizing state with
  | nil => rfl
  | cons byte bytes inductionHypothesis =>
    rw [List.cons_append, run_cons, run_cons, inductionHypothesis, List.append_assoc]

variable {allowed : Event → Prop} {state : State}

theorem run_invariant_mem (invariant : State → Prop) {bytes : List Byte}
    (step : ∀ state, ∀ byte ∈ bytes, invariant state → invariant (receive state byte).1 ∧ ∀ event ∈ (receive state byte).2, allowed event)
    (start : invariant state) :
    invariant (run receive state bytes).1 ∧
      ∀ event ∈ (run receive state bytes).2, allowed event := by
  induction bytes generalizing state with
  | nil => exact ⟨start, fun _ member => nomatch member⟩
  | cons byte bytes inductionHypothesis =>
    obtain ⟨next, now⟩ := step state byte List.mem_cons_self start
    obtain ⟨last, later⟩ := inductionHypothesis
      (fun state other member => step state other (List.mem_cons_of_mem _ member)) next
    refine ⟨last, fun event member => ?_⟩
    rw [run_cons, List.mem_append] at member
    exact member.elim (now event) (later event)

theorem run_invariant {invariant : State → Prop}
    (step : ∀ state byte, invariant state → invariant (receive state byte).1 ∧ ∀ event ∈ (receive state byte).2, allowed event)
    (start : invariant state) (bytes : List Byte) :
    invariant (run receive state bytes).1 ∧
      ∀ event ∈ (run receive state bytes).2, allowed event :=
  run_invariant_mem receive invariant (fun state byte _ => step state byte) start

theorem run_events (step : ∀ state byte, ∀ event ∈ (receive state byte).2, allowed event)
    (state : State) (bytes : List Byte) : ∀ event ∈ (run receive state bytes).2, allowed event := by
  have each : ∀ state byte, True → True ∧ ∀ event ∈ (receive state byte).2, allowed event :=
    fun state byte _ => ⟨trivial, step state byte⟩
  exact (run_invariant receive each trivial bytes).2

/-- A receiver that counts the bytes of a part reads them one after the other, and is done behind the
last one. -/
theorem run_part (reading : List Byte → State) (done : State) {part : List Byte}
    (more : ∀ seen byte, seen.length + 1 < part.length → (receive (reading seen) byte).1 = reading (seen ++ [byte]) ∧ ∀ event ∈ (receive (reading seen) byte).2, allowed event)
    (last : ∀ seen byte, seen ++ [byte] = part → (receive (reading seen) byte).1 = done ∧ ∀ event ∈ (receive (reading seen) byte).2, allowed event)
    {seen rest : List Byte} (whole : seen ++ rest = part) (some_rest : rest ≠ []) :
    (run receive (reading seen) rest).1 = done ∧
      ∀ event ∈ (run receive (reading seen) rest).2, allowed event := by
  induction rest generalizing seen with
  | nil => exact absurd rfl some_rest
  | cons byte later inductionHypothesis =>
    rw [run_cons]
    by_cases none : later = []
    · subst none
      obtain ⟨next, now⟩ := last seen byte whole
      rw [next]
      exact ⟨rfl, fun event member => now event (by rwa [run, List.append_nil] at member)⟩
    · have length : seen.length + 1 < part.length := by
        rw [← whole, List.length_append, List.length_cons]
        have some_later := List.length_pos_of_ne_nil none
        omega
      obtain ⟨next, now⟩ := more seen byte length
      have onward : seen ++ [byte] ++ later = part := by rw [← whole, List.append_assoc]; rfl
      obtain ⟨final, events⟩ := inductionHypothesis onward none
      rw [next]
      exact ⟨final, fun event member => (List.mem_append.mp member).elim (now event) (events event)⟩

end Run

section Conditions

variable {State Byte Event : Type} (receive : State → Byte → State × List Event)

/-- What each byte keeps under a condition, a stream keeps whose bytes all meet it. -/
theorem run_invariant_along (invariant : State → Prop) {condition : State → Byte → Prop}
    {allowed : Event → Prop}
    (step : ∀ state byte, invariant state → condition state byte →
      invariant (receive state byte).1 ∧ ∀ event ∈ (receive state byte).2, allowed event)
    {state : State} (start : invariant state) {bytes : List Byte}
    (meets : Along (fun state byte => (receive state byte).1) (fun _ => True) condition state
      bytes) :
    invariant (run receive state bytes).1 ∧
      ∀ event ∈ (run receive state bytes).2, allowed event := by
  induction bytes generalizing state with
  | nil => exact ⟨start, fun _ member => nomatch member⟩
  | cons byte bytes inductionHypothesis =>
    obtain ⟨next, now⟩ := step state byte start meets.2.1
    obtain ⟨last, later⟩ := inductionHypothesis next meets.2.2
    refine ⟨last, fun event member => ?_⟩
    rw [run_cons, List.mem_append] at member
    exact member.elim (now event) (later event)

end Conditions

/-! ### Frames -/

section Frames

variable {State Byte Event Frame View : Type*} (receive : State → Byte → State × List Event)
  (bytes : Frame → List Byte) (right : State → Frame → Prop)

/-- Each frame of a sequence is received right. -/
def Framed : State → List Frame → Prop
  | _, [] => True
  | state, frame :: frames =>
    right state frame ∧ Framed (run receive state (bytes frame)).1 frames

/-- Each frame of a sequence is good for the view that the frames before it leave. -/
def AllGood (good : View → Frame → Prop) (next : View → Frame → View) : View → List Frame → Prop
  | _, [] => True
  | view, frame :: frames => good view frame ∧ AllGood good next (next view frame) frames

variable {receive bytes right}

variable {state : State}

/-- A receiver that takes exactly the good frames right when it is at rest takes exactly the
sequences of good frames right. -/
theorem framed_iff (atRest : State → Prop) (view : State → View) (good : View → Frame → Prop)
    (next : View → Frame → View)
    (each : ∀ state frame, atRest state → (right state frame ↔ good (view state) frame))
    (after : ∀ state frame, atRest state → good (view state) frame → atRest (run receive state (bytes frame)).1 ∧ view (run receive state (bytes frame)).1 = next (view state) frame)
    (start : atRest state) (frames : List Frame) :
    Framed receive bytes right state frames ↔ AllGood good next (view state) frames := by
  induction frames generalizing state with
  | nil => exact Iff.rfl
  | cons frame frames inductionHypothesis =>
    rw [Framed, AllGood, each state frame start]
    refine and_congr_right fun isGood => ?_
    obtain ⟨rest, seen⟩ := after state frame start isGood
    rw [inductionHypothesis rest, seen]

theorem allGood_iff_forall {good : Frame → Prop} {next : View → Frame → View} (view : View)
    (frames : List Frame) :
    AllGood (fun _ => good) next view frames ↔ ∀ frame ∈ frames, good frame := by
  induction frames generalizing view with
  | nil => exact iff_of_true trivial fun _ member => nomatch member
  | cons frame frames inductionHypothesis =>
    rw [AllGood, inductionHypothesis, List.forall_mem_cons]

theorem framed_iff_forall (atRest : State → Prop) (good : Frame → Prop)
    (each : ∀ state frame, atRest state → (right state frame ↔ good frame))
    (after : ∀ state frame, atRest state → good frame → atRest (run receive state (bytes frame)).1)
    (start : atRest state) (frames : List Frame) :
    Framed receive bytes right state frames ↔ ∀ frame ∈ frames, good frame := by
  have framed := framed_iff atRest (fun _ => ()) (fun _ => good) (fun _ _ => ()) each
    (fun state frame rest isGood => ⟨after state frame rest isGood, rfl⟩) start frames
  rw [framed, allGood_iff_forall]

end Frames

end Urus.Framing
