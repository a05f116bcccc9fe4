/-
This file develops machines that answer calls. A specification says which answers it allows to
a call and what it goes on with; a machine serves it along a run if the specification goes
through the calls with the answers of the machine. One step of a simulation is enough for this:
related states allow the answer and stay related.
-/

import Urus.Lib.Trace

namespace Urus

section Serve

variable {Device Call Answer Spec : Type} (step : Device → Call → Device × Answer)
  (allows : Spec → Call → Answer → Spec → Prop)

/-- The answers to a list of calls. -/
def answers : Device → List Call → List Answer
  | _, [] => []
  | device, call :: rest => (step device call).2 :: answers (step device call).1 rest

/-- The specification goes through the calls with these answers. -/
def Serves : Spec → List (Call × Answer) → Spec → Prop
  | spec, [], final => spec = final
  | spec, (call, answer) :: rest, final => ∃ next, allows spec call answer next ∧
      Serves next rest final

variable {step} {allows}

/-- A machine that simulates a specification in every fair step serves it along every fair run. -/
theorem serves_of_simulates {fair : Device → Call → Prop} (related : Device → Spec → Prop)
    (simulates : ∀ device spec call, related device spec → fair device call →
      ∃ next, allows spec call (step device call).2 next ∧ related (step device call).1 next)
    {device : Device} {spec : Spec} {calls : List Call} (start : related device spec)
    (along : Along (fun device call => (step device call).1) (fun _ => True) fair device calls) :
    ∃ final, Serves allows spec (calls.zip (answers step device calls)) final ∧
      related (runCalls (fun device call => (step device call).1) device calls) final := by
  induction calls generalizing device spec with
  | nil => exact ⟨spec, rfl, start⟩
  | cons call rest inductionHypothesis =>
    obtain ⟨-, allowed, remaining⟩ := along
    obtain ⟨next, answered, kept⟩ := simulates device spec call start allowed
    obtain ⟨final, served, reached⟩ := inductionHypothesis kept remaining
    exact ⟨final, ⟨next, answered, served⟩, reached⟩

theorem along_of_always {apply : Device → Call → Device} {fair : Device → Call → Prop}
    (always : ∀ device call, fair device call) (device : Device) (calls : List Call) :
    Along apply (fun _ => True) fair device calls := by
  induction calls generalizing device with
  | nil => trivial
  | cons call rest inductionHypothesis =>
    exact ⟨trivial, always device call, inductionHypothesis _⟩

end Serve

end Urus
