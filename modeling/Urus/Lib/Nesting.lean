/-
This file is a library about interrupts. In each gap between two steps, code may be interrupted by
handlers. A handler runs to its end before the code goes on, and may be interrupted itself.

What a handler keeps if it is kept in all its gaps is kept by interrupts of any depth.
-/

import Mathlib.Data.List.Basic

namespace Urus.Nesting

variable {State : Type*}

/-- The handlers that run in each gap, with their own interrupts down to a depth. -/
def Interrupts : ℕ → Type
  | 0 => Unit
  | depth + 1 => ℕ → List (Interrupts depth)

/-- What is done in a gap when each interrupt runs a handler. -/
def pauses (handler : (ℕ → State → State) → State → State) :
    (depth : ℕ) → Interrupts depth → ℕ → State → State
  | 0, _, _, state => state
  | depth + 1, interrupts, gap, state =>
    (interrupts gap).foldl (fun state inner => handler (pauses handler depth inner) state) state

variable {handler : (ℕ → State → State) → State → State} {kept : State → State → Prop}

theorem pauses_keep (refl : ∀ state, kept state state)
    (trans : ∀ {first second third}, kept first second → kept second third → kept first third)
    (keeps : ∀ pause, (∀ gap state, kept state (pause gap state)) →
      ∀ state, kept state (handler pause state))
    (depth : ℕ) (interrupts : Interrupts depth) (gap : ℕ) (state : State) :
    kept state (pauses handler depth interrupts gap state) := by
  induction depth generalizing gap state with
  | zero => exact refl state
  | succ depth inductionHypothesis =>
    rw [pauses]
    generalize interrupts gap = inners
    induction inners generalizing state with
    | nil => exact refl state
    | cons inner rest restHypothesis =>
      exact trans (keeps _ (inductionHypothesis inner) state) (restHypothesis _)

end Urus.Nesting
