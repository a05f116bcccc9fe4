/-
This file develops logs of requests. Items are asked for and sent, again and again, and
an item waits from the first time it is asked for until it is sent. A queue serves such
a log if it holds the items that wait, in the order in which they began to.

The log has the latest entry first.
-/

import Mathlib.Tactic

namespace Urus

/-- What happened: an item was asked for, or it was sent. -/
inductive Entry (Item : Type)
  | requested (item : Item)
  | sent (item : Item)
  deriving DecidableEq

section Requests

variable {Item : Type} [DecidableEq Item]

/-- When an item was first asked for since it was last sent, if it was. -/
def firstRequest : List (Entry Item) → Item → Option ℕ
  | [], _ => none
  | .sent other :: older, item => if other = item then none else firstRequest older item
  | .requested other :: older, item =>
    if other = item then some ((firstRequest older item).getD older.length)
    else firstRequest older item

/-- Both items wait, and the first one began before the second one. -/
def Before (log : List (Entry Item)) (first second : Item) : Prop :=
  ∃ early late, firstRequest log first = some early ∧ firstRequest log second = some late ∧
    early < late

/-- The queue holds the items that wait, in the order in which they began to. -/
structure Waits (log : List (Entry Item)) (queue : List Item) : Prop where
  ordered : queue.Pairwise (Before log)
  waiting : ∀ item, item ∈ queue ↔ (firstRequest log item).isSome

variable {log : List (Entry Item)} {queue : List Item} {item : Item}

theorem firstRequest_lt {time : ℕ} (waits : firstRequest log item = some time) :
    time < log.length := by
  induction log generalizing time with
  | nil => exact nomatch waits
  | cons entry older inductionHypothesis =>
    rw [List.length_cons]
    cases entry with
    | sent other =>
      rw [firstRequest] at waits
      split at waits
      · exact nomatch waits
      · exact lt_trans (inductionHypothesis waits) (Nat.lt_succ_self _)
    | requested other =>
      rw [firstRequest] at waits
      split at waits
      · cases earlier : firstRequest older item with
        | none =>
          rw [earlier] at waits
          rw [← Option.some.inj waits]
          exact Nat.lt_succ_self _
        | some first =>
          rw [earlier] at waits
          rw [← Option.some.inj waits, Option.getD_some]
          exact lt_trans (inductionHypothesis earlier) (Nat.lt_succ_self _)
      · exact lt_trans (inductionHypothesis waits) (Nat.lt_succ_self _)

theorem firstRequest_requested {other : Item} {time : ℕ} (waits : firstRequest log other = some time) :
    firstRequest (.requested item :: log) other = some time := by
  rw [firstRequest]
  split
  · rw [waits, Option.getD_some]
  · exact waits

theorem Before.requested {first second : Item} (before : Before log first second) :
    Before (.requested item :: log) first second := by
  obtain ⟨early, late, isFirst, isSecond, order⟩ := before
  exact ⟨early, late, firstRequest_requested isFirst, firstRequest_requested isSecond, order⟩

theorem waits_nil : Waits ([] : List (Entry Item)) [] where
  ordered := List.Pairwise.nil
  waiting _ := ⟨nofun, nofun⟩

/-- No item waits twice. -/
theorem Waits.nodup (waits : Waits log queue) : queue.Nodup := by
  refine waits.ordered.imp fun before same => ?_
  subst same
  obtain ⟨early, late, isFirst, isSecond, order⟩ := before
  exact absurd (Option.some.inj (isFirst.symm.trans isSecond)) (Nat.ne_of_lt order)

/-- An item that does not wait yet is the last one when it is asked for. -/
theorem Waits.request_new (waits : Waits log queue) (absent : item ∉ queue) :
    Waits (.requested item :: log) (queue ++ [item]) := by
  have idle : firstRequest log item = none :=
    Option.not_isSome_iff_eq_none.mp (mt (waits.waiting item).mpr absent)
  have begins : firstRequest (.requested item :: log) item = some log.length := by
    rw [firstRequest, if_pos rfl, idle, Option.getD_none]
  refine ⟨List.pairwise_append.mpr ⟨waits.ordered.imp Before.requested, List.pairwise_singleton _ _,
    fun other member last isLast => ?_⟩, fun other => ?_⟩
  · obtain ⟨time, isTime⟩ := Option.isSome_iff_exists.mp ((waits.waiting other).mp member)
    rw [List.mem_singleton.mp isLast]
    exact ⟨time, log.length, firstRequest_requested isTime, begins, firstRequest_lt isTime⟩
  · rw [List.mem_append, List.mem_singleton, firstRequest]
    by_cases same : item = other
    · rw [if_pos same]
      exact iff_of_true (Or.inr same.symm) rfl
    · rw [if_neg same, ← waits.waiting]
      exact or_iff_left (Ne.symm same)

theorem Waits.request_again (waits : Waits log queue) (present : item ∈ queue) :
    Waits (.requested item :: log) queue where
  ordered := waits.ordered.imp Before.requested
  waiting other := by
    rw [waits.waiting, firstRequest]
    split
    · rename_i same
      subst same
      exact iff_of_true ((waits.waiting item).mp present) rfl
    · rfl

theorem Waits.send {rest : List Item} (waits : Waits log (item :: rest)) :
    Waits (.sent item :: log) rest := by
  have distinct := waits.nodup
  rw [List.nodup_cons] at distinct
  have kept : ∀ other ≠ item, firstRequest (.sent item :: log) other = firstRequest log other :=
    fun other different => by rw [firstRequest, if_neg (Ne.symm different)]
  have different : ∀ other ∈ rest, other ≠ item := fun other member same =>
    distinct.1 (same ▸ member)
  refine ⟨?_, fun other => ?_⟩
  · refine List.Pairwise.imp_of_mem (fun {first second} isFirst isSecond before => ?_)
      (List.pairwise_cons.mp waits.ordered).2
    obtain ⟨early, late, begins, follows, order⟩ := before
    exact ⟨early, late, (kept first (different first isFirst)).trans begins,
      (kept second (different second isSecond)).trans follows, order⟩
  · by_cases same : other = item
    · rw [same, firstRequest, if_pos rfl]
      exact iff_of_false distinct.1 (by simp)
    · rw [kept other same, ← waits.waiting, List.mem_cons]
      exact (or_iff_right same).symm

end Requests

end Urus
