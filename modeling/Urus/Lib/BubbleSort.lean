/-
This file is a library about bubble sort on an array. A pass compares neighbours and swaps them, and
passes over a shorter and shorter part of the array follow until one of them swaps nothing. Every
access to the array is checked, and the sort has no result if one of them is out of bounds.

A pass carries the largest entry so far along, so behind it the last entry is the largest one. The
sort stays within the array, and leaves the entries in ascending order.
-/

import Mathlib.Data.List.Pairwise
import Mathlib.Order.Defs.LinearOrder
import Mathlib.Tactic

namespace Urus.BubbleSort

variable {Entry Key : Type*} [LinearOrder Key] (key : Entry → Key)

/-! ### The loops -/

/-- The rest of a pass: how many entries are left, the index of the next one, and whether two
neighbours were swapped so far. -/
def passLoop : ℕ → ℕ → List Entry → Bool → Option (List Entry × Bool)
  | 0, _, entries, swapped => some (entries, swapped)
  | rounds + 1, index, entries, swapped => do
    let before ← entries[index - 1]?
    let current ← entries[index]?
    if key current < key before then
      passLoop rounds (index + 1) ((entries.set index before).set (index - 1) current) true
    else passLoop rounds (index + 1) entries swapped

/-- The passes over the first entries, and over one entry less each time. -/
def sortLoop : ℕ → List Entry → Option (List Entry)
  | 0, entries => some entries
  | rest + 1, entries => do
    let pass ← passLoop key rest 1 entries false
    if pass.2 then sortLoop rest pass.1 else some pass.1

/-! ### One pass -/

/-- A pass on a list: the entry that is carried along, and the entries that it meets. -/
def carry (current : Entry) : List Entry → List Entry × Bool
  | [] => ([current], false)
  | next :: rest =>
    if key next < key current then (next :: (carry current rest).1, true)
    else (current :: (carry next rest).1, (carry next rest).2)

theorem passLoop_eq (done : List Entry) (current : Entry) (rest tail : List Entry)
    (swapped : Bool) :
    passLoop key rest.length (done.length + 1) (done ++ current :: (rest ++ tail)) swapped =
      some (done ++ ((carry key current rest).1 ++ tail),
        swapped || (carry key current rest).2) := by
  induction rest generalizing done current swapped with
  | nil => rw [List.length_nil, passLoop, carry, Bool.or_false]; rfl
  | cons next rest inductionHypothesis =>
    have behind : done.length ≤ done.length + 1 := Nat.le_succ _
    have before : (done ++ current :: (next :: rest ++ tail))[done.length + 1 - 1]? =
        some current := by
      rw [Nat.add_sub_cancel, List.getElem?_append_right (Nat.le_refl _), Nat.sub_self]
      rfl
    have after : (done ++ current :: (next :: rest ++ tail))[done.length + 1]? = some next := by
      rw [List.getElem?_append_right behind, Nat.add_sub_cancel_left]
      rfl
    have longer : ∀ entry : Entry, (done ++ [entry]).length = done.length + 1 := fun entry => by
      rw [List.length_append, List.length_singleton]
    rw [List.length_cons, passLoop, before, after, carry]
    dsimp only [Option.bind_eq_bind, Option.bind_some]
    by_cases smaller : key next < key current
    · have swap : ((done ++ current :: (next :: rest ++ tail)).set (done.length + 1)
          current).set (done.length + 1 - 1) next =
            (done ++ [next]) ++ current :: (rest ++ tail) := by
        rw [Nat.add_sub_cancel, List.set_append_right _ _ behind,
          List.set_append_right _ _ (Nat.le_refl _), Nat.add_sub_cancel_left, Nat.sub_self,
          List.append_assoc]
        rfl
      rw [if_pos smaller, if_pos smaller, swap, ← longer next, inductionHypothesis,
        List.append_assoc, Bool.true_or, Bool.or_true]
      rfl
    · have moved : done ++ current :: (next :: rest ++ tail) =
          (done ++ [current]) ++ next :: (rest ++ tail) := List.append_cons _ _ _
      rw [if_neg smaller, if_neg smaller, ← longer current, moved, inductionHypothesis,
        List.append_assoc]
      rfl

theorem carry_perm (current : Entry) (rest : List Entry) :
    (carry key current rest).1.Perm (current :: rest) := by
  induction rest generalizing current with
  | nil => exact List.Perm.refl _
  | cons next rest inductionHypothesis =>
    rw [carry]
    split_ifs
    · exact ((inductionHypothesis current).cons next).trans (List.Perm.swap current next rest)
    · exact (inductionHypothesis next).cons current

theorem carry_last (current : Entry) (rest : List Entry) :
    ∃ front last, (carry key current rest).1 = front ++ [last] ∧
      ∀ entry ∈ current :: rest, key entry ≤ key last := by
  induction rest generalizing current with
  | nil => exact ⟨[], current, rfl, fun entry member => by rw [List.mem_singleton.mp member]⟩
  | cons next rest inductionHypothesis =>
    rw [carry]
    split_ifs with smaller
    · obtain ⟨front, last, shape, largest⟩ := inductionHypothesis current
      refine ⟨next :: front, last, congrArg (next :: ·) shape, fun entry member => ?_⟩
      rcases List.mem_cons.mp member with rfl | later
      · exact largest _ List.mem_cons_self
      · rcases List.mem_cons.mp later with rfl | later
        · exact smaller.le.trans (largest _ List.mem_cons_self)
        · exact largest _ (List.mem_cons_of_mem _ later)
    · obtain ⟨front, last, shape, largest⟩ := inductionHypothesis next
      refine ⟨current :: front, last, congrArg (current :: ·) shape, fun entry member => ?_⟩
      rcases List.mem_cons.mp member with rfl | later
      · exact (not_lt.mp smaller).trans (largest _ List.mem_cons_self)
      · exact largest _ later

variable {key}

/-- A pass that swaps nothing has met an ascending list. -/
theorem carry_calm (current : Entry) (rest : List Entry)
    (calm : (carry key current rest).2 = false) :
    (carry key current rest).1 = current :: rest ∧
      (current :: rest).Pairwise fun first second => key first ≤ key second := by
  induction rest generalizing current with
  | nil => exact ⟨rfl, List.pairwise_singleton _ _⟩
  | cons next rest inductionHypothesis =>
    rw [carry] at calm ⊢
    split_ifs at calm ⊢ with smaller
    · obtain ⟨same, ascending⟩ := inductionHypothesis next calm
      refine ⟨congrArg (current :: ·) same, List.pairwise_cons.mpr ⟨?_, ascending⟩⟩
      intro entry member
      rcases List.mem_cons.mp member with rfl | later
      · exact not_lt.mp smaller
      · exact (not_lt.mp smaller).trans ((List.pairwise_cons.mp ascending).1 entry later)

/-! ### The sort -/

variable (key) in
/-- The sort stays within the array and leaves its first entries in ascending order. -/
theorem sortLoop_spec (entries tail : List Entry) :
    ∃ sorted, sortLoop key entries.length (entries ++ tail) = some (sorted ++ tail) ∧
      sorted.Perm entries ∧
      sorted.Pairwise fun first second => key first ≤ key second := by
  induction count : entries.length generalizing entries tail with
  | zero =>
    rw [List.length_eq_zero_iff.mp count]
    exact ⟨[], rfl, List.Perm.refl _, List.Pairwise.nil⟩
  | succ rest inductionHypothesis =>
    cases entries with
    | nil => exact absurd count (Nat.succ_ne_zero rest).symm
    | cons current others =>
      have length : others.length = rest := Nat.succ.inj count
      have pass := passLoop_eq key [] current others tail false
      rw [length, List.nil_append, List.nil_append, Bool.false_or] at pass
      rw [sortLoop, List.cons_append, show (1 : ℕ) = ([] : List Entry).length + 1 from rfl, pass]
      dsimp only [Option.bind_eq_bind, Option.bind_some]
      cases swapped : (carry key current others).2 with
      | false =>
        obtain ⟨same, ascending⟩ := carry_calm current others swapped
        rw [same]
        exact ⟨current :: others, rfl, List.Perm.refl _, ascending⟩
      | true =>
        obtain ⟨front, last, shape, largest⟩ := carry_last key current others
        have perm := carry_perm key current others
        rw [shape] at perm ⊢
        have frontLength : front.length = rest := by
          have same := perm.length_eq
          rw [List.length_append, List.length_singleton, count] at same
          exact Nat.succ.inj same
        obtain ⟨sorted, result, sortedPerm, ascending⟩ :=
          inductionHypothesis front ([last] ++ tail) frontLength
        refine ⟨sorted ++ [last], ?_, (sortedPerm.append_right [last]).trans perm, ?_⟩
        · rw [if_pos rfl, List.append_assoc, result, List.append_assoc]
        · refine List.pairwise_append.mpr ⟨ascending, List.pairwise_singleton _ _, ?_⟩
          intro entry member other same
          rw [List.mem_singleton.mp same]
          refine largest entry (perm.mem_iff.mp (List.mem_append_left _ ?_))
          exact sortedPerm.mem_iff.mp member

end Urus.BubbleSort
