/-
This file develops the order of the numbers on a cycle. The numbers from one up to a last
one follow each other, and one follows the last one. Seen from one of them, the others
come in the order in which they are met, and the number itself comes at the end.

Numbers that end in a run without gaps are counted backwards; they are listed from the
first one on by counting forwards, with one step back round the cycle.
-/

import Mathlib.Tactic

namespace Urus

section CyclicOrder

/-- How many steps from the start a number is met. -/
def cyclicRank (last start number : ℕ) : ℕ :=
  if start < number then number - start else last - start + number

/-- How many steps back from the end a number is met. -/
def stepsBack (last stop number : ℕ) : ℕ :=
  if number ≤ stop then stop - number else stop + last - number

/-- The number that is met first. -/
def IsFirst (last start : ℕ) (numbers : Set ℕ) (first : ℕ) : Prop :=
  first ∈ numbers ∧ ∀ number ∈ numbers, cyclicRank last start first ≤ cyclicRank last start number

/-- The number that is met first, or zero if there is none. -/
def FirstOrNone (last start : ℕ) (numbers : Set ℕ) (first : ℕ) : Prop :=
  IsFirst last start numbers first ∨ numbers = ∅ ∧ first = 0

/-- The numbers are the given number of steps up to the end. -/
structure RunEnding (last stop : ℕ) (numbers : Set ℕ) (length : ℕ) : Prop where
  nonempty : 1 ≤ length
  bounded : length ≤ last
  positive : 1 ≤ stop
  inside : stop ≤ last
  mem_iff : ∀ number, number ∈ numbers ↔
    1 ≤ number ∧ number ≤ last ∧ stepsBack last stop number < length

/-- The place behind another one by some steps, round the cycle at most once. -/
def wrapped (last number : ℕ) : ℕ := if number > last then number - last else number

variable {last start stop length first number other : ℕ} {numbers : Set ℕ}

theorem cyclicRank_le_iff (positive : 1 ≤ number) (inside : number ≤ last)
    (otherPositive : 1 ≤ other) (otherInside : other ≤ last) :
    cyclicRank last start number ≤ cyclicRank last start other ↔
      start < number ∧ other ≤ start ∨ (start < number ↔ start < other) ∧ number ≤ other := by
  unfold cyclicRank
  split <;> split <;> omega

/-- Different numbers are met at different times. -/
theorem cyclicRank_inj (positive : 1 ≤ number) (inside : number ≤ last)
    (otherPositive : 1 ≤ other) (otherInside : other ≤ last)
    (same : cyclicRank last start number = cyclicRank last start other) : number = other := by
  unfold cyclicRank at same
  split at same <;> split at same <;> omega

theorem cyclicRank_add_stepsBack (inside : number ≤ last) (stopInside : stop ≤ last) :
    cyclicRank last stop number + stepsBack last stop number = last := by
  unfold cyclicRank stepsBack
  split <;> split <;> omega

theorem exists_stepsBack (inside : stop ≤ last) (steps : ℕ) (short : steps < last) :
    ∃ number, 1 ≤ number ∧ number ≤ last ∧ stepsBack last stop number = steps := by
  by_cases near : steps < stop
  · refine ⟨stop - steps, by omega, by omega, ?_⟩
    rw [stepsBack, if_pos (by omega)]
    omega
  · refine ⟨stop + last - steps, by omega, by omega, ?_⟩
    rw [stepsBack, if_neg (by omega)]
    omega

section

variable (run : RunEnding last stop numbers length)

include run

theorem RunEnding.stop_mem : stop ∈ numbers := by
  refine (run.mem_iff stop).mpr ⟨run.positive, run.inside, ?_⟩
  rw [stepsBack, if_pos (le_refl _), Nat.sub_self]
  exact run.nonempty

theorem RunEnding.first_stepsBack (isFirst : IsFirst last stop numbers first) :
    1 ≤ first ∧ first ≤ last ∧ stepsBack last stop first = length - 1 := by
  have nonempty := run.nonempty
  have bounded := run.bounded
  have inside := run.inside
  obtain ⟨positive, within, near⟩ := (run.mem_iff first).mp isFirst.1
  refine ⟨positive, within, ?_⟩
  -- the number with the most steps back is in the run, and is not met later
  obtain ⟨farthest, farPositive, farWithin, far⟩ :=
    exists_stepsBack inside (length - 1) (by omega)
  have order := isFirst.2 farthest ((run.mem_iff farthest).mpr ⟨farPositive, farWithin, by omega⟩)
  have sum := cyclicRank_add_stepsBack within inside
  have farSum := cyclicRank_add_stepsBack farWithin inside
  omega

theorem RunEnding.wrapped_rank
    (isFirst : IsFirst last stop numbers first) {entry : ℕ} (listed : 1 ≤ entry)
    (short : entry ≤ length) :
    1 ≤ wrapped last (first + entry - 1) ∧ wrapped last (first + entry - 1) ≤ last ∧
      cyclicRank last stop (wrapped last (first + entry - 1)) = last - length + entry := by
  have bounded := run.bounded
  have stopPositive := run.positive
  have inside := run.inside
  obtain ⟨positive, within, back⟩ := run.first_stepsBack isFirst
  unfold stepsBack at back
  unfold wrapped cyclicRank
  split at back <;> split <;> split <;> omega

theorem RunEnding.bijOn (isFirst : IsFirst last stop numbers first) :
    Set.BijOn (fun entry => wrapped last (first + entry - 1)) (Set.Icc 1 length) numbers ∧
      StrictMonoOn (fun entry => cyclicRank last stop (wrapped last (first + entry - 1)))
        (Set.Icc 1 length) := by
  have bounded := run.bounded
  have inside := run.inside
  have ordered : StrictMonoOn
      (fun entry => cyclicRank last stop (wrapped last (first + entry - 1)))
      (Set.Icc 1 length) := by
    intro entry listed later laterListed order
    obtain ⟨-, -, rank⟩ := run.wrapped_rank isFirst listed.1 listed.2
    obtain ⟨-, -, laterRank⟩ := run.wrapped_rank isFirst laterListed.1 laterListed.2
    dsimp only
    rw [rank, laterRank]
    omega
  refine ⟨⟨?_, ?_, ?_⟩, ordered⟩
  · intro entry listed
    obtain ⟨positive, within, rank⟩ := run.wrapped_rank isFirst listed.1 listed.2
    have sum := cyclicRank_add_stepsBack within inside
    have early := listed.1
    have near : stepsBack last stop (wrapped last (first + entry - 1)) < length := by omega
    exact (run.mem_iff _).mpr ⟨positive, within, near⟩
  · intro entry listed other otherListed same
    exact ordered.injOn listed otherListed (congrArg (cyclicRank last stop) same)
  · intro number member
    obtain ⟨positive, within, near⟩ := (run.mem_iff number).mp member
    have sum := cyclicRank_add_stepsBack within inside
    have listed : 1 ≤ cyclicRank last stop number - (last - length) := by omega
    have short : cyclicRank last stop number - (last - length) ≤ length := by omega
    obtain ⟨foundPositive, foundWithin, rank⟩ := run.wrapped_rank isFirst listed short
    refine ⟨_, ⟨listed, short⟩, ?_⟩
    refine cyclicRank_inj foundPositive foundWithin positive within (rank.trans ?_)
    omega

end

/-- Two lists of the same numbers are equally long. -/
theorem length_eq_of_bijOn {first second : ℕ → ℕ} {count otherCount : ℕ}
    (counts : Set.BijOn first (Set.Icc 1 count) numbers)
    (otherCounts : Set.BijOn second (Set.Icc 1 otherCount) numbers) : count = otherCount := by
  have size : ∀ {list : ℕ → ℕ} {count : ℕ}, Set.BijOn list (Set.Icc 1 count) numbers →
      numbers.ncard = count := by
    intro list count lists
    rw [← lists.image_eq, lists.injOn.ncard_image, ← Finset.coe_Icc,
      Set.ncard_coe_finset, Nat.card_Icc, Nat.add_sub_cancel]
  exact (size counts).symm.trans (size otherCounts)

end CyclicOrder

end Urus
