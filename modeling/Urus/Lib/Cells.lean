/-
This file is a library about bits that a receiver sees as runs, and gathers in cells of equal width.

A row of bits is a row of pairs of runs, each of them some bits of one kind and then some of the
other one. A receiver that writes ones into its cells, and moves on behind zeros, has in its cells
the bits it has seen.
-/

import Mathlib.Tactic
import Mathlib.Data.List.GetD

namespace Urus.Cells

/-! ### Runs -/

section Runs

variable (first : Bool)

/-- Put a bit in front of pairs of runs. -/
def push (bit : Bool) (runs : List (ℕ × ℕ)) : List (ℕ × ℕ) :=
  if bit = first then
    match runs with
    | [] => [(1, 0)]
    | (one, other) :: rest => (one + 1, other) :: rest
  else
    match runs with
    | [] => [(0, 1)]
    | (0, other) :: rest => (0, other + 1) :: rest
    | (one + 1, other) :: rest => (0, 1) :: (one + 1, other) :: rest

/-- The runs of a row of bits, in pairs that begin with the first kind. -/
def runs (bits : List Bool) : List (ℕ × ℕ) := bits.foldr (push first) []

/-- The bits of a pair of runs. -/
def bitsOf (run : ℕ × ℕ) : List Bool :=
  List.replicate run.1 first ++ List.replicate run.2 (!first)

theorem length_bitsOf (run : ℕ × ℕ) : (bitsOf first run).length = run.1 + run.2 := by
  rw [bitsOf, List.length_append, List.length_replicate, List.length_replicate]

theorem flatMap_push (bit : Bool) (pairs : List (ℕ × ℕ)) :
    (push first bit pairs).flatMap (bitsOf first) = bit :: pairs.flatMap (bitsOf first) := by
  by_cases same : bit = first
  · rw [push.eq_def, if_pos same, same]
    match pairs with
    | [] => rfl
    | (one, other) :: rest => rfl
  · have opposite : bit = !first := by
      cases bit <;> cases first <;> simp_all
    rw [push.eq_def, if_neg same, opposite]
    match pairs with
    | [] => rfl
    | (0, other) :: rest => rfl
    | (one + 1, other) :: rest => rfl

theorem flatMap_runs (bits : List Bool) : (runs first bits).flatMap (bitsOf first) = bits := by
  induction bits with
  | nil => rfl
  | cons bit rest inductionHypothesis =>
    rw [runs, List.foldr_cons, flatMap_push]
    exact congrArg (List.cons bit) inductionHypothesis

/-- A pair of runs neither of which is empty. -/
def Proper (run : ℕ × ℕ) : Prop := 0 < run.1 ∧ 0 < run.2

/-- The runs of a row that ends with the second kind: only the very first run may be empty. -/
theorem runs_append_singleton (bits : List Bool) :
    ∃ one other rest, runs first (bits ++ [!first]) = (one, other) :: rest ∧ 0 < other ∧
      (∀ run ∈ rest, Proper run) ∧ (bits.head? = some first → 0 < one) := by
  induction bits with
  | nil =>
    refine ⟨0, 1, [], ?_, by omega, (fun _ member => nomatch member), fun none => nomatch none⟩
    cases first <;> rfl
  | cons bit bits inductionHypothesis =>
    obtain ⟨one, other, rest, split, positive, proper, -⟩ := inductionHypothesis
    have onward : runs first (bit :: bits ++ [!first]) = push first bit ((one, other) :: rest) := by
      rw [← split]
      rfl
    rw [onward]
    by_cases same : bit = first
    · rw [push, if_pos same]
      exact ⟨one + 1, other, rest, rfl, positive, proper, fun _ => by omega⟩
    · rw [push, if_neg same]
      have notFirst : (bit :: bits).head? ≠ some first := fun head => same (Option.some.inj head)
      match one with
      | 0 => exact ⟨0, other + 1, rest, rfl, by omega, proper, fun head => absurd head notFirst⟩
      | one + 1 =>
        refine ⟨0, 1, (one + 1, other) :: rest, rfl, by omega, ?_, fun head => absurd head notFirst⟩
        exact List.forall_mem_cons.mpr ⟨⟨Nat.succ_pos one, positive⟩, proper⟩

/-- The runs of a row that begins with the first kind and ends with the second one. -/
theorem runs_proper (bits : List Bool) :
    runs first (first :: bits ++ [!first]) ≠ [] ∧
      ∀ run ∈ runs first (first :: bits ++ [!first]), Proper run := by
  obtain ⟨one, other, rest, split, positive, proper, head⟩ :=
    runs_append_singleton first (first :: bits)
  rw [split]
  exact ⟨List.cons_ne_nil _ _, List.forall_mem_cons.mpr ⟨⟨head rfl, positive⟩, proper⟩⟩

/-- Make the last run longer. -/
def addLast (extra : ℕ) : List (ℕ × ℕ) → List (ℕ × ℕ)
  | [] => []
  | [(one, other)] => [(one, other + extra)]
  | run :: next :: rest => run :: addLast extra (next :: rest)

theorem addLast_append_singleton (extra : ℕ) (runs : List (ℕ × ℕ)) (last : ℕ × ℕ) :
    addLast extra (runs ++ [last]) = runs ++ [(last.1, last.2 + extra)] := by
  induction runs with
  | nil => rfl
  | cons run rest inductionHypothesis =>
    cases rest with
    | nil => rfl
    | cons next rest => exact congrArg (List.cons run) inductionHypothesis

end Runs

/-! ### Cells -/

section Cells

variable (width : ℕ)

/-- The cells hold a row of bits, and nothing behind it. -/
def Holds (cells : List ℕ) (bits : List Bool) : Prop :=
  ∀ index bit, (cells.getD index 0).testBit bit =
    (decide (bit < width) && bits.getD (width * index + bit) false)

variable {width} {cells : List ℕ} {bits : List Bool}

theorem holds_replicate (count : ℕ) : Holds width (List.replicate count 0) [] := by
  intro index bit
  rw [List.getD_eq_getElem?_getD, List.getElem?_getD_replicate_default_eq, Nat.zero_testBit, List.getD_nil, Bool.and_false]

theorem getD_append_replicate (count position : ℕ) (value : Bool) :
    (bits ++ List.replicate count value).getD position false =
      if position < bits.length then bits.getD position false
      else decide (position < bits.length + count) && value := by
  by_cases before : position < bits.length
  · rw [if_pos before, List.getD_append _ _ _ _ before]
  · rw [if_neg before, List.getD_append_right _ _ _ _ (by omega)]
    by_cases inside : position < bits.length + count
    · rw [List.getD_eq_getElem _ _ (by rw [List.length_replicate]; omega), List.getElem_replicate,
        decide_eq_true inside, Bool.true_and]
    · rw [List.getD_eq_default _ _ (by rw [List.length_replicate]; omega),
        decide_eq_false inside, Bool.false_and]

theorem getD_of_length_le {position : ℕ} (behind : bits.length ≤ position) :
    bits.getD position false = false := List.getD_eq_default _ _ behind

theorem Holds.zeros (holds : Holds width cells bits) (count : ℕ) :
    Holds width cells (bits ++ List.replicate count false) := by
  intro index bit
  rw [holds index bit, getD_append_replicate, Bool.and_false]
  split
  case isTrue => rfl
  case isFalse behind => rw [getD_of_length_le (by omega)]

theorem Holds.ones {index offset count : ℕ} (holds : Holds width cells bits)
    (position : bits.length = width * index + offset) (room : offset + count ≤ width)
    (inside : index < cells.length) :
    Holds width (cells.set index (cells.getD index 0 ||| ((1 <<< count - 1) <<< offset)))
      (bits ++ List.replicate count true) := by
  intro other bit
  rw [getD_append_replicate, Bool.and_true]
  by_cases small : bit < width
  case neg =>
    rw [decide_eq_false small, Bool.false_and]
    by_cases same : index = other
    · subst same
      rw [List.getD_eq_getElem _ _ (by rwa [List.length_set]), List.getElem_set_self,
        Nat.testBit_or, holds index bit, decide_eq_false small, Bool.false_and, Bool.false_or,
        Nat.testBit_shiftLeft, Nat.one_shiftLeft, Nat.testBit_two_pow_sub_one]
      simp only [Bool.and_eq_false_imp, decide_eq_true_eq, decide_eq_false_iff_not]
      omega
    · rw [List.getD_eq_getElem?_getD, List.getElem?_set_ne same, ← List.getD_eq_getElem?_getD,
        holds other bit, decide_eq_false small, Bool.false_and]
  rw [decide_eq_true small, Bool.true_and]
  by_cases same : index = other
  · subst same
    rw [List.getD_eq_getElem _ _ (by rwa [List.length_set]), List.getElem_set_self,
      Nat.testBit_or, holds index bit, decide_eq_true small, Bool.true_and,
      Nat.testBit_shiftLeft, Nat.one_shiftLeft, Nat.testBit_two_pow_sub_one]
    split
    case isTrue before =>
      rw [decide_eq_false (show ¬offset ≤ bit by omega), Bool.false_and, Bool.or_false]
    case isFalse behind =>
      rw [getD_of_length_le (by omega), Bool.false_or,
        decide_eq_true (show offset ≤ bit by omega), Bool.true_and, decide_eq_decide]
      omega
  · rw [List.getD_eq_getElem?_getD, List.getElem?_set_ne same, ← List.getD_eq_getElem?_getD,
      holds other bit, decide_eq_true small, Bool.true_and]
    split
    case isTrue => rfl
    case isFalse behind =>
      rw [getD_of_length_le (by omega)]
      symm
      rw [decide_eq_false_iff_not]
      rcases Nat.lt_or_gt_of_ne same with before | after
      · have next : width * (index + 1) ≤ width * other := Nat.mul_le_mul_left _ before
        rw [Nat.mul_succ] at next
        omega
      · have next : width * (other + 1) ≤ width * index := Nat.mul_le_mul_left _ after
        rw [Nat.mul_succ] at next
        omega

/-- The number whose bits are a row, the lowest one first. -/
def value (row : List Bool) : ℕ := row.foldr (fun bit rest => bit.toNat + 2 * rest) 0

theorem testBit_value (row : List Bool) (bit : ℕ) :
    (value row).testBit bit = row.getD bit false := by
  induction row generalizing bit with
  | nil => rw [value, List.foldr_nil, Nat.zero_testBit, List.getD_nil]
  | cons head rest inductionHypothesis =>
    have split : value (head :: rest) = 2 * value rest + head.toNat := by
      rw [value, List.foldr_cons, Nat.add_comm, value]
    rw [split]
    cases bit with
    | zero =>
      rw [List.getD_cons_zero, Nat.testBit_zero, Nat.mul_add_mod]
      cases head <;> rfl
    | succ bit =>
      have half : (2 * value rest + head.toNat) / 2 = value rest := by
        cases head <;> simp only [Bool.toNat_false, Bool.toNat_true] <;> omega
      rw [List.getD_cons_succ, Nat.testBit_succ, half, inductionHypothesis]

theorem getD_flatten {rows : List (List Bool)} (each : ∀ row ∈ rows, row.length = width)
    {bit : ℕ} (small : bit < width) (index : ℕ) :
    rows.flatten.getD (width * index + bit) false = (rows.getD index []).getD bit false := by
  induction rows generalizing index with
  | nil => rfl
  | cons row rest inductionHypothesis =>
    have length : row.length = width := each row List.mem_cons_self
    rw [List.flatten_cons]
    cases index with
    | zero =>
      rw [List.getD_cons_zero, Nat.mul_zero, Nat.zero_add,
        List.getD_append _ _ _ _ (by rwa [length])]
    | succ index =>
      have position : width * (index + 1) + bit - row.length = width * index + bit := by
        rw [length, Nat.mul_succ]
        omega
      rw [List.getD_cons_succ, List.getD_append_right _ _ _ _ (by rw [length, Nat.mul_succ]; omega),
        position,
        inductionHypothesis fun other member => each other (List.mem_cons_of_mem _ member)]

theorem Holds.cell {rows : List (List Bool)} (holds : Holds width cells rows.flatten)
    (each : ∀ row ∈ rows, row.length = width) {index : ℕ} (inside : index < rows.length) :
    cells.getD index 0 = value (rows.getD index []) := by
  refine Nat.eq_of_testBit_eq fun bit => ?_
  rw [holds index bit, testBit_value]
  by_cases small : bit < width
  · rw [decide_eq_true small, Bool.true_and, getD_flatten each small]
  · have length : (rows.getD index []).length = width := by
      rw [List.getD_eq_getElem _ _ inside]
      exact each _ (List.getElem_mem inside)
    rw [decide_eq_false small, Bool.false_and, getD_of_length_le (by omega)]

end Cells

end Urus.Cells
