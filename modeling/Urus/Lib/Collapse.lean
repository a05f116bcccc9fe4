/-
This file is a library about the intervals of a sequence that are each replaced by one value. An
interval and its value are a cut. A sequence collapses along cuts that lie apart: each value inside
a cut goes away, but for the first one, which is replaced, and all others stay in order.

The cuts can be made one after the other. A cut moves what lies behind it towards the start, and
the other cuts are moved alike: a sequence that has been cut once collapses along the moved cuts to
the same as the whole one does along all of them.
-/

import Mathlib.Data.List.Basic
import Mathlib.Data.List.Find
import Mathlib.Data.List.Pairwise
import Mathlib.Tactic.Ring

namespace Urus.Collapse

/-- The places from the first to the last one, and what replaces them. -/
structure Cut (Value : Type*) where
  first : ℕ
  last : ℕ
  value : Value

variable {Value : Type*}

/-- The place lies in the cut. -/
def Cut.Has (cut : Cut Value) (place : ℕ) : Prop := cut.first ≤ place ∧ place ≤ cut.last

instance (cut : Cut Value) (place : ℕ) : Decidable (cut.Has place) :=
  inferInstanceAs (Decidable (_ ∧ _))

/-- The cuts have no place in common. -/
def Cut.Apart (cut other : Cut Value) : Prop := cut.last < other.first ∨ other.last < cut.first

theorem Cut.Apart.symm {cut other : Cut Value} (apart : cut.Apart other) : other.Apart cut :=
  Or.symm apart

/-- What is left of the value at a place. -/
def slot (cuts : List (Cut Value)) (place : ℕ) (value : Value) : List Value :=
  match cuts.find? (fun cut => cut.Has place) with
  | none => [value]
  | some cut => if place = cut.first then [cut.value] else []

/-- A sequence, from a place on, along some cuts. -/
def collapse (cuts : List (Cut Value)) : ℕ → List Value → List Value
  | _, [] => []
  | place, value :: values => slot cuts place value ++ collapse cuts (place + 1) values

/-- Where a cut is after another one has been made. -/
def Cut.moved (cut other : Cut Value) : Cut Value :=
  if cut.last ≤ other.first then
    ⟨other.first - (cut.last - cut.first), other.last - (cut.last - cut.first), other.value⟩
  else other

/-- A sequence after one cut. -/
def Cut.make (cut : Cut Value) (values : List Value) : List Value :=
  values.take cut.first ++ cut.value :: values.drop (cut.last + 1)

/-! ### Parts of a sequence -/

variable {cuts others : List (Cut Value)} {cut : Cut Value}

theorem collapse_append (cuts : List (Cut Value)) (place : ℕ) (front back : List Value) :
    collapse cuts place (front ++ back) =
      collapse cuts place front ++ collapse cuts (place + front.length) back := by
  induction front generalizing place with
  | nil => rfl
  | cons value front inductionHypothesis =>
    have next : place + 1 + front.length = place + (front.length + 1) := by ring
    rw [List.cons_append, collapse, collapse, inductionHypothesis, List.append_assoc,
      List.length_cons, next]

/-- Without a cut nothing goes away. -/
theorem collapse_nil (place : ℕ) (values : List Value) : collapse [] place values = values := by
  induction values generalizing place with
  | nil => rfl
  | cons value values inductionHypothesis =>
    rw [collapse, inductionHypothesis]
    rfl

theorem collapse_congr {place place' : ℕ} {values : List Value}
    (same : ∀ offset < values.length, ∀ value,
      slot cuts (place + offset) value = slot others (place' + offset) value) :
    collapse cuts place values = collapse others place' values := by
  induction values generalizing place place' with
  | nil => rfl
  | cons value values inductionHypothesis =>
    rw [collapse, collapse]
    have first := same 0 (Nat.zero_lt_succ _) value
    rw [Nat.add_zero, Nat.add_zero] at first
    rw [first, inductionHypothesis fun offset inside value => ?_]
    have rest := same (offset + 1) (Nat.succ_lt_succ inside) value
    rwa [Nat.add_comm offset 1, ← Nat.add_assoc, ← Nat.add_assoc] at rest

variable {place : ℕ}

theorem collapse_inside
    (found : ∀ place, cut.first < place → place ≤ cut.last → cuts.find? (fun cut => cut.Has place) = some cut)
    {values : List Value} (behind : cut.first < place)
    (inside : place + values.length ≤ cut.last + 1) : collapse cuts place values = [] := by
  induction values generalizing place with
  | nil => rfl
  | cons value values inductionHypothesis =>
    rw [List.length_cons] at inside
    rw [collapse, slot, found place behind (by omega), inductionHypothesis (by omega) (by omega)]
    dsimp only
    rw [if_neg (by omega), List.nil_append]

/-! ### One cut after the other -/

theorem slot_append_of_not (outside : ¬ cut.Has place) (value : Value) :
    slot (cuts ++ [cut]) place value = slot cuts place value := by
  have skipped : (cuts ++ [cut]).find? (fun cut => cut.Has place) =
      cuts.find? (fun cut => cut.Has place) := by
    rw [List.find?_append, List.find?_cons_of_neg (by simpa using outside), List.find?_nil,
      Option.or_none]
  rw [slot, slot, skipped]

theorem find_append_of_has (none : ∀ other ∈ cuts, ¬ other.Has place) (inside : cut.Has place) :
    (cuts ++ [cut]).find? (fun cut => cut.Has place) = some cut := by
  rw [List.find?_append, List.find?_eq_none.mpr fun other member => by simpa using none other member,
    Option.none_or, List.find?_cons_of_pos (by simpa using inside)]

theorem slot_of_none (none : ∀ other ∈ cuts, ¬ other.Has place) (value : Value) :
    slot cuts place value = [value] := by
  rw [slot, List.find?_eq_none.mpr fun other member => by simpa using none other member]

theorem slot_map {move : Cut Value → Cut Value} {place place' : ℕ}
    (has : ∀ other ∈ cuts, (move other).Has place' ↔ other.Has place)
    (first : ∀ other ∈ cuts, other.Has place → (place' = (move other).first ↔ place = other.first))
    (same : ∀ other, (move other).value = other.value) (value : Value) :
    slot (cuts.map move) place' value = slot cuts place value := by
  have found : (cuts.map move).find? (fun cut => cut.Has place') =
      (cuts.find? (fun cut => cut.Has place)).map move := by
    rw [List.find?_map]
    refine congrArg _ (List.find?_congr fun other member => ?_)
    simp only [Function.comp_apply, has other member]
  rw [slot, slot, found]
  cases chosen : cuts.find? (fun cut => cut.Has place) with
  | none => rfl
  | some other =>
    have member := List.mem_of_find?_eq_some chosen
    have inside : other.Has place := by simpa using List.find?_some chosen
    dsimp only [Option.map_some]
    rw [same]
    simp only [first other member inside]

theorem Cut.moved_first (cut other : Cut Value) :
    (cut.moved other).first =
      if cut.last ≤ other.first then other.first - (cut.last - cut.first) else other.first := by
  rw [Cut.moved]
  split <;> rfl

theorem Cut.moved_last (cut other : Cut Value) :
    (cut.moved other).last =
      if cut.last ≤ other.first then other.last - (cut.last - cut.first) else other.last := by
  rw [Cut.moved]
  split <;> rfl

theorem Cut.moved_value (cut other : Cut Value) : (cut.moved other).value = other.value := by
  rw [Cut.moved]
  split <;> rfl

theorem slot_front (apart : ∀ other ∈ cuts, cut.Apart other) (front : place < cut.first)
    (ordered : cut.first ≤ cut.last) (value : Value) :
    slot (cuts ++ [cut]) place value = slot (cuts.map cut.moved) place value := by
  rw [slot_append_of_not (fun has => absurd has.1 (not_le.mpr front))]
  refine (slot_map (fun other member => ?_) (fun other member has => ?_) cut.moved_value value).symm
  · have lies := apart other member
    simp only [Cut.Apart, Cut.Has, Cut.moved_first, Cut.moved_last] at lies ⊢
    split <;> omega
  · have lies := apart other member
    simp only [Cut.Apart, Cut.Has, Cut.moved_first] at lies has ⊢
    split <;> omega

theorem slot_behind (apart : ∀ other ∈ cuts, cut.Apart other) (behind : cut.last < place)
    (ordered : cut.first ≤ cut.last) (value : Value) :
    slot (cuts ++ [cut]) place value =
      slot (cuts.map cut.moved) (place - (cut.last - cut.first)) value := by
  rw [slot_append_of_not (fun has => absurd has.2 (not_le.mpr behind))]
  refine (slot_map (fun other member => ?_) (fun other member has => ?_) cut.moved_value value).symm
  · have lies := apart other member
    simp only [Cut.Apart, Cut.Has, Cut.moved_first, Cut.moved_last] at lies ⊢
    split <;> omega
  · have lies := apart other member
    simp only [Cut.Apart, Cut.Has, Cut.moved_first] at lies has ⊢
    split <;> omega

theorem exists_parts (values : List Value) (ordered : cut.first ≤ cut.last)
    (inside : cut.last < values.length) :
    ∃ front value middle back, values = front ++ (value :: middle ++ back) ∧
      front.length = cut.first ∧ cut.first + 1 + middle.length = cut.last + 1 ∧
      cut.make values = front ++ cut.value :: back := by
  have some_value : 0 < (values.drop cut.first).length := by
    rw [List.length_drop]
    omega
  obtain ⟨value, rest, dropped⟩ := List.exists_cons_of_length_pos some_value
  have length : rest.length + 1 = values.length - cut.first := by
    rw [← List.length_drop, dropped, List.length_cons]
  refine ⟨values.take cut.first, value, rest.take (cut.last - cut.first),
    rest.drop (cut.last - cut.first), ?_, ?_, ?_, ?_⟩
  · rw [List.cons_append, List.take_append_drop, ← dropped, List.take_append_drop]
  · rw [List.length_take]
    omega
  · rw [List.length_take]
    omega
  · have behind : values.drop (cut.last + 1) = rest.drop (cut.last - cut.first) := by
      have whole : cut.last + 1 = cut.first + (cut.last - cut.first + 1) := by omega
      rw [whole, ← List.drop_drop, dropped, List.drop_succ_cons]
    rw [Cut.make, behind]

theorem collapse_make (apart : ∀ other ∈ cuts, cut.Apart other) (ordered : cut.first ≤ cut.last)
    (values : List Value) (inside : cut.last < values.length) :
    collapse (cuts ++ [cut]) 0 values = collapse (cuts.map cut.moved) 0 (cut.make values) := by
  have others : ∀ place, cut.Has place → ∀ other ∈ cuts, ¬ other.Has place := by
    intro place has other member
    have lies := apart other member
    simp only [Cut.Apart, Cut.Has] at lies has ⊢
    omega
  have found : ∀ place, cut.first ≤ place → place ≤ cut.last →
      (cuts ++ [cut]).find? (fun cut => cut.Has place) = some cut := fun place low high =>
    find_append_of_has (others place ⟨low, high⟩) ⟨low, high⟩
  have alone : ∀ other ∈ cuts.map cut.moved, ¬ other.Has cut.first := by
    intro movedCut moved
    obtain ⟨other, member, rfl⟩ := List.mem_map.mp moved
    have lies := apart other member
    simp only [Cut.Apart, Cut.Has, Cut.moved_first, Cut.moved_last] at lies ⊢
    split <;> omega
  obtain ⟨front, value, middle, back, rfl, place, upTo, made⟩ := exists_parts values ordered inside
  have inFront : collapse (cuts ++ [cut]) 0 front = collapse (cuts.map cut.moved) 0 front :=
    collapse_congr fun offset short value => slot_front apart (by omega) ordered value
  have gone : collapse (cuts ++ [cut]) (cut.first + 1) middle = [] :=
    collapse_inside (fun place low high => found place low.le high) (by omega) (by omega)
  have replaced : slot (cuts ++ [cut]) cut.first value = [cut.value] := by
    rw [slot, found _ le_rfl ordered]
    exact if_pos rfl
  have behind : collapse (cuts ++ [cut]) (cut.last + 1) back =
      collapse (cuts.map cut.moved) (cut.first + 1) back := by
    refine collapse_congr fun offset short value => ?_
    rw [slot_behind apart (by omega) ordered]
    congr 1
    omega
  rw [made, collapse_append, collapse_append, collapse_append, Nat.zero_add, place, collapse, collapse,
    slot_of_none alone, inFront, replaced, gone, List.length_cons]
  rw [show cut.first + (middle.length + 1) = cut.last + 1 by omega, behind, List.append_nil]

end Urus.Collapse
