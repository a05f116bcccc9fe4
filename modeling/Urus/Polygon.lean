/-
This file is about the test for a point in a polygon that decides whether a geofence is
breached. The coordinates are 32 bit integers. The test multiplies in 64 bits, and only
where the signs of the differences do not decide already which of two products is larger;
a difference of zero counts as a positive one.

The signs never say anything else than the products: on an edge that passes the height of
the point two of the four signs are known. So the test is the even-odd rule over the
rational numbers.
-/

import Urus.Lib.EvenOdd

namespace Urus.Polygon

/-! ### The code -/

/-- `Vector2l`. -/
structure Vector2l where
  x : Int32
  y : Int32
  deriving DecidableEq

/-- The sign of a difference, zero counting as positive. -/
def signOf (difference : Int32) : Int8 := if difference < 0 then -1 else 1

/-- The end of the loop of `Polygon_outside`, from the differences on: whether the edge counts. The
64 bit multiplies are avoided if the signs decide. -/
def passesRight (dx1 dx2 dy1 dy2 : Int32) : Bool :=
  let m1 := signOf dx1 * signOf dy2
  let m2 := signOf dx2 * signOf dy1
  if dy2 < 0 then
    if m1 > m2 then true
    else if m1 < m2 then false
    else dx1.toInt64 * dy2.toInt64 > dx2.toInt64 * dy1.toInt64
  else
    if m1 < m2 then true
    else if m1 > m2 then false
    else dx1.toInt64 * dy2.toInt64 < dx2.toInt64 * dy1.toInt64

/-- The body of the loop of `Polygon_outside`: whether `outside` changes. -/
def toggles (P Vi Vj : Vector2l) : Bool :=
  if decide (Vi.y > P.y) = decide (Vj.y > P.y) then false
  else passesRight (P.x - Vi.x) (Vj.x - Vi.x) (P.y - Vi.y) (Vj.y - Vi.y)

/-- The loop of `Polygon_outside`, with the vertex before the next one. -/
def outsideLoop (P : Vector2l) : (outside : Bool) → (Vj : Vector2l) → List Vector2l → Bool
  | outside, _, [] => outside
  | outside, Vj, Vi :: rest =>
    outsideLoop P (if toggles P Vi Vj then !outside else outside) Vi rest

/-- `Polygon_outside<int32_t>`. -/
def polygonOutside (P : Vector2l) (V : List Vector2l) : Bool :=
  match V.getLast? with
  | none => true
  | some last => outsideLoop P true last V

/-! ### One edge -/

/-- The point over the rational numbers. -/
def Vector2l.exact (v : Vector2l) : Point ℚ := ⟨v.x.toInt, v.y.toInt⟩

/-- Two coordinates have a difference of 32 bits. -/
def Near (first second : Int32) : Prop :=
  -2 ^ 31 ≤ first.toInt - second.toInt ∧ first.toInt - second.toInt < 2 ^ 31

/-- The differences of the coordinates of some points fit in 32 bits. -/
def DifferencesFit (points : List Vector2l) : Prop :=
  ∀ first ∈ points, ∀ second ∈ points, Near first.x second.x ∧ Near first.y second.y

instance (first second : Int32) : Decidable (Near first second) :=
  inferInstanceAs (Decidable (_ ∧ _))

instance (points : List Vector2l) : Decidable (DifferencesFit points) :=
  inferInstanceAs (Decidable (∀ first ∈ points, ∀ second ∈ points, _))

theorem DifferencesFit.mono {points points' : List Vector2l} (fit : DifferencesFit points)
    (among : ∀ point ∈ points', point ∈ points) : DifferencesFit points' :=
  fun first member second member' => fit first (among first member) second (among second member')

theorem Near.toInt_sub {first second : Int32} (near : Near first second) :
    (first - second).toInt = first.toInt - second.toInt := by
  rw [Int32.toInt_sub]
  exact Int.bmod_eq_of_le (by have := near.1; omega) (by have := near.2; omega)

/-- The product of two differences fits in 64 bits. -/
theorem toInt_mul_toInt64 (first second : Int32) :
    (first.toInt64 * second.toInt64).toInt = first.toInt * second.toInt := by
  have low := first.le_toInt
  have high := first.toInt_lt
  have low' := second.le_toInt
  have high' := second.toInt_lt
  rw [Int64.toInt_mul, Int32.toInt_toInt64, Int32.toInt_toInt64]
  have bound : |first.toInt * second.toInt| ≤ 2 ^ 31 * 2 ^ 31 := by
    rw [abs_mul]
    exact mul_le_mul (abs_le.mpr ⟨low, high.le⟩) (abs_le.mpr ⟨low', high'.le⟩) (abs_nonneg _)
      (by norm_num)
  obtain ⟨below, above⟩ := abs_le.mp bound
  exact Int.bmod_eq_of_le (by omega) (by omega)

theorem product_lt_iff (first second first' second' : Int32) :
    first.toInt64 * second.toInt64 < first'.toInt64 * second'.toInt64 ↔
      first.toInt * second.toInt < first'.toInt * second'.toInt := by
  rw [Int64.lt_iff_toInt_lt, toInt_mul_toInt64, toInt_mul_toInt64]

theorem signOf_neg {difference : Int32} (negative : difference.toInt < 0) :
    signOf difference = -1 :=
  if_pos (Int32.lt_iff_toInt_lt.mpr negative)

theorem signOf_nonneg {difference : Int32} (positive : 0 ≤ difference.toInt) :
    signOf difference = 1 :=
  if_neg fun negative => positive.not_gt (Int32.lt_iff_toInt_lt.mp negative)

/-- On a rising edge the signs agree with the products. -/
theorem passesRight_rising {dx1 dx2 dy1 dy2 : Int32} (below : 0 ≤ dy1.toInt) (rise : 0 < dy2.toInt) :
    passesRight dx1 dx2 dy1 dy2 = true ↔ dx1.toInt * dy2.toInt < dx2.toInt * dy1.toInt := by
  have rising : ¬ dy2 < 0 := fun falling => rise.not_gt (Int32.lt_iff_toInt_lt.mp falling)
  rw [passesRight, signOf_nonneg rise.le, signOf_nonneg below, if_neg rising]
  rcases lt_or_ge dx1.toInt 0 with left | right
  · rcases lt_or_ge dx2.toInt 0 with left' | right'
    · rw [signOf_neg left, signOf_neg left', if_neg (by decide), if_neg (by decide),
        decide_eq_true_iff, product_lt_iff]
    · rw [signOf_neg left, signOf_nonneg right', if_pos (by decide)]
      exact iff_of_true rfl
        ((mul_neg_of_neg_of_pos left rise).trans_le (mul_nonneg right' below))
  · rcases lt_or_ge dx2.toInt 0 with left' | right'
    · rw [signOf_nonneg right, signOf_neg left', if_neg (by decide), if_pos (by decide)]
      exact iff_of_false Bool.false_ne_true
        ((mul_nonpos_of_nonpos_of_nonneg left'.le below).trans (mul_nonneg right rise.le)).not_gt
    · rw [signOf_nonneg right, signOf_nonneg right', if_neg (by decide), if_neg (by decide),
        decide_eq_true_iff, product_lt_iff]

/-- On a falling edge the signs agree with the products. -/
theorem passesRight_falling {dx1 dx2 dy1 dy2 : Int32} (above : dy1.toInt < 0) (fall : dy2.toInt < 0) :
    passesRight dx1 dx2 dy1 dy2 = true ↔ dx2.toInt * dy1.toInt < dx1.toInt * dy2.toInt := by
  have falling : dy2 < 0 := Int32.lt_iff_toInt_lt.mpr fall
  rw [passesRight, signOf_neg fall, signOf_neg above, if_pos falling]
  rcases lt_or_ge dx1.toInt 0 with left | right
  · rcases lt_or_ge dx2.toInt 0 with left' | right'
    · rw [signOf_neg left, signOf_neg left', if_neg (by decide), if_neg (by decide),
        decide_eq_true_iff, gt_iff_lt, product_lt_iff]
    · rw [signOf_neg left, signOf_nonneg right', if_pos (by decide)]
      exact iff_of_true rfl
        ((mul_nonpos_of_nonneg_of_nonpos right' above.le).trans_lt (mul_pos_of_neg_of_neg left fall))
  · rcases lt_or_ge dx2.toInt 0 with left' | right'
    · rw [signOf_nonneg right, signOf_neg left', if_neg (by decide), if_pos (by decide)]
      exact iff_of_false Bool.false_ne_true ((mul_nonpos_of_nonneg_of_nonpos right fall.le).trans
        (mul_pos_of_neg_of_neg left' above).le).not_gt
    · rw [signOf_nonneg right, signOf_nonneg right', if_neg (by decide), if_neg (by decide),
        decide_eq_true_iff, gt_iff_lt, product_lt_iff]

theorem exact_lt_exact (first second : Vector2l) :
    first.exact.y < second.exact.y ↔ first.y < second.y := by
  rw [Int32.lt_iff_toInt_lt]
  exact Int.cast_lt

/-- The body of the loop agrees with the rule. -/
theorem toggles_iff {P Vi Vj : Vector2l} (fit : DifferencesFit [P, Vi, Vj]) :
    toggles P Vi Vj = true ↔ P.exact.Crosses Vi.exact Vj.exact := by
  have point : P ∈ [P, Vi, Vj] := by simp
  have first : Vi ∈ [P, Vi, Vj] := by simp
  have second : Vj ∈ [P, Vi, Vj] := by simp
  have dx1 := (fit P point Vi first).1.toInt_sub
  have dx2 := (fit Vj second Vi first).1.toInt_sub
  have dy1 := (fit P point Vi first).2.toInt_sub
  have dy2 := (fit Vj second Vi first).2.toInt_sub
  rw [toggles]
  by_cases high : Vi.y > P.y
  · by_cases high' : Vj.y > P.y
    · rw [decide_eq_true high, decide_eq_true high', if_pos rfl]
      exact iff_of_false Bool.false_ne_true fun crosses => crosses.1 (iff_of_true
        ((exact_lt_exact P Vi).mpr high) ((exact_lt_exact P Vj).mpr high'))
    · have falls := Int32.lt_iff_toInt_lt.mp high
      have level := Int32.le_iff_toInt_le.mp (Int32.not_lt.mp high')
      rw [decide_eq_true high, decide_eq_false high', if_neg (by decide),
        passesRight_falling (by omega) (by omega),
        crosses_falling ((exact_lt_exact P Vi).mpr high)
          (not_lt.mp (mt (exact_lt_exact P Vj).mp high')), dx1, dx2, dy1, dy2]
      dsimp only [Vector2l.exact]
      norm_cast
  · have level := Int32.le_iff_toInt_le.mp (Int32.not_lt.mp high)
    by_cases high' : Vj.y > P.y
    · have rises := Int32.lt_iff_toInt_lt.mp high'
      rw [decide_eq_false high, decide_eq_true high', if_neg (by decide),
        passesRight_rising (by omega) (by omega),
        crosses_rising (not_lt.mp (mt (exact_lt_exact P Vi).mp high))
          ((exact_lt_exact P Vj).mpr high'), dx1, dx2, dy1, dy2]
      dsimp only [Vector2l.exact]
      norm_cast
    · rw [decide_eq_false high, decide_eq_false high', if_pos rfl]
      exact iff_of_false Bool.false_ne_true fun crosses => crosses.1 (iff_of_false
        (mt (exact_lt_exact P Vi).mp high) (mt (exact_lt_exact P Vj).mp high'))

/-! ### The whole polygon -/

theorem outsideLoop_iff (P : Vector2l) (outside : Bool) (Vj : Vector2l) (V : List Vector2l) :
    outsideLoop P outside Vj V = true ↔
      (outside = true ↔ Even ((pathEdges (Vj :: V)).countP fun edge => toggles P edge.1 edge.2)) := by
  induction V generalizing outside Vj with
  | nil => simp [outsideLoop, pathEdges]
  | cons Vi rest inductionHypothesis =>
    rw [outsideLoop, inductionHypothesis, pathEdges, List.countP_cons]
    cases toggles P Vi Vj with
    | false => rfl
    | true =>
      rw [if_pos rfl, if_pos rfl, Nat.even_add_one, Bool.not_eq_true', ← Bool.not_eq_true]
      exact not_iff_comm.trans iff_comm

theorem polygonOutside_iff {P : Vector2l} {V : List Vector2l} (fit : DifferencesFit (P :: V)) :
    polygonOutside P V = true ↔ EvenOddOutside P.exact (V.map Vector2l.exact) := by
  have edges : crossings P.exact (V.map Vector2l.exact) =
      (polygonEdges V).countP fun edge => toggles P edge.1 edge.2 := by
    rw [crossings, polygonEdges_map, List.countP_map]
    refine List.countP_congr fun edge member => ?_
    obtain ⟨first, second⟩ := mem_of_mem_polygonEdges member
    have among : ∀ point ∈ [P, edge.1, edge.2], point ∈ P :: V := by
      simp only [List.forall_mem_cons, List.mem_cons_self, List.mem_cons_of_mem _ first,
        List.mem_cons_of_mem _ second, List.not_mem_nil, true_and, false_imp_iff, implies_true]
    rw [Function.comp_apply, decide_eq_true_iff, toggles_iff (fit.mono among)]
    rfl
  rw [EvenOddOutside, edges, polygonOutside, polygonEdges]
  cases before : V.getLast? with
  | none =>
    rw [List.getLast?_eq_none_iff.mp before]
    exact iff_of_true rfl Even.zero
  | some last =>
    exact (outsideLoop_iff P true last V).trans (iff_true_left rfl)

/-- The test is the even-odd rule over the rational numbers, and so it does not see where the list of
vertices starts, which way it goes, or whether the first vertex stands at its end once more. -/
theorem polygonOutside_exact (P : Vector2l) (V : List Vector2l) (vertices : V ≠ [])
    (fit : DifferencesFit (P :: V)) :
    (polygonOutside P V = true ↔ EvenOddOutside P.exact (V.map Vector2l.exact)) ∧
      (∀ count, polygonOutside P (V.rotate count) = polygonOutside P V) ∧
      polygonOutside P V.reverse = polygonOutside P V ∧
      polygonOutside P (V ++ [V.head vertices]) = polygonOutside P V := by
  have same : ∀ V', (∀ point ∈ V', point ∈ V) →
      crossings P.exact (V'.map Vector2l.exact) = crossings P.exact (V.map Vector2l.exact) →
      polygonOutside P V' = polygonOutside P V := by
    intro V' among alike
    have fit' : DifferencesFit (P :: V') := fit.mono fun point member =>
      (List.mem_cons.mp member).elim (fun isPoint => isPoint ▸ List.mem_cons_self)
        fun vertex => List.mem_cons_of_mem _ (among point vertex)
    rw [Bool.eq_iff_iff, polygonOutside_iff fit', polygonOutside_iff fit, EvenOddOutside, alike]
    rfl
  refine ⟨polygonOutside_iff fit, fun count => same _ ?_ ?_, same _ ?_ ?_, same _ ?_ ?_⟩
  · exact fun point => List.mem_rotate.mp
  · rw [List.map_rotate, crossings_rotate]
  · exact fun point => List.mem_reverse.mp
  · rw [List.map_reverse, crossings_reverse]
  · intro point member
    rcases List.mem_append.mp member with vertex | repeated
    · exact vertex
    · exact List.mem_singleton.mp repeated ▸ List.head_mem vertices
  · cases V with
    | nil => exact absurd rfl vertices
    | cons first rest =>
      rw [List.map_append]
      exact crossings_closed P.exact first.exact (rest.map Vector2l.exact)

/-- A square with the point on its lower edge, which is inside. -/
theorem polygonOutside_exact_square :
    DifferencesFit [⟨5, 0⟩, ⟨0, 0⟩, ⟨10, 0⟩, ⟨10, 10⟩, ⟨0, 10⟩] ∧
      polygonOutside ⟨5, 0⟩ [⟨0, 0⟩, ⟨10, 0⟩, ⟨10, 10⟩, ⟨0, 10⟩] = false ∧
      polygonOutside ⟨5, 0⟩ ([⟨0, 0⟩, ⟨10, 0⟩, ⟨10, 10⟩, ⟨0, 10⟩] ++ [⟨0, 0⟩]) = false := by
  have fit : DifferencesFit [⟨5, 0⟩, ⟨0, 0⟩, ⟨10, 0⟩, ⟨10, 10⟩, ⟨0, 10⟩] := by decide
  have inside : polygonOutside ⟨5, 0⟩ [⟨0, 0⟩, ⟨10, 0⟩, ⟨10, 10⟩, ⟨0, 10⟩] = false := by decide
  exact ⟨fit, inside, (polygonOutside_exact _ _ (List.cons_ne_nil _ _) fit).2.2.2.trans inside⟩

end Urus.Polygon
