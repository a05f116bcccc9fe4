/-
This file develops the even-odd rule for polygons. A polygon is a list of vertices, and its
edges lead from each vertex to the one before it, from the first one to the last. An edge
counts for a point if exactly one of its ends is above the point and the point is strictly
to the left of where the edge passes its height. The point is outside if an even number of
edges count.

What counts does not depend on the direction of an edge, and an edge of a single point does
not count. So the rule does not see where the list of vertices starts, which way it goes,
or whether the first vertex stands at its end once more.
-/

import Mathlib.Tactic

namespace Urus

/-! ### Edges -/

section Edges

variable {Point : Type}

/-- The steps of a path, backwards. -/
def pathEdges : List Point → List (Point × Point)
  | [] => []
  | [_] => []
  | first :: second :: rest => (second, first) :: pathEdges (second :: rest)

/-- The edges of a polygon. -/
def polygonEdges (vertices : List Point) : List (Point × Point) :=
  pathEdges (vertices.getLast?.toList ++ vertices)

/-- A path that goes one step further. -/
theorem pathEdges_snoc (path : List Point) (last next : Point) :
    pathEdges (path ++ [last] ++ [next]) = pathEdges (path ++ [last]) ++ [(next, last)] := by
  induction path with
  | nil => rfl
  | cons first rest inductionHypothesis =>
    cases rest with
    | nil => rfl
    | cons second rest =>
      change (second, first) :: pathEdges (second :: rest ++ [last] ++ [next]) = _
      rw [inductionHypothesis]
      rfl

/-- The way back has the same steps, the other way round. -/
theorem pathEdges_reverse (path : List Point) :
    pathEdges path.reverse = (pathEdges path).reverse.map Prod.swap := by
  induction path with
  | nil => rfl
  | cons first rest inductionHypothesis =>
    cases rest with
    | nil => rfl
    | cons second rest =>
      rw [List.reverse_cons, List.reverse_cons, pathEdges_snoc, ← List.reverse_cons,
        inductionHypothesis, pathEdges, List.reverse_cons, List.map_append]
      rfl

theorem pathEdges_map {Point' : Type} (view : Point → Point') (path : List Point) :
    pathEdges (path.map view) = (pathEdges path).map (Prod.map view view) := by
  induction path with
  | nil => rfl
  | cons first rest inductionHypothesis =>
    cases rest with
    | nil => rfl
    | cons second rest => exact congrArg (List.cons _) inductionHypothesis

theorem mem_of_mem_pathEdges {path : List Point} {edge : Point × Point}
    (member : edge ∈ pathEdges path) : edge.1 ∈ path ∧ edge.2 ∈ path := by
  induction path with
  | nil => exact absurd member List.not_mem_nil
  | cons first rest inductionHypothesis =>
    cases rest with
    | nil => exact absurd member List.not_mem_nil
    | cons second rest =>
      obtain rfl | later := List.mem_cons.mp member
      · exact ⟨List.mem_cons_of_mem _ List.mem_cons_self, List.mem_cons_self⟩
      · exact (inductionHypothesis later).imp (List.mem_cons_of_mem _) (List.mem_cons_of_mem _)

theorem polygonEdges_map {Point' : Type} (view : Point → Point') (vertices : List Point) :
    polygonEdges (vertices.map view) = (polygonEdges vertices).map (Prod.map view view) := by
  rw [polygonEdges, polygonEdges, ← pathEdges_map, List.map_append, List.getLast?_map]
  cases vertices.getLast? <;> rfl

theorem mem_of_mem_polygonEdges {vertices : List Point} {edge : Point × Point}
    (member : edge ∈ polygonEdges vertices) : edge.1 ∈ vertices ∧ edge.2 ∈ vertices := by
  have known : ∀ point ∈ vertices.getLast?.toList ++ vertices, point ∈ vertices := by
    intro point inside
    rcases List.mem_append.mp inside with last | vertex
    · exact List.mem_of_getLast? (Option.mem_toList.mp last)
    · exact vertex
  exact (mem_of_mem_pathEdges member).imp (known _) (known _)

theorem polygonEdges_snoc (vertices : List Point) (last : Point) :
    polygonEdges (vertices ++ [last]) = pathEdges (last :: vertices ++ [last]) := by
  rw [polygonEdges, List.getLast?_concat]
  rfl

theorem polygonEdges_rotate_one (first : Point) (rest : List Point) :
    (polygonEdges (rest ++ [first])).Perm (polygonEdges (first :: rest)) := by
  cases rest using List.reverseRecOn with
  | nil => exact List.Perm.refl _
  | append_singleton rest last =>
    have moved : polygonEdges (first :: rest ++ [last]) =
        (first, last) :: pathEdges (first :: rest ++ [last]) :=
      polygonEdges_snoc (first :: rest) last
    rw [polygonEdges_snoc, ← List.cons_append, pathEdges_snoc, moved]
    exact List.perm_append_singleton _ _

theorem polygonEdges_rotate (vertices : List Point) (count : ℕ) :
    (polygonEdges (vertices.rotate count)).Perm (polygonEdges vertices) := by
  induction count generalizing vertices with
  | zero => rw [List.rotate_zero]
  | succ count inductionHypothesis =>
    cases vertices with
    | nil => rw [List.rotate_nil]
    | cons first rest =>
      rw [List.rotate_cons_succ]
      exact (inductionHypothesis _).trans (polygonEdges_rotate_one first rest)

/-- The polygon the other way round. -/
theorem polygonEdges_reverse (vertices : List Point) :
    (polygonEdges vertices.reverse).Perm ((polygonEdges vertices).map Prod.swap) := by
  cases vertices with
  | nil => exact List.Perm.refl _
  | cons first rest =>
    refine List.Perm.trans ?_ ((polygonEdges_rotate_one first rest).map Prod.swap)
    rw [List.reverse_cons, polygonEdges_snoc, polygonEdges_snoc,
      ← List.reverse_reverse (first :: rest.reverse ++ [first]), pathEdges_reverse]
    simp only [List.reverse_append, List.reverse_cons, List.reverse_nil, List.nil_append,
      List.reverse_reverse, List.cons_append]
    exact (List.reverse_perm _).map _

/-- The polygon with its first vertex once more at the end has one more edge. -/
theorem polygonEdges_closed (first : Point) (rest : List Point) :
    (polygonEdges (first :: rest ++ [first])).Perm
      ((first, first) :: polygonEdges (first :: rest)) := by
  have closed : polygonEdges (first :: rest ++ [first]) =
      (first, first) :: polygonEdges (rest ++ [first]) := by
    rw [polygonEdges_snoc, polygonEdges_snoc]
    rfl
  rw [closed]
  exact (polygonEdges_rotate_one first rest).cons _

end Edges

/-! ### The rule -/

/-- A point of the plane. -/
@[ext] structure Point (Scalar : Type) where
  x : Scalar
  y : Scalar
  deriving DecidableEq

section Rule

variable {Scalar : Type} [Field Scalar] [LinearOrder Scalar]

/-- The edge has exactly one end above the point, and the point is left of where the edge passes its
height. -/
def Point.Crosses (point first second : Point Scalar) : Prop :=
  ¬ (first.y > point.y ↔ second.y > point.y) ∧
    point.x < first.x + (second.x - first.x) * (point.y - first.y) / (second.y - first.y)

instance (point first second : Point Scalar) : Decidable (point.Crosses first second) :=
  inferInstanceAs (Decidable (_ ∧ _))

/-- How many edges of a polygon count for a point. -/
def crossings (point : Point Scalar) (vertices : List (Point Scalar)) : ℕ :=
  (polygonEdges vertices).countP fun edge => point.Crosses edge.1 edge.2

/-- The point is outside the polygon. -/
def EvenOddOutside (point : Point Scalar) (vertices : List (Point Scalar)) : Prop :=
  Even (crossings point vertices)

instance (point : Point Scalar) (vertices : List (Point Scalar)) :
    Decidable (EvenOddOutside point vertices) :=
  inferInstanceAs (Decidable (Even _))

theorem not_crosses_self (point vertex : Point Scalar) : ¬ point.Crosses vertex vertex :=
  fun crosses => crosses.1 Iff.rfl

theorem crossings_rotate (point : Point Scalar) (vertices : List (Point Scalar)) (count : ℕ) :
    crossings point (vertices.rotate count) = crossings point vertices :=
  (polygonEdges_rotate vertices count).countP_eq _

theorem crossings_closed (point first : Point Scalar) (rest : List (Point Scalar)) :
    crossings point (first :: rest ++ [first]) = crossings point (first :: rest) := by
  rw [crossings, (polygonEdges_closed first rest).countP_eq]
  exact List.countP_cons_of_neg (by
    rw [decide_eq_true_iff]
    exact not_crosses_self point first)

/-- An edge counts in both directions or in neither. -/
theorem crosses_comm {point first second : Point Scalar} :
    point.Crosses first second ↔ point.Crosses second first := by
  have turned : (first.y > point.y ↔ second.y > point.y) ↔
      (second.y > point.y ↔ first.y > point.y) := iff_comm
  rw [Point.Crosses, Point.Crosses, turned]
  refine and_congr_right fun apart => ?_
  have level : second.y - first.y ≠ 0 := by
    intro same
    rw [sub_eq_zero.mp same] at apart
    exact apart Iff.rfl
  have level' : first.y - second.y ≠ 0 := by
    rwa [← neg_sub, neg_ne_zero]
  have passes : first.x + (second.x - first.x) * (point.y - first.y) / (second.y - first.y) =
      second.x + (first.x - second.x) * (point.y - second.y) / (first.y - second.y) := by
    field_simp
    ring
  rw [passes]

theorem crossings_reverse (point : Point Scalar) (vertices : List (Point Scalar)) :
    crossings point vertices.reverse = crossings point vertices := by
  rw [crossings, (polygonEdges_reverse vertices).countP_eq, List.countP_map]
  exact List.countP_congr fun edge _ => by
    rw [Function.comp_apply, decide_eq_true_iff, decide_eq_true_iff]
    exact crosses_comm

variable [IsStrictOrderedRing Scalar] {point first second : Point Scalar}

/-- A rising edge counts if the point is on its left side, without a division. -/
theorem crosses_rising (low : first.y ≤ point.y) (high : point.y < second.y) :
    point.Crosses first second ↔
      (point.x - first.x) * (second.y - first.y) < (second.x - first.x) * (point.y - first.y) := by
  have rise : 0 < second.y - first.y := sub_pos.mpr (low.trans_lt high)
  rw [Point.Crosses, and_iff_right (fun both => absurd (both.mpr high) low.not_gt),
    ← sub_lt_iff_lt_add', lt_div_iff₀ rise]

/-- A falling edge counts if the point is on its right side. -/
theorem crosses_falling (high : point.y < first.y) (low : second.y ≤ point.y) :
    point.Crosses first second ↔
      (second.x - first.x) * (point.y - first.y) < (point.x - first.x) * (second.y - first.y) := by
  have fall : second.y - first.y < 0 := sub_neg.mpr (low.trans_lt high)
  rw [Point.Crosses, and_iff_right (fun both => absurd (both.mp high) low.not_gt),
    ← sub_lt_iff_lt_add', lt_div_iff_of_neg fall]

end Rule

end Urus
