/-
This file is about the loops of a path that is to be flown back. A loop lies between two points that
are close to each other, and can be replaced by the point between them. Loops are recorded as they
are found: of loops that have a point in common only the longer ones are kept. They are removed in
the opposite order, and each removal moves the points and the loops behind it.

The recorded loops have no point in common, so the order of the removals does not matter: the path
collapses along all of them.

Points and lengths are of any kind.
-/

import Urus.SmartRtl.Model
import Urus.Lib.Collapse

namespace Urus.SmartRtl

open Collapse

/-! ### What is promised -/

section Promise

variable {Point Length : Type*}

/-- The points of a path in order. -/
def Path.list (path : Path Point Length) : List Point := (List.range path.count).map path.points

/-- What a loop does to a path. -/
def Loop.cut (loop : Loop Point Length) : Cut Point :=
  ⟨loop.startIndex, loop.endIndex, loop.midpoint⟩

/-- The number of points that go with a loop. -/
def Loop.width (loop : Loop Point Length) : ℕ := loop.endIndex - loop.startIndex

/-- The recorded loops are in order and inside the path, and have no point in common. -/
structure Path.Sound (loopsMax : ℕ) (path : Path Point Length) : Prop where
  few : path.loops.length ≤ loopsMax
  inside : ∀ loop ∈ path.loops, loop.startIndex < loop.endIndex ∧ loop.endIndex < path.count
  apart : path.loops.Pairwise fun loop other => loop.cut.Apart other.cut

end Promise

/-! ### Recording -/

section Record

variable {Point Length : Type*} [Zero Length] [Add Length] [LT Length] [DecidableLT Length]
  {distanceSquared : Point → Point → Length} {loopsMax startIndex endIndex : ℕ} {midpoint : Point}
  {path : Path Point Length}

omit [Zero Length] [Add Length] [LT Length] [DecidableLT Length] in
theorem loopsOverlap_eq_false {loop1 loop2 : Loop Point Length}
    (ordered1 : loop1.startIndex ≤ loop1.endIndex) (ordered2 : loop2.startIndex ≤ loop2.endIndex) :
    loopsOverlap loop1 loop2 = false ↔ loop1.cut.Apart loop2.cut := by
  rw [loopsOverlap, Cut.Apart, Loop.cut, Loop.cut]
  dsimp only
  split_ifs
  · simp only [false_iff]
    omega
  · simp only [false_iff]
    omega
  · rw [bne_eq_false_iff_eq, decide_eq_decide]
    omega

theorem addLoop_points : (addLoop distanceSquared loopsMax startIndex endIndex midpoint path).2.points =
    path.points := by
  rw [addLoop]
  split
  · rfl
  split
  · rfl
  dsimp only
  split <;> rfl

theorem addLoop_count : (addLoop distanceSquared loopsMax startIndex endIndex midpoint path).2.count =
    path.count := by
  rw [addLoop]
  split
  · rfl
  split
  · rfl
  dsimp only
  split <;> rfl

theorem addLoop_sound (sound : path.Sound loopsMax) (inside : endIndex < path.count) :
    (addLoop distanceSquared loopsMax startIndex endIndex midpoint path).2.Sound loopsMax := by
  rw [addLoop]
  split
  · exact sound
  rename_i room
  split
  · exact sound
  rename_i ordered
  dsimp only
  split
  · exact ⟨sound.few, sound.inside, sound.apart⟩
  · generalize loopLength distanceSquared path.points startIndex endIndex midpoint = length
    refine ⟨?_, ?_, ?_⟩
    · rw [List.length_append, List.length_singleton]
      have fewer := List.length_filter_le
        (fun loop => !loopsOverlap loop (⟨startIndex, endIndex, midpoint, length⟩ : Loop Point Length))
        path.loops
      omega
    · intro loop member
      rcases List.mem_append.mp member with old | new
      · exact sound.inside loop (List.mem_of_mem_filter old)
      · rw [List.mem_singleton.mp new]
        exact ⟨not_le.mp ordered, inside⟩
    · rw [List.pairwise_append]
      refine ⟨sound.apart.filter _, List.pairwise_singleton _ _, fun loop member new isNew => ?_⟩
      rw [List.mem_singleton.mp isNew]
      obtain ⟨old, apart⟩ := List.mem_filter.mp member
      rw [Bool.not_eq_true'] at apart
      exact (loopsOverlap_eq_false (sound.inside loop old).1.le (not_le.mp ordered).le).mp apart

end Record

/-! ### Removing -/

section Remove

variable {Point Length : Type*} {path : Path Point Length} {loop other : Loop Point Length}

theorem foldl_shift (points : ℕ → Point) (start removed count index : ℕ) :
    ((List.range' start count).foldl
      (fun points dest => Function.update points dest (points (dest + removed))) points) index =
      if start ≤ index ∧ index < start + count then points (index + removed) else points index := by
  induction count generalizing index with
  | zero => rw [if_neg (by omega), List.range'_zero, List.foldl_nil]
  | succ count inductionHypothesis =>
    rw [List.range'_concat, List.foldl_append, List.foldl_cons, List.foldl_nil, Nat.one_mul,
      Function.update_apply, inductionHypothesis, inductionHypothesis]
    by_cases last : index = start + count
    · -- the point behind the last one has not been written yet
      rw [if_pos last, if_neg (by omega), if_pos (by omega), last]
    · rw [if_neg last]
      by_cases inside : start ≤ index ∧ index < start + count
      · rw [if_pos inside, if_pos (by omega)]
      · rw [if_neg inside, if_neg (by omega)]

theorem shiftPoints_apply (points : ℕ → Point) (start removed count index : ℕ) :
    shiftPoints points start removed count index =
      if start < index ∧ index < count - removed then points (index + removed)
      else points index := by
  rw [shiftPoints, foldl_shift]
  by_cases inside : start < index ∧ index < count - removed
  · rw [if_pos inside, if_pos (by omega)]
  · rw [if_neg inside, if_neg (by omega)]

/-- The path when the loop has been replaced. -/
def Path.replaced (path : Path Point Length) (loop : Loop Point Length) : ℕ → Point :=
  shiftPoints (Function.update path.points loop.startIndex loop.midpoint) loop.startIndex loop.width
    path.count

theorem map_range_getElem? (points : ℕ → Point) (count index : ℕ) :
    ((List.range count).map points)[index]? =
      if index < count then some (points index) else none := by
  rw [List.getElem?_map]
  split
  · rename_i inside
    rw [List.getElem?_range inside, Option.map_some]
  · rename_i outside
    rw [List.getElem?_eq_none (by rw [List.length_range]; omega), Option.map_none]

theorem replaced_apply (index : ℕ) :
    path.replaced loop index =
      if index < loop.startIndex then path.points index
      else if index = loop.startIndex then loop.midpoint
      else if index < path.count - loop.width then path.points (index + loop.width)
      else path.points index := by
  rw [Path.replaced, shiftPoints_apply, Function.update_apply, Function.update_apply]
  split_ifs <;> first | rfl | omega

theorem list_replaced (ordered : loop.startIndex ≤ loop.endIndex)
    (inside : loop.endIndex < path.count) :
    (List.range (path.count - loop.width)).map (path.replaced loop) = loop.cut.make path.list := by
  have width : loop.width = loop.endIndex - loop.startIndex := rfl
  have length : path.list.length = path.count := by rw [Path.list, List.length_map, List.length_range]
  have taken : (path.list.take loop.startIndex).length = loop.startIndex := by
    rw [List.length_take, length]
    omega
  refine List.ext_getElem? fun index => ?_
  rw [map_range_getElem?, replaced_apply, Cut.make, Loop.cut]
  dsimp only
  rcases Nat.lt_trichotomy index loop.startIndex with front | same | behind
  · rw [List.getElem?_append_left (by omega), List.getElem?_take_of_lt front, Path.list,
      map_range_getElem?, if_pos front, if_pos (by omega), if_pos (by omega)]
  · rw [List.getElem?_append_right (by omega), taken, same, Nat.sub_self, List.getElem?_cons_zero,
      if_pos (by omega), if_neg (lt_irrefl _), if_pos rfl]
  · obtain ⟨offset, rfl⟩ := Nat.exists_eq_add_of_lt behind
    have place : loop.startIndex + offset + 1 - loop.startIndex = offset + 1 := by omega
    have same : loop.endIndex + 1 + offset = loop.startIndex + offset + 1 + loop.width := by omega
    have notFront : ¬ loop.startIndex + offset + 1 < loop.startIndex := by omega
    have notSame : ¬ loop.startIndex + offset + 1 = loop.startIndex := by omega
    rw [List.getElem?_append_right (by omega), taken, place, List.getElem?_cons_succ,
      List.getElem?_drop, Path.list, map_range_getElem?, same, if_neg notFront, if_neg notSame]
    by_cases short : loop.startIndex + offset + 1 < path.count - loop.width
    · rw [if_pos short, if_pos short, if_pos (by omega)]
    · rw [if_neg short, if_neg (by omega)]

theorem fixed_cut (ordered : loop.startIndex ≤ loop.endIndex) (ordered' : other.startIndex ≤ other.endIndex)
    (apart : loop.cut.Apart other.cut) : (loop.fixed other).cut = loop.cut.moved other.cut := by
  rw [Cut.Apart, Loop.cut, Loop.cut] at apart
  rw [Loop.fixed, Cut.moved, Loop.cut, Loop.cut, Loop.cut]
  dsimp only at apart ⊢
  by_cases behind : loop.endIndex ≤ other.startIndex
  · rw [if_pos behind, if_pos behind, if_pos (behind.trans ordered')]
  · rw [if_neg behind, if_neg behind, if_neg (by omega)]

/-- One loop after the other is removed, and those that are left are sound again. -/
theorem fixed_sound {loopsMax : ℕ} {rest : List (Loop Point Length)} (sound : path.Sound loopsMax)
    (recorded : path.loops = rest ++ [loop]) :
    (∀ other ∈ rest.map loop.fixed, other.startIndex < other.endIndex ∧
      other.endIndex < path.count - loop.width) ∧
      (rest.map loop.fixed).Pairwise fun loop other => loop.cut.Apart other.cut := by
  have inside := sound.inside
  have apart := sound.apart
  rw [recorded] at inside apart
  rw [List.pairwise_append] at apart
  obtain ⟨apart, -, last⟩ := apart
  have own := inside loop (List.mem_append_right _ List.mem_cons_self)
  have width : loop.width = loop.endIndex - loop.startIndex := rfl
  have lies : ∀ other ∈ rest, loop.cut.Apart other.cut := fun other member =>
    (last other member loop List.mem_cons_self).symm
  constructor
  · intro moved isMoved
    obtain ⟨other, member, rfl⟩ := List.mem_map.mp isMoved
    have bounds := inside other (List.mem_append_left _ member)
    have beside := lies other member
    rw [Cut.Apart, Loop.cut, Loop.cut] at beside
    rw [Loop.fixed]
    dsimp only at beside ⊢
    split_ifs <;> omega
  · rw [List.pairwise_map]
    refine apart.imp_of_mem fun {first second} member member' between => ?_
    have beside := lies first member
    have beside' := lies second member'
    have bounds := inside first (List.mem_append_left _ member)
    have bounds' := inside second (List.mem_append_left _ member')
    rw [Cut.Apart, Loop.cut, Loop.cut] at beside beside' between ⊢
    rw [Loop.fixed, Loop.fixed]
    dsimp only at beside beside' between ⊢
    split_ifs <;> omega

theorem fixed_width (ordered' : other.startIndex ≤ other.endIndex)
    (apart : loop.cut.Apart other.cut) : (loop.fixed other).width = other.width := by
  rw [Cut.Apart, Loop.cut, Loop.cut] at apart
  rw [Loop.width, Loop.fixed, Loop.width]
  dsimp only at apart ⊢
  split_ifs <;> omega

end Remove

section Run

variable {Point Length : Type*} {path : Path Point Length} {loop : Loop Point Length}
  {rest : List (Loop Point Length)} {loopsMax limit removedPoints : ℕ}

/-- The path behind the removal of its last loop. -/
def Path.without (path : Path Point Length) (loop : Loop Point Length)
    (rest : List (Loop Point Length)) (accesses : List (Memory × ℕ)) : Path Point Length :=
  { path with
    points := path.replaced loop
    count := path.count - loop.width
    loops := rest.map loop.fixed
    accesses := accesses }

theorem removeLoops_succ (sound : path.Sound loopsMax) (recorded : path.loops = rest ++ [loop])
    (more : removedPoints < limit) :
    ∃ accesses, removeLoops limit (rest.length + 1) removedPoints path =
      removeLoops limit rest.length (removedPoints + loop.width) (path.without loop rest accesses) := by
  have found : path.loops[rest.length]? = some loop := by
    rw [recorded, List.getElem?_append_right le_rfl, Nat.sub_self]
    rfl
  have taken : path.loops.take rest.length = rest := by rw [recorded, List.take_left]
  have inside := sound.inside loop (by rw [recorded]; exact List.mem_append_right _ List.mem_cons_self)
  have fewer : loop.endIndex - loop.startIndex < path.count := by omega
  rw [removeLoops, if_pos more, found]
  dsimp only
  rw [if_pos fewer, taken]
  exact ⟨_, rfl⟩

theorem without_sound (sound : path.Sound loopsMax) (recorded : path.loops = rest ++ [loop])
    (accesses : List (Memory × ℕ)) : (path.without loop rest accesses).Sound loopsMax := by
  obtain ⟨inside, apart⟩ := fixed_sound sound recorded
  refine ⟨?_, inside, apart⟩
  have few := sound.few
  rw [recorded, List.length_append] at few
  rw [Path.without, List.length_map]
  exact Nat.le_of_add_right_le few

theorem Path.Sound.last (sound : path.Sound loopsMax) (recorded : path.loops = rest ++ [loop]) :
    loop.startIndex < loop.endIndex ∧ loop.endIndex < path.count ∧
      ∀ other ∈ rest, other.startIndex < other.endIndex ∧ loop.cut.Apart other.cut := by
  have inside := sound.inside
  have apart := sound.apart
  rw [recorded] at inside apart
  have own := inside loop (List.mem_append_right _ List.mem_cons_self)
  refine ⟨own.1, own.2, fun other member => ⟨(inside other (List.mem_append_left _ member)).1, ?_⟩⟩
  exact ((List.pairwise_append.mp apart).2.2 other member loop List.mem_cons_self).symm

theorem exists_last {count : ℕ} (length : path.loops.length = count + 1) :
    ∃ rest loop, path.loops = rest ++ [loop] ∧ rest.length = count := by
  rcases List.eq_nil_or_concat path.loops with none | ⟨rest, loop, recorded⟩
  · rw [none] at length
    exact nomatch length
  · rw [List.concat_eq_append] at recorded
    rw [recorded, List.length_append] at length
    exact ⟨rest, loop, recorded, Nat.succ.inj length⟩

theorem removeLoops_list (sound : path.Sound loopsMax)
    (gone : (removeLoops limit path.loops.length removedPoints path).loops = []) :
    (removeLoops limit path.loops.length removedPoints path).list =
      collapse (path.loops.map Loop.cut) 0 path.list := by
  induction length : path.loops.length generalizing path removedPoints with
  | zero =>
    rw [removeLoops, List.eq_nil_of_length_eq_zero length, List.map_nil, collapse_nil]
  | succ count inductionHypothesis =>
    obtain ⟨rest, loop, recorded, rfl⟩ := exists_last length
    rw [length] at gone
    by_cases more : removedPoints < limit
    · obtain ⟨accesses, next⟩ := removeLoops_succ sound recorded more
      obtain ⟨ordered, inside, others⟩ := sound.last recorded
      have left : (path.without loop rest accesses).loops.length = rest.length :=
        List.length_map _
      have apart : ∀ cut ∈ rest.map Loop.cut, loop.cut.Apart cut := by
        intro cut isCut
        obtain ⟨other, member, rfl⟩ := List.mem_map.mp isCut
        exact (others other member).2
      have moved : (path.without loop rest accesses).loops.map Loop.cut =
          (rest.map Loop.cut).map loop.cut.moved := by
        rw [Path.without, List.map_map, List.map_map]
        refine List.map_congr_left fun other member => ?_
        exact fixed_cut ordered.le (others other member).1.le (others other member).2
      have made : (path.without loop rest accesses).list = loop.cut.make path.list :=
        list_replaced ordered.le inside
      have long : loop.cut.last < path.list.length := by
        rw [Path.list, List.length_map, List.length_range]
        exact inside
      rw [next] at gone ⊢
      rw [inductionHypothesis (without_sound sound recorded accesses) (left ▸ gone) left, moved, made,
        recorded, List.map_append, List.map_singleton]
      exact (collapse_make apart ordered.le path.list long).symm
    · rw [removeLoops, if_neg more, recorded] at gone
      exact absurd gone (List.append_ne_nil_of_right_ne_nil _ (List.cons_ne_nil _ _))

theorem removeLoops_gone (sound : path.Sound loopsMax)
    (enough : removedPoints + (path.loops.map Loop.width).sum ≤ limit) :
    (removeLoops limit path.loops.length removedPoints path).loops = [] := by
  induction length : path.loops.length generalizing path removedPoints with
  | zero => exact List.eq_nil_of_length_eq_zero length
  | succ count inductionHypothesis =>
    obtain ⟨rest, loop, recorded, rfl⟩ := exists_last length
    obtain ⟨ordered, inside, others⟩ := sound.last recorded
    rw [recorded, List.map_append, List.sum_append, List.map_singleton, List.sum_singleton] at enough
    have wide : 0 < loop.width := Nat.sub_pos_of_lt ordered
    obtain ⟨accesses, next⟩ := removeLoops_succ sound recorded
      (show removedPoints < limit by omega)
    have left : (path.without loop rest accesses).loops.length = rest.length := List.length_map _
    have widths : (path.without loop rest accesses).loops.map Loop.width = rest.map Loop.width := by
      rw [Path.without, List.map_map]
      refine List.map_congr_left fun other member => ?_
      exact fixed_width (others other member).1.le (others other member).2
    rw [next]
    refine inductionHypothesis (without_sound sound recorded accesses) ?_ left
    rw [widths]
    omega

end Run

/-! ### The main result -/

section Result

variable {Point Length : Type*} [Zero Length] [Add Length] [LT Length] [DecidableLT Length]
  (distanceSquared : Point → Point → Length) (loopsMax : ℕ)

/-- Loops that are found one after the other. -/
def addLoops (found : List (ℕ × ℕ × Point)) (path : Path Point Length) : Path Point Length :=
  found.foldl (fun path loop =>
    (addLoop distanceSquared loopsMax loop.1 loop.2.1 loop.2.2 path).2) path

theorem addLoops_spec (found : List (ℕ × ℕ × Point)) (path : Path Point Length)
    (sound : path.Sound loopsMax) (inside : ∀ loop ∈ found, loop.2.1 < path.count) :
    (addLoops distanceSquared loopsMax found path).Sound loopsMax ∧
      (addLoops distanceSquared loopsMax found path).list = path.list := by
  induction found generalizing path with
  | nil => exact ⟨sound, rfl⟩
  | cons loop found inductionHypothesis =>
    obtain ⟨first, later⟩ := List.forall_mem_cons.mp inside
    have next := inductionHypothesis
      (addLoop distanceSquared loopsMax loop.1 loop.2.1 loop.2.2 path).2 (addLoop_sound sound first)
      (by rwa [addLoop_count])
    refine ⟨next.1, next.2.trans ?_⟩
    rw [Path.list, Path.list, addLoop_points, addLoop_count]

/-- However loops are found on a path, at most as many are recorded as there is room for, and they
have no point in common. When all of them are removed, the path has collapsed along them. -/
theorem addLoops_collapse (found : List (ℕ × ℕ × Point)) (path : Path Point Length)
    (none : path.loops = [])
    (valid : ∀ loop ∈ found, 1 ≤ loop.1 ∧ loop.1 < loop.2.1 ∧ loop.2.1 < path.count) :
    let recorded := addLoops distanceSquared loopsMax found path
    recorded.loops.length ≤ loopsMax ∧
      recorded.loops.Pairwise (fun loop other => loop.cut.Apart other.cut) ∧
      ∀ limit,
        ((removePointsByLoops true limit recorded).2.loops = [] →
          (removePointsByLoops true limit recorded).2.list =
            collapse (recorded.loops.map Loop.cut) 0 path.list) ∧
        ((recorded.loops.map Loop.width).sum ≤ limit →
          (removePointsByLoops true limit recorded).2.loops = []) := by
  have start : path.Sound loopsMax := by
    refine ⟨?_, ?_, ?_⟩ <;> rw [none]
    · exact Nat.zero_le _
    · exact fun _ member => nomatch member
    · exact List.Pairwise.nil
  obtain ⟨sound, list⟩ := addLoops_spec distanceSquared loopsMax found path start
    fun loop member => (valid loop member).2.2
  intro recorded
  refine ⟨sound.few, sound.apart, fun limit => ?_⟩
  have removed : (removePointsByLoops true limit recorded).2 =
      removeLoops limit recorded.loops.length 0 recorded := by
    rw [removePointsByLoops]
    split
    · rename_i empty
      rw [empty, removeLoops]
    · rfl
  rw [removed, ← list]
  exact ⟨removeLoops_list sound, fun enough => removeLoops_gone sound (by rwa [Nat.zero_add])⟩

/-- A straight path of ten points. -/
def straightPath : Path ℕ ℕ := ⟨id, 10, [], true, []⟩

/-- Two loops of a path, the second one recorded before the first one. -/
theorem addLoops_collapse_two :
    (removePointsByLoops true 500
      (addLoops (fun _ _ => 1) 4 [(5, 8, 57), (1, 3, 13)] straightPath)).2.list =
      [0, 13, 4, 57, 9] := by
  have collapsed := (addLoops_collapse (fun _ _ => 1) 4 [(5, 8, 57), (1, 3, 13)] straightPath rfl
    (by decide)).2.2 500
  rw [collapsed.1 (collapsed.2 (by decide))]
  decide

end Result

end Urus.SmartRtl
