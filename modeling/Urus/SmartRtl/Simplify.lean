/-
This file is about the simplification of a path. It is the algorithm of Ramer, Douglas and Peucker:
a range is divided at the point that is farthest from its line, or all points inside are flagged if
none is far. What is left to do is on a stack, which is kept when the time of a call is over.

The pending ranges touch each other. They reach from the first point up to a point behind which all
is done, and nothing in them is flagged yet. So each flagged point lies between two kept ones that
have no other kept one between them, and is near their line. Each round takes work from a pending
range, so the search comes to an end, and the rounds are the same however they are spread over
calls.
-/

import Urus.SmartRtl.Model

namespace Urus.SmartRtl

/-! ### What is promised -/

section Promise

variable {Length : Type*} [Zero Length] [LinearOrder Length] (distance : ℕ → ℕ → ℕ → Length)
  (epsilon : Length) (stackMax : ℕ)

/-- Calls of `detect_simplifications` with time for some rounds each, until it is complete. -/
def detectInCalls (budgets : List ℕ) (simplify : Simplify) : Simplify :=
  budgets.foldl (fun simplify budget =>
    if simplify.complete then simplify
    else detectSimplifications distance epsilon stackMax budget simplify) simplify

/-- The first point of the range that is simplified. -/
def Simplify.firstPoint (simplify : Simplify) : ℕ :=
  if 0 < simplify.pathPointsCompleted then simplify.pathPointsCompleted - 1 else 0

/-- A flagged point lies between two kept points with no other kept one between them, and is not
farther from their line than the limit. -/
def Near (kept : ℕ → Bool) (first last i : ℕ) : Prop :=
  ∃ start finish, first ≤ start ∧ start < i ∧ i < finish ∧ finish ≤ last ∧
    kept start = true ∧ kept finish = true ∧
    (∀ j, start < j → j < finish → kept j = false) ∧ distance i start finish ≤ epsilon

/-- The points up to the first one of the range are kept, and so are those from the last one on.
Flagged points are near. -/
structure Simplified (kept : ℕ → Bool) (first last : ℕ) : Prop where
  front : ∀ i ≤ first, kept i = true
  back : ∀ i, last ≤ i → kept i = true
  near : ∀ i, kept i = false → Near distance epsilon kept first last i

end Promise

/-! ### The farthest point -/

section Farthest

variable {Length : Type*} [LinearOrder Length] {bitmask : ℕ → Bool}

/-- With nothing flagged the search finds the farthest point, or stays at the start. -/
theorem foldl_farthest (distance : ℕ → ℕ → ℕ → Length) (start finish : ℕ) (places : List ℕ)
    (set : ∀ i ∈ places, bitmask i = true) (best : Length × ℕ) :
    let found := places.foldl (fun best i =>
      if bitmask i then
        let dist := distance i start finish
        if best.1 < dist then (dist, i) else best
      else best) best
    best.1 ≤ found.1 ∧ (∀ i ∈ places, distance i start finish ≤ found.1) ∧
      (found = best ∨ found.2 ∈ places) := by
  induction places generalizing best with
  | nil => exact ⟨le_rfl, (fun _ member => nomatch member), Or.inl rfl⟩
  | cons i places inductionHypothesis =>
    obtain ⟨first, rest⟩ := List.forall_mem_cons.mp set
    rw [List.foldl_cons, if_pos first]
    dsimp only
    split
    · rename_i farther
      obtain ⟨more, all, place⟩ := inductionHypothesis rest (distance i start finish, i)
      refine ⟨farther.le.trans more, List.forall_mem_cons.mpr ⟨more, all⟩, Or.inr ?_⟩
      rcases place with same | later
      · rw [same]
        exact List.mem_cons_self
      · exact List.mem_cons_of_mem _ later
    · rename_i nearer
      obtain ⟨more, all, place⟩ := inductionHypothesis rest best
      refine ⟨more, List.forall_mem_cons.mpr ⟨(not_lt.mp nearer).trans more, all⟩, ?_⟩
      exact place.imp_right (List.mem_cons_of_mem _)

variable [Zero Length] (distance : ℕ → ℕ → ℕ → Length) {start finish : ℕ}

theorem farthestPoint_spec (set : ∀ i, start < i → i < finish → bitmask i = true) :
    (∀ i, start < i → i < finish →
      distance i start finish ≤ (farthestPoint distance bitmask start finish).1) ∧
      (0 < (farthestPoint distance bitmask start finish).1 →
        start < (farthestPoint distance bitmask start finish).2 ∧
          (farthestPoint distance bitmask start finish).2 < finish) := by
  have inside : ∀ i, i ∈ List.range' (start + 1) (finish - (start + 1)) ↔ start < i ∧ i < finish := by
    intro i
    rw [List.mem_range'_1]
    omega
  obtain ⟨-, all, place⟩ := foldl_farthest distance start finish _
    (fun i member => set i ((inside i).mp member).1 ((inside i).mp member).2) (0, start)
  refine ⟨fun i low high => all i ((inside i).mpr ⟨low, high⟩), fun far => ?_⟩
  rcases place with same | found
  · exact absurd far (by rw [farthestPoint, same]; exact lt_irrefl _)
  · exact (inside _).mp found

theorem farthestPoint_nonneg (bitmask : ℕ → Bool) (start finish : ℕ) :
    0 ≤ (farthestPoint distance bitmask start finish).1 := by
  rw [farthestPoint]
  refine List.foldlRecOn _ _ (motive := fun best : Length × ℕ => 0 ≤ best.1) le_rfl
    fun best more i _ => ?_
  split
  · dsimp only
    split
    · rename_i farther
      exact more.trans farther.le
    · exact more
  · exact more

end Farthest

/-! ### Pending ranges -/

/-- The ranges on the stack, the last one first. -/
def pending (stack : ℕ → Range) : ℕ → List Range
  | 0 => []
  | count + 1 => stack count :: pending stack count

/-- The ranges touch each other, and reach from the last place down to the first one. -/
def Linked (first : ℕ) : List Range → ℕ → Prop
  | [], last => last = first
  | range :: ranges, last =>
    range.finish = last ∧ range.start ≤ range.finish ∧ Linked first ranges range.start

/-- The rounds that a range may take. -/
def Range.cost (range : Range) : ℕ := max 1 (2 * (range.finish - range.start) - 1)

/-- The rounds that some ranges may take. -/
def cost (ranges : List Range) : ℕ := (ranges.map Range.cost).sum

theorem pending_congr {stack stack' : ℕ → Range} {count : ℕ}
    (same : ∀ index < count, stack index = stack' index) :
    pending stack count = pending stack' count := by
  induction count with
  | zero => rfl
  | succ count inductionHypothesis =>
    rw [pending, pending, same count (Nat.lt_succ_self _),
      inductionHypothesis fun index inside => same index (Nat.lt_succ_of_lt inside)]

theorem length_pending (stack : ℕ → Range) (count : ℕ) : (pending stack count).length = count := by
  induction count with
  | zero => rfl
  | succ count inductionHypothesis => rw [pending, List.length_cons, inductionHypothesis]

/-- Two ranges in the place of one. -/
theorem pending_divided (stack : ℕ → Range) (count : ℕ) (lower upper : Range) :
    pending (Function.update (Function.update stack count lower) (count + 1) upper) (count + 2) =
      upper :: lower :: pending stack count := by
  rw [pending, pending, Function.update_self, Function.update_of_ne (Nat.ne_of_lt count.lt_succ_self),
    Function.update_self]
  congr 2
  refine pending_congr fun index inside => ?_
  rw [Function.update_of_ne (by omega), Function.update_of_ne (by omega)]

theorem cost_cons (range : Range) (ranges : List Range) :
    cost (range :: ranges) = range.cost + cost ranges := by
  rw [cost, cost, List.map_cons, List.sum_cons]

/-- Every range takes a round. -/
theorem length_le_cost (ranges : List Range) : ranges.length ≤ cost ranges := by
  induction ranges with
  | nil => exact Nat.zero_le _
  | cons range ranges inductionHypothesis =>
    have one : 1 ≤ range.cost := le_max_left _ _
    rw [cost_cons, List.length_cons]
    omega

/-! ### A round -/

section Round

variable {Length : Type*} [Zero Length] [LinearOrder Length] {distance : ℕ → ℕ → ℕ → Length}
  {epsilon : Length} {stackMax : ℕ}

omit [Zero Length] in
theorem Near.mono {kept kept' : ℕ → Bool} {first first' last i : ℕ} (lower : first' ≤ first)
    (same : ∀ j, first ≤ j → kept' j = kept j) (near : Near distance epsilon kept first last i) :
    Near distance epsilon kept' first' last i := by
  obtain ⟨start, finish, low, above, below, high, keptStart, keptFinish, between, close⟩ := near
  refine ⟨start, finish, lower.trans low, above, below, high, ?_, ?_, fun j after under => ?_, close⟩
  · rw [same start low, keptStart]
  · rw [same finish (by omega), keptFinish]
  · rw [same j (by omega), between j after under]

variable (distance epsilon) in
/-- The pending ranges reach from the first point of the range up to a place. Up to that place all
points are kept, and behind it all is done. -/
structure Searching (first last : ℕ) (simplify : Simplify) (top : ℕ) : Prop where
  linked : Linked first (pending simplify.stack simplify.stackCount) top
  inside : top ≤ last
  front : ∀ i ≤ top, simplify.bitmask i = true
  back : ∀ i, last ≤ i → simplify.bitmask i = true
  near : ∀ i, simplify.bitmask i = false → Near distance epsilon simplify.bitmask top last i

variable {first last top : ℕ} {simplify : Simplify}

/-- A round goes on with less work to do, unless the stack is full. -/
theorem Searching.round (searching : Searching distance epsilon first last simplify top)
    (limit : 0 ≤ epsilon) (work : simplify.stackCount ≠ 0) (room : simplify.stackCount ≤ stackMax) :
    let next := simplify.round distance epsilon stackMax
    next.1 = false ∧ (∃ top', Searching distance epsilon first last next.2 top') ∧
      cost (pending next.2.stack next.2.stackCount) <
        cost (pending simplify.stack simplify.stackCount) := by
  obtain ⟨count, counted⟩ := Nat.exists_eq_add_one_of_ne_zero work
  obtain ⟨start, finish, taken⟩ : ∃ start finish, simplify.stack count = ⟨start, finish⟩ := ⟨_, _, rfl⟩
  obtain ⟨linked, inside, front, back, near⟩ := searching
  rw [counted, pending, taken] at linked
  obtain ⟨rfl, ordered, rest⟩ := linked
  dsimp only at inside front near ordered rest
  obtain ⟨allNear, found⟩ := farthestPoint_spec distance
    fun i (_ : start < i) (below : i < finish) => front i below.le
  rw [Simplify.round, counted, Nat.add_sub_cancel, pending, taken, cost_cons]
  dsimp only
  split
  · rename_i far
    obtain ⟨above, below⟩ := found (limit.trans_lt far)
    rw [if_neg (by omega)]
    refine ⟨rfl, ⟨finish, ?_, inside, front, back, near⟩, ?_⟩
    · dsimp only
      rw [pending_divided]
      exact ⟨rfl, below.le, rfl, above.le, rest⟩
    · dsimp only
      rw [pending_divided, cost_cons, cost_cons, Range.cost, Range.cost, Range.cost]
      dsimp only
      omega
  · rename_i flat
    have outside : ∀ i, ¬ (start < i ∧ i < finish) →
        (if start < i ∧ i < finish then false else simplify.bitmask i) = simplify.bitmask i :=
      fun i out => if_neg out
    refine ⟨rfl, ⟨start, rest, ordered.trans inside, fun i low => ?_, fun i high => ?_,
      fun i flagged => ?_⟩, ?_⟩
    · exact (outside i (by omega)).trans (front i (low.trans ordered))
    · exact (outside i (by omega)).trans (back i high)
    · by_cases between : start < i ∧ i < finish
      · -- a point of this range, whose ends are kept
        refine ⟨start, finish, le_rfl, between.1, between.2, inside, ?_, ?_,
          fun j after under => if_pos ⟨after, under⟩,
          (allNear i between.1 between.2).trans (not_lt.mp flat)⟩
        · exact (outside start (by omega)).trans (front start ordered)
        · exact (outside finish (by omega)).trans (front finish le_rfl)
      · exact (near i ((outside i between).symm.trans flagged)).mono ordered fun j high =>
          outside j (by omega)
    · have one : 1 ≤ Range.cost ⟨start, finish⟩ := le_max_left _ _
      dsimp only
      omega

end Round

/-! ### Rounds -/

section Rounds

variable {Length : Type*} [Zero Length] [LinearOrder Length] (distance : ℕ → ℕ → ℕ → Length)
  (epsilon : Length) (stackMax : ℕ) {simplify : Simplify}

/-- Nothing happens behind the end of the search. -/
theorem detectInCalls_complete (budgets : List ℕ) (done : simplify.complete = true) :
    detectInCalls distance epsilon stackMax budgets simplify = simplify := by
  induction budgets with
  | nil => rfl
  | cons budget budgets inductionHypothesis =>
    rw [detectInCalls, List.foldl_cons, if_pos done]
    exact inductionHypothesis

theorem detectInCalls_eq (budgets : List ℕ) (points : 3 ≤ simplify.pathPointsCount)
    (running : simplify.complete = false) (work : simplify.stackCount ≠ 0) :
    detectInCalls distance epsilon stackMax budgets simplify =
      simplify.rounds distance epsilon stackMax budgets.sum := by
  induction budgets generalizing simplify with
  | nil => exact (Simplify.rounds_zero _ _ _ work).symm
  | cons budget budgets inductionHypothesis =>
    have called : detectSimplifications distance epsilon stackMax budget simplify =
        simplify.rounds distance epsilon stackMax budget := by
      rw [detectSimplifications, if_neg (by omega), if_neg work]
    rw [detectInCalls, List.foldl_cons, if_neg (by rw [running]; exact Bool.false_ne_true), called,
      List.sum_cons, Simplify.rounds_add _ _ _ budget _ running]
    by_cases done : (simplify.rounds distance epsilon stackMax budget).complete = true
    · rw [if_pos done]
      exact detectInCalls_complete _ _ _ budgets done
    · rw [if_neg done]
      rw [Bool.not_eq_true] at done
      obtain ⟨more, count⟩ := Simplify.rounds_running _ _ _ budget running done
      exact inductionHypothesis (by rw [count]; exact points) done more

variable {distance epsilon stackMax} {first last top : ℕ}

section

variable (searching : Searching distance epsilon first last simplify top)

include searching

omit [Zero Length] in
theorem Searching.simplified (done : simplify.stackCount = 0) :
    Simplified distance epsilon simplify.bitmask first last := by
  have linked := searching.linked
  rw [done] at linked
  have least : top = first := linked
  subst least
  exact ⟨searching.front, searching.back, searching.near⟩

/-- The rounds keep what holds while the search goes on, and in the end all is done. They end when
there is no more work. -/
theorem Searching.rounds (limit : 0 ≤ epsilon) (running : simplify.complete = false) (budget : ℕ)
    (room : ∀ earlier < budget,
      (simplify.rounds distance epsilon stackMax earlier).stackCount ≤ stackMax) :
    let found := simplify.rounds distance epsilon stackMax budget
    (found.complete = true → Simplified distance epsilon found.bitmask first last) ∧
      (cost (pending simplify.stack simplify.stackCount) ≤ budget → found.complete = true) := by
  dsimp only
  induction budget generalizing simplify top with
  | zero =>
    by_cases done : simplify.stackCount = 0
    · rw [Simplify.rounds_done _ _ _ done]
      exact ⟨fun _ => searching.simplified done, fun _ => rfl⟩
    · rw [Simplify.rounds_zero _ _ _ done]
      refine ⟨fun complete => absurd (running.symm.trans complete) Bool.false_ne_true, fun none => ?_⟩
      have some := length_le_cost (pending simplify.stack simplify.stackCount)
      rw [length_pending] at some
      exact absurd (some.trans none) (by omega)
  | succ budget inductionHypothesis =>
    by_cases done : simplify.stackCount = 0
    · rw [Simplify.rounds_done _ _ _ done]
      exact ⟨fun _ => searching.simplified done, fun _ => rfl⟩
    · have now := room 0 (Nat.succ_pos budget)
      rw [Simplify.rounds_zero _ _ _ done] at now
      obtain ⟨goesOn, ⟨top', searching'⟩, less⟩ := searching.round limit done now
      obtain ⟨running', step⟩ := Simplify.rounds_next distance epsilon stackMax done running goesOn
      obtain ⟨found, ends⟩ := inductionHypothesis searching' running' fun earlier inside => by
        rw [← step]
        exact room (earlier + 1) (Nat.succ_lt_succ inside)
      rw [step]
      exact ⟨found, fun enough => ends (by omega)⟩

/-- A stack with a place for each round that the ranges may take does not fill up. -/
theorem Searching.room (limit : 0 ≤ epsilon) (running : simplify.complete = false) (budget : ℕ)
    (enough : cost (pending simplify.stack simplify.stackCount) ≤ stackMax) :
    (simplify.rounds distance epsilon stackMax budget).stackCount ≤ stackMax := by
  have now := length_le_cost (pending simplify.stack simplify.stackCount)
  rw [length_pending] at now
  induction budget generalizing simplify top with
  | zero =>
    by_cases done : simplify.stackCount = 0
    · rw [Simplify.rounds_done _ _ _ done]
      exact now.trans enough
    · rw [Simplify.rounds_zero _ _ _ done]
      exact now.trans enough
  | succ budget inductionHypothesis =>
    by_cases done : simplify.stackCount = 0
    · rw [Simplify.rounds_done _ _ _ done]
      exact now.trans enough
    · obtain ⟨goesOn, ⟨top', searching'⟩, less⟩ := searching.round limit done (now.trans enough)
      obtain ⟨running', step⟩ := Simplify.rounds_next distance epsilon stackMax done running goesOn
      have later := length_le_cost (pending (simplify.round distance epsilon stackMax).2.stack
        (simplify.round distance epsilon stackMax).2.stackCount)
      rw [length_pending] at later
      rw [step]
      exact inductionHypothesis searching' running' (less.le.trans enough) later

end

/-- With a limit below zero every round divides a range, so that any stack fills up. -/
theorem Simplify.rounds_negative (negative : epsilon < 0) (work : simplify.stackCount ≠ 0)
    (running : simplify.complete = false) (budget : ℕ)
    (room : ∀ earlier < budget,
      (simplify.rounds distance epsilon stackMax earlier).stackCount ≤ stackMax) :
    (simplify.rounds distance epsilon stackMax budget).stackCount = simplify.stackCount + budget := by
  induction budget generalizing simplify with
  | zero => rw [rounds_zero _ _ _ work, Nat.add_zero]
  | succ budget inductionHypothesis =>
    have now := room 0 (Nat.succ_pos budget)
    rw [rounds_zero _ _ _ work] at now
    have divided : (simplify.round distance epsilon stackMax).1 = false ∧
        (simplify.round distance epsilon stackMax).2.stackCount = simplify.stackCount + 1 := by
      rw [Simplify.round]
      dsimp only
      rw [if_pos (negative.trans_le (farthestPoint_nonneg ..)), if_neg (by omega)]
      exact ⟨rfl, by dsimp only; omega⟩
    obtain ⟨running', step⟩ := rounds_next distance epsilon stackMax work running divided.1
    rw [step, inductionHypothesis (by omega) running' fun earlier inside => by
      rw [← step]
      exact room (earlier + 1) (Nat.succ_lt_succ inside), divided.2]
    omega

end Rounds

/-! ### A restarted search -/

/-- A restarted search with its first range on the stack. -/
def begun (pathPointsCount : ℕ) (old : Simplify) : Simplify :=
  let start := restartSimplification pathPointsCount old
  { start with
    stack := Function.update start.stack 0 ⟨old.firstPoint, pathPointsCount - 1⟩
    stackCount := 1
    accesses := start.accesses ++ [(.stack, 0)] }

section Restarted

variable {Length : Type*} [Zero Length] [LinearOrder Length] (distance : ℕ → ℕ → ℕ → Length)
  (epsilon : Length) (stackMax : ℕ) {pathPointsCount : ℕ}

theorem detectSimplifications_restarted (points : 3 ≤ pathPointsCount) (old : Simplify)
    (budget : ℕ) :
    detectSimplifications distance epsilon stackMax budget
        (restartSimplification pathPointsCount old) =
      (begun pathPointsCount old).rounds distance epsilon stackMax budget :=
  if_neg (show ¬ pathPointsCount < 3 by omega)

/-- Calls after a restart are one search from the first range on. -/
theorem detectInCalls_restarted (points : 3 ≤ pathPointsCount) (old : Simplify) {budgets : List ℕ}
    (some : budgets ≠ []) :
    detectInCalls distance epsilon stackMax budgets (restartSimplification pathPointsCount old) =
      (begun pathPointsCount old).rounds distance epsilon stackMax budgets.sum := by
  obtain ⟨budget, budgets, rfl⟩ := List.exists_cons_of_ne_nil some
  have first : detectSimplifications distance epsilon stackMax budget
        (restartSimplification pathPointsCount old) =
      detectSimplifications distance epsilon stackMax budget (begun pathPointsCount old) := by
    rw [detectSimplifications_restarted distance epsilon stackMax points]
    exact (if_neg (show ¬ pathPointsCount < 3 by omega)).symm
  rw [← detectInCalls_eq distance epsilon stackMax (budget :: budgets) points rfl Nat.one_ne_zero,
    detectInCalls, detectInCalls, List.foldl_cons, List.foldl_cons]
  congr 1

omit [Zero Length] in
/-- A restarted search has the whole range in front of it. -/
theorem searching_begun (old : Simplify) (completed : old.pathPointsCompleted ≤ pathPointsCount) :
    Searching distance epsilon old.firstPoint (pathPointsCount - 1) (begun pathPointsCount old)
      (pathPointsCount - 1) := by
  refine ⟨⟨rfl, ?_, rfl⟩, le_rfl, fun _ _ => rfl, fun _ _ => rfl, fun _ => nofun⟩
  change old.firstPoint ≤ pathPointsCount - 1
  rw [Simplify.firstPoint]
  split <;> omega

end Restarted

/-! ### The main result -/

section Result

variable {Length : Type*} [Zero Length] [LinearOrder Length] (distance : ℕ → ℕ → ℕ → Length)
  (epsilon : Length) (stackMax : ℕ)

/-- The simplification of a path of at least three points ends, with each flagged point near the line
between the kept points around it. The flags are the same however the rounds are spread over calls. -/
theorem detectInCalls_simplified (pathPointsCount : ℕ) (points : 3 ≤ pathPointsCount)
    (old : Simplify) (completed : old.pathPointsCompleted ≤ pathPointsCount)
    (room : ∀ budget, (detectSimplifications distance epsilon stackMax budget
      (restartSimplification pathPointsCount old)).stackCount ≤ stackMax) :
    ∃ rounds kept,
      Simplified distance epsilon kept old.firstPoint (pathPointsCount - 1) ∧
        ∀ budgets,
          let found := detectInCalls distance epsilon stackMax budgets
            (restartSimplification pathPointsCount old)
          (rounds ≤ budgets.sum → found.complete = true) ∧
            (found.complete = true → found.bitmask = kept) := by
  let search (budget : ℕ) := (begun pathPointsCount old).rounds distance epsilon stackMax budget
  have room' : ∀ budget, (search budget).stackCount ≤ stackMax := by
    intro budget
    have fits := room budget
    rwa [detectSimplifications_restarted distance epsilon stackMax points] at fits
  have limit : 0 ≤ epsilon := by
    by_contra negative
    have fits := room' stackMax
    rw [Simplify.rounds_negative (not_le.mp negative) Nat.one_ne_zero rfl stackMax
      fun earlier _ => room' earlier] at fits
    exact absurd fits (by change ¬ 1 + stackMax ≤ stackMax; omega)
  have searched := fun budget => (searching_begun distance epsilon old completed).rounds limit rfl budget
    fun earlier _ => room' earlier
  let rounds := cost (pending (begun pathPointsCount old).stack (begun pathPointsCount old).stackCount)
  have ends : (search rounds).complete = true := (searched rounds).2 le_rfl
  refine ⟨rounds, (search rounds).bitmask, (searched rounds).1 ends, fun budgets => ?_⟩
  by_cases none : budgets = []
  · subst none
    refine ⟨fun enough => ?_, nofun⟩
    have one := length_le_cost (pending (begun pathPointsCount old).stack 1)
    rw [length_pending] at one
    exact absurd (one.trans enough) (Nat.not_succ_le_zero 0)
  · dsimp only
    rw [detectInCalls_restarted distance epsilon stackMax points old none]
    refine ⟨(searched _).2, fun complete => ?_⟩
    -- both are the search with the time of both
    have now : search (budgets.sum + rounds) = search budgets.sum :=
      (Simplify.rounds_add distance epsilon stackMax budgets.sum rounds rfl).trans (if_pos complete)
    have later : search (rounds + budgets.sum) = search rounds :=
      (Simplify.rounds_add distance epsilon stackMax rounds budgets.sum rfl).trans (if_pos ends)
    change (search budgets.sum).bitmask = (search rounds).bitmask
    rw [← now, ← later, Nat.add_comm]

/-- The distances of a path of five points with a corner in the middle. -/
def cornerDistance (i _start _finish : ℕ) : ℕ := if i = 2 then 5 else 1

/-- The corner divides the range, and is kept. -/
theorem detectInCalls_simplified_corner :
    let old : Simplify := ⟨false, false, 0, 0, fun _ => ⟨0, 0⟩, 0, fun _ => true, []⟩
    ∃ rounds kept, kept 2 = true ∧
      Simplified cornerDistance 2 kept 0 4 ∧
        ∀ budgets,
          let found := detectInCalls cornerDistance 2 7 budgets (restartSimplification 5 old)
          (rounds ≤ budgets.sum → found.complete = true) ∧
            (found.complete = true → found.bitmask = kept) := by
  obtain ⟨rounds, kept, simplified, found⟩ := detectInCalls_simplified cornerDistance 2 7 5
    (by decide) ⟨false, false, 0, 0, fun _ => ⟨0, 0⟩, 0, fun _ => true, []⟩ (Nat.zero_le 5)
    fun budget => by
      rw [detectSimplifications_restarted _ _ _ (by decide)]
      exact (searching_begun cornerDistance 2 _ (Nat.zero_le 5)).room (by decide) rfl budget
        (by decide)
  refine ⟨rounds, kept, ?_, simplified, found⟩
  by_contra flagged
  obtain ⟨start, finish, -, -, -, -, -, -, -, near⟩ :=
    simplified.near 2 (Bool.eq_false_iff.mpr flagged)
  exact absurd near (show ¬ 5 ≤ 2 by decide)

end Result

end Urus.SmartRtl
