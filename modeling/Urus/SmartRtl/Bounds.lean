/-
This file is about the array accesses of SmartRTL. The stack of the simplification is checked for one
free place before two ranges are put on it, so a range that is divided while only one place is free
is written behind the end of the stack. In a run in which that does not happen, and in which no point
is asked for that the path has no room for, all accesses are inside their arrays.

The counts that the parts keep for themselves stay below the size of the path: the count of the
points when the simplification began, the count that it has completed, and the indices of the search
for loops. The ranges on the stack and the recorded loops are between them.
-/

import Urus.Lib.Trace
import Urus.SmartRtl.Loops
import Urus.SmartRtl.System

namespace Urus.SmartRtl

/-! ### What is promised -/

section Promise

variable {Point Length : Type*} [Zero Length] [LT Length] [DecidableLT Length]
  (distance : ℕ → ℕ → ℕ → Length) (epsilon : Length) (stackMax : ℕ)

/-- The accesses are inside their arrays. -/
def Sizes.Inside (sizes : Sizes) (accesses : List (Memory × ℕ)) : Prop :=
  ∀ access ∈ accesses, access.2 < sizes.length access.1

/-- All accesses so far are inside their arrays. -/
def State.Inside (sizes : Sizes) (state : State Point Length) : Prop :=
  sizes.Inside state.path.accesses ∧ sizes.Inside state.simplify.accesses

/-- The next round divides a range, and there is one free place for it when it is taken. -/
def Simplify.Overflows (simplify : Simplify) : Prop :=
  simplify.complete = false ∧ simplify.stackCount = stackMax ∧
    epsilon < (farthestPoint distance simplify.bitmask (simplify.stack (stackMax - 1)).start
      (simplify.stack (stackMax - 1)).finish).1

/-- No round of a search overflows. -/
def Simplify.Fits (budget : ℕ) (simplify : Simplify) : Prop :=
  simplify.complete = false → ∀ earlier < budget,
    ¬ (detectSimplifications distance epsilon stackMax earlier simplify).Overflows distance epsilon
      stackMax

/-- The search that `run_background_cleanup` goes on with, if it gets there. -/
def State.search (semaphore : Bool) (state : State Point Length) : Option Simplify :=
  if ¬ state.path.active ∨ ¬ semaphore then none
  else if 0 < state.thoroughCleanRequestMs then
    if state.thoroughCleanCompleteMs = state.thoroughCleanRequestMs ∨
        state.thoroughCleanType = .pruneOnly then none
    else if state.simplify.complete then
      some (restartSimplifyIfNewPoints state.path.count state.simplify)
    else some state.simplify
  else some state.simplify

/-- A call asks only for a point that the path has room for, and no round of its search overflows. -/
def Allowed (sizes : Sizes) (state : State Point Length) : Call Point Length → Prop
  | .getPoint index => index < sizes.pathPointsMax
  | .runBackgroundCleanup geometry budget semaphore _ =>
    ∀ simplify ∈ state.search semaphore, simplify.Fits (segmentDistance geometry state.path)
      geometry.epsilon sizes.stackMax budget
  | _ => True

end Promise

/-! ### Accesses -/

section Accesses

variable {sizes : Sizes} {accesses more : List (Memory × ℕ)} {memory : Memory}
  {index start count : ℕ}

theorem inside_nil : sizes.Inside [] := nofun

theorem inside_append : sizes.Inside (accesses ++ more) ↔
    sizes.Inside accesses ∧ sizes.Inside more := List.forall_mem_append

theorem inside_cons : sizes.Inside ((memory, index) :: accesses) ↔
    index < sizes.length memory ∧ sizes.Inside accesses := List.forall_mem_cons

theorem inside_reads (below : start + count ≤ sizes.length memory) :
    sizes.Inside (reads memory start count) := by
  intro access member
  obtain ⟨index, found, rfl⟩ := List.mem_map.mp member
  rw [List.mem_range'_1] at found
  exact found.2.trans_le below

theorem Sizes.stackMax_pos (sizes : Sizes) : 0 < sizes.stackMax := Nat.succ_pos _

end Accesses

/-! ### The simplification -/

section Simplification

variable {Length : Type*} [Zero Length] [LT Length] [DecidableLT Length]
  {distance : ℕ → ℕ → ℕ → Length} {epsilon : Length} {sizes : Sizes} {simplify : Simplify}

/-- The counts and the ranges are those of a path with room for them. -/
structure Simplify.Sound (sizes : Sizes) (simplify : Simplify) : Prop where
  counted : simplify.pathPointsCount ≤ sizes.pathPointsMax
  completed : simplify.pathPointsCompleted ≤ sizes.pathPointsMax
  few : simplify.stackCount ≤ sizes.stackMax
  ranges : ∀ index < simplify.stackCount, (simplify.stack index).start < sizes.pathPointsMax ∧
    (simplify.stack index).finish < sizes.pathPointsMax
  inside : sizes.Inside simplify.accesses

theorem farthestPoint_between (distance : ℕ → ℕ → ℕ → Length) (bitmask : ℕ → Bool) (start finish : ℕ) :
    let farthest := (farthestPoint distance bitmask start finish).2
    farthest = start ∨ farthest < finish := by
  refine List.foldlRecOn _ _ (motive := fun best : Length × ℕ => best.2 = start ∨ best.2 < finish)
    (Or.inl rfl) fun best between i member => ?_
  rw [List.mem_range'_1] at member
  split
  · dsimp only
    split
    · exact Or.inr (by dsimp only; omega)
    · exact between
  · exact between

theorem inside_farthestPointReads (bitmask : ℕ → Bool) {start finish : ℕ}
    (first : start < sizes.pathPointsMax) (last : finish < sizes.pathPointsMax) :
    sizes.Inside (farthestPointReads bitmask start finish) := by
  intro access member
  obtain ⟨i, between, found⟩ := List.mem_flatMap.mp member
  rw [List.mem_range'_1] at between
  have few := sizes.few
  have place : i < sizes.pathPointsMax := by omega
  rcases List.mem_cons.mp found with rfl | found
  · exact place.trans_le few
  · split at found
    · rw [List.mem_cons, List.mem_cons, List.mem_singleton] at found
      rcases found with rfl | rfl | rfl
      · exact place
      · exact first
      · exact last
    · exact nomatch found

/-- A round that does not overflow accesses only what is inside, and goes on. -/
theorem Simplify.Sound.round (sound : simplify.Sound sizes) (work : simplify.stackCount ≠ 0)
    (running : simplify.complete = false) (fits : ¬ simplify.Overflows distance epsilon sizes.stackMax) :
    (simplify.round distance epsilon sizes.stackMax).1 = false ∧
      (simplify.round distance epsilon sizes.stackMax).2.Sound sizes := by
  obtain ⟨count, counted⟩ := Nat.exists_eq_add_one_of_ne_zero work
  have few := sound.few
  have ranges := sound.ranges
  obtain ⟨start, finish, taken⟩ : ∃ start finish, simplify.stack count = ⟨start, finish⟩ := ⟨_, _, rfl⟩
  rw [counted] at few ranges
  obtain ⟨first, last⟩ := ranges count count.lt_succ_self
  rw [taken] at first last
  dsimp only at first last
  have popped : sizes.Inside (simplify.accesses ++ (.stack, count) ::
      farthestPointReads simplify.bitmask start finish) :=
    inside_append.mpr ⟨sound.inside,
      inside_cons.mpr ⟨few, inside_farthestPointReads simplify.bitmask first last⟩⟩
  have lower : ∀ index < count, (simplify.stack index).start < sizes.pathPointsMax ∧
      (simplify.stack index).finish < sizes.pathPointsMax :=
    fun index below => ranges index (Nat.lt_succ_of_lt below)
  rw [Simplify.round, counted, Nat.add_sub_cancel, taken]
  dsimp only
  split
  · rename_i far
    have room : count + 1 < sizes.stackMax := by
      refine lt_of_le_of_ne few fun full => fits ⟨running, counted.trans full, ?_⟩
      rw [← full, Nat.add_sub_cancel, taken]
      exact far
    rw [if_neg (by omega)]
    have middle : (farthestPoint distance simplify.bitmask start finish).2 < sizes.pathPointsMax := by
      rcases farthestPoint_between distance simplify.bitmask start finish with
        same | below
      · exact same.trans_lt first
      · exact below.trans last
    refine ⟨rfl, sound.counted, sound.completed, room, fun index below => ?_, ?_⟩
    · dsimp only at below ⊢
      rw [Function.update_apply, Function.update_apply]
      split
      · exact ⟨middle, last⟩
      · split
        · exact ⟨first, middle⟩
        · exact lower index (by omega)
    · exact inside_append.mpr ⟨popped, inside_cons.mpr ⟨few, inside_cons.mpr ⟨room, inside_nil⟩⟩⟩
  · refine ⟨rfl, sound.counted, sound.completed, (Nat.le_succ count).trans few, lower, ?_⟩
    have most := sizes.few
    refine inside_append.mpr ⟨popped, inside_reads ?_⟩
    change start + 1 + (finish - (start + 1)) ≤ pointsMax
    omega

theorem Simplify.Sound.ended (sound : simplify.Sound sizes) :
    Simplify.Sound sizes { simplify with
      pathPointsCompleted := simplify.pathPointsCount, complete := true } :=
  ⟨sound.counted, sound.counted, sound.few, sound.ranges, sound.inside⟩

theorem Simplify.Sound.rounds (sound : simplify.Sound sizes) (running : simplify.complete = false)
    (budget : ℕ) (fits : ∀ earlier < budget,
      ¬ (simplify.rounds distance epsilon sizes.stackMax earlier).Overflows distance epsilon
        sizes.stackMax) :
    (simplify.rounds distance epsilon sizes.stackMax budget).Sound sizes := by
  induction budget generalizing simplify with
  | zero =>
    by_cases done : simplify.stackCount = 0
    · rw [Simplify.rounds_done _ _ _ done]
      exact sound.ended
    · rw [Simplify.rounds_zero _ _ _ done]
      exact sound
  | succ budget inductionHypothesis =>
    by_cases done : simplify.stackCount = 0
    · rw [Simplify.rounds_done _ _ _ done]
      exact sound.ended
    · have now := fits 0 (Nat.succ_pos budget)
      rw [Simplify.rounds_zero _ _ _ done] at now
      obtain ⟨goesOn, sound'⟩ := sound.round done running now
      obtain ⟨running', next⟩ :=
        Simplify.rounds_next distance epsilon sizes.stackMax done running goesOn
      rw [next]
      refine inductionHypothesis sound' running' fun earlier inside => ?_
      rw [← next]
      exact fits (earlier + 1) (Nat.succ_lt_succ inside)

/-- A call that does not overflow accesses only what is inside. -/
theorem Simplify.Sound.detect (sound : simplify.Sound sizes) (running : simplify.complete = false)
    {budget : ℕ} (fits : simplify.Fits distance epsilon sizes.stackMax budget) :
    (detectSimplifications distance epsilon sizes.stackMax budget simplify).Sound sizes := by
  have fits := fits running
  by_cases few : simplify.pathPointsCount < 3
  · rw [detectSimplifications, if_pos few]
    exact ⟨sound.counted, sound.completed, sound.few, sound.ranges, sound.inside⟩
  · have called : ∀ budget, detectSimplifications distance epsilon sizes.stackMax budget simplify =
        _ := fun budget => if_neg few
    rw [called]
    simp only [called] at fits
    refine Simplify.Sound.rounds ?_ ?_ budget fits
    · split
      · have last : simplify.pathPointsCount - 1 < sizes.pathPointsMax := by
          have counted := sound.counted
          omega
        refine ⟨sound.counted, sound.completed, sizes.stackMax_pos, fun index below => ?_,
          inside_append.mpr ⟨sound.inside, inside_cons.mpr ⟨sizes.stackMax_pos, inside_nil⟩⟩⟩
        obtain rfl : index = 0 := Nat.lt_one_iff.mp below
        dsimp only
        rw [Function.update_self]
        refine ⟨?_, last⟩
        have completed := sound.completed
        dsimp only
        split <;> omega
      · exact sound
    · split
      · exact running
      · exact running

end Simplification

/-! ### The path and its loops -/

section Loops

variable {Point Length : Type*} [Zero Length] [Add Length] [LT Length] [DecidableLT Length]
  {distanceSquared : Point → Point → Length} {sizes : Sizes} {path : Path Point Length}

/-- There is room for the points and the loops of the path. The loops are between the places of the
path and lie apart, though points behind them may have been taken away. -/
structure Path.Fits (sizes : Sizes) (path : Path Point Length) : Prop where
  counted : path.count ≤ sizes.pathPointsMax
  recorded : Path.Sound sizes.loopsMax { path with count := sizes.pathPointsMax }
  inside : sizes.Inside path.accesses

omit [Zero Length] [Add Length] [LT Length] [DecidableLT Length] in
/-- Whatever else changes, there is room for the same loops. -/
theorem Path.Fits.of_loops {path' : Path Point Length} (fits : path.Fits sizes)
    (loops : path'.loops = path.loops) (counted : path'.count ≤ sizes.pathPointsMax)
    (inside : sizes.Inside path'.accesses) : path'.Fits sizes := by
  obtain ⟨few, between, apart⟩ := fits.recorded
  refine ⟨counted, ⟨?_, ?_, ?_⟩, inside⟩ <;> dsimp only <;> rw [loops]
  · exact few
  · exact between
  · exact apart

omit [Zero Length] [Add Length] [LT Length] [DecidableLT Length] in
theorem Path.Fits.access (fits : path.Fits sizes) {more : List (Memory × ℕ)}
    (inside : sizes.Inside more) :
    Path.Fits sizes { path with accesses := path.accesses ++ more } :=
  fits.of_loops rfl fits.counted (inside_append.mpr ⟨fits.inside, inside⟩)

theorem addLoop_recount (loopsMax startIndex endIndex count : ℕ) (midpoint : Point) :
    (addLoop distanceSquared loopsMax startIndex endIndex midpoint { path with count := count }).2 =
      { (addLoop distanceSquared loopsMax startIndex endIndex midpoint path).2 with
        count := count } := by
  rw [addLoop, addLoop]
  dsimp only
  split
  · rfl
  · split
    · rfl
    · split <;> rfl

variable {startIndex endIndex : ℕ}

theorem addLoop_inside (fits : path.Fits sizes) (inside : endIndex < sizes.pathPointsMax)
    (midpoint : Point) :
    sizes.Inside (addLoop distanceSquared sizes.loopsMax startIndex endIndex midpoint path).2.accesses := by
  rw [addLoop]
  split
  · exact fits.inside
  · rename_i room
    split
    · exact fits.inside
    · rename_i ordered
      have looked : sizes.Inside (path.accesses ++
          reads .path startIndex (endIndex - startIndex + 1) ++ reads .loops 0 path.loops.length) := by
        refine inside_append.mpr ⟨inside_append.mpr ⟨fits.inside, inside_reads ?_⟩, inside_reads ?_⟩
        · change startIndex + (endIndex - startIndex + 1) ≤ sizes.pathPointsMax
          omega
        · change 0 + path.loops.length ≤ sizes.loopsMax
          omega
      dsimp only
      split
      · exact looked
      · refine inside_append.mpr ⟨looked, inside_cons.mpr ⟨?_, inside_nil⟩⟩
        exact (List.length_filter_le _ _).trans_lt (not_le.mp room)

theorem addLoop_fits (fits : path.Fits sizes) (inside : endIndex < sizes.pathPointsMax)
    (midpoint : Point) :
    (addLoop distanceSquared sizes.loopsMax startIndex endIndex midpoint path).2.Fits sizes := by
  refine ⟨?_, ?_, addLoop_inside fits inside midpoint⟩
  · rw [addLoop_count]
    exact fits.counted
  · rw [← addLoop_recount]
    exact addLoop_sound fits.recorded inside

omit [Zero Length] [Add Length] [LT Length] [DecidableLT Length] in
theorem Path.Fits.without (fits : path.Fits sizes) {loop : Loop Point Length}
    {rest : List (Loop Point Length)} (recorded : path.loops = rest ++ [loop])
    {accesses : List (Memory × ℕ)} (inside : sizes.Inside accesses) :
    (path.without loop rest accesses).Fits sizes := by
  obtain ⟨few, between, apart⟩ := without_sound fits.recorded recorded accesses
  exact ⟨(Nat.sub_le _ _).trans fits.counted,
    ⟨few, fun other member => ⟨(between other member).1,
      (between other member).2.trans_le (Nat.sub_le _ _)⟩, apart⟩, inside⟩

omit [Zero Length] [Add Length] [LT Length] [DecidableLT Length] in
theorem removeLoops_fits (fits : path.Fits sizes) (numPointsToRemove removedPoints : ℕ) :
    (removeLoops numPointsToRemove path.loops.length removedPoints path).Fits sizes := by
  induction length : path.loops.length generalizing path removedPoints with
  | zero => exact fits
  | succ count inductionHypothesis =>
    rw [removeLoops]
    split
    · obtain ⟨rest, loop, recorded, rfl⟩ := exists_last length
      have found : path.loops[rest.length]? = some loop := by
        rw [recorded, List.getElem?_append_right le_rfl, Nat.sub_self]
        rfl
      have taken : path.loops.take rest.length = rest := by rw [recorded, List.take_left]
      obtain ⟨ordered, last, -⟩ := fits.recorded.last recorded
      have few := fits.recorded.few
      have counted := fits.counted
      dsimp only at last few
      have accessed : sizes.Inside (path.accesses ++
          [(Memory.loops, rest.length), (Memory.path, loop.startIndex)] ++
          reads .path (loop.startIndex + 1)
            (path.count - (loop.endIndex - loop.startIndex) - (loop.startIndex + 1)) ++
          reads .path (loop.startIndex + 1 + (loop.endIndex - loop.startIndex))
            (path.count - (loop.endIndex - loop.startIndex) - (loop.startIndex + 1))) := by
        have entry : rest.length < sizes.loopsMax := by omega
        refine inside_append.mpr ⟨inside_append.mpr ⟨inside_append.mpr ⟨fits.inside,
          inside_cons.mpr ⟨entry, inside_cons.mpr ⟨ordered.trans last, inside_nil⟩⟩⟩,
          inside_reads ?_⟩, inside_reads ?_⟩
        · change loop.startIndex + 1 + _ ≤ sizes.pathPointsMax
          omega
        · change loop.startIndex + 1 + _ + _ ≤ sizes.pathPointsMax
          omega
      rw [found]
      dsimp only
      rw [taken]
      split
      · have renumbered : sizes.Inside (reads Memory.loops 0 rest.length) := by
          refine inside_reads ?_
          change 0 + rest.length ≤ sizes.loopsMax
          omega
        exact inductionHypothesis
          (fits.without recorded (inside_append.mpr ⟨accessed, renumbered⟩)) _
          (List.length_map _)
      · exact fits.of_loops rfl counted accessed
    · exact fits

omit [Zero Length] [Add Length] [LT Length] [DecidableLT Length] in
theorem removePointsByLoops_fits (fits : path.Fits sizes) (semaphore : Bool)
    (numPointsToRemove : ℕ) :
    (removePointsByLoops semaphore numPointsToRemove path).2.Fits sizes := by
  rw [removePointsByLoops]
  split
  · exact fits
  · split
    · exact fits
    · exact removeLoops_fits fits numPointsToRemove 0

end Loops

/-! ### Pruning -/

section Pruning

variable {Point Length : Type*} [Zero Length] [Add Length] [LT Length] [DecidableLT Length]
  (close : Point → Point → Point → Point → Option Point)
  (distanceSquared : Point → Point → Length) {sizes : Sizes} {prune : Prune}
  {path : Path Point Length}

/-- The indices of the search are those of two segments of the path. -/
structure Prune.Between (sizes : Sizes) (prune : Prune) : Prop where
  counted : prune.pathPointsCount ≤ sizes.pathPointsMax
  outer : 3 ≤ prune.i ∧ prune.i < prune.pathPointsCount
  inner : prune.j ≤ prune.i

/-- While the search for loops goes on, its indices are inside. -/
structure Prune.Sound (sizes : Sizes) (prune : Prune) : Prop where
  counted : prune.pathPointsCount ≤ sizes.pathPointsMax
  between : prune.complete = false → 4 ≤ prune.pathPointsCount → prune.Between sizes

theorem before_eq {index : ℕ} (positive : 0 < index) (below : index ≤ 2 ^ 16) :
    before index = index - 1 := by
  rw [before]
  omega

/-- The comparison of two segments that do not touch accesses only what is inside. -/
theorem compareSegments_fits (prune : Prune) (between : prune.Between sizes) (positive : 0 < prune.j)
    (apart : prune.j + 2 ≤ prune.i) (fits : path.Fits sizes) :
    let next := compareSegments close distanceSquared sizes.loopsMax prune path
    next.1.Between sizes ∧ next.1.pathPointsCount = prune.pathPointsCount ∧
      next.2.Fits sizes := by
  have most : sizes.pathPointsMax ≤ 500 := sizes.few
  have last : prune.i < sizes.pathPointsMax := between.outer.2.trans_le between.counted
  have lower : ∀ index ≤ prune.i, index < sizes.length .path := fun index below =>
    below.trans_lt last
  have accessed := fits.access (inside_cons.mpr ⟨lower prune.i le_rfl, inside_cons.mpr
    ⟨lower (prune.i - 1) (by omega), inside_cons.mpr ⟨lower (prune.j - 1) (by omega),
      inside_cons.mpr ⟨lower prune.j (by omega), inside_nil⟩⟩⟩⟩)
  rw [compareSegments, before_eq (by omega) (by omega), before_eq positive (by omega)]
  split
  · exact ⟨between, rfl, accessed⟩
  · exact ⟨⟨between.counted, between.outer, le_rfl⟩, rfl,
      addLoop_fits accessed (lower (prune.i - 1) (by omega)) _⟩

/-- A round accesses only what is inside. -/
theorem pruneRound_fits (between : prune.Between sizes) (fits : path.Fits sizes) :
    let next := pruneRound close distanceSquared sizes.loopsMax prune path
    next.2.1.pathPointsCount = prune.pathPointsCount ∧ next.2.2.Fits sizes ∧
      (if next.1 then next.2.1.complete = true else next.2.1.Between sizes) := by
  have most : sizes.pathPointsMax ≤ 500 := sizes.few
  obtain ⟨counted, ⟨low, high⟩, inner⟩ := between
  have inward : (prune.j + 1) % 2 ^ 16 = prune.j + 1 := by omega
  have outward : (prune.i + 2 ^ 16 - 1) % 2 ^ 16 = prune.i - 1 := by omega
  have onward : ∀ i j, 0 < j → j + 2 ≤ i → i < prune.pathPointsCount →
      let next := compareSegments close distanceSquared sizes.loopsMax
        { prune with i := i, j := j } path
      next.1.pathPointsCount = prune.pathPointsCount ∧ next.2.Fits sizes ∧
        next.1.Between sizes := by
    intro i j positive apart inside
    obtain ⟨between, same, kept⟩ := compareSegments_fits close distanceSquared
      { prune with i := i, j := j } ⟨counted, ⟨by dsimp only; omega, inside⟩, by dsimp only; omega⟩ positive apart fits
    exact ⟨same, kept, between⟩
  rw [pruneRound, inward, outward]
  by_cases outer : (prune.i : Int) - 2 < ((prune.j + 1 : ℕ) : Int)
  · -- the outer index goes on, and the inner one starts again
    simp only [outer, decide_true, if_true, true_and]
    split
    · exact ⟨rfl, fits, rfl⟩
    · exact onward (prune.i - 1) 1 Nat.one_pos (by omega) (by omega)
  · simp only [outer, decide_false, Bool.false_eq_true, if_false, false_and]
    exact onward prune.i (prune.j + 1) (Nat.succ_pos _) (by omega) high

/-- The rounds access only what is inside. -/
theorem pruneRounds_fits (between : prune.Between sizes) (fits : path.Fits sizes) (budget : ℕ) :
    let next := pruneRounds close distanceSquared sizes.loopsMax budget prune path
    next.1.Sound sizes ∧ next.2.Fits sizes := by
  induction budget generalizing prune path with
  | zero => exact ⟨⟨between.counted, fun _ _ => between⟩, fits⟩
  | succ budget inductionHypothesis =>
    have round := pruneRound_fits close distanceSquared between fits
    rw [pruneRounds]
    revert round
    rcases pruneRound close distanceSquared sizes.loopsMax prune path with ⟨_ | _, next, path'⟩ <;>
      intro round
    · exact inductionHypothesis round.2.2 round.2.1
    · obtain ⟨same, kept, complete⟩ := round
      refine ⟨⟨same.trans_le between.counted, fun running => ?_⟩, kept⟩
      exact absurd (running.symm.trans complete) Bool.false_ne_true

/-- The search for loops accesses only what is inside. -/
theorem detectLoops_fits (sound : prune.Sound sizes) (running : prune.complete = false)
    (fits : path.Fits sizes) (budget : ℕ) :
    let next := detectLoops close distanceSquared sizes.loopsMax budget prune path
    next.1.Sound sizes ∧ next.2.Fits sizes := by
  rw [detectLoops]
  split
  · exact ⟨⟨sound.counted, nofun⟩, fits⟩
  · rename_i enough
    exact pruneRounds_fits close distanceSquared (sound.between running (not_lt.mp enough)) fits budget

omit [Zero Length] [Add Length] [LT Length] [DecidableLT Length] in
/-- A search that starts again has its indices at the end of the path. -/
theorem restartPruning_sound {pathPointsCount : ℕ} (counted : pathPointsCount ≤ sizes.pathPointsMax)
    (prune : Prune) : (restartPruning pathPointsCount prune).Sound sizes := by
  refine ⟨counted, fun _ enough => ⟨counted, ?_, Nat.zero_le _⟩⟩
  rw [restartPruning] at enough ⊢
  dsimp only at enough ⊢
  split <;> omega

end Pruning

/-! ### Points -/

section Points

variable {Point Length : Type*} {sizes : Sizes} {state : State Point Length}
  {path : Path Point Length}

/-- What holds while SmartRTL is active. -/
structure State.Ready (sizes : Sizes) (state : State Point Length) : Prop where
  path : state.path.Fits sizes
  simplify : state.simplify.Sound sizes
  prune : state.prune.Sound sizes

/-- What always holds. Before home is set, no points of the path have been simplified, though the
count of them says so. -/
structure State.Sound (sizes : Sizes) (state : State Point Length) : Prop where
  path : state.path.Fits sizes
  inside : sizes.Inside state.simplify.accesses
  simplify : state.path.active = true → state.simplify.Sound sizes
  prune : state.prune.Sound sizes

theorem State.Ready.sound (ready : state.Ready sizes) : state.Sound sizes :=
  ⟨ready.path, ready.simplify.inside, fun _ => ready.simplify, ready.prune⟩

theorem State.Sound.ready (sound : state.Sound sizes) (active : state.path.active = true) :
    state.Ready sizes :=
  ⟨sound.path, sound.simplify active, sound.prune⟩

theorem Path.Fits.deactivate (fits : path.Fits sizes) : path.deactivate.Fits sizes :=
  fits.of_loops rfl fits.counted fits.inside

theorem Path.Fits.recount (fits : path.Fits sizes) (points : ℕ → Point) {count : ℕ}
    (few : count ≤ sizes.pathPointsMax) :
    Path.Fits sizes { path with points := points, count := count } :=
  fits.of_loops rfl few fits.inside

theorem addPoint_fits (geometry : Geometry Point Length) (fits : path.Fits sizes)
    (semaphore : Bool) (point : Point) :
    (addPoint sizes geometry semaphore point path).2.Fits sizes ∧
      (addPoint sizes geometry semaphore point path).2.active = path.active := by
  have counted := fits.counted
  have looked : sizes.Inside (if 0 < path.count then [(.path, path.count - 1)] else []) := by
    split
    · refine inside_cons.mpr ⟨?_, inside_nil⟩
      change path.count - 1 < sizes.pathPointsMax
      omega
    · exact inside_nil
  rw [addPoint]
  split
  · exact ⟨fits, rfl⟩
  · dsimp only
    split
    · exact ⟨fits.access looked, rfl⟩
    · split
      · exact ⟨fits.access looked, rfl⟩
      · rename_i room
        have added : path.count < sizes.pathPointsMax := not_le.mp room
        exact ⟨((fits.access looked).access (inside_cons.mpr ⟨added, inside_nil⟩)).recount _ added, rfl⟩

/-- A point is taken from the end, or nothing happens. -/
theorem popPoint_sound (sound : state.Sound sizes) (semaphore : Bool) :
    (popPoint semaphore state).2.Sound sizes := by
  rw [popPoint]
  split
  · exact sound
  · split
    · exact sound
    · split
      · exact sound
      · rename_i some
        have counted := sound.path.counted
        have last : state.path.count - 1 < sizes.pathPointsMax := by omega
        exact ⟨(sound.path.access (inside_cons.mpr ⟨last, inside_nil⟩)).recount _ last.le,
          sound.inside, sound.simplify, sound.prune⟩

theorem getPoint_sound (sound : state.Sound sizes) {index : ℕ}
    (room : index < sizes.pathPointsMax) : (getPoint index state).2.Sound sizes :=
  ⟨sound.path.access (inside_cons.mpr ⟨room, inside_nil⟩), sound.inside, sound.simplify, sound.prune⟩

theorem restartSimplification_sound {simplify : Simplify} {pathPointsCount : ℕ}
    (counted : pathPointsCount ≤ sizes.pathPointsMax)
    (completed : simplify.pathPointsCompleted ≤ sizes.pathPointsMax)
    (inside : sizes.Inside simplify.accesses) :
    (restartSimplification pathPointsCount simplify).Sound sizes :=
  ⟨counted, completed, Nat.zero_le _, nofun, inside⟩

theorem setHome_sound (geometry : Geometry Point Length) (sound : state.Sound sizes)
    (positionOk : Bool) (currentPos : Point) (moment : Moment) :
    (setHome sizes geometry positionOk currentPos moment state).Sound sizes := by
  have simplify : (resetSimplification state.simplify).Sound sizes :=
    ⟨Nat.zero_le _, Nat.zero_le _, Nat.zero_le _, nofun, sound.inside⟩
  have cleared : (resetPruning state.prune { state.path with count := 0 }).2.Fits sizes :=
    ⟨Nat.zero_le _, ⟨Nat.zero_le _, nofun, List.Pairwise.nil⟩, sound.path.inside⟩
  have prune : Prune.Sound sizes (resetPruning state.prune { state.path with count := 0 }).1 :=
    ⟨Nat.zero_le _, fun _ enough => absurd (show 4 ≤ 0 from enough) (by decide)⟩
  rw [setHome]
  dsimp only
  split
  · exact ⟨cleared, simplify.inside, fun _ => simplify, prune⟩
  · have added := (addPoint_fits geometry cleared moment.semaphore currentPos).1
    split
    · rename_i path failed
      rw [failed] at added
      exact ⟨added, simplify.inside, fun _ => simplify, prune⟩
    · rename_i path succeeded
      rw [succeeded] at added
      exact ⟨added.of_loops rfl added.counted added.inside, simplify.inside, fun _ => simplify, prune⟩

/-- A position is added, or the time without one runs out. -/
theorem update_sound (geometry : Geometry Point Length) (sound : state.Sound sizes)
    (positionOk : Bool) (currentPos : Point) (moment : Moment) :
    (update sizes geometry positionOk currentPos moment state).Sound sizes := by
  rw [update]
  split
  · exact sound
  · split
    · obtain ⟨added, active⟩ := addPoint_fits geometry sound.path moment.semaphore currentPos
      split
      · rename_i path succeeded
        rw [succeeded] at added active
        exact ⟨added, sound.inside, fun on => sound.simplify (active.symm.trans on), sound.prune⟩
      · rename_i path failed
        rw [failed] at added active
        split
        · exact ⟨added.deactivate, sound.inside, nofun, sound.prune⟩
        · exact ⟨added, sound.inside, fun on => sound.simplify (active.symm.trans on), sound.prune⟩
    · split
      · exact ⟨sound.path.deactivate, sound.inside, nofun, sound.prune⟩
      · exact sound

theorem updateHere_sound (geometry : Geometry Point Length) (sound : state.Sound sizes)
    (positionOk savePosition : Bool) (home here : Relative Point) (first second : Moment) :
    (updateHere sizes geometry positionOk savePosition home here first second state).Sound sizes := by
  have homeward : State.Sound sizes (if positionOk ∧ ¬ state.homeSaved then
      setHomeHere sizes geometry true home first state else state) := by
    split
    · exact setHome_sound geometry sound _ _ _
    · exact sound
  rw [updateHere]
  generalize (if positionOk ∧ ¬ state.homeSaved then
    setHomeHere sizes geometry true home first state else state) = saved at homeward ⊢
  split
  · exact homeward
  · exact update_sound geometry homeward _ _ _

theorem requestThoroughCleanup_sound (sound : state.Sound sizes) (cleanType : ThoroughCleanupType)
    (now : UInt32) : (requestThoroughCleanup cleanType now state).2.Sound sizes := by
  have same : (requestThoroughCleanup cleanType now state).2.path = state.path ∧
      (requestThoroughCleanup cleanType now state).2.simplify = state.simplify ∧
      (requestThoroughCleanup cleanType now state).2.prune = state.prune := by
    rw [requestThoroughCleanup]
    split_ifs <;> exact ⟨rfl, rfl, rfl⟩
  obtain ⟨path, simplify, prune⟩ := same
  refine ⟨?_, ?_, ?_, ?_⟩
  · rw [path]
    exact sound.path
  · rw [simplify]
    exact sound.inside
  · rw [path, simplify]
    exact sound.simplify
  · rw [prune]
    exact sound.prune

end Points

/-! ### Cleanup -/

section Cleanup

variable {Point Length : Type*} {sizes : Sizes} {state : State Point Length}
  {path : Path Point Length}

theorem foldl_removeRound (fits : path.Fits sizes) (bitmask : ℕ → Bool) (start count dest : ℕ)
    (front : dest ≤ start) (room : start + count ≤ sizes.pathPointsMax) :
    let walk := (List.range' start count).foldl (removeRound bitmask) (dest, path)
    walk.2.Fits sizes ∧ walk.2.count = path.count := by
  induction count generalizing path start dest with
  | zero => exact ⟨fits, rfl⟩
  | succ count inductionHypothesis =>
    have most : sizes.pathPointsMax ≤ pointsMax := sizes.few
    have place : start < sizes.pathPointsMax := by omega
    have mask : start < sizes.length .bitmask := place.trans_le most
    rw [List.range'_succ, List.foldl_cons, removeRound]
    split
    · have accessed := fits.access (inside_cons.mpr ⟨mask, inside_cons.mpr
        ⟨(show start < sizes.length .path from place), inside_cons.mpr
          ⟨(show dest < sizes.length .path from front.trans_lt place), inside_nil⟩⟩⟩)
      exact inductionHypothesis (accessed.recount _ fits.counted) (start + 1) (dest + 1)
        (Nat.succ_le_succ front) (by omega)
    · have accessed := fits.access (inside_cons.mpr ⟨mask, inside_cons.mpr
        ⟨(show start < sizes.length .path from place), inside_nil⟩⟩)
      exact inductionHypothesis accessed (start + 1) dest (front.trans (Nat.le_succ _)) (by omega)

theorem removePointsBySimplifyBitmask_ready (ready : state.Ready sizes) (semaphore : Bool) :
    (removePointsBySimplifyBitmask semaphore state).Ready sizes := by
  have counted := ready.path.counted
  rw [removePointsBySimplifyBitmask]
  split
  · exact ready
  · have positive := sizes.positive
    have simplify := ready.simplify
    have fewer : ∀ count ≤ sizes.pathPointsMax, ∀ removed, count - removed ≤ sizes.pathPointsMax :=
      fun count few removed => (Nat.sub_le _ _).trans few
    obtain ⟨fits, same⟩ := foldl_removeRound ready.path state.simplify.bitmask 1
      (state.path.count - 1) 1 le_rfl (by omega)
    dsimp only
    split
    · have left := fewer _ simplify.counted
        ((List.range' 1 (state.path.count - 1)).countP fun src => !state.simplify.bitmask src)
      exact ⟨fits.recount _ (fewer _ fits.counted _),
        ⟨left, left, simplify.few, simplify.ranges, simplify.inside⟩, ready.prune⟩
    · exact ⟨fits.deactivate, ⟨simplify.counted, simplify.completed, simplify.few, simplify.ranges,
        simplify.inside⟩, ready.prune⟩

variable {simplify : Simplify}

theorem restartSimplifyIfNewPoints_sound (sound : simplify.Sound sizes) {pathPointsCount : ℕ}
    (counted : pathPointsCount ≤ sizes.pathPointsMax) :
    (restartSimplifyIfNewPoints pathPointsCount simplify).Sound sizes := by
  rw [restartSimplifyIfNewPoints]
  split
  · exact restartSimplification_sound counted sound.completed sound.inside
  · exact sound

theorem restartPruningIfNewPoints_sound {prune : Prune} (sound : simplify.Sound sizes)
    (pruning : prune.Sound sizes) :
    (if prune.complete then restartPruningIfNewPoints simplify prune else prune).Sound sizes := by
  split
  · rw [restartPruningIfNewPoints]
    split
    · exact restartPruning_sound sound.completed prune
    · exact pruning
  · exact pruning

variable [Zero Length] [Add Length] [LT Length] [DecidableLT Length]
  (geometry : Geometry Point Length) (budget : ℕ) (semaphore : Bool)

theorem State.Ready.detectLoops (ready : state.Ready sizes) (running : state.prune.complete = false) :
    (state.detectLoops sizes geometry budget).Ready sizes := by
  obtain ⟨prune, path⟩ := detectLoops_fits geometry.close geometry.distanceSquared ready.prune running
    ready.path budget
  exact ⟨path, ready.simplify, prune⟩

omit [Add Length] in
theorem State.Ready.detectSimplifications (ready : state.Ready sizes)
    (running : state.simplify.complete = false)
    (fits : state.simplify.Fits (segmentDistance geometry state.path) geometry.epsilon sizes.stackMax
      budget) :
    (state.detectSimplifications sizes geometry budget).Ready sizes :=
  ⟨ready.path, ready.simplify.detect running fits, ready.prune⟩

omit [Zero Length] [Add Length] [LT Length] [DecidableLT Length] in
theorem State.Ready.removePointsByLoops (ready : state.Ready sizes) (numPointsToRemove : ℕ) :
    (state.removePointsByLoops semaphore numPointsToRemove).2.Ready sizes :=
  ⟨removePointsByLoops_fits ready.path semaphore numPointsToRemove, ready.simplify, ready.prune⟩

theorem routineCleanup_ready (ready : state.Ready sizes) {pathPointsCount : ℕ}
    (counted : pathPointsCount ≤ sizes.pathPointsMax) (pathPointsCompletedLimit : ℕ)
    (fits : state.simplify.Fits (segmentDistance geometry state.path) geometry.epsilon sizes.stackMax
      budget) :
    (routineCleanup sizes geometry budget semaphore pathPointsCount pathPointsCompletedLimit
      state).Ready sizes := by
  have simplify := ready.simplify
  have prune := restartPruningIfNewPoints_sound simplify ready.prune
  rw [routineCleanup]
  split
  · rename_i running
    exact ready.detectSimplifications geometry budget (Bool.eq_false_iff.mpr running) fits
  · split
    · exact removePointsBySimplifyBitmask_ready ready semaphore
    · dsimp only
      generalize (if state.prune.complete then restartPruningIfNewPoints state.simplify state.prune
        else state.prune) = next at prune ⊢
      split
      · rename_i running
        refine State.Ready.detectLoops geometry budget ?_ (Bool.eq_false_iff.mpr running)
        exact ⟨ready.path, simplify, prune⟩
      · have completed := (min_le_left _ pathPointsCompletedLimit).trans simplify.completed
        have pruning : Prune.Sound sizes { next with
            pathPointsCompleted := min next.pathPointsCompleted pathPointsCompletedLimit } := by
          refine ⟨prune.counted, fun running enough => ?_⟩
          obtain ⟨counted, outer, inner⟩ := prune.between running enough
          exact ⟨counted, outer, inner⟩
        split
        · exact ⟨ready.path, restartSimplification_sound counted completed simplify.inside, pruning⟩
        · have limited : Simplify.Sound sizes { state.simplify with
              pathPointsCompleted :=
                min state.simplify.pathPointsCompleted pathPointsCompletedLimit } :=
            ⟨simplify.counted, completed, simplify.few, simplify.ranges, simplify.inside⟩
          split
          · refine State.Ready.removePointsByLoops semaphore ?_ 10
            exact ⟨ready.path, limited, pruning⟩
          · exact ⟨ready.path, limited, pruning⟩

omit [Add Length] in
theorem thoroughSimplify_ready (ready : state.Ready sizes) {pathPointsCount : ℕ}
    (counted : pathPointsCount ≤ sizes.pathPointsMax)
    (fits : (if state.simplify.complete then
      restartSimplifyIfNewPoints pathPointsCount state.simplify else state.simplify).Fits
        (segmentDistance geometry state.path) geometry.epsilon sizes.stackMax budget) :
    (thoroughSimplify sizes geometry budget semaphore pathPointsCount state).2.Ready sizes := by
  have simplify : Simplify.Sound sizes (if state.simplify.complete then
      restartSimplifyIfNewPoints pathPointsCount state.simplify else state.simplify) := by
    split
    · exact restartSimplifyIfNewPoints_sound ready.simplify counted
    · exact ready.simplify
  rw [thoroughSimplify]
  generalize (if state.simplify.complete then restartSimplifyIfNewPoints pathPointsCount
    state.simplify else state.simplify) = next at simplify fits ⊢
  split
  · rename_i running
    refine State.Ready.detectSimplifications geometry budget ?_ (Bool.eq_false_iff.mpr running) fits
    exact ⟨ready.path, simplify, ready.prune⟩
  · split
    · refine removePointsBySimplifyBitmask_ready ?_ semaphore
      exact ⟨ready.path, simplify, ready.prune⟩
    · exact ⟨ready.path, simplify, ready.prune⟩

theorem thoroughPrune_ready (ready : state.Ready sizes) :
    (thoroughPrune sizes geometry budget semaphore state).2.Ready sizes := by
  have prune := restartPruningIfNewPoints_sound ready.simplify ready.prune
  rw [thoroughPrune]
  generalize (if state.prune.complete then restartPruningIfNewPoints state.simplify state.prune
    else state.prune) = next at prune ⊢
  split
  · rename_i running
    refine State.Ready.detectLoops geometry budget ?_ (Bool.eq_false_iff.mpr running)
    exact ⟨ready.path, ready.simplify, prune⟩
  · refine State.Ready.removePointsByLoops semaphore ?_ pointsMax
    exact ⟨ready.path, ready.simplify, prune⟩

theorem thoroughCleanup_ready (ready : state.Ready sizes) {pathPointsCount : ℕ}
    (counted : pathPointsCount ≤ sizes.pathPointsMax) (cleanType : ThoroughCleanupType)
    (fits : cleanType ≠ .pruneOnly → (if state.simplify.complete then
      restartSimplifyIfNewPoints pathPointsCount state.simplify else state.simplify).Fits
        (segmentDistance geometry state.path) geometry.epsilon sizes.stackMax budget) :
    (thoroughCleanup sizes geometry budget semaphore pathPointsCount cleanType state).2.Ready
      sizes := by
  have simplified : (if cleanType ≠ .pruneOnly then
      thoroughSimplify sizes geometry budget semaphore pathPointsCount state
      else (true, state)).2.Ready sizes := by
    split
    · rename_i simplifies
      exact thoroughSimplify_ready geometry budget semaphore ready counted (fits simplifies)
    · exact ready
  rw [thoroughCleanup]
  generalize (if cleanType ≠ .pruneOnly then
    thoroughSimplify sizes geometry budget semaphore pathPointsCount state else (true, state)) = next
    at simplified ⊢
  dsimp only
  split
  · exact simplified
  · split
    · exact thoroughPrune_ready geometry budget semaphore simplified
    · exact simplified

/-- The cleanup keeps what holds, unless its search overflows. -/
theorem runBackgroundCleanup_sound (sound : state.Sound sizes) (removalSemaphore : Bool)
    (fits : ∀ simplify ∈ state.search semaphore, simplify.Fits (segmentDistance geometry state.path)
      geometry.epsilon sizes.stackMax budget) :
    (runBackgroundCleanup sizes geometry budget semaphore removalSemaphore state).Sound sizes := by
  rw [runBackgroundCleanup]
  split
  · exact sound
  · rename_i active
    rw [not_not] at active
    split
    · exact sound
    · rename_i taken
      have ready := sound.ready active
      have counted := ready.path.counted
      rw [State.search, if_neg (not_or.mpr ⟨not_not.mpr active, taken⟩)] at fits
      dsimp only
      split
      · rename_i requested
        rw [if_pos requested] at fits
        split
        · rename_i unfinished
          have thorough : (thoroughCleanup sizes geometry budget removalSemaphore state.path.count
              state.thoroughCleanType
              { state with pathPointsCompletedLimit := pointsMax }).2.Ready sizes := by
            refine thoroughCleanup_ready geometry budget removalSemaphore ?_ counted _
              fun simplifies => ?_
            · exact ⟨ready.path, ready.simplify, ready.prune⟩
            · rw [if_neg (not_or.mpr ⟨unfinished, simplifies⟩)] at fits
              split
              · rename_i complete
                rw [if_pos complete] at fits
                exact fits _ rfl
              · rename_i running
                rw [if_neg running] at fits
                exact fits _ rfl
          split
          · exact ⟨thorough.path, thorough.simplify.inside, fun _ => thorough.simplify, thorough.prune⟩
          · exact thorough.sound
        · exact State.Ready.sound ⟨ready.path, ready.simplify, ready.prune⟩
      · rename_i routine
        rw [if_neg routine] at fits
        refine State.Ready.sound (routineCleanup_ready geometry budget removalSemaphore ?_ counted _ ?_)
        · exact ⟨ready.path, ready.simplify, ready.prune⟩
        · exact fits _ rfl

end Cleanup

/-! ### An overflow -/

section Overflow

variable {Length : Type*} [Zero Length] [LT Length] [DecidableLT Length]
  {distance : ℕ → ℕ → ℕ → Length} {epsilon : Length} {stackMax : ℕ} {simplify : Simplify}
  {access : Memory × ℕ}

theorem Simplify.round_grows (member : access ∈ simplify.accesses) :
    access ∈ (simplify.round distance epsilon stackMax).2.accesses := by
  rw [Simplify.round]
  dsimp only
  split
  · split
    · exact List.mem_append_left _ member
    · exact List.mem_append_left _ (List.mem_append_left _ member)
  · exact List.mem_append_left _ (List.mem_append_left _ member)

theorem Simplify.rounds_grows (running : simplify.complete = false) (budget : ℕ)
    (member : access ∈ simplify.accesses) :
    access ∈ (simplify.rounds distance epsilon stackMax budget).accesses := by
  induction budget generalizing simplify with
  | zero =>
    rw [Simplify.rounds]
    split <;> exact member
  | succ budget inductionHypothesis =>
    by_cases done : simplify.stackCount = 0
    · rw [Simplify.rounds_done _ _ _ done]
      exact member
    · rw [Simplify.rounds_succ _ _ _ done running]
      split
      · exact Simplify.round_grows member
      · rename_i goesOn
        exact inductionHypothesis (Bool.eq_false_iff.mpr goesOn) (Simplify.round_grows member)

theorem Simplify.Overflows.round (positive : 0 < stackMax)
    (overflows : simplify.Overflows distance epsilon stackMax) :
    (.stack, stackMax) ∈ (simplify.round distance epsilon stackMax).2.accesses := by
  obtain ⟨-, full, far⟩ := overflows
  rw [Simplify.round, full]
  dsimp only
  rw [if_pos far, if_neg (by omega), Nat.sub_add_cancel positive]
  exact List.mem_append_right _ (List.mem_cons_of_mem _ List.mem_cons_self)

theorem Simplify.rounds_overflow (positive : 0 < stackMax) (running : simplify.complete = false)
    {earlier budget : ℕ} (before : earlier < budget)
    (overflows : (simplify.rounds distance epsilon stackMax earlier).Overflows distance epsilon
      stackMax) :
    (.stack, stackMax) ∈ (simplify.rounds distance epsilon stackMax budget).accesses := by
  obtain ⟨later, rfl⟩ : ∃ later, budget = earlier + (later + 1) :=
    ⟨budget - earlier - 1, by omega⟩
  have written := overflows.round positive
  rw [Simplify.rounds_add _ _ _ earlier _ running, if_neg (by rw [overflows.1]; exact Bool.false_ne_true),
    Simplify.rounds_succ _ _ _ (by rw [overflows.2.1]; exact positive.ne') overflows.1]
  split
  · exact written
  · rename_i goesOn
    exact Simplify.rounds_grows (Bool.eq_false_iff.mpr goesOn) later written

/-- A search that has written only on the stack did not overflow. -/
theorem Simplify.fits_of_inside {sizes : Sizes} {budget : ℕ}
    (inside : sizes.Inside
      (detectSimplifications distance epsilon sizes.stackMax budget simplify).accesses) :
    simplify.Fits distance epsilon sizes.stackMax budget := by
  intro running earlier before overflows
  by_cases few : simplify.pathPointsCount < 3
  · rw [detectSimplifications, if_pos few] at overflows
    exact absurd overflows.1 nofun
  · have called : ∀ budget, detectSimplifications distance epsilon sizes.stackMax budget simplify =
        _ := fun budget => if_neg few
    rw [called] at overflows inside
    refine absurd (inside _ (Simplify.rounds_overflow sizes.stackMax_pos ?_ before overflows))
      (lt_irrefl sizes.stackMax)
    split
    · exact running
    · exact running

end Overflow

/-! ### The main result -/

section Result

variable {Point Length : Type} [Zero Length] [Add Length] [LT Length] [DecidableLT Length]
  {sizes : Sizes} {state : State Point Length}

/-- The cleanup goes on with its search. -/
theorem runBackgroundCleanup_search (sizes : Sizes) (geometry : Geometry Point Length) (budget : ℕ)
    {semaphore : Bool} (removalSemaphore : Bool) {simplify : Simplify}
    (search : state.search semaphore = some simplify) (running : simplify.complete = false) :
    (runBackgroundCleanup sizes geometry budget semaphore removalSemaphore state).simplify =
      detectSimplifications (segmentDistance geometry state.path) geometry.epsilon sizes.stackMax
        budget simplify := by
  rw [State.search] at search
  split at search
  · exact nomatch search
  · rename_i awake
    rw [not_or, not_not, not_not] at awake
    rw [runBackgroundCleanup, if_neg (not_not.mpr awake.1), if_neg (not_not.mpr awake.2)]
    split at search
    · rename_i requested
      rw [if_pos requested]
      split at search
      · exact nomatch search
      · rename_i wanted
        rw [not_or] at wanted
        have found : (if state.simplify.complete then
            restartSimplifyIfNewPoints state.path.count state.simplify else state.simplify) =
            simplify := by
          split at search
          · rename_i complete
            rw [if_pos complete]
            exact Option.some.inj search
          · rename_i incomplete
            rw [if_neg incomplete]
            exact Option.some.inj search
        rw [if_pos wanted.1, thoroughCleanup, if_pos wanted.2, thoroughSimplify]
        rw [found, running]
        rfl
    · rename_i routine
      rw [if_neg routine, routineCleanup]
      obtain rfl := Option.some.inj search
      rw [if_pos (by rw [running]; exact Bool.false_ne_true)]
      rfl

variable {call : Call Point Length}

theorem State.Sound.step (sound : state.Sound sizes) (allowed : Allowed sizes state call) :
    (step sizes state call).Sound sizes := by
  cases call with
  | popPoint semaphore => exact popPoint_sound sound semaphore
  | getPoint index => exact getPoint_sound sound allowed
  | setHome geometry positionOk currentPos moment => exact setHome_sound geometry sound _ _ _
  | setHomeHere geometry positionOk relative moment => exact setHome_sound geometry sound _ _ _
  | update geometry positionOk currentPos moment => exact update_sound geometry sound _ _ _
  | updateHere geometry positionOk savePosition home here first second =>
    exact updateHere_sound geometry sound _ _ _ _ _ _
  | requestThoroughCleanup cleanType now => exact requestThoroughCleanup_sound sound cleanType now
  | cancelRequestForThoroughCleanup =>
    exact ⟨sound.path, sound.inside, sound.simplify, sound.prune⟩
  | runBackgroundCleanup geometry budget semaphore removalSemaphore =>
    exact runBackgroundCleanup_sound geometry budget semaphore sound removalSemaphore allowed

theorem allowed_of_inside (inside : (step sizes state call).Inside sizes) :
    Allowed sizes state call := by
  cases call with
  | getPoint index =>
    exact inside.1 (.path, index) (List.mem_append_right _ List.mem_cons_self)
  | runBackgroundCleanup geometry budget semaphore removalSemaphore =>
    intro simplify search running
    have found := runBackgroundCleanup_search sizes geometry budget removalSemaphore search
      running
    have inside := inside.2
    rw [SmartRtl.step, found] at inside
    exact Simplify.fits_of_inside inside running
  | popPoint | setHome | setHomeHere | update | updateHere | requestThoroughCleanup
  | cancelRequestForThoroughCleanup => exact trivial

omit [Zero Length] [Add Length] [LT Length] [DecidableLT Length] in
theorem initial_sound (sizes : Sizes) (points : ℕ → Point) :
    (State.initial points : State Point Length).Sound sizes :=
  ⟨⟨Nat.zero_le _, ⟨Nat.zero_le _, nofun, List.Pairwise.nil⟩, inside_nil⟩, inside_nil, nofun,
    ⟨Nat.zero_le _, fun _ enough => absurd (show 4 ≤ 0 from enough) (by decide)⟩⟩

/-- Behind each call of a run all accesses have been inside their arrays if and only if each call of
the run is allowed. -/
theorem run_inside_iff (sizes : Sizes) (points : ℕ → Point) (calls : List (Call Point Length)) :
    (∀ count, (runCalls (step sizes) (State.initial points) (calls.take count)).Inside sizes) ↔
      Along (step sizes) (fun _ => True) (Allowed sizes) (State.initial points) calls :=
  along_iff_of_exact (fun state => state.Sound sizes)
    (fun _ _ _ sound allowed => sound.step allowed)
    (fun _ sound => ⟨sound.path.inside, sound.inside⟩)
    (fun _ _ _ inside => allowed_of_inside inside) (initial_sound sizes points)

/-- Distances in a plane, for segments that lie on an axis and end at the origin. -/
def plane : Geometry (ℕ × ℕ) ℕ where
  near point other := (point.1 - other.1 + (other.1 - point.1)) ^ 2 +
    (point.2 - other.2 + (other.2 - point.2)) ^ 2 < 2 ^ 2
  distanceToSegment point start _ := if start.1 = 0 then point.1 else point.2
  epsilon := 1
  close _ _ _ _ := none
  distanceSquared _ _ := 0

/-- A flight that comes nearer to the origin with each turn. -/
def spiral : List (ℕ × ℕ) := [(729, 0), (0, 243), (81, 0), (0, 27), (9, 0), (0, 3), (0, 0)]

/-- A size of the path with room for the turns. -/
def sevenPoints : Sizes := ⟨7, by decide, by decide⟩

/-- The turns of the flight are recorded, and then cleaned up. -/
def spiralCalls : List (Call (ℕ × ℕ) ℕ) :=
  .setHome plane true (spiral.headD (0, 0)) ⟨true, 1, 1⟩ ::
    spiral.tail.map (fun point => .update plane true point ⟨true, 1, 1⟩) ++
    [.requestThoroughCleanup .default 1, .runBackgroundCleanup plane 10 true true,
      .runBackgroundCleanup plane 10 true true]

/-- The simplification of the flight writes behind the stack. -/
theorem not_inside_spiral :
    ¬ (runCalls (step sevenPoints) (State.initial fun _ => (0, 0)) spiralCalls).Inside
      sevenPoints := by
  intro inside
  exact absurd (inside.2 (.stack, 5) (by decide +kernel)) (by decide)

end Result

end Urus.SmartRtl
