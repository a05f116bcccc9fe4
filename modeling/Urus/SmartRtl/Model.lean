/-
This file models the path that SmartRTL records to fly back, and its cleanup. Points are added to a
path of limited size and taken from its end. In the background the path is simplified: points near
the line between others are flagged, with a stack of the ranges that are still to be looked at, and
removed. It is also pruned: loops between points that are close to each other are recorded and
removed. Both searches are interrupted when their time is over, and go on in the next call.

The distances are answers that come with each call. The counts of the rounds that a call has time
for and the semaphores do so too. A state keeps the indices of the arrays that have been accessed.
-/

import Mathlib

namespace Urus.SmartRtl

/-! ### The arrays -/

/-- The arrays whose accesses are kept. -/
inductive Memory
  | path
  | stack
  | loops
  | bitmask
  deriving DecidableEq

/-- `prune_loop_t`. -/
structure Loop (Point Length : Type*) where
  startIndex : ℕ
  endIndex : ℕ
  midpoint : Point
  lengthSquared : Length

/-- `_path` and `_prune.loops`, with the counts of their entries, and `_active`. -/
structure Path (Point Length : Type*) where
  points : ℕ → Point
  count : ℕ
  loops : List (Loop Point Length)
  active : Bool
  accesses : List (Memory × ℕ)

/-- `simplify_start_finish_t`. -/
structure Range where
  start : ℕ
  finish : ℕ

/-- `_simplify`. -/
structure Simplify where
  complete : Bool
  removalRequired : Bool
  pathPointsCount : ℕ
  pathPointsCompleted : ℕ
  stack : ℕ → Range
  stackCount : ℕ
  bitmask : ℕ → Bool
  accesses : List (Memory × ℕ)

/-- `_prune` without its loops. -/
structure Prune where
  complete : Bool
  pathPointsCount : ℕ
  pathPointsCompleted : ℕ
  i : ℕ
  j : ℕ

/-- The accesses to some entries of an array. -/
def reads (memory : Memory) (start count : ℕ) : List (Memory × ℕ) :=
  (List.range' start count).map fun index => (memory, index)

/-! ### Simplification -/

section Simplification

variable {Length : Type*} [Zero Length] [LT Length] [DecidableLT Length]
  (distance : ℕ → ℕ → ℕ → Length) (epsilon : Length) (stackMax : ℕ)

/-- The search for the farthest point between two points. Those that have been flagged are left
out. -/
def farthestPoint (bitmask : ℕ → Bool) (start finish : ℕ) : Length × ℕ :=
  (List.range' (start + 1) (finish - (start + 1))).foldl
    (fun best i =>
      if bitmask i then
        let dist := distance i start finish
        if best.1 < dist then (dist, i) else best
      else best)
    (0, start)

/-- The accesses of the search. -/
def farthestPointReads (bitmask : ℕ → Bool) (start finish : ℕ) : List (Memory × ℕ) :=
  (List.range' (start + 1) (finish - (start + 1))).flatMap fun i =>
    (.bitmask, i) :: if bitmask i then [(.path, i), (.path, start), (.path, finish)] else []

/-- A round of `detect_simplifications`. It tells whether the stack is full. -/
def Simplify.round (simplify : Simplify) : Bool × Simplify :=
  let stackCount := simplify.stackCount - 1
  let ⟨start, finish⟩ := simplify.stack stackCount
  let (maxDist, farthest) := farthestPoint distance simplify.bitmask start finish
  let accesses := simplify.accesses ++ (.stack, stackCount) ::
    farthestPointReads simplify.bitmask start finish
  if epsilon < maxDist then
    -- this should never happen
    if stackMax ≤ stackCount then
      (true, { simplify with complete := true, stackCount := stackCount, accesses := accesses })
    else
      (false, { simplify with
        stack := Function.update (Function.update simplify.stack stackCount ⟨start, farthest⟩)
          (stackCount + 1) ⟨farthest, finish⟩
        stackCount := stackCount + 2
        accesses := accesses ++ [(.stack, stackCount), (.stack, stackCount + 1)] })
  else
    (false, { simplify with
      stackCount := stackCount
      bitmask := fun i => if start < i ∧ i < finish then false else simplify.bitmask i
      removalRequired := simplify.removalRequired || decide (start + 1 < finish)
      accesses := accesses ++ reads .bitmask (start + 1) (finish - (start + 1)) })

/-- The loop of `detect_simplifications`, with time for some rounds. -/
def Simplify.rounds : ℕ → Simplify → Simplify
  | budget, simplify =>
    if simplify.stackCount = 0 then
      { simplify with pathPointsCompleted := simplify.pathPointsCount, complete := true }
    else
      match budget with
      | 0 => simplify
      | budget + 1 =>
        match simplify.round distance epsilon stackMax with
        | (true, simplify) => simplify
        | (false, simplify) => Simplify.rounds budget simplify

/-- `detect_simplifications`. -/
def detectSimplifications (budget : ℕ) (simplify : Simplify) : Simplify :=
  if simplify.pathPointsCount < 3 then { simplify with complete := true }
  else
    let simplify :=
      if simplify.stackCount = 0 then
        { simplify with
          stack := Function.update simplify.stack 0
            ⟨if 0 < simplify.pathPointsCompleted then simplify.pathPointsCompleted - 1 else 0,
              simplify.pathPointsCount - 1⟩
          stackCount := 1
          accesses := simplify.accesses ++ [(.stack, 0)] }
      else simplify
    simplify.rounds distance epsilon stackMax budget

/-- `restart_simplification`. -/
def restartSimplification (pathPointsCount : ℕ) (simplify : Simplify) : Simplify :=
  { simplify with
    complete := false, removalRequired := false, bitmask := fun _ => true, stackCount := 0,
    pathPointsCount := pathPointsCount }

/-- `reset_simplification`. -/
def resetSimplification (simplify : Simplify) : Simplify :=
  { restartSimplification 0 simplify with pathPointsCompleted := 0 }

end Simplification

/-! ### Rounds of the simplification -/

section Rounds

variable {Length : Type*} [Zero Length] [LT Length] [DecidableLT Length]
  (distance : ℕ → ℕ → ℕ → Length) (epsilon : Length) (stackMax : ℕ) {simplify : Simplify}

theorem Simplify.round_complete (simplify : Simplify) :
    let next := simplify.round distance epsilon stackMax
    next.2.complete = (simplify.complete || next.1) ∧
      next.2.pathPointsCount = simplify.pathPointsCount := by
  rw [Simplify.round]
  dsimp only
  split
  · split
    · exact ⟨(Bool.or_true _).symm, rfl⟩
    · exact ⟨(Bool.or_false _).symm, rfl⟩
  · exact ⟨(Bool.or_false _).symm, rfl⟩

/-- Without work the search is complete. -/
theorem Simplify.rounds_done (done : simplify.stackCount = 0) (budget : ℕ) :
    simplify.rounds distance epsilon stackMax budget =
      { simplify with pathPointsCompleted := simplify.pathPointsCount, complete := true } := by
  exact (Simplify.rounds.eq_def ..).trans (if_pos done)

theorem Simplify.rounds_zero (work : simplify.stackCount ≠ 0) :
    simplify.rounds distance epsilon stackMax 0 = simplify := by
  rw [Simplify.rounds, if_neg work]

/-- With work and time there is a round. It goes on, or has given up. -/
theorem Simplify.rounds_succ (work : simplify.stackCount ≠ 0) (running : simplify.complete = false)
    (budget : ℕ) :
    let next := (simplify.round distance epsilon stackMax).2
    simplify.rounds distance epsilon stackMax (budget + 1) =
      if next.complete then next else next.rounds distance epsilon stackMax budget := by
  obtain ⟨completes, -⟩ := simplify.round_complete distance epsilon stackMax
  rw [running, Bool.false_or] at completes
  rw [Simplify.rounds, if_neg work]
  revert completes
  rcases simplify.round distance epsilon stackMax with ⟨_ | _, next⟩ <;> intro completes
  · exact (if_neg (by rw [completes]; exact Bool.false_ne_true)).symm
  · exact (if_pos completes).symm

/-- A round that does not give up goes on with the rest of the time. -/
theorem Simplify.rounds_next (work : simplify.stackCount ≠ 0) (running : simplify.complete = false)
    (goesOn : (simplify.round distance epsilon stackMax).1 = false) :
    let next := (simplify.round distance epsilon stackMax).2
    next.complete = false ∧ ∀ budget, simplify.rounds distance epsilon stackMax (budget + 1) =
      next.rounds distance epsilon stackMax budget := by
  have running' : (simplify.round distance epsilon stackMax).2.complete = false := by
    rw [(simplify.round_complete distance epsilon stackMax).1, running, goesOn, Bool.or_false]
  refine ⟨running', fun budget => ?_⟩
  rw [rounds_succ _ _ _ work running, if_neg (by rw [running']; exact Bool.false_ne_true)]

/-- The rounds of two calls are those of one call with the time of both. -/
theorem Simplify.rounds_add (budget budget' : ℕ) (running : simplify.complete = false) :
    let middle := simplify.rounds distance epsilon stackMax budget
    simplify.rounds distance epsilon stackMax (budget + budget') =
      if middle.complete then middle else middle.rounds distance epsilon stackMax budget' := by
  induction budget generalizing simplify with
  | zero =>
    dsimp only
    by_cases done : simplify.stackCount = 0
    · rw [rounds_done _ _ _ done, rounds_done _ _ _ done, if_pos rfl]
    · rw [rounds_zero _ _ _ done, if_neg (by rw [running]; exact Bool.false_ne_true), Nat.zero_add]
  | succ budget inductionHypothesis =>
    dsimp only
    rw [Nat.add_right_comm]
    by_cases done : simplify.stackCount = 0
    · rw [rounds_done _ _ _ done, rounds_done _ _ _ done, if_pos rfl]
    · rw [rounds_succ _ _ _ done running, rounds_succ _ _ _ done running]
      by_cases gaveUp : (simplify.round distance epsilon stackMax).2.complete = true
      · rw [if_pos gaveUp, if_pos gaveUp, if_pos gaveUp]
      · rw [if_neg gaveUp, if_neg gaveUp]
        exact inductionHypothesis (Bool.eq_false_iff.mpr gaveUp)

/-- A search that is not complete has work to do. -/
theorem Simplify.rounds_running (budget : ℕ) (running : simplify.complete = false)
    (still : (simplify.rounds distance epsilon stackMax budget).complete = false) :
    (simplify.rounds distance epsilon stackMax budget).stackCount ≠ 0 ∧
      (simplify.rounds distance epsilon stackMax budget).pathPointsCount =
        simplify.pathPointsCount := by
  have work : simplify.stackCount ≠ 0 := by
    intro done
    rw [rounds_done _ _ _ done] at still
    exact nomatch still
  induction budget generalizing simplify with
  | zero =>
    rw [rounds_zero _ _ _ work]
    exact ⟨work, rfl⟩
  | succ budget inductionHypothesis =>
    rw [rounds_succ _ _ _ work running] at still ⊢
    split at still
    · rename_i gaveUp
      rw [gaveUp] at still
      exact nomatch still
    · rename_i goesOn
      rw [if_neg goesOn]
      rw [Bool.not_eq_true] at goesOn
      have more : (simplify.round distance epsilon stackMax).2.stackCount ≠ 0 := by
        intro done
        rw [rounds_done _ _ _ done] at still
        exact nomatch still
      obtain ⟨left, count⟩ := inductionHypothesis goesOn still more
      exact ⟨left, count.trans (simplify.round_complete distance epsilon stackMax).2⟩

end Rounds

/-! ### Loops -/

section Loops

variable {Point Length : Type*} [Zero Length] [Add Length] [LT Length] [DecidableLT Length]
  (distanceSquared : Point → Point → Length)

/-- `loops_overlap`. -/
def loopsOverlap (loop1 loop2 : Loop Point Length) : Bool :=
  if loop2.startIndex ≤ loop1.startIndex ∧ loop1.endIndex ≤ loop2.endIndex then true
  else if loop1.startIndex ≤ loop2.startIndex ∧ loop2.endIndex ≤ loop1.endIndex then true
  else
    let startInLoop2 := decide (loop2.startIndex ≤ loop1.startIndex ∧
      loop1.startIndex ≤ loop2.endIndex)
    let endInLoop2 := decide (loop2.startIndex ≤ loop1.endIndex ∧ loop1.endIndex ≤ loop2.endIndex)
    startInLoop2 != endInLoop2

/-- The length of a loop: from its ends to the point between them, and along its segments. -/
def loopLength (points : ℕ → Point) (startIndex endIndex : ℕ) (midpoint : Point) : Length :=
  (List.range' startIndex (endIndex - startIndex)).foldl
    (fun length i => length + distanceSquared (points i) (points (i + 1)))
    (distanceSquared midpoint (points startIndex) + distanceSquared midpoint (points endIndex))

/-- `add_loop`. -/
def addLoop (loopsMax startIndex endIndex : ℕ) (midpoint : Point) (path : Path Point Length) :
    Bool × Path Point Length :=
  if loopsMax ≤ path.loops.length then (false, path)
  else if endIndex ≤ startIndex then (false, path)
  else
    let newLoop : Loop Point Length := ⟨startIndex, endIndex, midpoint,
      loopLength distanceSquared path.points startIndex endIndex midpoint⟩
    let path : Path Point Length := { path with
      accesses := path.accesses ++ reads .path startIndex (endIndex - startIndex + 1) ++
        reads .loops 0 path.loops.length }
    let overlappingLoops := path.loops.any fun loop => loopsOverlap loop newLoop
    let overlappingLoopLength : Length :=
      (path.loops.filter fun loop => loopsOverlap loop newLoop).foldl
        (fun length loop => length + loop.lengthSquared) 0
    -- the path would get longer
    if overlappingLoops ∧ newLoop.lengthSquared < overlappingLoopLength then (true, path)
    else
      let kept := path.loops.filter fun loop => !loopsOverlap loop newLoop
      (true, { path with
        loops := kept ++ [newLoop], accesses := path.accesses ++ [(.loops, kept.length)] })

/-- The shift of the points behind a loop. -/
def shiftPoints (points : ℕ → Point) (start removed count : ℕ) : ℕ → Point :=
  (List.range' (start + 1) (count - removed - (start + 1))).foldl
    (fun points dest => Function.update points dest (points (dest + removed))) points

/-- The new indices of a loop when another one is removed. -/
def Loop.fixed (loop other : Loop Point Length) : Loop Point Length :=
  let removed := loop.endIndex - loop.startIndex
  { other with
    startIndex :=
      if loop.endIndex ≤ other.startIndex then other.startIndex - removed else other.startIndex
    endIndex := if loop.endIndex ≤ other.endIndex then other.endIndex - removed else other.endIndex }

/-- The loop of `remove_points_by_loops`, from the last recorded loop on. -/
def removeLoops (numPointsToRemove : ℕ) : ℕ → ℕ → Path Point Length → Path Point Length
  | 0, _, path => path
  | i + 1, removedPoints, path =>
    if removedPoints < numPointsToRemove then
      match path.loops[i]? with
      | none => path
      | some loop =>
        let removed := loop.endIndex - loop.startIndex
        let path : Path Point Length := { path with
          points := shiftPoints (Function.update path.points loop.startIndex loop.midpoint)
            loop.startIndex removed path.count
          accesses := path.accesses ++ [(Memory.loops, i), (Memory.path, loop.startIndex)] ++
            reads .path (loop.startIndex + 1) (path.count - removed - (loop.startIndex + 1)) ++
            reads .path (loop.startIndex + 1 + removed)
              (path.count - removed - (loop.startIndex + 1)) }
        if removed < path.count then
          removeLoops numPointsToRemove i (removedPoints + removed) { path with
            count := path.count - removed
            loops := (path.loops.take i).map loop.fixed
            accesses := path.accesses ++ reads .loops 0 i }
        else
          -- the program error that deactivates
          { path with active := false }
    else path

/-- `remove_points_by_loops`, where the semaphore is free or not. -/
def removePointsByLoops (semaphore : Bool) (numPointsToRemove : ℕ) (path : Path Point Length) :
    Bool × Path Point Length :=
  if path.loops.length = 0 then (true, path)
  else if ¬ semaphore then (false, path)
  else (true, removeLoops numPointsToRemove path.loops.length 0 path)

end Loops


/-! ### Pruning -/

/-- The index in front of another one. A negative one is a large one. -/
def before (index : ℕ) : ℕ := (index + 2 ^ 32 - 1) % 2 ^ 32

section Pruning

variable {Point Length : Type*} [Zero Length] [Add Length] [LT Length] [DecidableLT Length]
  (close : Point → Point → Point → Point → Option Point)
  (distanceSquared : Point → Point → Length) (loopsMax : ℕ)

/-- The comparison of two segments in `detect_loops`. They are close to each other if there is a point
between them. The inner index then goes on to the outer one, so that the next round leaves it. -/
def compareSegments (prune : Prune) (path : Path Point Length) : Prune × Path Point Length :=
  let path : Path Point Length := { path with
    accesses := path.accesses ++
      [(.path, prune.i), (.path, before prune.i), (.path, before prune.j), (.path, prune.j)] }
  match close (path.points prune.i) (path.points (before prune.i)) (path.points (before prune.j))
      (path.points prune.j) with
  | none => (prune, path)
  | some midpoint =>
    let (added, path) := addLoop distanceSquared loopsMax prune.j (before prune.i) midpoint path
    ({ prune with j := prune.i, complete := prune.complete || !added }, path)

/-- A round of `detect_loops`. It tells whether all points have been looked at. -/
def pruneRound (prune : Prune) (path : Path Point Length) : Bool × Prune × Path Point Length :=
  let j : ℕ := (prune.j + 1) % 2 ^ 16
  let outer := decide ((prune.i : Int) - 2 < (j : Int))
  let i := if outer then (prune.i + 2 ^ 16 - 1) % 2 ^ 16 else prune.i
  let j := if outer then 1 else j
  if outer ∧ (i < 4 ∨ i < prune.pathPointsCompleted) then
    (true, { prune with
      i := i, j := j, complete := true, pathPointsCompleted := prune.pathPointsCount }, path)
  else (false, compareSegments close distanceSquared loopsMax { prune with i := i, j := j } path)

/-- The loop of `detect_loops`, with time for some rounds. -/
def pruneRounds : ℕ → Prune → Path Point Length → Prune × Path Point Length
  | 0, prune, path => (prune, path)
  | budget + 1, prune, path =>
    match pruneRound close distanceSquared loopsMax prune path with
    | (true, prune, path) => (prune, path)
    | (false, prune, path) => pruneRounds budget prune path

/-- `detect_loops`. -/
def detectLoops (budget : ℕ) (prune : Prune) (path : Path Point Length) :
    Prune × Path Point Length :=
  if prune.pathPointsCount < 4 then ({ prune with complete := true }, path)
  else pruneRounds close distanceSquared loopsMax budget prune path

/-- `restart_pruning`. -/
def restartPruning (pathPointsCount : ℕ) (prune : Prune) : Prune :=
  { prune with
    complete := false, i := if 0 < pathPointsCount then pathPointsCount - 1 else 0, j := 0,
    pathPointsCount := pathPointsCount }

/-- `reset_pruning`. -/
def resetPruning (prune : Prune) (path : Path Point Length) : Prune × Path Point Length :=
  ({ restartPruning 0 prune with pathPointsCompleted := 0 }, { path with loops := [] })

end Pruning

end Urus.SmartRtl
