/-
This file models SmartRTL as a whole: the operations that the vehicle calls, and the cleanup that is
called in the background. Each of them is one step. The positions, the times, the semaphore, the
accuracy and the distances are answers that come with the step.

The arrays are allocated once, with sizes that follow from a limited parameter.
-/

import Urus.SmartRtl.Model

namespace Urus.SmartRtl

/-! ### Allocation -/

/-- `SMARTRTL_POINTS_MAX`. -/
def pointsMax : ℕ := 500

/-- The size of the path. The other sizes follow from it. -/
structure Sizes where
  pathPointsMax : ℕ
  positive : 0 < pathPointsMax
  few : pathPointsMax ≤ pointsMax

def Sizes.stackMax (sizes : Sizes) : ℕ := sizes.pathPointsMax * 2 / 3 + 1

def Sizes.loopsMax (sizes : Sizes) : ℕ := sizes.pathPointsMax / 4

/-- `init`, where memory is found. It does nothing if the parameters disable it. -/
def init (parameter : ℤ) (accurate : Bool) : Option Sizes :=
  let pathPointsMax := (max 0 (min parameter (pointsMax : ℤ))).toNat
  if enabled : 0 < pathPointsMax ∧ accurate then
    some ⟨pathPointsMax, enabled.1, by dsimp only [pathPointsMax]; omega⟩
  else none

/-- The entries of an array. -/
def Sizes.length (sizes : Sizes) : Memory → ℕ
  | .path => sizes.pathPointsMax
  | .stack => sizes.stackMax
  | .loops => sizes.loopsMax
  | .bitmask => pointsMax

/-! ### The state -/

/-- `ThoroughCleanupType`. -/
inductive ThoroughCleanupType
  | default
  | all
  | simplifyOnly
  | pruneOnly
  deriving DecidableEq

/-- The members of `AP_SmartRTL`. -/
structure State (Point Length : Type*) where
  path : Path Point Length
  pathPointsCompletedLimit : ℕ
  homeSaved : Bool
  lastGoodPositionMs : UInt32
  lastPositionSaveMs : UInt32
  thoroughCleanRequestMs : UInt32
  thoroughCleanCompleteMs : UInt32
  thoroughCleanType : ThoroughCleanupType
  simplify : Simplify
  prune : Prune

/-- The state behind `init`. -/
def State.initial {Point Length : Type*} (points : ℕ → Point) : State Point Length where
  path := ⟨points, 0, [], false, []⟩
  pathPointsCompletedLimit := 0
  homeSaved := false
  lastGoodPositionMs := 0
  lastPositionSaveMs := 0
  thoroughCleanRequestMs := 0
  thoroughCleanCompleteMs := 0
  thoroughCleanType := .default
  simplify := ⟨false, false, 0, pointsMax, fun _ => ⟨0, 0⟩, 0, fun _ => true, []⟩
  prune := ⟨false, 0, 0, 0, 0⟩

/-- The answers about distances: whether a point is near the last one, the distance to a segment and
its limit, the point between two segments that are close, and the squared distance. -/
structure Geometry (Point Length : Type*) where
  near : Point → Point → Bool
  distanceToSegment : Point → Point → Point → Length
  epsilon : Length
  close : Point → Point → Point → Point → Option Point
  distanceSquared : Point → Point → Length

/-- `get_relative_position_NED_origin`. -/
structure Relative (Point : Type*) where
  found : Bool
  position : Point

/-- The semaphore and the answers of `millis`, in the order in which they are asked for. -/
structure Moment where
  semaphore : Bool
  now : UInt32
  later : UInt32

section Operations

variable {Point Length : Type*} [Zero Length] [Add Length] [LT Length] [DecidableLT Length]
  (sizes : Sizes) (geometry : Geometry Point Length)

/-! ### Points -/

/-- `deactivate`. -/
def Path.deactivate (path : Path Point Length) : Path Point Length := { path with active := false }

/-- `pop_point`. -/
def popPoint (semaphore : Bool) (state : State Point Length) :
    Option Point × State Point Length :=
  if ¬ state.path.active then (none, state)
  else if ¬ semaphore then (none, state)
  else if state.path.count = 0 then (none, state)
  else
    let count := state.path.count - 1
    (some (state.path.points count), { state with
      path := { state.path with
        count := count, accesses := state.path.accesses ++ [(.path, count)] }
      pathPointsCompletedLimit := count })

/-- `get_point`. -/
def getPoint (index : ℕ) (state : State Point Length) : Point × State Point Length :=
  (state.path.points index,
    { state with path := { state.path with accesses := state.path.accesses ++ [(.path, index)] } })

/-- `add_point`. -/
def addPoint (semaphore : Bool) (point : Point) (path : Path Point Length) :
    Bool × Path Point Length :=
  if ¬ semaphore then (false, path)
  else
    let last := path.count - 1
    let near := decide (0 < path.count) && geometry.near (path.points last) point
    let path : Path Point Length := { path with
      accesses := path.accesses ++ if 0 < path.count then [(.path, last)] else [] }
    if near then (true, path)
    else if sizes.pathPointsMax ≤ path.count then (false, path)
    else (true, { path with
      points := Function.update path.points path.count point
      count := path.count + 1
      accesses := path.accesses ++ [(.path, path.count)] })

/-- `set_home` with a position. -/
def setHome (positionOk : Bool) (currentPos : Point) (moment : Moment)
    (state : State Point Length) : State Point Length :=
  let (prune, path) := resetPruning state.prune { state.path with count := 0 }
  let state := { state with
    path := path, simplify := resetSimplification state.simplify, prune := prune }
  if ¬ positionOk then state
  else
    match addPoint sizes geometry moment.semaphore currentPos state.path with
    | (false, path) => { state with path := path }
    | (true, path) => { state with
        path := { path with active := true }, lastGoodPositionMs := moment.now, homeSaved := true }

/-- `set_home`. -/
def setHomeHere (positionOk : Bool) (relative : Relative Point) (moment : Moment)
    (state : State Point Length) : State Point Length :=
  setHome sizes geometry (positionOk && relative.found) relative.position moment state

/-- `update` with a position. -/
def update (positionOk : Bool) (currentPos : Point) (moment : Moment)
    (state : State Point Length) : State Point Length :=
  if ¬ state.path.active then state
  else if positionOk then
    match addPoint sizes geometry moment.semaphore currentPos state.path with
    | (true, path) => { state with
        path := path, lastGoodPositionMs := moment.now, lastPositionSaveMs := moment.now }
    | (false, path) => { state with
        path := if 15000 < moment.later - state.lastPositionSaveMs then path.deactivate else path
        lastGoodPositionMs := moment.now }
  else if 15000 < moment.now - state.lastGoodPositionMs then
    { state with path := state.path.deactivate }
  else state

/-- `update`. It saves home first, if that has not been done. -/
def updateHere (positionOk savePosition : Bool) (home here : Relative Point)
    (first second : Moment) (state : State Point Length) : State Point Length :=
  let state := if positionOk ∧ ¬ state.homeSaved then
    setHomeHere sizes geometry true home first state else state
  if ¬ state.path.active ∨ ¬ savePosition then state
  else update sizes geometry (positionOk && here.found) here.position second state

/-! ### Requests -/

/-- `request_thorough_cleanup`. -/
def requestThoroughCleanup (cleanType : ThoroughCleanupType) (now : UInt32)
    (state : State Point Length) : Bool × State Point Length :=
  if ¬ state.path.active then (false, state)
  else if state.thoroughCleanRequestMs = 0 then
    (false, { state with
      thoroughCleanRequestMs := now
      thoroughCleanType := if cleanType = .default then state.thoroughCleanType else cleanType })
  else if state.thoroughCleanCompleteMs = state.thoroughCleanRequestMs then
    (true, { state with thoroughCleanRequestMs := 0 })
  else (false, state)

/-- `cancel_request_for_thorough_cleanup`. -/
def cancelRequestForThoroughCleanup (state : State Point Length) : State Point Length :=
  { state with thoroughCleanRequestMs := 0 }

/-! ### Cleanup -/

/-- A round of `remove_points_by_simplify_bitmask`. A kept point goes to the next place, and a
flagged one is only logged. -/
def removeRound (bitmask : ℕ → Bool) (walk : ℕ × Path Point Length) (src : ℕ) :
    ℕ × Path Point Length :=
  let (dest, path) := walk
  if bitmask src then
    (dest + 1, { path with
      points := Function.update path.points dest (path.points src)
      accesses := path.accesses ++ [(.bitmask, src), (.path, src), (.path, dest)] })
  else
    (dest, { path with accesses := path.accesses ++ [(.bitmask, src), (.path, src)] })

/-- `remove_points_by_simplify_bitmask`. -/
def removePointsBySimplifyBitmask (semaphore : Bool) (state : State Point Length) :
    State Point Length :=
  if ¬ semaphore then state
  else
    let sources := List.range' 1 (state.path.count - 1)
    let (_, path) := sources.foldl (removeRound state.simplify.bitmask) (1, state.path)
    let removed := sources.countP fun src => !state.simplify.bitmask src
    let cleared : Simplify :=
      { state.simplify with bitmask := fun _ => true, removalRequired := false }
    if removed < path.count ∧ removed < state.simplify.pathPointsCount then
      { state with
        path := { path with count := path.count - removed }
        simplify := { cleared with
          pathPointsCount := state.simplify.pathPointsCount - removed
          pathPointsCompleted := state.simplify.pathPointsCount - removed } }
    else
      -- the program error that deactivates
      { state with path := path.deactivate, simplify := cleared }

/-- `restart_simplify_if_new_points`. -/
def restartSimplifyIfNewPoints (pathPointsCount : ℕ) (simplify : Simplify) : Simplify :=
  if simplify.pathPointsCount ≠ pathPointsCount then
    restartSimplification pathPointsCount simplify
  else simplify

/-- `restart_pruning_if_new_points`. -/
def restartPruningIfNewPoints (simplify : Simplify) (prune : Prune) : Prune :=
  if prune.pathPointsCount ≠ simplify.pathPointsCompleted then
    restartPruning simplify.pathPointsCompleted prune
  else prune

/-- The distance of a point of the path to a segment between two others. -/
def segmentDistance (path : Path Point Length) (i start finish : ℕ) : Length :=
  geometry.distanceToSegment (path.points i) (path.points start) (path.points finish)

/-- `detect_simplifications` on the whole state. -/
def State.detectSimplifications (budget : ℕ) (state : State Point Length) : State Point Length :=
  { state with
    simplify := SmartRtl.detectSimplifications (segmentDistance geometry state.path)
      geometry.epsilon sizes.stackMax budget state.simplify }

/-- `detect_loops` on the whole state. -/
def State.detectLoops (budget : ℕ) (state : State Point Length) : State Point Length :=
  let (prune, path) := SmartRtl.detectLoops geometry.close geometry.distanceSquared sizes.loopsMax
    budget state.prune state.path
  { state with prune := prune, path := path }

/-- `remove_points_by_loops` on the whole state. -/
def State.removePointsByLoops (semaphore : Bool) (numPointsToRemove : ℕ)
    (state : State Point Length) : Bool × State Point Length :=
  let (done, path) := SmartRtl.removePointsByLoops semaphore numPointsToRemove state.path
  (done, { state with path := path })

/-- `routine_cleanup`. -/
def routineCleanup (budget : ℕ) (semaphore : Bool) (pathPointsCount pathPointsCompletedLimit : ℕ)
    (state : State Point Length) : State Point Length :=
  -- if simplify is running, let it run to completion
  if ¬ state.simplify.complete then state.detectSimplifications sizes geometry budget
  else if state.simplify.removalRequired then removePointsBySimplifyBitmask semaphore state
  else
    let state := { state with
      prune := if state.prune.complete then restartPruningIfNewPoints state.simplify state.prune
        else state.prune }
    if ¬ state.prune.complete then state.detectLoops sizes geometry budget
    else
      -- detect path shrinkage
      let state := { state with
        simplify := { state.simplify with
          pathPointsCompleted := min state.simplify.pathPointsCompleted pathPointsCompletedLimit }
        prune := { state.prune with
          pathPointsCompleted := min state.prune.pathPointsCompleted pathPointsCompletedLimit } }
      let pointsToSimplify := pathPointsCount - state.simplify.pathPointsCompleted
      let lowOnSpace : Bool := decide ((sizes.pathPointsMax : ℤ) - pathPointsCount ≤ 10)
      if 50 ≤ pointsToSimplify ∨ lowOnSpace ∧ 10 ≤ pointsToSimplify then
        { state with simplify := restartSimplification pathPointsCount state.simplify }
      else if lowOnSpace then (state.removePointsByLoops semaphore 10).2
      else state

/-- The simplification of `thorough_cleanup`. It tells whether there is nothing left to do. -/
def thoroughSimplify (budget : ℕ) (semaphore : Bool) (pathPointsCount : ℕ)
    (state : State Point Length) : Bool × State Point Length :=
  let state := { state with
    simplify := if state.simplify.complete then
      restartSimplifyIfNewPoints pathPointsCount state.simplify else state.simplify }
  if ¬ state.simplify.complete then (false, state.detectSimplifications sizes geometry budget)
  else if state.simplify.removalRequired then
    (false, removePointsBySimplifyBitmask semaphore state)
  else (true, state)

/-- The pruning of `thorough_cleanup`. It tells whether there is nothing left to do. -/
def thoroughPrune (budget : ℕ) (semaphore : Bool) (state : State Point Length) :
    Bool × State Point Length :=
  let state := { state with
    prune := if state.prune.complete then restartPruningIfNewPoints state.simplify state.prune
      else state.prune }
  if ¬ state.prune.complete then (false, state.detectLoops sizes geometry budget)
  else state.removePointsByLoops semaphore pointsMax

/-- `thorough_cleanup`. -/
def thoroughCleanup (budget : ℕ) (semaphore : Bool) (pathPointsCount : ℕ)
    (cleanType : ThoroughCleanupType) (state : State Point Length) : Bool × State Point Length :=
  let (simplified, state) := if cleanType ≠ .pruneOnly then
    thoroughSimplify sizes geometry budget semaphore pathPointsCount state else (true, state)
  if ¬ simplified then (false, state)
  else if cleanType ≠ .simplifyOnly then thoroughPrune sizes geometry budget semaphore state
  else (true, state)

/-- `run_background_cleanup`, with time for some rounds. The semaphore is asked for at the beginning
and for a removal. -/
def runBackgroundCleanup (budget : ℕ) (semaphore removalSemaphore : Bool)
    (state : State Point Length) : State Point Length :=
  if ¬ state.path.active then state
  else if ¬ semaphore then state
  else
    let pathPointsCount := state.path.count
    let pathPointsCompletedLimit := state.pathPointsCompletedLimit
    let state := { state with pathPointsCompletedLimit := pointsMax }
    if 0 < state.thoroughCleanRequestMs then
      if state.thoroughCleanCompleteMs ≠ state.thoroughCleanRequestMs then
        let (done, state) := thoroughCleanup sizes geometry budget removalSemaphore pathPointsCount
          state.thoroughCleanType state
        if done then { state with thoroughCleanCompleteMs := state.thoroughCleanRequestMs }
        else state
      else state
    else
      routineCleanup sizes geometry budget removalSemaphore pathPointsCount
        pathPointsCompletedLimit { state with thoroughCleanCompleteMs := 0 }

end Operations

/-! ### Steps -/

/-- A call, with the answers that it gets. -/
inductive Call (Point Length : Type*)
  | popPoint (semaphore : Bool)
  | getPoint (index : ℕ)
  | setHome (geometry : Geometry Point Length) (positionOk : Bool) (currentPos : Point)
      (moment : Moment)
  | setHomeHere (geometry : Geometry Point Length) (positionOk : Bool)
      (relative : Relative Point) (moment : Moment)
  | update (geometry : Geometry Point Length) (positionOk : Bool) (currentPos : Point)
      (moment : Moment)
  | updateHere (geometry : Geometry Point Length) (positionOk savePosition : Bool)
      (home here : Relative Point) (first second : Moment)
  | requestThoroughCleanup (cleanType : ThoroughCleanupType) (now : UInt32)
  | cancelRequestForThoroughCleanup
  | runBackgroundCleanup (geometry : Geometry Point Length) (budget : ℕ)
      (semaphore removalSemaphore : Bool)

variable {Point Length : Type*} [Zero Length] [Add Length] [LT Length] [DecidableLT Length]

/-- The state behind a call. -/
def step (sizes : Sizes) (state : State Point Length) : Call Point Length → State Point Length
  | .popPoint semaphore => (popPoint semaphore state).2
  | .getPoint index => (getPoint index state).2
  | .setHome geometry positionOk currentPos moment =>
    setHome sizes geometry positionOk currentPos moment state
  | .setHomeHere geometry positionOk relative moment =>
    setHomeHere sizes geometry positionOk relative moment state
  | .update geometry positionOk currentPos moment =>
    update sizes geometry positionOk currentPos moment state
  | .updateHere geometry positionOk savePosition home here first second =>
    updateHere sizes geometry positionOk savePosition home here first second state
  | .requestThoroughCleanup cleanType now => (requestThoroughCleanup cleanType now state).2
  | .cancelRequestForThoroughCleanup => cancelRequestForThoroughCleanup state
  | .runBackgroundCleanup geometry budget semaphore removalSemaphore =>
    runBackgroundCleanup sizes geometry budget semaphore removalSemaphore state

end Urus.SmartRtl
