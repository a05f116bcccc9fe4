/-
This file is about the choice of the nearest rally point. The points are read from storage one after
the other, as many of them as a parameter says, and the nearest one that is valid is kept. The
distance that is kept is negative as long as there is none.

The getter trusts the parameter and not the size of the storage. A point that lies behind the storage
is not read, and what happens to be in the variable is taken for it. So the choice is right if the
storage has room for all points that the parameter speaks of, and not else.
-/

import Mathlib.Data.List.GetD
import Mathlib.Data.List.MinMax
import Mathlib.Data.Rat.Lemmas
import Urus.StorageManager

namespace Urus.Rally

open StorageManager Image

/-! ### The code -/

/-- `RallyLocation`. -/
structure RallyLocation where
  lat : Int32
  lng : Int32
  alt : Int16
  breakAlt : Int16
  landDir : UInt16
  flags : UInt8
  deriving DecidableEq

/-- The size of a `RallyLocation`, and `AP_RALLY_WP_SIZE`. -/
def rallyWpSize : ℕ := 15

/-- Some bytes as one number, the least significant one first. -/
def wordAt (bytes : List UInt8) (start : ℕ) : ℕ → ℕ
  | 0 => 0
  | count + 1 => (bytes.getD start 0).toNat + 2 ^ 8 * wordAt bytes (start + 1) count

/-- The rally point that is in memory as these bytes. -/
def RallyLocation.ofBytes (bytes : List UInt8) : RallyLocation where
  lat := (UInt32.ofNat (wordAt bytes 0 4)).toInt32
  lng := (UInt32.ofNat (wordAt bytes 4 4)).toInt32
  alt := (UInt16.ofNat (wordAt bytes 8 2)).toInt16
  breakAlt := (UInt16.ofNat (wordAt bytes 10 2)).toInt16
  landDir := UInt16.ofNat (wordAt bytes 12 2)
  flags := UInt8.ofNat (wordAt bytes 14 1)

/-- `Location`, with the 24 bits of its altitude. -/
structure Location where
  lat : Int32
  lng : Int32
  alt : BitVec 24

/-- `rally_location_to_location`. -/
def rallyLocationToLocation (home : Location) (rallyLoc : RallyLocation) : Location :=
  ⟨rallyLoc.lat, rallyLoc.lng, BitVec.ofInt 24 (rallyLoc.alt.toInt * 100 + home.alt.toInt)⟩

/-- A board, with its layout of the storage. -/
structure Board where
  table : Table
  halStorageSize : ℕ
  supported : 4096 ≤ halStorageSize

/-- The areas of the board's storage. -/
def Board.areas (board : Board) : List StorageArea := board.table.areas board.halStorageSize

/-- Where the vehicle and home are, the distances, which locations are valid, and the parameters other
than the number of points. -/
structure Situation where
  home : Location
  current : Location
  getDistance : Location → Location → ℚ
  nonneg : ∀ first second, 0 ≤ getDistance first second
  isValid : Location → Bool
  rallyLimitKm : ℚ
  rallyInclHome : Int8

section Code

variable (board : Board) (total : Int8) (hal : Image)

/-- `_rally_point_total_count`, as it is compared. -/
def totalCount (total : Int8) : ℕ := total.toUInt8.toNat

/-- `get_rally_max`. -/
def Board.getRallyMax : ℕ := size .rally board.areas / rallyWpSize % 2 ^ 8

/-- What is in memory when a point was read over what was there before. -/
def Board.readRally (older : List UInt8) (i : ℕ) : RallyLocation :=
  let bytes := (readBlock board.areas .rally hal (i * rallyWpSize) rallyWpSize).2
  .ofBytes (bytes ++ older.drop bytes.length)

/-- `get_rally_point_with_index`, with what is in memory before. -/
def Board.getRallyPointWithIndex (older : List UInt8) (i : ℕ) : Bool × RallyLocation :=
  if i ≥ totalCount total then (false, .ofBytes older)
  else
    let ret := board.readRally hal older i
    if ret.lat = 0 ∧ ret.lng = 0 then (false, ret) else (true, ret)

variable (situation : Situation) (older : ℕ → List UInt8)

/-- The distance to a rally point. -/
def Situation.rallyDistance (rallyLoc : RallyLocation) : ℚ :=
  situation.getDistance situation.current (rallyLocationToLocation situation.home rallyLoc)

/-- The distance to home. -/
def Situation.homeDistance : ℚ := situation.getDistance situation.current situation.home

/-- What `find_nearest_rally_point` does for one index. -/
def Board.consider (nearest : ℚ × RallyLocation) (i : ℕ) : ℚ × RallyLocation :=
  let (available, nextRally) := board.getRallyPointWithIndex total hal (older i) i
  if available then
    let rallyLoc := rallyLocationToLocation situation.home nextRally
    let dis := situation.getDistance situation.current rallyLoc
    if situation.isValid rallyLoc ∧ (dis < nearest.1 ∨ nearest.1 < 0) then (dis, nextRally)
    else nearest
  else nearest

/-- `find_nearest_rally_point`. What is in the variable of each round is not initialised. -/
def Board.findNearestRallyPoint (returnLoc : RallyLocation) : Bool × RallyLocation :=
  let (minDis, returnLoc) :=
    (List.range (totalCount total)).foldl (board.consider total hal situation older) (-1, returnLoc)
  if situation.rallyInclHome ≠ 0 ∧ situation.homeDistance < minDis then (false, returnLoc)
  else if situation.rallyLimitKm > 0 ∧ minDis > situation.rallyLimitKm * 1000 ∧
      situation.homeDistance < minDis then (false, returnLoc)
  else (decide (minDis ≥ 0), returnLoc)

/-! ### The right choice -/

/-- The point of an index in the rally storage. -/
def Board.stored (i : ℕ) : RallyLocation :=
  .ofBytes (slice (flat .rally hal board.areas) (i * rallyWpSize) rallyWpSize)

/-- A point can be chosen. -/
def Situation.Usable (rallyLoc : RallyLocation) : Prop :=
  ¬ (rallyLoc.lat = 0 ∧ rallyLoc.lng = 0) ∧
    situation.isValid (rallyLocationToLocation situation.home rallyLoc) = true

instance (rallyLoc : RallyLocation) : Decidable (situation.Usable rallyLoc) :=
  inferInstanceAs (Decidable (_ ∧ _))

/-- The points among which there is a choice: those that the parameter speaks of, that are inside the
storage and that can be chosen. -/
def Board.candidates : List RallyLocation :=
  ((List.range (min (totalCount total) board.getRallyMax)).map (board.stored hal)).filter
    (situation.Usable ·)

/-- Home is taken instead of the points: it is closer than all of them, and it is included or all of
them are beyond the limit. -/
def Situation.HomeWins (points : List RallyLocation) : Prop :=
  (situation.rallyInclHome ≠ 0 ∧
      ∀ point ∈ points, situation.homeDistance < situation.rallyDistance point) ∨
    (0 < situation.rallyLimitKm ∧
      ∀ point ∈ points, situation.rallyLimitKm * 1000 < situation.rallyDistance point ∧
        situation.homeDistance < situation.rallyDistance point)

/-- Whatever is in storage and wherever the vehicle and home are, the nearest point is found unless
home is to be taken, and nothing but the rally storage has any influence. -/
def Board.FindsNearest : Prop :=
  ∀ (hal : Image) (situation : Situation) (older : ℕ → List UInt8) (returnLoc : RallyLocation),
    let found := board.findNearestRallyPoint total hal situation older returnLoc
    let points := board.candidates total hal situation
    (found.1 = true ↔ points ≠ [] ∧ ¬ situation.HomeWins points) ∧
      (found.1 = true → found.2 ∈ points ∧
        ∀ point ∈ points, situation.rallyDistance found.2 ≤ situation.rallyDistance point) ∧
      ∀ (hal' : Image) (older' : ℕ → List UInt8),
        (∀ address, Owns .rally board.areas address → hal' address = hal address) →
          board.findNearestRallyPoint total hal' situation older' returnLoc = found

end Code

/-! ### The nearest of the points that are read -/

section Search

variable (board : Board) (total : Int8) (hal : Image) (situation : Situation)
  (older : ℕ → List UInt8) (returnLoc : RallyLocation)

/-- The points that are read up to an index and can be chosen. -/
def Board.readable (count : ℕ) : List RallyLocation :=
  ((List.range count).map fun i => board.readRally hal (older i) i).filter (situation.Usable ·)

/-- What is kept of some points. -/
def Situation.kept (points : List RallyLocation) : ℚ × RallyLocation :=
  match points.argmin situation.rallyDistance with
  | none => (-1, returnLoc)
  | some point => (situation.rallyDistance point, point)

variable {points : List RallyLocation} {nearest : RallyLocation}

/-- A point that is read takes the place of the nearest one so far if it is closer. -/
theorem consider_kept {i : ℕ} (listed : i < totalCount total) :
    board.consider total hal situation older (situation.kept returnLoc points) i =
      situation.kept returnLoc (points ++
        [board.readRally hal (older i) i].filter (situation.Usable ·)) := by
  rw [Board.consider, Board.getRallyPointWithIndex, if_neg (not_le.mpr listed)]
  generalize board.readRally hal (older i) i = point
  simp only
  by_cases zero : point.lat = 0 ∧ point.lng = 0
  · have unusable : ¬ situation.Usable point := fun usable => usable.1 zero
    rw [if_pos zero, List.filter_singleton, decide_eq_false unusable]
    simp
  · rw [if_neg zero]
    cases valid : situation.isValid (rallyLocationToLocation situation.home point) with
    | false =>
      have unusable : ¬ situation.Usable point := fun usable =>
        Bool.false_ne_true (valid.symm.trans usable.2)
      rw [List.filter_singleton, decide_eq_false unusable]
      simp
    | true =>
      have usable : situation.Usable point := ⟨zero, valid⟩
      rw [List.filter_singleton, decide_eq_true usable, cond_true, Situation.kept, Situation.kept,
        List.argmin_concat]
      have own : situation.getDistance situation.current
          (rallyLocationToLocation situation.home point) = situation.rallyDistance point := rfl
      simp only [own, true_and, if_true]
      cases points.argmin situation.rallyDistance with
      | none => exact if_pos (Or.inr (by norm_num))
      | some nearest =>
        have positive : ¬ situation.rallyDistance nearest < 0 := not_lt.mpr (situation.nonneg _ _)
        simp only [positive, or_false]
        split <;> rfl

theorem readable_succ (count : ℕ) :
    board.readable hal situation older (count + 1) =
      board.readable hal situation older count ++
        [board.readRally hal (older count) count].filter (situation.Usable ·) := by
  rw [Board.readable, List.range_succ, List.map_append, List.filter_append]
  rfl

/-- What is kept is the nearest of the points that were read. -/
theorem foldl_consider {count : ℕ} (listed : count ≤ totalCount total) :
    (List.range count).foldl (board.consider total hal situation older) (-1, returnLoc) =
      situation.kept returnLoc (board.readable hal situation older count) := by
  induction count with
  | zero => rfl
  | succ count inductionHypothesis =>
    rw [List.range_succ, List.foldl_append, inductionHypothesis (Nat.le_of_succ_le listed),
      List.foldl_cons, List.foldl_nil, consider_kept _ _ _ _ _ _ listed, readable_succ]

theorem forall_lt_iff (first : nearest ∈ points.argmin situation.rallyDistance) (distance : ℚ) :
    (∀ point ∈ points, distance < situation.rallyDistance point) ↔
      distance < situation.rallyDistance nearest := by
  refine ⟨fun all => all nearest (List.argmin_mem first), fun less point member => ?_⟩
  exact less.trans_le (List.le_of_mem_argmin member first)

theorem homeWins_iff (first : nearest ∈ points.argmin situation.rallyDistance) :
    situation.HomeWins points ↔
      (situation.rallyInclHome ≠ 0 ∧
          situation.homeDistance < situation.rallyDistance nearest) ∨
        (situation.rallyLimitKm > 0 ∧
          situation.rallyDistance nearest > situation.rallyLimitKm * 1000 ∧
          situation.homeDistance < situation.rallyDistance nearest) := by
  rw [Situation.HomeWins, forall_lt_iff situation first]
  simp only [forall₂_and, forall_lt_iff situation first, gt_iff_lt]

/-- The nearest point is found among those that were read, unless home is to be taken. -/
theorem find_readable (read : board.readable hal situation older (totalCount total) = points) :
    let found := board.findNearestRallyPoint total hal situation older returnLoc
    (found.1 = true ↔ points ≠ [] ∧ ¬ situation.HomeWins points) ∧
      (found.1 = true → found.2 ∈ points ∧
        ∀ point ∈ points, situation.rallyDistance found.2 ≤ situation.rallyDistance point) := by
  rw [Board.findNearestRallyPoint, foldl_consider _ _ _ _ _ _ le_rfl, read, Situation.kept]
  cases first : points.argmin situation.rallyDistance with
  | none =>
    have none : points = [] := List.argmin_eq_none.mp first
    have notHome : ¬ situation.homeDistance < -1 :=
      not_lt.mpr (le_trans (by norm_num) (situation.nonneg _ _))
    simp only [notHome, and_false, if_false]
    have negative : decide ((-1 : ℚ) ≥ 0) = false := decide_eq_false (by norm_num)
    rw [negative, none]
    exact ⟨iff_of_false Bool.false_ne_true fun both => both.1 rfl,
      fun impossible => absurd impossible Bool.false_ne_true⟩
  | some nearest =>
    have member : nearest ∈ points := List.argmin_mem first
    have closest : ∀ point ∈ points,
        situation.rallyDistance nearest ≤ situation.rallyDistance point :=
      fun point other => List.le_of_mem_argmin other first
    have positive : decide (situation.rallyDistance nearest ≥ 0) = true :=
      decide_eq_true (situation.nonneg _ _)
    rw [homeWins_iff situation first]
    simp only
    split
    · rename_i included
      exact ⟨iff_of_false Bool.false_ne_true fun both => both.2 (Or.inl included),
        fun impossible => absurd impossible Bool.false_ne_true⟩
    · rename_i notIncluded
      split
      · rename_i beyond
        exact ⟨iff_of_false Bool.false_ne_true fun both => both.2 (Or.inr beyond),
          fun impossible => absurd impossible Bool.false_ne_true⟩
      · rename_i notBeyond
        exact ⟨iff_of_true positive
          ⟨List.ne_nil_of_mem member, not_or.mpr ⟨notIncluded, notBeyond⟩⟩,
          fun _ => ⟨member, closest⟩⟩

end Search

/-! ### The size of the storage -/

section Size

variable (board : Board)

/-- The storage has room for a whole number of points. -/
theorem rally_size : size .rally board.areas = board.getRallyMax * rallyWpSize := by
  obtain ⟨table, halStorageSize, supported⟩ := board
  rw [Board.getRallyMax, Board.areas]
  rcases storageNumAreas_cases halStorageSize supported with ⟨count, _⟩ | ⟨count, _⟩ | ⟨count, _⟩ <;>
    cases table <;> simp only [Table.areas, count] <;> decide

theorem rally_totalLength : totalLength .rally board.areas = board.getRallyMax * rallyWpSize := by
  rw [← rally_size]
  exact (size_eq (board.table.layout board.halStorageSize board.supported) .rally).symm

variable {board} {hal : Image} {older : List UInt8} {i : ℕ}

theorem wordAt_append {bytes : List UInt8} (rest : List UInt8) {start count : ℕ}
    (inside : start + count ≤ bytes.length) :
    wordAt (bytes ++ rest) start count = wordAt bytes start count := by
  induction count generalizing start with
  | zero => rfl
  | succ count inductionHypothesis =>
    rw [wordAt, wordAt, List.getD_append _ _ _ _ (by omega), inductionHypothesis (by omega)]

/-- A point is made of its own bytes only. -/
theorem ofBytes_append {bytes : List UInt8} (rest : List UInt8)
    (long : bytes.length = rallyWpSize) :
    RallyLocation.ofBytes (bytes ++ rest) = .ofBytes bytes := by
  have word : ∀ start count, start + count ≤ 15 →
      wordAt (bytes ++ rest) start count = wordAt bytes start count :=
    fun start count inside => wordAt_append rest (le_of_le_of_eq inside long.symm)
  rw [RallyLocation.ofBytes, RallyLocation.ofBytes, word 0 4 (by decide), word 4 4 (by decide),
    word 8 2 (by decide), word 10 2 (by decide), word 12 2 (by decide), word 14 1 (by decide)]

theorem readRally_inside (inside : i < board.getRallyMax) :
    board.readRally hal older i = board.stored hal i := by
  have room : i * rallyWpSize + rallyWpSize ≤ totalLength .rally board.areas := by
    rw [rally_totalLength, ← Nat.succ_mul]
    exact Nat.mul_le_mul_right _ inside
  rw [Board.readRally, readBlock_flat _ _ _ _ _ (by decide) (by decide) room, Board.stored]
  exact ofBytes_append _ (slice_length _ _ _)

/-- Behind the storage nothing is read. -/
theorem readRally_behind (behind : board.getRallyMax ≤ i) :
    board.readRally hal older i = .ofBytes older := by
  have nothing : totalLength .rally board.areas ≤ i * rallyWpSize := by
    rw [rally_totalLength]
    exact Nat.mul_le_mul_right _ behind
  rw [Board.readRally, readBlock, blockLoop_behind _ _ _ _ _ _ nothing]
  rfl

end Size

/-! ### Which parameter is safe -/

section Choice

variable (board : Board) {total : Int8}

/-- When the storage has room for all points, the nearest of them is found. -/
theorem findsNearest (fits : totalCount total ≤ board.getRallyMax) : board.FindsNearest total := by
  have read : ∀ (hal : Image) (situation : Situation) (older : ℕ → List UInt8),
      board.readable hal situation older (totalCount total) =
        board.candidates total hal situation := by
    intro hal situation older
    rw [Board.readable, Board.candidates, min_eq_left fits]
    refine congrArg (List.filter _) (List.map_congr_left fun i member => ?_)
    exact readRally_inside (lt_of_lt_of_le (List.mem_range.mp member) fits)
  intro hal situation older returnLoc
  obtain ⟨which, nearest⟩ := find_readable board total hal situation older returnLoc
    (read hal situation older)
  refine ⟨which, nearest, fun hal' older' agree => ?_⟩
  have same : board.readable hal' situation older' (totalCount total) =
      board.readable hal situation older (totalCount total) := by
    rw [read, read, Board.candidates, Board.candidates]
    refine congrArg (List.filter _) (List.map_congr_left fun i _ => ?_)
    rw [Board.stored, Board.stored, flat_congr .rally hal' hal board.areas agree]
  rw [Board.findNearestRallyPoint, Board.findNearestRallyPoint,
    foldl_consider _ _ _ _ _ _ le_rfl, foldl_consider _ _ _ _ _ _ le_rfl, same]

theorem flat_zero (type : StorageType) (areas : List StorageArea) :
    flat type (fun _ => 0) areas = fun _ => 0 := by
  induction areas with
  | nil => rfl
  | cons area rest inductionHypothesis =>
    funext address
    simp only [flat, inductionHypothesis, ite_self]

/-- In an empty storage there is no point. -/
theorem stored_zero (i : ℕ) :
    board.stored (fun _ => 0) i = .ofBytes (List.replicate rallyWpSize 0) := by
  rw [Board.stored, flat_zero, slice, List.map_const', List.length_range]

/-- Everything is close by and valid. -/
def nearby : Situation where
  home := ⟨0, 0, 0⟩
  current := ⟨0, 0, 0⟩
  getDistance := fun _ _ => 0
  nonneg := fun _ _ => le_rfl
  isValid := fun _ => true
  rallyLimitKm := 0
  rallyInclHome := 0

/-- When the parameter speaks of more points, what is in memory can be taken for a point although
none is stored. -/
theorem not_findsNearest (more : board.getRallyMax < totalCount total) :
    ¬ board.FindsNearest total := by
  intro finds
  obtain ⟨stored, -⟩ := finds (fun _ => 0) nearby (fun _ => List.replicate 15 1) (.ofBytes [])
  obtain ⟨read, -⟩ := find_readable board total (fun _ => 0) nearby
    (fun _ => List.replicate 15 1) (.ofBytes []) rfl
  have empty : board.candidates total (fun _ => 0) nearby = [] := by
    rw [Board.candidates, List.filter_eq_nil_iff]
    intro point member
    obtain ⟨i, -, rfl⟩ := List.mem_map.mp member
    rw [stored_zero]
    decide +kernel
  have junk : RallyLocation.ofBytes (List.replicate 15 1) ∈
      board.readable (fun _ => 0) nearby (fun _ => List.replicate 15 1) (totalCount total) := by
    rw [Board.readable, List.mem_filter, List.mem_map]
    refine ⟨⟨board.getRallyMax, List.mem_range.mpr more, readRally_behind le_rfl⟩, ?_⟩
    decide +kernel
  have notHome : ¬ nearby.HomeWins (board.readable (fun _ => 0) nearby
      (fun _ => List.replicate 15 1) (totalCount total)) := by
    rintro (⟨included, -⟩ | ⟨limited, -⟩)
    · exact included rfl
    · exact lt_irrefl _ limited
  exact (stored.mp (read.mpr ⟨List.ne_nil_of_mem junk, notHome⟩)).1 empty

/-- The choice is right exactly if the storage has room for all points that the parameter speaks of. -/
theorem findsNearest_iff :
    board.FindsNearest total ↔ totalCount total ≤ board.getRallyMax :=
  ⟨fun finds => not_lt.mp fun more => not_findsNearest board more finds, findsNearest board⟩

end Choice

/-- Eleven points, on a board that has room for ten. -/
theorem eleven_not_findsNearest :
    ¬ (Board.mk .default 4096 le_rfl).FindsNearest 11 :=
  not_findsNearest _ (by decide +kernel)

end Urus.Rally
