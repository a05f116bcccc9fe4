/-
This file is about the breaches of a fence. A fence has a limit for the altitude and one for the
distance from home, and each has a bit that says that it is breached, and a backup limit behind
the place where the breach was reported last.

The bit of a limit is set when it is reached, and the breach is reported; it is reported again at
the backup limit, and the bit is cleared inside the limit. But a limit that is taken out of the
type mask is not looked at any more, and its bit stays as it is. So the bits tell the truth in all
runs in which no limit leaves the mask while it is breached, and in no others.

Altitudes, distances and limits are exact numbers, and the position is known.
-/

import Mathlib.Data.Rat.Lemmas
import Mathlib.Data.List.Chain
import Mathlib.Tactic.Linarith
import Mathlib.Tactic.NormNum

namespace Urus.AcFence

/-! ### The code -/

/-- The fences with a limit and a backup limit behind it. -/
inductive Limit
  | altMax
  | circle
  deriving DecidableEq

/-- `AC_FENCE_TYPE_ALT_MAX` and the other types. -/
inductive FenceType
  | limit (limit : Limit)
  | polygon
  deriving DecidableEq

/-- The bit of a type. -/
def FenceType.bits : FenceType → BitVec 8
  | limit .altMax => 1
  | limit .circle => 2
  | polygon => 4

/-- The test for a type in a bit mask. -/
def Has (mask : BitVec 8) (fenceType : FenceType) : Prop := mask &&& fenceType.bits ≠ 0

instance (mask : BitVec 8) (fenceType : FenceType) : Decidable (Has mask fenceType) :=
  inferInstanceAs (Decidable (_ ≠ _))

/-- The distance of the backup limit from the place where it is created. -/
def Limit.backupDistance : Limit → ℚ
  | altMax => 20
  | circle => 20

/-- What is kept for a limit. -/
structure Backup where
  backup : ℚ
  breachDistance : ℚ

/-- The parameters at the time of a check, and where the vehicle is. -/
structure Moment where
  millis : ℕ
  enabledFences : BitVec 8
  altMax : ℚ
  circleRadius : ℚ
  /-- The position below home. -/
  positionD : ℚ
  /-- The distance from home, if the position is known. -/
  homeDistance : Option ℚ
  total : ℕ
  boundaryNumPoints : ℕ
  boundaryValid : Bool
  /-- Outside the polygon, if the position is known. -/
  outside : Option Bool

/-- The fence without its parameters. -/
structure Fence where
  enabled : Bool
  breachedFences : BitVec 8
  breachTime : ℕ
  breachCount : ℕ
  backups : Limit → Backup
  homeDistance : ℚ
  currAlt : ℚ
  manualRecoveryStartMs : ℕ

/-- A fence that has just been enabled. -/
def Fence.initial : Fence :=
  { enabled := true, breachedFences := 0, breachTime := 0, breachCount := 0,
    backups := fun _ => ⟨0, 0⟩, homeDistance := 0, currAlt := 0, manualRecoveryStartMs := 0 }

/-- `is_zero`: below `FLT_EPSILON`. -/
def isZero (number : ℚ) : Prop := |number| < 1 / 2 ^ 23

instance (number : ℚ) : Decidable (isZero number) := inferInstanceAs (Decidable (_ < _))

/-- `record_breach`. -/
def recordBreach (millis : ℕ) (fenceType : FenceType) (fence : Fence) : Fence :=
  { fence with
    breachTime := if fence.breachedFences = 0 then millis else fence.breachTime
    breachCount := if fence.breachCount < 65500 then fence.breachCount + 1 else fence.breachCount
    breachedFences := fence.breachedFences ||| fenceType.bits }

/-- `clear_breach`. -/
def clearBreach (fenceType : FenceType) (fence : Fence) : Fence :=
  if fence.breachedFences &&& fenceType.bits = 0 then fence
  else { fence with breachedFences := fence.breachedFences &&& ~~~ fenceType.bits }

/-- The part that `check_fence_alt_max` and `check_fence_circle` share. -/
def checkLimit (limit : Limit) (millis : ℕ) (bound value : ℚ) (fence : Fence) : Bool × Fence :=
  if bound ≤ value then
    let kept := fence.backups limit
    if ¬ Has fence.breachedFences (.limit limit) ∨ (¬ isZero kept.backup ∧ kept.backup ≤ value) then
      -- a new breach, or one of the backup limit
      (true, { recordBreach millis (.limit limit) fence with
        backups := Function.update fence.backups limit
          ⟨value + limit.backupDistance, value - bound⟩ })
    else
      (false, { fence with
        backups := Function.update fence.backups limit ⟨kept.backup, value - bound⟩ })
  else if Has fence.breachedFences (.limit limit) then
    (false, { clearBreach (.limit limit) fence with
      backups := Function.update fence.backups limit ⟨0, 0⟩ })
  else (false, fence)

/-- `check_fence_alt_max`. -/
def checkFenceAltMax (moment : Moment) (fence : Fence) : Bool × Fence :=
  if ¬ Has moment.enabledFences (.limit .altMax) then (false, fence)
  else
    let fence := { fence with currAlt := -moment.positionD }
    checkLimit .altMax moment.millis moment.altMax fence.currAlt fence

/-- `check_fence_circle`. -/
def checkFenceCircle (moment : Moment) (fence : Fence) : Bool × Fence :=
  if ¬ Has moment.enabledFences (.limit .circle) then (false, fence)
  else
    -- without a position the distance stays as it was
    let fence := { fence with homeDistance := moment.homeDistance.getD fence.homeDistance }
    checkLimit .circle moment.millis moment.circleRadius fence.homeDistance fence

/-- `check_fence_polygon`. -/
def checkFencePolygon (moment : Moment) (fence : Fence) : Bool × Fence :=
  if ¬ Has moment.enabledFences .polygon then (false, fence)
  else if moment.boundaryNumPoints ≠ moment.total then (false, fence)
  else if ¬ moment.boundaryValid then (false, fence)
  else match moment.outside with
    | none => (false, fence)
    | some true =>
      if Has fence.breachedFences .polygon then (false, fence)
      else (true, recordBreach moment.millis .polygon fence)
    | some false =>
      if Has fence.breachedFences .polygon then (false, clearBreach .polygon fence)
      else (false, fence)

/-- `check`. -/
def check (moment : Moment) (fence : Fence) : BitVec 8 × Fence :=
  if ¬ fence.enabled ∨ moment.enabledFences = 0 then (0, fence)
  else if fence.manualRecoveryStartMs ≠ 0 ∧
      (moment.millis + 2 ^ 32 - fence.manualRecoveryStartMs) % 2 ^ 32 < 10000 then (0, fence)
  else
    let fence := { fence with manualRecoveryStartMs := 0 }
    let (altMax, fence) := checkFenceAltMax moment fence
    let (circle, fence) := checkFenceCircle moment fence
    let (polygon, fence) := checkFencePolygon moment fence
    ((if altMax then (FenceType.limit .altMax).bits else 0) |||
      (if circle then (FenceType.limit .circle).bits else 0) |||
      (if polygon then FenceType.polygon.bits else 0), fence)

/-! ### What is promised -/

/-- Where the vehicle is and what the limit is. -/
def Moment.value (moment : Moment) : Limit → ℚ
  | .altMax => -moment.positionD
  | .circle => moment.homeDistance.getD 0

def Moment.bound (moment : Moment) : Limit → ℚ
  | .altMax => moment.altMax
  | .circle => moment.circleRadius

/-- The limit is enabled, and reached. -/
def Moment.Enabled (moment : Moment) (limit : Limit) : Prop :=
  Has moment.enabledFences (.limit limit)

def Moment.Breached (moment : Moment) (limit : Limit) : Prop :=
  moment.Enabled limit ∧ moment.bound limit ≤ moment.value limit

/-- The limits are not negative and the position is known. -/
def Moment.Sound (moment : Moment) : Prop :=
  (∀ limit, 0 ≤ moment.bound limit) ∧ moment.homeDistance.isSome

instance (moment : Moment) (limit : Limit) : Decidable (moment.Breached limit) :=
  inferInstanceAs (Decidable (Has _ _ ∧ _ ≤ _))

/-- A breach is to be reported: it is a new one, or the vehicle is the backup distance beyond the
place where it has been reported last. -/
def Due (moment : Moment) (limit : Limit) (reported : Option ℚ) : Prop :=
  moment.Breached limit ∧ ∀ place ∈ reported, place + limit.backupDistance ≤ moment.value limit

instance (moment : Moment) (limit : Limit) (reported : Option ℚ) :
    Decidable (Due moment limit reported) :=
  inferInstanceAs (Decidable (_ ∧ ∀ place ∈ reported, _ ≤ _))

/-- Where the present breach of a limit has been reported last, after a check. -/
def reportedAfter (moment : Moment) (limit : Limit) (reported : Option ℚ) : Option ℚ :=
  if Due moment limit reported then some (moment.value limit)
  else if moment.Breached limit then reported
  else none

/-- In a run of checks the bits are those of the limits that are breached now, and the reports are
those that are due. -/
def Truthful (fence : Fence) (reported : Limit → Option ℚ) : List Moment → Prop
  | [] => True
  | moment :: later =>
    (∀ limit, (Has (check moment fence).2.breachedFences (.limit limit) ↔ moment.Breached limit) ∧
      (Has (check moment fence).1 (.limit limit) ↔ Due moment limit (reported limit))) ∧
    Truthful (check moment fence).2 (fun limit => reportedAfter moment limit (reported limit)) later

/-! ### Bits -/

section Bits

variable {mask : BitVec 8} {fenceType other : FenceType}

theorem has_or : Has (mask ||| fenceType.bits) other ↔ Has mask other ∨ fenceType = other := by
  revert mask
  rcases fenceType with (_ | _) | _ <;> rcases other with (_ | _) | _ <;> decide

theorem has_and_not :
    Has (mask &&& ~~~ fenceType.bits) other ↔ Has mask other ∧ fenceType ≠ other := by
  revert mask
  rcases fenceType with (_ | _) | _ <;> rcases other with (_ | _) | _ <;> decide

theorem not_has_zero : ¬ Has 0 fenceType := by
  rcases fenceType with (_ | _) | _ <;> decide

theorem has_reports (altMax circle polygon : Bool) (limit : Limit) :
    Has ((if altMax then (FenceType.limit .altMax).bits else 0) |||
        (if circle then (FenceType.limit .circle).bits else 0) |||
        (if polygon then FenceType.polygon.bits else 0)) (.limit limit) ↔
      match limit with
      | .altMax => altMax
      | .circle => circle := by
  revert altMax circle polygon
  cases limit <;> decide

/-- `clear_breach` takes the bit away, whether it is there or not. -/
@[simp] theorem has_clearBreach (fence : Fence) :
    Has (clearBreach fenceType fence).breachedFences other ↔
      Has fence.breachedFences other ∧ fenceType ≠ other := by
  rw [clearBreach]
  split
  · rename_i clear
    refine ⟨fun has => ⟨has, ?_⟩, And.left⟩
    rintro rfl
    exact has clear
  · exact has_and_not

end Bits

/-! ### One check -/

/-- The fence agrees with the place where the breach of a limit has been reported last. -/
structure Agrees (fence : Fence) (limit : Limit) (reported : Option ℚ) : Prop where
  bit : Has fence.breachedFences (.limit limit) ↔ reported.isSome
  backup : ∀ place ∈ reported,
    0 ≤ place ∧ (fence.backups limit).backup = place + limit.backupDistance

section Check

variable {fence : Fence} {moment : Moment} {limit other : Limit} {reported : Option ℚ}
  {bound value : ℚ} {millis : ℕ}

theorem agrees_initial (limit : Limit) : Agrees Fence.initial limit none where
  bit := by
    exact iff_of_false not_has_zero Bool.false_ne_true
  backup := fun _ member => nomatch member

theorem Agrees.of_eq {after : Fence} (agrees : Agrees fence limit reported)
    (bits : Has after.breachedFences (.limit limit) ↔ Has fence.breachedFences (.limit limit))
    (backup : (after.backups limit).backup = (fence.backups limit).backup) :
    Agrees after limit reported where
  bit := bits.trans agrees.bit
  backup := fun place member => backup ▸ agrees.backup place member

theorem Agrees.not_isZero (agrees : Agrees fence limit reported) {place : ℚ}
    (member : place ∈ reported) : ¬ isZero (fence.backups limit).backup := by
  obtain ⟨nonnegative, backup⟩ := agrees.backup place member
  have far : 20 ≤ (fence.backups limit).backup := by
    rw [backup]
    cases limit <;> rw [Limit.backupDistance] <;> linarith
  rw [isZero, abs_of_nonneg (by linarith)]
  norm_num
  linarith

/-- A check of a limit reports what is due, and the fence agrees afterwards. -/
theorem checkLimit_own (agrees : Agrees fence limit reported) (nonnegative : 0 ≤ bound) :
    ((checkLimit limit millis bound value fence).1 = true ↔
      bound ≤ value ∧ ∀ place ∈ reported, place + limit.backupDistance ≤ value) ∧
    Agrees (checkLimit limit millis bound value fence).2 limit
      (if bound ≤ value ∧ ∀ place ∈ reported, place + limit.backupDistance ≤ value then some value
        else if bound ≤ value then reported else none) := by
  rw [checkLimit]
  by_cases reached : bound ≤ value
  · rw [if_pos reached]
    have due : (¬ Has fence.breachedFences (.limit limit) ∨
        (¬ isZero (fence.backups limit).backup ∧ (fence.backups limit).backup ≤ value)) ↔
        ∀ place ∈ reported, place + limit.backupDistance ≤ value := by
      rw [agrees.bit]
      cases reported with
      | none => simp
      | some place =>
        have backup := (agrees.backup place rfl).2
        have positive : ¬ isZero (fence.backups limit).backup := agrees.not_isZero rfl
        rw [backup] at positive
        simp [positive, backup]
    by_cases new : ∀ place ∈ reported, place + limit.backupDistance ≤ value
    · rw [if_pos (due.mpr new), if_pos ⟨reached, new⟩]
      refine ⟨iff_of_true rfl ⟨reached, new⟩, ⟨?_, ?_⟩⟩
      · exact iff_of_true (has_or.mpr (Or.inr rfl)) rfl
      · intro place member
        cases member
        refine ⟨nonnegative.trans reached, ?_⟩
        simp
    · have late : ¬ (bound ≤ value ∧
          ∀ place ∈ reported, place + limit.backupDistance ≤ value) := fun both => new both.2
      rw [if_neg (mt due.mp new), if_neg late, if_pos reached]
      refine ⟨iff_of_false Bool.false_ne_true late, agrees.of_eq Iff.rfl ?_⟩
      simp
  · have inside : ¬ (bound ≤ value ∧
        ∀ place ∈ reported, place + limit.backupDistance ≤ value) := fun both => reached both.1
    rw [if_neg reached, if_neg inside, if_neg reached]
    by_cases breached : Has fence.breachedFences (.limit limit)
    · rw [if_pos breached]
      refine ⟨iff_of_false Bool.false_ne_true inside, ?_, fun _ member => nomatch member⟩
      exact iff_of_false (fun has => ((has_clearBreach fence).mp has).2 rfl) Bool.false_ne_true
    · rw [if_neg breached]
      refine ⟨iff_of_false Bool.false_ne_true inside, ?_, fun _ member => nomatch member⟩
      exact iff_of_false breached Bool.false_ne_true

theorem checkLimit_other (agrees : Agrees fence other reported) (apart : limit ≠ other) :
    Agrees (checkLimit limit millis bound value fence).2 other reported := by
  have types : FenceType.limit limit ≠ .limit other := fun same => apart (FenceType.limit.inj same)
  rw [checkLimit]
  dsimp only
  split_ifs
  · refine agrees.of_eq ?_ ?_
    · exact has_or.trans (or_iff_left types)
    · simp [Function.update_of_ne apart.symm]
  · refine agrees.of_eq Iff.rfl ?_
    simp [Function.update_of_ne apart.symm]
  · refine agrees.of_eq ?_ ?_
    · exact (has_clearBreach fence).trans (and_iff_left types)
    · simp [Function.update_of_ne apart.symm]
  · exact agrees

/-- What a check of a limit has to do: report what is due and agree afterwards. -/
def Settles (moment : Moment) (limit : Limit) (reported : Option ℚ) (after : Bool × Fence) : Prop :=
  (after.1 = true ↔ Due moment limit reported) ∧
    Agrees after.2 limit (reportedAfter moment limit reported)

theorem settles_enabled (enabled : moment.Enabled limit) (sound : moment.Sound)
    (agrees : Agrees fence limit reported) :
    Settles moment limit reported
      (checkLimit limit millis (moment.bound limit) (moment.value limit) fence) := by
  have breached : moment.Breached limit ↔ moment.bound limit ≤ moment.value limit :=
    and_iff_right enabled
  rw [Settles, reportedAfter]
  simp only [Due, breached]
  exact checkLimit_own agrees (sound.1 limit)

theorem settles_disabled (disabled : ¬ moment.Enabled limit)
    (still : reported.isSome → moment.Enabled limit) (agrees : Agrees fence limit reported) :
    Settles moment limit reported (false, fence) := by
  have clear : ¬ moment.Breached limit := fun breached => disabled breached.1
  have late : ¬ Due moment limit reported := fun due => clear due.1
  have none : reported = none := Option.not_isSome_iff_eq_none.mp (mt still disabled)
  rw [Settles, reportedAfter, if_neg late, if_neg clear, ← none]
  exact ⟨iff_of_false Bool.false_ne_true late, agrees⟩

theorem checkFenceAltMax_own (sound : moment.Sound)
    (still : reported.isSome → moment.Enabled .altMax) (agrees : Agrees fence .altMax reported) :
    Settles moment .altMax reported (checkFenceAltMax moment fence) := by
  rw [checkFenceAltMax]
  split
  · rename_i disabled
    exact settles_disabled disabled still agrees
  · rename_i enabled
    exact settles_enabled (not_not.mp enabled) sound (agrees.of_eq Iff.rfl rfl)

theorem checkFenceAltMax_other (moment : Moment) (agrees : Agrees fence .circle reported) :
    Agrees (checkFenceAltMax moment fence).2 .circle reported := by
  rw [checkFenceAltMax]
  split
  · exact agrees
  · exact checkLimit_other (agrees.of_eq Iff.rfl rfl) (by decide)

theorem checkFenceCircle_own (sound : moment.Sound)
    (still : reported.isSome → moment.Enabled .circle) (agrees : Agrees fence .circle reported) :
    Settles moment .circle reported (checkFenceCircle moment fence) := by
  obtain ⟨distance, known⟩ := Option.isSome_iff_exists.mp sound.2
  rw [checkFenceCircle]
  split
  · rename_i disabled
    exact settles_disabled disabled still agrees
  · rename_i enabled
    have value : moment.homeDistance.getD fence.homeDistance = moment.value .circle := by
      rw [Moment.value, known]
      rfl
    rw [value]
    exact settles_enabled (not_not.mp enabled) sound (agrees.of_eq Iff.rfl rfl)

theorem checkFenceCircle_other (agrees : Agrees fence .altMax reported) :
    Agrees (checkFenceCircle moment fence).2 .altMax reported := by
  rw [checkFenceCircle]
  split
  · exact agrees
  · exact checkLimit_other (agrees.of_eq Iff.rfl rfl) (by decide)

theorem checkFencePolygon_other (agrees : Agrees fence limit reported) :
    Agrees (checkFencePolygon moment fence).2 limit reported := by
  have types : FenceType.polygon ≠ .limit limit := by simp
  rw [checkFencePolygon]
  split
  · exact agrees
  split
  · exact agrees
  split
  · exact agrees
  split
  · exact agrees
  · split
    · exact agrees
    · exact agrees.of_eq (has_or.trans (or_iff_left types)) rfl
  · split
    · refine agrees.of_eq ((has_clearBreach fence).trans (and_iff_left types)) ?_
      rw [clearBreach]
      split <;> rfl
    · exact agrees

/-- One check: if no limit has left the mask while it was breached, the bits and reports are right,
and the fence agrees again. -/
theorem check_agrees {reported : Limit → Option ℚ} (enabled : fence.enabled = true)
    (idle : fence.manualRecoveryStartMs = 0) (sound : moment.Sound)
    (agrees : ∀ limit, Agrees fence limit (reported limit))
    (still : ∀ limit, (reported limit).isSome → moment.Enabled limit) (limit : Limit) :
    (Has (check moment fence).1 (.limit limit) ↔ Due moment limit (reported limit)) ∧
      Agrees (check moment fence).2 limit (reportedAfter moment limit (reported limit)) := by
  rw [check]
  split
  · rename_i off
    have none : moment.enabledFences = 0 := off.resolve_left fun not => not enabled
    have disabled : ¬ moment.Enabled limit := by
      rw [Moment.Enabled, none]
      exact not_has_zero
    obtain ⟨report, after⟩ := settles_disabled disabled (still limit) (agrees limit)
    exact ⟨(iff_of_false not_has_zero Bool.false_ne_true).trans report, after⟩
  · rw [if_neg fun recovery => recovery.1 idle]
    have same : ∀ limit, Agrees { fence with manualRecoveryStartMs := 0 } limit (reported limit) :=
      fun limit => (agrees limit).of_eq Iff.rfl rfl
    obtain ⟨altMaxReport, altMax⟩ := checkFenceAltMax_own sound (still .altMax) (same .altMax)
    obtain ⟨circleReport, circle⟩ := checkFenceCircle_own sound (still .circle)
      (checkFenceAltMax_other moment (same .circle))
    rw [has_reports]
    cases limit with
    | altMax => exact ⟨altMaxReport, checkFencePolygon_other (checkFenceCircle_other altMax)⟩
    | circle => exact ⟨circleReport, checkFencePolygon_other circle⟩

end Check

/-! ### A run of checks -/

/-- A fence that is enabled and not in manual recovery. -/
def Active (fence : Fence) : Prop := fence.enabled = true ∧ fence.manualRecoveryStartMs = 0

variable {fence : Fence} {moment : Moment} {limit : Limit}

theorem checkLimit_active (millis : ℕ) (bound value : ℚ) (active : Active fence) :
    Active (checkLimit limit millis bound value fence).2 := by
  rw [checkLimit]
  dsimp only
  split
  · split <;> exact active
  · split
    · rw [clearBreach]
      split <;> exact active
    · exact active

theorem check_active (active : Active fence) : Active (check moment fence).2 := by
  have altMax : Active (checkFenceAltMax moment { fence with manualRecoveryStartMs := 0 }).2 := by
    rw [checkFenceAltMax]
    split
    · exact ⟨active.1, rfl⟩
    · exact checkLimit_active _ _ _ ⟨active.1, rfl⟩
  rw [check]
  split
  · exact active
  split
  · exact active
  dsimp only
  generalize (checkFenceAltMax moment { fence with manualRecoveryStartMs := 0 }).2 = fence at altMax
  have circle : Active (checkFenceCircle moment fence).2 := by
    rw [checkFenceCircle]
    split
    · exact altMax
    · exact checkLimit_active _ _ _ altMax
  rw [checkFencePolygon]
  split
  · exact circle
  split
  · exact circle
  split
  · exact circle
  split
  · exact circle
  · split <;> exact circle
  · split
    · rw [clearBreach]
      split <;> exact circle
    · exact circle

theorem check_disabled {reported : Option ℚ} (disabled : ¬ moment.Enabled limit)
    (agrees : Agrees fence limit reported) : Agrees (check moment fence).2 limit reported := by
  rw [check]
  split
  · exact agrees
  split
  · exact agrees
  refine checkFencePolygon_other ?_
  rw [Moment.Enabled] at disabled
  cases limit with
  | altMax =>
    refine checkFenceCircle_other ?_
    rw [checkFenceAltMax, if_pos disabled]
    exact agrees.of_eq Iff.rfl rfl
  | circle =>
    rw [checkFenceCircle, if_pos disabled]
    exact checkFenceAltMax_other _ (agrees.of_eq Iff.rfl rfl)

theorem reportedAfter_isSome (moment : Moment) (limit : Limit) (reported : Option ℚ) :
    (reportedAfter moment limit reported).isSome ↔ moment.Breached limit := by
  rw [reportedAfter]
  split
  · rename_i due
    exact iff_of_true rfl due.1
  · rename_i late
    split
    · rename_i breached
      refine iff_of_true ?_ breached
      -- without a report it would be due
      cases reported with
      | none => exact absurd ⟨breached, fun _ member => nomatch member⟩ late
      | some => rfl
    · rename_i clear
      exact iff_of_false Bool.false_ne_true clear

theorem truthful_iff {reported : Limit → Option ℚ} {moments : List Moment} (active : Active fence)
    (agrees : ∀ limit, Agrees fence limit (reported limit))
    (sound : ∀ moment ∈ moments, moment.Sound) :
    Truthful fence reported moments ↔
      (∀ moment ∈ moments.head?, ∀ limit, (reported limit).isSome → moment.Enabled limit) ∧
      moments.IsChain (fun before after => ∀ limit, before.Breached limit → after.Enabled limit) := by
  induction moments generalizing fence reported with
  | nil => simp [Truthful]
  | cons moment later inductionHypothesis =>
    have now := sound moment List.mem_cons_self
    have before : (∀ first ∈ (moment :: later).head?, ∀ limit,
        (reported limit).isSome → first.Enabled limit) ↔
        ∀ limit, (reported limit).isSome → moment.Enabled limit := by
      simp
    rw [before, Truthful, List.isChain_cons]
    constructor
    · rintro ⟨right, rest⟩
      have still : ∀ limit, (reported limit).isSome → moment.Enabled limit := by
        intro limit breached
        by_contra disabled
        have stuck := (check_disabled disabled (agrees limit)).bit.mpr breached
        exact disabled ((right limit).1.mp stuck).1
      have after limit := (check_agrees active.1 active.2 now agrees still limit).2
      have later := (inductionHypothesis (check_active active) after fun moment member =>
        sound moment (List.mem_cons_of_mem _ member)).mp rest
      refine ⟨still, fun next head limit breached => later.1 next head limit ?_, later.2⟩
      exact (reportedAfter_isSome _ _ _).mpr breached
    · rintro ⟨still, first, chain⟩
      have both limit := check_agrees active.1 active.2 now agrees still limit
      have rest := inductionHypothesis (check_active active) (fun limit => (both limit).2)
        fun moment member => sound moment (List.mem_cons_of_mem _ member)
      refine ⟨fun limit => ⟨?_, (both limit).1⟩, rest.mpr ⟨?_, chain⟩⟩
      · exact (both limit).2.bit.trans (reportedAfter_isSome _ _ _)
      · exact fun next head limit breached =>
          first next head limit ((reportedAfter_isSome _ _ _).mp breached)

/-- In a run of checks from the start, the bits and reports are right if and only if each limit that
is breached at a check is in the mask at the next one. -/
theorem checks_truthful_iff (moments : List Moment) (sound : ∀ moment ∈ moments, moment.Sound) :
    Truthful Fence.initial (fun _ => none) moments ↔
      moments.IsChain fun before after => ∀ limit, before.Breached limit → after.Enabled limit := by
  rw [truthful_iff ⟨rfl, rfl⟩ agrees_initial sound]
  exact and_iff_right fun _ _ _ reported => nomatch reported

/-- A check at an altitude, at home. -/
def momentAt (enabledFences : BitVec 8) (altitude : ℚ) : Moment :=
  { millis := 1000, enabledFences := enabledFences, altMax := 100, circleRadius := 300,
    positionD := -altitude, homeDistance := some 0, total := 0, boundaryNumPoints := 0,
    boundaryValid := false, outside := none }

theorem momentAt_sound (enabledFences : BitVec 8) (altitude : ℚ) :
    (momentAt enabledFences altitude).Sound := by
  refine ⟨fun limit => ?_, rfl⟩
  cases limit <;> norm_num [momentAt, Moment.bound]

/-- Up through the limit and its backup, and down again. -/
theorem checks_truthful_climb :
    Truthful Fence.initial (fun _ => none)
      [momentAt 3 90, momentAt 3 110, momentAt 3 131, momentAt 3 80] := by
  refine (checks_truthful_iff _ ?_).mpr ?_
  · intro moment member
    simp only [List.mem_cons, List.not_mem_nil, or_false] at member
    rcases member with rfl | rfl | rfl | rfl <;> exact momentAt_sound _ _
  · have enabled : ∀ altitude limit, (momentAt 3 altitude).Enabled limit := by
      intro altitude limit
      cases limit
      · exact (by decide : Has 3 (.limit .altMax))
      · exact (by decide : Has 3 (.limit .circle))
    simp only [List.isChain_cons_cons, List.isChain_singleton, and_true]
    exact ⟨fun limit _ => enabled 110 limit, fun limit _ => enabled 131 limit,
      fun limit _ => enabled 80 limit⟩

/-- The altitude limit is breached and then taken out of the mask. -/
theorem not_checks_truthful :
    ¬ Truthful Fence.initial (fun _ => none) [momentAt 3 110, momentAt 2 110] := by
  rintro ⟨-, ⟨right, -⟩⟩
  have stuck : Has (check (momentAt 2 110) (check (momentAt 3 110) Fence.initial).2).2.breachedFences
      (.limit .altMax) := by
    decide +kernel
  have breached := (right .altMax).1.mp stuck
  exact (by decide : ¬ Has 2 (.limit .altMax)) breached.1

end Urus.AcFence
