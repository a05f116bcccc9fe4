/-
This file develops logs on a ring of cells. Every cell is blank or has a key, and the keys
grow from one write to the next. A write goes to the cell behind the last one, round the
ring, and that cell must be blank; so the cells are blanked in blocks, each when the cell
in front of it is written.

While the last cell that was written is not the end of the ring, the keys grow up to it
from the first cell on, and behind it there are blank cells and older keys. So it is found
by halving: a key that is older than that of the first cell is behind it.
-/

import Mathlib.Tactic

namespace Urus

section RingLog

/-! ### Halving -/

/-- A search between two bounds, where the lower one has the given key: a cell with an older key
becomes the upper bound, any other one the lower. -/
def halve (shown : ℕ → ℕ) : (left bottom top bottomKey : ℕ) → ℕ × ℕ × ℕ
  | 0, bottom, top, bottomKey => (bottom, top, bottomKey)
  | left + 1, bottom, top, bottomKey =>
    if bottom + 1 < top then
      let look := (top + bottom) / 2
      if shown look < bottomKey then halve shown left bottom look bottomKey
      else halve shown left look top (shown look)
    else (bottom, top, bottomKey)

variable {shown : ℕ → ℕ} {left bottom top bottomKey last total block newest key : ℕ}

theorem halve_stays (older : ∀ cell, shown cell < bottomKey) :
    ∃ top', halve shown left bottom top bottomKey = (bottom, top', bottomKey) := by
  induction left generalizing top with
  | zero => exact ⟨top, rfl⟩
  | succ left inductionHypothesis =>
    rw [halve]
    split
    · rw [if_pos (older _)]
      exact inductionHypothesis
    · exact ⟨top, rfl⟩

/-- The keys grow from the first cell up to the last one, and the cells behind it are older than
the first one. -/
structure Peak (shown : ℕ → ℕ) (total last : ℕ) : Prop where
  positive : 1 ≤ last
  inside : last ≤ total
  rises : ∀ early late, 1 ≤ early → early < late → late ≤ last → shown early < shown late
  falls : ∀ cell, last < cell → cell ≤ total → shown cell < shown 1

theorem Peak.first_le (peak : Peak shown total last) {cell : ℕ} (positive : 1 ≤ cell)
    (early : cell ≤ last) : shown 1 ≤ shown cell := by
  obtain rfl | later := Nat.eq_or_lt_of_le positive
  · exact le_refl _
  · exact le_of_lt (peak.rises 1 cell (le_refl _) later early)

/-- The search ends with the last cell as one of its bounds. -/
theorem Peak.halve (peak : Peak shown total last) (positive : 1 ≤ bottom) (lower : bottom ≤ last)
    (upper : last ≤ top) (inside : top ≤ total) (enough : top - bottom ≤ left) :
    ∃ bottom' top', halve shown left bottom top (shown bottom) = (bottom', top', shown bottom') ∧
      1 ≤ bottom' ∧ bottom' ≤ last ∧ last ≤ top' ∧ top' ≤ total ∧ top' ≤ bottom' + 1 := by
  induction left generalizing bottom top with
  | zero => exact ⟨bottom, top, rfl, positive, lower, upper, inside, by omega⟩
  | succ left inductionHypothesis =>
    rw [Urus.halve]
    split
    · dsimp only
      split
      · rename_i older
        -- the cell is behind the last one
        have behind : last < (top + bottom) / 2 := by
          by_contra early
          have between := peak.rises bottom ((top + bottom) / 2) positive (by omega) (by omega)
          omega
        exact inductionHypothesis positive lower (by omega) (by omega) (by omega)
      · rename_i newer
        have early : (top + bottom) / 2 ≤ last := by
          by_contra behind
          have fallen := peak.falls ((top + bottom) / 2) (by omega) (by omega)
          have := peak.first_le positive lower
          omega
        exact inductionHypothesis (by omega) early upper inside (by omega)
    · exact ⟨bottom, top, rfl, positive, lower, upper, inside, by omega⟩

/-- The newer one of the two bounds is the last cell. -/
theorem Peak.found (peak : Peak shown total last) (enough : total - 1 ≤ left) :
    ∃ bottom top, Urus.halve shown left 1 total (shown 1) = (bottom, top, shown bottom) ∧
      (if shown top > shown bottom then top else bottom) = last := by
  obtain ⟨bottom, top, found, positive, lower, upper, inside, near⟩ :=
    peak.halve (le_refl 1) peak.positive peak.inside (le_refl total) enough
  refine ⟨bottom, top, found, ?_⟩
  by_cases same : last = bottom
  · rw [if_neg, same]
    by_cases one : top = bottom
    · rw [one]
      exact lt_irrefl _
    · have fallen := peak.falls top (by omega) inside
      have := peak.first_le positive lower
      omega
  · obtain rfl : last = top := by omega
    rw [if_pos (peak.rises bottom last positive (by omega) (le_refl _))]

/-! ### The ring -/

/-- The cell behind the last one that was written, or the first one. -/
def nextCell (total : ℕ) : Option ℕ → ℕ
  | none => 1
  | some last => if last = total then 1 else last + 1

/-- The cells of a block become blank. -/
def eraseBlock (block : ℕ) (cells : ℕ → Option ℕ) (cell : ℕ) : ℕ → Option ℕ := fun other =>
  if other / block = cell / block then none else cells other

/-- A key is written to a cell, and the block behind the cell becomes blank where it begins. -/
def writeCell (total block : ℕ) (cells : ℕ → Option ℕ) (cell key : ℕ) : ℕ → Option ℕ :=
  let written := Function.update cells cell (some key)
  let next := nextCell total (some cell)
  if next % block = 0 ∨ next = 1 then eraseBlock block written next else written

/-- A log on a ring: no key is newer than the newest one, the cells that come next are blank up to
the end of their block, and up to the last cell the keys grow unless it is the end of the ring. -/
structure RingLog (total block : ℕ) (cells : ℕ → Option ℕ) (last : Option ℕ) (newest : ℕ) : Prop where
  inside : ∀ cell, last = some cell → 1 ≤ cell ∧ cell ≤ total
  bounded : ∀ cell key, 1 ≤ cell → cell ≤ total → cells cell = some key → 0 < key ∧ key ≤ newest
  ahead : ∀ cell, nextCell total last ≤ cell → cell ≤ total →
    cell / block = nextCell total last / block → cells cell = none
  empty : last = none → ∀ cell, 1 ≤ cell → cell ≤ total → cells cell = none
  latest : ∀ cell, last = some cell → cell < total → cells cell = some newest
  rises : ∀ cell, last = some cell → cell < total → ∀ early late, 1 ≤ early → early < late →
    late ≤ cell → ∃ old new, cells early = some old ∧ cells late = some new ∧ old < new
  falls : ∀ cell, last = some cell → cell < total → ∀ other key, cell < other → other ≤ total →
    cells other = some key → ∃ first, cells 1 = some first ∧ key < first

variable {cells : ℕ → Option ℕ} {recent : Option ℕ}

theorem nextCell_bounds (log : RingLog total block cells recent newest) (some_cell : 1 ≤ total) :
    1 ≤ nextCell total recent ∧ nextCell total recent ≤ total := by
  cases recent with
  | none => exact ⟨le_refl _, some_cell⟩
  | some last =>
    obtain ⟨positive, within⟩ := log.inside last rfl
    rw [nextCell]
    split <;> omega

/-- A write and what becomes blank leave a key where it was, or remove it. -/
theorem writeCell_eq {cell other key' : ℕ}
    (kept : writeCell total block cells cell key other = some key') :
    Function.update cells cell (some key) other = some key' := by
  rw [writeCell] at kept
  split at kept
  · rw [eraseBlock] at kept
    split at kept
    · exact nomatch kept
    · exact kept
  · exact kept

theorem writeCell_kept {cell other : ℕ} (positive : 1 ≤ cell) (inside : cell < total)
    (early : other ≤ cell) :
    writeCell total block cells cell key other = Function.update cells cell (some key) other := by
  have next : nextCell total (some cell) = cell + 1 := if_neg (by omega)
  rw [writeCell, next]
  split
  · rename_i begins
    rw [eraseBlock]
    split
    · rename_i same
      -- a block that begins behind a cell does not have the cell
      have aligned := begins.resolve_right (by omega)
      have low : other / block * block ≤ other := Nat.div_mul_le_self _ _
      have start : (cell + 1) / block * block = cell + 1 :=
        Nat.div_mul_cancel (Nat.dvd_of_mod_eq_zero aligned)
      rw [same, start] at low
      omega
    · rfl
  · rfl

theorem div_eq_of_not_aligned {cell : ℕ} (inner : (cell + 1) % block ≠ 0) :
    (cell + 1) / block = cell / block := by
  rw [Nat.succ_div, if_neg fun divides => inner (Nat.mod_eq_zero_of_dvd divides), Nat.add_zero]

theorem writeCell_ahead {cell : ℕ}
    (blank : ∀ other, cell < other → other ≤ total →
      other / block = (cell + 1) / block → (cell + 1) / block = cell / block →
        cells other = none) :
    ∀ other, nextCell total (some cell) ≤ other → other ≤ total →
      other / block = nextCell total (some cell) / block →
        writeCell total block cells cell key other = none := by
  intro other behind inside same
  rw [writeCell]
  split
  · rw [eraseBlock, if_pos same]
  · rename_i inner
    rw [not_or] at inner
    have next : nextCell total (some cell) = cell + 1 := by
      rw [nextCell]
      split
      · rename_i last
        rw [nextCell, if_pos last] at inner
        exact absurd rfl inner.2
      · rfl
    rw [next] at behind same inner
    rw [Function.update_of_ne (by omega)]
    exact blank other behind inside same (div_eq_of_not_aligned inner.1)

theorem RingLog.write (log : RingLog total block cells recent newest) (some_cell : 1 ≤ total)
    (newer : newest < key) :
    RingLog total block (writeCell total block cells (nextCell total recent) key)
      (some (nextCell total recent)) key := by
  obtain ⟨positive, within⟩ := nextCell_bounds log some_cell
  -- behind the first cell the log goes on from the one in front
  have before : 1 < nextCell total recent →
      ∃ last, recent = some last ∧ last < total ∧ nextCell total recent = last + 1 := by
    intro later
    cases recent with
    | none => exact absurd later (lt_irrefl 1)
    | some last =>
      obtain ⟨-, lastWithin⟩ := log.inside last rfl
      rw [nextCell] at later ⊢
      split at later
      · exact absurd later (lt_irrefl 1)
      · rename_i more
        exact ⟨last, rfl, by omega, if_neg more⟩
  refine ⟨?_, ?_, ?_, nofun, ?_, ?_, ?_⟩
  · rintro cell ⟨⟩
    exact ⟨positive, within⟩
  · intro other key' otherPositive otherWithin kept
    have old := writeCell_eq kept
    by_cases same : other = nextCell total recent
    · rw [same, Function.update_self] at old
      obtain rfl := Option.some.inj old
      exact ⟨by omega, le_refl _⟩
    · rw [Function.update_of_ne same] at old
      have := log.bounded other key' otherPositive otherWithin old
      omega
  · refine writeCell_ahead fun other behind inside same block => ?_
    exact log.ahead other (by omega) inside (same.trans block)
  · rintro cell ⟨⟩ inside
    rw [writeCell_kept positive inside (le_refl _), Function.update_self]
  · rintro cell ⟨⟩ inside early late earlyPositive order lateEarly
    obtain ⟨last, rfl, short, next⟩ := before (by omega)
    rw [writeCell_kept positive inside (by omega), writeCell_kept positive inside lateEarly,
      Function.update_of_ne (by omega)]
    by_cases isLast : late = nextCell total (some last)
    · rw [isLast, Function.update_self]
      by_cases direct : early = last
      · exact ⟨newest, key, direct ▸ log.latest last rfl short, rfl, newer⟩
      · obtain ⟨old, new, isOld, isNew, grows⟩ :=
          log.rises last rfl short early last earlyPositive (by omega) (le_refl _)
        have bound := log.bounded early old earlyPositive (by omega) isOld
        exact ⟨old, key, isOld, rfl, by omega⟩
    · rw [Function.update_of_ne isLast]
      exact log.rises last rfl short early late earlyPositive order (by omega)
  · rintro cell ⟨⟩ inside other key' behind otherInside kept
    have old := writeCell_eq kept
    rw [Function.update_of_ne (by omega)] at old
    rw [writeCell_kept positive inside positive]
    by_cases first : nextCell total recent = 1
    · have bound := log.bounded other key' (by omega) otherInside old
      rw [first, Function.update_self]
      exact ⟨key, rfl, by omega⟩
    · obtain ⟨last, rfl, short, next⟩ := before (by omega)
      rw [Function.update_of_ne (by omega)]
      exact log.falls last rfl short other key' (by omega) otherInside old

section

variable (log : RingLog total block cells (some last) newest)

include log

theorem RingLog.rewrite (short : last < total) :
    RingLog total block (writeCell total block cells last newest) (some last) newest := by
  obtain ⟨positive, -⟩ := log.inside last rfl
  have next : nextCell total (some last) = last + 1 := if_neg (by omega)
  have same : Function.update cells last (some newest) = cells :=
    Function.update_eq_self_iff.mpr (log.latest last rfl short).symm
  have kept : ∀ {other}, other ≤ last →
      writeCell total block cells last newest other = cells other := fun early => by
    rw [writeCell_kept positive short early, same]
  have old : ∀ {other key'}, writeCell total block cells last newest other = some key' →
      cells other = some key' := fun isKey => by
    rw [← writeCell_eq isKey, same]
  refine ⟨log.inside, fun other key' otherPositive otherInside isKey =>
    log.bounded other key' otherPositive otherInside (old isKey), ?_, nofun, ?_, ?_, ?_⟩
  · refine writeCell_ahead fun other behind inside sameBlock _ => ?_
    refine log.ahead other ?_ inside ?_
    · rw [next]
      exact behind
    · rw [next]
      exact sameBlock
  · rintro cell ⟨⟩ inside
    rw [kept (le_refl _)]
    exact log.latest last rfl short
  · rintro cell ⟨⟩ inside early late earlyPositive order lateEarly
    rw [kept (by omega), kept lateEarly]
    exact log.rises last rfl short early late earlyPositive order lateEarly
  · rintro cell ⟨⟩ inside other key' behind otherInside isKey
    rw [kept positive]
    exact log.falls last rfl short other key' behind otherInside (old isKey)

theorem RingLog.first_written (short : last < total) : ∃ first, cells 1 = some first := by
  obtain ⟨positive, -⟩ := log.inside last rfl
  by_cases one : last = 1
  · exact ⟨newest, one ▸ log.latest last rfl short⟩
  · obtain ⟨first, -, isFirst, -⟩ :=
      log.rises last rfl short 1 last (le_refl _) (by omega) (le_refl _)
    exact ⟨first, isFirst⟩

theorem RingLog.peak (short : last < total)
    (seen : ∀ cell, 1 ≤ cell → cell ≤ total → shown cell = (cells cell).getD 0) :
    Peak shown total last := by
  obtain ⟨positive, within⟩ := log.inside last rfl
  refine ⟨positive, within, fun early late earlyPositive order lateEarly => ?_,
    fun cell behind inside => ?_⟩
  · obtain ⟨old, new, isOld, isNew, grows⟩ :=
      log.rises last rfl short early late earlyPositive order lateEarly
    rw [seen early earlyPositive (by omega), seen late (by omega) (by omega), isOld, isNew]
    exact grows
  · rw [seen cell (by omega) inside, seen 1 (le_refl _) (by omega)]
    cases isKey : cells cell with
    | some key =>
      obtain ⟨first, isFirst, older⟩ := log.falls last rfl short cell key behind inside isKey
      rw [isFirst]
      exact older
    | none =>
      obtain ⟨first, isFirst⟩ := log.first_written short
      rw [isFirst]
      exact (log.bounded 1 first (le_refl _) (by omega) isFirst).1

end

theorem RingLog.first_blank (log : RingLog total block cells (some total) newest) :
    cells 1 = none := by
  obtain ⟨positive, -⟩ := log.inside total rfl
  have next : nextCell total (some total) = 1 := if_pos rfl
  exact log.ahead 1 (le_of_eq next) positive (by rw [next])

end RingLog

end Urus
