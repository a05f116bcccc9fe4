/-
This file is about reading a log from somewhere in its middle. The driver works out the
page from the offset, and where that is behind the last page it goes on from the first
one. Reading from the start of the log comes to the same place, one page after another.

Both read a stream of bytes that is fixed by the place where it begins, so they agree if
they begin at the same place. They do not when the log passes the last page: the number of
the page is one too large, and the size of such a log is one page too small.
-/

import Urus.Revo.Model

namespace Urus.DataFlashRevo

open Image

variable {chip : Chip}

/-! ### The stream -/

/-- The place behind another one, a page and a place in it. -/
def nextPlace (chip : Chip) (position : ℕ × ℕ) : ℕ × ℕ :=
  if position.2 + 1 = dfPageSize then (nextPage chip position.1, headerSize)
  else (position.1, position.2 + 1)

/-- The data from a place on. -/
def stream (chip : Chip) (flash : ℕ → Image) (position : ℕ × ℕ) (count : ℕ) : List UInt8 :=
  (List.range count).map fun index =>
    flash ((nextPlace chip)^[index] position).1 ((nextPlace chip)^[index] position).2

theorem stream_add (flash : ℕ → Image) (position : ℕ × ℕ) (first second : ℕ) :
    stream chip flash position (first + second) =
      stream chip flash position first ++
        stream chip flash ((nextPlace chip)^[first] position) second := by
  rw [stream, List.range_add, List.map_append, List.map_map, stream, stream]
  refine congrArg _ (List.map_congr_left fun index _ => ?_)
  rw [Function.comp_apply, Nat.add_comm, Function.iterate_add_apply]

variable {page place count : ℕ} {revo : Revo}

theorem nextPlace_iterate_inside (inside : place + count < dfPageSize) :
    (nextPlace chip)^[count] (page, place) = (page, place + count) := by
  induction count with
  | zero => rfl
  | succ count inductionHypothesis =>
    rw [Function.iterate_succ_apply', inductionHypothesis (by omega), nextPlace,
      if_neg (by dsimp only; omega)]
    rfl

theorem nextPlace_iterate_page {page place : ℕ} (inside : place < dfPageSize) :
    (nextPlace chip)^[dfPageSize - place] (page, place) = (nextPage chip page, headerSize) := by
  obtain ⟨count, left⟩ : ∃ count, dfPageSize - place = count + 1 :=
    Nat.exists_eq_succ_of_ne_zero (by omega)
  rw [left, Function.iterate_succ_apply', nextPlace_iterate_inside (by omega), nextPlace,
    if_pos (by dsimp only; omega)]

theorem stream_inside (chip : Chip) (flash : ℕ → Image) (inside : place + count ≤ dfPageSize) :
    stream chip flash (page, place) count = slice (flash page) place count := by
  refine List.map_congr_left fun index member => ?_
  have early := List.mem_range.mp member
  rw [nextPlace_iterate_inside (by omega)]

theorem nextPlace_iterate_pages (pages : ℕ) (page : ℕ) :
    (nextPlace chip)^[dataPageSize * pages] (page, headerSize) =
      ((nextPage chip)^[pages] page, headerSize) := by
  induction pages with
  | zero => rfl
  | succ pages inductionHypothesis =>
    rw [Nat.mul_succ, Nat.add_comm, Function.iterate_add_apply, inductionHypothesis,
      Function.iterate_succ_apply']
    exact nextPlace_iterate_page (by decide)

theorem nextPlace_iterate (page offset : ℕ) :
    (nextPlace chip)^[offset] (page, headerSize) =
      ((nextPage chip)^[offset / dataPageSize] page, offset % dataPageSize + headerSize) := by
  have small := Nat.mod_lt offset dataPageSize_pos
  have room : headerSize + offset % dataPageSize < dfPageSize := by
    rw [dataPageSize] at small ⊢
    have : headerSize ≤ dfPageSize := by decide
    omega
  rw [← Nat.mod_add_div offset dataPageSize, Function.iterate_add_apply, nextPlace_iterate_pages,
    nextPlace_iterate_inside room, Nat.mod_add_div, Nat.add_comm]

/-! ### Reading -/

/-- The buffer has the page that is being read. -/
structure Loaded (revo : Revo) : Prop where
  page : revo.buffer revo.dfReadBufferNum = revo.flash revo.dfReadPageAdr
  inside : revo.dfReadBufferIdx < dfPageSize

theorem startRead_loaded (revo : Revo) (pageAdr : ℕ) : Loaded (revo.startRead pageAdr) :=
  ⟨startRead_buffer revo pageAdr, headerSize_lt⟩

/-- What one turn of reading does. -/
theorem readTurn_loaded (chip : Chip) (loaded : Loaded revo) {n : ℕ}
    (fits : n ≤ dfPageSize - revo.dfReadBufferIdx) :
    Loaded (revo.readTurn chip n) ∧ (revo.readTurn chip n).flash = revo.flash ∧
      ((revo.readTurn chip n).dfReadPageAdr, (revo.readTurn chip n).dfReadBufferIdx) =
        (nextPlace chip)^[n] (revo.dfReadPageAdr, revo.dfReadBufferIdx) := by
  have inside := loaded.inside
  rw [Revo.readTurn]
  dsimp only
  split
  · rename_i full
    obtain rfl : n = dfPageSize - revo.dfReadBufferIdx := by omega
    rw [nextPlace_iterate_page inside]
    exact ⟨⟨Function.update_self revo.dfReadBufferNum _ _, headerSize_lt⟩, rfl, rfl⟩
  · rw [nextPlace_iterate_inside (by omega)]
    exact ⟨⟨loaded.page, by dsimp only; omega⟩, rfl, rfl⟩

/-- Reading takes the data from the place on, and goes on behind it. -/
theorem readTurns_loaded {left size : ℕ} (loaded : Loaded revo) (enough : size ≤ left) :
    (Revo.readTurns chip left revo size).1 =
        stream chip revo.flash (revo.dfReadPageAdr, revo.dfReadBufferIdx) size ∧
      Loaded (Revo.readTurns chip left revo size).2 ∧
      (Revo.readTurns chip left revo size).2.flash = revo.flash ∧
      ((Revo.readTurns chip left revo size).2.dfReadPageAdr,
          (Revo.readTurns chip left revo size).2.dfReadBufferIdx) =
        (nextPlace chip)^[size] (revo.dfReadPageAdr, revo.dfReadBufferIdx) := by
  induction left generalizing revo size with
  | zero =>
    obtain rfl := Nat.le_zero.mp enough
    exact ⟨rfl, loaded, rfl, rfl⟩
  | succ left inductionHypothesis =>
    rw [Revo.readTurns]
    split
    · rename_i none
      rw [none]
      exact ⟨rfl, loaded, rfl, rfl⟩
    · have inside := loaded.inside
      obtain ⟨n, isN⟩ : ∃ n, n = min (dfPageSize - revo.dfReadBufferIdx) size := ⟨_, rfl⟩
      dsimp only
      rw [← isN]
      have fits : n ≤ dfPageSize - revo.dfReadBufferIdx := by omega
      have shorter : size - n ≤ left := by omega
      obtain ⟨turned, flash, position⟩ := readTurn_loaded chip loaded fits
      obtain ⟨bytes, after, sameFlash, place⟩ := inductionHypothesis turned shorter
      have split : size = n + (size - n) := by omega
      refine ⟨?_, after, sameFlash.trans flash, ?_⟩
      · rw [bytes, flash, position, loaded.page, ← stream_inside chip _ (by omega),
          ← stream_add, ← split]
      · rw [place, position, ← Function.iterate_add_apply, Nat.sub_add_cancel (by omega)]

theorem readBlock_loaded (chip : Chip) (size : ℕ) (loaded : Loaded revo) :
    (revo.readBlock chip size).1 =
        stream chip revo.flash (revo.dfReadPageAdr, revo.dfReadBufferIdx) size ∧
      Loaded (revo.readBlock chip size).2 ∧ (revo.readBlock chip size).2.flash = revo.flash ∧
      ((revo.readBlock chip size).2.dfReadPageAdr,
          (revo.readBlock chip size).2.dfReadBufferIdx) =
        (nextPlace chip)^[size] (revo.dfReadPageAdr, revo.dfReadBufferIdx) :=
  readTurns_loaded loaded (le_refl _)

/-! ### Two ways to read -/

/-- Data that is read and thrown away, in pieces. -/
def discard (chip : Chip) (revo : Revo) (sizes : List ℕ) : Revo :=
  sizes.foldl (fun revo size => (revo.readBlock chip size).2) revo

theorem discard_loaded (chip : Chip) (loaded : Loaded revo) (sizes : List ℕ) :
    Loaded (discard chip revo sizes) ∧ (discard chip revo sizes).flash = revo.flash ∧
      ((discard chip revo sizes).dfReadPageAdr, (discard chip revo sizes).dfReadBufferIdx) =
        (nextPlace chip)^[sizes.sum] (revo.dfReadPageAdr, revo.dfReadBufferIdx) := by
  induction sizes generalizing revo with
  | nil => exact ⟨loaded, rfl, rfl⟩
  | cons size rest inductionHypothesis =>
    obtain ⟨-, after, flash, position⟩ := readBlock_loaded chip size loaded
    obtain ⟨last, sameFlash, place⟩ := inductionHypothesis after
    refine ⟨last, sameFlash.trans flash, ?_⟩
    rw [List.sum_cons, Nat.add_comm, Function.iterate_add_apply, ← position]
    exact place

/-- Either the buffer is known to be stale, or it has the page that is being read. Reading keeps
that. -/
def Coherent (revo : Revo) : Prop :=
  revo.logWriteStarted = true ∨ revo.buffer revo.dfReadBufferNum = revo.flash revo.dfReadPageAdr

/-- The page that `get_log_data_raw` works out. -/
def rawPage (chip : Chip) (page offset : ℕ) : ℕ :=
  if offset ≥ dataPageSize then
    let page := (page + offset / dataPageSize) % 2 ^ 16
    if page > chip.dfNumPages then (1 + page - chip.dfNumPages) % 2 ^ 16 else page
  else page

theorem place_lt (offset : ℕ) : offset % dataPageSize + headerSize < dfPageSize := by
  have small := Nat.mod_lt offset dataPageSize_pos
  have := headerSize_lt
  rw [dataPageSize] at small ⊢
  omega

theorem getLogDataRaw_eq (coherent : Coherent revo) (page offset len : ℕ) :
    (revo.getLogDataRaw chip page offset len).1 =
        stream chip revo.flash (rawPage chip page offset, offset % dataPageSize + headerSize) len ∧
      Coherent (revo.getLogDataRaw chip page offset len).2 := by
  have place : (if offset ≥ dataPageSize then
      let page := (page + offset / dataPageSize) % 2 ^ 16
      (if page > chip.dfNumPages then (1 + page - chip.dfNumPages) % 2 ^ 16 else page,
        offset % dataPageSize)
      else (page, offset)) = (rawPage chip page offset, offset % dataPageSize) := by
    rw [rawPage]
    split
    · rfl
    · rename_i first
      rw [Nat.mod_eq_of_lt (not_le.mp first)]
  rw [Revo.getLogDataRaw, place]
  dsimp only
  split
  · have started : Loaded { revo.startRead (rawPage chip page offset) with
        dfReadBufferIdx := offset % dataPageSize + headerSize } :=
      ⟨startRead_buffer revo (rawPage chip page offset), place_lt offset⟩
    obtain ⟨bytes, after, -⟩ := readBlock_loaded chip len started
    exact ⟨bytes, Or.inr after.page⟩
  · rename_i loaded
    rw [not_or, not_not] at loaded
    have placed : Loaded { revo with dfReadBufferIdx := offset % dataPageSize + headerSize } :=
      ⟨coherent.resolve_left loaded.1, place_lt offset⟩
    obtain ⟨bytes, after, -⟩ := readBlock_loaded chip len placed
    rw [← loaded.2]
    exact ⟨bytes, Or.inr after.page⟩

/-- Reading on from the start is reading the data from the place that the offset leads to. -/
theorem readBlock_discard (revo : Revo) (page len : ℕ) (sizes : List ℕ) :
    ((discard chip (revo.startRead page) sizes).readBlock chip len).1 =
      stream chip revo.flash ((nextPage chip)^[sizes.sum / dataPageSize] page,
        sizes.sum % dataPageSize + headerSize) len := by
  obtain ⟨loaded, flash, position⟩ :=
    discard_loaded chip (startRead_loaded revo page) sizes
  rw [(readBlock_loaded chip len loaded).1, flash, position, startRead_dfReadPageAdr,
    startRead_dfReadBufferIdx, nextPlace_iterate, startRead_flash]

/-- Raw data is what sequential reading gives, whatever is on the chip. -/
def Agrees (chip : Chip) (page offset len : ℕ) : Prop :=
  ∀ revo, Coherent revo → ∀ sizes : List ℕ, sizes.sum = offset →
    (revo.getLogDataRaw chip page offset len).1 =
      ((discard chip (revo.startRead page) sizes).readBlock chip len).1

/-- Both begin at the same place, or read nothing. -/
theorem agrees_iff_page (page offset len : ℕ) :
    Agrees chip page offset len ↔
      len = 0 ∨ rawPage chip page offset = (nextPage chip)^[offset / dataPageSize] page := by
  constructor
  · intro agrees
    rw [or_iff_not_imp_left]
    intro some_byte
    by_contra other
    -- a chip on which the right page has other bytes than all others
    have same := agrees ⟨fun page' _ =>
        if page' = (nextPage chip)^[offset / dataPageSize] page then 1 else 0, fun _ _ => 0,
        false, false, 0, 0, 0, 0, 0, 0, true, none⟩ (Or.inl rfl) [offset]
      (by rw [List.sum_cons, List.sum_nil, Nat.add_zero])
    rw [(getLogDataRaw_eq (Or.inl rfl) ..).1, readBlock_discard] at same
    obtain ⟨count, isLen⟩ := Nat.exists_eq_succ_of_ne_zero some_byte
    rw [isLen, stream, stream, List.range_succ_eq_map] at same
    have first := (List.cons.inj same).1
    simp [other] at first
  · rintro (none | same) revo coherent sizes rfl
    · rw [(getLogDataRaw_eq coherent ..).1, readBlock_discard, none]
      rfl
    · rw [(getLogDataRaw_eq coherent ..).1, readBlock_discard, same]

/-! ### Pages behind a page -/

theorem succ_mod {total : ℕ} (some_page : 1 ≤ total) (number : ℕ) :
    (number + 1) % total = if number % total + 1 = total then 0 else number % total + 1 := by
  have bound := Nat.mod_lt number some_page
  rw [← Nat.mod_add_mod]
  split
  · rename_i last
    rw [last, Nat.mod_self]
  · exact Nat.mod_eq_of_lt (by omega)

theorem nextPage_iterate_ring (small : chip.dfNumPages + 1 < 2 ^ 16) {page : ℕ}
    (positive : 1 ≤ page) (inside : page ≤ chip.dfNumPages) (count : ℕ) :
    (nextPage chip)^[count] page = (page + count - 1) % chip.dfNumPages + 1 := by
  induction count with
  | zero =>
    rw [Function.iterate_zero_apply, Nat.add_zero, Nat.mod_eq_of_lt (by omega)]
    omega
  | succ count inductionHypothesis =>
    have bound := Nat.mod_lt (page + count - 1) chip.some_page
    have before : page + (count + 1) - 1 = page + count - 1 + 1 := by omega
    rw [Function.iterate_succ_apply', inductionHypothesis, nextPage, Nat.mod_eq_of_lt (by omega),
      before, succ_mod chip.some_page]
    split <;> split <;> omega

theorem nextPage_iterate_large (large : 2 ^ 16 ≤ chip.dfNumPages + 1) {page : ℕ}
    (short : page < 2 ^ 16) (count : ℕ) :
    (nextPage chip)^[count] page = (page + count) % 2 ^ 16 := by
  induction count with
  | zero =>
    rw [Function.iterate_zero_apply, Nat.add_zero, Nat.mod_eq_of_lt short]
  | succ count inductionHypothesis =>
    have bound := Nat.mod_lt (page + (count + 1)) (show 0 < 2 ^ 16 by decide)
    rw [Function.iterate_succ_apply', inductionHypothesis, nextPage, Nat.mod_add_mod, Nat.add_assoc,
      if_neg (by omega)]

/-- A page of the ring is the one with a given number if they are alike up to laps. -/
theorem ring_eq_iff {total place page : ℕ} (some_page : 1 ≤ total) (positive : 1 ≤ place) :
    page = (place - 1) % total + 1 ↔ 1 ≤ page ∧ page ≤ total ∧ page ≡ place [MOD total] := by
  have bound := Nat.mod_lt (place - 1) some_page
  have same : (place - 1) % total + 1 ≡ place [MOD total] := by
    have := (Nat.mod_modEq (place - 1) total).add_right 1
    rwa [Nat.sub_add_cancel positive] at this
  constructor
  · rintro rfl
    exact ⟨by omega, by omega, same⟩
  · rintro ⟨pagePositive, inside, congruent⟩
    have equal : page - 1 ≡ (place - 1) % total [MOD total] := by
      refine Nat.ModEq.add_right_cancel' 1 ?_
      rw [Nat.sub_add_cancel pagePositive]
      exact congruent.trans same.symm
    rw [Nat.ModEq, Nat.mod_eq_of_lt (by omega), Nat.mod_eq_of_lt bound] at equal
    omega

/-- The offset does not lead past the last page, or it leads so far that the 16 bits of a page
number overflow, and happens to lead right. -/
def StaysInside (chip : Chip) (page offset : ℕ) : Prop :=
  let place := page + offset / dataPageSize
  let short := place % 2 ^ 16
  2 ^ 16 ≤ chip.dfNumPages + 1 ∨ place ≤ chip.dfNumPages ∨
    2 ^ 16 ≤ place ∧ (1 ≤ short ∧ short ≤ chip.dfNumPages ∧ short ≡ place [MOD chip.dfNumPages] ∨
      chip.dfNumPages < short ∧ short + 1 ≤ 2 * chip.dfNumPages ∧
        short + 1 ≡ place [MOD chip.dfNumPages])

/-- The number of a page behind the last one is one too large. -/
theorem behind_modEq {total short place : ℕ} (behind : total < short) :
    1 + short - total ≡ place [MOD total] ↔ short + 1 ≡ place [MOD total] := by
  have sum : 1 + short - total + total = short + 1 := by omega
  have same : (1 + short - total) % total = (short + 1) % total := by
    rw [← sum, Nat.add_mod_right]
  rw [Nat.ModEq, Nat.ModEq, same]

theorem rawPage_eq_iff {page offset : ℕ} (positive : 1 ≤ page) (inside : page ≤ chip.dfNumPages)
    (short : page < 2 ^ 16) :
    rawPage chip page offset = (nextPage chip)^[offset / dataPageSize] page ↔
      StaysInside chip page offset := by
  have bound := Nat.mod_lt (page + offset / dataPageSize) (show 0 < 2 ^ 16 by decide)
  have some_page := chip.some_page
  have reached : 1 ≤ page + offset / dataPageSize := Nat.le_add_right_of_le positive
  by_cases first : offset ≥ dataPageSize
  · rw [rawPage, if_pos first, StaysInside]
    dsimp only
    by_cases large : 2 ^ 16 ≤ chip.dfNumPages + 1
    · rw [nextPage_iterate_large large short, if_neg (by omega)]
      exact iff_of_true rfl (Or.inl large)
    · rw [nextPage_iterate_ring (by omega) positive inside, ring_eq_iff some_page reached]
      generalize page + offset / dataPageSize = place at *
      by_cases fits : place < 2 ^ 16
      · rw [Nat.mod_eq_of_lt fits]
        split
        · rename_i behind
          rw [Nat.mod_eq_of_lt (by omega), behind_modEq behind]
          refine iff_of_false ?_ (by omega)
          rintro ⟨-, within, congruent⟩
          -- a page and the next one are alike only on a chip of one page
          have divides : chip.dfNumPages ∣ 1 := by
            have := (Nat.modEq_iff_dvd' (Nat.le_succ place)).mp congruent.symm
            rwa [Nat.succ_sub (le_refl _), Nat.sub_self] at this
          have := Nat.le_of_dvd Nat.one_pos divides
          omega
        · rename_i ahead
          exact iff_of_true ⟨by omega, by omega, rfl⟩ (Or.inr (Or.inl (by omega)))
      · have far : ¬ (2 ^ 16 ≤ chip.dfNumPages + 1) ∧ ¬ place ≤ chip.dfNumPages ∧ 2 ^ 16 ≤ place := by
          omega
        simp only [far, false_or, true_and]
        split
        · rename_i behind
          rw [Nat.mod_eq_of_lt (by omega), behind_modEq behind]
          constructor
          · rintro ⟨-, within, congruent⟩
            exact Or.inr ⟨behind, by omega, congruent⟩
          · rintro (⟨-, within, -⟩ | ⟨-, within, congruent⟩)
            · omega
            · exact ⟨by omega, by omega, congruent⟩
        · rename_i ahead
          constructor
          · exact Or.inl
          · rintro (right | ⟨behind, -⟩)
            · exact right
            · exact absurd behind ahead
  · have none : offset / dataPageSize = 0 := Nat.div_eq_of_lt (not_le.mp first)
    rw [rawPage, if_neg first, StaysInside, none]
    exact iff_of_true rfl (Or.inr (Or.inl inside))

theorem logSize_wrapped {startPage endPage : ℕ} (inside : startPage ≤ chip.dfNumPages)
    (wrapped : endPage < startPage) :
    Revo.logSize chip startPage endPage ≠
      (chip.dfNumPages + 1 - startPage + endPage) * dfPageSize := by
  obtain ⟨pages, isPages⟩ : ∃ pages, chip.dfNumPages = startPage + pages :=
    Nat.exists_eq_add_of_le inside
  have counted : chip.dfNumPages + endPage + 2 ^ 32 - startPage = pages + endPage + 2 ^ 32 := by
    omega
  have real : chip.dfNumPages + 1 - startPage + endPage = pages + endPage + 1 := by omega
  rw [Revo.logSize, if_neg (not_le.mpr wrapped), counted, real]
  generalize pages + endPage = count
  rw [Nat.add_mul, Nat.add_mul_mod_self_left, Nat.add_mul]
  have := Nat.mod_le (count * dfPageSize) (2 ^ 32)
  have : 0 < 1 * dfPageSize := by decide
  omega

/-- Raw data is what sequential reading gives if and only if the offset does not lead past the last
page, and the size of a log is that of its pages if and only if the log does not pass it: a page
behind the last one is given a number that is one too large, and the size of a log that passes the
last page is one page too small. -/
theorem randomAccess_iff {page offset len startPage endPage : ℕ} (positive : 1 ≤ page)
    (inside : page ≤ chip.dfNumPages) (short : page < 2 ^ 16)
    (startInside : startPage ≤ chip.dfNumPages) :
    Agrees chip page offset len ∧ (endPage < startPage →
        Revo.logSize chip startPage endPage =
          (chip.dfNumPages + 1 - startPage + endPage) * dfPageSize) ↔
      (len = 0 ∨ StaysInside chip page offset) ∧ startPage ≤ endPage := by
  rw [agrees_iff_page, rawPage_eq_iff positive inside short]
  refine and_congr_right fun _ => ⟨fun size => ?_, fun straight wrapped => ?_⟩
  · by_contra wrapped
    exact logSize_wrapped startInside (not_le.mp wrapped) (size (not_le.mp wrapped))
  · exact absurd straight (not_le.mpr wrapped)

/-- A chip of four pages. -/
def smallChip : Chip := ⟨4, 2, four_pages, two_erased⟩

/-- The last page but one of the chip is read to the end of the last one. -/
theorem randomAccess_iff_last :
    Agrees smallChip 3 260 200 ∧
      (4 < 3 → Revo.logSize smallChip 3 4 = (4 + 1 - 3 + 4) * dfPageSize) :=
  (@randomAccess_iff smallChip 3 260 200 3 4 (by decide) (by decide) (by decide) (by decide)).mpr
    ⟨Or.inr (Or.inr (Or.inl (by decide))), by decide⟩

/-- A chip whose pages are filled with their numbers. -/
def numbered : Revo :=
  ⟨fun page _ => UInt8.ofNat page, fun _ _ => 0, false, false, 0, 0, 0, 0, 0, 0, true, none⟩

/-- A log that begins on the last page goes on on the first one, and is read on the second one. It
has two pages, and the size of one. -/
theorem not_agrees_wrapped :
    (numbered.getLogDataRaw smallChip 4 252 1).1 = [2] ∧
      ((discard smallChip (numbered.startRead 4) [252]).readBlock smallChip 1).1 = [1] ∧
      ¬ Agrees smallChip 4 252 1 ∧ Revo.logSize smallChip 4 1 = 256 ∧
      Revo.logSize smallChip 4 1 ≠ 2 * dfPageSize := by
  have raw : (numbered.getLogDataRaw smallChip 4 252 1).1 = [2] := by decide +kernel
  have sequential :
      ((discard smallChip (numbered.startRead 4) [252]).readBlock smallChip 1).1 = [1] := by
    decide +kernel
  refine ⟨raw, sequential, fun agrees => ?_, by decide, by decide⟩
  have same := agrees numbered (Or.inl rfl) [252] rfl
  rw [raw, sequential] at same
  exact absurd same (by decide)

end Urus.DataFlashRevo
