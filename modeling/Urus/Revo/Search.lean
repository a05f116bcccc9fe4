/-
This file is about the search for the page that was written last. The pages of the chip
are a log on a ring, whose keys are the headers. As long as the last page of the chip is
not the one that was written last, the search finds the right page, also when the ring has
been written round many times.

Behind the last page the first one is erased, and then the search takes it for the newest
of all: an erased page has the largest number, which is put right for every page of the
search but the first. A log that is started then begins with the first number again.
-/

import Urus.Revo.Model
import Urus.Lib.RingLog
import Urus.Lib.Trace

namespace Urus.DataFlashRevo

open Image

variable {chip : Chip}

/-! ### Headers as keys -/

/-- The header of an erased page. -/
def erasedHeader : PageHeader := ⟨0xFFFF, 0xFFFF⟩

/-- A header as one number. -/
def PageHeader.key (header : PageHeader) : ℕ :=
  header.fileNumber.toNat * 2 ^ 16 + header.filePage.toNat

/-- The key of a page that is not erased. -/
def cellOf (page : Image) : Option ℕ :=
  if headerAt page = erasedHeader then none else some (headerAt page).key

/-- The pages as cells with keys. -/
def cells (flash : ℕ → Image) (page : ℕ) : Option ℕ := cellOf (flash page)

/-- The key of a page as the search sees it. -/
def shownKey (flash : ℕ → Image) (page : ℕ) : ℕ :=
  if (headerAt (flash page)).key ≥ 0xFFFF0000 then 0 else (headerAt (flash page)).key

theorem header_of_key {flash : ℕ → Image} {page key : ℕ} (isKey : cells flash page = some key) :
    (headerAt (flash page)).key = key := by
  rw [cells, cellOf] at isKey
  split at isKey
  · exact nomatch isKey
  · exact Option.some.inj isKey

theorem header_of_blank {flash : ℕ → Image} {page : ℕ} (blank : cells flash page = none) :
    headerAt (flash page) = erasedHeader := by
  rw [cells, cellOf] at blank
  split at blank
  · assumption
  · exact nomatch blank

/-- Headers have their bytes from their numbers. -/
theorem agree_of_headerAt {first second : Image} (same : headerAt first = headerAt second) :
    Agree first second 0 headerSize := by
  have bytes : ∀ place, wordAt first place = wordAt second place →
      first place = second place ∧ first (place + 1) = second (place + 1) := by
    intro place equal
    have low := (first place).toNat_lt
    have high := (first (place + 1)).toNat_lt
    have low' := (second place).toNat_lt
    have high' := (second (place + 1)).toNat_lt
    have numbers := congrArg UInt16.toNat equal
    rw [wordAt, wordAt, UInt16.toNat_ofNat', UInt16.toNat_ofNat'] at numbers
    exact ⟨UInt8.toNat_inj.mp (by omega), UInt8.toNat_inj.mp (by omega)⟩
  obtain ⟨byte0, byte1⟩ := bytes 0 (congrArg PageHeader.fileNumber same)
  obtain ⟨byte2, byte3⟩ := bytes 2 (congrArg PageHeader.filePage same)
  intro place _ inside
  have cases : place = 0 ∨ place = 1 ∨ place = 2 ∨ place = 3 := by
    change place < 4 at inside
    omega
  rcases cases with rfl | rfl | rfl | rfl
  · exact byte0
  · exact byte1
  · exact byte2
  · exact byte3

/-- A page that is programmed over an erased header, or over its own, has the new one. -/
theorem headerAt_and {old new : Image}
    (clears : headerAt old = erasedHeader ∨ headerAt old = headerAt new) :
    headerAt (fun place => old place &&& new place) = headerAt new := by
  refine headerAt_congr fun place low inside => ?_
  obtain blank | same := clears
  · have erased : headerAt old = headerAt fun _ => 0xFF := blank
    rw [agree_of_headerAt erased place low inside, byte_and_blank]
  · rw [agree_of_headerAt same place low inside, UInt8.and_self]

/-- A header that was written is read back. -/
theorem headerAt_put (image : Image) (header : PageHeader) :
    headerAt (put image 0 header.bytes) = header := by
  have parts : put image 0 header.bytes =
      put (put image 0 (wordBytes header.fileNumber)) 2 (wordBytes header.filePage) :=
    (put_append image 0 (wordBytes header.fileNumber) (wordBytes header.filePage)).symm
  have apart : ∀ base : Image, wordAt (put base 2 (wordBytes header.filePage)) 0 = wordAt base 0 := by
    intro base
    rw [wordAt, wordAt, put_outside _ 2 _ 0 (Or.inl (by decide)),
      put_outside _ 2 _ (0 + 1) (Or.inl (by decide))]
  rw [headerAt, parts, apart, wordAt_put, wordAt_put]

/-! ### The search -/

variable {revo : Revo} {newest last : ℕ} {recent : Option ℕ}

theorem startRead_header (revo : Revo) (page : ℕ) :
    (⟨(revo.startRead page).dfFileNumber, (revo.startRead page).dfFilePage⟩ : PageHeader) =
      headerAt (revo.flash page) := by
  rw [← startRead_buffer revo page]
  rfl

theorem startRead_hash (revo : Revo) (page : ℕ) :
    (revo.startRead page).hash = (headerAt (revo.flash page)).key :=
  congrArg PageHeader.key (startRead_header revo page)

theorem startRead_shownHash (revo : Revo) (page : ℕ) :
    (revo.startRead page).shownHash = shownKey revo.flash page := by
  rw [Revo.shownHash, startRead_hash, shownKey]

theorem shownKey_lt (flash : ℕ → Image) (page : ℕ) : shownKey flash page < 0xFFFF0000 := by
  rw [shownKey]
  split
  · decide
  · rename_i shown
    exact not_le.mp shown

theorem searchTurns_halve (left : ℕ) (revo : Revo) (bottom top bottomHash : ℕ) :
    (Revo.searchTurns left revo bottom top bottomHash).2 =
        halve (shownKey revo.flash) left bottom top bottomHash ∧
      (Revo.searchTurns left revo bottom top bottomHash).1.flash = revo.flash ∧
      (Revo.searchTurns left revo bottom top bottomHash).1.finished = revo.finished := by
  induction left generalizing revo bottom top bottomHash with
  | zero => exact ⟨rfl, rfl, rfl⟩
  | succ left inductionHypothesis =>
    rw [Revo.searchTurns, halve]
    dsimp only
    rw [startRead_shownHash]
    split
    · split
      · exact inductionHypothesis (revo.startRead ((top + bottom) / 2)) ..
      · exact inductionHypothesis (revo.startRead ((top + bottom) / 2)) ..
    · exact ⟨rfl, rfl, rfl⟩

/-- The search changes nothing on the chip. -/
theorem findLastPage_flash (chip : Chip) (revo : Revo) :
    (revo.findLastPage chip).2.flash = revo.flash ∧
      (revo.findLastPage chip).2.finished = revo.finished :=
  (searchTurns_halve _ (revo.startRead 1) ..).2

/-- What the search finds. -/
theorem findLastPage_eq (revo : Revo) :
    (revo.findLastPage chip).1 =
      let bounds := halve (shownKey revo.flash) (chip.dfNumPages % 2 ^ 16) 1
        (chip.dfNumPages % 2 ^ 16) (headerAt (revo.flash 1)).key
      if shownKey revo.flash bounds.2.1 > bounds.2.2 then bounds.2.1 else bounds.1 := by
  have found := searchTurns_halve (chip.dfNumPages % 2 ^ 16) (revo.startRead 1) 1
    (chip.dfNumPages % 2 ^ 16) (revo.startRead 1).hash
  rw [Revo.findLastPage]
  dsimp only
  generalize Revo.searchTurns (chip.dfNumPages % 2 ^ 16) (revo.startRead 1) 1
    (chip.dfNumPages % 2 ^ 16) (revo.startRead 1).hash = result at found ⊢
  obtain ⟨after, bottom, top, key⟩ := result
  obtain ⟨bounds, flash, -⟩ := found
  rw [startRead_hash, startRead_flash] at bounds
  dsimp only at bounds flash ⊢
  rw [startRead_shownHash, flash, startRead_flash, ← bounds]

theorem findLastPage_erased (erased : cells revo.flash 1 = none) :
    (revo.findLastPage chip).1 = 1 := by
  have header := header_of_blank erased
  have older : ∀ page, shownKey revo.flash page < erasedHeader.key := fun page =>
    lt_trans (shownKey_lt revo.flash page) (by decide)
  obtain ⟨top, bounds⟩ : ∃ top, halve (shownKey revo.flash) (chip.dfNumPages % 2 ^ 16) 1
      (chip.dfNumPages % 2 ^ 16) erasedHeader.key = (1, top, erasedHeader.key) :=
    halve_stays older
  rw [findLastPage_eq, header, bounds]
  exact if_neg (not_lt.mpr (le_of_lt (older top)))

theorem shownKey_eq (log : RingLog chip.dfNumPages chip.erasePages (cells revo.flash) recent newest)
    (real : newest < 0xFFFF0000) {page : ℕ} (positive : 1 ≤ page)
    (inside : page ≤ chip.dfNumPages) :
    shownKey revo.flash page = (cells revo.flash page).getD 0 := by
  by_cases erased : headerAt (revo.flash page) = erasedHeader
  · rw [cells, cellOf, if_pos erased, shownKey, erased, if_pos (by decide)]
    rfl
  · have isKey : cells revo.flash page = some (headerAt (revo.flash page)).key := if_neg erased
    have bound := log.bounded page _ positive inside isKey
    rw [isKey, shownKey, if_neg (by omega)]
    rfl

theorem findLastPage_log
    (log : RingLog chip.dfNumPages chip.erasePages (cells revo.flash) (some last) newest)
    (real : newest < 0xFFFF0000) (small : chip.dfNumPages < 2 ^ 16)
    (short : last < chip.dfNumPages) : (revo.findLastPage chip).1 = last := by
  obtain ⟨positive, -⟩ := log.inside last rfl
  have peak := log.peak short fun page => shownKey_eq log real
  obtain ⟨bottom, top, bounds, found⟩ := peak.found (Nat.sub_le chip.dfNumPages 1)
  have first : (headerAt (revo.flash 1)).key = shownKey revo.flash 1 := by
    obtain ⟨key, isFirst⟩ := log.first_written short
    rw [shownKey_eq log real (le_refl 1) (by omega), isFirst]
    exact header_of_key isFirst
  rw [findLastPage_eq, Nat.mod_eq_of_lt small, first, bounds]
  exact found

/-! ### Writing -/

/-- The state of writing: what is in the buffer has its header, and goes to the next page with a
newer one, or to the last page with the header that is there. -/
structure Writing (chip : Chip) (newest : ℕ) (revo : Revo) : Prop where
  place : revo.dfBufferIdx = 0 ∨ headerSize ≤ revo.dfBufferIdx
  within : revo.dfBufferIdx < dfPageSize
  header : revo.dfBufferIdx ≠ 0 →
    headerAt (revo.buffer revo.dfBufferNum) = ⟨revo.dfFileNumber, revo.dfFilePage⟩
  numbered : revo.dfFileNumber ≠ 0 ∧ revo.dfFileNumber.toNat < 0xFFFF
  counted : revo.dfFilePage ≠ 0
  target : revo.dfPageAdr = nextCell chip.dfNumPages revo.finished ∧ newest < revo.hash ∨
    revo.finished = some revo.dfPageAdr ∧ revo.dfPageAdr < chip.dfNumPages ∧ revo.hash = newest

/-- The pages are a log on a ring, and what is written goes on with it. -/
structure Kept (chip : Chip) (newest : ℕ) (revo : Revo) : Prop where
  log : RingLog chip.dfNumPages chip.erasePages (cells revo.flash) revo.finished newest
  real : newest < 0xFFFF0000
  fresh : revo.finished = none → newest = 0
  counted : ∀ page, revo.finished = some page → 2 ^ 16 ≤ newest ∧ newest % 2 ^ 16 ≠ 0
  writing : revo.logWriteStarted = true → Writing chip newest revo

/-- How many pages are finished when data of a size is written. -/
def finishedPages (revo : Revo) (size : ℕ) : ℕ :=
  (revo.dfBufferIdx - headerSize + size) / dataPageSize

section Turn

variable {data : List UInt8} {size : ℕ}

/-- Filling the buffer changes the buffer and the place in it. -/
theorem fillBuffer_kept (revo : Revo) (data : List UInt8) :
    (revo.fillBuffer data).flash = revo.flash ∧ (revo.fillBuffer data).finished = revo.finished ∧
      (revo.fillBuffer data).dfBufferNum = revo.dfBufferNum ∧
      (revo.fillBuffer data).dfPageAdr = revo.dfPageAdr ∧
      (revo.fillBuffer data).dfFileNumber = revo.dfFileNumber ∧
      (revo.fillBuffer data).dfFilePage = revo.dfFilePage ∧
      (revo.fillBuffer data).logWriteStarted = revo.logWriteStarted := by
  rw [Revo.fillBuffer]
  dsimp only
  split <;> exact ⟨rfl, rfl, rfl, rfl, rfl, rfl, rfl⟩

theorem fillBuffer_header (data : List UInt8) (writing : Writing chip newest revo) :
    headerSize ≤ (revo.fillBuffer data).dfBufferIdx ∧
      headerAt ((revo.fillBuffer data).buffer revo.dfBufferNum) =
        ⟨revo.dfFileNumber, revo.dfFilePage⟩ := by
  rw [Revo.fillBuffer]
  dsimp only
  split
  · refine ⟨Nat.le_add_left _ _, ?_⟩
    rename_i start
    rw [Revo.blockWrite]
    dsimp only
    rw [Function.update_self, start]
    refine (headerAt_congr fun place _ inside => ?_).trans
      (headerAt_put (revo.buffer revo.dfBufferNum) ⟨revo.dfFileNumber, revo.dfFilePage⟩)
    exact put_outside _ _ _ _ (Or.inl inside)
  · rename_i inner
    have place := writing.place.resolve_left inner
    refine ⟨le_trans place (Nat.le_add_right _ _), ?_⟩
    rw [Revo.blockWrite]
    dsimp only
    rw [Function.update_self, ← writing.header inner, put_nil]
    refine headerAt_congr fun place' _ inside => ?_
    exact put_outside _ _ _ _ (Or.inl (lt_of_lt_of_le inside place))

/-- Writing a page and preparing what comes behind it is a write to the ring. -/
theorem finishWrite_cells {filled : Revo} (small : chip.dfNumPages + 1 < 2 ^ 16)
    (inside : filled.dfPageAdr ≤ chip.dfNumPages) {header : PageHeader}
    (clears : headerAt (filled.flash filled.dfPageAdr) = erasedHeader ∨
      headerAt (filled.flash filled.dfPageAdr) = header)
    (new : headerAt (filled.buffer filled.dfBufferNum) = header) (real : header ≠ erasedHeader) :
    (Revo.finishWrite chip filled).dfPageAdr = nextCell chip.dfNumPages (some filled.dfPageAdr) ∧
      cells (Revo.finishWrite chip filled).flash =
        writeCell chip.dfNumPages chip.erasePages (cells filled.flash) filled.dfPageAdr
          header.key := by
  have next : nextPage chip filled.dfPageAdr = nextCell chip.dfNumPages (some filled.dfPageAdr) := by
    rw [nextPage, nextCell, Nat.mod_eq_of_lt (by omega)]
    split <;> split <;> omega
  have written : cells (filled.bufferToPage filled.dfBufferNum filled.dfPageAdr).flash =
      Function.update (cells filled.flash) filled.dfPageAdr (some header.key) := by
    have page := headerAt_and (clears.imp_right fun same => same.trans new.symm)
    rw [new] at page
    funext other
    rw [cells, Revo.bufferToPage]
    dsimp only
    by_cases same : other = filled.dfPageAdr
    · rw [same, Function.update_self, Function.update_self, cellOf, page, if_neg real]
    · rw [Function.update_of_ne same, Function.update_of_ne same, cells]
  have erased : ∀ (revo : Revo) page, cells (Revo.pageErase chip revo page).flash =
      eraseBlock chip.erasePages (cells revo.flash) page := by
    intro revo page
    funext other
    rw [eraseBlock, cells, Revo.pageErase]
    dsimp only
    split
    · exact if_pos (by decide)
    · rfl
  refine ⟨next, ?_⟩
  rw [Revo.finishWrite, writeCell, ← written]
  dsimp only
  rw [next]
  split
  · rw [erased]
  · rfl

theorem key_inj {first second : PageHeader} (same : first.key = second.key) : first = second := by
  have bound := first.filePage.toNat_lt
  have bound' := second.filePage.toNat_lt
  rw [PageHeader.key, PageHeader.key] at same
  have file := UInt16.toNat_inj.mp (show first.fileNumber.toNat = second.fileNumber.toNat by omega)
  have page := UInt16.toNat_inj.mp (show first.filePage.toNat = second.filePage.toNat by omega)
  cases first
  cases second
  exact PageHeader.mk.injEq .. ▸ ⟨file, page⟩

/-- The page that is written takes the header, and the log goes on with it. -/
theorem Writing.page (writing : Writing chip newest revo)
    (log : RingLog chip.dfNumPages chip.erasePages (cells revo.flash) revo.finished newest) :
    revo.dfPageAdr ≤ chip.dfNumPages ∧
      (headerAt (revo.flash revo.dfPageAdr) = erasedHeader ∨
        headerAt (revo.flash revo.dfPageAdr) = ⟨revo.dfFileNumber, revo.dfFilePage⟩) ∧
      RingLog chip.dfNumPages chip.erasePages
        (writeCell chip.dfNumPages chip.erasePages (cells revo.flash) revo.dfPageAdr revo.hash)
        (some revo.dfPageAdr) revo.hash := by
  obtain ⟨next, newer⟩ | ⟨again, short, same⟩ := writing.target
  · obtain ⟨positive, inside⟩ := nextCell_bounds log chip.some_page
    have blank := log.ahead _ (le_refl _) inside rfl
    rw [next]
    exact ⟨inside, Or.inl (header_of_blank blank), log.write chip.some_page newer⟩
  · rw [again] at log
    have latest := log.latest _ rfl short
    rw [same]
    exact ⟨le_of_lt short, Or.inr (key_inj ((header_of_key latest).trans same.symm)),
      log.rewrite short⟩

theorem finishWrite_kept (chip : Chip) (revo : Revo) :
    (Revo.finishWrite chip revo).dfFileNumber = revo.dfFileNumber ∧
      (Revo.finishWrite chip revo).logWriteStarted = revo.logWriteStarted := by
  rw [Revo.finishWrite]
  dsimp only
  split <;> exact ⟨rfl, rfl⟩

theorem fillBuffer_counts (writing : Writing chip newest revo)
    (short : data.length = revo.taken size) :
    (revo.fillBuffer data).dfBufferIdx ≤ dfPageSize ∧ data.length ≤ size ∧
      (revo.fillBuffer data).dfBufferIdx - headerSize =
        revo.dfBufferIdx - headerSize + data.length := by
  have room := writing.within
  have place := writing.place
  have parts : dataPageSize + headerSize = dfPageSize := by decide
  rw [Revo.taken] at short
  rw [Revo.fillBuffer]
  dsimp only at short ⊢
  split
  · rename_i start
    rw [if_pos start] at short
    dsimp only
    omega
  · rename_i inner
    rw [if_neg inner] at short
    dsimp only
    omega

theorem finishedPages_full (writing : Writing chip newest revo)
    (short : data.length = revo.taken size) (full : (revo.fillBuffer data).dfBufferIdx = dfPageSize) :
    finishedPages revo size = (size - data.length) / dataPageSize + 1 := by
  obtain ⟨-, less, counts⟩ := fillBuffer_counts writing short
  rw [full] at counts
  rw [finishedPages, ← Nat.add_div_right _ dataPageSize_pos]
  congr 1
  change 252 = _ at counts
  change _ = _ + 252
  omega

/-- A buffer that does not get full still belongs to the same page. -/
theorem partTurn_kept (kept : Kept chip newest revo) (started : revo.logWriteStarted = true)
    (short : data.length = revo.taken size)
    (part : (revo.fillBuffer data).dfBufferIdx ≠ dfPageSize) :
    Kept chip newest (revo.fillBuffer data) := by
  have writing := kept.writing started
  obtain ⟨flash, finished, bufferNum, pageAdr, fileNumber, filePage, -⟩ :=
    fillBuffer_kept revo data
  obtain ⟨place, header⟩ := fillBuffer_header data writing
  obtain ⟨fits, -, -⟩ := fillBuffer_counts writing short
  refine ⟨?_, kept.real, ?_, ?_, fun _ => ⟨Or.inr place, lt_of_le_of_ne fits part, fun _ => ?_, ?_,
    ?_, ?_⟩⟩
  · rw [flash, finished]
    exact kept.log
  · rw [finished]
    exact kept.fresh
  · rw [finished]
    exact kept.counted
  · rw [bufferNum, fileNumber, filePage]
    exact header
  · rw [fileNumber]
    exact writing.numbered
  · rw [filePage]
    exact writing.counted
  · rw [pageAdr, finished, Revo.hash, fileNumber, filePage]
    exact writing.target

theorem fullTurn_kept (small : chip.dfNumPages + 1 < 2 ^ 16) (kept : Kept chip newest revo)
    (started : revo.logWriteStarted = true) (data : List UInt8)
    (larger : (revo.dfFilePage + 1).toNat = revo.dfFilePage.toNat + 1) :
    Kept chip revo.hash { Revo.finishWrite chip (revo.fillBuffer data) with
      dfFilePage := (revo.fillBuffer data).dfFilePage + 1 } := by
  have writing := kept.writing started
  obtain ⟨flash, -, bufferNum, pageAdr, fileNumber, filePage, -⟩ := fillBuffer_kept revo data
  obtain ⟨-, header⟩ := fillBuffer_header data writing
  obtain ⟨numbered, real⟩ := writing.numbered
  have below := revo.dfFilePage.toNat_lt
  have positive : 1 ≤ revo.dfFileNumber.toNat :=
    Nat.one_le_iff_ne_zero.mpr fun zero => numbered (UInt16.toNat_inj.mp zero)
  have pages : revo.dfFilePage.toNat ≠ 0 := fun zero => writing.counted (UInt16.toNat_inj.mp zero)
  obtain ⟨inside, clears, log⟩ := writing.page kept.log
  have notErased : (⟨revo.dfFileNumber, revo.dfFilePage⟩ : PageHeader) ≠ erasedHeader := by
    intro same
    have file : revo.dfFileNumber = 0xFFFF := congrArg PageHeader.fileNumber same
    rw [file] at real
    exact absurd real (by decide)
  rw [← pageAdr] at inside
  rw [← flash, ← pageAdr] at clears
  rw [← bufferNum] at header
  obtain ⟨next, onRing⟩ := finishWrite_cells small inside clears header notErased
  rw [flash, pageAdr] at onRing
  have files := (finishWrite_kept chip (revo.fillBuffer data)).1.trans fileNumber
  have last : (Revo.finishWrite chip (revo.fillBuffer data)).finished = some revo.dfPageAdr :=
    congrArg some pageAdr
  refine ⟨?_, ?_, nofun, fun _ _ => ?_, fun _ => ⟨Or.inl rfl, ?_, fun other => absurd rfl other,
    ?_, fun zero => ?_, Or.inl ⟨next, ?_⟩⟩⟩
  · dsimp only
    rw [onRing, last]
    exact log
  · rw [Revo.hash]
    omega
  · rw [Revo.hash]
    omega
  · exact Nat.lt_of_le_of_lt (Nat.zero_le _) headerSize_lt
  · dsimp only
    rw [files]
    exact writing.numbered
  · have none : (revo.dfFilePage + 1).toNat = 0 := congrArg UInt16.toNat (filePage ▸ zero)
    omega
  · rw [Revo.hash, Revo.hash]
    dsimp only
    rw [files, filePage, larger]
    omega

/-- A turn goes on with the log. -/
theorem writeTurn_kept (small : chip.dfNumPages + 1 < 2 ^ 16) (kept : Kept chip newest revo)
    (started : revo.logWriteStarted = true) (short : data.length = revo.taken size)
    (room : revo.dfFilePage.toNat + finishedPages revo size < 2 ^ 16) :
    ∃ newest', Kept chip newest' (revo.writeTurn chip data) ∧
      (revo.writeTurn chip data).logWriteStarted = true ∧
      (revo.writeTurn chip data).dfFilePage.toNat +
        finishedPages (revo.writeTurn chip data) (size - data.length) < 2 ^ 16 := by
  have writing := kept.writing started
  obtain ⟨-, -, -, -, -, filePage, stays⟩ := fillBuffer_kept revo data
  rw [Revo.writeTurn]
  dsimp only
  split
  · rename_i full
    rw [finishedPages_full writing short full] at room
    have larger : (revo.dfFilePage + 1).toNat = _ :=
      uint16_succ (lt_of_le_of_lt (Nat.add_le_add_left (Nat.le_add_left 1 _) _) room)
    refine ⟨revo.hash, fullTurn_kept small kept started data larger,
      ((finishWrite_kept chip _).2.trans stays).trans started, ?_⟩
    rw [finishedPages]
    dsimp only
    rw [filePage, larger]
    change _ + (0 - headerSize + (size - data.length)) / dataPageSize < _
    rw [Nat.zero_sub, Nat.zero_add]
    omega
  · rename_i part
    obtain ⟨-, less, counts⟩ := fillBuffer_counts writing short
    refine ⟨newest, partTurn_kept kept started short part, stays.trans started, ?_⟩
    rw [finishedPages, counts, filePage, Nat.add_assoc, Nat.add_sub_of_le less]
    exact room

theorem writeTurns_kept (small : chip.dfNumPages + 1 < 2 ^ 16) {left : ℕ} {before : List Revo}
    (kept : Kept chip newest revo) (started : revo.logWriteStarted = true)
    (room : revo.dfFilePage.toNat + finishedPages revo data.length < 2 ^ 16)
    (earlier : ∀ moment ∈ before, ∃ newest, Kept chip newest moment) :
    ∀ moment ∈ Revo.writeTurns chip left revo data before, ∃ newest, Kept chip newest moment := by
  induction left generalizing revo data before newest with
  | zero => exact earlier
  | succ left inductionHypothesis =>
    rw [Revo.writeTurns]
    split
    · exact earlier
    · have some_data : revo.taken data.length ≤ data.length := by
        rw [Revo.taken]
        split <;> omega
      have short : (data.take (revo.taken data.length)).length = revo.taken data.length := by
        rw [List.length_take]
        omega
      obtain ⟨newest', next, goesOn, more⟩ := writeTurn_kept small kept started short room
      rw [short, ← List.length_drop] at more
      refine inductionHypothesis next goesOn more fun moment member => ?_
      obtain rfl | old := List.mem_cons.mp member
      · exact ⟨newest', next⟩
      · exact earlier moment old

end Turn

/-! ### New logs -/

/-- Where a log begins, its number and its first page. -/
def logStart (found : ℕ) (header : PageHeader) : UInt16 × ℕ :=
  if header.fileNumber = 0 ∨ header.fileNumber = 0xFFFF then (1, 1)
  else if header.filePage ≤ 1 then (header.fileNumber, found)
  else (header.fileNumber + 1, ((if found = 0xFFFF then 0 else found) + 1) % 2 ^ 16)

/-- What a new log has. -/
structure Started (revo after : Revo) (start : UInt16 × ℕ) : Prop where
  flash : after.flash = revo.flash
  finished : after.finished = revo.finished
  idx : after.dfBufferIdx = 0
  filePage : after.dfFilePage = 1
  number : after.dfFileNumber = start.1
  page : after.dfPageAdr = start.2

theorem findLastLog_header (chip : Chip) (revo : Revo) :
    (revo.findLastLog chip).1 = (revo.findLastLog chip).2.dfFileNumber ∧
      (⟨(revo.findLastLog chip).2.dfFileNumber, (revo.findLastLog chip).2.dfFilePage⟩ :
        PageHeader) = headerAt (revo.flash (revo.findLastPage chip).1) ∧
      (revo.findLastLog chip).2.flash = revo.flash ∧
      (revo.findLastLog chip).2.finished = revo.finished := by
  obtain ⟨flash, finished⟩ := findLastPage_flash chip revo
  rw [Revo.findLastLog]
  generalize revo.findLastPage chip = found at flash finished ⊢
  obtain ⟨page, after⟩ := found
  refine ⟨rfl, ?_, flash, finished⟩
  rw [← flash]
  exact startRead_header after page

theorem startNewLog_started (chip : Chip) (revo : Revo) :
    Started revo (revo.startNewLog chip).2 (logStart (revo.findLastPage chip).1
      (headerAt (revo.flash (revo.findLastPage chip).1))) := by
  obtain ⟨flash, finished⟩ := findLastPage_flash chip revo
  obtain ⟨number, header, flash', finished'⟩ := findLastLog_header chip
    ((revo.findLastPage chip).2.startRead (revo.findLastPage chip).1)
  -- the second search finds what the first one found
  have again : (((revo.findLastPage chip).2.startRead (revo.findLastPage chip).1).findLastPage
      chip).1 = (revo.findLastPage chip).1 := by
    rw [findLastPage_eq, startRead_flash, flash, ← findLastPage_eq]
  rw [again, startRead_flash, flash] at header
  rw [startRead_flash, flash] at flash'
  rw [← header]
  rw [Revo.startNewLog]
  generalize revo.findLastPage chip = found at number header flash' finished finished' ⊢
  obtain ⟨page, searched⟩ := found
  dsimp only at number flash' finished' ⊢
  generalize Revo.findLastLog chip _ = result at number flash' finished' ⊢
  obtain ⟨lastLog, after⟩ := result
  obtain rfl : lastLog = after.dfFileNumber := number
  dsimp only at flash' ⊢
  rw [logStart]
  dsimp only
  split
  · exact ⟨flash', finished'.trans finished, rfl, rfl, rfl, rfl⟩
  · split
    · exact ⟨flash', finished'.trans finished, rfl, rfl, rfl, rfl⟩
    · exact ⟨flash', finished'.trans finished, rfl, rfl, rfl, rfl⟩

/-- Unless the last page of the chip was written last, a new log begins on the next page with a
newer header, or again on the page of a log that has no other. -/
theorem logStart_target (small : chip.dfNumPages + 1 < 2 ^ 16) (kept : Kept chip newest revo)
    (short : revo.finished ≠ some chip.dfNumPages) {start : UInt16 × ℕ}
    (isStart : start = logStart (revo.findLastPage chip).1
      (headerAt (revo.flash (revo.findLastPage chip).1))) :
    start.1 ≠ 0 ∧ (start.2 = nextCell chip.dfNumPages revo.finished ∧
        newest < start.1.toNat * 2 ^ 16 + 1 ∨
      revo.finished = some start.2 ∧ start.2 < chip.dfNumPages ∧
        start.1.toNat * 2 ^ 16 + 1 = newest) := by
  have log := kept.log
  have real := kept.real
  cases last : revo.finished with
  | none =>
    have blank : cells revo.flash 1 = none := log.empty last 1 (le_refl 1) chip.some_page
    rw [findLastPage_erased blank, header_of_blank blank] at isStart
    obtain rfl : start = (1, 1) := isStart
    refine ⟨by decide, Or.inl ⟨rfl, ?_⟩⟩
    rw [kept.fresh last]
    exact Nat.succ_pos _
  | some page =>
    obtain ⟨file, counted⟩ := kept.counted page last
    obtain ⟨positive, within⟩ := log.inside page last
    have inside : page < chip.dfNumPages := lt_of_le_of_ne within fun same => short (same ▸ last)
    have key := header_of_key (log.latest page last inside)
    rw [last] at log
    rw [findLastPage_log log real (by omega) inside] at isStart
    have pages := (headerAt (revo.flash page)).filePage.toNat_lt
    rw [PageHeader.key] at key
    have notFirst : ¬((headerAt (revo.flash page)).fileNumber = 0 ∨
        (headerAt (revo.flash page)).fileNumber = 0xFFFF) := by
      rintro (zero | full)
      · rw [zero] at key
        change 0 * _ + _ = _ at key
        omega
      · rw [full] at key
        change 0xFFFF * _ + _ = _ at key
        omega
    rw [logStart, if_neg notFirst] at isStart
    split at isStart
    · rename_i one
      have le_one : (headerAt (revo.flash page)).filePage.toNat ≤ 1 := one
      subst isStart
      refine ⟨fun zero => notFirst (Or.inl zero), Or.inr ⟨rfl, inside, ?_⟩⟩
      dsimp only
      omega
    · have larger : ((headerAt (revo.flash page)).fileNumber + 1).toNat =
          (headerAt (revo.flash page)).fileNumber.toNat + 1 :=
        uint16_succ (by omega)
      subst isStart
      refine ⟨fun zero => ?_, Or.inl ⟨?_, ?_⟩⟩
      · rw [congrArg UInt16.toNat zero] at larger
        exact absurd larger (Nat.succ_ne_zero _).symm
      · dsimp only
        rw [if_neg (by omega), Nat.mod_eq_of_lt (by omega), nextCell, if_neg (by omega)]
      · dsimp only
        omega

theorem startNewLog_kept (small : chip.dfNumPages + 1 < 2 ^ 16) (kept : Kept chip newest revo)
    (short : revo.finished ≠ some chip.dfNumPages)
    (files : (revo.startNewLog chip).2.dfFileNumber.toNat < 0xFFFE) :
    Kept chip newest (revo.startNewLog chip).2 := by
  have started := startNewLog_started chip revo
  obtain ⟨numbered, target⟩ := logStart_target small kept short rfl
  have hash : (revo.startNewLog chip).2.hash =
      (revo.startNewLog chip).2.dfFileNumber.toNat * 2 ^ 16 + 1 := by
    rw [Revo.hash, started.filePage]
    rfl
  refine ⟨?_, kept.real, ?_, ?_, fun _ => ⟨Or.inl started.idx, ?_,
    fun other => absurd started.idx other, ⟨?_, by omega⟩, ?_, ?_⟩⟩
  · rw [started.flash, started.finished]
    exact kept.log
  · rw [started.finished]
    exact kept.fresh
  · rw [started.finished]
    exact kept.counted
  · rw [started.idx]
    exact Nat.lt_of_le_of_lt (Nat.zero_le _) headerSize_lt
  · rw [started.number]
    exact numbered
  · rw [started.filePage]
    decide
  · rw [hash, started.number, started.page, started.finished]
    exact target

/-! ### Every moment -/

/-- The search finds the page that was written last. -/
def Finds (chip : Chip) (revo : Revo) : Prop :=
  ∀ page, revo.finished = some page → (revo.findLastPage chip).1 = page

/-- The driver on a chip that is erased. -/
structure Fresh (chip : Chip) (revo : Revo) : Prop where
  erased : ∀ page, 1 ≤ page → page ≤ chip.dfNumPages → headerAt (revo.flash page) = erasedHeader
  unwritten : revo.finished = none
  stopped : revo.logWriteStarted = false

/-- A log may be started unless the last page of the chip was written last, as long as there are
numbers for it. Data may be written as long as there are numbers for its pages. -/
def Allowed (chip : Chip) (revo : Revo) : Revo.Call → Prop
  | .startNewLog => revo.finished ≠ some chip.dfNumPages ∧
      (revo.startNewLog chip).1.toNat < 0xFFFE
  | .writePrioritisedBlock data => revo.logWriteStarted = true →
      revo.dfFilePage.toNat + finishedPages revo data.length < 2 ^ 16

instance (chip : Chip) (revo : Revo) : DecidablePred (Allowed chip revo)
  | .startNewLog => inferInstanceAs (Decidable (_ ∧ _))
  | .writePrioritisedBlock _ => inferInstanceAs (Decidable (_ → _))

theorem Fresh.kept (fresh : Fresh chip revo) : Kept chip 0 revo := by
  have blank : ∀ page, 1 ≤ page → page ≤ chip.dfNumPages → cells revo.flash page = none :=
    fun page positive inside => if_pos (fresh.erased page positive inside)
  refine ⟨?_, by decide, fun _ => rfl, fun page written => ?_, fun started => ?_⟩
  · rw [fresh.unwritten]
    refine ⟨nofun, fun page key positive inside isKey => ?_, fun page positive inside _ => ?_,
      fun _ => blank, nofun, nofun, nofun⟩
    · rw [blank page positive inside] at isKey
      exact nomatch isKey
    · exact blank page positive inside
  · rw [fresh.unwritten] at written
    exact nomatch written
  · rw [fresh.stopped] at started
    exact nomatch started

theorem startNewLog_number (revo : Revo) :
    (revo.startNewLog chip).1 = (revo.startNewLog chip).2.dfFileNumber := by
  rw [Revo.startNewLog]
  dsimp only
  split
  · rfl
  · split <;> rfl

/-- In every state that a call goes through the pages are a log on a ring. -/
theorem moments_kept (small : chip.dfNumPages + 1 < 2 ^ 16) (kept : Kept chip newest revo)
    {call : Revo.Call} (allowed : Allowed chip revo call) :
    ∀ moment ∈ revo.moments chip call, ∃ newest, Kept chip newest moment := by
  intro moment member
  cases call with
  | startNewLog =>
    obtain rfl := List.mem_singleton.mp member
    obtain ⟨short, files⟩ := allowed
    rw [startNewLog_number] at files
    exact ⟨newest, startNewLog_kept small kept short files⟩
  | writePrioritisedBlock data =>
    rw [Revo.moments] at member
    split at member
    · rename_i started
      exact writeTurns_kept small kept started (allowed started)
        (fun _ other => absurd other List.not_mem_nil) moment member
    · exact absurd member List.not_mem_nil

/-- A call leads to the last state that it goes through. -/
theorem step_kept (kept : Kept chip newest revo) {call : Revo.Call}
    (moments : ∀ moment ∈ revo.moments chip call, ∃ newest, Kept chip newest moment) :
    ∃ newest, Kept chip newest (revo.step chip call) := by
  rw [Revo.step]
  cases states : revo.moments chip call with
  | nil => exact ⟨newest, kept⟩
  | cons moment before =>
    rw [states] at moments
    exact moments moment List.mem_cons_self

/-- On a log on a ring the search finds the last page unless that is the end of the ring. -/
theorem Kept.finds_iff (several : 2 ≤ chip.dfNumPages) (small : chip.dfNumPages + 1 < 2 ^ 16)
    (kept : Kept chip newest revo) :
    Finds chip revo ↔ revo.finished ≠ some chip.dfNumPages := by
  have log := kept.log
  constructor
  · intro finds last
    rw [last] at log
    have found := finds chip.dfNumPages last
    rw [findLastPage_erased log.first_blank] at found
    omega
  · intro other page last
    rw [last] at log
    obtain ⟨-, within⟩ := log.inside page rfl
    exact findLastPage_log log kept.real (by omega)
      (lt_of_le_of_ne within fun same => other (same ▸ last))

/-- In every state of a history of logs the search finds the page that was written last if and only
if that is not the last page of the chip, where the first page has been erased. -/
theorem finds_iff_short (several : 2 ≤ chip.dfNumPages) (small : chip.dfNumPages + 1 < 2 ^ 16)
    (fresh : Fresh chip revo) (calls : List Revo.Call)
    (allowed : Along (Revo.step chip) (fun _ => True) (Allowed chip) revo calls) :
    Along (Revo.step chip) (fun _ => True) (fun revo call => ∀ moment ∈ revo.moments chip call,
      (Finds chip moment ↔ moment.finished ≠ some chip.dfNumPages)) revo calls := by
  obtain ⟨newest, kept⟩ : ∃ newest, Kept chip newest revo := ⟨0, fresh.kept⟩
  clear fresh
  induction calls generalizing revo newest with
  | nil => trivial
  | cons call rest inductionHypothesis =>
    obtain ⟨-, first, later⟩ := allowed
    have moments := moments_kept small kept first
    refine ⟨trivial, fun moment member => ?_, ?_⟩
    · obtain ⟨newest', keptThere⟩ := moments moment member
      exact keptThere.finds_iff several small
    · obtain ⟨newest', next⟩ := step_kept kept moments
      exact inductionHypothesis later newest' next

/-- A chip of four pages that are erased two at a time. -/
def fourPages : Chip := ⟨4, 2, four_pages, two_erased⟩

/-- The driver on the erased chip. -/
def erasedChip : Revo :=
  ⟨fun _ _ => 0xFF, fun _ _ => 0xFF, false, false, 0, 0, 0, 0, 0, 0, false, none⟩

/-- Two logs of two pages each. -/
def twoLogs : List Revo.Call :=
  [.startNewLog, .writePrioritisedBlock (List.replicate 504 0), .startNewLog,
    .writePrioritisedBlock (List.replicate 504 0)]

theorem erasedChip_fresh : Fresh fourPages erasedChip := by
  refine ⟨fun page _ _ => ?_, rfl, rfl⟩
  change headerAt (fun _ => 0xFF) = erasedHeader
  decide

/-- The logs are allowed. -/
theorem finds_iff_short_twoLogs :
    Along (Revo.step fourPages) (fun _ => True) (fun revo call =>
      ∀ moment ∈ revo.moments fourPages call,
        (Finds fourPages moment ↔ moment.finished ≠ some 4)) erasedChip twoLogs :=
  finds_iff_short (by decide) (by decide) erasedChip_fresh twoLogs (by decide +kernel)

/-- Behind the second log the first page is taken for the last one, and a third log begins again
with the first number. -/
theorem not_finds_twoLogs :
    (runCalls (Revo.step fourPages) erasedChip twoLogs).finished = some 4 ∧
      ((runCalls (Revo.step fourPages) erasedChip twoLogs).findLastPage fourPages).1 = 1 ∧
      ((runCalls (Revo.step fourPages) erasedChip twoLogs).startNewLog fourPages).1 = 1 ∧
      ¬ Finds fourPages (runCalls (Revo.step fourPages) erasedChip twoLogs) := by
  have outcome : (runCalls (Revo.step fourPages) erasedChip twoLogs).finished = some 4 ∧
      ((runCalls (Revo.step fourPages) erasedChip twoLogs).findLastPage fourPages).1 = 1 ∧
      ((runCalls (Revo.step fourPages) erasedChip twoLogs).startNewLog fourPages).1 = 1 := by
    decide +kernel
  obtain ⟨last, found, again⟩ := outcome
  refine ⟨last, found, again, fun finds => ?_⟩
  rw [finds 4 last] at found
  exact absurd found (by decide)

end Urus.DataFlashRevo
