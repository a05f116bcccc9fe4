/-
This file models the log driver for the flash chip of the F4Light boards. The chip is a
ring of pages. A page begins with a header that has the number of a log and the number of
the page in it, and the rest is data. Writing clears bits only, and what is written next
is erased before, in blocks of pages.

The driver keeps nothing about the logs but what is on the chip: where writing goes on is
found by a search for the page with the newest header. It has two buffers of a page, and
one of them is shared by reading and writing. Reading stops writing.

Page numbers have 16 bits. The chip is taken as one that answers. The page that was
written last is recorded for the statements; the driver does not know it.
-/

import Urus.Lib.Bytes

namespace Urus.DataFlashRevo

open Image

/-! ### The chip -/

/-- `DF_PAGE_SIZE`. -/
def dfPageSize : ℕ := 256

/-- `df_NumPages`, and how many pages are erased together. -/
structure Chip where
  dfNumPages : ℕ
  erasePages : ℕ
  some_page : 1 ≤ dfNumPages
  some_block : 1 ≤ erasePages

theorem four_pages : 1 ≤ 4 := by decide

theorem two_erased : 1 ≤ 2 := by decide

/-- The page behind another one. -/
def nextPage (chip : Chip) (pageAdr : ℕ) : ℕ :=
  if (pageAdr + 1) % 2 ^ 16 > chip.dfNumPages then 1 else (pageAdr + 1) % 2 ^ 16

/-- `PageHeader`. -/
structure PageHeader where
  fileNumber : UInt16
  filePage : UInt16
  deriving DecidableEq

/-- The size of a page header. -/
def headerSize : ℕ := 4

/-- The bytes of a number, the low one first. -/
def wordBytes (value : UInt16) : List UInt8 :=
  [UInt8.ofNat value.toNat, UInt8.ofNat (value.toNat / 2 ^ 8)]

/-- The number in two bytes. -/
def wordAt (image : Image) (place : ℕ) : UInt16 :=
  UInt16.ofNat ((image place).toNat + 2 ^ 8 * (image (place + 1)).toNat)

def PageHeader.bytes (header : PageHeader) : List UInt8 :=
  wordBytes header.fileNumber ++ wordBytes header.filePage

/-- The header of a page. -/
def headerAt (page : Image) : PageHeader := ⟨wordAt page 0, wordAt page 2⟩

/-- What is left of a page for data. -/
def dataPageSize : ℕ := dfPageSize - headerSize

/-! ### The driver -/

/-- `DataFlash_Revo`, with the chip, the two buffers, and the page that was written last. -/
structure Revo where
  flash : ℕ → Image
  buffer : Bool → Image
  dfBufferNum : Bool
  dfReadBufferNum : Bool
  dfBufferIdx : ℕ
  dfReadBufferIdx : ℕ
  dfPageAdr : ℕ
  dfReadPageAdr : ℕ
  dfFileNumber : UInt16
  dfFilePage : UInt16
  logWriteStarted : Bool
  finished : Option ℕ

namespace Revo

/-- `BufferToPage`. Bits of the page can be cleared and not set. -/
def bufferToPage (revo : Revo) (bufferNum : Bool) (pageNum : ℕ) : Revo :=
  { revo with flash := Function.update revo.flash pageNum fun place =>
      revo.flash pageNum place &&& revo.buffer bufferNum place }

/-- `PageToBuffer`. -/
def pageToBuffer (revo : Revo) (bufferNum : Bool) (pageNum : ℕ) : Revo :=
  { revo with buffer := Function.update revo.buffer bufferNum (revo.flash pageNum) }

/-- `PageErase`: the chip erases the block of the page. -/
def pageErase (chip : Chip) (revo : Revo) (pageNum : ℕ) : Revo :=
  { revo with flash := fun page =>
      if page / chip.erasePages = pageNum / chip.erasePages then fun _ => 0xFF
      else revo.flash page }

/-- `BlockWrite`. -/
def blockWrite (revo : Revo) (bufferNum : Bool) (intPageAdr : ℕ) (header data : List UInt8) : Revo :=
  let image := put (revo.buffer bufferNum) intPageAdr header
  let image := put image (intPageAdr + header.length) data
  { revo with buffer := Function.update revo.buffer bufferNum image }

/-! ### Writing -/

/-- `StartWrite`. -/
def startWrite (revo : Revo) (pageAdr : ℕ) : Revo :=
  { revo with dfBufferIdx := 0, dfBufferNum := false, dfPageAdr := pageAdr }

/-- `FinishWrite`. -/
def finishWrite (chip : Chip) (revo : Revo) : Revo :=
  let written := revo.bufferToPage revo.dfBufferNum revo.dfPageAdr
  let pageAdr := nextPage chip revo.dfPageAdr
  -- a page at the start of a block, and the first one, are prepared for what comes
  let prepared := if pageAdr % chip.erasePages = 0 ∨ pageAdr = 1 then pageErase chip written pageAdr
    else written
  { prepared with
    dfPageAdr := pageAdr
    dfBufferNum := !revo.dfBufferNum
    dfBufferIdx := 0
    finished := some revo.dfPageAdr }

/-- How much the body of the loop of `_WritePrioritisedBlock` takes of the data. -/
def taken (revo : Revo) (size : ℕ) : ℕ :=
  let n := min (dfPageSize - revo.dfBufferIdx) size
  if revo.dfBufferIdx = 0 then min n dataPageSize else n

/-- Data goes into the buffer, at the start of a page behind a header. -/
def fillBuffer (revo : Revo) (data : List UInt8) : Revo :=
  let header : PageHeader := ⟨revo.dfFileNumber, revo.dfFilePage⟩
  if revo.dfBufferIdx = 0 then
    { revo.blockWrite revo.dfBufferNum revo.dfBufferIdx header.bytes data with
      dfBufferIdx := revo.dfBufferIdx + data.length + headerSize }
  else
    { revo.blockWrite revo.dfBufferNum revo.dfBufferIdx [] data with
      dfBufferIdx := revo.dfBufferIdx + data.length }

/-- The body of the loop of `_WritePrioritisedBlock`, with what it takes of the data. -/
def writeTurn (chip : Chip) (revo : Revo) (data : List UInt8) : Revo :=
  let filled := revo.fillBuffer data
  if filled.dfBufferIdx = dfPageSize then
    { finishWrite chip filled with dfFilePage := filled.dfFilePage + 1 }
  else filled

/-- The loop of `_WritePrioritisedBlock`: the states behind its turns, the last one first. A turn
takes a byte at least. -/
def writeTurns (chip : Chip) : (left : ℕ) → Revo → List UInt8 → List Revo → List Revo
  | 0, _, _, before => before
  | left + 1, revo, data, before =>
    if data = [] then before
    else
      let n := revo.taken data.length
      let next := writeTurn chip revo (data.take n)
      writeTurns chip left next (data.drop n) (next :: before)

/-! ### Reading -/

/-- A header that has been read. -/
def takeHeader (revo : Revo) : Revo :=
  let header := headerAt (revo.buffer revo.dfReadBufferNum)
  { revo with
    dfFileNumber := header.fileNumber
    dfFilePage := header.filePage
    dfReadBufferIdx := headerSize }

/-- `StartRead`. -/
def startRead (revo : Revo) (pageAdr : ℕ) : Revo :=
  let revo := { revo with
    dfReadBufferNum := false
    dfReadPageAdr := pageAdr
    logWriteStarted := false }
  (revo.pageToBuffer revo.dfReadBufferNum pageAdr).takeHeader

/-- The body of the loop of `ReadBlock` behind the bytes that are read. -/
def readTurn (chip : Chip) (revo : Revo) (n : ℕ) : Revo :=
  let revo := { revo with dfReadBufferIdx := revo.dfReadBufferIdx + n }
  if revo.dfReadBufferIdx = dfPageSize then
    let revo := { revo with dfReadPageAdr := nextPage chip revo.dfReadPageAdr }
    (revo.pageToBuffer revo.dfReadBufferNum revo.dfReadPageAdr).takeHeader
  else revo

/-- The loop of `ReadBlock`: the bytes, and the driver behind it. A turn reads a byte at least. -/
def readTurns (chip : Chip) : (left : ℕ) → Revo → (size : ℕ) → List UInt8 × Revo
  | 0, revo, _ => ([], revo)
  | left + 1, revo, size =>
    if size = 0 then ([], revo)
    else
      let n := min (dfPageSize - revo.dfReadBufferIdx) size
      let bytes := slice (revo.buffer revo.dfReadBufferNum) revo.dfReadBufferIdx n
      let (rest, revo) := readTurns chip left (readTurn chip revo n) (size - n)
      (bytes ++ rest, revo)

/-- `ReadBlock`. -/
def readBlock (chip : Chip) (revo : Revo) (size : ℕ) : List UInt8 × Revo :=
  readTurns chip size revo size

/-- `get_log_data_raw`. -/
def getLogDataRaw (chip : Chip) (revo : Revo) (page offset len : ℕ) : List UInt8 × Revo :=
  let (page, offset) :=
    if offset ≥ dataPageSize then
      let page := (page + offset / dataPageSize) % 2 ^ 16
      (if page > chip.dfNumPages then (1 + page - chip.dfNumPages) % 2 ^ 16 else page,
        offset % dataPageSize)
    else (page, offset)
  let revo := if revo.logWriteStarted ∨ revo.dfReadPageAdr ≠ page then revo.startRead page else revo
  { revo with dfReadBufferIdx := offset + headerSize }.readBlock chip len

/-- The size that `get_log_info` has for a log with the given boundaries, as a number of 32 bits. -/
def logSize (chip : Chip) (startPage endPage : ℕ) : ℕ :=
  if endPage ≥ startPage then (endPage + 1 - startPage) * dfPageSize % 2 ^ 32
  else (chip.dfNumPages + endPage + 2 ^ 32 - startPage) * dfPageSize % 2 ^ 32

/-! ### The search -/

/-- The header that was read last as one number. -/
def hash (revo : Revo) : ℕ := revo.dfFileNumber.toNat * 2 ^ 16 + revo.dfFilePage.toNat

/-- The same number, with zero for an erased page. -/
def shownHash (revo : Revo) : ℕ := if revo.hash ≥ 0xFFFF0000 then 0 else revo.hash

/-- The loop of `find_last_page`. At every turn the pages between the bounds are fewer. -/
def searchTurns : (left : ℕ) → Revo → (bottom top bottomHash : ℕ) → Revo × ℕ × ℕ × ℕ
  | 0, revo, bottom, top, bottomHash => (revo, bottom, top, bottomHash)
  | left + 1, revo, bottom, top, bottomHash =>
    if bottom + 1 < top then
      let look := (top + bottom) / 2
      let revo := revo.startRead look
      if revo.shownHash < bottomHash then searchTurns left revo bottom look bottomHash
      else searchTurns left revo look top revo.shownHash
    else (revo, bottom, top, bottomHash)

/-- `find_last_page`. -/
def findLastPage (chip : Chip) (revo : Revo) : ℕ × Revo :=
  let top := chip.dfNumPages % 2 ^ 16
  let revo := revo.startRead 1
  let (revo, bottom, top, bottomHash) := searchTurns top revo 1 top revo.hash
  let revo := revo.startRead top
  (if revo.shownHash > bottomHash then top else bottom, revo)

/-- `find_last_log`. -/
def findLastLog (chip : Chip) (revo : Revo) : UInt16 × Revo :=
  let (lastPage, revo) := revo.findLastPage chip
  let revo := revo.startRead lastPage
  (revo.dfFileNumber, revo)

/-- `SetFileNumber`. -/
def setFileNumber (revo : Revo) (fileNumber : UInt16) : Revo :=
  { revo with dfFileNumber := fileNumber, dfFilePage := 1 }

/-- `start_new_log`. -/
def startNewLog (chip : Chip) (revo : Revo) : UInt16 × Revo :=
  let (lastPage, revo) := revo.findLastPage chip
  let revo := revo.startRead lastPage
  let (lastLog, revo) := revo.findLastLog chip
  let (newLogNum, revo) :=
    if lastLog = 0 ∨ revo.dfFileNumber = 0xFFFF then (1, (revo.setFileNumber 1).startWrite 1)
    -- a log of one page is written over
    else if revo.dfFilePage ≤ 1 then
      (revo.dfFileNumber, (revo.setFileNumber revo.dfFileNumber).startWrite lastPage)
    else
      let lastPage := if lastPage = 0xFFFF then 0 else lastPage
      (revo.dfFileNumber + 1,
        (revo.setFileNumber (revo.dfFileNumber + 1)).startWrite ((lastPage + 1) % 2 ^ 16))
  (newLogNum, { revo with logWriteStarted := true })

/-! ### Calls -/

/-- A log is started, or data is written to it. -/
inductive Call
  | startNewLog
  | writePrioritisedBlock (data : List UInt8)

/-- The states that a call goes through behind the one it is made in, the last one first. -/
def moments (chip : Chip) (revo : Revo) : Call → List Revo
  | .startNewLog => [(revo.startNewLog chip).2]
  | .writePrioritisedBlock data =>
    if revo.logWriteStarted then writeTurns chip data.length revo data [] else []

/-- One call. -/
def step (chip : Chip) (revo : Revo) (call : Call) : Revo := (revo.moments chip call).headD revo

end Revo

theorem headerSize_lt : headerSize < dfPageSize := by decide

theorem dataPageSize_pos : 0 < dataPageSize := by decide

/-! ### What a started read has -/

section StartRead

variable (revo : Revo) (pageAdr : ℕ)

@[simp] theorem startRead_flash : (revo.startRead pageAdr).flash = revo.flash := rfl

@[simp] theorem startRead_buffer :
    (revo.startRead pageAdr).buffer (revo.startRead pageAdr).dfReadBufferNum =
      revo.flash pageAdr := by
  change Function.update revo.buffer false (revo.flash pageAdr) false = revo.flash pageAdr
  rw [Function.update_self]

@[simp] theorem startRead_dfReadPageAdr : (revo.startRead pageAdr).dfReadPageAdr = pageAdr := rfl

@[simp] theorem startRead_dfReadBufferIdx :
    (revo.startRead pageAdr).dfReadBufferIdx = headerSize := rfl

end StartRead

/-! ### Bytes of numbers -/

/-- What was written as two bytes is read back. -/
theorem wordAt_put (image : Image) (place : ℕ) (value : UInt16) :
    wordAt (put image place (wordBytes value)) place = value := by
  have short := value.toNat_lt
  have low : put image place (wordBytes value) place = UInt8.ofNat value.toNat := by
    rw [put_inside _ _ _ _ (le_refl _) (by simp [wordBytes]), Nat.sub_self]
    rfl
  have high : put image place (wordBytes value) (place + 1) = UInt8.ofNat (value.toNat / 2 ^ 8) := by
    rw [put_inside _ _ _ _ (by omega) (by simp [wordBytes]), Nat.add_sub_cancel_left]
    rfl
  rw [wordAt, low, high]
  apply UInt16.toNat_inj.mp
  rw [UInt16.toNat_ofNat', UInt8.toNat_ofNat', UInt8.toNat_ofNat']
  omega

theorem headerAt_congr {first second : Image} (agree : Agree first second 0 headerSize) :
    headerAt first = headerAt second := by
  have bytes : ∀ place < headerSize, first place = second place := fun place inside =>
    agree place (Nat.zero_le _) inside
  simp only [headerAt, wordAt, bytes 0 (by decide), bytes 1 (by decide), bytes 2 (by decide),
    bytes 3 (by decide), Nat.reduceAdd]

end Urus.DataFlashRevo
