/-
This file proves what the write-back of the Linux storage keeps. The main thread copies a
block into the buffer and then sets the bits of its lines in the dirty mask. The timer
thread selects the first dirty lines, clears their bits, writes what the buffer has in these
lines at that moment, and sets the bits again if the write was short or failed. Each of
these is one step, and a run is any interleaving of the steps.

A line that is not persisted is always on somebody's list: the main thread is about to mark
it, or its bit is set, or the timer has cleared the bit and not yet written the line, or the
timer has failed to write it and is about to set the bit again. So no update is lost, once
the storage has been opened. Before that the buffer is no copy of the file.
-/

import Urus.HalStorage.WriteBack

namespace Urus.HalStorage.Linux

open Image

/-! ### The two threads -/

/-- The timer thread: outside `_timer_tick`, or between two of its steps, with the first line and the
number of lines that it writes. -/
inductive Timer
  | idle
  | selected (first count : Nat)
  | cleared (first count : Nat)
  | failed (first count : Nat)
  deriving DecidableEq

/-- The storage object, its file and the two threads. -/
structure System where
  storage : State
  main : Main
  timer : Timer

/-- How the write of the lines ends. A short or failed write may leave anything in the lines. -/
inductive WriteResult
  | written
  | short (left : Image)

/-- A step of one of the threads. `ready` tells whether the file can be opened for writing and
`lseek` goes where it should. -/
inductive Step
  | read (loc n : Nat)
  | copy (loc : Nat) (src : List UInt8)
  | mark
  | select (ready : Bool)
  | clear
  | write (result : WriteResult)
  | restore

/-- The width of `_dirty_mask`. -/
def maskBits : Nat := 32

/-- `_dirty_mask |= 1U << line`. The language does not say what a shift by the width or more gives,
so that it may set any bits. -/
def setDirty (beyond mask : Nat → Bool) (line : Nat) : Nat → Bool :=
  if line < maskBits then Function.update mask line true
  else fun bit => mask bit || (beyond bit && decide (bit < maskBits))

/-- `_mark_dirty`. -/
def markDirty (board : Board) (beyond : Nat → Bool) (state : State) (loc length : Nat) : State :=
  { state with
    dirtyMask := (markedLines board loc length).foldl (setDirty beyond) state.dirtyMask }

/-- `LINUX_STORAGE_MAX_WRITE >> LINUX_STORAGE_LINE_SHIFT`. -/
def maxLines (board : Board) : Nat := 512 >>> board.lineShift

/-- The second loop of `_timer_tick`: the lines behind the first one that are dirty too, as long as
there is fuel. -/
def countDirty (board : Board) (mask : Nat → Bool) (first : Nat) : Nat → Nat → Nat
  | 0, count => count
  | fuel + 1, count =>
    if first + count < board.lines ∧ count < maxLines board then
      if mask (first + count) then countDirty board mask first fuel (count + 1) else count
    else count

/-- The lines that `_timer_tick` selects. -/
def selectLines (board : Board) (mask : Nat → Bool) : Option (Nat × Nat) :=
  (firstDirty board mask).map fun first =>
    (first, countDirty board mask first (maxLines board) 1)

/-- The bits of some lines, as `write_mask` has them. -/
def writeMask (first count line : Nat) : Bool := decide (first ≤ line ∧ line < first + count)

/-- The bytes in the file at an address, and as many others as the file has. -/
def overwrite (content : List UInt8) (address : Nat) (data : List UInt8) : List UInt8 :=
  slice (put (fun index => content.getD index 0) address data) 0
    (max content.length (address + data.length))

/-- The file with some lines written. -/
def writeLines (board : Board) (storage : State) (first count : Nat) (source : Image) : State :=
  match storage.medium with
  | .file content =>
    { storage with
      medium := .file (some (overwrite (content.getD []) (board.lineSize * first)
        (slice source (board.lineSize * first) (board.lineSize * count)))) }
  | .fram _ | .flash _ => storage

/-- One step. A thread takes only the step that it has come to. -/
def System.step (board : Board) (beyond : Nat → Bool) (system : System) : Step → Option System
  | .read loc n =>
    match system.main with
    | .idle => some { system with storage := (readBlock board system.storage loc n).1 }
    | .marking _ _ => none
  | .copy loc src =>
    match system.main with
    | .idle =>
      let (storage, copied) := copyBlock board system.storage loc src
      some { system with
        storage := storage
        main := if copied then .marking loc src.length else .idle }
    | .marking _ _ => none
  | .mark =>
    match system.main with
    | .idle => none
    | .marking loc length => some { system with
        storage := markDirty board beyond system.storage loc length
        main := .idle }
  | .select ready =>
    match system.timer with
    | .idle =>
      if system.storage.initialised ∧ ready then
        match selectLines board system.storage.dirtyMask with
        | none => some system
        | some (first, count) => some { system with timer := .selected first count }
      else some system
    | _ => none
  | .clear =>
    match system.timer with
    | .selected first count => some { system with
        storage := { system.storage with
          dirtyMask := fun line => system.storage.dirtyMask line && !writeMask first count line }
        timer := .cleared first count }
    | _ => none
  | .write result =>
    match system.timer with
    | .cleared first count =>
      match result with
      | .written => some { system with
          storage := writeLines board system.storage first count system.storage.buffer
          timer := .idle }
      | .short left => some { system with
          storage := writeLines board system.storage first count left
          timer := .failed first count }
    | _ => none
  | .restore =>
    match system.timer with
    | .failed first count => some { system with
        storage := { system.storage with
          dirtyMask := fun line => system.storage.dirtyMask line || writeMask first count line }
        timer := .idle }
    | _ => none

/-- A board with its file at boot. -/
def System.boot (content : Option (List UInt8)) : System :=
  ⟨HalStorage.boot (.file content), .idle, .idle⟩

/-- With no thread on its way, an empty mask means that the file has what the buffer has. -/
def SavedWhenIdle (board : Board) (system : System) : Prop :=
  system.main = .idle → system.timer = .idle →
    (∀ line, line < maskBits → system.storage.dirtyMask line = false) →
    Agree system.storage.medium.image system.storage.buffer 0 board.size

/-- A block inside the storage has all its lines marked. -/
def MarksTouched (board : Board) (beyond : Nat → Bool) (state : State) : Prop :=
  ∀ loc length, loc + length ≤ board.size → ∀ line address, loc ≤ address →
    address < loc + length → board.lineSize * line ≤ address →
    address < board.lineSize * (line + 1) →
    (markDirty board beyond state loc length).dirtyMask line = true

variable {board : Board} {beyond : Nat → Bool} {system next : System} {state : State}

/-! ### The mask -/

theorem setDirty_true (mask : Nat → Bool) {line bit : Nat} (narrow : bit < maskBits)
    (either : mask bit = true ∨ bit = line) : setDirty beyond mask line bit = true := by
  unfold setDirty
  split
  · by_cases same : bit = line
    · rw [same, Function.update_self]
    · rw [Function.update_of_ne same]
      exact either.resolve_right same
  · rename_i wide
    have dirty : mask bit = true := either.resolve_right fun same => wide (same ▸ narrow)
    exact (Bool.or_eq_true _ _).mpr (Or.inl dirty)

theorem foldl_setDirty (lines : List Nat) (mask : Nat → Bool) {bit : Nat}
    (narrow : bit < maskBits) (either : mask bit = true ∨ bit ∈ lines) :
    lines.foldl (setDirty beyond) mask bit = true := by
  induction lines generalizing mask with
  | nil => exact either.resolve_right List.not_mem_nil
  | cons first rest inductionHypothesis =>
    refine inductionHypothesis _ ?_
    rcases either with dirty | member
    · exact Or.inl (setDirty_true mask narrow (Or.inl dirty))
    · rcases List.mem_cons.mp member with same | later
      · exact Or.inl (setDirty_true mask narrow (Or.inr same))
      · exact Or.inr later

/-- Every line that a block inside the storage touches is marked. -/
theorem marksTouched (narrow : board.lines ≤ maskBits) (state : State) :
    MarksTouched board beyond state := by
  intro loc length fits line address low high above below
  have bound : line < board.lines := by
    by_contra beyondLines
    have lower : board.lineSize * board.lines ≤ board.lineSize * line :=
      Nat.mul_le_mul_left _ (by omega)
    rw [← board.size_eq] at lower
    omega
  exact foldl_setDirty _ _ (by omega) (Or.inr (mem_markedLines fits low high above below))

theorem writeMask_iff {first count line : Nat} :
    writeMask first count line = true ↔ first ≤ line ∧ line < first + count :=
  decide_eq_true_iff

/-! ### The file -/

theorem overwrite_getD (content : List UInt8) (address : Nat) (data : List UInt8) (index : Nat) :
    (overwrite content address data).getD index 0 =
      put (fun index => content.getD index 0) address data index := by
  by_cases inside : index < max content.length (address + data.length)
  · rw [overwrite, slice_getD _ _ _ _ inside, Nat.zero_add]
  · rw [overwrite, List.getD_eq_default _ _ (by rw [slice_length]; omega),
      put_outside _ _ _ _ (Or.inr (by omega)), List.getD_eq_default _ _ (by omega)]

/-- The medium is a file. -/
def IsFile (medium : Medium) : Prop := ∃ content, medium = .file content

variable {storage : State} {first count : Nat}

theorem writeLines_image (file : IsFile storage.medium) (first count : Nat) (source : Image)
    (address : Nat) :
    (writeLines board storage first count source).medium.image address =
      if board.lineSize * first ≤ address ∧ address < board.lineSize * (first + count) then
        source address
      else storage.medium.image address := by
  obtain ⟨content, medium⟩ := file
  rw [writeLines, medium]
  change (overwrite _ _ _).getD address 0 = _
  rw [overwrite_getD, put_slice, Nat.mul_add]
  rfl

theorem writeLines_file (file : IsFile storage.medium) (first count : Nat) (source : Image) :
    IsFile (writeLines board storage first count source).medium := by
  obtain ⟨content, medium⟩ := file
  rw [writeLines, medium]
  exact ⟨_, rfl⟩

theorem writeLines_rest (storage : State) (first count : Nat) (source : Image) :
    (writeLines board storage first count source).initialised = storage.initialised ∧
      (writeLines board storage first count source).buffer = storage.buffer ∧
      (writeLines board storage first count source).dirtyMask = storage.dirtyMask := by
  unfold writeLines
  split <;> exact ⟨rfl, rfl, rfl⟩

theorem openFile_saved (state : State) (content : Option (List UInt8)) :
    Agree (openFile board state content).medium.image (openFile board state content).buffer 0
      board.size := by
  intro address _ inside
  dsimp only [openFile, Medium.image]
  generalize content.getD (slice state.buffer 0 board.size) = created
  rw [Option.getD_some]
  split
  · rename_i short
    rw [if_neg fun both => both.1 short, put_take _ _ _ inside]
    by_cases present : address < created.length
    · rw [List.getD_append _ _ _ _ present]
    · rw [List.getD_append_right _ _ _ _ (by omega), List.getD_eq_default created _ (by omega)]
      rw [List.getD, List.getElem?_replicate]
      split <;> rfl
  · rename_i kept
    split
    · rename_i other
      rw [if_pos ⟨kept, other⟩, slice_getD _ _ _ _ inside, put_slice,
        if_pos ⟨Nat.zero_le _, by omega⟩, Nat.zero_add]
    · rename_i whole
      rw [if_neg fun both => whole both.2, put_take _ _ _ inside]

theorem storageOpen_file (closed : storage.initialised = false) (file : IsFile storage.medium) :
    IsFile (storageOpen board storage).medium ∧
      Agree (storageOpen board storage).medium.image (storageOpen board storage).buffer 0
        board.size := by
  obtain ⟨content, medium⟩ := file
  rw [storageOpen, if_neg (by rw [closed]; decide)]
  dsimp only
  rw [medium]
  exact ⟨⟨_, rfl⟩, openFile_saved _ content⟩

/-! ### The invariant -/

/-- The timer has cleared the bit of the line and has not written it. -/
def Timer.Owes (line : Nat) : Timer → Prop
  | .cleared first count | .failed first count => writeMask first count line = true
  | .idle | .selected _ _ => False

/-- A line of the open storage is persisted, or is about to be marked, or is marked, or is about to
be written. -/
def Tracked (board : Board) (system : System) (line : Nat) : Prop :=
  LineSaved board system.storage line ∨ system.main.Pending board line ∨
    system.storage.dirtyMask line = true ∨ system.timer.Owes line

/-- What every run keeps. -/
structure WritesBack (board : Board) (system : System) : Prop where
  file : IsFile system.storage.medium
  closed : system.storage.initialised = false → system.main = .idle ∧ system.timer = .idle
  lines : system.storage.initialised = true → ∀ line, line < board.lines →
    Tracked board system line

theorem boot_writesBack (content : Option (List UInt8)) :
    WritesBack board (System.boot content) where
  file := ⟨content, rfl⟩
  closed := fun _ => ⟨rfl, rfl⟩
  lines := fun opened => nomatch opened

section

variable (kept : WritesBack board system)

include kept

/-- With nothing on its way, an empty mask means that every line is persisted. -/
theorem WritesBack.saved (narrow : board.lines ≤ maskBits)
    (opened : system.storage.initialised = true) : SavedWhenIdle board system := by
  intro main timer clean address _ inside
  obtain ⟨line, bound, above, below⟩ := exists_line inside
  rcases kept.lines opened line bound with saved | pending | dirty | owed
  · exact saved address above below
  · rw [main] at pending
    exact pending.elim
  · rw [clean line (by omega)] at dirty
    exact absurd dirty (by decide)
  · rw [timer] at owed
    exact owed.elim

theorem WritesBack.open :
    WritesBack board { system with storage := storageOpen board system.storage } := by
  cases initialised : system.storage.initialised with
  | true =>
    rw [storageOpen_opened initialised]
    exact kept
  | false =>
    obtain ⟨file, saved⟩ := storageOpen_file initialised kept.file
    refine ⟨file, fun closed => ?_, fun _ line bound => Or.inl fun address above below => ?_⟩
    · rw [storageOpen_initialised] at closed
      exact absurd closed (by decide)
    · exact saved address (Nat.zero_le _) (line_inside bound below)

theorem WritesBack.read (loc n : Nat) :
    WritesBack board { system with storage := (readBlock board system.storage loc n).1 } := by
  unfold readBlock
  split
  · exact kept
  · exact kept.open

/-- The lines of a block that is copied are about to be marked. The others are as they were. -/
theorem WritesBack.copy (main : system.main = .idle)
    (opened : system.storage.initialised = true) {loc : Nat} {src : List UInt8}
    (inside : loc + src.length ≤ board.size) :
    WritesBack board { system with
      storage := { system.storage with buffer := put system.storage.buffer loc src }
      main := .marking loc src.length } where
  file := kept.file
  closed := fun closed => absurd (opened.symm.trans closed) (by decide)
  lines := by
    intro _ line bound
    by_cases marked : line ∈ markedLines board loc src.length
    · exact Or.inr (Or.inl marked)
    · rcases kept.lines opened line bound with saved | pending | rest
      · refine Or.inl fun address above below => ?_
        have outside : address < loc ∨ loc + src.length ≤ address := by
          by_contra covered
          exact marked (mem_markedLines inside (by omega) (by omega) above below)
        exact (saved address above below).trans (put_outside _ _ _ _ outside).symm
      · rw [main] at pending
        exact pending.elim
      · exact Or.inr (Or.inr rest)

theorem WritesBack.mark (narrow : board.lines ≤ maskBits)
    {loc length : Nat} (main : system.main = .marking loc length) :
    WritesBack board { system with
      storage := markDirty board beyond system.storage loc length
      main := .idle } where
  file := kept.file
  closed := fun closed => nomatch (kept.closed closed).1.symm.trans main
  lines := by
    intro opened line bound
    have dirtyNow : (system.storage.dirtyMask line = true ∨ line ∈ markedLines board loc length) →
        (markDirty board beyond system.storage loc length).dirtyMask line = true :=
      foldl_setDirty _ _ (by omega)
    rcases kept.lines opened line bound with saved | pending | dirty | owed
    · exact Or.inl saved
    · rw [main] at pending
      exact Or.inr (Or.inr (Or.inl (dirtyNow (Or.inr pending))))
    · exact Or.inr (Or.inr (Or.inl (dirtyNow (Or.inl dirty))))
    · exact Or.inr (Or.inr (Or.inr owed))

/-- Lines that are selected are still marked. -/
theorem WritesBack.select (timer : system.timer = .idle)
    (opened : system.storage.initialised = true) (first count : Nat) :
    WritesBack board { system with timer := .selected first count } where
  file := kept.file
  closed := fun closed => absurd (opened.symm.trans closed) (by decide)
  lines := by
    intro _ line bound
    rcases kept.lines opened line bound with saved | pending | dirty | owed
    · exact Or.inl saved
    · exact Or.inr (Or.inl pending)
    · exact Or.inr (Or.inr (Or.inl dirty))
    · rw [timer] at owed
      exact owed.elim

theorem WritesBack.clear (timer : system.timer = .selected first count) :
    WritesBack board { system with
      storage := { system.storage with
        dirtyMask := fun line => system.storage.dirtyMask line && !writeMask first count line }
      timer := .cleared first count } where
  file := kept.file
  closed := fun closed => nomatch (kept.closed closed).2.symm.trans timer
  lines := by
    intro opened line bound
    rcases kept.lines opened line bound with saved | pending | dirty | owed
    · exact Or.inl saved
    · exact Or.inr (Or.inl pending)
    · cases written : writeMask first count line with
      | true => exact Or.inr (Or.inr (Or.inr written))
      | false =>
        refine Or.inr (Or.inr (Or.inl ?_))
        change (system.storage.dirtyMask line && !writeMask first count line) = true
        rw [dirty, written]
        rfl
    · rw [timer] at owed
      exact owed.elim

end

theorem writeLines_other (file : IsFile storage.medium) {first count line : Nat} (source : Image)
    (outside : ¬ (first ≤ line ∧ line < first + count)) (saved : LineSaved board storage line) :
    LineSaved board (writeLines board storage first count source) line := by
  intro address above below
  rw [(writeLines_rest storage first count source).2.1, writeLines_image file, if_neg]
  · exact saved address above below
  · rintro ⟨low, high⟩
    have lower : first < line + 1 := Nat.lt_of_mul_lt_mul_left (lt_of_le_of_lt low below)
    have upper : line < first + count := Nat.lt_of_mul_lt_mul_left (lt_of_le_of_lt above high)
    exact outside ⟨by omega, upper⟩

theorem WritesBack.written (kept : WritesBack board system)
    (timer : system.timer = .cleared first count) :
    WritesBack board { system with
      storage := writeLines board system.storage first count system.storage.buffer
      timer := .idle } := by
  obtain ⟨initialised, buffer, mask⟩ :=
    @writeLines_rest board system.storage first count system.storage.buffer
  refine ⟨writeLines_file kept.file _ _ _, fun closed => ?_, fun opened line bound => ?_⟩
  · exact nomatch (kept.closed (initialised.symm.trans closed)).2.symm.trans timer
  · by_cases inside : first ≤ line ∧ line < first + count
    · refine Or.inl fun address above below => ?_
      have low : board.lineSize * first ≤ address :=
        le_trans (Nat.mul_le_mul_left _ inside.1) above
      have high : address < board.lineSize * (first + count) :=
        lt_of_lt_of_le below (Nat.mul_le_mul_left _ inside.2)
      rw [buffer, writeLines_image kept.file, if_pos ⟨low, high⟩]
    · rcases kept.lines (initialised.symm.trans opened) line bound with
        saved | pending | dirty | owed
      · exact Or.inl (writeLines_other kept.file _ inside saved)
      · exact Or.inr (Or.inl pending)
      · exact Or.inr (Or.inr (Or.inl (by rw [← dirty, ← mask])))
      · rw [timer] at owed
        exact absurd (writeMask_iff.mp owed) inside

/-- A write that does not succeed leaves its lines on the timer's list. -/
theorem WritesBack.short (kept : WritesBack board system)
    (timer : system.timer = .cleared first count) (left : Image) :
    WritesBack board { system with
      storage := writeLines board system.storage first count left
      timer := .failed first count } := by
  obtain ⟨initialised, -, mask⟩ := @writeLines_rest board system.storage first count left
  refine ⟨writeLines_file kept.file _ _ _, fun closed => ?_, fun opened line bound => ?_⟩
  · exact nomatch (kept.closed (initialised.symm.trans closed)).2.symm.trans timer
  · by_cases inside : first ≤ line ∧ line < first + count
    · exact Or.inr (Or.inr (Or.inr (writeMask_iff.mpr inside)))
    · rcases kept.lines (initialised.symm.trans opened) line bound with
        saved | pending | dirty | owed
      · exact Or.inl (writeLines_other kept.file _ inside saved)
      · exact Or.inr (Or.inl pending)
      · exact Or.inr (Or.inr (Or.inl (by rw [← dirty, ← mask])))
      · rw [timer] at owed
        exact Or.inr (Or.inr (Or.inr owed))

/-- Setting the bits again marks the lines on the timer's list. -/
theorem WritesBack.restore (kept : WritesBack board system)
    (timer : system.timer = .failed first count) :
    WritesBack board { system with
      storage := { system.storage with
        dirtyMask := fun line => system.storage.dirtyMask line || writeMask first count line }
      timer := .idle } where
  file := kept.file
  closed := fun closed => nomatch (kept.closed closed).2.symm.trans timer
  lines := by
    intro opened line bound
    have dirtyNow : system.storage.dirtyMask line = true ∨ writeMask first count line = true →
        (system.storage.dirtyMask line || writeMask first count line) = true :=
      (Bool.or_eq_true _ _).mpr
    rcases kept.lines opened line bound with saved | pending | dirty | owed
    · exact Or.inl saved
    · exact Or.inr (Or.inl pending)
    · exact Or.inr (Or.inr (Or.inl (dirtyNow (Or.inl dirty))))
    · rw [timer] at owed
      exact Or.inr (Or.inr (Or.inl (dirtyNow (Or.inr owed))))

/-! ### The runs -/

/-- No block is longer than the storage. -/
def Step.Fits (board : Board) : Step → Prop
  | .copy _ src => src.length ≤ board.size
  | _ => True

/-- Every step keeps the invariant. -/
theorem WritesBack.step (kept : WritesBack board system) (narrow : board.lines ≤ maskBits)
    {step : Step} (fits : step.Fits board) (stepped : system.step board beyond step = some next) :
    WritesBack board next := by
  cases step with
  | read loc n =>
    cases main : system.main with
    | marking _ _ =>
      rw [System.step, main] at stepped
      exact nomatch stepped
    | idle =>
      rw [System.step, main] at stepped
      rw [← Option.some.inj stepped]
      have opened := kept.read loc n
      rw [main] at opened
      exact opened
  | copy loc src =>
    cases main : system.main with
    | marking _ _ =>
      rw [System.step, main] at stepped
      exact nomatch stepped
    | idle =>
      rw [System.step, main] at stepped
      rcases copyBlock_cases system.storage loc fits with same | ⟨inside, copied⟩
      · rw [same] at stepped
        rw [← Option.some.inj stepped]
        exact main ▸ kept
      · rw [copied] at stepped
        rw [← Option.some.inj stepped]
        exact kept.open.copy main (storageOpen_initialised _) inside
  | mark =>
    cases main : system.main with
    | idle =>
      rw [System.step, main] at stepped
      exact nomatch stepped
    | marking loc length =>
      rw [System.step, main] at stepped
      rw [← Option.some.inj stepped]
      exact kept.mark narrow main
  | select ready =>
    cases timer : system.timer with
    | selected _ _ | cleared _ _ | failed _ _ =>
      rw [System.step, timer] at stepped
      exact nomatch stepped
    | idle =>
      rw [System.step, timer] at stepped
      dsimp only at stepped
      split at stepped
      · rename_i opened
        split at stepped
        · rw [← Option.some.inj stepped]
          exact kept
        · rw [← Option.some.inj stepped]
          exact kept.select timer opened.1 _ _
      · rw [← Option.some.inj stepped]
        exact kept
  | clear =>
    cases timer : system.timer with
    | idle | cleared _ _ | failed _ _ =>
      rw [System.step, timer] at stepped
      exact nomatch stepped
    | selected first count =>
      rw [System.step, timer] at stepped
      rw [← Option.some.inj stepped]
      exact kept.clear timer
  | write result =>
    cases timer : system.timer with
    | idle | selected _ _ | failed _ _ =>
      rw [System.step, timer] at stepped
      exact nomatch stepped
    | cleared first count =>
      rw [System.step, timer] at stepped
      cases result with
      | written =>
        rw [← Option.some.inj stepped]
        exact kept.written timer
      | short left =>
        rw [← Option.some.inj stepped]
        exact kept.short timer left
  | restore =>
    cases timer : system.timer with
    | idle | selected _ _ | cleared _ _ =>
      rw [System.step, timer] at stepped
      exact nomatch stepped
    | failed first count =>
      rw [System.step, timer] at stepped
      rw [← Option.some.inj stepped]
      exact kept.restore timer

/-- In every state of every run, once the storage has been opened, an empty mask with no thread on its
way means that the file has what the buffer has; and marking a block inside the storage marks every
line that it touches. -/
theorem linux_savedWhenIdle (board : Board) (narrow : board.lines ≤ maskBits)
    (beyond : Nat → Bool) (content : Option (List UInt8)) (steps : List Step)
    (fits : ∀ step ∈ steps, step.Fits board) (final : System)
    (reached : runSteps (System.step board beyond) (System.boot content) steps = some final) :
    (final.storage.initialised = true → SavedWhenIdle board final) ∧
      MarksTouched board beyond final.storage := by
  have meets : Meets (System.step board beyond) (fun _ step => step.Fits board)
      (System.boot content) steps :=
    meets_of_forall steps (System.boot content) fits
  have kept : WritesBack board final :=
    runSteps_keeps (WritesBack board) (fun _ _ _ kept fits stepped => kept.step narrow fits stepped)
      (boot_writesBack content) meets reached
  exact ⟨kept.saved narrow, marksTouched narrow final.storage⟩

/-- A block is written. The first write of its line fails, the second succeeds, and in between another
block comes for the same line. -/
def retriedUpdate : List Step :=
  [.copy 16383 [1], .mark, .select true, .clear, .write (.short fun _ => 7), .copy 16382 [2],
    .restore, .mark, .select true, .clear, .write .written]

theorem linux_savedWhenIdle_retried :
    ∃ final, runSteps (System.step linuxBoard fun _ => false) (System.boot (some [255]))
        retriedUpdate = some final ∧
      (final.storage.initialised = true → SavedWhenIdle linuxBoard final) ∧
      MarksTouched linuxBoard (fun _ => false) final.storage := by
  have fits : ∀ step ∈ retriedUpdate, step.Fits linuxBoard := by
    intro step member
    simp only [retriedUpdate, List.mem_cons, List.not_mem_nil, or_false] at member
    rcases member with rfl | rfl | rfl | rfl | rfl | rfl | rfl | rfl | rfl | rfl | rfl
    · exact (by decide : [(1 : UInt8)].length ≤ linuxBoard.size)
    · trivial
    · trivial
    · trivial
    · trivial
    · exact (by decide : [(2 : UInt8)].length ≤ linuxBoard.size)
    all_goals trivial
  have comesBack : (runSteps (System.step linuxBoard fun _ => false) (System.boot (some [255]))
      retriedUpdate).isSome = true := by decide +kernel
  obtain ⟨final, reached⟩ := Option.isSome_iff_exists.mp comesBack
  exact ⟨final, reached,
    linux_savedWhenIdle linuxBoard (by decide) _ _ retriedUpdate fits final reached⟩

/-- At boot nothing is on its way and the mask is empty, but the buffer has not been loaded yet. -/
theorem not_savedWhenIdle_boot :
    runSteps (System.step linuxBoard fun _ => false) (System.boot (some [255])) [] =
        some (System.boot (some [255])) ∧
      ¬ SavedWhenIdle linuxBoard (System.boot (some [255])) := by
  refine ⟨rfl, fun saved => ?_⟩
  have same := saved rfl rfl (fun _ _ => rfl) 0 (Nat.le_refl 0) (by decide)
  exact absurd same (by decide)

end Urus.HalStorage.Linux
