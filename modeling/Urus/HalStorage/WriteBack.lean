/-
This file proves what the write-back of the ChibiOS storage keeps. The main thread copies a
block into the buffer and then sets the bits of its lines in the dirty mask. The timer
thread writes the first dirty line to the medium, which may fail, and then clears its bit.
Each of the four is one step, and a run is any interleaving of the steps.

No update is lost as long as the main thread does not set a bit that the timer is about to
clear, for a line that it has changed since the timer wrote it. Where it does, the bit is
cleared although the medium has the old line.
-/

import Urus.HalStorage.Model
import Urus.Lib.Trace

namespace Urus.HalStorage

open Image

/-! ### The two threads -/

/-- The main thread: outside `write_block`, or between its copy and `_mark_dirty`. -/
inductive Main
  | idle
  | marking (loc length : Nat)
  deriving DecidableEq

/-- The timer thread: outside `_timer_tick`, or between the write of a line and the clearing of its
bit. -/
inductive Timer
  | idle
  | clearing (line : Nat)
  deriving DecidableEq

/-- The storage object, its medium and the two threads. -/
structure System where
  storage : State
  main : Main
  timer : Timer

/-- How the write of a line ends. A failed write may leave anything in the line, and the flash
driver may answer a failure by writing all of the flash again from the buffer. -/
inductive WriteResult
  | written
  | failed (left : Image)
  | rewritten

/-- A step of one of the threads. -/
inductive Step
  | read (loc n : Nat)
  | copy (loc : Nat) (src : List UInt8)
  | mark
  | write (result : WriteResult)
  | clear

/-- `CH_STORAGE_LINE_SIZE`. -/
def Board.lineSize (board : Board) : Nat := 2 ^ board.lineShift

/-- The loop of `_timer_tick` that looks for the first dirty line. -/
def firstDirty (board : Board) (mask : Nat → Bool) : Option Nat :=
  (List.range' 0 board.lines).find? mask

/-- What the write of a line leaves in the medium. -/
def writeLine (board : Board) (buffer persisted : Image) (line : Nat) : WriteResult → Image
  | .written => put persisted (board.lineSize * line)
      (slice buffer (board.lineSize * line) board.lineSize)
  | .failed left => put persisted (board.lineSize * line)
      (slice left (board.lineSize * line) board.lineSize)
  | .rewritten => put persisted 0 (slice buffer 0 board.size)

/-- The timer clears the bit of a line that it has written. -/
def afterWrite (line : Nat) : WriteResult → Timer
  | .written => .clearing line
  | .failed _ | .rewritten => .idle

/-- The medium with other bytes. A file has another timer. -/
def Medium.withImage (medium : Medium) (image : Image) : Option Medium :=
  match medium with
  | .file _ => none
  | .fram _ => some (.fram image)
  | .flash _ => some (.flash image)

/-- `_timer_tick` up to the end of the write. -/
def tickWrite (board : Board) (system : System) (result : WriteResult) : Option System :=
  if ¬ system.storage.initialised then some system
  else
    match firstDirty board system.storage.dirtyMask with
    | none => some system
    | some line =>
      let persisted :=
        writeLine board system.storage.buffer system.storage.medium.image line result
      (system.storage.medium.withImage persisted).map fun medium =>
        { system with
          storage := { system.storage with medium := medium }
          timer := afterWrite line result }

/-- One step. A thread takes only the step that it has come to. -/
def System.step (board : Board) (system : System) : Step → Option System
  | .read loc n =>
    match system.main with
    | .idle => some { system with storage := (readBlock board system.storage loc n).1 }
    | .marking _ _ => none
  | .copy loc src =>
    match system.main with
    | .idle =>
      let (storage, copied) := copyBlock board system.storage loc src
      some { system with
        storage := storage
        main := if copied then .marking loc src.length else .idle }
    | .marking _ _ => none
  | .mark =>
    match system.main with
    | .idle => none
    | .marking loc length => some { system with
        storage := markDirty board system.storage loc length
        main := .idle }
  | .write result =>
    match system.timer with
    | .idle => tickWrite board system result
    | .clearing _ => none
  | .clear =>
    match system.timer with
    | .idle => none
    | .clearing line => some { system with
        storage := { system.storage with
          dirtyMask := Function.update system.storage.dirtyMask line false }
        timer := .idle }

/-- The board with its medium at boot. -/
def System.boot (medium : Medium) : System := ⟨HalStorage.boot medium, .idle, .idle⟩

/-- The guarantee: once the storage has been loaded, and with no block on its way into the mask, a
clear mask means that everything is persisted. -/
def Guaranteed (board : Board) (system : System) : Prop :=
  system.storage.initialised = true → system.main = .idle →
    (∀ line, system.storage.dirtyMask line = false) →
    Agree system.storage.medium.image system.storage.buffer 0 board.size

/-- The line is persisted as it is in the buffer. -/
def LineSaved (board : Board) (storage : State) (line : Nat) : Prop :=
  Agree storage.medium.image storage.buffer (board.lineSize * line)
    (board.lineSize * (line + 1))

/-- The main thread is about to mark the line. -/
def Main.Pending (board : Board) (line : Nat) : Main → Prop
  | .idle => False
  | .marking loc length => line ∈ markedLines board loc length

/-- The main thread does not mark a line that the timer is about to clear, unless the timer wrote it
as it is now. -/
def Undisturbed (board : Board) (system : System) : Step → Prop
  | .mark => ∀ line, line < board.lines → system.timer = .clearing line →
      system.main.Pending board line → LineSaved board system.storage line
  | _ => True

/-! ### Lines -/

variable {board : Board}

theorem Board.size_eq (board : Board) : board.size = board.lineSize * board.lines :=
  Nat.mul_comm _ _

theorem Board.lineSize_pos (board : Board) : 0 < board.lineSize := Nat.two_pow_pos _

theorem foldl_setBit (lines : List Nat) (mask : Nat → Bool) (line : Nat) :
    lines.foldl (setBit board) mask line = true ↔
      mask line = true ∨ (line ∈ lines ∧ line < board.lines) := by
  induction lines generalizing mask with
  | nil => simp
  | cons first rest inductionHypothesis =>
    rw [List.foldl_cons, inductionHypothesis]
    have one : setBit board mask first line = true ↔
        mask line = true ∨ (line = first ∧ line < board.lines) := by
      unfold setBit
      split
      · rename_i outside
        exact ⟨Or.inl, fun either => either.resolve_right fun same => by omega⟩
      · by_cases same : line = first
        · subst same
          rw [Function.update_self]
          exact ⟨fun _ => Or.inr ⟨rfl, by omega⟩, fun _ => rfl⟩
        · rw [Function.update_of_ne same]
          exact ⟨Or.inl, fun either => either.resolve_right fun both => same both.1⟩
    rw [one, List.mem_cons]
    tauto

/-- A block inside the storage touches only lines that `_mark_dirty` goes through. -/
theorem mem_markedLines {loc length line address : Nat} (fits : loc + length ≤ board.size)
    (low : loc ≤ address) (high : address < loc + length)
    (above : board.lineSize * line ≤ address) (below : address < board.lineSize * (line + 1)) :
    line ∈ markedLines board loc length := by
  have bound : loc + length < 2 ^ 16 := lt_of_le_of_lt fits board.small
  have first : loc / board.lineSize < line + 1 := by
    rw [Nat.div_lt_iff_lt_mul board.lineSize_pos, Nat.mul_comm]
    omega
  have last : line ≤ (loc + length) / board.lineSize := by
    rw [Nat.le_div_iff_mul_le board.lineSize_pos, Nat.mul_comm]
    omega
  rw [markedLines, Nat.mod_eq_of_lt bound, Nat.shiftRight_eq_div_pow, Nat.shiftRight_eq_div_pow,
    List.mem_range'_1]
  rw [Board.lineSize] at first last
  omega

theorem firstDirty_some {mask : Nat → Bool} {line : Nat}
    (found : firstDirty board mask = some line) : line < board.lines ∧ mask line = true := by
  refine ⟨?_, List.find?_some found⟩
  have member := List.mem_of_find?_eq_some found
  rw [List.mem_range'_1] at member
  omega

theorem exists_line {address : Nat} (inside : address < board.size) :
    ∃ line, line < board.lines ∧ board.lineSize * line ≤ address ∧
      address < board.lineSize * (line + 1) := by
  refine ⟨address / board.lineSize, ?_, Nat.mul_div_le _ _, ?_⟩
  · rwa [Nat.div_lt_iff_lt_mul board.lineSize_pos]
  · exact Nat.lt_mul_div_succ _ board.lineSize_pos

theorem line_inside {line address : Nat} (bound : line < board.lines)
    (below : address < board.lineSize * (line + 1)) : address < board.size := by
  rw [board.size_eq]
  exact lt_of_lt_of_le below (Nat.mul_le_mul_left _ bound)

/-- Two different lines have no address in common. -/
theorem line_unique {first second address : Nat} (above : board.lineSize * first ≤ address)
    (below : address < board.lineSize * (first + 1)) (above' : board.lineSize * second ≤ address)
    (below' : address < board.lineSize * (second + 1)) : first = second := by
  have one : first < second + 1 := Nat.lt_of_mul_lt_mul_left (lt_of_le_of_lt above below')
  have other : second < first + 1 := Nat.lt_of_mul_lt_mul_left (lt_of_le_of_lt above' below)
  omega

/-! ### The invariant -/

/-- The medium is not a file. -/
def Medium.Chip (medium : Medium) : Prop := ∀ content, medium ≠ .file content

/-- A line of the open storage is persisted, or is about to be marked, or is marked and not about to
be cleared. -/
def Tracked (board : Board) (system : System) (line : Nat) : Prop :=
  LineSaved board system.storage line ∨ system.main.Pending board line ∨
    (system.storage.dirtyMask line = true ∧ system.timer ≠ .clearing line)

/-- What every undisturbed run keeps. -/
structure WritesBack (board : Board) (system : System) : Prop where
  chip : system.storage.medium.Chip
  closed : system.storage.initialised = false →
    system.main = .idle ∧ system.timer = .idle ∧ system.storage.Shows board fun _ => 0
  lines : system.storage.initialised = true → ∀ line, line < board.lines →
    Tracked board system line

variable {system next : System}

theorem boot_writesBack {medium : Medium} (chip : medium.Chip) :
    WritesBack board (System.boot medium) where
  chip := chip
  closed := fun _ => ⟨rfl, rfl, fun _ _ _ => rfl⟩
  lines := fun opened => nomatch opened

section

variable (kept : WritesBack board system)

include kept

/-- With nothing on its way into the mask, a clear mask means that every line is persisted. -/
theorem WritesBack.guaranteed : Guaranteed board system := by
  intro opened idle clean address _ inside
  obtain ⟨line, bound, above, below⟩ := exists_line inside
  rcases kept.lines opened line bound with saved | pending | ⟨dirty, -⟩
  · exact saved address above below
  · rw [idle] at pending
    exact pending.elim
  · rw [clean line] at dirty
    exact absurd dirty (by decide)

theorem WritesBack.open :
    WritesBack board { system with storage := storageOpen board system.storage } := by
  cases state : system.storage.initialised with
  | true =>
    rw [storageOpen_opened state]
    exact kept
  | false =>
    obtain ⟨-, -, blank⟩ := kept.closed state
    have medium : (storageOpen board system.storage).medium = system.storage.medium :=
      storageOpen_medium kept.chip
    refine ⟨?_, fun closed => ?_, fun _ line bound => Or.inl ?_⟩
    · change (storageOpen board system.storage).medium.Chip
      rw [medium]
      exact kept.chip
    · rw [storageOpen_initialised] at closed
      exact absurd closed (by decide)
    · intro address above below
      change (storageOpen board system.storage).medium.image address = _
      rw [medium, storageOpen_shows state blank address (Nat.zero_le _) (line_inside bound below)]

theorem WritesBack.read (loc n : Nat) :
    WritesBack board { system with storage := (readBlock board system.storage loc n).1 } := by
  unfold readBlock
  split
  · exact kept
  · exact kept.open

/-- The lines of a block that is copied are about to be marked. The others are as they were. -/
theorem WritesBack.copy (idle : system.main = .idle)
    (opened : system.storage.initialised = true) {loc : Nat} {src : List UInt8}
    (inside : loc + src.length ≤ board.size) :
    WritesBack board { system with
      storage := { system.storage with buffer := put system.storage.buffer loc src }
      main := .marking loc src.length } where
  chip := kept.chip
  closed := fun closed => absurd (opened.symm.trans closed) (by decide)
  lines := by
    intro _ line bound
    by_cases marked : line ∈ markedLines board loc src.length
    · exact Or.inr (Or.inl marked)
    · rcases kept.lines opened line bound with saved | pending | dirty
      · refine Or.inl fun address above below => ?_
        have outside : address < loc ∨ loc + src.length ≤ address := by
          by_contra covered
          exact marked (mem_markedLines inside (by omega) (by omega) above below)
        exact (saved address above below).trans (put_outside _ _ _ _ outside).symm
      · rw [idle] at pending
        exact pending.elim
      · exact Or.inr (Or.inr dirty)

/-- Marking turns the pending lines into marked ones. A line that the timer is about to clear is
persisted. -/
theorem WritesBack.mark {loc length : Nat}
    (main : system.main = .marking loc length) (undisturbed : Undisturbed board system .mark) :
    WritesBack board { system with
      storage := markDirty board system.storage loc length
      main := .idle } where
  chip := kept.chip
  closed := fun closed => nomatch (kept.closed closed).1.symm.trans main
  lines := by
    intro opened line bound
    have dirtyNow : (system.storage.dirtyMask line = true ∨
        (line ∈ markedLines board loc length ∧ line < board.lines)) →
        (markDirty board system.storage loc length).dirtyMask line = true :=
      (foldl_setBit _ _ _).mpr
    rcases kept.lines opened line bound with saved | pending | ⟨dirty, apart⟩
    · exact Or.inl saved
    · by_cases clearing : system.timer = .clearing line
      · exact Or.inl (undisturbed line bound clearing pending)
      · rw [main] at pending
        exact Or.inr (Or.inr ⟨dirtyNow (Or.inr ⟨pending, bound⟩), clearing⟩)
    · exact Or.inr (Or.inr ⟨dirtyNow (Or.inl dirty), apart⟩)

end

theorem writeLine_written (buffer persisted : Image) (line : Nat) :
    Agree (writeLine board buffer persisted line .written) buffer (board.lineSize * line)
      (board.lineSize * (line + 1)) := by
  intro address above below
  rw [Nat.mul_add_one] at below
  rw [writeLine, put_slice, if_pos ⟨above, below⟩]

theorem writeLine_outside (buffer persisted : Image) {line address : Nat} (result : WriteResult)
    (outside : ¬ (board.lineSize * line ≤ address ∧ address < board.lineSize * (line + 1)))
    (saved : persisted address = buffer address) :
    writeLine board buffer persisted line result address = buffer address := by
  rw [Nat.mul_add_one] at outside
  cases result with
  | written => rw [writeLine, put_slice, if_neg outside, saved]
  | failed left => rw [writeLine, put_slice, if_neg outside, saved]
  | rewritten =>
    rw [writeLine, put_slice, saved]
    exact ite_self _

theorem Medium.withImage_some {medium changed : Medium} {image : Image}
    (same : medium.withImage image = some changed) : changed.Chip ∧ changed.image = image := by
  cases medium with
  | file content => exact nomatch same
  | fram content =>
    rw [← Option.some.inj same]
    exact ⟨fun _ impossible => (nomatch impossible), rfl⟩
  | flash content =>
    rw [← Option.some.inj same]
    exact ⟨fun _ impossible => (nomatch impossible), rfl⟩

/-- The write of a line keeps the invariant, whatever comes of it. -/
theorem WritesBack.write (kept : WritesBack board system) {result : WriteResult}
    (stepped : tickWrite board system result = some next) : WritesBack board next := by
  unfold tickWrite at stepped
  split at stepped
  · rw [← Option.some.inj stepped]
    exact kept
  · rename_i opened
    rw [not_not] at opened
    split at stepped
    · rw [← Option.some.inj stepped]
      exact kept
    · rename_i line found
      obtain ⟨bound, dirty⟩ := firstDirty_some found
      obtain ⟨medium, changed, rfl⟩ := Option.map_eq_some_iff.mp stepped
      obtain ⟨chip, image⟩ := Medium.withImage_some changed
      refine ⟨chip, fun closed => absurd (opened.symm.trans closed) (by decide),
        fun _ other otherBound => ?_⟩
      by_cases same : other = line
      · subst same
        cases result with
        | written =>
          refine Or.inl fun address above below => ?_
          change medium.image address = _
          rw [image]
          exact writeLine_written _ _ _ address above below
        | failed left => exact Or.inr (Or.inr ⟨dirty, fun impossible => nomatch impossible⟩)
        | rewritten => exact Or.inr (Or.inr ⟨dirty, fun impossible => nomatch impossible⟩)
      · rcases kept.lines opened other otherBound with saved | pending | ⟨dirtyToo, -⟩
        · refine Or.inl fun address above below => ?_
          change medium.image address = _
          rw [image]
          exact writeLine_outside _ _ result
            (fun inside => same (line_unique above below inside.1 inside.2))
            (saved address above below)
        · exact Or.inr (Or.inl pending)
        · refine Or.inr (Or.inr ⟨dirtyToo, ?_⟩)
          cases result with
          | written => exact fun clearing => same (Timer.clearing.inj clearing).symm
          | failed left => exact fun impossible => nomatch impossible
          | rewritten => exact fun impossible => nomatch impossible

theorem WritesBack.clear (kept : WritesBack board system) {line : Nat}
    (timer : system.timer = .clearing line) :
    WritesBack board { system with
      storage := { system.storage with
        dirtyMask := Function.update system.storage.dirtyMask line false }
      timer := .idle } where
  chip := kept.chip
  closed := fun closed => nomatch (kept.closed closed).2.1.symm.trans timer
  lines := by
    intro opened other bound
    rcases kept.lines opened other bound with saved | pending | ⟨dirty, apart⟩
    · exact Or.inl saved
    · exact Or.inr (Or.inl pending)
    · have different : other ≠ line := fun same => apart (by rw [timer, same])
      refine Or.inr (Or.inr ⟨?_, fun impossible => nomatch impossible⟩)
      exact (Function.update_of_ne different _ _).trans dirty

/-- No block is longer than the storage. -/
def Step.Fits (board : Board) : Step → Prop
  | .copy _ src => src.length ≤ board.size
  | _ => True

theorem WritesBack.step (kept : WritesBack board system) {step : Step}
    (fair : step.Fits board ∧ Undisturbed board system step)
    (stepped : system.step board step = some next) : WritesBack board next := by
  cases step with
  | read loc n =>
    cases main : system.main with
    | marking _ _ =>
      rw [System.step, main] at stepped
      exact nomatch stepped
    | idle =>
      rw [System.step, main] at stepped
      rw [← Option.some.inj stepped]
      have opened := kept.read loc n
      rw [main] at opened
      exact opened
  | copy loc src =>
    cases main : system.main with
    | marking _ _ =>
      rw [System.step, main] at stepped
      exact nomatch stepped
    | idle =>
      rw [System.step, main] at stepped
      rcases copyBlock_cases system.storage loc fair.1 with same | ⟨inside, copied⟩
      · rw [same] at stepped
        rw [← Option.some.inj stepped]
        exact main ▸ kept
      · rw [copied] at stepped
        rw [← Option.some.inj stepped]
        exact kept.open.copy main (storageOpen_initialised _) inside
  | mark =>
    cases main : system.main with
    | idle =>
      rw [System.step, main] at stepped
      exact nomatch stepped
    | marking loc length =>
      rw [System.step, main] at stepped
      rw [← Option.some.inj stepped]
      exact kept.mark main fair.2
  | write result =>
    cases timer : system.timer with
    | clearing _ =>
      rw [System.step, timer] at stepped
      exact nomatch stepped
    | idle =>
      rw [System.step, timer] at stepped
      exact kept.write stepped
  | clear =>
    cases timer : system.timer with
    | idle =>
      rw [System.step, timer] at stepped
      exact nomatch stepped
    | clearing line =>
      rw [System.step, timer] at stepped
      rw [← Option.some.inj stepped]
      exact kept.clear timer

/-- In every state of every run in which no line is marked between its write and the clearing of its
bit with other bytes than were written, a clear mask means that everything is persisted. -/
theorem guaranteed_of_undisturbed (board : Board) (medium : Medium) (chip : medium.Chip)
    (steps : List Step) (fits : ∀ step ∈ steps, step.Fits board)
    (undisturbed : Meets (System.step board) (Undisturbed board) (System.boot medium) steps)
    (final : System) (reached : runSteps (System.step board) (System.boot medium) steps = some final) :
    Guaranteed board final := by
  have fitting : Meets (System.step board) (fun _ step => step.Fits board) (System.boot medium)
      steps :=
    meets_of_forall steps (System.boot medium) fits
  have fair := fitting.and undisturbed
  exact (runSteps_keeps (WritesBack board) (fun _ _ _ kept fair stepped => kept.step fair stepped)
    (boot_writesBack chip) fair reached).guaranteed

/-- A block is written, marked, saved and cleared. -/
def savedUpdate : List Step := [.copy 0 [1], .mark, .write .written, .clear]

theorem guaranteed_of_undisturbed_saved :
    (Medium.fram fun _ => 0).Chip ∧ (∀ step ∈ savedUpdate, step.Fits chibiBoard) ∧
    Meets (System.step chibiBoard) (Undisturbed chibiBoard) (System.boot (.fram fun _ => 0))
      savedUpdate ∧
    ∃ final, runSteps (System.step chibiBoard) (System.boot (.fram fun _ => 0)) savedUpdate =
      some final ∧ Guaranteed chibiBoard final := by
  have chip : (Medium.fram fun _ => 0).Chip := fun _ impossible => nomatch impossible
  have fits : ∀ step ∈ savedUpdate, step.Fits chibiBoard := by
    intro step member
    simp only [savedUpdate, List.mem_cons, List.not_mem_nil, or_false] at member
    rcases member with rfl | rfl | rfl | rfl
    · exact (by decide : [(1 : UInt8)].length ≤ chibiBoard.size)
    all_goals trivial
  have undisturbed : Meets (System.step chibiBoard) (Undisturbed chibiBoard)
      (System.boot (.fram fun _ => 0)) savedUpdate := by
    refine ⟨trivial, fun marking copied => ?_⟩
    rw [← Option.some.inj copied]
    refine ⟨fun _ _ clearing => (nomatch clearing), fun _ _ => ?_⟩
    exact ⟨trivial, fun _ _ => ⟨trivial, fun _ _ => trivial⟩⟩
  exact ⟨chip, fits, undisturbed, _, rfl,
    guaranteed_of_undisturbed chibiBoard _ chip savedUpdate fits undisturbed _ rfl⟩

/-- A second block for the same line is copied and marked between the write of the line and the
clearing of its bit. -/
def lostUpdate : List Step :=
  [.copy 0 [1], .mark, .write .written, .copy 0 [2], .mark, .clear]

/-- The second block is in the buffer, is not persisted, and nothing is marked. -/
theorem not_guaranteed_lostUpdate :
    ∃ final, runSteps (System.step chibiBoard) (System.boot (.fram fun _ => 0)) lostUpdate =
      some final ∧ final.storage.initialised = true ∧ final.main = .idle ∧
      (∀ line, final.storage.dirtyMask line = false) ∧
      final.storage.buffer 0 = 2 ∧ final.storage.medium.image 0 = 1 ∧
      ¬ Guaranteed chibiBoard final := by
  have clean : ∀ line, Function.update (Function.update (Function.update
      (fun _ => false : Nat → Bool) 0 true) 0 true) 0 false line = false := by
    intro line
    by_cases first : line = 0
    · rw [first, Function.update_self]
    · rw [Function.update_of_ne first, Function.update_of_ne first, Function.update_of_ne first]
  refine ⟨_, rfl, rfl, rfl, clean, rfl, rfl, fun guaranteed => ?_⟩
  exact absurd (guaranteed rfl rfl clean 0 (Nat.le_refl 0) (by decide)) (by decide)

end Urus.HalStorage
