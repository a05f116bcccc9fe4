/-
This file models how the logs on a card are numbered. A log is a file whose name is its
number with a suffix. The numbers go up to a last one and then start again, and a file of
its own says which number was used last. The oldest log is the first one behind it, round
the cycle, and is found by reading the directory once, in whatever order it comes.

A name is turned into a number by the C library, which takes digits as long as there are
any and has zero for a name that begins with something else.
-/

import Urus.Lib.CyclicOrder

namespace Urus.DataFlashFile

/-- `MAX_LOG_FILES`. -/
def maxLogFiles : ℕ := 500

/-- The width of `unsigned long`. -/
structure Machine where
  longWidth : ℕ
  wide : 32 ≤ longWidth

/-- A name in a directory, with a character for each byte. -/
structure FileName where
  chars : List Char
  short : chars.length ≤ 255
  deriving DecidableEq

/-! ### Names -/

/-- `.BIN`. -/
def suffix : List Char := ['.', 'B', 'I', 'N']

/-- `_log_file_name_short` without the directory. -/
def logFileNameShort (logNum : ℕ) : List Char := Nat.toDigits 10 logNum ++ suffix

/-- `_log_file_name_long` without the directory. -/
def logFileNameLong (logNum : ℕ) : List Char :=
  List.replicate (8 - (Nat.toDigits 10 logNum).length) '0' ++ Nat.toDigits 10 logNum ++ suffix

/-- `file_exists`. -/
def fileExists (names : List FileName) (chars : List Char) : Bool :=
  names.any fun name => name.chars = chars

/-- `_log_file_name`. -/
def logFileName (names : List FileName) (logNum : ℕ) : List Char :=
  if fileExists names (logFileNameShort logNum) then logFileNameShort logNum
  else logFileNameLong logNum

/-- `log_exists`. -/
def logExists (names : List FileName) (logNum : ℕ) : Bool :=
  fileExists names (logFileName names logNum)

/-- `isspace`. -/
def isSpace (c : Char) : Bool := c = ' ' ∨ 9 ≤ c.toNat ∧ c.toNat ≤ 13

/-- The sign of a number, and what is behind it. -/
def takeSign : List Char → Bool × List Char
  | '-' :: rest => (true, rest)
  | '+' :: rest => (false, rest)
  | chars => (false, chars)

/-- `strtoul` with base ten. -/
def strtoul (machine : Machine) (chars : List Char) : ℕ :=
  let (negative, chars) := takeSign (chars.dropWhile isSpace)
  let value := Nat.ofDigitChars 10 (chars.takeWhile Char.isDigit) 0
  if value ≥ 2 ^ machine.longWidth then 2 ^ machine.longWidth - 1
  else if negative then (2 ^ machine.longWidth - value) % 2 ^ machine.longWidth
  else value

/-! ### The oldest log -/

/-- The number of a name, if `find_oldest_log` does not pass over it. -/
def thisnum (machine : Machine) (name : FileName) : Option ℕ :=
  let length := name.chars.length % 2 ^ 8
  if length < 5 then none
  else if (name.chars.drop (length - 4)).take 4 ≠ suffix then none
  else if strtoul machine name.chars % 2 ^ 16 > maxLogFiles then none
  else some (strtoul machine name.chars % 2 ^ 16)

/-- The oldest log of what was read when one more number has been. -/
def older (lastLogNum currentOldestLog thisnum : ℕ) : ℕ :=
  if currentOldestLog = 0 then thisnum
  else if currentOldestLog ≤ lastLogNum then
    if thisnum > lastLogNum then thisnum
    else if thisnum < currentOldestLog then thisnum
    else currentOldestLog
  else if thisnum > lastLogNum then
    if thisnum < currentOldestLog then thisnum else currentOldestLog
  else currentOldestLog

/-- The body of the loop over a directory. -/
def readName (machine : Machine) (lastLogNum currentOldestLog : ℕ) (name : FileName) : ℕ :=
  match thisnum machine name with
  | none => currentOldestLog
  | some thisnum => older lastLogNum currentOldestLog thisnum

/-- `find_oldest_log` with the last log number, the cached answer, and the names in the order in
which the directory gives them: the answer, and the new cached one. -/
def findOldestLog (machine : Machine) (lastLogNum cachedOldestLog : ℕ) (listing : List FileName) :
    ℕ × ℕ :=
  if cachedOldestLog ≠ 0 then (cachedOldestLog, cachedOldestLog)
  else if lastLogNum = 0 then (0, cachedOldestLog)
  else
    let currentOldestLog := listing.foldl (readName machine lastLogNum) 0
    (currentOldestLog, currentOldestLog)

/-! ### The list of the logs -/

/-- `_log_num_from_list_entry`. -/
def logNumFromListEntry (machine : Machine) (lastLogNum cachedOldestLog : ℕ)
    (listing : List FileName) (listEntry : ℕ) : ℕ :=
  let oldestLog := (findOldestLog machine lastLogNum cachedOldestLog listing).1
  if oldestLog = 0 then 0
  else
    let logNum := oldestLog + listEntry - 1
    (if logNum > maxLogFiles then logNum - maxLogFiles else logNum) % 2 ^ 16

/-- A loop down to a number that is left when a log does not exist: the count, and where it
ended. -/
def countLogs (names : List FileName) (low : ℕ) : (i ret : ℕ) → ℕ × ℕ
  | 0, ret => (ret, 0)
  | i + 1, ret =>
    if i + 1 > low then
      if logExists names (i + 1) then countLogs names low i (ret + 1) else (ret, i + 1)
    else (ret, i + 1)

/-- `get_num_logs`. -/
def getNumLogs (names : List FileName) (high : ℕ) : ℕ :=
  let (ret, i) := countLogs names 0 high 0
  if i = 0 then (countLogs names high maxLogFiles ret).1 else ret

/-! ### The logs -/

/-- A name of the form of digits with the suffix, whose number is one of a log. -/
def IsLog (name : FileName) (logNum : ℕ) : Prop :=
  ∃ digits : List Char, digits ≠ [] ∧ (∀ c ∈ digits, c.isDigit) ∧ name.chars = digits ++ suffix ∧
    Nat.ofDigitChars 10 digits 0 = logNum ∧ 1 ≤ logNum ∧ logNum ≤ maxLogFiles

/-- The numbers of the logs in a directory. -/
def logs (names : List FileName) : Set ℕ := {logNum | ∃ name ∈ names, IsLog name logNum}

/-- The numbers that the names of a directory count as. -/
def counted (machine : Machine) (names : List FileName) : List ℕ :=
  names.filterMap (thisnum machine)

variable {logNum : ℕ} {names : List FileName} {name : FileName} {machine : Machine}

theorem logs_bounds (member : logNum ∈ logs names) :
    1 ≤ logNum ∧ logNum ≤ maxLogFiles := by
  obtain ⟨name, -, digits, -, -, -, -, bounds⟩ := member
  exact bounds

theorem isDigit_plain {c : Char} (digit : c.isDigit) : isSpace c = false ∧ c ≠ '-' ∧ c ≠ '+' := by
  rw [Char.isDigit, Bool.and_eq_true, decide_eq_true_iff, decide_eq_true_iff, ge_iff_le,
    UInt32.le_iff_toNat_le, UInt32.le_iff_toNat_le] at digit
  change 48 ≤ c.toNat ∧ c.toNat ≤ 57 at digit
  refine ⟨?_, ?_, ?_⟩
  · rw [isSpace, decide_eq_false_iff_not, not_or]
    refine ⟨?_, by omega⟩
    rintro rfl
    exact absurd digit (by decide)
  · rintro rfl
    exact absurd digit (by decide)
  · rintro rfl
    exact absurd digit (by decide)

theorem strtoul_digits (machine : Machine) {digits : List Char} (nonempty : digits ≠ [])
    (all : ∀ c ∈ digits, c.isDigit) (small : Nat.ofDigitChars 10 digits 0 < 2 ^ 32) :
    strtoul machine (digits ++ suffix) = Nat.ofDigitChars 10 digits 0 := by
  have fits : Nat.ofDigitChars 10 digits 0 < 2 ^ machine.longWidth :=
    lt_of_lt_of_le small (Nat.pow_le_pow_right (by decide) machine.wide)
  obtain ⟨first, rest, rfl⟩ := List.exists_cons_of_ne_nil nonempty
  obtain ⟨notSpace, notMinus, notPlus⟩ := isDigit_plain (all first List.mem_cons_self)
  have start : (first :: rest ++ suffix).dropWhile isSpace = first :: rest ++ suffix := by
    rw [List.cons_append, List.dropWhile_cons_of_neg (by rw [notSpace]; decide)]
  have unsigned : takeSign (first :: rest ++ suffix) = (false, first :: rest ++ suffix) := by
    rw [List.cons_append, takeSign]
    · exact fun tail same => notMinus (List.cons.inj same).1
    · exact fun tail same => notPlus (List.cons.inj same).1
  have read : (first :: rest ++ suffix).takeWhile Char.isDigit = first :: rest := by
    rw [List.takeWhile_append_of_pos all]
    exact List.append_nil _
  simp only [strtoul, start, unsigned, read]
  rw [if_neg (not_le.mpr fits), if_neg (by decide)]

/-- A log is not passed over, and counts as its number. -/
theorem thisnum_of_isLog (machine : Machine) (isLog : IsLog name logNum) :
    thisnum machine name = some logNum := by
  obtain ⟨digits, nonempty, all, chars, value, positive, inside⟩ := isLog
  have short := name.short
  have some_digit := List.length_pos_iff.mpr nonempty
  have length : name.chars.length = digits.length + 4 := by
    rw [chars, List.length_append]
    rfl
  have number : strtoul machine name.chars % 2 ^ 16 = logNum := by
    have small : Nat.ofDigitChars 10 digits 0 < 2 ^ 32 := by
      rw [value]
      exact lt_of_le_of_lt inside (by decide)
    rw [chars, strtoul_digits machine nonempty all small, value]
    exact Nat.mod_eq_of_lt (lt_of_le_of_lt inside (by decide))
  have ending : (name.chars.drop (name.chars.length % 2 ^ 8 - 4)).take 4 = suffix := by
    rw [Nat.mod_eq_of_lt (by omega), length, Nat.add_sub_cancel, chars, List.drop_left]
    rfl
  unfold thisnum
  dsimp only
  rw [if_neg (by omega), if_neg (by rw [ending]; exact not_not.mpr rfl), number,
    if_neg (not_lt.mpr inside)]

theorem thisnum_le {number : ℕ} (counts : thisnum machine name = some number) :
    number ≤ maxLogFiles := by
  unfold thisnum at counts
  dsimp only at counts
  split at counts
  · exact nomatch counts
  · split at counts
    · exact nomatch counts
    · split at counts
      · exact nomatch counts
      · rename_i inside
        rw [← Option.some.inj counts]
        exact not_lt.mp inside

theorem mem_counted_of_mem_logs (member : logNum ∈ logs names) :
    logNum ∈ counted machine names := by
  obtain ⟨name, isName, isLog⟩ := member
  exact List.mem_filterMap.mpr ⟨name, isName, thisnum_of_isLog machine isLog⟩

theorem isLog_of_digits (zeros : ℕ) (positive : 1 ≤ logNum) (inside : logNum ≤ maxLogFiles)
    (chars : name.chars = List.replicate zeros '0' ++ Nat.toDigits 10 logNum ++ suffix) :
    IsLog name logNum := by
  refine ⟨_, ?_, fun c member => ?_, chars, ?_, positive, inside⟩
  · exact List.append_ne_nil_of_right_ne_nil _ Nat.toDigits_ne_nil
  · obtain zero | digit := List.mem_append.mp member
    · rw [List.eq_of_mem_replicate zero]
      rfl
    · exact Nat.isDigit_of_mem_toDigits (by decide) (by decide) digit
  · rw [Nat.ofDigitChars_append, Nat.ofDigitChars_replicate_zero, Nat.mul_zero,
      Nat.ofDigitChars_ten_toDigits]

theorem mem_logs_of_logExists (positive : 1 ≤ logNum) (inside : logNum ≤ maxLogFiles)
    (found : logExists names logNum = true) :
    logNum ∈ logs names := by
  rw [logExists, fileExists, List.any_eq_true] at found
  obtain ⟨name, isName, same⟩ := found
  rw [decide_eq_true_iff, logFileName] at same
  refine ⟨name, isName, ?_⟩
  split at same
  · exact isLog_of_digits 0 positive inside same
  · exact isLog_of_digits _ positive inside same

end Urus.DataFlashFile
