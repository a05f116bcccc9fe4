/-
This file is about when the numbering of the logs can be relied on. The oldest log is
found by one reading of the directory in which zero stands for no log yet. Names that
are no logs disturb it: one that counts as zero makes the reading forget what it has
found, unless a number behind the last one comes, and one that counts as a number is
taken for a log. The list of the logs needs more: every log must have a name that is
made from its number.

Where none of this happens, the answer does not depend on the order of the directory, and
the entries of the list are the logs, the oldest one first.
-/

import Urus.LogFiles.Model
import Urus.Lib.Trace

namespace Urus.DataFlashFile

variable {machine : Machine} {last : ℕ} {names : List FileName}

/-! ### One reading -/

/-- The reading of numbers, one after another. -/
def scan (last : ℕ) (numbers : List ℕ) : ℕ := numbers.foldl (older last) 0

theorem scan_snoc (numbers : List ℕ) (number : ℕ) :
    scan last (numbers ++ [number]) = older last (scan last numbers) number :=
  List.foldl_append

/-- The reading of a directory is one of the numbers that the names count as. -/
theorem findOldestLog_uncached (listing : List FileName) :
    findOldestLog machine last 0 listing =
      if last = 0 then (0, 0)
      else (scan last (counted machine listing), scan last (counted machine listing)) := by
  have numbers : listing.foldl (readName machine last) 0 = scan last (counted machine listing) := by
    rw [scan, counted, List.foldl_filterMap]
    congr
    funext current name
    rw [readName]
    cases thisnum machine name <;> rfl
  rw [findOldestLog, if_neg (not_not.mpr rfl), numbers]

theorem scan_mem (last : ℕ) (numbers : List ℕ) : scan last numbers = 0 ∨ scan last numbers ∈ numbers := by
  induction numbers using List.reverseRecOn with
  | nil => exact Or.inl rfl
  | append_singleton numbers number inductionHypothesis =>
    have choice : older last (scan last numbers) number = number ∨
        older last (scan last numbers) number = scan last numbers := by
      unfold older
      split_ifs <;> simp
    rw [scan_snoc]
    obtain new | kept := choice
    · rw [new]
      exact Or.inr (List.mem_append_right _ (List.mem_singleton_self _))
    · rw [kept]
      exact inductionHypothesis.imp_right (List.mem_append_left _)

variable {numbers : List ℕ}

/-- A number behind the last one is found whatever else is read: the reading ends at the smallest
of these. -/
theorem scan_behind (behind : ∃ number ∈ numbers, last < number) :
    last < scan last numbers ∧ ∀ number ∈ numbers, last < number → scan last numbers ≤ number := by
  induction numbers using List.reverseRecOn with
  | nil => simp at behind
  | append_singleton numbers number inductionHypothesis =>
    rw [scan_snoc]
    by_cases before : ∃ number ∈ numbers, last < number
    · obtain ⟨found, least⟩ := inductionHypothesis before
      unfold older
      refine ⟨by split_ifs <;> omega, fun other member behindOther => ?_⟩
      obtain early | isNumber := List.mem_append.mp member
      · have := least other early behindOther
        split_ifs <;> omega
      · rw [List.mem_singleton] at isNumber
        split_ifs <;> omega
    · have small : scan last numbers ≤ last := by
        obtain none | member := scan_mem last numbers
        · omega
        · exact not_lt.mp fun large => before ⟨_, member, large⟩
      have new : last < number := by
        obtain ⟨other, member, large⟩ := behind
        obtain early | isNumber := List.mem_append.mp member
        · exact absurd ⟨other, early, large⟩ before
        · rwa [List.mem_singleton.mp isNumber] at large
      have taken : older last (scan last numbers) number = number := by
        unfold older
        split_ifs <;> omega
      rw [taken]
      refine ⟨new, fun other member large => ?_⟩
      obtain early | isNumber := List.mem_append.mp member
      · exact absurd ⟨other, early, large⟩ before
      · exact le_of_eq (List.mem_singleton.mp isNumber).symm

/-- Without zeros and without numbers behind the last one, the reading ends at the smallest one. -/
theorem scan_least (positive : 0 ∉ numbers) (inside : ∀ number ∈ numbers, number ≤ last) :
    ∀ number ∈ numbers, scan last numbers ≤ number ∧ scan last numbers ≠ 0 := by
  induction numbers using List.reverseRecOn with
  | nil => exact nofun
  | append_singleton numbers number inductionHypothesis =>
    rw [List.mem_append, List.mem_singleton, not_or] at positive
    have bounds := inductionHypothesis positive.1 fun other member =>
      inside other (List.mem_append_left _ member)
    have new := inside number (List.mem_append_right _ (List.mem_singleton_self _))
    have small : scan last numbers ≤ last := by
      obtain none | member := scan_mem last numbers
      · omega
      · exact inside _ (List.mem_append_left _ member)
    rw [scan_snoc]
    unfold older
    intro other member
    obtain early | isNumber := List.mem_append.mp member
    · obtain ⟨least, found⟩ := bounds other early
      split_ifs <;> omega
    · rw [List.mem_singleton] at isNumber
      split_ifs <;> omega

/-- Zeros in front change nothing. -/
theorem scan_zeros_first {zeros : List ℕ} (numbers : List ℕ) (zero : ∀ number ∈ zeros, number = 0) :
    scan last (zeros ++ numbers) = scan last numbers := by
  have kept : scan last zeros = 0 :=
    (scan_mem last zeros).elim id fun member => zero _ member
  rw [scan, List.foldl_append]
  change numbers.foldl (older last) (scan last zeros) = _
  rw [kept, scan]

theorem scan_zeros_last {zeros numbers : List ℕ} (some_zero : zeros ≠ [])
    (zero : ∀ number ∈ zeros, number = 0) (inside : ∀ number ∈ numbers, number ≤ last) :
    scan last (numbers ++ zeros) = 0 := by
  have small : scan last numbers ≤ last := by
    obtain none | member := scan_mem last numbers
    · omega
    · exact inside _ member
  have forgets : ∀ current ≤ last, older last current 0 = 0 := by
    intro current bound
    unfold older
    split_ifs <;> omega
  obtain ⟨first, rest, rfl⟩ := List.exists_cons_of_ne_nil some_zero
  have later : ∀ {zeros : List ℕ}, (∀ number ∈ zeros, number = 0) →
      zeros.foldl (older last) 0 = 0 := fun zero =>
    (scan_mem last _).elim id fun member => zero _ member
  rw [scan, List.foldl_append, List.foldl_cons, zero first List.mem_cons_self]
  change rest.foldl (older last) (older last (scan last numbers) 0) = 0
  rw [forgets _ small, later fun number member => zero number (List.mem_cons_of_mem _ member)]

/-- The reading ends at the number that is met first, if zeros do no harm. -/
theorem scan_first (last : ℕ) (bounded : ∀ number ∈ numbers, number ≤ maxLogFiles)
    (harmless : (∃ number ∈ numbers, last < number) ∨ 0 ∉ numbers) {number : ℕ}
    (listed : number ∈ numbers) :
    scan last numbers ∈ numbers ∧ scan last numbers ≠ 0 ∧ ∀ other ∈ numbers, other ≠ 0 →
      cyclicRank maxLogFiles last (scan last numbers) ≤ cyclicRank maxLogFiles last other := by
  have found := scan_mem last numbers
  by_cases behind : ∃ number ∈ numbers, last < number
  · obtain ⟨large, least⟩ := scan_behind behind
    have member := found.resolve_left (by omega)
    refine ⟨member, by omega, fun other isOther otherPositive => ?_⟩
    rw [cyclicRank_le_iff (by omega) (bounded _ member) (by omega) (bounded other isOther)]
    by_cases largeOther : last < other
    · exact Or.inr ⟨iff_of_true large largeOther, least other isOther largeOther⟩
    · exact Or.inl ⟨large, not_lt.mp largeOther⟩
  · have inside : ∀ number ∈ numbers, number ≤ last := fun number member =>
      not_lt.mp fun large => behind ⟨number, member, large⟩
    have least := scan_least (harmless.resolve_left behind) inside
    have some_first := (least number listed).2
    have member := found.resolve_left some_first
    refine ⟨member, some_first, fun other isOther otherPositive => ?_⟩
    rw [cyclicRank_le_iff (by omega) (bounded _ member) (by omega) (bounded other isOther)]
    exact Or.inr ⟨iff_of_false (not_lt.mpr (inside _ member)) (not_lt.mpr (inside other isOther)),
      (least other isOther).1⟩

/-! ### The orders of a directory -/

theorem mem_counted_perm (machine : Machine) {listing : List FileName} (order : listing.Perm names) (number : ℕ) :
    number ∈ counted machine listing ↔ number ∈ counted machine names :=
  (order.filterMap _).mem_iff

/-- The names that count as zero. -/
def zeroNames (machine : Machine) (names : List FileName) : List FileName :=
  names.filter fun name => thisnum machine name = some 0

/-- The other names. -/
def otherNames (machine : Machine) (names : List FileName) : List FileName :=
  names.filter fun name => !decide (thisnum machine name = some 0)

theorem zeroNames_append_otherNames (machine : Machine) (names : List FileName) :
    (zeroNames machine names ++ otherNames machine names).Perm names :=
  List.filter_append_perm _ names

theorem counted_zeroNames {number : ℕ} (member : number ∈ counted machine (zeroNames machine names)) :
    number = 0 := by
  obtain ⟨name, isName, counts⟩ := List.mem_filterMap.mp member
  have zero := of_decide_eq_true (List.mem_filter.mp isName).2
  exact Option.some.inj (counts.symm.trans zero)

theorem mem_counted_otherNames {number : ℕ} :
    number ∈ counted machine (otherNames machine names) ↔
      number ∈ counted machine names ∧ number ≠ 0 := by
  simp only [counted, otherNames, List.mem_filterMap, List.mem_filter, Bool.not_eq_true',
    decide_eq_false_iff_not]
  constructor
  · rintro ⟨name, ⟨isName, other⟩, counts⟩
    refine ⟨⟨name, isName, counts⟩, ?_⟩
    rintro rfl
    exact other counts
  · rintro ⟨⟨name, isName, counts⟩, other⟩
    refine ⟨name, ⟨isName, fun zero => other ?_⟩, counts⟩
    exact Option.some.inj (counts.symm.trans zero)

theorem counted_le {number : ℕ} (member : number ∈ counted machine names) :
    number ≤ maxLogFiles := by
  obtain ⟨name, -, counts⟩ := List.mem_filterMap.mp member
  exact thisnum_le counts

theorem counted_append (first second : List FileName) :
    counted machine (first ++ second) = counted machine first ++ counted machine second :=
  List.filterMap_append

/-! ### The oldest log -/

/-- The answers of earlier readings are cached. -/
def cachedAfter (machine : Machine) (last : ℕ) (earlier : List (List FileName)) : ℕ :=
  runCalls (fun cached listing => (findOldestLog machine last cached listing).2) 0 earlier

theorem findOldestLog_answer (machine : Machine) (last : ℕ) (earlier : List (List FileName)) (listing : List FileName) :
    ∃ reading ∈ listing :: earlier,
      (findOldestLog machine last (cachedAfter machine last earlier) listing).1 =
        if last = 0 then 0 else scan last (counted machine reading) := by
  have cached : cachedAfter machine last earlier = 0 ∨ ∃ reading ∈ earlier,
      cachedAfter machine last earlier =
        if last = 0 then 0 else scan last (counted machine reading) := by
    refine runCalls_invariant (fun cached => cached = 0 ∨ ∃ reading ∈ earlier, cached =
      if last = 0 then 0 else scan last (counted machine reading)) ?_ (Or.inl rfl)
    intro cached reading member kept
    by_cases empty : cached = 0
    · rw [empty, findOldestLog_uncached]
      refine Or.inr ⟨reading, member, ?_⟩
      split <;> rfl
    · rw [findOldestLog, if_pos empty]
      exact kept
  by_cases empty : cachedAfter machine last earlier = 0
  · rw [empty, findOldestLog_uncached]
    refine ⟨listing, List.mem_cons_self, ?_⟩
    split <;> rfl
  · obtain ⟨reading, member, answer⟩ := cached.resolve_left empty
    refine ⟨reading, List.mem_cons_of_mem _ member, ?_⟩
    rw [findOldestLog, if_pos empty]
    exact answer

/-- The oldest log can be relied on: a last log is known if there is a log, no name that counts as
a number is met before all logs, and a name that counts as zero does no harm. -/
structure Clean (machine : Machine) (last : ℕ) (names : List FileName) : Prop where
  known : last = 0 → logs names = ∅
  early : last ≠ 0 → ∀ number ∈ counted machine names, number ≠ 0 →
    ∃ logNum ∈ logs names,
      cyclicRank maxLogFiles last logNum ≤ cyclicRank maxLogFiles last number
  zero : last ≠ 0 → 0 ∈ counted machine names →
    (∃ number ∈ counted machine names, last < number) ∨
      ∀ number ∈ counted machine names, number = 0

theorem Clean.firstOrNone {number : ℕ} (clean : Clean machine last names) (known : last ≠ 0)
    (member : number ∈ counted machine names) (positive : number ≠ 0)
    (least : ∀ other ∈ counted machine names, other ≠ 0 →
      cyclicRank maxLogFiles last number ≤ cyclicRank maxLogFiles last other) :
    FirstOrNone maxLogFiles last (logs names) number := by
  obtain ⟨logNum, isLog, before⟩ := clean.early known number member positive
  obtain ⟨logPositive, logInside⟩ := logs_bounds isLog
  have behind := least logNum (mem_counted_of_mem_logs isLog) (by omega)
  obtain rfl := cyclicRank_inj (Nat.pos_of_ne_zero positive) (counted_le member) logPositive logInside
    (le_antisymm behind before)
  refine Or.inl ⟨isLog, fun other isOther => ?_⟩
  have := (logs_bounds isOther).1
  exact least other (mem_counted_of_mem_logs isOther) (by omega)

/-- The reading finds the oldest log, in every order of the directory. -/
theorem Clean.scan (clean : Clean machine last names) (known : last ≠ 0) {listing : List FileName}
    (order : listing.Perm names) :
    FirstOrNone maxLogFiles last (logs names) (scan last (counted machine listing)) := by
  have same := mem_counted_perm machine order
  by_cases some_number : ∃ number ∈ counted machine listing, number ≠ 0
  · obtain ⟨number, listed, positive⟩ := some_number
    have harmless : (∃ number ∈ counted machine listing, last < number) ∨
        0 ∉ counted machine listing := by
      rw [or_iff_not_imp_right, not_not]
      intro zero
      obtain ⟨other, isOther, large⟩ | onlyZeros := clean.zero known ((same 0).mp zero)
      · exact ⟨other, (same other).mpr isOther, large⟩
      · exact absurd (onlyZeros number ((same number).mp listed)) positive
    obtain ⟨member, some_first, least⟩ := scan_first last
      (fun number member => counted_le ((same number).mp member)) harmless listed
    exact clean.firstOrNone known ((same _).mp member) some_first fun other isOther =>
      least other ((same other).mpr isOther)
  · -- nothing but zeros
    push Not at some_number
    refine Or.inr ⟨Set.eq_empty_of_forall_notMem fun logNum isLog => ?_,
      (scan_mem last _).elim id (some_number _)⟩
    have := (logs_bounds isLog).1
    have := some_number logNum ((same logNum).mpr (mem_counted_of_mem_logs isLog))
    omega

/-- The oldest log is found, whatever was asked for before, in every order of the directory. -/
def Found (machine : Machine) (last : ℕ) (names : List FileName) : Prop :=
  ∀ earlier listing, (∀ order ∈ listing :: earlier, order.Perm names) →
    FirstOrNone maxLogFiles last (logs names)
      (findOldestLog machine last (cachedAfter machine last earlier) listing).1

theorem Clean.found (clean : Clean machine last names) : Found machine last names := by
  intro earlier listing orders
  obtain ⟨reading, member, answer⟩ :=
    findOldestLog_answer machine last earlier listing
  rw [answer]
  split
  · rename_i unknown
    exact Or.inr ⟨clean.known unknown, rfl⟩
  · rename_i known
    exact clean.scan known (orders reading member)

/-- An answer in one order of the directory. -/
theorem Found.scan (found : Found machine last names) (known : last ≠ 0) {listing : List FileName}
    (order : listing.Perm names) :
    FirstOrNone maxLogFiles last (logs names) (scan last (counted machine listing)) := by
  have answer := found [] listing (by simpa using order)
  rw [show cachedAfter machine last [] = 0 from rfl, findOldestLog_uncached, if_neg known] at answer
  exact answer

theorem not_firstOrNone_zero (some_log : (logs names).Nonempty) :
    ¬ FirstOrNone maxLogFiles last (logs names) 0 := by
  rintro (isFirst | ⟨none, -⟩)
  · exact absurd (logs_bounds isFirst.1).1 (by decide)
  · exact some_log.ne_empty none

theorem scan_zeroNames_first (last : ℕ) {number : ℕ} (member : number ∈ counted machine names)
    (positive : number ≠ 0) :
    let first := DataFlashFile.scan last
      (counted machine (zeroNames machine names ++ otherNames machine names))
    first ≠ 0 ∧ cyclicRank maxLogFiles last first ≤ cyclicRank maxLogFiles last number := by
  rw [counted_append, scan_zeros_first _ fun number member => counted_zeroNames member]
  obtain ⟨-, some_first, least⟩ := scan_first last
    (fun number member => counted_le (mem_counted_otherNames.mp member).1)
    (Or.inr fun zero => (mem_counted_otherNames.mp zero).2 rfl)
    (mem_counted_otherNames.mpr ⟨member, positive⟩)
  exact ⟨some_first, least number (mem_counted_otherNames.mpr ⟨member, positive⟩) positive⟩

theorem Found.clean (found : Found machine last names) : Clean machine last names := by
  refine ⟨fun unknown => ?_, fun known number member positive => ?_, fun known zero => ?_⟩
  · by_contra some_log
    have answer := found [] names (by simp)
    rw [show cachedAfter machine last [] = 0 from rfl, findOldestLog_uncached, if_pos unknown]
      at answer
    exact not_firstOrNone_zero (Set.nonempty_iff_ne_empty.mpr some_log) answer
  · obtain ⟨some_first, before⟩ := scan_zeroNames_first last member positive
    obtain isFirst | ⟨-, none⟩ := found.scan known (zeroNames_append_otherNames machine names)
    · exact ⟨_, isFirst.1, before⟩
    · exact absurd none some_first
  · rw [or_iff_not_imp_left]
    intro within
    by_contra some_number
    push Not at within some_number
    obtain ⟨number, member, positive⟩ := some_number
    -- with the zeros last the reading forgets all it has found
    have forgotten : DataFlashFile.scan last
        (counted machine (otherNames machine names ++ zeroNames machine names)) = 0 := by
      rw [counted_append]
      refine scan_zeros_last ?_ (fun number member => counted_zeroNames member)
        fun number member => within number (mem_counted_otherNames.mp member).1
      intro none
      have inEither := 
        (mem_counted_perm machine (zeroNames_append_otherNames machine names) 0).mpr zero
      rw [counted_append, none, List.nil_append, mem_counted_otherNames] at inEither
      exact inEither.2 rfl
    obtain ⟨some_first, before⟩ := scan_zeroNames_first last member positive
    obtain isFirst | ⟨-, none⟩ := found.scan known (zeroNames_append_otherNames machine names)
    · have answer := found.scan known 
        (List.perm_append_comm.trans (zeroNames_append_otherNames machine names))
      rw [forgotten] at answer
      exact not_firstOrNone_zero ⟨_, isFirst.1⟩ answer
    · exact some_first none

/-! ### The list of the logs -/

/-- The loop counts logs that exist down to where it ends, and ends at the lower number or where a
log does not exist. -/
theorem countLogs_spec (names : List FileName) {low i : ℕ} (ordered : low ≤ i) (ret : ℕ) :
    (countLogs names low i ret).1 + (countLogs names low i ret).2 = ret + i ∧
      low ≤ (countLogs names low i ret).2 ∧ (countLogs names low i ret).2 ≤ i ∧
      (∀ number, (countLogs names low i ret).2 < number → number ≤ i →
        logExists names number = true) ∧
      ((countLogs names low i ret).2 ≠ low →
        logExists names (countLogs names low i ret).2 = false) := by
  induction i generalizing ret with
  | zero =>
    rw [countLogs]
    exact ⟨rfl, ordered, le_refl _, fun number above inside => absurd inside (not_le.mpr above),
      fun other => absurd (Nat.le_zero.mp ordered).symm other⟩
  | succ i inductionHypothesis =>
    rw [countLogs]
    split
    · rename_i above
      split
      · rename_i found
        obtain ⟨sum, lower, upper, exist, ends⟩ := inductionHypothesis (by omega) (ret + 1)
        refine ⟨by omega, lower, by omega, fun number above inside => ?_, ends⟩
        by_cases first : number = i + 1
        · rw [first]
          exact found
        · exact exist number above (by omega)
      · rename_i missing
        exact ⟨rfl, ordered, le_refl _, fun number above inside => absurd inside (not_le.mpr above),
          fun _ => Bool.not_eq_true _ ▸ missing⟩
    · exact ⟨rfl, ordered, le_refl _, fun number above inside => absurd inside (not_le.mpr above),
        fun other => absurd (by omega) other⟩

/-- The number of logs: they exist from the last one back, and the one before them does not. -/
theorem getNumLogs_spec (names : List FileName) (inside : last ≤ maxLogFiles) :
    getNumLogs names last ≤ maxLogFiles ∧
      (∀ number, 1 ≤ number → number ≤ maxLogFiles →
        stepsBack maxLogFiles last number < getNumLogs names last → logExists names number = true) ∧
      ∀ number, 1 ≤ number → number ≤ maxLogFiles →
        stepsBack maxLogFiles last number = getNumLogs names last →
          logExists names number = false := by
  obtain ⟨sum, -, upper, exist, ends⟩ := countLogs_spec names (Nat.zero_le last) 0
  obtain ⟨sum', lower', upper', exist', ends'⟩ := countLogs_spec names inside
    (countLogs names 0 last 0).1
  unfold getNumLogs stepsBack
  dsimp only
  split
  · rename_i all
    rw [all] at sum exist
    refine ⟨by omega, fun number positive within near => ?_, fun number positive within next => ?_⟩
    · split at near
      · exact exist number (by omega) (by omega)
      · exact exist' number (by omega) within
    · split at next
      · omega
      · obtain rfl : number = (countLogs names last maxLogFiles (countLogs names 0 last 0).1).2 := by
          omega
        exact ends' (by omega)
  · rename_i some_missing
    refine ⟨by omega, fun number positive within near => ?_, fun number positive within next => ?_⟩
    · split at near
      · exact exist number (by omega) (by omega)
      · omega
    · split at next
      · obtain rfl : number = (countLogs names 0 last 0).2 := by omega
        exact ends some_missing
      · omega

theorem getNumLogs_eq_iff {length : ℕ} (run : RunEnding maxLogFiles last (logs names) length) :
    getNumLogs names last = length ↔ ∀ logNum ∈ logs names, logExists names logNum = true := by
  obtain ⟨bound, exist, ends⟩ := getNumLogs_spec names run.inside
  have bounded := run.bounded
  constructor
  · intro same logNum isLog
    obtain ⟨positive, inside, near⟩ := (run.mem_iff logNum).mp isLog
    exact exist logNum positive inside (same ▸ near)
  · intro found
    by_contra other
    obtain few | many := lt_or_gt_of_ne other
    · obtain ⟨number, positive, inside, next⟩ :=
        exists_stepsBack run.inside _ (lt_of_lt_of_le few bounded)
      have isLog := (run.mem_iff number).mpr ⟨positive, inside, next ▸ few⟩
      exact nomatch (ends number positive inside next).symm.trans (found number isLog)
    · obtain ⟨number, positive, inside, next⟩ :=
        exists_stepsBack run.inside _ (lt_of_lt_of_le many bound)
      have isLog := mem_logs_of_logExists positive inside
        (exist number positive inside (next ▸ many))
      exact absurd ((run.mem_iff number).mp isLog).2.2 (not_lt.mpr (le_of_eq next.symm))

/-- The entries of the list, counted from the oldest log. -/
theorem logNumFromListEntry_eq {cached : ℕ} {listing : List FileName} {length : ℕ}
    (run : RunEnding maxLogFiles last (logs names) length)
    (isFirst : IsFirst maxLogFiles last (logs names)
      (findOldestLog machine last cached listing).1) :
    Set.EqOn (logNumFromListEntry machine last cached listing)
      (fun entry => wrapped maxLogFiles
        ((findOldestLog machine last cached listing).1 + entry - 1)) (Set.Icc 1 length) := by
  intro entry listed
  have some_log := (logs_bounds isFirst.1).1
  obtain ⟨-, inside, -⟩ := run.wrapped_rank isFirst listed.1 listed.2
  dsimp only
  rw [logNumFromListEntry, if_neg (by omega)]
  refine Nat.mod_eq_of_lt (lt_of_le_of_lt inside ?_)
  decide

/-- Both halves of the numbering: the oldest log is found, and if the logs are a run that ends at
the last one, the entries of the list are the logs, in the order of the run. -/
def Numbered (machine : Machine) (last : ℕ) (names : List FileName) : Prop :=
  ∀ earlier listing, (∀ order ∈ listing :: earlier, order.Perm names) →
    let cached := cachedAfter machine last earlier
    let entries := Set.Icc 1 (getNumLogs names last)
    FirstOrNone maxLogFiles last (logs names) (findOldestLog machine last cached listing).1 ∧
      ∀ length, RunEnding maxLogFiles last (logs names) length →
        Set.BijOn (logNumFromListEntry machine last cached listing) entries (logs names) ∧
          StrictMonoOn (fun entry => cyclicRank maxLogFiles last
            (logNumFromListEntry machine last cached listing entry)) entries

/-- The numbering can be relied on, for a directory in every order and whatever was asked for
before, if and only if the names that are no logs do not disturb the search for the oldest log
and, where the logs are a run that ends at the last one, all of them are found by their
numbers. -/
theorem numbered_iff_clean :
    Numbered machine last names ↔ Clean machine last names ∧
      ∀ length, RunEnding maxLogFiles last (logs names) length →
        ∀ logNum ∈ logs names, logExists names logNum = true := by
  constructor
  · intro numbered
    have found : Found machine last names := fun earlier listing orders =>
      (numbered earlier listing orders).1
    refine ⟨found.clean, fun length run => (getNumLogs_eq_iff run).mp ?_⟩
    obtain ⟨first, entries⟩ := numbered [] names (by simp)
    obtain isFirst | ⟨none, -⟩ := first
    · exact length_eq_of_bijOn (entries length run).1 (run.bijOn isFirst).1
    · exact absurd none (Set.nonempty_of_mem run.stop_mem).ne_empty
  · rintro ⟨clean, named⟩ earlier listing orders
    have first := clean.found earlier listing orders
    refine ⟨first, fun length run => ?_⟩
    obtain isFirst | ⟨none, -⟩ := first
    · rw [(getNumLogs_eq_iff run).mpr (named length run)]
      have entries := logNumFromListEntry_eq run isFirst
      obtain ⟨counts, ordered⟩ := run.bijOn isFirst
      refine ⟨counts.congr entries.symm, ordered.congr fun entry listed => ?_⟩
      exact congrArg (cyclicRank maxLogFiles last) (entries listed).symm
    · exact absurd none (Set.nonempty_of_mem run.stop_mem).ne_empty

/-- A machine with long numbers of 64 bits. -/
def wideMachine : Machine := ⟨64, by decide⟩

/-- A log, and a file with the suffix whose name is no number. -/
def withStranger : List FileName :=
  [⟨['1', '.', 'B', 'I', 'N'], by decide⟩, ⟨['f', 'o', 'o', '.', 'B', 'I', 'N'], by decide⟩]

/-- The stranger is read last and counts as zero, and there is no oldest log. -/
theorem not_numbered_stranger :
    1 ∈ logs withStranger ∧ (findOldestLog wideMachine 1 0 withStranger).1 = 0 ∧
      ¬ Numbered wideMachine 1 withStranger := by
  have log : 1 ∈ logs withStranger :=
    ⟨_, List.mem_cons_self, isLog_of_digits 0 (le_refl 1) (by decide) rfl⟩
  have lost : (findOldestLog wideMachine 1 0 withStranger).1 = 0 := by decide +kernel
  refine ⟨log, lost, fun numbered => ?_⟩
  have first := (numbered [] withStranger (by simp)).1
  rw [show cachedAfter wideMachine 1 [] = 0 from rfl, lost] at first
  exact not_firstOrNone_zero ⟨1, log⟩ first

end Urus.DataFlashFile
