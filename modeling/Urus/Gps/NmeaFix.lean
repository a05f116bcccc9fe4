/-
This file proves for which sentences the fix does not depend on what came before. A sentence copies
to the state what its terms have left in a few variables. Those variables are not cleared at its
beginning, and an empty term leaves its variable alone, so the copy is the sentence's own if and only
if each of the variables has been assigned by one of its terms.
-/

import Urus.Gps.NmeaSentence

namespace Urus.Gps.Nmea

open NmeaDecimal

/-! ### Variables -/

/-- The variables from which a fix is copied. -/
inductive Variable
  | latitude
  | longitude
  | altitude
  | satelliteCount
  | hdop
  | qualityIndicator
  deriving DecidableEq

/-- The value of a variable. -/
def New.get (new : New) : Variable → ℤ
  | .latitude => new.latitude
  | .longitude => new.longitude
  | .altitude => new.altitude
  | .satelliteCount => new.satelliteCount
  | .hdop => new.hdop
  | .qualityIndicator => new.qualityIndicator

/-- The variable that a term assigns. The terms of the hemispheres only change a sign. -/
def Label.assigns : Label → Option Variable
  | .fixData => some .qualityIndicator
  | .satelliteCount => some .satelliteCount
  | .hdop => some .hdop
  | .latitude => some .latitude
  | .longitude => some .longitude
  | .altitude => some .altitude
  | _ => none

/-- The variables that a sentence with good data copies to the state. -/
def SentenceType.uses : SentenceType → List Variable
  | .rmc => [.latitude, .longitude]
  | .gga => [.latitude, .longitude, .altitude, .satelliteCount, .hdop, .qualityIndicator]
  | .vtg => []
  | .other => []

/-- The case for a term, if it is read. -/
def labelOf (sentenceType : SentenceType) (termNumber : UInt8) (term : List UInt8) :
    Option Label :=
  if termNumber = 0 ∨ sentenceType = .other ∨ cString (term.take (termSize - 1)) = [] then none
  else label (sentenceType.value + termNumber.toNat)

/-- What some terms say of their sentence: its type, and whether its data is good. -/
def outline (terms : List (List UInt8)) : Reading :=
  Reading.readTerms (fun _ => 0) 0 terms (.blank ⟨0, 0, 0, 0, 0, 0, 0, 0, 0, 0⟩)

/-- One of the terms assigns a variable. -/
def Assigned (terms : List (List UInt8)) (target : Variable) : Prop :=
  ∃ before term after, terms = before ++ term :: after ∧
    (labelOf (outline before).sentenceType (UInt8.ofNat before.length) term).bind Label.assigns =
      some target

/-- If the data of a sentence is good, its terms assign all variables that it copies. -/
def SelfContained (sentence : Sentence) : Prop :=
  (outline sentence.terms).gpsDataGood = true →
    ∀ target ∈ (outline sentence.terms).sentenceType.uses, Assigned sentence.terms target

/-! ### One term -/

variable {fraction fraction' : List UInt8 → ℤ} {reading reading' : Reading}

/-- Two readings are of sentences that say the same of themselves. -/
structure Alike (reading reading' : Reading) : Prop where
  sentenceType : reading.sentenceType = reading'.sentenceType
  gpsDataGood : reading.gpsDataGood = reading'.gpsDataGood

theorem Alike.symm (alike : Alike reading reading') : Alike reading' reading :=
  ⟨alike.sentenceType.symm, alike.gpsDataGood.symm⟩

theorem Alike.trans {reading'' : Reading} (alike : Alike reading reading')
    (alike' : Alike reading' reading'') : Alike reading reading'' :=
  ⟨alike.sentenceType.trans alike'.sentenceType, alike.gpsDataGood.trans alike'.gpsDataGood⟩

theorem new_firstTerm (term : List UInt8) : (reading.firstTerm term).new = reading.new := by
  rw [Reading.firstTerm]
  split_ifs <;> rfl

theorem Alike.firstTerm (alike : Alike reading reading') (term : List UInt8) :
    Alike (reading.firstTerm term) (reading'.firstTerm term) := by
  obtain ⟨-, same⟩ := alike
  rw [Reading.firstTerm, Reading.firstTerm]
  split_ifs
  · exact ⟨rfl, same⟩
  · exact ⟨rfl, same⟩
  · exact ⟨rfl, same⟩
  · exact ⟨rfl, rfl⟩
  · exact ⟨rfl, same⟩

theorem Alike.read (alike : Alike reading reading') (text : List UInt8) (label : Label) :
    Alike (reading.read fraction text label) (reading'.read fraction' text label) := by
  obtain ⟨same, same'⟩ := alike
  cases label with
  | validityRmc | fixData | validityVtg => exact ⟨same, rfl⟩
  | northSouth | eastWest =>
    rw [Reading.read, Reading.read]
    split_ifs <;> exact ⟨same, same'⟩
  | satelliteCount | hdop | time | date | latitude | longitude | altitude | speed | course =>
    exact ⟨same, same'⟩

theorem readTerm_eq (termNumber : UInt8) (term : List UInt8) :
    reading.readTerm fraction termNumber term =
      if termNumber = 0 then reading.firstTerm (term.take (termSize - 1) ++ [0])
      else (labelOf reading.sentenceType termNumber term).elim reading
        (reading.read fraction (cString (term.take (termSize - 1)))) := by
  rw [Reading.readTerm, Reading.completeTerm, cString_append, labelOf]
  by_cases first : termNumber = 0
  · rw [if_pos first, if_pos first]
  rw [if_neg first, if_neg first]
  by_cases skipped : reading.sentenceType = .other ∨ cString (term.take (termSize - 1)) = []
  · rw [if_neg fun both => not_or.mpr both skipped, if_pos (Or.inr skipped)]
    rfl
  · rw [if_pos (not_or.mp skipped), if_neg (not_or.mpr ⟨first, skipped⟩)]
    cases label (reading.sentenceType.value + termNumber.toNat) <;> rfl

theorem labelOf_first (sentenceType : SentenceType) (term : List UInt8) :
    labelOf sentenceType 0 term = none :=
  if_pos (Or.inl rfl)

theorem new_readTerm (termNumber : UInt8) (term : List UInt8) :
    (reading.readTerm fraction termNumber term).new =
      (labelOf reading.sentenceType termNumber term).elim reading.new fun label =>
        (reading.read fraction (cString (term.take (termSize - 1))) label).new := by
  rw [readTerm_eq]
  by_cases first : termNumber = 0
  · rw [if_pos first, first, labelOf_first]
    exact new_firstTerm _
  · rw [if_neg first]
    cases labelOf reading.sentenceType termNumber term <;> rfl

theorem Alike.readTerm (alike : Alike reading reading') (termNumber : UInt8)
    (term : List UInt8) : Alike (reading.readTerm fraction termNumber term)
      (reading'.readTerm fraction' termNumber term) := by
  rw [readTerm_eq, readTerm_eq, ← alike.sentenceType]
  by_cases first : termNumber = 0
  · rw [if_pos first, if_pos first]
    exact alike.firstTerm _
  · rw [if_neg first, if_neg first]
    cases labelOf reading.sentenceType termNumber term with
    | none => exact alike
    | some label => exact alike.read _ label

/-- A term assigns a variable whatever it was before, or leaves it alone, or negates it. -/
theorem get_read_cases (fraction : List UInt8 → ℤ) (text : List UInt8) (label : Label)
    (target : Variable) :
    (label.assigns = some target ∧ ∀ reading reading' : Reading,
      (reading.read fraction text label).new.get target =
        (reading'.read fraction text label).new.get target) ∨
    label.assigns ≠ some target ∧
      ((∀ reading : Reading, (reading.read fraction text label).new.get target =
          reading.new.get target) ∨
        ∀ reading : Reading, (reading.read fraction text label).new.get target =
          toInt32 (-reading.new.get target)) := by
  cases label with
  | northSouth =>
    refine Or.inr ⟨nofun, ?_⟩
    simp only [Reading.read]
    split_ifs
    · cases target with
      | latitude => exact Or.inr fun _ => rfl
      | longitude | altitude | satelliteCount | hdop | qualityIndicator => exact Or.inl fun _ => rfl
    · exact Or.inl fun _ => rfl
  | eastWest =>
    refine Or.inr ⟨nofun, ?_⟩
    simp only [Reading.read]
    split_ifs
    · cases target with
      | longitude => exact Or.inr fun _ => rfl
      | latitude | altitude | satelliteCount | hdop | qualityIndicator => exact Or.inl fun _ => rfl
    · exact Or.inl fun _ => rfl
  | validityRmc | validityVtg | time | date | speed | course =>
    exact Or.inr ⟨nofun, Or.inl fun _ => rfl⟩
  | fixData | satelliteCount | hdop | latitude | longitude | altitude =>
    cases target <;>
      first
      | exact Or.inl ⟨rfl, fun _ _ => rfl⟩
      | exact Or.inr ⟨nofun, Or.inl fun _ => rfl⟩

variable {label : Label} {target : Variable} {text : List UInt8} {terms : List (List UInt8)}

/-- A term that assigns a variable does so whatever it was before. -/
theorem get_read_assigned (assigns : label.assigns = some target) :
    (reading.read fraction text label).new.get target =
      (reading'.read fraction text label).new.get target := by
  rcases get_read_cases fraction text label target with ⟨-, assigned⟩ | ⟨other, -⟩
  · exact assigned reading reading'
  · exact absurd assigns other

/-- A variable with the same value keeps having the same value. -/
theorem get_read_same (label : Label) (same : reading.new.get target = reading'.new.get target) :
    (reading.read fraction text label).new.get target =
      (reading'.read fraction text label).new.get target := by
  rcases get_read_cases fraction text label target with ⟨-, assigned⟩ | ⟨-, kept | negated⟩
  · exact assigned reading reading'
  · rw [kept, kept, same]
  · rw [negated, negated, same]

/-- Two values are different `int32_t`. -/
def Apart (first second : ℤ) : Prop := first % 2 ^ 32 ≠ second % 2 ^ 32

theorem Apart.negate {first second : ℤ} (apart : Apart first second) :
    Apart (toInt32 (-first)) (toInt32 (-second)) := by
  rw [Apart, toInt32, toInt32] at *
  omega

/-- Two values that are different stay so under the other terms. -/
theorem apart_read (other : label.assigns ≠ some target)
    (apart : Apart (reading.new.get target) (reading'.new.get target)) :
    Apart ((reading.read fraction text label).new.get target)
      ((reading'.read fraction text label).new.get target) := by
  rcases get_read_cases fraction text label target with ⟨assigns, -⟩ | ⟨-, kept | negated⟩
  · exact absurd assigns other
  · rw [kept, kept]
    exact apart
  · rw [negated, negated]
    exact apart.negate

theorem quality_read (other : label.assigns ≠ some .qualityIndicator) :
    (reading.read fraction text label).new.qualityIndicator = reading.new.qualityIndicator := by
  cases label with
  | fixData => exact absurd rfl other
  | northSouth | eastWest =>
    rw [Reading.read]
    split_ifs <;> rfl
  | validityRmc | validityVtg | time | date | speed | course | satelliteCount | hdop | latitude |
    longitude | altitude => rfl

/-! ### All terms -/

theorem Alike.readTerms (alike : Alike reading reading') (termNumber : UInt8)
    (terms : List (List UInt8)) : Alike (Reading.readTerms fraction termNumber terms reading)
      (Reading.readTerms fraction' termNumber terms reading') := by
  induction terms generalizing termNumber reading reading' with
  | nil => exact alike
  | cons term rest inductionHypothesis =>
    exact inductionHypothesis (alike.readTerm termNumber term) (termNumber + 1)

/-- What the terms say of their sentence does not depend on what was there before. -/
theorem alike_outline (fraction : List UInt8 → ℤ) (terms : List (List UInt8)) (new : New) :
    Alike (Reading.readTerms fraction 0 terms (.blank new)) (outline terms) :=
  have blank : Alike (.blank new) (.blank ⟨0, 0, 0, 0, 0, 0, 0, 0, 0, 0⟩) := ⟨rfl, rfl⟩
  blank.readTerms 0 terms

theorem assigned_concat_iff {term : List UInt8} :
    Assigned (terms ++ [term]) target ↔ Assigned terms target ∨
      (labelOf (outline terms).sentenceType (UInt8.ofNat terms.length) term).bind Label.assigns =
        some target := by
  constructor
  · rintro ⟨before, current, after, split, assigns⟩
    rcases List.eq_nil_or_concat after with rfl | ⟨others, final, rfl⟩
    · obtain ⟨rfl, last⟩ := List.append_inj' split rfl
      obtain rfl := (List.cons.inj last).1
      exact Or.inr assigns
    · rw [List.concat_eq_append, ← List.cons_append, ← List.append_assoc] at split
      obtain ⟨rfl, -⟩ := List.append_inj' split rfl
      exact Or.inl ⟨before, current, others, rfl, assigns⟩
  · rintro (⟨before, current, after, rfl, assigns⟩ | assigns)
    · refine ⟨before, current, after ++ [term], ?_, assigns⟩
      rw [List.append_assoc, List.cons_append]
    · exact ⟨terms, term, [], rfl, assigns⟩

/-- The variable behind one more term. -/
theorem get_readTerms_concat (terms : List (List UInt8)) (term : List UInt8) (new : New) :
    (Reading.readTerms fraction 0 (terms ++ [term]) (.blank new)).new =
      (labelOf (outline terms).sentenceType (UInt8.ofNat terms.length) term).elim
        (Reading.readTerms fraction 0 terms (.blank new)).new fun label =>
          ((Reading.readTerms fraction 0 terms (.blank new)).read fraction
            (cString (term.take (termSize - 1))) label).new := by
  rw [readTerms_concat, UInt8.zero_add, new_readTerm,
    (alike_outline fraction terms new).sentenceType]

theorem get_assigned (assigned : Assigned terms target) (new new' : New) :
    (Reading.readTerms fraction 0 terms (.blank new)).new.get target =
      (Reading.readTerms fraction 0 terms (.blank new')).new.get target := by
  induction terms using List.reverseRecOn with
  | nil =>
    obtain ⟨before, term, after, split, -⟩ := assigned
    exact absurd split.symm (by simp)
  | append_singleton terms term inductionHypothesis =>
    rw [get_readTerms_concat, get_readTerms_concat]
    rw [assigned_concat_iff] at assigned
    cases read : labelOf (outline terms).sentenceType (UInt8.ofNat terms.length) term with
    | none =>
      rw [read] at assigned
      exact inductionHypothesis (assigned.resolve_right fun impossible => nomatch impossible)
    | some label =>
      rw [read] at assigned
      by_cases here : label.assigns = some target
      · exact get_read_assigned here
      · have before := inductionHypothesis (assigned.resolve_right here)
        exact get_read_same label before

variable (fraction) in
/-- A variable that no term assigns has different values if it had different ones before. -/
theorem apart_unassigned {new new' : New} (unassigned : ¬ Assigned terms target)
    (apart : Apart (new.get target) (new'.get target)) :
    Apart ((Reading.readTerms fraction 0 terms (.blank new)).new.get target)
      ((Reading.readTerms fraction 0 terms (.blank new')).new.get target) := by
  induction terms using List.reverseRecOn with
  | nil => exact apart
  | append_singleton terms term inductionHypothesis =>
    rw [assigned_concat_iff] at unassigned
    obtain ⟨before, other⟩ := not_or.mp unassigned
    rw [get_readTerms_concat, get_readTerms_concat]
    cases read : labelOf (outline terms).sentenceType (UInt8.ofNat terms.length) term with
    | none => exact inductionHypothesis before
    | some label =>
      rw [read] at other
      exact apart_read other (inductionHypothesis before)

theorem quality_unassigned {new : New} (unassigned : ¬ Assigned terms .qualityIndicator) :
    (Reading.readTerms fraction 0 terms (.blank new)).new.qualityIndicator =
      new.qualityIndicator := by
  induction terms using List.reverseRecOn with
  | nil => rfl
  | append_singleton terms term inductionHypothesis =>
    rw [assigned_concat_iff] at unassigned
    obtain ⟨before, other⟩ := not_or.mp unassigned
    rw [get_readTerms_concat]
    cases read : labelOf (outline terms).sentenceType (UInt8.ofNat terms.length) term with
    | none => exact inductionHypothesis before
    | some label =>
      rw [read] at other
      exact (quality_read other).trans (inductionHypothesis before)

/-! ### The fix -/

/-- What is written to the location, the number of satellites, the dilution and the status. -/
def Write.isFix : Write → Bool
  | .lat _ | .lng _ | .alt _ | .numSats _ | .hdop _ | .status _ => true
  | .groundSpeed _ | .groundCourse _ | .gpsTime _ _ => false

/-- The fix that a sentence writes behind a stream of bytes. -/
def fix (fraction : List UInt8 → ℤ) (history : List UInt8) (sentence : Sentence) : List Write :=
  (written fraction history sentence).filter Write.isFix

/-- The fix that has been read. -/
def Reading.fix (reading : Reading) : List Write := reading.writes.filter Write.isFix

theorem fix_eq (history : List UInt8) (sentence : Sentence) :
    fix fraction history sentence = if sentence.Correct then
      (Reading.readTerms fraction 0 sentence.terms
        (.blank (behind fraction history).reading.new)).fix else [] := by
  rw [fix, written_eq]
  split_ifs <;> rfl

/-- Two readings make the same fix if the variables that are copied have the same values. -/
theorem fix_same (alike : Alike reading reading')
    (same : reading.gpsDataGood = true → ∀ target ∈ reading.sentenceType.uses,
      reading.new.get target = reading'.new.get target) : reading.fix = reading'.fix := by
  obtain ⟨sentenceType, good⟩ := alike
  rw [Reading.fix, Reading.fix, Reading.writes, Reading.writes, ← sentenceType, ← good]
  cases trusted : reading.gpsDataGood with
  | false => rfl
  | true =>
    have values := same trusted
    cases kind : reading.sentenceType with
    | rmc =>
      rw [kind] at values
      have latitude : reading.new.latitude = reading'.new.latitude :=
        values .latitude (by decide)
      have longitude : reading.new.longitude = reading'.new.longitude :=
        values .longitude (by decide)
      rw [if_pos rfl, if_pos rfl, latitude, longitude]
      rfl
    | gga =>
      rw [kind] at values
      have latitude : reading.new.latitude = reading'.new.latitude :=
        values .latitude (by decide)
      have longitude : reading.new.longitude = reading'.new.longitude :=
        values .longitude (by decide)
      have altitude : reading.new.altitude = reading'.new.altitude :=
        values .altitude (by decide)
      have satelliteCount : reading.new.satelliteCount = reading'.new.satelliteCount :=
        values .satelliteCount (by decide)
      have hdop : reading.new.hdop = reading'.new.hdop := values .hdop (by decide)
      have quality : reading.new.qualityIndicator = reading'.new.qualityIndicator :=
        values .qualityIndicator (by decide)
      rw [if_pos rfl, if_pos rfl, latitude, longitude, altitude, satelliteCount, hdop, quality]
    | vtg => rfl
    | other => rfl

theorem same_of_fix (alike : Alike reading reading') (trusted : reading.gpsDataGood = true)
    (same : reading.fix = reading'.fix) : ∀ target ∈ reading.sentenceType.uses,
      if target = .qualityIndicator then
        statusOf reading.new.qualityIndicator = statusOf reading'.new.qualityIndicator
      else reading.new.get target = reading'.new.get target := by
  obtain ⟨sentenceType, good⟩ := alike
  rw [Reading.fix, Reading.fix, Reading.writes, Reading.writes, ← sentenceType, ← good, trusted,
    if_pos rfl, if_pos rfl] at same
  intro target used
  cases kind : reading.sentenceType with
  | rmc =>
    rw [kind] at same used
    have same : [Write.lat reading.new.latitude, Write.lng reading.new.longitude] =
        [Write.lat reading'.new.latitude, Write.lng reading'.new.longitude] := same
    simp only [List.cons.injEq, Write.lat.injEq, Write.lng.injEq, and_true] at same
    obtain ⟨latitude, longitude⟩ := same
    simp only [SentenceType.uses, List.mem_cons, List.not_mem_nil, or_false] at used
    rcases used with rfl | rfl
    · exact latitude
    · exact longitude
  | gga =>
    rw [kind] at same used
    have same : [Write.alt reading.new.altitude, Write.lat reading.new.latitude,
          Write.lng reading.new.longitude, Write.numSats reading.new.satelliteCount,
          Write.hdop reading.new.hdop, Write.status (statusOf reading.new.qualityIndicator)] =
        [Write.alt reading'.new.altitude, Write.lat reading'.new.latitude,
          Write.lng reading'.new.longitude, Write.numSats reading'.new.satelliteCount,
          Write.hdop reading'.new.hdop, Write.status (statusOf reading'.new.qualityIndicator)] :=
      same
    simp only [List.cons.injEq, Write.alt.injEq, Write.lat.injEq, Write.lng.injEq,
      Write.numSats.injEq, Write.hdop.injEq, Write.status.injEq, and_true] at same
    obtain ⟨altitude, latitude, longitude, satelliteCount, hdop, status⟩ := same
    simp only [SentenceType.uses, List.mem_cons, List.not_mem_nil, or_false] at used
    rcases used with rfl | rfl | rfl | rfl | rfl | rfl
    · exact latitude
    · exact longitude
    · exact altitude
    · exact satelliteCount
    · exact hdop
    · exact status
  | vtg | other =>
    rw [kind] at used
    exact absurd used List.not_mem_nil

/-! ### Two histories -/

/-- A text has no point behind its first digits. -/
def Whole (text : List UInt8) : Prop := (text.dropWhile isDigitByte).head? ≠ some '.'.toUInt8

instance (text : List UInt8) : Decidable (Whole text) := inferInstanceAs (Decidable (_ ≠ _))

variable (fraction fraction') in
theorem parseDegrees_whole (whole : Whole text) :
    parseDegrees fraction text = parseDegrees fraction' text := by
  rw [Whole] at whole
  rw [parseDegrees, parseDegrees]
  cases rest : text.dropWhile isDigitByte with
  | nil => rfl
  | cons point rest =>
    have noPoint : point ≠ '.'.toUInt8 := fun point' => whole (by rw [rest, point']; rfl)
    dsimp only
    rw [if_neg noPoint, if_neg noPoint]

variable (fraction fraction') in
theorem readTerms_whole (whole : ∀ term ∈ terms, Whole (cString (term.take (termSize - 1))))
    (termNumber : UInt8) :
    Reading.readTerms fraction termNumber terms reading =
      Reading.readTerms fraction' termNumber terms reading := by
  induction terms generalizing termNumber reading with
  | nil => rfl
  | cons term rest inductionHypothesis =>
    have here := parseDegrees_whole fraction fraction' (whole term List.mem_cons_self)
    have first : reading.readTerm fraction termNumber term =
        reading.readTerm fraction' termNumber term := by
      rw [readTerm_eq, readTerm_eq]
      cases labelOf reading.sentenceType termNumber term with
      | none => rfl
      | some label =>
        cases label with
        | latitude | longitude => simp only [Option.elim_some, Reading.read, here]
        | _ => rfl
    rw [Reading.readTerms, Reading.readTerms, first]
    exact inductionHypothesis (fun other member => whole other (List.mem_cons_of_mem _ member)) _

/-- Terms that assign all variables. -/
def earlierTerms : List (List UInt8) :=
  [bytes "GPGGA", [], bytes "0100", [], bytes "00100", [], bytes "1", bytes "1", bytes "1",
    bytes "1"]

/-- The beginning of a sentence with these terms. -/
def earlier : List UInt8 := '$'.toUInt8 :: joined earlierTerms

theorem new_earlier (fraction : List UInt8 → ℤ) : (behind fraction earlier).reading.new =
    ⟨0, 0, 10000000, 10000000, 100, 0, 0, 100, 1, 1⟩ := by
  have plain : ∀ term ∈ earlierTerms, ∀ c ∈ term, Plain c := by decide +kernel
  have whole : ∀ term ∈ earlierTerms, Whole (cString (term.take (termSize - 1))) := by
    decide +kernel
  have size : start.term.length = termSize := List.length_replicate
  have dollar : decode fraction start '$'.toUInt8 = (start.begin, []) := by
    have notEnds : ¬ Ends '$'.toUInt8 := by decide
    rw [decode, if_neg notEnds, if_pos rfl]
  obtain ⟨standing, -⟩ := run_joined fraction (at_begin size) plain
  rw [behind, earlier, Framing.run_cons, dollar]
  dsimp only
  rw [standing.reading, readTerms_whole fraction (fun _ => 0) whole]
  decide +kernel

/-- A variable has other values behind the beginning of the earlier sentence than at the start. -/
theorem apart_earlier (fraction : List UInt8 → ℤ) (other : target ≠ .qualityIndicator) :
    Apart ((behind fraction []).reading.new.get target)
      ((behind fraction earlier).reading.new.get target) := by
  rw [new_earlier]
  cases target with
  | latitude | longitude | altitude | satelliteCount | hdop =>
    change (0 : ℤ) % 2 ^ 32 ≠ _
    decide
  | qualityIndicator => exact absurd rfl other

/-- Two histories give a sentence the same fix only if it assigns all variables that it copies. -/
theorem selfContained_of_fix {sentence : Sentence} (correct : sentence.Correct)
    (same : fix fraction [] sentence = fix fraction earlier sentence) :
    SelfContained sentence := by
  intro good target used
  by_contra unassigned
  rw [fix_eq, fix_eq, if_pos correct, if_pos correct] at same
  have first := alike_outline fraction sentence.terms (behind fraction []).reading.new
  have second := alike_outline fraction sentence.terms (behind fraction earlier).reading.new
  have alike := first.trans second.symm
  rw [← first.sentenceType] at used
  have equal := same_of_fix alike (first.gpsDataGood.trans good) same target used
  by_cases quality : target = .qualityIndicator
  · rw [if_pos quality] at equal
    rw [quality] at unassigned
    rw [quality_unassigned unassigned, quality_unassigned unassigned, new_earlier] at equal
    have different : statusOf 0 ≠ statusOf 1 := by decide
    exact different equal
  · rw [if_neg quality] at equal
    have apart := apart_unassigned fraction unassigned
      (apart_earlier fraction quality)
    exact apart (congrArg (· % 2 ^ 32) equal)

/-- The fix of a sentence does not depend on what came before it if and only if the sentence, when
its checksum is right, assigns all variables that it copies. With a wrong checksum it leaves the
state alone. -/
theorem fix_selfContained_iff (fraction : List UInt8 → ℤ) (sentence : Sentence) :
    ((∀ history history' : List UInt8,
        fix fraction history sentence = fix fraction history' sentence) ↔
      (sentence.Correct → SelfContained sentence)) ∧
    (¬ sentence.Correct → ∀ (history : List UInt8) (state : GpsState),
      (written fraction history sentence).foldl GpsState.write state = state) := by
  refine ⟨⟨fun same correct => selfContained_of_fix correct (same [] earlier), ?_⟩, ?_⟩
  · intro selfContained history history'
    rw [fix_eq, fix_eq]
    by_cases correct : sentence.Correct
    · rw [if_pos correct, if_pos correct]
      have first := alike_outline fraction sentence.terms (behind fraction history).reading.new
      have second := alike_outline fraction sentence.terms (behind fraction history').reading.new
      refine fix_same (first.trans second.symm) fun good target used => ?_
      rw [first.gpsDataGood] at good
      rw [first.sentenceType] at used
      exact get_assigned (selfContained correct good target used) _ _
    · rw [if_neg correct, if_neg correct]
  · intro wrong history state
    rw [written_eq, if_neg wrong]
    rfl

/-- A fix with no position, whose checksum is right. -/
def emptyPosition : Sentence where
  front := [bytes "GPGGA", [], [], [], [], [], bytes "1", bytes "1", bytes "1"]
  last := bytes "1"
  high := '7'.toUInt8
  low := 'A'.toUInt8
  plain := by decide +kernel
  plainHigh := by decide
  plainLow := by decide

/-- A sentence with no position gives the position of an earlier sentence. -/
theorem fix_emptyPosition :
    ¬ ∀ (fraction : List UInt8 → ℤ) (history history' : List UInt8) (sentence : Sentence),
      sentence.Correct → fix fraction history sentence = fix fraction history' sentence := by
  intro same
  have differ : fix (fun _ => 0) [] emptyPosition ≠ fix (fun _ => 0) earlier emptyPosition := by
    decide +kernel
  have correct : emptyPosition.Correct := by decide +kernel
  exact differ (same (fun _ => 0) [] earlier emptyPosition correct)

end Urus.Gps.Nmea
