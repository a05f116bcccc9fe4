/-
This file proves on what the fix of an NMEA sentence depends. A sentence with a wrong checksum writes
nothing. One with the right checksum writes what its terms have left in variables that outlive the
sentence, and a term that is empty or missing leaves there what an earlier sentence has put there. So
the fix is that of the sentence alone exactly if the sentence has a term for each value of the fix.
-/

import Urus.Gps.Nmea

namespace Urus.Gps.Nmea

open NmeaDecimal

/-! ### Sentences -/

/-- An ordinary character. -/
def Plain (c : UInt8) : Prop := ¬ Ends c ∧ c ≠ '$'.toUInt8

instance (c : UInt8) : Decidable (Plain c) := inferInstanceAs (Decidable (_ ∧ _))

/-- A complete sentence: its terms, of which there is at least one, and two characters for the
checksum. -/
structure Sentence where
  front : List (List UInt8)
  last : List UInt8
  high : UInt8
  low : UInt8
  plain : ∀ term ∈ front ++ [last], ∀ c ∈ term, Plain c
  plainHigh : Plain high
  plainLow : Plain low

/-- The terms with a comma behind each. -/
def joined (terms : List (List UInt8)) : List UInt8 :=
  terms.flatMap fun term => term ++ [','.toUInt8]

/-- The terms of a sentence. -/
def Sentence.terms (sentence : Sentence) : List (List UInt8) := sentence.front ++ [sentence.last]

/-- What stands between the dollar and the asterisk. -/
def Sentence.body (sentence : Sentence) : List UInt8 := joined sentence.front ++ sentence.last

/-- The bytes of a sentence. -/
def Sentence.bytes (sentence : Sentence) : List UInt8 :=
  '$'.toUInt8 :: (sentence.body ++ ['*'.toUInt8]) ++
    ([sentence.high, sentence.low] ++ ['\r'.toUInt8])

/-- The exclusive or of some bytes. -/
def parityOf (bytes : List UInt8) : UInt8 := bytes.foldl (· ^^^ ·) 0

/-- The checksum is right. -/
def Sentence.Correct (sentence : Sentence) : Prop :=
  checksum sentence.high sentence.low = (parityOf sentence.body).toNat

instance (sentence : Sentence) : Decidable sentence.Correct :=
  inferInstanceAs (Decidable (_ = _))

/-! ### Reading the terms -/

variable (fraction : List UInt8 → ℤ)

/-- A term is read, as much of it as the buffer takes. -/
def Reading.readTerm (reading : Reading) (termNumber : UInt8) (term : List UInt8) : Reading :=
  reading.completeTerm fraction termNumber (term.take (termSize - 1) ++ [0])

/-- Terms are read one after another. -/
def Reading.readTerms : UInt8 → List (List UInt8) → Reading → Reading
  | _, [], reading => reading
  | termNumber, term :: rest, reading =>
    readTerms (termNumber + 1) rest (reading.readTerm fraction termNumber term)

/-- Nothing has been read of the sentence yet. -/
def Reading.blank (new : New) : Reading := ⟨.other, false, new⟩

variable {fraction}

theorem cString_append (term rest : List UInt8) :
    cString (term ++ 0 :: rest) = cString term := by
  induction term with
  | nil => rfl
  | cons first others inductionHypothesis =>
    rw [cString, cString, List.cons_append, List.takeWhile_cons, List.takeWhile_cons]
    exact congrArg (fun tail => if decide (first ≠ 0) = true then first :: tail else [])
      inductionHypothesis

/-- What is in the buffer behind the end of the first term does not count. -/
theorem firstTerm_append (reading : Reading) (term rest : List UInt8) :
    reading.firstTerm (term ++ 0 :: rest) = reading.firstTerm (term ++ [0]) := by
  match term with
  | [] => rfl
  | [first] =>
    have small : (0 : UInt8) < 'A'.toUInt8 := by decide
    have short : ∀ tail, reading.firstTerm (first :: 0 :: tail) =
        { reading with sentenceType := .other } :=
      fun tail => if_pos (Or.inr (Or.inr (Or.inl small)))
    exact (short rest).trans (short []).symm
  | first :: second :: others =>
    have same : cString ((first :: second :: others ++ 0 :: rest).drop 2) =
        cString ((first :: second :: others ++ [0]).drop 2) :=
      (cString_append others rest).trans (cString_append others []).symm
    rw [Reading.firstTerm, Reading.firstTerm, same]
    rfl

theorem completeTerm_append (reading : Reading) (termNumber : UInt8) (term rest : List UInt8) :
    reading.completeTerm fraction termNumber (term ++ 0 :: rest) =
      reading.completeTerm fraction termNumber (term ++ [0]) := by
  rw [Reading.completeTerm, Reading.completeTerm, firstTerm_append, cString_append,
    cString_append]

theorem readTerms_concat (termNumber : UInt8) (terms : List (List UInt8)) (term : List UInt8)
    (reading : Reading) :
    Reading.readTerms fraction termNumber (terms ++ [term]) reading =
      (Reading.readTerms fraction termNumber terms reading).readTerm fraction
        (termNumber + UInt8.ofNat terms.length) term := by
  induction terms generalizing termNumber reading with
  | nil => rw [List.length_nil, show UInt8.ofNat 0 = 0 from rfl, UInt8.add_zero]; rfl
  | cons first rest inductionHypothesis =>
    have number : termNumber + 1 + UInt8.ofNat rest.length =
        termNumber + UInt8.ofNat (first :: rest).length := by
      rw [List.length_cons, UInt8.ofNat_add, UInt8.add_assoc, UInt8.add_comm 1]
      rfl
    rw [List.cons_append, Reading.readTerms, Reading.readTerms, inductionHypothesis, number]

/-! ### Holding a term -/

/-- The decoder with the characters of a term in its buffer. -/
def Decoder.holding (decoder : Decoder) (seen : List UInt8) : Decoder :=
  { decoder with
    term := seen.take (termSize - 1) ++ decoder.term.drop (seen.take (termSize - 1)).length
    termOffset := (seen.take (termSize - 1)).length
    parity := if decoder.isChecksumTerm then decoder.parity
      else seen.foldl (· ^^^ ·) decoder.parity }

variable {decoder : Decoder}

theorem holding_nil (offset : decoder.termOffset = 0) : decoder.holding [] = decoder := by
  rw [Decoder.holding, List.take_nil, List.length_nil, List.foldl_nil, ite_self, List.drop_zero,
    List.nil_append, ← offset]

theorem hold_holding (size : decoder.term.length = termSize) (seen : List UInt8) (c : UInt8) :
    (decoder.holding seen).hold c = decoder.holding (seen ++ [c]) := by
  rw [Decoder.hold, Decoder.holding, Decoder.holding, List.foldl_append]
  dsimp only
  rcases Nat.lt_or_ge seen.length (termSize - 1) with room | full
  · have whole : seen.take (termSize - 1) = seen := List.take_of_length_le room.le
    have whole' : (seen ++ [c]).take (termSize - 1) = seen ++ [c] := by
      refine List.take_of_length_le ?_
      rw [List.length_append, List.length_singleton]
      exact room
    have inside : seen.length < decoder.term.length := by
      rw [size]
      exact room.trans (by decide)
    have stored : (seen ++ decoder.term.drop seen.length).set seen.length c =
        (seen ++ [c]) ++ decoder.term.drop (seen ++ [c]).length := by
      rw [List.set_append_right _ _ (Nat.le_refl _), Nat.sub_self,
        List.drop_eq_getElem_cons inside, List.set_cons_zero, List.length_append,
        List.length_singleton, List.append_assoc]
      rfl
    rw [whole, whole', if_pos room, stored, List.length_append, List.length_singleton]
    cases decoder.isChecksumTerm <;> rfl
  · have same : (seen ++ [c]).take (termSize - 1) = seen.take (termSize - 1) :=
      List.take_append_of_le_length full
    have beyond : ¬ (seen.take (termSize - 1)).length < termSize - 1 := by
      rw [List.length_take, Nat.min_eq_left full]
      exact lt_irrefl _
    rw [same, if_neg beyond]
    cases decoder.isChecksumTerm <;> rfl

theorem decode_plain {c : UInt8} (plain : Plain c) :
    decode fraction decoder c = (decoder.hold c, []) := by
  rw [decode, if_neg plain.1, if_neg plain.2]

/-- Ordinary characters are held, and write nothing. -/
theorem run_plain (size : decoder.term.length = termSize) (offset : decoder.termOffset = 0)
    {seen : List UInt8} (plain : ∀ c ∈ seen, Plain c) :
    Framing.run (decode fraction) decoder seen = (decoder.holding seen, []) := by
  induction seen using List.reverseRecOn with
  | nil => rw [holding_nil offset]; rfl
  | append_singleton seen c inductionHypothesis =>
    have before := inductionHypothesis fun other member =>
      plain other (List.mem_append_left _ member)
    have here := plain c (List.mem_append_right _ (List.mem_singleton_self c))
    rw [Framing.run_append, before, Framing.run_singleton, decode_plain here, hold_holding size]
    rfl

/-! ### The end of a term -/

/-- The decoder stands at the beginning of a term. -/
structure At (decoder : Decoder) (parity : UInt8) (isChecksumTerm : Bool) (termNumber : UInt8)
    (reading : Reading) : Prop where
  size : decoder.term.length = termSize
  offset : decoder.termOffset = 0
  parity : decoder.parity = parity
  isChecksumTerm : decoder.isChecksumTerm = isChecksumTerm
  termNumber : decoder.termNumber = termNumber
  reading : decoder.reading = reading

/-- The buffer with the zero behind a term. -/
theorem terminated (size : decoder.term.length = termSize) (seen : List UInt8) :
    ∃ rest, (decoder.holding seen).term.set (decoder.holding seen).termOffset 0 =
      seen.take (termSize - 1) ++ 0 :: rest ∧
      (seen.take (termSize - 1) ++ 0 :: rest).length = termSize := by
  have inside : (seen.take (termSize - 1)).length < decoder.term.length := by
    rw [size, List.length_take]
    exact Nat.lt_of_le_of_lt (Nat.min_le_left _ _) (by decide)
  refine ⟨decoder.term.drop ((seen.take (termSize - 1)).length + 1), ?_, ?_⟩
  · rw [Decoder.holding]
    dsimp only
    rw [List.set_append_right _ _ (Nat.le_refl _), Nat.sub_self,
      List.drop_eq_getElem_cons inside, List.set_cons_zero]
  · rw [List.length_append, List.length_cons, List.length_drop]
    omega

theorem holding_inside (decoder : Decoder) (seen : List UInt8) :
    (decoder.holding seen).termOffset < termSize := by
  change (seen.take (termSize - 1)).length < termSize
  rw [List.length_take]
  exact Nat.lt_of_le_of_lt (Nat.min_le_left _ _) (by decide)

variable {parity termNumber : UInt8} {reading : Reading}

/-- The parity behind a term. -/
def parityBehind (parity : UInt8) (term : List UInt8) (c : UInt8) : UInt8 :=
  if c = ','.toUInt8 then term.foldl (· ^^^ ·) parity ^^^ c else term.foldl (· ^^^ ·) parity

variable (fraction) in
theorem run_term (standing : At decoder parity false termNumber reading) {term : List UInt8}
    (plain : ∀ c ∈ term, Plain c) {c : UInt8} (ends : Ends c) :
    At (Framing.run (decode fraction) decoder (term ++ [c])).1 (parityBehind parity term c)
        (c = '*'.toUInt8) (termNumber + 1) (reading.readTerm fraction termNumber term) ∧
      (Framing.run (decode fraction) decoder (term ++ [c])).2 = [] := by
  obtain ⟨rest, buffer, length⟩ := terminated standing.size term
  have notChecksum : (decoder.holding term).isChecksumTerm = false := standing.isChecksumTerm
  have held : (decoder.holding term).parity = term.foldl (· ^^^ ·) parity := by
    rw [← standing.parity]
    exact if_neg (by rw [standing.isChecksumTerm]; exact Bool.false_ne_true)
  rw [Framing.run_append, run_plain standing.size standing.offset plain, Framing.run_singleton,
    decode, if_pos ends, Decoder.endTerm]
  dsimp only
  rw [if_pos (holding_inside decoder term), Decoder.termComplete]
  dsimp only
  rw [notChecksum, if_neg Bool.false_ne_true, buffer, held]
  refine ⟨⟨length, rfl, rfl, rfl, ?_, ?_⟩, rfl⟩
  · exact congrArg (· + 1) standing.termNumber
  · dsimp only
    rw [completeTerm_append]
    change decoder.reading.completeTerm fraction decoder.termNumber _ = _
    rw [standing.reading, standing.termNumber]
    rfl

variable (fraction) in
/-- Terms with commas behind them are read one after another. -/
theorem run_joined (standing : At decoder parity false termNumber reading)
    {terms : List (List UInt8)} (plain : ∀ term ∈ terms, ∀ c ∈ term, Plain c) :
    At (Framing.run (decode fraction) decoder (joined terms)).1
        ((joined terms).foldl (· ^^^ ·) parity) false (termNumber + UInt8.ofNat terms.length)
        (Reading.readTerms fraction termNumber terms reading) ∧
      (Framing.run (decode fraction) decoder (joined terms)).2 = [] := by
  induction terms using List.reverseRecOn with
  | nil =>
    refine ⟨⟨standing.size, standing.offset, standing.parity, standing.isChecksumTerm, ?_,
      standing.reading⟩, rfl⟩
    rw [List.length_nil, show UInt8.ofNat 0 = 0 from rfl, UInt8.add_zero]
    exact standing.termNumber
  | append_singleton terms term inductionHypothesis =>
    obtain ⟨before, silentBefore⟩ := inductionHypothesis fun other member =>
      plain other (List.mem_append_left _ member)
    have here := plain term (List.mem_append_right _ (List.mem_singleton_self term))
    have comma : Ends ','.toUInt8 := Or.inl rfl
    obtain ⟨behind, silent⟩ := run_term fraction before here comma
    have split : joined (terms ++ [term]) = joined terms ++ (term ++ [','.toUInt8]) := by
      rw [joined, joined, List.flatMap_append, List.flatMap_singleton]
    have parities : (joined (terms ++ [term])).foldl (· ^^^ ·) parity =
        parityBehind ((joined terms).foldl (· ^^^ ·) parity) term ','.toUInt8 := by
      rw [split, List.foldl_append, List.foldl_append, parityBehind, if_pos rfl]
      rfl
    have number : termNumber + UInt8.ofNat (terms ++ [term]).length =
        termNumber + UInt8.ofNat terms.length + 1 := by
      rw [List.length_append, List.length_singleton, UInt8.ofNat_add, UInt8.add_assoc]
      rfl
    rw [parities, number, readTerms_concat, split, Framing.run_append]
    refine ⟨behind, ?_⟩
    rw [silentBefore, silent]
    rfl

/-! ### Whole sentences -/

theorem run_checksum (standing : At decoder parity true termNumber reading) {high low : UInt8}
    (plainHigh : Plain high) (plainLow : Plain low) :
    (Framing.run (decode fraction) decoder ([high, low] ++ ['\r'.toUInt8])).2 =
      if checksum high low = parity.toNat then reading.writes else [] := by
  obtain ⟨rest, buffer, -⟩ := terminated standing.size [high, low]
  have isChecksum : (decoder.holding [high, low]).isChecksumTerm = true := standing.isChecksumTerm
  have held : (decoder.holding [high, low]).parity = parity := by
    rw [← standing.parity]
    exact if_pos standing.isChecksumTerm
  have plain : ∀ c ∈ [high, low], Plain c := by
    intro c member
    rcases List.mem_cons.mp member with rfl | member
    · exact plainHigh
    · rw [List.mem_singleton.mp member]
      exact plainLow
  have ends : Ends '\r'.toUInt8 := Or.inr (Or.inl rfl)
  have noComma : '\r'.toUInt8 ≠ ','.toUInt8 := by decide
  rw [Framing.run_append, run_plain standing.size standing.offset plain, Framing.run_singleton,
    decode, if_pos ends, Decoder.endTerm]
  dsimp only
  rw [if_pos (holding_inside decoder [high, low]), Decoder.termComplete]
  dsimp only
  rw [isChecksum, if_pos rfl, buffer, if_neg noComma, held, List.nil_append]
  change (if checksum high low = parity.toNat then decoder.reading.writes else []) = _
  rw [standing.reading]

theorem at_begin (size : decoder.term.length = termSize) :
    At decoder.begin 0 false 0 (.blank decoder.reading.new) :=
  ⟨size, rfl, rfl, rfl, rfl, rfl⟩

theorem run_sentence (size : decoder.term.length = termSize) (sentence : Sentence) :
    (Framing.run (decode fraction) decoder sentence.bytes).2 =
      if sentence.Correct then
        (Reading.readTerms fraction 0 sentence.terms (.blank decoder.reading.new)).writes
      else [] := by
  have plainFront : ∀ term ∈ sentence.front, ∀ c ∈ term, Plain c := fun term member =>
    sentence.plain term (List.mem_append_left _ member)
  have plainLast := sentence.plain sentence.last
    (List.mem_append_right _ (List.mem_singleton_self _))
  have asterisk : Ends '*'.toUInt8 := Or.inr (Or.inr (Or.inr rfl))
  obtain ⟨front, silentFront⟩ := run_joined fraction (at_begin size) plainFront
  obtain ⟨body, silentBody⟩ := run_term fraction front plainLast asterisk
  have parity : parityBehind ((joined sentence.front).foldl (· ^^^ ·) 0) sentence.last
      '*'.toUInt8 = parityOf sentence.body := by
    have noComma : '*'.toUInt8 ≠ ','.toUInt8 := by decide
    rw [parityBehind, if_neg noComma, parityOf, Sentence.body, List.foldl_append]
  have dollar : decode fraction decoder '$'.toUInt8 = (decoder.begin, []) := by
    have notEnds : ¬ Ends '$'.toUInt8 := by decide
    rw [decode, if_neg notEnds, if_pos rfl]
  have split : sentence.bytes = ['$'.toUInt8] ++ (joined sentence.front ++
      ((sentence.last ++ ['*'.toUInt8]) ++ ([sentence.high, sentence.low] ++ ['\r'.toUInt8]))) := by
    simp only [Sentence.bytes, Sentence.body, List.cons_append, List.nil_append, List.append_assoc]
  rw [parity, UInt8.zero_add] at body
  rw [split, Framing.run_append, Framing.run_singleton, dollar]
  dsimp only
  rw [Framing.run_append, Framing.run_append, silentFront, silentBody,
    run_checksum body sentence.plainHigh sentence.plainLow, Sentence.terms, readTerms_concat,
    UInt8.zero_add]
  rfl

/-- The decoder behind a stream of bytes. -/
def behind (fraction : List UInt8 → ℤ) (history : List UInt8) : Decoder :=
  (Framing.run (decode fraction) start history).1

/-- What a sentence writes behind a stream of bytes. -/
def written (fraction : List UInt8 → ℤ) (history : List UInt8) (sentence : Sentence) :
    List Write :=
  (Framing.run (decode fraction) (behind fraction history) sentence.bytes).2

theorem size_completed (completed : decoder.term.length = termSize) :
    (decoder.termComplete fraction).1.term.length = termSize := by
  rw [Decoder.termComplete]
  split_ifs <;> exact completed

theorem size_decode (size : decoder.term.length = termSize) (c : UInt8) :
    (decode fraction decoder c).1.term.length = termSize := by
  rw [decode]
  split_ifs
  · rw [Decoder.endTerm]
    dsimp only
    by_cases room : decoder.termOffset < termSize
    · rw [if_pos room]
      exact size_completed (List.length_set.trans size)
    · rw [if_neg room]
      exact size
  · exact size
  · change (decoder.hold c).term.length = termSize
    rw [Decoder.hold]
    by_cases room : decoder.termOffset < termSize - 1
    · rw [if_pos room]
      exact List.length_set.trans size
    · rw [if_neg room]
      exact size

theorem size_behind (history : List UInt8) : (behind fraction history).term.length = termSize := by
  have each : ∀ (decoder : Decoder) (c : UInt8), decoder.term.length = termSize →
      (decode fraction decoder c).1.term.length = termSize ∧
        ∀ event ∈ (decode fraction decoder c).2, True :=
    fun decoder c size => ⟨size_decode size c, fun _ _ => trivial⟩
  have size : start.term.length = termSize := List.length_replicate
  exact (Framing.run_invariant (decode fraction) each size history).1

theorem written_eq (history : List UInt8) (sentence : Sentence) :
    written fraction history sentence =
      if sentence.Correct then
        (Reading.readTerms fraction 0 sentence.terms
          (.blank (behind fraction history).reading.new)).writes
      else [] :=
  run_sentence (size_behind history) sentence

end Urus.Gps.Nmea
