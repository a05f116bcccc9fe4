/-
This file proves which frames `srxl_decode` takes out of a stream. A frame begins behind a pause, and
its bytes follow one another without a pause. The decoder measures a pause from the time that it has
kept, and it does not keep the time of a byte that is no header behind a pause. So behind such a byte
a frame may begin without a pause, and on the streams in which none does, the frames that the decoder
reports are the right ones.
-/

import Urus.RcProtocol.Srxl

namespace Urus.RcProtocol.Srxl

/-! ### Runs of bytes -/

/-- When the last byte came. Before the first byte this is the time at which the clock begins. -/
def lastTime (arrivals : List Arrival) : UInt64 :=
  (arrivals.getLast?.map Arrival.timestampUs).getD 0

/-- A byte comes behind a pause. -/
def Spaced (before : List Arrival) (arrival : Arrival) : Prop :=
  minFramespaceUs ≤ arrival.timestampUs - lastTime before

instance (before : List Arrival) (arrival : Arrival) : Decidable (Spaced before arrival) :=
  inferInstanceAs (Decidable (_ ≤ _))

/-- The last bytes of a stream are a run: the first one comes behind a pause, and the others do
not. -/
def IsRun (arrivals frame : List Arrival) : Prop :=
  ∃ before first rest, arrivals = before ++ frame ∧ frame = first :: rest ∧ Spaced before first ∧
    frame.IsChain fun earlier later => later.timestampUs - earlier.timestampUs < minFramespaceUs

/-- Some bytes are a frame: as many as their header says, and the last two are the checksum of those
before them. -/
def IsFrame (bytes : List UInt8) : Prop :=
  framelen (bytes.headD 0) = some bytes.length ∧
    (bytes.take (bytes.length - 2)).foldl crc16 0 =
      (bytes.getD (bytes.length - 2) 0).toUInt16 <<< 8 |||
        (bytes.getD (bytes.length - 1) 0).toUInt16

/-- The times of a stream do not decrease. -/
def Ordered (arrivals : List Arrival) : Prop :=
  arrivals.IsChain fun earlier later => earlier.timestampUs ≤ later.timestampUs

variable {arrivals frame : List Arrival} {arrival : Arrival}

theorem lastTime_concat (arrivals : List Arrival) (arrival : Arrival) :
    lastTime (arrivals ++ [arrival]) = arrival.timestampUs := by
  rw [lastTime, List.getLast?_concat]
  rfl

theorem Ordered.before (ordered : Ordered (arrivals ++ [arrival])) : Ordered arrivals :=
  ordered.left_of_append

theorem Ordered.le (ordered : Ordered (arrivals ++ [arrival])) :
    lastTime arrivals ≤ arrival.timestampUs := by
  rcases List.eq_nil_or_concat arrivals with rfl | ⟨before, last, rfl⟩
  · exact UInt64.zero_le
  · rw [List.concat_eq_append, lastTime_concat]
    refine (List.isChain_append.mp ordered).2.2 last ?_ arrival rfl
    rw [List.concat_eq_append, List.getLast?_concat]
    rfl

theorem IsRun.ne_nil (isRun : IsRun arrivals frame) : frame ≠ [] := by
  obtain ⟨_, first, rest, -, rfl, -⟩ := isRun
  exact List.cons_ne_nil _ _

/-- One more byte begins a run, or goes on with the one before. -/
theorem isRun_concat : IsRun (arrivals ++ [arrival]) frame ↔
    if Spaced arrivals arrival then frame = [arrival]
    else ∃ seen, IsRun arrivals seen ∧ frame = seen ++ [arrival] := by
  constructor
  · rintro ⟨before, first, rest, split, rfl, spaced, close⟩
    rcases List.eq_nil_or_concat rest with rfl | ⟨middle, last, rfl⟩
    · obtain ⟨rfl, same⟩ := List.append_inj' split rfl
      obtain ⟨rfl, -⟩ := List.cons.inj same
      rw [if_pos spaced]
    · rw [List.concat_eq_append] at split close ⊢
      rw [← List.cons_append, ← List.append_assoc] at split
      obtain ⟨rfl, same⟩ := List.append_inj' split rfl
      obtain ⟨rfl, -⟩ := List.cons.inj same
      rw [← List.cons_append] at close
      obtain ⟨closeBefore, -, closeLast⟩ := List.isChain_append.mp close
      have notSpaced : ¬ Spaced (before ++ first :: middle) arrival := by
        obtain ⟨start, final, whole⟩ : ∃ start final, first :: middle = start ++ [final] := by
          rcases List.eq_nil_or_concat (first :: middle) with none | ⟨start, final, whole⟩
          · exact absurd none (List.cons_ne_nil _ _)
          · exact ⟨start, final, whole.trans List.concat_eq_append⟩
        rw [Spaced, whole, ← List.append_assoc, lastTime_concat]
        refine UInt64.not_le.mpr (closeLast final ?_ arrival rfl)
        rw [whole, List.getLast?_concat]
        rfl
      rw [if_neg notSpaced]
      exact ⟨first :: middle, ⟨before, first, middle, rfl, rfl, spaced, closeBefore⟩,
        (List.cons_append ..).symm⟩
  · intro other
    by_cases spaced : Spaced arrivals arrival
    · rw [if_pos spaced] at other
      exact ⟨arrivals, arrival, [], by rw [other], other, spaced, by
        rw [other]
        exact List.isChain_singleton _⟩
    · rw [if_neg spaced] at other
      obtain ⟨seen, ⟨before, first, rest, rfl, rfl, start, close⟩, rfl⟩ := other
      refine ⟨before, first, rest ++ [arrival], List.append_assoc .., List.cons_append ..,
        start, ?_⟩
      refine close.append (List.isChain_singleton _) fun final last next same => ?_
      rw [Option.mem_def, List.head?_cons, Option.some.injEq] at same
      subst same
      obtain ⟨front, whole⟩ : ∃ front, first :: rest = front ++ [final] :=
        (List.getLast?_eq_some_iff.mp last)
      rw [Spaced, whole, ← List.append_assoc, lastTime_concat] at spaced
      exact UInt64.not_le.mp spaced

/-- There is at most one run at the end of a stream. -/
theorem IsRun.unique {frame' : List Arrival} (isRun : IsRun arrivals frame)
    (isRun' : IsRun arrivals frame') : frame = frame' := by
  induction arrivals using List.reverseRecOn generalizing frame frame' with
  | nil =>
    obtain ⟨before, first, rest, split, rfl, -⟩ := isRun
    exact absurd split.symm (by simp)
  | append_singleton arrivals arrival inductionHypothesis =>
    rw [isRun_concat] at isRun isRun'
    by_cases spaced : Spaced arrivals arrival
    · rw [if_pos spaced] at isRun isRun'
      exact isRun.trans isRun'.symm
    · rw [if_neg spaced] at isRun isRun'
      obtain ⟨seen, one, rfl⟩ := isRun
      obtain ⟨seen', other, rfl⟩ := isRun'
      rw [inductionHypothesis one other]

/-! ### Frames -/

/-- Some bytes are the beginning of a frame, and not all of it. -/
def Open (bytes : List UInt8) : Prop :=
  ∃ length, framelen (bytes.headD 0) = some length ∧ bytes.length < length

variable {bytes : List UInt8} {byte : UInt8} {length : ℕ}

theorem headD_concat (some_bytes : bytes ≠ []) (byte : UInt8) :
    (bytes ++ [byte]).headD 0 = bytes.headD 0 := by
  cases bytes with
  | nil => exact absurd rfl some_bytes
  | cons first rest => rfl

theorem open_of_concat (some_bytes : bytes ≠ []) (isOpen : Open (bytes ++ [byte])) :
    Open bytes := by
  obtain ⟨length, known, short⟩ := isOpen
  rw [headD_concat some_bytes] at known
  rw [List.length_append, List.length_singleton] at short
  exact ⟨length, known, Nat.lt_of_succ_lt short⟩

theorem open_of_isFrame (some_bytes : bytes ≠ []) (isFrame : IsFrame (bytes ++ [byte])) :
    Open bytes := by
  obtain ⟨known, -⟩ := isFrame
  rw [headD_concat some_bytes] at known
  rw [List.length_append, List.length_singleton] at known
  exact ⟨_, known, Nat.lt_succ_self _⟩

theorem not_isFrame_singleton (byte : UInt8) : ¬ IsFrame [byte] := by
  rintro ⟨known, -⟩
  have long := (framelen_bounds known).1
  rw [List.length_singleton] at long
  omega

/-- No run at the end of a stream is the beginning of a frame. -/
def Closed (arrivals : List Arrival) : Prop :=
  ∀ seen, IsRun arrivals seen → ¬ Open (seen.map Arrival.byte)

/-- The frame that a byte completes. -/
def Completes (arrivals : List Arrival) : Prop :=
  ∃ frame, IsRun arrivals frame ∧ IsFrame (frame.map Arrival.byte)

theorem map_byte_ne_nil (isRun : IsRun arrivals frame) : frame.map Arrival.byte ≠ [] :=
  fun none => isRun.ne_nil (List.map_eq_nil_iff.mp none)

theorem Closed.concat (closed : Closed arrivals)
    (fresh : Spaced arrivals arrival → framelen arrival.byte = none) :
    Closed (arrivals ++ [arrival]) ∧ ¬ Completes (arrivals ++ [arrival]) := by
  constructor
  · intro frame isRun isOpen
    rw [isRun_concat] at isRun
    by_cases spaced : Spaced arrivals arrival
    · rw [if_pos spaced] at isRun
      obtain ⟨length, known, -⟩ := isOpen
      rw [isRun] at known
      exact nomatch (fresh spaced).symm.trans known
    · rw [if_neg spaced] at isRun
      obtain ⟨seen, before, rfl⟩ := isRun
      rw [List.map_append] at isOpen
      exact closed seen before (open_of_concat (map_byte_ne_nil before) isOpen)
  · rintro ⟨frame, isRun, isFrame⟩
    rw [isRun_concat] at isRun
    by_cases spaced : Spaced arrivals arrival
    · rw [if_pos spaced] at isRun
      rw [isRun] at isFrame
      exact not_isFrame_singleton _ isFrame
    · rw [if_neg spaced] at isRun
      obtain ⟨seen, before, rfl⟩ := isRun
      rw [List.map_append] at isFrame
      exact closed seen before (open_of_isFrame (map_byte_ne_nil before) isFrame)

/-! ### What the decoder holds -/

/-- The decoder holds the first bytes of a frame. -/
structure Holds (decoder : Decoder) (bytes : List UInt8) : Prop where
  known : framelen (bytes.headD 0) = some decoder.frameLenFull
  header : decoder.frameHeader = bytes.headD 0
  short : bytes.length < decoder.frameLenFull
  buflen : decoder.buflen = bytes.length
  buffer : decoder.buffer.take bytes.length = bytes
  crcFmu : decoder.crcFmu = (bytes.take (decoder.frameLenFull - 2)).foldl crc16 0

/-- What the decoder knows of a stream behind its last byte. -/
def Knows (arrivals : List Arrival) (decoder : Decoder) : Prop :=
  match decoder.decodeState with
  | .new => False
  | .collect => decoder.lastDataUs = lastTime arrivals ∧
      ∃ seen, IsRun arrivals seen ∧ Holds decoder (seen.map Arrival.byte)
  | .idle => Closed arrivals ∧
      (decoder.lastDataUs = lastTime arrivals ∧ decoder.decodeStateNext = .idle ∨
        decoder.lastDataUs ≤ lastTime arrivals ∧
          minFramespaceUs ≤ lastTime arrivals - decoder.lastDataUs)

/-- The decoder follows a stream. -/
structure Follows (arrivals : List Arrival) (decoder : Decoder) : Prop where
  size : decoder.buffer.length = framelenMax
  knows : Knows arrivals decoder

theorem holds_first {decoder : Decoder} (size : decoder.buffer.length = framelenMax)
    (known : framelen byte = some length) (timestampUs : UInt64) :
    Holds ({ decoder with
      frameLenFull := length
      frameHeader := byte
      buffer := decoder.buffer.set 0 byte
      crcFmu := crc16 0 byte
      buflen := 1 }.advance timestampUs .collect) [byte] where
  known := known
  header := rfl
  short := (by decide : 1 < 18).trans_le (framelen_bounds known).1
  buflen := rfl
  buffer := by
    have some_buffer : decoder.buffer ≠ [] := fun none => by
      rw [none] at size
      exact absurd size (by decide)
    obtain ⟨first, rest, whole⟩ := List.exists_cons_of_ne_nil some_buffer
    change (decoder.buffer.set 0 byte).take 1 = [byte]
    rw [whole]
    rfl
  crcFmu := by
    have long := (framelen_bounds known).1
    have all : [byte].take (length - 2) = [byte] := List.take_of_length_le (by
      rw [List.length_singleton]
      omega)
    change crc16 0 byte = ([byte].take (length - 2)).foldl crc16 0
    rw [all]
    rfl

theorem take_set_concat {buffer bytes : List UInt8} (held : buffer.take bytes.length = bytes)
    (room : bytes.length < buffer.length) (byte : UInt8) :
    (buffer.set bytes.length byte).take (bytes.length + 1) = bytes ++ [byte] := by
  rw [List.take_add_one, List.take_set_of_le (Nat.le_refl _), held, List.getElem?_set_self room]
  rfl

variable {decoder : Decoder} {bytes : List UInt8}

theorem Holds.store (holds : Holds decoder bytes) (some_bytes : bytes ≠ [])
    (size : decoder.buffer.length = framelenMax) (more : bytes.length + 1 ≠ decoder.frameLenFull)
    (timestampUs : UInt64) :
    Holds ((decoder.store byte).advance timestampUs .collect) (bytes ++ [byte]) := by
  obtain ⟨known, header, short, buflen, buffer, crcFmu⟩ := holds
  have room : bytes.length < decoder.buffer.length := by
    rw [size]
    exact short.trans_le (framelen_bounds known).2
  have length : (bytes ++ [byte]).length = bytes.length + 1 := List.length_append
  refine ⟨?_, ?_, ?_, ?_, ?_, ?_⟩
  · rw [headD_concat some_bytes]
    exact known
  · rw [headD_concat some_bytes]
    exact header
  · rw [length]
    exact lt_of_le_of_ne short more
  · rw [length, ← buflen]
    rfl
  · rw [length]
    change (decoder.buffer.set decoder.buflen byte).take (bytes.length + 1) = _
    rw [buflen]
    exact take_set_concat buffer room byte
  · change (if decoder.buflen + 1 + 2 ≤ decoder.frameLenFull then crc16 decoder.crcFmu byte
      else decoder.crcFmu) = ((bytes ++ [byte]).take (decoder.frameLenFull - 2)).foldl crc16 0
    rw [buflen, crcFmu]
    by_cases covered : bytes.length + 1 + 2 ≤ decoder.frameLenFull
    · have all : bytes.take (decoder.frameLenFull - 2) = bytes :=
        List.take_of_length_le (by omega)
      have whole : (bytes ++ [byte]).take (decoder.frameLenFull - 2) = bytes ++ [byte] :=
        List.take_of_length_le (by omega)
      rw [if_pos covered, all, whole, List.foldl_append]
      rfl
    · have same : (bytes ++ [byte]).take (decoder.frameLenFull - 2) =
          bytes.take (decoder.frameLenFull - 2) :=
        List.take_append_of_le_length (by omega)
      rw [if_neg covered, same]

theorem channelsGet_ret (known : (framelen decoder.frameHeader).isSome) (maxValues : ℕ) :
    (decoder.channelsGet maxValues).2.ret = 0 := by
  rw [Decoder.channelsGet]
  by_cases older : decoder.frameHeader = headerV1 ∨ decoder.frameHeader = headerV2
  · rw [if_pos older]
    rfl
  by_cases fifth : decoder.frameHeader = headerV5
  · rw [if_neg older, if_pos fifth]
    rfl
  · obtain ⟨notFirst, notSecond⟩ := not_or.mp older
    rw [framelen, if_neg notFirst, if_neg notSecond, if_neg fifth] at known
    cases known

theorem getD_of_take {buffer whole : List UInt8} {length i : ℕ} (held : buffer.take length = whole)
    (inside : i < length) : buffer.getD i 0 = whole.getD i 0 := by
  rw [← held, List.getD_eq_getElem?_getD, List.getD_eq_getElem?_getD,
    List.getElem?_take_of_lt inside]

theorem Holds.complete (holds : Holds decoder bytes) (some_bytes : bytes ≠ [])
    (size : decoder.buffer.length = framelenMax) (last : bytes.length + 1 = decoder.frameLenFull)
    (maxValues : ℕ) :
    ((decoder.store byte).complete maxValues).2.ret = 0 ↔ IsFrame (bytes ++ [byte]) := by
  obtain ⟨known, header, short, buflen, buffer, crcFmu⟩ := holds
  have bounds := framelen_bounds known
  have room : bytes.length < decoder.buffer.length := by
    rw [size]
    exact short.trans_le bounds.2
  have length : (bytes ++ [byte]).length = decoder.frameLenFull := List.length_append.trans last
  have held : (decoder.store byte).buffer.take decoder.frameLenFull = bytes ++ [byte] := by
    rw [← last]
    change (decoder.buffer.set decoder.buflen byte).take (bytes.length + 1) = _
    rw [buflen]
    exact take_set_concat buffer room byte
  have full : (decoder.store byte).buflen = decoder.frameLenFull := by
    rw [← last, ← buflen]
    rfl
  have received : (decoder.store byte).crcReceiver =
      ((bytes ++ [byte]).getD ((bytes ++ [byte]).length - 2) 0).toUInt16 <<< 8 |||
        ((bytes ++ [byte]).getD ((bytes ++ [byte]).length - 1) 0).toUInt16 := by
    rw [Decoder.crcReceiver, full, length, getD_of_take held (by omega),
      getD_of_take held (by omega)]
  have computed : (decoder.store byte).crcFmu =
      ((bytes ++ [byte]).take ((bytes ++ [byte]).length - 2)).foldl crc16 0 := by
    have covered : ¬ decoder.buflen + 1 + 2 ≤ decoder.frameLenFull := by omega
    have same : (bytes ++ [byte]).take (decoder.frameLenFull - 2) =
        bytes.take (decoder.frameLenFull - 2) :=
      List.take_append_of_le_length (by omega)
    rw [length, same, ← crcFmu]
    exact if_neg covered
  have headerKnown : framelen ((bytes ++ [byte]).headD 0) = some (bytes ++ [byte]).length := by
    rw [headD_concat some_bytes, length]
    exact known
  have some_header : (framelen (decoder.store byte).frameHeader).isSome := by
    change (framelen decoder.frameHeader).isSome
    rw [header, known]
    rfl
  rw [Decoder.complete, received, computed]
  by_cases right : ((bytes ++ [byte]).getD ((bytes ++ [byte]).length - 2) 0).toUInt16 <<< 8 |||
      ((bytes ++ [byte]).getD ((bytes ++ [byte]).length - 1) 0).toUInt16 =
        ((bytes ++ [byte]).take ((bytes ++ [byte]).length - 2)).foldl crc16 0
  · rw [if_pos right]
    exact iff_of_true (channelsGet_ret some_header maxValues) ⟨headerKnown, right.symm⟩
  · rw [if_neg right]
    have failed : (4 : ℕ) ≠ 0 := by decide
    exact iff_of_false failed fun isFrame => right isFrame.2.symm

theorem complete_buffer (decoder : Decoder) (maxValues : ℕ) :
    (decoder.complete maxValues).1.buffer = decoder.buffer := by
  rw [Decoder.complete]
  split_ifs
  · change (decoder.channelsGet maxValues).1.buffer = decoder.buffer
    rw [Decoder.channelsGet]
    split_ifs <;> rfl
  · rfl

/-! ### One byte -/

theorem follows_header (maxValues : ℕ) (size : decoder.buffer.length = framelenMax)
    (gap : arrival.timestampUs - decoder.lastDataUs ≥ minFramespaceUs)
    (known : framelen arrival.byte = some length) (spaced : Spaced arrivals arrival) :
    Follows (arrivals ++ [arrival]) (decode maxValues decoder arrival).1 ∧
      ((decode maxValues decoder arrival).2.ret = 0 ↔ Completes (arrivals ++ [arrival])) := by
  have isRun : IsRun (arrivals ++ [arrival]) [arrival] :=
    isRun_concat.mpr (by rw [if_pos spaced])
  have nothing : ¬ Completes (arrivals ++ [arrival]) := by
    rintro ⟨frame, isRun', isFrame⟩
    rw [isRun'.unique isRun] at isFrame
    exact not_isFrame_singleton _ isFrame
  have kept := lastTime_concat arrivals arrival
  rw [decode, if_pos gap, known]
  dsimp only
  refine ⟨⟨List.length_set.trans size, kept.symm, [arrival], isRun, ?_⟩, ?_⟩
  · exact holds_first size known arrival.timestampUs
  · have waiting : (1 : ℕ) ≠ 0 := by decide
    exact iff_of_false waiting nothing

/-- A byte that is no header, behind what the decoder takes for a pause, ends what there was. -/
theorem follows_unknown (maxValues : ℕ) (size : decoder.buffer.length = framelenMax)
    (gap : arrival.timestampUs - decoder.lastDataUs ≥ minFramespaceUs)
    (unknown : framelen arrival.byte = none) (before : decoder.lastDataUs ≤ arrival.timestampUs)
    (closed : Closed (arrivals ++ [arrival])) (nothing : ¬ Completes (arrivals ++ [arrival])) :
    Follows (arrivals ++ [arrival]) (decode maxValues decoder arrival).1 ∧
      ((decode maxValues decoder arrival).2.ret = 0 ↔ Completes (arrivals ++ [arrival])) := by
  have kept := lastTime_concat arrivals arrival
  rw [decode, if_pos gap, unknown]
  dsimp only
  refine ⟨⟨size, closed, Or.inr ?_⟩, ?_⟩
  · rw [kept]
    exact ⟨before, gap⟩
  · have rejected : (2 : ℕ) ≠ 0 := by decide
    exact iff_of_false rejected nothing

/-- A byte that belongs to the frame that the decoder holds. -/
theorem follows_collect (maxValues : ℕ) (size : decoder.buffer.length = framelenMax)
    (state : decoder.decodeState = .collect)
    (near : ¬ arrival.timestampUs - decoder.lastDataUs ≥ minFramespaceUs)
    (notSpaced : ¬ Spaced arrivals arrival) {seen : List Arrival} (isRun : IsRun arrivals seen)
    (holds : Holds decoder (seen.map Arrival.byte)) :
    Follows (arrivals ++ [arrival]) (decode maxValues decoder arrival).1 ∧
      ((decode maxValues decoder arrival).2.ret = 0 ↔ Completes (arrivals ++ [arrival])) := by
  have kept := lastTime_concat arrivals arrival
  have some_bytes := map_byte_ne_nil isRun
  have isRun' : IsRun (arrivals ++ [arrival]) (seen ++ [arrival]) :=
    isRun_concat.mpr (by rw [if_neg notSpaced]; exact ⟨seen, isRun, rfl⟩)
  have bytes : (seen ++ [arrival]).map Arrival.byte = seen.map Arrival.byte ++ [arrival.byte] :=
    List.map_append
  have completes : Completes (arrivals ++ [arrival]) ↔
      IsFrame (seen.map Arrival.byte ++ [arrival.byte]) := by
    rw [← bytes]
    refine ⟨fun ⟨frame, other, isFrame⟩ => ?_, fun isFrame => ⟨_, isRun', isFrame⟩⟩
    rwa [other.unique isRun'] at isFrame
  have room : ¬ decoder.buflen ≥ decoder.frameLenFull := by
    rw [holds.buflen]
    exact not_le.mpr holds.short
  have stored : (decoder.store arrival.byte).buffer.length = framelenMax :=
    List.length_set.trans size
  rw [decode, if_neg near, Decoder.receive, state]
  dsimp only
  rw [Decoder.collect, if_neg room, holds.buflen]
  by_cases last : (seen.map Arrival.byte).length + 1 = decoder.frameLenFull
  · rw [if_pos last]
    refine ⟨⟨?_, ?_, Or.inl ⟨kept.symm, rfl⟩⟩, ?_⟩
    · change ((decoder.store arrival.byte).complete maxValues).1.buffer.length = framelenMax
      rw [complete_buffer]
      exact stored
    · intro frame other isOpen
      rw [other.unique isRun', bytes] at isOpen
      obtain ⟨length, known, short⟩ := isOpen
      rw [headD_concat some_bytes, holds.known] at known
      rw [List.length_append, List.length_singleton, last, Option.some.inj known] at short
      exact lt_irrefl _ short
    · rw [completes]
      exact holds.complete some_bytes size last maxValues
  · rw [if_neg last]
    refine ⟨⟨stored, kept.symm, seen ++ [arrival], isRun', ?_⟩, ?_⟩
    · rw [bytes]
      exact holds.store some_bytes size last arrival.timestampUs
    · have waiting : (1 : ℕ) ≠ 0 := by decide
      refine iff_of_false waiting fun complete => last ?_
      obtain ⟨known, -⟩ := completes.mp complete
      rw [headD_concat some_bytes, holds.known, List.length_append, List.length_singleton] at known
      exact (Option.some.inj known).symm

/-- A byte between frames, with no pause before it. -/
theorem follows_idle (maxValues : ℕ) (size : decoder.buffer.length = framelenMax)
    (state : decoder.decodeState = .idle) (next : decoder.decodeStateNext = .idle)
    (near : ¬ arrival.timestampUs - decoder.lastDataUs ≥ minFramespaceUs)
    (closed : Closed (arrivals ++ [arrival])) (nothing : ¬ Completes (arrivals ++ [arrival])) :
    Follows (arrivals ++ [arrival]) (decode maxValues decoder arrival).1 ∧
      ((decode maxValues decoder arrival).2.ret = 0 ↔ Completes (arrivals ++ [arrival])) := by
  have kept := lastTime_concat arrivals arrival
  rw [decode, if_neg near, Decoder.receive, state]
  dsimp only
  rw [next]
  refine ⟨⟨size, closed, Or.inl ⟨kept.symm, rfl⟩⟩, ?_⟩
  have waiting : (1 : ℕ) ≠ 0 := by decide
  exact iff_of_false waiting nothing

/-- A header that the decoder takes for the first byte of a frame comes behind a pause. -/
def Proper (arrivals : List Arrival) (decoder : Decoder) (arrival : Arrival) : Prop :=
  (framelen arrival.byte).isSome →
    arrival.timestampUs - decoder.lastDataUs ≥ minFramespaceUs → Spaced arrivals arrival

/-- A time stays far behind. -/
theorem far_of_le {kept last now : UInt64} (before : kept ≤ last)
    (far : minFramespaceUs ≤ last - kept) (later : last ≤ now) : now - kept ≥ minFramespaceUs := by
  rw [UInt64.le_iff_toNat_le, UInt64.toNat_sub_of_le _ _ before] at far
  rw [ge_iff_le, UInt64.le_iff_toNat_le, UInt64.toNat_sub_of_le _ _ (UInt64.le_trans before later)]
  exact far.trans (Nat.sub_le_sub_right (UInt64.le_iff_toNat_le.mp later) _)

/-- The decoder follows each byte of a stream, and reports a frame exactly if the byte completes
one. -/
theorem follows_decode (maxValues : ℕ) (follows : Follows arrivals decoder)
    (later : lastTime arrivals ≤ arrival.timestampUs) (proper : Proper arrivals decoder arrival) :
    Follows (arrivals ++ [arrival]) (decode maxValues decoder arrival).1 ∧
      ((decode maxValues decoder arrival).2.ret = 0 ↔ Completes (arrivals ++ [arrival])) := by
  obtain ⟨size, knows⟩ := follows
  rw [Knows] at knows
  cases state : decoder.decodeState with
  | new =>
    rw [state] at knows
    exact knows.elim
  | collect =>
    rw [state] at knows
    obtain ⟨kept, seen, isRun, holds⟩ := knows
    by_cases spaced : Spaced arrivals arrival
    · have gap : arrival.timestampUs - decoder.lastDataUs ≥ minFramespaceUs := by
        rw [kept]
        exact spaced
      cases known : framelen arrival.byte with
      | some length => exact follows_header maxValues size gap known spaced
      | none =>
        have before : decoder.lastDataUs ≤ arrival.timestampUs := by
          rw [kept]
          exact later
        have isRun' : IsRun (arrivals ++ [arrival]) [arrival] :=
          isRun_concat.mpr (by rw [if_pos spaced])
        refine follows_unknown maxValues size gap known before ?_ ?_
        · rintro frame other ⟨length, known', -⟩
          rw [other.unique isRun'] at known'
          exact nomatch known.symm.trans known'
        · rintro ⟨frame, other, isFrame⟩
          rw [other.unique isRun'] at isFrame
          exact not_isFrame_singleton _ isFrame
    · have near : ¬ arrival.timestampUs - decoder.lastDataUs ≥ minFramespaceUs := by
        rw [kept]
        exact spaced
      exact follows_collect maxValues size state near spaced isRun holds
  | idle =>
    rw [state] at knows
    obtain ⟨closed, times⟩ := knows
    by_cases gap : arrival.timestampUs - decoder.lastDataUs ≥ minFramespaceUs
    · cases known : framelen arrival.byte with
      | some length =>
        have spaced := proper (by rw [known]; rfl) gap
        exact follows_header maxValues size gap known spaced
      | none =>
        obtain ⟨closed', nothing⟩ := closed.concat fun _ => known
        have before : decoder.lastDataUs ≤ arrival.timestampUs := by
          rcases times with ⟨kept, -⟩ | ⟨before, -⟩
          · rw [kept]
            exact later
          · exact UInt64.le_trans before later
        exact follows_unknown maxValues size gap known before closed' nothing
    · rcases times with ⟨kept, next⟩ | ⟨before, far⟩
      · have notSpaced : ¬ Spaced arrivals arrival := by
          rw [Spaced, ← kept]
          exact gap
        obtain ⟨closed', nothing⟩ := closed.concat fun spaced => absurd spaced notSpaced
        exact follows_idle maxValues size state next gap closed' nothing
      · exact absurd (far_of_le before far later) gap

/-! ### Streams -/

/-- The decoder behind a stream. -/
def behind (maxValues : ℕ) (arrivals : List Arrival) : Decoder :=
  (Framing.run (step maxValues) start arrivals).1

/-- Each frame that the decoder begins is begun behind a pause. -/
def AllProper (maxValues : ℕ) (arrivals : List Arrival) : Prop :=
  ∀ before arrival after, arrivals = before ++ arrival :: after →
    Proper before (behind maxValues before) arrival

theorem AllProper.before {maxValues : ℕ} (proper : AllProper maxValues (arrivals ++ [arrival])) :
    AllProper maxValues arrivals := by
  rintro before other after rfl
  exact proper before other (after ++ [arrival]) (List.append_assoc ..)

theorem behind_concat (maxValues : ℕ) (arrivals : List Arrival) (arrival : Arrival) :
    behind maxValues (arrivals ++ [arrival]) =
      (decode maxValues (behind maxValues arrivals) arrival).1 := by
  rw [behind, Framing.run_append, Framing.run_singleton]
  rfl

theorem follows_behind (maxValues : ℕ) (ordered : Ordered arrivals)
    (proper : AllProper maxValues arrivals) : Follows arrivals (behind maxValues arrivals) := by
  induction arrivals using List.reverseRecOn with
  | nil =>
    refine ⟨List.length_replicate, ?_, Or.inl ⟨rfl, rfl⟩⟩
    rintro seen ⟨before, first, rest, split, rfl, -⟩
    exact absurd split.symm (by simp)
  | append_singleton arrivals arrival inductionHypothesis =>
    rw [behind_concat]
    have follows := inductionHypothesis ordered.before proper.before
    exact (follows_decode maxValues follows ordered.le (proper arrivals arrival [] rfl)).1

/-- In a stream in which each frame is begun behind a pause, the decoder reports a frame at a byte
exactly if the byte completes one. -/
theorem decode_zero_iff (maxValues : ℕ) (arrivals : List Arrival) (arrival : Arrival)
    (ordered : Ordered (arrivals ++ [arrival]))
    (proper : AllProper maxValues (arrivals ++ [arrival])) :
    (decode maxValues (behind maxValues arrivals) arrival).2.ret = 0 ↔
      ∃ frame, IsRun (arrivals ++ [arrival]) frame ∧ IsFrame (frame.map Arrival.byte) :=
  (follows_decode maxValues (follows_behind maxValues ordered.before proper.before) ordered.le
    (proper arrivals arrival [] rfl)).2

/-! ### Two streams -/

instance (before : List Arrival) (decoder : Decoder) (arrival : Arrival) :
    Decidable (Proper before decoder arrival) :=
  inferInstanceAs (Decidable (_ → _ → _))

instance (arrivals : List Arrival) : Decidable (Ordered arrivals) :=
  inferInstanceAs (Decidable (List.IsChain _ arrivals))

theorem allProper_iff (maxValues : ℕ) (arrivals : List Arrival) :
    AllProper maxValues arrivals ↔ ∀ index : Fin arrivals.length,
      Proper (arrivals.take index) (behind maxValues (arrivals.take index)) arrivals[index] := by
  constructor
  · intro proper index
    refine proper _ _ (arrivals.drop (index + 1)) ?_
    have split := (List.take_append_drop index.val arrivals).symm
    rwa [List.drop_eq_getElem_cons index.isLt] at split
  · rintro each before arrival after rfl
    have inside : before.length < (before ++ arrival :: after).length := by
      rw [List.length_append, List.length_cons]
      omega
    have here := each ⟨before.length, inside⟩
    have prior : (before ++ arrival :: after).take before.length = before := List.take_left
    have same : (before ++ arrival :: after)[before.length] = arrival := by
      rw [List.getElem_append_right (Nat.le_refl _)]
      simp
    dsimp only [Fin.getElem_fin] at here
    rwa [prior, same] at here

instance (maxValues : ℕ) (arrivals : List Arrival) : Decidable (AllProper maxValues arrivals) :=
  decidable_of_iff _ (allProper_iff maxValues arrivals).symm

/-- A frame of version 5 without its last byte, from a time on. -/
def frameFrom (timestampUs : UInt64) : List Arrival :=
  ((0xA5 : UInt8) :: List.replicate 15 0 ++ [0x66]).map fun byte => ⟨timestampUs, byte⟩

theorem decode_zero_frame :
    (decode 16 (behind 16 (frameFrom 9000)) ⟨9000, 0x93⟩).2.ret = 0 ↔
      ∃ frame, IsRun (frameFrom 9000 ++ [⟨9000, 0x93⟩]) frame ∧
        IsFrame (frame.map Arrival.byte) :=
  decode_zero_iff 16 (frameFrom 9000) ⟨9000, 0x93⟩ (by decide +kernel) (by decide +kernel)

/-- Behind a byte that is no header, a frame is reported that is begun without a pause. -/
theorem decode_zero_unspaced :
    ¬ ∀ (maxValues : ℕ) (arrivals : List Arrival) (arrival : Arrival),
      Ordered (arrivals ++ [arrival]) →
        ((decode maxValues (behind maxValues arrivals) arrival).2.ret = 0 ↔
          ∃ frame, IsRun (arrivals ++ [arrival]) frame ∧ IsFrame (frame.map Arrival.byte)) := by
  intro exact_frames
  have ordered : Ordered ((⟨8000, 0⟩ :: frameFrom 8001) ++ [⟨8001, 0x93⟩]) := by decide +kernel
  have reported :
      (decode 16 (behind 16 (⟨8000, 0⟩ :: frameFrom 8001)) ⟨8001, 0x93⟩).2.ret = 0 := by
    decide +kernel
  obtain ⟨frame, isRun, known, -⟩ := (exact_frames 16 _ _ ordered).mp reported
  have whole : IsRun ((⟨8000, 0⟩ :: frameFrom 8001) ++ [⟨8001, 0x93⟩])
      ((⟨8000, 0⟩ :: frameFrom 8001) ++ [⟨8001, 0x93⟩]) :=
    ⟨[], ⟨8000, 0⟩, frameFrom 8001 ++ [⟨8001, 0x93⟩], rfl, rfl, by decide, by decide +kernel⟩
  rw [isRun.unique whole] at known
  exact absurd known (by decide)

end Urus.RcProtocol.Srxl
