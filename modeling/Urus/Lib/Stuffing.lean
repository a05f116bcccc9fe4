/-
This file is a library about byte stuffing. A stream is cut into parts by a start byte. A byte of a
part that is the start byte, or the escape byte, is sent as the escape byte and a byte in its place.
So a part holds no start byte, and what was sent can be read from the stream in one way only.
-/

import Mathlib.Data.List.Basic

namespace Urus.Stuffing

/-- A way to hide two bytes. -/
structure Code (Byte : Type*) where
  start : Byte
  escape : Byte
  hidden : Byte → Byte
  shown : Byte → Byte
  different : escape ≠ start
  shown_hidden : ∀ byte, byte = start ∨ byte = escape → shown (hidden byte) = byte
  hidden_ne : ∀ byte, byte = start ∨ byte = escape → hidden byte ≠ start

variable {Byte : Type*} [DecidableEq Byte] (code : Code Byte)

/-! ### Parts -/

/-- What is sent for a byte. -/
def Code.stuffByte (byte : Byte) : List Byte :=
  if byte = code.start ∨ byte = code.escape then [code.escape, code.hidden byte] else [byte]

/-- What is sent for the bytes of a part. -/
def Code.stuff (bytes : List Byte) : List Byte := bytes.flatMap code.stuffByte

/-- The bytes that have been sent. -/
def Code.unstuff : List Byte → List Byte
  | [] => []
  | [byte] => [byte]
  | byte :: next :: rest =>
    if byte = code.escape then code.shown next :: unstuff rest else byte :: unstuff (next :: rest)

theorem stuff_cons (byte : Byte) (bytes : List Byte) :
    code.stuff (byte :: bytes) = code.stuffByte byte ++ code.stuff bytes := rfl

theorem stuff_singleton (byte : Byte) : code.stuff [byte] = code.stuffByte byte :=
  List.append_nil _

theorem stuff_append (first second : List Byte) :
    code.stuff (first ++ second) = code.stuff first ++ code.stuff second :=
  List.flatMap_append

theorem start_not_mem_stuffByte (byte : Byte) : code.start ∉ code.stuffByte byte := by
  rw [Code.stuffByte]
  split_ifs with special
  · rw [List.mem_cons, List.mem_singleton, not_or]
    exact ⟨code.different.symm, (code.hidden_ne byte special).symm⟩
  · rw [List.mem_singleton]
    exact fun same => special (Or.inl same.symm)

theorem start_not_mem_stuff (bytes : List Byte) : code.start ∉ code.stuff bytes := by
  intro member
  obtain ⟨byte, -, member⟩ := List.mem_flatMap.mp member
  exact start_not_mem_stuffByte code byte member

theorem unstuff_stuffByte (byte : Byte) (rest : List Byte) :
    code.unstuff (code.stuffByte byte ++ rest) = byte :: code.unstuff rest := by
  rw [Code.stuffByte]
  split_ifs with special
  · change (if code.escape = code.escape then code.shown (code.hidden byte) :: code.unstuff rest
      else code.escape :: code.unstuff (code.hidden byte :: rest)) = byte :: code.unstuff rest
    rw [if_pos rfl, code.shown_hidden byte special]
  · cases rest with
    | nil => rfl
    | cons next rest => exact if_neg fun same => special (Or.inr same)

theorem unstuff_stuff (bytes : List Byte) : code.unstuff (code.stuff bytes) = bytes := by
  induction bytes with
  | nil => rfl
  | cons byte bytes inductionHypothesis =>
    rw [stuff_cons, unstuff_stuffByte, inductionHypothesis]

/-! ### Streams -/

/-- The parts of a stream, each of which stands behind a start byte. -/
def Code.parts : List Byte → List (List Byte)
  | [] => []
  | byte :: rest =>
    if byte = code.start then (rest.takeWhile (· ≠ code.start)) :: parts rest else parts rest

/-- A stream of parts. -/
def Code.stream (frames : List (List Byte)) : List Byte :=
  frames.flatMap fun frame => code.start :: code.stuff frame

theorem parts_append {part : List Byte} (none : code.start ∉ part) (rest : List Byte) :
    code.parts (part ++ rest) = code.parts rest := by
  induction part with
  | nil => rfl
  | cons byte part inductionHypothesis =>
    obtain ⟨other, later⟩ := not_or.mp fun member => none (List.mem_cons.mpr member)
    rw [List.cons_append, Code.parts, if_neg (Ne.symm other), inductionHypothesis later]

theorem takeWhile_stream (frames : List (List Byte)) :
    (code.stream frames).takeWhile (· ≠ code.start) = [] := by
  cases frames with
  | nil => rfl
  | cons frame frames =>
    change List.takeWhile _ (code.start :: (code.stuff frame ++ code.stream frames)) = []
    rw [List.takeWhile_cons_of_neg (by simp)]

theorem parts_stream (frames : List (List Byte)) :
    code.parts (code.stream frames) = frames.map code.stuff := by
  induction frames with
  | nil => rfl
  | cons frame frames inductionHypothesis =>
    have none := start_not_mem_stuff code frame
    have plain : ∀ byte ∈ code.stuff frame, decide (byte ≠ code.start) = true :=
      fun byte member => decide_eq_true fun same => none (same ▸ member)
    change code.parts (code.start :: (code.stuff frame ++ code.stream frames)) = _
    rw [Code.parts, if_pos rfl, List.takeWhile_append_of_pos plain, takeWhile_stream,
      List.append_nil, parts_append code none, inductionHypothesis, List.map_cons]

theorem stream_eq_append {frames : List (List Byte)} {before after : List Byte}
    (split : code.stream frames = before ++ code.start :: after) :
    ∃ earlier frame later, frames = earlier ++ frame :: later ∧ before = code.stream earlier ∧
      after = code.stuff frame ++ code.stream later := by
  induction frames generalizing before with
  | nil => exact absurd split.symm (by simp [Code.stream])
  | cons frame frames inductionHypothesis =>
    have whole : code.stream (frame :: frames) =
        code.start :: (code.stuff frame ++ code.stream frames) := rfl
    rw [whole] at split
    cases before with
    | nil => exact ⟨[], frame, frames, rfl, rfl, (List.cons.inj split).2.symm⟩
    | cons first before =>
      obtain ⟨rfl, rest⟩ := List.cons.inj split
      rcases List.append_eq_append_iff.mp rest with ⟨middle, rfl, onward⟩ | ⟨middle, part, onward⟩
      · obtain ⟨earlier, other, later, rfl, rfl, follows⟩ := inductionHypothesis onward
        exact ⟨frame :: earlier, other, later, rfl, rfl, follows⟩
      · cases middle with
        | nil =>
          rw [List.append_nil] at part
          have here : code.stream frames = [] ++ code.start :: after := onward.symm
          obtain ⟨earlier, other, later, rfl, none, follows⟩ := inductionHypothesis here
          refine ⟨frame :: earlier, other, later, rfl, ?_, follows⟩
          change _ = code.start :: (code.stuff frame ++ code.stream earlier)
          rw [← none, List.append_nil, part]
        | cons byte middle =>
          obtain ⟨rfl, -⟩ := List.cons.inj onward
          refine absurd ?_ (start_not_mem_stuff code frame)
          rw [part]
          exact List.mem_append_right _ List.mem_cons_self

/-- What was sent in a stream is read from it. -/
theorem unstuff_parts_stream (frames : List (List Byte)) :
    (code.parts (code.stream frames)).map code.unstuff = frames := by
  rw [parts_stream, List.map_map]
  exact List.map_id'' (unstuff_stuff code) frames

end Urus.Stuffing
