/-
This file proves that the byte buffer is a bounded queue of bytes. It holds one byte less than it
has slots, every call answers as the queue does, and what the two-segment computations read and
write is a run of the ring.

The queue is served as long as no sum of a position and a count reaches 2³², which no sum does
in a buffer of at most 2³¹ bytes.
-/

import Urus.Lib.Fifo
import Urus.Lib.RingBytes
import Urus.Lib.Serve
import Urus.RingBuffer.Model

namespace Urus.RingBuffer

open Image

/-! ### What is wanted -/

/-- What a bounded queue of bytes answers to a call, and how it goes on. The parts of `peekiovec`
are at most two, and together they are the bytes asked for; the part of `readptr` is some of the
oldest bytes, and there is one if there are bytes. -/
def Allows {capacity : ℕ} (queue : Fifo UInt8 capacity) (call : Call) (answer : Answer)
    (next : Fifo UInt8 capacity) : Prop :=
  match call with
  | .write data => answer = .count (min data.length queue.free) ∧ next = queue.accept data
  | .read len => answer = .bytes (queue.items.take len) ∧ next = queue.drop len
  | .readByte given =>
    answer = .byte (given && !queue.items.isEmpty) (if given then queue.items.head? else none) ∧
      next = if given then queue.drop 1 else queue
  | .peek ofs =>
    answer = .value (queue.items[ofs]?.elim (-1) fun byte => (byte.toNat : ℤ)) ∧ next = queue
  | .peekbytes len => answer = .bytes (queue.items.take len) ∧ next = queue
  | .peekiovec len => (∃ parts, answer = .parts parts ∧ parts.flatten = queue.items.take len ∧
      parts.length ≤ 2 ∧ [] ∉ parts) ∧ next = queue
  | .readptr => (∃ parts, answer = .parts parts ∧ parts.flatten <+: queue.items ∧
      parts.length ≤ 1 ∧ [] ∉ parts ∧ (queue.items ≠ [] → parts ≠ [])) ∧ next = queue
  | .update data => answer = .flag (data.length ≤ queue.items.length) ∧ next = queue.overwrite data
  | .advance n => answer = .flag (n ≤ queue.items.length) ∧ next = queue.discard n
  | .reserveCommit len fill => answer = .reserved (min len queue.free) true ∧
      next = queue.accept (fill.take len)
  | .clear => answer = .done ∧ next = Fifo.empty
  | .available => answer = .count queue.items.length ∧ next = queue
  | .space => answer = .count queue.free ∧ next = queue
  | .empty => answer = .flag queue.items.isEmpty ∧ next = queue

variable {size : ℕ} {buffer : ByteBuffer size}

namespace ByteBuffer

/-- The sums of the positions and what they move on by stay below 2³². -/
def Straight (buffer : ByteBuffer size) (taken stored : ℕ) : Prop :=
  buffer.head + taken < 2 ^ 32 ∧ buffer.tail + stored < 2 ^ 32

/-- The sums of a call stay below 2³². -/
def Fits (buffer : ByteBuffer size) : Call → Prop
  | .write data => buffer.Straight 0 (min data.length buffer.space)
  | .read len => buffer.Straight (min len buffer.available) 0
  | .readByte given => given = true → 0 < buffer.available → buffer.Straight 1 0
  | .peek ofs => ofs < buffer.available → buffer.Straight ofs 0
  | .advance n => n ≤ buffer.available → buffer.Straight n 0
  | .reserveCommit len fill => buffer.Straight 0 (min fill.length (min len buffer.space))
  | _ => True

instance {taken stored : ℕ} : Decidable (buffer.Straight taken stored) :=
  inferInstanceAs (Decidable (_ ∧ _))

/-- The bytes between head and tail. -/
def queue (buffer : ByteBuffer size) : Fifo UInt8 (size - 1) where
  items := ringItems buffer.buf size buffer.head buffer.tail
  bounded := by
    have bound := ringCount_lt buffer.headInside buffer.tailInside
    rw [ringItems_length]
    omega

theorem new_queue (positive : 0 < size) : (new size positive).queue = Fifo.empty :=
  Fifo.ext (ringItems_empty _ _ _)

/-! ### Positions -/

theorem available_eq (buffer : ByteBuffer size) :
    buffer.available = buffer.queue.items.length := by
  change _ = (ringItems buffer.buf size buffer.head buffer.tail).length
  have head := buffer.headInside
  rw [ringItems_length, available, ringCount]
  split <;> split <;> omega

theorem available_lt (buffer : ByteBuffer size) : buffer.available < size := by
  have bounded := buffer.queue.bounded
  have head := buffer.headInside
  rw [available_eq]
  omega

theorem space_eq (buffer : ByteBuffer size) : buffer.space = buffer.queue.free := by
  have head := buffer.headInside
  have tail := buffer.tailInside
  rw [Fifo.free, ← available_eq, space, available, if_neg (by omega)]
  split <;> split <;> omega

/-- The free bytes and those to be read are together one less than the slots. -/
theorem available_add_space (buffer : ByteBuffer size) :
    buffer.available + buffer.space = size - 1 := by
  have bounded := buffer.queue.bounded
  rw [space_eq, Fifo.free, available_eq]
  omega

theorem empty_eq (buffer : ByteBuffer size) : buffer.empty = buffer.queue.items.isEmpty := by
  have head := buffer.headInside
  have tail := buffer.tailInside
  rw [Bool.eq_iff_iff, List.isEmpty_iff_length_eq_zero, ← available_eq, empty, decide_eq_true_iff,
    available]
  split <;> omega

theorem moved_eq {position n : ℕ} (inside : position < size) (bound : n ≤ size)
    (straight : position + n < 2 ^ 32) : moved size position n = ringIndex size position n := by
  rw [moved, Nat.mod_eq_of_lt straight, ringIndex_eq_mod inside bound]

/-! ### Writing -/

/-- The parts of the free bytes are behind the tail and at the start of the ring. -/
theorem reserve_parts {buffer : ByteBuffer size} {len n : ℕ} (least : min len buffer.space = n) :
    buffer.reserve len =
      if n = 0 then []
      else if n ≤ size - buffer.tail then [⟨buffer.tail, n⟩]
      else [⟨buffer.tail, size - buffer.tail⟩, ⟨0, n - (size - buffer.tail)⟩] := by
  have limit : (if len > buffer.space then buffer.space else len) = n := by
    split <;> omega
  rw [reserve, limit]

theorem reserve_total (buffer : ByteBuffer size) (len : ℕ) :
    ((buffer.reserve len).map IoVec.len).sum = min len buffer.space := by
  generalize least : min len buffer.space = n
  rw [reserve_parts least]
  split
  · rename_i nothing
    rw [nothing]
    rfl
  · split
    · simp only [List.map_cons, List.map_nil, List.sum_cons, List.sum_nil, Nat.add_zero]
    · simp only [List.map_cons, List.map_nil, List.sum_cons, List.sum_nil, Nat.add_zero]
      omega

theorem copyIn_reserve (buffer : ByteBuffer size) (len : ℕ) (data : List UInt8) :
    (copyIn data (buffer.reserve len) buffer.buf 0).1 =
      ringPut buffer.buf size buffer.tail (data.take (min len buffer.space)) := by
  generalize least : min len buffer.space = n
  rw [reserve_parts least]
  split
  · rename_i nothing
    rw [nothing, List.take_zero, ringPut_straight _ (Nat.zero_le _), put_nil]
    rfl
  · split
    · rename_i near
      have short : (data.take n).length ≤ size - buffer.tail :=
        le_trans (List.length_take_le _ _) near
      rw [ringPut_straight _ short]
      rfl
    · rename_i far
      rw [ringPut, List.take_take, min_eq_left (by omega), List.drop_take]
      simp only [copyIn, List.drop_zero, Nat.zero_add]

theorem copyIn_count (data : List UInt8) (vecs : List IoVec) (buf : Image) (ret : ℕ) :
    (copyIn data vecs buf ret).2 = ret + (vecs.map IoVec.len).sum := by
  induction vecs generalizing buf ret with
  | nil => rfl
  | cons vec rest inductionHypothesis =>
    rw [copyIn, inductionHypothesis, List.map_cons, List.sum_cons, Nat.add_assoc]

theorem commit_stored {stored : List UInt8} (room : stored.length ≤ buffer.space)
    (straight : buffer.tail + stored.length < 2 ^ 32) :
    let after := { buffer with buf := ringPut buffer.buf size buffer.tail stored }.commit
      stored.length
    after.1.queue.items = buffer.queue.items ++ stored ∧ after.2 = true := by
  have total := buffer.available_add_space
  have head := buffer.headInside
  have enough : ¬ stored.length >
      space { buffer with buf := ringPut buffer.buf size buffer.tail stored } := not_lt.mpr room
  dsimp only
  rw [commit, if_neg enough]
  refine ⟨?_, rfl⟩
  change ringItems (ringPut buffer.buf size buffer.tail stored) size buffer.head
    (moved size buffer.tail stored.length) = _
  rw [moved_eq buffer.tailInside (by omega) straight]
  refine ringItems_ringPut buffer.headInside buffer.tailInside ?_
  have count : buffer.available = ringCount size buffer.head buffer.tail :=
    (available_eq buffer).trans (ringItems_length _ _ _ _)
  omega

theorem write_spec {data : List UInt8}
    (straight : buffer.Straight 0 (min data.length buffer.space)) :
    (buffer.write data).1.queue = buffer.queue.accept data ∧
      (buffer.write data).2 = min data.length buffer.queue.free := by
  have length : (data.take (min data.length buffer.space)).length = min data.length buffer.space := by
    rw [List.length_take]
    omega
  have committed := @commit_stored size buffer (data.take (min data.length buffer.space))
    (by rw [length]; exact min_le_right _ _) (by rw [length]; exact straight.2)
  rw [length] at committed
  rw [write, ← space_eq]
  dsimp only
  rw [copyIn_reserve, copyIn_count, reserve_total, Nat.zero_add]
  refine ⟨Fifo.ext (committed.1.trans ?_), rfl⟩
  rw [Fifo.accept_items_take, ← space_eq]
  congr 1
  rcases le_total data.length buffer.space with all | cut
  · rw [min_eq_left all, List.take_length, List.take_of_length_le all]
  · rw [min_eq_right cut]

theorem reserveCommit_spec {len : ℕ} {fill : List UInt8}
    (straight : buffer.Straight 0 (min fill.length (min len buffer.space))) :
    (buffer.reserveCommit len fill).1.queue = buffer.queue.accept (fill.take len) ∧
      (buffer.reserveCommit len fill).2 = (min len buffer.queue.free, true) := by
  have length : (fill.take (min len buffer.space)).length =
      min fill.length (min len buffer.space) := by
    rw [List.length_take]
    omega
  have committed := @commit_stored size buffer (fill.take (min len buffer.space))
    (by rw [length]; omega) (by rw [length]; exact straight.2)
  rw [reserveCommit, ← space_eq]
  dsimp only
  rw [copyIn_reserve, reserve_total, List.take_take, min_self]
  refine ⟨Fifo.ext (committed.1.trans ?_), by rw [committed.2]⟩
  rw [Fifo.accept_items_take, ← space_eq, List.take_take, min_comm]

/-! ### Reading -/

theorem advance_spec {n : ℕ} (straight : n ≤ buffer.available → buffer.head + n < 2 ^ 32) :
    (buffer.advance n).1.queue = buffer.queue.discard n ∧
      (buffer.advance n).2 = decide (n ≤ buffer.queue.items.length) := by
  rw [← available_eq, advance]
  split
  · rename_i many
    rw [Fifo.discard_of_few (by rwa [← available_eq])]
    exact ⟨rfl, (decide_eq_false (not_le_of_gt many)).symm⟩
  · rename_i few
    rw [not_lt] at few
    have bound := buffer.available_lt
    refine ⟨Fifo.ext ?_, (decide_eq_true few).symm⟩
    rw [Fifo.discard_items (by rwa [← available_eq])]
    change ringItems buffer.buf size (moved size buffer.head n) buffer.tail = _
    rw [moved_eq buffer.headInside (by omega) (straight few)]
    refine ringItems_drop buffer.headInside buffer.tailInside ?_
    rw [available_eq] at few
    exact le_of_le_of_eq few (ringItems_length _ _ _ _)

/-- The bytes asked for, as far as there are any, lie behind the head in one or two parts. -/
theorem peekiovec_eq (buffer : ByteBuffer size) (len : ℕ) :
    buffer.peekiovec len =
      if min len buffer.available = 0 then []
      else if min len buffer.available ≤ size - buffer.head then
        [⟨buffer.head, min len buffer.available⟩]
      else
        [⟨buffer.head, size - buffer.head⟩,
          ⟨0, min len buffer.available - (size - buffer.head)⟩] := by
  have head := buffer.headInside
  have tail := buffer.tailInside
  have limit : (if len > buffer.available then buffer.available else len) =
      min len buffer.available := by
    split <;> omega
  rw [peekiovec]
  dsimp only
  rw [limit]
  have bound : min len buffer.available ≤ buffer.available := min_le_right _ _
  generalize min len buffer.available = count at bound ⊢
  have cut : ∀ contiguous, (if contiguous > count then count else contiguous) =
      min count contiguous := by
    intro contiguous
    split <;> omega
  split
  · rfl
  · rw [readptr]
    dsimp only
    rw [cut]
    rw [available] at bound
    by_cases wrapped : buffer.head > buffer.tail
    · rw [if_pos wrapped, if_neg (show ¬ size - buffer.head = 0 by omega), Option.getD_some]
      by_cases near : count ≤ size - buffer.head
      · rw [min_eq_left near, if_pos (le_refl _), if_pos near]
      · rw [min_eq_right (le_of_not_ge near), if_neg near, if_neg near]
    · rw [if_neg wrapped] at bound
      rw [if_neg wrapped, if_neg (show ¬ buffer.tail - buffer.head = 0 by omega), Option.getD_some,
        min_eq_left bound, if_pos (le_refl _), if_pos (by omega)]

theorem peekbytes_eq (buffer : ByteBuffer size) (len : ℕ) :
    buffer.peekbytes len = buffer.queue.items.take len := by
  have count : buffer.available = ringCount size buffer.head buffer.tail :=
    (available_eq buffer).trans (ringItems_length _ _ _ _)
  have cut : buffer.queue.items.take len =
      buffer.queue.items.take (min len buffer.available) := by
    rw [available_eq, List.take_eq_take_min]
  have run : buffer.queue.items.take (min len buffer.available) =
      ringSlice buffer.buf size buffer.head (min len buffer.available) :=
    ringItems_take buffer.headInside buffer.tailInside (count ▸ min_le_right _ _)
  rw [peekbytes, peekiovec_eq, cut, run]
  split
  · rename_i nothing
    rw [nothing, ringSlice_straight _ (Nat.zero_le _)]
    rfl
  · split
    · rename_i near
      rw [ringSlice_straight _ near]
      exact List.append_nil _
    · rename_i far
      rw [ringSlice, min_eq_right (le_of_not_ge far)]
      exact congrArg (slice buffer.buf buffer.head (size - buffer.head) ++ ·) (List.append_nil _)

theorem read_spec {len : ℕ} (straight : buffer.Straight (min len buffer.available) 0) :
    (buffer.read len).1.queue = buffer.queue.drop len ∧
      (buffer.read len).2 = buffer.queue.items.take len := by
  have length : (buffer.peekbytes len).length = min len buffer.available := by
    rw [peekbytes_eq, List.length_take, available_eq]
  have advanced := @advance_spec size buffer _ fun _ => straight.1
  rw [read, length]
  refine ⟨advanced.1.trans (Fifo.ext ?_), peekbytes_eq buffer len⟩
  rw [Fifo.discard_items (by rw [available_eq]; exact min_le_right _ _), available_eq]
  change _ = buffer.queue.items.drop len
  rcases le_total len buffer.queue.items.length with part | all
  · rw [min_eq_left part]
  · rw [min_eq_right all, List.drop_length, List.drop_eq_nil_of_le all]

theorem peek_spec {ofs : ℕ} (straight : ofs < buffer.available → buffer.head + ofs < 2 ^ 32) :
    buffer.peek ofs = buffer.queue.items[ofs]?.elim (-1) fun byte => (byte.toNat : ℤ) := by
  rw [peek]
  split
  · rename_i outside
    rw [List.getElem?_eq_none (by rwa [← available_eq])]
    rfl
  · rename_i inside
    rw [not_le] at inside
    have bound := buffer.available_lt
    have present := inside
    rw [available_eq] at present
    rw [List.getElem?_eq_getElem present,
      moved_eq buffer.headInside (by omega) (straight inside)]
    have here : buffer.queue.items[ofs] = buffer.buf (ringIndex size buffer.head ofs) :=
      ringItems_getElem _ _ _ _ _ present
    rw [here]
    rfl

theorem update_spec (buffer : ByteBuffer size) (data : List UInt8) :
    (buffer.update data).1.queue = buffer.queue.overwrite data ∧
      (buffer.update data).2 = decide (data.length ≤ buffer.queue.items.length) := by
  have count : buffer.available = ringCount size buffer.head buffer.tail :=
    (available_eq buffer).trans (ringItems_length _ _ _ _)
  rw [← available_eq, update]
  split
  · rename_i many
    rw [Fifo.overwrite_of_few (by rwa [← available_eq])]
    exact ⟨rfl, (decide_eq_false (not_le_of_gt many)).symm⟩
  · rename_i few
    rw [not_lt] at few
    refine ⟨Fifo.ext ?_, (decide_eq_true few).symm⟩
    rw [Fifo.overwrite_items (by rwa [← available_eq])]
    refine Eq.trans ?_ (ringItems_replace buffer.headInside buffer.tailInside (count ▸ few))
    dsimp only
    have cut : (if size - buffer.head > data.length then data.length else size - buffer.head) =
        min data.length (size - buffer.head) := by
      split <;> omega
    rw [cut]
    change ringItems (if _ then _ else _) size buffer.head buffer.tail = _
    congr 1
    rcases le_or_gt data.length (size - buffer.head) with near | far
    · rw [ringPut_straight _ near, min_eq_left near, if_neg (lt_irrefl _), List.take_length]
    · rw [min_eq_right (le_of_lt far), if_pos far]
      rfl

theorem readByte_spec {given : Bool}
    (straight : given = true → 0 < buffer.available → buffer.Straight 1 0) :
    (buffer.readByte given).1.queue = (if given then buffer.queue.drop 1 else buffer.queue) ∧
      (buffer.readByte given).2 = (given && !buffer.queue.items.isEmpty,
        if given then buffer.queue.items.head? else none) := by
  cases given with
  | false => exact ⟨rfl, rfl⟩
  | true =>
    have first := @peek_spec size buffer 0 fun some => Nat.lt_of_succ_lt (straight rfl some).1
    rw [readByte, if_neg (show ¬ true = false by decide)]
    cases held : buffer.queue.items with
    | nil =>
      have none : buffer.peek 0 = -1 := by
        rw [first, held]
        rfl
      rw [if_pos (by rw [none]; decide), if_pos rfl]
      refine ⟨Fifo.ext ?_, rfl⟩
      change buffer.queue.items = buffer.queue.items.drop 1
      rw [held]
      rfl
    | cons byte rest =>
      have some : buffer.peek 0 = (byte.toNat : ℤ) := by
        rw [first, held]
        rfl
      have present : 1 ≤ buffer.queue.items.length := by
        rw [held]
        exact Nat.le_add_left _ _
      have advanced := @advance_spec size buffer 1 fun enough => (straight rfl enough).1
      rw [if_neg (by rw [some]; omega), if_pos rfl]
      refine ⟨advanced.1.trans (if_pos present), ?_⟩
      dsimp only
      rw [advanced.2, decide_eq_true present, some, Int.toNat_natCast, UInt8.ofNat_toNat]
      rfl

/-- The part of `readptr` is the oldest bytes, up to the end of the memory. -/
theorem readptr_parts (buffer : ByteBuffer size) :
    ∃ parts, Answer.parts
        (buffer.readptr.1.toList.map fun b => slice buffer.buf b buffer.readptr.2) =
      .parts parts ∧ parts.flatten <+: buffer.queue.items ∧ parts.length ≤ 1 ∧ [] ∉ parts ∧
      (buffer.queue.items ≠ [] → parts ≠ []) := by
  have head := buffer.headInside
  have tail := buffer.tailInside
  rw [readptr]
  generalize contiguous : (if buffer.head > buffer.tail then size - buffer.head
    else buffer.tail - buffer.head) = count
  have bound : count ≤ ringCount size buffer.head buffer.tail ∧ count ≤ size - buffer.head ∧
      (count = 0 → ringCount size buffer.head buffer.tail = 0) := by
    rw [ringCount]
    split at contiguous <;> split <;> omega
  have run : buffer.queue.items.take count = slice buffer.buf buffer.head count :=
    (ringItems_take head tail bound.1).trans (ringSlice_straight _ bound.2.1)
  by_cases none : count = 0
  · refine ⟨[], by rw [if_pos none]; rfl, List.nil_prefix, Nat.zero_le 1, List.not_mem_nil,
      fun some => absurd (List.eq_nil_of_length_eq_zero ?_) some⟩
    exact (ringItems_length _ _ _ _).trans (bound.2.2 none)
  · refine ⟨[slice buffer.buf buffer.head count], by rw [if_neg none]; rfl, ?_, le_refl 1,
      fun void => ?_, fun _ => List.cons_ne_nil _ _⟩
    · rw [List.flatten_singleton, ← run]
      exact List.take_prefix _ _
    · have length := congrArg List.length (List.mem_singleton.mp void)
      rw [slice_length] at length
      exact none length.symm

theorem call_allows (buffer : ByteBuffer size) {call : Call} (fits : buffer.Fits call) :
    Allows buffer.queue call (buffer.call call).2 (buffer.call call).1.queue := by
  cases call with
  | write data =>
    have written := write_spec fits
    exact ⟨congrArg _ written.2, written.1⟩
  | read len =>
    have taken := read_spec fits
    exact ⟨congrArg _ taken.2, taken.1⟩
  | readByte given =>
    have taken := readByte_spec fits
    exact ⟨congrArg₂ _ (congrArg Prod.fst taken.2) (congrArg Prod.snd taken.2), taken.1⟩
  | peek ofs => exact ⟨congrArg _ (peek_spec fun inside => (fits inside).1), rfl⟩
  | peekbytes len => exact ⟨congrArg _ (buffer.peekbytes_eq len), rfl⟩
  | peekiovec len =>
    refine ⟨⟨_, rfl, ?_, ?_, fun void => ?_⟩, rfl⟩
    · rw [← buffer.peekbytes_eq len]
      rfl
    · rw [List.length_map, peekiovec_eq]
      split_ifs
      · exact Nat.zero_le 2
      · exact Nat.le_succ 1
      · exact le_refl 2
    · obtain ⟨vec, member, same⟩ := List.mem_map.mp void
      have length := congrArg List.length same
      rw [slice_length, List.length_nil] at length
      rw [peekiovec_eq] at member
      split_ifs at member <;> simp only [List.mem_cons, List.not_mem_nil, or_false] at member
      · rw [member] at length
        contradiction
      · rcases member with rfl | rfl
        · have head := buffer.headInside
          dsimp only at length
          omega
        · dsimp only at length
          omega
  | readptr => exact ⟨buffer.readptr_parts, rfl⟩
  | update data =>
    have replaced := buffer.update_spec data
    exact ⟨congrArg _ replaced.2, replaced.1⟩
  | advance n =>
    have moved := advance_spec fun few => (fits few).1
    exact ⟨congrArg _ moved.2, moved.1⟩
  | reserveCommit len fill =>
    have stored := reserveCommit_spec fits
    exact ⟨congrArg₂ _ (congrArg Prod.fst stored.2) (congrArg Prod.snd stored.2), stored.1⟩
  | clear => exact ⟨rfl, Fifo.ext (ringItems_empty _ _ _)⟩
  | available => exact ⟨congrArg _ buffer.available_eq, rfl⟩
  | space => exact ⟨congrArg _ buffer.space_eq, rfl⟩
  | empty => exact ⟨congrArg _ buffer.empty_eq, rfl⟩

/-- In a buffer of at most 2³¹ bytes no sum comes to 2³². -/
theorem fits_of_small (small : size ≤ 2 ^ 31) (buffer : ByteBuffer size) (call : Call) :
    buffer.Fits call := by
  have head := buffer.headInside
  have tail := buffer.tailInside
  have total := buffer.available_add_space
  cases call <;> simp only [Fits, Straight] <;> omega

/-- A run whose sums stay below 2³² is served as by the queue of the bytes. -/
theorem bytes_serve {positive : 0 < size} {calls : List Call}
    (along : Along (fun buffer call => (ByteBuffer.call buffer call).1) (fun _ => True) Fits
      (new size positive) calls) :
    ∃ final, Serves Allows (Fifo.empty : Fifo UInt8 (size - 1))
      (calls.zip (answers call (new size positive) calls)) final := by
  obtain ⟨final, served, -⟩ := serves_of_simulates (fun buffer queue => buffer.queue = queue)
    (fun buffer queue call same fits => ⟨_, same ▸ buffer.call_allows fits, rfl⟩)
    (new_queue positive) along
  exact ⟨final, served⟩

end ByteBuffer

end Urus.RingBuffer
