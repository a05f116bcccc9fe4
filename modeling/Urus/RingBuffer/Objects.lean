/-
This file proves when the object buffer is a bounded queue of objects. Its byte buffer holds the
bytes of the objects in the queue, one object behind the other, and has room for a whole number
of them.

The forced push of an array takes the free bytes for free objects when it makes room. This is
the same only for objects of one byte and in a full queue; elsewhere too few bytes go, or the
difference wraps and none do, and the push fails.
-/

import Urus.RingBuffer.Bytes

namespace Urus.RingBuffer

/-! ### What is wanted -/

/-- What a bounded queue of objects answers to a call, and how it goes on. -/
def serve {width capacity : ℕ} (queue : Fifo (Object width) capacity) :
    ObjectCall width → Answer × Fifo (Object width) capacity
  | .push object => (.flag (1 ≤ queue.free), queue.push [object])
  | .pushMany objects => (.flag (objects.length ≤ queue.free), queue.push objects)
  | .popOff => (.flag (1 ≤ queue.items.length), queue.discard 1)
  | .pop => (.object (1 ≤ queue.items.length) (objectBytes (queue.items.take 1)), queue.discard 1)
  | .pushForce object => (.flag (1 ≤ capacity), queue.force [object])
  | .pushForceMany objects => (.flag (objects.length ≤ capacity), queue.force objects)
  | .peek => (.object (1 ≤ queue.items.length) (objectBytes (queue.items.take 1)), queue)
  | .update object => (.flag (1 ≤ queue.items.length), queue.overwrite [object])
  | .available => (.count queue.items.length, queue)
  | .space => (.count queue.free, queue)
  | .empty => (.flag queue.items.isEmpty, queue)
  | .clear => (.done, Fifo.empty)

/-- The calls that the queue of objects answers in this way. -/
def AllowsObject {width capacity : ℕ} (queue : Fifo (Object width) capacity)
    (call : ObjectCall width) (answer : Answer) (next : Fifo (Object width) capacity) : Prop :=
  serve queue call = (answer, next)

variable {size width capacity : ℕ} {buffer : ByteBuffer size}
  {queue : Fifo (Object width) capacity}

/-- The sums of a call stay below 2³², and a forced push of an array has the room for it, or has objects
of one byte, or comes to a full queue. -/
def ByteBuffer.ObjectFits (buffer : ByteBuffer size) : ObjectCall width → Prop
  | .push _ => width ≤ buffer.space → buffer.Straight 0 width
  | .pushMany objects => objects.length * width ≤ buffer.space →
      buffer.Straight 0 (objects.length * width)
  | .popOff => width ≤ buffer.available → buffer.Straight width 0
  | .pop => width ≤ buffer.available → buffer.Straight width 0
  | .pushForce _ => width < size → buffer.Straight (width - buffer.space) width
  | .pushForceMany objects =>
      (objects.length * width ≤ buffer.space ∨
        objects.length * width < 2 ^ 32 ∧ (width = 1 ∨ buffer.space = 0)) ∧
      (objects.length * width < size →
        buffer.Straight (objects.length * width - buffer.space) (objects.length * width))
  | _ => True

/-- The byte buffer has the bytes of the objects. -/
structure Holds (buffer : ByteBuffer size) (queue : Fifo (Object width) capacity) : Prop where
  whole : size = capacity * width + 1
  small : size < 2 ^ 32
  object : 0 < width
  bytes : buffer.queue.items = objectBytes queue.items

/-! ### The bytes of objects -/

theorem objectBytes_length (objects : List (Object width)) :
    (objectBytes objects).length = objects.length * width := by
  induction objects with
  | nil => exact (Nat.zero_mul _).symm
  | cons object rest inductionHypothesis =>
    change (object.toList ++ objectBytes rest).length = _
    rw [List.length_append, inductionHypothesis, List.Vector.toList_length, List.length_cons,
      Nat.succ_mul, Nat.add_comm]

theorem objectBytes_append (first second : List (Object width)) :
    objectBytes (first ++ second) = objectBytes first ++ objectBytes second := by
  rw [objectBytes, List.map_append, List.flatten_append]
  rfl

theorem objectBytes_singleton (object : Object width) : objectBytes [object] = object.toList :=
  List.append_nil _

theorem objectBytes_drop (objects : List (Object width)) (count : ℕ) :
    (objectBytes objects).drop (count * width) = objectBytes (objects.drop count) := by
  rcases le_or_gt count objects.length with part | all
  · have split := objectBytes_append (objects.take count) (objects.drop count)
    rw [List.take_append_drop] at split
    rw [split, List.drop_left']
    rw [objectBytes_length, List.length_take_of_le part]
  · rw [List.drop_eq_nil_of_le (le_of_lt all), List.drop_eq_nil_of_le]
    · rfl
    · rw [objectBytes_length]
      exact Nat.mul_le_mul_right _ (le_of_lt all)

theorem objectBytes_take (objects : List (Object width)) (count : ℕ) :
    (objectBytes objects).take (count * width) = objectBytes (objects.take count) := by
  rcases le_or_gt count objects.length with part | all
  · have split := objectBytes_append (objects.take count) (objects.drop count)
    rw [List.take_append_drop] at split
    rw [split, List.take_left']
    rw [objectBytes_length, List.length_take_of_le part]
  · rw [List.take_of_length_le (le_of_lt all), List.take_of_length_le]
    rw [objectBytes_length]
    exact Nat.mul_le_mul_right _ (le_of_lt all)

namespace Holds

variable (holds : Holds buffer queue)
include holds

theorem available : buffer.available = queue.items.length * width := by
  rw [buffer.available_eq, holds.bytes, objectBytes_length]

theorem space : buffer.space = queue.free * width := by
  have total := buffer.available_add_space
  have whole := holds.whole
  rw [holds.available] at total
  rw [Fifo.free, Nat.sub_mul]
  omega

theorem room_iff (count : ℕ) : count * width ≤ buffer.space ↔ count ≤ queue.free := by
  rw [holds.space]
  exact Nat.mul_le_mul_right_iff holds.object

theorem present_iff (count : ℕ) :
    count * width ≤ buffer.available ↔ count ≤ queue.items.length := by
  rw [holds.available]
  exact Nat.mul_le_mul_right_iff holds.object

theorem fits_iff (count : ℕ) : count * width < size ↔ count ≤ capacity := by
  rw [holds.whole, Nat.lt_succ_iff]
  exact Nat.mul_le_mul_right_iff holds.object

/-! ### The calls -/

theorem goesOn {after : ByteBuffer size} {next : Fifo (Object width) capacity}
    (bytes : after.queue.items = objectBytes next.items) : Holds after next :=
  ⟨holds.whole, holds.small, holds.object, bytes⟩

theorem pushMany {objects : List (Object width)}
    (straight : objects.length * width ≤ buffer.space →
      buffer.Straight 0 (objects.length * width)) :
    (buffer.pushMany objects).2 = decide (objects.length ≤ queue.free) ∧
      Holds (buffer.pushMany objects).1 (queue.push objects) := by
  rw [ByteBuffer.pushMany]
  split
  · rename_i many
    have more := (holds.room_iff objects.length).not.mp (not_le_of_gt many)
    rw [Fifo.push_of_many (not_le.mp more)]
    exact ⟨(decide_eq_false more).symm, holds⟩
  · rename_i few
    rw [not_lt] at few
    have fits := (holds.room_iff objects.length).mp few
    have least : min (objectBytes objects).length buffer.space = objects.length * width := by
      rw [objectBytes_length, min_eq_left few]
    have written := @ByteBuffer.write_spec size buffer (objectBytes objects)
      (least.symm ▸ straight few)
    rw [← ByteBuffer.space_eq, least] at written
    refine ⟨?_, holds.goesOn ?_⟩
    · dsimp only
      rw [written.2, decide_eq_true fits, decide_eq_true rfl]
    · rw [written.1, Fifo.push_items fits, Fifo.accept_items, holds.bytes, objectBytes_append]
      rwa [objectBytes_length, ← ByteBuffer.space_eq]

omit holds in
theorem push_eq (buffer : ByteBuffer size) (object : Object width) :
    buffer.push object = buffer.pushMany [object] := by
  rw [ByteBuffer.push, ByteBuffer.pushMany, objectBytes_singleton, List.length_singleton,
    Nat.one_mul]

/-- Advancing over whole objects. -/
theorem advance (count : ℕ)
    (straight : count * width ≤ buffer.available → buffer.Straight (count * width) 0) :
    (buffer.advance (count * width)).2 = decide (count ≤ queue.items.length) ∧
      Holds (buffer.advance (count * width)).1 (queue.discard count) := by
  have advanced := @ByteBuffer.advance_spec size buffer _ fun few => (straight few).1
  rw [← ByteBuffer.available_eq, decide_eq_decide.mpr (holds.present_iff count)] at advanced
  refine ⟨advanced.2, holds.goesOn ?_⟩
  rw [advanced.1, Fifo.discard, Fifo.discard, ← ByteBuffer.available_eq]
  by_cases few : count ≤ queue.items.length
  · rw [if_pos few, if_pos ((holds.present_iff count).mpr few)]
    change buffer.queue.items.drop _ = objectBytes (queue.items.drop count)
    rw [holds.bytes, objectBytes_drop]
  · rw [if_neg few, if_neg ((holds.present_iff count).not.mpr few)]
    exact holds.bytes

theorem peekbytes : buffer.peekbytes width = objectBytes (queue.items.take 1) := by
  rw [buffer.peekbytes_eq, holds.bytes, ← objectBytes_take, Nat.one_mul]

/-- An object is read when there is one. -/
theorem peeked : ((buffer.peekbytes width).length = width) ↔ 1 ≤ queue.items.length := by
  have object := holds.object
  rw [holds.peekbytes, objectBytes_length, List.length_take]
  rcases Nat.eq_zero_or_pos queue.items.length with none | some
  · rw [none, Nat.min_zero, Nat.zero_mul]
    omega
  · rw [min_eq_left some, Nat.one_mul]
    exact ⟨fun _ => some, fun _ => rfl⟩

theorem pop (straight : width ≤ buffer.available → buffer.Straight width 0) :
    (buffer.pop width).2 =
        (decide (1 ≤ queue.items.length), objectBytes (queue.items.take 1)) ∧
      Holds (buffer.pop width).1 (queue.discard 1) := by
  have present := holds.present_iff 1
  rw [Nat.one_mul] at present
  rw [ByteBuffer.pop]
  split
  · rename_i short
    have none := present.not.mp (not_le_of_gt short)
    have void : queue.items.take 1 = [] :=
      List.take_eq_nil_of_eq_nil (List.eq_nil_of_length_eq_zero (by omega))
    rw [decide_eq_false none, void, Fifo.discard_of_few (not_le.mp none)]
    exact ⟨rfl, holds⟩
  · rename_i enough
    rw [not_lt] at enough
    have some := present.mp enough
    have taken := @ByteBuffer.read_spec size buffer width (by
      rw [min_eq_left enough]
      exact straight enough)
    have bytes : (buffer.read width).2 = buffer.peekbytes width := rfl
    refine ⟨Prod.ext ?_ (bytes.trans holds.peekbytes), holds.goesOn ?_⟩
    · dsimp only
      rw [bytes, decide_eq_decide]
      exact holds.peeked
    · rw [taken.1, Fifo.discard_items some, ← objectBytes_drop, Nat.one_mul, ← holds.bytes]
      rfl

theorem updateObject (object : Object width) :
    (buffer.updateObject object).2 = decide (1 ≤ queue.items.length) ∧
      Holds (buffer.updateObject object).1 (queue.overwrite [object]) := by
  have present := holds.present_iff 1
  rw [Nat.one_mul, buffer.available_eq] at present
  have replaced := buffer.update_spec object.toList
  rw [object.toList_length, decide_eq_decide.mpr present] at replaced
  refine ⟨replaced.2, holds.goesOn ?_⟩
  change (buffer.update object.toList).1.queue.items = _
  rw [replaced.1]
  by_cases some : [object].length ≤ queue.items.length
  · rw [Fifo.overwrite_items some, Fifo.overwrite_items, objectBytes_append,
      objectBytes_singleton, object.toList_length, holds.bytes, List.length_singleton,
      ← objectBytes_drop, Nat.one_mul]
    rw [object.toList_length]
    exact present.mpr some
  · rw [Fifo.overwrite_of_few (not_le.mp some), Fifo.overwrite_of_few, holds.bytes]
    rw [object.toList_length]
    exact not_le.mp (present.not.mpr some)

/-- A forced push that advances over as many bytes as are missing. -/
theorem pushForced {objects : List (Object width)} {after : ByteBuffer size}
    (advanced : after = (buffer.advance (objects.length * width - buffer.space)).1)
    (straight : objects.length * width < size →
      buffer.Straight (objects.length * width - buffer.space) (objects.length * width)) :
    (after.pushMany objects).2 = decide (objects.length ≤ capacity) ∧
      Holds (after.pushMany objects).1 (queue.force objects) := by
  have bounded := queue.bounded
  have missing : objects.length * width - buffer.space =
      (objects.length - queue.free) * width := by
    rw [holds.space, Nat.sub_mul]
  rw [missing] at advanced straight
  by_cases fits : objects.length ≤ capacity
  · have sums := straight ((holds.fits_iff objects.length).mpr fits)
    have tail := buffer.tailInside
    have small := holds.small
    obtain ⟨-, made⟩ := holds.advance (objects.length - queue.free) fun _ =>
      ⟨sums.1, lt_trans tail small⟩
    rw [← advanced] at made
    have enough : objects.length - queue.free ≤ queue.items.length := by
      rw [Fifo.free]
      omega
    have sameTail : after.tail = buffer.tail := by
      rw [advanced, ByteBuffer.advance]
      split <;> rfl
    have pushed := @pushMany size width capacity after _ made objects fun _ =>
      ⟨lt_trans after.headInside small, sameTail.symm ▸ sums.2⟩
    have room : objects.length ≤ (queue.discard (objects.length - queue.free)).free := by
      rw [Fifo.free, Fifo.discard_items enough, List.length_drop, Fifo.free]
      omega
    refine ⟨pushed.1.trans ?_, ?_⟩
    · rw [decide_eq_true room, decide_eq_true fits]
    · have same : (queue.discard (objects.length - queue.free)).push objects =
          queue.force objects := by
        refine Fifo.ext ?_
        rw [Fifo.push_items room, Fifo.discard_items enough, Fifo.force_items fits]
      exact same ▸ pushed.2
  · rw [not_le] at fits
    have beyond : ¬ objects.length - queue.free ≤ queue.items.length := by
      rw [Fifo.free]
      omega
    have kept : after = buffer := by
      rw [advanced, ByteBuffer.advance,
        if_pos (not_le.mp ((holds.present_iff _).not.mpr beyond))]
    have more : ¬ objects.length ≤ queue.free := by
      rw [Fifo.free]
      omega
    rw [kept]
    obtain ⟨refused, same⟩ := @pushMany size width capacity buffer queue holds objects
      fun few => absurd ((holds.room_iff objects.length).mp few) more
    rw [Fifo.push_of_many (not_le.mp more)] at same
    rw [Fifo.force_of_many fits]
    exact ⟨refused.trans ((decide_eq_false more).trans (decide_eq_false (not_le.mpr fits)).symm),
      same⟩

theorem pushRoom {objects : List (Object width)} (room : objects.length * width ≤ buffer.space)
    (straight : objects.length * width < size → buffer.Straight
      (objects.length * width - buffer.space) (objects.length * width)) :
    (buffer.pushMany objects).2 = decide (objects.length ≤ capacity) ∧
      Holds (buffer.pushMany objects).1 (queue.force objects) := by
  have few := (holds.room_iff objects.length).mp room
  have fits : objects.length ≤ capacity := le_trans few (Nat.sub_le _ _)
  have sums := straight ((holds.fits_iff objects.length).mpr fits)
  rw [Nat.sub_eq_zero_of_le room] at sums
  obtain ⟨accepted, pushed⟩ := @pushMany size width capacity buffer queue holds objects fun _ => sums
  rw [Fifo.force_of_room few]
  exact ⟨accepted.trans ((decide_eq_true few).trans (decide_eq_true fits).symm), pushed⟩

/-- A forced push of an array makes the room that is missing. -/
theorem pushForceMany {objects : List (Object width)}
    (fits : buffer.ObjectFits (.pushForceMany objects)) :
    (buffer.pushForceMany objects).2 = decide (objects.length ≤ capacity) ∧
      Holds (buffer.pushForceMany objects).1 (queue.force objects) := by
  obtain ⟨amount, straight⟩ := fits
  rw [ByteBuffer.pushForceMany, Nat.mul_comm width objects.length]
  split
  · rename_i short
    refine holds.pushForced ?_ straight
    obtain ⟨below, kind⟩ := amount.resolve_left (not_le_of_gt short)
    congr 2
    generalize objects.length = count at short below ⊢
    rcases kind with single | full
    · rw [single, Nat.mul_one] at short below ⊢
      rw [Nat.one_mul, Nat.mod_mod, Nat.sub_add_comm (le_of_lt short), Nat.add_mod_right,
        Nat.mod_eq_of_lt (by omega)]
    · have few : count < 2 ^ 32 := lt_of_le_of_lt (Nat.le_mul_of_pos_right _ holds.object) below
      rw [full, Nat.sub_zero, Nat.sub_zero, Nat.add_mod_right, Nat.mod_eq_of_lt few,
        Nat.mul_comm width, Nat.mod_eq_of_lt below]
  · rename_i room
    exact holds.pushRoom (not_lt.mp room) straight

theorem pushForce {object : Object width} (fits : buffer.ObjectFits (.pushForce object)) :
    (buffer.pushForce object).2 = decide (1 ≤ capacity) ∧
      Holds (buffer.pushForce object).1 (queue.force [object]) := by
  have one : [object].length * width = width := Nat.one_mul width
  have straight : [object].length * width < size → buffer.Straight
      ([object].length * width - buffer.space) ([object].length * width) := by
    rw [one]
    exact fits
  rw [ByteBuffer.pushForce]
  split
  · rename_i short
    have full : buffer.space = 0 := by
      have none : queue.free = 0 := by
        have few := (holds.room_iff 1).not.mp (by rw [Nat.one_mul]; exact not_le_of_gt short)
        omega
      rw [holds.space, none, Nat.zero_mul]
    rw [push_eq]
    exact holds.pushForced (by rw [one, full, Nat.sub_zero]) straight
  · rename_i room
    rw [push_eq]
    exact holds.pushRoom (by rw [one]; exact not_lt.mp room) straight

end Holds

theorem Holds.call (holds : Holds buffer queue) {call : ObjectCall width}
    (fits : buffer.ObjectFits call) :
    AllowsObject queue call (buffer.objectCall call).2 (serve queue call).2 ∧
      Holds (buffer.objectCall call).1 (serve queue call).2 := by
  have one := Nat.one_mul width
  cases call with
  | push object =>
    obtain ⟨accepted, pushed⟩ := @Holds.pushMany size width capacity buffer queue holds [object] (by
      rw [List.length_singleton, one]
      exact fits)
    rw [← Holds.push_eq] at accepted pushed
    exact ⟨congrArg (fun ok => (Answer.flag ok, _)) accepted.symm, pushed⟩
  | pushMany objects =>
    obtain ⟨accepted, pushed⟩ := holds.pushMany fits
    exact ⟨congrArg (fun ok => (Answer.flag ok, _)) accepted.symm, pushed⟩
  | popOff =>
    obtain ⟨present, advanced⟩ := holds.advance 1 (by rw [one]; exact fits)
    rw [one] at present advanced
    exact ⟨congrArg (fun ok => (Answer.flag ok, _)) present.symm, advanced⟩
  | pop =>
    obtain ⟨popped, left⟩ := holds.pop fits
    refine ⟨congrArg (fun answer => (answer, _)) ?_, left⟩
    exact congrArg (fun got : Bool × List UInt8 => Answer.object got.1 got.2) popped.symm
  | pushForce object =>
    obtain ⟨accepted, pushed⟩ := holds.pushForce fits
    exact ⟨congrArg (fun ok => (Answer.flag ok, _)) accepted.symm, pushed⟩
  | pushForceMany objects =>
    obtain ⟨accepted, pushed⟩ := holds.pushForceMany fits
    exact ⟨congrArg (fun ok => (Answer.flag ok, _)) accepted.symm, pushed⟩
  | peek =>
    refine ⟨congrArg (fun answer => (answer, _)) ?_, holds⟩
    exact congrArg₂ Answer.object (decide_eq_decide.mpr holds.peeked.symm) holds.peekbytes.symm
  | update object =>
    obtain ⟨present, updated⟩ := holds.updateObject object
    exact ⟨congrArg (fun ok => (Answer.flag ok, _)) present.symm, updated⟩
  | available =>
    refine ⟨congrArg (fun count => (Answer.count count, _)) ?_, holds⟩
    rw [holds.available, Nat.mul_div_cancel _ holds.object]
  | space =>
    refine ⟨congrArg (fun count => (Answer.count count, _)) ?_, holds⟩
    rw [holds.space, Nat.mul_div_cancel _ holds.object]
  | empty =>
    refine ⟨congrArg (fun ok => (Answer.flag ok, _)) ?_, holds⟩
    rw [buffer.empty_eq, holds.bytes, Bool.eq_iff_iff, List.isEmpty_iff_length_eq_zero,
      List.isEmpty_iff_length_eq_zero, objectBytes_length, Nat.mul_eq_zero]
    exact ⟨Or.inl, fun none => none.resolve_right (Nat.ne_of_gt holds.object)⟩
  | clear => exact ⟨rfl, holds.goesOn (ringItems_empty _ _ _)⟩

/-- The buffers serve the bounded queues: the byte buffer in every run whose sums stay below 2³², and
an object buffer whose bytes fit in 32 bits in every run in which, besides, every forced push of
an array has the room, or objects of one byte, or comes to a full queue. -/
theorem buffers_serve (size capacity width : ℕ) (positive : 0 < size)
    (objectPositive : 0 < objectSize capacity width) (calls : List Call)
    (objectCalls : List (ObjectCall width)) :
    (Along (fun buffer call => (ByteBuffer.call buffer call).1) (fun _ => True) ByteBuffer.Fits
        (ByteBuffer.new size positive) calls →
      ∃ final, Serves Allows (Fifo.empty : Fifo UInt8 (size - 1))
        (calls.zip (answers ByteBuffer.call (ByteBuffer.new size positive) calls)) final) ∧
    (0 < width → capacity * width + 1 < 2 ^ 32 →
      Along (fun buffer call => (ByteBuffer.objectCall buffer call).1) (fun _ => True)
        ByteBuffer.ObjectFits (ByteBuffer.new (objectSize capacity width) objectPositive) objectCalls →
      ∃ final, Serves AllowsObject (Fifo.empty : Fifo (Object width) capacity)
        (objectCalls.zip (answers ByteBuffer.objectCall
          (ByteBuffer.new (objectSize capacity width) objectPositive) objectCalls)) final) := by
  constructor
  · exact ByteBuffer.bytes_serve
  · intro object small along
    have whole : objectSize capacity width = capacity * width + 1 := Nat.mod_eq_of_lt small
    have start : Holds (ByteBuffer.new (objectSize capacity width) objectPositive)
        (Fifo.empty : Fifo (Object width) capacity) :=
      ⟨whole, whole.symm ▸ small, object, ringItems_empty _ _ _⟩
    obtain ⟨final, served, -⟩ := serves_of_simulates Holds
      (fun buffer queue call holds fits => ⟨(serve queue call).2, holds.call fits⟩) start along
    exact ⟨final, served⟩

/-- A write that is cut off, a read, and a write across the end of four bytes of memory. -/
def acrossTheEnd : List Call := [.write [1, 2, 3, 4], .read 2, .write [5], .peekiovec 3]

/-- Two objects fill a queue, and a forced push of two more replaces them. -/
def replacing : List (ObjectCall 2) :=
  [.pushMany [⟨[1, 2], rfl⟩, ⟨[3, 4], rfl⟩], .pushForceMany [⟨[5, 6], rfl⟩, ⟨[7, 8], rfl⟩], .pop]

theorem buffers_serve_small :
    (∃ final, Serves Allows (Fifo.empty : Fifo UInt8 3)
      (acrossTheEnd.zip (answers ByteBuffer.call (ByteBuffer.new 4 (by decide)) acrossTheEnd))
      final) ∧
    ∃ final, Serves AllowsObject (Fifo.empty : Fifo (Object 2) 2)
      (replacing.zip (answers ByteBuffer.objectCall
        (ByteBuffer.new (objectSize 2 2) (by decide)) replacing)) final := by
  have both := buffers_serve 4 2 2 (by decide) (by decide) acrossTheEnd replacing
  refine ⟨both.1 (along_of_always (ByteBuffer.fits_of_small (by decide)) _ _),
    both.2 (by decide) (by decide) ?_⟩
  refine ⟨trivial, ?_, trivial, ?_, trivial, ?_, trivial⟩
  all_goals simp only [ByteBuffer.ObjectFits]
  all_goals decide +kernel

/-- Two objects of two bytes are in a queue of four, and three more are pushed with force. -/
def partlyFree : List (ObjectCall 2) :=
  [.pushMany [⟨[1, 2], rfl⟩, ⟨[3, 4], rfl⟩],
    .pushForceMany [⟨[5, 6], rfl⟩, ⟨[7, 8], rfl⟩, ⟨[9, 10], rfl⟩]]

/-- The forced push fails although the queue of four objects can hold the three. -/
theorem not_serves_partlyFree :
    answers ByteBuffer.objectCall (ByteBuffer.new (objectSize 4 2) (by decide)) partlyFree =
        [.flag true, .flag false] ∧
      ¬ ∃ final, Serves AllowsObject (Fifo.empty : Fifo (Object 2) 4)
        (partlyFree.zip (answers ByteBuffer.objectCall
          (ByteBuffer.new (objectSize 4 2) (by decide)) partlyFree)) final := by
  have got : answers ByteBuffer.objectCall (ByteBuffer.new (objectSize 4 2) (by decide))
      partlyFree = [.flag true, .flag false] := by
    decide +kernel
  refine ⟨got, ?_⟩
  rw [got]
  rintro ⟨final, next, -, last, forced, -⟩
  have answer : Answer.flag (decide (3 ≤ 4)) = .flag false := congrArg Prod.fst forced
  exact absurd (Answer.flag.inj answer) (by decide)

end Urus.RingBuffer
