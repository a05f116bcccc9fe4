/-
This file models the byte ring buffer and the object buffer on top of it. The buffer is read at
its head and written at its tail, and is empty when the two are equal.

Both positions are 32 bit numbers, and a position and a count are added modulo 2³² before the
remainder by the size is taken. The types hold what the code keeps: both positions are inside
the buffer, which therefore has at least one byte.
-/

import Urus.Lib.Bytes

namespace Urus.RingBuffer

open Image

/-! ### The byte buffer -/

/-- `ByteBuffer` with `size` allocated bytes. -/
structure ByteBuffer (size : ℕ) where
  head : ℕ
  tail : ℕ
  buf : Image
  headInside : head < size
  tailInside : tail < size

/-- `IoVec`, with the position in the buffer for the pointer. -/
structure IoVec where
  data : ℕ
  len : ℕ

namespace ByteBuffer

variable {size : ℕ}

/-- The constructor. -/
def new (size : ℕ) (positive : 0 < size) : ByteBuffer size := ⟨0, 0, fun _ => 0, positive, positive⟩

/-- `available`. -/
def available (buffer : ByteBuffer size) : ℕ :=
  if buffer.head > buffer.tail then size - buffer.head + buffer.tail else buffer.tail - buffer.head

/-- `clear`. -/
def clear (buffer : ByteBuffer size) : ByteBuffer size :=
  let positive := Nat.zero_lt_of_lt buffer.headInside
  ⟨0, 0, buffer.buf, positive, positive⟩

/-- `space`. What the sum has above 2³² is taken away again by the tail. -/
def space (buffer : ByteBuffer size) : ℕ :=
  if size = 0 then 0
  else (if buffer.head ≤ buffer.tail then size else 0) + buffer.head - buffer.tail - 1

/-- `empty`. -/
def empty (buffer : ByteBuffer size) : Bool := buffer.head = buffer.tail

/-- A position behind the given one, `(position + n) % size`. -/
def moved (size position n : ℕ) : ℕ := (position + n) % 2 ^ 32 % size

/-- `advance`. -/
def advance (buffer : ByteBuffer size) (n : ℕ) : ByteBuffer size × Bool :=
  if n > buffer.available then (buffer, false)
  else
    ({ buffer with
        head := moved size buffer.head n
        headInside := Nat.mod_lt _ (Nat.zero_lt_of_lt buffer.headInside) }, true)

/-- `reserve`. -/
def reserve (buffer : ByteBuffer size) (len : ℕ) : List IoVec :=
  let len := if len > buffer.space then buffer.space else len
  if len = 0 then []
  else
    let n := size - buffer.tail
    if len ≤ n then [⟨buffer.tail, len⟩] else [⟨buffer.tail, n⟩, ⟨0, len - n⟩]

/-- `commit`. -/
def commit (buffer : ByteBuffer size) (len : ℕ) : ByteBuffer size × Bool :=
  if len > buffer.space then (buffer, false)
  else
    ({ buffer with
        tail := moved size buffer.tail len
        tailInside := Nat.mod_lt _ (Nat.zero_lt_of_lt buffer.tailInside) }, true)

/-- The loop that copies data to the reserved parts, behind `ret` bytes. -/
def copyIn (data : List UInt8) : List IoVec → Image → ℕ → Image × ℕ
  | [], buf, ret => (buf, ret)
  | vec :: rest, buf, ret =>
    copyIn data rest (put buf vec.data ((data.drop ret).take vec.len)) (ret + vec.len)

/-- `write`. -/
def write (buffer : ByteBuffer size) (data : List UInt8) : ByteBuffer size × ℕ :=
  let (buf, ret) := copyIn data (buffer.reserve data.length) buffer.buf 0
  (({ buffer with buf := buf }.commit ret).1, ret)

/-- `reserve`, some bytes stored in the reserved parts by the caller, and their `commit`. -/
def reserveCommit (buffer : ByteBuffer size) (len : ℕ) (fill : List UInt8) :
    ByteBuffer size × ℕ × Bool :=
  let vec := buffer.reserve len
  let total := (vec.map IoVec.len).sum
  let stored := fill.take total
  let (after, ok) := { buffer with buf := (copyIn stored vec buffer.buf 0).1 }.commit stored.length
  (after, total, ok)

/-- `update`. -/
def update (buffer : ByteBuffer size) (data : List UInt8) : ByteBuffer size × Bool :=
  if data.length > buffer.available then (buffer, false)
  else
    let n := size - buffer.head
    let n := if n > data.length then data.length else n
    let buf := put buffer.buf buffer.head (data.take n)
    ({ buffer with buf := if data.length > n then put buf 0 (data.drop n) else buf }, true)

/-- `readptr`: where the contiguous bytes are, if there are any, and their number. -/
def readptr (buffer : ByteBuffer size) : Option ℕ × ℕ :=
  let availableBytes :=
    if buffer.head > buffer.tail then size - buffer.head else buffer.tail - buffer.head
  (if availableBytes = 0 then none else some buffer.head, availableBytes)

/-- `peekiovec`. With bytes to read, `readptr` gives the head. -/
def peekiovec (buffer : ByteBuffer size) (len : ℕ) : List IoVec :=
  let len := if len > buffer.available then buffer.available else len
  if len = 0 then []
  else
    let (b, n) := buffer.readptr
    let n := if n > len then len else n
    ⟨b.getD 0, n⟩ :: if len ≤ n then [] else [⟨0, len - n⟩]

/-- The bytes of the parts of the buffer. -/
def copyOut (buf : Image) (vecs : List IoVec) : List UInt8 :=
  vecs.flatMap fun vec => slice buf vec.data vec.len

/-- `peekbytes`. -/
def peekbytes (buffer : ByteBuffer size) (len : ℕ) : List UInt8 :=
  copyOut buffer.buf (buffer.peekiovec len)

/-- `read`. -/
def read (buffer : ByteBuffer size) (len : ℕ) : ByteBuffer size × List UInt8 :=
  ((buffer.advance (buffer.peekbytes len).length).1, buffer.peekbytes len)

/-- `peek`. -/
def peek (buffer : ByteBuffer size) (ofs : ℕ) : ℤ :=
  if ofs ≥ buffer.available then -1 else (buffer.buf (moved size buffer.head ofs)).toNat

/-- `read_byte`, with or without a place for the byte, and the byte put there. -/
def readByte (buffer : ByteBuffer size) (given : Bool) : ByteBuffer size × Bool × Option UInt8 :=
  if given = false then (buffer, false, none)
  else if buffer.peek 0 < 0 then (buffer, false, none)
  else
    let (after, ok) := buffer.advance 1
    (after, ok, some (UInt8.ofNat (buffer.peek 0).toNat))

end ByteBuffer

/-! ### Calls of the byte buffer -/

/-- A call. The data of `write` and `update` has as many bytes as their `len` says. -/
inductive Call
  | write (data : List UInt8)
  | read (len : ℕ)
  | readByte (given : Bool)
  | peek (ofs : ℕ)
  | peekbytes (len : ℕ)
  | peekiovec (len : ℕ)
  | readptr
  | update (data : List UInt8)
  | advance (n : ℕ)
  | reserveCommit (len : ℕ) (fill : List UInt8)
  | clear
  | available
  | space
  | empty

/-- What the caller gets. The parts that pointers lead to are given with their bytes. -/
inductive Answer
  | done
  | count (value : ℕ)
  | flag (ok : Bool)
  | value (value : ℤ)
  | bytes (data : List UInt8)
  | byte (ok : Bool) (data : Option UInt8)
  | parts (data : List (List UInt8))
  | reserved (total : ℕ) (ok : Bool)
  | object (ok : Bool) (data : List UInt8)
  deriving DecidableEq

variable {size : ℕ}

/-- The buffer behind a call, and the answer. -/
def ByteBuffer.call (buffer : ByteBuffer size) : Call → ByteBuffer size × Answer
  | .write data => ((buffer.write data).1, .count (buffer.write data).2)
  | .read len => ((buffer.read len).1, .bytes (buffer.read len).2)
  | .readByte given =>
    ((buffer.readByte given).1, .byte (buffer.readByte given).2.1 (buffer.readByte given).2.2)
  | .peek ofs => (buffer, .value (buffer.peek ofs))
  | .peekbytes len => (buffer, .bytes (buffer.peekbytes len))
  | .peekiovec len =>
    (buffer, .parts ((buffer.peekiovec len).map fun vec => slice buffer.buf vec.data vec.len))
  | .readptr =>
    (buffer, .parts (buffer.readptr.1.toList.map fun b => slice buffer.buf b buffer.readptr.2))
  | .update data => ((buffer.update data).1, .flag (buffer.update data).2)
  | .advance n => ((buffer.advance n).1, .flag (buffer.advance n).2)
  | .reserveCommit len fill =>
    ((buffer.reserveCommit len fill).1,
      .reserved (buffer.reserveCommit len fill).2.1 (buffer.reserveCommit len fill).2.2)
  | .clear => (buffer.clear, .done)
  | .available => (buffer, .count buffer.available)
  | .space => (buffer, .count buffer.space)
  | .empty => (buffer, .flag buffer.empty)

/-! ### The object buffer -/

/-- An object of `width` bytes, `sizeof(T)`. -/
abbrev Object (width : ℕ) := List.Vector UInt8 width

/-- The bytes of an array of objects. -/
def objectBytes {width : ℕ} (objects : List (Object width)) : List UInt8 :=
  (objects.map List.Vector.toList).flatten

/-- The size of the byte buffer of an `ObjectBuffer` of `_size` objects. -/
def objectSize (_size width : ℕ) : ℕ := (_size * width + 1) % 2 ^ 32

namespace ByteBuffer

variable {width : ℕ}

/-- `ObjectBuffer::push` of one object. -/
def push (buffer : ByteBuffer size) (object : Object width) : ByteBuffer size × Bool :=
  if buffer.space < width then (buffer, false)
  else ((buffer.write object.toList).1, (buffer.write object.toList).2 = width)

/-- `ObjectBuffer::push` of an array. The array is in the memory, so that its number of bytes is a
`size_t`. -/
def pushMany (buffer : ByteBuffer size) (objects : List (Object width)) : ByteBuffer size × Bool :=
  if buffer.space < objects.length * width then (buffer, false)
  else
    ((buffer.write (objectBytes objects)).1,
      (buffer.write (objectBytes objects)).2 = objects.length * width)

/-- `ObjectBuffer::pop` without an object. -/
def popOff (width : ℕ) (buffer : ByteBuffer size) : ByteBuffer size × Bool := buffer.advance width

/-- `ObjectBuffer::pop`, with the bytes stored to the object. -/
def pop (width : ℕ) (buffer : ByteBuffer size) : ByteBuffer size × Bool × List UInt8 :=
  if buffer.available < width then (buffer, false, [])
  else
    ((buffer.read width).1, (buffer.read width).2.length = width, (buffer.read width).2)

/-- `ObjectBuffer::push_force` of one object. -/
def pushForce (buffer : ByteBuffer size) (object : Object width) : ByteBuffer size × Bool :=
  if buffer.space < width then (buffer.advance width).1.push object else buffer.push object

/-- `ObjectBuffer::push_force` of an array. The number of bytes to advance by is a 32 bit number, as is
the difference of the number of objects and the free bytes. -/
def pushForceMany (buffer : ByteBuffer size) (objects : List (Object width)) :
    ByteBuffer size × Bool :=
  if buffer.space < width * objects.length then
    (buffer.advance
      (width * ((objects.length + 2 ^ 32 - buffer.space) % 2 ^ 32) % 2 ^ 32)).1.pushMany objects
  else buffer.pushMany objects

/-- `ObjectBuffer::peek`, with the bytes stored to the object. -/
def peekObject (width : ℕ) (buffer : ByteBuffer size) : Bool × List UInt8 :=
  ((buffer.peekbytes width).length = width, buffer.peekbytes width)

/-- `ObjectBuffer::update`. -/
def updateObject (buffer : ByteBuffer size) (object : Object width) : ByteBuffer size × Bool :=
  buffer.update object.toList

end ByteBuffer

/-- A call of an object buffer. -/
inductive ObjectCall (width : ℕ)
  | push (object : Object width)
  | pushMany (objects : List (Object width))
  | popOff
  | pop
  | pushForce (object : Object width)
  | pushForceMany (objects : List (Object width))
  | peek
  | update (object : Object width)
  | available
  | space
  | empty
  | clear

/-- The buffer behind a call of an object buffer, and the answer. -/
def ByteBuffer.objectCall {width : ℕ} (buffer : ByteBuffer size) :
    ObjectCall width → ByteBuffer size × Answer
  | .push object => ((buffer.push object).1, .flag (buffer.push object).2)
  | .pushMany objects => ((buffer.pushMany objects).1, .flag (buffer.pushMany objects).2)
  | .popOff => ((buffer.popOff width).1, .flag (buffer.popOff width).2)
  | .pop => ((buffer.pop width).1, .object (buffer.pop width).2.1 (buffer.pop width).2.2)
  | .pushForce object => ((buffer.pushForce object).1, .flag (buffer.pushForce object).2)
  | .pushForceMany objects =>
    ((buffer.pushForceMany objects).1, .flag (buffer.pushForceMany objects).2)
  | .peek => (buffer, .object (buffer.peekObject width).1 (buffer.peekObject width).2)
  | .update object => ((buffer.updateObject object).1, .flag (buffer.updateObject object).2)
  | .available => (buffer, .count (buffer.available / width))
  | .space => (buffer, .count (buffer.space / width))
  | .empty => (buffer, .flag buffer.empty)
  | .clear => (buffer.clear, .done)

end Urus.RingBuffer
