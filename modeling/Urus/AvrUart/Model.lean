/-
This file models the transmit side of the AVR serial driver. The writer puts bytes into a
ring buffer at its head, the interrupt takes them out at its tail and hands them to the data
register. The two positions are equal when the buffer is empty.

The interrupt may come between any two steps of the writer, and the calls of the writer are
cut into the steps between which it matters: each reads or writes the positions once.
-/

import Urus.Lib.Bytes
import Urus.Lib.Ring

namespace Urus.AvrUart

open Image

/-! ### The buffer -/

/-- A port whose buffer has a mask of 1 to 8 bits. -/
structure Port where
  shift : ℕ
  low : 1 ≤ shift
  high : shift ≤ 8

/-- `_txBuffer->mask`. -/
def Port.mask (port : Port) : ℕ := 2 ^ port.shift - 1

/-- `_txBuffer->mask + 1`. -/
def Port.size (port : Port) : ℕ := 2 ^ port.shift

/-- `struct Buffer` without the mask. -/
structure Buffer where
  head : ℕ
  tail : ℕ
  bytes : Image

/-- `(head - tail) & mask`. A negative difference is taken modulo the size. -/
def Buffer.used (port : Port) (buffer : Buffer) : ℕ :=
  (buffer.head + port.size - buffer.tail) &&& port.mask

/-- `txspace`. -/
def Buffer.txspace (port : Port) (buffer : Buffer) : ℕ := port.mask + 1 - buffer.used port

/-! ### The writer -/

/-- The writing thread: outside the calls; in `write(c)` behind its check, or with its byte stored;
or in `write(buffer, size)` behind the limit on its size, with some of its bytes in front of the
head, some just copied behind it and some to be copied; or about to enable the interrupt and to
return the number of bytes. -/
inductive Writer
  | idle
  | byteRoom (c : UInt8) (i : ℕ)
  | byteStored (c : UInt8) (i : ℕ)
  | bulkSized (data : List UInt8)
  | partCopied (done part rest : List UInt8)
  | partAdvanced (done rest : List UInt8)
  | returning (data : List UInt8)

/-- The port: its buffer, whether the data register interrupt is enabled, the writer, the bytes handed
to the data register, the bytes counted by the return values, and whether every bulk write has
accepted as many bytes as its bytes one by one. -/
structure System where
  buffer : Buffer
  interruptOn : Bool
  writer : Writer
  sent : List UInt8
  accepted : List UInt8
  pathsAgree : Bool

/-- A step: the start of a call, the next step of the call, or the interrupt. -/
inductive Step
  | writeByte (c : UInt8)
  | writeBulk (data : List UInt8)
  | proceed
  | transmit

/-- The position behind the head. -/
def Buffer.next (port : Port) (buffer : Buffer) : ℕ := (buffer.head + 1) &&& port.mask

/-- A byte stored at the head. -/
def Buffer.store (buffer : Buffer) (c : UInt8) : Buffer :=
  { buffer with bytes := Function.update buffer.bytes buffer.head c }

/-- The head behind some bytes. -/
def Buffer.advance (port : Port) (buffer : Buffer) (count : ℕ) : Buffer :=
  { buffer with head := (buffer.head + count) &&& port.mask }

/-- The number of bytes that `write(c)` accepts one after the other, up to the first that it drops. -/
def acceptedBytewise (port : Port) (buffer : Buffer) : List UInt8 → ℕ
  | [] => 0
  | c :: rest =>
    if buffer.next port = buffer.tail then 0
    else acceptedBytewise port { buffer.store c with head := buffer.next port } rest + 1

/-- The number of bytes that `write(buffer, size)` accepts. -/
def acceptedBulk (port : Port) (buffer : Buffer) (data : List UInt8) : ℕ :=
  if data.length > buffer.txspace port then buffer.txspace port else data.length

/-- The first `memcpy` of `write(buffer, size)`, all of the bytes or those up to the end of the
buffer. -/
def Buffer.copyFirst (port : Port) (buffer : Buffer) (data : List UInt8) : Buffer × Writer :=
  let n := port.mask + 1 - buffer.head
  let n := if n > data.length then data.length else n
  if buffer.tail > buffer.head then
    ({ buffer with bytes := put buffer.bytes buffer.head data }, .partCopied [] data [])
  else
    ({ buffer with bytes := put buffer.bytes buffer.head (data.take n) },
      .partCopied [] (data.take n) (data.drop n))

/-- The next step of a call. -/
def System.proceed (port : Port) (system : System) : System :=
  match system.writer with
  | .idle => system
  | .byteRoom c i =>
    if i = system.buffer.tail then system
    else { system with buffer := system.buffer.store c, writer := .byteStored c i }
  | .byteStored c i =>
    { system with buffer := { system.buffer with head := i }, writer := .returning [c] }
  | .bulkSized data =>
    let (buffer, writer) := system.buffer.copyFirst port data
    { system with buffer := buffer, writer := writer }
  | .partCopied done part rest =>
    { system with
      buffer := system.buffer.advance port part.length
      writer := .partAdvanced (done ++ part) rest }
  | .partAdvanced done rest =>
    if rest.length > 0 then
      { system with
        buffer := { system.buffer with bytes := put system.buffer.bytes 0 rest }
        writer := .partCopied done rest [] }
    else { system with writer := .returning done }
  | .returning data =>
    { system with
      interruptOn := true
      writer := .idle
      accepted := system.accepted ++ data }

/-- The data register interrupt. -/
def System.transmit (port : Port) (system : System) : System :=
  if system.buffer.tail ≠ system.buffer.head then
    { system with
      buffer := { system.buffer with tail := (system.buffer.tail + 1) &&& port.mask }
      sent := system.sent ++ [system.buffer.bytes system.buffer.tail] }
  else { system with interruptOn := false }

/-- One step, of an open port in non-blocking mode. A step that the writer has not come to and an
interrupt that is not enabled do nothing. -/
def System.step (port : Port) (system : System) : Step → System
  | .writeByte c =>
    match system.writer with
    | .idle =>
      if system.buffer.next port = system.buffer.tail then system
      else { system with writer := .byteRoom c (system.buffer.next port) }
    | _ => system
  | .writeBulk data =>
    match system.writer with
    | .idle =>
      if system.buffer.txspace port = 0 then system
      else
        { system with
          writer := .bulkSized (data.take (acceptedBulk port system.buffer data))
          pathsAgree := system.pathsAgree &&
            acceptedBulk port system.buffer data = acceptedBytewise port system.buffer data }
    | _ => system
  | .proceed => system.proceed port
  | .transmit => if system.interruptOn then system.transmit port else system

/-- The port behind `begin`, with any bytes in the buffer. -/
def System.opened (bytes : Image) : System := ⟨⟨0, 0, bytes⟩, false, .idle, [], [], true⟩

end Urus.AvrUart
