import KaworuOS.Pmm

/-!
# Ring buffers (`lib/ds/ringbuffer.c`)

The elements lie in the memory of the kernel, from the address `buffer` on. `head` is where the next
element goes and `tail` where the oldest one is; one slot stays unused.
-/

namespace KaworuOS
open Lib

/-- `RingBuffer`. -/
structure RingBuffer where
  buffer : Nat
  capacity : Nat
  elementSize : Nat
  head : Nat
  tail : Nat
  deriving DecidableEq, Repr

/-- `ringbuffer_init`. -/
def ringbufferInit (elementSize buffer bufferSize : Nat) : RingBuffer where
  buffer := buffer
  capacity := bufferSize
  elementSize := elementSize
  head := 0
  tail := 0

namespace RingBuffer

/-- `&rb->buffer[index * rb->element_size]`. -/
def slot (rb : RingBuffer) (index : Nat) : Nat := wadd rb.buffer (wmul index rb.elementSize)

/-- `(index + 1) % rb->capacity`. -/
def after (rb : RingBuffer) (index : Nat) : Nat := wadd index 1 % rb.capacity

end RingBuffer

/-- `ringbuffer_push`, with the buffer as it is afterwards. -/
def ringbufferPush (rb : RingBuffer) (data : Nat) : Kernel (Errno × RingBuffer) :=
  let next := rb.after rb.head
  if next = rb.tail then return (.ENOMEM, rb)
  else do
    memcpy (rb.slot rb.head) data rb.elementSize
    return (.EOK, { rb with head := next })

/-- `ringbuffer_pop`, with the buffer as it is afterwards. -/
def ringbufferPop (rb : RingBuffer) (data : Nat) : Kernel (Errno × RingBuffer) :=
  if rb.head = rb.tail then return (.ENOMEM, rb)
  else do
    memcpy data (rb.slot rb.tail) rb.elementSize
    return (.EOK, { rb with tail := rb.after rb.tail })

/-- `ringbuffer_full`. -/
def ringbufferFull (rb : RingBuffer) : Bool := decide (rb.after rb.head = rb.tail)

/-- `ringbuffer_empty`. -/
def ringbufferEmpty (rb : RingBuffer) : Bool := decide (rb.head = rb.tail)

end KaworuOS
