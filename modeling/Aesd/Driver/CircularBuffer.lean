import Aesd.Driver.Kernel
import Aesd.Lib.RingBuffer

/-!
# The circular buffer

`aesd-circular-buffer.c`. The offsets are below `AESDCHAR_MAX_WRITE_OPERATIONS_SUPPORTED`, which
their type says. The `full` field of the source is not used by it and left out; the function-level
static `hasBufferBeenFilled` is passed along.
-/

namespace Aesd

open CInt

/-- `AESDCHAR_MAX_WRITE_OPERATIONS_SUPPORTED`. -/
abbrev maxWriteOperationsSupported : ℕ := 10

instance : NeZero maxWriteOperationsSupported := ⟨by decide⟩

/-- `struct aesd_buffer_entry`. -/
structure BufferEntry where
  buffptr : Pointer
  size : ℤ
  deriving DecidableEq

/-- What `memset` to zero leaves in an entry. -/
def BufferEntry.zero : BufferEntry := ⟨none, 0⟩

/-- `struct aesd_circular_buffer`. -/
structure CircularBuffer where
  entry : Fin maxWriteOperationsSupported → BufferEntry
  inOffs : Fin maxWriteOperationsSupported
  outOffs : Fin maxWriteOperationsSupported

/-- `aesd_circular_buffer_init`. -/
def CircularBuffer.init : CircularBuffer := ⟨fun _ => .zero, 0, 0⟩

/-- An offset incremented, and set back to zero when it has reached the end. -/
def nextOffs (offs : Fin maxWriteOperationsSupported) : Fin maxWriteOperationsSupported :=
  if h : offs.val + 1 = maxWriteOperationsSupported then 0 else ⟨offs.val + 1, by omega⟩

/-- `aesd_circular_buffer_add_entry`: the pointer it returns, the static flag and the buffer. -/
def CircularBuffer.addEntry (hasBufferBeenFilled : Bool) (buffer : CircularBuffer)
    (add : BufferEntry) : Pointer × Bool × CircularBuffer :=
  let retVal := (buffer.entry buffer.inOffs).buffptr
  let entry := Function.update buffer.entry buffer.inOffs add
  -- the oldest entry is given up if the buffer is full
  let outOffs :=
    if hasBufferBeenFilled ∧ buffer.outOffs = buffer.inOffs then nextOffs buffer.outOffs
    else buffer.outOffs
  -- set for good once the last slot has been written
  let filled :=
    if buffer.inOffs.val + 1 = maxWriteOperationsSupported then true else hasBufferBeenFilled
  (retVal, filled, { entry := entry, inOffs := nextOffs buffer.inOffs, outOffs := outOffs })

/-- The loop of `aesd_circular_buffer_find_entry_offset_for_fpos` over the entries that are left:
the values of `entryIndex`, `prevNumCharsInBuffer` and `numCharsInBuffer` behind it. The sums are
kept in an `int` and compared as a `size_t`. -/
def CircularBuffer.findLoop (buffer : CircularBuffer) (charOffset : ℤ) :
    ℕ → Fin maxWriteOperationsSupported → ℤ → ℤ → Fin maxWriteOperationsSupported × ℤ × ℤ
  | 0, entryIndex, prevNumCharsInBuffer, numCharsInBuffer =>
    (entryIndex, prevNumCharsInBuffer, numCharsInBuffer)
  | left + 1, entryIndex, _, numCharsInBuffer =>
    let prevNumCharsInBuffer := numCharsInBuffer
    let numCharsInBuffer := toI32 (numCharsInBuffer + (buffer.entry entryIndex).size)
    if toU64 numCharsInBuffer > charOffset then
      (entryIndex, prevNumCharsInBuffer, numCharsInBuffer)
    else
      buffer.findLoop charOffset left (nextOffs entryIndex) prevNumCharsInBuffer numCharsInBuffer

/-- `aesd_circular_buffer_find_entry_offset_for_fpos`: the index of the entry it points to and the
offset in it, or `NULL`. -/
def CircularBuffer.findEntryOffsetForFpos (buffer : CircularBuffer) (charOffset : ℤ) :
    Option (Fin maxWriteOperationsSupported × ℤ) :=
  let (entryIndex, prevNumCharsInBuffer, numCharsInBuffer) :=
    buffer.findLoop charOffset maxWriteOperationsSupported buffer.outOffs 0 0
  -- one is subtracted in an `int`, and the result compared as a `size_t`
  if toU64 (toI32 (numCharsInBuffer - 1)) < charOffset then none
  else some (entryIndex, toU64 (charOffset - prevNumCharsInBuffer))

/-- The loop of the seek command over the entries that are left: the bytes before entry number
`writeCmd`, kept in an `int`. -/
def CircularBuffer.seekLoop (buffer : CircularBuffer) (writeCmd : ℤ) :
    ℕ → Fin maxWriteOperationsSupported → ℤ → ℤ → ℤ
  | 0, _, _, fileoffset => fileoffset
  | left + 1, entryIndex, entriesProcessed, fileoffset =>
    if toU32 entriesProcessed = writeCmd then fileoffset
    else
      buffer.seekLoop writeCmd left (entryIndex + 1) (entriesProcessed + 1)
        (toI32 (fileoffset + (buffer.entry entryIndex).size))

/-! ### The buffer as a ring -/

/-- The buffer and the static flag together. -/
def CircularBuffer.ring (buffer : CircularBuffer) (hasBufferBeenFilled : Bool) :
    RingBuffer maxWriteOperationsSupported BufferEntry :=
  ⟨buffer.entry, buffer.inOffs, buffer.outOffs, hasBufferBeenFilled⟩

lemma nextOffs_eq (offs : Fin maxWriteOperationsSupported) : nextOffs offs = offs + 1 := by
  revert offs
  decide

lemma wraps_iff (offs : Fin maxWriteOperationsSupported) :
    offs + 1 = 0 ↔ offs.val + 1 = maxWriteOperationsSupported := by
  revert offs
  decide

/-- `aesd_circular_buffer_add_entry` pushes to the ring and returns the pointer of the entry that
was in the slot. -/
lemma CircularBuffer.addEntry_eq_push (filled : Bool) (buffer : CircularBuffer)
    (add : BufferEntry) :
    (buffer.addEntry filled add).1 = ((buffer.ring filled).push add).1.buffptr ∧
      (buffer.addEntry filled add).2.2.ring (buffer.addEntry filled add).2.1 =
        ((buffer.ring filled).push add).2 := by
  refine ⟨rfl, ?_⟩
  simp only [addEntry, ring, RingBuffer.push, nextOffs_eq, wraps_iff]
  congr 1
  split_ifs with h
  · simp [h]
  · simp [h]

end Aesd
