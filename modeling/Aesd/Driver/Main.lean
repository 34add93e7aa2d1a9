import Aesd.Driver.CircularBuffer

/-!
# The driver

`main.c`. The device's mutex is held during the whole of `aesd_write` and `aesd_read`, and while
`aesd_llseek` and `aesd_unlockedioctl` look at the buffer, so a call is one program.
The circular buffer behind `circBufferPtr` is a field of the device. `PDEBUG` is left out, and so
is `numUsers`, which nothing reads.
-/

namespace Aesd

open Effect CInt

/-- `TEMP_BUFFER_STARTING_SIZE`. -/
def tempBufferStartingSize : ℤ := 32

/-- `sizeof(struct aesd_circular_buffer)`. -/
def sizeofCircularBuffer : ℤ := 168

def ENOMEM : ℤ := 12

def EFAULT : ℤ := 14

def EINVAL : ℤ := 22

/-- `struct aesd_dev`, at first with every field zero. -/
structure AesdDev where
  tempBuffer : Pointer := none
  tempBufferIndex : ℤ := 0
  tempBufferSize : ℤ := 0
  circBufferPtr : Pointer := none
  circBuffer : CircularBuffer := .init
  onGoingWrite : Bool := false

/-- The global `aesd_device` and the static `hasBufferBeenFilled`. -/
structure Driver where
  dev : AesdDev := {}
  hasBufferBeenFilled : Bool := false

/-- `aesd_init_module`, with `aesd_setup_cdev`: what it returns and the driver it leaves. A failed
allocation is only reported, and `memset` then writes through `NULL`. -/
def aesdInitModule (driver : Driver) : Kernel (ℤ × Driver) := do
  let result ← kernel .allocChrdevRegion
  if result < 0 then
    return (result, driver)
  let circBufferPtr ← kernel (.kmalloc sizeofCircularBuffer)
  kernel (.memset circBufferPtr 0 sizeofCircularBuffer)
  let driver := { driver with dev := { circBufferPtr := circBufferPtr } }
  let result ← kernel .cdevAdd
  if result ≠ 0 then
    kernel .unregisterChrdevRegion
    kernel (.kfree circBufferPtr)
  return (result, driver)

/-- The loop of `aesd_cleanup_module` over the slots that are left. -/
def freeEntries : List (Fin maxWriteOperationsSupported) → CircularBuffer → Kernel CircularBuffer
  | [], buffer        => return buffer
  | i :: rest, buffer => do
    if (buffer.entry i).buffptr ≠ none then
      kernel (.kfree (buffer.entry i).buffptr)
      freeEntries rest { buffer with
        entry := Function.update buffer.entry i { buffer.entry i with buffptr := none } }
    else freeEntries rest buffer

/-- `aesd_cleanup_module`, for a module that has been loaded and so has a circular buffer: the
driver it leaves. -/
def aesdCleanupModule (driver : Driver) : Kernel Driver := do
  kernel .cdevDel
  let circBuffer ← freeEntries (List.finRange maxWriteOperationsSupported) driver.dev.circBuffer
  kernel (.kfree driver.dev.circBufferPtr)
  kernel .unregisterChrdevRegion
  return { driver with dev := { driver.dev with circBuffer := circBuffer } }

/-! ### aesd_write -/

/-- What a call of `aesd_write` returns and leaves; `oldEntryBufPtr` is the pointer it got from
`aesd_circular_buffer_add_entry`, if it called that. -/
structure WriteResult where
  retval : ℤ
  fPos : ℤ
  driver : Driver
  oldEntryBufPtr : Option Pointer

/-- Outside a message a first `tempBuffer` is allocated. The flag is `false` if that fails. -/
def startWrite (dev : AesdDev) : Kernel (Bool × AesdDev) := do
  if dev.onGoingWrite then
    return (true, dev)
  let tempBuffer ← kernel (.kmalloc tempBufferStartingSize)
  if tempBuffer = none then
    return (false, { dev with tempBuffer := none })
  return (true, { dev with
    tempBuffer := tempBuffer
    tempBufferSize := tempBufferStartingSize
    tempBufferIndex := 0
    onGoingWrite := true })

/-- `while (newBufferSize < neededBufferSize) newBufferSize *= 2;` for so many tests of its
condition, in `size_t`. -/
def doubleUntil : ℕ → ℤ → ℤ → Option ℤ
  | 0, _, _                                          => none
  | tests + 1, newBufferSize, neededBufferSize =>
    if newBufferSize < neededBufferSize then
      doubleUntil tests (toU64 (newBufferSize * 2)) neededBufferSize
    else some newBufferSize

/-- The temporary buffer made large enough for `count` more bytes; the flag is `false` if it could
not be. Doubled 64 times, a `size_t` is zero and stays so: a loop that long does not end. -/
def resizeTempBuffer (dev : AesdDev) (count : ℤ) : Kernel (Bool × AesdDev) := do
  let neededBufferSize := toU64 (dev.tempBufferIndex + count)
  match doubleUntil 65 (toU64 dev.tempBufferSize) neededBufferSize with
  | none               =>
    let never ← kernel .hang
    never.elim
  | some newBufferSize =>
    if toU64 dev.tempBufferSize < neededBufferSize then
      let expandedTempBuffer ← kernel (.krealloc dev.tempBuffer newBufferSize)
      -- `tempBufferSize` keeps its value
      if expandedTempBuffer = none then
        kernel (.kfree dev.tempBuffer)
        return (false, { dev with
          onGoingWrite := false
          tempBufferIndex := 0
          tempBuffer := none })
      return (true, { dev with
        tempBuffer := expandedTempBuffer
        tempBufferSize := toI32 newBufferSize })
    return (true, dev)

/-- The user's bytes copied behind those that are there; the flag is `false` if that fails. -/
def copyToTempBuffer (dev : AesdDev) (buf : List Byte) : Kernel (Bool × AesdDev) := do
  let rc ← kernel (.copyFromUser dev.tempBuffer dev.tempBufferIndex buf)
  -- the number of bytes that were not copied goes through an `int`
  if toI32 rc ≠ 0 then
    kernel (.kfree dev.tempBuffer)
    return (false, { dev with
      onGoingWrite := false
      tempBuffer := none
      tempBufferIndex := 0
      tempBufferSize := 0 })
  return (true, { dev with tempBufferIndex := toI32 (dev.tempBufferIndex + buf.length) })

/-- Whether the bytes collected so far are a complete message. -/
def messageComplete (dev : AesdDev) : Kernel Bool := do
  if dev.tempBufferIndex > 0 then
    let last ← kernel (.load dev.tempBuffer (dev.tempBufferIndex - 1))
    return last = newline
  return false

/-- `aesd_circular_buffer_add_entry` on `circBufferPtr`; nothing is added without a buffer. -/
def addCircEntry (driver : Driver) (newCircEntry : BufferEntry) :
    Pointer × Bool × CircularBuffer :=
  if driver.dev.circBufferPtr = none then
    (none, driver.hasBufferBeenFilled, driver.dev.circBuffer)
  else driver.dev.circBuffer.addEntry driver.hasBufferBeenFilled newCircEntry

/-- The entry added to the circular buffer, what was in its place freed, and the message ended. The
pointer is what `aesd_circular_buffer_add_entry` returned. -/
def addMessage (driver : Driver) (newCircEntry : BufferEntry) : Kernel (Driver × Pointer) := do
  let dev := driver.dev
  let (oldEntryBufPtr, filled, circBuffer) := addCircEntry driver newCircEntry
  if oldEntryBufPtr ≠ none then
    kernel (.kfree oldEntryBufPtr)
  kernel (.kfree dev.tempBuffer)
  let dev := { dev with
    circBuffer := circBuffer
    onGoingWrite := false
    tempBuffer := none
    tempBufferIndex := 0
    tempBufferSize := 0 }
  return ({ dev := dev, hasBufferBeenFilled := filled }, oldEntryBufPtr)

/-- The complete message copied to memory of its own and added; `none` if that memory could not be
allocated. -/
def storeMessage (driver : Driver) : Kernel (Driver × Option Pointer) := do
  let dev := driver.dev
  let size := toU64 dev.tempBufferIndex
  let buffptr ← kernel (.kmalloc size)
  if buffptr = none then
    kernel (.kfree dev.tempBuffer)
    -- `tempBuffer` still points to the memory that has been freed
    return ({ driver with dev := { dev with onGoingWrite := false } }, none)
  kernel (.memset buffptr 0 size)
  kernel (.memcpy buffptr dev.tempBuffer size)
  let (driver, oldEntryBufPtr) ← addMessage driver ⟨buffptr, size⟩
  return (driver, some oldEntryBufPtr)

/-- `aesd_write` of the bytes `buf`. -/
def aesdWrite (driver : Driver) (buf : List Byte) (fPos : ℤ) : Kernel WriteResult := do
  let (started, dev) ← startWrite driver.dev
  if !started then
    return ⟨-ENOMEM, fPos, { driver with dev := dev }, none⟩
  let (resized, dev) ← resizeTempBuffer dev buf.length
  if !resized then
    return ⟨-ENOMEM, fPos, { driver with dev := dev }, none⟩
  let (copied, dev) ← copyToTempBuffer dev buf
  if !copied then
    return ⟨-EFAULT, fPos, { driver with dev := dev }, none⟩
  let retval := toI64 buf.length
  let complete ← messageComplete dev
  if complete then
    let (driver, oldEntryBufPtr) ← storeMessage { driver with dev := dev }
    if oldEntryBufPtr = none then
      return ⟨-ENOMEM, fPos, driver, none⟩
    return ⟨retval, toI64 (fPos + retval), driver, oldEntryBufPtr⟩
  return ⟨retval, toI64 (fPos + retval), { driver with dev := dev }, none⟩

/-! ### aesd_read -/

/-- What a call of `aesd_read` returns, the position it leaves and the bytes the user got. -/
structure ReadResult where
  retval : ℤ
  fPos : ℤ
  data : List Byte

/-- `aesd_circular_buffer_find_entry_offset_for_fpos` on `circBufferPtr`; nothing is found without
a buffer. -/
def findCircEntry (dev : AesdDev) (charOffset : ℤ) :
    Option (Fin maxWriteOperationsSupported × ℤ) :=
  if dev.circBufferPtr = none then none else dev.circBuffer.findEntryOffsetForFpos charOffset

/-- `aesd_read` of at most `count` bytes. -/
def aesdRead (dev : AesdDev) (count fPos : ℤ) : Kernel ReadResult := do
  match findCircEntry dev (toU64 fPos) with
  | none                     => return ⟨0, fPos, []⟩
  | some (slot, entryOffset) =>
    let entry := dev.circBuffer.entry slot
    let bytesLeftInEntry := toU64 (entry.size - entryOffset)
    -- the minimum of two `size_t`
    let bytesToCopy := if bytesLeftInEntry < count then bytesLeftInEntry else count
    let (rc, data) ← kernel (.copyToUser entry.buffptr entryOffset bytesToCopy)
    if rc ≠ 0 then
      return ⟨-EFAULT, fPos, data⟩
    return ⟨toI64 bytesToCopy, toI64 (fPos + bytesToCopy), data⟩

/-! ### aesd_llseek -/

/-- What a call of `aesd_llseek` or `aesd_unlockedioctl` returns and the position it leaves. -/
structure SeekResult where
  retval : ℤ
  fPos : ℤ
  deriving DecidableEq

def SEEK_SET : ℤ := 0

def SEEK_CUR : ℤ := 1

def SEEK_END : ℤ := 2

/-- The loop of `SEEK_END` over the slots that are left: the sizes of the entries that are in use,
added up in an `int`. -/
def CircularBuffer.numBytesLoop (buffer : CircularBuffer) :
    List (Fin maxWriteOperationsSupported) → ℤ → ℤ
  | [], numBytes        => numBytes
  | i :: rest, numBytes =>
    if (buffer.entry i).buffptr ≠ none then
      buffer.numBytesLoop rest (toI32 (numBytes + (buffer.entry i).size))
    else buffer.numBytesLoop rest numBytes

/-- The `switch` of `aesd_llseek`: `proposedOffset`, or `none` for its default. -/
def proposedOffset (dev : AesdDev) (offset whence fPos : ℤ) : Option ℤ :=
  if whence = SEEK_SET then some offset
  else if whence = SEEK_CUR then some (toI64 (offset + fPos))
  else if whence = SEEK_END then
    let numBytes := dev.circBuffer.numBytesLoop (List.finRange maxWriteOperationsSupported) 0
    some (toI64 (offset + numBytes))
  else none

/-- `aesd_llseek`, for a module that has been loaded and so has a circular buffer. -/
def aesdLlseek (dev : AesdDev) (offset whence fPos : ℤ) : SeekResult :=
  -- a whence cannot be all three, so the test always succeeds
  if whence ≠ SEEK_SET ∨ whence ≠ SEEK_CUR ∨ whence ≠ SEEK_END then ⟨-EINVAL, fPos⟩
  else
    match proposedOffset dev offset whence fPos with
    | none                => ⟨-EINVAL, fPos⟩
    | some proposedOffset => ⟨proposedOffset, proposedOffset⟩

/-! ### aesd_unlockedioctl -/

/-- `AESDCHAR_IOCSEEKTO`, which is `_IOWR(0x16, 1, struct aesd_seekto)`. -/
def AESDCHAR_IOCSEEKTO : ℤ := 0xC0081601

/-- `struct aesd_seekto`. -/
structure SeekTo where
  writeCmd : ℤ
  writeCmdOffset : ℤ

/-- The 64 bits of the argument itself, read as a `struct aesd_seekto` on a little-endian
machine. -/
def SeekTo.ofArg (arg : ℤ) : SeekTo := ⟨toU32 arg, toU32 (arg / 2 ^ 32)⟩

/-- `aesd_unlockedioctl`, for a module that has been loaded and so has a circular buffer. -/
def aesdUnlockedioctl (dev : AesdDev) (cmd arg fPos : ℤ) : SeekResult :=
  if cmd = AESDCHAR_IOCSEEKTO then
    -- `copy_from_user` is given the address of `arg`
    let seekData := SeekTo.ofArg arg
    if seekData.writeCmd ≥ maxWriteOperationsSupported then ⟨-EINVAL, fPos⟩
    else
      -- entries that have not been written count with size zero
      let fileoffset := dev.circBuffer.seekLoop seekData.writeCmd maxWriteOperationsSupported
        dev.circBuffer.outOffs 0 0
      let fileoffset := toI32 (fileoffset + seekData.writeCmdOffset)
      ⟨fileoffset, fileoffset⟩
  else ⟨-EINVAL, fPos⟩

end Aesd
