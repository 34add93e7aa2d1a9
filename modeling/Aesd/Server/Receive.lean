import Aesd.Server.Dispatch
import Aesd.Lib.Bytes

/-!
# The receive loop

The loops of `repsondingThread` around the dispatcher, as a state machine whose inputs are what
`malloc`, `realloc` and `recv` return. A step gives the commands it dispatches; the handlers are
taken to return. Memory behind the received bytes is part of the state, since `strtok_r` reads on
until it finds a NUL.
-/

namespace Aesd

open CInt Bytes

/-- `RECV_BUFFER_LENGTH_BYTES`. -/
def recvBufferLengthBytes : ℕ := 32

/-! ### Tokens -/

/-- The separators `" \t\r\n"`. -/
def isSeparator (b : Byte) : Bool := b == 32 || b == 9 || b == 13 || b == newline

/-- The bytes of a C string, of which `memory` is what is stored from its start on. -/
def cString (memory : List Byte) : Text := memory.takeWhile (· ≠ 0)

/-- The five calls of `strtok_r`; without a first token there is no command. -/
def strtokCommand (s : Text) : Option Command :=
  let (cmd, s) := nextWord isSeparator s
  let (arg1, s) := nextWord isSeparator s
  let (arg2, s) := nextWord isSeparator s
  let (arg3, s) := nextWord isSeparator s
  let (extra, _) := nextWord isSeparator s
  cmd.map fun cmd => ⟨cmd, arg1, arg2, arg3, extra⟩

/-- The command with the first five of the given words. -/
def Command.ofWords : List Text → Option Command
  | []          => none
  | cmd :: args => some ⟨cmd, args[0]?, args[1]?, args[2]?, args[3]?⟩

/-- The command a text stands for: its first five maximal runs of bytes other than separators, the
text ending at a NUL if it has one. -/
def tokenise (text : Text) : Option Command := Command.ofWords (words isSeparator (cString text))

lemma strtokCommand_eq (s : Text) : strtokCommand s = Command.ofWords (words isSeparator s) := by
  simp only [strtokCommand, nextWord_fst, words_nextWord_snd]
  rcases words isSeparator s with _ | ⟨w₀, _ | ⟨w₁, _ | ⟨w₂, _ | ⟨w₃, _ | ⟨w₄, ws⟩⟩⟩⟩⟩ <;> rfl

/-! ### The loop -/

/-- The message being received: the block of `bufferCapacity` bytes, how many of them have been
received, and what is in memory behind the block. -/
structure Receiving where
  buffer : List Byte
  totalBytesRecvd : ℕ
  beyond : List Byte
  total_le : totalBytesRecvd ≤ buffer.length

namespace Receiving

def bufferCapacity (r : Receiving) : ℕ := r.buffer.length

/-- The bytes received so far. -/
def received (r : Receiving) : List Byte := r.buffer.take r.totalBytesRecvd

/-- A new message: the block is set to zero. -/
def fresh (beyond : List Byte) : Receiving where
  buffer := List.replicate recvBufferLengthBytes 0
  totalBytesRecvd := 0
  beyond := beyond
  total_le := Nat.zero_le _

/-- The block after a successful `realloc`, with the bytes `added` at its end. -/
def grow (r : Receiving) (added beyond : List Byte) : Receiving where
  buffer := r.buffer ++ added
  totalBytesRecvd := r.totalBytesRecvd
  beyond := beyond
  total_le := by
    rw [List.length_append]
    exact Nat.le_add_right_of_le r.total_le

/-- `recv` has stored some bytes behind those that are there. -/
def store (r : Receiving) (bytes : List Byte)
    (hfits : r.totalBytesRecvd + bytes.length ≤ r.bufferCapacity) : Receiving where
  buffer := overwrite r.buffer r.totalBytesRecvd bytes
  totalBytesRecvd := r.totalBytesRecvd + bytes.length
  beyond := r.beyond
  total_le := by
    rw [length_overwrite hfits]
    exact hfits

/-- The command that `strtok_r` finds in the buffer. -/
def command (r : Receiving) : Option Command := strtokCommand (cString (r.buffer ++ r.beyond))

end Receiving

/-- Where the thread is: before `malloc`, before `realloc`, before `recv`, or past its loop. -/
inductive Session where
  | starting
  | growing (r : Receiving)
  | receiving (r : Receiving)
  | ended

/-- What the call the thread waits for returns. `malloc` and `realloc` give `NULL` or memory: the
bytes that are new in the block, and those behind it. -/
inductive SessionInput where
  | malloc (beyond : Option (List Byte))
  | realloc (memory : Option (List Byte × List Byte))
  | recv (bytes : List Byte)
  | recvClosed
  | recvFailed

/-- The end of a message that was read completely. -/
def dispatchCommand : Option Command → Session × List Command
  | none   => (.starting, [])
  | some c => (if c.is "quit" then .ended else .starting, [c])

namespace Session

/-- One step, and the commands it dispatches; `none` if the input is not a possible result of the
call. Without memory for a new message `memset` faults. When `totalBytesRecvd` overflows the
thread writes outside the buffer, and nothing is said about it any more. -/
def step : Session → SessionInput → Option (Session × List Command)
  | .starting, .malloc none          => some (.ended, [])
  | .starting, .malloc (some beyond) => some (.receiving (.fresh beyond), [])
  | .growing _, .realloc none        => some (.starting, [])
  | .growing r, .realloc (some (added, beyond)) =>
    if added.length = r.bufferCapacity then some (.receiving (r.grow added beyond), []) else none
  | .receiving r, .recv bytes        =>
    if h : bytes ≠ [] ∧ r.totalBytesRecvd + bytes.length ≤ r.bufferCapacity then
      if r.totalBytesRecvd + bytes.length < 2 ^ 31 then
        let r := r.store bytes h.2
        if r.buffer[r.totalBytesRecvd - 1]? = some newline then some (dispatchCommand r.command)
        else if r.totalBytesRecvd = r.bufferCapacity then some (.growing r, [])
        else some (.receiving r, [])
      else some (.ended, [])
    else none
  | .receiving r, .recvClosed        => some (.ended, r.command.toList)
  | .receiving _, .recvFailed        => some (.ended, [])
  | .ended, _                        => some (.ended, [])
  | _, _                             => none

end Session

/-- A session up to some point: its inputs, each admitted by the condition `C`, where the thread is
and the commands it has dispatched. -/
inductive Serves (C : Session → SessionInput → Prop) :
    List SessionInput → Session → List Command → Prop where
  | start : Serves C [] .starting []
  | step {inputs : List SessionInput} {s s' : Session} {cmds out : List Command}
      (run : Serves C inputs s cmds) (input : SessionInput) (hC : C s input)
      (hstep : s.step input = some (s', out)) : Serves C (inputs ++ [input]) s' (cmds ++ out)

/-- The chunks of bytes that `recv` has returned. -/
def chunksOf (inputs : List SessionInput) : List (List Byte) :=
  inputs.filterMap fun
    | .recv bytes => some bytes
    | _           => none

end Aesd
