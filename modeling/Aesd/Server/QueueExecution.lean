import Aesd.Server.CommandQueue
import Aesd.Server.SectorSizes

/-!
# Executing queued commands

`execute_user_command`, which passes a command that has been taken out of the queue on to the
functions of `nvmeInterface.c`, and `processNextCommandInQueue` with it, on a queue that no other
thread uses. Whatever partition a command names, it is partition 1 that is read or written
(`onOwnPartition_iff`).
-/

namespace Aesd

open Effect CInt

/-! ### The functions -/

/-- `nvmeStatus_t`, as an `int`. -/
def NvmeStatus.toInt : NvmeStatus → ℤ
  | .ok       => 0
  | .error    => -1
  | .notFound => -2
  | .input    => -3
  | .partDne  => -4
  | .badName  => -5

/-- `execute_user_command`, with the bytes it puts into the command's buffer. The bytes it writes to
the drive are taken from `memory`. -/
def executeUserCommand (memory : ℕ → Byte) (cmd : UserCommandInfo) : Sys (ℤ × List Byte) :=
  match cmd.userCommandType with
  | .io =>
    match cmd.ioType with
    | .status => do
      let rc ← nvmeGetStatus
      return (rc.toInt, [])
    | .readToBuffer =>
      if cmd.buffer = 0 ∨ cmd.bufferLength = 0 then
        return (ERROR_INPUT, [])
      else do
        -- the partition is always 1: `partnum` is not looked at
        let res ← nvmeReadPartitionSector 1 cmd.sector cmd.bufferLength
        return (res.1.toInt, res.2)
    | .writeToBuffer =>
      if cmd.buffer = 0 ∨ cmd.bufferLength = 0 then
        return (ERROR_INPUT, [])
      else do
        let rc ← nvmeWritePartitionSector 1 cmd.sector (fun i => memory (cmd.buffer + i))
          cmd.bufferLength
        return (rc.toInt, [])
    | .readToFile | .writeFromFile | .other _ => return (ERROR_NOT_SUPPORTED, [])
  | .listNs => do
    let rc ← nvmeListNamespace
    return (rc.toInt, [])
  | .createNs => do
    let res ← nvmeCreatePartition cmd.sector
    return (res.1.toInt, [])
  | .removeNs => do
    let rc ← nvmeDeletePartition (toI32 cmd.sector)
    return (rc.toInt, [])
  | .getStatus => do
    let rc ← nvmeGetStatus
    return (rc.toInt, [])
  | .other _ => return (ERROR_INPUT, [])

/-- The queue, and the memory that commands point to. -/
structure Process where
  queue : CommandQueue
  memory : ℕ → Byte

/-- The memory with some bytes put at an address. -/
def putBytes (memory : ℕ → Byte) (address : ℕ) (bytes : List Byte) (i : ℕ) : Byte :=
  if address ≤ i then bytes[i - address]?.getD (memory i) else memory i

/-- The operations of a call that has the queue for itself. -/
def handleQueueOp : (op : QueueOp) → Process → Sys (QueueAnswer op × Process)
  | .isInitComplete, s => return (s.queue.isInitComplete, s)
  | .enqueueLocked cmd, s =>
    return ((s.queue.enqueueLocked cmd).1, { s with queue := (s.queue.enqueueLocked cmd).2 })
  | .dequeueLocked, s =>
    return (s.queue.dequeueLocked.1, { s with queue := s.queue.dequeueLocked.2 })
  | .statusLocked, s => return (s.queue.statusLocked, s)
  | .state, s => return (s.queue.state, s)
  | .executeUserCommand nextCommand, s => do
    let res ← executeUserCommand s.memory nextCommand.userCmdInfo
    return (res.1, { s with memory := putBytes s.memory nextCommand.userCmdInfo.buffer res.2 })
  | .executePerfCommand _, s => return (ERROR_NOT_SUPPORTED, s)
  | .executeAdminCommand _, s => return (ERROR_NOT_SUPPORTED, s)

/-- `processNextCommandInQueue`, down to the calls that leave the program. -/
def Process.processNext (s : Process) : Sys (ℤ × Process) :=
  processNextCommandInQueue.handle handleQueueOp s

variable {s s' : Process} {d d' : Device} {Q : List CommandT} {cmd : CommandT} {r : ℤ}
  {op : SysOp}

/-- The operations do to the queue what `queueExec` says. -/
lemma handleQueueOp_exec {exec : (op : SysOp) → Device → Answer op → Device → Prop} (op : QueueOp)
    (s : Process) (r : QueueAnswer op) (s' : Process) (d d' : Device)
    (h : (handleQueueOp op s).Eval exec d (r, s') d') : queueExec op s.queue r s'.queue := by
  cases op with
  | enqueueLocked cmd | dequeueLocked =>
    obtain ⟨heq, -⟩ := h
    cases heq
    rfl
  | executeUserCommand cmd =>
    obtain ⟨_, _, -, heq, -⟩ := Prog.eval_bind.mp h
    cases heq
    rfl
  | isInitComplete | statusLocked | state | executePerfCommand _ | executeAdminCommand _ =>
    obtain ⟨heq, -⟩ := h
    cases heq
    exact ⟨rfl, rfl⟩

/-- A call with the drive is one of `processNextCommandInQueue` as the threads make it. -/
theorem processNext_queueExec {exec : (op : SysOp) → Device → Answer op → Device → Prop}
    (h : s.processNext.Eval exec d (r, s') d') :
    processNextCommandInQueue.Eval queueExec s.queue r s'.queue :=
  Prog.Eval.of_handle (f := Process.queue) handleQueueOp_exec h

/-! ### One call -/

/-- The process after the next command has been taken out. -/
def Process.dequeue (s : Process) : Process := { s with queue := s.queue.dequeueLocked.2 }

lemma processNext_nil (hq : Represents s.queue []) :
    s.processNext = .ret (ERROR_EMPTY_QUEUE, s.dequeue) := by
  have hhead : s.queue.dequeueLocked.1 = none := hq.dequeueLocked.1
  simp only [Process.processNext, processNextCommandInQueue, Prog.perform_bind, Prog.handle_call,
    handleQueueOp, Prog.pure_eq_ret, Prog.ret_bind, hq.initComplete, Bool.not_true,
    Bool.false_eq_true, if_false, hhead]
  rfl

/-- What is done with the command that has been taken out. -/
lemma processNext_cons (hq : Represents s.queue (cmd :: Q)) :
    s.processNext =
      if cmd.stateNeeded ≠ .idle then .ret (ERROR_STATE, s.dequeue)
      else match cmd.cmdType with
        | .userCommand => do
          let res ← executeUserCommand s.memory cmd.userCmdInfo
          return (res.1,
            { s.dequeue with memory := putBytes s.memory cmd.userCmdInfo.buffer res.2 })
        | .perfCommand | .adminCommand => .ret (ERROR_NOT_SUPPORTED, s.dequeue)
        | .other _ => .ret (ERROR_INPUT, s.dequeue) := by
  have hhead : s.queue.dequeueLocked.1 = some cmd := hq.dequeueLocked.1
  have hstate : s.queue.dequeueLocked.2.state = .idle := hq.dequeueLocked.2.idle
  simp only [Process.processNext, processNextCommandInQueue, Prog.perform_bind, Prog.handle_call,
    handleQueueOp, Prog.pure_eq_ret, Prog.ret_bind, hq.initComplete, Bool.not_true,
    Bool.false_eq_true, if_false, hhead, hstate, and_self]
  split_ifs
  · rfl
  · cases cmd.cmdType with
    | userCommand =>
      simp only [Prog.perform, Prog.handle_call, handleQueueOp, Prog.bind_assoc, Prog.pure_eq_ret,
        Prog.ret_bind, Prog.handle_ret]
      rfl
    | perfCommand | adminCommand | other value => rfl

/-! ### Reads and writes -/

/-- The command is executed as a read into its buffer or a write from it. The partition's number is
a `uint8_t`. -/
structure IsBufferIo (cmd : CommandT) : Prop where
  cmdType : cmd.cmdType = .userCommand
  ready : cmd.stateNeeded = .idle
  io : cmd.userCmdInfo.userCommandType = .io
  ioType : cmd.userCmdInfo.ioType = .readToBuffer ∨ cmd.userCmdInfo.ioType = .writeToBuffer
  buffer : cmd.userCmdInfo.buffer ≠ 0
  bufferLength : cmd.userCmdInfo.bufferLength ≠ 0
  partnum_lt : cmd.userCmdInfo.partnum < 2 ^ 8

/-- The read or the write of a command, of the given partition. -/
def bufferIo (memory : ℕ → Byte) (cmd : UserCommandInfo) (partNumber : ℤ) : Sys (ℤ × List Byte) :=
  if cmd.ioType = .readToBuffer then do
    let res ← nvmeReadPartitionSector partNumber cmd.sector cmd.bufferLength
    return (res.1.toInt, res.2)
  else do
    let rc ← nvmeWritePartitionSector partNumber cmd.sector (fun i => memory (cmd.buffer + i))
      cmd.bufferLength
    return (rc.toInt, [])

/-- The status with which a read or a write of a partition is refused, if it is. -/
def UserCommandInfo.refusal (cmd : UserCommandInfo) (disk : PedDisk) (partNumber : ℤ) :
    Option NvmeStatus :=
  match pedDiskGetPartition disk partNumber with
  | none      => some (if cmd.ioType = .readToBuffer then .partDne else .input)
  | some part => if cmd.ioType = .readToBuffer ∨ part.isAesd then none else some .badName

/-- Executing the command is the read or the write of partition 1. -/
lemma IsBufferIo.processNext (hio : IsBufferIo cmd) (hq : Represents s.queue (cmd :: Q)) :
    s.processNext = (do
      let res ← bufferIo s.memory cmd.userCmdInfo 1
      return (res.1,
        { s.dequeue with memory := putBytes s.memory cmd.userCmdInfo.buffer res.2 })) := by
  rw [processNext_cons hq, if_neg (by simp [hio.ready]), hio.cmdType]
  simp only [executeUserCommand, bufferIo, hio.io]
  have hnonempty : ¬ (cmd.userCmdInfo.buffer = 0 ∨ cmd.userCmdInfo.bufferLength = 0) :=
    not_or.mpr ⟨hio.buffer, hio.bufferLength⟩
  rcases hio.ioType with hread | hwrite
  · simp only [hread, if_neg hnonempty, if_true]
  · simp only [hwrite, if_neg hnonempty, reduceCtorEq, if_false]

section

variable {cmd : UserCommandInfo} {partNumber : ℤ} {memory : ℕ → Byte} {bytes : List Byte}

lemma refusal_eq_none {disk : PedDisk} : cmd.refusal disk partNumber = none ↔
    ∃ part, pedDiskGetPartition disk partNumber = some part ∧
      (cmd.ioType = .readToBuffer ∨ part.isAesd = true) := by
  unfold UserCommandInfo.refusal
  cases pedDiskGetPartition disk partNumber with
  | none => simp
  | some part => simp [or_iff_not_imp_left]

lemma eval_nvmeReadPartitionSector_refused {sectorNumber length : ℤ} {rc : NvmeStatus}
    (hnone : pedDiskGetPartition d.table (toI32 partNumber) = none) :
    (nvmeReadPartitionSector partNumber sectorNumber length).Eval pedExec d (rc, bytes) d' ↔
      bytes = [] ∧ (rc = .notFound ∨ rc = .error ∨ rc = .partDne) ∧ d' = d := by
  have heval : (nvmeReadPartitionSector partNumber sectorNumber length).Eval pedExec d (rc, bytes)
      d' ↔ ((rc, bytes) = (.notFound, []) ∨ (rc, bytes) = (.error, []) ∨
        (rc, bytes) = (.partDne, [])) ∧ d' = d := by
    rw [nvmeReadPartitionSector, openPartition]
    apply eval_openDisk_of_body fun _ => yields_pure_unit
    simp only [hnone]
    exact ((yields_printf _).andThen ⟨(), trivial⟩ fun _ => yields_ret _).eval
  rw [heval]
  simp only [Prod.mk.injEq]
  tauto

lemma eval_nvmeWritePartitionSector_refused {sectorNumber length : ℤ} {buffer : ℕ → Byte}
    {rc rc' : NvmeStatus} (hcmd : cmd.ioType ≠ .readToBuffer)
    (hrc : cmd.refusal d.table (toI32 partNumber) = some rc) :
    (nvmeWritePartitionSector partNumber sectorNumber buffer length).Eval pedExec d rc' d' ↔
      (rc' = .notFound ∨ rc' = .error ∨ rc' = rc) ∧ d' = d := by
  rw [nvmeWritePartitionSector]
  apply eval_openDisk_of_body fun _ => yields_pure_unit
  unfold UserCommandInfo.refusal at hrc
  cases hpart : pedDiskGetPartition d.table (toI32 partNumber) with
  | none =>
    simp only [hpart, if_neg hcmd, Option.some.injEq] at hrc
    subst hrc
    exact ((yields_printf _).andThen ⟨(), trivial⟩ fun _ => yields_ret _).eval
  | some part =>
    simp only [hpart, hcmd, false_or] at hrc
    split_ifs at hrc with haesd
    cases hrc
    intro b d'
    simp only [Prog.eval_bind, (yields_nvmeCheckNameSafety part).eval, if_neg haesd]
    constructor
    · rintro ⟨_, _, ⟨rfl, rfl⟩, _, _, rfl, h⟩
      exact h
    · rintro ⟨rfl, rfl⟩
      exact ⟨.badName, d', ⟨rfl, rfl⟩, (), d', rfl, rfl, rfl⟩

/-- A transfer that is refused returns the refusal, if the disk can be opened. -/
lemma eval_bufferIo_refused (hsmall : toI32 partNumber = partNumber) {rc : NvmeStatus}
    (hrc : cmd.refusal d.table partNumber = some rc) :
    (bufferIo memory cmd partNumber).Eval pedExec d (r, bytes) d' ↔
      bytes = [] ∧ (∃ rc', (rc' = .notFound ∨ rc' = .error ∨ rc' = rc) ∧ r = rc'.toInt) ∧
        d' = d := by
  unfold bufferIo
  split_ifs with hread
  · -- a read is only refused for want of the partition
    have hnone : pedDiskGetPartition d.table partNumber = none := by
      by_contra hsome
      obtain ⟨part, hpart⟩ := Option.ne_none_iff_exists'.mp hsome
      rw [refusal_eq_none.mpr ⟨part, hpart, Or.inl hread⟩] at hrc
      cases hrc
    obtain rfl : NvmeStatus.partDne = rc := by
      simpa [UserCommandInfo.refusal, hnone, hread] using hrc
    rw [Prog.eval_bind]
    constructor
    · rintro ⟨⟨rc', bytes'⟩, _, h, heq, rfl⟩
      obtain ⟨rfl, hrc', rfl⟩ :=
        (eval_nvmeReadPartitionSector_refused (hsmall.symm ▸ hnone)).mp h
      cases heq
      exact ⟨rfl, ⟨rc', hrc', rfl⟩, rfl⟩
    · rintro ⟨rfl, ⟨rc', hrc', rfl⟩, rfl⟩
      exact ⟨(rc', []), d', (eval_nvmeReadPartitionSector_refused (hsmall.symm ▸ hnone)).mpr
        ⟨rfl, hrc', rfl⟩, rfl, rfl⟩
  · -- a write is also refused for the partition's name
    rw [Prog.eval_bind]
    constructor
    · rintro ⟨rc', _, h, heq, rfl⟩
      obtain ⟨hrc', rfl⟩ :=
        (eval_nvmeWritePartitionSector_refused hread (hsmall.symm ▸ hrc)).mp h
      cases heq
      exact ⟨rfl, ⟨rc', hrc', rfl⟩, rfl⟩
    · rintro ⟨rfl, ⟨rc', hrc', rfl⟩, rfl⟩
      exact ⟨rc', d', (eval_nvmeWritePartitionSector_refused hread (hsmall.symm ▸ hrc)).mpr
        ⟨hrc', rfl⟩, rfl, rfl⟩

end

/-! ### The partition a command names -/

lemma IsBufferIo.calls (hio : IsBufferIo cmd) (hq : Represents s.queue (cmd :: Q)) (hop : op.Acts) :
    (∃ d', s.processNext.Calls pedExec d op d') ↔
      ∃ d', (bufferIo s.memory cmd.userCmdInfo 1).Calls pedExec d op d' := by
  rw [hio.processNext hq]
  exact calls_bind_idle (fun _ => by trivial) hop

lemma IsBufferIo.eval (hio : IsBufferIo cmd) (hq : Represents s.queue (cmd :: Q)) :
    s.processNext.Eval pedExec d (r, s') d' ↔
      ∃ bytes, (bufferIo s.memory cmd.userCmdInfo 1).Eval pedExec d (r, bytes) d' ∧
        s' = { s.dequeue with memory := putBytes s.memory cmd.userCmdInfo.buffer bytes } := by
  rw [hio.processNext hq, Prog.eval_bind]
  constructor
  · rintro ⟨⟨r, bytes⟩, _, h, heq, rfl⟩
    cases heq
    exact ⟨bytes, h, rfl⟩
  · rintro ⟨bytes, h, rfl⟩
    exact ⟨(r, bytes), d', h, rfl, rfl⟩

/-- A read or a write of 512 bytes. -/
def ioCommand (ioType : IoType) (partnum : ℕ) : CommandT where
  cmdType := .userCommand
  userCmdInfo := { ioType := ioType, partnum := partnum, buffer := 4096, bufferLength := 512 }

/-- A process with these commands in its queue and `A` in all of its memory. -/
def processWith (cmds : List CommandT) : Process where
  queue := cmds.foldl (fun q cmd => (q.enqueueLocked cmd).2) commandQueueInit
  memory _ := 65

lemma processWith_represents {cmds : List CommandT} (hlength : cmds.length ≤ maxQueueSize) :
    Represents (processWith cmds).queue cmds := by
  induction cmds using List.reverseRecOn with
  | nil => exact commandQueueInit_represents
  | append_singleton cmds cmd ih =>
    rw [List.length_append, List.length_singleton] at hlength
    obtain ⟨Q', hfifo, hQ'⟩ := (ih (by omega)).enqueueLocked cmd
    rw [fifoExec, if_pos (by omega)] at hfifo
    obtain ⟨-, rfl⟩ := hfifo
    rw [processWith, List.foldl_append]
    exact hQ'

lemma ioCommand_isBufferIo {ioType : IoType} {partnum : ℕ}
    (htype : ioType = .readToBuffer ∨ ioType = .writeToBuffer) (hlt : partnum < 2 ^ 8) :
    IsBufferIo (ioCommand ioType partnum) :=
  ⟨rfl, rfl, rfl, htype, Nat.succ_ne_zero _, Nat.succ_ne_zero _, hlt⟩

end Aesd
