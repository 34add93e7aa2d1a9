import Aesd.Server.NvmeInterface
import Aesd.Lib.Bytes

/-!
# The command dispatcher

The part of `repsondingThread` in `aesdsocket.c` that executes one tokenised message. A message
may leave any of the arguments out; using an absent one as a string is a `fault`.
-/

namespace Aesd

open Effect CInt

/-- `cmd`, `arg1`, `arg2`, `arg3` and `extra`, as `strtok_r` found them. -/
structure Command where
  cmd : Text
  arg1 : Option Text := none
  arg2 : Option Text := none
  arg3 : Option Text := none
  extra : Option Text := none
  deriving DecidableEq

/-- `STDOUT_FILENO`. -/
def stdoutFileno : ℤ := 1

/-! ### Numbers -/

/-- `isspace` in the C locale. -/
def isspace (b : Byte) : Bool := b == 32 || (9 ≤ b && b ≤ 13)

def isdigit (b : Byte) : Bool := 48 ≤ b && b ≤ 57

/-- The value of the decimal digits a string starts with. -/
def digitsValue (s : Text) : ℤ :=
  (s.takeWhile isdigit).foldl (fun v b => v * 10 + (b.toNat - 48)) 0

/-- `strtol(s, NULL, 10)` with a 64-bit `long`: it saturates. -/
def strtol (s : Text) : ℤ :=
  let s := s.dropWhile isspace
  if s.head? = some 45 then
    max (-digitsValue s.tail) (-2 ^ 63)
  else if s.head? = some 43 then
    min (digitsValue s.tail) (2 ^ 63 - 1)
  else
    min (digitsValue s) (2 ^ 63 - 1)

/-- `atoi`: the `long` cut down to an `int`. -/
def atoi (s : Text) : ℤ := toI32 (strtol s)

/-- `atoi` of an argument that may be absent. -/
def atoiArg : Option Text → Sys ℤ
  | none   => fault
  | some s => return atoi s

lemma quiet_atoiArg (arg : Option Text) : Quiet (atoiArg arg) := by
  cases arg with
  | none => exact quiet_fault
  | some s => trivial

/-! ### Talking to the client -/

/-- What `sendOnSocketf` sends of the formatted text: `vsnprintf` keeps 1023 bytes of it, and
`strnlen` goes up to a NUL. -/
def sentText (text : Text) : Text := (text.take 1023).takeWhile (· ≠ 0)

/-- A text is sent as it is exactly if it fits and is a string. -/
lemma sentText_eq_self_iff {text : Text} :
    sentText text = text ↔ text.length ≤ 1023 ∧ 0 ∉ text := by
  constructor
  · intro h
    refine ⟨?_, fun hnul => ?_⟩
    · rw [← h]
      exact (List.takeWhile_prefix _).length_le.trans (List.length_take_le _ _)
    · rw [← h] at hnul
      simpa using List.mem_takeWhile_imp hnul
  · rintro ⟨hlen, hnul⟩
    rw [sentText, List.take_of_length_le hlen, Bytes.takeWhile_ne_of_not_mem hnul]

/-- `sendOnSocketf`, of the formatted text. `vsnprintf` fails if its length is no `int`. -/
def sendOnSocketf (fd : ℤ) (text : Text) : Sys ℤ := do
  if fd < 0 then
    return -1
  else if 2 ^ 31 ≤ text.length then
    return -1
  else
    let n ← sys (.send fd (sentText text))
    return if n < 0 then -1 else 0

/-- A string that fits into the buffer is sent. -/
lemma sendOnSocketf_of_fits {fd : ℤ} {text : Text} (hfd : 0 ≤ fd) (hlen : text.length ≤ 1023)
    (hnul : 0 ∉ text) : sendOnSocketf fd text = (do
      let n ← sys (.send fd text)
      return if n < 0 then -1 else 0) := by
  have hshort : ¬ 2 ^ 31 ≤ text.length := by omega
  rw [sendOnSocketf, if_neg (not_lt.mpr hfd), if_neg hshort, sentText_eq_self_iff.mpr ⟨hlen, hnul⟩]

/-- `sendCommandUsage`. -/
def commandUsage : List String :=
  ["----- Start Command Usage -----\n",
   "help/? -- prints this command usage screen\n",
   "status -- prints status of drive\n",
   "listparts/ls -- list active partitions on the drive\n",
   "mkpart <size_in_sectors> \n",
   "rmpart <part_number> \n",
   "write <part> <data> <offset> -- writes <data> to <part>\n",
   "read <part> <offset> <num_sectors> -- reads <num_sectors> from <part> \n",
   "\n----- Performance Command Usage -----\n",
   "seq_write/sw <part> <sector_start> <sector_end> <duration_ms>\n",
   "seq_read/sr <part> <sector_start> <sector_end> <duration_ms>\n",
   "rand_write/rw <part> <sector_start> <sector_end> <duration_ms>\n",
   "rand_read/rr <part> <sector_start> <sector_end> <duration_ms>\n",
   "quit --  ends session\n",
   "\n----- End Command usage -----\n\n"]

def sendCommandUsage (clientFD : ℤ) : Sys Unit :=
  commandUsage.forM fun line => do
    let _ ← sys (.send clientFD (str line))

lemma quiet_sendOnSocketf (fd : ℤ) (text : Text) : Quiet (sendOnSocketf fd text) := by
  unfold sendOnSocketf
  split_ifs
  · trivial
  · trivial
  · exact ⟨trivial, fun _ => trivial⟩

/-- A message to the client; what `sendOnSocketf` returns is nowhere looked at. -/
def reply (fd : ℤ) (text : Text) : Sys Unit := do
  let _ ← sendOnSocketf fd text

lemma quiet_reply (fd : ℤ) (text : Text) : Quiet (reply fd text) :=
  (quiet_sendOnSocketf fd text).bind fun _ => trivial

/-- A message to the client under a condition. -/
def replyIf (cond : Bool) (fd : ℤ) (text : Text) : Sys Unit :=
  if cond then reply fd text else return ()

lemma quiet_replyIf (cond : Bool) (fd : ℤ) (text : Text) : Quiet (replyIf cond fd text) := by
  cases cond with
  | true => exact quiet_reply fd text
  | false => trivial

lemma quiet_sendCommandUsage (clientFD : ℤ) : Quiet (sendCommandUsage clientFD) :=
  Prog.only_forM _ fun _ => ⟨trivial, fun _ => trivial⟩

/-- Run `body` with standard output sent to the client: `dup`, `dup2`, the body, `dup2`. -/
def redirected {α : Type} (clientFD : ℤ) (body : Sys α) : Sys α := do
  let savedfd ← sys (.dup stdoutFileno)
  sys (.dup2 clientFD stdoutFileno)
  let a ← body
  sys (.dup2 savedfd stdoutFileno)
  return a

lemma quiet_redirected {α : Type} {clientFD : ℤ} {body : Sys α} (h : Quiet body) :
    Quiet (redirected clientFD body) :=
  ⟨trivial, fun _ => ⟨trivial, fun _ => h.bind fun _ => ⟨trivial, fun _ => trivial⟩⟩⟩

/-- The blanks that the continued string literals of the source have before their second line. -/
def continuation : Text := List.replicate 24 32

/-! ### Partitions -/

/-- `mkpart`. A missing size is reported and then used all the same. -/
def mkpart (clientFD : ℤ) (c : Command) : Sys Unit := do
  printf (str "mkpart received\n")
  replyIf c.arg1.isNone clientFD
    (str "expected second argument for size of new partition.\n")
  let newPartSize ← atoiArg c.arg1
  if newPartSize > 0 then
    let (rc, newPart) ← nvmeCreatePartition (toU32 newPartSize)
    if rc ≠ .ok then
      reply clientFD (str "\nfailed to create partition.\n")
    else
      let newPartIndex := toU8 (newPart.elim 0 (·.num))
      reply clientFD
        (str "\ncreated new partition with number " ++ dec newPartIndex ++ str "\n")
  else
    reply clientFD
      (str "expected greater than zero argument for new partition size.\n")

/-- `rmpart`. -/
def rmpart (clientFD : ℤ) (c : Command) : Sys Unit := do
  printf (str "rmpart received\n")
  replyIf c.arg1.isNone clientFD
    (str "expected second argument for number of partition to delete\n")
  let partToDel ← atoiArg c.arg1
  if partToDel > 0 then
    let rc ← nvmeDeletePartition partToDel
    if rc = .badName then
      reply clientFD
        (str "Cannot delete a partition that doesn't prefix with AESD with SAFE_MODE active." ++
          continuation ++ str "\nTry to delete a partition created with this utility instead.\n")
    else if rc ≠ .ok then
      reply clientFD (str "failed to delete partition.\n")
    else
      reply clientFD
        (str "deleted part with number " ++ dec partToDel ++ str "\n")
  else
    reply clientFD
      (str "expected greater than zero argument for partition to delete.\n")

/-- `listparts` and `ls`. -/
def listparts (clientFD : ℤ) : Sys Unit := do
  printf (str "listing parts\n")
  let rc ← redirected clientFD nvmeListPartitions
  if rc ≠ .ok then
    reply clientFD
      (str "Encountered and error while listing drive partitions.\n")

/-! ### Sectors -/

/-- The memory a token points to: its bytes, the NUL that `strtok_r` put behind it, and then
whatever follows. -/
def tokenMemory (token : Text) (past : ℕ → Byte) (i : ℕ) : Byte :=
  (token ++ [0])[i]?.getD (past (i - (token.length + 1)))

/-- The sector offset of `write` and `read`. -/
def sectorOffsetArg (clientFD : ℤ) : Option Text → Sys ℤ
  | none     => do
    reply clientFD (str "No socket offset received. Assuming 0.\n")
    return 0
  | some arg => return atoi arg

lemma quiet_sectorOffsetArg (clientFD : ℤ) (arg : Option Text) :
    Quiet (sectorOffsetArg clientFD arg) := by
  cases arg with
  | none => exact (quiet_reply _ _).bind fun _ => trivial
  | some arg => trivial

/-- `write`. -/
def write (clientFD : ℤ) (past : ℕ → Byte) (c : Command) : Sys Unit := do
  printf (str "got write\n")
  let some arg1 := c.arg1 | do
    reply clientFD (str "Expected a partition to write to. Try again.\n")
  let partToWrite := atoi arg1
  let sectorOffset ← sectorOffsetArg clientFD c.arg3
  let some arg2 := c.arg2 | fault
  reply clientFD (str "Writing " ++ dec arg2.length ++ str " bytes to part " ++
    dec partToWrite ++ str " at sector " ++ dec sectorOffset ++ str "\n")
  let rc ← nvmeWritePartitionSector (toU32 partToWrite) (toU32 sectorOffset)
    (tokenMemory arg2 past) arg2.length
  if rc = .badName then
    reply clientFD
      (str "Cannot write to partition that doesn't prefix with AESD with SAFE_MODE active." ++
        continuation ++ str "\nTry to write to a partition created with this utility instead.\n")
  else if rc ≠ .ok then
    reply clientFD (str "An error occured during the write operation.\n")

/-- `isprint` in the C locale. -/
def isprint (b : Byte) : Bool := 32 ≤ b && b ≤ 126

/-- `n` in hexadecimal, with zeros in front up to `width` digits. -/
def hexPadded (upper : Bool) (width n : ℕ) : Text :=
  let digits := (Nat.toDigits 16 n).map fun ch => if upper then ch.toUpper else ch
  List.replicate (width - digits.length) 48 ++ digits.map Char.toUInt8

/-- The pieces of one line of `hexDump`, for the bytes `row` at offset `i`. -/
def hexDumpLine (i : ℕ) (row : List Byte) : List Text :=
  [hexPadded false 8 i ++ str "  "] ++
  ((List.range 16).flatMap fun j =>
    [(row[j]?).elim (str "   ") fun b => hexPadded true 2 b.toNat ++ str " "] ++
      if j = 7 then [str " "] else []) ++
  [str " |"] ++ (row.map fun b => [if isprint b then b else 46]) ++ [str "|\n"]

/-- `hexDump`: what it prints, piece by piece. -/
def hexDump (data : List Byte) : List Text :=
  (List.range ((data.length + 15) / 16)).flatMap fun i =>
    hexDumpLine (16 * i) ((data.drop (16 * i)).take 16)

/-- The contents of the read buffer: what the read put there, then the bytes `malloc` left. -/
def readBufferContents (size : ℤ) (bytes : List Byte) (leftover : ℕ → Byte) : List Byte :=
  ((List.range size.toNat).map fun i => bytes[i]?.getD (leftover i)).set (size.toNat - 1) 0

/-- What `read` shows of the sectors: a dump on the redirected standard output, or text. -/
def showSectors (clientFD : ℤ) (printAsHex : Bool) (contents : List Byte) : Sys Unit :=
  if printAsHex then
    redirected clientFD (printAll (hexDump contents))
  else
    reply clientFD (str "Read " ++ contents.takeWhile (· ≠ 0) ++ str " from socket\n")

lemma quiet_showSectors (clientFD : ℤ) (printAsHex : Bool) (contents : List Byte) :
    Quiet (showSectors clientFD printAsHex contents) := by
  cases printAsHex with
  | true => exact quiet_redirected (quiet_printAll _)
  | false => exact quiet_reply _ _

/-- `read`. -/
def read (clientFD : ℤ) (c : Command) : Sys Unit := do
  let some arg1 := c.arg1 | do
    reply clientFD (str "Expected a partition to write to. Try again.\n")
  let partToRead := atoi arg1
  let sectorOffset ← sectorOffsetArg clientFD c.arg2
  let some arg3 := c.arg3 | do
    reply clientFD (str "Expected a number of sectors to read. Try again.\n")
  let sectorsToRead := atoi arg3
  if sectorsToRead ≤ 0 then
    reply clientFD
      (str "Expected a number of sectors to read greater than 0.\n")
  else
    let printAsHex := c.extra.any fun extra => strncmp extra (str "-b") 3 == 0
    let readBufferSize := toU64 (toI32 (sectorsToRead * 512))
    -- printed as a signed number
    printf (str "readbuffersize: " ++ dec (toI64 readBufferSize) ++ str "\n")
    let readBuffer ← sys (.malloc readBufferSize)
    reply clientFD (str "Reading " ++ dec (toI64 readBufferSize) ++
      str " bytes from part " ++ dec partToRead ++ str " at sector " ++ dec sectorOffset ++
      str "\n")
    let (rc, bytes) ← nvmeReadPartitionSector (toU32 partToRead) (toU32 sectorOffset)
      readBufferSize
    if rc = .partDne then
      reply clientFD (str "Specified partition does not exist.\n")
      sys (.free (readBuffer.map (·.1)))
    else if rc ≠ .ok then
      reply clientFD (str "Encountered an error during read\n")
      sys (.free (readBuffer.map (·.1)))
    else
      match readBuffer with
      | none => fault
      | some (block, leftover) => do
        showSectors clientFD printAsHex (readBufferContents readBufferSize bytes leftover)
        sys (.free (some block))

/-! ### Performance commands -/

/-- The words of the four `Ready to ...` messages. -/
def PerfKind.ready : PerfKind → Text
  | .seqWrite  => str "seq_write"
  | .seqRead   => str "seq_read"
  | .randWrite => str "rand write"
  | .randRead  => str "rand_read"

/-- What the handler itself prints when the job is over. -/
def PerfKind.afterwards : PerfKind → List Text
  | .randRead => [str "got rand read\n"]
  | _         => []

/-- The write commands check the partition's name first, the read commands do not. -/
def PerfKind.checksName : PerfKind → Bool
  | .seqWrite | .randWrite => true
  | .seqRead | .randRead   => false

/-- The job moved from sectors of the partition to sectors of the disk, in `uint32_t` fields. -/
def PerfJobInfo.shift (job : PerfJobInfo) (partStartAddr : ℤ) : PerfJobInfo :=
  { job with lbaRange :=
      { startlba := toU32 (toU64 (job.lbaRange.startlba + partStartAddr))
        endlba := toU32 (toU64 (job.lbaRange.endlba + partStartAddr)) } }

/-- Start the job; it prints as it goes. -/
def startJob (kind : PerfKind) (job : PerfJobInfo) : Sys Unit := do
  let texts ← sys (.perfStart kind job)
  printAll texts

/-- A performance command after the name check. Of the range check's results only
`NVME_STATUS_ERROR` is a refusal. -/
def perfRange (clientFD : ℤ) (kind : PerfKind) (partToPerf : ℤ) (perfJob : PerfJobInfo) :
    Sys PerfJobInfo := do
  if perfJob.lbaRange.startlba > perfJob.lbaRange.endlba ∨ perfJob.durationMs < 0 then
    reply clientFD (str "Bad inputs. Try again.\n")
    return perfJob
  let rc ← nvmeCheckLbaRangeInPart (toU8 partToPerf) perfJob.lbaRange
  if rc = .error then
    reply clientFD (str "Lba range is not possible on this partition (" ++
      dec partToPerf ++ str ").\n")
    return perfJob
  let (rc, partStartAddr) ← nvmeGetStartLbaInPart (toU8 partToPerf)
  if rc ≠ .ok then
    reply clientFD (str "Failed to get start lba for part\n")
    return perfJob
  let (rc, _) ← nvmeGetEndLbaInPart (toU8 partToPerf)
  if rc ≠ .ok then
    reply clientFD (str "Failed to get end lba for part\n")
    return perfJob
  let perfJob := perfJob.shift partStartAddr
  reply clientFD (str "Ready to " ++ kind.ready ++ str " in range " ++
    dec (toI32 perfJob.lbaRange.startlba) ++ str "-" ++ dec (toI32 perfJob.lbaRange.endlba) ++
    str "\n")
  redirected clientFD (startJob kind perfJob)
  printAll kind.afterwards
  return perfJob

/-- The job a performance command's arguments describe. -/
def perfJobOf (arg2 arg3 extra : Text) : PerfJobInfo :=
  { lbaRange := { startlba := toU32 (atoi arg2), endlba := toU32 (atoi arg3) }
    durationMs := atoi extra }

/-- `seq_write`, `seq_read`, `rand_write` and `rand_read`. -/
def perfCommand (clientFD : ℤ) (kind : PerfKind) (c : Command) (perfJob : PerfJobInfo) :
    Sys PerfJobInfo := do
  let some arg1 := c.arg1 | missing
  let some arg2 := c.arg2 | missing
  let some arg3 := c.arg3 | missing
  let some extra := c.extra | missing
  let partToPerf := atoi arg1
  let perfJob := perfJobOf arg2 arg3 extra
  if kind.checksName then
    let rc ← nvmeCheckNameSafetyPartNumber (toU8 partToPerf)
    if rc = .badName then
      reply clientFD
        (str "Cannot test performance on a partition that doesn't prefix with AESD with " ++
          str "SAFE_MODE active." ++ continuation ++
          str "\nTry to test a partition created with this utility instead.\n")
      return perfJob
    else if rc ≠ .ok then
      reply clientFD (str "Encountered an error during namecheck\n")
      return perfJob
    else
      perfRange clientFD kind partToPerf perfJob
  else
    perfRange clientFD kind partToPerf perfJob
where
  missing : Sys PerfJobInfo := do
    reply clientFD (str "expected all arguments. Try again.\n")
    return perfJob

/-- A performance command misses one of its arguments, or has all four. -/
lemma perfCommand_cases (clientFD : ℤ) (kind : PerfKind) (c : Command) (perfJob : PerfJobInfo) :
    ((c.arg1 = none ∨ c.arg2 = none ∨ c.arg3 = none ∨ c.extra = none) ∧
      perfCommand clientFD kind c perfJob = perfCommand.missing clientFD perfJob) ∨
    ∃ arg1 arg2 arg3 extra, c.arg1 = some arg1 ∧ c.arg2 = some arg2 ∧ c.arg3 = some arg3 ∧
      c.extra = some extra ∧
      perfCommand clientFD kind c perfJob =
        if kind.checksName then do
          let rc ← nvmeCheckNameSafetyPartNumber (toU8 (atoi arg1))
          if rc = .badName then
            reply clientFD
              (str "Cannot test performance on a partition that doesn't prefix with AESD with " ++
                str "SAFE_MODE active." ++ continuation ++
                str "\nTry to test a partition created with this utility instead.\n")
            return perfJobOf arg2 arg3 extra
          else if rc ≠ .ok then
            reply clientFD (str "Encountered an error during namecheck\n")
            return perfJobOf arg2 arg3 extra
          else
            perfRange clientFD kind (atoi arg1) (perfJobOf arg2 arg3 extra)
        else
          perfRange clientFD kind (atoi arg1) (perfJobOf arg2 arg3 extra) := by
  unfold perfCommand
  cases c.arg1 with
  | none => exact .inl ⟨.inl rfl, rfl⟩
  | some arg1 =>
    cases c.arg2 with
    | none => exact .inl ⟨.inr (.inl rfl), rfl⟩
    | some arg2 =>
      cases c.arg3 with
      | none => exact .inl ⟨.inr (.inr (.inl rfl)), rfl⟩
      | some arg3 =>
        cases c.extra with
        | none => exact .inl ⟨.inr (.inr (.inr rfl)), rfl⟩
        | some extra => exact .inr ⟨arg1, arg2, arg3, extra, rfl, rfl, rfl, rfl, rfl⟩

/-! ### Dispatch -/

/-- `strncmp(cmd, word, sizeof(word)) == 0`. -/
def Command.is (c : Command) (word : String) : Bool :=
  strncmp c.cmd (str word) (word.length + 1) == 0

/-- `%s` of an argument in the trace line. -/
def orNull (s : Option Text) : Text := s.getD (str "(null)")

/-- Execute one command: whether the session goes on, and the job left in `perfJob`. -/
def dispatch (clientFD : ℤ) (past : ℕ → Byte) (c : Command) (perfJob : PerfJobInfo) :
    Sys (Bool × PerfJobInfo) := do
  printf (str "cmd: " ++ c.cmd ++ str " | arg1:" ++ orNull c.arg1 ++ str " | arg2:" ++
    orNull c.arg2 ++ str " | arg3:" ++ orNull c.arg3 ++ str " | extra:" ++ orNull c.extra ++
    str "\n")
  if c.is "?" || c.is "help" then do
    sendCommandUsage clientFD
    return (true, perfJob)
  else if c.is "status" then do
    let _ ← redirected clientFD nvmeGetStatus
    return (true, perfJob)
  else if c.is "listparts" || c.is "ls" then do
    listparts clientFD
    return (true, perfJob)
  else if c.is "quit" then
    return (false, perfJob)
  else if c.is "mkpart" then do
    mkpart clientFD c
    return (true, perfJob)
  else if c.is "rmpart" then do
    rmpart clientFD c
    return (true, perfJob)
  else if c.is "write" then do
    write clientFD past c
    return (true, perfJob)
  else if c.is "read" then do
    read clientFD c
    return (true, perfJob)
  else if c.is "seq_write" || c.is "sw" then
    return (true, ← perfCommand clientFD .seqWrite c perfJob)
  else if c.is "seq_read" || c.is "sr" then
    return (true, ← perfCommand clientFD .seqRead c perfJob)
  else if c.is "rand_write" || c.is "rw" then
    return (true, ← perfCommand clientFD .randWrite c perfJob)
  else if c.is "rand_read" || c.is "rr" then do
    let perfJob ← perfCommand clientFD .randRead c perfJob
    return (true, perfJob)
  else
    return (true, perfJob)

/-- The branches of the dispatcher. -/
inductive CommandKind where
  | help | status | listparts | quit | mkpart | rmpart | write | read
  | perf (kind : PerfKind)
  | unknown
  deriving DecidableEq

/-- The branch that a command takes. -/
def Command.kind (c : Command) : CommandKind :=
  if c.is "?" || c.is "help" then .help
  else if c.is "status" then .status
  else if c.is "listparts" || c.is "ls" then .listparts
  else if c.is "quit" then .quit
  else if c.is "mkpart" then .mkpart
  else if c.is "rmpart" then .rmpart
  else if c.is "write" then .write
  else if c.is "read" then .read
  else if c.is "seq_write" || c.is "sw" then .perf .seqWrite
  else if c.is "seq_read" || c.is "sr" then .perf .seqRead
  else if c.is "rand_write" || c.is "rw" then .perf .randWrite
  else if c.is "rand_read" || c.is "rr" then .perf .randRead
  else .unknown

/-- The text that traces a command. -/
def Command.trace (c : Command) : Text :=
  str "cmd: " ++ c.cmd ++ str " | arg1:" ++ orNull c.arg1 ++ str " | arg2:" ++
    orNull c.arg2 ++ str " | arg3:" ++ orNull c.arg3 ++ str " | extra:" ++ orNull c.extra ++
    str "\n"

/-- The body of a branch. -/
def runBranch (clientFD : ℤ) (past : ℕ → Byte) (c : Command) (perfJob : PerfJobInfo) :
    CommandKind → Sys (Bool × PerfJobInfo)
  | .help      => do
    sendCommandUsage clientFD
    return (true, perfJob)
  | .status    => do
    let _ ← redirected clientFD nvmeGetStatus
    return (true, perfJob)
  | .listparts => do
    listparts clientFD
    return (true, perfJob)
  | .quit      => return (false, perfJob)
  | .mkpart    => do
    mkpart clientFD c
    return (true, perfJob)
  | .rmpart    => do
    rmpart clientFD c
    return (true, perfJob)
  | .write     => do
    write clientFD past c
    return (true, perfJob)
  | .read      => do
    read clientFD c
    return (true, perfJob)
  | .perf kind => return (true, ← perfCommand clientFD kind c perfJob)
  | .unknown   => return (true, perfJob)

/-- The dispatcher prints the trace and executes one branch. -/
lemma dispatch_eq (clientFD : ℤ) (past : ℕ → Byte) (c : Command) (perfJob : PerfJobInfo) :
    dispatch clientFD past c perfJob =
      printf c.trace >>= fun _ => runBranch clientFD past c perfJob c.kind := by
  simp only [Command.kind, apply_ite (runBranch clientFD past c perfJob)]
  rfl

/-- The messages of one session, executed one after the other until `quit`. Each comes with the
bytes that follow its `arg2` in memory. -/
def serve (clientFD : ℤ) : List (Command × (ℕ → Byte)) → PerfJobInfo → Sys Unit
  | [], _                   => return ()
  | (c, past) :: rest, job => do
    let (threadActive, job) ← dispatch clientFD past c job
    if threadActive then
      serve clientFD rest job
    else
      return ()

end Aesd
