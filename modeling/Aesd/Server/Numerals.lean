import Aesd.Server.PartitionNumbers

/-!
# Numeric arguments

Partition numbers, sizes, offsets and counts are read off by `atoi`, which has a value for every
token. What a command is to do with them is stated for the tokens that are decimal numerals.
-/

namespace Aesd

open Effect CInt

/-! ### Decimal numerals -/

/-- The value of a string of decimal digits. -/
def decimalValue (s : Text) : ℕ := Nat.ofDigits 10 (s.reverse.map fun b => b.toNat - 48)

def decimalDigits (s : Text) : Option ℤ :=
  if s ≠ [] ∧ s.all isdigit = true then some (decimalValue s) else none

/-- The value of an optionally signed decimal numeral. -/
def numeral : Text → Option ℤ
  | 45 :: s => (decimalDigits s).map (- ·)
  | 43 :: s => decimalDigits s
  | s       => decimalDigits s

/-- The partition that a command names. -/
def Command.partition (number : Text → ℤ) (d : Device) (c : Command) : Option PedPartition :=
  c.arg1.bind fun s => pedDiskGetPartition d.table (number s)

/-- A sector offset that may be left out. -/
def offsetOf (number : Text → ℤ) (arg : Option Text) : ℤ := arg.elim 0 number

/-- The job that a performance command describes. -/
def Command.exactJob (number : Text → ℤ) (c : Command) : Option PerfJobInfo := do
  let arg2 ← c.arg2
  let arg3 ← c.arg3
  let extra ← c.extra
  return { lbaRange := { startlba := number arg2, endlba := number arg3 }
           durationMs := atoi extra }

/-- The range lies in a partition, whose sectors it counts from 0. -/
def LbaRange.Within (range : LbaRange) (geom : PedGeometry) : Prop :=
  0 ≤ range.startlba ∧ range.startlba ≤ range.endlba ∧ range.endlba < geom.length

instance (range : LbaRange) (geom : PedGeometry) : Decidable (range.Within geom) :=
  inferInstanceAs (Decidable (_ ∧ _))

instance (job : PerfJobInfo) : Decidable job.InOrder := inferInstanceAs (Decidable (_ ∧ _))

/-- The job on the sectors of the disk. -/
def PerfJobInfo.on (job : PerfJobInfo) (geom : PedGeometry) : PerfJobInfo :=
  { job with lbaRange :=
      { startlba := geom.start + job.lbaRange.startlba
        endlba := geom.start + job.lbaRange.endlba } }

/-- The partition that a job is for, unless it is turned down before its range is checked. -/
def PerfJobInfo.part (job : PerfJobInfo) (disk : PedDisk) (kind : PerfKind) (num : ℤ) :
    Option PedPartition :=
  if job.InOrder then
    (pedDiskGetPartition disk num).filter fun part => !kind.checksName || part.isAesd
  else
    none

/-- The calls that a command is to get to, with the numbers that `number` reads off. The range of a
performance command is left out here: it cannot be checked if the disk cannot be opened again. -/
def Command.Intends (number : Text → ℤ) (d : Device) (past : ℕ → Byte) (c : Command)
    (op : SysOp) : Prop :=
  match c.kind with
  | .mkpart    =>
    ∃ size, c.arg1 = some size ∧ 0 < number size ∧ ∃ start end_,
      requestRegion d.dev d.table (number size) = some (.ok (start, end_)) ∧
      Creates d start end_ op
  | .rmpart    =>
    ∃ part, c.partition number d = some part ∧ 0 < part.num ∧ part.isAesd = true ∧
      Deletes d.table part op
  | .write     =>
    ∃ part, c.partition number d = some part ∧ part.isAesd = true ∧ ∃ data, c.arg2 = some data ∧
      op = .pedGeometryWrite part.geom (tokenMemory data past) (offsetOf number c.arg3) 1
  | .read      =>
    ∃ part, c.partition number d = some part ∧ ∃ count, c.arg3 = some count ∧
      0 < number count ∧ op = .pedGeometryRead part.geom (offsetOf number c.arg2)
        (number count * 512 / d.dev.sectorSize)
  | .perf kind =>
    ∃ num, c.arg1 = some num ∧ ∃ job, c.exactJob number = some job ∧
      ∃ part, job.part d.table kind (number num) = some part ∧
        op = .perfStart kind (job.on part.geom)
  | _          => False

/-- The job that a performance command is to start, all checks included. -/
def Command.intendedJob (number : Text → ℤ) (d : Device) (c : Command) (kind : PerfKind) :
    Option PerfJobInfo := do
  let num ← c.arg1
  let job ← c.exactJob number
  let part ← job.part d.table kind (number num)
  if job.lbaRange.Within part.geom then some (job.on part.geom) else none

/-- A command does what it is to do with the numbers that `number` reads off, and partitions that it
does not name have no say in that. -/
def Command.Keeps (number : Text → ℤ) (d : Device) (c : Command) (past : ℕ → Byte)
    (run : Sys (Bool × PerfJobInfo)) : Prop :=
  Follows d c run (c.Intends number d past) (c.intendedJob number d) ∧
    ∀ num, c.kind.NamesPartition → c.arg1 = some num → OnlyNamed d (number num) run

/-- The job in the `uint32_t` fields of `lbaRange_t`. -/
def PerfJobInfo.stored (job : PerfJobInfo) : PerfJobInfo :=
  { job with lbaRange :=
      { startlba := toU32 job.lbaRange.startlba, endlba := toU32 job.lbaRange.endlba } }

/-- The job has the same sectors of the disk in `uint32_t` fields, and its range is found to be in
the partition if it is. -/
def PerfJobInfo.Fits (job : PerfJobInfo) (part : PedPartition) : Prop :=
  0 ≤ part.geom.start + job.lbaRange.startlba ∧
    part.geom.start + job.lbaRange.endlba < 2 ^ 32 ∧
    (lbaRangeInBounds part.geom job.stored.lbaRange = true ↔ job.lbaRange.Within part.geom)

variable {d : Device} {c : Command} {past : ℕ → Byte} {op : SysOp} {kind : PerfKind}
  {disk : PedDisk} {num : ℤ} {job : PerfJobInfo} {number number' : Text → ℤ} {fd : ℤ}
  {perfJob : PerfJobInfo}

/-! ### Reading numbers off -/

end Aesd
