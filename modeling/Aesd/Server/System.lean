import Aesd.Lib.Interleaving
import Aesd.Lib.CInt

/-!
# What the server calls

The server is a program over the calls it makes to the outside: libparted, the performance
module, its client's socket, standard output, the descriptor table and the heap. `SysOp` lists
them and `Answer` gives the type of what each returns; C strings are lists of bytes without the
terminating NUL.

libparted is not part of the repository. `pedExec` says what is assumed of it: `ped_disk_new`
reads the on-disk table, a commit replaces it, an added partition takes an unused number and
free sectors, and sector transfers stay inside the geometry they are given. Every call may fail.
-/

namespace Aesd

open Effect CInt

/-- A C string, without its terminator. -/
abbrev Text := List Byte

/-- The bytes of a string literal. -/
def str (s : String) : Text := s.toList.map Char.toUInt8

/-- What `%d` and `%lld` print. -/
def dec (n : ℤ) : Text := str (toString n)

/-- `strncmp`: the difference of the first bytes, among the first `n`, in which the strings
differ. -/
def strncmp : Text → Text → ℕ → ℤ
  | x :: a, y :: b, n + 1 => if x = y then strncmp a b n else x.toNat - y.toNat
  | x :: _, [], _ + 1     => x.toNat
  | [], y :: _, _ + 1     => -y.toNat
  | [], [], _             => 0
  | _, _, 0               => 0

/-- A region of the disk, both ends included. Sector numbers are libparted's `PedSector`, a
64-bit signed integer. -/
structure PedGeometry where
  start : ℤ
  end_ : ℤ
  start_nonneg : 0 ≤ start := by decide
  start_le_end : start ≤ end_ := by decide
  end_lt : end_ < 2 ^ 63 := by decide
  deriving DecidableEq

namespace PedGeometry

/-- The `length` field, which libparted keeps at `end - start + 1`. -/
def length (g : PedGeometry) : ℤ := g.end_ - g.start + 1

/-- `g` has the sector `x`. -/
def Has (g : PedGeometry) (x : ℤ) : Prop := g.start ≤ x ∧ x ≤ g.end_

instance (g : PedGeometry) (x : ℤ) : Decidable (g.Has x) :=
  inferInstanceAs (Decidable (_ ∧ _))

/-- No sector in common. -/
def Apart (g h : PedGeometry) : Prop := g.end_ < h.start ∨ h.end_ < g.start

instance (g h : PedGeometry) : Decidable (g.Apart h) := inferInstanceAs (Decidable (_ ∨ _))

lemma Apart.symm {g h : PedGeometry} (hgh : g.Apart h) : h.Apart g := Or.symm hgh

lemma Apart.not_has {g h : PedGeometry} (hgh : g.Apart h) {x : ℤ} (hx : g.Has x) :
    ¬ h.Has x := by
  simp only [Apart, Has] at *
  omega

end PedGeometry

/-- A numbered and named partition. -/
structure PedPartition where
  num : ℤ
  name : Text
  geom : PedGeometry
  deriving DecidableEq

/-- The partitions of a `PedDisk`: the on-disk table, or one thread's copy of it. -/
abbrev PedDisk := List PedPartition

/-- No two partitions share a sector. -/
def NonOverlapping (disk : PedDisk) : Prop := disk.Pairwise fun p q => p.geom.Apart q.geom

instance (disk : PedDisk) : Decidable (NonOverlapping disk) :=
  inferInstanceAs (Decidable (disk.Pairwise _))

instance : Std.Symm fun p q : PedPartition => p.geom.Apart q.geom := ⟨fun _ _ h => h.symm⟩

lemma NonOverlapping.apart {disk : PedDisk} (h : NonOverlapping disk) {p q : PedPartition}
    (hp : p ∈ disk) (hq : q ∈ disk) (hne : p ≠ q) : p.geom.Apart q.geom :=
  List.Pairwise.forall h hp hq hne

/-- `ped_disk_get_partition`. -/
def pedDiskGetPartition (disk : PedDisk) (num : ℤ) : Option PedPartition :=
  disk.find? fun p => p.num = num

/-- `ped_disk_get_last_partition_num`: the highest number in use, -1 if there is none. -/
def pedDiskGetLastPartitionNum (disk : PedDisk) : ℤ :=
  disk.foldr (fun p m => max p.num m) (-1)

lemma mem_of_pedDiskGetPartition {disk : PedDisk} {num : ℤ} {p : PedPartition}
    (h : pedDiskGetPartition disk num = some p) : p ∈ disk ∧ p.num = num := by
  refine ⟨List.mem_of_find?_eq_some h, ?_⟩
  simpa using List.find?_some h

/-- The highest number in use is one of a partition. -/
lemma exists_num_eq_last {disk : PedDisk} (h : pedDiskGetLastPartitionNum disk ≠ -1) :
    ∃ p ∈ disk, p.num = pedDiskGetLastPartitionNum disk := by
  induction disk with
  | nil => exact absurd rfl h
  | cons q disk ih =>
    change max q.num (pedDiskGetLastPartitionNum disk) ≠ -1 at h
    change ∃ p ∈ q :: disk, p.num = max q.num (pedDiskGetLastPartitionNum disk)
    rcases max_choice q.num (pedDiskGetLastPartitionNum disk) with hmax | hmax
    · exact ⟨q, List.mem_cons_self, hmax.symm⟩
    · rw [hmax] at h ⊢
      obtain ⟨p, hp, hnum⟩ := ih h
      exact ⟨p, List.mem_cons_of_mem _ hp, hnum⟩

/-- The `PedDevice` fields the server reads. -/
structure PedDevice where
  length : ℤ
  sectorSize : ℕ
  model : Text

/-! ### The performance module's job -/

/-- `lbaRange_t`: two `uint32_t`. -/
structure LbaRange where
  startlba : ℤ
  endlba : ℤ
  deriving DecidableEq

/-- `perfJobInfo_t`, declared in the performance submodule: the fields the server sets. -/
structure PerfJobInfo where
  lbaRange : LbaRange
  durationMs : ℤ
  deriving DecidableEq

/-- The four entry points `perfStartSeqWrite`, `perfStartSeqRead`, `perfStartRandWrite` and
`perfStartRandRead`. -/
inductive PerfKind where
  | seqWrite | seqRead | randWrite | randRead
  deriving DecidableEq

/-! ### What libnvme reports -/

/-- The namespace fields the server prints; a missing string is `NULL`. -/
structure NvmeNs where
  name : Option Text
  nsid : ℤ
  lbaSize : ℤ
  lbaCount : ℤ

/-- The controller fields the server prints, and the controller's namespaces. -/
structure NvmeCtrl where
  name : Option Text
  model : Option Text
  serial : Option Text
  firmware : Option Text
  transport : Option Text
  address : Option Text
  namespaces : List NvmeNs

structure NvmeSubsystem where
  name : Option Text
  nqn : Option Text
  ctrls : List NvmeCtrl
  namespaces : List NvmeNs

/-- The tree `nvme_scan` builds: the subsystems of each host. -/
abbrev NvmeRoot := List (List NvmeSubsystem)

/-! ### Calls and their answers -/

/-- The calls that leave the program. `fault` is a use of a null pointer: it never returns. -/
inductive SysOp where
  | pedDeviceGet
  | pedDeviceOpen
  | pedDiskNew
  | pedFileSystemTypeGet (name : Text)
  | pedDiskGetPartitionAlignment (disk : PedDisk)
  | pedPartitionNew (start end_ : ℤ)
  | pedDiskAddPartition (disk : PedDisk) (start end_ : ℤ)
  | pedPartitionSetName (part : PedPartition) (name : Text)
  | pedDiskDeletePartition (disk : PedDisk) (part : PedPartition)
  | pedDiskCommitToDev (disk : PedDisk)
  | pedDiskCommitToOs (disk : PedDisk)
  | pedGeometryWrite (geom : PedGeometry) (buffer : ℕ → Byte) (offset count : ℤ)
  | pedGeometryRead (geom : PedGeometry) (offset count : ℤ)
  | pedGeometrySync (geom : PedGeometry)
  | nvmeScan
  | perfStart (kind : PerfKind) (job : PerfJobInfo)
  | send (fd : ℤ) (text : Text)
  | printf (text : Text)
  | dup (fd : ℤ)
  | dup2 (oldfd newfd : ℤ)
  | malloc (size : ℤ)
  | free (block : Option ℕ)
  | fault

/-- What each call returns. Pointers that may be `NULL` are options, and libparted's zero-or-one
results are Booleans; `perfStart` answers with the pieces of text it prints, `malloc` with a
block and the bytes left in it. -/
@[reducible] def Answer : SysOp → Type
  | .pedDeviceGet                   => Option PedDevice
  | .pedDeviceOpen                  => Bool
  | .pedDiskNew                     => Option PedDisk
  | .pedFileSystemTypeGet _         => Bool
  | .pedDiskGetPartitionAlignment _ => Option ℤ
  | .pedPartitionNew _ _            => Bool
  | .pedDiskAddPartition _ _ _      => Option PedPartition
  | .pedPartitionSetName _ _        => Bool
  | .pedDiskDeletePartition _ _     => Bool
  | .pedDiskCommitToDev _           => Bool
  | .pedDiskCommitToOs _            => Bool
  | .pedGeometryWrite _ _ _ _       => Bool
  | .pedGeometryRead _ _ _          => Option (List Byte)
  | .pedGeometrySync _              => Bool
  | .nvmeScan                       => Option NvmeRoot
  | .perfStart _ _                  => List Text
  | .send _ _                       => ℤ
  | .printf _                       => Unit
  | .dup _                          => ℤ
  | .dup2 _ _                       => Unit
  | .malloc _                       => Option (ℕ × (ℕ → Byte))
  | .free _                         => Unit
  | .fault                          => Empty

/-- Programs of the server. -/
abbrev Sys (α : Type) := Prog SysOp Answer α

/-- One call, as a program. -/
abbrev sys (op : SysOp) : Sys (Answer op) := Prog.perform op

/-- Calls that neither read nor change the disk. -/
def SysOp.Quiet : SysOp → Prop
  | .nvmeScan | .send _ _ | .printf _ | .dup _ | .dup2 _ _ | .malloc _ | .free _ | .fault => True
  | _ => False

/-- Programs that leave the disk alone. -/
abbrev Quiet {α : Type} (p : Sys α) : Prop := p.Only SysOp.Quiet

lemma quiet_then {α : Type} {p : Sys Unit} (hp : Quiet p) (a : α) :
    Quiet (do p; return a : Sys α) := hp.bind fun _ => trivial

/-! ### The device, and what libparted does to it -/

/-- The disk: its description, its partition table and the contents of its sectors. -/
structure Device where
  dev : PedDevice
  table : PedDisk
  sectors : ℤ → List Byte

/-- The `j`-th sector's worth of bytes of a buffer. -/
def sectorOf (size : ℕ) (buffer : ℕ → Byte) (j : ℕ) : List Byte :=
  (List.range size).map fun i => buffer (j * size + i)

/-- The sectors after `buffer` has been written to the `count` sectors from `first` on. -/
def Device.writeSectors (d : Device) (buffer : ℕ → Byte) (first count : ℤ) : Device :=
  { d with sectors := fun x =>
      if first ≤ x ∧ x < first + count then sectorOf d.dev.sectorSize buffer (x - first).toNat
      else d.sectors x }

/-- The contents of the `count` sectors from `first` on. -/
def Device.readSectors (d : Device) (first count : ℤ) : List Byte :=
  (List.range count.toNat).flatMap fun i => d.sectors (first + i)

/-- A transfer of `count` sectors at `offset` stays inside the geometry. -/
def PedGeometry.Fits (g : PedGeometry) (offset count : ℤ) : Prop :=
  0 ≤ offset ∧ 0 ≤ count ∧ offset + count ≤ g.length

instance (g : PedGeometry) (offset count : ℤ) : Decidable (g.Fits offset count) :=
  inferInstanceAs (Decidable (_ ∧ _))

/-- What `ped_disk_add_partition` may add to `disk`: an unnamed partition with an unused number
on sectors that no partition of `disk` has. -/
def Placed (disk : PedDisk) (p : PedPartition) : Prop :=
  p.name = [] ∧ 0 < p.num ∧ ∀ q ∈ disk, q.num ≠ p.num ∧ q.geom.Apart p.geom

instance (disk : PedDisk) (p : PedPartition) : Decidable (Placed disk p) :=
  inferInstanceAs (Decidable (_ ∧ _))

/-- The calls' effect on the device. A performance write may change any sector of its range;
everything that is neither a commit nor a write leaves the device alone. -/
def pedExec : (op : SysOp) → Device → Answer op → Device → Prop
  | .pedDeviceGet, d, r, d' => d' = d ∧ (r = none ∨ r = some d.dev)
  | .pedDiskNew, d, r, d' => d' = d ∧ (r = none ∨ r = some d.table)
  | .pedDiskAddPartition disk _ _, d, r, d' => d' = d ∧ ∀ p, r = some p → Placed disk p
  -- a commit that fails has done nothing
  | .pedDiskCommitToDev disk, d, r, d' =>
    (r = true ∧ d' = { d with table := disk }) ∨ (r = false ∧ d' = d)
  -- a write that fails may have changed any sector of the geometry
  | .pedGeometryWrite geom buffer offset count, d, r, d' =>
    (r = true ∧ geom.Fits offset count ∧ d' = d.writeSectors buffer (geom.start + offset) count) ∨
    (r = false ∧ d'.dev = d.dev ∧ d'.table = d.table ∧
      ∀ x, ¬ geom.Has x → d'.sectors x = d.sectors x)
  | .pedGeometryRead geom offset count, d, r, d' =>
    -- what is read are the bytes that are there
    d' = d ∧ ∀ bytes, r = some bytes →
      geom.Fits offset count ∧ bytes = d.readSectors (geom.start + offset) count
  | .perfStart kind job, d, _, d' =>
    d'.dev = d.dev ∧ d'.table = d.table ∧
      ∀ x, ¬ ((kind = .seqWrite ∨ kind = .randWrite) ∧
        job.lbaRange.startlba ≤ x ∧ x ≤ job.lbaRange.endlba) → d'.sectors x = d.sectors x
  -- the rest does not reach the disk
  | _, d, _, d' => d' = d

variable {op : SysOp} {d d' : Device} {r : Answer op}

lemma pedExec_dev (h : pedExec op d r d') : d'.dev = d.dev := by
  cases op with
  | pedDiskCommitToDev disk => rcases h with ⟨-, rfl⟩ | ⟨-, rfl⟩ <;> rfl
  | pedGeometryWrite geom buffer offset count =>
    rcases h with ⟨-, -, rfl⟩ | ⟨-, h, -⟩
    · rfl
    · exact h
  | perfStart kind job => exact h.1
  | pedDeviceGet => rw [h.1]
  | pedDiskNew => rw [h.1]
  | pedDiskAddPartition disk start end_ => rw [h.1]
  | pedGeometryRead geom offset count => rw [h.1]
  | _ => exact congrArg Device.dev h

/-- Only a commit changes the table. -/
lemma pedExec_table {Tid : Type} (t : Tid) (h : pedExec op d r d') :
    d'.table = d.table ∨
      ∃ disk, (⟨t, op, r⟩ : Event SysOp Answer Tid) = ⟨t, .pedDiskCommitToDev disk, true⟩ ∧
        d'.table = disk := by
  cases op with
  | pedDiskCommitToDev disk =>
    rcases h with ⟨rfl, rfl⟩ | ⟨rfl, rfl⟩
    · exact Or.inr ⟨disk, rfl, rfl⟩
    · exact Or.inl rfl
  | pedGeometryWrite geom buffer offset count =>
    rcases h with ⟨-, -, rfl⟩ | ⟨-, -, h, -⟩
    · exact Or.inl rfl
    · exact Or.inl h
  | perfStart kind job => exact Or.inl h.2.1
  | pedDeviceGet => exact Or.inl (by rw [h.1])
  | pedDiskNew => exact Or.inl (by rw [h.1])
  | pedDiskAddPartition disk start end_ => exact Or.inl (by rw [h.1])
  | pedGeometryRead geom offset count => exact Or.inl (by rw [h.1])
  | _ => exact Or.inl (congrArg Device.table h)

/-- The call to libparted succeeds. -/
def Succeeds : (op : SysOp) → Answer op → Prop
  | .pedDeviceGet, r                   => r.isSome = true
  | .pedDeviceOpen, r                  => r = true
  | .pedDiskNew, r                     => r.isSome = true
  | .pedFileSystemTypeGet _, r         => r = true
  | .pedDiskGetPartitionAlignment _, r => r.isSome = true
  | .pedPartitionNew _ _, r            => r = true
  | .pedDiskAddPartition _ _ _, r      => r.isSome = true
  | .pedPartitionSetName _ _, r        => r = true
  | .pedDiskDeletePartition _ _, r     => r = true
  | .pedDiskCommitToDev _, r           => r = true
  | .pedDiskCommitToOs _, r            => r = true
  | .pedGeometryWrite _ _ _ _, r       => r = true
  | .pedGeometryRead _ _ _, r          => r.isSome = true
  | .pedGeometrySync _, r              => r = true
  | _, _                               => True

/-- What the calls do when none of libparted's fails. -/
def pedExecOk (op : SysOp) (d : Device) (r : Answer op) (d' : Device) : Prop :=
  pedExec op d r d' ∧ Succeeds op r

section Ok

@[simp] lemma pedExecOk_pedDeviceGet {r : Answer .pedDeviceGet} :
    pedExecOk .pedDeviceGet d r d' ↔ r = some d.dev ∧ d' = d := by
  constructor
  · rintro ⟨⟨rfl, rfl | rfl⟩, h⟩
    · cases h
    · exact ⟨rfl, rfl⟩
  · rintro ⟨rfl, rfl⟩
    exact ⟨⟨rfl, Or.inr rfl⟩, rfl⟩

@[simp] lemma pedExecOk_pedDeviceOpen {r : Answer .pedDeviceOpen} :
    pedExecOk .pedDeviceOpen d r d' ↔ r = true ∧ d' = d := and_comm

@[simp] lemma pedExecOk_pedDiskNew {r : Answer .pedDiskNew} :
    pedExecOk .pedDiskNew d r d' ↔ r = some d.table ∧ d' = d := by
  constructor
  · rintro ⟨⟨rfl, rfl | rfl⟩, h⟩
    · cases h
    · exact ⟨rfl, rfl⟩
  · rintro ⟨rfl, rfl⟩
    exact ⟨⟨rfl, Or.inr rfl⟩, rfl⟩

@[simp] lemma pedExecOk_pedDiskDeletePartition {disk : PedDisk} {part : PedPartition}
    {r : Answer (.pedDiskDeletePartition disk part)} :
    pedExecOk (.pedDiskDeletePartition disk part) d r d' ↔ r = true ∧ d' = d := and_comm

@[simp] lemma pedExecOk_pedDiskCommitToDev {disk : PedDisk}
    {r : Answer (.pedDiskCommitToDev disk)} :
    pedExecOk (.pedDiskCommitToDev disk) d r d' ↔ r = true ∧ d' = { d with table := disk } := by
  constructor
  · rintro ⟨h | ⟨rfl, -⟩, hr⟩
    · exact h
    · cases hr
  · intro h
    exact ⟨Or.inl h, h.1⟩

@[simp] lemma pedExecOk_pedDiskCommitToOs {disk : PedDisk} {r : Answer (.pedDiskCommitToOs disk)} :
    pedExecOk (.pedDiskCommitToOs disk) d r d' ↔ r = true ∧ d' = d := and_comm

@[simp] lemma pedExecOk_pedGeometryWrite {geom : PedGeometry} {buffer : ℕ → Byte}
    {offset count : ℤ} {r : Answer (.pedGeometryWrite geom buffer offset count)} :
    pedExecOk (.pedGeometryWrite geom buffer offset count) d r d' ↔
      r = true ∧ geom.Fits offset count ∧
        d' = d.writeSectors buffer (geom.start + offset) count := by
  constructor
  · rintro ⟨h | ⟨rfl, -⟩, hr⟩
    · exact h
    · cases hr
  · intro h
    exact ⟨Or.inl h, h.1⟩

@[simp] lemma pedExecOk_pedGeometryRead {geom : PedGeometry} {offset count : ℤ}
    {r : Answer (.pedGeometryRead geom offset count)} :
    pedExecOk (.pedGeometryRead geom offset count) d r d' ↔
      r = some (d.readSectors (geom.start + offset) count) ∧ geom.Fits offset count ∧ d' = d := by
  constructor
  · rintro ⟨⟨rfl, h⟩, hr⟩
    cases r with
    | none => cases hr
    | some bytes =>
      obtain ⟨hfits, rfl⟩ := h bytes rfl
      exact ⟨rfl, hfits, rfl⟩
  · rintro ⟨rfl, hfits, rfl⟩
    refine ⟨⟨rfl, fun bytes hbytes => ⟨hfits, ?_⟩⟩, rfl⟩
    exact (Option.some.inj hbytes).symm

@[simp] lemma pedExecOk_pedGeometrySync {geom : PedGeometry} {r : Answer (.pedGeometrySync geom)} :
    pedExecOk (.pedGeometrySync geom) d r d' ↔ r = true ∧ d' = d := and_comm

@[simp] lemma pedExecOk_printf {text : Text} {r : Answer (.printf text)} :
    pedExecOk (.printf text) d r d' ↔ d' = d := iff_of_eq (and_true _)

@[simp] lemma pedExecOk_send {fd : ℤ} {text : Text} {r : Answer (.send fd text)} :
    pedExecOk (.send fd text) d r d' ↔ d' = d := iff_of_eq (and_true _)

end Ok

/-! ### A libparted to run -/

/-- A disk of a hundred sectors with the given partitions. -/
def diskWith (table : PedDisk) : Device where
  dev := { length := 100, sectorSize := 512, model := [] }
  table := table
  sectors _ := []

/-- The sectors between two with small numbers, both included. -/
def between (x y : UInt8) : PedGeometry where
  start := min x.toNat y.toNat
  end_ := max x.toNat y.toNat
  start_nonneg := by omega
  start_le_end := by omega
  end_lt := by
    have hx := x.toNat_lt
    have hy := y.toNat_lt
    omega

/-- An `AESD` partition. -/
def aesdPart (num : ℤ) (geom : PedGeometry) : PedPartition :=
  ⟨num, str "AESD Part " ++ dec num, geom⟩

/-- How a call of a concrete run turns out: it succeeds, fails, or adds the given partition. -/
inductive Outcome where
  | success | failure | place (part : PedPartition)

/-- The next `n` calls of thread `t` succeed. -/
def succeed {Tid : Type} (t : Tid) (n : ℕ) : List (Tid × Outcome) := List.replicate n (t, .success)

/-- The answer to a call whose outcome is given, and the device after it. -/
def pedRespond : (op : SysOp) → Device → Outcome → Option (Answer op × Device)
  | .pedDeviceGet, d, .success => some (some d.dev, d)
  | .pedDeviceGet, d, .failure => some (none, d)
  | .pedDeviceOpen, d, o => some (o matches .success, d)
  | .pedDiskNew, d, .success => some (some d.table, d)
  | .pedDiskNew, d, .failure => some (none, d)
  | .pedFileSystemTypeGet _, d, o => some (o matches .success, d)
  | .pedDiskGetPartitionAlignment _, d, .success => some (some 2048, d)
  | .pedPartitionNew _ _, d, o => some (o matches .success, d)
  | .pedDiskAddPartition disk _ _, d, .place part =>
    if Placed disk part then some (some part, d) else none
  | .pedDiskAddPartition _ _ _, d, .failure => some (none, d)
  | .pedPartitionSetName _ _, d, o => some (o matches .success, d)
  | .pedDiskDeletePartition _ _, d, o => some (o matches .success, d)
  | .pedDiskCommitToDev disk, d, .success => some (true, { d with table := disk })
  | .pedDiskCommitToDev _, d, .failure => some (false, d)
  | .pedDiskCommitToOs _, d, o => some (o matches .success, d)
  | .pedGeometryWrite geom buffer offset count, d, .success =>
    if geom.Fits offset count then
      some (true, d.writeSectors buffer (geom.start + offset) count)
    else none
  | .pedGeometrySync _, d, o => some (o matches .success, d)
  | .perfStart _ _, d, .success => some ([], d)
  | .send _ text, d, .success => some (text.length, d)
  | .printf _, d, .success => some ((), d)
  | .dup _, d, .success => some (3, d)
  | .dup2 _ _, d, .success => some ((), d)
  | _, _, _ => none

/-- The answers of `pedRespond` are possible ones. -/
lemma pedRespond_exec (op : SysOp) (d : Device) (o : Outcome) (r : Answer op) (d' : Device)
    (h : pedRespond op d o = some (r, d')) : pedExec op d r d' := by
  cases op with
  | pedDiskAddPartition disk start end_ =>
    cases o with
    | success => cases h
    | failure =>
      cases h
      exact ⟨rfl, fun p hp => by cases hp⟩
    | place part =>
      simp only [pedRespond] at h
      split_ifs at h with hpart
      cases h
      exact ⟨rfl, fun p hp => by cases hp; exact hpart⟩
  | pedGeometryWrite geom buffer offset count =>
    cases o with
    | success =>
      simp only [pedRespond] at h
      split_ifs at h with hfits
      cases h
      exact Or.inl ⟨rfl, hfits, rfl⟩
    | failure => cases h
    | place part => cases h
  | pedDiskCommitToDev disk =>
    cases o <;> cases h
    · exact Or.inl ⟨rfl, rfl⟩
    · exact Or.inr ⟨rfl, rfl⟩
  | pedDeviceGet =>
    cases o <;> cases h
    · exact ⟨rfl, Or.inr rfl⟩
    · exact ⟨rfl, Or.inl rfl⟩
  | pedDiskNew =>
    cases o <;> cases h
    · exact ⟨rfl, Or.inr rfl⟩
    · exact ⟨rfl, Or.inl rfl⟩
  | perfStart kind job =>
    cases o <;> cases h
    exact ⟨rfl, rfl, fun _ _ => rfl⟩
  | _ => cases o <;> cases h <;> rfl

end Aesd
